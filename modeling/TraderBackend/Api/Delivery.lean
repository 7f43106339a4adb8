import TraderBackend.Api.FailedSubscribe
import TraderBackend.Api.MarkPrice
import TraderBackend.Api.WebSocket

/-!
# Delivery to subscribers

`sendToSubscribers` sends a message to the websockets of a perpetual, to those of
one trader or to all.  Events about an order or an account go to their trader,
trades to everybody.

* **Sending.**  `sendToSubscribers`, the messages, and the handlers that send them.
* **To everybody.**  `count_broadcast`: a websocket is sent a broadcast once for every
  trader address it is registered under.  `broadcast_once_iff`: every client with a
  subscription is sent it once **if and only if** each is registered under one address.
* **To a trader.**  `targeted_reaches_trader_iff`: the clients of a trader are sent an
  event **if and only if** they have spelled the address as the events do and the
  handler comes to its send.
-/

namespace TraderBackend

open JsString

variable {W Order : Type*}

/-! ## Messages -/

/-- What a message is about. -/
inductive WsObj where
  | limitOrderCreated (symbol : String) (perpetualId : ℕ) (traderAddr brokerAddr orderId : String)
  | executionFailed (symbol : String) (perpetualId : ℕ) (traderAddr orderId reason : String)
  /-- `UpdateMarginAccountTrimmed`. -/
  | updateMarginAccount (traderAddr : String)
  | trade (symbol : String) (perpetualId : ℕ) (traderAddr orderId : String)
      (newPositionSizeBC executionPrice : ℚ)
  deriving DecidableEq

structure WSMsg where
  name : String
  obj : WsObj
  deriving DecidableEq

/-- What `JSONResponse` puts into one text. -/
structure JSONResponse where
  type : String
  msg : String
  data : WSMsg
  deriving DecidableEq

/-- `sendToSubscribers`: who is sent what, in this order. -/
def sendToSubscribers {M : Type*} (subscriptions : Subscriptions W) (perpetualId : ℕ) (message : M)
    (traderAddr : Option String) : List (W × M) :=
  match subscriptions.get? perpetualId with
  | none => []
  | some subscribers =>
      match traderAddr with
      | some traderAddr =>
          ((subscribers.get? traderAddr).getD []).map fun ws => (ws, message)
      | none => subscribers.entries.flatMap fun e => e.2.map fun ws => (ws, message)

/-! ## Handlers -/

/-- The market orders counted since the last reset. -/
structure EventFrequencyCount where
  createdCount : ℕ
  executedCount : ℕ
  lastResetTs : ℕ
  deriving DecidableEq

/-- The fields of the listener these handlers read and write. -/
structure HandlerState where
  eventControl : EventControl
  mktOrderFrequency : EventFrequencyCount
  lastBlockChainEventTs : ℕ

/-- What they ask of the SDK. -/
structure HandlerEnv (Order : Type*) where
  hashOrder : Order → String
  /-- `containsFlag(BigInt(order.flags), MASK_MARKET_ORDER)`. -/
  isMarketOrder : Order → Bool
  getSymbolFromPerpId : ℕ → Option String
  /-- The open interest of a symbol's perpetual; `none` is an error. -/
  extractPerpetualStateFromExchangeInfo : String → Option ℚ
  ABK64x64ToFloat : ℤ → ℚ

variable (env : HandlerEnv Order) (subscriptions : Subscriptions W) (now : ℕ) (s : HandlerState)

/-- `symbolFromPerpetualId`. -/
def symbolFromPerpetualId (perpetualId : ℕ) : String :=
  (env.getSymbolFromPerpId perpetualId).getD ""

/-- `onPerpetualLimitOrderCreated`. -/
def onPerpetualLimitOrderCreated (perpetualId : ℕ) (trader brokerAddr : String) (order : Order)
    (digest : String) : HandlerState × List (W × JSONResponse) :=
  let s := { s with lastBlockChainEventTs := now }
  -- counted before the check for duplicates
  let s :=
    if env.isMarketOrder order then
      { s with mktOrderFrequency :=
          { s.mktOrderFrequency with createdCount := s.mktOrderFrequency.createdCount + 1 } }
    else s
  let orderHash := env.hashOrder order
  match grantEventControlPassage s.eventControl orderHash .onPerpetualLimitOrderCreated with
  | (eventControl, false) => ({ s with eventControl := eventControl }, [])
  | (eventControl, true) =>
      ({ s with eventControl := eventControl },
        sendToSubscribers subscriptions perpetualId
          ⟨"onPerpetualLimitOrderCreated", "", ⟨"PerpetualLimitOrderCreated",
            .limitOrderCreated (symbolFromPerpetualId env perpetualId) perpetualId trader
              brokerAddr digest⟩⟩
          (some trader))

/-- `onExecutionFailed`. -/
def onExecutionFailed (perpetualId : ℕ) (trader digest reason : String) :
    HandlerState × List (W × JSONResponse) :=
  let s := { s with lastBlockChainEventTs := now }
  match grantEventControlPassage s.eventControl digest .onExecutionFailed with
  | (eventControl, false) => ({ s with eventControl := eventControl }, [])
  | (eventControl, true) =>
      ({ s with eventControl := eventControl },
        sendToSubscribers subscriptions perpetualId
          ⟨"onExecutionFailed", "", ⟨"ExecutionFailed",
            .executionFailed (symbolFromPerpetualId env perpetualId) perpetualId trader digest
              reason⟩⟩
          (some trader))

/-- `onUpdateMarginAccount`: the open interest it hands to `addOIObs`, which catches its errors,
and what it sends.  The subscriptions are those at the time of the send. -/
def onUpdateMarginAccount (perpetualId : ℕ) (trader : String) (_fFundingPaymentCC : ℤ) :
    Option ℚ × List (W × JSONResponse) :=
  let symbol := symbolFromPerpetualId env perpetualId
  if symbol = "" then (none, [])
  else
    match env.extractPerpetualStateFromExchangeInfo symbol with
    | none => (none, [])
    | some openInterestBC =>
        (some openInterestBC,
          sendToSubscribers subscriptions perpetualId
            ⟨"onUpdateMarginAccount", "", ⟨"UpdateMarginAccount", .updateMarginAccount trader⟩⟩
            (some trader))

/-- `onTrade`. -/
def onTrade (perpetualId : ℕ) (trader : String) (order : Order) (orderDigest : String)
    (newPositionSizeBC price : ℤ) : HandlerState × List (W × JSONResponse) :=
  let s :=
    if env.isMarketOrder order then
      { s with mktOrderFrequency :=
          { s.mktOrderFrequency with executedCount := s.mktOrderFrequency.executedCount + 1 } }
    else s
  let s := { s with lastBlockChainEventTs := now }
  let orderHash := env.hashOrder order
  match grantEventControlPassage s.eventControl orderHash .onTrade with
  | (eventControl, false) => ({ s with eventControl := eventControl }, [])
  | (eventControl, true) =>
      ({ s with eventControl := eventControl },
        sendToSubscribers subscriptions perpetualId
          ⟨"onTrade", "", ⟨"Trade",
            .trade (symbolFromPerpetualId env perpetualId) perpetualId trader orderDigest
              (env.ABK64x64ToFloat newPositionSizeBC) (env.ABK64x64ToFloat price)⟩⟩
          none)

/-! ## To everybody -/

variable [DecidableEq W]

/-- A client's own list names the perpetual. -/
def Registry.isSubscribedTo (r : Registry W) (ws : W) (perpetualId : ℕ) : Bool :=
  (r.pairsOf ws).any fun p => decide (p.1 = perpetualId)

/-- Of the entries of a map exactly those whose list has a websocket send it a broadcast, once
each if no list has it twice. -/
theorem count_flatMap_lists {M : Type*} [DecidableEq M] (message : M) (ws : W) :
    ∀ es : List (String × List W), (∀ e ∈ es, e.2.Nodup) →
      (es.flatMap fun e => e.2.map fun ws => (ws, message)).count (ws, message) =
        es.countP fun e => decide (ws ∈ e.2) := by
  intro es
  induction es with
  | nil => intro _; rfl
  | cons e es ih =>
    intro hnodup
    have hrest := ih fun e' he' => hnodup e' (List.mem_cons_of_mem _ he')
    have hinj : Function.Injective fun ws : W => (ws, message) := fun a b h => (Prod.mk.inj h).1
    have hone : (e.2.map fun ws => (ws, message)).count (ws, message) =
        if ws ∈ e.2 then 1 else 0 := by
      rw [List.count_map_of_injective _ _ hinj]
      exact (hnodup e (List.mem_cons_self ..)).count
    rw [List.flatMap_cons, List.count_append, hone, hrest, List.countP_cons]
    simp only [decide_eq_true_eq]
    omega

/-- A property holds at exactly one element of a list without repetitions. -/
theorem countP_eq_one_iff {α : Type*} {l : List α} (hnodup : l.Nodup) (p : α → Bool) :
    l.countP p = 1 ↔ ∃! a, a ∈ l ∧ p a = true := by
  rw [List.countP_eq_length_filter, List.length_eq_one_iff]
  constructor
  · rintro ⟨a, ha⟩
    have hmem : ∀ b, b ∈ l ∧ p b = true ↔ b = a := by
      intro b
      rw [← List.mem_filter, ha, List.mem_singleton]
    exact ⟨a, (hmem a).2 rfl, fun b hb => (hmem b).1 hb⟩
  · rintro ⟨a, ha, hunique⟩
    refine ⟨a, List.perm_singleton.1 ?_⟩
    rw [List.perm_ext_iff_of_nodup (hnodup.filter p) (List.nodup_singleton a)]
    intro b
    rw [List.mem_filter, List.mem_singleton]
    exact ⟨hunique b, fun hb => hb ▸ ha⟩

omit [DecidableEq W] in
/-- The list of a trader is an entry of the perpetual's map. -/
theorem mem_subscribersOf {subscriptions : Subscriptions W} {p : ℕ}
    {subscribers : OrdMap String (List W)} (hp : subscriptions.get? p = some subscribers)
    (t : String) (ws : W) :
    ws ∈ subscribersOf subscriptions (p, t) ↔ ∃ l, (t, l) ∈ subscribers.entries ∧ ws ∈ l := by
  simp only [subscribersOf, hp, Option.bind_some, ← OrdMap.get?_eq_some]
  cases subscribers.get? t with
  | none => simp
  | some l => simp

/-- A websocket is sent a broadcast once, if it is registered under exactly one address. -/
theorem count_broadcast {M : Type*} [DecidableEq M] {r : Registry W} (h : AtMostOnce r) (p : ℕ)
    (message : M) (ws : W) :
    ((sendToSubscribers r.subscriptions p message none).count (ws, message) = 1 ↔
        ∃! t, ws ∈ subscribersOf r.subscriptions (p, t)) ∧
      ((sendToSubscribers r.subscriptions p message none).count (ws, message) = 0 ↔
        ∀ t, ws ∉ subscribersOf r.subscriptions (p, t)) := by
  unfold sendToSubscribers
  cases hp : r.subscriptions.get? p with
  | none =>
    have hno : ∀ t, ws ∉ subscribersOf r.subscriptions (p, t) := by simp [subscribersOf, hp]
    refine ⟨⟨fun h => by simp at h, ?_⟩, by simpa using hno⟩
    rintro ⟨t, ht, -⟩
    exact absurd ht (hno t)
  | some subscribers =>
    have hmem := fun t => mem_subscribersOf hp t ws
    have hlists : ∀ e ∈ subscribers.entries, e.2.Nodup := by
      rintro ⟨t, l⟩ he
      have hlist : subscribersOf r.subscriptions (p, t) = l := by
        simp [subscribersOf, hp, OrdMap.get?_eq_some.2 he]
      exact hlist ▸ h.nodup_subscribers (p, t)
    rw [count_flatMap_lists message ws _ hlists]
    constructor
    · rw [countP_eq_one_iff subscribers.nodup_entries]
      constructor
      · rintro ⟨⟨t, l⟩, ⟨he, hws⟩, hunique⟩
        refine ⟨t, (hmem t).2 ⟨l, he, of_decide_eq_true hws⟩, fun t' ht' => ?_⟩
        obtain ⟨l', he', hws'⟩ := (hmem t').1 ht'
        exact congrArg Prod.fst (hunique (t', l') ⟨he', decide_eq_true hws'⟩)
      · rintro ⟨t, ht, hunique⟩
        obtain ⟨l, he, hws⟩ := (hmem t).1 ht
        refine ⟨(t, l), ⟨he, decide_eq_true hws⟩, ?_⟩
        rintro ⟨t', l'⟩ ⟨he', hws'⟩
        obtain rfl := hunique t' ((hmem t').2 ⟨l', he', of_decide_eq_true hws'⟩)
        have hl := OrdMap.get?_eq_some.2 he
        rw [OrdMap.get?_eq_some.2 he'] at hl
        rw [Option.some.inj hl]
    · rw [List.countP_eq_zero]
      constructor
      · intro hnone t ht
        obtain ⟨l, he, hws⟩ := (hmem t).1 ht
        exact hnone (t, l) he (decide_eq_true hws)
      · rintro hnone ⟨t, l⟩ he hws
        exact hnone t ((hmem t).2 ⟨l, he, of_decide_eq_true hws⟩)

theorem isSubscribedTo_iff {r : Registry W} {ws : W} {p : ℕ} :
    r.isSubscribedTo ws p = true ↔ ∃ t, (p, t) ∈ r.pairsOf ws := by
  rw [Registry.isSubscribedTo, List.any_eq_true]
  constructor
  · rintro ⟨⟨j, t⟩, hmem, hj⟩
    exact ⟨t, of_decide_eq_true hj ▸ hmem⟩
  · rintro ⟨t, hmem⟩
    exact ⟨(p, t), hmem, decide_eq_true rfl⟩

/-- Every client with a subscription for the perpetual is registered for it under exactly one
trader address. -/
def RegisteredOnce (r : Registry W) (p : ℕ) : Prop :=
  ∀ ws, r.isSubscribedTo ws p = true → ∃! t, ws ∈ subscribersOf r.subscriptions (p, t)

variable (getPerpIdFromSymbol : String → ℕ)

/-- **Broadcasts are sent once.**  After any sequence of calls, a broadcast for a perpetual is
sent exactly once to every client with a subscription for it and to nobody else, if and only if
each of these clients is registered for the perpetual under exactly one trader address. -/
theorem broadcast_once_iff {M : Type*} [DecidableEq M] (calls : List (Attempt W)) (p : ℕ)
    (message : M) :
    let r := Registry.init.attempts getPerpIdFromSymbol calls
    (∀ ws, (sendToSubscribers r.subscriptions p message none).count (ws, message) =
        if r.isSubscribedTo ws p then 1 else 0) ↔ RegisteredOnce r p := by
  intro r
  have h : AtMostOnce r := atMostOnce_init.attempts calls
  constructor
  · intro hsent ws hsub
    have hone := hsent ws
    rw [hsub] at hone
    exact (count_broadcast h p message ws).1.1 hone
  · intro honce ws
    cases hsub : r.isSubscribedTo ws p with
    | true => exact (count_broadcast h p message ws).1.2 (honce ws hsub)
    | false =>
      refine (count_broadcast h p message ws).2.2 fun t ht => ?_
      have hnamed := isSubscribedTo_iff.2 ⟨t, h.mem_pairsOf ht⟩
      rw [hsub] at hnamed
      cases hnamed

/-- A client that follows two traders of one perpetual. -/
def twoTraders : List (Attempt ℕ) :=
  [.subscribe 0 "BTC-USD-MATIC" "0x1111111111111111111111111111111111111111" none,
    .subscribe 0 "BTC-USD-MATIC" "0x2222222222222222222222222222222222222222" none]

/-- It is sent every broadcast twice. -/
theorem twoTraders_sent_twice :
    let r := Registry.init.attempts (fun _ => 100001) twoTraders
    r.isSubscribedTo 0 100001 = true ∧
      (sendToSubscribers r.subscriptions 100001 "{}" none).count (0, "{}") = 2 := by
  decide

/-! ## To a trader -/

/-- An event that is sent to the websockets of its trader. -/
inductive TargetedEvent (Order : Type*) where
  | perpetualLimitOrderCreated (perpetualId : ℕ) (trader brokerAddr : String) (order : Order)
      (digest : String)
  | executionFailed (perpetualId : ℕ) (trader digest reason : String)
  | updateMarginAccount (perpetualId : ℕ) (trader : String) (fFundingPaymentCC : ℤ)

namespace TargetedEvent

def perpetualId : TargetedEvent Order → ℕ
  | .perpetualLimitOrderCreated perpetualId .. => perpetualId
  | .executionFailed perpetualId .. => perpetualId
  | .updateMarginAccount perpetualId .. => perpetualId

def trader : TargetedEvent Order → String
  | .perpetualLimitOrderCreated _ trader .. => trader
  | .executionFailed _ trader .. => trader
  | .updateMarginAccount _ trader _ => trader

/-- What its handler sends. -/
def sends : TargetedEvent Order → List (W × JSONResponse)
  | .perpetualLimitOrderCreated perpetualId trader brokerAddr order digest =>
      (onPerpetualLimitOrderCreated env subscriptions now s perpetualId trader brokerAddr order
        digest).2
  | .executionFailed perpetualId trader digest reason =>
      (onExecutionFailed env subscriptions now s perpetualId trader digest reason).2
  | .updateMarginAccount perpetualId trader fFundingPaymentCC =>
      (onUpdateMarginAccount env subscriptions perpetualId trader fFundingPaymentCC).2

/-- The check of its handler for duplicates; that of `onUpdateMarginAccount` has none. -/
def passes (control : EventControl) : TargetedEvent Order → Bool
  | .perpetualLimitOrderCreated _ _ _ order _ =>
      (grantEventControlPassage control (env.hashOrder order) .onPerpetualLimitOrderCreated).2
  | .executionFailed _ _ digest _ =>
      (grantEventControlPassage control digest .onExecutionFailed).2
  | .updateMarginAccount .. => true

/-- Past that check, the handler comes to its send: that of `onUpdateMarginAccount` needs the
symbol of the perpetual and its state first. -/
def reaches : TargetedEvent Order → Bool
  | .updateMarginAccount perpetualId .. =>
      symbolFromPerpetualId env perpetualId != "" &&
        (env.extractPerpetualStateFromExchangeInfo
          (symbolFromPerpetualId env perpetualId)).isSome
  | _ => true

/-- The message it is sent as. -/
def message : TargetedEvent Order → JSONResponse
  | .perpetualLimitOrderCreated perpetualId trader brokerAddr _ digest =>
      ⟨"onPerpetualLimitOrderCreated", "", ⟨"PerpetualLimitOrderCreated",
        .limitOrderCreated (symbolFromPerpetualId env perpetualId) perpetualId trader brokerAddr
          digest⟩⟩
  | .executionFailed perpetualId trader digest reason =>
      ⟨"onExecutionFailed", "", ⟨"ExecutionFailed",
        .executionFailed (symbolFromPerpetualId env perpetualId) perpetualId trader digest reason⟩⟩
  | .updateMarginAccount _ trader _ =>
      ⟨"onUpdateMarginAccount", "", ⟨"UpdateMarginAccount", .updateMarginAccount trader⟩⟩

omit [DecidableEq W] in
/-- Past its check, a handler sends the message to the trader's list, if it comes to that. -/
theorem sends_eq (e : TargetedEvent Order) (hpass : e.passes env s.eventControl = true) :
    e.sends env subscriptions now s =
      if e.reaches env then
        sendToSubscribers subscriptions e.perpetualId (e.message env) (some e.trader)
      else [] := by
  cases e with
  | perpetualLimitOrderCreated perpetualId trader brokerAddr order digest =>
    obtain ⟨control, hgrant⟩ : ∃ control, grantEventControlPassage s.eventControl
        (env.hashOrder order) .onPerpetualLimitOrderCreated = (control, true) :=
      ⟨_, Prod.ext rfl hpass⟩
    simp only [sends, onPerpetualLimitOrderCreated, reaches, if_true]
    cases env.isMarketOrder order with
    | true =>
      simp only [if_true, hgrant]
      rfl
    | false =>
      simp only [Bool.false_eq_true, if_false, hgrant]
      rfl
  | executionFailed perpetualId trader digest reason =>
    obtain ⟨control, hgrant⟩ : ∃ control, grantEventControlPassage s.eventControl digest
        .onExecutionFailed = (control, true) := ⟨_, Prod.ext rfl hpass⟩
    simp only [sends, onExecutionFailed, reaches, if_true, hgrant]
    rfl
  | updateMarginAccount perpetualId trader fFundingPaymentCC =>
    simp only [sends, onUpdateMarginAccount, reaches, Bool.and_eq_true, bne_iff_ne, ne_eq]
    by_cases hsymbol : symbolFromPerpetualId env perpetualId = ""
    · simp [hsymbol]
    · rw [if_neg hsymbol]
      cases env.extractPerpetualStateFromExchangeInfo (symbolFromPerpetualId env perpetualId) with
      | none => simp
      | some openInterestBC => simp [hsymbol, message, TargetedEvent.perpetualId,
          TargetedEvent.trader]

end TargetedEvent

omit [DecidableEq W] in
/-- A targeted message goes to the list of its trader. -/
theorem mem_sendToSubscribers_trader {M : Type*} {subscriptions : Subscriptions W} {p : ℕ}
    {message : M} {trader : String} {ws : W} :
    (ws, message) ∈ sendToSubscribers subscriptions p message (some trader) ↔
      ws ∈ subscribersOf subscriptions (p, trader) := by
  unfold sendToSubscribers subscribersOf
  cases subscriptions.get? p <;> simp

/-- The client has a subscription for the perpetual with an address that is valid and, up to the
case of its digits, the given one. -/
def Denotes (r : Registry W) (ws : W) (p : ℕ) (addr : String) : Prop :=
  ∃ a, (p, a) ∈ r.pairsOf ws ∧ isValidAddress a = true ∧ toLowerCase a = toLowerCase addr

/-- **Targeted events reach their trader.**  After any sequence of subscribes and unsubscribes, an
event that passes its handler's check is sent to exactly the clients with a subscription that
denotes its trader, if and only if each of them has spelled the address as the event does and the
handler comes to its send. -/
theorem targeted_reaches_trader_iff (calls : List (RegistryCall W)) (e : TargetedEvent Order)
    (haddr : isValidAddress e.trader = true) (hpass : e.passes env s.eventControl = true) :
    let r := Registry.init.run getPerpIdFromSymbol calls
    (∀ ws, (ws, e.message env) ∈ e.sends env r.subscriptions now s ↔
        Denotes r ws e.perpetualId e.trader) ↔
      ∀ ws, Denotes r ws e.perpetualId e.trader →
        (e.perpetualId, e.trader) ∈ r.pairsOf ws ∧ e.reaches env = true := by
  intro r
  have h : Consistent r := consistent_run getPerpIdFromSymbol consistent_init calls
  have hsent : ∀ ws, (ws, e.message env) ∈ e.sends env r.subscriptions now s ↔
      (e.perpetualId, e.trader) ∈ r.pairsOf ws ∧ e.reaches env = true := by
    intro ws
    rw [e.sends_eq env r.subscriptions now s hpass]
    cases e.reaches env with
    | true =>
      rw [if_pos rfl, mem_sendToSubscribers_trader, h.mem_subscribersOf]
      simp
    | false => simp
  constructor
  · intro hall ws hdenotes
    exact (hsent ws).1 ((hall ws).2 hdenotes)
  · intro hspelled ws
    rw [hsent ws]
    exact ⟨fun hmem => ⟨e.trader, hmem.1, haddr, rfl⟩, hspelled ws⟩

/-- One perpetual, and orders that are their own hash. -/
def btcEnv : HandlerEnv String where
  hashOrder order := order
  isMarketOrder _ := true
  getSymbolFromPerpId _ := some "BTC-USD-MATIC"
  extractPerpetualStateFromExchangeInfo _ := some 10
  ABK64x64ToFloat x := x / 2 ^ 64

/-- An order of a trader, in the spelling of the chain library. -/
def btcOrderCreated : TargetedEvent String :=
  .perpetualLimitOrderCreated 100001 "0x5aAeb6053F3E94C9b9A09f33669435E7Ef1BeAed"
    "0x0000000000000000000000000000000000000000" "order" "0xd1"

/-- The listener before its first event. -/
def beforeEvents : HandlerState := ⟨EventControl.init, ⟨0, 0, 0⟩, 0⟩

/-- The trader subscribes with lower-case digits, and is not sent the order. -/
theorem lowerCase_not_sent :
    onMessage (some ⟨some "subscription", some "0x5aaeb6053f3e94c9b9a09f33669435e7ef1beaed",
        some "BTC-USD-MATIC"⟩) =
      .await ⟨"BTC-USD-MATIC", "0x5aaeb6053f3e94c9b9a09f33669435e7ef1beaed"⟩ ∧
    let r := Registry.init.run (fun _ => 100001)
      [.subscribe () "BTC-USD-MATIC" "0x5aaeb6053f3e94c9b9a09f33669435e7ef1beaed"]
    Denotes r () 100001 btcOrderCreated.trader ∧
      btcOrderCreated.passes btcEnv beforeEvents.eventControl = true ∧
      btcOrderCreated.sends btcEnv r.subscriptions 0 beforeEvents = [] :=
  ⟨by decide, ⟨"0x5aaeb6053f3e94c9b9a09f33669435e7ef1beaed", by decide, by decide, by decide⟩,
    by decide, by decide⟩

/-- The law at work on the spelling of the event. -/
theorem sameSpelling_sent :
    ((), btcOrderCreated.message btcEnv) ∈ btcOrderCreated.sends btcEnv
      (Registry.init.run (fun _ => 100001)
        [.subscribe () "BTC-USD-MATIC" "0x5aAeb6053F3E94C9b9A09f33669435E7Ef1BeAed"]).subscriptions
      0 beforeEvents := by
  have hiff := targeted_reaches_trader_iff btcEnv 0 beforeEvents (fun _ => 100001)
    [.subscribe () "BTC-USD-MATIC" "0x5aAeb6053F3E94C9b9A09f33669435E7Ef1BeAed"] btcOrderCreated
    (by decide) (by decide)
  have hspelled : ∀ ws : Unit, (100001, btcOrderCreated.trader) ∈ (Registry.init.run
      (fun _ => 100001) [.subscribe () "BTC-USD-MATIC"
        "0x5aAeb6053F3E94C9b9A09f33669435E7Ef1BeAed"]).pairsOf ws := by decide
  refine (hiff.2 (fun ws _ => ⟨hspelled ws, rfl⟩) ()).2 ?_
  exact ⟨"0x5aAeb6053F3E94C9b9A09f33669435E7Ef1BeAed", by decide, by decide, rfl⟩

end TraderBackend
