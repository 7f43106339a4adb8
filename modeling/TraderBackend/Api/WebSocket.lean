import TraderBackend.Lib.JsString
import TraderBackend.Utils.Validation
import TraderBackend.Api.Registry

/-!
# Messages of a websocket

`initWebSocket` registers two handlers for every client: one for messages, which
suspends at `sdk.extractPerpetualStateFromExchangeInfo` before it subscribes, and
one for the close event, which acts at once, as unsubscribe messages do.

* **The handlers.**  `onMessage` is the message handler up to its await,
  `Connection.step` the arrival of an input or the resumption of a suspended
  handler.
* **Undoing.**  `strip` is the registry without one client.  No operation of that
  client changes it (`strip_subscribe`, `strip_release`), and `unsubscribe` leaves
  exactly it behind: `unsubscribe_subscribeAll`.
* **Order.**  `processed_in_order_iff`: the registry ends as if the inputs had
  been processed in their order of arrival **if and only if** the subscribes that
  resume after the last unsubscribe or close are those that arrived after it.
-/

namespace TraderBackend

open JsString

/-! ## The handlers -/

/-- A message after `JSON.parse`; a field that is no string is missing. -/
structure WsMessage where
  type : Option String
  traderAddr : Option String
  symbol : Option String
  deriving DecidableEq

/-- A subscription whose handler waits for the perpetual's state. -/
structure SubscribeRequest where
  symbol : String
  traderAddr : String
  deriving DecidableEq

/-- What the message handler does before its await. -/
inductive MessageAction where
  | ping
  | unsubscribe
  | await (request : SubscribeRequest)
  | error
  deriving DecidableEq

/-- The message handler up to its await; `none` is a message that is no JSON. -/
def onMessage (msg : Option WsMessage) : MessageAction :=
  match msg with
  | none => .error
  | some obj =>
      if obj.type = some "ping" then .ping
      else if obj.type = some "unsubscribe" then .unsubscribe
      else
        match obj.traderAddr, obj.symbol with
        | some traderAddr, some symbol =>
            if isValidAddress traderAddr && isValidPerpSymbol symbol then
              .await ⟨toUpperCase symbol, traderAddr⟩
            else .error
        | _, _ => .error

/-- What is sent to the client. -/
inductive WsReply where
  | pong
  | subscription (symbol : String)
  /-- With the code `SUBSCRIBE_ERROR` and the symbol of the message, if it had one. -/
  | subscribeError (symbol : Option String)
  deriving DecidableEq

/-- The registry with the suspended handlers of one websocket and what was sent to it. -/
structure Connection (W : Type*) where
  registry : Registry W
  pending : List SubscribeRequest
  sent : List WsReply

/-- What happens to the websocket: a message, the close event, or the state a suspended
handler waits for being there. -/
inductive WsEvent where
  | message (msg : Option WsMessage)
  | close
  | resolved (request : SubscribeRequest)
  deriving DecidableEq

variable {W : Type*} [DecidableEq W] (getPerpIdFromSymbol : String → ℕ)

/-- `eventListener.subscribe` for a request. -/
def subscribeRequest (r : Registry W) (ws : W) (request : SubscribeRequest) : Registry W :=
  (subscribe getPerpIdFromSymbol (fun _ => none) r ws request.symbol request.traderAddr).registry

/-- One event; only a suspended handler can resume. -/
def Connection.step (ws : W) (c : Connection W) : WsEvent → Option (Connection W)
  | .message msg =>
      match onMessage msg with
      | .ping =>
          -- `isWsKnown`
          some (if (c.registry.clients.get? ws).isSome then { c with sent := c.sent ++ [.pong] }
            else c)
      | .unsubscribe => some { c with registry := (unsubscribe c.registry ws).registry }
      | .await request => some { c with pending := c.pending ++ [request] }
      | .error =>
          some { c with sent := c.sent ++ [.subscribeError (msg.bind WsMessage.symbol)] }
  | .close => some { c with registry := (unsubscribe c.registry ws).registry }
  | .resolved request =>
      if request ∈ c.pending then
        some
          { registry := subscribeRequest getPerpIdFromSymbol c.registry ws request
            pending := c.pending.erase request
            sent := c.sent ++ [.subscription request.symbol] }
      else none

/-- A schedule of events. -/
def Connection.run (ws : W) : List WsEvent → Connection W → Option (Connection W)
  | [], c => some c
  | e :: schedule, c => (c.step getPerpIdFromSymbol ws e).bind (Connection.run ws schedule)

/-- The connection when it is established. -/
def Connection.start (r : Registry W) : Connection W := ⟨r, [], []⟩

/-- The inputs of a schedule processed to completion one after the other. -/
def processInOrder (ws : W) (r : Registry W) (schedule : List WsEvent) : Registry W :=
  schedule.foldl (fun r e =>
    match e with
    | .message msg =>
        match onMessage msg with
        | .unsubscribe => (unsubscribe r ws).registry
        | .await request => subscribeRequest getPerpIdFromSymbol r ws request
        | _ => r
    | .close => (unsubscribe r ws).registry
    | .resolved _ => r) r

/-- The subscribes that have arrived and those that have resumed since the last unsubscribe
or close. -/
structure SinceCleared where
  arrived : List SubscribeRequest
  resumed : List SubscribeRequest
  deriving DecidableEq

/-- One more event of the schedule. -/
def SinceCleared.next (since : SinceCleared) : WsEvent → SinceCleared
  | .message msg =>
      match onMessage msg with
      | .unsubscribe => ⟨[], []⟩
      | .await request => { since with arrived := since.arrived ++ [request] }
      | _ => since
  | .close => ⟨[], []⟩
  | .resolved request => { since with resumed := since.resumed ++ [request] }

/-- Both lists of a schedule. -/
def sinceCleared (schedule : List WsEvent) : SinceCleared :=
  schedule.foldl SinceCleared.next ⟨[], []⟩

/-- The list of a client after requests in this order: the first for each perpetual and
trader. -/
def distinctSubscriptions (requests : List SubscribeRequest) : List ClientSubscription :=
  requests.foldl (fun subs request =>
    let id := getPerpIdFromSymbol request.symbol
    if subs.any fun s => decide (s.perpetualId = id ∧ s.traderAddr = request.traderAddr) then subs
    else subs ++ [⟨id, request.symbol, request.traderAddr⟩]) []

/-! ## The registry without a client -/

/-- A list without `ws`, unless nothing is left. -/
def stripList (ws : W) (subscribers : List W) : Option (List W) :=
  let rest := subscribers.filter fun w => decide (w ≠ ws)
  if rest = [] then none else some rest

/-- A map of trader lists without `ws`, unless nothing is left. -/
def stripMap (ws : W) (traderMap : OrdMap String (List W)) : Option (OrdMap String (List W)) :=
  let rest := traderMap.filterMapVal (stripList ws)
  if rest.size = 0 then none else some rest

/-- The subscriptions of everybody but `ws`. -/
def strip (ws : W) (subscriptions : Subscriptions W) : Subscriptions W :=
  subscriptions.filterMapVal (stripMap ws)

theorem stripList_append (ws : W) (subscribers : List W) :
    stripList ws (subscribers ++ [ws]) = stripList ws subscribers := by
  simp [stripList, List.filter_append]

theorem stripList_erase (ws : W) (subscribers : List W) :
    stripList ws (subscribers.erase ws) = stripList ws subscribers := by
  have hfilter : (subscribers.erase ws).filter (fun w => decide (w ≠ ws)) =
      subscribers.filter fun w => decide (w ≠ ws) := by
    induction subscribers with
    | nil => rfl
    | cons a subscribers ih =>
      by_cases ha : a = ws
      · subst ha; simp
      · rw [List.erase_cons_tail (by simpa using ha), List.filter_cons, List.filter_cons, ih]
  simp only [stripList, hfilter]

/-- A map is stripped alike when its lists are. -/
theorem stripMap_congr {ws : W} {m n : OrdMap String (List W)}
    (h : m.filterMapVal (stripList ws) = n.filterMapVal (stripList ws)) :
    stripMap ws m = stripMap ws n := by
  simp only [stripMap, h]

theorem stripMap_push (ws : W) (perpSubscribers : OrdMap String (List W)) (trader : String) :
    stripMap ws (pushSubscriber perpSubscribers trader ws) = stripMap ws perpSubscribers := by
  apply stripMap_congr
  rw [pushSubscriber]
  cases hget : perpSubscribers.get? trader with
  | none => exact OrdMap.filterMapVal_set_none hget (by simp [stripList])
  | some subscribers =>
    exact OrdMap.filterMapVal_set_same hget (stripList_append ws subscribers)

theorem stripMap_splice (ws : W) (traderMap : OrdMap String (List W)) (trader : String) :
    (spliceSubscriber traderMap trader ws).filterMapVal (stripList ws) =
      traderMap.filterMapVal (stripList ws) := by
  unfold spliceSubscriber
  cases hget : traderMap.get? trader with
  | none =>
    apply OrdMap.filterMapVal_erase
    intro w hw
    rw [hget] at hw
    exact absurd hw (by simp)
  | some subscribers =>
    simp only [List.isEmpty_iff]
    split
    · rename_i hempty
      apply OrdMap.filterMapVal_erase
      intro w hw
      rw [hget] at hw
      rw [← Option.some.inj hw, ← stripList_erase, hempty]
      rfl
    · exact OrdMap.filterMapVal_set_same hget (stripList_erase ws subscribers)

/-- A client's own subscribes do not show in the registry without it. -/
theorem strip_subscribe (r : Registry W) (ws : W) (request : SubscribeRequest) :
    strip ws (subscribeRequest getPerpIdFromSymbol r ws request).subscriptions =
      strip ws r.subscriptions := by
  unfold subscribeRequest subscribe
  simp only
  split
  · rfl
  · cases hid : r.subscriptions.get? (getPerpIdFromSymbol request.symbol) with
    | some perpSubscribers =>
      exact OrdMap.filterMapVal_set_same hid (stripMap_push ws perpSubscribers _)
    | none =>
      have hempty : stripMap ws (OrdMap.empty : OrdMap String (List W)) = none := rfl
      have hfirst := OrdMap.filterMapVal_set_none hid hempty
      refine Eq.trans ?_ hfirst
      exact OrdMap.filterMapVal_set_same (OrdMap.get?_set_self _ _ _) (stripMap_push ws _ _)

theorem strip_release (ws : W) (subscriptions : Subscriptions W) (s : ClientSubscription) :
    strip ws (releaseSubscription ws subscriptions s).1 = strip ws subscriptions := by
  unfold releaseSubscription
  cases hid : subscriptions.get? s.perpetualId with
  | none => rfl
  | some traderMap =>
    have hsame := stripMap_splice ws traderMap s.traderAddr
    simp only
    split
    · rename_i hsize
      apply OrdMap.filterMapVal_erase
      intro tm htm
      rw [hid] at htm
      have hnone : (spliceSubscriber traderMap s.traderAddr ws).filterMapVal (stripList ws) =
          OrdMap.empty := by
        apply OrdMap.ext
        rw [OrdMap.size, List.length_eq_zero_iff] at hsize
        simp [OrdMap.filterMapVal, hsize, OrdMap.empty]
      rw [← Option.some.inj htm, stripMap, ← hsame, hnone]
      rfl
    · exact OrdMap.filterMapVal_set_same hid (stripMap_congr hsame)

theorem strip_unsubscribeLoop (ws : W) :
    ∀ (clientSubscriptions : List ClientSubscription) (subscriptions : Subscriptions W),
      strip ws (unsubscribeLoop none ws clientSubscriptions subscriptions).1 =
        strip ws subscriptions := by
  intro clientSubscriptions
  induction clientSubscriptions with
  | nil => intro subscriptions; rfl
  | cons s rest ih =>
    intro subscriptions
    simp only [unsubscribeLoop, reduceCtorEq, if_false]
    rw [ih, strip_release]

/-- A registry in which the client does not occur is its own remainder. -/
theorem strip_of_absent {ws : W} {subscriptions : Subscriptions W} (h : WellFormed subscriptions)
    (habsent : ∀ p, ws ∉ subscribersOf subscriptions p) :
    strip ws subscriptions = subscriptions := by
  apply OrdMap.filterMapVal_id
  intro id traderMap hid
  have hlists : traderMap.filterMapVal (stripList ws) = traderMap := by
    apply OrdMap.filterMapVal_id
    intro trader subscribers htrader
    have hne := h.lists id traderMap trader subscribers hid htrader
    have hnot : ws ∉ subscribers := by
      have := habsent (id, trader)
      simpa [subscribersOf, hid, htrader] using this
    have hall : subscribers.filter (fun w => decide (w ≠ ws)) = subscribers := by
      apply List.filter_eq_self.2
      intro w hw
      have hww : w ≠ ws := by rintro rfl; exact hnot hw
      simpa using hww
    simp only [stripList, hall, if_neg hne]
  simp only [stripMap, hlists, if_neg (h.maps id traderMap hid)]

/-! ## Undoing subscriptions -/

/-- Several requests one after the other. -/
def subscribeAll (r : Registry W) (ws : W) (requests : List SubscribeRequest) : Registry W :=
  requests.foldl (fun r request => subscribeRequest getPerpIdFromSymbol r ws request) r

/-- What a client that was not known has after its requests. -/
structure Subscribed (r : Registry W) (ws : W) (requests : List SubscribeRequest)
    (r' : Registry W) : Prop where
  consistent : Consistent r'
  others : strip ws r'.subscriptions = r.subscriptions
  clients : r'.clients.erase ws = r.clients
  own : (r'.clients.get? ws).getD [] = distinctSubscriptions getPerpIdFromSymbol requests
  known : r'.clients.get? ws = none → r' = r

variable {getPerpIdFromSymbol}

theorem subscribeAll_append (r : Registry W) (ws : W) (requests : List SubscribeRequest)
    (request : SubscribeRequest) :
    subscribeAll getPerpIdFromSymbol r ws (requests ++ [request]) =
      subscribeRequest getPerpIdFromSymbol (subscribeAll getPerpIdFromSymbol r ws requests) ws
        request := by
  rw [subscribeAll, List.foldl_append]
  rfl

theorem distinctSubscriptions_append (requests : List SubscribeRequest)
    (request : SubscribeRequest) :
    distinctSubscriptions getPerpIdFromSymbol (requests ++ [request]) =
      if (distinctSubscriptions getPerpIdFromSymbol requests).any fun s =>
          decide (s.perpetualId = getPerpIdFromSymbol request.symbol ∧
            s.traderAddr = request.traderAddr) then
        distinctSubscriptions getPerpIdFromSymbol requests
      else distinctSubscriptions getPerpIdFromSymbol requests ++
        [⟨getPerpIdFromSymbol request.symbol, request.symbol, request.traderAddr⟩] := by
  rw [distinctSubscriptions, List.foldl_append]
  rfl

/-- Whether the list of the client names a pair. -/
theorem Subscribed.any_iff {r r' : Registry W} {ws : W} {requests : List SubscribeRequest}
    (h : Subscribed getPerpIdFromSymbol r ws requests r') (id : ℕ)
    (trader : String) :
    (distinctSubscriptions getPerpIdFromSymbol requests).any
        (fun s => decide (s.perpetualId = id ∧ s.traderAddr = trader)) = true ↔
      (id, trader) ∈ r'.pairsOf ws := by
  rw [Registry.pairsOf, h.own]
  simp [ClientSubscription.pair]

/-- One more request. -/
theorem Subscribed.next {r r' : Registry W} {ws : W} {requests : List SubscribeRequest}
    (h : Subscribed getPerpIdFromSymbol r ws requests r')
    (request : SubscribeRequest) :
    Subscribed getPerpIdFromSymbol r ws (requests ++ [request])
      (subscribeRequest getPerpIdFromSymbol r' ws request) := by
  have hcons := consistent_subscribe getPerpIdFromSymbol h.consistent ws request.symbol
    request.traderAddr
  have hothers := (strip_subscribe getPerpIdFromSymbol r' ws request).trans h.others
  have hspec := subscribe_spec getPerpIdFromSymbol r' ws request.symbol request.traderAddr
  have hany := h.any_iff (getPerpIdFromSymbol request.symbol) request.traderAddr
  rcases hspec with ⟨hmem, -, hreg, -⟩ | ⟨hnew, -, hclients, -⟩
  · have hsame : subscribeRequest getPerpIdFromSymbol r' ws request = r' := hreg
    refine ⟨hcons, hothers, ?_, ?_, ?_⟩
    · rw [hsame]; exact h.clients
    · rw [hsame, distinctSubscriptions_append, if_pos (hany.2 hmem)]; exact h.own
    · rw [hsame]; exact h.known
  · have hset : (subscribeRequest getPerpIdFromSymbol r' ws request).clients =
        r'.clients.set ws ((r'.clients.get? ws).getD [] ++
          [⟨getPerpIdFromSymbol request.symbol, request.symbol, request.traderAddr⟩]) := hclients
    refine ⟨hcons, hothers, ?_, ?_, ?_⟩
    · rw [hset, OrdMap.erase_set]; exact h.clients
    · rw [hset, OrdMap.get?_set_self, Option.getD_some, h.own, distinctSubscriptions_append,
        if_neg fun hc => hnew (hany.1 hc)]
    · intro hnone
      rw [hset, OrdMap.get?_set_self] at hnone
      exact absurd hnone (by simp)

variable (getPerpIdFromSymbol) in
theorem subscribed_subscribeAll {r : Registry W} (h : Consistent r) {ws : W}
    (hws : r.clients.get? ws = none) (requests : List SubscribeRequest) :
    Subscribed getPerpIdFromSymbol r ws requests
      (subscribeAll getPerpIdFromSymbol r ws requests) := by
  induction requests using List.reverseRecOn with
  | nil =>
    have habsent : ∀ p, ws ∉ subscribersOf r.subscriptions p := by
      intro p
      have hcount := h.counts ws p
      simp only [Registry.pairsOf, hws, Option.getD_none, List.map_nil, List.count_nil] at hcount
      exact List.count_eq_zero.1 hcount
    exact ⟨h, strip_of_absent h.wellFormed habsent, OrdMap.erase_of_none hws, by
      simp [subscribeAll, hws, distinctSubscriptions], fun _ => rfl⟩
  | append_singleton requests request ih =>
    rw [subscribeAll_append]
    exact ih.next request

/-- An unsubscribe takes back everything the client did. -/
theorem Subscribed.unsubscribe {r r' : Registry W} {ws : W} {requests : List SubscribeRequest}
    (h : Subscribed getPerpIdFromSymbol r ws requests r') :
    (unsubscribe r' ws).registry = r := by
  have hcons := consistent_unsubscribe h.consistent ws
  unfold TraderBackend.unsubscribe at hcons ⊢
  cases hws : r'.clients.get? ws with
  | none => exact h.known hws
  | some clientSubscriptions =>
    rw [hws] at hcons
    simp only at hcons ⊢
    have habsent : ∀ p, ws ∉ subscribersOf
        (unsubscribeLoop none ws clientSubscriptions r'.subscriptions).1 p := by
      intro p
      have hcount := hcons.counts ws p
      simp only [Registry.pairsOf, OrdMap.get?_erase_self, Option.getD_none, List.map_nil,
        List.count_nil] at hcount
      exact List.count_eq_zero.1 hcount
    have hsubs : (unsubscribeLoop none ws clientSubscriptions r'.subscriptions).1 =
        r.subscriptions := by
      have hown := strip_of_absent hcons.wellFormed habsent
      simp only at hown
      rw [← hown, strip_unsubscribeLoop, h.others]
    rw [hsubs, h.clients]

/-- **Unsubscribing undoes subscribing.**  However many requests a client that was not known
has made, its unsubscribe restores the registry, the order of its maps included. -/
theorem unsubscribe_subscribeAll {r : Registry W} (h : Consistent r) {ws : W}
    (hws : r.clients.get? ws = none) (requests : List SubscribeRequest) :
    (unsubscribe (subscribeAll getPerpIdFromSymbol r ws requests) ws).registry = r :=
  (subscribed_subscribeAll getPerpIdFromSymbol h hws requests).unsubscribe

/-! ## Order of arrival and order of resumption -/

/-- Only the first request for each pair counts. -/
theorem subscribeAll_distinct {r : Registry W} (h : Consistent r) {ws : W}
    (hws : r.clients.get? ws = none) (requests : List SubscribeRequest) :
    subscribeAll getPerpIdFromSymbol r ws requests =
      subscribeAll getPerpIdFromSymbol r ws
        ((distinctSubscriptions getPerpIdFromSymbol requests).map
          fun s => ⟨s.symbol, s.traderAddr⟩) := by
  induction requests using List.reverseRecOn with
  | nil => rfl
  | append_singleton requests request ih =>
    have hsub := subscribed_subscribeAll getPerpIdFromSymbol h hws requests
    have hany := hsub.any_iff (getPerpIdFromSymbol request.symbol) request.traderAddr
    rw [subscribeAll_append, distinctSubscriptions_append]
    rcases subscribe_spec getPerpIdFromSymbol (subscribeAll getPerpIdFromSymbol r ws requests) ws
      request.symbol request.traderAddr with ⟨hmem, -, hreg, -⟩ | ⟨hnew, -, -, -⟩
    · rw [if_pos (hany.2 hmem), ← ih]
      exact hreg
    · rw [if_neg fun hc => hnew (hany.1 hc), List.map_append, List.map_singleton,
        subscribeAll_append, ← ih]

/-- Two sequences of requests leave the same registry exactly when they make the same list
for the client. -/
theorem subscribeAll_eq_iff {r : Registry W} (h : Consistent r) {ws : W}
    (hws : r.clients.get? ws = none) (requests requests' : List SubscribeRequest) :
    subscribeAll getPerpIdFromSymbol r ws requests =
        subscribeAll getPerpIdFromSymbol r ws requests' ↔
      distinctSubscriptions getPerpIdFromSymbol requests =
        distinctSubscriptions getPerpIdFromSymbol requests' := by
  constructor
  · intro heq
    have hown := (subscribed_subscribeAll getPerpIdFromSymbol h hws
      requests).own
    have hown' := (subscribed_subscribeAll getPerpIdFromSymbol h hws
      requests').own
    rw [← hown, ← hown', heq]
  · intro heq
    rw [subscribeAll_distinct h hws requests, subscribeAll_distinct h hws requests', heq]

/-- Along a schedule the registry holds the requests that have resumed since it was last
cleared. -/
theorem run_registry {r : Registry W} (h : Consistent r) {ws : W}
    (hws : r.clients.get? ws = none) :
    ∀ (schedule : List WsEvent) {c c' : Connection W} {since : SinceCleared},
      c.registry = subscribeAll getPerpIdFromSymbol r ws since.resumed →
      c.run getPerpIdFromSymbol ws schedule = some c' →
      c'.registry = subscribeAll getPerpIdFromSymbol r ws
        (schedule.foldl SinceCleared.next since).resumed := by
  intro schedule
  induction schedule with
  | nil =>
    intro c c' since hreg hrun
    cases hrun
    exact hreg
  | cons e schedule ih =>
    intro c c' since hreg hrun
    obtain ⟨d, hd, hrest⟩ := Option.bind_eq_some_iff.1 hrun
    rw [List.foldl_cons]
    refine ih ?_ hrest
    have hcleared : (unsubscribe c.registry ws).registry = r := by
      rw [hreg]; exact unsubscribe_subscribeAll h hws _
    cases e with
    | message msg =>
      simp only [Connection.step] at hd
      simp only [SinceCleared.next]
      cases hmsg : onMessage msg with
      | ping =>
        rw [hmsg] at hd
        obtain rfl := Option.some.inj hd
        split <;> exact hreg
      | unsubscribe =>
        rw [hmsg] at hd
        obtain rfl := Option.some.inj hd
        exact hcleared
      | await request =>
        rw [hmsg] at hd
        obtain rfl := Option.some.inj hd
        exact hreg
      | error =>
        rw [hmsg] at hd
        obtain rfl := Option.some.inj hd
        exact hreg
    | close =>
      obtain rfl := Option.some.inj hd
      exact hcleared
    | resolved request =>
      simp only [Connection.step] at hd
      split at hd
      · obtain rfl := Option.some.inj hd
        simp only [SinceCleared.next]
        rw [subscribeAll_append, hreg]
      · exact absurd hd (by simp)

/-- Processed in order, it holds those that have arrived. -/
theorem processInOrder_registry {r : Registry W} (h : Consistent r) {ws : W}
    (hws : r.clients.get? ws = none) :
    ∀ (schedule : List WsEvent) {r' : Registry W} {since : SinceCleared},
      r' = subscribeAll getPerpIdFromSymbol r ws since.arrived →
      processInOrder getPerpIdFromSymbol ws r' schedule = subscribeAll getPerpIdFromSymbol r ws
        (schedule.foldl SinceCleared.next since).arrived := by
  intro schedule
  induction schedule with
  | nil => intro r' since hreg; exact hreg
  | cons e schedule ih =>
    intro r' since hreg
    rw [processInOrder, List.foldl_cons, List.foldl_cons]
    apply ih
    have hcleared : (unsubscribe r' ws).registry = r := by
      rw [hreg]; exact unsubscribe_subscribeAll h hws _
    cases e with
    | message msg =>
      simp only [SinceCleared.next]
      cases onMessage msg with
      | ping => exact hreg
      | unsubscribe => exact hcleared
      | await request =>
        simp only
        rw [subscribeAll_append, hreg]
      | error => exact hreg
    | close => exact hcleared
    | resolved request => exact hreg

/-- **When messages take effect in their order.**  At the end of a schedule the registry is
the one the inputs leave when each is processed to its end before the next, if and only if
the subscribes that have resumed since the last unsubscribe or close make the same list for
the client as those that have arrived since. -/
theorem processed_in_order_iff {r : Registry W} (h : Consistent r) {ws : W}
    (hws : r.clients.get? ws = none) {schedule : List WsEvent} {c : Connection W}
    (hrun : (Connection.start r).run getPerpIdFromSymbol ws schedule = some c) :
    c.registry = processInOrder getPerpIdFromSymbol ws r schedule ↔
      distinctSubscriptions getPerpIdFromSymbol (sinceCleared schedule).resumed =
        distinctSubscriptions getPerpIdFromSymbol (sinceCleared schedule).arrived := by
  have hend : c.registry = subscribeAll getPerpIdFromSymbol r ws (sinceCleared schedule).resumed :=
    run_registry h hws schedule rfl hrun
  have horder : processInOrder getPerpIdFromSymbol ws r schedule =
      subscribeAll getPerpIdFromSymbol r ws (sinceCleared schedule).arrived :=
    processInOrder_registry h hws schedule rfl
  rw [hend, horder, subscribeAll_eq_iff h hws]

/-- A valid subscribe message. -/
def subscribeMessage : WsMessage where
  type := some "subscription"
  traderAddr := some "0x1111111111111111111111111111111111111111"
  symbol := some "btc-USD-MATIC"

/-- The request it makes. -/
def btcRequest : SubscribeRequest :=
  ⟨"BTC-USD-MATIC", "0x1111111111111111111111111111111111111111"⟩

/-- The client leaves while its subscribe is suspended. -/
def closeOvertakes : List WsEvent :=
  [.message (some subscribeMessage), .close, .resolved btcRequest]

/-- The client leaves after its subscribe has resumed. -/
def closeLast : List WsEvent := [.message (some subscribeMessage), .resolved btcRequest, .close]

/-- All handlers have finished and the closed websocket is registered. -/
theorem closeOvertakes_stays_registered :
    ∃ c, (Connection.start Registry.init).run (fun _ => 100001) (0 : ℕ) closeOvertakes = some c ∧
      c.pending = [] ∧ 0 ∈ subscribersOf c.registry.subscriptions (100001, btcRequest.traderAddr) ∧
      c.registry ≠ processInOrder (fun _ => 100001) 0 Registry.init closeOvertakes := by
  refine ⟨((Connection.start Registry.init).run (fun _ => 100001) (0 : ℕ) closeOvertakes).get
    (by decide), (Option.some_get _).symm, by decide, by decide, fun h => ?_⟩
  have hclient := congrArg (fun r : Registry ℕ => (r.clients.get? 0).isSome) h
  exact absurd hclient (by decide)

/-- The law at work when the close event comes last. -/
theorem closeLast_in_order :
    ∃ c, (Connection.start Registry.init).run (fun _ => 100001) (0 : ℕ) closeLast = some c ∧
      c.registry = processInOrder (fun _ => 100001) 0 Registry.init closeLast :=
  ⟨((Connection.start Registry.init).run (fun _ => 100001) (0 : ℕ) closeLast).get (by decide),
    (Option.some_get _).symm,
    (processed_in_order_iff consistent_init rfl (Option.some_get _).symm).2 (by decide)⟩

end TraderBackend
