import TraderBackend.Api.ExchangeInfo
import TraderBackend.Api.WebSocket

/-!
# What a subscriber is answered

A client subscribes with the symbol of a perpetual, `BTC-USD-MATIC` in any case.  The handler
checks the text, looks the perpetual up in the exchange info by its three parts, registers the
client and answers with the state; whatever throws on the way becomes an error with a code.

* **The code.**  `extractPerpetualState` is the lookup, `subscribeReply` the rest of the handler
  from the check on.
* **The lookup.**  `findPoolAndPerpIdx_cases`: it finds a perpetual of the name, or one of two
  parts is missing.  `Listed.unique`: among distinct names there is one such perpetual.
* **The answer.**  `subscriber_answered`: the state of the perpetual asked for, or the code
  `UNKNOWN_SYMBOL` where the pool is listed but the perpetual is not, or another code.
-/

namespace TraderBackend

open JsString

/-! ## The code -/

/-- `extractPerpetualStateFromExchangeInfo` on the info it has parsed. -/
def extractPerpetualState (symbol : String) (info : ExchangeInfo) :
    Except String PerpetualState := do
  let (k, j) ← findPoolAndPerpIdx symbol info
  match (info.perpetuals k)[j]? with
  | some perpState => return perpState
  | none => throw "undefined"

/-- The error a client is sent. -/
structure SubscribeError where
  code : String
  symbol : Option String
  error : String
  deriving DecidableEq

/-- The `catch` of the message handler; `symbol` is what the message holds by then. -/
def onSubscribeError (symbol : Option String) (msg : String) : SubscribeError where
  code :=
    if "No perpetual found with symbol".toList.isPrefixOf msg.toList then "UNKNOWN_SYMBOL"
    else "SUBSCRIBE_ERROR"
  symbol := symbol
  error := msg

/-- What a message that is to subscribe is answered. -/
inductive SubscribeReply where
  | subscription (symbol : String) (perpState : PerpetualState)
  | error (e : SubscribeError)
  deriving DecidableEq

/-- The handler of such a message.  `exchangeInfo` is how the query of the info ends, `subscribe`
how the registration does. -/
def subscribeReply (exchangeInfo : Except String ExchangeInfo)
    (subscribe : String → String → Except String Unit) (obj : WsMessage) : SubscribeReply :=
  match onMessage (some obj) with
  | .await request =>
      match (do
        let perpState ← exchangeInfo.bind (extractPerpetualState request.symbol)
        subscribe request.symbol request.traderAddr
        return perpState : Except String PerpetualState) with
      | .ok perpState => .subscription request.symbol perpState
      | .error msg => .error (onSubscribeError (some request.symbol) msg)
  | _ => .error (onSubscribeError obj.symbol "wrong arguments. Requires traderAddr and symbol")

/-! ## The lookup -/

/-- The symbol of a listed perpetual. -/
def symbolOf (pool : PoolState) (perpState : PerpetualState) : String :=
  perpState.baseCurrency ++ "-" ++ perpState.quoteCurrency ++ "-" ++ pool.poolSymbol

/-- No two pools have one name, and no two perpetuals of a pool. -/
structure DistinctNames (info : ExchangeInfo) : Prop where
  pools : (info.pools.map PoolState.poolSymbol).Nodup
  perpetuals : ∀ pool ∈ info.pools,
    (pool.perpetuals.map fun p => (p.baseCurrency, p.quoteCurrency)).Nodup

/-- A name with three parts. -/
theorem symbolOf_eq_iff {pool : PoolState} {perpState : PerpetualState} {symbol x y z : String}
    (h : split symbol '-' = [x, y, z]) :
    symbolOf pool perpState = symbol ↔
      perpState.baseCurrency = x ∧ perpState.quoteCurrency = y ∧ pool.poolSymbol = z := by
  constructor
  · rintro rfl
    exact split_three rfl h
  · rintro ⟨rfl, rfl, rfl⟩
    rw [symbolOf, ← join_split symbol '-', h, join]
    rw [← String.toList_inj]
    simp [List.intercalate]

/-- An accepted symbol has three parts, in capitals too. -/
theorem split_of_valid {symbol : String} (h : isValidPerpSymbol symbol = true) :
    ∃ x y z, split (toUpperCase symbol) '-' = [x, y, z] := by
  rw [split_toUpperCase rfl, split]
  unfold isValidPerpSymbol at h
  split at h
  · rename_i base quote pool hparts
    rw [hparts]
    exact ⟨_, _, _, rfl⟩
  · cases h

/-- **The lookup.**  There is no pool of the name, or none of its perpetuals has the other two
parts, or it finds one that has them. -/
theorem findPoolAndPerpIdx_cases (info : ExchangeInfo) {symbol x y z : String}
    (h : split symbol '-' = [x, y, z]) :
    ((∀ pool ∈ info.pools, pool.poolSymbol ≠ z) ∧
        findPoolAndPerpIdx symbol info = .error ("No pool found with symbol '" ++ symbol ++ "'")) ∨
      (∃ pool ∈ info.pools, pool.poolSymbol = z ∧
        (∀ p ∈ pool.perpetuals, ¬ (p.baseCurrency = x ∧ p.quoteCurrency = y)) ∧
        findPoolAndPerpIdx symbol info = .error ("No perpetual found with symbol" ++ symbol)) ∨
      ∃ k j pool p, info.pools[k]? = some pool ∧ pool.perpetuals[j]? = some p ∧
        symbolOf pool p = symbol ∧ findPoolAndPerpIdx symbol info = .ok (k, j) := by
  cases hpool : findPoolIdx (some z) info.pools with
  | none =>
    refine Or.inl ⟨fun pool hmem hname => ?_, ?_⟩
    · have hno := List.findIdx?_eq_none_iff.1 hpool pool hmem
      exact of_decide_eq_false hno (congrArg some hname)
    · simp [findPoolAndPerpIdx, h, hpool]
  | some k =>
    obtain ⟨hk, hname, -⟩ := List.findIdx?_eq_some_iff_getElem.1 hpool
    have hname := Option.some.inj (of_decide_eq_true hname)
    have hperpetuals : info.perpetuals k = info.pools[k].perpetuals := by
      rw [ExchangeInfo.perpetuals, List.getElem?_eq_getElem hk]
      rfl
    right
    cases hperp : findPerpetualInPool (some x) (some y) info.pools[k].perpetuals with
    | none =>
      refine Or.inl ⟨_, List.getElem_mem hk, hname, fun p hmem hpair => ?_, ?_⟩
      · have hno := List.findIdx?_eq_none_iff.1 hperp p hmem
        exact of_decide_eq_false hno ⟨congrArg some hpair.1, congrArg some hpair.2⟩
      · simp [findPoolAndPerpIdx, h, hpool, hperpetuals, hperp]
    | some j =>
      obtain ⟨hj, hpair, -⟩ := List.findIdx?_eq_some_iff_getElem.1 hperp
      obtain ⟨hbase, hquote⟩ := of_decide_eq_true hpair
      refine Or.inr ⟨k, j, _, _, List.getElem?_eq_getElem hk, List.getElem?_eq_getElem hj,
        (symbolOf_eq_iff h).2 ⟨Option.some.inj hbase, Option.some.inj hquote, hname⟩, ?_⟩
      simp [findPoolAndPerpIdx, h, hpool, hperpetuals, hperp]

/-- The perpetual is in the exchange info under the name. -/
def Listed (info : ExchangeInfo) (symbol : String) (perpState : PerpetualState) : Prop :=
  ∃ pool ∈ info.pools, perpState ∈ pool.perpetuals ∧ symbolOf pool perpState = symbol

/-- A name is that of one perpetual. -/
theorem Listed.unique {info : ExchangeInfo} (hnames : DistinctNames info) {symbol x y z : String}
    (h : split symbol '-' = [x, y, z]) {p q : PerpetualState} (hp : Listed info symbol p)
    (hq : Listed info symbol q) : p = q := by
  obtain ⟨pool, hpool, hp, hpname⟩ := hp
  obtain ⟨pool', hpool', hq, hqname⟩ := hq
  obtain ⟨hpx, hpy, hpz⟩ := (symbolOf_eq_iff h).1 hpname
  obtain ⟨hqx, hqy, hqz⟩ := (symbolOf_eq_iff h).1 hqname
  obtain rfl := List.inj_on_of_nodup_map hnames.pools hpool hpool' (hpz.trans hqz.symm)
  refine List.inj_on_of_nodup_map (hnames.perpetuals pool hpool) hp hq ?_
  rw [hpx, hpy, hqx, hqy]

/-- The state that is found: as the lookup. -/
theorem extractPerpetualState_cases (info : ExchangeInfo) {symbol x y z : String}
    (h : split symbol '-' = [x, y, z]) :
    ((∀ pool ∈ info.pools, pool.poolSymbol ≠ z) ∧ extractPerpetualState symbol info =
        .error ("No pool found with symbol '" ++ symbol ++ "'")) ∨
      (∃ pool ∈ info.pools, pool.poolSymbol = z ∧
        (∀ p ∈ pool.perpetuals, ¬ (p.baseCurrency = x ∧ p.quoteCurrency = y)) ∧
        extractPerpetualState symbol info = .error ("No perpetual found with symbol" ++ symbol)) ∨
      ∃ p, Listed info symbol p ∧ extractPerpetualState symbol info = .ok p := by
  rcases findPoolAndPerpIdx_cases info h with ⟨hpools, hlookup⟩ |
    ⟨pool, hpool, hname, hperpetuals, hlookup⟩ | ⟨k, j, pool, p, hk, hj, hname, hlookup⟩
  · refine Or.inl ⟨hpools, ?_⟩
    rw [extractPerpetualState, hlookup]
    rfl
  · refine Or.inr (Or.inl ⟨pool, hpool, hname, hperpetuals, ?_⟩)
    rw [extractPerpetualState, hlookup]
    rfl
  · refine Or.inr (Or.inr ⟨p, ⟨pool, List.mem_of_getElem? hk, List.mem_of_getElem? hj, hname⟩, ?_⟩)
    have hstate : (info.perpetuals k)[j]? = some p := by
      rw [ExchangeInfo.perpetuals, hk]
      exact hj
    rw [extractPerpetualState, hlookup]
    show (match (info.perpetuals k)[j]? with
      | some perpState => Except.ok perpState
      | none => Except.error "undefined") = .ok p
    rw [hstate]

/-! ## The answer -/

/-- The message asks for a perpetual, and passes the check. -/
def WsMessage.AsksFor (obj : WsMessage) (symbol : String) : Prop :=
  ∃ given traderAddr, obj.symbol = some given ∧ obj.traderAddr = some traderAddr ∧
    isValidAddress traderAddr = true ∧ isValidPerpSymbol given = true ∧ symbol = toUpperCase given

/-- A message that is to subscribe passes the check and is looked up, or it is refused. -/
theorem onMessage_cases {obj : WsMessage} (hping : obj.type ≠ some "ping")
    (hunsubscribe : obj.type ≠ some "unsubscribe") :
    (∃ request, onMessage (some obj) = .await request ∧ obj.AsksFor request.symbol) ∨
      onMessage (some obj) = .error ∧ ∀ symbol, ¬ obj.AsksFor symbol := by
  simp only [onMessage, if_neg hping, if_neg hunsubscribe]
  unfold WsMessage.AsksFor
  cases haddr : obj.traderAddr with
  | none => exact Or.inr ⟨rfl, by simp⟩
  | some traderAddr =>
    cases hsymbol : obj.symbol with
    | none => exact Or.inr ⟨rfl, by simp⟩
    | some given =>
      simp only
      by_cases hvalid : (isValidAddress traderAddr && isValidPerpSymbol given) = true
      · rw [if_pos hvalid]
        rw [Bool.and_eq_true] at hvalid
        exact Or.inl ⟨_, rfl, given, traderAddr, rfl, rfl, hvalid.1, hvalid.2, rfl⟩
      · rw [if_neg hvalid]
        refine Or.inr ⟨rfl, ?_⟩
        rintro symbol ⟨given', traderAddr', hgiven, htrader, haddress, hperp, -⟩
        cases hgiven
        cases htrader
        exact hvalid (by rw [haddress, hperp, Bool.and_self])

/-- What is asked for has three parts. -/
theorem WsMessage.AsksFor.split {obj : WsMessage} {symbol : String} (h : obj.AsksFor symbol) :
    ∃ x y z, JsString.split symbol '-' = [x, y, z] := by
  obtain ⟨given, -, -, -, -, hvalid, rfl⟩ := h
  exact split_of_valid hvalid

theorem WsMessage.AsksFor.unique {obj : WsMessage} {symbol symbol' : String}
    (h : obj.AsksFor symbol) (h' : obj.AsksFor symbol') : symbol = symbol' := by
  obtain ⟨given, -, hgiven, -, -, -, rfl⟩ := h
  obtain ⟨given', -, hgiven', -, -, -, rfl⟩ := h'
  rw [Option.some.inj (hgiven.symm.trans hgiven')]

/-- The code of an error of the lookup. -/
theorem code_unknown (symbol : Option String) (name : String) :
    (onSubscribeError symbol ("No perpetual found with symbol" ++ name)).code =
      "UNKNOWN_SYMBOL" := by
  rw [onSubscribeError, if_pos]
  rw [String.toList_append]
  exact List.isPrefixOf_iff_prefix.2 (List.prefix_append _ _)

theorem code_noPool (symbol : Option String) (name : String) :
    (onSubscribeError symbol ("No pool found with symbol '" ++ name ++ "'")).code =
      "SUBSCRIBE_ERROR" := by
  rw [onSubscribeError, if_neg]
  rw [String.toList_append, String.toList_append]
  simp

theorem code_refused (symbol : Option String) :
    (onSubscribeError symbol "wrong arguments. Requires traderAddr and symbol").code =
      "SUBSCRIBE_ERROR" := by
  rw [onSubscribeError, if_neg (by decide +kernel)]

/-- The answer to a message that passes the check. -/
theorem subscribeReply_of_await {obj : WsMessage} {request : SubscribeRequest}
    (h : onMessage (some obj) = .await request) (info : ExchangeInfo) :
    subscribeReply (.ok info) (fun _ _ => .ok ()) obj =
      match extractPerpetualState request.symbol info with
      | .ok perpState => .subscription request.symbol perpState
      | .error msg => .error (onSubscribeError (some request.symbol) msg) := by
  rw [subscribeReply, h]
  show (match (extractPerpetualState request.symbol info).bind _ with
    | .ok perpState => SubscribeReply.subscription request.symbol perpState
    | .error msg => .error (onSubscribeError (some request.symbol) msg)) = _
  cases extractPerpetualState request.symbol info with
  | error msg => rfl
  | ok perpState => rfl

/-- **What a subscriber is answered.**  A message that is to subscribe is answered with a state if
and only if it passes the check and the state is that of the perpetual of its symbol, in capitals.
Otherwise it is answered with an error, whose code is `UNKNOWN_SYMBOL` if it passes the check and
the pool is listed but no such perpetual in it, and `SUBSCRIBE_ERROR` else. -/
theorem subscriber_answered {info : ExchangeInfo} (hnames : DistinctNames info) {obj : WsMessage}
    (hping : obj.type ≠ some "ping") (hunsubscribe : obj.type ≠ some "unsubscribe") :
    (∀ symbol perpState, subscribeReply (.ok info) (fun _ _ => .ok ()) obj =
        .subscription symbol perpState ↔ obj.AsksFor symbol ∧ Listed info symbol perpState) ∧
      ∀ e, subscribeReply (.ok info) (fun _ _ => .ok ()) obj = .error e →
        (e.code = "UNKNOWN_SYMBOL" ∨ e.code = "SUBSCRIBE_ERROR") ∧
        (e.code = "UNKNOWN_SYMBOL" ↔ ∃ symbol, obj.AsksFor symbol ∧
          (∀ perpState, ¬ Listed info symbol perpState) ∧
          ∃ pool ∈ info.pools, (split symbol '-')[2]? = some pool.poolSymbol) := by
  rcases onMessage_cases hping hunsubscribe with ⟨request, hmessage, hasks⟩ | ⟨hmessage, hno⟩
  · obtain ⟨x, y, z, hsplit⟩ := hasks.split
    rw [subscribeReply_of_await hmessage]
    rcases extractPerpetualState_cases info hsplit with ⟨hpools, hstate⟩ |
      ⟨pool, hpool, hname, hperpetuals, hstate⟩ | ⟨p, hlisted, hstate⟩
    · -- there is no pool of that name
      rw [hstate]
      have hunlisted : ∀ perpState, ¬ Listed info request.symbol perpState := by
        rintro perpState ⟨pool, hpool, -, hsymbol⟩
        exact hpools pool hpool ((symbolOf_eq_iff hsplit).1 hsymbol).2.2
      refine ⟨fun symbol perpState => ⟨fun h => (by cases h), ?_⟩, fun e he => ?_⟩
      · rintro ⟨hasks', hlisted⟩
        exact absurd (hasks.unique hasks' ▸ hlisted) (hunlisted perpState)
      · cases he
        rw [code_noPool]
        refine ⟨Or.inr rfl, fun h => absurd h (by decide), ?_⟩
        rintro ⟨symbol, hasks', -, pool, hpool, hpart⟩
        rw [← hasks.unique hasks', hsplit] at hpart
        exact absurd (Option.some.inj hpart).symm (hpools pool hpool)
    · -- there is a pool, but not with such a perpetual
      rw [hstate]
      have hunlisted : ∀ perpState, ¬ Listed info request.symbol perpState := by
        rintro perpState ⟨pool', hpool', hmem, hsymbol⟩
        obtain ⟨hbase, hquote, hname'⟩ := (symbolOf_eq_iff hsplit).1 hsymbol
        obtain rfl := List.inj_on_of_nodup_map hnames.pools hpool hpool' (hname.trans hname'.symm)
        exact hperpetuals perpState hmem ⟨hbase, hquote⟩
      refine ⟨fun symbol perpState => ⟨fun h => (by cases h), ?_⟩, fun e he => ?_⟩
      · rintro ⟨hasks', hlisted⟩
        exact absurd (hasks.unique hasks' ▸ hlisted) (hunlisted perpState)
      · cases he
        rw [code_unknown]
        refine ⟨Or.inl rfl, fun _ => ⟨request.symbol, hasks, hunlisted, pool, hpool, ?_⟩,
          fun _ => rfl⟩
        rw [hsplit, hname]
        rfl
    · rw [hstate]
      refine ⟨fun symbol perpState => ⟨?_, ?_⟩, fun e he => (by cases he)⟩
      · intro h
        cases h
        exact ⟨hasks, hlisted⟩
      · rintro ⟨hasks', hlisted'⟩
        obtain rfl := hasks.unique hasks'
        rw [hlisted.unique hnames hsplit hlisted']
  · have hreply : subscribeReply (.ok info) (fun _ _ => .ok ()) obj =
        .error (onSubscribeError obj.symbol "wrong arguments. Requires traderAddr and symbol") := by
      rw [subscribeReply, hmessage]
    rw [hreply]
    refine ⟨fun symbol perpState => ⟨fun h => (by cases h), fun h => absurd h.1 (hno symbol)⟩,
      fun e he => ?_⟩
    cases he
    rw [code_refused]
    refine ⟨Or.inr rfl, fun h => absurd h (by decide), ?_⟩
    rintro ⟨symbol, hasks, -⟩
    exact absurd hasks (hno symbol)

/-- One pool with two perpetuals. -/
def maticInfo : ExchangeInfo :=
  ⟨[⟨"MATIC", true, [⟨100000, "BTC", "USD", 1, 1, 1, 0, 0, none⟩,
    ⟨100001, "ETH", "USD", 2, 2, 2, 0, 0, none⟩]⟩]⟩

theorem maticInfo_distinct : DistinctNames maticInfo := by
  constructor
  · decide +kernel
  · decide +kernel

/-- The message of a client that asks for a perpetual. -/
def askFor (symbol : String) : WsMessage :=
  ⟨none, some "0x00000000000000000000000000000000000000aa", some symbol⟩

theorem ethAndSol_answered :
    (subscribeReply (.ok maticInfo) (fun _ _ => .ok ()) (askFor "eth-usd-matic") =
        .subscription "ETH-USD-MATIC" ⟨100001, "ETH", "USD", 2, 2, 2, 0, 0, none⟩ ∧
      Listed maticInfo "ETH-USD-MATIC" ⟨100001, "ETH", "USD", 2, 2, 2, 0, 0, none⟩) ∧
    ∃ e, subscribeReply (.ok maticInfo) (fun _ _ => .ok ()) (askFor "sol-usd-matic") = .error e ∧
      ∀ perpState, ¬ Listed maticInfo "SOL-USD-MATIC" perpState := by
  have heth := @subscriber_answered maticInfo maticInfo_distinct (askFor "eth-usd-matic")
    (by decide) (by decide)
  have hsol := @subscriber_answered maticInfo maticInfo_distinct (askFor "sol-usd-matic")
    (by decide) (by decide)
  have hstate : subscribeReply (.ok maticInfo) (fun _ _ => .ok ()) (askFor "eth-usd-matic") =
      .subscription "ETH-USD-MATIC" ⟨100001, "ETH", "USD", 2, 2, 2, 0, 0, none⟩ := by
    decide +kernel
  have herror : subscribeReply (.ok maticInfo) (fun _ _ => .ok ()) (askFor "sol-usd-matic") =
      .error ⟨"UNKNOWN_SYMBOL", some "SOL-USD-MATIC",
        "No perpetual found with symbolSOL-USD-MATIC"⟩ := by
    decide +kernel
  refine ⟨⟨hstate, ((heth.1 _ _).1 hstate).2⟩, _, herror, ?_⟩
  obtain ⟨symbol, hasks, hunlisted, -⟩ := (hsol.2 _ herror).2.1 rfl
  obtain ⟨given, -, hgiven, -, -, -, rfl⟩ := hasks
  cases hgiven
  have hupper : JsString.toUpperCase "sol-usd-matic" = "SOL-USD-MATIC" := by decide +kernel
  rwa [hupper] at hunlisted

end TraderBackend
