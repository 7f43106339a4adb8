import TraderBackend.Api.Delivery
import TraderBackend.Api.OrderBook

/-!
# Market orders created and executed

The listener counts the market orders it hears of: creations in the handlers of the
order books, executions in the handler of the proxy.  The heartbeat restarts it when
the two counts are far apart.

* **The comparison.**  `doMarketOrderFrequenciesMatch`, and `match_iff` without
  fractions.
* **Runs.**  `CountedListener` is the listener with its proxy contract and its counts;
  an event of the chain is handled once by every set of handlers attached to it.
* **No false restart.**  `counts_run` gives the counts of a run between two resets;
  `no_false_restart`: they match whenever all created market orders have been executed,
  as long as every order is heard of by one set of handlers when it is created and by those
  of the proxy when it is executed, and no execution is of an order from before the run.
-/

namespace TraderBackend

variable {W Order : Type*}

/-! ## The comparison -/

/-- `resetEventFrequencies`. -/
def resetEventFrequencies (now : ℕ) : EventFrequencyCount := ⟨0, 0, now⟩

/-- `doMarketOrderFrequenciesMatch`: after ten minutes it starts a new count. -/
def doMarketOrderFrequenciesMatch (freq : EventFrequencyCount) (now : ℕ) :
    EventFrequencyCount × Bool :=
  let c := freq.createdCount
  let e := freq.executedCount
  let maxCount := max c e
  if maxCount < 5 then (freq, true)
  else
    let relDev : ℚ := |(c : ℚ) - e| / (max c e : ℕ)
    (if freq.lastResetTs + 10 * 60000 < now then resetEventFrequencies now else freq,
      decide (relDev < 1 / 2))

/-- `checkTradeEventListenerHeartbeat`: what it leaves, and whether it restarts the listener. -/
def checkTradeEventListenerHeartbeat (s : HandlerState) (now : ℕ) : HandlerState × Bool :=
  let checkMktOrderFreq := doMarketOrderFrequenciesMatch s.mktOrderFrequency now
  let lastEventTooOld := decide (s.lastBlockChainEventTs + 10 * 60000 < now)
  ({ s with mktOrderFrequency := checkMktOrderFreq.1 }, lastEventTooOld || !checkMktOrderFreq.2)

/-- Both counts are below five, or the greater one is less than twice the smaller one. -/
def Close (created executed : ℕ) : Prop :=
  max created executed < 5 ∨ max created executed < 2 * min created executed

theorem match_iff (freq : EventFrequencyCount) (now : ℕ) :
    (doMarketOrderFrequenciesMatch freq now).2 = true ↔
      Close freq.createdCount freq.executedCount := by
  unfold doMarketOrderFrequenciesMatch Close
  simp only
  split
  · rename_i hfew
    simp [hfew]
  · rename_i hmany
    have hpos : (0 : ℚ) < (max freq.createdCount freq.executedCount : ℕ) := by
      rw [Nat.cast_pos]
      omega
    have hdev : |(freq.createdCount : ℚ) - freq.executedCount| =
        (max freq.createdCount freq.executedCount : ℕ) -
          (min freq.createdCount freq.executedCount : ℕ) := by
      rw [Nat.cast_max, Nat.cast_min, max_sub_min_eq_abs, abs_sub_comm]
    rw [decide_eq_true_eq, hdev, div_lt_iff₀ hpos]
    constructor
    · intro h
      right
      have hlt : ((max freq.createdCount freq.executedCount : ℕ) : ℚ) <
          ((2 * min freq.createdCount freq.executedCount : ℕ) : ℚ) := by
        push_cast at h ⊢
        linarith
      exact_mod_cast hlt
    · rintro (h | h)
      · exact absurd h hmany
      · have hlt : ((max freq.createdCount freq.executedCount : ℕ) : ℚ) <
            ((2 * min freq.createdCount freq.executedCount : ℕ) : ℚ) := by exact_mod_cast h
        push_cast at hlt ⊢
        linarith

/-! ## Runs -/

/-- The listener with its proxy contract and its counts. -/
structure CountedListener (W : Type*) where
  listener : Listener W
  /-- The provider the proxy contract was created on, its handlers attached. -/
  proxyProvider : Option ℕ
  handlers : HandlerState

/-- What happens: an event of the listener, a creation in the order book of a symbol, or a
trade. -/
inductive CountedEvent (W Order : Type*) where
  | listener (e : ListenerEvent W)
  | orderCreated (book : String) (perpetualId : ℕ) (trader brokerAddr : String) (order : Order)
      (digest : String)
  | trade (perpetualId : ℕ) (trader : String) (order : Order) (orderDigest : String)
      (newPositionSizeBC price : ℤ)

/-- The events that reset the counts. -/
def CountedEvent.IsReset : CountedEvent W Order → Prop
  | .listener .proxyCreated => True
  | _ => False

variable [DecidableEq W] (env : HandlerEnv Order) (getPerpIdFromSymbol : String → ℕ)

/-- One event; each set of handlers attached to it is called once. -/
def CountedListener.step (s : CountedListener W) (now : ℕ) :
    CountedEvent W Order → CountedListener W
  | .listener .proxyCreated =>
      if s.listener.resetting = some .createProxyInstance then
        { listener := proxyCreated s.listener
          proxyProvider := some s.listener.currentWSRpcProvider
          handlers :=
            { s.handlers with
              lastBlockChainEventTs := now
              mktOrderFrequency := resetEventFrequencies now } }
      else s
  | .listener e => { s with listener := s.listener.step getPerpIdFromSymbol e }
  | .orderCreated book perpetualId trader brokerAddr order digest =>
      let handle (handlers : HandlerState) : HandlerState :=
        (onPerpetualLimitOrderCreated env s.listener.registry.subscriptions now handlers perpetualId
          trader brokerAddr order digest).1
      { s with handlers := handle^[listenerSets s.listener book] s.handlers }
  | .trade perpetualId trader order orderDigest newPositionSizeBC price =>
      -- destroying a provider kills the handlers attached to it
      if s.proxyProvider = some s.listener.currentWSRpcProvider then
        { s with
          handlers := (onTrade env s.listener.registry.subscriptions now s.handlers perpetualId
            trader order orderDigest newPositionSizeBC price).1 }
      else s

/-- A sequence of events with their times. -/
def CountedListener.run (s : CountedListener W) (events : List (ℕ × CountedEvent W Order)) :
    CountedListener W :=
  events.foldl (fun s x => s.step env getPerpIdFromSymbol x.1 x.2) s

/-- The listener when `initialize` returns. -/
def CountedListener.start : CountedListener W where
  listener := Listener.start
  proxyProvider := none
  handlers := ⟨EventControl.init, ⟨0, 0, 0⟩, 0⟩

/-- The sets of handlers that hear of the creation of a market order. -/
def CountedListener.creations (s : CountedListener W) : CountedEvent W Order → ℕ
  | .orderCreated book _ _ _ order _ =>
      if env.isMarketOrder order then listenerSets s.listener book else 0
  | _ => 0

/-- Whether the proxy's handlers hear of the execution of a market order. -/
def CountedListener.executions (s : CountedListener W) : CountedEvent W Order → ℕ
  | .trade _ _ order _ _ _ =>
      if env.isMarketOrder order ∧ s.proxyProvider = some s.listener.currentWSRpcProvider then 1
      else 0
  | _ => 0

/-- Along a run, the creations heard of. -/
def handledCreations : CountedListener W → List (ℕ × CountedEvent W Order) → ℕ
  | _, [] => 0
  | s, x :: events =>
      s.creations env x.2 + handledCreations (s.step env getPerpIdFromSymbol x.1 x.2) events

/-- Along a run, the executions heard of. -/
def handledExecutions : CountedListener W → List (ℕ × CountedEvent W Order) → ℕ
  | _, [] => 0
  | s, x :: events =>
      s.executions env x.2 + handledExecutions (s.step env getPerpIdFromSymbol x.1 x.2) events

/-! ## What the handlers count -/

section

variable (subscriptions : Subscriptions W) (now : ℕ) (handlers : HandlerState) (perpetualId : ℕ)
  (trader brokerAddr : String) (order : Order) (digest : String)

omit [DecidableEq W] in
/-- A creation is counted whether it is a duplicate or not. -/
theorem counts_orderCreated :
    (onPerpetualLimitOrderCreated env subscriptions now handlers perpetualId trader brokerAddr
        order digest).1.mktOrderFrequency =
      if env.isMarketOrder order then
        { handlers.mktOrderFrequency with
          createdCount := handlers.mktOrderFrequency.createdCount + 1 }
      else handlers.mktOrderFrequency := by
  unfold onPerpetualLimitOrderCreated
  cases env.isMarketOrder order <;> simp only [Bool.false_eq_true, if_false, if_true] <;> split <;>
    rfl

omit [DecidableEq W] in
theorem counts_orderCreated_iterate (n : ℕ) :
    ((fun handlers => (onPerpetualLimitOrderCreated env subscriptions now handlers perpetualId
        trader brokerAddr order digest).1)^[n] handlers).mktOrderFrequency =
      { handlers.mktOrderFrequency with
        createdCount := handlers.mktOrderFrequency.createdCount +
          if env.isMarketOrder order then n else 0 } := by
  induction n generalizing handlers with
  | zero => simp
  | succ n ih =>
    rw [Function.iterate_succ_apply, ih, counts_orderCreated]
    cases env.isMarketOrder order with
    | true => simp only [if_true]; congr 1; omega
    | false => simp

omit [DecidableEq W] in
/-- An execution is counted whether it is a duplicate or not. -/
theorem counts_trade (newPositionSizeBC price : ℤ) :
    (onTrade env subscriptions now handlers perpetualId trader order digest newPositionSizeBC
        price).1.mktOrderFrequency =
      if env.isMarketOrder order then
        { handlers.mktOrderFrequency with
          executedCount := handlers.mktOrderFrequency.executedCount + 1 }
      else handlers.mktOrderFrequency := by
  unfold onTrade
  cases env.isMarketOrder order <;> simp only [Bool.false_eq_true, if_false, if_true] <;> split <;>
    rfl

end

variable {env getPerpIdFromSymbol}

/-- The step lemma: outside of a reset an event adds what is heard of it. -/
theorem counts_step (s : CountedListener W) (now : ℕ) {e : CountedEvent W Order}
    (he : ¬ e.IsReset) :
    (s.step env getPerpIdFromSymbol now e).handlers.mktOrderFrequency =
      { s.handlers.mktOrderFrequency with
        createdCount := s.handlers.mktOrderFrequency.createdCount + s.creations env e
        executedCount := s.handlers.mktOrderFrequency.executedCount + s.executions env e } := by
  cases e with
  | listener e =>
    cases e with
    | proxyCreated => exact absurd trivial he
    | _ => rfl
  | orderCreated book perpetualId trader brokerAddr order digest =>
    simp only [CountedListener.step]
    rw [counts_orderCreated_iterate]
    rfl
  | trade perpetualId trader order orderDigest newPositionSizeBC price =>
    simp only [CountedListener.step]
    by_cases hproxy : s.proxyProvider = some s.listener.currentWSRpcProvider
    · rw [if_pos hproxy, counts_trade]
      cases hmarket : env.isMarketOrder order <;>
        simp [CountedListener.creations, CountedListener.executions, hproxy, hmarket]
    · rw [if_neg hproxy]
      simp [CountedListener.creations, CountedListener.executions, hproxy]

/-- The run lemma. -/
theorem counts_run (s : CountedListener W) (events : List (ℕ × CountedEvent W Order))
    (hevents : ∀ x ∈ events, ¬ x.2.IsReset) :
    (s.run env getPerpIdFromSymbol events).handlers.mktOrderFrequency =
      { s.handlers.mktOrderFrequency with
        createdCount := s.handlers.mktOrderFrequency.createdCount +
          handledCreations env getPerpIdFromSymbol s events
        executedCount := s.handlers.mktOrderFrequency.executedCount +
          handledExecutions env getPerpIdFromSymbol s events } := by
  induction events generalizing s with
  | nil => rfl
  | cons x events ih =>
    have hrest := ih (s.step env getPerpIdFromSymbol x.1 x.2) fun y hy =>
      hevents y (List.mem_cons_of_mem _ hy)
    rw [counts_step s x.1 (hevents x (List.mem_cons_self ..))] at hrest
    rw [CountedListener.run, List.foldl_cons]
    refine hrest.trans ?_
    simp only [handledCreations, handledExecutions, Nat.add_assoc]

/-! ## No false restart -/

variable (env) in
/-- The market orders created in a run. -/
def createdMarketOrders (events : List (ℕ × CountedEvent W Order)) : List String :=
  events.filterMap fun x =>
    match x.2 with
    | .orderCreated _ _ _ _ order digest => if env.isMarketOrder order then some digest else none
    | _ => none

variable (env) in
/-- The market orders executed in a run. -/
def executedMarketOrders (events : List (ℕ × CountedEvent W Order)) : List String :=
  events.filterMap fun x =>
    match x.2 with
    | .trade _ _ order orderDigest _ _ => if env.isMarketOrder order then some orderDigest else none
    | _ => none

variable (env) in
/-- All market orders created so far have been executed. -/
def AllExecuted (events : List (ℕ × CountedEvent W Order)) : Prop :=
  ∀ digest ∈ createdMarketOrders env events, digest ∈ executedMarketOrders env events

variable (env) in
/-- The creation of a market order is heard of by one set of handlers of its order book, its
execution by those of the proxy. -/
def CountedListener.HearsOnce (s : CountedListener W) : CountedEvent W Order → Prop
  | .orderCreated book _ _ _ order _ =>
      env.isMarketOrder order = true → listenerSets s.listener book = 1
  | .trade _ _ order _ _ _ =>
      env.isMarketOrder order = true → s.proxyProvider = some s.listener.currentWSRpcProvider
  | _ => True

instance (s : CountedListener W) : (e : CountedEvent W Order) → Decidable (s.HearsOnce env e)
  | .listener _ => isTrue trivial
  | .orderCreated .. => inferInstanceAs (Decidable (_ → _))
  | .trade .. => inferInstanceAs (Decidable (_ → _))

omit [DecidableEq W] in
/-- An event heard of once: the orders created grow by the creations heard of. -/
theorem length_created_cons {s : CountedListener W} {x : ℕ × CountedEvent W Order}
    (h : s.HearsOnce env x.2) (events : List (ℕ × CountedEvent W Order)) :
    (createdMarketOrders env (x :: events)).length =
      s.creations env x.2 + (createdMarketOrders env events).length := by
  obtain ⟨now, e⟩ := x
  cases e with
  | orderCreated book perpetualId trader brokerAddr order digest =>
    rw [CountedListener.creations]
    by_cases hmarket : env.isMarketOrder order = true
    · have hone : listenerSets s.listener book = 1 := h hmarket
      have hhead : createdMarketOrders env ((now, CountedEvent.orderCreated book perpetualId trader
          brokerAddr order digest) :: events) = digest :: createdMarketOrders env events :=
        List.filterMap_cons_some (if_pos hmarket)
      rw [hhead, List.length_cons, if_pos hmarket, hone, Nat.add_comm]
    · have hhead : createdMarketOrders env ((now, CountedEvent.orderCreated book perpetualId trader
          brokerAddr order digest) :: events) = createdMarketOrders env events :=
        List.filterMap_cons_none (if_neg hmarket)
      rw [hhead, if_neg hmarket, Nat.zero_add]
  | _ => exact (Nat.zero_add _).symm

omit [DecidableEq W] in
/-- The same for the orders executed. -/
theorem length_executed_cons {s : CountedListener W} {x : ℕ × CountedEvent W Order}
    (h : s.HearsOnce env x.2) (events : List (ℕ × CountedEvent W Order)) :
    (executedMarketOrders env (x :: events)).length =
      s.executions env x.2 + (executedMarketOrders env events).length := by
  obtain ⟨now, e⟩ := x
  cases e with
  | trade perpetualId trader order orderDigest newPositionSizeBC price =>
    rw [CountedListener.executions]
    by_cases hmarket : env.isMarketOrder order = true
    · have hproxy : s.proxyProvider = some s.listener.currentWSRpcProvider := h hmarket
      have hhead : executedMarketOrders env ((now, CountedEvent.trade perpetualId trader order
          orderDigest newPositionSizeBC price) :: events) =
            orderDigest :: executedMarketOrders env events :=
        List.filterMap_cons_some (if_pos hmarket)
      rw [hhead, List.length_cons, if_pos ⟨hmarket, hproxy⟩, Nat.add_comm]
    · have hhead : executedMarketOrders env ((now, CountedEvent.trade perpetualId trader order
          orderDigest newPositionSizeBC price) :: events) = executedMarketOrders env events :=
        List.filterMap_cons_none (if_neg hmarket)
      rw [hhead, if_neg fun h => hmarket h.1, Nat.zero_add]
  | _ => exact (Nat.zero_add _).symm

/-- What is heard of once is counted once. -/
theorem handled_eq_length (s : CountedListener W) (events : List (ℕ × CountedEvent W Order))
    (hhears : ∀ pre x suf, events = pre ++ x :: suf →
      (s.run env getPerpIdFromSymbol pre).HearsOnce env x.2) :
    handledCreations env getPerpIdFromSymbol s events = (createdMarketOrders env events).length ∧
      handledExecutions env getPerpIdFromSymbol s events =
        (executedMarketOrders env events).length := by
  induction events generalizing s with
  | nil => exact ⟨rfl, rfl⟩
  | cons x events ih =>
    have hfirst : s.HearsOnce env x.2 := hhears [] x events rfl
    obtain ⟨hcreations, hexecutions⟩ := ih (s.step env getPerpIdFromSymbol x.1 x.2)
      fun pre y suf hsplit => hhears (x :: pre) y suf (by rw [hsplit]; rfl)
    rw [handledCreations, handledExecutions, hcreations, hexecutions,
      length_created_cons hfirst, length_executed_cons hfirst]
    exact ⟨rfl, rfl⟩

variable (env getPerpIdFromSymbol) in
/-- **No false restart.**  Take a run between two resets in which no market order is created or
executed twice.  If each order is heard of by one set of handlers of its order book when it is
created, and by those of the proxy when it is executed, and only orders created in the run are
executed in it, then at every point where all created market orders have been executed the counts
match, and the heartbeat restarts the listener only if its last event is too old. -/
theorem no_false_restart (s : CountedListener W)
    (hcreated : s.handlers.mktOrderFrequency.createdCount = 0)
    (hexecuted : s.handlers.mktOrderFrequency.executedCount = 0)
    (events : List (ℕ × CountedEvent W Order)) (hevents : ∀ x ∈ events, ¬ x.2.IsReset)
    (hcreatedOnce : (createdMarketOrders env events).Nodup)
    (hexecutedOnce : (executedMarketOrders env events).Nodup)
    (hhears : ∀ pre x suf, events = pre ++ x :: suf →
      (s.run env getPerpIdFromSymbol pre).HearsOnce env x.2)
    (hbefore : ∀ pre, pre <+: events →
      executedMarketOrders env pre ⊆ createdMarketOrders env pre) :
    ∀ pre, pre <+: events → AllExecuted env pre → ∀ now,
      (doMarketOrderFrequenciesMatch
        (s.run env getPerpIdFromSymbol pre).handlers.mktOrderFrequency now).2 = true ∧
      (checkTradeEventListenerHeartbeat (s.run env getPerpIdFromSymbol pre).handlers now).2 =
        decide ((s.run env getPerpIdFromSymbol pre).handlers.lastBlockChainEventTs + 10 * 60000 <
          now) := by
  intro pre hpre hall now
  obtain ⟨hcreations, hexecutions⟩ := handled_eq_length s pre fun a x b hsplit => by
    obtain ⟨suf, hsuf⟩ := hpre
    exact hhears a x (b ++ suf) (by rw [← hsuf, hsplit, List.append_assoc, List.cons_append])
  -- the orders executed are the orders created
  have hsubCreated : (createdMarketOrders env pre).Sublist (createdMarketOrders env events) :=
    hpre.sublist.filterMap _
  have hsubExecuted : (executedMarketOrders env pre).Sublist (executedMarketOrders env events) :=
    hpre.sublist.filterMap _
  have hle := (List.subperm_of_subset (hcreatedOnce.sublist hsubCreated) hall).length_le
  have hge := (List.subperm_of_subset (hexecutedOnce.sublist hsubExecuted)
    (hbefore pre hpre)).length_le
  have hlength : (createdMarketOrders env pre).length = (executedMarketOrders env pre).length :=
    le_antisymm hle hge
  have hmatch : (doMarketOrderFrequenciesMatch
      (s.run env getPerpIdFromSymbol pre).handlers.mktOrderFrequency now).2 = true := by
    rw [match_iff, counts_run s pre fun x hx => hevents x (hpre.subset hx), hcreated, hexecuted,
      Nat.zero_add, Nat.zero_add, hcreations, hexecutions, hlength]
    show Close (executedMarketOrders env pre).length (executedMarketOrders env pre).length
    rw [Close, max_self, min_self]
    omega
  refine ⟨hmatch, ?_⟩
  rw [checkTradeEventListenerHeartbeat, hmatch, Bool.not_true, Bool.or_false]

/-- The first provider has been connected. -/
def connected : CountedListener Unit :=
  CountedListener.start.run btcEnv (fun _ => 100001)
    [(0, .listener .networkDetected), (1000, .listener .proxyCreated)]

/-- A market order that is created and executed. -/
def executedOrder (digest : String) : List (ℕ × CountedEvent Unit String) :=
  [(2000, .orderCreated "BTC-USD-MATIC" 100001 "0x5aAeb6053F3E94C9b9A09f33669435E7Ef1BeAed"
      "0x0000000000000000000000000000000000000000" digest digest),
    (4000, .trade 100001 "0x5aAeb6053F3E94C9b9A09f33669435E7Ef1BeAed" digest digest 0 0)]

/-- Five market orders in a perpetual nobody watches. -/
def fiveUnwatched : List (ℕ × CountedEvent Unit String) :=
  ["0xd1", "0xd2", "0xd3", "0xd4", "0xd5"].flatMap executedOrder

/-- All five are executed, none of the creations is heard of, and the listener is restarted. -/
theorem fiveUnwatched_restarts :
    AllExecuted btcEnv fiveUnwatched ∧
      (doMarketOrderFrequenciesMatch (connected.run btcEnv (fun _ => 100001)
        fiveUnwatched).handlers.mktOrderFrequency 5000).2 = false ∧
      (checkTradeEventListenerHeartbeat (connected.run btcEnv (fun _ => 100001)
        fiveUnwatched).handlers 5000).2 = true := by
  have hcounts : ¬ Close
      (connected.run btcEnv (fun _ => 100001) fiveUnwatched).handlers.mktOrderFrequency.createdCount
      (connected.run btcEnv (fun _ => 100001)
        fiveUnwatched).handlers.mktOrderFrequency.executedCount := by
    unfold Close
    decide
  have hmatch : (doMarketOrderFrequenciesMatch (connected.run btcEnv (fun _ => 100001)
      fiveUnwatched).handlers.mktOrderFrequency 5000).2 = false :=
    Bool.eq_false_iff.2 fun h => hcounts ((match_iff _ _).1 h)
  refine ⟨by unfold AllExecuted; decide, hmatch, ?_⟩
  rw [checkTradeEventListenerHeartbeat, hmatch, Bool.not_false, Bool.or_true]

/-- The same five in a perpetual a client watches. -/
def fiveWatched : List (ℕ × CountedEvent Unit String) :=
  (1500, .listener (.subscribe () "BTC-USD-MATIC" "0x5aAeb6053F3E94C9b9A09f33669435E7Ef1BeAed")) ::
    fiveUnwatched

/-- The listener is not restarted. -/
theorem fiveWatched_matches :
    (doMarketOrderFrequenciesMatch (connected.run btcEnv (fun _ => 100001)
        fiveWatched).handlers.mktOrderFrequency 5000).2 = true ∧
      (checkTradeEventListenerHeartbeat (connected.run btcEnv (fun _ => 100001)
        fiveWatched).handlers 5000).2 = false := by
  have hhears : ∀ n < 11, ∀ x ∈ fiveWatched[n]?,
      (connected.run btcEnv (fun _ => 100001) (fiveWatched.take n)).HearsOnce btcEnv x.2 := by
    decide
  have hbefore : ∀ n < 12, ∀ digest ∈ executedMarketOrders btcEnv (fiveWatched.take n),
      digest ∈ createdMarketOrders btcEnv (fiveWatched.take n) := by decide
  have hlength : fiveWatched.length = 11 := by decide
  have hevents : ∀ x ∈ fiveWatched, ¬ x.2.IsReset := by
    simp [fiveWatched, fiveUnwatched, executedOrder, CountedEvent.IsReset]
  have hheard : ∀ pre x suf, fiveWatched = pre ++ x :: suf →
      (connected.run btcEnv (fun _ => 100001) pre).HearsOnce btcEnv x.2 := by
    intro pre x suf hsplit
    have htake : fiveWatched.take pre.length = pre := by rw [hsplit, List.take_left]
    have hget : fiveWatched[pre.length]? = some x := by simp [hsplit]
    have hlt : pre.length < 11 := by
      rw [← hlength, hsplit]
      simp
    have hx := hhears pre.length hlt x hget
    rwa [htake] at hx
  have hcreated : ∀ pre, pre <+: fiveWatched →
      executedMarketOrders btcEnv pre ⊆ createdMarketOrders btcEnv pre := by
    intro pre hpre
    have hle := hpre.length_le
    have hsub := hbefore pre.length (by omega)
    rwa [← List.prefix_iff_eq_take.1 hpre] at hsub
  obtain ⟨hmatch, hrestart⟩ := no_false_restart btcEnv (fun _ => 100001) connected (by decide)
    (by decide) fiveWatched hevents (by decide) (by decide) hheard hcreated fiveWatched
    (List.prefix_refl _) (by unfold AllExecuted; decide) 5000
  refine ⟨hmatch, hrestart.trans (decide_eq_false ?_)⟩
  have hlast : (connected.run btcEnv (fun _ => 100001)
      fiveWatched).handlers.lastBlockChainEventTs = 4000 := by decide
  rw [hlast]
  omega

end TraderBackend
