import TraderBackend.Api.Registry

/-!
# Order-book listeners

For every perpetual that somebody watches, `EventListener` keeps one `Contract`
object on its websocket provider whose handlers receive the events of the order
book.  `subscribe` creates it, `_unsubscribe` removes its handlers, and
`resetRPCWebsocket` moves to a new provider and creates all of them again.

* **Contracts.**  `addOrderBookEventHandlers`, `removeOrderBookEventHandlers`,
  and `Tracked`: a contract with live handlers on the current provider is the
  one `orderBookContracts` names for its symbol.
* **The reset.**  `beginReset`, `networkDetected`, `proxyCreated` are the pieces
  of `resetRPCWebsocketInner` between its awaits; calls of clients come in
  between.
* **Runs.**  `one_listener_set_iff`: outside of resets every watched order book
  has exactly one set of handlers and any other none **if and only if** each
  time a reset re-adds the handlers, every symbol of `orderBookContracts` is
  watched and has none yet.
-/

namespace TraderBackend

/-- A `Contract` object of an order book. -/
structure OrderBookContract where
  symbol : String
  /-- The provider it was created on. -/
  provider : ℕ
  /-- Its handlers are attached. -/
  live : Bool
  deriving DecidableEq

/-- The awaits at which `resetRPCWebsocketInner` is suspended. -/
inductive ResetAt where
  | detectNetwork
  | createProxyInstance
  deriving DecidableEq

/-- The listener as far as order books are concerned.  Providers are numbered in the
order of their creation. -/
structure Listener (W : Type*) where
  registry : Registry W
  /-- All `Contract` objects, oldest first. -/
  contracts : List OrderBookContract
  /-- Symbol to the index of its contract. -/
  orderBookContracts : OrdMap String ℕ
  currentWSRpcProvider : ℕ
  /-- Where a reset is suspended, while `rpcResetting` is set. -/
  resetting : Option ResetAt

variable {W : Type*}

/-- `addOrderBookEventHandlers`. -/
def addOrderBookEventHandlers (s : Listener W) (symbol : String) : Listener W :=
  { s with
    contracts := s.contracts ++ [⟨symbol, s.currentWSRpcProvider, true⟩]
    orderBookContracts := s.orderBookContracts.set symbol s.contracts.length }

/-- `contract.removeAllListeners()`. -/
def OrderBookContract.removeAllListeners (c : OrderBookContract) : OrderBookContract :=
  { c with live := false }

/-- `removeOrderBookEventHandlers`. -/
def removeOrderBookEventHandlers (s : Listener W) (symbol : String) : Listener W :=
  match s.orderBookContracts.get? symbol with
  | none => s
  | some i => { s with contracts := s.contracts.modify i OrderBookContract.removeAllListeners }

/-- `resetRPCWebsocketInner` up to the wait for the new provider: destroying the old one
kills the handlers attached to it. -/
def beginReset (s : Listener W) : Listener W :=
  if s.resetting.isSome then s
  else
    { s with
      contracts := s.contracts.map fun c =>
        if c.provider = s.currentWSRpcProvider then c.removeAllListeners else c
      currentWSRpcProvider := s.currentWSRpcProvider + 1
      resetting := some .detectNetwork }

/-- From the wait for the provider to that for the proxy instance. -/
def networkDetected (s : Listener W) : Listener W :=
  if s.resetting = some .detectNetwork then { s with resetting := some .createProxyInstance } else s

/-- The rest of the reset: handlers for every key of `orderBookContracts`. -/
def proxyCreated (s : Listener W) : Listener W :=
  if s.resetting = some .createProxyInstance then
    { s.orderBookContracts.keys.foldl addOrderBookEventHandlers s with resetting := none }
  else s

/-- The listener when `initialize` returns from `resetRPCWebsocket`, which it does not
await: the first provider is being connected, and nobody has subscribed. -/
def Listener.start : Listener W where
  registry := Registry.init
  contracts := []
  orderBookContracts := OrdMap.empty
  currentWSRpcProvider := 0
  resetting := some .detectNetwork

/-- What happens to the listener. -/
inductive ListenerEvent (W : Type*) where
  | subscribe (ws : W) (perpetualsSymbol traderAddr : String)
  | unsubscribe (ws : W)
  | beginReset
  | networkDetected
  | proxyCreated

variable [DecidableEq W] (getPerpIdFromSymbol : String → ℕ)

/-- One event. -/
def Listener.step (s : Listener W) : ListenerEvent W → Listener W
  | .subscribe ws perpetualsSymbol traderAddr =>
      let res := TraderBackend.subscribe getPerpIdFromSymbol (fun _ => none) s.registry ws
        perpetualsSymbol traderAddr
      let s := { s with registry := res.registry }
      match res.added with
      | some symbol => addOrderBookEventHandlers s symbol
      | none => s
  | .unsubscribe ws =>
      let res := TraderBackend.unsubscribe s.registry ws
      (res.released.map ClientSubscription.symbol).foldl removeOrderBookEventHandlers
        { s with registry := res.registry }
  | .beginReset => TraderBackend.beginReset s
  | .networkDetected => TraderBackend.networkDetected s
  | .proxyCreated => TraderBackend.proxyCreated s

/-- A sequence of events. -/
def Listener.run (s : Listener W) (events : List (ListenerEvent W)) : Listener W :=
  events.foldl (Listener.step getPerpIdFromSymbol) s

omit [DecidableEq W] in
/-- The number of contracts on the current provider with live handlers for a symbol. -/
def listenerSets (s : Listener W) (symbol : String) : ℕ :=
  s.contracts.countP fun c =>
    decide (c.symbol = symbol ∧ c.provider = s.currentWSRpcProvider ∧ c.live = true)

omit [DecidableEq W] in
/-- The perpetual has at least one subscriber. -/
def hasSubscriber (r : Registry W) (id : ℕ) : Bool :=
  (r.subscriptions.get? id).any fun traderMap =>
    traderMap.entries.any fun e => !e.2.isEmpty

/-! ## Contracts -/

section

omit [DecidableEq W]

/-- The symbol has a contract with live handlers on the current provider. -/
def Live (s : Listener W) (symbol : String) : Prop :=
  ∃ (i : ℕ) (c : OrderBookContract), s.contracts[i]? = some c ∧ c.symbol = symbol ∧
    c.provider = s.currentWSRpcProvider ∧ c.live = true

/-- Every live contract of the current provider is the one its symbol names, a symbol names
a contract of its own, and no contract belongs to a provider that is yet to come. -/
structure Tracked (s : Listener W) : Prop where
  named : ∀ (i : ℕ) (c : OrderBookContract), s.contracts[i]? = some c →
    c.provider = s.currentWSRpcProvider → c.live = true →
    s.orderBookContracts.get? c.symbol = some i
  own : ∀ (symbol : String) (i : ℕ), s.orderBookContracts.get? symbol = some i →
    ∃ c : OrderBookContract, s.contracts[i]? = some c ∧ c.symbol = symbol
  past : ∀ (i : ℕ) (c : OrderBookContract), s.contracts[i]? = some c →
    c.provider ≤ s.currentWSRpcProvider

/-- A property that holds at one index only is counted once. -/
theorem countP_of_index {α : Type*} (p : α → Bool) :
    ∀ (l : List α) (i : ℕ), (∀ j c, l[j]? = some c → p c = true → j = i) →
      (∃ c, l[i]? = some c ∧ p c = true) → l.countP p = 1 := by
  intro l
  induction l with
  | nil => rintro i - ⟨c, hc, -⟩; simp at hc
  | cons a l ih =>
    rintro i hidx ⟨c, hc, hp⟩
    cases i with
    | zero =>
      have ha : p a = true := by
        simp only [List.getElem?_cons_zero, Option.some.injEq] at hc
        rw [hc]; exact hp
      have hnone : l.countP p = 0 := by
        rw [List.countP_eq_zero]
        intro x hx hpx
        obtain ⟨j, hj⟩ := List.mem_iff_getElem?.1 hx
        have := hidx (j + 1) x (by simpa using hj) hpx
        omega
      rw [List.countP_cons_of_pos ha, hnone]
    | succ i =>
      have ha : ¬ p a = true := fun hc' => absurd (hidx 0 a rfl hc') (by omega)
      rw [List.countP_cons_of_neg ha]
      refine ih i (fun j x hj hpx => ?_) ⟨c, by simpa using hc, hp⟩
      have := hidx (j + 1) x (by simpa using hj) hpx
      omega

/-- With tracked contracts a symbol has one set of handlers or none. -/
theorem listenerSets_of_tracked {s : Listener W} (h : Tracked s) (symbol : String) :
    (Live s symbol → listenerSets s symbol = 1) ∧
      (¬ Live s symbol → listenerSets s symbol = 0) := by
  constructor
  · rintro ⟨i, c, hc, hsym, hprov, hlive⟩
    refine countP_of_index _ _ i (fun j c' hc' hp => ?_) ⟨c, hc, by simp [hsym, hprov, hlive]⟩
    obtain ⟨hsym', hprov', hlive'⟩ := of_decide_eq_true hp
    have h1 := h.named i c hc hprov hlive
    have h2 := h.named j c' hc' hprov' hlive'
    rw [hsym', ← hsym, h1] at h2
    exact (Option.some.inj h2).symm
  · intro hno
    refine List.countP_eq_zero.2 fun c hc hp => hno ?_
    obtain ⟨i, hi⟩ := List.mem_iff_getElem?.1 hc
    obtain ⟨hsym, hprov, hlive⟩ := of_decide_eq_true hp
    exact ⟨i, c, hi, hsym, hprov, hlive⟩

theorem getElem?_append_singleton {α : Type*} {l : List α} {a c : α} {i : ℕ} :
    (l ++ [a])[i]? = some c ↔ l[i]? = some c ∨ i = l.length ∧ c = a := by
  rw [List.getElem?_append]
  split
  · rename_i h
    constructor
    · exact Or.inl
    · rintro (hc | ⟨rfl, -⟩)
      · exact hc
      · omega
  · rename_i h
    rw [List.getElem?_singleton, List.getElem?_eq_none (by omega)]
    constructor
    · intro hc
      split at hc
      · rename_i h0
        exact Or.inr ⟨by omega, (Option.some.inj hc).symm⟩
      · exact absurd hc (by simp)
    · rintro (hc | ⟨rfl, rfl⟩)
      · exact absurd hc (by simp)
      · simp

/-- Handlers for a symbol that has none. -/
theorem Tracked.add {s : Listener W} (h : Tracked s) {symbol : String} (hno : ¬ Live s symbol) :
    Tracked (addOrderBookEventHandlers s symbol) ∧
      ∀ t, Live (addOrderBookEventHandlers s symbol) t ↔ t = symbol ∨ Live s t := by
  refine ⟨⟨?_, ?_, ?_⟩, ?_⟩
  · intro i c hc hprov hlive
    simp only [addOrderBookEventHandlers] at hc hprov ⊢
    rw [OrdMap.get?_set]
    rcases getElem?_append_singleton.1 hc with hold | ⟨hi, rfl⟩
    · have hne : symbol ≠ c.symbol := by
        rintro rfl
        exact hno ⟨i, c, hold, rfl, hprov, hlive⟩
      rw [if_neg hne]
      exact h.named i c hold hprov hlive
    · rw [if_pos rfl, hi]
  · intro t i hget
    simp only [addOrderBookEventHandlers] at hget ⊢
    rcases OrdMap.get?_set_cases hget with ⟨ht, hi⟩ | hold
    · exact ⟨_, getElem?_append_singleton.2 (Or.inr ⟨hi.symm, rfl⟩), ht⟩
    · obtain ⟨c, hc, hsym⟩ := h.own t i hold
      exact ⟨c, getElem?_append_singleton.2 (Or.inl hc), hsym⟩
  · intro i c hc
    simp only [addOrderBookEventHandlers] at hc ⊢
    rcases getElem?_append_singleton.1 hc with hold | ⟨-, rfl⟩
    · exact h.past i c hold
    · exact le_refl _
  · intro t
    constructor
    · rintro ⟨i, c, hc, hsym, hprov, hlive⟩
      simp only [addOrderBookEventHandlers] at hc hprov
      rcases getElem?_append_singleton.1 hc with hold | ⟨-, rfl⟩
      · exact Or.inr ⟨i, c, hold, hsym, hprov, hlive⟩
      · exact Or.inl hsym.symm
    · rintro (rfl | ⟨i, c, hc, hsym, hprov, hlive⟩)
      · exact ⟨s.contracts.length, _, getElem?_append_singleton.2 (Or.inr ⟨rfl, rfl⟩), rfl, rfl,
          rfl⟩
      · exact ⟨i, c, getElem?_append_singleton.2 (Or.inl hc), hsym, hprov, hlive⟩

/-- Removing the handlers of a symbol. -/
theorem Tracked.remove {s : Listener W} (h : Tracked s) (symbol : String) :
    Tracked (removeOrderBookEventHandlers s symbol) ∧
      ∀ t, Live (removeOrderBookEventHandlers s symbol) t ↔ t ≠ symbol ∧ Live s t := by
  unfold removeOrderBookEventHandlers
  cases hget : s.orderBookContracts.get? symbol with
  | none =>
    refine ⟨h, fun t => ⟨fun hl => ⟨?_, hl⟩, fun hl => hl.2⟩⟩
    rintro rfl
    obtain ⟨i, c, hc, hsym, hprov, hlive⟩ := hl
    have := h.named i c hc hprov hlive
    rw [hsym, hget] at this
    exact absurd this (by simp)
  | some k =>
    -- only the contract of index `k` is changed, and it is no longer live
    have hmod : ∀ i c, (s.contracts.modify k OrderBookContract.removeAllListeners)[i]? = some c ↔
        (i ≠ k ∧ s.contracts[i]? = some c) ∨
          (i = k ∧ ∃ c₀, s.contracts[i]? = some c₀ ∧ c = c₀.removeAllListeners) := by
      intro i c
      rw [List.getElem?_modify]
      by_cases hik : k = i
      · subst hik
        simp [eq_comm]
      · simp [hik, Ne.symm hik]
    refine ⟨⟨fun i c hc hprov hlive => ?_, fun t i hi => ?_, fun i c hc => ?_⟩, fun t => ?_⟩
    · rcases (hmod i c).1 hc with ⟨-, hold⟩ | ⟨-, c₀, -, rfl⟩
      · exact h.named i c hold hprov hlive
      · exact absurd hlive (by simp [OrderBookContract.removeAllListeners])
    · obtain ⟨c, hc, hsym⟩ := h.own t i hi
      by_cases hik : i = k
      · exact ⟨c.removeAllListeners, (hmod i _).2 (Or.inr ⟨hik, c, hc, rfl⟩), hsym⟩
      · exact ⟨c, (hmod i c).2 (Or.inl ⟨hik, hc⟩), hsym⟩
    · rcases (hmod i c).1 hc with ⟨-, hold⟩ | ⟨-, c₀, hc₀, rfl⟩
      · exact h.past i c hold
      · exact h.past i c₀ hc₀
    · constructor
      · rintro ⟨i, c, hc, hsym, hprov, hlive⟩
        rcases (hmod i c).1 hc with ⟨hik, hold⟩ | ⟨-, c₀, -, rfl⟩
        · refine ⟨?_, i, c, hold, hsym, hprov, hlive⟩
          rintro rfl
          have hname := h.named i c hold hprov hlive
          rw [hsym, hget] at hname
          exact hik (Option.some.inj hname).symm
        · exact absurd hlive (by simp [OrderBookContract.removeAllListeners])
      · rintro ⟨hne, i, c, hc, hsym, hprov, hlive⟩
        refine ⟨i, c, (hmod i c).2 (Or.inl ⟨?_, hc⟩), hsym, hprov, hlive⟩
        rintro rfl
        obtain ⟨c', hc', hsym'⟩ := h.own symbol i hget
        rw [hc] at hc'
        exact hne (by rw [← hsym, Option.some.inj hc', hsym'])

/-- Adding handlers for several symbols that have none. -/
theorem Tracked.addAll {symbols : List String} (hnodup : symbols.Nodup) :
    ∀ {s : Listener W}, Tracked s → (∀ t ∈ symbols, ¬ Live s t) →
      Tracked (symbols.foldl addOrderBookEventHandlers s) ∧
        ∀ t, Live (symbols.foldl addOrderBookEventHandlers s) t ↔ t ∈ symbols ∨ Live s t := by
  induction symbols with
  | nil => intro s h _; exact ⟨h, fun t => by simp⟩
  | cons symbol symbols ih =>
    intro s h hno
    obtain ⟨hnew, hrest⟩ := List.nodup_cons.1 hnodup
    obtain ⟨htracked, hlive⟩ := h.add (hno symbol (List.mem_cons_self ..))
    have hno' : ∀ t ∈ symbols, ¬ Live (addOrderBookEventHandlers s symbol) t := by
      intro t ht hl
      rcases (hlive t).1 hl with rfl | hl'
      · exact hnew ht
      · exact hno t (List.mem_cons_of_mem _ ht) hl'
    obtain ⟨hall, hliveAll⟩ := ih hrest htracked hno'
    refine ⟨hall, fun t => ?_⟩
    rw [List.foldl_cons, hliveAll t, hlive t, List.mem_cons]
    tauto

/-- Removing the handlers of several symbols. -/
theorem Tracked.removeAll (symbols : List String) :
    ∀ {s : Listener W}, Tracked s →
      Tracked (symbols.foldl removeOrderBookEventHandlers s) ∧
        ∀ t, Live (symbols.foldl removeOrderBookEventHandlers s) t ↔ t ∉ symbols ∧ Live s t := by
  induction symbols with
  | nil => intro s h; exact ⟨h, fun t => by simp⟩
  | cons symbol symbols ih =>
    intro s h
    obtain ⟨htracked, hlive⟩ := h.remove symbol
    obtain ⟨hall, hliveAll⟩ := ih htracked
    refine ⟨hall, fun t => ?_⟩
    rw [List.foldl_cons, hliveAll t, hlive t, List.mem_cons, not_or]
    tauto

/-- What adding handlers for several symbols leaves alone, and the keys it adds. -/
theorem addAll_frame (symbols : List String) :
    ∀ s : Listener W,
      (symbols.foldl addOrderBookEventHandlers s).registry = s.registry ∧
        (symbols.foldl addOrderBookEventHandlers s).currentWSRpcProvider =
          s.currentWSRpcProvider ∧
        (symbols.foldl addOrderBookEventHandlers s).contracts =
          s.contracts ++
            (symbols.map fun t => (⟨t, s.currentWSRpcProvider, true⟩ : OrderBookContract)) ∧
        ∀ t, t ∈ (symbols.foldl addOrderBookEventHandlers s).orderBookContracts.keys ↔
          t ∈ symbols ∨ t ∈ s.orderBookContracts.keys := by
  induction symbols with
  | nil => intro s; simp
  | cons symbol symbols ih =>
    intro s
    obtain ⟨hreg, hprov, hcontracts, hkeys⟩ := ih (addOrderBookEventHandlers s symbol)
    refine ⟨hreg, hprov, ?_, fun t => ?_⟩
    · rw [List.foldl_cons, hcontracts]
      simp [addOrderBookEventHandlers]
    · rw [List.foldl_cons, hkeys t, List.mem_cons]
      simp only [addOrderBookEventHandlers, OrdMap.mem_keys_set]
      tauto

/-- Removing handlers touches contracts only. -/
theorem removeAll_frame (symbols : List String) :
    ∀ s : Listener W,
      (symbols.foldl removeOrderBookEventHandlers s).registry = s.registry ∧
        (symbols.foldl removeOrderBookEventHandlers s).orderBookContracts =
          s.orderBookContracts ∧
        (symbols.foldl removeOrderBookEventHandlers s).resetting = s.resetting := by
  have hone : ∀ (s : Listener W) (symbol : String),
      (removeOrderBookEventHandlers s symbol).registry = s.registry ∧
        (removeOrderBookEventHandlers s symbol).orderBookContracts = s.orderBookContracts ∧
        (removeOrderBookEventHandlers s symbol).resetting = s.resetting := by
    intro s symbol
    unfold removeOrderBookEventHandlers
    split <;> exact ⟨rfl, rfl, rfl⟩
  induction symbols with
  | nil => intro s; exact ⟨rfl, rfl, rfl⟩
  | cons symbol symbols ih =>
    intro s
    obtain ⟨h1, h2, h3⟩ := ih (removeOrderBookEventHandlers s symbol)
    obtain ⟨g1, g2, g3⟩ := hone s symbol
    exact ⟨h1.trans g1, h2.trans g2, h3.trans g3⟩

/-- In a well-formed registry a perpetual that is there has a subscriber. -/
theorem hasSubscriber_eq {r : Registry W} (h : WellFormed r.subscriptions) (id : ℕ) :
    hasSubscriber r id = (r.subscriptions.get? id).isSome := by
  unfold hasSubscriber
  cases hid : r.subscriptions.get? id with
  | none => rfl
  | some traderMap =>
    have hentries : traderMap.entries ≠ [] := fun hc =>
      h.maps id traderMap hid (by rw [OrdMap.size, hc]; rfl)
    obtain ⟨⟨trader, subscribers⟩, hmem⟩ := List.exists_mem_of_ne_nil _ hentries
    have hne := h.lists id traderMap trader subscribers hid (OrdMap.get?_eq_some.2 hmem)
    simp only [Option.any_some, Option.isSome_some, List.any_eq_true]
    exact ⟨_, hmem, by simpa using hne⟩

end

/-! ## Runs -/

/-- The symbol of a `subscribe` is one the SDK knows. -/
def ListenerEvent.SymbolKnown (known : Set String) : ListenerEvent W → Prop
  | .subscribe _ perpetualsSymbol _ => perpetualsSymbol ∈ known
  | _ => True

/-- Every watched order book has one set of handlers, any other none. -/
def OneListenerSet (known : Set String) (s : Listener W) : Prop :=
  ∀ symbol ∈ known, listenerSets s symbol =
    if hasSubscriber s.registry (getPerpIdFromSymbol symbol) = true then 1 else 0

/-- Every symbol the reset adds handlers for is watched and has none yet. -/
def ReAddsOnce (s : Listener W) : Prop :=
  ∀ symbol ∈ s.orderBookContracts.keys,
    hasSubscriber s.registry (getPerpIdFromSymbol symbol) = true ∧ listenerSets s symbol = 0

/-- The perpetual of a symbol is in `subscriptions`. -/
def Watched (s : Listener W) (symbol : String) : Prop :=
  (s.registry.subscriptions.get? (getPerpIdFromSymbol symbol)).isSome = true

/-- The invariant of runs in which every reset re-adds once. -/
structure Watching (known : Set String) (s : Listener W) : Prop where
  consistent : Consistent s.registry
  /-- Clients' lists carry known symbols with their ids. -/
  labelled : ∀ ws sub, sub ∈ (s.registry.clients.get? ws).getD [] →
    sub.perpetualId = getPerpIdFromSymbol sub.symbol ∧ sub.symbol ∈ known
  tracked : Tracked s
  keyed : ∀ symbol ∈ known, Watched getPerpIdFromSymbol s symbol →
    symbol ∈ s.orderBookContracts.keys
  watched : ∀ symbol ∈ known, Live s symbol → Watched getPerpIdFromSymbol s symbol
  /-- Outside of a reset nobody watches in vain. -/
  served : s.resetting = none → ∀ symbol ∈ known, Watched getPerpIdFromSymbol s symbol →
    Live s symbol

variable {getPerpIdFromSymbol} {known : Set String}

theorem watching_start : Watching getPerpIdFromSymbol known (Listener.start : Listener W) where
  consistent := consistent_init
  labelled := by intro ws sub h; simp [Listener.start, Registry.init] at h
  tracked := ⟨by simp [Listener.start], by simp [Listener.start], by simp [Listener.start]⟩
  keyed := by intro symbol _ h; simp [Watched, Listener.start, Registry.init] at h
  watched := by rintro symbol _ ⟨i, c, h, -⟩; simp [Listener.start] at h
  served := by intro h; simp [Listener.start] at h

/-- The invariant gives the property outside of resets. -/
theorem Watching.oneListenerSet {s : Listener W} (h : Watching getPerpIdFromSymbol known s)
    (hidle : s.resetting = none) : OneListenerSet getPerpIdFromSymbol known s := by
  intro symbol hsymbol
  rw [hasSubscriber_eq h.consistent.wellFormed]
  obtain ⟨hone, hzero⟩ := listenerSets_of_tracked h.tracked symbol
  by_cases hw : Watched getPerpIdFromSymbol s symbol
  · exact (hone (h.served hidle symbol hsymbol hw)).trans (if_pos hw).symm
  · exact (hzero fun hl => hw (h.watched symbol hsymbol hl)).trans (if_neg hw).symm

/-- The subscriptions of the clients carry the ids of their symbols, and these are known. -/
def Labelled (getPerpIdFromSymbol : String → ℕ) (known : Set String) (r : Registry W) : Prop :=
  ∀ w sub, sub ∈ (r.clients.get? w).getD [] →
    sub.perpetualId = getPerpIdFromSymbol sub.symbol ∧ sub.symbol ∈ known

theorem Labelled.subscribe {r : Registry W} (h : Labelled getPerpIdFromSymbol known r) (ws : W)
    {perpetualsSymbol : String} (traderAddr : String) (hknown : perpetualsSymbol ∈ known) :
    Labelled getPerpIdFromSymbol known (subscribe getPerpIdFromSymbol (fun _ => none) r ws
      perpetualsSymbol traderAddr).registry := by
  intro w sub hsub
  rcases subscribe_spec getPerpIdFromSymbol r ws perpetualsSymbol traderAddr with
    ⟨-, -, hreg, -⟩ | ⟨-, -, hclients, -⟩
  · rw [hreg] at hsub
    exact h w sub hsub
  · rw [hclients, OrdMap.get?_set] at hsub
    by_cases hw : ws = w
    · subst hw
      rw [if_pos rfl, Option.getD_some, List.mem_append, List.mem_singleton] at hsub
      rcases hsub with hold | rfl
      · exact h ws sub hold
      · exact ⟨rfl, hknown⟩
    · rw [if_neg hw] at hsub
      exact h w sub hsub

theorem Labelled.unsubscribe {r : Registry W} (h : Labelled getPerpIdFromSymbol known r) (ws : W) :
    Labelled getPerpIdFromSymbol known (unsubscribe r ws).registry := by
  intro w sub hsub
  unfold TraderBackend.unsubscribe at hsub
  cases hws : r.clients.get? ws with
  | none =>
    rw [hws] at hsub
    exact h w sub hsub
  | some clientSubscriptions =>
    rw [hws] at hsub
    simp only [OrdMap.get?_erase] at hsub
    by_cases hw : ws = w
    · simp [hw] at hsub
    · rw [if_neg hw] at hsub
      exact h w sub hsub

theorem watching_subscribe (hinj : Set.InjOn getPerpIdFromSymbol known) {s : Listener W}
    (h : Watching getPerpIdFromSymbol known s) (ws : W) {perpetualsSymbol : String}
    (traderAddr : String) (hknown : perpetualsSymbol ∈ known) :
    Watching getPerpIdFromSymbol known
      (s.step getPerpIdFromSymbol (.subscribe ws perpetualsSymbol traderAddr)) := by
  have hcons := consistent_subscribe getPerpIdFromSymbol h.consistent ws perpetualsSymbol traderAddr
  have hlabelled := Labelled.subscribe h.labelled ws traderAddr hknown
  have hperp := subscribe_perpetuals getPerpIdFromSymbol s.registry ws perpetualsSymbol traderAddr
  simp only [Listener.step]
  generalize subscribe getPerpIdFromSymbol (fun _ => none) s.registry ws perpetualsSymbol
    traderAddr = res at hcons hlabelled hperp ⊢
  simp only at hperp
  obtain ⟨hsome, hadded⟩ := hperp
  rcases hadded with hnone | ⟨hsym, hnew⟩
  · -- no perpetual is added: neither the contracts nor who is watched change
    rw [hnone] at hsome ⊢
    have hsame : ∀ t, Watched getPerpIdFromSymbol
        (⟨res.registry, s.contracts, s.orderBookContracts, s.currentWSRpcProvider, s.resetting⟩ :
          Listener W) t ↔ Watched getPerpIdFromSymbol s t := by
      intro t
      simp [Watched, hsome]
    exact ⟨hcons, hlabelled, ⟨h.tracked.named, h.tracked.own, h.tracked.past⟩,
      fun t ht hw => h.keyed t ht ((hsame t).1 hw),
      fun t ht hl => (hsame t).2 (h.watched t ht hl),
      fun hidle t ht hw => h.served hidle t ht ((hsame t).1 hw)⟩
  · rw [hsym] at hsome ⊢
    have hnoLive : ¬ Live s perpetualsSymbol := by
      intro hl
      have hw := h.watched perpetualsSymbol hknown hl
      rw [Watched, hnew] at hw
      exact absurd hw (by simp)
    obtain ⟨htracked, hlive⟩ := Tracked.add (s := ⟨res.registry, s.contracts,
      s.orderBookContracts, s.currentWSRpcProvider, s.resetting⟩)
      ⟨h.tracked.named, h.tracked.own, h.tracked.past⟩ hnoLive
    have hsame : ∀ t ∈ known, Watched getPerpIdFromSymbol (addOrderBookEventHandlers
        (⟨res.registry, s.contracts, s.orderBookContracts, s.currentWSRpcProvider, s.resetting⟩ :
          Listener W) perpetualsSymbol) t ↔
        t = perpetualsSymbol ∨ Watched getPerpIdFromSymbol s t := by
      intro t ht
      have hid : getPerpIdFromSymbol t = getPerpIdFromSymbol perpetualsSymbol ↔
          t = perpetualsSymbol := ⟨fun he => hinj ht hknown he, fun he => by rw [he]⟩
      simp [Watched, addOrderBookEventHandlers, hsome, hid]
    refine ⟨hcons, hlabelled, htracked, fun t ht hw => ?_, fun t ht hl => ?_,
      fun hidle t ht hw => ?_⟩
    · apply OrdMap.mem_keys_set.2
      rcases (hsame t ht).1 hw with rfl | hw'
      · exact Or.inl rfl
      · exact Or.inr (h.keyed t ht hw')
    · rcases (hlive t).1 hl with rfl | hl'
      · exact (hsame t ht).2 (Or.inl rfl)
      · exact (hsame t ht).2 (Or.inr (h.watched t ht hl'))
    · rcases (hsame t ht).1 hw with rfl | hw'
      · exact (hlive t).2 (Or.inl rfl)
      · exact (hlive t).2 (Or.inr (h.served hidle t ht hw'))

theorem watching_unsubscribe (hinj : Set.InjOn getPerpIdFromSymbol known) {s : Listener W}
    (h : Watching getPerpIdFromSymbol known s) (ws : W) :
    Watching getPerpIdFromSymbol known (s.step getPerpIdFromSymbol (.unsubscribe ws)) := by
  have hcons := consistent_unsubscribe h.consistent ws
  have hperp : (∀ j, ((unsubscribe s.registry ws).registry.subscriptions.get? j).isSome =
        ((s.registry.subscriptions.get? j).isSome &&
          !((unsubscribe s.registry ws).released.any fun sub => decide (sub.perpetualId = j)))) ∧
      ∀ sub ∈ (unsubscribe s.registry ws).released,
        sub.perpetualId = getPerpIdFromSymbol sub.symbol ∧ sub.symbol ∈ known := by
    unfold unsubscribe
    cases hws : s.registry.clients.get? ws with
    | none => simp
    | some clientSubscriptions =>
      obtain ⟨hsome, hsub⟩ := unsubscribeLoop_perpetuals ws clientSubscriptions
        s.registry.subscriptions
      exact ⟨hsome, fun sub hmem => h.labelled ws sub (by simpa [hws] using hsub sub hmem)⟩
  have hlabelled := Labelled.unsubscribe h.labelled ws
  simp only [Listener.step]
  generalize unsubscribe s.registry ws = res at hcons hperp hlabelled ⊢
  obtain ⟨hsome, hreleased⟩ := hperp
  obtain ⟨htracked, hlive⟩ := Tracked.removeAll (res.released.map ClientSubscription.symbol)
    (s := ⟨res.registry, s.contracts, s.orderBookContracts, s.currentWSRpcProvider, s.resetting⟩)
    ⟨h.tracked.named, h.tracked.own, h.tracked.past⟩
  obtain ⟨hreg, hkeys, hreset⟩ := removeAll_frame (res.released.map ClientSubscription.symbol)
    (⟨res.registry, s.contracts, s.orderBookContracts, s.currentWSRpcProvider, s.resetting⟩ :
      Listener W)
  generalize (res.released.map ClientSubscription.symbol).foldl removeOrderBookEventHandlers
    (⟨res.registry, s.contracts, s.orderBookContracts, s.currentWSRpcProvider, s.resetting⟩ :
      Listener W) = s' at htracked hlive hreg hkeys hreset ⊢
  have hsame : ∀ t ∈ known, Watched getPerpIdFromSymbol s' t ↔
      t ∉ res.released.map ClientSubscription.symbol ∧ Watched getPerpIdFromSymbol s t := by
    intro t ht
    have hid : (res.released.any fun sub => decide (sub.perpetualId = getPerpIdFromSymbol t)) =
        true ↔ t ∈ res.released.map ClientSubscription.symbol := by
      simp only [List.any_eq_true, decide_eq_true_eq, List.mem_map]
      constructor
      · rintro ⟨sub, hmem, heq⟩
        obtain ⟨hlab, hk⟩ := hreleased sub hmem
        exact ⟨sub, hmem, hinj hk ht (hlab.symm.trans heq)⟩
      · rintro ⟨sub, hmem, rfl⟩
        exact ⟨sub, hmem, (hreleased sub hmem).1⟩
    rw [Watched, hreg, hsome, ← hid, Bool.and_eq_true, Bool.not_eq_true', Bool.not_eq_true]
    exact and_comm
  refine ⟨hreg ▸ hcons, hreg ▸ hlabelled, htracked, fun t ht hw => ?_, fun t ht hl => ?_,
    fun hidle t ht hw => ?_⟩
  · rw [hkeys]
    exact h.keyed t ht ((hsame t ht).1 hw).2
  · obtain ⟨hnot, hl'⟩ := (hlive t).1 hl
    exact (hsame t ht).2 ⟨hnot, h.watched t ht hl'⟩
  · obtain ⟨hnot, hw'⟩ := (hsame t ht).1 hw
    exact (hlive t).2 ⟨hnot, h.served (hreset ▸ hidle) t ht hw'⟩

omit [DecidableEq W] in
/-- After the old provider is destroyed nothing is live. -/
theorem beginReset_tracked {s : Listener W} (h : Tracked s) (hidle : s.resetting = none) :
    Tracked (beginReset s) ∧ ∀ t, ¬ Live (beginReset s) t := by
  have hbegin : beginReset s =
      { s with
        contracts := s.contracts.map fun c =>
          if c.provider = s.currentWSRpcProvider then c.removeAllListeners else c
        currentWSRpcProvider := s.currentWSRpcProvider + 1
        resetting := some .detectNetwork } := by
    simp [beginReset, hidle]
  rw [hbegin]
  have hold : ∀ (i : ℕ) (c : OrderBookContract), (s.contracts.map fun c =>
      if c.provider = s.currentWSRpcProvider then c.removeAllListeners else c)[i]? = some c →
      c.provider ≤ s.currentWSRpcProvider := by
    intro i c hc
    rw [List.getElem?_map] at hc
    obtain ⟨c₀, hc₀, rfl⟩ := Option.map_eq_some_iff.1 hc
    have hpast := h.past i c₀ hc₀
    split <;> exact hpast
  refine ⟨⟨fun i c hc hprov _ => ?_, fun t i hi => ?_, fun i c hc => ?_⟩, ?_⟩
  · have := hold i c hc
    simp only at hprov
    omega
  · obtain ⟨c, hc, hsym⟩ := h.own t i hi
    refine ⟨_, by rw [List.getElem?_map, hc]; rfl, ?_⟩
    dsimp only
    split <;> exact hsym
  · exact Nat.le_succ_of_le (hold i c hc)
  · rintro t ⟨i, c, hc, -, hprov, -⟩
    have := hold i c hc
    simp only at hprov
    omega

theorem watching_beginReset {s : Listener W} (h : Watching getPerpIdFromSymbol known s) :
    Watching getPerpIdFromSymbol known (beginReset s) := by
  cases hres : s.resetting with
  | some _ => simpa [beginReset, hres] using h
  | none =>
    obtain ⟨htracked, hnone⟩ := beginReset_tracked h.tracked hres
    have hreg : (beginReset s).registry = s.registry := by simp [beginReset, hres]
    have hkeys : (beginReset s).orderBookContracts = s.orderBookContracts := by
      simp [beginReset, hres]
    have hphase : (beginReset s).resetting = some .detectNetwork := by simp [beginReset, hres]
    refine ⟨hreg ▸ h.consistent, hreg ▸ h.labelled, htracked, fun t ht hw => ?_,
      fun t _ hl => absurd hl (hnone t), fun hidle => ?_⟩
    · rw [hkeys]
      exact h.keyed t ht (by rw [Watched, hreg] at hw; exact hw)
    · rw [hphase] at hidle; exact absurd hidle (by simp)

theorem watching_networkDetected {s : Listener W} (h : Watching getPerpIdFromSymbol known s) :
    Watching getPerpIdFromSymbol known (networkDetected s) := by
  unfold networkDetected
  split
  · exact ⟨h.consistent, h.labelled, ⟨h.tracked.named, h.tracked.own, h.tracked.past⟩, h.keyed,
      h.watched, fun hidle => absurd hidle (by simp)⟩
  · exact h

theorem watching_proxyCreated {s : Listener W} (h : Watching getPerpIdFromSymbol known s)
    (honce : s.resetting = some .createProxyInstance → ReAddsOnce getPerpIdFromSymbol s) :
    Watching getPerpIdFromSymbol known (proxyCreated s) := by
  unfold proxyCreated
  split
  · rename_i hphase
    have hcond := honce hphase
    have hnone : ∀ t ∈ s.orderBookContracts.keys, ¬ Live s t := by
      intro t ht hl
      have hzero := (hcond t ht).2
      rw [(listenerSets_of_tracked h.tracked t).1 hl] at hzero
      exact absurd hzero (by simp)
    have hnodup : s.orderBookContracts.keys.Nodup := s.orderBookContracts.nodup_keys
    obtain ⟨htracked, hlive⟩ := Tracked.addAll hnodup h.tracked hnone
    obtain ⟨hreg, hprov, -, hkeys⟩ := addAll_frame s.orderBookContracts.keys s
    generalize s.orderBookContracts.keys.foldl addOrderBookEventHandlers s = s' at *
    refine ⟨hreg ▸ h.consistent, hreg ▸ h.labelled,
      ⟨htracked.named, htracked.own, htracked.past⟩, fun t ht hw => ?_, fun t ht hl => ?_,
      fun _ t ht hw => ?_⟩
    · rw [Watched, hreg] at hw
      exact (hkeys t).2 (Or.inl (h.keyed t ht hw))
    · rw [Watched, hreg]
      rcases (hlive t).1 hl with hkey | hl'
      · rw [← hasSubscriber_eq h.consistent.wellFormed]
        exact (hcond t hkey).1
      · exact h.watched t ht hl'
    · rw [Watched, hreg] at hw
      exact (hlive t).2 (Or.inl (h.keyed t ht hw))
  · exact h

/-- The step lemma. -/
theorem watching_step (hinj : Set.InjOn getPerpIdFromSymbol known) {s : Listener W}
    (h : Watching getPerpIdFromSymbol known s) {e : ListenerEvent W} (hknown : e.SymbolKnown known)
    (honce : e = .proxyCreated → s.resetting = some .createProxyInstance →
      ReAddsOnce getPerpIdFromSymbol s) :
    Watching getPerpIdFromSymbol known (s.step getPerpIdFromSymbol e) := by
  cases e with
  | subscribe ws perpetualsSymbol traderAddr => exact watching_subscribe hinj h ws traderAddr hknown
  | unsubscribe ws => exact watching_unsubscribe hinj h ws
  | beginReset => exact watching_beginReset h
  | networkDetected => exact watching_networkDetected h
  | proxyCreated => exact watching_proxyCreated h (honce rfl)

/-- Handlers are only ever added for known symbols. -/
theorem keys_known (events : List (ListenerEvent W)) (hknown : ∀ e ∈ events, e.SymbolKnown known) :
    ∀ symbol ∈ (Listener.start.run getPerpIdFromSymbol events).orderBookContracts.keys,
      symbol ∈ known := by
  induction events using List.reverseRecOn with
  | nil => intro symbol h; simp [Listener.run, Listener.start, OrdMap.keys, OrdMap.empty] at h
  | append_singleton pre e ih =>
    have hpre := ih fun e' he' => hknown e' (List.mem_append_left _ he')
    have he := hknown e (List.mem_append_right _ (List.mem_singleton_self e))
    rw [Listener.run, List.foldl_append]
    change ∀ symbol ∈ ((Listener.start.run getPerpIdFromSymbol pre).step getPerpIdFromSymbol
      e).orderBookContracts.keys, symbol ∈ known
    generalize Listener.start.run getPerpIdFromSymbol pre = s at hpre ⊢
    intro symbol hsymbol
    cases e with
    | subscribe ws perpetualsSymbol traderAddr =>
      have hadded := (subscribe_perpetuals getPerpIdFromSymbol s.registry ws perpetualsSymbol
        traderAddr).2
      simp only [Listener.step] at hsymbol
      rcases hadded with hnone | ⟨hsome, -⟩
      · rw [hnone] at hsymbol
        exact hpre symbol hsymbol
      · rw [hsome] at hsymbol
        rcases OrdMap.mem_keys_set.1 hsymbol with rfl | hold
        · exact he
        · exact hpre symbol hold
    | unsubscribe ws =>
      simp only [Listener.step] at hsymbol
      rw [(removeAll_frame _ _).2.1] at hsymbol
      exact hpre symbol hsymbol
    | beginReset =>
      simp only [Listener.step, beginReset] at hsymbol
      split at hsymbol <;> exact hpre symbol hsymbol
    | networkDetected =>
      simp only [Listener.step, networkDetected] at hsymbol
      split at hsymbol <;> exact hpre symbol hsymbol
    | proxyCreated =>
      simp only [Listener.step, proxyCreated] at hsymbol
      split at hsymbol
      · rcases ((addAll_frame s.orderBookContracts.keys s).2.2.2 symbol).1 hsymbol with h | h <;>
          exact hpre symbol h
      · exact hpre symbol hsymbol

omit [DecidableEq W] in
/-- After a reset every symbol it added handlers for has one set more. -/
theorem listenerSets_proxyCreated {s : Listener W}
    (hphase : s.resetting = some .createProxyInstance) {symbol : String}
    (hkey : symbol ∈ s.orderBookContracts.keys) :
    listenerSets (proxyCreated s) symbol = listenerSets s symbol + 1 := by
  obtain ⟨-, hprov, hcontracts, -⟩ := addAll_frame s.orderBookContracts.keys s
  have hcount : (s.orderBookContracts.keys.map fun t =>
      (⟨t, s.currentWSRpcProvider, true⟩ : OrderBookContract)).countP (fun c =>
        decide (c.symbol = symbol ∧ c.provider = s.currentWSRpcProvider ∧ c.live = true)) = 1 := by
    rw [List.countP_map]
    have hone := List.count_eq_one_of_mem s.orderBookContracts.nodup_keys hkey
    rw [← hone, List.count]
    apply List.countP_congr
    intro t _
    simp
  rw [proxyCreated, if_pos hphase, listenerSets, listenerSets]
  simp only
  rw [hprov, hcontracts, List.countP_append, hcount]

/-- The run lemma: if every reset of the run re-adds once, the invariant holds at its end. -/
theorem watching_run (hinj : Set.InjOn getPerpIdFromSymbol known) (events : List (ListenerEvent W))
    (hknown : ∀ e ∈ events, e.SymbolKnown known)
    (honce : ∀ pre suf, events = pre ++ .proxyCreated :: suf →
      (Listener.start.run getPerpIdFromSymbol pre).resetting = some .createProxyInstance →
        ReAddsOnce getPerpIdFromSymbol (Listener.start.run getPerpIdFromSymbol pre)) :
    Watching getPerpIdFromSymbol known (Listener.start.run getPerpIdFromSymbol events) := by
  induction events using List.reverseRecOn with
  | nil => exact watching_start
  | append_singleton pre e ih =>
    have hpre := ih (fun e' he' => hknown e' (List.mem_append_left _ he'))
      fun a b hab => honce a (b ++ [e]) (by rw [hab]; simp)
    have he := hknown e (List.mem_append_right _ (List.mem_singleton_self e))
    rw [Listener.run, List.foldl_append]
    exact watching_step hinj hpre he fun heq hphase => honce pre [] (by rw [heq]) hphase

/-- **One set of handlers for an order book.**  In every state of a run in which no reset
is going on each watched order book has exactly one set of live handlers and any other has
none, if and only if each time a reset re-adds the handlers, every symbol it re-adds them
for is watched and has none on the new provider yet. -/
theorem one_listener_set_iff (hinj : Set.InjOn getPerpIdFromSymbol known)
    (events : List (ListenerEvent W)) (hknown : ∀ e ∈ events, e.SymbolKnown known) :
    (∀ pre suf, events = pre ++ suf →
        (Listener.start.run getPerpIdFromSymbol pre).resetting = none →
          OneListenerSet getPerpIdFromSymbol known (Listener.start.run getPerpIdFromSymbol pre)) ↔
      ∀ pre suf, events = pre ++ .proxyCreated :: suf →
        (Listener.start.run getPerpIdFromSymbol pre).resetting = some .createProxyInstance →
          ReAddsOnce getPerpIdFromSymbol (Listener.start.run getPerpIdFromSymbol pre) := by
  constructor
  · intro hall pre suf hev hphase symbol hkey
    have hknown' : ∀ e ∈ pre, e.SymbolKnown known := fun e he =>
      hknown e (hev ▸ List.mem_append_left _ he)
    have hafter := hall (pre ++ [.proxyCreated]) suf (by rw [hev]; simp)
    rw [Listener.run, List.foldl_append] at hafter
    change (proxyCreated (Listener.start.run getPerpIdFromSymbol pre)).resetting = none →
      OneListenerSet getPerpIdFromSymbol known
        (proxyCreated (Listener.start.run getPerpIdFromSymbol pre)) at hafter
    have hsymbol := keys_known pre hknown' symbol hkey
    have hmore := listenerSets_proxyCreated hphase hkey
    have hidle : (proxyCreated (Listener.start.run getPerpIdFromSymbol pre)).resetting = none := by
      rw [proxyCreated, if_pos hphase]
    have hreg : (proxyCreated (Listener.start.run getPerpIdFromSymbol pre)).registry =
        (Listener.start.run getPerpIdFromSymbol pre).registry := by
      rw [proxyCreated, if_pos hphase]
      exact (addAll_frame _ _).1
    -- the count after the reset is positive, so the symbol is watched and had none before
    have hcount := hafter hidle symbol hsymbol
    rw [hmore, hreg] at hcount
    split at hcount
    · rename_i hsub
      exact ⟨hsub, by omega⟩
    · omega
  · intro honce pre suf hev hidle
    have hwatch := watching_run hinj pre
      (fun e he => hknown e (hev ▸ List.mem_append_left _ he))
      fun a b hab => honce a (b ++ suf) (by rw [hev, hab]; simp)
    exact hwatch.oneListenerSet hidle

/-- Subscribed and unsubscribed again before the first provider is ready. -/
def leftBeforeReset : List (ListenerEvent ℕ) :=
  [.subscribe 0 "BTC-USD-MATIC" "0xa1", .unsubscribe 0, .networkDetected, .proxyCreated]

/-- Subscribed before a second reset begins, and still there. -/
def stayedDuringReset : List (ListenerEvent ℕ) :=
  [.networkDetected, .proxyCreated, .subscribe 0 "BTC-USD-MATIC" "0xa1", .beginReset,
    .networkDetected, .proxyCreated]

/-- The reset gives handlers to an order book nobody watches. -/
theorem leftBeforeReset_listens :
    (Listener.start.run (fun _ => 100001) leftBeforeReset).resetting = none ∧
      ¬ OneListenerSet (fun _ => 100001) {"BTC-USD-MATIC"}
        (Listener.start.run (fun _ => 100001) leftBeforeReset) := by
  refine ⟨by decide, fun h => ?_⟩
  have hone := h "BTC-USD-MATIC" rfl
  exact absurd hone (by decide)

/-- The law at work on a client that stays. -/
theorem stayedDuringReset_listens :
    OneListenerSet (fun _ => 100001) {"BTC-USD-MATIC"}
      (Listener.start.run (fun _ => 100001) stayedDuringReset) := by
  have hinj : Set.InjOn (fun _ : String => 100001) {"BTC-USD-MATIC"} := by
    intro a ha b hb _
    rw [Set.mem_singleton_iff.1 ha, Set.mem_singleton_iff.1 hb]
  have hknown : ∀ e ∈ stayedDuringReset, e.SymbolKnown {"BTC-USD-MATIC"} := by
    simp [stayedDuringReset, ListenerEvent.SymbolKnown]
  have hprefixes : ∀ n < 7, (Listener.start.run (fun _ => 100001)
      (stayedDuringReset.take n)).resetting = some .createProxyInstance →
      ReAddsOnce (fun _ => 100001) (Listener.start.run (fun _ => 100001)
        (stayedDuringReset.take n)) := by
    unfold ReAddsOnce
    decide
  refine (one_listener_set_iff hinj stayedDuringReset hknown).2 ?_ stayedDuringReset []
    (List.append_nil _).symm (by decide)
  intro pre suf hev hphase
  have hlen : pre.length < 7 := by
    have := congrArg List.length hev
    simp [stayedDuringReset] at this
    omega
  have hpre : pre = stayedDuringReset.take pre.length := by
    rw [hev, List.take_left]
  rw [hpre] at hphase ⊢
  exact hprefixes pre.length hlen hphase

end TraderBackend
