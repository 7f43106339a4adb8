import TraderBackend.Lib.OrdMap

/-!
# The subscription registry

`EventListener` keeps two structures in step: `subscriptions` (perpetual, then
trader address, then the list of websockets) and `clients` (what each websocket
has subscribed to).  `subscribe` writes both; `unsubscribe` walks over the
client's own list and takes the websocket out of every list it is in, deleting
lists and maps that become empty on the way.

* **The model.**  `Registry`, `subscribe`, `releaseSubscription` (one round of
  the loop of `_unsubscribe`), `unsubscribeLoop`, `unsubscribe`.
* **One operation at a time.**  `subscribersOf_push` and `subscribersOf_release`
  say what an operation does to the list of one perpetual and trader;
  `WellFormed.push` and `WellFormed.release` that no list and no map is left
  empty.
* **Whole runs.**  `Consistent` is the invariant, an equation between two counts;
  `consistent_run` holds after any sequence of calls, and
  `registry_stays_consistent` spells it out.
-/

namespace TraderBackend

/-- An entry of a client's list. -/
structure ClientSubscription where
  perpetualId : ℕ
  symbol : String
  traderAddr : String
  deriving DecidableEq

/-- What a subscription is about. -/
def ClientSubscription.pair (s : ClientSubscription) : ℕ × String := (s.perpetualId, s.traderAddr)

/-- The map `subscriptions`: perpetual id, then trader address, then websockets. -/
abbrev Subscriptions (W : Type*) := OrdMap ℕ (OrdMap String (List W))

/-- The two maps of the registry, for websockets of type `W`. -/
structure Registry (W : Type*) where
  subscriptions : Subscriptions W
  clients : OrdMap W (List ClientSubscription)

variable {W : Type*}

/-- The registry of a fresh `EventListener`. -/
def Registry.init : Registry W := ⟨OrdMap.empty, OrdMap.empty⟩

/-- What a call of `subscribe` leaves behind. -/
structure SubscribeResult (W : Type*) where
  registry : Registry W
  /-- The symbol `addOrderBookEventHandlers` was called with, if it was. -/
  added : Option String
  /-- The value returned, or the error of `addOrderBookEventHandlers`. -/
  returned : Except String Bool

/-- What a call of `unsubscribe` leaves behind. -/
structure UnsubscribeResult (W : Type*) where
  registry : Registry W
  /-- The subscriptions whose perpetual was released: their ids are what `_unsubscribe`
  returns, their symbols what `removeOrderBookEventHandlers` was called with. -/
  released : List ClientSubscription

section

variable [DecidableEq W]

/-- The end of `subscribe`: put `ws` at the end of the list of the trader. -/
def pushSubscriber (perpSubscribers : OrdMap String (List W)) (traderAddr : String) (ws : W) :
    OrdMap String (List W) :=
  perpSubscribers.set traderAddr ((perpSubscribers.get? traderAddr).getD [] ++ [ws])

/-- `subscribe`.  `addFails` is the error `addOrderBookEventHandlers` throws, if it does. -/
def subscribe (getPerpIdFromSymbol : String → ℕ) (addFails : String → Option String)
    (r : Registry W) (ws : W) (perpetualsSymbol traderAddr : String) : SubscribeResult W :=
  let id := getPerpIdFromSymbol perpetualsSymbol
  -- a client that is not known yet starts with an empty list, where the loop finds nothing
  let clientSubscriptions := (r.clients.get? ws).getD []
  if clientSubscriptions.any fun s => decide (s.perpetualId = id ∧ s.traderAddr = traderAddr) then
    ⟨r, none, .ok false⟩
  else
    let clients := r.clients.set ws (clientSubscriptions ++ [⟨id, perpetualsSymbol, traderAddr⟩])
    match r.subscriptions.get? id with
    | some perpSubscribers =>
        ⟨⟨r.subscriptions.set id (pushSubscriber perpSubscribers traderAddr ws), clients⟩,
          none, .ok true⟩
    | none =>
        let subscriptions := r.subscriptions.set id OrdMap.empty
        match addFails perpetualsSymbol with
        | some e => ⟨⟨subscriptions, clients⟩, some perpetualsSymbol, .error e⟩
        | none =>
            ⟨⟨subscriptions.set id (pushSubscriber OrdMap.empty traderAddr ws), clients⟩,
              some perpetualsSymbol, .ok true⟩

/-- The middle of the loop of `_unsubscribe`: take `ws` out of the list of the trader and
delete a list that is missing or has become empty. -/
def spliceSubscriber (traderMap : OrdMap String (List W)) (traderAddr : String) (ws : W) :
    OrdMap String (List W) :=
  match traderMap.get? traderAddr with
  | none => traderMap.erase traderAddr
  | some subscribers =>
      -- `indexOf` and `splice` take out the first occurrence
      let subscribers := subscribers.erase ws
      if subscribers.isEmpty then traderMap.erase traderAddr
      else traderMap.set traderAddr subscribers

/-- One round of the loop of `_unsubscribe`, and whether it released the perpetual. -/
def releaseSubscription (ws : W) (subscriptions : Subscriptions W) (s : ClientSubscription) :
    Subscriptions W × Bool :=
  match subscriptions.get? s.perpetualId with
  | none => (subscriptions, false)
  | some traderMap =>
      let traderMap := spliceSubscriber traderMap s.traderAddr ws
      if traderMap.size = 0 then (subscriptions.erase s.perpetualId, true)
      else (subscriptions.set s.perpetualId traderMap, false)

/-- `_unsubscribe`. -/
def unsubscribeLoop (exceptionPoolId : Option ℕ) (ws : W) :
    List ClientSubscription → Subscriptions W → Subscriptions W × List ClientSubscription
  | [], subscriptions => (subscriptions, [])
  | s :: clientSubscriptions, subscriptions =>
      let poolId := s.perpetualId / 100000
      if some poolId = exceptionPoolId then
        unsubscribeLoop exceptionPoolId ws clientSubscriptions subscriptions
      else
        let next := releaseSubscription ws subscriptions s
        let rest := unsubscribeLoop exceptionPoolId ws clientSubscriptions next.1
        (rest.1, if next.2 then s :: rest.2 else rest.2)

/-- `unsubscribe`. -/
def unsubscribe (r : Registry W) (ws : W) : UnsubscribeResult W :=
  match r.clients.get? ws with
  | none => ⟨r, []⟩
  | some clientSubscriptions =>
      let loop := unsubscribeLoop none ws clientSubscriptions r.subscriptions
      ⟨⟨loop.1, r.clients.erase ws⟩, loop.2⟩

/-! ## One list at a time -/

/-- The websockets registered for a perpetual and a trader. -/
def subscribersOf (subscriptions : Subscriptions W) (p : ℕ × String) : List W :=
  ((subscriptions.get? p.1).bind fun traderMap => traderMap.get? p.2).getD []

/-- The perpetuals and traders a websocket has subscribed to, oldest first. -/
def Registry.pairsOf (r : Registry W) (ws : W) : List (ℕ × String) :=
  ((r.clients.get? ws).getD []).map ClientSubscription.pair

/-- No list and no map of `subscriptions` is empty. -/
structure WellFormed (subscriptions : Subscriptions W) : Prop where
  maps : ∀ id traderMap, subscriptions.get? id = some traderMap → traderMap.size ≠ 0
  lists : ∀ id traderMap trader subscribers, subscriptions.get? id = some traderMap →
    traderMap.get? trader = some subscribers → subscribers ≠ []

omit [DecidableEq W] in
/-- Storing a map whose lists are not empty keeps a registry well-formed. -/
theorem WellFormed.set {subscriptions : Subscriptions W} (h : WellFormed subscriptions) {id : ℕ}
    {traderMap : OrdMap String (List W)} (hsize : traderMap.size ≠ 0)
    (hlists : ∀ trader subscribers, traderMap.get? trader = some subscribers → subscribers ≠ []) :
    WellFormed (subscriptions.set id traderMap) := by
  constructor
  · intro j tm hj
    rcases OrdMap.get?_set_cases hj with ⟨-, rfl⟩ | hold
    · exact hsize
    · exact h.maps j tm hold
  · intro j tm trader subscribers hj ht
    rcases OrdMap.get?_set_cases hj with ⟨-, rfl⟩ | hold
    · exact hlists trader subscribers ht
    · exact h.lists j tm trader subscribers hold ht

omit [DecidableEq W] in
theorem WellFormed.erase {subscriptions : Subscriptions W} (h : WellFormed subscriptions) (id : ℕ) :
    WellFormed (subscriptions.erase id) := by
  have hsub : ∀ j tm, (subscriptions.erase id).get? j = some tm →
      subscriptions.get? j = some tm := by
    intro j tm hj
    rw [OrdMap.get?_erase] at hj
    by_cases hij : id = j
    · rw [if_pos hij] at hj; exact absurd hj (by simp)
    · rwa [if_neg hij] at hj
  exact ⟨fun j tm hj => h.maps j tm (hsub j tm hj),
    fun j tm trader l hj ht => h.lists j tm trader l (hsub j tm hj) ht⟩

omit [DecidableEq W] in
/-- What the end of `subscribe` does to the list of any perpetual and trader. -/
theorem subscribersOf_push (subscriptions : Subscriptions W) (id : ℕ)
    (perpSubscribers : OrdMap String (List W)) (trader : String) (ws : W) (p : ℕ × String)
    (h : (subscriptions.get? id).getD OrdMap.empty = perpSubscribers) :
    subscribersOf (subscriptions.set id (pushSubscriber perpSubscribers trader ws)) p =
      if p = (id, trader) then subscribersOf subscriptions p ++ [ws]
      else subscribersOf subscriptions p := by
  obtain ⟨j, t⟩ := p
  subst h
  simp only [subscribersOf, Prod.mk.injEq]
  by_cases hj : id = j
  · subst hj
    rw [OrdMap.get?_set_self, Option.bind_some, pushSubscriber, OrdMap.get?_set]
    by_cases ht : trader = t
    · subst ht
      cases hm : subscriptions.get? id <;> simp [OrdMap.get?_empty]
    · cases hm : subscriptions.get? id <;> simp [ht, Ne.symm ht, OrdMap.get?_empty]
  · rw [OrdMap.get?_set_ne _ _ hj]
    simp [Ne.symm hj]

omit [DecidableEq W] in
theorem WellFormed.push {subscriptions : Subscriptions W} (h : WellFormed subscriptions) (id : ℕ)
    (perpSubscribers : OrdMap String (List W)) (trader : String) (ws : W)
    (hm : (subscriptions.get? id).getD OrdMap.empty = perpSubscribers) :
    WellFormed (subscriptions.set id (pushSubscriber perpSubscribers trader ws)) := by
  refine h.set (OrdMap.size_ne_zero_of_get? (OrdMap.get?_set_self perpSubscribers trader _)) ?_
  intro t l ht
  rw [pushSubscriber, OrdMap.get?_set] at ht
  by_cases htt : trader = t
  · rw [if_pos htt] at ht
    rw [← Option.some.inj ht]
    simp
  · rw [if_neg htt] at ht
    cases hid : subscriptions.get? id with
    | none => rw [hid] at hm; rw [← hm] at ht; simp at ht
    | some tm => rw [hid] at hm; exact h.lists id tm t l hid (by rw [← hm] at ht; exact ht)

/-- What a lookup finds after the websocket was taken out of one list. -/
theorem get?_spliceSubscriber (traderMap : OrdMap String (List W)) (trader t : String) (ws : W) :
    (spliceSubscriber traderMap trader ws).get? t =
      if trader = t then ((traderMap.get? t).map fun l => l.erase ws).filter fun l => l ≠ []
      else traderMap.get? t := by
  unfold spliceSubscriber
  cases ht : traderMap.get? trader with
  | none =>
    simp only [OrdMap.get?_erase]
    by_cases htt : trader = t
    · subst htt; simp [ht]
    · simp [htt]
  | some l =>
    simp only [List.isEmpty_iff]
    by_cases hl : l.erase ws = []
    · rw [if_pos hl, OrdMap.get?_erase]
      by_cases htt : trader = t
      · subst htt; simp only [if_true, ht, Option.map_some, Option.filter, hl]; rfl
      · simp [htt]
    · rw [if_neg hl, OrdMap.get?_set]
      by_cases htt : trader = t
      · subst htt; simp only [if_true, ht, Option.map_some, Option.filter, ne_eq, hl,
          not_false_eq_true, decide_true]
      · simp [htt]

omit [DecidableEq W] in
/-- Whether the map of a perpetual is deleted or stored, a lookup sees its entries. -/
theorem subscribersOf_store (subscriptions : Subscriptions W) (id : ℕ)
    (traderMap : OrdMap String (List W)) (p : ℕ × String) :
    subscribersOf (if traderMap.size = 0 then (subscriptions.erase id, true)
        else (subscriptions.set id traderMap, false)).1 p =
      if id = p.1 then (traderMap.get? p.2).getD [] else subscribersOf subscriptions p := by
  by_cases hsize : traderMap.size = 0
  · rw [if_pos hsize]
    simp only [subscribersOf, OrdMap.get?_erase]
    by_cases hj : id = p.1
    · simp [hj, OrdMap.size_eq_zero.1 hsize p.2]
    · simp [hj]
  · rw [if_neg hsize]
    simp only [subscribersOf, OrdMap.get?_set]
    by_cases hj : id = p.1 <;> simp [hj]

/-- One round of `_unsubscribe` takes one occurrence of the websocket out of one list. -/
theorem subscribersOf_release (ws : W) (subscriptions : Subscriptions W) (s : ClientSubscription)
    (p : ℕ × String) :
    subscribersOf (releaseSubscription ws subscriptions s).1 p =
      if p = s.pair then (subscribersOf subscriptions p).erase ws
      else subscribersOf subscriptions p := by
  obtain ⟨j, t⟩ := p
  unfold releaseSubscription
  cases hm : subscriptions.get? s.perpetualId with
  | none =>
    by_cases hp : (j, t) = s.pair
    · have hj : j = s.perpetualId := congrArg Prod.fst hp
      simp [subscribersOf, hj, hm]
    · simp [hp]
  | some traderMap =>
    simp only
    rw [subscribersOf_store, get?_spliceSubscriber]
    by_cases hj : s.perpetualId = j
    · subst hj
      have hold : subscribersOf subscriptions (s.perpetualId, t) = (traderMap.get? t).getD [] := by
        simp [subscribersOf, hm]
      rw [if_pos rfl, hold]
      by_cases ht : s.traderAddr = t
      · subst ht
        have hp : (s.perpetualId, s.traderAddr) = s.pair := rfl
        rw [if_pos rfl, if_pos hp]
        cases hl : traderMap.get? s.traderAddr with
        | none => simp
        | some l =>
          rw [Option.map_some, Option.filter, Option.getD_some]
          by_cases he : l.erase ws = []
          · simp only [he]; rfl
          · simp [he]
      · have hne : ¬ (s.perpetualId, t) = s.pair := fun hc => ht (congrArg Prod.snd hc).symm
        rw [if_neg ht, if_neg hne]
    · have hne : ¬ (j, t) = s.pair := fun hc => hj (congrArg Prod.fst hc).symm
      rw [if_neg hj, if_neg hne]

theorem WellFormed.release {subscriptions : Subscriptions W} (h : WellFormed subscriptions)
    (ws : W) (s : ClientSubscription) :
    WellFormed (releaseSubscription ws subscriptions s).1 := by
  unfold releaseSubscription
  cases hm : subscriptions.get? s.perpetualId with
  | none => exact h
  | some traderMap =>
    simp only
    by_cases hsize : (spliceSubscriber traderMap s.traderAddr ws).size = 0
    · rw [if_pos hsize]; exact h.erase s.perpetualId
    · rw [if_neg hsize]
      apply h.set hsize
      intro t l ht
      rw [get?_spliceSubscriber] at ht
      by_cases htt : s.traderAddr = t
      · rw [if_pos htt] at ht
        have hne := (Option.filter_eq_some_iff.1 ht).2
        simpa using hne
      · rw [if_neg htt] at ht
        exact h.lists s.perpetualId traderMap t l hm ht

/-- The whole loop takes `ws` out of a list as often as that list is named. -/
theorem count_unsubscribeLoop (ws w : W) (p : ℕ × String) :
    ∀ (clientSubscriptions : List ClientSubscription) (subscriptions : Subscriptions W),
      (subscribersOf (unsubscribeLoop none ws clientSubscriptions subscriptions).1 p).count w =
        (subscribersOf subscriptions p).count w -
          if w = ws then (clientSubscriptions.map ClientSubscription.pair).count p else 0 := by
  intro clientSubscriptions
  induction clientSubscriptions with
  | nil => intro subscriptions; simp [unsubscribeLoop]
  | cons s rest ih =>
    intro subscriptions
    have hrun : (unsubscribeLoop none ws (s :: rest) subscriptions).1 =
        (unsubscribeLoop none ws rest (releaseSubscription ws subscriptions s).1).1 := by
      simp [unsubscribeLoop]
    rw [hrun, ih, subscribersOf_release, List.map_cons, List.count_cons]
    by_cases hw : w = ws
    · subst hw
      by_cases hp : p = s.pair
      · subst hp
        simp only [if_pos, List.count_erase, beq_self_eq_true]
        omega
      · have hne : (s.pair == p) = false := by simpa using Ne.symm hp
        simp only [hp, hne, if_false, if_true]
        rfl
    · have hne : (ws == w) = false := by simpa using Ne.symm hw
      by_cases hp : p = s.pair <;> simp [hp, hw]

theorem WellFormed.unsubscribeLoop {ws : W} :
    ∀ (clientSubscriptions : List ClientSubscription) {subscriptions : Subscriptions W},
      WellFormed subscriptions →
      WellFormed (unsubscribeLoop none ws clientSubscriptions subscriptions).1 := by
  intro clientSubscriptions
  induction clientSubscriptions with
  | nil => intro subscriptions h; exact h
  | cons s rest ih =>
    intro subscriptions h
    simp only [TraderBackend.unsubscribeLoop, reduceCtorEq, if_false]
    exact ih (h.release ws s)

/-! ## Which perpetuals are there -/

omit [DecidableEq W] in
theorem isSome_get?_set (subscriptions : Subscriptions W) (id j : ℕ)
    (traderMap : OrdMap String (List W)) :
    ((subscriptions.set id traderMap).get? j).isSome =
      (decide (j = id) || (subscriptions.get? j).isSome) := by
  rw [OrdMap.get?_set]
  by_cases h : id = j
  · subst h; simp
  · simp [h, Ne.symm h]

/-- `subscribe` calls `addOrderBookEventHandlers` exactly when it adds the perpetual. -/
theorem subscribe_perpetuals (getPerpIdFromSymbol : String → ℕ) (r : Registry W) (ws : W)
    (perpetualsSymbol traderAddr : String) :
    let id := getPerpIdFromSymbol perpetualsSymbol
    let res := subscribe getPerpIdFromSymbol (fun _ => none) r ws perpetualsSymbol traderAddr
    (∀ j, (res.registry.subscriptions.get? j).isSome =
        (res.added.isSome && decide (j = id) || (r.subscriptions.get? j).isSome)) ∧
      (res.added = none ∨
        res.added = some perpetualsSymbol ∧ (r.subscriptions.get? id).isSome = false) := by
  simp only [subscribe]
  split
  · exact ⟨fun j => by simp, Or.inl rfl⟩
  · cases hid : r.subscriptions.get? (getPerpIdFromSymbol perpetualsSymbol) with
    | some perpSubscribers =>
      refine ⟨fun j => ?_, Or.inl rfl⟩
      simp only [isSome_get?_set]
      by_cases hj : j = getPerpIdFromSymbol perpetualsSymbol
      · subst hj; simp [hid]
      · simp [hj]
    | none =>
      refine ⟨fun j => ?_, Or.inr ⟨rfl, rfl⟩⟩
      simp only [isSome_get?_set, Option.isSome_some, Bool.true_and]
      cases decide (j = getPerpIdFromSymbol perpetualsSymbol) <;> rfl

/-- The loop of `_unsubscribe` takes out exactly the perpetuals it reports. -/
theorem unsubscribeLoop_perpetuals (ws : W) :
    ∀ (clientSubscriptions : List ClientSubscription) (subscriptions : Subscriptions W),
      (∀ j, ((unsubscribeLoop none ws clientSubscriptions subscriptions).1.get? j).isSome =
        ((subscriptions.get? j).isSome && !((unsubscribeLoop none ws clientSubscriptions
          subscriptions).2.any fun s => decide (s.perpetualId = j)))) ∧
      ∀ s ∈ (unsubscribeLoop none ws clientSubscriptions subscriptions).2,
        s ∈ clientSubscriptions := by
  intro clientSubscriptions
  induction clientSubscriptions with
  | nil => intro subscriptions; simp [unsubscribeLoop]
  | cons s rest ih =>
    intro subscriptions
    -- one round takes out its perpetual exactly when it reports it
    have hround : ∀ j, ((releaseSubscription ws subscriptions s).1.get? j).isSome =
        ((subscriptions.get? j).isSome &&
          !((releaseSubscription ws subscriptions s).2 && decide (s.perpetualId = j))) := by
      intro j
      unfold releaseSubscription
      cases hid : subscriptions.get? s.perpetualId with
      | none => simp
      | some traderMap =>
        simp only
        by_cases hsize : (spliceSubscriber traderMap s.traderAddr ws).size = 0
        · rw [if_pos hsize, OrdMap.get?_erase]
          by_cases hj : s.perpetualId = j <;> simp [hj]
        · rw [if_neg hsize, isSome_get?_set]
          by_cases hj : j = s.perpetualId
          · subst hj; simp [hid]
          · simp [hj]
    obtain ⟨hrest, hsub⟩ := ih (releaseSubscription ws subscriptions s).1
    simp only [unsubscribeLoop, reduceCtorEq, if_false]
    constructor
    · intro j
      rw [hrest j, hround j]
      cases (releaseSubscription ws subscriptions s).2 <;>
        simp [Bool.and_assoc, Bool.not_or]
    · intro s' hs'
      cases hrel : (releaseSubscription ws subscriptions s).2 with
      | true =>
        rw [hrel, if_pos rfl] at hs'
        rcases List.mem_cons.1 hs' with rfl | h
        · exact List.mem_cons_self ..
        · exact List.mem_cons_of_mem _ (hsub s' h)
      | false =>
        rw [hrel, if_neg (by simp)] at hs'
        exact List.mem_cons_of_mem _ (hsub s' hs')

/-! ## Runs of calls -/

/-- A call of the registry's interface. -/
inductive RegistryCall (W : Type*) where
  | subscribe (ws : W) (perpetualsSymbol traderAddr : String)
  | unsubscribe (ws : W)
  deriving DecidableEq

/-- One call; `addOrderBookEventHandlers` does not throw. -/
def Registry.call (getPerpIdFromSymbol : String → ℕ) (r : Registry W) :
    RegistryCall W → Registry W
  | .subscribe ws perpetualsSymbol traderAddr =>
      (TraderBackend.subscribe getPerpIdFromSymbol (fun _ => none) r ws perpetualsSymbol
        traderAddr).registry
  | .unsubscribe ws => (TraderBackend.unsubscribe r ws).registry

/-- A sequence of calls. -/
def Registry.run (getPerpIdFromSymbol : String → ℕ) (r : Registry W)
    (calls : List (RegistryCall W)) : Registry W :=
  calls.foldl (Registry.call getPerpIdFromSymbol) r

/-- The invariant: a websocket is in a list as often as its own list names it, and that
is at most once. -/
structure Consistent (r : Registry W) : Prop where
  wellFormed : WellFormed r.subscriptions
  nodup : ∀ ws, (r.pairsOf ws).Nodup
  counts : ∀ ws p, (subscribersOf r.subscriptions p).count ws = (r.pairsOf ws).count p

/-- A client is in a list exactly if its own list names it. -/
theorem Consistent.mem_subscribersOf {r : Registry W} (h : Consistent r) {ws : W}
    {p : ℕ × String} : ws ∈ subscribersOf r.subscriptions p ↔ p ∈ r.pairsOf ws := by
  rw [← List.count_pos_iff, h.counts ws p, List.count_pos_iff]

theorem consistent_init : Consistent (Registry.init : Registry W) where
  wellFormed := ⟨by simp [Registry.init], by simp [Registry.init]⟩
  nodup := by simp [Registry.init, Registry.pairsOf]
  counts := by simp [Registry.init, Registry.pairsOf, subscribersOf]

variable (getPerpIdFromSymbol : String → ℕ)

omit [DecidableEq W] in
/-- The empty map a subscribe sets first is not seen by any lookup of a list. -/
theorem subscribersOf_set_empty {subscriptions : Subscriptions W} {id : ℕ}
    (hid : subscriptions.get? id = none) (p : ℕ × String) :
    subscribersOf (subscriptions.set id OrdMap.empty) p = subscribersOf subscriptions p := by
  obtain ⟨j, t⟩ := p
  simp only [subscribersOf, OrdMap.get?_set]
  by_cases hj : id = j
  · subst hj; simp [hid]
  · simp [hj]

/-- The search `subscribe` begins with. -/
theorem any_pair_iff (r : Registry W) (ws : W) (id : ℕ) (traderAddr : String) :
    ((r.clients.get? ws).getD []).any
        (fun s => decide (s.perpetualId = id ∧ s.traderAddr = traderAddr)) = true ↔
      (id, traderAddr) ∈ r.pairsOf ws := by
  simp [Registry.pairsOf, ClientSubscription.pair]

/-- The pairs of everybody once one is added to a client's list. -/
theorem pairsOf_add {r r' : Registry W} {ws : W} {id : ℕ} {symbol traderAddr : String}
    (hclients : r'.clients =
      r.clients.set ws ((r.clients.get? ws).getD [] ++ [⟨id, symbol, traderAddr⟩])) (w : W) :
    r'.pairsOf w = if ws = w then r.pairsOf w ++ [(id, traderAddr)] else r.pairsOf w := by
  rw [Registry.pairsOf, hclients, OrdMap.get?_set]
  by_cases hw : ws = w
  · subst hw; simp [Registry.pairsOf, ClientSubscription.pair]
  · simp [hw, Registry.pairsOf]

/-- The pairs of everybody once a client is taken out. -/
theorem pairsOf_erase (subscriptions : Subscriptions W)
    (clients : OrdMap W (List ClientSubscription)) (ws w : W) :
    Registry.pairsOf ⟨subscriptions, clients.erase ws⟩ w =
      if ws = w then [] else ((clients.get? w).getD []).map ClientSubscription.pair := by
  rw [Registry.pairsOf, OrdMap.get?_erase]
  by_cases hw : ws = w <;> simp [hw]

/-- What `subscribe` does when nothing throws: nothing for a pair the client has, else it
adds the pair on both sides. -/
theorem subscribe_spec (r : Registry W) (ws : W) (perpetualsSymbol traderAddr : String) :
    let id := getPerpIdFromSymbol perpetualsSymbol
    let res := subscribe getPerpIdFromSymbol (fun _ => none) r ws perpetualsSymbol traderAddr
    ((id, traderAddr) ∈ r.pairsOf ws ∧ res.returned = .ok false ∧ res.registry = r ∧
        res.added = none) ∨
      ((id, traderAddr) ∉ r.pairsOf ws ∧ res.returned = .ok true ∧
        res.registry.clients = r.clients.set ws
          ((r.clients.get? ws).getD [] ++ [⟨id, perpetualsSymbol, traderAddr⟩]) ∧
        (∀ p, subscribersOf res.registry.subscriptions p =
          if p = (id, traderAddr) then subscribersOf r.subscriptions p ++ [ws]
          else subscribersOf r.subscriptions p) ∧
        (WellFormed r.subscriptions → WellFormed res.registry.subscriptions)) := by
  intro id res
  have hany := any_pair_iff r ws id traderAddr
  by_cases hmem : (id, traderAddr) ∈ r.pairsOf ws
  · have hres : res = ⟨r, none, .ok false⟩ := by
      show subscribe getPerpIdFromSymbol (fun _ => none) r ws perpetualsSymbol traderAddr = _
      rw [subscribe, if_pos (hany.2 hmem)]
    refine Or.inl ⟨hmem, ?_, ?_, ?_⟩ <;> rw [hres]
  · refine Or.inr ⟨hmem, ?_⟩
    have hno := fun hc => hmem (hany.1 hc)
    cases hid : r.subscriptions.get? id with
    | some perpSubscribers =>
      have hpush : (r.subscriptions.get? id).getD OrdMap.empty = perpSubscribers := by simp [hid]
      have hres : res = ⟨⟨r.subscriptions.set id (pushSubscriber perpSubscribers traderAddr ws),
          r.clients.set ws ((r.clients.get? ws).getD [] ++ [⟨id, perpetualsSymbol, traderAddr⟩])⟩,
          none, .ok true⟩ := by
        show subscribe getPerpIdFromSymbol (fun _ => none) r ws perpetualsSymbol traderAddr = _
        simp only [subscribe, if_neg hno, id, hid]
      rw [hres]
      exact ⟨rfl, rfl, fun p => subscribersOf_push _ _ _ _ _ p hpush,
        fun hwf => hwf.push _ _ _ _ hpush⟩
    | none =>
      have hset : ((r.subscriptions.set id OrdMap.empty).get? id).getD OrdMap.empty =
          (OrdMap.empty : OrdMap String (List W)) := by simp
      have hres : res = ⟨⟨(r.subscriptions.set id OrdMap.empty).set id
            (pushSubscriber OrdMap.empty traderAddr ws),
          r.clients.set ws ((r.clients.get? ws).getD [] ++ [⟨id, perpetualsSymbol, traderAddr⟩])⟩,
          some perpetualsSymbol, .ok true⟩ := by
        show subscribe getPerpIdFromSymbol (fun _ => none) r ws perpetualsSymbol traderAddr = _
        simp only [subscribe, if_neg hno, id, hid]
      rw [hres]
      refine ⟨rfl, rfl, fun p => ?_, fun hwf => ?_⟩
      · rw [subscribersOf_push _ _ _ _ _ p hset, subscribersOf_set_empty hid]
      · have hpush : (r.subscriptions.get? id).getD OrdMap.empty =
            (OrdMap.empty : OrdMap String (List W)) := by simp [hid]
        have hwf' := hwf.push id OrdMap.empty traderAddr ws hpush
        have hget : ∀ j, ((r.subscriptions.set id OrdMap.empty).set id
              (pushSubscriber OrdMap.empty traderAddr ws)).get? j =
            (r.subscriptions.set id (pushSubscriber OrdMap.empty traderAddr ws)).get? j := by
          intro j
          simp only [OrdMap.get?_set]
          by_cases hj : id = j <;> simp [hj]
        exact ⟨fun j tm hj => hwf'.maps j tm ((hget j).symm.trans hj),
          fun j tm t l hj ht => hwf'.lists j tm t l ((hget j).symm.trans hj) ht⟩

theorem consistent_subscribe {r : Registry W} (h : Consistent r) (ws : W)
    (perpetualsSymbol traderAddr : String) :
    Consistent (subscribe getPerpIdFromSymbol (fun _ => none) r ws perpetualsSymbol
      traderAddr).registry := by
  have hspec := subscribe_spec getPerpIdFromSymbol r ws perpetualsSymbol traderAddr
  simp only at hspec
  generalize subscribe getPerpIdFromSymbol (fun _ => none) r ws perpetualsSymbol traderAddr = res
    at hspec ⊢
  rcases hspec with ⟨-, -, hreg, -⟩ | ⟨hnew, -, hclients, hsubs, hwf⟩
  · rw [hreg]; exact h
  · have hpairs : ∀ w, res.registry.pairsOf w =
        if ws = w then r.pairsOf w ++ [(getPerpIdFromSymbol perpetualsSymbol, traderAddr)]
        else r.pairsOf w := pairsOf_add hclients
    refine ⟨hwf h.wellFormed, fun w => ?_, fun w p => ?_⟩
    · rw [hpairs w]
      by_cases hw : ws = w
      · subst hw
        rw [if_pos rfl]
        exact List.nodup_append.2 ⟨h.nodup ws, List.nodup_singleton _, by
          intro a ha b hb; rw [List.mem_singleton.1 hb]; exact fun hab => hnew (hab ▸ ha)⟩
      · rw [if_neg hw]; exact h.nodup w
    · have hcount := h.counts w p
      rw [hpairs w, hsubs p]
      by_cases hw : ws = w
      · subst hw
        by_cases hp : p = (getPerpIdFromSymbol perpetualsSymbol, traderAddr)
        · subst hp; simp [List.count_append, hcount]
        · have hne : ¬ (getPerpIdFromSymbol perpetualsSymbol, traderAddr) = p := Ne.symm hp
          simp [hp, hne, hcount]
      · rw [if_neg hw, ← hcount]
        by_cases hp : p = (getPerpIdFromSymbol perpetualsSymbol, traderAddr)
        · rw [if_pos hp, List.count_append]
          simp [hw]
        · rw [if_neg hp]

theorem consistent_unsubscribe {r : Registry W} (h : Consistent r) (ws : W) :
    Consistent (unsubscribe r ws).registry := by
  unfold unsubscribe
  cases hws : r.clients.get? ws with
  | none => exact h
  | some clientSubscriptions =>
    have hown : clientSubscriptions.map ClientSubscription.pair = r.pairsOf ws := by
      simp [Registry.pairsOf, hws]
    have hpairs : ∀ w, (Registry.pairsOf ⟨(unsubscribeLoop none ws clientSubscriptions
        r.subscriptions).1, r.clients.erase ws⟩ w) = if ws = w then [] else r.pairsOf w :=
      pairsOf_erase _ _ ws
    refine ⟨h.wellFormed.unsubscribeLoop _, fun w => ?_, fun w p => ?_⟩
    · rw [hpairs w]
      by_cases hw : ws = w <;> simp [hw, h.nodup w]
    · rw [hpairs w, count_unsubscribeLoop, hown, h.counts w p]
      by_cases hw : ws = w
      · subst hw; simp
      · simp [hw, Ne.symm hw]

/-- The step lemma: every call keeps the registry consistent. -/
theorem consistent_call {r : Registry W} (h : Consistent r) (c : RegistryCall W) :
    Consistent (r.call getPerpIdFromSymbol c) := by
  cases c with
  | subscribe ws perpetualsSymbol traderAddr =>
    exact consistent_subscribe getPerpIdFromSymbol h ws perpetualsSymbol traderAddr
  | unsubscribe ws => exact consistent_unsubscribe h ws

/-- The run lemma. -/
theorem consistent_run {r : Registry W} (h : Consistent r) (calls : List (RegistryCall W)) :
    Consistent (r.run getPerpIdFromSymbol calls) := by
  induction calls generalizing r with
  | nil => exact h
  | cons c calls ih => exact ih (consistent_call getPerpIdFromSymbol h c)

/-- **The registry stays consistent.**  After any sequence of calls a websocket is in the
list of a perpetual and trader exactly once if its own list names them and not at all
otherwise, names no pair twice, no list and no map is empty, and a further `subscribe`
returns `true` exactly when it adds its pair. -/
theorem registry_stays_consistent (calls : List (RegistryCall W)) :
    let r := Registry.init.run getPerpIdFromSymbol calls
    (∀ ws id trader, (subscribersOf r.subscriptions (id, trader)).count ws =
        if (id, trader) ∈ r.pairsOf ws then 1 else 0) ∧
      (∀ ws, (r.pairsOf ws).Nodup) ∧
      (∀ id traderMap, r.subscriptions.get? id = some traderMap → traderMap.size ≠ 0 ∧
        ∀ trader subscribers, traderMap.get? trader = some subscribers → subscribers ≠ []) ∧
      ∀ ws symbol trader,
        let res := subscribe getPerpIdFromSymbol (fun _ => none) r ws symbol trader
        res.returned = .ok true ↔
          (getPerpIdFromSymbol symbol, trader) ∉ r.pairsOf ws ∧
            (getPerpIdFromSymbol symbol, trader) ∈ res.registry.pairsOf ws := by
  intro r
  have h : Consistent r := consistent_run getPerpIdFromSymbol consistent_init calls
  refine ⟨fun ws id trader => ?_, h.nodup, fun id tm hid => ?_, fun ws symbol trader => ?_⟩
  · rw [h.counts ws (id, trader)]
    split
    · rename_i hmem
      exact List.count_eq_one_of_mem (h.nodup ws) hmem
    · rename_i hmem
      exact List.count_eq_zero.2 hmem
  · exact ⟨h.wellFormed.maps id tm hid, fun trader l hl => h.wellFormed.lists id tm trader l hid hl⟩
  · intro res
    have hspec := subscribe_spec getPerpIdFromSymbol r ws symbol trader
    rcases hspec with ⟨hmem, hret, -, -⟩ | ⟨hnew, hret, hclients, -, -⟩
    · constructor
      · intro hc
        have : (Except.ok false : Except String Bool) = .ok true := hret.symm.trans hc
        exact absurd this (by simp)
      · exact fun hc => absurd hmem hc.1
    · refine ⟨fun _ => ⟨hnew, ?_⟩, fun _ => hret⟩
      show _ ∈ ((res.registry.clients.get? ws).getD []).map ClientSubscription.pair
      rw [hclients]
      simp [ClientSubscription.pair]

end

/-- Three clients of one trader's perpetual, of which the second repeats itself and the third
leaves. -/
def comeAndGo : List (RegistryCall ℕ) :=
  [.subscribe 0 "BTC-USD-MATIC" "0x11", .subscribe 1 "BTC-USD-MATIC" "0x11",
    .subscribe 1 "BTC-USD-MATIC" "0x11", .subscribe 2 "BTC-USD-MATIC" "0x11",
    .subscribe 2 "BTC-USD-MATIC" "0x22", .unsubscribe 2]

/-- The law there: the first two are registered once each, and nothing is left of the third. -/
theorem comeAndGo_consistent :
    let r := Registry.init.run (fun _ => 100001) comeAndGo
    subscribersOf r.subscriptions (100001, "0x11") = [0, 1] ∧
      r.subscriptions.get? 100001 = some (OrdMap.empty.set "0x11" [0, 1]) ∧
      (subscribersOf r.subscriptions (100001, "0x11")).count 1 = 1 := by
  intro r
  refine ⟨by decide, by decide, ?_⟩
  have hcount := (registry_stays_consistent (fun _ => 100001) comeAndGo).1 1 100001 "0x11"
  exact hcount.trans (by decide)

end TraderBackend
