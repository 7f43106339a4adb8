import TraderBackend.Api.Registry

/-!
# Subscribes that throw

`subscribe` has written both maps by the time it calls `addOrderBookEventHandlers`.
When that call throws, what was written stays.

* `Attempt`, `Registry.attempts` — sequences of calls, some of which throw.
* `AtMostOnce` — what such sequences keep of the registry's invariant: a websocket
  is in a list at most once, and only if its own list names it.
* `failed_subscribe_stays` — a subscribe that throws changes both maps, and until
  the client leaves, every retry is answered as already subscribed.
-/

namespace TraderBackend

variable {W : Type*}

/-- A call of the registry's interface; `addFails` is the error of
`addOrderBookEventHandlers` in this call, if it throws. -/
inductive Attempt (W : Type*) where
  | subscribe (ws : W) (perpetualsSymbol traderAddr : String) (addFails : Option String)
  | unsubscribe (ws : W)
  deriving DecidableEq

variable [DecidableEq W] (getPerpIdFromSymbol : String → ℕ)

/-- What any sequence of calls keeps: a websocket is in a list at most as often as its own list
names it, and that is at most once. -/
structure AtMostOnce (r : Registry W) : Prop where
  nodup : ∀ ws, (r.pairsOf ws).Nodup
  counts : ∀ ws p, (subscribersOf r.subscriptions p).count ws ≤ (r.pairsOf ws).count p

/-- A websocket's own list names a pair that nobody will send to it. -/
structure Forgotten (r : Registry W) (ws : W) (p : ℕ × String) : Prop where
  named : p ∈ r.pairsOf ws
  absent : ws ∉ subscribersOf r.subscriptions p

/-- One call. -/
def Registry.attempt (r : Registry W) : Attempt W → Registry W
  | .subscribe ws perpetualsSymbol traderAddr addFails =>
      (subscribe getPerpIdFromSymbol (fun _ => addFails) r ws perpetualsSymbol traderAddr).registry
  | .unsubscribe ws => (unsubscribe r ws).registry

/-- A sequence of calls. -/
def Registry.attempts (r : Registry W) (calls : List (Attempt W)) : Registry W :=
  calls.foldl (Registry.attempt getPerpIdFromSymbol) r

/-! ## One subscribe -/

variable (addFails : String → Option String) (r : Registry W) (ws : W)
  (perpetualsSymbol traderAddr : String)

/-- How a subscribe ends: the pair is there already, the handlers throw, or nothing does. -/
theorem subscribe_cases :
    let id := getPerpIdFromSymbol perpetualsSymbol
    let res := subscribe getPerpIdFromSymbol addFails r ws perpetualsSymbol traderAddr
    ((id, traderAddr) ∈ r.pairsOf ws ∧ res = ⟨r, none, .ok false⟩) ∨
      ((id, traderAddr) ∉ r.pairsOf ws ∧ r.subscriptions.get? id = none ∧
        ∃ e, res = ⟨⟨r.subscriptions.set id OrdMap.empty, r.clients.set ws
          ((r.clients.get? ws).getD [] ++ [⟨id, perpetualsSymbol, traderAddr⟩])⟩,
          some perpetualsSymbol, .error e⟩) ∨
      ((id, traderAddr) ∉ r.pairsOf ws ∧
        res = subscribe getPerpIdFromSymbol (fun _ => none) r ws perpetualsSymbol traderAddr) := by
  intro id res
  have hany := any_pair_iff r ws id traderAddr
  by_cases hmem : (id, traderAddr) ∈ r.pairsOf ws
  · refine Or.inl ⟨hmem, ?_⟩
    show subscribe getPerpIdFromSymbol addFails r ws perpetualsSymbol traderAddr = _
    rw [subscribe, if_pos (hany.2 hmem)]
  · have hno := fun hc => hmem (hany.1 hc)
    cases hid : r.subscriptions.get? id with
    | some perpSubscribers =>
      refine Or.inr (Or.inr ⟨hmem, ?_⟩)
      show subscribe getPerpIdFromSymbol addFails r ws perpetualsSymbol traderAddr = _
      simp only [subscribe, id, hid]
    | none =>
      cases hadd : addFails perpetualsSymbol with
      | some e =>
        refine Or.inr (Or.inl ⟨hmem, rfl, e, ?_⟩)
        show subscribe getPerpIdFromSymbol addFails r ws perpetualsSymbol traderAddr = _
        simp only [subscribe, if_neg hno, id, hid, hadd]
      | none =>
        refine Or.inr (Or.inr ⟨hmem, ?_⟩)
        show subscribe getPerpIdFromSymbol addFails r ws perpetualsSymbol traderAddr = _
        simp only [subscribe, id, hid, hadd]

/-- A pair is added to the client's list, and the client to the list of the pair or to none. -/
structure AddsPair (r r' : Registry W) (ws : W) (pair : ℕ × String) : Prop where
  new : pair ∉ r.pairsOf ws
  pairs : ∀ w, r'.pairsOf w = if ws = w then r.pairsOf w ++ [pair] else r.pairsOf w
  lists : (∀ p, subscribersOf r'.subscriptions p = subscribersOf r.subscriptions p) ∨
    ∀ p, subscribersOf r'.subscriptions p =
      if p = pair then subscribersOf r.subscriptions p ++ [ws] else subscribersOf r.subscriptions p

/-- A subscribe changes nothing, or adds its pair. -/
theorem subscribe_adds :
    (subscribe getPerpIdFromSymbol addFails r ws perpetualsSymbol traderAddr).registry = r ∨
      AddsPair r (subscribe getPerpIdFromSymbol addFails r ws perpetualsSymbol traderAddr).registry
        ws (getPerpIdFromSymbol perpetualsSymbol, traderAddr) := by
  rcases subscribe_cases getPerpIdFromSymbol addFails r ws perpetualsSymbol traderAddr with
    ⟨-, hres⟩ | ⟨hnew, hid, e, hres⟩ | ⟨hnew, hres⟩
  · left
    rw [hres]
  · right
    rw [hres]
    exact ⟨hnew, pairsOf_add rfl, Or.inl (subscribersOf_set_empty hid)⟩
  · right
    rcases subscribe_spec getPerpIdFromSymbol r ws perpetualsSymbol traderAddr with
      ⟨hmem, -⟩ | ⟨-, -, hclients, hsubs, -⟩
    · exact absurd hmem hnew
    · rw [hres]
      exact ⟨hnew, pairsOf_add hclients, Or.inr hsubs⟩

/-! ## Runs -/

variable {getPerpIdFromSymbol addFails r ws perpetualsSymbol traderAddr}

theorem AtMostOnce.mem_pairsOf (h : AtMostOnce r) {p : ℕ × String}
    (hmem : ws ∈ subscribersOf r.subscriptions p) : p ∈ r.pairsOf ws := by
  have hpos := List.count_pos_iff.2 hmem
  have hcount := h.counts ws p
  exact List.count_pos_iff.1 (by omega)

theorem AtMostOnce.nodup_subscribers (h : AtMostOnce r) (p : ℕ × String) :
    (subscribersOf r.subscriptions p).Nodup := by
  rw [List.nodup_iff_count_le_one]
  intro w
  exact (h.counts w p).trans (List.nodup_iff_count_le_one.1 (h.nodup w) p)

theorem atMostOnce_init : AtMostOnce (Registry.init : Registry W) :=
  ⟨consistent_init.nodup, fun ws p => (consistent_init.counts ws p).le⟩

/-- A pair that is new to its client's list keeps the lists free of repetitions. -/
theorem AtMostOnce.adds {r' : Registry W} {pair : ℕ × String} (h : AtMostOnce r)
    (hadds : AddsPair r r' ws pair) : AtMostOnce r' := by
  refine ⟨fun w => ?_, fun w p => ?_⟩
  · rw [hadds.pairs w]
    by_cases hw : ws = w
    · subst hw
      rw [if_pos rfl]
      refine List.Nodup.append (h.nodup ws) (List.nodup_singleton _) ?_
      simpa using hadds.new
    · rw [if_neg hw]
      exact h.nodup w
  · have hold := h.counts w p
    have hmore : (r.pairsOf w).count p ≤ (r'.pairsOf w).count p := by
      rw [hadds.pairs w]
      split
      · rw [List.count_append]
        omega
      · exact le_refl _
    rcases hadds.lists with hsame | hpush
    · rw [hsame p]
      exact hold.trans hmore
    · rw [hpush p]
      by_cases hp : p = pair
      · subst hp
        rw [if_pos rfl, hadds.pairs w, List.count_append]
        by_cases hw : ws = w
        · subst hw
          simpa [List.count_append] using hold
        · simpa [hw] using hold
      · rw [if_neg hp]
        exact hold.trans hmore

theorem AtMostOnce.unsubscribe (h : AtMostOnce r) (ws : W) :
    AtMostOnce (unsubscribe r ws).registry := by
  rw [TraderBackend.unsubscribe]
  cases hws : r.clients.get? ws with
  | none => exact h
  | some clientSubscriptions =>
    have hown : clientSubscriptions.map ClientSubscription.pair = r.pairsOf ws := by
      simp [Registry.pairsOf, hws]
    refine ⟨fun w => ?_, fun w p => ?_⟩
    · rw [pairsOf_erase]
      split
      · exact List.nodup_nil
      · exact h.nodup w
    · have hcount := h.counts w p
      rw [pairsOf_erase, count_unsubscribeLoop, hown]
      by_cases hw : ws = w
      · subst hw
        rw [if_pos rfl, if_pos rfl, List.count_nil]
        omega
      · rw [if_neg (Ne.symm hw), if_neg hw]
        exact hcount

/-- The step lemma. -/
theorem AtMostOnce.attempt (h : AtMostOnce r) (c : Attempt W) :
    AtMostOnce (r.attempt getPerpIdFromSymbol c) := by
  cases c with
  | subscribe ws perpetualsSymbol traderAddr addFails =>
    rw [Registry.attempt]
    rcases subscribe_adds getPerpIdFromSymbol (fun _ => addFails) r ws perpetualsSymbol
      traderAddr with hsame | hadds
    · rw [hsame]
      exact h
    · exact h.adds hadds
  | unsubscribe ws => exact h.unsubscribe ws

/-- The run lemma. -/
theorem AtMostOnce.attempts (h : AtMostOnce r) (calls : List (Attempt W)) :
    AtMostOnce (r.attempts getPerpIdFromSymbol calls) := by
  induction calls generalizing r with
  | nil => exact h
  | cons c calls ih => exact ih (h.attempt c)

/-! ## What a failed subscribe leaves -/

/-- Whatever pair is added, a client stays forgotten: its own list has the pair already. -/
theorem Forgotten.adds {r' : Registry W} {w : W} {p pair : ℕ × String} (h : Forgotten r ws p)
    (hadds : AddsPair r r' w pair) : Forgotten r' ws p := by
  constructor
  · rw [hadds.pairs ws]
    split
    · exact List.mem_append_left _ h.named
    · exact h.named
  · rcases hadds.lists with hsame | hpush
    · rw [hsame p]
      exact h.absent
    · rw [hpush p]
      by_cases hp : p = pair
      · -- it is not the client itself that is added
        have hother : ws ≠ w := by
          rintro rfl
          exact hadds.new (hp ▸ h.named)
        rw [if_pos hp]
        simpa [hother] using h.absent
      · rw [if_neg hp]
        exact h.absent

/-- Only its unsubscribe makes a forgotten client's list forget the pair. -/
theorem Forgotten.attempt {p : ℕ × String} (h : Forgotten r ws p) {c : Attempt W}
    (hc : c ≠ .unsubscribe ws) : Forgotten (r.attempt getPerpIdFromSymbol c) ws p := by
  cases c with
  | subscribe w perpetualsSymbol traderAddr addFails =>
    rw [Registry.attempt]
    rcases subscribe_adds getPerpIdFromSymbol (fun _ => addFails) r w perpetualsSymbol
      traderAddr with hsame | hadds
    · rw [hsame]
      exact h
    · exact h.adds hadds
  | unsubscribe w =>
    have hw : w ≠ ws := fun heq => hc (by rw [heq])
    rw [Registry.attempt, unsubscribe]
    cases hclient : r.clients.get? w with
    | none => exact h
    | some clientSubscriptions =>
      constructor
      · rw [pairsOf_erase, if_neg hw]
        exact h.named
      · rw [← List.count_eq_zero, count_unsubscribeLoop, if_neg (Ne.symm hw),
          List.count_eq_zero.2 h.absent]

theorem Forgotten.attempts {p : ℕ × String} (h : Forgotten r ws p) (calls : List (Attempt W))
    (hstays : .unsubscribe ws ∉ calls) : Forgotten (r.attempts getPerpIdFromSymbol calls) ws p := by
  induction calls generalizing r with
  | nil => exact h
  | cons c calls ih =>
    rw [List.mem_cons, not_or] at hstays
    exact ih (h.attempt (Ne.symm hstays.1)) hstays.2

/-- A retry is answered as already subscribed, and changes nothing. -/
theorem Forgotten.retry (h : Forgotten r ws (getPerpIdFromSymbol perpetualsSymbol, traderAddr))
    (addFails : String → Option String) :
    subscribe getPerpIdFromSymbol addFails r ws perpetualsSymbol traderAddr =
      ⟨r, none, .ok false⟩ := by
  rcases subscribe_cases getPerpIdFromSymbol addFails r ws perpetualsSymbol traderAddr with
    ⟨-, hres⟩ | ⟨hnew, -⟩ | ⟨hnew, -⟩
  · exact hres
  · exact absurd h.named hnew
  · exact absurd h.named hnew

/-- A subscribe that throws has put an empty map for the perpetual and the pair into the
client's list. -/
theorem subscribe_throws {e : String}
    (hfail : (subscribe getPerpIdFromSymbol addFails r ws perpetualsSymbol traderAddr).returned =
      .error e) :
    let id := getPerpIdFromSymbol perpetualsSymbol
    let res := subscribe getPerpIdFromSymbol addFails r ws perpetualsSymbol traderAddr
    r.subscriptions.get? id = none ∧
      res.registry = ⟨r.subscriptions.set id OrdMap.empty, r.clients.set ws
        ((r.clients.get? ws).getD [] ++ [⟨id, perpetualsSymbol, traderAddr⟩])⟩ ∧
      Forgotten res.registry ws (id, traderAddr) := by
  intro id res
  rcases subscribe_cases getPerpIdFromSymbol addFails r ws perpetualsSymbol traderAddr with
    ⟨-, hres⟩ | ⟨hnew, hid, e', hres⟩ | ⟨-, hres⟩
  · rw [hres] at hfail
    cases hfail
  · have hreg : res.registry = _ := congrArg SubscribeResult.registry hres
    refine ⟨hid, hreg, ?_, ?_⟩
    · rw [hreg]
      simp [Registry.pairsOf, ClientSubscription.pair, id]
    · rw [hreg]
      simp [subscribersOf, id]
  · rcases subscribe_spec getPerpIdFromSymbol r ws perpetualsSymbol traderAddr with
      ⟨-, hret, -⟩ | ⟨-, hret, -⟩
    · rw [hres, hret] at hfail
      cases hfail
    · rw [hres, hret] at hfail
      cases hfail

variable (addFails r ws perpetualsSymbol traderAddr) in
/-- **A failed subscribe stays.**  A subscribe in which `addOrderBookEventHandlers` throws changes
both maps.  Whatever calls follow, until the client leaves each retry returns `false`, changes
nothing, and the client is not registered for the perpetual and trader. -/
theorem failed_subscribe_stays {e : String}
    (hfail : (subscribe getPerpIdFromSymbol addFails r ws perpetualsSymbol traderAddr).returned =
      .error e) :
    let r' := (subscribe getPerpIdFromSymbol addFails r ws perpetualsSymbol traderAddr).registry
    r'.clients ≠ r.clients ∧ r'.subscriptions ≠ r.subscriptions ∧
      ∀ later : List (Attempt W), .unsubscribe ws ∉ later →
        let s := r'.attempts getPerpIdFromSymbol later
        subscribe getPerpIdFromSymbol (fun _ => none) s ws perpetualsSymbol traderAddr =
            ⟨s, none, .ok false⟩ ∧
          ws ∉ subscribersOf s.subscriptions
            (getPerpIdFromSymbol perpetualsSymbol, traderAddr) := by
  intro r'
  obtain ⟨hid, hreg, hforgotten⟩ := subscribe_throws hfail
  refine ⟨fun hclients => ?_, fun hsubs => ?_, fun later hstays => ?_⟩
  · have hlist := congrArg (fun m => ((m.get? ws).getD []).length) hclients
    simp only [r', hreg, OrdMap.get?_set_self, Option.getD_some, List.length_append,
      List.length_singleton] at hlist
    omega
  · have hmap := congrArg (fun m => m.get? (getPerpIdFromSymbol perpetualsSymbol)) hsubs
    simp [r', hreg, hid] at hmap
  · have hlater : Forgotten (r'.attempts getPerpIdFromSymbol later) ws _ :=
      hforgotten.attempts later hstays
    exact ⟨hlater.retry _, hlater.absent⟩

/-- A client's first subscription in a fresh registry, with handlers that throw. -/
def brokenFirst : SubscribeResult ℕ :=
  subscribe (fun _ => 100001) (fun _ => some "invalid value for Contract target") Registry.init 0
    "BTC-USD-MATIC" "0x1111111111111111111111111111111111111111"

/-- Both maps are changed, and the retry does not register the client. -/
theorem brokenFirst_stays :
    brokenFirst.returned = .error "invalid value for Contract target" ∧
      brokenFirst.registry.clients.size = 1 ∧ brokenFirst.registry.subscriptions.size = 1 ∧
      (subscribe (fun _ => 100001) (fun _ => none) brokenFirst.registry 0 "BTC-USD-MATIC"
        "0x1111111111111111111111111111111111111111").returned = .ok false ∧
      subscribersOf (subscribe (fun _ => 100001) (fun _ => none) brokenFirst.registry 0
        "BTC-USD-MATIC" "0x1111111111111111111111111111111111111111").registry.subscriptions
          (100001, "0x1111111111111111111111111111111111111111") = [] :=
  ⟨rfl, by decide, by decide, rfl, by decide⟩

/-- The law at work on that client. -/
theorem brokenFirst_not_registered :
    brokenFirst.registry.clients ≠ (Registry.init : Registry ℕ).clients ∧
      (subscribe (fun _ => 100001) (fun _ => none) brokenFirst.registry 0 "BTC-USD-MATIC"
        "0x1111111111111111111111111111111111111111").returned = .ok false := by
  have hstays := failed_subscribe_stays (fun _ => some "invalid value for Contract target")
    Registry.init 0 "BTC-USD-MATIC" "0x1111111111111111111111111111111111111111"
    (rfl : brokenFirst.returned = .error "invalid value for Contract target")
  exact ⟨hstays.1, congrArg SubscribeResult.returned (hstays.2.2 [] (by simp)).1⟩

end TraderBackend
