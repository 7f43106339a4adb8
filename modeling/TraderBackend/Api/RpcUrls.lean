import TraderBackend.Api.RpcManager

/-!
# The URLs under overlapping calls

While a call of `getRPC` checks a URL, the URL is out of the array.  The server does not wait for
every call: `safeGetRPC` gives one up after fifteen seconds, and it goes on in the background,
while `refreshProxyInstance` makes its own.  So calls overlap, those that want a healthy URL and
those that take any.

* **The calls.**  `getRPCStepFor` is a step of `getRPC(healthy)` for either argument.
* **The balance.**  `conserved_step`: a step keeps the URLs of the array and the one its call
  holds, taken together.
* **Whole runs.**  `rpc_urls_kept`: no URL is lost or doubled, and every call ends.
-/

namespace TraderBackend

/-! ## The calls -/

/-- One step of `getRPC(healthy)`: a call that does not ask for a healthy URL returns the first one
it is handed. -/
def RPCManager.getRPCStepFor (m : RPCManager) (healthy : Bool) (now : ℕ) (ok : Bool)
    (l : RpcCallAt) : Option (RPCManager × RpcCallAt) :=
  match l with
  | .cycled numTries rpc =>
      if healthy then m.getRPCStep now ok (.cycled numTries rpc) else some (m, .returned rpc)
  | l => m.getRPCStep now ok l

/-- Calls of `getRPC` on one manager, each with its argument. -/
def getRPCCallsFor {ι : Type*} (healthy : ι → Bool) : Tasks ι (ℕ × Bool) RPCManager RpcCallAt where
  step i k m l := m.getRPCStepFor (healthy i) k.1 k.2 l

/-- `new RPCManager(urls)`, and no call has begun. -/
def rpcFresh {ι : Type*} (urls : List String) : Tasks.Config ι RPCManager RpcCallAt :=
  ⟨⟨urls, OrdMap.empty, OrdMap.empty⟩, fun _ => .start⟩

namespace RpcCallAt

/-- The URL that is out of the array while the call checks it. -/
def holds : RpcCallAt → Multiset String
  | .checking _ rpc | .checked _ rpc _ => {rpc}
  | _ => 0

/-- The URL that the call was handed last. -/
def handed : RpcCallAt → Option String
  | .checking _ rpc | .checked _ rpc _ | .cycled _ rpc | .returned rpc => some rpc
  | .start | .rejected _ => none

/-- A bound for the steps a call has before it when the array has `n` URLs: up to three for each
that it has not been handed, and the last one. -/
def turnsLeft (n : ℕ) : RpcCallAt → ℕ
  | .start => 3 * n + 1
  | .checking numTries _ => 3 * (n - numTries) + 3
  | .checked numTries _ _ => 3 * (n - numTries) + 2
  | .cycled numTries _ => 3 * (n - numTries) + 1
  | .returned _ | .rejected _ => 0

/-- A call that rests holds nothing. -/
theorem holds_of_rests {l : RpcCallAt} (h : l.rests) : l.holds = 0 := by
  rcases h with rfl | hfinished
  · rfl
  · cases l with
    | returned rpc => rfl
    | rejected msg => rfl
    | start | checking | checked | cycled => cases hfinished

end RpcCallAt

/-! ## The balance -/

section

variable {m m' : RPCManager} {healthy : Bool} {now numTries : ℕ} {ok : Bool} {l l' : RpcCallAt}

/-- A step is one of `getRPC(true)`, or it returns the URL the call was handed. -/
theorem getRPCStepFor_cases (h : m.getRPCStepFor healthy now ok l = some (m', l')) :
    m.getRPCStep now ok l = some (m', l') ∨
      ∃ n rpc, l = .cycled n rpc ∧ m' = m ∧ l' = .returned rpc := by
  cases l with
  | cycled n rpc =>
    cases healthy with
    | true => exact Or.inl h
    | false =>
      cases h
      exact Or.inr ⟨n, rpc, rfl, rfl, rfl⟩
  | start | checking | checked | returned | rejected => exact Or.inl h

/-- Only a call that has ended has no step. -/
theorem isSome_getRPCStepFor (h : l.finished = false) :
    (m.getRPCStepFor healthy now ok l).isSome = true := by
  cases l with
  | cycled n rpc => cases healthy <;> rfl
  | start | checking | checked => rfl
  | returned | rejected => cases h

/-- The test of the loop takes out at most the URL that the call then holds. -/
theorem conserved_tryNext (hnext : m.tryNext now numTries = (m', l')) :
    (m'.rpcURLs : Multiset String) + l'.holds = m.rpcURLs := by
  rcases tryNext_cases m now numTries with ⟨-, heq⟩ | ⟨front, rpc, hurls, -, heq | ⟨-, heq⟩⟩ <;>
    rw [hnext] at heq <;> cases heq
  · exact add_zero _
  · rw [hurls, ← Multiset.coe_add]
    rfl
  · show ((rpc :: front : List String) : Multiset String) + 0 = m.rpcURLs
    rw [hurls, add_zero, ← Multiset.coe_add, add_comm, ← Multiset.cons_coe, Multiset.coe_singleton,
      Multiset.singleton_add]

/-- A step keeps the URLs of the array and the one its call holds. -/
theorem conserved_step (h : m.getRPCStepFor healthy now ok l = some (m', l')) :
    (m'.rpcURLs : Multiset String) + l'.holds = m.rpcURLs + l.holds := by
  rcases getRPCStepFor_cases h with hstep | ⟨n, rpc, rfl, rfl, rfl⟩
  · rcases getRPCStep_cases hstep with ⟨rfl, -, rfl, rfl⟩ | ⟨n, rpc, rfl, rfl, rfl⟩ |
      ⟨n, rpc, ok', rfl, hurls, -, rfl⟩ | ⟨n, rpc, rfl, rfl, rfl⟩ | ⟨rfl, hnext⟩ |
      ⟨n, rpc, rfl, -, hnext⟩
    · rfl
    · rfl
    · show (m'.rpcURLs : Multiset String) + 0 = m.rpcURLs + {rpc}
      rw [hurls, add_zero, add_comm, Multiset.singleton_add, Multiset.cons_coe]
    · rfl
    · exact (conserved_tryNext hnext).trans (add_zero _).symm
    · exact (conserved_tryNext hnext).trans (add_zero _).symm
  · rfl

/-- What comes of the test of the loop: a URL of the array, and the try is counted. -/
theorem handed_tryNext (hnext : m.tryNext now numTries = (m', l')) :
    l'.handed = none ∧ l'.finished = true ∨
      ∃ rpc ∈ m.rpcURLs, numTries < m.rpcURLs.length ∧
        (l' = .checking (numTries + 1) rpc ∨ l' = .cycled (numTries + 1) rpc) := by
  rcases tryNext_cases m now numTries with ⟨-, heq⟩ | ⟨front, rpc, hurls, hlt, heq | ⟨-, heq⟩⟩ <;>
    rw [hnext] at heq <;> cases heq
  · exact Or.inl ⟨rfl, rfl⟩
  · exact Or.inr ⟨rpc, by rw [hurls]; simp, hlt, Or.inl rfl⟩
  · exact Or.inr ⟨rpc, by rw [hurls]; simp, hlt, Or.inr rfl⟩

/-- A call is handed URLs of the array. -/
theorem handed_step (h : m.getRPCStepFor healthy now ok l = some (m', l')) {url : String}
    (hurl : l'.handed = some url) : l.handed = some url ∨ url ∈ m.rpcURLs := by
  have hgo : ∀ n, m.tryNext now n = (m', l') → url ∈ m.rpcURLs := by
    intro n hnext
    rcases handed_tryNext hnext with ⟨hnone, -⟩ | ⟨rpc, hmem, -, rfl | rfl⟩
    · rw [hnone] at hurl
      cases hurl
    · cases hurl
      exact hmem
    · cases hurl
      exact hmem
  rcases getRPCStepFor_cases h with hstep | ⟨n, rpc, rfl, rfl, rfl⟩
  · rcases getRPCStep_cases hstep with ⟨-, -, -, rfl⟩ | ⟨n, rpc, rfl, -, rfl⟩ |
      ⟨n, rpc, ok', rfl, -, -, rfl⟩ | ⟨n, rpc, rfl, -, rfl⟩ | ⟨-, hnext⟩ | ⟨n, rpc, -, -, hnext⟩
    · cases hurl
    · exact Or.inl hurl
    · exact Or.inl hurl
    · exact Or.inl hurl
    · exact Or.inr (hgo 0 hnext)
    · exact Or.inr (hgo n hnext)
  · exact Or.inl hurl

/-- Every step leaves a call fewer. -/
theorem turnsLeft_step (h : m.getRPCStepFor healthy now ok l = some (m', l')) {n : ℕ}
    (hn : m.rpcURLs.length ≤ n) : l'.turnsLeft n < l.turnsLeft n := by
  have hgo : ∀ k, m.tryNext now k = (m', l') → l'.turnsLeft n < 3 * (n - k) + 1 := by
    intro k hnext
    rcases handed_tryNext hnext with ⟨-, hfinished⟩ | ⟨rpc, -, hlt, rfl | rfl⟩
    · cases l' with
      | returned | rejected => exact Nat.succ_pos _
      | start | checking | checked | cycled => cases hfinished
    · simp only [RpcCallAt.turnsLeft]
      omega
    · simp only [RpcCallAt.turnsLeft]
      omega
  rcases getRPCStepFor_cases h with hstep | ⟨k, rpc, rfl, rfl, rfl⟩
  · rcases getRPCStep_cases hstep with ⟨rfl, -, -, rfl⟩ | ⟨k, rpc, rfl, -, rfl⟩ |
      ⟨k, rpc, ok', rfl, -, -, rfl⟩ | ⟨k, rpc, rfl, -, rfl⟩ | ⟨rfl, hnext⟩ |
      ⟨k, rpc, rfl, -, hnext⟩
    · exact Nat.succ_pos _
    · exact Nat.lt_succ_self _
    · exact Nat.lt_succ_self _
    · exact Nat.succ_pos _
    · exact hgo 0 hnext
    · exact hgo k hnext
  · exact Nat.succ_pos _

end

/-! ## Whole runs -/

section

variable {ι : Type*} [Fintype ι] [DecidableEq ι]

/-- The URLs in the array and with the calls are those of the configuration, and a call was handed
one of them. -/
structure UrlsKept (urls : List String) (c : Tasks.Config ι RPCManager RpcCallAt) : Prop where
  balance : (c.shared.rpcURLs : Multiset String) + ∑ i, (c.locals i).holds = urls
  handed : ∀ i url, (c.locals i).handed = some url → url ∈ urls

variable {urls : List String} {healthy : ι → Bool} {c c' : Tasks.Config ι RPCManager RpcCallAt}

omit [DecidableEq ι] in
theorem UrlsKept.subset (h : UrlsKept urls c) {url : String} (hurl : url ∈ c.shared.rpcURLs) :
    url ∈ urls := by
  have hmem : url ∈ (urls : Multiset String) := by
    rw [← h.balance]
    exact Multiset.mem_add.2 (Or.inl hurl)
  exact hmem

omit [DecidableEq ι] in
theorem UrlsKept.length_le (h : UrlsKept urls c) : c.shared.rpcURLs.length ≤ urls.length := by
  have hcard := congrArg Multiset.card h.balance
  rw [Multiset.card_add, Multiset.coe_card, Multiset.coe_card] at hcard
  omega

/-- The step lemma. -/
theorem UrlsKept.turn (h : UrlsKept urls c) {i : ι} {k : ℕ × Bool}
    (hturn : (getRPCCallsFor healthy).turn c i k = some c') : UrlsKept urls c' := by
  refine ⟨?_, fun j url hurl => ?_⟩
  · exact (Tasks.turn_conserved (f := fun m : RPCManager => (m.rpcURLs : Multiset String))
      (fun _ _ _ _ _ _ hstep => conserved_step hstep) hturn).trans h.balance
  · obtain ⟨m', l', hstep, rfl⟩ := Tasks.turn_eq_some hturn
    by_cases hji : j = i
    · subst hji
      simp only [Function.update_self] at hurl
      rcases handed_step hstep hurl with hold | hmem
      · exact h.handed j url hold
      · exact h.subset hmem
    · simp only [Function.update_of_ne hji] at hurl
      exact h.handed j url hurl

omit [DecidableEq ι] in
theorem urlsKept_fresh (urls : List String) :
    UrlsKept urls (rpcFresh urls : Tasks.Config ι RPCManager RpcCallAt) := by
  refine ⟨?_, fun i url hurl => by cases hurl⟩
  show (urls : Multiset String) + ∑ _i : ι, 0 = urls
  rw [Finset.sum_const_zero, add_zero]

theorem urlsKept_run {schedule : List (ι × (ℕ × Bool))}
    (h : (getRPCCallsFor healthy).run schedule (rpcFresh urls) = some c) : UrlsKept urls c :=
  Tasks.run_induction (P := UrlsKept urls) (fun _ _ _ _ hd hturn => hd.turn hturn)
    (urlsKept_fresh urls) h

/-- The steps a call has made and those it has before it. -/
theorem turns_run {schedule : List (ι × (ℕ × Bool))}
    (h : (getRPCCallsFor healthy).run schedule (rpcFresh urls) = some c) (i : ι) :
    (schedule.countP fun turn => turn.1 = i) + (c.locals i).turnsLeft urls.length ≤
      3 * urls.length + 1 := by
  refine Tasks.turns_le (fun _ _ _ _ hd hturn => hd.turn hturn) ?_ (urlsKept_fresh urls) h
  intro d d' k hd hturn
  obtain ⟨m', l', hstep, rfl⟩ := Tasks.turn_eq_some hturn
  simp only [Function.update_self]
  exact turnsLeft_step hstep hd.length_le

/-- **No URL is lost or doubled, and every call ends.**  Whatever calls of `getRPC` overlap, in any
order of their steps and with any outcomes of the checks: the URLs in the array and those that calls
hold while they check them are together the ones of the configuration, so that the array is a
permutation of it whenever no call is under way; a call returns one of them; and a call makes at
most three steps for each URL and one more, and until it has ended it can always make the next. -/
theorem rpc_urls_kept (urls : List String) (healthy : ι → Bool)
    (schedule : List (ι × (ℕ × Bool))) (c : Tasks.Config ι RPCManager RpcCallAt)
    (h : (getRPCCallsFor healthy).run schedule (rpcFresh urls) = some c) :
    ((c.shared.rpcURLs : Multiset String) + ∑ i, (c.locals i).holds = urls ∧
        ((∀ i, (c.locals i).rests) → c.shared.rpcURLs.Perm urls)) ∧
      (∀ i url, c.locals i = .returned url → url ∈ urls) ∧
      ∀ i, (schedule.countP fun turn => turn.1 = i) ≤ 3 * urls.length + 1 ∧
        ((c.locals i).finished = false →
          ∀ k, ((getRPCCallsFor healthy).turn c i k).isSome = true) := by
  have hkept := urlsKept_run h
  refine ⟨⟨hkept.balance, fun hrests => ?_⟩, fun i url hreturned => ?_, fun i => ⟨?_, ?_⟩⟩
  · have hnone : ∑ i, (c.locals i).holds = 0 :=
      Finset.sum_eq_zero fun i _ => RpcCallAt.holds_of_rests (hrests i)
    have hbalance := hkept.balance
    rw [hnone, add_zero] at hbalance
    exact Multiset.coe_eq_coe.1 hbalance
  · exact hkept.handed i url (by rw [hreturned]; rfl)
  · exact (Nat.le_add_right _ _).trans (turns_run h i)
  · intro hgoesOn k
    rw [Tasks.turn, Option.isSome_map]
    exact isSome_getRPCStepFor hgoesOn

end

/-- A healthy call checks the second URL in vain while a careless one checks the first, and goes on
to that. -/
def bothReturn : List (Bool × (ℕ × Bool)) :=
  [(true, (0, false)), (false, (0, true)), (true, (5, false)), (false, (5, true)),
    (false, (6, true)), (true, (6, true)), (false, (7, true)), (true, (7, true)), (true, (8, true))]

/-- The law there. -/
theorem bothReturn_kept :
    ∃ c, (getRPCCallsFor id).run bothReturn (rpcFresh ["https://a", "https://b"]) = some c ∧
      c.locals true = .returned "https://a" ∧ c.locals false = .returned "https://a" ∧
        c.shared.rpcURLs.Perm ["https://a", "https://b"] := by
  have hrun : (getRPCCallsFor id).run bothReturn (rpcFresh ["https://a", "https://b"]) = some _ :=
    rfl
  have hlaw := rpc_urls_kept ["https://a", "https://b"] id bothReturn _ hrun
  refine ⟨_, hrun, rfl, rfl, hlaw.1.2 fun i => Or.inr ?_⟩
  cases i <;> rfl

end TraderBackend
