import TraderBackend.History.FiltererDelivery

/-!
# When the filterer gives up

From some query on the node fails for ever, and no error is a rate limit.  An error
doubles the waiting time, and at 32 seconds the next one is thrown.  An error with
`413` in its message reduces the chunk size and leaves the waiting time alone.

* `stateAt` — the loop state in which a query is made.
* `Backoff` — the waiting time is one of 2, 4, 8, 16 and 32 seconds.
* `genericFilterer_stops_iff` — the loop stops **if and only if** enough of the
  errors have no `413` in their message.
* `tooLarge_forever` — if all of them have, it asks for the same block for ever.
-/

namespace TraderBackend

open JsString

variable {δ : Type*}

/-! ## Loop states -/

/-- The state in which the loop makes its `n`-th query from here, if it comes to that. -/
def stateAt (rpc : Rpc δ) (topicHashes : List String) (endBlock : ℕ) :
    ℕ → FilterState δ → Option (FilterState δ)
  | 0, s => if s.i < endBlock then some s else none
  | n + 1, s =>
      if s.i < endBlock then
        match filterChunk rpc topicHashes endBlock s with
        | .next s' => stateAt rpc topicHashes endBlock n s'
        | .threw _ => none
      else none

/-- The loop throws, or returns before it has made more than `N` queries. -/
def FilterResult.StopsBy (N : ℕ) : FilterResult δ → Prop
  | .outOfFuel => False
  | .threw _ => True
  | .returned s => s.queries ≤ N

section

variable {rpc : Rpc δ} {topicHashes : List String} {endBlock : ℕ}

/-- Every iteration makes one query. -/
theorem filterChunk_queries {s s' : FilterState δ}
    (h : filterChunk rpc topicHashes endBlock s = .next s') : s'.queries = s.queries + 1 := by
  unfold filterChunk at h
  split at h
  · exact (onError_next h).2.2.2
  · simp only at h
    split at h
    · cases h
      rfl
    · exact (onError_next h).2.2.2

theorem filterFrom_of_ge (fuel : ℕ) {s : FilterState δ} (hge : ¬ s.i < endBlock) :
    filterFrom rpc topicHashes endBlock (fuel + 1) s = .returned s := if_neg hge

theorem filterFrom_next (fuel : ℕ) {s s' : FilterState δ} (hlt : s.i < endBlock)
    (h : filterChunk rpc topicHashes endBlock s = .next s') :
    filterFrom rpc topicHashes endBlock (fuel + 1) s =
      filterFrom rpc topicHashes endBlock fuel s' := by
  rw [filterFrom, if_pos hlt, h]

theorem filterFrom_threw (fuel : ℕ) {s : FilterState δ} {e : RpcError} (hlt : s.i < endBlock)
    (h : filterChunk rpc topicHashes endBlock s = .threw e) :
    filterFrom rpc topicHashes endBlock (fuel + 1) s = .threw e := by
  rw [filterFrom, if_pos hlt, h]

/-- A state that is reached comes before the end, and after `n` queries. -/
theorem stateAt_queries (n : ℕ) {s s' : FilterState δ}
    (h : stateAt rpc topicHashes endBlock n s = some s') :
    s'.queries = s.queries + n ∧ s'.i < endBlock := by
  induction n generalizing s with
  | zero =>
    rw [stateAt] at h
    split at h
    · rename_i hlt
      cases h
      exact ⟨rfl, hlt⟩
    · cases h
  | succ n ih =>
    rw [stateAt] at h
    split at h
    · split at h
      · rename_i s₁ hchunk
        obtain ⟨hqueries, hlt⟩ := ih h
        have hone := filterChunk_queries hchunk
        exact ⟨by omega, hlt⟩
      · cases h
    · cases h

/-- From a state that is reached the loop runs on as from the start. -/
theorem filterFrom_stateAt (n fuel : ℕ) {s s' : FilterState δ}
    (h : stateAt rpc topicHashes endBlock n s = some s') :
    filterFrom rpc topicHashes endBlock (n + fuel) s =
      filterFrom rpc topicHashes endBlock fuel s' := by
  induction n generalizing s with
  | zero =>
    rw [stateAt] at h
    split at h
    · cases h
      rw [Nat.zero_add]
    · cases h
  | succ n ih =>
    rw [stateAt] at h
    rw [Nat.succ_add]
    split at h
    · rename_i hlt
      split at h
      · rename_i s₁ hchunk
        rw [filterFrom_next _ hlt hchunk]
        exact ih h
      · cases h
    · cases h

/-- A loop that does not come to a query has ended. -/
theorem stops_of_stateAt_none (n : ℕ) {s : FilterState δ}
    (h : stateAt rpc topicHashes endBlock n s = none) :
    ∃ fuel, (filterFrom rpc topicHashes endBlock fuel s).StopsBy (s.queries + n) := by
  by_cases hlt : s.i < endBlock
  · cases n with
    | zero =>
      rw [stateAt, if_pos hlt] at h
      cases h
    | succ n =>
      rw [stateAt, if_pos hlt] at h
      cases hchunk : filterChunk rpc topicHashes endBlock s with
      | next s₁ =>
        rw [hchunk] at h
        obtain ⟨fuel, hstops⟩ := stops_of_stateAt_none n h
        refine ⟨fuel + 1, ?_⟩
        rw [filterFrom_next _ hlt hchunk]
        rwa [filterChunk_queries hchunk, Nat.add_assoc, Nat.add_comm 1 n] at hstops
      | threw e =>
        refine ⟨1, ?_⟩
        rw [filterFrom_threw _ hlt hchunk]
        trivial
  · refine ⟨1, ?_⟩
    rw [filterFrom_of_ge _ hlt]
    exact Nat.le_add_right _ _

/-- More fuel does not change how a loop ends. -/
theorem filterFrom_more (fuel k : ℕ) {s : FilterState δ} {N : ℕ}
    (h : (filterFrom rpc topicHashes endBlock fuel s).StopsBy N) :
    filterFrom rpc topicHashes endBlock (fuel + k) s =
      filterFrom rpc topicHashes endBlock fuel s := by
  induction fuel generalizing s with
  | zero => exact h.elim
  | succ fuel ih =>
    rw [Nat.succ_add]
    by_cases hlt : s.i < endBlock
    · cases hchunk : filterChunk rpc topicHashes endBlock s with
      | next s₁ =>
        rw [filterFrom_next _ hlt hchunk] at h ⊢
        rw [filterFrom_next _ hlt hchunk]
        exact ih h
      | threw e => rw [filterFrom_threw _ hlt hchunk, filterFrom_threw _ hlt hchunk]
    · rw [filterFrom_of_ge _ hlt, filterFrom_of_ge _ hlt]

end

/-! ## The waiting time -/

/-- A waiting time: a power of two from 2 to 32 seconds. -/
def Backoff (seconds : ℕ) : Prop := ∃ j, 1 ≤ j ∧ j ≤ 5 ∧ seconds = 2 ^ j

/-- The number of errors without `413` that make the loop throw. -/
def attemptsLeft (seconds : ℕ) : ℕ := 6 - Nat.log 2 seconds

theorem backoff_two : Backoff 2 := ⟨1, le_refl _, by decide, rfl⟩

theorem Backoff.double {w : ℕ} (hw : Backoff w) (hlt : w < 32) :
    Backoff (w * 2) ∧ attemptsLeft (w * 2) + 1 = attemptsLeft w := by
  obtain ⟨j, hj, hj', rfl⟩ := hw
  have hfour : j < 5 := by
    by_contra hge
    obtain rfl : j = 5 := by omega
    omega
  refine ⟨⟨j + 1, by omega, hfour, (pow_succ _ _).symm⟩, ?_⟩
  rw [attemptsLeft, attemptsLeft, ← pow_succ, Nat.log_pow one_lt_two, Nat.log_pow one_lt_two]
  omega

theorem Backoff.last {w : ℕ} (hw : Backoff w) (hge : ¬ w < 32) : w = 32 ∧ attemptsLeft w = 1 := by
  obtain ⟨j, hj, hj', rfl⟩ := hw
  have hle : 2 ^ 5 ≤ 2 ^ j := not_lt.1 hge
  obtain rfl : j = 5 := le_antisymm hj' ((Nat.pow_le_pow_iff_right one_lt_two).1 hle)
  exact ⟨rfl, by rw [attemptsLeft, Nat.log_pow one_lt_two]⟩

theorem Backoff.attemptsLeft_pos {w : ℕ} (hw : Backoff w) : 0 < attemptsLeft w := by
  obtain ⟨j, hj, hj', rfl⟩ := hw
  rw [attemptsLeft, Nat.log_pow one_lt_two]
  omega

theorem backoff_onError {error : RpcError} {s s' : FilterState δ}
    (h : onError error s = .next s') (hs : Backoff s.lastWaitSeconds) :
    Backoff s'.lastWaitSeconds := by
  unfold onError at h
  split at h
  · cases h
    exact hs
  · split at h
    · cases h
      by_cases hlt : s.lastWaitSeconds < 32
      · have hdouble := (hs.double hlt).1
        obtain ⟨j, -, hj, hw⟩ := hdouble
        have hle : s.lastWaitSeconds * 2 ≤ maxWaitSeconds :=
          hw ▸ Nat.pow_le_pow_right two_pos hj
        simpa only [min_eq_left hle] using (hs.double hlt).1
      · obtain ⟨hmax, -⟩ := hs.last hlt
        simp only [hmax] at hs ⊢
        exact hs
    · split at h
      · rename_i hbelow
        cases h
        exact (hs.double hbelow).1
      · cases h

theorem backoff_filterChunk {rpc : Rpc δ} {topicHashes : List String} {endBlock : ℕ}
    {s s' : FilterState δ} (h : filterChunk rpc topicHashes endBlock s = .next s')
    (hs : Backoff s.lastWaitSeconds) : Backoff s'.lastWaitSeconds := by
  unfold filterChunk at h
  split at h
  · exact backoff_onError h hs
  · -- a successful query resets the waiting time
    simp only at h
    split at h
    · cases h
      exact backoff_two
    · exact backoff_onError h backoff_two

theorem backoff_stateAt {rpc : Rpc δ} {topicHashes : List String} {endBlock : ℕ} (n : ℕ)
    {s s' : FilterState δ} (h : stateAt rpc topicHashes endBlock n s = some s')
    (hs : Backoff s.lastWaitSeconds) : Backoff s'.lastWaitSeconds := by
  induction n generalizing s with
  | zero =>
    rw [stateAt] at h
    split at h
    · cases h
      exact hs
    · cases h
  | succ n ih =>
    rw [stateAt] at h
    split at h
    · split at h
      · rename_i s₁ hchunk
        exact ih h (backoff_filterChunk hchunk hs)
      · cases h
    · cases h

/-! ## A node that keeps failing -/

/-- From query `N` on every query fails, and not for a rate limit. -/
def Rpc.FailsFrom (rpc : Rpc δ) (N : ℕ) : Prop :=
  ∀ n ≥ N, ∃ e, rpc.queryFails n = some e ∧ isRateLimitError e = false

/-- An error whose message does not name the code `413`. -/
def countsAsAttempt (outcome : Option RpcError) : Bool :=
  outcome.any fun e => !includes (formatErrorMessage e) "413"

/-- How many of the outcomes of the `n` queries from `N` on count. -/
def countedErrors (queryFails : ℕ → Option RpcError) (N n : ℕ) : ℕ :=
  Nat.count (fun k => countsAsAttempt (queryFails (N + k))) n

theorem countedErrors_succ (queryFails : ℕ → Option RpcError) (N n : ℕ) :
    countedErrors queryFails N (n + 1) =
      countedErrors queryFails (N + 1) n + if countsAsAttempt (queryFails N) then 1 else 0 := by
  rw [countedErrors, Nat.count_succ', countedErrors]
  simp only [Nat.add_zero, Nat.add_assoc, Nat.add_comm 1]

section

variable {rpc : Rpc δ} {topicHashes : List String} {endBlock : ℕ}

/-- An iteration on a failing node: it stays at its block, and an error that counts uses up an
attempt, the last one by throwing. -/
theorem filterChunk_fails {s : FilterState δ} {e : RpcError}
    (hfails : rpc.queryFails s.queries = some e) (hrate : isRateLimitError e = false)
    (hs : Backoff s.lastWaitSeconds) :
    (∃ s', filterChunk rpc topicHashes endBlock s = .next s' ∧ s'.i = s.i ∧
        s'.queries = s.queries + 1 ∧ Backoff s'.lastWaitSeconds ∧
        attemptsLeft s'.lastWaitSeconds +
          (if countsAsAttempt (rpc.queryFails s.queries) then 1 else 0) =
            attemptsLeft s.lastWaitSeconds) ∨
      filterChunk rpc topicHashes endBlock s = .threw e ∧
        countsAsAttempt (rpc.queryFails s.queries) ∧ attemptsLeft s.lastWaitSeconds = 1 := by
  have hchunk : filterChunk rpc topicHashes endBlock s =
      onError e { s with queries := s.queries + 1 } := by
    simp only [filterChunk, hfails]
  rw [hchunk, hfails]
  by_cases h413 : includes (formatErrorMessage e) "413"
  · left
    refine ⟨_, if_pos h413, rfl, rfl, hs, ?_⟩
    simp [countsAsAttempt, h413]
  · have hcounts : countsAsAttempt (some e) = true := by simp [countsAsAttempt, h413]
    rw [onError, if_neg h413, if_neg (by simp [hrate])]
    by_cases hlt : s.lastWaitSeconds < 32
    · left
      obtain ⟨hdouble, hleft⟩ := hs.double hlt
      exact ⟨_, if_pos hlt, rfl, rfl, hdouble, by rw [if_pos hcounts, hleft]⟩
    · right
      exact ⟨if_neg hlt, hcounts, (hs.last hlt).2⟩

/-- **The retries on a failing node.**  The loop throws if and only if enough of the errors
count. -/
theorem filterFrom_threw_iff {s : FilterState δ} (hlt : s.i < endBlock)
    (hfails : rpc.FailsFrom s.queries) (hs : Backoff s.lastWaitSeconds) (N : ℕ) :
    (∃ fuel, (filterFrom rpc topicHashes endBlock fuel s).StopsBy N) ↔
      ∃ n, attemptsLeft s.lastWaitSeconds ≤ countedErrors rpc.queryFails s.queries n := by
  constructor
  · rintro ⟨fuel, hstops⟩
    induction fuel generalizing s with
    | zero => exact hstops.elim
    | succ fuel ih =>
      obtain ⟨e, he, hrate⟩ := hfails _ (le_refl _)
      rcases filterChunk_fails he hrate hs with ⟨s', hnext, hi, hqueries, hs', hleft⟩ |
        ⟨hthrew, hcounts, hleft⟩
      · rw [filterFrom_next _ hlt hnext] at hstops
        obtain ⟨n, hn⟩ := ih (hi ▸ hlt) (fun m hm => hfails m (by omega)) hs' hstops
        refine ⟨n + 1, ?_⟩
        rw [countedErrors_succ, ← hqueries, ← hleft]
        exact Nat.add_le_add_right hn _
      · refine ⟨1, ?_⟩
        rw [countedErrors_succ, if_pos hcounts, hleft]
        exact Nat.le_add_left _ _
  · rintro ⟨n, hn⟩
    induction n generalizing s with
    | zero =>
      have hpos := hs.attemptsLeft_pos
      rw [countedErrors, Nat.count_zero] at hn
      omega
    | succ n ih =>
      obtain ⟨e, he, hrate⟩ := hfails _ (le_refl _)
      rcases filterChunk_fails he hrate hs with ⟨s', hnext, hi, hqueries, hs', hleft⟩ |
        ⟨hthrew, hcounts, hleft⟩
      · rw [countedErrors_succ, ← hqueries, ← hleft] at hn
        obtain ⟨fuel, hstops⟩ := ih (hi ▸ hlt) (fun m hm => hfails m (by omega)) hs'
          (Nat.le_of_add_le_add_right hn)
        refine ⟨fuel + 1, ?_⟩
        rwa [filterFrom_next _ hlt hnext]
      · refine ⟨1, ?_⟩
        rw [filterFrom_threw _ hlt hthrew]
        trivial

end

/-- **When the filterer gives up.**  From query `N` on the node fails, and not for a rate limit.
The filterer throws, or has returned before, if and only if, should it come to query `N` at all,
it meets at least as many errors without `413` as its waiting time then allows. -/
theorem genericFilterer_stops_iff (rpc : Rpc δ) (topicHashes : List String)
    (fromBlock endBlock : ℕ) {N : ℕ} (hfails : rpc.FailsFrom N) :
    (∃ fuel, (genericFilterer rpc topicHashes fuel fromBlock endBlock).StopsBy N) ↔
      ∀ s, stateAt rpc topicHashes endBlock N (FilterState.init fromBlock) = some s →
        ∃ n, attemptsLeft s.lastWaitSeconds ≤ countedErrors rpc.queryFails N n := by
  cases hstate : stateAt rpc topicHashes endBlock N (FilterState.init fromBlock) with
  | none =>
    obtain ⟨fuel, hstops⟩ := stops_of_stateAt_none N hstate
    refine iff_of_true ⟨fuel, ?_⟩ fun s hs => nomatch hs
    rwa [FilterState.init, Nat.zero_add] at hstops
  | some s =>
    obtain ⟨hqueries, hlt⟩ := stateAt_queries N hstate
    have hN : s.queries = N := hqueries.trans (Nat.zero_add N)
    have htail : (∃ fuel, (filterFrom rpc topicHashes endBlock fuel s).StopsBy N) ↔ _ :=
      filterFrom_threw_iff hlt (hN.symm ▸ hfails) (backoff_stateAt N hstate backoff_two) N
    rw [hN] at htail
    have hfrom : (∃ fuel, (genericFilterer rpc topicHashes fuel fromBlock endBlock).StopsBy N) ↔
        ∃ fuel, (filterFrom rpc topicHashes endBlock fuel s).StopsBy N := by
      constructor
      · rintro ⟨fuel, hstops⟩
        refine ⟨fuel, ?_⟩
        rw [← filterFrom_stateAt N fuel hstate, Nat.add_comm, filterFrom_more fuel N hstops]
        exact hstops
      · rintro ⟨fuel, hstops⟩
        refine ⟨N + fuel, ?_⟩
        rwa [genericFilterer, filterFrom_stateAt N fuel hstate]
    rw [hfrom, htail]
    constructor
    · rintro hcount _ hs
      cases hs
      exact hcount
    · intro hcount
      exact hcount s rfl

/-- A node that fails from the first query on. -/
def failingRpc (message : ℕ → String) : Rpc Unit where
  history := []
  timestamp := id
  queryFails n := some ⟨message n, none, none, none⟩
  getBlockFails _ _ := none

theorem failingRpc_fails {message : ℕ → String}
    (h : ∀ n, isRateLimitError ⟨message n, none, none, none⟩ = false) (N : ℕ) :
    (failingRpc message).FailsFrom N := fun n _ => ⟨_, rfl, h n⟩

/-- With an ordinary error the law is met after five attempts. -/
theorem timeouts_stop :
    ∃ fuel, (genericFilterer (failingRpc fun _ => "timeout") [] fuel 0 10).StopsBy 0 :=
  (genericFilterer_stops_iff _ _ _ _ (failingRpc_fails (fun _ => by decide) 0)).2 fun s hs => by
    cases hs
    exact ⟨5, by decide⟩

/-- An error `413` at every query: no number of iterations brings the loop to an end. -/
theorem tooLarge_forever :
    (failingRpc fun _ => "413 Payload Too Large").FailsFrom 0 ∧
      ∀ fuel, genericFilterer (failingRpc fun _ => "413 Payload Too Large") [] fuel 0 10 =
        .outOfFuel := by
  have hfails : (failingRpc fun _ => "413 Payload Too Large").FailsFrom 0 :=
    failingRpc_fails (fun _ => by decide) 0
  refine ⟨hfails, fun fuel => ?_⟩
  have hnone : ∀ n, countedErrors (failingRpc fun _ => "413 Payload Too Large").queryFails 0 n =
      0 := by
    intro n
    have huncounted : countsAsAttempt (some ⟨"413 Payload Too Large", none, none, none⟩) =
        false := by decide
    simp [countedErrors, failingRpc, huncounted]
  have hruns : ∀ N, ¬ (genericFilterer (failingRpc fun _ => "413 Payload Too Large") [] fuel 0
      10).StopsBy N := by
    intro N hstops
    obtain ⟨n, hn⟩ := (filterFrom_threw_iff (by decide) hfails backoff_two N).1 ⟨fuel, hstops⟩
    exact absurd (hn.trans_eq (hnone n)) (by decide)
  cases hresult : genericFilterer (failingRpc fun _ => "413 Payload Too Large") [] fuel 0 10 with
  | outOfFuel => rfl
  | threw e => exact (hruns 0 (by rw [hresult]; trivial)).elim
  | returned s => exact (hruns s.queries (by rw [hresult]; exact le_refl _)).elim

end TraderBackend
