import TraderBackend.History.LongIdAlignment

/-!
# An insert whose database calls fail

`insertPerpetualLongId` makes up to four calls, and any of them may fail.  The first
one stands outside the `try`, the others inside it, where an error is only logged.

* `insert_unchanged_iff` — a failed insert leaves the table as it was **if and only if**
  it is not the creation of the row that fails after a predecessor has been closed.
* `create_fails_no_row` — the closed predecessor is not opened again by the alignment.
-/

namespace TraderBackend

section

variable {t : LongIdTable} {e : SetOraclesLog} {k : ℕ} {fails : InsertCall → Bool}

/-! ## When a failure leaves no trace -/

/-- The creation fails when an open row of the perpetual has just been closed: the calls before
it succeed, the transaction has no row yet, and the event has a valid date other than the far
date. -/
def FailsBetween (fails : InsertCall → Bool) (t : LongIdTable) (e : SetOraclesLog) : Prop :=
  (fails .findByHash = false ∧ fails .findPredecessor = false ∧ fails .update = false ∧
    fails .create = true) ∧
    t.get? e.key = none ∧
    ∃ currDate, e.currDate = some currDate ∧ currDate ≠ farDate ∧
      openRows t e.event.perpetualId currDate ≠ []

theorem predecessor_isSome_iff {perpetualId currDate : ℕ} :
    (predecessor t perpetualId currDate k).isSome = true ↔
      openRows t perpetualId currDate ≠ [] := by
  constructor
  · intro h hnil
    rw [predecessor, hnil] at h
    cases h
  · intro h
    obtain ⟨row, hrow⟩ := List.exists_mem_of_ne_nil _ h
    obtain ⟨txHash, hpred⟩ := exists_predecessor (k := k) hrow
    rw [hpred]
    rfl

/-- Closing the predecessor changes the table, unless it is closed at the far date. -/
theorem closePredecessor_eq_iff {perpetualId currDate : ℕ} :
    closePredecessor t perpetualId currDate k = t ↔
      currDate = farDate ∨ openRows t perpetualId currDate = [] := by
  cases hpred : predecessor t perpetualId currDate k with
  | none =>
    have hnone : openRows t perpetualId currDate = [] := by
      by_contra hne
      have hsome := predecessor_isSome_iff (k := k).2 hne
      rw [hpred] at hsome
      cases hsome
    refine iff_of_true ?_ (Or.inr hnone)
    rw [closePredecessor, hpred]
  | some txHash =>
    have hopen : openRows t perpetualId currDate ≠ [] :=
      predecessor_isSome_iff (k := k).1 (by rw [hpred]; rfl)
    obtain ⟨row, hrow, -, -, hto⟩ := predecessor_open hpred
    rw [or_iff_left hopen]
    constructor
    · intro heq
      have hclosed := get?_closePredecessor (t := t) perpetualId currDate k txHash
      rw [heq, hrow, Option.map_some, if_pos hpred] at hclosed
      rw [← hto, Option.some.inj hclosed]
    · rintro rfl
      have hsame : { row with validTo := farDate } = row := by
        rw [← hto]
      rw [closePredecessor, hpred]
      simp only [OrdMap.update, hrow, Option.elim_some, hsame]
      exact OrdMap.set_of_get? hrow

/-- The run that fails between the two writes. -/
theorem insertPerpetualLongId_of_failsBetween {currDate : ℕ} (hfind : fails .findByHash = false)
    (hquery : fails .findPredecessor = false) (hupdate : fails .update = false)
    (hcreate : fails .create = true) (hnone : t.get? e.key = none)
    (hdate : e.currDate = some currDate) :
    insertPerpetualLongId fails t e k =
      (closePredecessor t e.event.perpetualId currDate k, some .create) := by
  simp [insertPerpetualLongId, hfind, hnone, hdate, hquery, hupdate, hcreate]

/-- **When a failed insert changes nothing.**  For every table, every event and every pattern of
failing calls. -/
theorem insert_unchanged_iff (fails : InsertCall → Bool) (t : LongIdTable) (e : SetOraclesLog)
    (k : ℕ) :
    ((insertPerpetualLongId fails t e k).2 ≠ none → (insertPerpetualLongId fails t e k).1 = t) ↔
      ¬ FailsBetween fails t e := by
  constructor
  · rintro h ⟨⟨hfind, hquery, hupdate, hcreate⟩, hnone, currDate, hdate, hfar, hopen⟩
    have hrun := insertPerpetualLongId_of_failsBetween (k := k) hfind hquery hupdate hcreate hnone
      hdate
    rw [hrun] at h
    rcases closePredecessor_eq_iff.1 (h (by simp)) with heq | hnil
    · exact hfar heq
    · exact hopen hnil
  · intro hnot hfails
    unfold insertPerpetualLongId at hfails ⊢
    by_cases hfind : fails .findByHash = true
    · rw [if_pos hfind]
    rw [if_neg hfind] at hfails ⊢
    by_cases hexists : (t.get? e.key).isSome = true
    · rw [if_pos hexists]
    rw [if_neg hexists] at hfails ⊢
    cases hdate : e.currDate with
    | none => rfl
    | some currDate =>
      rw [hdate] at hfails
      simp only at hfails ⊢
      by_cases hquery : fails .findPredecessor = true
      · rw [if_pos hquery]
      rw [if_neg hquery] at hfails ⊢
      split
      · rfl
      · rename_i hupdate
        rw [if_neg hupdate] at hfails
        by_cases hcreate : fails .create = true
        · -- the predecessor, if there is one, has been closed
          rw [if_pos hcreate]
          refine closePredecessor_eq_iff.2 (or_iff_not_imp_left.2 fun hfar => ?_)
          by_contra hopen
          rw [predecessor_isSome_iff.2 hopen, Bool.true_and] at hupdate
          exact hnot ⟨⟨by simpa using hfind, by simpa using hquery, by simpa using hupdate,
            hcreate⟩, by simpa using hexists, currDate, hdate, hfar, hopen⟩
        · rw [if_neg hcreate] at hfails
          exact (hfails rfl).elim

end

/-! ## The lost row -/

/-- The table after the first oracle change of a perpetual. -/
def firstOracle : LongIdTable :=
  recordSetOracles
    [(⟨⟨100001, ("0x42544300", "0x55534400"), ("0x00000000", "0x00000000")⟩, "0xaa",
      1700000000⟩, 0)]

/-- Its second one. -/
def secondOracle : SetOraclesLog :=
  ⟨⟨100001, ("0x45544800", "0x55534400"), ("0x00000000", "0x00000000")⟩, "0xbb", 1700003600⟩

/-- The creation of its row fails: the perpetual has no row for its trades from then on, and the
alignment does not open one. -/
theorem create_fails_no_row :
    let r := insertPerpetualLongId (fun call => decide (call = .create)) firstOracle secondOracle 0
    r.2 = some .create ∧ r.1 ≠ firstOracle ∧
      longIdsAt firstOracle 100001 1700010000000 ≠ [] ∧ longIdsAt r.1 100001 1700010000000 = [] ∧
        longIdsAt (alignTimestamps leastChoice r.1) 100001 1700010000000 = [] := by
  intro r
  refine ⟨by decide, fun h => ?_, by decide, by decide, by decide⟩
  have hrow := congrArg (fun t : LongIdTable => longIdsAt t 100001 1700010000000) h
  revert hrow
  decide

end TraderBackend
