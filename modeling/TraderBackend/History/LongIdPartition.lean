import TraderBackend.History.LongId

/-!
# When the intervals partition time

Any number of `SetOracles` inserts interleave on an empty table, then
`alignTimestamps` runs once.

* `RowsOfLogs` — the invariant of the table: every row is that of an event, and
  its interval is open or ends at a later event of the same perpetual.
* `insertOutline` — the proof outline of the inserts, one assertion for each
  place an insert can stand at.
* `longIds_partition_iff` — every alignment partitions time **if and only if**
  no two events of a perpetual carry the same timestamp: the alignment joins
  back on `valid_from`, so rows with equal starts close each other.
-/

namespace TraderBackend

variable {ι : Type*} (logs : ι → SetOraclesLog)

/-! ## The table during the inserts -/

/-- A row of event `i` whose interval is open or ends at a later event. -/
structure RowOf (i : ι) (row : PerpetualLongId) : Prop where
  perpetualId : row.perpetualId = (logs i).event.perpetualId
  validFrom : (logs i).currDate = some row.validFrom
  validTo : row.validTo = farDate ∨ ∃ j date, (logs j).currDate = some date ∧
    (logs j).event.perpetualId = (logs i).event.perpetualId ∧ row.validFrom < date ∧
    row.validTo = date

/-- Every row is that of an event. -/
def RowsOfLogs (t : LongIdTable) : Prop :=
  ∀ key row, t.get? key = some row → ∃ i, key = (logs i).key ∧ RowOf logs i row

/-- What is known where insert `i` stands. -/
def InsertHolds (i : ι) : InsertAt → LongIdTable → Prop
  | .findByHash, t => t.get? (logs i).key = none
  | .findPredecessor, t => t.get? (logs i).key = none
  | .closePredecessor txHash currDate, t =>
      t.get? (logs i).key = none ∧ (logs i).currDate = some currDate ∧
        ∃ row, t.get? txHash = some row ∧ row.perpetualId = (logs i).event.perpetualId ∧
          row.validFrom < currDate
  | .create currDate, t => t.get? (logs i).key = none ∧ (logs i).currDate = some currDate
  | .done, t => (logs i).currDate = none ∨ ∃ row, t.get? (logs i).key = some row

variable {logs}

/-- The predecessor is a row of the perpetual that starts earlier. -/
theorem predecessor_mem {t : LongIdTable} {perpetualId currDate k : ℕ} {txHash : String}
    (h : predecessor t perpetualId currDate k = some txHash) :
    ∃ row, t.get? txHash = some row ∧ row.perpetualId = perpetualId ∧ row.validFrom < currDate := by
  obtain ⟨⟨key, row⟩, hget, rfl⟩ := Option.map_eq_some_iff.1 h
  have hmem := List.mem_of_getElem? hget
  have hopen := (List.mem_filter.1 hmem).1
  rw [openRows, List.mem_filter, decide_eq_true_eq] at hopen
  exact ⟨row, OrdMap.get?_eq_some.2 hopen.1, hopen.2.2.2, hopen.2.2.1⟩

/-- What a step can do to the table: nothing, close a row that starts earlier, or add the
row of its event. -/
theorem insertStep_cases {e : SetOraclesLog} {k : ℕ} {t t' : LongIdTable} {l l' : InsertAt}
    (h : insertStep e k t l = some (t', l')) :
    t' = t ∨
      (∃ txHash currDate row, l = .closePredecessor txHash currDate ∧ t.get? txHash = some row ∧
        t' = t.set txHash { row with validTo := currDate }) ∨
      ∃ currDate, l = .create currDate ∧ t.get? e.key = none ∧
        t' = t.set e.key (e.row currDate) := by
  cases l with
  | findByHash =>
    simp only [insertStep, Option.some.injEq, Prod.mk.injEq] at h
    exact Or.inl h.1.symm
  | findPredecessor =>
    simp only [insertStep] at h
    split at h
    · exact Or.inl (Prod.mk.inj (Option.some.inj h)).1.symm
    · split at h <;> exact Or.inl (Prod.mk.inj (Option.some.inj h)).1.symm
  | closePredecessor txHash currDate =>
    simp only [insertStep] at h
    split at h
    · exact Or.inl (Prod.mk.inj (Option.some.inj h)).1.symm
    · rename_i row hrow
      exact Or.inr (Or.inl ⟨txHash, currDate, row, rfl, hrow,
        (Prod.mk.inj (Option.some.inj h)).1.symm⟩)
  | create currDate =>
    simp only [insertStep] at h
    split at h
    · exact Or.inl (Prod.mk.inj (Option.some.inj h)).1.symm
    · rename_i hnone
      refine Or.inr (Or.inr ⟨currDate, rfl, ?_, (Prod.mk.inj (Option.some.inj h)).1.symm⟩)
      simpa using hnone
  | done => simp [insertStep] at h

/-- A row that is there stays there, with its perpetual and its start; a missing row of
another event stays missing. -/
theorem insertStep_frame {e : SetOraclesLog} {k : ℕ} {t t' : LongIdTable} {l l' : InsertAt}
    (h : insertStep e k t l = some (t', l')) :
    (∀ key row, t.get? key = some row → ∃ row', t'.get? key = some row' ∧
        row'.perpetualId = row.perpetualId ∧ row'.validFrom = row.validFrom) ∧
      ∀ key, key ≠ e.key → t.get? key = none → t'.get? key = none := by
  rcases insertStep_cases h with rfl | ⟨txHash, currDate, row₀, -, hrow₀, rfl⟩ |
    ⟨currDate, -, hnone, rfl⟩
  · exact ⟨fun key row hrow => ⟨row, hrow, rfl, rfl⟩, fun key _ hkey => hkey⟩
  · constructor
    · intro key row hrow
      rw [OrdMap.get?_set]
      by_cases hk : txHash = key
      · subst hk
        rw [hrow₀] at hrow
        obtain rfl := Option.some.inj hrow
        exact ⟨_, if_pos rfl, rfl, rfl⟩
      · exact ⟨row, by rw [if_neg hk]; exact hrow, rfl, rfl⟩
    · intro key _ hkey
      have hk : txHash ≠ key := by rintro rfl; rw [hrow₀] at hkey; exact absurd hkey (by simp)
      rw [OrdMap.get?_set_ne _ _ hk]
      exact hkey
  · constructor
    · intro key row hrow
      have hk : e.key ≠ key := by rintro rfl; rw [hnone] at hrow; exact absurd hrow (by simp)
      exact ⟨row, by rw [OrdMap.get?_set_ne _ _ hk]; exact hrow, rfl, rfl⟩
    · intro key hne hkey
      rw [OrdMap.get?_set_ne _ _ (Ne.symm hne)]
      exact hkey

/-- A step keeps the rows those of events. -/
theorem rowsOfLogs_step {i : ι} {k : ℕ} {t t' : LongIdTable} {l l' : InsertAt}
    (h : insertStep (logs i) k t l = some (t', l')) (hinv : RowsOfLogs logs t)
    (hholds : InsertHolds logs i l t) : RowsOfLogs logs t' := by
  rcases insertStep_cases h with rfl | ⟨txHash, currDate, row₀, rfl, hrow₀, rfl⟩ |
    ⟨currDate, rfl, -, rfl⟩
  · exact hinv
  · obtain ⟨-, hdate, row₁, hrow₁, hperp, hlt⟩ := hholds
    rw [hrow₀] at hrow₁
    obtain rfl := Option.some.inj hrow₁
    intro key row hrow
    rcases OrdMap.get?_set_cases hrow with ⟨rfl, rfl⟩ | hold
    · obtain ⟨j, hkey, hj⟩ := hinv txHash row₀ hrow₀
      exact ⟨j, hkey, hj.perpetualId, hj.validFrom,
        Or.inr ⟨i, currDate, hdate, hperp.symm.trans hj.perpetualId, hlt, rfl⟩⟩
    · exact hinv key row hold
  · intro key row hrow
    rcases OrdMap.get?_set_cases hrow with ⟨hkey, rfl⟩ | hold
    · exact ⟨i, hkey.symm, rfl, hholds.2, Or.inl rfl⟩
    · exact hinv key row hold

/-- A step establishes the assertion of the place it leads to. -/
theorem insertHolds_step {i : ι} {k : ℕ} {t t' : LongIdTable} {l l' : InsertAt}
    (h : insertStep (logs i) k t l = some (t', l')) (hholds : InsertHolds logs i l t) :
    InsertHolds logs i l' t' := by
  cases l with
  | findByHash =>
    simp only [InsertHolds] at hholds
    simp only [insertStep, hholds, Option.isSome_none, Bool.false_eq_true, if_false,
      Option.some.injEq, Prod.mk.injEq] at h
    obtain ⟨rfl, rfl⟩ := h
    exact hholds
  | findPredecessor =>
    simp only [insertStep] at h
    cases hdate : (logs i).currDate with
    | none =>
      rw [hdate] at h
      obtain ⟨rfl, rfl⟩ := Prod.mk.inj (Option.some.inj h)
      exact Or.inl hdate
    | some currDate =>
      rw [hdate] at h
      simp only at h
      cases hpred : predecessor t (logs i).event.perpetualId currDate k with
      | none =>
        rw [hpred] at h
        obtain ⟨rfl, rfl⟩ := Prod.mk.inj (Option.some.inj h)
        exact ⟨hholds, hdate⟩
      | some txHash =>
        rw [hpred] at h
        obtain ⟨rfl, rfl⟩ := Prod.mk.inj (Option.some.inj h)
        exact ⟨hholds, hdate, predecessor_mem hpred⟩
  | closePredecessor txHash currDate =>
    obtain ⟨hnone, hdate, row, hrow, -, -⟩ := hholds
    simp only [insertStep, hrow, Option.some.injEq, Prod.mk.injEq] at h
    obtain ⟨rfl, rfl⟩ := h
    have hk : txHash ≠ (logs i).key := by
      rintro rfl; rw [hrow] at hnone; exact absurd hnone (by simp)
    exact ⟨by rw [OrdMap.get?_set_ne _ _ hk]; exact hnone, hdate⟩
  | create currDate =>
    simp only [insertStep, hholds.1, Option.isSome_none, Bool.false_eq_true, if_false,
      Option.some.injEq, Prod.mk.injEq] at h
    obtain ⟨rfl, rfl⟩ := h
    exact Or.inr ⟨_, OrdMap.get?_set_self _ _ _⟩
  | done => simp [insertStep] at h

/-- A step does not disturb what another insert knows. -/
theorem insertHolds_frame {i j : ι} {k : ℕ} {t t' : LongIdTable} {l l' m : InsertAt}
    (hkey : (logs j).key ≠ (logs i).key) (h : insertStep (logs i) k t l = some (t', l'))
    (hholds : InsertHolds logs j m t) : InsertHolds logs j m t' := by
  obtain ⟨hkept, hmissing⟩ := insertStep_frame h
  cases m with
  | findByHash => exact hmissing _ hkey hholds
  | findPredecessor => exact hmissing _ hkey hholds
  | closePredecessor txHash currDate =>
    obtain ⟨hnone, hdate, row, hrow, hperp, hlt⟩ := hholds
    obtain ⟨row', hrow', hperp', hfrom'⟩ := hkept txHash row hrow
    exact ⟨hmissing _ hkey hnone, hdate, row', hrow', hperp'.trans hperp, hfrom'.symm ▸ hlt⟩
  | create currDate => exact ⟨hmissing _ hkey hholds.1, hholds.2⟩
  | done =>
    rcases hholds with hdate | ⟨row, hrow⟩
    · exact Or.inl hdate
    · obtain ⟨row', hrow', -⟩ := hkept _ row hrow
      exact Or.inr ⟨row', hrow'⟩

/-- The proof outline of the inserts. -/
theorem insertOutline (hkeys : Function.Injective fun i => (logs i).key) :
    (insertTasks logs).Outline (RowsOfLogs logs) (InsertHolds logs) where
  step := by
    intro i k t l t' l' h hinv hholds
    exact ⟨rowsOfLogs_step h hinv hholds, insertHolds_step h hholds⟩
  frame := by
    intro i k t l t' l' j m hij h _ _ hholds
    exact insertHolds_frame (fun hc => hij (hkeys hc.symm)) h hholds

/-- When all inserts are done: every event with a valid date has its row. -/
theorem rows_after_inserts [DecidableEq ι] (hkeys : Function.Injective fun i => (logs i).key)
    {schedule : List (ι × ℕ)} {c : Tasks.Config ι LongIdTable InsertAt}
    (hrun : (insertTasks logs).run schedule insertStart = some c)
    (hdone : ∀ i, c.locals i = .done) :
    RowsOfLogs logs c.shared ∧
      ∀ i date, (logs i).currDate = some date → ∃ row, c.shared.get? (logs i).key = some row ∧
        RowOf logs i row := by
  have hstart : RowsOfLogs logs (insertStart : Tasks.Config ι LongIdTable InsertAt).shared := by
    intro key row h
    simp [insertStart] at h
  obtain ⟨hinv, hall⟩ := (insertOutline hkeys).run hstart (fun i => rfl) hrun
  refine ⟨hinv, fun i date hdate => ?_⟩
  have hi := hall i
  rw [hdone i] at hi
  rcases hi with hnone | ⟨row, hrow⟩
  · rw [hdate] at hnone; exact absurd hnone (by simp)
  · obtain ⟨j, hkey, hj⟩ := hinv _ row hrow
    obtain rfl : i = j := hkeys hkey
    exact ⟨row, hrow, hj⟩

/-! ## The alignment -/

section

variable {t : LongIdTable}

theorem mem_validFroms {perpetualId x : ℕ} :
    x ∈ validFroms t perpetualId ↔
      ∃ key row, t.get? key = some row ∧ row.perpetualId = perpetualId ∧ row.validFrom = x := by
  simp only [validFroms, List.mem_insertionSort, List.mem_map, List.mem_filter, decide_eq_true_eq]
  constructor
  · rintro ⟨⟨key, row⟩, ⟨hmem, hp⟩, hx⟩
    exact ⟨key, row, OrdMap.get?_eq_some.2 hmem, hp, hx⟩
  · rintro ⟨key, row, hget, hp, hx⟩
    exact ⟨(key, row), ⟨OrdMap.get?_eq_some.1 hget, hp⟩, hx⟩

theorem validFroms_sorted (perpetualId : ℕ) : (validFroms t perpetualId).Pairwise (· ≤ ·) :=
  List.pairwise_insertionSort _ _

/-- A start occurs twice exactly when two rows of the perpetual share it. -/
theorem two_le_count_validFroms {perpetualId x : ℕ} :
    2 ≤ (validFroms t perpetualId).count x ↔
      ∃ key row key' row', key ≠ key' ∧ t.get? key = some row ∧ t.get? key' = some row' ∧
        row.perpetualId = perpetualId ∧ row'.perpetualId = perpetualId ∧
        row.validFrom = x ∧ row'.validFrom = x := by
  have hcount : (validFroms t perpetualId).count x = (t.entries.filter fun e =>
      decide (e.2.perpetualId = perpetualId) && decide (e.2.validFrom = x)).length := by
    rw [validFroms, (List.perm_insertionSort _ _).count_eq, List.count, List.countP_map,
      List.countP_filter, List.countP_eq_length_filter]
    refine congrArg List.length (List.filter_congr fun e _ => ?_)
    exact Bool.and_comm _ _
  have hnodup := t.nodup_entries.filter
    fun e => decide (e.2.perpetualId = perpetualId) && decide (e.2.validFrom = x)
  rw [hcount, ← List.toFinset_card_of_nodup hnodup, Nat.succ_le_iff, Finset.one_lt_card]
  simp only [List.mem_toFinset, List.mem_filter, Bool.and_eq_true, decide_eq_true_eq]
  constructor
  · rintro ⟨⟨key, row⟩, ⟨hmem, hp, hx⟩, ⟨key', row'⟩, ⟨hmem', hp', hx'⟩, hne⟩
    refine ⟨key, row, key', row', ?_, OrdMap.get?_eq_some.2 hmem, OrdMap.get?_eq_some.2 hmem',
      hp, hp', hx, hx'⟩
    rintro rfl
    have h1 := OrdMap.get?_eq_some.2 hmem
    rw [OrdMap.get?_eq_some.2 hmem'] at h1
    exact hne (by rw [Option.some.inj h1])
  · rintro ⟨key, row, key', row', hne, hget, hget', hp, hp', hx, hx'⟩
    exact ⟨(key, row), ⟨OrdMap.get?_eq_some.1 hget, hp, hx⟩, (key', row'),
      ⟨OrdMap.get?_eq_some.1 hget', hp', hx'⟩, fun hc => hne (congrArg Prod.fst hc)⟩

theorem mem_nextValidFrom {row : PerpetualLongId} {v : ℕ} :
    v ∈ nextValidFrom t row ↔ (row.validFrom, v) ∈ lead (validFroms t row.perpetualId) := by
  simp [nextValidFrom]

/-- The end of a row after the alignment: one of the starts it is joined with, or its old
end if there is none. -/
theorem alignRow_validTo (choice : JoinChoice) (key : String) (row : PerpetualLongId) :
    (alignRow choice t key row).validTo ∈ nextValidFrom t row ∨
      nextValidFrom t row = [] ∧ (alignRow choice t key row).validTo = row.validTo := by
  unfold alignRow
  by_cases h : nextValidFrom t row = []
  · exact Or.inr ⟨h, by rw [if_pos h]⟩
  · rw [if_neg h]
    exact Or.inl (choice.pick_mem key _ h)

theorem alignRow_same (choice : JoinChoice) (key : String) (row : PerpetualLongId) :
    (alignRow choice t key row).perpetualId = row.perpetualId ∧
      (alignRow choice t key row).validFrom = row.validFrom := by
  unfold alignRow
  split <;> exact ⟨rfl, rfl⟩

/-- The rows the views join after the alignment. -/
theorem mem_longIdsAt_align {choice : JoinChoice} {perpetualId time : ℕ} {key : String}
    {row' : PerpetualLongId} :
    (key, row') ∈ longIdsAt (alignTimestamps choice t) perpetualId time ↔
      ∃ row, t.get? key = some row ∧ row' = alignRow choice t key row ∧
        row.perpetualId = perpetualId ∧ row.validFrom ≤ time ∧ time < row'.validTo := by
  rw [longIdsAt, List.mem_filter, decide_eq_true_eq, ← OrdMap.get?_eq_some, alignTimestamps,
    OrdMap.get?_mapVal]
  constructor
  · rintro ⟨hget, hp, hfrom, hto⟩
    obtain ⟨row, hrow, rfl⟩ := Option.map_eq_some_iff.1 hget
    have hsame := alignRow_same (t := t) choice key row
    exact ⟨row, hrow, rfl, hsame.1 ▸ hp, hsame.2 ▸ hfrom, hto⟩
  · rintro ⟨row, hrow, rfl, hp, hfrom, hto⟩
    have hsame := alignRow_same (t := t) choice key row
    exact ⟨by rw [hrow]; rfl, hsame.1.trans hp, hsame.2 ▸ hfrom, hto⟩

/-- Two rows of a perpetual that start at the same time before the far date. -/
def StartsClash (t : LongIdTable) : Prop :=
  ∃ key row key' row', key ≠ key' ∧ t.get? key = some row ∧ t.get? key' = some row' ∧
    row.perpetualId = row'.perpetualId ∧ row.validFrom = row'.validFrom ∧ row.validFrom < farDate

/-- Every interval is open or ends where another one of the perpetual starts later. -/
def EndsAtStart (t : LongIdTable) : Prop :=
  ∀ key row, t.get? key = some row → row.validTo = farDate ∨
    ∃ key' row', t.get? key' = some row' ∧ row'.perpetualId = row.perpetualId ∧
      row.validFrom < row'.validFrom ∧ row.validTo = row'.validFrom

/-- The intervals partition time: whatever a perpetual's trade time from its first row on,
the views join exactly one row. -/
def Partitions (t : LongIdTable) : Prop :=
  ∀ key row, t.get? key = some row → ∀ time, row.validFrom ≤ time → time < farDate →
    (longIdsAt t row.perpetualId time).length = 1

/-- The end of an aligned interval whose start no other row shares: it lies after the start,
no row starts in between, and it is the far date or the start of a row. -/
theorem alignRow_end (choice : JoinChoice) (hends : EndsAtStart t) (hclash : ¬ StartsClash t)
    {key : String} {row : PerpetualLongId} (hrow : t.get? key = some row)
    (hfar : row.validFrom < farDate) :
    row.validFrom < (alignRow choice t key row).validTo ∧
      (∀ key' row', t.get? key' = some row' → row'.perpetualId = row.perpetualId →
        row'.validFrom ≤ row.validFrom ∨ (alignRow choice t key row).validTo ≤ row'.validFrom) ∧
      ((alignRow choice t key row).validTo = farDate ∨ ∃ key' row', t.get? key' = some row' ∧
        row'.perpetualId = row.perpetualId ∧
        row'.validFrom = (alignRow choice t key row).validTo) := by
  have hsorted := validFroms_sorted (t := t) row.perpetualId
  have hmem : row.validFrom ∈ validFroms t row.perpetualId :=
    mem_validFroms.2 ⟨key, row, hrow, rfl, rfl⟩
  rcases alignRow_validTo (t := t) choice key row with hnext | ⟨hnil, hold⟩
  · have hlead := mem_nextValidFrom.1 hnext
    obtain ⟨-, hv, hle, hgap⟩ := lead_mem hsorted hlead
    -- a row that closed itself would share its start with another one
    have hne : row.validFrom ≠ (alignRow choice t key row).validTo := by
      intro heq
      rw [← heq, lead_self_iff hsorted, two_le_count_validFroms] at hlead
      obtain ⟨k, r, k', r', hkk, hr, hr', hp, hp', hx, hx'⟩ := hlead
      exact hclash ⟨k, r, k', r', hkk, hr, hr', hp.trans hp'.symm, hx.trans hx'.symm, hx ▸ hfar⟩
    refine ⟨lt_of_le_of_ne hle hne, fun key' row' hrow' hp => ?_, ?_⟩
    · exact hgap _ (mem_validFroms.2 ⟨key', row', hrow', hp, rfl⟩)
    · obtain ⟨key', row', hrow', hp, hx⟩ := mem_validFroms.1 hv
      exact Or.inr ⟨key', row', hrow', hp, hx⟩
  · have hlast : ∀ key' row', t.get? key' = some row' → row'.perpetualId = row.perpetualId →
        row'.validFrom ≤ row.validFrom := by
      intro key' row' hrow' hp
      by_contra hc
      obtain ⟨v, hv, -⟩ := exists_lead hsorted hmem
        (mem_validFroms.2 ⟨key', row', hrow', hp, rfl⟩) (not_le.1 hc)
      have := mem_nextValidFrom.2 hv
      rw [hnil] at this
      exact absurd this List.not_mem_nil
    have hopen : row.validTo = farDate := by
      rcases hends key row hrow with h | ⟨key', row', hrow', hp, hlt, -⟩
      · exact h
      · exact absurd (hlast key' row' hrow' hp) (not_le.2 hlt)
    rw [hold, hopen]
    exact ⟨hfar, fun key' row' hrow' hp => Or.inl (hlast key' row' hrow' hp), Or.inl rfl⟩

/-- The row of a perpetual that started last before a time. -/
theorem exists_latest_start {key : String} {row : PerpetualLongId} {time : ℕ}
    (hrow : t.get? key = some row) (htime : row.validFrom ≤ time) :
    ∃ key' row', t.get? key' = some row' ∧ row'.perpetualId = row.perpetualId ∧
      row'.validFrom ≤ time ∧ ∀ k r, t.get? k = some r → r.perpetualId = row.perpetualId →
        r.validFrom ≤ time → r.validFrom ≤ row'.validFrom := by
  have hne : ((t.entries.filter fun e => decide (e.2.perpetualId = row.perpetualId ∧
      e.2.validFrom ≤ time)).toFinset).Nonempty :=
    ⟨(key, row), by simp [OrdMap.get?_eq_some.1 hrow, htime]⟩
  obtain ⟨⟨key', row'⟩, hmem, hmax⟩ := Finset.exists_max_image _ (fun e => e.2.validFrom) hne
  simp only [List.mem_toFinset, List.mem_filter, decide_eq_true_eq] at hmem hmax
  refine ⟨key', row', OrdMap.get?_eq_some.2 hmem.1, hmem.2.1, hmem.2.2, fun k r hr hp hle => ?_⟩
  exact hmax (k, r) ⟨OrdMap.get?_eq_some.1 hr, hp, hle⟩

/-- Without clashing starts the aligned intervals partition time. -/
theorem partitions_of_no_clash (choice : JoinChoice) (hends : EndsAtStart t)
    (hclash : ¬ StartsClash t) : Partitions (alignTimestamps choice t) := by
  intro key₀ row₀' hrow₀' time hfrom hfar
  rw [alignTimestamps, OrdMap.get?_mapVal] at hrow₀'
  obtain ⟨row₀, hrow₀, rfl⟩ := Option.map_eq_some_iff.1 hrow₀'
  rw [(alignRow_same choice key₀ row₀).2] at hfrom
  rw [(alignRow_same choice key₀ row₀).1]
  obtain ⟨key, row, hrow, hp, hle, hmax⟩ := exists_latest_start hrow₀ hfrom
  have hrowfar : row.validFrom < farDate := lt_of_le_of_lt hle hfar
  obtain ⟨hlt, -, hend⟩ := alignRow_end choice hends hclash hrow hrowfar
  have hnodup : (longIdsAt (alignTimestamps choice t) row₀.perpetualId time).Nodup :=
    (OrdMap.nodup_entries _).filter _
  rw [← List.toFinset_card_of_nodup hnodup, Finset.card_eq_one]
  refine ⟨(key, alignRow choice t key row), Finset.eq_singleton_iff_unique_mem.2 ⟨?_, ?_⟩⟩
  · rw [List.mem_toFinset, mem_longIdsAt_align]
    refine ⟨row, hrow, rfl, hp, hle, ?_⟩
    rcases hend with hopen | ⟨key', row', hrow', hp', hx⟩
    · rw [hopen]; exact hfar
    · by_contra hc
      have := hmax key' row' hrow' (hp'.trans hp) (by omega)
      omega
  · rintro ⟨key', row''⟩ hmem
    rw [List.mem_toFinset, mem_longIdsAt_align] at hmem
    obtain ⟨row', hrow', rfl, hp', hle', hend'⟩ := hmem
    have hstart := hmax key' row' hrow' hp' hle'
    have hkey : key' = key := by
      by_contra hne
      rcases Nat.eq_or_lt_of_le hstart with heq | hlt'
      · exact hclash ⟨key', row', key, row, hne, hrow', hrow, hp'.trans hp.symm, heq,
          lt_of_le_of_lt hle' hfar⟩
      · obtain ⟨-, hgap, -⟩ := alignRow_end choice hends hclash hrow' (lt_of_le_of_lt hle' hfar)
        rcases hgap key row hrow (hp.trans hp'.symm) with h | h <;> omega
    subst hkey
    rw [hrow] at hrow'
    rw [Option.some.inj hrow']

/-- The database takes the earliest of the joined starts. -/
def leastChoice : JoinChoice where
  pick _ l := l.min?.getD 0
  pick_mem := by
    intro _ l hl
    cases h : l.min? with
    | none => exact absurd (List.min?_eq_none_iff.1 h) hl
    | some m => exact List.min?_mem h

/-- Rows with one start close each other: at that time no row of the perpetual is valid. -/
theorem no_row_at_clash {key key' : String} {row row' : PerpetualLongId} (hne : key ≠ key')
    (hrow : t.get? key = some row) (hrow' : t.get? key' = some row')
    (hperp : row.perpetualId = row'.perpetualId) (hstart : row.validFrom = row'.validFrom) :
    longIdsAt (alignTimestamps leastChoice t) row.perpetualId row.validFrom = [] := by
  have hsorted := validFroms_sorted (t := t) row.perpetualId
  have hmem : row.validFrom ∈ validFroms t row.perpetualId :=
    mem_validFroms.2 ⟨key, row, hrow, rfl, rfl⟩
  have hself : (row.validFrom, row.validFrom) ∈ lead (validFroms t row.perpetualId) :=
    (lead_self_iff hsorted _).2 (two_le_count_validFroms.2
      ⟨key, row, key', row', hne, hrow, hrow', rfl, hperp.symm, rfl, hstart.symm⟩)
  rw [List.eq_nil_iff_forall_not_mem]
  rintro ⟨k, r'⟩ hin
  obtain ⟨r, hr, rfl, hp, hle, hlt⟩ := mem_longIdsAt_align.1 hin
  -- some start joined with `r` is not after the clash
  obtain ⟨v, hv, hvle⟩ : ∃ v ∈ nextValidFrom t r, v ≤ row.validFrom := by
    rcases Nat.eq_or_lt_of_le hle with heq | hlt'
    · exact ⟨row.validFrom, mem_nextValidFrom.2 (by rw [heq, hp]; exact hself), le_refl _⟩
    · have hrmem : r.validFrom ∈ validFroms t row.perpetualId :=
        mem_validFroms.2 ⟨k, r, hr, hp, rfl⟩
      obtain ⟨v, hv, hrv⟩ := exists_lead hsorted hrmem hmem hlt'
      refine ⟨v, mem_nextValidFrom.2 (by rw [hp]; exact hv), ?_⟩
      rcases (lead_mem hsorted hv).2.2.2 _ hmem with h | h <;> omega
  have hnil : nextValidFrom t r ≠ [] := List.ne_nil_of_mem hv
  have hend : (alignRow leastChoice t k r).validTo ≤ v := by
    have hpick : (alignRow leastChoice t k r).validTo = (nextValidFrom t r).min?.getD 0 := by
      rw [alignRow, if_neg hnil]; rfl
    rw [hpick]
    cases hm : (nextValidFrom t r).min? with
    | none => exact absurd (List.min?_eq_none_iff.1 hm) hnil
    | some m => exact (List.min?_eq_some_iff.1 hm).2 v hv
  omega

end

/-- **When the intervals partition time.**  After any interleaving of the inserts of events
with different transaction hashes, every alignment partitions the time up to the far date
if and only if no two events of a perpetual share a timestamp before that date. -/
theorem longIds_partition_iff [DecidableEq ι] (hkeys : Function.Injective fun i => (logs i).key)
    {schedule : List (ι × ℕ)} {c : Tasks.Config ι LongIdTable InsertAt}
    (hrun : (insertTasks logs).run schedule insertStart = some c)
    (hdone : ∀ i, c.locals i = .done) :
    (∀ choice, Partitions (alignTimestamps choice c.shared)) ↔
      ∀ i j, i ≠ j → (logs i).event.perpetualId = (logs j).event.perpetualId →
        (logs i).blockTimestamp = (logs j).blockTimestamp →
        farDate ≤ (logs i).blockTimestamp * 1000 := by
  obtain ⟨hinv, hrows⟩ := rows_after_inserts hkeys hrun hdone
  have hdate : ∀ i row, RowOf logs i row → row.validFrom = (logs i).blockTimestamp * 1000 := by
    intro i row h
    have := h.validFrom
    unfold SetOraclesLog.currDate newDate at this
    split at this
    · exact (Option.some.inj this).symm
    · exact absurd this (by simp)
  constructor
  · intro hall i j hij hperp htime
    by_contra hfar
    have hvalid : ∀ l, (logs l).blockTimestamp = (logs i).blockTimestamp →
        (logs l).currDate = some ((logs l).blockTimestamp * 1000) := by
      intro l hl
      rw [SetOraclesLog.currDate, newDate, if_pos]
      unfold farDate at hfar
      omega
    obtain ⟨row, hrow, hi⟩ := hrows i _ (hvalid i rfl)
    obtain ⟨row', hrow', hj⟩ := hrows j _ (hvalid j htime.symm)
    have hstart : row.validFrom = row'.validFrom := by
      rw [hdate i row hi, hdate j row' hj, htime]
    have hnone := no_row_at_clash (fun hc => hij (hkeys hc)) hrow hrow'
      (hi.perpetualId.trans (hperp.trans hj.perpetualId.symm)) hstart
    have hsame := alignRow_same (t := c.shared) leastChoice (logs i).key row
    have hone := hall leastChoice (logs i).key (alignRow leastChoice c.shared (logs i).key row)
      (by rw [alignTimestamps, OrdMap.get?_mapVal, hrow]; rfl) row.validFrom hsame.2.le
      (by rw [hdate i row hi]; omega)
    rw [hsame.1, hnone] at hone
    exact absurd hone (by simp)
  · intro hcond choice
    have hends : EndsAtStart c.shared := by
      intro key row hrow
      obtain ⟨i, rfl, hi⟩ := hinv key row hrow
      rcases hi.validTo with hopen | ⟨j, date, hj, hperp, hlt, hto⟩
      · exact Or.inl hopen
      · obtain ⟨row', hrow', hj'⟩ := hrows j date hj
        have hx : row'.validFrom = date := by
          have := hj'.validFrom
          rw [hj] at this
          exact (Option.some.inj this).symm
        exact Or.inr ⟨_, row', hrow', hj'.perpetualId.trans (hperp.trans hi.perpetualId.symm),
          hx ▸ hlt, hto.trans hx.symm⟩
    have hclash : ¬ StartsClash c.shared := by
      rintro ⟨key, row, key', row', hne, hrow, hrow', hperp, hstart, hfar⟩
      obtain ⟨i, rfl, hi⟩ := hinv key row hrow
      obtain ⟨j, rfl, hj⟩ := hinv key' row' hrow'
      rw [hdate i row hi] at hfar
      rw [hdate i row hi, hdate j row' hj] at hstart
      have := hcond i j (fun hc => hne (by rw [hc]))
        (hi.perpetualId.symm.trans (hperp.trans hj.perpetualId)) (by omega)
      omega
    exact partitions_of_no_clash choice hends hclash

/-- Two events of one perpetual in one block. -/
def sameBlock : Fin 2 → SetOraclesLog
  | 0 => ⟨⟨100001, ("0x42544300", "0x55534400"), ("0x00000000", "0x00000000")⟩, "0xa", 1700000000⟩
  | 1 => ⟨⟨100001, ("0x45544800", "0x55534400"), ("0x00000000", "0x00000000")⟩, "0xb", 1700000000⟩

/-- Two events of one perpetual an hour apart. -/
def anHourApart : Fin 2 → SetOraclesLog
  | 0 => ⟨⟨100001, ("0x42544300", "0x55534400"), ("0x00000000", "0x00000000")⟩, "0xa", 1700000000⟩
  | 1 => ⟨⟨100001, ("0x45544800", "0x55534400"), ("0x00000000", "0x00000000")⟩, "0xb", 1700003600⟩

/-- The two inserts one after the other, no predecessor being found. -/
def oneByOne : List (Fin 2 × ℕ) := [(0, 0), (0, 0), (0, 0), (1, 0), (1, 0), (1, 0)]

/-- The second insert between the steps of the first. -/
def nested : List (Fin 2 × ℕ) := [(0, 0), (1, 0), (1, 0), (1, 0), (0, 0), (0, 0)]

/-- Inserted one after the other and aligned, the events of one block leave a perpetual
without any valid row from that block on. -/
theorem sameBlock_without_row :
    ∃ c, (insertTasks sameBlock).run oneByOne insertStart = some c ∧ (∀ i, c.locals i = .done) ∧
      ¬ Partitions (alignTimestamps leastChoice c.shared) := by
  refine ⟨((insertTasks sameBlock).run oneByOne insertStart).get (by decide),
    (Option.some_get _).symm, by decide, fun h => ?_⟩
  have hone := h "0xa" ⟨100001, "BTC-USD-USD", 1700000000000, 1700000000000⟩ (by decide)
    1700000000000 (le_refl _) (by decide)
  exact absurd hone (by decide)

/-- The law at work on two interleaved inserts of events an hour apart. -/
theorem anHourApart_partitions :
    ∃ c, (insertTasks anHourApart).run nested insertStart = some c ∧
      ∀ choice, Partitions (alignTimestamps choice c.shared) := by
  refine ⟨((insertTasks anHourApart).run nested insertStart).get (by decide),
    (Option.some_get _).symm, ?_⟩
  refine (longIds_partition_iff (by decide) (Option.some_get _).symm
    (by decide)).2 ?_
  decide

end TraderBackend
