import TraderBackend.History.LongIdRecords

/-!
# The inserts keep the intervals aligned

Each insert closes the interval of its predecessor, and `alignTimestamps` closes all
intervals in one query.  If the events of every perpetual come in the order of their
timestamps, the query has nothing left to do.

* `startsOf`, `Chained` — every interval of the table ends at the next start of its
  perpetual, the last one at the far date.
* `alignTimestamps_of_chained` — the alignment leaves such a table as it is.
* `chained_insert` — an insert at a later time than all rows of its perpetual keeps it.
* `aligned_after_inserts` — so every table on the way is aligned, and has the rows of the
  events inserted.
-/

namespace TraderBackend

/-! ## Chained intervals -/

/-- The starts of the intervals of a perpetual. -/
def startsOf (t : LongIdTable) (perpetualId : ℕ) : Set ℕ :=
  {x | ∃ key row, t.get? key = some row ∧ row.perpetualId = perpetualId ∧ row.validFrom = x}

/-- Every interval ends at the next start of its perpetual, the last one at the far date; no two
rows of a perpetual start together. -/
structure Chained (t : LongIdTable) : Prop where
  starts_lt : ∀ perpetualId, ∀ x ∈ startsOf t perpetualId, x < farDate
  distinct : ¬ StartsClash t
  isNext : ∀ key row, t.get? key = some row →
    IsNext (startsOf t row.perpetualId) farDate row.validFrom row.validTo

section

variable {t : LongIdTable}

theorem mem_startsOf {key : String} {row : PerpetualLongId} (h : t.get? key = some row) :
    row.validFrom ∈ startsOf t row.perpetualId := ⟨key, row, h, rfl, rfl⟩

theorem Chained.key_eq (h : Chained t) {key key' : String} {row row' : PerpetualLongId}
    (hrow : t.get? key = some row) (hrow' : t.get? key' = some row')
    (hperp : row.perpetualId = row'.perpetualId) (hstart : row.validFrom = row'.validFrom) :
    key = key' := by
  by_contra hne
  exact h.distinct ⟨key, row, key', row', hne, hrow, hrow', hperp, hstart,
    h.starts_lt _ _ (mem_startsOf hrow)⟩

theorem Chained.endsAtStart (h : Chained t) : EndsAtStart t := by
  intro key row hrow
  obtain ⟨hlt, -, hfar | ⟨key', row', hrow', hperp, hx⟩⟩ := h.isNext key row hrow
  · exact Or.inl hfar
  · exact Or.inr ⟨key', row', hrow', hperp, hx ▸ hlt, hx.symm⟩

/-- **Nothing to align.** -/
theorem alignTimestamps_of_chained (h : Chained t) (choice : JoinChoice) :
    alignTimestamps choice t = t := by
  refine OrdMap.mapVal_eq_self fun key row hrow => ?_
  have hfar : row.validFrom < farDate := h.starts_lt _ _ (mem_startsOf hrow)
  obtain ⟨hlt, hgap, hend⟩ := alignRow_end choice h.endsAtStart h.distinct hrow hfar
  have haligned : IsNext (startsOf t row.perpetualId) farDate row.validFrom
      (alignRow choice t key row).validTo := by
    refine ⟨hlt, ?_, hend⟩
    rintro x ⟨key', row', hrow', hperp, rfl⟩
    exact hgap key' row' hrow' hperp
  have hsame := haligned.unique (h.starts_lt _) (h.isNext key row hrow)
  unfold alignRow at hsame ⊢
  split
  · rfl
  · rename_i hnext
    rw [if_neg hnext] at hsame
    simp only at hsame
    rw [hsame]

/-! ## One insert -/

/-- The predecessor is an open row. -/
theorem predecessor_open {perpetualId currDate k : ℕ} {txHash : String}
    (h : predecessor t perpetualId currDate k = some txHash) :
    ∃ row, t.get? txHash = some row ∧ row.perpetualId = perpetualId ∧
      row.validFrom < currDate ∧ row.validTo = farDate := by
  obtain ⟨⟨key, row⟩, hget, rfl⟩ := Option.map_eq_some_iff.1 h
  have hopen := (List.mem_filter.1 (List.mem_of_getElem? hget)).1
  rw [openRows, List.mem_filter, decide_eq_true_eq] at hopen
  exact ⟨row, OrdMap.get?_eq_some.2 hopen.1, hopen.2.2.2, hopen.2.2.1, hopen.2.1⟩

/-- An open row that starts before has a predecessor to be closed. -/
theorem exists_predecessor {perpetualId currDate k : ℕ} {e : String × PerpetualLongId}
    (he : e ∈ openRows t perpetualId currDate) :
    ∃ txHash, predecessor t perpetualId currDate k = some txHash := by
  obtain ⟨last, hlast, hmax⟩ := Finset.exists_max_image (openRows t perpetualId currDate).toFinset
    (fun e => e.2.validFrom) ⟨e, List.mem_toFinset.2 he⟩
  have hmem : last ∈ (openRows t perpetualId currDate).filter fun e =>
      (openRows t perpetualId currDate).all fun e' =>
        decide (e'.2.validFrom ≤ e.2.validFrom) := by
    rw [List.mem_filter, List.all_eq_true]
    exact ⟨List.mem_toFinset.1 hlast, fun e' he' =>
      decide_eq_true (hmax e' (List.mem_toFinset.2 he'))⟩
  have hbound := Nat.mod_lt k (List.length_pos_of_mem hmem)
  exact ⟨_, by rw [predecessor, List.getElem?_eq_getElem hbound, Option.map_some]⟩

theorem get?_closePredecessor (perpetualId currDate k : ℕ) (key : String) :
    (closePredecessor t perpetualId currDate k).get? key =
      (t.get? key).map fun row =>
        if predecessor t perpetualId currDate k = some key then { row with validTo := currDate }
        else row := by
  unfold closePredecessor
  cases hpred : predecessor t perpetualId currDate k with
  | none => simp
  | some txHash =>
    obtain ⟨row, hrow, -⟩ := predecessor_mem hpred
    simp only [OrdMap.update, hrow, Option.elim_some, OrdMap.get?_set, Option.some.injEq]
    by_cases hkey : txHash = key
    · subst hkey
      simp [hrow]
    · simp [hkey]

variable {e : SetOraclesLog} {k : ℕ}

/-- The table after an insert that is not skipped. -/
theorem get?_insertSetOraclesRecord {currDate : ℕ} (hnone : t.get? e.key = none)
    (hdate : e.currDate = some currDate) (key : String) :
    (insertSetOraclesRecord t e k).get? key =
      if e.key = key then some (e.row currDate)
      else (t.get? key).map fun row =>
        if predecessor t e.event.perpetualId currDate k = some key then
          { row with validTo := currDate }
        else row := by
  have hinsert : insertSetOraclesRecord t e k =
      (closePredecessor t e.event.perpetualId currDate k).create e.key (e.row currDate) := by
    simp [insertSetOraclesRecord_eq, hnone, hdate]
  rw [hinsert, OrdMap.get?_create, get?_closePredecessor, get?_closePredecessor, hnone]
  rfl

/-- The rows behind it: the new one, the old ones, and the predecessor with its new end. -/
theorem insertSetOraclesRecord_cases {currDate : ℕ} (hnone : t.get? e.key = none)
    (hdate : e.currDate = some currDate) {key : String} {row : PerpetualLongId}
    (h : (insertSetOraclesRecord t e k).get? key = some row) :
    key = e.key ∧ row = e.row currDate ∨
      key ≠ e.key ∧ ∃ old, t.get? key = some old ∧ row.perpetualId = old.perpetualId ∧
        row.validFrom = old.validFrom ∧
        (predecessor t e.event.perpetualId currDate k = some key ∧ row.validTo = currDate ∨
          predecessor t e.event.perpetualId currDate k ≠ some key ∧
            row.validTo = old.validTo) := by
  rw [get?_insertSetOraclesRecord hnone hdate] at h
  split at h
  · rename_i hkey
    exact Or.inl ⟨hkey.symm, (Option.some.inj h).symm⟩
  · rename_i hkey
    obtain ⟨old, hold, rfl⟩ := Option.map_eq_some_iff.1 h
    refine Or.inr ⟨Ne.symm hkey, old, hold, ?_⟩
    split
    · rename_i hpred
      exact ⟨rfl, rfl, Or.inl ⟨hpred, rfl⟩⟩
    · rename_i hpred
      exact ⟨rfl, rfl, Or.inr ⟨hpred, rfl⟩⟩

/-- An insert adds one start. -/
theorem startsOf_insertSetOraclesRecord {currDate : ℕ} (hnone : t.get? e.key = none)
    (hdate : e.currDate = some currDate) (perpetualId : ℕ) :
    startsOf (insertSetOraclesRecord t e k) perpetualId =
      if perpetualId = e.event.perpetualId then insert currDate (startsOf t perpetualId)
      else startsOf t perpetualId := by
  have hold : startsOf t perpetualId ⊆ startsOf (insertSetOraclesRecord t e k) perpetualId := by
    rintro x ⟨key, row, hrow, hperp, hx⟩
    have hkey : e.key ≠ key := by
      rintro rfl
      rw [hnone] at hrow
      cases hrow
    have hget := get?_insertSetOraclesRecord (k := k) hnone hdate key
    rw [if_neg hkey, hrow, Option.map_some] at hget
    refine ⟨key, _, hget, ?_, ?_⟩
    · split <;> exact hperp
    · split <;> exact hx
  have hnew : ∀ x ∈ startsOf (insertSetOraclesRecord t e k) perpetualId,
      perpetualId = e.event.perpetualId ∧ x = currDate ∨ x ∈ startsOf t perpetualId := by
    rintro x ⟨key, row, hrow, hperp, hx⟩
    rcases insertSetOraclesRecord_cases hnone hdate hrow with ⟨-, rfl⟩ |
      ⟨-, old, hget, hperp', hfrom, -⟩
    · exact Or.inl ⟨hperp.symm, hx.symm⟩
    · exact Or.inr ⟨key, old, hget, hperp'.symm.trans hperp, hfrom.symm.trans hx⟩
  split
  · rename_i hperp
    refine Set.Subset.antisymm (fun x hx => ?_) (Set.insert_subset ?_ hold)
    · exact (hnew x hx).imp And.right id
    · refine ⟨e.key, e.row currDate, ?_, hperp.symm, rfl⟩
      rw [get?_insertSetOraclesRecord hnone hdate, if_pos rfl]
  · rename_i hperp
    exact Set.Subset.antisymm (fun x hx => (hnew x hx).resolve_left fun hc => hperp hc.1) hold

theorem currDate_of_lt (h : e.blockTimestamp * 1000 < farDate) :
    e.currDate = some (e.blockTimestamp * 1000) := by
  rw [SetOraclesLog.currDate, newDate, if_pos]
  unfold farDate at h
  omega

/-- Two open rows of a perpetual are the same row. -/
theorem Chained.open_unique (h : Chained t) {key key' : String} {row row' : PerpetualLongId}
    (hrow : t.get? key = some row) (hrow' : t.get? key' = some row')
    (hperp : row.perpetualId = row'.perpetualId) (hopen : row.validTo = farDate)
    (hopen' : row'.validTo = farDate) : key = key' := by
  have hlast := h.isNext key row hrow
  have hlast' := h.isNext key' row' hrow'
  rw [hopen] at hlast
  rw [hopen'] at hlast'
  refine h.key_eq hrow hrow' hperp (le_antisymm ?_ ?_)
  · exact hlast'.isLast (h.starts_lt _) (hperp ▸ mem_startsOf hrow)
  · exact hlast.isLast (h.starts_lt _) (hperp ▸ mem_startsOf hrow')

/-- An old row that is not the predecessor of an event is not the last one of its perpetual. -/
theorem Chained.validTo_mem_startsOf (h : Chained t) {key : String} {row : PerpetualLongId}
    {currDate : ℕ} (hrow : t.get? key = some row) (hlt : row.validFrom < currDate)
    (hpred : predecessor t row.perpetualId currDate k ≠ some key) :
    row.validTo ∈ startsOf t row.perpetualId := by
  refine (h.isNext key row hrow).2.2.resolve_left fun hopen => ?_
  have hmem : (key, row) ∈ openRows t row.perpetualId currDate := by
    rw [openRows, List.mem_filter, decide_eq_true_eq]
    exact ⟨OrdMap.get?_eq_some.1 hrow, hopen, hlt, rfl⟩
  obtain ⟨txHash, htx⟩ := exists_predecessor (k := k) hmem
  obtain ⟨row', hrow', hperp, -, hopen'⟩ := predecessor_open htx
  rw [h.open_unique hrow hrow' hperp.symm hopen hopen'] at hpred
  exact hpred htx

/-- The new start differs from all old ones. -/
theorem Chained.distinct_insert (h : Chained t) {currDate : ℕ} (hnone : t.get? e.key = none)
    (hdate : e.currDate = some currDate)
    (hlater : ∀ x ∈ startsOf t e.event.perpetualId, x < currDate) :
    ¬ StartsClash (insertSetOraclesRecord t e k) := by
  rintro ⟨key, row, key', row', hne, hrow, hrow', hperp, hstart, -⟩
  rcases insertSetOraclesRecord_cases hnone hdate hrow with ⟨rfl, rfl⟩ |
    ⟨-, old, hold, hperp₁, hfrom₁, -⟩ <;>
  rcases insertSetOraclesRecord_cases hnone hdate hrow' with ⟨rfl, rfl⟩ |
    ⟨-, old', hold', hperp₂, hfrom₂, -⟩
  · exact hne rfl
  · have hlt := hlater _ ⟨key', old', hold', hperp₂.symm.trans hperp.symm, rfl⟩
    exact hlt.ne' (hstart.trans hfrom₂)
  · have hlt := hlater _ ⟨key, old, hold, hperp₁.symm.trans hperp, rfl⟩
    exact hlt.ne (hfrom₁.symm.trans hstart)
  · exact hne (h.key_eq hold hold' (hperp₁.symm.trans (hperp.trans hperp₂))
      (hfrom₁.symm.trans (hstart.trans hfrom₂)))

/-- Every row still ends at the next start of its perpetual. -/
theorem Chained.isNext_insert (h : Chained t) {currDate : ℕ} (hnone : t.get? e.key = none)
    (hdate : e.currDate = some currDate)
    (hlater : ∀ x ∈ startsOf t e.event.perpetualId, x < currDate) (hfar : currDate < farDate)
    {key : String} {row : PerpetualLongId}
    (hrow : (insertSetOraclesRecord t e k).get? key = some row) :
    IsNext (startsOf (insertSetOraclesRecord t e k) row.perpetualId) farDate row.validFrom
      row.validTo := by
  rw [startsOf_insertSetOraclesRecord hnone hdate]
  rcases insertSetOraclesRecord_cases hnone hdate hrow with ⟨rfl, rfl⟩ |
    ⟨-, old, hold, hperp, hfrom, hto⟩
  · -- the new row is the last one
    have hperp : (e.row currDate).perpetualId = e.event.perpetualId := rfl
    rw [if_pos hperp]
    exact isNext_insert_self hlater hfar
  · have hnext := h.isNext key old hold
    rw [hperp, hfrom]
    rcases hto with ⟨hpred, hto⟩ | ⟨hpred, hto⟩
    · -- the predecessor was the last one, and its next start is the new one
      obtain ⟨row₀, hrow₀, hperp₀, hlt, hopen⟩ := predecessor_open hpred
      rw [hold] at hrow₀
      obtain rfl := Option.some.inj hrow₀
      rw [hto, if_pos hperp₀]
      rw [hopen] at hnext
      exact hnext.insert_of_top (h.starts_lt _) hlt
    · rw [hto]
      split
      · -- another row of the perpetual keeps its next start
        rename_i hsame
        rw [← hsame] at hlater hpred
        exact hnext.insert_of_mem
          (h.validTo_mem_startsOf hold (hlater _ (mem_startsOf hold)) hpred) hlater
      · exact hnext

/-- **The step.**  An insert at a later time than all rows of its perpetual keeps the intervals
chained. -/
theorem chained_insert (h : Chained t)
    (hlater : ∀ x ∈ startsOf t e.event.perpetualId, x < e.blockTimestamp * 1000)
    (hfar : e.blockTimestamp * 1000 < farDate) : Chained (insertSetOraclesRecord t e k) := by
  cases hnone : t.get? e.key with
  | some row =>
    rw [insertSetOraclesRecord_of_some hnone]
    exact h
  | none =>
    have hdate := currDate_of_lt hfar
    refine ⟨fun perpetualId x hx => ?_, h.distinct_insert hnone hdate hlater, fun key row hrow =>
      h.isNext_insert hnone hdate hlater hfar hrow⟩
    rw [startsOf_insertSetOraclesRecord hnone hdate] at hx
    split at hx
    · rcases Set.mem_insert_iff.1 hx with rfl | hx
      · exact hfar
      · exact h.starts_lt _ _ hx
    · exact h.starts_lt _ _ hx

end

/-! ## The run -/

theorem chained_empty : Chained (OrdMap.empty : LongIdTable) where
  starts_lt := by
    rintro perpetualId x ⟨key, row, hrow, -⟩
    cases hrow
  distinct := by
    rintro ⟨key, row, -, -, -, hrow, -⟩
    cases hrow
  isNext := by
    intro key row hrow
    cases hrow

/-- The starts after a sequence of inserts are times of its events. -/
theorem exists_of_mem_startsOf {inserts : List (SetOraclesLog × ℕ)} {perpetualId x : ℕ}
    (hx : x ∈ startsOf (recordSetOracles inserts) perpetualId) :
    ∃ d ∈ inserts, d.1.event.perpetualId = perpetualId ∧ d.1.blockTimestamp * 1000 = x := by
  obtain ⟨key, row, hrow, rfl, rfl⟩ := hx
  have hview : OrdMap.keyed longIdColumns key row ∈
      (recordSetOracles inserts).view (OrdMap.keyed longIdColumns) :=
    OrdMap.mem_view.2 ⟨key, row, hrow, rfl⟩
  rw [view_recordSetOracles] at hview
  obtain ⟨e, he, hcontent⟩ := List.mem_map.1 hview
  obtain ⟨d, hd, rfl⟩ := List.mem_map.1 (List.mem_filter.1 (keepFirst_subset _ _ he)).1
  simp only [OrdMap.keyed, longIdColumns, SetOraclesLog.content, Prod.mk.injEq] at hcontent
  exact ⟨d, hd, hcontent.2.1, hcontent.2.2.2⟩

/-- The events of each perpetual come in the order of their timestamps. -/
def InTimeOrder (inserts : List (SetOraclesLog × ℕ)) : Prop :=
  inserts.Pairwise fun d d' =>
    d.1.event.perpetualId = d'.1.event.perpetualId → d.1.blockTimestamp < d'.1.blockTimestamp

instance (inserts : List (SetOraclesLog × ℕ)) : Decidable (InTimeOrder inserts) :=
  inferInstanceAs (Decidable (inserts.Pairwise fun d d' =>
    d.1.event.perpetualId = d'.1.event.perpetualId → d.1.blockTimestamp < d'.1.blockTimestamp))

/-- The run lemma. -/
theorem chained_recordSetOracles (inserts : List (SetOraclesLog × ℕ))
    (horder : InTimeOrder inserts)
    (hdates : ∀ d ∈ inserts, d.1.blockTimestamp * 1000 < farDate) :
    Chained (recordSetOracles inserts) := by
  induction inserts using List.reverseRecOn with
  | nil => exact chained_empty
  | append_singleton inserts d ih =>
    obtain ⟨hinit, -, hlast⟩ := List.pairwise_append.1 horder
    have hrun : recordSetOracles (inserts ++ [d]) =
        insertSetOraclesRecord (recordSetOracles inserts) d.1 d.2 := by
      rw [recordSetOracles, List.foldl_append]
      rfl
    rw [hrun]
    refine chained_insert (ih hinit fun d' hd' => hdates d' (List.mem_append_left _ hd'))
      (fun x hx => ?_) (hdates d (List.mem_append_right _ (List.mem_singleton_self d)))
    obtain ⟨d', hd', hperp, rfl⟩ := exists_of_mem_startsOf hx
    have hlt := hlast d' hd' d (List.mem_singleton_self d) hperp
    omega

/-- Events with dates and different transactions all have their row, in their order. -/
theorem view_of_distinct {inserts : List (SetOraclesLog × ℕ)}
    (hdates : ∀ d ∈ inserts, d.1.blockTimestamp * 1000 < farDate)
    (hkeys : (inserts.map fun d => d.1.key).Nodup) :
    (recordSetOracles inserts).view (OrdMap.keyed longIdColumns) =
      inserts.map fun d => (d.1.key, d.1.content) := by
  have hdated : (inserts.map Prod.fst).filter SetOraclesLog.dated = inserts.map Prod.fst := by
    rw [List.filter_eq_self]
    intro e he
    obtain ⟨d, hd, rfl⟩ := List.mem_map.1 he
    rw [SetOraclesLog.dated, currDate_of_lt (hdates d hd)]
    rfl
  have hkept : keepFirst (sameKey SetOraclesLog.key) (inserts.map Prod.fst) =
      inserts.map Prod.fst := by
    apply keepFirst_sameKey
    rwa [List.map_map]
  rw [view_recordSetOracles, hdated, hkept, List.map_map]
  rfl

/-- **Incremental and batch maintenance agree.**  The events of each perpetual are inserted in the
order of their timestamps, all before the far date.  Then after every prefix `alignTimestamps`
changes nothing, and every interval ends at the next start of its perpetual or, behind the last
one, at the far date.  The rows are those of the events inserted, where no two of them have one
transaction. -/
theorem aligned_after_inserts (inserts : List (SetOraclesLog × ℕ)) (horder : InTimeOrder inserts)
    (hdates : ∀ d ∈ inserts, d.1.blockTimestamp * 1000 < farDate)
    (before : List (SetOraclesLog × ℕ)) (hpre : before <+: inserts) :
    (∀ choice, alignTimestamps choice (recordSetOracles before) = recordSetOracles before) ∧
      (∀ key row, (recordSetOracles before).get? key = some row →
        IsNext (startsOf (recordSetOracles before) row.perpetualId) farDate row.validFrom
          row.validTo) ∧
      ((inserts.map fun d => d.1.key).Nodup →
        (recordSetOracles before).view (OrdMap.keyed longIdColumns) =
          before.map fun d => (d.1.key, d.1.content)) := by
  have hdates' : ∀ d ∈ before, d.1.blockTimestamp * 1000 < farDate := fun d hd =>
    hdates d (hpre.subset hd)
  have hchained : Chained (recordSetOracles before) :=
    chained_recordSetOracles before (horder.sublist hpre.sublist) hdates'
  refine ⟨fun choice => alignTimestamps_of_chained hchained choice, hchained.isNext,
    fun hkeys => view_of_distinct hdates' ?_⟩
  exact hkeys.sublist (hpre.sublist.map _)

/-- Two perpetuals take turns. -/
def takingTurns : List (SetOraclesLog × ℕ) :=
  [(⟨⟨100001, ("0x42544300", "0x55534400"), ("0x00000000", "0x00000000")⟩, "0xaa", 1700000000⟩, 0),
    (⟨⟨100002, ("0x45544800", "0x55534400"), ("0x00000000", "0x00000000")⟩, "0xbb", 1700000000⟩, 5),
    (⟨⟨100001, ("0x45544800", "0x55534400"), ("0x00000000", "0x00000000")⟩, "0xcc", 1700003600⟩, 3)]

/-- The law at work there: the table has the three rows, and the first of them ends where the third
one starts. -/
theorem takingTurns_aligned :
    alignTimestamps leastChoice (recordSetOracles takingTurns) = recordSetOracles takingTurns ∧
      (recordSetOracles takingTurns).view (OrdMap.keyed longIdColumns) =
        [("0xaa", 100001, "BTC-USD-USD", 1700000000000),
          ("0xbb", 100002, "ETH-USD-USD", 1700000000000),
          ("0xcc", 100001, "ETH-USD-USD", 1700003600000)] ∧
      ((recordSetOracles takingTurns).get? "0xaa").map PerpetualLongId.validTo =
        some 1700003600000 := by
  obtain ⟨haligned, -, hrows⟩ := aligned_after_inserts takingTurns (by decide) (by decide)
    takingTurns (List.prefix_refl _)
  exact ⟨haligned leastChoice, (hrows (by decide)).trans (by decide), by decide⟩

end TraderBackend
