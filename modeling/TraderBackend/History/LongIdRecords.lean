import TraderBackend.Lib.Journal
import TraderBackend.History.LongIdPartition

/-!
# Which oracle changes are recorded

The key of `perpetual_long_id` is the transaction, and an insert that finds a row of its
transaction does nothing.  Inserted one after the other, the events of a transaction after
its first one leave no trace, whatever their perpetual is.

* `insertPerpetualLongId` — an insert without interruption, with a pattern of failing calls;
  `insertSetOraclesRecord` is one without failures, and `solo_insertStep` connects it to the
  database calls it is made of.
* `view_recordSetOracles` — the rows are those of the events that come first.
* `recorded_iff` — every event has its row, and inserting it again changes nothing, **if
  and only if** every event agrees with one that comes first.
-/

namespace TraderBackend

/-- The predecessor of an event gets its `valid_to`, whichever it is. -/
def closePredecessor (t : LongIdTable) (perpetualId currDate k : ℕ) : LongIdTable :=
  match predecessor t perpetualId currDate k with
  | none => t
  | some txHash => t.update txHash fun row => { row with validTo := currDate }

/-- The database calls of an insert. -/
inductive InsertCall where
  | findByHash
  | findPredecessor
  | update
  | create
  deriving DecidableEq

/-- `insertPerpetualLongId`: the table it leaves, and the call that failed.  An invalid date is
refused by the client in the query for the predecessor. -/
def insertPerpetualLongId (fails : InsertCall → Bool) (t : LongIdTable) (e : SetOraclesLog)
    (k : ℕ) : LongIdTable × Option InsertCall :=
  if fails .findByHash then (t, some .findByHash)
  else if (t.get? e.key).isSome then (t, none)
  else
    match e.currDate with
    | none => (t, some .findPredecessor)
    | some currDate =>
        if fails .findPredecessor then (t, some .findPredecessor)
        else if (predecessor t e.event.perpetualId currDate k).isSome && fails .update then
          (t, some .update)
        else
          let t' := closePredecessor t e.event.perpetualId currDate k
          if fails .create then (t', some .create)
          else (t'.create e.key (e.row currDate), none)

/-- `insertSetOraclesRecord`, its database calls one after the other and without failures. -/
def insertSetOraclesRecord (t : LongIdTable) (e : SetOraclesLog) (k : ℕ) : LongIdTable :=
  (insertPerpetualLongId (fun _ => false) t e k).1

theorem insertSetOraclesRecord_eq (t : LongIdTable) (e : SetOraclesLog) (k : ℕ) :
    insertSetOraclesRecord t e k =
      if (t.get? e.key).isSome then t
      else
        match e.currDate with
        | none => t
        | some currDate =>
            (closePredecessor t e.event.perpetualId currDate k).create e.key (e.row currDate) := by
  simp only [insertSetOraclesRecord, insertPerpetualLongId, Bool.and_false, Bool.false_eq_true,
    if_false]
  split
  · rfl
  · cases e.currDate <;> rfl

/-- The steps of an insert that nobody interrupts. -/
theorem solo_insertStep {ι : Type*} (logs : ι → SetOraclesLog) (i : ι) (k : ℕ) (t : LongIdTable) :
    ∃ n, (insertTasks logs).solo i k n (t, .findByHash) =
      some (insertSetOraclesRecord t (logs i) k, .done) := by
  rw [insertSetOraclesRecord_eq]
  unfold closePredecessor
  by_cases hexists : (t.get? (logs i).key).isSome = true
  · refine ⟨1, ?_⟩
    simp [Tasks.solo, insertTasks, insertStep, hexists]
  · rw [if_neg hexists]
    cases hdate : (logs i).currDate with
    | none =>
      refine ⟨2, ?_⟩
      simp [Tasks.solo, insertTasks, insertStep, hexists, hdate]
    | some currDate =>
      cases hpred : predecessor t (logs i).event.perpetualId currDate k with
      | none =>
        refine ⟨3, ?_⟩
        simp [Tasks.solo, insertTasks, insertStep, hexists, hdate, hpred, OrdMap.create]
      | some txHash =>
        obtain ⟨row, hrow, -, -⟩ := predecessor_mem hpred
        refine ⟨4, ?_⟩
        simp only [Tasks.solo, insertTasks, insertStep, hexists, hdate, hpred, hrow, OrdMap.create,
          OrdMap.update, Option.bind_some, Option.elim_some, Bool.false_eq_true, if_false]
        split
        · rfl
        · rfl

/-! ## The rows are a journal -/

/-- A sequence of inserts, each with the choice of the database. -/
def recordSetOracles (inserts : List (SetOraclesLog × ℕ)) : LongIdTable :=
  inserts.foldl (fun t d => insertSetOraclesRecord t d.1 d.2) OrdMap.empty

/-- The content of an event: its perpetual, the name made of its tickers, its time. -/
def SetOraclesLog.content (e : SetOraclesLog) : ℕ × String × ℕ :=
  (e.event.perpetualId,
    perpetualName (quotePair e.event.baseQuoteS2) (quotePair e.event.baseQuoteS3),
    e.blockTimestamp * 1000)

/-- The columns of a row no update rewrites. -/
def longIdColumns (_ : String) (row : PerpetualLongId) : ℕ × String × ℕ :=
  (row.perpetualId, row.perpetualName, row.validFrom)

/-- The client accepts the date of the event. -/
def SetOraclesLog.dated (e : SetOraclesLog) : Bool := e.currDate.isSome

/-- A row that is found ends the insert. -/
theorem insertSetOraclesRecord_of_some {t : LongIdTable} {e : SetOraclesLog}
    {row : PerpetualLongId} (h : t.get? e.key = some row) (k : ℕ) :
    insertSetOraclesRecord t e k = t := by
  rw [insertSetOraclesRecord_eq, if_pos (by rw [h]; rfl)]

/-- A date that is none ends it too. -/
theorem insertSetOraclesRecord_of_undated {e : SetOraclesLog} (h : e.dated = false)
    (t : LongIdTable) (k : ℕ) : insertSetOraclesRecord t e k = t := by
  have hdate : e.currDate = none := by simpa [SetOraclesLog.dated] using h
  simp [insertSetOraclesRecord_eq, hdate]

theorem view_closePredecessor (t : LongIdTable) (perpetualId currDate k : ℕ) :
    (closePredecessor t perpetualId currDate k).view (OrdMap.keyed longIdColumns) =
      t.view (OrdMap.keyed longIdColumns) := by
  unfold closePredecessor
  split
  · rfl
  · apply OrdMap.view_update
    intro row
    rfl

/-- Otherwise the row of the event becomes the last one. -/
theorem view_insertSetOraclesRecord {t : LongIdTable} {e : SetOraclesLog} (hdated : e.dated = true)
    (hnone : t.get? e.key = none) (k : ℕ) :
    (insertSetOraclesRecord t e k).view (OrdMap.keyed longIdColumns) =
      t.view (OrdMap.keyed longIdColumns) ++ [(e.key, e.content)] := by
  obtain ⟨currDate, hdate⟩ := Option.isSome_iff_exists.1 hdated
  have hms : currDate = e.blockTimestamp * 1000 := by
    unfold SetOraclesLog.currDate newDate at hdate
    split at hdate
    · exact (Option.some.inj hdate).symm
    · cases hdate
  have hfree : (closePredecessor t e.event.perpetualId currDate k).get? e.key = none := by
    rw [OrdMap.get?_eq_none_iff_view, view_closePredecessor]
    exact OrdMap.get?_eq_none_iff_view.1 hnone
  have hinsert : insertSetOraclesRecord t e k =
      (closePredecessor t e.event.perpetualId currDate k).create e.key (e.row currDate) := by
    simp [insertSetOraclesRecord_eq, hnone, hdate]
  rw [hinsert, OrdMap.view_create_of_none hfree, view_closePredecessor, hms]
  simp only [OrdMap.keyed, longIdColumns, SetOraclesLog.content, SetOraclesLog.row]

/-- **The rows.**  They are those of the events that come first in their transaction. -/
theorem view_recordSetOracles (inserts : List (SetOraclesLog × ℕ)) :
    (recordSetOracles inserts).view (OrdMap.keyed longIdColumns) =
      (keepFirst (sameKey SetOraclesLog.key)
        ((inserts.map Prod.fst).filter SetOraclesLog.dated)).map fun e => (e.key, e.content) := by
  apply view_foldl_sameKey
  · intro t d hd
    exact insertSetOraclesRecord_of_undated hd t d.2
  · intro t d row _ hget
    rw [insertSetOraclesRecord_of_some hget d.2]
  · intro t d hd hget
    exact view_insertSetOraclesRecord hd hget d.2

/-! ## When every change is recorded -/

/-- A row of the table has the content of the event. -/
def Recorded (t : LongIdTable) (e : SetOraclesLog) : Prop :=
  ∃ txHash row, t.get? txHash = some row ∧ row.perpetualId = e.event.perpetualId ∧
    row.validFrom = e.blockTimestamp * 1000 ∧
    row.perpetualName =
      perpetualName (quotePair e.event.baseQuoteS2) (quotePair e.event.baseQuoteS3)

/-- The event comes first in its transaction. -/
def FirstInTx (logs : List SetOraclesLog) (e : SetOraclesLog) : Prop :=
  (logs.filter SetOraclesLog.dated).find? (fun e' => decide (e'.key = e.key)) = some e

instance (logs : List SetOraclesLog) (e : SetOraclesLog) : Decidable (FirstInTx logs e) :=
  inferInstanceAs (Decidable (_ = some e))

theorem recorded_iff_view {t : LongIdTable} {e : SetOraclesLog} :
    Recorded t e ↔ ∃ c ∈ t.view (OrdMap.keyed longIdColumns), c.2 = e.content := by
  constructor
  · rintro ⟨key, row, hget, hperp, hfrom, hname⟩
    refine ⟨_, OrdMap.mem_view.2 ⟨key, row, hget, rfl⟩, ?_⟩
    simp [OrdMap.keyed, longIdColumns, SetOraclesLog.content, hperp, hfrom, hname]
  · rintro ⟨c, hc, hcontent⟩
    obtain ⟨key, row, hget, rfl⟩ := OrdMap.mem_view.1 hc
    simp only [OrdMap.keyed, longIdColumns, SetOraclesLog.content, Prod.mk.injEq] at hcontent
    exact ⟨key, row, hget, hcontent.1, hcontent.2.2, hcontent.2.1⟩

/-- Once its transaction has a row, or without a date, an event can be inserted again. -/
theorem insert_again (inserts : List (SetOraclesLog × ℕ)) {e : SetOraclesLog}
    (he : e ∈ inserts.map Prod.fst) (k : ℕ) :
    insertSetOraclesRecord (recordSetOracles inserts) e k = recordSetOracles inserts := by
  cases hd : e.dated with
  | false => exact insertSetOraclesRecord_of_undated hd _ k
  | true =>
    cases hget : (recordSetOracles inserts).get? e.key with
    | some row => exact insertSetOraclesRecord_of_some hget k
    | none =>
      have hfree : ∀ c ∈ (recordSetOracles inserts).view (OrdMap.keyed longIdColumns),
          c.1 ≠ e.key := OrdMap.get?_eq_none_iff_view.1 hget
      obtain ⟨f, hf, hkey⟩ := exists_keepFirst SetOraclesLog.key
        (List.mem_filter.2 ⟨he, hd⟩)
      rw [view_recordSetOracles] at hfree
      exact absurd hkey (hfree _ (List.mem_map_of_mem hf))

/-- **When every oracle change is recorded.**  After any sequence of inserts on the empty table,
every event has its row and inserting it again changes nothing, if and only if every event agrees
in perpetual, name and time with one that comes first in its transaction. -/
theorem recorded_iff (inserts : List (SetOraclesLog × ℕ)) :
    ((∀ e ∈ inserts.map Prod.fst, Recorded (recordSetOracles inserts) e) ∧
        ∀ e ∈ inserts.map Prod.fst, ∀ k,
          insertSetOraclesRecord (recordSetOracles inserts) e k = recordSetOracles inserts) ↔
      ∀ e ∈ inserts.map Prod.fst, ∃ f ∈ inserts.map Prod.fst,
        FirstInTx (inserts.map Prod.fst) f ∧ f.event.perpetualId = e.event.perpetualId ∧
          f.blockTimestamp = e.blockTimestamp ∧
          perpetualName (quotePair f.event.baseQuoteS2) (quotePair f.event.baseQuoteS3) =
            perpetualName (quotePair e.event.baseQuoteS2) (quotePair e.event.baseQuoteS3) := by
  have hagain : ∀ e ∈ inserts.map Prod.fst, ∀ k,
      insertSetOraclesRecord (recordSetOracles inserts) e k = recordSetOracles inserts :=
    fun e he k => insert_again inserts he k
  rw [and_iff_left hagain]
  apply forall_congr'
  intro e
  apply imp_congr_right
  intro _
  rw [recorded_iff_view, view_recordSetOracles]
  constructor
  · rintro ⟨c, hc, hcontent⟩
    obtain ⟨f, hf, rfl⟩ := List.mem_map.1 hc
    have hmem := List.mem_filter.1 (keepFirst_subset _ _ hf)
    simp only [SetOraclesLog.content, Prod.mk.injEq] at hcontent
    refine ⟨f, hmem.1, (mem_keepFirst_iff _ _ f).1 hf, hcontent.1, ?_, hcontent.2.1⟩
    have := hcontent.2.2
    omega
  · rintro ⟨f, -, hfirst, hperp, htime, hname⟩
    refine ⟨_, List.mem_map_of_mem ((mem_keepFirst_iff _ _ f).2 hfirst), ?_⟩
    simp [SetOraclesLog.content, hperp, htime, hname]

/-- Two perpetuals get their oracles in one transaction. -/
def twoOracleChanges : List (SetOraclesLog × ℕ) :=
  [(⟨⟨100001, ("0x42544300", "0x55534400"), ("0x00000000", "0x00000000")⟩, "0xaa", 1700000000⟩, 0),
    (⟨⟨100002, ("0x45544800", "0x55534400"), ("0x00000000", "0x00000000")⟩, "0xaa", 1700000000⟩,
      0)]

/-- The second perpetual has no row at all. -/
theorem twoOracleChanges_second_missing :
    ∃ e ∈ twoOracleChanges.map Prod.fst, e.event.perpetualId = 100002 ∧
      ¬ ∃ c ∈ (recordSetOracles twoOracleChanges).entries, c.2.perpetualId = 100002 := by
  decide

end TraderBackend
