import TraderBackend.Lib.Join
import TraderBackend.History.LongIdPartition

/-!
# The name in force

`trades_view` and `settle_view` join a trade or a settlement with the name its perpetual had at
the time.

* `namedRows` — both views, as one join.
* `InForce` — the `SetOracles` event in force at a time: the last one of the perpetual.
* `rows_named` — however the inserts interleave, a row has the name of its event.
* `namedRows_eq_map` — where no two events of a perpetual share their time, the views give every
  row once, under the name in force.
-/

namespace TraderBackend

/-! ## The views -/

/-- `perpetual_long_id`: id and name of a perpetual. -/
def PerpetualLongId.text (row : PerpetualLongId) : String :=
  toString row.perpetualId ++ "-" ++ row.perpetualName

/-- The rows of a view: each with the long ids of its perpetual at its time, in seconds. -/
def namedRows {α : Type*} (longIds : LongIdTable) (perpetualId time : α → ℕ) (rows : List α) :
    List (α × String) :=
  innerJoin rows fun a =>
    (longIdsAt longIds (perpetualId a) (time a * 1000)).map fun e => e.2.text

variable {ι : Type*} (logs : ι → SetOraclesLog)

/-- The name an event gives its perpetual. -/
def SetOraclesLog.name (e : SetOraclesLog) : String :=
  perpetualName (quotePair e.event.baseQuoteS2) (quotePair e.event.baseQuoteS3)

/-- The long id an event gives its perpetual. -/
def SetOraclesLog.longId (e : SetOraclesLog) : String :=
  toString e.event.perpetualId ++ "-" ++ e.name

/-- The event is the last one of the perpetual up to a time in seconds. -/
structure InForce (i : ι) (perpetualId time : ℕ) : Prop where
  ofPerpetual : (logs i).event.perpetualId = perpetualId
  le_time : (logs i).blockTimestamp ≤ time
  last : ∀ j, (logs j).event.perpetualId = perpetualId → (logs j).blockTimestamp ≤ time →
    (logs j).blockTimestamp ≤ (logs i).blockTimestamp

/-- No two events of a perpetual share their time. -/
def Apart : Prop :=
  ∀ i j, i ≠ j → (logs i).event.perpetualId = (logs j).event.perpetualId →
    (logs i).blockTimestamp = (logs j).blockTimestamp → farDate ≤ (logs i).blockTimestamp * 1000

/-! ## The names -/

/-- Every row has the name of its event. -/
def Named (t : LongIdTable) : Prop :=
  ∀ key row, t.get? key = some row → ∃ i, key = (logs i).key ∧ row.perpetualName = (logs i).name

variable {logs}

theorem SetOraclesLog.row_perpetualName (e : SetOraclesLog) (currDate : ℕ) :
    (e.row currDate).perpetualName = e.name := by
  rw [SetOraclesLog.row, SetOraclesLog.name]

theorem named_step {i : ι} {k : ℕ} {t t' : LongIdTable} {l l' : InsertAt}
    (h : insertStep (logs i) k t l = some (t', l')) (hinv : Named logs t) : Named logs t' := by
  rcases insertStep_cases h with rfl | ⟨txHash, currDate, row₀, -, hrow₀, rfl⟩ |
    ⟨currDate, -, -, rfl⟩
  · exact hinv
  · intro key row hrow
    rcases OrdMap.get?_set_cases hrow with ⟨rfl, rfl⟩ | hold
    · exact hinv txHash row₀ hrow₀
    · exact hinv key row hold
  · intro key row hrow
    rcases OrdMap.get?_set_cases hrow with ⟨hkey, rfl⟩ | hold
    · exact ⟨i, hkey.symm, (logs i).row_perpetualName currDate⟩
    · exact hinv key row hold

/-- **A row has the name of its event**, however the inserts interleave. -/
theorem rows_named [DecidableEq ι] {schedule : List (ι × ℕ)}
    {c : Tasks.Config ι LongIdTable InsertAt}
    (hrun : (insertTasks logs).run schedule insertStart = some c) : Named logs c.shared := by
  have hturn : ∀ (d d' : Tasks.Config ι LongIdTable InsertAt) (i : ι) (k : ℕ),
      Named logs d.shared → (insertTasks logs).turn d i k = some d' → Named logs d'.shared := by
    intro d d' i k hd hstep
    obtain ⟨s, l, hs, rfl⟩ := Tasks.turn_eq_some hstep
    exact named_step hs hd
  refine Tasks.run_induction (P := fun d => Named logs d.shared) hturn ?_ hrun
  intro key row hrow
  cases hrow

theorem alignRow_text (choice : JoinChoice) (t : LongIdTable) (key : String)
    (row : PerpetualLongId) : (alignRow choice t key row).text = row.text := by
  unfold alignRow
  split <;> rfl

/-! ## The view of a run -/

section

variable [DecidableEq ι] (hkeys : Function.Injective fun i => (logs i).key)
  {schedule : List (ι × ℕ)} {c : Tasks.Config ι LongIdTable InsertAt}
  (hrun : (insertTasks logs).run schedule insertStart = some c)
  (hdone : ∀ i, c.locals i = .done)

include hkeys hrun hdone

/-- Every interval is open or ends at a later start. -/
theorem endsAtStart_of_run : EndsAtStart c.shared := by
  obtain ⟨hinv, hrows⟩ := rows_after_inserts hkeys hrun hdone
  intro key row hrow
  obtain ⟨i, rfl, hi⟩ := hinv key row hrow
  rcases hi.validTo with hopen | ⟨j, date, hj, hperp, hlt, hto⟩
  · exact Or.inl hopen
  · obtain ⟨row', hrow', hj'⟩ := hrows j date hj
    have hstart := hj'.validFrom
    rw [hj] at hstart
    obtain rfl := Option.some.inj hstart
    exact Or.inr ⟨_, row', hrow', hj'.perpetualId.trans (hperp.trans hi.perpetualId.symm), hlt, hto⟩

/-- The start of a row is the time of its event. -/
theorem validFrom_of_run {key : String} {row : PerpetualLongId} (h : c.shared.get? key = some row) :
    ∃ i, key = (logs i).key ∧ row.perpetualId = (logs i).event.perpetualId ∧
      row.validFrom = (logs i).blockTimestamp * 1000 := by
  obtain ⟨i, hkey, hi⟩ := (rows_after_inserts hkeys hrun hdone).1 key row h
  refine ⟨i, hkey, hi.perpetualId, ?_⟩
  have hdate := hi.validFrom
  unfold SetOraclesLog.currDate newDate at hdate
  split at hdate
  · exact (Option.some.inj hdate).symm
  · cases hdate

/-- No two rows of a perpetual start together. -/
theorem no_clash_of_apart (hapart : Apart logs) : ¬ StartsClash c.shared := by
  rintro ⟨key, row, key', row', hne, hrow, hrow', hperp, hstart, hfar⟩
  obtain ⟨i, rfl, hi, hfrom⟩ := validFrom_of_run hkeys hrun hdone hrow
  obtain ⟨j, rfl, hj, hfrom'⟩ := validFrom_of_run hkeys hrun hdone hrow'
  have hclash := hapart i j (fun hij => hne (by rw [hij])) (hi.symm.trans (hperp.trans hj))
    (by omega)
  omega

/-- An event in force has its row. -/
theorem InForce.row {i : ι} {perpetualId time : ℕ} (h : InForce logs i perpetualId time)
    (hfar : time * 1000 < farDate) :
    ∃ row, c.shared.get? (logs i).key = some row ∧ row.perpetualId = perpetualId ∧
      row.validFrom = (logs i).blockTimestamp * 1000 := by
  have hle := h.le_time
  have hdate : (logs i).currDate = some ((logs i).blockTimestamp * 1000) := by
    rw [SetOraclesLog.currDate, newDate, if_pos]
    unfold farDate at hfar
    omega
  obtain ⟨row, hrow, hi⟩ := (rows_after_inserts hkeys hrun hdone).2 i _ hdate
  have hfrom := hi.validFrom
  rw [hdate] at hfrom
  exact ⟨row, hrow, hi.perpetualId.trans h.ofPerpetual, (Option.some.inj hfrom).symm⟩

/-- **The views join the row in force**, and no other. -/
theorem longIdsAt_inForce (hapart : Apart logs) (choice : JoinChoice) {i : ι}
    {perpetualId time : ℕ} (h : InForce logs i perpetualId time) (hfar : time * 1000 < farDate) :
    (longIdsAt (alignTimestamps choice c.shared) perpetualId (time * 1000)).map
      (fun e => e.2.text) = [(logs i).longId] := by
  have hends := endsAtStart_of_run hkeys hrun hdone
  have hclash := no_clash_of_apart hkeys hrun hdone hapart
  obtain ⟨row, hrow, hperp, hfrom⟩ := h.row hkeys hrun hdone hfar
  have hle := h.le_time
  have hmem : ∀ e, e ∈ longIdsAt (alignTimestamps choice c.shared) perpetualId (time * 1000) ↔
      e ∈ [((logs i).key, alignRow choice c.shared (logs i).key row)] := by
    rintro ⟨key, row''⟩
    rw [mem_longIdsAt_align, List.mem_singleton]
    constructor
    · rintro ⟨row', hrow', rfl, hperp', hle', hto⟩
      obtain ⟨j, rfl, hj, hfrom'⟩ := validFrom_of_run hkeys hrun hdone hrow'
      -- the event of the joined row is not earlier, for its interval would end before
      have hlast := h.last j (hj.symm.trans hperp') (by omega)
      obtain ⟨-, hgap, -⟩ := alignRow_end choice hends hclash hrow' (lt_of_le_of_lt hle' hfar)
      have hearly := hgap (logs i).key row hrow (hperp.trans hperp'.symm)
      have hij : j = i := by
        by_contra hne
        have htwice := hapart j i hne (hj.symm.trans (hperp'.trans h.ofPerpetual.symm)) (by omega)
        omega
      subst hij
      rw [hrow] at hrow'
      rw [Option.some.inj hrow']
    · intro heq
      obtain ⟨rfl, rfl⟩ := Prod.mk.inj heq
      refine ⟨row, hrow, rfl, hperp, by omega, ?_⟩
      obtain ⟨hlt, -, hend⟩ := alignRow_end choice hends hclash hrow (by omega)
      rcases hend with hopen | ⟨key', row', hrow', hperp', hstart⟩
      · rw [hopen]
        exact hfar
      · -- the next event comes after the time
        obtain ⟨j, -, hj, hfrom'⟩ := validFrom_of_run hkeys hrun hdone hrow'
        by_contra hpast
        have hlast := h.last j (hj.symm.trans (hperp'.trans hperp)) (by omega)
        omega
  have hnodup : (longIdsAt (alignTimestamps choice c.shared) perpetualId (time * 1000)).Nodup :=
    (OrdMap.nodup_entries _).filter _
  rw [List.perm_singleton.1 ((List.perm_ext_iff_of_nodup hnodup (List.nodup_singleton _)).2 hmem)]
  obtain ⟨j, hkey, hname⟩ := rows_named hrun (logs i).key row hrow
  obtain rfl := hkeys hkey
  rw [List.map_singleton, alignRow_text, PerpetualLongId.text, hperp, hname, SetOraclesLog.longId,
    h.ofPerpetual]

/-- **A view gives every row once, under the name in force.** -/
theorem namedRows_eq_map {α : Type*} {perpetualId time : α → ℕ} {rows : List α} {name : α → String}
    (hapart : Apart logs) (choice : JoinChoice)
    (h : ∀ a ∈ rows, time a * 1000 < farDate ∧
      ∃ i, InForce logs i (perpetualId a) (time a) ∧ (logs i).longId = name a) :
    namedRows (alignTimestamps choice c.shared) perpetualId time rows =
      rows.map fun a => (a, name a) := by
  refine innerJoin_eq_map fun a ha => ?_
  obtain ⟨hfar, i, hi, hname⟩ := h a ha
  rw [longIdsAt_inForce hkeys hrun hdone hapart choice hi hfar, hname]

end

/-! ## Which name -/

/-- A perpetual that has had an event has one in force. -/
theorem exists_inForce [Finite ι] {perpetualId time : ℕ}
    (h : ∃ i, (logs i).event.perpetualId = perpetualId ∧ (logs i).blockTimestamp ≤ time) :
    ∃ i, InForce logs i perpetualId time := by
  have hfin : {i | (logs i).event.perpetualId = perpetualId ∧
      (logs i).blockTimestamp ≤ time}.Finite := Set.toFinite _
  obtain ⟨i, ⟨hperp, hle⟩, hmax⟩ := hfin.exists_maximalFor (fun i => (logs i).blockTimestamp) _ h
  refine ⟨i, hperp, hle, fun j hj hjle => ?_⟩
  by_contra hlt
  exact hlt (hmax ⟨hj, hjle⟩ (not_le.1 hlt).le)

/-- Rows after the first event of their perpetual have a name. -/
theorem exists_names [Finite ι] {α : Type*} {perpetualId time : α → ℕ} {rows : List α}
    (h : ∀ a ∈ rows, time a * 1000 < farDate ∧ ∃ i,
      (logs i).event.perpetualId = perpetualId a ∧ (logs i).blockTimestamp ≤ time a) :
    ∃ name : α → String, ∀ a ∈ rows, time a * 1000 < farDate ∧
      ∃ i, InForce logs i (perpetualId a) (time a) ∧ (logs i).longId = name a := by
  have hall : ∀ a, ∃ name, a ∈ rows → time a * 1000 < farDate ∧
      ∃ i, InForce logs i (perpetualId a) (time a) ∧ (logs i).longId = name := by
    intro a
    by_cases ha : a ∈ rows
    · obtain ⟨hfar, hevent⟩ := h a ha
      obtain ⟨i, hi⟩ := exists_inForce hevent
      exact ⟨_, fun _ => ⟨hfar, i, hi, rfl⟩⟩
    · exact ⟨"", fun hmem => absurd hmem ha⟩
  choose name hname using hall
  exact ⟨name, hname⟩

/-- The rows a view shows of some of its rows. -/
theorem namedRows_filter {α : Type*} (longIds : LongIdTable) (perpetualId time : α → ℕ)
    (rows : List α) (p : α → Bool) :
    (namedRows longIds perpetualId time rows).filter (fun v => p v.1) =
      namedRows longIds perpetualId time (rows.filter p) := by
  unfold namedRows innerJoin
  induction rows with
  | nil => rfl
  | cons a rows ih =>
    rw [List.flatMap_cons, List.filter_append, ih, List.filter_cons]
    cases hp : p a with
    | true => simp [hp, List.filter_map, Function.comp_def]
    | false => simp [hp, List.filter_map, Function.comp_def]

end TraderBackend
