import TraderBackend.Lib.Interleave
import TraderBackend.Lib.Table

/-!
# Two inserts of one record

Two inserts that look first, side by side: each asks whether the row is there and
then writes as it saw, and the calls of the other one can fall in between.  A task
is named by the flag it would create the row with.

* **Outcomes.**  `raceTasks` are the two tasks; `race_outcome` says what every
  complete run leaves, by the last two turns of its schedule.
* **The flag of the row.**  `Held` collects what the calls do once the row is
  there: creations fail, the insert with the flag `true` leaves the row alone, the
  other one clears the flag if its update finds the row.  `race_flag_iff` says when
  the flag ends cleared, `race_keeps` what a race without a creation does.
-/

variable {σ δ : Type*}

/-- The calls on one table of a database. -/
def RecordCalls.on (get : δ → σ) (set : δ → σ → δ) (calls : RecordCalls σ) : RecordCalls δ where
  find d := calls.find (get d)
  create d := set d (calls.create (get d))
  update d := set d (calls.update (get d))

theorem RecordCalls.insert_on (get : δ → σ) (set : δ → σ → δ) (calls : RecordCalls σ) (d : δ) :
    (calls.on get set).insert d = set d (calls.insert (get d)) :=
  (apply_ite (set d) _ _ _).symm

/-- The second call, as was seen by the first. -/
def RecordCalls.write (calls : RecordCalls σ) (exist : Bool) (s : σ) : σ :=
  if exist then calls.update s else calls.create s

/-- Two inserts side by side. -/
def raceTasks (calls : Bool → RecordCalls σ) : Tasks Bool Unit σ RecordAt where
  step i _ s l := recordStep (calls i) s l

/-- Task `j` here, the other one there. -/
def raceAt (s : σ) (j : Bool) (mine other : RecordAt) : Tasks.Config Bool σ RecordAt :=
  ⟨s, fun i => if i = j then mine else other⟩

/-- Both before their first call. -/
def raceStart (s : σ) : Tasks.Config Bool σ RecordAt := ⟨s, fun _ => .find⟩

variable {calls : Bool → RecordCalls σ} {s : σ} {schedule : List (Bool × Unit)}
  {c : Tasks.Config Bool σ RecordAt} {j : Bool} {mine other : RecordAt}

/-! ## Outcomes -/

theorem raceStart_eq (s : σ) (j : Bool) : raceStart s = raceAt s j .find .find := by
  simp [raceStart, raceAt]

theorem raceAt_not (s : σ) (j : Bool) (mine other : RecordAt) :
    raceAt s (!j) other mine = raceAt s j mine other := by
  have hlocals : (fun i => if i = !j then other else mine) =
      fun i => if i = j then mine else other := by
    funext i
    cases i <;> cases j <;> rfl
  rw [raceAt, hlocals, raceAt]

/-- The first turn of task `j`. -/
theorem race_turn {rest : List (Bool × Unit)} {k : Unit}
    (h : (raceTasks calls).run ((j, k) :: rest) (raceAt s j mine other) = some c) :
    ∃ t l, recordStep (calls j) s mine = some (t, l) ∧
      (raceTasks calls).run rest (raceAt t j l other) = some c := by
  obtain ⟨d, hd, hrest⟩ := Tasks.run_cons h
  obtain ⟨t, l, hstep, rfl⟩ := Tasks.turn_eq_some hd
  refine ⟨t, l, by simpa [raceAt, raceTasks] using hstep, ?_⟩
  have hlocals : Function.update (raceAt s j mine other).locals j l =
      (raceAt t j l other).locals := by
    funext i
    by_cases hi : i = j
    · subst hi; simp [raceAt]
    · simp [raceAt, hi]
  rw [hlocals] at hrest
  exact hrest

/-- A run that is not over begins with a turn of one of the two. -/
theorem race_next (h : (raceTasks calls).run schedule (raceAt s j mine other) = some c)
    (hdone : ∀ i, c.locals i = .done) (hmine : mine ≠ .done) :
    (∃ rest t l, schedule.map Prod.fst = j :: rest.map Prod.fst ∧
        recordStep (calls j) s mine = some (t, l) ∧
        (raceTasks calls).run rest (raceAt t j l other) = some c) ∨
      ∃ rest t l, schedule.map Prod.fst = (!j) :: rest.map Prod.fst ∧
        recordStep (calls (!j)) s other = some (t, l) ∧
        (raceTasks calls).run rest (raceAt t j mine l) = some c := by
  cases schedule with
  | nil =>
    cases h
    exact absurd (by simpa [raceAt] using hdone j) hmine
  | cons m rest =>
    obtain ⟨i, k⟩ := m
    by_cases hi : i = j
    · subst hi
      obtain ⟨t, l, hstep, hrest⟩ := race_turn h
      exact Or.inl ⟨rest, t, l, rfl, hstep, hrest⟩
    · have hnot : i = !j := by cases i <;> cases j <;> simp_all
      subst hnot
      rw [← raceAt_not] at h
      obtain ⟨t, l, hstep, hrest⟩ := race_turn h
      rw [raceAt_not] at hrest
      exact Or.inr ⟨rest, t, l, rfl, hstep, hrest⟩

/-- No task has a call left. -/
theorem race_over (h : (raceTasks calls).run schedule (raceAt s j .done .done) = some c) :
    schedule = [] ∧ c.shared = s := by
  cases schedule with
  | nil => cases h; exact ⟨rfl, rfl⟩
  | cons m rest =>
    obtain ⟨d, hd, -⟩ := Tasks.run_cons h
    obtain ⟨t, l, hstep, -⟩ := Tasks.turn_eq_some hd
    simp [raceAt, raceTasks, recordStep] at hstep

/-- Task `j` has its write left. -/
theorem race_write {exist : Bool}
    (h : (raceTasks calls).run schedule (raceAt s j (.write exist) .done) = some c)
    (hdone : ∀ i, c.locals i = .done) :
    schedule.map Prod.fst = [j] ∧ c.shared = (calls j).write exist s := by
  rcases race_next h hdone (by simp) with ⟨rest, t, l, horder, hstep, hrest⟩ |
    ⟨rest, t, l, -, hstep, -⟩
  · cases hstep
    obtain ⟨rfl, hshared⟩ := race_over hrest
    exact ⟨horder, hshared⟩
  · cases hstep

/-- Task `j` has both its calls left. -/
theorem race_insert (h : (raceTasks calls).run schedule (raceAt s j .find .done) = some c)
    (hdone : ∀ i, c.locals i = .done) :
    schedule.map Prod.fst = [j, j] ∧ c.shared = (calls j).insert s := by
  rcases race_next h hdone (by simp) with ⟨rest, t, l, horder, hstep, hrest⟩ |
    ⟨rest, t, l, -, hstep, -⟩
  · cases hstep
    obtain ⟨hlast, hshared⟩ := race_write hrest hdone
    exact ⟨by rw [horder, hlast], hshared⟩
  · cases hstep

/-- Both have looked at the same state. -/
theorem race_writes {mine other : Bool}
    (h : (raceTasks calls).run schedule (raceAt s j (.write mine) (.write other)) = some c)
    (hdone : ∀ i, c.locals i = .done) :
    schedule.map Prod.fst = [j, !j] ∧
        c.shared = (calls (!j)).write other ((calls j).write mine s) ∨
      schedule.map Prod.fst = [!j, j] ∧
        c.shared = (calls j).write mine ((calls (!j)).write other s) := by
  rcases race_next h hdone (by simp) with ⟨rest, t, l, horder, hstep, hrest⟩ |
    ⟨rest, t, l, horder, hstep, hrest⟩
  · cases hstep
    rw [← raceAt_not] at hrest
    obtain ⟨hlast, hshared⟩ := race_write hrest hdone
    exact Or.inl ⟨by rw [horder, hlast], hshared⟩
  · cases hstep
    obtain ⟨hlast, hshared⟩ := race_write hrest hdone
    exact Or.inr ⟨by rw [horder, hlast], hshared⟩

/-- **How a race ends.**  Let `j` take the last turn.  If it takes the one before too, its insert
comes after that of the other task; if not, it has looked before the other one wrote. -/
theorem race_outcome (h : (raceTasks calls).run schedule (raceStart s) = some c)
    (hdone : ∀ i, c.locals i = .done) :
    ∃ j, ([j, j] <:+ schedule.map Prod.fst ∧
        c.shared = (calls j).insert ((calls (!j)).insert s)) ∨
      ([!j, j] <:+ schedule.map Prod.fst ∧
        c.shared = (calls j).write ((calls j).find s) ((calls (!j)).insert s)) := by
  -- let `i` take the first turn: it looks
  have hfirst : ∃ i rest, schedule.map Prod.fst = i :: rest.map Prod.fst ∧
      (raceTasks calls).run rest (raceAt s i (.write ((calls i).find s)) .find) = some c := by
    rw [raceStart_eq s true] at h
    rcases race_next h hdone (by simp) with ⟨rest, t, l, horder, hstep, hrest⟩ |
      ⟨rest, t, l, horder, hstep, hrest⟩
    · cases hstep
      exact ⟨true, rest, horder, hrest⟩
    · cases hstep
      rw [← raceAt_not] at hrest
      exact ⟨false, rest, horder, hrest⟩
  obtain ⟨i, rest, horder, hrun⟩ := hfirst
  rcases race_next hrun hdone (by simp) with ⟨rest', t, l, horder', hstep, hrest⟩ |
    ⟨rest', t, l, horder', hstep, hrest⟩
  · -- it writes before the other one looks
    cases hstep
    rw [← raceAt_not] at hrest
    obtain ⟨hlast, hshared⟩ := race_insert hrest hdone
    refine ⟨!i, Or.inl ⟨⟨[i, i], ?_⟩, ?_⟩⟩
    · rw [horder, horder', hlast]
      rfl
    · rw [hshared, Bool.not_not]
      rfl
  · -- both look before either writes
    cases hstep
    rcases race_writes hrest hdone with ⟨hlast, hshared⟩ | ⟨hlast, hshared⟩
    · refine ⟨!i, Or.inr ⟨⟨[i, !i], ?_⟩, ?_⟩⟩
      · rw [horder, horder', hlast, Bool.not_not]
        rfl
      · rw [hshared, Bool.not_not]
        rfl
    · refine ⟨i, Or.inr ⟨⟨[i, !i], ?_⟩, hshared⟩⟩
      rw [horder, horder', hlast]
      rfl

/-! ## The flag of the row -/

/-- The record has one row with the flag `flag`, and what the calls do to it. -/
structure Held (calls : Bool → RecordCalls σ) (flags : σ → List Bool) (hits : Bool) (s : σ)
    (flag : Bool) : Prop where
  one : flags s = [flag]
  find : ∀ i, (calls i).find s = true
  create : ∀ i, (calls i).create s = s
  /-- The insert with the flag `true` leaves the row alone. -/
  leave : (calls true).update s = s
  /-- The other one clears the flag, if its update finds the row. -/
  clear : flags ((calls false).update s) = if hits then [false] else [flag]

/-- What holds of a table after a creation holds of the database it is part of. -/
theorem Held.on {calls : Bool → RecordCalls σ} {flags : σ → List Bool} {hits flag i : Bool}
    (get : δ → σ) (set : δ → σ → δ) {d : δ}
    (h : Held calls flags hits ((calls i).create (get d)) flag)
    (hget : ∀ t, get (set d t) = t) (hset : ∀ t t', set (set d t) t' = set d t') :
    Held (fun i => (calls i).on get set) (fun d => flags (get d)) hits
      (((calls i).on get set).create d) flag := by
  have hcreated : ((calls i).on get set).create d = set d ((calls i).create (get d)) := rfl
  rw [hcreated]
  refine ⟨?_, fun i' => ?_, fun i' => ?_, ?_, ?_⟩
  · rw [hget, h.one]
  · simp [RecordCalls.on, hget, h.find i']
  · simp [RecordCalls.on, hget, h.create i', hset]
  · simp [RecordCalls.on, hget, h.leave, hset]
  · simpa [RecordCalls.on, hget, hset] using h.clear

/-- What every insert keeps, a race keeps, if the calls find the same there. -/
theorem race_keeps (P : σ → Prop) (exist : Bool) (hfind : ∀ i s, P s → (calls i).find s = exist)
    (hinsert : ∀ i s, P s → P ((calls i).insert s)) (hs : P s)
    (h : (raceTasks calls).run schedule (raceStart s) = some c)
    (hdone : ∀ i, c.locals i = .done) : P c.shared := by
  obtain ⟨j, ⟨-, hshared⟩ | ⟨-, hshared⟩⟩ := race_outcome h hdone
  · rw [hshared]
    exact hinsert j _ (hinsert (!j) s hs)
  · have hother := hinsert (!j) s hs
    have hwrite : (calls j).write ((calls j).find s) ((calls (!j)).insert s) =
        (calls j).insert ((calls (!j)).insert s) := by
      rw [hfind j s hs, ← hfind j _ hother]
      rfl
    rw [hshared, hwrite]
    exact hinsert j _ hother

theorem suffix_pair_iff {α : Type*} {a b a' b' : α} {l : List α} (h : [a, b] <:+ l) :
    [a', b'] <:+ l ↔ a' = a ∧ b' = b := by
  obtain ⟨front, rfl⟩ := h
  constructor
  · rintro ⟨front', heq⟩
    have hends := (List.append_inj' heq rfl).2
    simpa using hends
  · rintro ⟨rfl, rfl⟩
    exact ⟨front, rfl⟩

/-- **When the flag ends cleared.**  Two inserts of a new record leave one row with the flag
`false` exactly if the last call is that of the insert with the flag `true`, or the last two are
those of the other one and its update finds the row. -/
theorem race_flag_iff (flags : σ → List Bool) (hits : Bool)
    (hnew : ∀ i, (calls i).find s = false)
    (hcreate : ∀ i, Held calls flags hits ((calls i).create s) i)
    (h : (raceTasks calls).run schedule (raceStart s) = some c)
    (hdone : ∀ i, c.locals i = .done) :
    flags c.shared = [false] ↔
      (schedule.map Prod.fst).getLast? = some true ∨
        [false, false] <:+ schedule.map Prod.fst ∧ hits = true := by
  have hinsert : ∀ i, (calls i).insert s = (calls i).create s := by
    intro i
    simp [RecordCalls.insert, hnew i]
  have hlast : ∀ {a b : Bool}, [a, b] <:+ schedule.map Prod.fst →
      (schedule.map Prod.fst).getLast? = some b := by
    rintro a b ⟨front, hfront⟩
    rw [← hfront]
    simp
  obtain ⟨j, ⟨horder, hshared⟩ | ⟨horder, hshared⟩⟩ := race_outcome h hdone
  · rw [hinsert] at hshared
    have hheld := hcreate (!j)
    rw [RecordCalls.insert, if_pos (hheld.find j)] at hshared
    rw [hshared, hlast horder, suffix_pair_iff horder]
    cases j with
    | true =>
      rw [hheld.leave, hheld.one]
      simp
    | false =>
      rw [hheld.clear]
      cases hits <;> simp
  · rw [hinsert, hnew j] at hshared
    have hheld := hcreate (!j)
    have hfail : (calls j).write false ((calls (!j)).create s) = (calls (!j)).create s := by
      simp [RecordCalls.write, hheld.create j]
    rw [hshared, hfail, hheld.one, hlast horder, suffix_pair_iff horder]
    cases j <;> simp
