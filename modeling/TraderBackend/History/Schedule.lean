import TraderBackend.Lib.Interleave
import TraderBackend.History.Gaps

/-!
# The schedule of the backfills

Three triggers in `main` start backfills: the start of the service, the timer of the
redundancy backfills and the timer of the gap detection.  `backfillRunning` is set by
`runBackfillGuarded` only; `detectAndFillGaps` starts its backfills without it.

* `BackfillPhase` — where a trigger stands between two of its `await`s.
* `scheduleTasks` — the triggers side by side; a completion or a failure, like the outcome
  of a detection, comes from outside.
* `GuardHeld` — what is true of every run: the flag is set exactly while a guarded
  backfill is in progress, and there is at most one of those.
* `backfills_exclusive_iff` — the flag tells of every backfill and there is never a second
  one **if and only if** no detection of the run finds a gap to fill.
-/

namespace TraderBackend

/-! ## The triggers -/

/-- What starts a backfill: the start of the service, or a tick of one of the timers. -/
inductive Trigger where
  | initial
  | redundancy (tick : ℕ)
  | gapDetection (tick : ℕ)
  deriving DecidableEq

/-- Where a trigger stands. -/
inductive BackfillPhase where
  /-- The timer has not come to this tick. -/
  | waiting
  /-- In `runBackfillGuarded`, its `runHistoricalDataFilterers` in progress. -/
  | guarded
  /-- In `detectAndFillGaps`, its queries on the way. -/
  | detecting
  /-- In `detectAndFillGaps`, the backfill from `sec` on in progress. -/
  | filling (sec : ℤ) (rest : List ℤ)
  | done
  deriving DecidableEq

/-- What comes from outside. -/
inductive BackfillSignal where
  /-- The timer ticks. -/
  | tick
  /-- The backfill in progress resolves. -/
  | completed
  /-- The backfill in progress throws. -/
  | failed
  /-- The queries for the gaps are answered. -/
  | detected (d : GapDetection)

/-- The loop of `detectAndFillGaps` at its next start. -/
def BackfillPhase.ofStarts : List ℤ → BackfillPhase
  | [] => .done
  | sec :: rest => .filling sec rest

/-- The start times `main` hands to `detectAndFillGaps`, in seconds. -/
structure ScheduleEnv where
  sevenDaysAgoSec : ℤ
  deploymentTimestamp : ℤ

def Trigger.startTimestampSec (env : ScheduleEnv) : Trigger → ℤ
  | .initial => env.sevenDaysAgoSec
  | _ => env.deploymentTimestamp

/-- The next step of a trigger; the shared state is `backfillRunning`. -/
def scheduleStep (env : ScheduleEnv) (i : Trigger) (signal : BackfillSignal)
    (backfillRunning : Bool) (phase : BackfillPhase) : Option (Bool × BackfillPhase) :=
  match i, signal, phase with
  | .redundancy _, .tick, .waiting =>
      if backfillRunning then some (true, .done) else some (true, .guarded)
  | .gapDetection _, .tick, .waiting =>
      if backfillRunning then some (true, .done) else some (false, .detecting)
  -- `finally`; the initial backfill goes on with the detection either way
  | .initial, .completed, .guarded => some (false, .detecting)
  | .initial, .failed, .guarded => some (false, .detecting)
  | .redundancy _, .completed, .guarded => some (false, .done)
  | .redundancy _, .failed, .guarded => some (false, .done)
  | i, .detected d, .detecting =>
      some (backfillRunning, .ofStarts (d.fillStarts (i.startTimestampSec env)))
  | _, .completed, .filling _ rest => some (backfillRunning, .ofStarts rest)
  | _, .failed, .filling _ _ => some (backfillRunning, .done)
  | _, _, _ => none

/-- The triggers side by side. -/
def scheduleTasks (env : ScheduleEnv) : Tasks Trigger BackfillSignal Bool BackfillPhase where
  step := scheduleStep env

/-- `main` has started the initial backfill and the timers. -/
def scheduleStart : Tasks.Config Trigger Bool BackfillPhase where
  shared := true
  locals i := if i = .initial then .guarded else .waiting

/-- A `runHistoricalDataFilterers` of the trigger is in progress. -/
def BackfillPhase.InProgress : BackfillPhase → Prop
  | .guarded => True
  | .filling _ _ => True
  | _ => False

instance : DecidablePred BackfillPhase.InProgress := fun phase =>
  match phase with
  | .waiting => isFalse id
  | .guarded => isTrue trivial
  | .detecting => isFalse id
  | .filling _ _ => isTrue trivial
  | .done => isFalse id

/-- At most one backfill is in progress, and `backfillRunning` is true exactly while one is. -/
def Exclusive (c : Tasks.Config Trigger Bool BackfillPhase) : Prop :=
  (∀ i j, (c.locals i).InProgress → (c.locals j).InProgress → i = j) ∧
    (c.shared = true ↔ ∃ i, (c.locals i).InProgress)

/-! ## What a step can do -/

variable {env : ScheduleEnv}

theorem ofStarts_ne_guarded (starts : List ℤ) : BackfillPhase.ofStarts starts ≠ .guarded := by
  cases starts <;> simp [BackfillPhase.ofStarts]

/-- A step takes the guard, gives it back, or leaves it alone. -/
theorem scheduleStep_cases {i : Trigger} {signal : BackfillSignal} {flag flag' : Bool}
    {phase phase' : BackfillPhase}
    (h : scheduleStep env i signal flag phase = some (flag', phase')) :
    (flag = false ∧ flag' = true ∧ phase = .waiting ∧ phase' = .guarded) ∨
      (flag' = false ∧ phase = .guarded ∧ phase' ≠ .guarded) ∨
      (flag' = flag ∧ phase ≠ .guarded ∧ phase' ≠ .guarded) := by
  unfold scheduleStep at h
  split at h
  · -- a tick of the redundancy timer
    cases flag with
    | true => cases h; simp
    | false => cases h; simp
  · -- a tick of the gap timer
    cases flag with
    | true => cases h; simp
    | false => cases h; simp
  · cases h; simp
  · cases h; simp
  · cases h; simp
  · cases h; simp
  · cases h; simp [ofStarts_ne_guarded]
  · cases h; simp [ofStarts_ne_guarded]
  · cases h; simp
  · cases h

/-- Who is filling after a step was filling before, or has just detected a gap. -/
theorem filling_of_scheduleStep {i : Trigger} {signal : BackfillSignal} {flag flag' : Bool}
    {phase : BackfillPhase} {sec : ℤ} {rest : List ℤ}
    (h : scheduleStep env i signal flag phase = some (flag', .filling sec rest)) :
    (∃ sec' rest', phase = .filling sec' rest') ∨
      ∃ d, signal = .detected d ∧ d.fillStarts (i.startTimestampSec env) ≠ [] := by
  unfold scheduleStep at h
  split at h
  · cases flag <;> cases h
  · cases flag <;> cases h
  · cases h
  · cases h
  · cases h
  · cases h
  · rename_i d
    refine Or.inr ⟨d, rfl, ?_⟩
    intro hnil
    rw [hnil] at h
    cases h
  · rename_i sec' rest'
    exact Or.inl ⟨sec', rest', rfl⟩
  · cases h
  · cases h

/-- A detection is answered where it was asked for, and leads to the first start it finds. -/
theorem scheduleStep_detected {i : Trigger} {d : GapDetection} {flag flag' : Bool}
    {phase phase' : BackfillPhase}
    (h : scheduleStep env i (.detected d) flag phase = some (flag', phase')) :
    phase' = .ofStarts (d.fillStarts (i.startTimestampSec env)) := by
  cases phase <;> cases i <;> cases h <;> rfl

/-! ## The guard -/

/-- The flag is set exactly while a guarded backfill is in progress, and there is one at most. -/
structure GuardHeld (c : Tasks.Config Trigger Bool BackfillPhase) : Prop where
  flag : c.shared = true ↔ ∃ i, c.locals i = .guarded
  unique : ∀ i j, c.locals i = .guarded → c.locals j = .guarded → i = j

theorem guardHeld_start : GuardHeld scheduleStart := by
  have honly : ∀ i, scheduleStart.locals i = .guarded → i = .initial := by
    intro i hi
    by_contra hne
    simp [scheduleStart, hne] at hi
  constructor
  · exact ⟨fun _ => ⟨.initial, rfl⟩, fun _ => rfl⟩
  · intro i j hi hj
    rw [honly i hi, honly j hj]

/-- One turn. -/
theorem guardHeld_turn {c c' : Tasks.Config Trigger Bool BackfillPhase} {i : Trigger}
    {signal : BackfillSignal} (hc : GuardHeld c)
    (h : (scheduleTasks env).turn c i signal = some c') : GuardHeld c' := by
  obtain ⟨flag', phase', hstep, rfl⟩ := Tasks.turn_eq_some h
  have hother : ∀ j, j ≠ i → Function.update c.locals i phase' j = c.locals j :=
    fun j hj => Function.update_of_ne hj _ _
  have hself : Function.update c.locals i phase' i = phase' := Function.update_self ..
  rcases scheduleStep_cases hstep with ⟨hflag, rfl, hphase, rfl⟩ | ⟨rfl, hphase, hnot⟩ |
    ⟨rfl, hphase, hnot⟩
  · -- nobody is guarded while the flag is down
    have hnobody : ∀ j, c.locals j ≠ .guarded := by
      intro j hj
      rw [hc.flag.2 ⟨j, hj⟩] at hflag
      cases hflag
    have honly : ∀ j, Function.update c.locals i .guarded j = .guarded → j = i := by
      intro j hj
      by_contra hne
      rw [hother j hne] at hj
      exact hnobody j hj
    constructor
    · exact ⟨fun _ => ⟨i, hself⟩, fun _ => rfl⟩
    · intro j k hj hk
      rw [honly j hj, honly k hk]
  · -- the guarded one leaves
    have hnobody : ∀ j, Function.update c.locals i phase' j ≠ .guarded := by
      intro j hj
      by_cases hji : j = i
      · rw [hji, hself] at hj
        exact hnot hj
      · rw [hother j hji] at hj
        exact hji (hc.unique j i hj hphase)
    constructor
    · constructor
      · intro hfalse
        cases hfalse
      · rintro ⟨j, hj⟩
        exact absurd hj (hnobody j)
    · intro j k hj
      exact absurd hj (hnobody j)
  · -- the guarded ones are the same
    have hsame : ∀ j, Function.update c.locals i phase' j = .guarded ↔ c.locals j = .guarded := by
      intro j
      by_cases hji : j = i
      · rw [hji, hself]
        exact iff_of_false hnot hphase
      · rw [hother j hji]
    constructor
    · show c.shared = true ↔ ∃ j, Function.update c.locals i phase' j = .guarded
      rw [hc.flag]
      exact exists_congr fun j => (hsame j).symm
    · intro j k hj hk
      exact hc.unique j k ((hsame j).1 hj) ((hsame k).1 hk)

theorem guardHeld_run {schedule : List (Trigger × BackfillSignal)}
    {c : Tasks.Config Trigger Bool BackfillPhase}
    (h : (scheduleTasks env).run schedule scheduleStart = some c) : GuardHeld c :=
  Tasks.run_induction (fun _ _ _ _ hc hturn => guardHeld_turn hc hturn) guardHeld_start h

/-! ## When backfills exclude each other -/

/-- A backfill of the gap detection is not told by the flag, or it is the second one. -/
theorem not_exclusive_of_filling {c : Tasks.Config Trigger Bool BackfillPhase} (hc : GuardHeld c)
    {i : Trigger} {sec : ℤ} {rest : List ℤ} (hi : c.locals i = .filling sec rest) :
    ¬ Exclusive c := by
  rintro ⟨hone, hflag⟩
  have hprogress : (c.locals i).InProgress := by
    rw [hi]
    trivial
  obtain ⟨j, hj⟩ := hc.flag.1 (hflag.2 ⟨i, hprogress⟩)
  have hprogress' : (c.locals j).InProgress := by
    rw [hj]
    trivial
  rw [hone i j hprogress hprogress', hj] at hi
  cases hi

/-- Without such backfills the guard is all there is. -/
theorem exclusive_of_not_filling {c : Tasks.Config Trigger Bool BackfillPhase} (hc : GuardHeld c)
    (hno : ∀ i sec rest, c.locals i ≠ .filling sec rest) : Exclusive c := by
  have hguarded : ∀ i, (c.locals i).InProgress ↔ c.locals i = .guarded := by
    intro i
    cases hi : c.locals i with
    | guarded => exact iff_of_true trivial rfl
    | filling sec rest => exact absurd hi (hno i sec rest)
    | waiting => exact iff_of_false id (by simp)
    | detecting => exact iff_of_false id (by simp)
    | done => exact iff_of_false id (by simp)
  constructor
  · intro i j hi hj
    exact hc.unique i j ((hguarded i).1 hi) ((hguarded j).1 hj)
  · rw [hc.flag]
    exact exists_congr fun i => (hguarded i).symm

/-- Nobody fills a gap as long as no detection finds one. -/
theorem not_filling_run {schedule : List (Trigger × BackfillSignal)}
    {c : Tasks.Config Trigger Bool BackfillPhase}
    (h : (scheduleTasks env).run schedule scheduleStart = some c)
    (hnone : ∀ i d, (i, .detected d) ∈ schedule → d.fillStarts (i.startTimestampSec env) = []) :
    ∀ i sec rest, c.locals i ≠ .filling sec rest := by
  induction schedule using List.reverseRecOn generalizing c with
  | nil =>
    cases h
    intro i sec rest
    simp only [scheduleStart]
    split <;> simp
  | append_singleton schedule step ih =>
    obtain ⟨i, signal⟩ := step
    rw [Tasks.run_append] at h
    obtain ⟨c₁, hc₁, hlast⟩ := Option.bind_eq_some_iff.1 h
    obtain ⟨c₂, hturn, hend⟩ := Tasks.run_cons hlast
    cases hend
    obtain ⟨flag', phase', hstep, rfl⟩ := Tasks.turn_eq_some hturn
    have hbefore := ih hc₁ fun j d hj => hnone j d (List.mem_append_left _ hj)
    intro j sec rest
    by_cases hji : j = i
    · subst hji
      show Function.update c₁.locals j phase' j ≠ _
      rw [Function.update_self]
      rintro rfl
      rcases filling_of_scheduleStep hstep with ⟨sec', rest', hphase⟩ | ⟨d, rfl, hfound⟩
      · exact hbefore j sec' rest' hphase
      · exact hfound (hnone j d (List.mem_append_right _ (List.mem_singleton_self _)))
    · show Function.update c₁.locals i phase' j ≠ _
      rw [Function.update_of_ne hji]
      exact hbefore j sec rest

/-- **When backfills exclude each other.**  In every state of a run there is at most one backfill
in progress, and `backfillRunning` is true exactly while there is one, if and only if no detection
of the run finds a gap to fill. -/
theorem backfills_exclusive_iff (env : ScheduleEnv) {schedule : List (Trigger × BackfillSignal)}
    {c : Tasks.Config Trigger Bool BackfillPhase}
    (h : (scheduleTasks env).run schedule scheduleStart = some c) :
    (∀ past c', past <+: schedule → (scheduleTasks env).run past scheduleStart = some c' →
        Exclusive c') ↔
      ∀ i d, (i, .detected d) ∈ schedule → d.fillStarts (i.startTimestampSec env) = [] := by
  constructor
  · intro hall i d hmem
    by_contra hfound
    obtain ⟨past, rest, rfl⟩ := List.append_of_mem hmem
    rw [List.append_cons, Tasks.run_append] at h
    obtain ⟨c', hc', -⟩ := Option.bind_eq_some_iff.1 h
    have hexclusive := hall (past ++ [(i, .detected d)]) c'
      ⟨rest, by rw [List.append_assoc, List.singleton_append]⟩ hc'
    rw [Tasks.run_append] at hc'
    obtain ⟨c₁, hc₁, hlast⟩ := Option.bind_eq_some_iff.1 hc'
    obtain ⟨c₂, hturn, hend⟩ := Tasks.run_cons hlast
    cases hend
    obtain ⟨flag', phase', hstep, rfl⟩ := Tasks.turn_eq_some hturn
    obtain ⟨sec, rest', hstarts⟩ := List.exists_cons_of_ne_nil hfound
    have hfilling : Function.update c₁.locals i phase' i = .filling sec rest' := by
      rw [Function.update_self, scheduleStep_detected hstep, hstarts]
      rfl
    exact not_exclusive_of_filling (guardHeld_turn (guardHeld_run hc₁) hturn) hfilling hexclusive
  · intro hnone past c' hpast hrun
    apply exclusive_of_not_filling (guardHeld_run hrun)
    exact not_filling_run hrun fun i d hmem => hnone i d (hpast.subset hmem)

/-- The first seven days, and a contract deployed at block 1. -/
def sampleSchedule : ScheduleEnv := ⟨tenDays 8 - 7 * 24 * 3600, tenDays 1⟩

/-- The initial backfill completes and its detection finds a gap; then the redundancy timer
ticks. -/
def tickWhileFilling : List (Trigger × BackfillSignal) :=
  [(.initial, .completed), (.initial, .detected middleDetected), (.redundancy 0, .tick)]

/-- First the flag is down while a backfill is in progress, then there are two of them. -/
theorem tickWhileFilling_overlaps :
    (∃ c, (scheduleTasks sampleSchedule).run (tickWhileFilling.take 2) scheduleStart = some c ∧
        c.shared = false ∧ (c.locals .initial).InProgress) ∧
      ∃ c, (scheduleTasks sampleSchedule).run tickWhileFilling scheduleStart = some c ∧
        (c.locals .initial).InProgress ∧ (c.locals (.redundancy 0)).InProgress := by
  exact ⟨⟨_, rfl, by decide, by decide⟩, ⟨_, rfl, by decide, by decide⟩⟩

/-- The same with empty tables. -/
def tickWithoutGaps : List (Trigger × BackfillSignal) :=
  [(.initial, .completed),
    (.initial, .detected ⟨fun _ => HistoryDb.empty, fun _ => 0, fun _ => false⟩),
    (.redundancy 0, .tick)]

/-- Empty tables have no gaps, and the redundancy backfill is alone. -/
theorem tickWithoutGaps_exclusive :
    (∃ c, (scheduleTasks sampleSchedule).run tickWithoutGaps scheduleStart = some c ∧
        (c.locals (.redundancy 0)).InProgress) ∧
      ∀ past c', past <+: tickWithoutGaps →
        (scheduleTasks sampleSchedule).run past scheduleStart = some c' → Exclusive c' := by
  refine ⟨⟨_, rfl, by decide⟩, ?_⟩
  apply (backfills_exclusive_iff sampleSchedule rfl).2
  intro i d hmem
  obtain ⟨rfl, rfl⟩ : i = .initial ∧
      d = ⟨fun _ => HistoryDb.empty, fun _ => 0, fun _ => false⟩ := by
    simpa [tickWithoutGaps] using hmem
  decide

end TraderBackend
