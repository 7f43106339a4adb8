import TraderBackend.Api.RedisOI

/-!
# Overlapping observations

The first observation of a perpetual creates its time series, and sets the item of
`lastOi` when Redis has answered.  It does not look whether another call has set the item
meanwhile; only later observations compare timestamps.

* `oiStep_cases` — what a step does to `lastOi`.
* `Pending`, `Kept`, `Lost` — the newest observation is not set yet, it is the item, or
  it has been replaced by an older one.
* `latestOi_iff` — after the newest call has ended, its value is the last one **if and
  only if** no call that comes back from creating the series finds it there.
-/

namespace TraderBackend

/-- The call has looked at the item, and set it if it was to. -/
def OIAt.stored : OIAt → Bool
  | .add => true
  | .done _ => true
  | _ => false

/-- What a step does to the items: nothing, or a call with an item compares its timestamp, or a
call without one comes back from `createTimeSeriesKey`. -/
theorem oiStep_cases {call : OICall} {fails : Bool} {s s' : OIState} {l l' : OIAt}
    (h : oiStep call fails s l = some (s', l')) :
    s'.lastOi = s.lastOi ∧ l'.stored = l.stored ∨
      (l.stored = false ∧ l'.stored = true) ∧
        ((∃ item, s.lastOi.get? call.perpetualId = some item ∧
            s'.lastOi = if item.ts < call.tsMs then s.lastOi.set call.perpetualId call.obs
              else s.lastOi) ∨
          l = .keyReady ∧ s'.lastOi = s.lastOi.set call.perpetualId call.obs) := by
  cases l with
  | start =>
    simp only [oiStep] at h
    cases hitem : s.lastOi.get? call.perpetualId with
    | none =>
      rw [hitem] at h
      obtain ⟨rfl, rfl⟩ := Prod.mk.inj (Option.some.inj h)
      left
      split <;> exact ⟨rfl, rfl⟩
    | some item =>
      rw [hitem] at h
      obtain ⟨rfl, rfl⟩ := Prod.mk.inj (Option.some.inj h)
      refine Or.inr ⟨⟨rfl, rfl⟩, Or.inl ⟨item, rfl, ?_⟩⟩
      split <;> rfl
  | connect =>
    simp only [oiStep] at h
    split at h <;> (obtain ⟨rfl, rfl⟩ := Prod.mk.inj (Option.some.inj h); exact Or.inl ⟨rfl, rfl⟩)
  | timeSeriesExists =>
    simp only [oiStep] at h
    split at h <;> (obtain ⟨rfl, rfl⟩ := Prod.mk.inj (Option.some.inj h); exact Or.inl ⟨rfl, rfl⟩)
  | create =>
    simp only [oiStep] at h
    split at h
    · obtain ⟨rfl, rfl⟩ := Prod.mk.inj (Option.some.inj h)
      exact Or.inl ⟨rfl, rfl⟩
    · split at h <;>
        (obtain ⟨rfl, rfl⟩ := Prod.mk.inj (Option.some.inj h); exact Or.inl ⟨rfl, rfl⟩)
  | keyReady =>
    obtain ⟨rfl, rfl⟩ := Prod.mk.inj (Option.some.inj h)
    exact Or.inr ⟨⟨rfl, rfl⟩, Or.inr ⟨rfl, rfl⟩⟩
  | add =>
    simp only [oiStep] at h
    split at h
    · obtain ⟨rfl, rfl⟩ := Prod.mk.inj (Option.some.inj h)
      exact Or.inl ⟨rfl, rfl⟩
    · split at h <;>
        (obtain ⟨rfl, rfl⟩ := Prod.mk.inj (Option.some.inj h); exact Or.inl ⟨rfl, rfl⟩)
  | done ok => cases h

section

variable {ι : Type*} (calls : ι → OICall) (m : ι)

/-- Call `m` has the greatest timestamp of the calls for its perpetual. -/
def Newest : Prop :=
  ∀ i, i ≠ m → (calls i).perpetualId = (calls m).perpetualId → (calls i).tsMs < (calls m).tsMs

/-- Where a call for the perpetual comes back from creating the series, the newest observation is
not the item. -/
def NotReplaced (i : ι) (s : OIState) (l : OIAt) : Prop :=
  l = .keyReady → (calls i).perpetualId = (calls m).perpetualId →
    s.lastOi.get? (calls m).perpetualId ≠ some (calls m).obs

instance (i : ι) (s : OIState) (l : OIAt) : Decidable (NotReplaced calls m i s l) :=
  inferInstanceAs (Decidable (_ → _ → _))

/-- The item is that of an older call for the perpetual. -/
def OlderItem (s : OIState) (item : OIObs) : Prop :=
  s.lastOi.get? (calls m).perpetualId = some item ∧
    ∃ i, i ≠ m ∧ (calls i).perpetualId = (calls m).perpetualId ∧ item = (calls i).obs

/-- Call `m` has not set its item yet. -/
def Pending (c : Tasks.Config ι OIState OIAt) : Prop :=
  (c.locals m).stored = false ∧ ∀ item,
    c.shared.lastOi.get? (calls m).perpetualId = some item → OlderItem calls m c.shared item

/-- The item is that of call `m`. -/
def Kept (c : Tasks.Config ι OIState OIAt) : Prop :=
  (c.locals m).stored = true ∧
    c.shared.lastOi.get? (calls m).perpetualId = some (calls m).obs

/-- The item has been replaced by an older one. -/
def Lost (c : Tasks.Config ι OIState OIAt) : Prop :=
  (c.locals m).stored = true ∧ ∃ item, OlderItem calls m c.shared item

variable {calls m}

theorem OlderItem.ne (hm : Newest calls m) {s : OIState} {item : OIObs}
    (h : OlderItem calls m s item) : item.ts < (calls m).tsMs ∧ item ≠ (calls m).obs := by
  obtain ⟨-, i, hi, hp, rfl⟩ := h
  have hlt := hm i hi hp
  refine ⟨hlt, fun heq => ?_⟩
  exact hlt.ne (congrArg OIObs.ts heq)

variable [DecidableEq ι] {c c' : Tasks.Config ι OIState OIAt} {i : ι} {k : Bool}

/-- A turn, seen from call `m`: nothing changes, or call `m` looks at the item, or another call for
the perpetual sets it. -/
theorem turn_item (h : (oiTasks calls).turn c i k = some c') :
    ((c'.locals m).stored = (c.locals m).stored ∧
      c'.shared.lastOi.get? (calls m).perpetualId = c.shared.lastOi.get? (calls m).perpetualId) ∨
    (((c.locals m).stored = false ∧ (c'.locals m).stored = true) ∧
      (c'.shared.lastOi.get? (calls m).perpetualId = some (calls m).obs ∨
        ∃ item, c.shared.lastOi.get? (calls m).perpetualId = some item ∧
          ¬ item.ts < (calls m).tsMs)) ∨
    (((c'.locals m).stored = (c.locals m).stored ∧ i ≠ m) ∧
      (calls i).perpetualId = (calls m).perpetualId ∧
      c'.shared.lastOi.get? (calls m).perpetualId = some (calls i).obs ∧
      (c.locals i = .keyReady ∨ ∃ item, c.shared.lastOi.get? (calls m).perpetualId = some item ∧
        item.ts < (calls i).tsMs)) := by
  obtain ⟨s', l', hstep, rfl⟩ := Tasks.turn_eq_some h
  by_cases him : i = m
  · subst him
    simp only [Function.update_self]
    rcases oiStep_cases hstep with ⟨hitems, hstored⟩ | ⟨hstored, ⟨item, hitem, hset⟩ | ⟨-, hset⟩⟩
    · exact Or.inl ⟨hstored, by rw [hitems]⟩
    · refine Or.inr (Or.inl ⟨hstored, ?_⟩)
      by_cases hlt : item.ts < (calls i).tsMs
      · left
        rw [hset, if_pos hlt, OrdMap.get?_set_self]
      · exact Or.inr ⟨item, hitem, hlt⟩
    · refine Or.inr (Or.inl ⟨hstored, Or.inl ?_⟩)
      rw [hset, OrdMap.get?_set_self]
  · simp only [Function.update_of_ne (Ne.symm him), true_and]
    by_cases hp : (calls i).perpetualId = (calls m).perpetualId
    · rcases oiStep_cases hstep with ⟨hitems, -⟩ | ⟨-, ⟨item, hitem, hset⟩ | ⟨hready, hset⟩⟩
      · exact Or.inl (by rw [hitems])
      · by_cases hlt : item.ts < (calls i).tsMs
        · refine Or.inr (Or.inr ⟨him, hp, ?_, Or.inr ⟨item, hp ▸ hitem, hlt⟩⟩)
          rw [hset, if_pos hlt, ← hp, OrdMap.get?_set_self]
        · exact Or.inl (by rw [hset, if_neg hlt])
      · refine Or.inr (Or.inr ⟨him, hp, ?_, Or.inl hready⟩)
        rw [hset, ← hp, OrdMap.get?_set_self]
    · left
      rcases oiStep_cases hstep with ⟨hitems, -⟩ | ⟨-, ⟨item, -, hset⟩ | ⟨-, hset⟩⟩
      · rw [hitems]
      · rw [hset]
        split
        · exact OrdMap.get?_set_ne _ _ hp
        · rfl
      · rw [hset]
        exact OrdMap.get?_set_ne _ _ hp

/-- Before call `m` sets its item every turn meets the guard. -/
theorem Pending.turn (hm : Newest calls m) (hc : Pending calls m c)
    (h : (oiTasks calls).turn c i k = some c') :
    NotReplaced calls m i c.shared (c.locals i) ∧ (Pending calls m c' ∨ Kept calls m c') := by
  obtain ⟨hstored, hitems⟩ := hc
  refine ⟨fun _ _ hitem => ((hitems _ hitem).ne hm).2 rfl, ?_⟩
  rcases turn_item (m := m) h with ⟨hsame, hitem⟩ | ⟨⟨-, hset⟩, hitem | ⟨item, hitem, hle⟩⟩ |
    ⟨⟨hsame, him⟩, hp, hitem, -⟩
  · left
    refine ⟨hsame.trans hstored, fun item hget => ?_⟩
    obtain ⟨-, hold⟩ := hitems item (hitem ▸ hget)
    exact ⟨hget, hold⟩
  · exact Or.inr ⟨hset, hitem⟩
  · exact absurd ((hitems item hitem).ne hm).1 hle
  · left
    refine ⟨hsame.trans hstored, fun item hget => ⟨hget, i, him, hp, ?_⟩⟩
    rw [hitem] at hget
    exact (Option.some.inj hget).symm

/-- A turn that meets the guard keeps the item of call `m`. -/
theorem Kept.turn (hm : Newest calls m) (hc : Kept calls m c)
    (h : (oiTasks calls).turn c i k = some c')
    (hguard : NotReplaced calls m i c.shared (c.locals i)) : Kept calls m c' := by
  obtain ⟨hstored, hitem⟩ := hc
  rcases turn_item (m := m) h with ⟨hsame, hitem'⟩ | ⟨⟨hnot, -⟩, -⟩ |
    ⟨⟨-, him⟩, hp, -, hready | ⟨item, hget, hlt⟩⟩
  · exact ⟨hsame.trans hstored, hitem'.trans hitem⟩
  · rw [hstored] at hnot
    cases hnot
  · exact absurd hitem (hguard hready hp)
  · rw [hitem] at hget
    obtain rfl := Option.some.inj hget
    exact absurd hlt (hm i him hp).not_gt

/-- One that does not replaces it. -/
theorem Kept.replaced (hc : Kept calls m c) (h : (oiTasks calls).turn c i k = some c')
    (hguard : ¬ NotReplaced calls m i c.shared (c.locals i)) : Lost calls m c' := by
  obtain ⟨hstored, hitem⟩ := hc
  have hready : c.locals i = .keyReady := by
    by_contra hne
    exact hguard fun hready => absurd hready hne
  have hp : (calls i).perpetualId = (calls m).perpetualId := by
    by_contra hne
    exact hguard fun _ hp => absurd hp hne
  have him : i ≠ m := by
    rintro rfl
    rw [hready] at hstored
    cases hstored
  obtain ⟨s', l', hstep, rfl⟩ := Tasks.turn_eq_some h
  rw [hready] at hstep
  obtain ⟨rfl, rfl⟩ := Prod.mk.inj (Option.some.inj hstep)
  refine ⟨?_, (calls i).obs, ?_, i, him, hp, rfl⟩
  · simpa only [Function.update_of_ne (Ne.symm him)] using hstored
  · rw [← hp]
    exact OrdMap.get?_set_self ..

/-- What has been replaced does not come back. -/
theorem Lost.turn (hc : Lost calls m c) (h : (oiTasks calls).turn c i k = some c') :
    Lost calls m c' := by
  obtain ⟨hstored, item, hitem, hold⟩ := hc
  rcases turn_item (m := m) h with ⟨hsame, hitem'⟩ | ⟨⟨hnot, -⟩, -⟩ | ⟨⟨hsame, him⟩, hp, hitem', -⟩
  · exact ⟨hsame.trans hstored, item, hitem'.trans hitem, hold⟩
  · rw [hstored] at hnot
    cases hnot
  · exact ⟨hsame.trans hstored, (calls i).obs, hitem', i, him, hp, rfl⟩

theorem Lost.run {schedule : List (ι × Bool)} (hc : Lost calls m c)
    (h : (oiTasks calls).run schedule c = some c') : Lost calls m c' :=
  Tasks.run_induction (P := Lost calls m) (fun _ _ _ _ hd hturn => hd.turn hturn) hc h

/-- The run lemma: in the end the item of call `m` is still to be set, or it is there and every turn
met the guard, or it has been replaced and some turn did not. -/
theorem run_item (hm : Newest calls m) {schedule : List (ι × Bool)}
    (hc : Pending calls m c ∨ Kept calls m c) (h : (oiTasks calls).run schedule c = some c') :
    (Pending calls m c' ∨ Kept calls m c') ∧
        (oiTasks calls).Meets (NotReplaced calls m) schedule c ∨
      Lost calls m c' ∧ ¬ (oiTasks calls).Meets (NotReplaced calls m) schedule c := by
  induction schedule generalizing c with
  | nil =>
    cases h
    exact Or.inl ⟨hc, Tasks.meets_nil⟩
  | cons move schedule ih =>
    obtain ⟨i, k⟩ := move
    obtain ⟨d, hd, hrun⟩ := Tasks.run_cons h
    have hrest : (oiTasks calls).Meets (NotReplaced calls m) ((i, k) :: schedule) c ↔
        NotReplaced calls m i c.shared (c.locals i) ∧
          (oiTasks calls).Meets (NotReplaced calls m) schedule d := by
      rw [Tasks.meets_cons, hd]
      simp only [Option.some.injEq, forall_eq']
    rw [hrest]
    rcases hc with hpending | hkept
    · obtain ⟨hguard, hnext⟩ := hpending.turn hm hd
      simpa only [hguard, true_and] using ih hnext hrun
    · by_cases hguard : NotReplaced calls m i c.shared (c.locals i)
      · simpa only [hguard, true_and] using ih (Or.inr (hkept.turn hm hd hguard)) hrun
      · exact Or.inr ⟨(hkept.replaced hd hguard).run hrun, fun hmeets => hguard hmeets.1⟩

/-- **The latest open interest.**  Once the call with the greatest timestamp has ended, its value is
returned if no call for the perpetual came back from creating the series when the value was there
already; otherwise the value of an older call is returned. -/
theorem latestOi_iff (hm : Newest calls m) {isOpen : Bool} {redis : RedisSeries}
    {schedule : List (ι × Bool)}
    (hrun : (oiTasks calls).run schedule (oiStart isOpen redis) = some c)
    (hdone : ∃ ok, c.locals m = .done ok) :
    ((oiTasks calls).Meets (NotReplaced calls m) schedule (oiStart isOpen redis) →
      c.shared.get (calls m).perpetualId = (calls m).value) ∧
    (¬ (oiTasks calls).Meets (NotReplaced calls m) schedule (oiStart isOpen redis) →
      ∃ i, i ≠ m ∧ (calls i).perpetualId = (calls m).perpetualId ∧
        c.shared.get (calls m).perpetualId = (calls i).value) := by
  have hstart : Pending calls m (oiStart isOpen redis) := by
    refine ⟨rfl, fun item hitem => ?_⟩
    cases hitem
  obtain ⟨ok, hok⟩ := hdone
  rcases run_item hm (Or.inl hstart) hrun with ⟨hpending | hkept, hmeets⟩ | ⟨hlost, hnot⟩
  · rw [Pending, hok] at hpending
    cases hpending.1
  · refine ⟨fun _ => ?_, fun hnot => absurd hmeets hnot⟩
    rw [OIState.get, hkept.2]
    rfl
  · refine ⟨fun hmeets => absurd hmeets hnot, fun _ => ?_⟩
    obtain ⟨-, item, hitem, i, him, hp, rfl⟩ := hlost
    refine ⟨i, him, hp, ?_⟩
    rw [OIState.get, hitem]
    rfl

end

/-- Two observations of one perpetual; the first is the newer one. -/
def newerAndOlder : Fin 2 → OICall
  | 0 => ⟨10001, 25, 2000⟩
  | 1 => ⟨10001, 12, 1000⟩

theorem newest_newerAndOlder : Newest newerAndOlder 0 := by
  intro i hi _
  fin_cases i
  · exact absurd rfl hi
  · decide

/-- The law at work when the newer call begins while the older one creates the series. -/
theorem newer_while_creating :
    ∃ c, (oiTasks newerAndOlder).run
        [(1, false), (1, false), (0, false), (1, false), (1, false), (0, false), (0, false),
          (1, false), (0, false)] (oiStart true OrdMap.empty) = some c ∧
      c.shared.get 10001 = 25 := by
  refine ⟨((oiTasks newerAndOlder).run
    [(1, false), (1, false), (0, false), (1, false), (1, false), (0, false), (0, false),
      (1, false), (0, false)] (oiStart true OrdMap.empty)).get (by decide),
    (Option.some_get _).symm, ?_⟩
  refine (latestOi_iff newest_newerAndOlder (Option.some_get _).symm ⟨true, rfl⟩).1 ?_
  iterate 9
    refine Tasks.meets_cons.2 ⟨by decide, fun d hd => ?_⟩
    obtain rfl := Option.some.inj hd
  exact Tasks.meets_nil

/-- Both find no item; the older call resumes last and replaces the newer one's item, although no
command fails. -/
theorem older_resumes_last :
    ∃ c, (oiTasks newerAndOlder).run
        [(0, false), (1, false), (0, false), (1, false), (0, false), (1, false), (0, false),
          (1, false), (0, false), (1, false)] (oiStart true OrdMap.empty) = some c ∧
      (∀ i, c.locals i = .done true) ∧ (newerAndOlder 1).tsMs < (newerAndOlder 0).tsMs ∧
      c.shared.get 10001 = 12 ∧ (newerAndOlder 0).value = 25 := by
  refine ⟨((oiTasks newerAndOlder).run
    [(0, false), (1, false), (0, false), (1, false), (0, false), (1, false), (0, false),
      (1, false), (0, false), (1, false)] (oiStart true OrdMap.empty)).get (by decide),
    (Option.some_get _).symm, ?_, by decide, rfl, rfl⟩
  intro i
  fin_cases i <;> rfl

end TraderBackend
