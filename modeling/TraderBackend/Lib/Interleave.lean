import Mathlib

/-!
# Tasks that take turns

Asynchronous functions of an event loop share a state and give up control at
every `await`: between two of its steps a task sees whatever the others did.

* **The system.**  `Tasks` gives the next step of a task in a given local state;
  what the environment decides in that step is an argument of it.  `Tasks.run`
  executes a schedule, a list saying which task moves next.
* **Proof outlines.**  `Outline` collects what has to be checked to know an
  invariant of the shared state and an assertion for every local state: a step
  establishes its own and does not disturb those of the others.  `Outline.run`
  gives both after every schedule.
* **One task on its own.**  `Tasks.solo` lets a task move while the others wait.
* **Guards.**  `Tasks.restrict` lets a task move only where a guard holds; a run whose
  turns all meet the guard is a run of the restricted system.
* **One task after the other.**  `Tasks.Serial` says that the other tasks rest whenever one
  moves; what such turns keep gives a guard: `Tasks.Serial.meets`.
* **Balances.**  `turn_conserved`: what every step keeps of the shared state and its task
  together, a turn keeps of the shared state and all tasks.  `turns_le`: a rank that falls with
  every turn of a task bounds the number of its turns.
* **Moves of a whole state.**  `ReachedBy` is for systems that start tasks as they go.
-/

/-- Tasks `ι` with local states `Λ` over a shared state `σ`; `κ` is what the environment
decides. -/
structure Tasks (ι κ σ Λ : Type*) where
  /-- The next step of a task; a finished task has none. -/
  step : ι → κ → σ → Λ → Option (σ × Λ)

namespace Tasks

variable {ι κ σ Λ : Type*}

/-- The shared state and where every task stands. -/
structure Config (ι σ Λ : Type*) where
  shared : σ
  locals : ι → Λ

variable [DecidableEq ι] (T : Tasks ι κ σ Λ)

/-- One turn of task `i`. -/
def turn (c : Config ι σ Λ) (i : ι) (k : κ) : Option (Config ι σ Λ) :=
  (T.step i k c.shared (c.locals i)).map fun r => ⟨r.1, Function.update c.locals i r.2⟩

/-- A schedule; it is no run if it lets a finished task move. -/
def run : List (ι × κ) → Config ι σ Λ → Option (Config ι σ Λ)
  | [], c => some c
  | (i, k) :: schedule, c => (T.turn c i k).bind fun c' => run schedule c'

variable {T}

theorem turn_eq_some {c c' : Config ι σ Λ} {i : ι} {k : κ} (h : T.turn c i k = some c') :
    ∃ s l, T.step i k c.shared (c.locals i) = some (s, l) ∧
      c' = ⟨s, Function.update c.locals i l⟩ := by
  obtain ⟨⟨s, l⟩, hstep, hc⟩ := Option.map_eq_some_iff.1 h
  exact ⟨s, l, hstep, hc.symm⟩

theorem run_cons {i : ι} {k : κ} {schedule : List (ι × κ)} {c c' : Config ι σ Λ}
    (h : T.run ((i, k) :: schedule) c = some c') :
    ∃ d, T.turn c i k = some d ∧ T.run schedule d = some c' :=
  Option.bind_eq_some_iff.1 h

theorem run_append (schedule schedule' : List (ι × κ)) (c : Config ι σ Λ) :
    T.run (schedule ++ schedule') c = (T.run schedule c).bind fun d => T.run schedule' d := by
  induction schedule generalizing c with
  | nil => rfl
  | cons m schedule ih =>
    obtain ⟨i, k⟩ := m
    simp only [List.cons_append, run]
    cases T.turn c i k with
    | none => rfl
    | some d => exact ih d

/-- What every turn keeps, every run keeps. -/
theorem run_induction {P : Config ι σ Λ → Prop}
    (hturn : ∀ c c' i k, P c → T.turn c i k = some c' → P c') {schedule : List (ι × κ)}
    {c c' : Config ι σ Λ} (hc : P c) (h : T.run schedule c = some c') : P c' := by
  induction schedule generalizing c with
  | nil => cases h; exact hc
  | cons m schedule ih =>
    obtain ⟨i, k⟩ := m
    obtain ⟨d, hd, hrest⟩ := run_cons h
    exact ih (hturn c d i k hc hd) hrest

variable (T)

/-- A proof outline: `inv` for the shared state, `holds i l` for task `i` in local state
`l`. -/
structure Outline (inv : σ → Prop) (holds : ι → Λ → σ → Prop) : Prop where
  /-- A step keeps the invariant and establishes its own assertion. -/
  step : ∀ i k s l s' l', T.step i k s l = some (s', l') → inv s → holds i l s →
    inv s' ∧ holds i l' s'
  /-- A step does not disturb the assertion of another task. -/
  frame : ∀ i k s l s' l' j m, i ≠ j → T.step i k s l = some (s', l') → inv s → holds i l s →
    holds j m s → holds j m s'

variable {T}

/-- A proof outline holds along every run. -/
theorem Outline.run {inv : σ → Prop} {holds : ι → Λ → σ → Prop} (h : T.Outline inv holds)
    {schedule : List (ι × κ)} {c c' : Config ι σ Λ} (hinv : inv c.shared)
    (hholds : ∀ i, holds i (c.locals i) c.shared) (hrun : T.run schedule c = some c') :
    inv c'.shared ∧ ∀ i, holds i (c'.locals i) c'.shared := by
  have hturn : ∀ (d d' : Config ι σ Λ) (i : ι) (k : κ),
      (inv d.shared ∧ ∀ j, holds j (d.locals j) d.shared) → T.turn d i k = some d' →
      inv d'.shared ∧ ∀ j, holds j (d'.locals j) d'.shared := by
    rintro d d' i k ⟨hd, hall⟩ hstep
    obtain ⟨s, l, hs, rfl⟩ := turn_eq_some hstep
    obtain ⟨hinv', hown⟩ := h.step i k _ _ s l hs hd (hall i)
    refine ⟨hinv', fun j => ?_⟩
    by_cases hij : i = j
    · subst hij
      simpa using hown
    · have hother := h.frame i k _ _ s l j (d.locals j) hij hs hd (hall i) (hall j)
      simpa [Function.update_of_ne (Ne.symm hij)] using hother
  exact run_induction (P := fun c => inv c.shared ∧ ∀ i, holds i (c.locals i) c.shared) hturn
    ⟨hinv, hholds⟩ hrun

/-! ## One task on its own -/

/-- A task taking `n` turns while the others wait. -/
def solo (T : Tasks ι κ σ Λ) (i : ι) (k : κ) : ℕ → σ × Λ → Option (σ × Λ)
  | 0, r => some r
  | n + 1, r => (T.step i k r.1 r.2).bind (T.solo i k n)

theorem run_replicate (i : ι) (k : κ) (n : ℕ) (c : Config ι σ Λ) :
    T.run (List.replicate n (i, k)) c =
      (T.solo i k n (c.shared, c.locals i)).map fun r =>
        ⟨r.1, Function.update c.locals i r.2⟩ := by
  induction n generalizing c with
  | zero => simp [run, solo]
  | succ n ih =>
    simp only [List.replicate_succ, run, turn, solo]
    cases T.step i k c.shared (c.locals i) with
    | none => rfl
    | some r =>
      show T.run (List.replicate n (i, k)) ⟨r.1, Function.update c.locals i r.2⟩ = _
      rw [ih]
      simp

/-! ## Guards -/

open Classical in
/-- The tasks when only turns that meet the guard are allowed. -/
noncomputable def restrict (T : Tasks ι κ σ Λ) (guard : ι → σ → Λ → Prop) : Tasks ι κ σ Λ where
  step i k s l := if guard i s l then T.step i k s l else none

omit [DecidableEq ι] in
theorem restrict_step {guard : ι → σ → Λ → Prop} {i : ι} {k : κ} {s : σ} {l : Λ} {r : σ × Λ}
    (h : (T.restrict guard).step i k s l = some r) : guard i s l ∧ T.step i k s l = some r := by
  by_cases hg : guard i s l
  · exact ⟨hg, by simpa [restrict, hg] using h⟩
  · simp [restrict, hg] at h

/-- Every turn of the schedule meets the guard in the state it is taken in. -/
def Meets (T : Tasks ι κ σ Λ) (guard : ι → σ → Λ → Prop) (schedule : List (ι × κ))
    (c : Config ι σ Λ) : Prop :=
  ∀ before i k after d, schedule = before ++ (i, k) :: after → T.run before c = some d →
    guard i d.shared (d.locals i)

theorem meets_nil {guard : ι → σ → Λ → Prop} {c : Config ι σ Λ} : T.Meets guard [] c := by
  intro before i k after d hsplit
  simp at hsplit

theorem meets_cons {guard : ι → σ → Λ → Prop} {i : ι} {k : κ} {schedule : List (ι × κ)}
    {c : Config ι σ Λ} :
    T.Meets guard ((i, k) :: schedule) c ↔
      guard i c.shared (c.locals i) ∧ ∀ d, T.turn c i k = some d → T.Meets guard schedule d := by
  constructor
  · intro h
    refine ⟨h [] i k schedule c rfl rfl, fun d hd before j k' after d' hsplit hrun => ?_⟩
    apply h ((i, k) :: before) j k' after d' (by rw [hsplit]; rfl)
    simpa [run, hd] using hrun
  · rintro ⟨hg, hrest⟩ before j k' after d' hsplit hrun
    cases before with
    | nil =>
      cases hsplit
      cases hrun
      exact hg
    | cons m before =>
      obtain ⟨rfl, rfl⟩ := List.cons.inj hsplit
      obtain ⟨d, hd, hrun⟩ := run_cons hrun
      exact hrest d hd before j k' after d' rfl hrun

/-- A run that meets the guard is a run of the restricted system. -/
theorem run_restrict {guard : ι → σ → Λ → Prop} {schedule : List (ι × κ)} {c : Config ι σ Λ}
    (h : T.Meets guard schedule c) : (T.restrict guard).run schedule c = T.run schedule c := by
  induction schedule generalizing c with
  | nil => rfl
  | cons m schedule ih =>
    obtain ⟨i, k⟩ := m
    obtain ⟨hg, hrest⟩ := meets_cons.1 h
    have hturn : (T.restrict guard).turn c i k = T.turn c i k := by simp [turn, restrict, hg]
    simp only [run, hturn]
    cases hd : T.turn c i k with
    | none => rfl
    | some d => exact ih (hrest d hd)

/-! ## One task after the other -/

/-- Whenever a task moves, the others rest: they have not begun, or they have ended. -/
def Serial (T : Tasks ι κ σ Λ) (rests : Λ → Prop) (schedule : List (ι × κ))
    (c : Config ι σ Λ) : Prop :=
  ∀ before i k after d, schedule = before ++ (i, k) :: after → T.run before c = some d →
    ∀ j, j ≠ i → rests (d.locals j)

theorem serial_cons {rests : Λ → Prop} {i : ι} {k : κ} {schedule : List (ι × κ)}
    {c : Config ι σ Λ} (h : T.Serial rests ((i, k) :: schedule) c) :
    (∀ j, j ≠ i → rests (c.locals j)) ∧ ∀ d, T.turn c i k = some d → T.Serial rests schedule d := by
  refine ⟨h [] i k schedule c rfl rfl, fun d hd before j k' after d' hsplit hrun => ?_⟩
  apply h ((i, k) :: before) j k' after d' (by rw [hsplit]; rfl)
  simpa [run, hd] using hrun

/-- A serial run meets a guard that holds of the moving task while the others rest, by an
invariant kept by turns of that kind. -/
theorem Serial.meets {rests : Λ → Prop} {guard : ι → σ → Λ → Prop} {P : Config ι σ Λ → Prop}
    (hguard : ∀ c i, P c → (∀ j, j ≠ i → rests (c.locals j)) → guard i c.shared (c.locals i))
    (hturn : ∀ c c' i k, P c → (∀ j, j ≠ i → rests (c.locals j)) → T.turn c i k = some c' → P c')
    {schedule : List (ι × κ)} {c : Config ι σ Λ} (hc : P c) (h : T.Serial rests schedule c) :
    T.Meets guard schedule c := by
  induction schedule generalizing c with
  | nil => exact meets_nil
  | cons m schedule ih =>
    obtain ⟨i, k⟩ := m
    obtain ⟨hrest, hserial⟩ := serial_cons h
    exact meets_cons.2 ⟨hguard c i hc hrest, fun d hd =>
      ih (hturn c d i k hc hrest hd) (hserial d hd)⟩

/-! ## Balances -/

open Finset in
/-- What every step keeps of the shared state and its task together, a turn keeps of the shared
state and all tasks. -/
theorem turn_conserved [Fintype ι] {M : Type*} [AddCommMonoid M] {f : σ → M} {g : Λ → M}
    (hstep : ∀ i k s l s' l', T.step i k s l = some (s', l') → f s' + g l' = f s + g l)
    {c c' : Config ι σ Λ} {i : ι} {k : κ} (h : T.turn c i k = some c') :
    f c'.shared + ∑ j, g (c'.locals j) = f c.shared + ∑ j, g (c.locals j) := by
  obtain ⟨s, l, hs, rfl⟩ := turn_eq_some h
  have hothers : ∑ j ∈ univ.erase i, g (Function.update c.locals i l j) =
      ∑ j ∈ univ.erase i, g (c.locals j) := by
    refine sum_congr rfl fun j hj => ?_
    rw [Function.update_of_ne (ne_of_mem_erase hj)]
  calc f s + ∑ j, g (Function.update c.locals i l j)
      = f s + g l + ∑ j ∈ univ.erase i, g (c.locals j) := by
        rw [← add_sum_erase univ _ (mem_univ i), hothers, Function.update_self, add_assoc]
    _ = f c.shared + g (c.locals i) + ∑ j ∈ univ.erase i, g (c.locals j) := by
        rw [hstep i k _ _ s l hs]
    _ = f c.shared + ∑ j, g (c.locals j) := by
        rw [add_assoc, add_sum_erase univ (fun j => g (c.locals j)) (mem_univ i)]

/-- A rank that falls with every turn of a task bounds the number of its turns. -/
theorem turns_le {P : Config ι σ Λ → Prop} {rank : Λ → ℕ} {i : ι}
    (hturn : ∀ c c' j k, P c → T.turn c j k = some c' → P c')
    (hrank : ∀ c c' k, P c → T.turn c i k = some c' →
      rank (c'.locals i) < rank (c.locals i))
    {schedule : List (ι × κ)} {c c' : Config ι σ Λ} (hc : P c) (h : T.run schedule c = some c') :
    (schedule.countP fun m => m.1 = i) + rank (c'.locals i) ≤ rank (c.locals i) := by
  induction schedule generalizing c with
  | nil =>
    cases h
    simp
  | cons m schedule ih =>
    obtain ⟨j, k⟩ := m
    obtain ⟨d, hd, hrest⟩ := run_cons h
    have hafter := ih (hturn c d j k hc hd) hrest
    by_cases hji : j = i
    · subst hji
      have hfalls := hrank c d k hc hd
      rw [List.countP_cons_of_pos (by simp)]
      omega
    · obtain ⟨s, l, -, rfl⟩ := turn_eq_some hd
      rw [List.countP_cons_of_neg (by simpa using hji)]
      simpa [Function.update_of_ne (Ne.symm hji)] using hafter

end Tasks

/-! ## Moves of a whole state -/

section

variable {σ μ : Type*} {step : σ → μ → Option σ} {s t u : σ}

/-- The state is reached from another one by a list of moves.  Where tasks start others, the state
holds them all and a move says which of them goes on. -/
def ReachedBy (step : σ → μ → Option σ) (s t : σ) : Prop :=
  ∃ moves : List μ, moves.foldlM step s = some t

theorem ReachedBy.refl (step : σ → μ → Option σ) (s : σ) : ReachedBy step s s := ⟨[], rfl⟩

theorem ReachedBy.tail (h : ReachedBy step s t) {m : μ} (hm : step t m = some u) :
    ReachedBy step s u := by
  obtain ⟨moves, hmoves⟩ := h
  refine ⟨moves ++ [m], ?_⟩
  rw [List.foldlM_append, hmoves]
  simpa using hm

/-- A run that goes through, as a state that can be computed. -/
theorem ReachedBy.getD (moves : List μ) (h : (moves.foldlM step s).isSome) :
    ReachedBy step s ((moves.foldlM step s).getD s) := by
  obtain ⟨t, ht⟩ := Option.isSome_iff_exists.1 h
  exact ⟨moves, by rw [ht, Option.getD_some]⟩

/-- What every move keeps is true of every state reached. -/
theorem ReachedBy.induction {P : σ → Prop} (h : ReachedBy step s t) (hs : P s)
    (hstep : ∀ u v m, P u → step u m = some v → P v) : P t := by
  obtain ⟨moves, hmoves⟩ := h
  induction moves using List.reverseRecOn generalizing t with
  | nil => cases hmoves; exact hs
  | append_singleton moves m ih =>
    rw [List.foldlM_append] at hmoves
    obtain ⟨u, hu, hlast⟩ := Option.bind_eq_some_iff.1 hmoves
    exact hstep u t m (ih hu) (by simpa using hlast)

end
