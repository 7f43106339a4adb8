import Mathlib

/-!
# Single flight

A field that holds the promise of a running body, so that callers share the body instead of
starting another one.  Bodies are numbered in the order they start; the number stands for the
promise.

* `Flight` — the field, the bodies in progress and where each stands, and what settled
  promises gave.
* `enter`, `advance`, `finish` — a caller asks for the body, a body goes on to its next await, a
  body ends and clears the field.
* `Single` — no body and an empty field, or one body and its promise in the field; every
  operation keeps it.
-/

/-- A guarded body.  `Λ` is where a body can stand, `α` what it returns; `none` is a
rejection. -/
structure Flight (Λ α : Type*) where
  inflight : Option ℕ
  running : List (ℕ × Λ)
  settled : List (ℕ × Option α)
  started : ℕ

namespace Flight

variable {Λ α : Type*}

/-- No body was ever started. -/
def idle : Flight Λ α := ⟨none, [], [], 0⟩

/-- The promise in the field, or that of a new body that has run to its first await. -/
def enter (f : Flight Λ α) (first : Λ) : Flight Λ α × ℕ :=
  match f.inflight with
  | some p => (f, p)
  | none =>
    ({ f with
        inflight := some f.started
        running := f.running ++ [(f.started, first)]
        started := f.started + 1 }, f.started)

/-- Where a body stands. -/
def at? (f : Flight Λ α) (p : ℕ) : Option Λ := f.running.lookup p

/-- A body comes to its next await. -/
def advance (f : Flight Λ α) (p : ℕ) (l : Λ) : Flight Λ α :=
  { f with running := f.running.map fun b => if b.1 = p then (p, l) else b }

/-- A body ends: the field is cleared whatever promise it holds. -/
def finish (f : Flight Λ α) (p : ℕ) (result : Option α) : Flight Λ α :=
  { f with
    inflight := none
    running := f.running.filter fun b => decide (b.1 ≠ p)
    settled := (p, result) :: f.settled }

/-- One body at most, and the field says so. -/
def Single (f : Flight Λ α) : Prop :=
  (f.inflight = none ∧ f.running = []) ∨ ∃ p l, f.inflight = some p ∧ f.running = [(p, l)]

variable {f : Flight Λ α}

theorem single_idle : (idle : Flight Λ α).Single := Or.inl ⟨rfl, rfl⟩

theorem Single.length_le_one (h : f.Single) : f.running.length ≤ 1 := by
  rcases h with ⟨-, hrunning⟩ | ⟨p, l, -, hrunning⟩
  · rw [hrunning]
    exact Nat.zero_le 1
  · rw [hrunning]
    exact le_refl 1

/-- The field is set exactly while a body is in progress. -/
theorem Single.inflight_iff (h : f.Single) : f.inflight.isSome ↔ f.running ≠ [] := by
  rcases h with ⟨hinflight, hrunning⟩ | ⟨p, l, hinflight, hrunning⟩
  · simp [hinflight, hrunning]
  · simp [hinflight, hrunning]

theorem Single.enter (h : f.Single) (first : Λ) : (f.enter first).1.Single := by
  rcases h with ⟨hinflight, hrunning⟩ | ⟨p, l, hinflight, hrunning⟩
  · rw [Flight.enter, hinflight, hrunning]
    exact Or.inr ⟨f.started, first, rfl, rfl⟩
  · rw [Flight.enter, hinflight]
    exact Or.inr ⟨p, l, hinflight, hrunning⟩

theorem Single.advance (h : f.Single) (p : ℕ) (l : Λ) : (f.advance p l).Single := by
  rcases h with ⟨hinflight, hrunning⟩ | ⟨q, l', hinflight, hrunning⟩
  · exact Or.inl ⟨hinflight, by rw [Flight.advance, hrunning, List.map_nil]⟩
  · by_cases hq : q = p
    · refine Or.inr ⟨q, l, hinflight, ?_⟩
      simp [Flight.advance, hrunning, hq]
    · refine Or.inr ⟨q, l', hinflight, ?_⟩
      simp [Flight.advance, hrunning, hq]

/-- A body in progress is the only one. -/
theorem Single.running_eq (h : f.Single) {p : ℕ} {l : Λ} (hp : f.at? p = some l) :
    f.running = [(p, l)] := by
  rcases h with ⟨-, hrunning⟩ | ⟨q, l', -, hrunning⟩
  · rw [at?, hrunning] at hp
    cases hp
  · rw [at?, hrunning, List.lookup_cons] at hp
    by_cases hq : p = q
    · rw [hq, beq_self_eq_true] at hp
      obtain rfl := Option.some.inj hp
      rw [hrunning, hq]
    · rw [beq_false_of_ne hq] at hp
      cases hp

theorem Single.at?_advance (h : f.Single) {p : ℕ} {l : Λ} (hp : f.at? p = some l) (l' : Λ) :
    (f.advance p l').at? p = some l' := by
  simp [at?, Flight.advance, h.running_eq hp]

/-- A body that ends is the one whose promise is in the field. -/
theorem Single.finish (h : f.Single) {p : ℕ} {l : Λ} (hp : f.at? p = some l) (result : Option α) :
    (f.finish p result).Single := by
  refine Or.inl ⟨rfl, ?_⟩
  simp [Flight.finish, h.running_eq hp]

end Flight
