import Mathlib

/-!
# The first largest entry of a list

What a loop over a list computes that keeps the largest entry seen, starting from
zero, and its position.

* `top`, `firstTop` — the largest entry, or zero, and where it stands first.
* `top_append`, `firstTop_append_of_lt`, `firstTop_append_of_le` — one entry more.
* `idxOf_map` — the position of an entry after a map.
-/

namespace Argmax

section

variable {α : Type*} [LinearOrder α] [Zero α]

/-- The largest entry, or zero when none is positive. -/
def top (l : List α) : α := l.foldr max 0

/-- Where the largest entry stands first. -/
def firstTop (l : List α) : ℕ := l.idxOf (top l)

theorem zero_le_top (l : List α) : 0 ≤ top l := by
  induction l with
  | nil => exact le_refl _
  | cons x l ih => exact le_trans ih (le_max_right x (top l))

theorem le_top {l : List α} {x : α} (h : x ∈ l) : x ≤ top l := by
  induction l with
  | nil => exact absurd h List.not_mem_nil
  | cons y l ih =>
    rcases List.mem_cons.1 h with rfl | hmem
    · exact le_max_left x (top l)
    · exact le_trans (ih hmem) (le_max_right y (top l))

/-- A positive largest entry is an entry. -/
theorem top_mem {l : List α} (h : 0 < top l) : top l ∈ l := by
  induction l with
  | nil => exact absurd h (lt_irrefl _)
  | cons x l ih =>
    have hcons : top (x :: l) = max x (top l) := rfl
    rw [hcons] at h ⊢
    rcases le_total (top l) x with hle | hle
    · rw [max_eq_left hle]
      exact List.mem_cons_self
    · rw [max_eq_right hle] at h ⊢
      exact List.mem_cons_of_mem _ (ih h)

theorem top_append (l : List α) (x : α) : top (l ++ [x]) = max (top l) x := by
  induction l with
  | nil => exact max_comm x 0
  | cons y l ih =>
    have hcons : top (y :: (l ++ [x])) = max y (top (l ++ [x])) := rfl
    rw [List.cons_append, hcons, ih, ← max_assoc]
    rfl

/-- A larger entry takes the place over. -/
theorem firstTop_append_of_lt {l : List α} {x : α} (h : top l < x) :
    firstTop (l ++ [x]) = l.length := by
  have hnotMem : x ∉ l := fun hmem => absurd (le_top hmem) (not_le.2 h)
  rw [firstTop, top_append, max_eq_right h.le, List.idxOf_append_of_notMem hnotMem,
    List.idxOf_cons_self, Nat.add_zero]

/-- Any other entry leaves it. -/
theorem firstTop_append_of_le {l : List α} {x : α} (h : x ≤ top l) (hpos : 0 < top l) :
    firstTop (l ++ [x]) = firstTop l := by
  rw [firstTop, top_append, max_eq_left h, List.idxOf_append_of_mem (top_mem hpos), firstTop]

/-- The largest entry of a list whose other entries stay below it. -/
theorem top_eq {l : List α} {x : α} (hx : x ∈ l) (hpos : 0 ≤ x) (h : ∀ y ∈ l, y ≤ x) :
    top l = x := by
  rcases (zero_le_top l).lt_or_eq with htop | htop
  · exact le_antisymm (h _ (top_mem htop)) (le_top hx)
  · exact le_antisymm (htop ▸ hpos) (le_top hx)

end

/-- Where an entry stands after a map that takes no other entry to its image. -/
theorem idxOf_map {α β : Type*} [DecidableEq α] [DecidableEq β] (f : α → β) {a : α} {l : List α}
    (h : ∀ x ∈ l, f x = f a → x = a) : (l.map f).idxOf (f a) = l.idxOf a := by
  induction l with
  | nil => rfl
  | cons y l ih =>
    have ih' := ih fun x hx => h x (List.mem_cons_of_mem _ hx)
    rw [List.map_cons, List.idxOf_cons, List.idxOf_cons, ih']
    by_cases hy : y = a
    · rw [hy, beq_self_eq_true, beq_self_eq_true]
    · have hfy : f y ≠ f a := fun heq => hy (h y List.mem_cons_self heq)
      rw [beq_false_of_ne hy, beq_false_of_ne hfy]

end Argmax
