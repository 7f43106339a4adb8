import Mathlib

/-!
# Each value and the next one

The window function `LEAD` over a sorted list: every value but the last, paired
with the value that follows it.  A value that occurs several times is paired
with itself before it is paired with its successor.

* `lead_mem` — a pair is made of two neighbours in order, with nothing between.
* `exists_lead` — a value below some other one has a larger successor.
* `lead_self_iff` — a value is paired with itself exactly when it occurs twice.
* `IsNext` — the next value of a set, or a top value behind the last one; it is unique,
  and a new last value becomes the next one of the old last value only.
-/

variable {α : Type*}

/-- Every value of a list paired with the next one. -/
def lead (l : List α) : List (α × α) := l.zip l.tail

theorem lead_cons_cons (a b : α) (l : List α) : lead (a :: b :: l) = (a, b) :: lead (b :: l) := rfl

variable [LinearOrder α]

/-- The two values of a pair are in order and no value lies between them. -/
theorem lead_mem {l : List α} (hl : l.Pairwise (· ≤ ·)) {m v : α} (h : (m, v) ∈ lead l) :
    m ∈ l ∧ v ∈ l ∧ m ≤ v ∧ ∀ x ∈ l, x ≤ m ∨ v ≤ x := by
  induction l with
  | nil => simp [lead] at h
  | cons a l ih =>
    cases l with
    | nil => simp [lead] at h
    | cons b l =>
      have hab : ∀ x ∈ b :: l, a ≤ x := (List.pairwise_cons.1 hl).1
      have htail := (List.pairwise_cons.1 hl).2
      rw [lead_cons_cons, List.mem_cons] at h
      rcases h with heq | hrest
      · obtain ⟨rfl, rfl⟩ := Prod.mk.inj heq
        refine ⟨List.mem_cons_self .., by simp, hab _ (List.mem_cons_self ..), fun x hx => ?_⟩
        rcases List.mem_cons.1 hx with rfl | hx'
        · exact Or.inl (le_refl _)
        · rcases List.mem_cons.1 hx' with rfl | hx''
          · exact Or.inr (le_refl _)
          · exact Or.inr ((List.pairwise_cons.1 htail).1 x hx'')
      · obtain ⟨hm, hv, hle, hgap⟩ := ih htail hrest
        refine ⟨List.mem_cons_of_mem _ hm, List.mem_cons_of_mem _ hv, hle, fun x hx => ?_⟩
        rcases List.mem_cons.1 hx with rfl | hx'
        · exact Or.inl (hab m hm)
        · exact hgap x hx'

/-- A value with a larger one in the list is paired with a larger one. -/
theorem exists_lead {l : List α} (hl : l.Pairwise (· ≤ ·)) {m x : α} (hm : m ∈ l) (hx : x ∈ l)
    (hlt : m < x) : ∃ v, (m, v) ∈ lead l ∧ m < v := by
  induction l with
  | nil => simp at hm
  | cons a l ih =>
    have hle : ∀ y ∈ l, a ≤ y := (List.pairwise_cons.1 hl).1
    have htail := (List.pairwise_cons.1 hl).2
    have hxl : x ∈ l := by
      rcases List.mem_cons.1 hx with rfl | hx'
      · rcases List.mem_cons.1 hm with rfl | hm'
        · exact absurd hlt (lt_irrefl _)
        · exact absurd (hle m hm') (not_le_of_gt hlt)
      · exact hx'
    cases l with
    | nil => simp at hxl
    | cons b l =>
      rw [lead_cons_cons]
      by_cases hml : m ∈ b :: l
      · obtain ⟨v, hv, hmv⟩ := ih htail hml hxl
        exact ⟨v, List.mem_cons_of_mem _ hv, hmv⟩
      · obtain rfl : m = a := (List.mem_cons.1 hm).resolve_right hml
        have hne : m ≠ b := fun hc => hml (hc ▸ List.mem_cons_self ..)
        exact ⟨b, List.mem_cons_self .., lt_of_le_of_ne (hle b (List.mem_cons_self ..)) hne⟩

/-- A value is paired with itself exactly when it occurs more than once. -/
theorem lead_self_iff {l : List α} (hl : l.Pairwise (· ≤ ·)) (m : α) :
    (m, m) ∈ lead l ↔ 2 ≤ l.count m := by
  induction l with
  | nil => simp [lead]
  | cons a l ih =>
    have hle : ∀ y ∈ l, a ≤ y := (List.pairwise_cons.1 hl).1
    have htail := (List.pairwise_cons.1 hl).2
    cases l with
    | nil =>
      have hcount : [a].count m ≤ 1 := List.count_le_length
      simp only [lead, List.tail_cons, List.zip_nil_right, List.not_mem_nil, false_iff]
      omega
    | cons b l =>
      rw [lead_cons_cons, List.mem_cons, ih htail]
      by_cases ham : a = m
      · subst ham
        rw [List.count_cons_self]
        by_cases hab : a = b
        · subst hab
          simp
        · -- the copies of the least value stand at the front
          have hno : a ∉ b :: l := by
            intro hmem
            rcases List.mem_cons.1 hmem with hc | hmem'
            · exact hab hc
            · have h1 := (List.pairwise_cons.1 htail).1 a hmem'
              exact hab (le_antisymm (hle b (List.mem_cons_self ..)) h1)
          rw [List.count_eq_zero.2 hno]
          simp [hab]
      · rw [List.count_cons_of_ne ham]
        simp [Ne.symm ham]

/-! ## The next value of a set -/

/-- `x` is the next value after `a` in `S`, or `top` if there is none. -/
def IsNext (S : Set α) (top a x : α) : Prop :=
  a < x ∧ (∀ s ∈ S, s ≤ a ∨ x ≤ s) ∧ (x = top ∨ x ∈ S)

section

variable {S : Set α} {top a b x y : α}

theorem IsNext.le (hS : ∀ s ∈ S, s < top) (hx : IsNext S top a x) (hy : IsNext S top a y) :
    x ≤ y := by
  obtain ⟨-, hgap, hend⟩ := hx
  obtain ⟨hlt, -, rfl | hmem⟩ := hy
  · rcases hend with rfl | hx
    · exact le_refl _
    · exact (hS x hx).le
  · exact (hgap y hmem).resolve_left (not_le_of_gt hlt)

/-- There is one next value only. -/
theorem IsNext.unique (hS : ∀ s ∈ S, s < top) (hx : IsNext S top a x) (hy : IsNext S top a y) :
    x = y := le_antisymm (hx.le hS hy) (hy.le hS hx)

/-- The top value comes behind the last one. -/
theorem IsNext.isLast (hS : ∀ s ∈ S, s < top) (h : IsNext S top a top) {s : α} (hs : s ∈ S) :
    s ≤ a := (h.2.1 s hs).resolve_right (not_le_of_gt (hS s hs))

/-- Behind a new last value comes the top value. -/
theorem isNext_insert_self (hS : ∀ s ∈ S, s < b) (hb : b < top) :
    IsNext (insert b S) top b top := by
  refine ⟨hb, fun s hs => Or.inl ?_, Or.inl rfl⟩
  rcases Set.mem_insert_iff.1 hs with rfl | hs
  · exact le_refl _
  · exact (hS s hs).le

/-- A new last value comes after the old one. -/
theorem IsNext.insert_of_top (hS : ∀ s ∈ S, s < top) (h : IsNext S top a top) (hab : a < b) :
    IsNext (insert b S) top a b := by
  refine ⟨hab, fun s hs => ?_, Or.inr (Set.mem_insert b S)⟩
  rcases Set.mem_insert_iff.1 hs with rfl | hs
  · exact Or.inr (le_refl _)
  · exact Or.inl (h.isLast hS hs)

/-- Nothing changes after a value that was not the last. -/
theorem IsNext.insert_of_mem (h : IsNext S top a x) (hx : x ∈ S) (hS : ∀ s ∈ S, s < b) :
    IsNext (insert b S) top a x := by
  refine ⟨h.1, fun s hs => ?_, Or.inr (Set.mem_insert_of_mem b hx)⟩
  rcases Set.mem_insert_iff.1 hs with rfl | hs
  · exact Or.inr (hS x hx).le
  · exact h.2.1 s hs

end
