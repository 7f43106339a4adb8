import Mathlib

/-!
# Series in time

Rows by time, as a partial function, and what can be said about neighbouring rows.

* `Linked` — two successive rows are related.
* `linked_update` — a new row at the end keeps a series linked when it is related to the one
  before it.
* `IsNearest` — a row no other row is closer to a point than.
* `nearest_le_of_lt` — nearest rows of later points are not earlier.
* `exists_nearest_lt_iff` — when two points can have nearest rows in their own order.
-/

namespace Series

/-! ## Successive rows -/

section

variable {T V : Type*} [LinearOrder T]

/-- The row at `t₁` is the last one before `t₂`. -/
def Before (rows : T → Option V) (t₁ t₂ : T) : Prop :=
  t₁ < t₂ ∧ ∀ t, t₁ < t → t < t₂ → rows t = none

/-- Two successive rows are related. -/
def Linked (R : T → V → T → V → Prop) (rows : T → Option V) : Prop :=
  ∀ t₁ t₂ v₁ v₂, rows t₁ = some v₁ → rows t₂ = some v₂ → Before rows t₁ t₂ → R t₁ v₁ t₂ v₂

variable {R : T → V → T → V → Prop} {rows : T → Option V}

theorem linked_of_none (h : ∀ t, rows t = none) : Linked R rows := by
  intro t₁ t₂ v₁ v₂ h₁
  rw [h t₁] at h₁
  cases h₁

/-- **A row at the end.**  It may replace the row that was the last one. -/
theorem linked_update (h : Linked R rows) {now : T} {v : V}
    (hlast : ∀ t w, rows t = some w → t ≤ now)
    (hnew : ∀ t w, rows t = some w → Before rows t now → R t w now v) :
    Linked R (Function.update rows now (some v)) := by
  intro t₁ t₂ v₁ v₂ h₁ h₂ hbefore
  have hold : ∀ t, t ≠ now → Function.update rows now (some v) t = rows t :=
    fun t ht => Function.update_of_ne ht _ _
  -- nothing of the old series lies between two rows of the new one
  have hnone : ∀ t, t₁ < t → t < t₂ → rows t = none := by
    intro t hlt hlt'
    have hupdate := hbefore.2 t hlt hlt'
    by_cases ht : t = now
    · rw [ht, Function.update_self] at hupdate
      cases hupdate
    · rwa [hold t ht] at hupdate
  have ht₁ : t₁ ≠ now := by
    rintro rfl
    have hne : t₂ ≠ t₁ := hbefore.1.ne'
    rw [hold t₂ hne] at h₂
    exact absurd (hlast t₂ v₂ h₂) (not_le.2 hbefore.1)
  rw [hold t₁ ht₁] at h₁
  by_cases ht₂ : t₂ = now
  · subst ht₂
    rw [Function.update_self] at h₂
    obtain rfl := Option.some.inj h₂
    exact hnew t₁ v₁ h₁ ⟨hbefore.1, hnone⟩
  · rw [hold t₂ ht₂] at h₂
    exact h t₁ t₂ v₁ v₂ h₁ h₂ ⟨hbefore.1, hnone⟩

end

/-! ## Nearest rows -/

section

variable {K : Type*} [CommRing K] [LinearOrder K] [IsStrictOrderedRing K]

/-- `a` is one of the times, and none is closer to `t`. -/
def IsNearest (times : Set K) (t a : K) : Prop := a ∈ times ∧ ∀ b ∈ times, |a - t| ≤ |b - t|

variable {times : Set K} {s t a b : K}

/-- Which of two times is closer: the point lies beyond their middle. -/
theorem abs_sub_le_abs_sub_iff (h : b < a) : |a - t| ≤ |b - t| ↔ a + b ≤ t + t := by
  rcases abs_cases (a - t) with ⟨ha, ha'⟩ | ⟨ha, ha'⟩ <;>
    rcases abs_cases (b - t) with ⟨hb, hb'⟩ | ⟨hb, hb'⟩ <;> rw [ha, hb] <;> constructor <;>
    intro hle <;> linarith

theorem abs_sub_le_abs_sub_iff' (h : b < a) : |b - t| ≤ |a - t| ↔ t + t ≤ a + b := by
  -- the same, mirrored
  have hmirror := abs_sub_le_abs_sub_iff (t := -t) (neg_lt_neg h)
  rw [neg_sub_neg, neg_sub_neg, abs_sub_comm t b, abs_sub_comm t a] at hmirror
  rw [hmirror]
  constructor
  · intro hle
    linarith
  · intro hle
    linarith

/-- **Nearest rows are in the order of the points**, however ties are broken. -/
theorem nearest_le_of_lt (hs : IsNearest times s a) (ht : IsNearest times t b) (hst : s < t) :
    a ≤ b := by
  by_contra hlt
  have hlt := not_le.1 hlt
  have ha := (abs_sub_le_abs_sub_iff hlt).1 (hs.2 b ht.1)
  have hb := (abs_sub_le_abs_sub_iff' hlt).1 (ht.2 a hs.1)
  linarith

/-- `a` and `b` are neighbours among the times. -/
def Successive (times : Set K) (a b : K) : Prop :=
  a ∈ times ∧ b ∈ times ∧ a < b ∧ ∀ c ∈ times, c ≤ a ∨ b ≤ c

omit [CommRing K] [IsStrictOrderedRing K] in
/-- The neighbour of a time that is not the last one. -/
theorem exists_successive (hfin : times.Finite) (ha : a ∈ times) (hb : b ∈ times) (hab : a < b) :
    ∃ c, Successive times a c ∧ c ≤ b := by
  have hlater : (times ∩ Set.Ioi a).Finite := hfin.inter_of_left _
  obtain ⟨c, hc, hmin⟩ := hlater.exists_minimal ⟨b, hb, hab⟩
  have hle : ∀ d ∈ times, a < d → c ≤ d := by
    intro d hd had
    rcases le_total c d with hcd | hdc
    · exact hcd
    · exact hmin ⟨hd, had⟩ hdc
  refine ⟨c, ⟨ha, hc.1, hc.2, ?_⟩, hle b hb hab⟩
  intro d hd
  rcases le_or_gt d a with hda | had
  · exact Or.inl hda
  · exact Or.inr (hle d hd had)

omit [IsStrictOrderedRing K] in
/-- Among finitely many times there is a nearest one. -/
theorem exists_isNearest (hfin : times.Finite) (ha : a ∈ times) (t : K) :
    ∃ b, IsNearest times t b := by
  obtain ⟨b, hb, hmin⟩ := Set.exists_min_image times (fun b => |b - t|) hfin ⟨a, ha⟩
  exact ⟨b, hb, hmin⟩

/-- At or before the middle of two neighbours the earlier side has a nearest time. -/
theorem exists_isNearest_le (hfin : times.Finite) (h : Successive times a b) (ht : t + t ≤ a + b) :
    ∃ c, IsNearest times t c ∧ c ≤ a := by
  obtain ⟨ha, -, hab, hnone⟩ := h
  obtain ⟨c, hc⟩ := exists_isNearest hfin ha t
  rcases hnone c hc.1 with hle | hle
  · exact ⟨c, hc, hle⟩
  · -- then the earlier neighbour is as near
    refine ⟨a, ⟨ha, fun d hd => le_trans ?_ (hc.2 d hd)⟩, le_refl a⟩
    exact (abs_sub_le_abs_sub_iff' (lt_of_lt_of_le hab hle)).2 (by linarith)

/-- At or after the middle of two neighbours the later side has a nearest time. -/
theorem exists_isNearest_ge (hfin : times.Finite) (h : Successive times a b) (ht : a + b ≤ t + t) :
    ∃ c, IsNearest times t c ∧ b ≤ c := by
  obtain ⟨-, hb, hab, hnone⟩ := h
  obtain ⟨c, hc⟩ := exists_isNearest hfin hb t
  rcases hnone c hc.1 with hle | hle
  · refine ⟨b, ⟨hb, fun d hd => le_trans ?_ (hc.2 d hd)⟩, le_refl b⟩
    exact (abs_sub_le_abs_sub_iff (lt_of_le_of_lt hle hab)).2 (by linarith)
  · exact ⟨c, hc, hle⟩

/-- **Points in the wrong order.**  A nearest time of the earlier point can be earlier than one of
the later point exactly when the middle of two neighbours lies between the points. -/
theorem exists_nearest_lt_iff (hfin : times.Finite) :
    (∃ a b, IsNearest times t a ∧ IsNearest times s b ∧ a < b) ↔
      ∃ a b, Successive times a b ∧ t + t ≤ a + b ∧ a + b ≤ s + s := by
  constructor
  · rintro ⟨a, b, ha, hb, hab⟩
    obtain ⟨c, hc, hcb⟩ := exists_successive hfin ha.1 hb.1 hab
    refine ⟨a, c, hc, ?_, ?_⟩
    · have hmid := (abs_sub_le_abs_sub_iff' hc.2.2.1).1 (ha.2 c hc.2.1)
      linarith
    · have hmid := (abs_sub_le_abs_sub_iff hab).1 (hb.2 a ha.1)
      linarith
  · rintro ⟨a, b, hsucc, ht, hs⟩
    obtain ⟨c, hc, hca⟩ := exists_isNearest_le hfin hsucc ht
    obtain ⟨d, hd, hbd⟩ := exists_isNearest_ge hfin hsucc hs
    exact ⟨c, d, hc, hd, lt_of_le_of_lt hca (lt_of_lt_of_le hsucc.2.2.1 hbd)⟩

end

end Series
