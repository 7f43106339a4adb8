import Mathlib

/-!
# Numbers of the scripting language

Numbers and `NaN`, with exact arithmetic, and their texts as far as whole numbers
go.

* `round`, `add` — `Math.round` and the sum; `NaN` stays `NaN`.
* `toFixed`, `stringify`, `parseInt` — the texts of whole numbers.
* `parseInt_toFixed` — a text that is parsed again gives the number back.
-/

/-- A number or `NaN`. -/
inductive JsNumber where
  | nan
  | num (q : ℚ)
  deriving DecidableEq

namespace JsNumber

/-- `x + y`. -/
def add : JsNumber → JsNumber → JsNumber
  | num p, num q => num (p + q)
  | _, _ => nan

/-- `undefined` in a sum. -/
def ofOption : Option JsNumber → JsNumber
  | none => nan
  | some x => x

/-- `Math.round`: the nearest whole number, halves up. -/
def round : JsNumber → Option ℤ
  | nan => none
  | num q => some ⌊q + 1 / 2⌋

/-- `n.toFixed(0)` for a whole number, or `NaN`. -/
def toFixed : Option ℤ → String
  | none => "NaN"
  | some n => toString n

/-- `JSON.stringify(n)` for a whole number, or `NaN`. -/
def stringify : Option ℤ → String
  | none => "null"
  | some n => toString n

/-- The digits a text begins with. -/
def parseDigits (cs : List Char) : Option ℕ :=
  let digits := cs.takeWhile Char.isDigit
  if digits = [] then none else some (Nat.ofDigitChars 10 digits 0)

/-- `parseInt(s)` of a text that begins with a minus sign or with what may be a digit. -/
def parseInt (s : String) : Option ℤ :=
  match s.toList with
  | '-' :: cs => (parseDigits cs).map fun n : ℕ => -(n : ℤ)
  | cs => (parseDigits cs).map fun n : ℕ => (n : ℤ)

theorem parseDigits_repr (n : ℕ) : parseDigits n.repr.toList = some n := by
  have hdigits : ∀ c ∈ Nat.toDigits 10 n, c.isDigit = true := fun c hc =>
    Nat.isDigit_of_mem_toDigits (by decide) (by decide) hc
  have htake : (Nat.toDigits 10 n).takeWhile Char.isDigit = Nat.toDigits 10 n :=
    List.takeWhile_eq_self_iff.2 hdigits
  have hne : Nat.toDigits 10 n ≠ [] := by
    exact List.length_pos_iff.1 Nat.length_toDigits_pos
  rw [parseDigits, Nat.toList_repr, htake]
  simp only [if_neg hne, Nat.ofDigitChars_ten_toDigits]

theorem parseInt_repr (n : ℕ) : parseInt n.repr = some (n : ℤ) := by
  unfold parseInt
  split
  · -- no digit is a minus sign
    rename_i cs hlist
    have hmem : '-' ∈ Nat.toDigits 10 n := by
      rw [← Nat.toList_repr, hlist]
      exact List.mem_cons_self
    exact absurd (Nat.isDigit_of_mem_toDigits (by decide) (by decide) hmem) (by decide)
  · rw [parseDigits_repr, Option.map_some]

theorem parseInt_neg_repr (n : ℕ) : parseInt ("-" ++ n.repr) = some (-(n : ℤ)) := by
  have hlist : ("-" ++ n.repr).toList = '-' :: n.repr.toList := by
    rw [String.toList_append]
    rfl
  unfold parseInt
  rw [hlist]
  simp only [parseDigits_repr, Option.map_some]

/-- **Reading back.** -/
theorem parseInt_toFixed (x : Option ℤ) : parseInt (toFixed x) = x := by
  cases x with
  | none => decide
  | some n =>
    rw [toFixed, Int.toString_eq_repr, Int.repr_eq_if]
    split
    · rename_i hpos
      rw [parseInt_repr, Int.toNat_of_nonneg hpos]
    · rename_i hneg
      rw [parseInt_neg_repr, Int.toNat_of_nonneg (by omega), neg_neg]

end JsNumber
