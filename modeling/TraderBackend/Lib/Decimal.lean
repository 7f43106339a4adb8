import TraderBackend.Lib.JsString

/-!
# Decimal texts

Texts of the form `digits.digits` and the numbers they denote.

* `digitsValue`, `decimalValue` — what a text denotes.
* `digitsValue_zeros_append` — leading zeros change nothing.
* `decimalValue_append` — the two parts of a text, read one by one.
* `decimalValue_padded` — a fraction padded to a fixed number of places.
-/

namespace Decimal

/-- The number a non-empty text of digits denotes. -/
def digitsValue (s : String) : Option ℕ :=
  if s.toList ≠ [] ∧ s.toList.all Char.isDigit then some (Nat.ofDigitChars 10 s.toList 0)
  else none

/-- The number a text `digits.digits` denotes. -/
def decimalValue (s : String) : Option ℚ :=
  match JsString.split s '.' with
  | [whole, places] => do
    let n ← digitsValue whole
    let m ← digitsValue places
    return (n : ℚ) + (m : ℚ) / 10 ^ places.length
  | _ => none

/-- A text of `k` zeros. -/
def zeros (k : ℕ) : String := String.ofList (List.replicate k '0')

@[simp] theorem length_zeros (k : ℕ) : (zeros k).length = k := by
  rw [zeros, String.length_ofList, List.length_replicate]

/-! ## Texts of digits -/

theorem digitsValue_repr (n : ℕ) : digitsValue n.repr = some n := by
  have hne : Nat.toDigits 10 n ≠ [] := by
    exact List.length_pos_iff.1 Nat.length_toDigits_pos
  have hdigits : (Nat.toDigits 10 n).all Char.isDigit = true :=
    List.all_eq_true.2 fun c hc => Nat.isDigit_of_mem_toDigits (by decide) (by decide) hc
  rw [digitsValue, Nat.toList_repr, if_pos ⟨hne, hdigits⟩, Nat.ofDigitChars_ten_toDigits]

/-- Leading zeros change nothing. -/
theorem digitsValue_zeros_append {s : String} {n : ℕ} (h : digitsValue s = some n) (k : ℕ) :
    digitsValue (zeros k ++ s) = some n := by
  rw [digitsValue] at h
  split at h
  · rename_i hs
    have hlist : (zeros k ++ s).toList = List.replicate k '0' ++ s.toList := by
      rw [String.toList_append, zeros, String.toList_ofList]
    have hne : List.replicate k '0' ++ s.toList ≠ [] := by
      intro hnil
      exact hs.1 (List.append_eq_nil_iff.1 hnil).2
    have hdigits : (List.replicate k '0' ++ s.toList).all Char.isDigit = true := by
      rw [List.all_append, hs.2, Bool.and_true, List.all_eq_true]
      intro c hc
      rw [List.eq_of_mem_replicate hc]
      decide
    rw [digitsValue, hlist, if_pos ⟨hne, hdigits⟩, Nat.ofDigitChars_append,
      Nat.ofDigitChars_replicate_zero, Nat.mul_zero]
    exact h
  · exact absurd h (by simp)

/-- No separator among digits. -/
theorem not_mem_of_digitsValue {s : String} {n : ℕ} (h : digitsValue s = some n) :
    '.' ∉ s.toList := by
  intro hmem
  rw [digitsValue] at h
  split at h
  · rename_i hs
    exact absurd (List.all_eq_true.1 hs.2 '.' hmem) (by decide)
  · exact absurd h (by simp)

/-! ## Texts of decimals -/

/-- The two parts. -/
theorem decimalValue_append {a b : String} {n m : ℕ} (ha : digitsValue a = some n)
    (hb : digitsValue b = some m) :
    decimalValue (a ++ "." ++ b) = some ((n : ℚ) + (m : ℚ) / 10 ^ b.length) := by
  have hsplit : JsString.split (a ++ "." ++ b) '.' = [a, b] := by
    rw [JsString.split_append (by decide) (not_mem_of_digitsValue ha),
      JsString.split_of_not_mem (not_mem_of_digitsValue hb)]
  unfold decimalValue
  rw [hsplit]
  simp [ha, hb]

/-- **Padding.**  A fraction padded to `places` digits counts in units of `10 ^ -places`. -/
theorem decimalValue_padded {places m : ℕ} (hm : m.repr.length ≤ places) (n : ℕ) :
    decimalValue (n.repr ++ "." ++ (zeros (places - m.repr.length) ++ m.repr)) =
      some ((n : ℚ) + (m : ℚ) / 10 ^ places) := by
  have hlength : (zeros (places - m.repr.length) ++ m.repr).length = places := by
    rw [String.length_append, length_zeros]
    omega
  rw [decimalValue_append (digitsValue_repr n) (digitsValue_zeros_append (digitsValue_repr m) _),
    hlength]

example : decimalValue "12.0305" = some (120305 / 10000) := by
  decide +kernel

end Decimal
