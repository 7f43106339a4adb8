import TraderBackend.Lib.Decimal
import TraderBackend.History.Earnings

/-!
# Fixed-point numbers as floats

`packages/utils/src/utils.ts` writes a fixed-point integer out as a decimal text by
hand and hands the text to `parseFloat`.

* **The code.**  `decNToFloat`, `dec18ToFloat` and `ABK64x64ToFloat` up to the call of
  `parseFloat`, with the error of `"0".repeat` at a negative count.
* **One rendering.**  The three differ in the unit, the number of places and what they do
  with the fraction (`render`).  `render_exact` says which number the text denotes,
  `render_error` that without places every call fails.
* **No decimals.**  `decNToFloat_exact_iff`: the texts are exact for a token with at least
  one decimal, and `decNToFloat_zero` that the others make the call throw.
* **The ledger's reading.**  `dec18ToFloat_denotes`: the exact value the earnings are
  computed with is the one the text denotes.
-/

namespace TraderBackend.Utils

open Decimal

/-! ## The code -/

/-- What a conversion computes: the text for `parseFloat` and the factor after it. -/
structure FloatText where
  /-- `NumberStr`. -/
  numberStr : String
  sign : ℤ
  deriving DecidableEq

/-- `ONE_64x64`. -/
def ONE_64x64 : ℤ := 2 ^ 64

/-- The body the three conversions share: the unit, the number of places, and what becomes
of the part below the unit. -/
def render (unit : ℤ) (places : ℕ) (scale : ℤ → ℤ) (x : ℤ) : Except String FloatText := do
  let sign : ℤ := if x < 0 then -1 else 1
  let x := x * sign
  let xInt := x.tdiv unit
  let xDec := scale (x - xInt * unit)
  let k : ℤ := places - (toString xDec).length
  let sPad ← JsString.repeatStr "0" k
  return ⟨toString xInt ++ "." ++ sPad ++ toString xDec, sign⟩

section

variable (mathPow10 : ℕ → ℤ) -- `BigInt(Math.pow(10, n))`

/-- `DECIMALS18`. -/
def DECIMALS18 : ℤ := mathPow10 18

/-- `dec18ToFloat`. -/
def dec18ToFloat (x : ℤ) : Except String FloatText := render (DECIMALS18 mathPow10) 18 id x

/-- `decNToFloat`. -/
def decNToFloat (x : ℤ) (numDec : ℕ) : Except String FloatText :=
  render (mathPow10 numDec) numDec id x

/-- `ABK64x64ToFloat`. -/
def ABK64x64ToFloat (x : ℤ) : Except String FloatText :=
  render ONE_64x64 18 (fun xDec => (xDec * DECIMALS18 mathPow10).tdiv ONE_64x64) x

end

/-! ## One rendering -/

/-- The factor after `parseFloat`. -/
def signOf (x : ℤ) : ℤ := if x < 0 then -1 else 1

theorem mul_signOf (x : ℤ) : x * signOf x = x.natAbs := by
  unfold signOf
  split
  · omega
  · omega

theorem toString_natCast (n : ℕ) : toString (n : ℤ) = n.repr := by
  rw [Int.toString_eq_repr, Int.repr_eq_if, if_pos (Int.natCast_nonneg n), Int.toNat_natCast]

theorem repeatStr_zero {k : ℕ} : JsString.repeatStr "0" (k : ℤ) = .ok (zeros k) := by
  have hflat : (List.replicate k ['0']).flatten = List.replicate k '0' := by
    rw [List.flatten_replicate_singleton]
  rw [JsString.repeatStr_of_nonneg _ (Int.natCast_nonneg k), Int.toNat_natCast]
  exact congrArg (fun l => Except.ok (String.ofList l)) hflat

section

variable (unit places : ℕ) {frac : ℕ} (scale : ℤ → ℤ) (x : ℤ)

/-- The two parts of the text, on natural numbers. -/
theorem render_eq (hscale : scale (x.natAbs % unit : ℕ) = frac) :
    render unit places scale x =
      (JsString.repeatStr "0" (places - frac.repr.length)).bind fun sPad =>
        .ok ⟨(x.natAbs / unit).repr ++ "." ++ sPad ++ frac.repr, signOf x⟩ := by
  have hint : (x * signOf x).tdiv unit = ((x.natAbs / unit : ℕ) : ℤ) := by
    rw [mul_signOf, ← Int.ofNat_tdiv]
  have hdec : x * signOf x - ((x.natAbs / unit : ℕ) : ℤ) * unit = ((x.natAbs % unit : ℕ) : ℤ) := by
    have hsplit := Nat.div_add_mod x.natAbs unit
    rw [mul_signOf, mul_comm]
    zify at hsplit ⊢
    omega
  have hbody : render unit places scale x =
      (JsString.repeatStr "0" (places - (toString
        (scale (x * signOf x - (x * signOf x).tdiv unit * unit))).length)).bind fun sPad =>
          .ok ⟨toString ((x * signOf x).tdiv unit) ++ "." ++ sPad ++ toString
            (scale (x * signOf x - (x * signOf x).tdiv unit * unit)), signOf x⟩ := rfl
  rw [hbody, hint, hdec, hscale, toString_natCast, toString_natCast]

/-- **The text.**  With places for the fraction it denotes whole part and fraction. -/
theorem render_exact (hscale : scale (x.natAbs % unit : ℕ) = frac) (hplaces : 0 < places)
    (hfrac : frac < 10 ^ places) :
    ∃ r : FloatText, render unit places scale x = .ok r ∧ r.sign = signOf x ∧
      decimalValue r.numberStr =
        some (((x.natAbs / unit : ℕ) : ℚ) + (frac : ℚ) / 10 ^ places) := by
  have hlength : frac.repr.length ≤ places := (Nat.length_repr_le_iff hplaces).2 hfrac
  have hpad : JsString.repeatStr "0" ((places : ℤ) - frac.repr.length) =
      .ok (zeros (places - frac.repr.length)) := by
    rw [← Nat.cast_sub hlength]
    exact repeatStr_zero
  refine ⟨⟨_, signOf x⟩, ?_, rfl, decimalValue_padded hlength (x.natAbs / unit)⟩
  rw [render_eq unit places scale x hscale, hpad, ← String.append_assoc]
  rfl

/-- Without places the padding has a negative length. -/
theorem render_error (hscale : scale (x.natAbs % unit : ℕ) = frac) :
    render unit 0 scale x = .error (JsString.invalidCount (-(frac.repr.length : ℤ))) := by
  have hcount : (((0 : ℕ) : ℤ) - frac.repr.length) = -(frac.repr.length : ℤ) := by
    rw [Nat.cast_zero, zero_sub]
  have hneg : -(frac.repr.length : ℤ) < 0 := by
    have hpos := Nat.length_repr_pos (n := frac)
    omega
  rw [render_eq unit 0 scale x hscale, hcount, JsString.repeatStr_of_neg _ hneg]
  rfl

end

/-! ## The three conversions -/

section

variable {mathPow10 : ℕ → ℤ} {numDec : ℕ} {x : ℤ}

theorem natCast_pow10 (h : mathPow10 numDec = 10 ^ numDec) :
    mathPow10 numDec = ((10 ^ numDec : ℕ) : ℤ) := by
  rw [h, Nat.cast_pow, Nat.cast_ofNat]

/-- Whole part and remainder make up the number. -/
theorem div_add_mod_div (n : ℕ) {d : ℕ} (hd : 0 < d) :
    ((n / d : ℕ) : ℚ) + ((n % d : ℕ) : ℚ) / d = n / d := by
  have hne : (d : ℚ) ≠ 0 := Nat.cast_ne_zero.2 hd.ne'
  have hsplit : (d : ℚ) * ((n / d : ℕ) : ℚ) + ((n % d : ℕ) : ℚ) = n := by
    exact_mod_cast Nat.div_add_mod n d
  rw [eq_div_iff hne, add_mul, div_mul_cancel₀ _ hne, mul_comm]
  exact hsplit

theorem decNToFloat_exact (h : mathPow10 numDec = 10 ^ numDec) (hplaces : 0 < numDec) (x : ℤ) :
    ∃ r : FloatText, decNToFloat mathPow10 x numDec = .ok r ∧ r.sign = signOf x ∧
      decimalValue r.numberStr = some (|(x : ℚ)| / 10 ^ numDec) := by
  have hpos : 0 < 10 ^ numDec := Nat.pow_pos (by decide)
  obtain ⟨r, hr, hsign, hvalue⟩ :=
    render_exact (10 ^ numDec) numDec id x rfl hplaces (Nat.mod_lt _ hpos)
  refine ⟨r, ?_, hsign, ?_⟩
  · rw [decNToFloat, natCast_pow10 h]
    exact hr
  · have hunit : (((10 ^ numDec : ℕ) : ℚ)) = 10 ^ numDec := by
      rw [Nat.cast_pow, Nat.cast_ofNat]
    rw [hvalue, ← hunit, div_add_mod_div _ hpos, Nat.cast_natAbs, Int.cast_abs]

/-- A token without decimals: the fraction `0` does not fit. -/
theorem decNToFloat_zero (h : mathPow10 0 = 1) (x : ℤ) :
    decNToFloat mathPow10 x 0 = .error (JsString.invalidCount (-1)) := by
  have hfrac : (id ((x.natAbs % 1 : ℕ) : ℤ)) = ((0 : ℕ) : ℤ) := by
    rw [Nat.mod_one, id]
  have hunit : mathPow10 0 = ((1 : ℕ) : ℤ) := by
    rw [h, Nat.cast_one]
  rw [decNToFloat, hunit, render_error 1 id x hfrac]
  rfl

/-- The fraction in units of `10 ^ -18`. -/
def frac64x64 (x : ℤ) : ℕ := x.natAbs % 2 ^ 64 * 10 ^ 18 / 2 ^ 64

theorem frac64x64_lt (x : ℤ) : frac64x64 x < 10 ^ 18 := by
  have hmod : x.natAbs % 2 ^ 64 < 2 ^ 64 := Nat.mod_lt _ (by decide)
  rw [frac64x64, Nat.div_lt_iff_lt_mul (by decide), mul_comm]
  exact Nat.mul_lt_mul_of_pos_left hmod (by decide)

/-- Cutting the fraction off loses less than one unit of `10 ^ -18`. -/
theorem frac64x64_bounds (x : ℤ) :
    (frac64x64 x : ℚ) / 10 ^ 18 ≤ ((x.natAbs % 2 ^ 64 : ℕ) : ℚ) / (2 ^ 64 : ℕ) ∧
      ((x.natAbs % 2 ^ 64 : ℕ) : ℚ) / (2 ^ 64 : ℕ) < (frac64x64 x : ℚ) / 10 ^ 18 + 1 / 10 ^ 18 := by
  have hlow : frac64x64 x * 2 ^ 64 ≤ x.natAbs % 2 ^ 64 * 10 ^ 18 := Nat.div_mul_le_self _ _
  have hhigh : x.natAbs % 2 ^ 64 * 10 ^ 18 < frac64x64 x * 2 ^ 64 + 2 ^ 64 :=
    Nat.lt_div_mul_add (by decide)
  have hlow' : (frac64x64 x : ℚ) * 2 ^ 64 ≤ ((x.natAbs % 2 ^ 64 : ℕ) : ℚ) * 10 ^ 18 := by
    exact_mod_cast hlow
  have hhigh' : ((x.natAbs % 2 ^ 64 : ℕ) : ℚ) * 10 ^ 18 < ((frac64x64 x : ℚ) + 1) * 2 ^ 64 := by
    rw [add_mul, one_mul]
    exact_mod_cast hhigh
  have hunit : (((2 ^ 64 : ℕ) : ℚ)) = 2 ^ 64 := by
    rw [Nat.cast_pow, Nat.cast_ofNat]
  rw [hunit, ← add_div]
  constructor
  · rw [div_le_div_iff₀ (by positivity) (by positivity)]
    exact hlow'
  · rw [div_lt_div_iff₀ (by positivity) (by positivity)]
    exact hhigh'

theorem ABK64x64ToFloat_exact (h : mathPow10 18 = 10 ^ 18) (x : ℤ) :
    ∃ (r : FloatText) (v : ℚ), ABK64x64ToFloat mathPow10 x = .ok r ∧ r.sign = signOf x ∧
      decimalValue r.numberStr = some v ∧
      v ≤ |(x : ℚ)| / 2 ^ 64 ∧ |(x : ℚ)| / 2 ^ 64 < v + 1 / 10 ^ 18 := by
  have hscale : (((x.natAbs % 2 ^ 64 : ℕ) : ℤ) * DECIMALS18 mathPow10).tdiv ONE_64x64 =
      (frac64x64 x : ℤ) := by
    rw [DECIMALS18, natCast_pow10 h, ← Nat.cast_mul]
    rfl
  obtain ⟨r, hr, hsign, hvalue⟩ :=
    render_exact (2 ^ 64) 18 (fun xDec => (xDec * DECIMALS18 mathPow10).tdiv ONE_64x64) x hscale
      (by decide) (frac64x64_lt x)
  have habs : |(x : ℚ)| / 2 ^ 64 = ((x.natAbs / 2 ^ 64 : ℕ) : ℚ) +
      ((x.natAbs % 2 ^ 64 : ℕ) : ℚ) / (2 ^ 64 : ℕ) := by
    rw [div_add_mod_div _ (by decide), Nat.cast_natAbs, Int.cast_abs, Nat.cast_pow, Nat.cast_ofNat]
  obtain ⟨hlow, hhigh⟩ := frac64x64_bounds x
  refine ⟨r, _, hr, hsign, hvalue, ?_, ?_⟩
  · rw [habs]
    exact add_le_add_right hlow _
  · rw [habs, add_assoc]
    exact add_lt_add_right hhigh _

/-- **Exact texts.**  For a token with at least one decimal all three texts are right, with
the right sign; for one without, `decNToFloat` throws at every amount. -/
theorem decNToFloat_exact_iff (hpow : ∀ n ≤ 22, mathPow10 n = 10 ^ n) (hN : numDec ≤ 22)
    (x : ℤ) :
    ((∃ r : FloatText, decNToFloat mathPow10 x numDec = .ok r ∧ r.sign = signOf x ∧
        decimalValue r.numberStr = some (|(x : ℚ)| / 10 ^ numDec)) ∧
      (∃ r r' : FloatText, dec18ToFloat mathPow10 x = .ok r ∧ r.sign = signOf x ∧
        decNToFloat mathPow10 x 18 = .ok r' ∧ r.numberStr = r'.numberStr) ∧
      ∃ (r : FloatText) (v : ℚ), ABK64x64ToFloat mathPow10 x = .ok r ∧ r.sign = signOf x ∧
        decimalValue r.numberStr = some v ∧
        v ≤ |(x : ℚ)| / 2 ^ 64 ∧ |(x : ℚ)| / 2 ^ 64 < v + 1 / 10 ^ 18) ↔
      numDec ≠ 0 := by
  constructor
  · rintro ⟨⟨r, hr, -⟩, -⟩ rfl
    rw [decNToFloat_zero (hpow 0 (by decide))] at hr
    cases hr
  · intro hplaces
    obtain ⟨r, hr, hsign, -⟩ := decNToFloat_exact (hpow 18 (by decide)) (by decide) x
    exact ⟨decNToFloat_exact (hpow numDec hN) (Nat.pos_of_ne_zero hplaces) x,
      ⟨r, r, hr, hsign, hr, rfl⟩, ABK64x64ToFloat_exact (hpow 18 (by decide)) x⟩

/-- A negative amount of a token with six decimals. -/
theorem sixDecimals_exact :
    decNToFloat (fun n => 10 ^ n) (-12000345) 6 = .ok ⟨"12.000345", -1⟩ ∧
      ((∃ r : FloatText, decNToFloat (fun n => 10 ^ n) (-12000345) 6 = .ok r ∧
          r.sign = signOf (-12000345) ∧
          decimalValue r.numberStr = some (|((-12000345 : ℤ) : ℚ)| / 10 ^ 6)) ∧
        (∃ r r' : FloatText, dec18ToFloat (fun n => 10 ^ n) (-12000345) = .ok r ∧
          r.sign = signOf (-12000345) ∧
          decNToFloat (fun n => 10 ^ n) (-12000345) 18 = .ok r' ∧ r.numberStr = r'.numberStr) ∧
        ∃ (r : FloatText) (v : ℚ), ABK64x64ToFloat (fun n => 10 ^ n) (-12000345) = .ok r ∧
          r.sign = signOf (-12000345) ∧ decimalValue r.numberStr = some v ∧
          v ≤ |((-12000345 : ℤ) : ℚ)| / 2 ^ 64 ∧
          |((-12000345 : ℤ) : ℚ)| / 2 ^ 64 < v + 1 / 10 ^ 18) :=
  ⟨by decide, (decNToFloat_exact_iff (fun _ _ => rfl) (by decide) (-12000345)).2 (by decide)⟩

/-- Five units of a token without decimals. -/
theorem noDecimals_throws :
    ¬ ∃ r : FloatText, decNToFloat (fun n => 10 ^ n) 5 0 = .ok r ∧
      decimalValue r.numberStr = some (|((5 : ℤ) : ℚ)| / 10 ^ 0) := by
  rintro ⟨r, hr, -⟩
  rw [decNToFloat_zero (pow_zero 10)] at hr
  cases hr

/-- The exact reading of the ledgers is the number the text denotes, with its sign. -/
theorem dec18ToFloat_denotes (h : mathPow10 18 = 10 ^ 18) (x : ℤ) :
    ∃ (r : FloatText) (v : ℚ), dec18ToFloat mathPow10 x = .ok r ∧
      decimalValue r.numberStr = some v ∧ v * r.sign = TraderBackend.dec18ToFloat x := by
  obtain ⟨r, hr, hsign, hvalue⟩ := decNToFloat_exact h (by decide) x
  refine ⟨r, _, hr, hvalue, ?_⟩
  have habs : |(x : ℚ)| * (signOf x : ℚ) = x := by
    unfold signOf
    split
    · rename_i hneg
      rw [abs_of_neg (Int.cast_lt_zero.2 hneg), Int.cast_neg, Int.cast_one, mul_neg_one, neg_neg]
    · rename_i hpos
      rw [abs_of_nonneg (Int.cast_nonneg (not_lt.1 hpos)), Int.cast_one, mul_one]
  rw [hsign, TraderBackend.dec18ToFloat, div_mul_eq_mul_div, habs]

end

end TraderBackend.Utils
