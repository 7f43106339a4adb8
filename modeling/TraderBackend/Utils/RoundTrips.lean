import TraderBackend.Utils.FixedPoint

/-!
# There and back

`packages/utils/src/utils.ts` also has the way back, from a number to a fixed-point integer:
`floatToDecN`, `floatToDec18`, which is `floatToDecN` with 18 places, and `floatToABK64x64`.  They
read the digits of `toFixed`.

* **The code.**  `floatToABK64x64`; `FloatText.toNumber` is the call of `parseFloat`.
* **Decimals.**  `decN_there_and_back`: an amount of a token comes back within the rounding of
  `parseFloat`, and unchanged below `2 ^ 52` units.
* **64.64 format.**  Both ways cut digits off.  `abk_there_and_back_drifts`: going there and back
  again and again takes a small number down, one unit of `10 ^ -18` each time, to the next multiple
  of `5 ^ 18` units.
-/

namespace TraderBackend.Utils

open Decimal

/-! ## The code -/

section

variable (mathPow10 : ℕ → ℤ)

/-- `floatToABK64x64`; `none` is an error, for from 10^21 on `toFixed` gives an exponent. -/
def floatToABK64x64 (x : ℚ) : Option ℤ :=
  if x = 0 then some 0
  else if 10 ^ 21 ≤ |x| then none
  else
    -- the digits of `|x|.toFixed(18)`; ties are rounded up
    let n := ⌊|x| * 10 ^ 18 + 1 / 2⌋
    let xInt := n / 10 ^ 18
    let xDec := n % 10 ^ 18
    let xIntBig := xInt * ONE_64x64
    let xDecBig := (xDec * ONE_64x64).tdiv (DECIMALS18 mathPow10)
    some ((xIntBig + xDecBig) * (if x < 0 then -1 else 1))

end

/-- `parseFloat(NumberStr) * sign`, on the value of the text. -/
def FloatText.toNumber (parseFloat : ℚ → ℚ) (r : FloatText) : ℚ :=
  parseFloat ((decimalValue r.numberStr).getD 0) * r.sign

/-- `parseFloat` gives the nearest double: of normal numbers, which the texts denote, it is off by
at most one part in `2 ^ 53`. -/
structure NearestDouble (parseFloat : ℚ → ℚ) : Prop where
  zero : parseFloat 0 = 0
  near : ∀ v, 1 / 10 ^ 22 ≤ v → v < 2 ^ 1023 → |parseFloat v - v| ≤ v / 2 ^ 53

/-! ## Rounding -/

section

variable {parseFloat : ℚ → ℚ}

/-- What is read is no less than nothing. -/
theorem NearestDouble.pos (h : NearestDouble parseFloat) {v : ℚ} (hlow : 1 / 10 ^ 22 ≤ v)
    (hhigh : v < 2 ^ 1023) : 0 < parseFloat v := by
  have hv : 0 < v := lt_of_lt_of_le (by positivity) hlow
  have hnear := (abs_le.1 (h.near v hlow hhigh)).1
  have hsmall : v / 2 ^ 53 < v := div_lt_self hv (by norm_num)
  linarith

/-- A sign can be taken off again. -/
theorem abs_mul_signOf {y : ℚ} (hy : 0 ≤ y) (x : ℤ) : |y * (signOf x : ℚ)| = y := by
  unfold signOf
  split
  · rw [Int.cast_neg, Int.cast_one, mul_neg_one, abs_neg, abs_of_nonneg hy]
  · rw [Int.cast_one, mul_one, abs_of_nonneg hy]

theorem mul_signOf_neg_iff {y : ℚ} (hy : 0 < y) (x : ℤ) : y * (signOf x : ℚ) < 0 ↔ x < 0 := by
  unfold signOf
  split
  · rename_i hneg
    rw [Int.cast_neg, Int.cast_one, mul_neg_one]
    exact ⟨fun _ => hneg, fun _ => neg_neg_of_pos hy⟩
  · rename_i hpos
    rw [Int.cast_one, mul_one]
    exact ⟨fun hlt => absurd hlt (not_lt.2 hy.le), fun hlt => absurd hlt hpos⟩

theorem sign_of_number {y : ℚ} (hy : 0 < y) (x : ℤ) :
    (if y * (signOf x : ℚ) < 0 then (-1 : ℤ) else 1) = signOf x := by
  simp only [mul_signOf_neg_iff hy]
  rfl

theorem natAbs_mul_signOf (x : ℤ) : (x.natAbs : ℤ) * signOf x = x := by
  unfold signOf
  split <;> omega

/-- Rounding moves a number by half a unit at most. -/
theorem abs_round_sub_le (y : ℚ) : |(⌊y + 1 / 2⌋ : ℚ) - y| ≤ 1 / 2 := by
  have hlow := Int.floor_le (y + 1 / 2)
  have hhigh := Int.lt_floor_add_one (y + 1 / 2)
  rw [abs_le]
  constructor <;> linarith

/-- A number near a whole one is rounded to it. -/
theorem round_eq {y : ℚ} {k : ℤ} (h : |y - k| < 1 / 2) : ⌊y + 1 / 2⌋ = k := by
  obtain ⟨hlow, hhigh⟩ := abs_lt.1 h
  rw [Int.floor_eq_iff]
  constructor <;> linarith

/-! ## Decimals -/

variable {mathPow10 : ℕ → ℤ} {numDec : ℕ}

/-- The way back gives the digits of `toFixed`, with the sign. -/
theorem floatToDecN_eq (hpow : mathPow10 numDec = 10 ^ numDec) (hplaces : 0 < numDec)
    (hN : numDec ≤ 22) {y : ℚ} (hy : 0 < y) (hlt : y < 10 ^ 21) (x : ℤ) :
    floatToDecN mathPow10 (y * signOf x) numDec =
      some (⌊y * 10 ^ numDec + 1 / 2⌋ * signOf x) := by
  have hne : y * (signOf x : ℚ) ≠ 0 := by
    rw [← abs_pos, abs_mul_signOf hy.le]
    exact hy
  have hok : ¬ (numDec = 0 ∨ 100 < numDec ∨ 10 ^ 21 ≤ |y * (signOf x : ℚ)|) := by
    rw [abs_mul_signOf hy.le]
    rintro (h0 | h100 | hle)
    · omega
    · omega
    · exact absurd hlt (not_lt.2 hle)
  unfold floatToDecN
  rw [if_neg hne, if_neg hok, abs_mul_signOf hy.le, sign_of_number hy, hpow]
  simp only [mul_comm (_ / _ : ℤ) (10 ^ numDec), Int.mul_ediv_add_emod]

/-- What a text of an amount is read as is off by one part in `2 ^ 53`, in units as in whole. -/
theorem NearestDouble.near_units (hparse : NearestDouble parseFloat) (hN : numDec ≤ 22) {n : ℕ}
    (hn : 0 < n) (hlt : (n : ℚ) / 10 ^ numDec < 2 ^ 1023) :
    0 < parseFloat (n / 10 ^ numDec) ∧
      |parseFloat (n / 10 ^ numDec) * 10 ^ numDec - n| ≤ n / 2 ^ 53 := by
  have hunit : (0 : ℚ) < 10 ^ numDec := by positivity
  have hlow : (1 : ℚ) / 10 ^ 22 ≤ n / 10 ^ numDec := by
    rw [div_le_div_iff₀ (by positivity) hunit, one_mul]
    have hpow : (10 : ℚ) ^ numDec ≤ 10 ^ 22 := pow_le_pow_right₀ (by norm_num) hN
    have hone : (1 : ℚ) ≤ n := by exact_mod_cast hn
    nlinarith
  refine ⟨hparse.pos hlow hlt, ?_⟩
  have hnear := hparse.near _ hlow hlt
  have hscale : parseFloat (n / 10 ^ numDec) * 10 ^ numDec - n =
      (parseFloat (n / 10 ^ numDec) - n / 10 ^ numDec) * 10 ^ numDec := by
    rw [sub_mul, div_mul_cancel₀ _ hunit.ne']
  rw [hscale, abs_mul, abs_of_pos hunit]
  calc |parseFloat (n / 10 ^ numDec) - n / 10 ^ numDec| * 10 ^ numDec
      ≤ n / 10 ^ numDec / 2 ^ 53 * 10 ^ numDec := mul_le_mul_of_nonneg_right hnear hunit.le
    _ = n / 2 ^ 53 := by
      field_simp

/-- Below `2 ^ 52` units the rounding finds the amount again. -/
theorem NearestDouble.round_units (hparse : NearestDouble parseFloat) (hN : numDec ≤ 22) {n : ℕ}
    (hn : 0 < n) (hsmall : n < 2 ^ 52) :
    ⌊parseFloat (n / 10 ^ numDec) * 10 ^ numDec + 1 / 2⌋ = n := by
  have hcast : (n : ℚ) < 2 ^ 52 := by exact_mod_cast hsmall
  have hunit : (1 : ℚ) ≤ 10 ^ numDec := one_le_pow₀ (by norm_num)
  have hlt : (n : ℚ) / 10 ^ numDec < 2 ^ 1023 := by
    have hle : (n : ℚ) / 10 ^ numDec ≤ n := div_le_self (Nat.cast_nonneg n) hunit
    have hpow : (2 : ℚ) ^ 52 ≤ 2 ^ 1023 := pow_le_pow_right₀ (by norm_num) (by norm_num)
    exact hle.trans_lt (hcast.trans_le hpow)
  refine round_eq ((hparse.near_units hN hn hlt).2.trans_lt ?_)
  rw [div_lt_iff₀ (by positivity)]
  linarith

/-- **An amount there and back.**  It comes back within the rounding of `parseFloat` and half a
unit, and unchanged if it is below `2 ^ 52` units. -/
theorem decN_there_and_back (hparse : NearestDouble parseFloat)
    (hpow : mathPow10 numDec = 10 ^ numDec) (hplaces : 0 < numDec) (hN : numDec ≤ 22) {x : ℤ}
    (hx : |x| ≤ 10 ^ 20 * 10 ^ numDec) :
    ∃ r y, decNToFloat mathPow10 x numDec = .ok r ∧
      floatToDecN mathPow10 (r.toNumber parseFloat) numDec = some y ∧
      |(y : ℚ) - x| ≤ |(x : ℚ)| / 2 ^ 53 + 1 / 2 ∧ (|x| < 2 ^ 52 → y = x) := by
  obtain ⟨r, hr, hsign, hvalue⟩ := decNToFloat_exact hpow hplaces x
  have habs : |(x : ℚ)| = (x.natAbs : ℚ) := by
    rw [Nat.cast_natAbs, Int.cast_abs]
  have hnumber : r.toNumber parseFloat = parseFloat (x.natAbs / 10 ^ numDec) * signOf x := by
    rw [FloatText.toNumber, hvalue, hsign, Option.getD_some, habs]
  rcases Nat.eq_zero_or_pos x.natAbs with hzero | hn
  · obtain rfl := Int.natAbs_eq_zero.1 hzero
    refine ⟨r, 0, hr, ?_, by simp, fun _ => rfl⟩
    rw [hnumber, Int.natAbs_zero, Nat.cast_zero, zero_div, hparse.zero, zero_mul, floatToDecN,
      if_pos rfl]
  · have hunit : (0 : ℚ) < 10 ^ numDec := by positivity
    have hbound : (x.natAbs : ℚ) ≤ 10 ^ 20 * 10 ^ numDec := by
      rw [← habs]
      exact_mod_cast hx
    have hwhole : (x.natAbs : ℚ) / 10 ^ numDec ≤ 10 ^ 20 := (div_le_iff₀ hunit).2 hbound
    have hlt : (x.natAbs : ℚ) / 10 ^ numDec < 2 ^ 1023 :=
      calc (x.natAbs : ℚ) / 10 ^ numDec ≤ 2 ^ 67 := hwhole.trans (by norm_num)
        _ < 2 ^ 1023 := pow_lt_pow_right₀ (by norm_num) (by norm_num)
    obtain ⟨hpos, hnear⟩ := hparse.near_units hN hn hlt
    have hsize : parseFloat (x.natAbs / 10 ^ numDec) < 10 ^ 21 := by
      have hhigh := (abs_le.1 hnear).2
      have hhalf : (x.natAbs : ℚ) / 2 ^ 53 ≤ x.natAbs :=
        div_le_self (Nat.cast_nonneg _) (by norm_num)
      have hscaled : parseFloat (x.natAbs / 10 ^ numDec) * 10 ^ numDec ≤
          (2 * 10 ^ 20) * 10 ^ numDec := by linarith
      exact lt_of_le_of_lt (le_of_mul_le_mul_right hscaled hunit) (by norm_num)
    refine ⟨r, _, hr, by rw [hnumber]; exact floatToDecN_eq hpow hplaces hN hpos hsize x, ?_, ?_⟩
    · have hsigned : ((⌊parseFloat (x.natAbs / 10 ^ numDec) * 10 ^ numDec + 1 / 2⌋ * signOf x : ℤ) :
          ℚ) - x = (⌊parseFloat (x.natAbs / 10 ^ numDec) * 10 ^ numDec + 1 / 2⌋ - x.natAbs : ℚ) *
            signOf x := by
        have hx' : (x : ℚ) = (x.natAbs : ℚ) * signOf x := by
          rw [← Int.cast_natCast, ← Int.cast_mul, natAbs_mul_signOf]
        rw [sub_mul, ← hx']
        push_cast
        rfl
      have hone : |(signOf x : ℚ)| = 1 := by
        unfold signOf
        split <;> norm_num
      rw [hsigned, abs_mul, hone, mul_one, habs]
      have hround := abs_round_sub_le (parseFloat (x.natAbs / 10 ^ numDec) * 10 ^ numDec)
      have htriangle := abs_sub_le
        (⌊parseFloat (x.natAbs / 10 ^ numDec) * 10 ^ numDec + 1 / 2⌋ : ℚ)
        (parseFloat (x.natAbs / 10 ^ numDec) * 10 ^ numDec) x.natAbs
      linarith
    · intro hsmall
      have hsmall' : x.natAbs < 2 ^ 52 := by
        zify
        exact hsmall
      rw [hparse.round_units hN hn hsmall', natAbs_mul_signOf]

/-! ## 64.64 format -/

/-- `floatToABK64x64(ABK64x64ToFloat(x))`. -/
def abkThereAndBack (parseFloat : ℚ → ℚ) (mathPow10 : ℕ → ℤ) (x : ℤ) : Option ℤ := do
  let r ← (ABK64x64ToFloat mathPow10 x).toOption
  floatToABK64x64 mathPow10 (r.toNumber parseFloat)

/-- Units of `10 ^ -18` in 64.64 format, cut off. -/
def abkOfUnits (f : ℕ) : ℕ := f * 2 ^ 64 / 10 ^ 18

theorem abkOfUnits_mono {f g : ℕ} (h : f ≤ g) : abkOfUnits f ≤ abkOfUnits g :=
  Nat.div_le_div_right (Nat.mul_le_mul_right _ h)

/-- The text has the whole part and the units. -/
theorem ABK64x64ToFloat_value (hpow : mathPow10 18 = 10 ^ 18) (x : ℤ) :
    ∃ r, ABK64x64ToFloat mathPow10 x = .ok r ∧ r.sign = signOf x ∧
      decimalValue r.numberStr =
        some (((x.natAbs / 2 ^ 64 : ℕ) : ℚ) + (frac64x64 x : ℚ) / 10 ^ 18) := by
  have hscale : (((x.natAbs % 2 ^ 64 : ℕ) : ℤ) * DECIMALS18 mathPow10).tdiv ONE_64x64 =
      (frac64x64 x : ℤ) := by
    rw [DECIMALS18, natCast_pow10 hpow, ← Nat.cast_mul]
    rfl
  exact render_exact (2 ^ 64) 18 (fun xDec => (xDec * DECIMALS18 mathPow10).tdiv ONE_64x64) x hscale
    (by decide) (frac64x64_lt x)

/-- A number below one that is rounded to `f` units goes back to what they are, cut off. -/
theorem floatToABK64x64_units (hpow : mathPow10 18 = 10 ^ 18) {y : ℚ} (hy : 0 < y)
    (hlt : y < 10 ^ 21) {f : ℕ} (hf : f < 10 ^ 18) (hround : ⌊y * 10 ^ 18 + 1 / 2⌋ = f) (x : ℤ) :
    floatToABK64x64 mathPow10 (y * signOf x) = some (abkOfUnits f * signOf x) := by
  have hne : y * (signOf x : ℚ) ≠ 0 := by
    rw [← abs_pos, abs_mul_signOf hy.le]
    exact hy
  have hok : ¬ 10 ^ 21 ≤ |y * (signOf x : ℚ)| := by
    rw [abs_mul_signOf hy.le]
    exact not_le.2 hlt
  have hint : (f : ℤ) / 10 ^ 18 = 0 := by omega
  have hdec : (f : ℤ) % 10 ^ 18 = f := by omega
  have hbig : ((f : ℤ) * ONE_64x64).tdiv (DECIMALS18 mathPow10) = (abkOfUnits f : ℕ) := by
    rw [DECIMALS18, hpow]
    exact (Int.ofNat_tdiv (f * 2 ^ 64) (10 ^ 18)).symm
  rw [floatToABK64x64, if_neg hne, if_neg hok, abs_mul_signOf hy.le]
  simp only [hround, hint, hdec, hbig, sign_of_number hy, zero_mul, zero_add]

/-- What a rest costs. -/
theorem div_of_rest {f q rest : ℕ} (hsplit : 10 ^ 18 * q + rest = f * 2 ^ 64)
    (hrest : rest < 10 ^ 18) : q * 10 ^ 18 / 2 ^ 64 = if rest = 0 then f else f - 1 := by
  have hlt : (10 : ℕ) ^ 18 < 2 ^ 64 := by norm_num
  generalize (10 : ℕ) ^ 18 = a at *
  generalize (2 : ℕ) ^ 64 = b at *
  split
  · rename_i hzero
    rw [Nat.mul_comm, show a * q = f * b by omega, Nat.mul_div_cancel _ (by omega)]
  · rename_i hpos
    have hf : 0 < f := by
      rcases Nat.eq_zero_or_pos f with rfl | hf
      · omega
      · exact hf
    obtain ⟨g, rfl⟩ := Nat.exists_eq_succ_of_ne_zero hf.ne'
    rw [Nat.succ_mul] at hsplit
    have hq : q * a = (b - rest) + g * b := by
      rw [Nat.mul_comm]
      omega
    rw [hq, Nat.add_mul_div_right _ _ (by omega), Nat.div_eq_of_lt (by omega), Nat.zero_add]
    rfl

/-- Nothing is cut off where the units are a multiple of `5 ^ 18`. -/
theorem rest_eq_zero_iff (f : ℕ) : f * 2 ^ 64 % 10 ^ 18 = 0 ↔ f % 5 ^ 18 = 0 := by
  rw [← Nat.dvd_iff_mod_eq_zero, ← Nat.dvd_iff_mod_eq_zero]
  constructor
  · intro h
    have hfive : 5 ^ 18 ∣ f * 2 ^ 64 := Dvd.dvd.trans (by decide) h
    exact (Nat.Coprime.pow 18 64 (by decide)).dvd_of_dvd_mul_right hfive
  · rintro ⟨c, rfl⟩
    exact ⟨c * 2 ^ 46, by ring⟩

/-- What is cut off on the way back is a unit, unless the units are a multiple of `5 ^ 18`. -/
theorem units_abkOfUnits (f : ℕ) :
    abkOfUnits f * 10 ^ 18 / 2 ^ 64 = if f % 5 ^ 18 = 0 then f else f - 1 := by
  rw [abkOfUnits, div_of_rest (Nat.div_add_mod (f * 2 ^ 64) (10 ^ 18))
    (Nat.mod_lt _ (by decide))]
  simp only [rest_eq_zero_iff]

/-- The units of a small number. -/
theorem frac64x64_of_small {x : ℤ} (hx : |x| * 10 ^ 18 < 2 ^ 116) :
    frac64x64 x = x.natAbs * 10 ^ 18 / 2 ^ 64 ∧ frac64x64 x < 2 ^ 52 ∧ x.natAbs / 2 ^ 64 = 0 := by
  have hnat : x.natAbs * 10 ^ 18 < 2 ^ 116 := by
    zify
    exact hx
  have hmod : x.natAbs % 2 ^ 64 = x.natAbs := Nat.mod_eq_of_lt (by omega)
  rw [frac64x64, hmod]
  omega

/-- **There and back once.** -/
theorem abkThereAndBack_eq (hparse : NearestDouble parseFloat) (hpow : mathPow10 18 = 10 ^ 18)
    {x : ℤ} (hx : |x| * 10 ^ 18 < 2 ^ 116) :
    abkThereAndBack parseFloat mathPow10 x = some (abkOfUnits (frac64x64 x) * signOf x) := by
  obtain ⟨r, hr, hsign, hvalue⟩ := ABK64x64ToFloat_value hpow x
  obtain ⟨-, hsmall, hint⟩ := frac64x64_of_small hx
  have hnumber : r.toNumber parseFloat = parseFloat (frac64x64 x / 10 ^ 18) * signOf x := by
    rw [FloatText.toNumber, hvalue, hsign, Option.getD_some, hint, Nat.cast_zero, zero_add]
  have hback : abkThereAndBack parseFloat mathPow10 x =
      floatToABK64x64 mathPow10 (r.toNumber parseFloat) := by
    rw [abkThereAndBack, hr]
    rfl
  rw [hback, hnumber]
  rcases Nat.eq_zero_or_pos (frac64x64 x) with hzero | hpos
  · rw [hzero, Nat.cast_zero, zero_div, hparse.zero, zero_mul, floatToABK64x64, if_pos rfl]
    simp [abkOfUnits]
  · have hwhole : (frac64x64 x : ℚ) / 10 ^ 18 < 1 := by
      rw [div_lt_one (by positivity)]
      exact_mod_cast frac64x64_lt x
    have hlt : (frac64x64 x : ℚ) / 10 ^ 18 < 2 ^ 1023 :=
      hwhole.trans (one_lt_pow₀ (by norm_num) (by norm_num))
    obtain ⟨hread, hnear⟩ := hparse.near_units (by decide) hpos hlt
    refine floatToABK64x64_units hpow hread ?_ (frac64x64_lt x)
      (hparse.round_units (by decide) hpos hsmall) x
    have hhigh := (abs_le.1 hnear).2
    have hunits : (frac64x64 x : ℚ) < 10 ^ 18 := by exact_mod_cast frac64x64_lt x
    have hhalf : (frac64x64 x : ℚ) / 2 ^ 53 ≤ frac64x64 x :=
      div_le_self (Nat.cast_nonneg _) (by norm_num)
    linarith

/-- One unit further down. -/
theorem drift_succ (f n : ℕ) {m : ℕ} (hm : 0 < m) :
    (if (f - min n (f % m)) % m = 0 then f - min n (f % m) else f - min n (f % m) - 1) =
      f - min (n + 1) (f % m) := by
  have hle := Nat.mod_le f m
  rcases lt_or_ge n (f % m) with hlt | hge
  · rw [min_eq_left hlt.le, min_eq_left (Nat.succ_le_of_lt hlt)]
    have hmod : (f - n) % m ≠ 0 := by
      have hsplit := Nat.div_add_mod f m
      rw [show f - n = m * (f / m) + (f % m - n) by omega, Nat.mul_add_mod,
        Nat.mod_eq_of_lt (lt_of_le_of_lt (Nat.sub_le _ _) (Nat.mod_lt f hm))]
      omega
    rw [if_neg hmod, Nat.sub_sub]
  · rw [min_eq_right hge, min_eq_right (Nat.le_succ_of_le hge)]
    have hmod : (f - f % m) % m = 0 := by
      rw [Nat.sub_mod_eq_zero_of_mod_eq (Nat.mod_mod f m).symm]
    rw [if_pos hmod]

/-- A number that came back has the sign it left with, or is zero. -/
theorem mul_signOf_again (q : ℕ) {k : ℕ} (h : q = 0 → k = 0) (x : ℤ) :
    (k : ℤ) * signOf (q * signOf x) = k * signOf x := by
  rcases Nat.eq_zero_or_pos q with hzero | hpos
  · rw [h hzero, Nat.cast_zero, zero_mul, zero_mul]
  · have hsign : signOf ((q : ℤ) * signOf x) = signOf x := by
      unfold signOf
      split <;> split <;> omega
    rw [hsign]

/-- **There and back again and again.**  A number that is less than `2 ^ 52` units of `10 ^ -18`
loses a unit each time, until it is a multiple of `5 ^ 18` units. -/
theorem abk_there_and_back_drifts (hparse : NearestDouble parseFloat)
    (hpow : mathPow10 18 = 10 ^ 18) {x : ℤ} (hx : |x| * 10 ^ 18 < 2 ^ 116) (n : ℕ) :
    (fun o => o.bind (abkThereAndBack parseFloat mathPow10))^[n + 1] (some x) =
      some (abkOfUnits (frac64x64 x - min n (frac64x64 x % 5 ^ 18)) * signOf x) := by
  induction n with
  | zero =>
    rw [zero_add, Function.iterate_one, Option.bind_some, abkThereAndBack_eq hparse hpow hx,
      Nat.zero_min, Nat.sub_zero]
  | succ n ih =>
    rw [Function.iterate_succ_apply', ih, Option.bind_some,
      ← drift_succ _ n (by decide)]
    obtain ⟨-, hsmall, -⟩ := frac64x64_of_small hx
    have hf : frac64x64 x - min n (frac64x64 x % 5 ^ 18) < 2 ^ 52 :=
      lt_of_le_of_lt (Nat.sub_le _ _) hsmall
    generalize frac64x64 x - min n (frac64x64 x % 5 ^ 18) = f at hf
    -- what came back is small again, and its units are known
    have habs : (abkOfUnits f * signOf x : ℤ).natAbs = abkOfUnits f := by
      rw [Int.natAbs_mul, Int.natAbs_natCast]
      unfold signOf
      split <;> simp
    have hback : abkOfUnits f * 10 ^ 18 ≤ f * 2 ^ 64 := Nat.div_mul_le_self _ _
    have hagain : |(abkOfUnits f * signOf x : ℤ)| * 10 ^ 18 < 2 ^ 116 := by
      rw [Int.abs_eq_natAbs, habs]
      have hlt : abkOfUnits f * 10 ^ 18 < 2 ^ 116 := by
        calc abkOfUnits f * 10 ^ 18 ≤ f * 2 ^ 64 := hback
          _ < 2 ^ 52 * 2 ^ 64 := Nat.mul_lt_mul_of_pos_right hf (by positivity)
          _ = 2 ^ 116 := by norm_num
      exact_mod_cast hlt
    rw [abkThereAndBack_eq hparse hpow hagain, (frac64x64_of_small hagain).1, habs,
      units_abkOfUnits]
    have hdown : (if f % 5 ^ 18 = 0 then f else f - 1) ≤ f := by
      split
      · exact le_refl f
      · exact Nat.sub_le f 1
    refine congrArg some (mul_signOf_again _ (fun hzero => ?_) x)
    have hmono := abkOfUnits_mono hdown
    rw [hzero] at hmono
    exact Nat.eq_zero_of_le_zero hmono

end

/-- The nearest whole number, the even one of two. -/
def roundHalfEven (y : ℚ) : ℤ :=
  if y - ⌊y⌋ < 1 / 2 ∨ y - ⌊y⌋ = 1 / 2 ∧ ⌊y⌋ % 2 = 0 then ⌊y⌋ else ⌊y⌋ + 1

/-- The nearest double of zero or a positive number in the range of the normal ones: 53 binary
digits. -/
def nearestDouble (v : ℚ) : ℚ :=
  if v ≤ 0 then 0
  else
    let unit : ℚ := 2 ^ (Int.log 2 v - 52)
    roundHalfEven (v / unit) * unit

theorem abs_roundHalfEven_sub_le (y : ℚ) : |(roundHalfEven y : ℚ) - y| ≤ 1 / 2 := by
  have hlow := Int.floor_le y
  have hhigh := Int.lt_floor_add_one y
  rw [roundHalfEven, abs_le]
  split
  · rename_i hdown
    have hhalf : y - ⌊y⌋ ≤ 1 / 2 := hdown.elim (fun h => h.le) fun h => h.1.le
    constructor <;> linarith
  · rename_i hup
    have hhalf : 1 / 2 ≤ y - ⌊y⌋ := not_lt.1 fun h => hup (Or.inl h)
    push_cast
    constructor <;> linarith

/-- That is what `parseFloat` reads. -/
theorem nearestDouble_near : NearestDouble nearestDouble where
  zero := if_pos (le_refl 0)
  near v hlow _ := by
    have hv : 0 < v := lt_of_lt_of_le (by positivity) hlow
    have hunit : (0 : ℚ) < 2 ^ (Int.log 2 v - 52) := by positivity
    rw [nearestDouble, if_neg (not_le.2 hv)]
    simp only
    -- the unit is one part in `2 ^ 52` of the number at most
    have hsmall : (2 : ℚ) ^ (Int.log 2 v - 52) ≤ v / 2 ^ 52 := by
      have hlog : ((2 : ℕ) : ℚ) ^ Int.log 2 v ≤ v := Int.zpow_log_le_self (by norm_num) hv
      rw [zpow_sub₀ (by norm_num), le_div_iff₀ (by positivity)]
      have hcancel : (2 : ℚ) ^ Int.log 2 v / 2 ^ (52 : ℤ) * 2 ^ 52 = 2 ^ Int.log 2 v :=
        div_mul_cancel₀ _ (by positivity)
      rw [hcancel]
      exact_mod_cast hlog
    have hscale : roundHalfEven (v / 2 ^ (Int.log 2 v - 52)) * (2 : ℚ) ^ (Int.log 2 v - 52) - v =
        (roundHalfEven (v / 2 ^ (Int.log 2 v - 52)) - v / 2 ^ (Int.log 2 v - 52)) *
          2 ^ (Int.log 2 v - 52) := by
      rw [sub_mul, div_mul_cancel₀ _ hunit.ne']
    rw [hscale, abs_mul, abs_of_pos hunit]
    calc _ ≤ 1 / 2 * (v / 2 ^ 52) :=
          mul_le_mul (abs_roundHalfEven_sub_le _) hsmall hunit.le (by norm_num)
      _ = v / 2 ^ 53 := by ring

/-- A negative amount of a token with six decimals, whose text is no double. -/
theorem sixDecimals_back :
    ∃ r y, decNToFloat (fun n => 10 ^ n) (-12000345) 6 = .ok r ∧
      floatToDecN (fun n => 10 ^ n) (r.toNumber nearestDouble) 6 = some y ∧
      |(y : ℚ) - (-12000345 : ℤ)| ≤ |((-12000345 : ℤ) : ℚ)| / 2 ^ 53 + 1 / 2 ∧
      (|(-12000345 : ℤ)| < 2 ^ 52 → y = -12000345) :=
  decN_there_and_back nearestDouble_near rfl (by decide) (by decide) (by decide)

/-- A thousandth, which is `10 ^ 15` units, loses one of them each time. -/
theorem thousandth_drifts :
    (fun o => o.bind (abkThereAndBack nearestDouble fun n => 10 ^ n))^[4] (some (2 ^ 64 / 1000)) =
        some (18446744073709477) ∧
      (fun o => o.bind (abkThereAndBack nearestDouble fun n => 10 ^ n))^[4]
          (some (2 ^ 64 / 1000)) =
        some (abkOfUnits (frac64x64 (2 ^ 64 / 1000) - min 3 (frac64x64 (2 ^ 64 / 1000) % 5 ^ 18)) *
          signOf (2 ^ 64 / 1000)) := by
  have hdrift : (fun o => o.bind (abkThereAndBack nearestDouble fun n => 10 ^ n))^[4]
      (some (2 ^ 64 / 1000)) = _ :=
    abk_there_and_back_drifts nearestDouble_near rfl (by decide +kernel) 3
  exact ⟨by rw [hdrift]; decide +kernel, hdrift⟩

end TraderBackend.Utils
