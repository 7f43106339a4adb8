import TraderBackend.Lib.Argmax

/-!
# Percentages that add up to a hundred

`adjustNDigitPercentagesTo100` of `packages/utils/src/utils.ts`: percentages are rounded to a
number of digits, the excess over a hundred is spread evenly, and what is left of it
goes to the largest entry found on the way.

* **The code.**  `adjustNDigitPercentagesTo100` on exact numbers, with the loop as a fold
  (`Pass.step`) and the error of `toFixed` above a hundred digits.
* **The loop.**  `foldl_pass` says what it leaves: the entries with their share taken off,
  their total, and where the first largest one stands.
* **The last entry.**  `balance_perm` and `sum_balance`: the entry that takes the rest makes the
  total exact, whatever the others are.
* **The laws.**  `adjust_spec`: length and total always hold.  `adjust_laws_iff`: zeros are kept
  and no entry is negative exactly when `Adjustable` says so, a condition on the rounded entries.
-/

namespace TraderBackend.Utils

open Argmax

/-! ## The code -/

/-- `Math.round`: halves go up. -/
def mathRound (x : ℚ) : ℤ := ⌊x + 1 / 2⌋

/-- `Number(x.toFixed(digits))`; halves go away from zero. -/
def toFixedNumber (x : ℚ) (digits : ℕ) : Except String ℚ :=
  if 100 < digits then .error "toFixed() digits argument must be between 0 and 100"
  else
    let n := ⌊|x| * 10 ^ digits + 1 / 2⌋
    .ok ((if x < 0 then -n else n : ℤ) / 10 ^ digits)

/-- The variables of the loop, with the part of `percDigits` it has been through. -/
structure Pass where
  percDigits : List ℤ
  s : ℤ
  max : ℤ
  maxidx : ℕ
  deriving DecidableEq

/-- One turn of the loop. -/
def Pass.step (distr : ℤ) (p : Pass) (x : ℤ) : Pass :=
  let x := if x ≠ 0 then x - distr else x
  { percDigits := p.percDigits ++ [x]
    s := p.s + x
    max := if p.max < x then x else p.max
    maxidx := if p.max < x then p.percDigits.length else p.maxidx }

/-- `adjustNDigitPercentagesTo100`, on percentages of which one at least does not round to
zero. -/
def adjustNDigitPercentagesTo100 (perc : List ℚ) (digits : ℕ) : Except String (List ℚ) :=
  let percDigits := perc.map fun x => mathRound (x * 10 ^ digits)
  let s := percDigits.sum
  let hundredPercent : ℤ := 100 * 10 ^ digits
  let err := s - hundredPercent
  let numNonZero := percDigits.countP (· ≠ 0)
  let distr := mathRound (err / numNonZero)
  let pass := percDigits.foldl (Pass.step distr) ⟨[], 0, 0, 0⟩
  let residual := pass.s - hundredPercent
  let percDigits := pass.percDigits.modify pass.maxidx (· - residual)
  percDigits.mapM fun x : ℤ => toFixedNumber ((x : ℚ) / 10 ^ digits) digits

/-! ## The condition -/

/-- The rounded percentages, in units of the last digit. -/
def rounded (perc : List ℚ) (digits : ℕ) : List ℤ :=
  perc.map fun x => mathRound (x * 10 ^ digits)

/-- What every non-zero entry has too much, on average, over a total of `hundred`. -/
def meanExcess (q : List ℤ) (hundred : ℤ) : ℤ :=
  mathRound ((q.sum - hundred : ℤ) / (q.countP (· ≠ 0) : ℕ))

/-- The position that balances the total: the first largest entry if it exceeds the mean
excess, else the first of all. -/
def balancing (q : List ℤ) (excess : ℤ) : ℕ := if excess < top q then firstTop q else 0

/-- The condition under which no entry ends below zero and no zero is touched: the entry that
balances the total is none of the zeros, the others can bear the mean excess, and what
they are left with does not come to more than a hundred percent. -/
structure Adjustable (q : List ℤ) (hundred : ℤ) : Prop where
  balancing_ne_zero : q[balancing q (meanExcess q hundred)]? ≠ some 0
  excess_le : ∀ x ∈ q.eraseIdx (balancing q (meanExcess q hundred)),
    x ≠ 0 → meanExcess q hundred ≤ x
  total_le : (((q.eraseIdx (balancing q (meanExcess q hundred))).filter (· ≠ 0)).map
    (· - meanExcess q hundred)).sum ≤ hundred

instance (q : List ℤ) (hundred : ℤ) : Decidable (Adjustable q hundred) :=
  decidable_of_iff (q[balancing q (meanExcess q hundred)]? ≠ some 0 ∧
    (∀ x ∈ q.eraseIdx (balancing q (meanExcess q hundred)), x ≠ 0 → meanExcess q hundred ≤ x) ∧
    (((q.eraseIdx (balancing q (meanExcess q hundred))).filter (· ≠ 0)).map
      (· - meanExcess q hundred)).sum ≤ hundred)
    ⟨fun ⟨h₁, h₂, h₃⟩ => ⟨h₁, h₂, h₃⟩, fun ⟨h₁, h₂, h₃⟩ => ⟨h₁, h₂, h₃⟩⟩

/-! ## The loop -/

/-- An entry with its share of the excess taken off. -/
def spread (excess x : ℤ) : ℤ := if x ≠ 0 then x - excess else x

@[simp] theorem spread_zero (excess : ℤ) : spread excess 0 = 0 := rfl

theorem spread_of_ne_zero (excess : ℤ) {x : ℤ} (h : x ≠ 0) : spread excess x = x - excess :=
  if_pos h

/-- **What the loop leaves.** -/
theorem foldl_pass (excess : ℤ) (q : List ℤ) :
    q.foldl (Pass.step excess) ⟨[], 0, 0, 0⟩ =
      { percDigits := q.map (spread excess)
        s := (q.map (spread excess)).sum
        max := top (q.map (spread excess))
        maxidx := if 0 < top (q.map (spread excess)) then firstTop (q.map (spread excess))
          else 0 } := by
  induction q using List.reverseRecOn with
  | nil => rfl
  | append_singleton q x ih =>
    rw [List.foldl_append, ih, List.foldl_cons, List.foldl_nil, List.map_append, List.map_cons,
      List.map_nil, top_append]
    generalize q.map (spread excess) = v
    have hstep : (if x ≠ 0 then x - excess else x) = spread excess x := rfl
    simp only [Pass.step, hstep, Pass.mk.injEq, true_and, List.sum_append, List.sum_singleton]
    by_cases hlt : top v < spread excess x
    · -- the new entry is the largest
      have hpos : 0 < spread excess x := lt_of_le_of_lt (zero_le_top v) hlt
      simp only [if_pos hlt, max_eq_right hlt.le, if_pos hpos, firstTop_append_of_lt hlt,
        and_self]
    · have hle : spread excess x ≤ top v := not_lt.1 hlt
      simp only [if_neg hlt, max_eq_left hle, true_and]
      by_cases hpos : 0 < top v
      · rw [if_pos hpos, if_pos hpos, firstTop_append_of_le hle hpos]
      · rw [if_neg hpos, if_neg hpos]

/-! ## Where the rest goes -/

section

variable {q : List ℤ}

/-- Some entry is positive. -/
theorem top_pos (hq : ∀ x ∈ q, 0 ≤ x) (hne : ∃ x ∈ q, x ≠ 0) : 0 < top q := by
  obtain ⟨x, hx, hx0⟩ := hne
  exact lt_of_lt_of_le (lt_of_le_of_ne (hq x hx) hx0.symm) (le_top hx)

/-- The largest entry stays the largest one, if it stays positive. -/
theorem top_spread (hq : ∀ x ∈ q, 0 ≤ x) (hne : ∃ x ∈ q, x ≠ 0) {excess : ℤ}
    (h : excess < top q) : top (q.map (spread excess)) = top q - excess := by
  have hpos := top_pos hq hne
  have htop : spread excess (top q) = top q - excess := spread_of_ne_zero excess hpos.ne'
  refine top_eq (List.mem_map.2 ⟨top q, top_mem hpos, htop⟩) (by omega) ?_
  intro y hy
  obtain ⟨x, hx, rfl⟩ := List.mem_map.1 hy
  have hle := le_top hx
  unfold spread
  split
  · omega
  · omega

/-- Otherwise nothing stays positive. -/
theorem top_spread_nonpos {excess : ℤ} (h : top q ≤ excess) :
    ¬ 0 < top (q.map (spread excess)) := by
  intro hpos
  obtain ⟨x, hx, hspread⟩ := List.mem_map.1 (top_mem hpos)
  have hle := le_top hx
  by_cases hx0 : x = 0
  · rw [hx0, spread_zero] at hspread
    exact absurd hspread hpos.ne
  · rw [spread_of_ne_zero excess hx0] at hspread
    omega

/-- The position the loop ends with, in terms of its input. -/
theorem maxidx_eq_balancing (hq : ∀ x ∈ q, 0 ≤ x) (hne : ∃ x ∈ q, x ≠ 0) (excess : ℤ) :
    (if 0 < top (q.map (spread excess)) then firstTop (q.map (spread excess)) else 0) =
      balancing q excess := by
  unfold balancing
  by_cases h : excess < top q
  · have hpos := top_pos hq hne
    have htop := top_spread hq hne h
    have himage : spread excess (top q) = top q - excess := spread_of_ne_zero excess hpos.ne'
    rw [if_pos h, if_pos (by omega), firstTop, firstTop, htop, ← himage]
    apply idxOf_map
    intro x hx heq
    rw [himage] at heq
    unfold spread at heq
    split at heq
    · omega
    · omega
  · rw [if_neg h, if_neg (top_spread_nonpos (not_lt.1 h))]

theorem balancing_lt (hq : ∀ x ∈ q, 0 ≤ x) (hne : ∃ x ∈ q, x ≠ 0) (excess : ℤ) :
    balancing q excess < q.length := by
  have hmem := top_mem (top_pos hq hne)
  unfold balancing
  split
  · exact List.idxOf_lt_length_of_mem hmem
  · exact List.length_pos_of_mem hmem

/-- A zero in the balancing position: nothing exceeds the excess. -/
theorem top_le_of_balancing_zero (hq : ∀ x ∈ q, 0 ≤ x) (hne : ∃ x ∈ q, x ≠ 0) {excess : ℤ}
    (h : q[balancing q excess]? = some 0) : top q ≤ excess := by
  by_contra hlt
  have hpos := top_pos hq hne
  rw [balancing, if_pos (not_le.1 hlt), firstTop, List.getElem?_idxOf (top_mem hpos)] at h
  exact hpos.ne' (Option.some.inj h)

end

/-! ## The last entry -/

/-- The total `hundred` reached by one entry. -/
def balance (v : List ℤ) (m : ℕ) (hundred : ℤ) : List ℤ :=
  v.modify m (· - (v.sum - hundred))

section

variable {v : List ℤ} {m : ℕ} {hundred : ℤ}

@[simp] theorem length_balance : (balance v m hundred).length = v.length :=
  List.length_modify ..

/-- The entry that takes the rest. -/
theorem getElem?_balance_self (hm : m < v.length) :
    (balance v m hundred)[m]? = some (hundred - (v.eraseIdx m).sum) := by
  have hsum := List.CommMonoid.add_sum_eraseIdx hm
  rw [balance, List.getElem?_modify_eq, List.getElem?_eq_getElem hm, Option.map_eq_map,
    Option.map_some]
  congr 1
  omega

theorem getElem?_balance_of_ne {k : ℕ} (h : m ≠ k) : (balance v m hundred)[k]? = v[k]? :=
  List.getElem?_modify_ne _ _ h

/-- The other entries and the rest. -/
theorem balance_perm (hm : m < v.length) :
    ((hundred - (v.eraseIdx m).sum) :: v.eraseIdx m).Perm (balance v m hundred) := by
  have hlength : m < (balance v m hundred).length := by rwa [length_balance]
  have hself : (balance v m hundred)[m]? = some (hundred - (v.eraseIdx m).sum) :=
    getElem?_balance_self hm
  rw [List.getElem?_eq_getElem hlength, Option.some.injEq] at hself
  have hothers : (balance v m hundred).eraseIdx m = v.eraseIdx m :=
    List.eraseIdx_modify_of_eq ..
  have hperm := List.getElem_cons_eraseIdx_perm hlength
  rw [hself, hothers] at hperm
  exact hperm

theorem sum_balance (hm : m < v.length) : (balance v m hundred).sum = hundred := by
  rw [← (balance_perm hm).sum_eq, List.sum_cons, sub_add_cancel]

/-- No entry below zero. -/
theorem balance_nonneg_iff (hm : m < v.length) :
    (∀ x ∈ balance v m hundred, 0 ≤ x) ↔
      (v.eraseIdx m).sum ≤ hundred ∧ ∀ x ∈ v.eraseIdx m, 0 ≤ x := by
  have hmem : ∀ x, x ∈ balance v m hundred ↔ x ∈ (hundred - (v.eraseIdx m).sum) :: v.eraseIdx m :=
    fun x => (balance_perm hm).mem_iff.symm
  simp only [hmem, List.forall_mem_cons, sub_nonneg]

end

/-- The entries after the loop and the line after it. -/
def Pass.settle (p : Pass) (hundred : ℤ) : List ℤ :=
  p.percDigits.modify p.maxidx (· - (p.s - hundred))

/-- The rounded entries with their shares taken off and the total reached. -/
def adjusted (q : List ℤ) (hundred : ℤ) : List ℤ :=
  balance (q.map (spread (meanExcess q hundred))) (balancing q (meanExcess q hundred)) hundred

theorem foldl_settle {q : List ℤ} (hq : ∀ x ∈ q, 0 ≤ x) (hne : ∃ x ∈ q, x ≠ 0) {hundred : ℤ} :
    (q.foldl (Pass.step (meanExcess q hundred)) ⟨[], 0, 0, 0⟩).settle hundred =
      adjusted q hundred := by
  rw [foldl_pass, Pass.settle, maxidx_eq_balancing hq hne]
  rfl

/-! ## The laws -/

section

variable {q : List ℤ} {excess hundred : ℤ}

/-- The entries besides one, with their shares taken off. -/
theorem eraseIdx_map_spread (m : ℕ) :
    (q.map (spread excess)).eraseIdx m = (q.eraseIdx m).map (spread excess) :=
  List.eraseIdx_map ..

/-- Zeros do not count in the total. -/
theorem sum_map_spread (l : List ℤ) :
    (l.map (spread excess)).sum = ((l.filter (· ≠ 0)).map (· - excess)).sum := by
  induction l with
  | nil => rfl
  | cons x l ih =>
    rw [List.map_cons, List.sum_cons, ih]
    by_cases hx : x = 0
    · rw [hx, spread_zero, zero_add, List.filter_cons_of_neg (by decide)]
    · rw [spread_of_ne_zero excess hx, List.filter_cons_of_pos (by simpa using hx), List.map_cons,
        List.sum_cons]

theorem spread_nonneg_iff (x : ℤ) : 0 ≤ spread excess x ↔ (x ≠ 0 → excess ≤ x) := by
  by_cases hx : x = 0
  · simp [hx]
  · simp [spread_of_ne_zero excess hx, hx]

/-- No entry below zero, on the rounded entries. -/
theorem adjusted_nonneg_iff {m : ℕ} (hm : m < q.length) :
    (∀ x ∈ balance (q.map (spread excess)) m hundred, 0 ≤ x) ↔
      (((q.eraseIdx m).filter (· ≠ 0)).map (· - excess)).sum ≤ hundred ∧
        ∀ x ∈ q.eraseIdx m, x ≠ 0 → excess ≤ x := by
  rw [balance_nonneg_iff (by rwa [List.length_map]), eraseIdx_map_spread, sum_map_spread,
    List.forall_mem_map]
  simp only [spread_nonneg_iff]

/-- Zeros stay zero when the balancing entry is none of them. -/
theorem adjusted_zero_iff (hq : ∀ x ∈ q, 0 ≤ x) (hne : ∃ x ∈ q, x ≠ 0) (hpos : 0 < hundred) :
    (∀ k : ℕ, q[k]? = some 0 →
        (balance (q.map (spread excess)) (balancing q excess) hundred)[k]? = some 0) ↔
      q[balancing q excess]? ≠ some 0 := by
  have hm : balancing q excess < (q.map (spread excess)).length := by
    rw [List.length_map]
    exact balancing_lt hq hne excess
  constructor
  · intro hzeros h0
    -- the others are not above the excess, so the rest is a hundred percent or more
    have htop := top_le_of_balancing_zero hq hne h0
    have hself := hzeros _ h0
    rw [getElem?_balance_self hm, Option.some.injEq, eraseIdx_map_spread] at hself
    have hle : ∀ y ∈ (q.eraseIdx (balancing q excess)).map (spread excess), y ≤ 0 := by
      intro y hy
      obtain ⟨x, hx, rfl⟩ := List.mem_map.1 hy
      have hle := le_top (List.mem_of_mem_eraseIdx hx)
      by_cases hx0 : x = 0
      · rw [hx0, spread_zero]
      · rw [spread_of_ne_zero excess hx0]
        omega
    have hothers := List.sum_le_card_nsmul _ 0 hle
    rw [smul_zero] at hothers
    omega
  · intro hne0 k hk
    have hmk : balancing q excess ≠ k := by
      rintro rfl
      exact hne0 hk
    rw [getElem?_balance_of_ne hmk, List.getElem?_map, hk, Option.map_some, spread_zero]

end

section

variable {perc : List ℚ} {digits : ℕ}

theorem rounded_nonneg (hperc : ∀ x ∈ perc, 0 ≤ x) : ∀ x ∈ rounded perc digits, 0 ≤ x := by
  intro y hy
  obtain ⟨x, hx, rfl⟩ := List.mem_map.1 hy
  have hx0 := hperc x hx
  exact Int.floor_nonneg.2 (by positivity)

/-- A number of units of the last digit is not rounded. -/
theorem toFixedNumber_unit (hdigits : digits ≤ 100) (n : ℤ) :
    toFixedNumber ((n : ℚ) / 10 ^ digits) digits = .ok ((n : ℚ) / 10 ^ digits) := by
  have hpow : (0 : ℚ) < 10 ^ digits := by positivity
  have habs : |(n : ℚ) / 10 ^ digits| * 10 ^ digits = (|n| : ℤ) := by
    rw [abs_div, abs_of_pos hpow, div_mul_cancel₀ _ hpow.ne', Int.cast_abs]
  have hfloor : ⌊((|n| : ℤ) : ℚ) + 1 / 2⌋ = |n| := by
    rw [Int.floor_intCast_add]
    norm_num
  have hneg : (n : ℚ) / 10 ^ digits < 0 ↔ n < 0 := by
    rw [div_lt_iff₀ hpow, zero_mul, Int.cast_lt_zero]
  rw [toFixedNumber, if_neg (not_lt.2 hdigits), habs, hfloor]
  simp only [hneg]
  split
  · rename_i hlt
    rw [abs_of_neg hlt, neg_neg]
  · rename_i hge
    rw [abs_of_nonneg (not_lt.1 hge)]

/-- What the code computes, up to the texts of `toFixed`. -/
theorem adjust_eq (hperc : ∀ x ∈ perc, 0 ≤ x) (hne : ∃ x ∈ rounded perc digits, x ≠ 0) :
    adjustNDigitPercentagesTo100 perc digits =
      (adjusted (rounded perc digits) (100 * 10 ^ digits)).mapM
        fun x : ℤ => toFixedNumber ((x : ℚ) / 10 ^ digits) digits := by
  rw [← foldl_settle (rounded_nonneg hperc) hne]
  rfl

theorem mapM_toFixed (hdigits : digits ≤ 100) (w : List ℤ) :
    (w.mapM fun x : ℤ => toFixedNumber ((x : ℚ) / 10 ^ digits) digits) =
      .ok (w.map fun x : ℤ => (x : ℚ) / 10 ^ digits) := by
  simp only [toFixedNumber_unit hdigits]
  exact List.mapM_pure

/-- Above a hundred digits `toFixed` throws. -/
theorem mapM_toFixed_error (hdigits : 100 < digits) {w : List ℤ} (hw : w ≠ []) :
    (w.mapM fun x : ℤ => toFixedNumber ((x : ℚ) / 10 ^ digits) digits) =
      .error "toFixed() digits argument must be between 0 and 100" := by
  cases w with
  | nil => exact absurd rfl hw
  | cons x w =>
    rw [List.mapM_cons, toFixedNumber, if_pos hdigits]
    rfl

/-- The scaled total. -/
theorem sum_scaled (w : List ℤ) :
    (w.map fun x : ℤ => (x : ℚ) / 10 ^ digits).sum = (w.sum : ℚ) / 10 ^ digits := by
  induction w with
  | nil => simp
  | cons x w ih => rw [List.map_cons, List.sum_cons, ih, List.sum_cons, Int.cast_add, add_div]

theorem getElem?_scaled_eq_zero_iff (w : List ℤ) (k : ℕ) :
    (w.map fun x : ℤ => (x : ℚ) / 10 ^ digits)[k]? = some 0 ↔ w[k]? = some 0 := by
  have hpow : (10 : ℚ) ^ digits ≠ 0 := by positivity
  rw [List.getElem?_map]
  cases w[k]? with
  | none => simp
  | some x => simp [hpow]

theorem scaled_nonneg_iff (w : List ℤ) :
    (∀ x ∈ w.map fun x : ℤ => (x : ℚ) / 10 ^ digits, 0 ≤ x) ↔ ∀ x ∈ w, 0 ≤ x := by
  have hpow : (0 : ℚ) < 10 ^ digits := by positivity
  rw [List.forall_mem_map]
  refine forall₂_congr fun x _ => ?_
  rw [le_div_iff₀ hpow, zero_mul, Int.cast_nonneg_iff]

/-- **The result.**  Length and total are always right; zeros and signs depend on the rounded
entries. -/
theorem adjust_spec (hperc : ∀ x ∈ perc, 0 ≤ x) (hne : ∃ x ∈ rounded perc digits, x ≠ 0)
    (hdigits : digits ≤ 100) :
    ∃ ndigits : List ℚ, adjustNDigitPercentagesTo100 perc digits = .ok ndigits ∧
      ndigits.length = perc.length ∧ ndigits.sum = 100 ∧
      (((∀ k : ℕ, (rounded perc digits)[k]? = some 0 → ndigits[k]? = some 0) ∧
          ∀ x ∈ ndigits, 0 ≤ x) ↔
        Adjustable (rounded perc digits) (100 * 10 ^ digits)) := by
  have hq : ∀ x ∈ rounded perc digits, 0 ≤ x := rounded_nonneg hperc
  have hhundred : (0 : ℤ) < 100 * 10 ^ digits := by positivity
  have hm := balancing_lt hq hne (meanExcess (rounded perc digits) (100 * 10 ^ digits))
  refine ⟨_, (adjust_eq hperc hne).trans (mapM_toFixed hdigits _), ?_, ?_, ?_⟩
  · rw [List.length_map, adjusted, length_balance, List.length_map, rounded, List.length_map]
  · have hpow : (10 : ℚ) ^ digits ≠ 0 := by positivity
    rw [sum_scaled, adjusted, sum_balance (by rwa [List.length_map])]
    push_cast
    exact mul_div_cancel_right₀ 100 hpow
  · simp only [getElem?_scaled_eq_zero_iff]
    rw [scaled_nonneg_iff, adjusted, adjusted_zero_iff hq hne hhundred, adjusted_nonneg_iff hm]
    constructor
    · rintro ⟨hbalancing, htotal, hothers⟩
      exact ⟨hbalancing, hothers, htotal⟩
    · rintro ⟨hbalancing, hothers, htotal⟩
      exact ⟨hbalancing, htotal, hothers⟩

/-- Above a hundred digits the call fails. -/
theorem adjust_error (hperc : ∀ x ∈ perc, 0 ≤ x) (hne : ∃ x ∈ rounded perc digits, x ≠ 0)
    (hdigits : 100 < digits) :
    adjustNDigitPercentagesTo100 perc digits =
      .error "toFixed() digits argument must be between 0 and 100" := by
  rw [adjust_eq hperc hne]
  apply mapM_toFixed_error hdigits
  rw [← List.length_pos_iff, adjusted, length_balance, List.length_map]
  exact Nat.zero_lt_of_lt (balancing_lt (rounded_nonneg hperc) hne 0)

/-- **The laws.**  The result is as long as the input and adds up to a hundred; it keeps the
zeros and stays above zero exactly when the rounded entries are `Adjustable`. -/
theorem adjust_laws_iff (hperc : ∀ x ∈ perc, 0 ≤ x) (hne : ∃ x ∈ rounded perc digits, x ≠ 0) :
    (∃ ndigits : List ℚ, adjustNDigitPercentagesTo100 perc digits = .ok ndigits ∧
        ndigits.length = perc.length ∧ ndigits.sum = 100 ∧
        (∀ k : ℕ, (rounded perc digits)[k]? = some 0 → ndigits[k]? = some 0) ∧
        ∀ x ∈ ndigits, 0 ≤ x) ↔
      digits ≤ 100 ∧ Adjustable (rounded perc digits) (100 * 10 ^ digits) := by
  by_cases hdigits : digits ≤ 100
  · obtain ⟨ndigits, hok, hlength, hsum, hlaws⟩ := adjust_spec hperc hne hdigits
    constructor
    · rintro ⟨ndigits', hok', -, -, hzeros, hpos⟩
      obtain rfl := Except.ok.inj (hok.symm.trans hok')
      exact ⟨hdigits, hlaws.1 ⟨hzeros, hpos⟩⟩
    · rintro ⟨-, hadjustable⟩
      exact ⟨ndigits, hok, hlength, hsum, hlaws.2 hadjustable⟩
  · rw [adjust_error hperc hne (not_le.1 hdigits)]
    constructor
    · rintro ⟨ndigits, hok, -⟩
      cases hok
    · rintro ⟨hle, -⟩
      exact absurd hle hdigits

/-- The input of the test of the utilities. -/
theorem testInput_adjusted :
    adjustNDigitPercentagesTo100 [981 / 10, 1 / 10, 0, 5 / 10] 2 =
        .ok [9854 / 100, 53 / 100, 0, 93 / 100] ∧
      ∃ ndigits : List ℚ,
        adjustNDigitPercentagesTo100 [981 / 10, 1 / 10, 0, 5 / 10] 2 = .ok ndigits ∧
          ndigits.length = [(981 / 10 : ℚ), 1 / 10, 0, 5 / 10].length ∧ ndigits.sum = 100 ∧
          (∀ k : ℕ, (rounded [981 / 10, 1 / 10, 0, 5 / 10] 2)[k]? = some 0 →
            ndigits[k]? = some 0) ∧
          ∀ x ∈ ndigits, 0 ≤ x := by
  refine ⟨by decide +kernel, (adjust_laws_iff ?_ ?_).2 ?_⟩
  · norm_num
  · decide +kernel
  · decide +kernel

/-- One large entry and two small ones: the small ones end below zero. -/
theorem smallEntries_negative :
    adjustNDigitPercentagesTo100 [150, 1, 1] 0 = .ok [132, -16, -16] ∧
      ¬ ∃ ndigits : List ℚ, adjustNDigitPercentagesTo100 [150, 1, 1] 0 = .ok ndigits ∧
        ∀ x ∈ ndigits, 0 ≤ x := by
  have hcode : adjustNDigitPercentagesTo100 [150, 1, 1] 0 = .ok [132, -16, -16] := by
    decide +kernel
  refine ⟨hcode, ?_⟩
  rintro ⟨ndigits, hok, hpos⟩
  rw [hcode] at hok
  obtain rfl := Except.ok.inj hok
  exact absurd (hpos (-16) (by decide)) (by norm_num)

end

end TraderBackend.Utils
