import Mathlib

/-!
# Bisection over the integers

Between two ends the search asks at the middle on which side of a boundary it lies,
and keeps the half with the boundary in it until the ends are neighbours.  Asking may
fail, and what was asked is part of the result.

* `bisect` — the search; it ends, since the interval shrinks.
* `asked_between` — it asks strictly between its ends, whatever the answers are.
* `bisect_congr` — only the answers it gets matter.
* `bisect_of_boundary` — where the answers have a boundary, the result is the number
  before it, or the end that is nearest to that.
* `staysAbove_iff` — when a search that begins below a bound stays above it.
-/

variable {ε : Type*}

/-- The search for the last number that is below a boundary: `ask` tells whether one is.  The
result comes with the numbers asked for. -/
def bisect (ask : ℤ → Except ε Bool) (lower upper : ℤ) : List ℤ × Except ε ℤ :=
  if 1 < upper - lower then
    let mid := lower + (upper - lower) / 2
    match ask mid with
    | .error e => ([mid], .error e)
    | .ok true =>
        let rest := bisect ask mid upper
        (mid :: rest.1, rest.2)
    | .ok false =>
        let rest := bisect ask lower mid
        (mid :: rest.1, rest.2)
  else ([], .ok lower)
termination_by (upper - lower).toNat
decreasing_by all_goals omega

section

variable {ask : ℤ → Except ε Bool} {lower upper : ℤ}

theorem bisect_of_le (h : upper - lower ≤ 1) : bisect ask lower upper = ([], .ok lower) := by
  rw [bisect, if_neg (by omega)]

theorem bisect_of_below (h : 1 < upper - lower)
    (hmid : ask (lower + (upper - lower) / 2) = .ok true) :
    bisect ask lower upper =
      ((lower + (upper - lower) / 2) :: (bisect ask (lower + (upper - lower) / 2) upper).1,
        (bisect ask (lower + (upper - lower) / 2) upper).2) := by
  rw [bisect, if_pos h]
  simp only [hmid]

theorem bisect_of_above (h : 1 < upper - lower)
    (hmid : ask (lower + (upper - lower) / 2) = .ok false) :
    bisect ask lower upper =
      ((lower + (upper - lower) / 2) :: (bisect ask lower (lower + (upper - lower) / 2)).1,
        (bisect ask lower (lower + (upper - lower) / 2)).2) := by
  rw [bisect, if_pos h]
  simp only [hmid]

/-- The first number asked for is the middle. -/
theorem mid_mem_asked (h : 1 < upper - lower) :
    lower + (upper - lower) / 2 ∈ (bisect ask lower upper).1 := by
  rw [bisect, if_pos h]
  simp only
  split <;> exact List.mem_cons_self

/-- Whatever the answers are, the search stays between its ends. -/
theorem asked_between {q : ℤ} (hq : q ∈ (bisect ask lower upper).1) : lower < q ∧ q < upper := by
  fun_induction bisect ask lower upper with
  | case1 lower upper h mid e hmid =>
    obtain rfl := List.mem_singleton.1 hq
    omega
  | case2 lower upper h mid hmid rest ih =>
    rcases List.mem_cons.1 hq with rfl | hrest
    · omega
    · have hbetween := ih hrest
      omega
  | case3 lower upper h mid hmid rest ih =>
    rcases List.mem_cons.1 hq with rfl | hrest
    · omega
    · have hbetween := ih hrest
      omega
  | case4 lower upper h => simp at hq

/-- Only the answers to what was asked matter. -/
theorem bisect_congr {ask' : ℤ → Except ε Bool}
    (h : ∀ q ∈ (bisect ask lower upper).1, ask q = ask' q) :
    bisect ask' lower upper = bisect ask lower upper := by
  fun_induction bisect ask lower upper with
  | case1 lower upper hw mid e hmid =>
    have hsame := h mid (List.mem_singleton_self _)
    rw [hmid] at hsame
    rw [bisect, if_pos hw]
    simp only [← hsame, mid]
  | case2 lower upper hw mid hmid rest ih =>
    obtain ⟨hsame, hrest⟩ := List.forall_mem_cons.1 h
    rw [hmid] at hsame
    rw [bisect_of_below hw hsame.symm, ih hrest]
  | case3 lower upper hw mid hmid rest ih =>
    obtain ⟨hsame, hrest⟩ := List.forall_mem_cons.1 h
    rw [hmid] at hsame
    rw [bisect_of_above hw hsame.symm, ih hrest]
  | case4 lower upper hw => exact bisect_of_le (not_lt.1 hw)

variable {boundary : ℤ}

/-- **The result.**  It is the number before the boundary, or the end nearest to that. -/
theorem bisect_of_boundary (hlt : lower < upper)
    (hask : ∀ b, lower < b → b < upper → ask b = .ok (decide (b < boundary))) :
    (bisect ask lower upper).2 = .ok (max lower (min (upper - 1) (boundary - 1))) := by
  fun_induction bisect ask lower upper with
  | case1 lower upper h mid e hmid =>
    have hanswer := hask mid (by omega) (by omega)
    rw [hmid] at hanswer
    cases hanswer
  | case2 lower upper h mid hmid rest ih =>
    have hanswer := hask mid (by omega) (by omega)
    rw [hmid] at hanswer
    have hbelow : mid < boundary := of_decide_eq_true (Except.ok.inj hanswer).symm
    rw [ih (by omega) fun b hb hb' => hask b (by omega) hb']
    congr 1
    omega
  | case3 lower upper h mid hmid rest ih =>
    have hanswer := hask mid (by omega) (by omega)
    rw [hmid] at hanswer
    have habove : ¬ mid < boundary := of_decide_eq_false (Except.ok.inj hanswer).symm
    rw [ih (by omega) fun b hb hb' => hask b hb (by omega)]
    congr 1
    omega
  | case4 lower upper h =>
    have hend : max lower (min (upper - 1) (boundary - 1)) = lower := by omega
    rw [hend]

end

/-! ## Above a bound -/

/-- The search stays at or above the bound, and so does its result. -/
def StaysAbove (bound : ℤ) (search : List ℤ × Except ε ℤ) : Prop :=
  (∀ q ∈ search.1, bound ≤ q) ∧ ∃ r, search.2 = .ok r ∧ bound ≤ r

section

variable {ask : ℤ → Except ε Bool} {lower upper bound boundary : ℤ}

/-- A search between ends at or above the bound stays there. -/
theorem staysAbove_of_le (hbound : bound ≤ lower) (hlt : lower < upper)
    (hask : ∀ b, lower < b → b < upper → ask b = .ok (decide (b < boundary))) :
    StaysAbove bound (bisect ask lower upper) :=
  ⟨fun _ hq => hbound.trans (asked_between hq).1.le, _, bisect_of_boundary hlt hask,
    hbound.trans (le_max_left _ _)⟩

theorem half_ediv_pow (w : ℤ) (k : ℕ) : w / 2 / 2 ^ k = w / 2 ^ (k + 1) := by
  rw [Int.ediv_ediv_of_nonneg (by norm_num), pow_succ']

/-- Halving an interval brings its middle down to its lower end. -/
theorem ediv_pow_le_half {w : ℤ} (hw : 0 ≤ w) {k : ℕ} (hk : 1 ≤ k) : w / 2 ^ k ≤ w / 2 := by
  obtain ⟨k, rfl⟩ := Nat.exists_eq_add_of_le' hk
  rw [← half_ediv_pow]
  exact Int.ediv_le_self _ (by omega)

/-- An interval without a middle has no halvings above its lower end. -/
theorem ediv_pow_nonpos {w : ℤ} (hw : w ≤ 1) {k : ℕ} (hk : 1 ≤ k) : w / 2 ^ k ≤ 0 := by
  rcases le_or_gt w 0 with hneg | hpos
  · exact Int.ediv_nonpos_of_nonpos_of_neg hneg (by positivity)
  · have hhalf := ediv_pow_le_half hpos.le hk
    omega

/-- If the first halving is not between the bound and the boundary, the others are those of the
lower half. -/
theorem exists_halving_iff {w : ℤ} (h : ¬ lower + w / 2 < boundary) :
    (∃ k : ℕ, 1 ≤ k ∧ bound ≤ lower + w / 2 / 2 ^ k ∧ lower + w / 2 / 2 ^ k < boundary) ↔
      ∃ k : ℕ, 1 ≤ k ∧ bound ≤ lower + w / 2 ^ k ∧ lower + w / 2 ^ k < boundary := by
  constructor
  · rintro ⟨k, hk, hge, hlt⟩
    rw [half_ediv_pow] at hge hlt
    exact ⟨k + 1, by omega, hge, hlt⟩
  · rintro ⟨k, hk, hge, hlt⟩
    obtain ⟨k, rfl⟩ := Nat.exists_eq_add_of_le' hk
    rw [← half_ediv_pow] at hge hlt
    have hpos : 1 ≤ k := by
      by_contra hzero
      obtain rfl : k = 0 := by omega
      rw [pow_zero, Int.ediv_one] at hlt
      exact h hlt
    exact ⟨k, hpos, hge, hlt⟩

/-- **A search that begins below the bound.**  It stays at or above the bound exactly if one of
the middles it comes to while it goes down, the halvings of its interval, lies between the bound
and the boundary: there the lower end moves up. -/
theorem staysAbove_iff (hlower : lower < bound)
    (hask : ∀ b, bound ≤ b → b < upper → ask b = .ok (decide (b < boundary))) :
    StaysAbove bound (bisect ask lower upper) ↔
      ∃ k : ℕ, 1 ≤ k ∧ bound ≤ lower + (upper - lower) / 2 ^ k ∧
        lower + (upper - lower) / 2 ^ k < boundary := by
  induction hn : (upper - lower).toNat using Nat.strong_induction_on generalizing upper with
  | _ n ih =>
    by_cases hw : 1 < upper - lower
    · by_cases hmid : bound ≤ lower + (upper - lower) / 2
      · have hanswer := hask _ hmid (by omega)
        by_cases hbelow : lower + (upper - lower) / 2 < boundary
        · -- the lower end moves above the bound
          rw [decide_eq_true hbelow] at hanswer
          rw [bisect_of_below hw hanswer]
          refine iff_of_true ?_ ⟨1, le_refl _, by simpa using hmid, by simpa using hbelow⟩
          obtain ⟨hasked, r, hr, hge⟩ := staysAbove_of_le hmid (by omega)
            fun b hb hb' => hask b (hmid.trans hb.le) hb'
          exact ⟨List.forall_mem_cons.2 ⟨hmid, hasked⟩, r, hr, hge⟩
        · -- the upper end comes down, the lower one stays
          rw [decide_eq_false hbelow] at hanswer
          rw [bisect_of_above hw hanswer]
          have hrest := ih (lower + (upper - lower) / 2 - lower).toNat (by omega)
            (fun b hb hb' => hask b hb (by omega)) rfl
          rw [add_sub_cancel_left, exists_halving_iff hbelow] at hrest
          rw [← hrest]
          refine and_congr_left fun _ => ⟨fun hasked => ?_, fun hasked => ?_⟩
          · exact (List.forall_mem_cons.1 hasked).2
          · exact List.forall_mem_cons.2 ⟨hmid, hasked⟩
      · -- the middle is asked for and lies below the bound
        refine iff_of_false (fun h => hmid (h.1 _ (mid_mem_asked hw))) ?_
        rintro ⟨k, hk, hge, -⟩
        have hwide : 0 ≤ upper - lower := by omega
        have hhalf := ediv_pow_le_half hwide hk
        omega
    · rw [bisect_of_le (by omega)]
      refine iff_of_false ?_ ?_
      · rintro ⟨-, r, hr, hge⟩
        cases hr
        omega
      · rintro ⟨k, hk, hge, -⟩
        have hzero := ediv_pow_nonpos (not_lt.1 hw) hk
        omega

end
