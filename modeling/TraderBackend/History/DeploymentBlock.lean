import TraderBackend.Lib.Bisection
import TraderBackend.History.Errors

/-!
# The block before a deployment

`getCloseDeploymentBlock` walks back from the head of the chain in growing steps until
the contract has no code, then bisects.

* **The search.**  `getCodeAt` with its retries, `walkBack`,
  `getCloseDeploymentBlock`.  Every result comes with the block numbers asked for.
* **What it finds.**  `walkBack_spec`: the walk ends with the boundary between its two
  numbers.
* **Short chains.**  `deploymentBlock_iff`: the search is right **if and only if** the
  first lower end is not negative or a halving of the first interval lands between
  block zero and the deployment.  The later lower ends are clamped at zero, the first
  one is not.
-/

namespace TraderBackend

/-! ## The search -/

/-- The provider, as one search meets it. -/
structure CodeProvider where
  /-- `getBlockNumber`. -/
  currentBlock : ℕ
  /-- `getCode` for a block number, and the error of an attempt. -/
  getCode : ℤ → ℕ → Except RpcError String
  /-- `getBlock`: the timestamp, if there is such a block. -/
  getBlock : ℤ → Option ℕ

variable (provider : CodeProvider)

/-- `getCodeAt`: `left` is the number of errors that are still forgiven. -/
def getCodeAt (blockNumber : ℤ) : (left consecutiveErrors : ℕ) → Except String String
  | 0, consecutiveErrors =>
      match provider.getCode blockNumber consecutiveErrors with
      | .ok code => .ok code
      | .error e =>
          if isNoHistoricalStateError e then
            .error ("RPC node is not an archive node (no historical state at block " ++
              toString blockNumber ++ "). Use an archive-capable RPC endpoint.")
          else
            .error ("getCodeAt: giving up after " ++ toString (consecutiveErrors + 1) ++
              " errors at block " ++ toString blockNumber ++ ": " ++ formatErrorMessage e)
  | left + 1, consecutiveErrors =>
      match provider.getCode blockNumber consecutiveErrors with
      | .ok code => .ok code
      | .error e =>
          if isNoHistoricalStateError e then
            .error ("RPC node is not an archive node (no historical state at block " ++
              toString blockNumber ++ "). Use an archive-capable RPC endpoint.")
          else getCodeAt blockNumber left (consecutiveErrors + 1)

/-- Whether the contract has no code yet; ten errors in a row are forgiven. -/
def notDeployedAt (blockNumber : ℤ) : Except String Bool :=
  (getCodeAt provider blockNumber 10 0).map fun code => decide (code = "0x")

theorem nextStep_pos {step : ℤ} (hstep : 0 < step) : 0 < min (step * 2) 2000000 := by
  omega

/-- The walk back from `upper` with its first target `lower`: the blocks asked for, and the two
ends it leaves. -/
def walkBack {ε : Type*} (ask : ℤ → Except ε Bool) (lower upper step : ℤ) (hstep : 0 < step) :
    List ℤ × Except ε (ℤ × ℤ) :=
  if 0 < lower then
    match ask lower with
    | .error e => ([lower], .error e)
    | .ok true => ([lower], .ok (lower, upper))
    | .ok false =>
        let step := min (step * 2) 2000000
        let rest := walkBack ask (max 0 (lower - step)) lower step (nextStep_pos hstep)
        (lower :: rest.1, rest.2)
  else ([], .ok (lower, upper))
termination_by lower.toNat
decreasing_by omega

/-- `getCloseDeploymentBlock`: the blocks asked for, and the block found with its timestamp. -/
def getCloseDeploymentBlock : List ℤ × Except String (ℤ × ℕ) :=
  let upper : ℤ := provider.currentBlock - 1000
  let step : ℤ := 10000
  let lower := upper - step
  let walk := walkBack (notDeployedAt provider) lower upper step (by decide)
  match walk.2 with
  | .error e => (walk.1, .error e)
  | .ok (lower, upper) =>
      let search := bisect (notDeployedAt provider) lower upper
      match search.2 with
      | .error e => (walk.1 ++ search.1, .error e)
      | .ok lower =>
          (walk.1 ++ search.1 ++ [lower],
            match provider.getBlock lower with
            | none => .error "Cannot read properties of null (reading 'timestamp')"
            | some timestamp => .ok (lower, timestamp))

/-! ## What it finds -/

/-- Up to its head the node answers, and the contract has code from block `deployment` on. -/
structure CodeProvider.Deployed (deployment : ℕ) : Prop where
  code : ∀ b : ℤ, 0 ≤ b → b ≤ provider.currentBlock → ∃ code, provider.getCode b 0 = .ok code ∧
    (code = "0x" ↔ b < deployment)
  block : ∀ b : ℤ, 0 ≤ b → b ≤ provider.currentBlock → ∃ timestamp,
    provider.getBlock b = some timestamp

variable {provider}

theorem CodeProvider.Deployed.ask {deployment : ℕ} (h : provider.Deployed deployment) {b : ℤ}
    (hb : 0 ≤ b) (hb' : b ≤ provider.currentBlock) :
    notDeployedAt provider b = .ok (decide (b < deployment)) := by
  obtain ⟨code, hcode, hiff⟩ := h.code b hb hb'
  rw [notDeployedAt, getCodeAt, hcode]
  show Except.ok (decide (code = "0x")) = _
  rw [decide_eq_decide.2 hiff]

/-- **The walk.**  It asks for blocks down from its first target, and ends with a lower end that
is zero or before the deployment, and an upper end that has moved only to deployed blocks. -/
theorem walkBack_spec {ε : Type*} {ask : ℤ → Except ε Bool} {deployment : ℤ}
    {lower upper step : ℤ} {hstep : 0 < step} (hlower : 0 ≤ lower) (hlt : lower < upper)
    (hask : ∀ b, 0 ≤ b → b ≤ lower → ask b = .ok (decide (b < deployment))) :
    (∀ q ∈ (walkBack ask lower upper step hstep).1, 0 ≤ q ∧ q ≤ lower) ∧
      ∃ l u, (walkBack ask lower upper step hstep).2 = .ok (l, u) ∧ 0 ≤ l ∧ l < u ∧ u ≤ upper ∧
        (l = 0 ∨ l < deployment) ∧ (u = upper ∨ deployment ≤ u) := by
  fun_induction walkBack ask lower upper step hstep with
  | case1 lower upper step hstep hpos e he =>
    have hanswer := hask lower hlower (le_refl _)
    rw [he] at hanswer
    cases hanswer
  | case2 lower upper step hstep hpos htrue =>
    have hanswer := hask lower hlower (le_refl _)
    rw [htrue] at hanswer
    have hbelow : lower < deployment := of_decide_eq_true (Except.ok.inj hanswer).symm
    refine ⟨fun q hq => ?_, lower, upper, rfl, hlower, hlt, le_refl _, Or.inr hbelow, Or.inl rfl⟩
    obtain rfl := List.mem_singleton.1 hq
    exact ⟨hlower, le_refl _⟩
  | case3 lower upper step hstep hpos hfalse step' rest ih =>
    have hanswer := hask lower hlower (le_refl _)
    rw [hfalse] at hanswer
    have habove : ¬ lower < deployment := of_decide_eq_false (Except.ok.inj hanswer).symm
    obtain ⟨hasked, l, u, hresult, hl, hlu, hu, hbefore, hafter⟩ :=
      ih (by omega) (by omega) fun b hb hb' => hask b hb (by omega)
    refine ⟨fun q hq => ?_, l, u, hresult, hl, hlu, by omega, hbefore, ?_⟩
    · rcases List.mem_cons.1 hq with rfl | hrest
      · exact ⟨hlower, le_refl _⟩
      · have hbetween := hasked q hrest
        omega
    · rcases hafter with rfl | hdeployed
      · exact Or.inr (not_lt.1 habove)
      · exact Or.inr hdeployed
  | case4 lower upper step hstep hzero =>
    exact ⟨by simp, lower, upper, rfl, hlower, hlt, le_refl _, Or.inl (by omega), Or.inl rfl⟩

/-! ## Short chains -/

/-- The search asks for blocks of the chain only, and finds a block before the deployment or block
zero; a deployment that is at least 1000 blocks old is met exactly. -/
def FindsDeployment (provider : CodeProvider) (deployment : ℕ) : Prop :=
  (∀ q ∈ (getCloseDeploymentBlock provider).1, 0 ≤ q ∧ q ≤ provider.currentBlock) ∧
    ∃ b timestamp, (getCloseDeploymentBlock provider).2 = .ok (b, timestamp) ∧
      (b < deployment ∨ b = 0) ∧
      (1 ≤ deployment → deployment + 1000 ≤ provider.currentBlock → b = (deployment : ℤ) - 1)

/-- Behind the walk the bisection runs, whatever its answers are. -/
theorem bisect_subset_asked {walked : List ℤ} {l u q : ℤ}
    (hwalk : walkBack (notDeployedAt provider) ((provider.currentBlock : ℤ) - 1000 - 10000)
      (provider.currentBlock - 1000) 10000 (by decide) = (walked, .ok (l, u)))
    (hq : q ∈ (bisect (notDeployedAt provider) l u).1) :
    q ∈ (getCloseDeploymentBlock provider).1 := by
  simp only [getCloseDeploymentBlock, hwalk]
  cases (bisect (notDeployedAt provider) l u).2 with
  | error e => exact List.mem_append_right _ hq
  | ok r => exact List.mem_append_left _ (List.mem_append_right _ hq)

/-- A search that has found a block without leaving the chain. -/
theorem stays_of_found {walked : List ℤ} {l u b : ℤ} {timestamp : ℕ}
    (hwalk : walkBack (notDeployedAt provider) ((provider.currentBlock : ℤ) - 1000 - 10000)
      (provider.currentBlock - 1000) 10000 (by decide) = (walked, .ok (l, u)))
    (hasked : ∀ q ∈ (getCloseDeploymentBlock provider).1, 0 ≤ q ∧ q ≤ provider.currentBlock)
    (hfound : (getCloseDeploymentBlock provider).2 = .ok (b, timestamp)) :
    StaysAbove 0 (bisect (notDeployedAt provider) l u) := by
  refine ⟨fun q hq => (hasked q (bisect_subset_asked hwalk hq)).1, ?_⟩
  simp only [getCloseDeploymentBlock, hwalk] at hasked hfound
  cases hresult : (bisect (notDeployedAt provider) l u).2 with
  | error e =>
    rw [hresult] at hfound
    cases hfound
  | ok r =>
    rw [hresult] at hasked
    exact ⟨r, rfl, (hasked r (List.mem_append_right _ (List.mem_singleton_self r))).1⟩

section

variable {deployment : ℕ}

/-- A search that stays on the chain finds the number before the deployment, or its end that is
nearest to that. -/
theorem searchResult (h : provider.Deployed deployment) {l u : ℤ} (hlu : l < u)
    (hu : u ≤ provider.currentBlock)
    (hstays : StaysAbove 0 (bisect (notDeployedAt provider) l u)) :
    (bisect (notDeployedAt provider) l u).2 =
      .ok (max l (min (u - 1) ((deployment : ℤ) - 1))) := by
  have hanswers : ∀ q ∈ (bisect (notDeployedAt provider) l u).1,
      notDeployedAt provider q = .ok (decide (q < (deployment : ℤ))) := by
    intro q hq
    have hbelow := (asked_between hq).2
    exact h.ask (hstays.1 q hq) (by omega)
  rw [← bisect_congr hanswers]
  exact bisect_of_boundary hlu fun _ _ _ => rfl

/-- What the search finds, if it stays on the chain behind the walk. -/
theorem findsDeployment_of_walk (h : provider.Deployed deployment) {asked : List ℤ} {l u : ℤ}
    (hwalk : walkBack (notDeployedAt provider) ((provider.currentBlock : ℤ) - 1000 - 10000)
      (provider.currentBlock - 1000) 10000 (by decide) = (asked, .ok (l, u)))
    (hasked : ∀ q ∈ asked, 0 ≤ q ∧ q ≤ provider.currentBlock)
    (hlu : l < u) (hu : u ≤ (provider.currentBlock : ℤ) - 1000)
    (hl : l ≤ 0 ∨ l < deployment)
    (hdeployed : u = (provider.currentBlock : ℤ) - 1000 ∨ (deployment : ℤ) ≤ u)
    (hstays : StaysAbove 0 (bisect (notDeployedAt provider) l u)) :
    FindsDeployment provider deployment := by
  have hresult := searchResult h hlu (by omega) hstays
  obtain ⟨hmids, r, hr, hpos⟩ := hstays
  obtain rfl := Except.ok.inj (hresult.symm.trans hr)
  obtain ⟨timestamp, hblock⟩ := h.block _ hpos (by omega)
  have hfound : getCloseDeploymentBlock provider =
      (asked ++ (bisect (notDeployedAt provider) l u).1 ++
          [max l (min (u - 1) ((deployment : ℤ) - 1))],
        .ok (max l (min (u - 1) ((deployment : ℤ) - 1)), timestamp)) := by
    simp only [getCloseDeploymentBlock, hwalk, hresult, hblock]
  refine ⟨fun q hq => ?_, _, timestamp, by rw [hfound], ?_, ?_⟩
  · rw [hfound] at hq
    simp only [List.mem_append, List.mem_singleton] at hq
    rcases hq with (hq | hq) | rfl
    · exact hasked q hq
    · have hbelow := (asked_between hq).2
      exact ⟨hmids q hq, by omega⟩
    · exact ⟨hpos, by omega⟩
  · omega
  · omega

/-- **The deployment block search.**  It is right exactly on chains of at least 11000 blocks, and
on those where a halving of the first interval comes to a block before the deployment. -/
theorem deploymentBlock_iff (h : provider.Deployed deployment) :
    FindsDeployment provider deployment ↔
      11000 ≤ provider.currentBlock ∨
        ∃ k : ℕ, 1 ≤ k ∧ 11000 ≤ provider.currentBlock + 10000 / 2 ^ k ∧
          provider.currentBlock + 10000 / 2 ^ k < deployment + 11000 := by
  rcases le_or_gt 11000 provider.currentBlock with hlong | hshort
  · refine iff_of_true ?_ (Or.inl hlong)
    have hfirst : (0 : ℤ) ≤ (provider.currentBlock : ℤ) - 1000 - 10000 := by omega
    have hends : (provider.currentBlock : ℤ) - 1000 - 10000 < provider.currentBlock - 1000 := by
      omega
    obtain ⟨hasked, l, u, hwalk, hl, hlu, hu, hbefore, hafter⟩ :=
      walkBack_spec hfirst hends fun b hb hb' => h.ask hb (by omega)
    refine findsDeployment_of_walk h (Prod.ext rfl hwalk) (fun q hq => ?_) hlu hu ?_ hafter ?_
    · have hbetween := hasked q hq
      omega
    · omega
    · exact staysAbove_of_le hl hlu fun b hb hb' => h.ask (by omega) (by omega)
  · -- the walk does not begin, and the lower end is negative
    have hwalk : walkBack (notDeployedAt provider) ((provider.currentBlock : ℤ) - 1000 - 10000)
        (provider.currentBlock - 1000) 10000 (by decide) =
        ([], .ok ((provider.currentBlock : ℤ) - 1000 - 10000, provider.currentBlock - 1000)) := by
      rw [walkBack, if_neg (by omega)]
    have hneg : (provider.currentBlock : ℤ) - 1000 - 10000 < 0 := by omega
    have hstays : StaysAbove 0 (bisect (notDeployedAt provider)
        ((provider.currentBlock : ℤ) - 1000 - 10000) (provider.currentBlock - 1000)) ↔ _ :=
      staysAbove_iff hneg fun b hb hb' => h.ask hb (by omega)
    rw [sub_sub_cancel] at hstays
    have hhalvings : ∀ k : ℕ, ((10000 / 2 ^ k : ℕ) : ℤ) = 10000 / 2 ^ k := by
      intro k
      push_cast
      rfl
    constructor
    · rintro ⟨hasked, b, timestamp, hfound, -, -⟩
      right
      obtain ⟨k, hk, hge, hlt⟩ := hstays.1 (stays_of_found hwalk hasked hfound)
      rw [← hhalvings] at hge hlt
      exact ⟨k, hk, by omega, by omega⟩
    · rintro (hlong | ⟨k, hk, hge, hlt⟩)
      · omega
      · refine findsDeployment_of_walk h hwalk (by simp) (by omega) (le_refl _) (Or.inl hneg.le)
          (Or.inl rfl) (hstays.2 ⟨k, hk, ?_, ?_⟩)
        · rw [← hhalvings]
          omega
        · rw [← hhalvings]
          omega

end

/-- A node for a chain of `head` blocks with a deployment.  It counts a negative block number from
the head. -/
def chainOf (head deployment : ℕ) : CodeProvider where
  currentBlock := head
  getCode := fun b _ =>
    let b := if b < 0 then head + b else b
    if b < 0 ∨ head < b then .error ⟨"invalid block tag", none, none, none⟩
    else .ok (if b < deployment then "0x" else "0x6080")
  getBlock := fun b => if 0 ≤ b ∧ b ≤ head then some (2 * b.toNat) else none

theorem chainOf_deployed (head deployment : ℕ) : (chainOf head deployment).Deployed deployment where
  code := by
    intro b hb hb'
    have hhead : b ≤ head := hb'
    refine ⟨if b < deployment then "0x" else "0x6080", ?_, ?_⟩
    · simp only [chainOf, if_neg (not_lt.2 hb)]
      rw [if_neg (by omega)]
    · split <;> simp_all
  block := by
    intro b hb hb'
    exact ⟨2 * b.toNat, if_pos ⟨hb, hb'⟩⟩

/-- The law on a chain of 20000 blocks. -/
theorem longChain_finds_deployment : FindsDeployment (chainOf 20000 5000) 5000 :=
  (deploymentBlock_iff (chainOf_deployed 20000 5000)).2 (Or.inl (by decide))

/-- On a chain of 5000 blocks the first block asked for is block `-1000`. -/
theorem shortChain_asks_negative :
    (chainOf 5000 100).Deployed 100 ∧ -1000 ∈ (getCloseDeploymentBlock (chainOf 5000 100)).1 ∧
      ¬ FindsDeployment (chainOf 5000 100) 100 := by
  have hwalk : walkBack (notDeployedAt (chainOf 5000 100))
      (((chainOf 5000 100).currentBlock : ℤ) - 1000 - 10000)
      ((chainOf 5000 100).currentBlock - 1000) 10000 (by decide) = ([], .ok (-6000, 4000)) := by
    have hfirst : ¬ 0 < ((chainOf 5000 100).currentBlock : ℤ) - 1000 - 10000 := by decide
    rw [walkBack, if_neg hfirst]
    simp [chainOf]
  have hasked : -1000 ∈ (getCloseDeploymentBlock (chainOf 5000 100)).1 :=
    bisect_subset_asked hwalk (mid_mem_asked (by decide))
  refine ⟨chainOf_deployed 5000 100, hasked, fun hfinds => ?_⟩
  have hpos := (hfinds.1 _ hasked).1
  omega

end TraderBackend
