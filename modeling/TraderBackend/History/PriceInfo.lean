import TraderBackend.Lib.OrdMap
import TraderBackend.Lib.Series

/-!
# Prices of the pool tokens

`db/price_info.ts` of the history service, in exact arithmetic: a price is written only when it
is no outlier against the newest row that is strictly earlier.

* **The code.**  `insert` and `passOutlierCheck`, with the calls of the database that may fail
  and divisions that may be by zero.
* **The series of a pool.**  `prices` is the pool's part of the table.  `insert_cases` says what
  a call can do to it.
* **No jumps.**  `Calm` is kept by every call whose time is no earlier than the rows so far
  (`calm_insert`) and gives that no division is by zero (`passOutlierCheck_isSome`).  Hence
  `prices_never_jump`: after any calls in time order two successive prices differ by less than a
  hundred percent an hour.
-/

namespace TraderBackend

open Series

/-! ## The code -/

/-- `price_info`: pool id and time stamp (in milliseconds) to `pool_token_price`. -/
abbrev PriceTable := OrdMap (ℕ × ℤ) ℚ

/-- A call of `insert`, with what the database will say to it. -/
structure PriceInsert where
  poolTokenPrice : ℚ
  poolId : ℕ
  timestampSec : ℚ
  /-- The query for the newest row fails. -/
  findFails : Bool := false
  /-- The write fails. -/
  upsertFails : Bool := false
  deriving DecidableEq

/-- `new Date(timestampSec * 1000)`, a whole number of milliseconds. -/
def toDate (timestampSec : ℚ) : ℤ :=
  if 0 ≤ timestampSec then ⌊timestampSec * 1000⌋ else ⌈timestampSec * 1000⌉

/-- The newest of some rows. -/
def newest : List ((ℕ × ℤ) × ℚ) → Option ((ℕ × ℤ) × ℚ)
  | [] => none
  | e :: rows =>
    match newest rows with
    | none => some e
    | some e' => if e'.1.2 < e.1.2 then some e else some e'

/-- `findFirst`: the newest row of the pool that is strictly earlier than `dt`. -/
def newestBefore (t : PriceTable) (poolId : ℕ) (dt : ℤ) : Option ((ℕ × ℤ) × ℚ) :=
  newest (t.entries.filter fun e => e.1.1 = poolId ∧ e.1.2 < dt)

/-- `a / b`; `none` is a division by zero. -/
def exactDiv (a b : ℚ) : Option ℚ := if b = 0 then none else some (a / b)

/-- `passOutlierCheck`; `none` is a division by zero on the way. -/
def passOutlierCheck (t : PriceTable) (newPrice : ℚ) (poolId : ℕ) (timestampSec : ℚ) :
    Option Bool :=
  match newestBefore t poolId (toDate timestampSec) with
  | none => some true
  | some priceTs => do
    let dTsec := timestampSec - priceTs.1.2 / 1000
    let dHour := dTsec / 3600
    let ratio ← exactDiv newPrice priceTs.2
    let retRaw := |ratio - 1|
    let retHourly ← exactDiv retRaw dHour
    return decide (retHourly < 1)

/-- `insert`.  What a division by zero gives is not less than one, so the check fails there. -/
def PriceInfo.insert (t : PriceTable) (c : PriceInsert) : PriceTable :=
  if c.findFails then t
  else if passOutlierCheck t c.poolTokenPrice c.poolId c.timestampSec = some true then
    if c.upsertFails then t
    else t.set (c.poolId, toDate c.timestampSec) c.poolTokenPrice
  else t

/-! ## The series of a pool -/

/-- The prices of a pool by time. -/
def prices (t : PriceTable) (poolId : ℕ) (ms : ℤ) : Option ℚ := t.get? (poolId, ms)

/-- Less than a hundred percent an hour between two prices, at times in milliseconds. -/
def NoJump (t₁ : ℤ) (p₁ : ℚ) (t₂ : ℤ) (p₂ : ℚ) : Prop :=
  |p₂ / p₁ - 1| < ((t₂ : ℚ) / 1000 - (t₁ : ℚ) / 1000) / 3600

section

variable {t : PriceTable} {poolId : ℕ} {ms : ℤ} {c : PriceInsert}

theorem newest_eq_none {rows : List ((ℕ × ℤ) × ℚ)} (h : newest rows = none) : rows = [] := by
  cases rows with
  | nil => rfl
  | cons e rows =>
    rw [newest] at h
    split at h
    · cases h
    · split at h <;> cases h

theorem newest_eq_some {rows : List ((ℕ × ℤ) × ℚ)} {e : (ℕ × ℤ) × ℚ} (h : newest rows = some e) :
    e ∈ rows ∧ ∀ e' ∈ rows, e'.1.2 ≤ e.1.2 := by
  induction rows generalizing e with
  | nil => cases h
  | cons e₁ rows ih =>
    rw [newest] at h
    split at h
    · rename_i hnone
      obtain rfl := Option.some.inj h
      rw [newest_eq_none hnone]
      simp
    · rename_i e₂ hsome
      obtain ⟨hmem, hmax⟩ := ih hsome
      split at h
      · rename_i hlt
        obtain rfl := Option.some.inj h
        refine ⟨List.mem_cons_self, ?_⟩
        intro e' he'
        rcases List.mem_cons.1 he' with rfl | htail
        · exact le_refl _
        · exact le_trans (hmax e' htail) hlt.le
      · rename_i hge
        obtain rfl := Option.some.inj h
        refine ⟨List.mem_cons_of_mem e₁ hmem, ?_⟩
        intro e' he'
        rcases List.mem_cons.1 he' with rfl | htail
        · exact not_lt.1 hge
        · exact hmax e' htail

/-- The newest earlier row is the one before. -/
theorem newestBefore_eq_some {e : (ℕ × ℤ) × ℚ} (h : newestBefore t poolId ms = some e) :
    ∃ t₁, e = ((poolId, t₁), e.2) ∧ prices t poolId t₁ = some e.2 ∧
      Before (prices t poolId) t₁ ms := by
  obtain ⟨hmem, hmax⟩ := newest_eq_some h
  obtain ⟨hentry, hcond⟩ := List.mem_filter.1 hmem
  obtain ⟨hpool, hlt⟩ := of_decide_eq_true hcond
  obtain ⟨⟨p, t₁⟩, price⟩ := e
  obtain rfl : p = poolId := hpool
  refine ⟨t₁, rfl, OrdMap.get?_eq_some.2 hentry, hlt, ?_⟩
  intro t' hgt hlt'
  cases hrow : prices t p t' with
  | none => rfl
  | some price' =>
    have hmem' : ((p, t'), price') ∈ t.entries.filter fun e => e.1.1 = p ∧ e.1.2 < ms :=
      List.mem_filter.2 ⟨OrdMap.get?_eq_some.1 hrow, decide_eq_true ⟨rfl, hlt'⟩⟩
    have hle : t' ≤ t₁ := hmax _ hmem'
    exact absurd hle (not_le.2 hgt)

/-- No earlier row. -/
theorem newestBefore_eq_none (h : newestBefore t poolId ms = none) {t₁ : ℤ} (hlt : t₁ < ms) :
    prices t poolId t₁ = none := by
  cases hrow : prices t poolId t₁ with
  | none => rfl
  | some price =>
    have hmem : ((poolId, t₁), price) ∈ t.entries.filter fun e => e.1.1 = poolId ∧ e.1.2 < ms :=
      List.mem_filter.2 ⟨OrdMap.get?_eq_some.1 hrow, decide_eq_true ⟨rfl, hlt⟩⟩
    rw [newest_eq_none h] at hmem
    exact absurd hmem List.not_mem_nil

/-- **What a call can do** to the prices of a pool. -/
theorem insert_cases (t : PriceTable) (c : PriceInsert) (poolId : ℕ) :
    prices (PriceInfo.insert t c) poolId = prices t poolId ∨
      (c.poolId = poolId ∧
        passOutlierCheck t c.poolTokenPrice c.poolId c.timestampSec = some true ∧
        prices (PriceInfo.insert t c) poolId =
          Function.update (prices t poolId) (toDate c.timestampSec) (some c.poolTokenPrice)) := by
  unfold PriceInfo.insert
  split
  · exact Or.inl rfl
  · split
    · rename_i hpass
      split
      · exact Or.inl rfl
      · by_cases hpool : c.poolId = poolId
        · refine Or.inr ⟨hpool, hpass, ?_⟩
          funext ms
          subst hpool
          rw [prices, OrdMap.get?_set, Function.update_apply]
          simp only [Prod.mk.injEq, true_and, eq_comm]
          rfl
        · left
          funext ms
          have hne : (c.poolId, toDate c.timestampSec) ≠ (poolId, ms) := by
            intro heq
            exact hpool (congrArg Prod.fst heq)
          rw [prices, OrdMap.get?_set_ne t _ hne, prices]
    · exact Or.inl rfl

end

/-! ## No jumps -/

/-- The series of a pool is in order: prices are positive, none is later than `now`, and
successive ones do not jump. -/
structure Calm (rows : ℤ → Option ℚ) (now : ℚ) : Prop where
  pos : ∀ ms p, rows ms = some p → 0 < p
  le_now : ∀ ms p, rows ms = some p → (ms : ℚ) / 1000 ≤ now
  linked : Linked NoJump rows

theorem Calm.mono {rows : ℤ → Option ℚ} {now now' : ℚ} (h : Calm rows now) (hle : now ≤ now') :
    Calm rows now' :=
  ⟨h.pos, fun ms p hp => le_trans (h.le_now ms p hp) hle, h.linked⟩

/-- A time stamp in whole milliseconds is stored as it is. -/
theorem toDate_of_ms {timestampSec : ℚ} {ms : ℤ} (h : timestampSec * 1000 = ms) :
    toDate timestampSec = ms ∧ timestampSec = (ms : ℚ) / 1000 := by
  have heq : timestampSec = (ms : ℚ) / 1000 := by
    rw [← h]
    norm_num
  refine ⟨?_, heq⟩
  unfold toDate
  rw [h, Int.floor_intCast, Int.ceil_intCast, ite_self]

section

variable {t : PriceTable} {c : PriceInsert} {now : ℚ}

/-- The check of a call, when there is an earlier row. -/
theorem passOutlierCheck_eq {newPrice timestampSec : ℚ} {poolId : ℕ} {e : (ℕ × ℤ) × ℚ} {t₁ : ℤ}
    (hnewest : newestBefore t poolId (toDate timestampSec) = some e)
    (he : e = ((poolId, t₁), e.2)) (hprice : 0 < e.2)
    (htime : (t₁ : ℚ) / 1000 < timestampSec) :
    passOutlierCheck t newPrice poolId timestampSec =
      some (decide (|newPrice / e.2 - 1| / ((timestampSec - (t₁ : ℚ) / 1000) / 3600) < 1)) := by
  have hhour : (timestampSec - (t₁ : ℚ) / 1000) / 3600 ≠ 0 := by
    have hpos : 0 < timestampSec - (t₁ : ℚ) / 1000 := sub_pos.2 htime
    positivity
  have htime₁ : e.1.2 = t₁ := by rw [he]
  unfold passOutlierCheck
  rw [hnewest]
  simp only [htime₁, exactDiv, if_neg hprice.ne', if_neg hhour, Option.bind_eq_bind,
    Option.bind_some, Option.pure_def]

/-- Whatever row the check looks at, it is strictly earlier. -/
theorem earlier_row (hms : ∃ ms : ℤ, c.timestampSec * 1000 = ms) {e : (ℕ × ℤ) × ℚ}
    (hnewest : newestBefore t c.poolId (toDate c.timestampSec) = some e) :
    ∃ t₁ : ℤ, e = ((c.poolId, t₁), e.2) ∧ prices t c.poolId t₁ = some e.2 ∧
      Before (prices t c.poolId) t₁ (toDate c.timestampSec) ∧
      (t₁ : ℚ) / 1000 < c.timestampSec := by
  obtain ⟨ms, hms⟩ := hms
  obtain ⟨hdate, heq⟩ := toDate_of_ms hms
  obtain ⟨t₁, he, hrow, hbefore⟩ := newestBefore_eq_some hnewest
  refine ⟨t₁, he, hrow, hbefore, ?_⟩
  rw [hdate] at hbefore
  have hlt : (t₁ : ℚ) < ms := Int.cast_lt.2 hbefore.1
  rw [heq]
  linarith

/-- **No division by zero.** -/
theorem passOutlierCheck_isSome (h : Calm (prices t c.poolId) now)
    (hms : ∃ ms : ℤ, c.timestampSec * 1000 = ms) :
    (passOutlierCheck t c.poolTokenPrice c.poolId c.timestampSec).isSome := by
  cases hnewest : newestBefore t c.poolId (toDate c.timestampSec) with
  | none =>
    unfold passOutlierCheck
    rw [hnewest]
    rfl
  | some e =>
    obtain ⟨t₁, he, hrow, -, htime⟩ := earlier_row hms hnewest
    rw [passOutlierCheck_eq hnewest he (h.pos t₁ e.2 hrow) htime]
    rfl

/-- A price that passes does not jump against the row before it. -/
theorem noJump_of_pass (h : Calm (prices t c.poolId) now)
    (hms : ∃ ms : ℤ, c.timestampSec * 1000 = ms)
    (hpass : passOutlierCheck t c.poolTokenPrice c.poolId c.timestampSec = some true)
    {t₁ : ℤ} {p : ℚ} (hrow : prices t c.poolId t₁ = some p)
    (hbefore : Before (prices t c.poolId) t₁ (toDate c.timestampSec)) :
    NoJump t₁ p (toDate c.timestampSec) c.poolTokenPrice := by
  cases hnewest : newestBefore t c.poolId (toDate c.timestampSec) with
  | none =>
    rw [newestBefore_eq_none hnewest hbefore.1] at hrow
    cases hrow
  | some e =>
    obtain ⟨t₂, he, hrow₂, hbefore₂, htime⟩ := earlier_row hms hnewest
    -- both are the last row before the new one
    have heq : t₂ = t₁ := by
      rcases lt_trichotomy t₂ t₁ with hlt | heq | hgt
      · rw [hbefore₂.2 t₁ hlt hbefore.1] at hrow
        cases hrow
      · exact heq
      · rw [hbefore.2 t₂ hgt hbefore₂.1] at hrow₂
        cases hrow₂
    subst heq
    obtain rfl := Option.some.inj (hrow.symm.trans hrow₂)
    obtain ⟨ms, hms⟩ := hms
    obtain ⟨hdate, htimestamp⟩ := toDate_of_ms hms
    have hhour : 0 < (c.timestampSec - (t₂ : ℚ) / 1000) / 3600 := by
      have hpos : 0 < c.timestampSec - (t₂ : ℚ) / 1000 := sub_pos.2 htime
      positivity
    rw [passOutlierCheck_eq hnewest he (h.pos t₂ _ hrow₂) htime, Option.some.injEq,
      decide_eq_true_eq, div_lt_one hhour] at hpass
    rw [NoJump, hdate, ← htimestamp]
    exact hpass

/-- **One call.** -/
theorem calm_insert {poolId : ℕ} (h : Calm (prices t poolId) now)
    (hcall : c.poolId = poolId →
      0 < c.poolTokenPrice ∧ now ≤ c.timestampSec ∧ ∃ ms : ℤ, c.timestampSec * 1000 = ms) :
    Calm (prices (PriceInfo.insert t c) poolId)
      (if c.poolId = poolId then c.timestampSec else now) := by
  rcases insert_cases t c poolId with heq | ⟨rfl, hpass, heq⟩
  · rw [heq]
    split
    · rename_i hpool
      exact h.mono (hcall hpool).2.1
    · exact h
  · obtain ⟨hprice, hnow, hms⟩ := hcall rfl
    obtain ⟨ms, hms'⟩ := hms
    obtain ⟨hdate, htimestamp⟩ := toDate_of_ms hms'
    have hle : ∀ ms' p, prices t c.poolId ms' = some p → ms' ≤ toDate c.timestampSec := by
      intro ms' p hp
      have hlast := le_trans (h.le_now ms' p hp) hnow
      rw [htimestamp] at hlast
      have hcast : (ms' : ℚ) ≤ ms := by linarith
      rw [hdate]
      exact Int.cast_le.1 hcast
    rw [heq, if_pos rfl]
    refine ⟨?_, ?_, ?_⟩
    · intro ms' p hp
      rw [Function.update_apply] at hp
      split at hp
      · obtain rfl := Option.some.inj hp
        exact hprice
      · exact h.pos ms' p hp
    · intro ms' p hp
      rw [Function.update_apply] at hp
      split at hp
      · rename_i heqms
        rw [heqms, hdate, htimestamp]
      · exact le_trans (h.le_now ms' p hp) hnow
    · exact linked_update h.linked hle fun t₁ p hrow hbefore =>
        noJump_of_pass h ⟨ms, hms'⟩ hpass hrow hbefore

end

/-! ## Runs -/

/-- The calls for a pool bring positive prices in time order, at whole milliseconds. -/
structure InOrder (poolId : ℕ) (calls : List PriceInsert) : Prop where
  pos : ∀ c ∈ calls, c.poolId = poolId → 0 < c.poolTokenPrice
  ms : ∀ c ∈ calls, c.poolId = poolId → ∃ ms : ℤ, c.timestampSec * 1000 = ms
  sorted : (calls.filter (·.poolId = poolId)).Pairwise (·.timestampSec ≤ ·.timestampSec)

section

variable {poolId : ℕ} {calls : List PriceInsert} {t : PriceTable} {now : ℚ}

theorem InOrder.tail {c : PriceInsert} (h : InOrder poolId (c :: calls)) :
    InOrder poolId calls := by
  refine ⟨fun d hd => h.pos d (List.mem_cons_of_mem c hd),
    fun d hd => h.ms d (List.mem_cons_of_mem c hd), ?_⟩
  have hsub : (calls.filter (·.poolId = poolId)).Sublist
      ((c :: calls).filter (·.poolId = poolId)) := (List.sublist_cons_self c calls).filter _
  exact h.sorted.sublist hsub

theorem InOrder.left {before after : List PriceInsert} (h : InOrder poolId (before ++ after)) :
    InOrder poolId before := by
  refine ⟨fun d hd => h.pos d (List.mem_append_left after hd),
    fun d hd => h.ms d (List.mem_append_left after hd), ?_⟩
  have hsub : (before.filter (·.poolId = poolId)).Sublist
      ((before ++ after).filter (·.poolId = poolId)) := (List.sublist_append_left _ _).filter _
  exact h.sorted.sublist hsub

/-- The first call for the pool is no later than the others. -/
theorem InOrder.head_le {c d : PriceInsert} (h : InOrder poolId (c :: calls))
    (hc : c.poolId = poolId) (hd : d ∈ calls) (hpool : d.poolId = poolId) :
    c.timestampSec ≤ d.timestampSec := by
  have hsorted := h.sorted
  rw [List.filter_cons_of_pos (by simpa using hc)] at hsorted
  exact List.rel_of_pairwise_cons hsorted (List.mem_filter.2 ⟨hd, by simpa using hpool⟩)

/-- **Every call keeps the series in order.** -/
theorem calm_run (h : Calm (prices t poolId) now) (hcalls : InOrder poolId calls)
    (hnow : ∀ c ∈ calls, c.poolId = poolId → now ≤ c.timestampSec) :
    ∃ now', Calm (prices (calls.foldl PriceInfo.insert t) poolId) now' := by
  induction calls generalizing t now with
  | nil => exact ⟨now, h⟩
  | cons c calls ih =>
    have hstep := calm_insert (c := c) h fun hpool =>
      ⟨hcalls.pos c List.mem_cons_self hpool, hnow c List.mem_cons_self hpool,
        hcalls.ms c List.mem_cons_self hpool⟩
    rw [List.foldl_cons]
    apply ih hstep hcalls.tail
    intro d hd hpool
    split
    · rename_i hc
      exact hcalls.head_le hc hd hpool
    · exact hnow d (List.mem_cons_of_mem c hd) hpool

/-- A pool without prices. -/
theorem calm_of_empty (hempty : ∀ ms, prices t poolId ms = none) (now : ℚ) :
    Calm (prices t poolId) now := by
  refine ⟨?_, ?_, linked_of_none hempty⟩
  · intro ms p hp
    rw [hempty ms] at hp
    cases hp
  · intro ms p hp
    rw [hempty ms] at hp
    cases hp

/-- **The series never jumps.**  Whatever calls there are for other pools and whichever calls of
the database fail: two successive prices differ by less than a hundred percent an hour, and no
call divides by zero. -/
theorem prices_never_jump (hempty : ∀ ms, prices t poolId ms = none)
    (hcalls : InOrder poolId calls) :
    (∀ (t₁ t₂ : ℤ) (p₁ p₂ : ℚ),
        prices (calls.foldl PriceInfo.insert t) poolId t₁ = some p₁ →
        prices (calls.foldl PriceInfo.insert t) poolId t₂ = some p₂ → t₁ < t₂ →
        (∀ t' : ℤ, t₁ < t' → t' < t₂ →
          prices (calls.foldl PriceInfo.insert t) poolId t' = none) →
        |p₂ / p₁ - 1| < ((t₂ : ℚ) / 1000 - (t₁ : ℚ) / 1000) / 3600) ∧
      ∀ (before : List PriceInsert) (c : PriceInsert) (after : List PriceInsert),
        calls = before ++ c :: after → c.poolId = poolId →
        (passOutlierCheck (before.foldl PriceInfo.insert t) c.poolTokenPrice c.poolId
          c.timestampSec).isSome := by
  obtain ⟨first, hfirst⟩ := (calls.map PriceInsert.timestampSec).finite_toSet.bddBelow
  have hnow : ∀ c ∈ calls, first ≤ c.timestampSec := fun c hc =>
    hfirst (List.mem_map_of_mem hc)
  constructor
  · obtain ⟨now, hcalm⟩ := calm_run (calm_of_empty hempty first) hcalls fun c hc _ => hnow c hc
    intro t₁ t₂ p₁ p₂ h₁ h₂ hlt hnone
    exact hcalm.linked t₁ t₂ p₁ p₂ h₁ h₂ ⟨hlt, hnone⟩
  · rintro before c after rfl hpool
    have hbefore : ∀ d ∈ before, d.poolId = poolId → first ≤ d.timestampSec := fun d hd _ =>
      hnow d (List.mem_append_left _ hd)
    obtain ⟨now, hcalm⟩ := calm_run (calm_of_empty hempty first) hcalls.left hbefore
    subst hpool
    exact passOutlierCheck_isSome hcalm
      (hcalls.ms c (List.mem_append_right before List.mem_cons_self) rfl)

/-- A price, an overwrite, an outlier that is refused and a price an hour later. -/
def fourCalls : List PriceInsert :=
  [⟨1, 1, 3600, false, false⟩, ⟨11 / 10, 1, 3600, false, false⟩, ⟨3, 1, 7200, false, false⟩,
    ⟨12 / 10, 1, 7200, false, false⟩]

theorem fourCalls_never_jump :
    prices (fourCalls.foldl PriceInfo.insert OrdMap.empty) 1 7200000 = some (12 / 10) ∧
      (∀ (t₁ t₂ : ℤ) (p₁ p₂ : ℚ),
        prices (fourCalls.foldl PriceInfo.insert OrdMap.empty) 1 t₁ = some p₁ →
        prices (fourCalls.foldl PriceInfo.insert OrdMap.empty) 1 t₂ = some p₂ → t₁ < t₂ →
        (∀ t' : ℤ, t₁ < t' → t' < t₂ →
          prices (fourCalls.foldl PriceInfo.insert OrdMap.empty) 1 t' = none) →
        |p₂ / p₁ - 1| < ((t₂ : ℚ) / 1000 - (t₁ : ℚ) / 1000) / 3600) ∧
      ∀ (before : List PriceInsert) (c : PriceInsert) (after : List PriceInsert),
        fourCalls = before ++ c :: after → c.poolId = 1 →
        (passOutlierCheck (before.foldl PriceInfo.insert OrdMap.empty) c.poolTokenPrice c.poolId
          c.timestampSec).isSome := by
  refine ⟨by decide +kernel, prices_never_jump (fun _ => rfl) ⟨?_, ?_, ?_⟩⟩
  · decide +kernel
  · have hms : ∀ c ∈ fourCalls, c.timestampSec * 1000 = (⌊c.timestampSec * 1000⌋ : ℤ) := by
      decide +kernel
    exact fun c hc _ => ⟨_, hms c hc⟩
  · decide +kernel

end

end TraderBackend
