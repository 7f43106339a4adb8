import TraderBackend.History.PriceInfo
import TraderBackend.Utils.Validation

/-!
# The annual yield of a pool

`apyCalculation` of the history server (`api/server.ts`): a request names a period, the rows
nearest to its two ends are looked up, and the yield is computed from their prices.

* **The code.**  `extractSecondTimestamps` and `apyCalculation`, with the answers of the three
  queries as inputs.  `ApyAnswers.Valid` says what the queries may answer on a table: nearest
  rows, ties in any way, and the first row.
* **The period.**  `apyPeriod_eq_ok`: which requests pass the checks, and the two dates they
  look up.  The check comes before the start is moved.
* **The answer.**  `apyAnswer_eq_ok`: the two rows are different.
* **Running forward.**  `apy_forward_iff`: an answer runs over a period that starts before it
  ends, except for requests that end at or before the oldest admitted time while the prices
  reach back there.
-/

namespace TraderBackend

open Series

/-! ## The code -/

/-- The query parameters: `none` is a parameter that is missing (or no text, for the symbol). -/
structure ApyRequest where
  poolSymbol : Option String
  fromTimestamp : Option ℤ
  toTimestamp : Option ℤ
  deriving DecidableEq

/-- The clock as the handler reads it: for the default, for the check, and for the year. -/
structure ApyClock where
  nowMs : ℤ
  checkMs : ℤ
  year : ℕ
  deriving DecidableEq

/-- An answer that is no yield: its status, which is 200 where nothing has set one, and its
message; or an error of the database. -/
inductive ApyError where
  | rejected (status : ℕ) (msg : String)
  | queryFailed
  deriving DecidableEq

/-- The `catch` of `apyCalculation`: a status that was set is sent as 400. -/
def ApyError.apySends : ApyError → ApyError
  | .rejected status msg => .rejected (if status ≠ 200 then 400 else status) msg
  | .queryFailed => .queryFailed

/-- The answers of the three queries: time and price of the row nearest to the start, the same
for the end, and the time of the first row. -/
structure ApyAnswers where
  fromPriceInfo : Option (ℤ × ℚ)
  toPriceInfo : Option (ℤ × ℚ)
  firstTimestamp : Option ℤ
  deriving DecidableEq

/-- The response. -/
structure ApyResponse where
  startTimestamp : ℚ
  endTimestamp : ℚ
  startPrice : ℚ
  endPrice : ℚ
  apy : ℚ
  rawReturn : ℚ
  allTimeAPY : ℚ
  deriving DecidableEq

/-- The oldest time a period may start at. -/
def oldestTimestamp : ℤ := 1681402080

/-- `extractSecondTimestamps`.  It throws without setting a status. -/
def extractSecondTimestamps (checkMs tFrom tTo : ℤ) : Except ApyError (ℤ × ℤ) :=
  if tFrom ≥ tTo then .error (.rejected 200 "from must be smaller than to")
  else
    let tFrom := if tFrom < oldestTimestamp then oldestTimestamp else tFrom
    if tTo > checkMs then .error (.rejected 200 "timestamp must be in seconds")
    else .ok (tFrom, tTo)

/-- `toTimestamp` with its default, `Math.round(Date.now() / 1000)`. -/
def ApyRequest.toSec (req : ApyRequest) (clock : ApyClock) : ℤ :=
  req.toTimestamp.getD ((clock.nowMs + 500) / 1000)

/-- `fromTimestamp` with its default. -/
def ApyRequest.fromSec (req : ApyRequest) (clock : ApyClock) : ℤ :=
  req.fromTimestamp.getD (req.toSec clock - 86400 * 7)

/-- `apyCalculation` up to the queries, with what it throws: the pool, and the two dates in
milliseconds.  `getPoolId` is `getPoolIdFromSymbol`, `none` when it throws. -/
def apyPeriod (getPoolId : String → Option ℕ) (clock : ApyClock) (req : ApyRequest) :
    Except ApyError (ℕ × ℤ × ℤ) :=
  match req.poolSymbol with
  | none => .error (.rejected 400 "please provide correct query parameters")
  | some symbol =>
    match getPoolId symbol with
    | none => .error (.rejected 400 s!"no pool found for symbol {symbol}")
    | some poolId => do
      let (tFrom, tTo) ←
        extractSecondTimestamps clock.checkMs (req.fromSec clock) (req.toSec clock)
      return (poolId, tFrom * 1000, tTo * 1000)

/-- `secondsInYear`. -/
def secondsInYear (year : ℕ) : ℕ :=
  (if year % 4 = 0 ∧ 0 < year % 100 ∨ year % 400 = 0 then 366 else 365) * 24 * 3600

/-- `apyCalculation` after the queries, with what it throws. -/
def apyAnswer (year : ℕ) (answers : ApyAnswers) : Except ApyError ApyResponse :=
  match answers.toPriceInfo, answers.fromPriceInfo with
  | some toInfo, some fromInfo =>
    let startTimestamp : ℚ := fromInfo.1 / 1000
    let endTimestamp : ℚ := toInfo.1 / 1000
    let tDiff := endTimestamp - startTimestamp
    let rawReturn := (toInfo.2 - fromInfo.2) / fromInfo.2
    if tDiff = 0 then
      .error (.rejected 503
        "not enough price data for the given time range to calculate APY")
    else
      match answers.firstTimestamp with
      | none => .error .queryFailed
      | some first =>
        .ok { startTimestamp, endTimestamp
              startPrice := fromInfo.2
              endPrice := toInfo.2
              apy := rawReturn * secondsInYear year / tDiff
              rawReturn
              allTimeAPY := (toInfo.2 - 1) * secondsInYear year /
                (endTimestamp - first / 1000) }
  | _, _ => .error (.rejected 503 "not enough prices found")

/-- `apyCalculation`.  `accepts` are the dates the database takes. -/
def apyCalculation (getPoolId : String → Option ℕ) (accepts : ℤ → Bool) (clock : ApyClock)
    (answers : ApyAnswers) (req : ApyRequest) : Except ApyError ApyResponse :=
  let answer : Except ApyError ApyResponse := do
    let (_, fromDate, toDate) ← apyPeriod getPoolId clock req
    if accepts fromDate && accepts toDate then apyAnswer clock.year answers
    else throw .queryFailed
  answer.mapError .apySends

/-! ## The queries -/

/-- The times of a pool's rows. -/
def times (t : PriceTable) (poolId : ℕ) : Set ℤ := {ms | (prices t poolId ms).isSome}

/-- `order by abs(…) limit 1`: a nearest row, if there is a row. -/
def IsNearestRow (t : PriceTable) (poolId : ℕ) (date : ℤ) : Option (ℤ × ℚ) → Prop
  | none => ∀ ms, prices t poolId ms = none
  | some (ms, price) => prices t poolId ms = some price ∧ IsNearest (times t poolId) date ms

/-- `order by timestamp limit 1`: the first row, if there is a row. -/
def IsFirstRow (t : PriceTable) (poolId : ℕ) : Option ℤ → Prop
  | none => ∀ ms, prices t poolId ms = none
  | some first => IsLeast (times t poolId) first

/-- What the queries may answer on a table. -/
structure ApyAnswers.Valid (answers : ApyAnswers) (t : PriceTable) (poolId : ℕ)
    (fromDate toDate : ℤ) : Prop where
  fromPriceInfo : IsNearestRow t poolId fromDate answers.fromPriceInfo
  toPriceInfo : IsNearestRow t poolId toDate answers.toPriceInfo
  firstTimestamp : IsFirstRow t poolId answers.firstTimestamp

theorem finite_times (t : PriceTable) (poolId : ℕ) : (times t poolId).Finite := by
  apply Set.Finite.subset (List.finite_toSet (t.keys.map Prod.snd))
  intro ms hms
  obtain ⟨price, hprice⟩ := Option.isSome_iff_exists.1 hms
  have hkey : (poolId, ms) ∈ t.keys := List.mem_map_of_mem (OrdMap.get?_eq_some.1 hprice)
  exact List.mem_map_of_mem (f := Prod.snd) hkey

theorem mem_times {t : PriceTable} {poolId : ℕ} {ms : ℤ} {price : ℚ}
    (h : prices t poolId ms = some price) : ms ∈ times t poolId := by
  rw [times, Set.mem_ofPred_eq, h]
  rfl

/-! ## The period -/

section

variable {getPoolId : String → Option ℕ} {clock : ApyClock} {req : ApyRequest}

/-- **The period.**  The start is compared with the end before it is moved up. -/
theorem apyPeriod_eq_ok {poolId : ℕ} {fromDate toDate : ℤ} :
    apyPeriod getPoolId clock req = .ok (poolId, fromDate, toDate) ↔
      req.poolSymbol.bind getPoolId = some poolId ∧ req.fromSec clock < req.toSec clock ∧
        req.toSec clock ≤ clock.checkMs ∧
        fromDate = max (req.fromSec clock) oldestTimestamp * 1000 ∧
        toDate = req.toSec clock * 1000 := by
  have hmax : (if req.fromSec clock < oldestTimestamp then oldestTimestamp else req.fromSec clock) =
      max (req.fromSec clock) oldestTimestamp := by
    split
    · rename_i hlt
      exact (max_eq_right hlt.le).symm
    · rename_i hge
      exact (max_eq_left (not_lt.1 hge)).symm
  unfold apyPeriod
  cases req.poolSymbol with
  | none => simp
  | some symbol =>
    cases hpool : getPoolId symbol with
    | none => simp [hpool]
    | some id =>
      simp only [extractSecondTimestamps, Option.bind_some, hpool, Option.some.injEq]
      by_cases hlt : req.fromSec clock < req.toSec clock
      · rw [if_neg (not_le.2 hlt)]
        by_cases hnow : req.toSec clock ≤ clock.checkMs
        · rw [if_neg (not_lt.2 hnow), hmax]
          simp only [hlt, hnow, true_and]
          constructor
          · intro h
            cases h
            exact ⟨rfl, rfl, rfl⟩
          · rintro ⟨rfl, rfl, rfl⟩
            rfl
        · rw [if_pos (not_le.1 hnow)]
          constructor
          · intro h
            cases h
          · rintro ⟨-, -, hle, -⟩
            exact absurd hle hnow
      · rw [if_pos (not_lt.1 hlt)]
        constructor
        · intro h
          cases h
        · rintro ⟨-, hlt', -⟩
          exact absurd hlt' hlt

end

/-! ## The answer -/

/-- **The answer.**  It is computed from two rows at different times. -/
theorem apyAnswer_eq_ok {year : ℕ} {answers : ApyAnswers} {resp : ApyResponse}
    (h : apyAnswer year answers = .ok resp) :
    ∃ start startPrice end' endPrice first,
      answers.fromPriceInfo = some (start, startPrice) ∧
        answers.toPriceInfo = some (end', endPrice) ∧ answers.firstTimestamp = some first ∧
        start ≠ end' ∧ resp.startTimestamp = (start : ℚ) / 1000 ∧
        resp.endTimestamp = (end' : ℚ) / 1000 := by
  unfold apyAnswer at h
  split at h
  · rename_i toInfo fromInfo hto hfrom
    obtain ⟨end', endPrice⟩ := toInfo
    obtain ⟨start, startPrice⟩ := fromInfo
    simp only at h
    split at h
    · cases h
    · rename_i hdiff
      split at h
      · cases h
      · rename_i first hfirst
        obtain rfl := Except.ok.inj h
        refine ⟨start, startPrice, end', endPrice, first, hfrom, hto, hfirst, ?_, rfl, rfl⟩
        rintro rfl
        exact hdiff (sub_self _)
  · cases h

/-- Two rows at different times are answered with. -/
theorem apyAnswer_of_ne (year : ℕ) {start end' : ℤ} (first : ℤ) (startPrice endPrice : ℚ)
    (hne : start ≠ end') :
    ∃ resp : ApyResponse,
      apyAnswer year ⟨some (start, startPrice), some (end', endPrice), some first⟩ = .ok resp ∧
        resp.startTimestamp = (start : ℚ) / 1000 ∧ resp.endTimestamp = (end' : ℚ) / 1000 := by
  have hdiff : ¬ ((end' : ℚ) / 1000 - (start : ℚ) / 1000 = 0) := by
    intro heq
    have hcast : (start : ℚ) = end' := by linarith
    exact hne (Int.cast_injective hcast)
  unfold apyAnswer
  simp only [if_neg hdiff]
  exact ⟨_, rfl, rfl, rfl⟩

/-! ## Running forward -/

/-- An answer runs forward: it starts before it ends, and it ends after the first row. -/
def ApyResponse.Forward (resp : ApyResponse) (answers : ApyAnswers) : Prop :=
  resp.startTimestamp < resp.endTimestamp ∧
    ∀ first, answers.firstTimestamp = some first → 0 < resp.endTimestamp - (first : ℚ) / 1000

/-- The requests whose answers run forward on a table: one that passes the checks and ends at
or before the oldest admitted time must not have two neighbouring rows with their
middle between its end and that time. -/
def ApyRequest.Sound (req : ApyRequest) (t : PriceTable) (getPoolId : String → Option ℕ)
    (accepts : ℤ → Bool) (clock : ApyClock) : Prop :=
  ∀ poolId, req.poolSymbol.bind getPoolId = some poolId →
    req.fromSec clock < req.toSec clock → req.toSec clock ≤ clock.checkMs →
    accepts (req.toSec clock * 1000) = true → accepts (oldestTimestamp * 1000) = true →
    req.toSec clock ≤ oldestTimestamp →
    ∀ a b, Successive (times t poolId) a b →
      ¬ (2 * (req.toSec clock * 1000) ≤ a + b ∧ a + b ≤ 2 * (oldestTimestamp * 1000))

section

variable {t : PriceTable} {getPoolId : String → Option ℕ} {accepts : ℤ → Bool} {clock : ApyClock}
  {answers : ApyAnswers} {req : ApyRequest}

theorem apyCalculation_of_period {poolId : ℕ} {fromDate toDate : ℤ}
    (hperiod : apyPeriod getPoolId clock req = .ok (poolId, fromDate, toDate)) :
    apyCalculation getPoolId accepts clock answers req =
      if accepts fromDate && accepts toDate then
        (apyAnswer clock.year answers).mapError .apySends
      else .error .queryFailed := by
  rw [apyCalculation, hperiod]
  show (ite _ _ _ : Except ApyError ApyResponse).mapError _ = _
  rw [apply_ite (Except.mapError ApyError.apySends)]
  rfl

/-- The nearest rows of a sound request, when they differ, are in order. -/
theorem nearest_in_order (h : req.Sound t getPoolId accepts clock) {poolId : ℕ}
    {fromDate toDate start end' : ℤ}
    (hperiod : apyPeriod getPoolId clock req = .ok (poolId, fromDate, toDate))
    (hfrom : accepts fromDate = true) (hto : accepts toDate = true)
    (hstart : IsNearest (times t poolId) fromDate start)
    (hend : IsNearest (times t poolId) toDate end') (hne : start ≠ end') : start < end' := by
  obtain ⟨hpool, hlt, hnow, rfl, rfl⟩ := apyPeriod_eq_ok.1 hperiod
  by_cases hold : req.toSec clock ≤ oldestTimestamp
  · -- both dates lie at or before the oldest time, the start being moved up to it
    have hclamp : max (req.fromSec clock) oldestTimestamp = oldestTimestamp :=
      max_eq_right (le_trans hlt.le hold)
    rw [hclamp] at hfrom hstart
    by_contra hge
    have hlt' : end' < start := lt_of_le_of_ne (not_lt.1 hge) hne.symm
    obtain ⟨a, b, hsucc, hleft, hright⟩ :=
      (exists_nearest_lt_iff (finite_times t poolId)).1 ⟨end', start, hend, hstart, hlt'⟩
    exact h poolId hpool hlt hnow hto hfrom hold a b hsucc ⟨by omega, by omega⟩
  · have hdates : max (req.fromSec clock) oldestTimestamp * 1000 < req.toSec clock * 1000 := by
      have hmax : max (req.fromSec clock) oldestTimestamp < req.toSec clock :=
        max_lt hlt (not_le.1 hold)
      omega
    exact lt_of_le_of_ne (nearest_le_of_lt hstart hend hdates) hne

/-- A sound request is answered with a period that runs forward. -/
theorem forward_of_sound (h : req.Sound t getPoolId accepts clock) {resp : ApyResponse}
    (hvalid : ∀ poolId fromDate toDate,
      apyPeriod getPoolId clock req = .ok (poolId, fromDate, toDate) →
        answers.Valid t poolId fromDate toDate)
    (hok : apyCalculation getPoolId accepts clock answers req = .ok resp) :
    resp.Forward answers := by
  cases hperiod : apyPeriod getPoolId clock req with
  | error err =>
    rw [apyCalculation, hperiod] at hok
    cases hok
  | ok period =>
    obtain ⟨poolId, fromDate, toDate⟩ := period
    rw [apyCalculation_of_period hperiod] at hok
    split at hok
    · rename_i haccepts
      obtain ⟨hfrom, hto⟩ := Bool.and_eq_true_iff.1 haccepts
      obtain ⟨start, startPrice, end', endPrice, first, hfromInfo, htoInfo, hfirst, hne, hstart,
        hend⟩ := apyAnswer_eq_ok (mapError_eq_ok hok)
      have hv := hvalid poolId fromDate toDate hperiod
      have hstartRow := hv.fromPriceInfo
      have hendRow := hv.toPriceInfo
      have hfirstRow := hv.firstTimestamp
      rw [hfromInfo] at hstartRow
      rw [htoInfo] at hendRow
      rw [hfirst] at hfirstRow
      have hlt : start < end' :=
        nearest_in_order h hperiod hfrom hto hstartRow.2 hendRow.2 hne
      have hle : first ≤ start := hfirstRow.2 (mem_times hstartRow.1)
      have hlt' : (start : ℚ) < end' := Int.cast_lt.2 hlt
      have hle' : (first : ℚ) ≤ start := Int.cast_le.2 hle
      constructor
      · rw [hstart, hend]
        linarith
      · intro first' hfirst'
        obtain rfl := Option.some.inj (hfirst.symm.trans hfirst')
        rw [hend]
        linarith
    · cases hok

variable (accepts) in
/-- Rows nearest to the ends in the wrong order can be answered with. -/
theorem exists_answers {poolId : ℕ} {fromDate toDate start end' : ℤ}
    (hperiod : apyPeriod getPoolId clock req = .ok (poolId, fromDate, toDate))
    (hfrom : accepts fromDate = true) (hto : accepts toDate = true)
    (hstart : IsNearest (times t poolId) fromDate start)
    (hend : IsNearest (times t poolId) toDate end') (hne : start ≠ end') :
    ∃ (answers : ApyAnswers) (resp : ApyResponse), answers.Valid t poolId fromDate toDate ∧
      apyCalculation getPoolId accepts clock answers req = .ok resp ∧
      resp.startTimestamp = (start : ℚ) / 1000 ∧ resp.endTimestamp = (end' : ℚ) / 1000 := by
  obtain ⟨startPrice, hstartPrice⟩ := Option.isSome_iff_exists.1 hstart.1
  obtain ⟨endPrice, hendPrice⟩ := Option.isSome_iff_exists.1 hend.1
  obtain ⟨first, hfirst, hmin⟩ :=
    Set.exists_min_image (times t poolId) id (finite_times t poolId) ⟨start, hstart.1⟩
  obtain ⟨resp, hresp, hstartTs, hendTs⟩ :=
    apyAnswer_of_ne clock.year first startPrice endPrice hne
  refine ⟨⟨some (start, startPrice), some (end', endPrice), some first⟩, resp,
    ⟨⟨hstartPrice, hstart⟩, ⟨hendPrice, hend⟩, hfirst, fun a ha => hmin a ha⟩, ?_, hstartTs, hendTs⟩
  rw [apyCalculation_of_period hperiod, hfrom, hto, hresp]
  rfl

/-- **Running forward.**  Whatever rows the queries choose among nearest ones, every answer to a
request runs forward exactly when the request is `Sound`. -/
theorem apy_forward_iff (t : PriceTable) (getPoolId : String → Option ℕ) (accepts : ℤ → Bool)
    (clock : ApyClock) (req : ApyRequest) :
    (∀ (answers : ApyAnswers) (resp : ApyResponse),
        (∀ poolId fromDate toDate,
          apyPeriod getPoolId clock req = .ok (poolId, fromDate, toDate) →
            answers.Valid t poolId fromDate toDate) →
        apyCalculation getPoolId accepts clock answers req = .ok resp →
        resp.startTimestamp < resp.endTimestamp ∧
          ∀ first, answers.firstTimestamp = some first →
            0 < resp.endTimestamp - (first : ℚ) / 1000) ↔
      req.Sound t getPoolId accepts clock := by
  constructor
  · rintro hforward poolId hpool hlt hnow hto hfrom hold a b hsucc ⟨hleft, hright⟩
    have hclamp : max (req.fromSec clock) oldestTimestamp = oldestTimestamp :=
      max_eq_right (le_trans hlt.le hold)
    have hperiod : apyPeriod getPoolId clock req =
        .ok (poolId, oldestTimestamp * 1000, req.toSec clock * 1000) :=
      apyPeriod_eq_ok.2 ⟨hpool, hlt, hnow, by rw [hclamp], rfl⟩
    obtain ⟨end', start, hend, hstart, hlt'⟩ :=
      (exists_nearest_lt_iff (s := oldestTimestamp * 1000) (t := req.toSec clock * 1000)
        (finite_times t poolId)).2 ⟨a, b, hsucc, by omega, by omega⟩
    obtain ⟨answers, resp, hvalid, hok, hstartTs, hendTs⟩ :=
      exists_answers accepts hperiod hfrom hto hstart hend hlt'.ne'
    have hvalid' : ∀ poolId' fromDate toDate,
        apyPeriod getPoolId clock req = .ok (poolId', fromDate, toDate) →
          answers.Valid t poolId' fromDate toDate := by
      intro poolId' fromDate toDate hperiod'
      rw [hperiod] at hperiod'
      cases hperiod'
      exact hvalid
    obtain ⟨hreversed, -⟩ := hforward answers resp hvalid' hok
    rw [hstartTs, hendTs] at hreversed
    have hcast : (end' : ℚ) < start := Int.cast_lt.2 hlt'
    linarith
  · intro hsound answers resp hvalid hok
    exact forward_of_sound hsound hvalid hok

/-- A price at the oldest admitted time, and one 10000 seconds before. -/
def reachingBack : PriceTable :=
  (OrdMap.empty.set (1, 1681392080000) 1).set (1, 1681402080000) 2

theorem times_reachingBack {ms : ℤ} (h : ms ∈ times reachingBack 1) :
    ms = 1681392080000 ∨ ms = 1681402080000 := by
  obtain ⟨price, hprice⟩ := Option.isSome_iff_exists.1 h
  rw [prices, reachingBack, OrdMap.get?_set, OrdMap.get?_set] at hprice
  split at hprice
  · rename_i heq
    exact Or.inr (congrArg Prod.snd heq).symm
  · split at hprice
    · rename_i heq
      exact Or.inl (congrArg Prod.snd heq).symm
    · cases hprice

/-- A request for a period before the oldest time is answered over a period that ends before it
starts. -/
theorem reachingBack_reversed :
    ∃ (answers : ApyAnswers) (resp : ApyResponse),
      answers.Valid reachingBack 1 1681402080000 1681393080000 ∧
        apyCalculation (fun _ => some 1) (fun _ => true)
          ⟨1760000000000, 1760000000000, 2025⟩ answers
          ⟨some "USDC", some 1681382080, some 1681393080⟩ = .ok resp ∧
        resp.startTimestamp = 1681402080 ∧ resp.endTimestamp = 1681392080 := by
  have hstart : IsNearest (times reachingBack 1) 1681402080000 1681402080000 := by
    refine ⟨rfl, fun b _ => ?_⟩
    rw [sub_self, abs_zero]
    exact abs_nonneg _
  have hend : IsNearest (times reachingBack 1) 1681393080000 1681392080000 := by
    refine ⟨rfl, fun b hb => ?_⟩
    rcases times_reachingBack hb with rfl | rfl
    · exact le_refl _
    · decide
  have hperiod : apyPeriod (fun _ => some 1) ⟨1760000000000, 1760000000000, 2025⟩
      ⟨some "USDC", some 1681382080, some 1681393080⟩ = .ok (1, 1681402080000, 1681393080000) := rfl
  obtain ⟨answers, resp, hvalid, hok, hstartTs, hendTs⟩ :=
    exists_answers (fun _ => true) hperiod rfl rfl hstart hend (by decide)
  refine ⟨answers, resp, hvalid, hok, ?_, ?_⟩
  · rw [hstartTs]
    norm_num
  · rw [hendTs]
    norm_num

end

end TraderBackend
