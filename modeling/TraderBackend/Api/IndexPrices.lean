import TraderBackend.Lib.OrdMap

/-!
# Two ways to a price

The main API computes mid, mark and index price of a perpetual in two places:
when an oracle index moves (`_updatePricesOnIndexPrice`, which loops over every
perpetual of the index) and when the chain emits `UpdateMarkPrice`
(`onUpdateMarkPrice`, one perpetual).  Prices are exact rationals.

* `PriceState` — the maps both read.
* `eventPathPrices` — the arithmetic of `onUpdateMarkPrice`.
* `routeIndex`, `updatePricesOnIndexPrice` — the index-driven loop, with the
  variable `px` it carries from one perpetual to the next.
* `updatePricesOnIndexPrice_agrees_iff` — the two paths agree **if and only if**
  no prediction market is followed by another perpetual of its index: `px` is
  overwritten by `probToPrice(px)` and never reset.
-/

namespace TraderBackend

/-- The price maps of `IndexPriceInterface`. -/
structure PriceState where
  /-- Index name to the perpetuals it prices. -/
  idxNamesToPerpetualIds : OrdMap String (List ℕ)
  idxPrices : OrdMap String ℚ
  midPremium : OrdMap ℕ ℚ
  mrkPremium : OrdMap ℕ ℚ
  isPredictionMkt : OrdMap ℕ Bool

/-- One call of `updateMarkPrice`, with the index it was made for. -/
structure PriceCall where
  index : String
  perpetualId : ℕ
  newMidPrice : ℚ
  newMarkPrice : ℚ
  newIndexPrice : ℚ
  deriving DecidableEq

/-- Mid, mark and index price as `onUpdateMarkPrice` computes them from the stored
index price and the premia. -/
def eventPathPrices (probToPrice : ℚ → ℚ) (isPred : Bool) (currIdx midPrem mrkPrem : ℚ) :
    ℚ × ℚ × ℚ :=
  if isPred then
    let currIdx := probToPrice currIdx
    (min (max 1 (currIdx + midPrem)) 2, currIdx, currIdx)
  else (currIdx * (1 + midPrem), currIdx * (1 + mrkPrem), currIdx)

variable (probToPrice : ℚ → ℚ)

/-- The loop over the perpetuals of one index, entered with the current value of `px`:
the calls it makes and whether it ends in `process.exit(1)`. -/
def routeIndex (st : PriceState) (index : String) : Option ℚ → List ℕ → List PriceCall × Bool
  | _, [] => ([], false)
  | px, id :: ids =>
      match st.isPredictionMkt.get? id with
      | none => ([], true)
      | some isPred =>
          match px, st.mrkPremium.get? id, st.midPremium.get? id with
          | some p, some markPremium, some midPremium =>
              -- `px` is the variable of the loop: a prediction market overwrites it
              let px := if isPred then probToPrice p else p
              let midPx :=
                if isPred then min (max 1 (px + midPremium)) 2 else px * (1 + midPremium)
              let markPx := if isPred then px else px * (1 + markPremium)
              let rest := routeIndex st index (some px) ids
              (⟨index, id, midPx, markPx, px⟩ :: rest.1, rest.2)
          | _, _, _ => routeIndex st index px ids

/-- `_updatePricesOnIndexPrice`. -/
def updatePricesOnIndexPrice (st : PriceState) : List String → List PriceCall × Bool
  | [] => ([], false)
  | index :: indices =>
      match st.idxNamesToPerpetualIds.get? index with
      | none => updatePricesOnIndexPrice st indices
      | some perpetualIds =>
          match routeIndex probToPrice st index (st.idxPrices.get? index) perpetualIds with
          | (calls, true) => (calls, true)
          | (calls, false) =>
              let rest := updatePricesOnIndexPrice st indices
              (calls ++ rest.1, rest.2)

/-! ## What the loop gets to see -/

/-- The perpetuals of a list the loop prices: those before the first unknown one that
have both premia. -/
def priced (st : PriceState) (ids : List ℕ) : List ℕ :=
  (ids.takeWhile fun id => (st.isPredictionMkt.get? id).isSome).filter fun id =>
    (st.mrkPremium.get? id).isSome && (st.midPremium.get? id).isSome

/-- The loop leaves the process at this index. -/
def exitsAt (st : PriceState) (index : String) : Bool :=
  match st.idxNamesToPerpetualIds.get? index with
  | none => false
  | some ids => ids.any fun id => (st.isPredictionMkt.get? id).isNone

/-- The updated index names the loop reaches. -/
def reached (st : PriceState) : List String → List String
  | [] => []
  | index :: indices => if exitsAt st index then [index] else index :: reached st indices

/-- A call carries the prices the event-driven path computes for its perpetual from the
stored index price and the same premia. -/
def PriceCall.Agrees (st : PriceState) (c : PriceCall) : Prop :=
  ∃ isPred px midPrem mrkPrem, st.isPredictionMkt.get? c.perpetualId = some isPred ∧
    st.idxPrices.get? c.index = some px ∧ st.midPremium.get? c.perpetualId = some midPrem ∧
    st.mrkPremium.get? c.perpetualId = some mrkPrem ∧
    (c.newMidPrice, c.newMarkPrice, c.newIndexPrice) =
      eventPathPrices probToPrice isPred px midPrem mrkPrem

/-- No prediction market of the list is priced before another perpetual. -/
def PredictionLast (st : PriceState) (ids : List ℕ) : Prop :=
  (priced st ids).Pairwise fun a _ => st.isPredictionMkt.get? a = some false

variable {probToPrice}

theorem priced_cons_unknown {st : PriceState} {id : ℕ} {ids : List ℕ}
    (h : st.isPredictionMkt.get? id = none) : priced st (id :: ids) = [] := by
  simp [priced, h]

theorem priced_cons_skip {st : PriceState} {id : ℕ} (ids : List ℕ) {isPred : Bool}
    (h : st.isPredictionMkt.get? id = some isPred)
    (hprem : st.mrkPremium.get? id = none ∨ st.midPremium.get? id = none) :
    priced st (id :: ids) = priced st ids := by
  rcases hprem with hp | hp <;> simp [priced, h, hp]

theorem priced_cons {st : PriceState} {id : ℕ} (ids : List ℕ) {isPred : Bool} {mrk mid : ℚ}
    (h : st.isPredictionMkt.get? id = some isPred) (hmrk : st.mrkPremium.get? id = some mrk)
    (hmid : st.midPremium.get? id = some mid) : priced st (id :: ids) = id :: priced st ids := by
  simp [priced, h, hmrk, hmid]

/-- A priced perpetual's call agrees exactly when `px` still is the stored price. -/
theorem agrees_call_iff (hprob : ∀ p, probToPrice p = 1 + p) {st : PriceState} {index : String}
    {id : ℕ} {isPred : Bool} {p q mrk mid : ℚ} (h : st.isPredictionMkt.get? id = some isPred)
    (hmrk : st.mrkPremium.get? id = some mrk) (hmid : st.midPremium.get? id = some mid)
    (hp : st.idxPrices.get? index = some p) :
    PriceCall.Agrees probToPrice st
        ⟨index, id,
          if isPred then min (max 1 ((if isPred then probToPrice q else q) + mid)) 2
            else (if isPred then probToPrice q else q) * (1 + mid),
          if isPred then (if isPred then probToPrice q else q)
            else (if isPred then probToPrice q else q) * (1 + mrk),
          if isPred then probToPrice q else q⟩ ↔ q = p := by
  constructor
  · rintro ⟨isPred', px, mid', mrk', h', hp', -, -, hprices⟩
    simp only at h' hp' hprices
    rw [h] at h'
    rw [hp] at hp'
    obtain rfl := Option.some.inj h'
    obtain rfl := Option.some.inj hp'
    have hindex := congrArg (fun t => t.2.2) hprices
    cases isPred with
    | false => simpa [eventPathPrices] using hindex
    | true => simpa [eventPathPrices, hprob] using hindex
  · rintro rfl
    refine ⟨isPred, q, mid, mrk, h, hp, hmid, hmrk, ?_⟩
    cases isPred <;> simp [eventPathPrices]

/-- The loop over one index, entered with `px = q` where `p ≤ q` is stored. -/
theorem routeIndex_agrees_iff (hprob : ∀ p, probToPrice p = 1 + p) (st : PriceState)
    (index : String) {p : ℚ} (hp : st.idxPrices.get? index = some p) :
    ∀ (ids : List ℕ) (q : ℚ), p ≤ q →
      ((∀ c ∈ (routeIndex probToPrice st index (some q) ids).1, c.Agrees probToPrice st) ↔
        (q = p ∨ priced st ids = []) ∧ PredictionLast st ids) := by
  intro ids
  induction ids with
  | nil => intro q _; simp [routeIndex, priced, PredictionLast]
  | cons id ids ih =>
    intro q hq
    cases h : st.isPredictionMkt.get? id with
    | none => simp [routeIndex, PredictionLast, h, priced_cons_unknown h]
    | some isPred =>
      cases hmrk : st.mrkPremium.get? id with
      | none =>
        have hskip := priced_cons_skip ids h (Or.inl hmrk)
        simp only [routeIndex, h, hmrk, PredictionLast, hskip]
        exact ih q hq
      | some mrk =>
        cases hmid : st.midPremium.get? id with
        | none =>
          have hskip := priced_cons_skip ids h (Or.inr hmid)
          simp only [routeIndex, h, hmrk, hmid, PredictionLast, hskip]
          exact ih q hq
        | some mid =>
          have hcons := priced_cons ids h hmrk hmid
          simp only [routeIndex, h, hmrk, hmid, List.forall_mem_cons,
            agrees_call_iff hprob h hmrk hmid hp, PredictionLast, hcons, List.pairwise_cons,
            reduceCtorEq, or_false]
          apply and_congr_right
          intro hqp
          subst hqp
          -- the rest of the list is entered with `px` overwritten by a prediction market
          cases isPred with
          | false =>
            simp only [Bool.false_eq_true, if_false]
            rw [ih q (le_refl q)]
            simp [PredictionLast]
          | true =>
            simp only [if_true, hprob]
            rw [ih (1 + q) (by linarith)]
            have hne : ¬ (1 + q = q) := by intro hc; linarith
            simp only [hne, false_or, PredictionLast, Option.some.injEq, Bool.true_eq_false]
            constructor
            · rintro ⟨hnil, hpair⟩
              exact ⟨by simp [hnil], hpair⟩
            · rintro ⟨hall, hpair⟩
              exact ⟨List.eq_nil_iff_forall_not_mem.2 fun b hb => hall b hb, hpair⟩

/-- Without a stored index price the loop makes no call. -/
theorem routeIndex_none (st : PriceState) (index : String) (ids : List ℕ) :
    (routeIndex probToPrice st index none ids).1 = [] := by
  induction ids with
  | nil => rfl
  | cons id ids ih =>
    rw [routeIndex]
    cases st.isPredictionMkt.get? id with
    | none => rfl
    | some isPred => exact ih

variable (probToPrice) in
/-- The loop over one index leaves the process exactly when it holds an unknown perpetual. -/
theorem routeIndex_exits (st : PriceState) (index : String) (ids : List ℕ) :
    ∀ px, (routeIndex probToPrice st index px ids).2 =
      ids.any fun id => (st.isPredictionMkt.get? id).isNone := by
  induction ids with
  | nil => intro px; rfl
  | cons id ids ih =>
    intro px
    rw [routeIndex, List.any_cons]
    cases st.isPredictionMkt.get? id with
    | none => rfl
    | some isPred =>
      simp only [Option.isNone_some, Bool.false_or]
      split
      · exact ih _
      · exact ih _

/-- **When the two price paths agree.**  Every triple the index-driven path passes on
equals the one the event-driven path computes from the same index price and premia, if
and only if no index it reaches prices a prediction market before another perpetual. -/
theorem updatePricesOnIndexPrice_agrees_iff (hprob : ∀ p, probToPrice p = 1 + p)
    (st : PriceState) (indices : List String) :
    (∀ c ∈ (updatePricesOnIndexPrice probToPrice st indices).1, c.Agrees probToPrice st) ↔
      ∀ index ∈ reached st indices, ∀ ids, st.idxNamesToPerpetualIds.get? index = some ids →
        (st.idxPrices.get? index).isSome = true → PredictionLast st ids := by
  induction indices with
  | nil => simp [updatePricesOnIndexPrice, reached]
  | cons index indices ih =>
    rw [updatePricesOnIndexPrice, reached]
    cases hids : st.idxNamesToPerpetualIds.get? index with
    | none =>
      rw [exitsAt, hids]
      simp [hids, ih]
    | some ids =>
      -- the calls made for this index agree exactly when its own list is in order
      have hhead : (∀ c ∈ (routeIndex probToPrice st index (st.idxPrices.get? index) ids).1,
          c.Agrees probToPrice st) ↔
          ((st.idxPrices.get? index).isSome = true → PredictionLast st ids) := by
        cases hp : st.idxPrices.get? index with
        | none => simp [routeIndex_none]
        | some p => simp [routeIndex_agrees_iff hprob st index hp ids p (le_refl p)]
      have hexit := routeIndex_exits probToPrice st index ids (st.idxPrices.get? index)
      have hat : exitsAt st index = ids.any fun id => (st.isPredictionMkt.get? id).isNone := by
        rw [exitsAt, hids]
      simp only
      generalize routeIndex probToPrice st index (st.idxPrices.get? index) ids = r at hhead hexit
      obtain ⟨calls, exited⟩ := r
      simp only at hhead hexit
      cases exited with
      | true =>
        rw [hat, ← hexit, if_pos rfl]
        simp [hids, hhead]
      | false =>
        rw [hat, ← hexit, if_neg (by simp)]
        simp only [List.forall_mem_append, List.forall_mem_cons, hids, Option.some.injEq,
          forall_eq', hhead, ih]

/-- Two prediction markets of different pools on one index. -/
def sharedIndex : PriceState where
  idxNamesToPerpetualIds := ⟨[("GAME1-USD", [100001, 200001])], by simp⟩
  idxPrices := ⟨[("GAME1-USD", 1 / 2)], by simp⟩
  midPremium := ⟨[(100001, 0), (200001, 0)], by simp⟩
  mrkPremium := ⟨[(100001, 0), (200001, 0)], by simp⟩
  isPredictionMkt := ⟨[(100001, true), (200001, true)], by simp⟩

/-- The second market of the index is sent the index price 2.5 where the event-driven
path computes 1.5. -/
theorem sharedIndex_disagrees :
    ¬ ∀ c ∈ (updatePricesOnIndexPrice (fun p => 1 + p) sharedIndex ["GAME1-USD"]).1,
      c.Agrees (fun p => 1 + p) sharedIndex := by
  intro h
  have hmem : (⟨"GAME1-USD", 200001, 2, 5 / 2, 5 / 2⟩ : PriceCall) ∈
      (updatePricesOnIndexPrice (fun p => 1 + p) sharedIndex ["GAME1-USD"]).1 := by
    norm_num [updatePricesOnIndexPrice, routeIndex, sharedIndex, OrdMap.get?, OrdMap.lookupL]
  obtain ⟨isPred, px, midPrem, mrkPrem, hpred, hpx, hmid, hmrk, hbad⟩ := h _ hmem
  obtain rfl : true = isPred := Option.some.inj hpred
  obtain rfl : 1 / 2 = px := Option.some.inj hpx
  norm_num [eventPathPrices] at hbad

/-- The index of an ordinary perpetual listed before a prediction market. -/
def ordinaryFirst : PriceState :=
  { sharedIndex with isPredictionMkt := ⟨[(100001, false), (200001, true)], by simp⟩ }

/-- The law at work on it: a call for each perpetual, and both agree. -/
theorem ordinaryFirst_agrees :
    (updatePricesOnIndexPrice (fun p => 1 + p) ordinaryFirst ["GAME1-USD"]).1.map
        PriceCall.perpetualId = [100001, 200001] ∧
      ∀ c ∈ (updatePricesOnIndexPrice (fun p => 1 + p) ordinaryFirst ["GAME1-USD"]).1,
        c.Agrees (fun p => 1 + p) ordinaryFirst := by
  refine ⟨rfl, (updatePricesOnIndexPrice_agrees_iff (fun _ => rfl) _ _).2 ?_⟩
  intro index hindex ids hids _
  obtain rfl : index = "GAME1-USD" := by
    simpa [reached, exitsAt, ordinaryFirst, sharedIndex, OrdMap.get?, OrdMap.lookupL] using hindex
  obtain rfl : [100001, 200001] = ids := by
    simpa [ordinaryFirst, sharedIndex, OrdMap.get?, OrdMap.lookupL] using hids
  simp [PredictionLast, priced, ordinaryFirst, sharedIndex, OrdMap.get?, OrdMap.lookupL]

end TraderBackend
