import TraderBackend.Lib.Interleave
import TraderBackend.History.PriceInfo

/-!
# Fetching the price of a pool token

Every request for an APY also sees to it that the price of the pool is fetched once an hour:
`fetchAndStoreLatestPriceForPool` asks the chain and hands the answer to `PriceInfo.insert`.  The
request does not wait for it.  What was fetched when is remembered when the answer comes, so
requests that arrive before it fetch too.

* **The code.**  `SharePriceFetcher.step` — a request, an answer, an insert.
* **Any overlap.**  `share_prices_an_hour_apart`: prices are handed over in the order of their
  times, and a price that is asked for after another one was handed over is an hour younger.
* **In order.**  `fetched_prices_never_jump`: where the inserts of a pool come to the table one
  after the other as they were called, that order is all the outlier check needs, however the
  requests overlap: no series gets a jump.
-/

namespace TraderBackend

/-! ## The code -/

/-- A fetch that waits for `getShareTokenPrice`.  The events of the process are numbered. -/
structure PriceFetch where
  poolId : ℕ
  /-- The event that asked. -/
  asked : ℕ
  /-- When it asked, in milliseconds. -/
  askedAt : ℤ
  deriving DecidableEq

/-- A call of `db.priceInfo.insert`. -/
structure FetchedPrice where
  poolId : ℕ
  price : ℚ
  timestampSec : ℤ
  asked : ℕ
  /-- The event that brought the answer. -/
  answered : ℕ
  deriving DecidableEq

/-- The call, with what the database says to it. -/
def FetchedPrice.call (c : FetchedPrice) (findFails upsertFails : Bool) : PriceInsert :=
  ⟨c.price, c.poolId, c.timestampSec, findFails, upsertFails⟩

/-- What the requests share. -/
structure SharePriceFetcher where
  lastPriceFetchCacheTimestampSec : OrdMap ℕ ℤ
  fetching : List PriceFetch
  /-- The inserts that have been called, and those of them that have not come to the table. -/
  inserts : List FetchedPrice
  inserting : List FetchedPrice
  priceInfo : PriceTable
  /-- The time of the last event, in milliseconds. -/
  clock : ℤ
  /-- The number of events so far. -/
  events : ℕ

/-- What happens. -/
inductive PriceEvent where
  /-- `fetchAndStoreLatestPriceForPool` is called. -/
  | request (poolId : ℕ) (now : ℤ)
  /-- The fetch at this place is answered; `none` is an error or a price that is no number. -/
  | answer (k : ℕ) (price : Option ℚ) (now : ℤ)
  /-- The insert at this place comes to the table. -/
  | insert (k : ℕ) (findFails upsertFails : Bool)

namespace SharePriceFetcher

/-- The service starts: the table is what an earlier run left. -/
def start (priceInfo : PriceTable) (now : ℤ) : SharePriceFetcher :=
  ⟨OrdMap.empty, [], [], [], priceInfo, now, 0⟩

/-- `secondsSinceUpdate < 3600`, where there is a last time. -/
def isFresh (s : SharePriceFetcher) (poolId : ℕ) (now : ℤ) : Bool :=
  match s.lastPriceFetchCacheTimestampSec.get? poolId with
  | some lastTsSec => decide (now - lastTsSec * 1000 < 3600000)
  | none => false

/-- `Math.round(Date.now() / 1000)`. -/
def roundSec (now : ℤ) : ℤ := (now + 500) / 1000

/-- One event; the clock does not go back. -/
def step (s : SharePriceFetcher) : PriceEvent → Option SharePriceFetcher
  | .request poolId now =>
      if now < s.clock then none
      else
        let s := { s with clock := now, events := s.events + 1 }
        if s.isFresh poolId now then some s
        else some { s with fetching := s.fetching ++ [⟨poolId, s.events, now⟩] }
  | .answer k price now =>
      if now < s.clock then none
      else
        (s.fetching[k]?).map fun fetch =>
          let s :=
            { s with clock := now, events := s.events + 1, fetching := s.fetching.eraseIdx k }
          match price with
          | none => s
          | some price =>
              let c : FetchedPrice :=
                ⟨fetch.poolId, price, roundSec now, fetch.asked, s.events⟩
              { s with
                lastPriceFetchCacheTimestampSec :=
                  s.lastPriceFetchCacheTimestampSec.set fetch.poolId (roundSec now)
                inserts := s.inserts ++ [c]
                inserting := s.inserting ++ [c] }
  | .insert k findFails upsertFails =>
      (s.inserting[k]?).map fun c =>
        { s with
          events := s.events + 1
          inserting := s.inserting.eraseIdx k
          priceInfo := PriceInfo.insert s.priceInfo (c.call findFails upsertFails) }

/-! ## Any overlap -/

/-- What is handed over respects the order of time and the hour. -/
structure Throttled (s : SharePriceFetcher) : Prop where
  last_le : ∀ poolId last, s.lastPriceFetchCacheTimestampSec.get? poolId = some last →
    last ≤ roundSec s.clock
  remembered : ∀ c ∈ s.inserts, ∃ last,
    s.lastPriceFetchCacheTimestampSec.get? c.poolId = some last ∧ c.timestampSec ≤ last
  numbered : ∀ c ∈ s.inserts, c.asked ≤ s.events ∧ c.answered ≤ s.events
  sorted : s.inserts.Pairwise fun a b => a.poolId = b.poolId → a.timestampSec ≤ b.timestampSec
  apart : ∀ a ∈ s.inserts, ∀ b ∈ s.inserts, a.poolId = b.poolId → a.answered < b.asked →
    a.timestampSec + 3600 ≤ b.timestampSec
  asked : ∀ f ∈ s.fetching, f.asked ≤ s.events ∧ f.askedAt ≤ s.clock ∧
    ∀ c ∈ s.inserts, c.poolId = f.poolId → c.answered < f.asked →
      c.timestampSec * 1000 + 3600000 ≤ f.askedAt

theorem roundSec_mono {a b : ℤ} (h : a ≤ b) : roundSec a ≤ roundSec b := by
  unfold roundSec
  omega

/-- An hour in milliseconds is an hour in rounded seconds. -/
theorem add_hour_le_roundSec {t now : ℤ} (h : t * 1000 + 3600000 ≤ now) :
    t + 3600 ≤ roundSec now := by
  unfold roundSec
  omega

theorem isFresh_eq_false {s : SharePriceFetcher} {poolId : ℕ} {now last : ℤ}
    (h : s.isFresh poolId now = false)
    (hlast : s.lastPriceFetchCacheTimestampSec.get? poolId = some last) :
    last * 1000 + 3600000 ≤ now := by
  rw [isFresh, hlast] at h
  have := of_decide_eq_false h
  omega

theorem throttled_start (priceInfo : PriceTable) (now : ℤ) : (start priceInfo now).Throttled := by
  constructor <;> simp [start]

/-- Time passes. -/
theorem Throttled.tick {s : SharePriceFetcher} (h : s.Throttled) {now : ℤ} (hnow : s.clock ≤ now) :
    Throttled { s with clock := now, events := s.events + 1 } where
  last_le poolId last hlast := (h.last_le poolId last hlast).trans (roundSec_mono hnow)
  remembered := h.remembered
  numbered c hc := ⟨Nat.le_succ_of_le (h.numbered c hc).1, Nat.le_succ_of_le (h.numbered c hc).2⟩
  sorted := h.sorted
  apart := h.apart
  asked f hf := by
    obtain ⟨hasked, hat, hapart⟩ := h.asked f hf
    exact ⟨Nat.le_succ_of_le hasked, hat.trans hnow, hapart⟩

/-- A request that fetches. -/
theorem Throttled.fetch {s : SharePriceFetcher} (h : s.Throttled) {poolId : ℕ}
    (hstale : s.isFresh poolId s.clock = false) :
    Throttled { s with fetching := s.fetching ++ [⟨poolId, s.events, s.clock⟩] } where
  last_le := h.last_le
  remembered := h.remembered
  numbered := h.numbered
  sorted := h.sorted
  apart := h.apart
  asked f hf := by
    rcases List.mem_append.1 hf with hold | hnew
    · exact h.asked f hold
    · rw [List.mem_singleton.1 hnew]
      refine ⟨le_refl _, le_refl _, fun c hc hpool _ => ?_⟩
      obtain ⟨last, hlast, hle⟩ := h.remembered c hc
      have hhour := isFresh_eq_false hstale (hpool ▸ hlast)
      show c.timestampSec * 1000 + 3600000 ≤ s.clock
      omega

theorem Throttled.drop {s : SharePriceFetcher} (h : s.Throttled) (k : ℕ) :
    Throttled { s with fetching := s.fetching.eraseIdx k } :=
  ⟨h.last_le, h.remembered, h.numbered, h.sorted, h.apart,
    fun f hf => h.asked f (List.mem_of_mem_eraseIdx hf)⟩

/-- The call an answer leads to. -/
def answerCall (s : SharePriceFetcher) (fetch : PriceFetch) (price : ℚ) : FetchedPrice :=
  ⟨fetch.poolId, price, roundSec s.clock, fetch.asked, s.events⟩

/-- An answer that is a price. -/
def handOver (s : SharePriceFetcher) (fetch : PriceFetch) (price : ℚ) : SharePriceFetcher :=
  { s with
    lastPriceFetchCacheTimestampSec :=
      s.lastPriceFetchCacheTimestampSec.set fetch.poolId (roundSec s.clock)
    inserts := s.inserts ++ [s.answerCall fetch price]
    inserting := s.inserting ++ [s.answerCall fetch price] }

theorem Throttled.handOver {s : SharePriceFetcher} (h : s.Throttled) {fetch : PriceFetch}
    (hasked : fetch.asked < s.events) (hat : fetch.askedAt ≤ s.clock)
    (hothers : ∀ f ∈ s.fetching, f.asked < s.events)
    (hapart : ∀ c ∈ s.inserts, c.poolId = fetch.poolId → c.answered < fetch.asked →
      c.timestampSec * 1000 + 3600000 ≤ fetch.askedAt) (price : ℚ) :
    (s.handOver fetch price).Throttled := by
  have hle : ∀ c ∈ s.inserts, c.timestampSec ≤ roundSec s.clock := fun c hc => by
    obtain ⟨last, hlast, hcle⟩ := h.remembered c hc
    exact hcle.trans (h.last_le _ last hlast)
  constructor
  · intro poolId last hlast
    rcases OrdMap.get?_set_cases hlast with ⟨-, rfl⟩ | hold
    · exact le_refl _
    · exact h.last_le poolId last hold
  · intro c hc
    by_cases hpool : fetch.poolId = c.poolId
    · refine ⟨roundSec s.clock, hpool ▸ OrdMap.get?_set_self _ _ _, ?_⟩
      rcases List.mem_append.1 hc with hold | hnew
      · exact hle c hold
      · exact (List.mem_singleton.1 hnew) ▸ le_refl _
    · rcases List.mem_append.1 hc with hold | hnew
      · obtain ⟨last, hlast, hcle⟩ := h.remembered c hold
        exact ⟨last, (OrdMap.get?_set_ne _ _ hpool).trans hlast, hcle⟩
      · exact absurd (congrArg FetchedPrice.poolId (List.mem_singleton.1 hnew)).symm hpool
  · intro c hc
    rcases List.mem_append.1 hc with hold | hnew
    · exact h.numbered c hold
    · rw [List.mem_singleton.1 hnew]
      exact ⟨hasked.le, le_refl _⟩
  · refine List.pairwise_append.2 ⟨h.sorted, List.pairwise_singleton _ _, fun a ha b hb _ => ?_⟩
    rw [List.mem_singleton.1 hb]
    exact hle a ha
  · intro a ha b hb hpool hlt
    rcases List.mem_append.1 ha with haold | hanew
    · rcases List.mem_append.1 hb with hbold | hbnew
      · exact h.apart a haold b hbold hpool hlt
      · rw [List.mem_singleton.1 hbnew] at hpool hlt ⊢
        exact add_hour_le_roundSec ((hapart a haold hpool hlt).trans hat)
    · -- nothing that has been answered was asked for after this answer
      rw [List.mem_singleton.1 hanew] at hlt
      rcases List.mem_append.1 hb with hbold | hbnew
      · exact absurd (hlt.trans_le (h.numbered b hbold).1) (lt_irrefl _)
      · rw [List.mem_singleton.1 hbnew] at hlt
        exact absurd (hlt.trans hasked) (lt_irrefl _)
  · intro f hf
    obtain ⟨hle', hat', hapart'⟩ := h.asked f hf
    refine ⟨hle', hat', fun c hc hpool hlt => ?_⟩
    rcases List.mem_append.1 hc with hold | hnew
    · exact hapart' c hold hpool hlt
    · rw [List.mem_singleton.1 hnew] at hlt
      exact absurd (hlt.trans (hothers f hf)) (lt_irrefl _)

/-- A call that has come to the table. -/
theorem Throttled.settle {s : SharePriceFetcher} (h : s.Throttled) (inserting : List FetchedPrice)
    (priceInfo : PriceTable) :
    Throttled { s with
      events := s.events + 1, inserting := inserting, priceInfo := priceInfo } where
  last_le := h.last_le
  remembered := h.remembered
  numbered := (h.tick (le_refl _)).numbered
  sorted := h.sorted
  apart := h.apart
  asked := (h.tick (le_refl _)).asked

/-- **One event.** -/
theorem Throttled.step {s s' : SharePriceFetcher} (h : s.Throttled) {e : PriceEvent}
    (hstep : s.step e = some s') : s'.Throttled := by
  cases e with
  | request poolId now =>
    rw [SharePriceFetcher.step] at hstep
    split at hstep
    · cases hstep
    · rename_i hnow
      have htick := h.tick (not_lt.1 hnow)
      simp only at hstep
      split at hstep
      · exact Option.some.inj hstep ▸ htick
      · rename_i hstale
        exact Option.some.inj hstep ▸ htick.fetch (Bool.eq_false_iff.2 hstale)
  | answer k price now =>
    rw [SharePriceFetcher.step] at hstep
    split at hstep
    · cases hstep
    · rename_i hnow
      obtain ⟨fetch, hget, rfl⟩ := Option.map_eq_some_iff.1 hstep
      have htick := h.tick (not_lt.1 hnow)
      have hmem := List.mem_of_getElem? hget
      cases price with
      | none => exact htick.drop k
      | some price =>
        obtain ⟨-, hat, hapart⟩ := htick.asked fetch hmem
        exact (htick.drop k).handOver (Nat.lt_succ_of_le (h.asked fetch hmem).1) hat
          (fun f hf => Nat.lt_succ_of_le (h.asked f (List.mem_of_mem_eraseIdx hf)).1) hapart price
  | insert k findFails upsertFails =>
    obtain ⟨c, -, rfl⟩ := Option.map_eq_some_iff.1 hstep
    exact h.settle _ _

/-- **The price of a pool is fetched once an hour.**  However the requests overlap, prices are
handed over in the order of their times, and one that is asked for after another one was handed
over is at least an hour younger. -/
theorem share_prices_an_hour_apart {priceInfo : PriceTable} {now : ℤ} {s : SharePriceFetcher}
    (h : ReachedBy step (start priceInfo now) s) :
    (s.inserts.Pairwise fun a b => a.poolId = b.poolId → a.timestampSec ≤ b.timestampSec) ∧
      ∀ a ∈ s.inserts, ∀ b ∈ s.inserts, a.poolId = b.poolId → a.answered < b.asked →
        a.timestampSec + 3600 ≤ b.timestampSec := by
  have hthrottled : s.Throttled :=
    h.induction (throttled_start priceInfo now) fun _ _ _ hu hv => hu.step hv
  exact ⟨hthrottled.sorted, hthrottled.apart⟩

/-- Two requests that overlap, and one that comes an hour after. -/
def overlap : List PriceEvent :=
  [.request 1 0, .request 1 500, .answer 0 (some 1) 1000, .request 1 1500,
    .answer 0 (some (3 / 2)) 2000, .insert 0 false false, .insert 0 false false,
    .request 1 3602000, .answer 0 (some 2) 3603000, .insert 0 false false]

def afterOverlap : SharePriceFetcher :=
  (overlap.foldlM step (start OrdMap.empty 0)).getD (start OrdMap.empty 0)

theorem overlap_an_hour_apart :
    afterOverlap.inserts.map (fun c => (c.asked, c.answered, c.timestampSec)) =
        [(1, 3, 1), (2, 5, 2), (8, 9, 3603)] ∧
      ∀ a ∈ afterOverlap.inserts, ∀ b ∈ afterOverlap.inserts, a.poolId = b.poolId →
        a.answered < b.asked → a.timestampSec + 3600 ≤ b.timestampSec :=
  ⟨by decide +kernel,
    (share_prices_an_hour_apart (ReachedBy.getD overlap (by decide +kernel))).2⟩

/-! ## In order -/

/-- An answer that is a price gives a positive one, and an insert comes to the table when no
earlier one of its pool is on the way. -/
def inTurn (s : SharePriceFetcher) : PriceEvent → Bool
  | .request _ _ => true
  | .answer _ price _ => price.all fun p => decide (0 < p)
  | .insert k _ _ =>
      (s.inserting[k]?).all fun c =>
        (s.inserting.take k).all fun b => decide (b.poolId ≠ c.poolId)

/-- An event in its turn. -/
def turn (s : SharePriceFetcher) (e : PriceEvent) : Option SharePriceFetcher :=
  if s.inTurn e then s.step e else none

/-- No series has a jump, and what is on the way follows the series in its order. -/
structure InOrder (s : SharePriceFetcher) : Prop where
  positive : ∀ c ∈ s.inserting, 0 < c.price
  le_clock : ∀ c ∈ s.inserting, c.timestampSec ≤ roundSec s.clock
  sorted : s.inserting.Pairwise fun a b => a.poolId = b.poolId → a.timestampSec ≤ b.timestampSec
  calm : ∀ poolId, ∃ now ≤ roundSec s.clock, Calm (prices s.priceInfo poolId) (now : ℤ) ∧
    ∀ c ∈ s.inserting, c.poolId = poolId → now ≤ c.timestampSec

theorem inOrder_start {priceInfo : PriceTable} {now : ℤ}
    (h : ∀ poolId, Calm (prices priceInfo poolId) (roundSec now)) :
    (start priceInfo now).InOrder where
  positive := by simp [start]
  le_clock := by simp [start]
  sorted := List.Pairwise.nil
  calm poolId := ⟨roundSec now, le_refl _, h poolId, by simp [start]⟩

theorem InOrder.calm_clock {s : SharePriceFetcher} (h : s.InOrder) (poolId : ℕ) :
    Calm (prices s.priceInfo poolId) (roundSec s.clock) := by
  obtain ⟨now, hle, hcalm, -⟩ := h.calm poolId
  exact hcalm.mono (Int.cast_le.2 hle)

/-- Nothing but time and the waiting fetches changes. -/
theorem InOrder.tick {s : SharePriceFetcher} (h : s.InOrder) {now : ℤ} (hnow : s.clock ≤ now)
    (fetching : List PriceFetch) :
    InOrder { s with clock := now, events := s.events + 1, fetching := fetching } where
  positive := h.positive
  le_clock c hc := (h.le_clock c hc).trans (roundSec_mono hnow)
  sorted := h.sorted
  calm poolId := by
    obtain ⟨last, hle, hcalm, hwaiting⟩ := h.calm poolId
    exact ⟨last, hle.trans (roundSec_mono hnow), hcalm, hwaiting⟩

/-- A new call is the youngest. -/
theorem InOrder.handOver {s : SharePriceFetcher} (h : s.InOrder) (fetch : PriceFetch) {price : ℚ}
    (hprice : 0 < price) : (s.handOver fetch price).InOrder where
  positive c hc := by
    rcases List.mem_append.1 hc with hold | hnew
    · exact h.positive c hold
    · exact (List.mem_singleton.1 hnew) ▸ hprice
  le_clock c hc := by
    rcases List.mem_append.1 hc with hold | hnew
    · exact h.le_clock c hold
    · exact (List.mem_singleton.1 hnew) ▸ le_refl _
  sorted := by
    refine List.pairwise_append.2 ⟨h.sorted, List.pairwise_singleton _ _, fun a ha b hb _ => ?_⟩
    rw [List.mem_singleton.1 hb]
    exact h.le_clock a ha
  calm poolId := by
    obtain ⟨now, hle, hcalm, hwaiting⟩ := h.calm poolId
    refine ⟨now, hle, hcalm, fun c hc hpool => ?_⟩
    rcases List.mem_append.1 hc with hold | hnew
    · exact hwaiting c hold hpool
    · exact (List.mem_singleton.1 hnew) ▸ hle

/-- A call that comes to the table in its turn is no older than the series, and no younger than
the calls of its pool that are still on the way. -/
theorem InOrder.settle {s : SharePriceFetcher} (h : s.InOrder) {k : ℕ} {c : FetchedPrice}
    (hget : s.inserting[k]? = some c) (hturn : ∀ b ∈ s.inserting.take k, b.poolId ≠ c.poolId)
    (findFails upsertFails : Bool) :
    InOrder { s with
      events := s.events + 1
      inserting := s.inserting.eraseIdx k
      priceInfo := PriceInfo.insert s.priceInfo (c.call findFails upsertFails) } where
  positive b hb := h.positive b (List.mem_of_mem_eraseIdx hb)
  le_clock b hb := h.le_clock b (List.mem_of_mem_eraseIdx hb)
  sorted := h.sorted.sublist (List.eraseIdx_sublist _ _)
  calm poolId := by
    have hmem := List.mem_of_getElem? hget
    obtain ⟨now, hle, hcalm, hwaiting⟩ := h.calm poolId
    have hinsert : Calm (prices (PriceInfo.insert s.priceInfo _) poolId)
        (if c.poolId = poolId then (c.timestampSec : ℚ) else now) :=
      calm_insert (c := c.call findFails upsertFails) hcalm fun hpool =>
        ⟨h.positive c hmem, Int.cast_le.2 (hwaiting c hmem hpool), c.timestampSec * 1000, by
          show (c.timestampSec : ℚ) * 1000 = _
          push_cast
          ring⟩
    by_cases hpool : c.poolId = poolId
    · rw [if_pos hpool] at hinsert
      refine ⟨c.timestampSec, h.le_clock c hmem, hinsert, fun b hb hbpool => ?_⟩
      -- what is left of its pool was called after it
      rw [List.eraseIdx_eq_take_drop_succ] at hb
      rcases List.mem_append.1 hb with hearly | hlate
      · exact absurd (hbpool.trans hpool.symm) (hturn b hearly)
      · obtain ⟨hk, rfl⟩ := List.getElem?_eq_some_iff.1 hget
        have hsorted := h.sorted
        rw [← List.take_append_drop k s.inserting, List.drop_eq_getElem_cons hk] at hsorted
        exact (List.pairwise_cons.1 (List.pairwise_append.1 hsorted).2.1).1 b hlate
          (hpool.trans hbpool.symm)
    · rw [if_neg hpool] at hinsert
      exact ⟨now, hle, hinsert, fun b hb => hwaiting b (List.mem_of_mem_eraseIdx hb)⟩

/-- **One event in its turn.** -/
theorem InOrder.turn {s s' : SharePriceFetcher} (h : s.InOrder) {e : PriceEvent}
    (hturn : s.turn e = some s') : s'.InOrder := by
  rw [SharePriceFetcher.turn] at hturn
  split at hturn
  · rename_i hin
    cases e with
    | request poolId now =>
      rw [SharePriceFetcher.step] at hturn
      split at hturn
      · cases hturn
      · rename_i hnow
        simp only at hturn
        split at hturn <;> exact Option.some.inj hturn ▸ h.tick (not_lt.1 hnow) _
    | answer k price now =>
      rw [SharePriceFetcher.step] at hturn
      split at hturn
      · cases hturn
      · rename_i hnow
        obtain ⟨fetch, hget, rfl⟩ := Option.map_eq_some_iff.1 hturn
        have htick := h.tick (not_lt.1 hnow) (s.fetching.eraseIdx k)
        cases price with
        | none => exact htick
        | some price => exact htick.handOver fetch (of_decide_eq_true hin)
    | insert k findFails upsertFails =>
      obtain ⟨c, hget, rfl⟩ := Option.map_eq_some_iff.1 hturn
      refine h.settle hget (fun b hb => ?_) findFails upsertFails
      rw [inTurn, hget] at hin
      exact of_decide_eq_true (List.all_eq_true.1 hin b hb)
  · cases hturn

/-- **The series of a pool token stays without jumps**, over every run that starts from such a
table: prices are positive, and two successive ones differ by less than a hundred percent an hour.
That is again what the next start needs. -/
theorem fetched_prices_never_jump {priceInfo : PriceTable} {now : ℤ} {s : SharePriceFetcher}
    (hstart : ∀ poolId, Calm (prices priceInfo poolId) (roundSec now))
    (h : ReachedBy turn (start priceInfo now) s) (poolId : ℕ) :
    Calm (prices s.priceInfo poolId) (roundSec s.clock) := by
  have hinOrder : s.InOrder := h.induction (inOrder_start hstart) fun _ _ _ hu hv => hu.turn hv
  exact hinOrder.calm_clock poolId

def afterOverlapInTurn : SharePriceFetcher :=
  (overlap.foldlM turn (start OrdMap.empty 0)).getD (start OrdMap.empty 0)

/-- The second of the prices is an outlier after the first. -/
theorem overlap_never_jumps :
    afterOverlapInTurn.priceInfo.entries = [((1, 1000), 1), ((1, 3603000), 2)] ∧
      Calm (prices afterOverlapInTurn.priceInfo 1) (roundSec afterOverlapInTurn.clock) :=
  ⟨by decide +kernel, fetched_prices_never_jump (fun _ => calm_of_empty (fun _ => rfl) _)
    (ReachedBy.getD overlap (by decide +kernel)) 1⟩

end SharePriceFetcher

end TraderBackend
