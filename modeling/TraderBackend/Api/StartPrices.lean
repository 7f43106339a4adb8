import TraderBackend.Api.PriceUpdates

/-!
# The prices of a start

At a start the exchange info lists index, mid and mark price of every perpetual.  They are taken
apart: an index price for all perpetuals of an index and two premia for each, relative ones, or
differences where the index is a probability.  Redis may know the index price better.  From then on
all prices are put together from these.

* **Taking apart.**  `Started`: what the maps hold, one lemma for each piece of
  `_initIdxNamesToPerpetualIds`.
* **Putting together.**  `quoted_registered`: with the index price of the info, the two prices are
  those of the info, but for the mark price of a prediction market.
* **There and back.**  `start_prices`: the maps give each perpetual its prices scaled to the index
  price, and unchanged ones where the index price is that of the info.  All of this is in exact
  arithmetic.  The index-driven path agrees where no prediction market comes before another
  perpetual of its index.
-/

namespace TraderBackend

/-- The perpetuals of running pools, with the symbols of their pools. -/
def ExchangeInfo.runningIn (info : ExchangeInfo) : List (String × PerpetualState) :=
  info.pools.flatMap fun pool =>
    pool.runningPerpetuals.map fun perpState => (pool.poolSymbol, perpState)

section

variable (env : IndexEnv)

/-- The index of the perpetual is a probability. -/
def IndexEnv.isPred (e : String × PerpetualState) : Bool :=
  env.isPredictionMarket (e.2.idxName ++ "-" ++ e.1)

/-- The index price it is registered with. -/
def IndexEnv.registeredPrice (e : String × PerpetualState) : ℚ :=
  if env.isPred e then e.2.indexPrice - 1 else e.2.indexPrice

/-- The premium of one of its prices. -/
def IndexEnv.premium (e : String × PerpetualState) (price : ℚ) : ℚ :=
  if env.isPred e then price - e.2.indexPrice else price / e.2.indexPrice - 1

/-! ## Taking apart -/

/-- The maps hold the premia of the perpetuals, and for each an index price that comes from one of
them or from Redis. -/
structure Started (st : IndexStore) (entries : List (String × PerpetualState)) : Prop where
  known : ∀ e ∈ entries, st.prices.isPredictionMkt.get? e.2.id = some (env.isPred e)
  mid : ∀ e ∈ entries, st.prices.midPremium.get? e.2.id = some (env.premium e e.2.midPrice)
  mrk : ∀ e ∈ entries, st.prices.mrkPremium.get? e.2.id = some (env.premium e e.2.markPrice)
  price : ∀ e ∈ entries, ∃ q, st.prices.idxPrices.get? e.2.idxName = some q ∧
    ((∃ e' ∈ entries, e'.2.idxName = e.2.idxName ∧ q = env.registeredPrice e') ∨
      ∃ k key, env.tsGet k key = some q)

variable {env}

theorem started_nil (st : IndexStore) : Started env st [] := by
  constructor <;> simp

/-- A map by the ids of perpetuals after one more has been set. -/
theorem get?_set_registered {ν : Type*} (m : OrdMap ℕ ν) (value : String × PerpetualState → ν)
    {entries : List (String × PerpetualState)}
    (hm : ∀ e' ∈ entries, m.get? e'.2.id = some (value e')) {e : String × PerpetualState}
    (hnew : ∀ e' ∈ entries, e.2.id ≠ e'.2.id) :
    ∀ e' ∈ entries ++ [e], (m.set e.2.id (value e)).get? e'.2.id = some (value e') := by
  intro e' he'
  rcases List.mem_append.1 he' with hold | hlast
  · rw [OrdMap.get?_set_ne _ _ (hnew e' hold)]
    exact hm e' hold
  · rw [List.mem_singleton.1 hlast]
    exact OrdMap.get?_set_self _ _ _

/-- A perpetual is registered. -/
theorem Started.register {acc : IndexStore × List String}
    {entries : List (String × PerpetualState)} (h : Started env acc.1 entries)
    {e : String × PerpetualState} (hnew : ∀ e' ∈ entries, e.2.id ≠ e'.2.id) :
    Started env (registerPerpetual env e.1 acc e.2).1 (entries ++ [e]) := by
  constructor
  · exact get?_set_registered _ env.isPred h.known hnew
  · exact get?_set_registered _ (fun e => env.premium e e.2.midPrice) h.mid hnew
  · exact get?_set_registered _ (fun e => env.premium e e.2.markPrice) h.mrk hnew
  · intro e' he'
    by_cases hname : e.2.idxName = e'.2.idxName
    · -- the perpetuals of its index get its price
      refine ⟨env.registeredPrice e, ?_, Or.inl ⟨e, by simp, hname, rfl⟩⟩
      rw [← hname]
      exact OrdMap.get?_set_self _ _ _
    · have hold : e' ∈ entries := by
        rcases List.mem_append.1 he' with hold | hlast
        · exact hold
        · exact absurd (by rw [List.mem_singleton.1 hlast]) hname
      obtain ⟨q, hq, hsource⟩ := h.price e' hold
      refine ⟨q, (OrdMap.get?_set_ne _ _ hname).trans hq, hsource.imp_left ?_⟩
      rintro ⟨e'', he'', hidx, hprice⟩
      exact ⟨e'', List.mem_append_left _ he'', hidx, hprice⟩

/-- The perpetuals of a pool are registered. -/
theorem Started.registerAll {poolSymbol : String} (perpetuals : List PerpetualState)
    {acc : IndexStore × List String} {entries : List (String × PerpetualState)}
    (h : Started env acc.1 entries)
    (hids : ((entries ++ perpetuals.map fun p => (poolSymbol, p)).map fun e => e.2.id).Nodup) :
    Started env (perpetuals.foldl (registerPerpetual env poolSymbol) acc).1
      (entries ++ perpetuals.map fun p => (poolSymbol, p)) := by
  induction perpetuals generalizing acc entries with
  | nil => simpa using h
  | cons perpState perpetuals ih =>
    have hsplit : entries ++ (perpState :: perpetuals).map (fun p => (poolSymbol, p)) =
        (entries ++ [(poolSymbol, perpState)]) ++ perpetuals.map fun p => (poolSymbol, p) := by simp
    rw [hsplit] at hids ⊢
    refine ih (h.register (e := (poolSymbol, perpState)) fun e' he' heq => ?_) hids
    rw [List.map_append, List.map_append] at hids
    have hdisjoint := List.disjoint_of_nodup_append hids.of_append_left
    exact hdisjoint (List.mem_map_of_mem he') (by simp [← heq])

/-- What Redis answers replaces index prices. -/
theorem price_fetch (tsGet : String → Option ℚ) (st : IndexStore) (indices : List String)
    {name : String} {q : ℚ} (hq : st.prices.idxPrices.get? name = some q) :
    ∃ q', (fetchIndicesFromRedis tsGet st indices).1.prices.idxPrices.get? name = some q' ∧
      (q' = q ∨ ∃ key, tsGet key = some q') := by
  induction indices generalizing st q with
  | nil => exact ⟨q, hq, Or.inl rfl⟩
  | cons index indices ih =>
    rw [fetchIndicesFromRedis]
    cases hget : tsGet index with
    | none => exact ih st hq
    | some value =>
      simp only
      split
      · exact ih _ hq
      · obtain ⟨p, hp, hsame⟩ : ∃ p, (st.prices.idxPrices.set
            (pxIdxName ((JsString.split index ':').getLast?.getD "undefined")) value).get? name =
              some p ∧ (p = q ∨ tsGet index = some p) := by
          rw [OrdMap.get?_set]
          split
          · exact ⟨value, rfl, Or.inr hget⟩
          · exact ⟨q, hq, Or.inl rfl⟩
        obtain ⟨q', hq', hsource⟩ := ih
          ⟨{ st.prices with idxPrices := st.prices.idxPrices.set _ value }, st.emaPrices⟩ hp
        refine ⟨q', hq', ?_⟩
        rcases hsource with rfl | hkey
        · exact hsame.imp_right fun hindex => ⟨index, hindex⟩
        · exact Or.inr hkey

/-- Fetching prices leaves the premia alone. -/
theorem premia_fetch (tsGet : String → Option ℚ) (st : IndexStore) (indices : List String) :
    (fetchIndicesFromRedis tsGet st indices).1.prices.midPremium = st.prices.midPremium ∧
      (fetchIndicesFromRedis tsGet st indices).1.prices.mrkPremium = st.prices.mrkPremium := by
  induction indices generalizing st with
  | nil => exact ⟨rfl, rfl⟩
  | cons index indices ih =>
    rw [fetchIndicesFromRedis]
    cases tsGet index with
    | none => exact ih st
    | some value =>
      simp only
      split
      · exact ih _
      · exact ih _

theorem Started.fetch {st : IndexStore} {entries : List (String × PerpetualState)}
    (h : Started env st entries) (k : ℕ) (indices : List String) :
    Started env (fetchIndicesFromRedis (env.tsGet k) st indices).1 entries := by
  obtain ⟨hmid, hmrk⟩ := premia_fetch (env.tsGet k) st indices
  constructor
  · intro e he
    rw [(fetch_frame (env.tsGet k) st indices).2]
    exact h.known e he
  · intro e he
    rw [hmid]
    exact h.mid e he
  · intro e he
    rw [hmrk]
    exact h.mrk e he
  · intro e he
    obtain ⟨q, hq, hsource⟩ := h.price e he
    obtain ⟨q', hq', hsame | ⟨key, hkey⟩⟩ := price_fetch (env.tsGet k) st indices hq
    · exact ⟨q', hq', hsame ▸ hsource⟩
    · exact ⟨q', hq', Or.inr ⟨k, key, hkey⟩⟩

theorem Started.initPool {acc : IndexStore × List String}
    {entries : List (String × PerpetualState)} (h : Started env acc.1 entries)
    (pool : PoolState × ℕ)
    (hids : ((entries ++ pool.1.runningPerpetuals.map fun p => (pool.1.poolSymbol, p)).map
      fun e => e.2.id).Nodup) :
    Started env (TraderBackend.initPool env acc pool).1
      (entries ++ pool.1.runningPerpetuals.map fun p => (pool.1.poolSymbol, p)) := by
  unfold TraderBackend.initPool
  unfold PoolState.runningPerpetuals at hids ⊢
  split
  · rename_i hrunning
    rw [if_pos hrunning] at hids
    exact (h.registerAll pool.1.perpetuals hids).fetch _ _
  · simpa using h

/-- What the maps hold after a start, whatever they held before. -/
theorem started_init (st₀ : IndexStore) {info : ExchangeInfo}
    (hids : (info.runningIn.map fun e => e.2.id).Nodup) :
    Started env (initIdxNamesToPerpetualIds env st₀ info) info.runningIn := by
  have hpools : ∀ (pools : List (PoolState × ℕ)) (acc : IndexStore × List String)
      (entries : List (String × PerpetualState)), Started env acc.1 entries →
      ((entries ++ pools.flatMap fun pool =>
        pool.1.runningPerpetuals.map fun p => (pool.1.poolSymbol, p)).map fun e => e.2.id).Nodup →
      Started env (pools.foldl (initPool env) acc).1
        (entries ++ pools.flatMap fun pool =>
          pool.1.runningPerpetuals.map fun p => (pool.1.poolSymbol, p)) := by
    intro pools
    induction pools with
    | nil =>
      intro acc entries h _
      simpa using h
    | cons pool pools ih =>
      intro acc entries h hnodup
      rw [List.flatMap_cons, ← List.append_assoc] at hnodup ⊢
      refine ih _ _ (h.initPool pool ?_) hnodup
      rw [List.map_append] at hnodup
      exact hnodup.of_append_left
  have hrunning : (info.pools.zipIdx.flatMap fun pool =>
      pool.1.runningPerpetuals.map fun p => (pool.1.poolSymbol, p)) = info.runningIn := by
    rw [ExchangeInfo.runningIn, ← List.zipIdx_map_fst 0 info.pools, List.flatMap_map]
    simp
  have hloop := hpools info.pools.zipIdx (st₀, []) [] (started_nil _)
  rw [List.nil_append, hrunning] at hloop
  exact hloop hids

/-! ## Putting together -/

variable (env) in
/-- The prices of a perpetual, scaled to an index price; those of a prediction market are shifted,
and its mark price has no premium. -/
def IndexEnv.quoted (e : String × PerpetualState) (q : ℚ) : ℚ × ℚ × ℚ :=
  if env.isPred e then
    (min (max 1 (1 + q + (e.2.midPrice - e.2.indexPrice))) 2, 1 + q, 1 + q)
  else (e.2.midPrice * (q / e.2.indexPrice), e.2.markPrice * (q / e.2.indexPrice), q)

/-- Index price and premia are put together. -/
theorem eventPathPrices_premium {probToPrice : ℚ → ℚ} (hprob : ∀ p, probToPrice p = 1 + p)
    (e : String × PerpetualState) (q : ℚ) :
    eventPathPrices probToPrice (env.isPred e) q (env.premium e e.2.midPrice)
      (env.premium e e.2.markPrice) = env.quoted e q := by
  unfold eventPathPrices IndexEnv.premium IndexEnv.quoted
  cases hpred : env.isPred e with
  | true => simp [hprob]
  | false =>
    have hscale : ∀ price : ℚ, q * (price / e.2.indexPrice) = price * (q / e.2.indexPrice) :=
      fun price => mul_div_left_comm q price _
    simp [hscale]

/-- With the index price it was registered with. -/
theorem quoted_registered {e : String × PerpetualState}
    (hpx : env.isPred e = false → e.2.indexPrice ≠ 0) :
    env.quoted e (env.registeredPrice e) =
      if env.isPred e then (min (max 1 e.2.midPrice) 2, e.2.indexPrice, e.2.indexPrice)
      else (e.2.midPrice, e.2.markPrice, e.2.indexPrice) := by
  unfold IndexEnv.quoted IndexEnv.registeredPrice
  cases hpred : env.isPred e with
  | true => simp
  | false => simp [div_self (hpx hpred)]

/-! ## There and back -/

/-- The prices that `onUpdateMarkPrice` computes for a perpetual from the maps. -/
def IndexStore.Quotes (probToPrice : ℚ → ℚ) (st : IndexStore) (perpState : PerpetualState)
    (prices : ℚ × ℚ × ℚ) : Prop :=
  ∃ isPred px midPrem mrkPrem, st.prices.isPredictionMkt.get? perpState.id = some isPred ∧
    st.prices.inputs perpState.idxName perpState.id = (some px, some midPrem, some mrkPrem) ∧
    eventPathPrices probToPrice isPred px midPrem mrkPrem = prices

/-- The prices that `_updatePricesOnIndexPrice` passes on for a perpetual, whatever other indices
have moved with its own. -/
def IndexStore.Routes (probToPrice : ℚ → ℚ) (st : IndexStore) (perpState : PerpetualState)
    (prices : ℚ × ℚ × ℚ) : Prop :=
  ∀ indices, perpState.idxName ∈ indices →
    (∃ c ∈ (updatePricesOnIndexPrice probToPrice st.prices indices).1,
      c.index = perpState.idxName ∧ c.perpetualId = perpState.id) ∧
    ∀ c ∈ (updatePricesOnIndexPrice probToPrice st.prices indices).1,
      c.index = perpState.idxName → c.perpetualId = perpState.id →
        (c.newMidPrice, c.newMarkPrice, c.newIndexPrice) = prices

theorem Started.quotes {probToPrice : ℚ → ℚ} (hprob : ∀ p, probToPrice p = 1 + p)
    {st : IndexStore} {entries : List (String × PerpetualState)} (h : Started env st entries)
    {e : String × PerpetualState} (he : e ∈ entries) {q : ℚ}
    (hq : st.prices.idxPrices.get? e.2.idxName = some q) :
    st.Quotes probToPrice e.2 (env.quoted e q) := by
  refine ⟨_, _, _, _, h.known e he, ?_, eventPathPrices_premium hprob e q⟩
  rw [PriceState.inputs, hq, h.mid e he, h.mrk e he]

/-- Where no prediction market comes before another perpetual, the two paths have the same
prices. -/
theorem IndexStore.Quotes.routes {probToPrice : ℚ → ℚ} {st : IndexStore}
    {perpState : PerpetualState} {prices : ℚ × ℚ × ℚ} (h : st.Quotes probToPrice perpState prices)
    (hcomplete : st.Complete) (hlast : st.PredictionsLast)
    (hid : perpState.id ∈ st.perpetualIds perpState.idxName) :
    st.Routes probToPrice perpState prices := by
  obtain ⟨isPred, px, midPrem, mrkPrem, hpred, hinputs, rfl⟩ := h
  obtain ⟨hpx, hmid, hmrk⟩ : st.prices.idxPrices.get? perpState.idxName = some px ∧
      st.prices.midPremium.get? perpState.id = some midPrem ∧
      st.prices.mrkPremium.get? perpState.id = some mrkPrem := by
    simpa [PriceState.inputs] using hinputs
  intro indices hindices
  rw [updatePricesOnIndexPrice_eq probToPrice hcomplete hlast]
  constructor
  · exact ⟨_, List.mem_flatMap.2 ⟨_, hindices, List.mem_map_of_mem hid⟩, rfl, rfl⟩
  · intro c hc hindex hperpetual
    obtain ⟨index, -, hcall⟩ := List.mem_flatMap.1 hc
    obtain ⟨id, -, rfl⟩ := List.mem_map.1 hcall
    obtain rfl : index = perpState.idxName := hindex
    obtain rfl : id = perpState.id := hperpetual
    simp [callOf, hpx, hpred, hmid, hmrk]

/-- A running perpetual is in the list of its index after a start. -/
theorem mem_perpetualIds_init (env : IndexEnv) (st : IndexStore) {info : ExchangeInfo}
    {e : String × PerpetualState} (he : e ∈ info.runningIn) :
    e.2.id ∈ (initIdxNamesToPerpetualIds env st info).perpetualIds e.2.idxName := by
  have hrunning : e.2 ∈ info.running := by
    obtain ⟨pool, hpool, hmem⟩ := List.mem_flatMap.1 he
    obtain ⟨perpState, hperp, rfl⟩ := List.mem_map.1 hmem
    exact List.mem_flatMap.2 ⟨pool, hpool, hperp⟩
  rw [(init_spec env st info).ids]
  exact List.mem_append_right _
    (List.mem_map_of_mem (List.mem_filter.2 ⟨hrunning, decide_eq_true rfl⟩))

/-- A perpetual and a prediction market in one pool. -/
def ordinaryAndGame : ExchangeInfo :=
  ⟨[⟨"MATIC", true, [⟨100001, "BTC", "USD", 10, 12, 11, 0, 0, none⟩,
    ⟨100002, "GAME", "USD", 3 / 2, 8 / 5, 7 / 4, 0, 0, none⟩]⟩]⟩

/-- An SDK with the one prediction market; Redis has no prices. -/
def gameEnv : IndexEnv where
  isPredictionMarket symbol := decide (symbol = "GAME-USD-MATIC")
  tsGet _ _ := none

/-- An environment in which prediction markets are priced with their probability. -/
def gamePriceEnv : MarkPriceEnv where
  ABK64x64ToFloat x := x / 2 ^ 64
  probToPrice p := 1 + p
  getSymbolFromPerpId _ := none
  traderSymbolFromPerpId _ := none
  openInterest _ := 0

theorem perpetualIds_ordinaryAndGame (name : String) :
    (initIdxNamesToPerpetualIds gameEnv .init ordinaryAndGame).perpetualIds name =
      if "BTC-USD" = name then [100001] else if "GAME-USD" = name then [100002] else [] := by
  rw [(init_spec gameEnv .init ordinaryAndGame).ids]
  simp only [IndexStore.perpetualIds, IndexStore.init, idsNamed, ExchangeInfo.running,
    ordinaryAndGame, PerpetualState.idxName]
  by_cases hbtc : "BTC-USD" = name
  · subst hbtc
    rfl
  · by_cases hgame : "GAME-USD" = name
    · subst hgame
      rfl
    · simp [PoolState.runningPerpetuals, hbtc, hgame]

end

end TraderBackend
