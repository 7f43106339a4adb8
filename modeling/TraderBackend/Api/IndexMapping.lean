import TraderBackend.Api.ExchangeInfo
import TraderBackend.Api.MarkPrice

/-!
# Which perpetuals an index prices

`_initIdxNamesToPerpetualIds` reads the exchange info at every attempt to start and
fills the maps of `IndexPriceInterface` from its running pools.

* **Filling the maps.**  `registerPerpetual`, `fetchIndicesFromRedis`, `initPool`,
  `initIdxNamesToPerpetualIds`.
* **The lists of an index.**  `initAll_spec`: every run appends to them.
  `index_mapping_exact_iff`: after several runs the lists are those of the last info
  **if and only if** no earlier one had a perpetual in a running pool and the last
  one names none twice.
* **Who is known.**  By `initAll_spec` the perpetuals of running pools.
  `listed_never_exits_iff`: once started, `onUpdateMarkPrice` does not leave the
  process for a listed perpetual **if and only if** each listed one was in a running
  pool at some attempt.
-/

namespace TraderBackend

open JsString (split)

/-- The maps of `IndexPriceInterface`. -/
structure IndexStore where
  prices : PriceState
  emaPrices : OrdMap String ℚ

/-- The maps of a fresh object. -/
def IndexStore.init : IndexStore where
  prices := ⟨OrdMap.empty, OrdMap.empty, OrdMap.empty, OrdMap.empty, OrdMap.empty⟩
  emaPrices := OrdMap.empty

/-! ## Filling the maps -/

/-- The name of the index a perpetual is priced by. -/
def PerpetualState.idxName (perpState : PerpetualState) : String :=
  perpState.baseCurrency ++ "-" ++ perpState.quoteCurrency

/-- `fetchIndicesFromRedis`: the maps, and the names of the indices whose price was there.
`tsGet` is the value Redis has for a key, if it has one and answers. -/
def fetchIndicesFromRedis (tsGet : String → Option ℚ) (st : IndexStore) :
    List String → IndexStore × List String
  | [] => (st, [])
  | index :: indices =>
      match tsGet index with
      | none => fetchIndicesFromRedis tsGet st indices
      | some value =>
          let rawSymbol := ((split index ':').getLast?).getD "undefined"
          let markSplit := split rawSymbol '|'
          if markSplit.length = 2 then
            -- the first two parts of the symbol, as in the event handler
            let idxSym := pxIdxName (markSplit[0]?.getD "undefined")
            fetchIndicesFromRedis tsGet { st with emaPrices := st.emaPrices.set idxSym value }
              indices
          else
            let symbol := pxIdxName rawSymbol
            let prices := { st.prices with idxPrices := st.prices.idxPrices.set symbol value }
            let rest := fetchIndicesFromRedis tsGet { st with prices := prices } indices
            (rest.1, symbol :: rest.2)

/-- What an initialization asks of the SDK and of Redis, which is asked again after every
pool. -/
structure IndexEnv where
  isPredictionMarket : String → Bool
  tsGet : ℕ → String → Option ℚ

variable (env : IndexEnv)

/-- The body of the loop over the perpetuals of a pool: the maps and the indices gathered so
far. -/
def registerPerpetual (poolSymbol : String) (acc : IndexStore × List String)
    (perpState : PerpetualState) : IndexStore × List String :=
  let perpId := perpState.id
  let pxIdxName := perpState.idxName
  let prices := acc.1.prices
  let idxs :=
    match prices.idxNamesToPerpetualIds.get? pxIdxName with
    | none => [perpId]
    | some idxs => idxs ++ [perpId]
  let px := perpState.indexPrice
  let isPred := env.isPredictionMarket (pxIdxName ++ "-" ++ poolSymbol)
  let prices :=
    { idxNamesToPerpetualIds := prices.idxNamesToPerpetualIds.set pxIdxName idxs
      -- a prediction market's price is stored as a probability, its premia are additive
      idxPrices := prices.idxPrices.set pxIdxName (if isPred then px - 1 else px)
      mrkPremium := prices.mrkPremium.set perpId
        (if isPred then perpState.markPrice - px else perpState.markPrice / px - 1)
      midPremium := prices.midPremium.set perpId
        (if isPred then perpState.midPrice - px else perpState.midPrice / px - 1)
      isPredictionMkt := prices.isPredictionMkt.set perpId isPred }
  ({ acc.1 with prices := prices },
    acc.2 ++ if isPred then ["sport:" ++ pxIdxName, "sport:" ++ pxIdxName ++ "|mark"]
      else [pxIdxName])

/-- The body of the loop over the pools. -/
def initPool (acc : IndexStore × List String) (pool : PoolState × ℕ) : IndexStore × List String :=
  if pool.1.isRunning then
    let acc := pool.1.perpetuals.foldl (registerPerpetual env pool.1.poolSymbol) acc
    -- the indices of the pools before are fetched once more
    ((fetchIndicesFromRedis (env.tsGet pool.2) acc.1 acc.2).1, acc.2)
  else acc

/-- `_initIdxNamesToPerpetualIds`. -/
def initIdxNamesToPerpetualIds (st : IndexStore) (info : ExchangeInfo) : IndexStore :=
  (info.pools.zipIdx.foldl (initPool env) (st, [])).1

/-- Several runs on one object, each with its own answers. -/
def initAll (st : IndexStore) (runs : List (IndexEnv × ExchangeInfo)) : IndexStore :=
  runs.foldl (fun st run => initIdxNamesToPerpetualIds run.1 st run.2) st

/-- The perpetuals a pool adds. -/
def PoolState.runningPerpetuals (pool : PoolState) : List PerpetualState :=
  if pool.isRunning then pool.perpetuals else []

/-- The perpetuals of running pools. -/
def ExchangeInfo.running (info : ExchangeInfo) : List PerpetualState :=
  info.pools.flatMap PoolState.runningPerpetuals

/-- All perpetuals. -/
def ExchangeInfo.listed (info : ExchangeInfo) : List PerpetualState :=
  info.pools.flatMap PoolState.perpetuals

/-- The perpetuals of a list an index prices. -/
def idsNamed (perpetuals : List PerpetualState) (name : String) : List ℕ :=
  (perpetuals.filter fun perpState => decide (perpState.idxName = name)).map PerpetualState.id

/-- The list of an index, empty if there is none. -/
def IndexStore.perpetualIds (st : IndexStore) (name : String) : List ℕ :=
  (st.prices.idxNamesToPerpetualIds.get? name).getD []

/-- The perpetual has an entry in `isPredictionMkt`. -/
def IndexStore.knows (st : IndexStore) (perpetualId : ℕ) : Bool :=
  (st.prices.isPredictionMkt.get? perpetualId).isSome

/-! ## The lists of an index -/

/-- Fetching prices leaves the other maps alone. -/
theorem fetch_frame (tsGet : String → Option ℚ) (st : IndexStore) (indices : List String) :
    (fetchIndicesFromRedis tsGet st indices).1.prices.idxNamesToPerpetualIds =
        st.prices.idxNamesToPerpetualIds ∧
      (fetchIndicesFromRedis tsGet st indices).1.prices.isPredictionMkt =
        st.prices.isPredictionMkt := by
  induction indices generalizing st with
  | nil => exact ⟨rfl, rfl⟩
  | cons index indices ih =>
    rw [fetchIndicesFromRedis]
    cases tsGet index with
    | none => exact ih st
    | some value =>
      simp only
      split
      · exact ih _
      · exact ih _

theorem idsNamed_append (perpetuals perpetuals' : List PerpetualState) (name : String) :
    idsNamed (perpetuals ++ perpetuals') name =
      idsNamed perpetuals name ++ idsNamed perpetuals' name := by
  simp [idsNamed]

/-- From one store to the other the perpetuals are appended to the lists of their indices, and are
known from then on. -/
structure Registers (st st' : IndexStore) (perpetuals : List PerpetualState) : Prop where
  ids : ∀ name, st'.perpetualIds name = st.perpetualIds name ++ idsNamed perpetuals name
  known : ∀ id, st'.knows id =
    (st.knows id || perpetuals.any fun perpState => decide (perpState.id = id))

theorem Registers.refl (st : IndexStore) : Registers st st [] where
  ids := by simp [idsNamed]
  known := by simp

theorem Registers.trans {st st' st'' : IndexStore} {perpetuals perpetuals' : List PerpetualState}
    (h : Registers st st' perpetuals) (h' : Registers st' st'' perpetuals') :
    Registers st st'' (perpetuals ++ perpetuals') where
  ids name := by rw [h'.ids, h.ids, List.append_assoc, idsNamed_append]
  known id := by rw [h'.known, h.known, List.any_append, Bool.or_assoc]

/-- A loop registers what its turns register. -/
theorem Registers.foldl {α β : Type*} (store : β → IndexStore) {f : β → α → β}
    {adds : α → List PerpetualState}
    (hturn : ∀ acc x, Registers (store acc) (store (f acc x)) (adds x)) (l : List α) (acc : β) :
    Registers (store acc) (store (l.foldl f acc)) (l.flatMap adds) := by
  induction l generalizing acc with
  | nil => exact Registers.refl _
  | cons x l ih => exact (hturn acc x).trans (ih (f acc x))

/-- A perpetual is added to the list of its index, and is known from then on. -/
theorem register_spec (poolSymbol : String) (acc : IndexStore × List String)
    (perpState : PerpetualState) :
    Registers acc.1 (registerPerpetual env poolSymbol acc perpState).1 [perpState] := by
  constructor
  · intro name
    simp only [IndexStore.perpetualIds, registerPerpetual, OrdMap.get?_set, idsNamed]
    by_cases hname : perpState.idxName = name
    · subst hname
      cases acc.1.prices.idxNamesToPerpetualIds.get? perpState.idxName <;> simp
    · simp [hname]
  · intro id
    simp only [IndexStore.knows, registerPerpetual, OrdMap.get?_set]
    by_cases hid : perpState.id = id <;> simp [hid]

theorem registerAll_spec (poolSymbol : String) (perpetuals : List PerpetualState)
    (acc : IndexStore × List String) :
    Registers acc.1 (perpetuals.foldl (registerPerpetual env poolSymbol) acc).1 perpetuals := by
  have hloop := Registers.foldl Prod.fst (register_spec env poolSymbol) perpetuals acc
  rwa [List.flatMap_singleton'] at hloop

theorem initPool_spec (acc : IndexStore × List String) (pool : PoolState × ℕ) :
    Registers acc.1 (initPool env acc pool).1 pool.1.runningPerpetuals := by
  rw [initPool, PoolState.runningPerpetuals]
  split
  · have hpool := registerAll_spec env pool.1.poolSymbol pool.1.perpetuals acc
    constructor
    · intro name
      rw [← hpool.ids, IndexStore.perpetualIds, IndexStore.perpetualIds, (fetch_frame _ _ _).1]
    · intro id
      rw [← hpool.known, IndexStore.knows, IndexStore.knows, (fetch_frame _ _ _).2]
  · exact Registers.refl _

/-- One run: it appends to the lists, and the perpetuals of running pools are known. -/
theorem init_spec (st : IndexStore) (info : ExchangeInfo) :
    Registers st (initIdxNamesToPerpetualIds env st info) info.running := by
  have hrunning : (info.pools.zipIdx.flatMap fun pool => pool.1.runningPerpetuals) =
      info.running := by
    rw [ExchangeInfo.running, ← List.flatMap_map Prod.fst, List.zipIdx_map_fst]
  have hloop := Registers.foldl Prod.fst (initPool_spec env) info.pools.zipIdx (st, [])
  rwa [hrunning] at hloop

/-- Several runs. -/
theorem initAll_spec (st : IndexStore) (runs : List (IndexEnv × ExchangeInfo)) :
    Registers st (initAll st runs) (runs.flatMap fun run => run.2.running) :=
  Registers.foldl (fun st => st) (fun st run => init_spec run.1 st run.2) runs st

/-- **When the mapping is that of the last info.**  After runs on one fresh object each index
names exactly the perpetuals of the last info's running pools it prices, each once, if and only
if no info before had a perpetual in a running pool, and the last one names no perpetual twice
for one index. -/
theorem index_mapping_exact_iff (runs : List (IndexEnv × ExchangeInfo)) (last : ExchangeInfo) :
    (∀ name, ((initAll .init (runs ++ [(env, last)])).perpetualIds name).Nodup ∧
        ∀ id, id ∈ (initAll .init (runs ++ [(env, last)])).perpetualIds name ↔
          ∃ perpState ∈ last.running, perpState.idxName = name ∧ perpState.id = id) ↔
      (∀ run ∈ runs, run.2.running = []) ∧ ∀ name, (idsNamed last.running name).Nodup := by
  have hids : ∀ name, (initAll .init (runs ++ [(env, last)])).perpetualIds name =
      idsNamed (runs.flatMap fun run => run.2.running) name ++ idsNamed last.running name := by
    intro name
    rw [(initAll_spec _ _).ids, List.flatMap_append, idsNamed_append]
    simp [IndexStore.perpetualIds, IndexStore.init]
  have hmem : ∀ perpetuals name id, id ∈ idsNamed perpetuals name ↔
      ∃ perpState ∈ perpetuals, perpState.idxName = name ∧ perpState.id = id := by
    intro perpetuals name id
    simp [idsNamed, and_assoc]
  constructor
  · intro hexact
    constructor
    · intro run hrun
      rw [List.eq_nil_iff_forall_not_mem]
      intro perpState hperp
      -- an earlier entry would have to be one of the last info's, and so be there twice
      have hearlier : perpState.id ∈
          idsNamed (runs.flatMap fun run => run.2.running) perpState.idxName :=
        (hmem _ _ _).2 ⟨perpState, List.mem_flatMap.2 ⟨run, hrun, hperp⟩, rfl, rfl⟩
      obtain ⟨hnodup, hin⟩ := hexact perpState.idxName
      rw [hids] at hnodup hin
      have hlast := (hmem _ _ _).2 ((hin perpState.id).1 (List.mem_append_left _ hearlier))
      exact List.disjoint_of_nodup_append hnodup hearlier hlast
    · intro name
      have hnodup := (hexact name).1
      rw [hids] at hnodup
      exact hnodup.of_append_right
  · rintro ⟨hearlier, hlast⟩ name
    have hnone : (runs.flatMap fun run => run.2.running) = [] := List.flatMap_eq_nil_iff.2 hearlier
    rw [hids, hnone]
    refine ⟨by simpa [idsNamed] using hlast name, fun id => ?_⟩
    simpa [idsNamed] using hmem _ name id

/-- One running pool with one perpetual. -/
def onePool : ExchangeInfo :=
  ⟨[⟨"MATIC", true, [⟨100001, "BTC", "USD", 10, 10, 10, 1, 5, some 5⟩]⟩]⟩

/-- No prediction markets, and no prices in Redis. -/
def plainIndexEnv : IndexEnv := ⟨fun _ => false, fun _ _ => none⟩

/-- A second attempt to start registers the perpetual again. -/
theorem secondAttempt_repeats :
    (initAll .init [(plainIndexEnv, onePool), (plainIndexEnv, onePool)]).perpetualIds "BTC-USD" =
      [100001, 100001] := by
  decide

/-! ## Who is known -/

/-- The listener's maps, those of the event handler and the moving averages. -/
structure PriceListener where
  listener : MarkPriceListener
  emaPrices : OrdMap String ℚ

/-- The maps of `IndexPriceInterface`. -/
def PriceListener.store (s : PriceListener) : IndexStore := ⟨s.listener.prices, s.emaPrices⟩

def PriceListener.setStore (s : PriceListener) (st : IndexStore) : PriceListener where
  listener := { s.listener with prices := st.prices }
  emaPrices := st.emaPrices

/-- A fresh listener. -/
def PriceListener.fresh : PriceListener where
  listener := ⟨false, IndexStore.init.prices, OrdMap.empty, EventControl.init⟩
  emaPrices := OrdMap.empty

/-- `isMappingRecent`: whether `getShortSymbol` throws is asked for the names of an empty list
only. -/
def isMappingRecent (getShortSymbolThrows : String → Bool) (indices : List String) : Bool :=
  if 0 < indices.length then true else !indices.any getShortSymbolThrows

/-- No list of names makes the mapping stale: an empty one is asked nothing, and another one is not
asked. -/
theorem isMappingRecent_eq (getShortSymbolThrows : String → Bool) (indices : List String) :
    isMappingRecent getShortSymbolThrows indices = true := by
  cases indices <;> simp [isMappingRecent]

/-- What happens to the maps. -/
inductive PriceInput where
  /-- `priceInterfaceInitialize` in an attempt to start. -/
  | startUp (run : IndexEnv × ExchangeInfo)
  /-- The end of `initialize`, with the funding rates `_update` has set. -/
  | initialized (fundingRate : OrdMap ℕ ℚ)
  | markPrice (e : UpdateMarkPrice)
  /-- A message on `px_update`, and what a refresh of the index names would be told. -/
  | feed (message : String) (tsGet : String → Option ℚ) (getShortSymbolThrows : String → Bool)
      (refreshed : IndexEnv × ExchangeInfo)

/-- `_onRedisFeedHandlerMsg` up to the prices it sends. -/
def onRedisFeedHandlerMsg (st : IndexStore) (message : String) (tsGet : String → Option ℚ)
    (getShortSymbolThrows : String → Bool) (refreshed : IndexEnv × ExchangeInfo) :
    IndexStore × List String :=
  let indices := split message ';'
  let fetched := fetchIndicesFromRedis tsGet st indices
  if isMappingRecent getShortSymbolThrows fetched.2 then fetched
  else (initIdxNamesToPerpetualIds refreshed.1 fetched.1 refreshed.2, fetched.2)

/-- One input. -/
def PriceListener.step (markEnv : MarkPriceEnv) (s : PriceListener) : PriceInput → PriceListener
  | .startUp run => s.setStore (initIdxNamesToPerpetualIds run.1 s.store run.2)
  | .initialized fundingRate =>
      { s with listener := { s.listener with isInitialized := true, fundingRate := fundingRate } }
  | .markPrice e => { s with listener := (onUpdateMarkPrice markEnv s.listener e).1 }
  | .feed message tsGet getShortSymbolThrows refreshed =>
      s.setStore (onRedisFeedHandlerMsg s.store message tsGet getShortSymbolThrows refreshed).1

/-- A sequence of inputs. -/
def PriceListener.run (markEnv : MarkPriceEnv) (s : PriceListener) (inputs : List PriceInput) :
    PriceListener :=
  inputs.foldl (PriceListener.step markEnv) s

/-- The runs of `_initIdxNamesToPerpetualIds` among the inputs. -/
def startUps (inputs : List PriceInput) : List (IndexEnv × ExchangeInfo) :=
  inputs.filterMap fun input =>
    match input with
    | .startUp run => some run
    | _ => none

/-- The mapping always counts as recent, so no message refreshes it. -/
theorem feed_frame (st : IndexStore) (message : String) (tsGet : String → Option ℚ)
    (getShortSymbolThrows : String → Bool) (refreshed : IndexEnv × ExchangeInfo) :
    (onRedisFeedHandlerMsg st message tsGet getShortSymbolThrows
        refreshed).1.prices.isPredictionMkt = st.prices.isPredictionMkt := by
  rw [onRedisFeedHandlerMsg, isMappingRecent_eq, if_pos rfl]
  exact (fetch_frame _ _ _).2

/-- The event handler leaves `isPredictionMkt` alone. -/
theorem onUpdateMarkPrice_frame (markEnv : MarkPriceEnv) (s : MarkPriceListener)
    (e : UpdateMarkPrice) :
    (onUpdateMarkPrice markEnv s e).1.prices.isPredictionMkt = s.prices.isPredictionMkt := by
  unfold onUpdateMarkPrice
  split
  · split
    · rfl
    · split
      · rfl
      · dsimp only
        split
        · rfl
        · split <;> rfl
  · rfl

/-- The handler leaves the process exactly for perpetuals that are not known. -/
theorem exit_iff {markEnv : MarkPriceEnv} {s : MarkPriceListener} (hinit : s.isInitialized = true)
    (e : UpdateMarkPrice) :
    (onUpdateMarkPrice markEnv s e).2 = .exit ↔
      s.prices.isPredictionMkt.get? e.perpetualId = none := by
  rw [onUpdateMarkPrice, if_pos hinit]
  cases s.prices.isPredictionMkt.get? e.perpetualId with
  | none => simp
  | some isPred =>
    simp only [reduceCtorEq, iff_false]
    split
    · simp
    · split
      · simp
      · split <;> simp

/-- What is known along a run: the perpetuals that were in a running pool at a start. -/
theorem knows_run (markEnv : MarkPriceEnv) (s : PriceListener) (inputs : List PriceInput) (id : ℕ) :
    (s.run markEnv inputs).store.knows id = (s.store.knows id ||
      ((startUps inputs).flatMap fun run => run.2.running).any
        fun perpState => decide (perpState.id = id)) := by
  induction inputs generalizing s with
  | nil => simp [PriceListener.run, startUps]
  | cons input inputs ih =>
    have hrest := ih (s.step markEnv input)
    rw [PriceListener.run, List.foldl_cons]
    rw [PriceListener.run] at hrest
    rw [hrest]
    cases input with
    | startUp run =>
      have hknown := (init_spec run.1 s.store run.2).known id
      have hstep : (s.step markEnv (.startUp run)).store =
          initIdxNamesToPerpetualIds run.1 s.store run.2 := rfl
      have hruns : startUps (.startUp run :: inputs) = run :: startUps inputs := rfl
      rw [hstep, hknown, hruns, List.flatMap_cons, List.any_append, Bool.or_assoc]
    | initialized fundingRate => rfl
    | markPrice e =>
      have hframe := onUpdateMarkPrice_frame markEnv s.listener e
      have hstep : (s.step markEnv (.markPrice e)).store.knows id = s.store.knows id := by
        simp only [IndexStore.knows, PriceListener.store, PriceListener.step, hframe]
      rw [hstep]
      rfl
    | feed message tsGet getShortSymbolThrows refreshed =>
      have hframe := feed_frame s.store message tsGet getShortSymbolThrows refreshed
      have hstep : (s.step markEnv (.feed message tsGet getShortSymbolThrows
          refreshed)).store.knows id = s.store.knows id := by
        show ((onRedisFeedHandlerMsg _ _ _ _ _).1.prices.isPredictionMkt.get? id).isSome = _
        rw [hframe]
        rfl
      rw [hstep]
      rfl

/-- **Listed perpetuals and the exit.**  Once the listener is initialized, no event of a
perpetual that an info at start-up lists ends in `process.exit(1)`, if and only if each listed
perpetual was in a running pool of some info at start-up. -/
theorem listed_never_exits_iff (markEnv : MarkPriceEnv) (inputs : List PriceInput)
    (hinit : (PriceListener.fresh.run markEnv inputs).listener.isInitialized = true) :
    (∀ run ∈ startUps inputs, ∀ perpState ∈ run.2.listed, ∀ e : UpdateMarkPrice,
        e.perpetualId = perpState.id →
          (onUpdateMarkPrice markEnv (PriceListener.fresh.run markEnv inputs).listener e).2 ≠
            .exit) ↔
      ∀ run ∈ startUps inputs, ∀ perpState ∈ run.2.listed,
        ∃ run' ∈ startUps inputs, ∃ perpState' ∈ run'.2.running, perpState'.id = perpState.id := by
  have hknown : ∀ id, (PriceListener.fresh.run markEnv inputs).store.knows id = true ↔
      ∃ run' ∈ startUps inputs, ∃ perpState' ∈ run'.2.running, perpState'.id = id := by
    intro id
    have hfresh : PriceListener.fresh.store.knows id = false := by
      simp [IndexStore.knows, PriceListener.store, PriceListener.fresh, IndexStore.init]
    rw [knows_run, hfresh, Bool.false_or, List.any_eq_true]
    simp only [List.mem_flatMap, decide_eq_true_eq]
    constructor
    · rintro ⟨perpState, ⟨run, hrun, hperp⟩, hid⟩
      exact ⟨run, hrun, perpState, hperp, hid⟩
    · rintro ⟨run, hrun, perpState, hperp, hid⟩
      exact ⟨perpState, ⟨run, hrun, hperp⟩, hid⟩
  have hexit : ∀ e : UpdateMarkPrice,
      (onUpdateMarkPrice markEnv (PriceListener.fresh.run markEnv inputs).listener e).2 ≠ .exit ↔
        (PriceListener.fresh.run markEnv inputs).store.knows e.perpetualId = true := by
    intro e
    rw [Ne, exit_iff hinit, ← Option.isNone_iff_eq_none, Bool.not_eq_true,
      Option.isNone_eq_false_iff]
    rfl
  constructor
  · intro hnever run hrun perpState hperp
    exact (hknown _).1 ((hexit ⟨perpState.id, 0, 0, 0⟩).1 (hnever run hrun perpState hperp _ rfl))
  · intro hrunning run hrun perpState hperp e he
    rw [hexit, he, hknown]
    exact hrunning run hrun perpState hperp

/-- A pool that is not running, next to one that is. -/
def pausedPool : ExchangeInfo :=
  ⟨[⟨"MATIC", true, [⟨100001, "BTC", "USD", 10, 10, 10, 1, 5, some 5⟩]⟩,
    ⟨"USDC", false, [⟨200001, "ETH", "USD", 20, 20, 20, 1, 5, some 5⟩]⟩]⟩

/-- An SDK without prediction markets. -/
def plainMarkEnv : MarkPriceEnv where
  ABK64x64ToFloat x := x / 2 ^ 64
  probToPrice x := x + 1
  getSymbolFromPerpId _ := some "ETH-USD-USDC"
  traderSymbolFromPerpId _ := some "ETH-USD-USDC"
  openInterest _ := 0

/-- An event of the listed perpetual in the paused pool ends the process. -/
theorem pausedPool_exits :
    (∃ perpState ∈ pausedPool.listed, perpState.id = 200001) ∧
      (onUpdateMarkPrice plainMarkEnv (PriceListener.fresh.run plainMarkEnv
        [.startUp (plainIndexEnv, pausedPool), .initialized OrdMap.empty]).listener
          ⟨200001, 1, 1, 1⟩).2 = .exit := by
  refine ⟨⟨⟨200001, "ETH", "USD", 20, 20, 20, 1, 5, some 5⟩, by decide, rfl⟩, ?_⟩
  exact (exit_iff rfl _).2 (by decide)

/-- The law at work on a running pool. -/
theorem onePool_never_exits :
    (onUpdateMarkPrice plainMarkEnv (PriceListener.fresh.run plainMarkEnv
      [.startUp (plainIndexEnv, onePool), .initialized OrdMap.empty]).listener
        ⟨100001, 1, 1, 1⟩).2 ≠ .exit := by
  have hlisted : (⟨100001, "BTC", "USD", 10, 10, 10, 1, 5, some 5⟩ : PerpetualState) ∈
      onePool.listed := by decide
  refine (listed_never_exits_iff plainMarkEnv [.startUp (plainIndexEnv, onePool),
    .initialized OrdMap.empty] rfl).2 ?_ (plainIndexEnv, onePool) (List.mem_singleton_self _) _
      hlisted _ rfl
  intro run hrun perpState hperp
  obtain rfl := List.mem_singleton.1 hrun
  exact ⟨_, hrun, perpState, hperp, rfl⟩

end TraderBackend
