import TraderBackend.Api.IndexMapping
import TraderBackend.Lib.Interleave

/-!
# What subscribers are shown

Subscribers of a perpetual are sent its prices on two occasions: the chain emits `UpdateMarkPrice`,
or a message on `px_update` says that the price of its index has moved.  The handler of such a
message waits for Redis once for each key it names and then sends the prices of all the perpetuals
of these indices; other messages and events are handled in between.

* **The code.**  `PriceService.step` — one stretch of a handler.  `message_alone`: the stretches of
  one message in a row are the handler in one piece.
* **Nothing is missing.**  `complete_run`: whatever has happened, a perpetual of an index has its
  premia and the index its price.
* **Routing.**  `updatePricesOnIndexPrice_eq`: where no prediction market comes before another
  perpetual, every perpetual of the indices is sent the prices the event handler would send.
* **Up to date.**  `subscribers_up_to_date`: a perpetual whose index no message is about to route
  was last sent the prices of the state, however the handlers have overlapped.
-/

namespace TraderBackend

open JsString (split)

/-! ## The code -/

/-- What `updateMarkPrice` sends to the subscribers of a perpetual. -/
structure PriceUpdate where
  symbol : String
  perpetualId : ℕ
  midPrice : ℚ
  markPrice : ℚ
  indexPrice : ℚ
  /-- In basis points. -/
  fundingRate : ℚ
  openInterest : ℚ
  deriving DecidableEq

/-- `updateMarkPrice`. -/
def updateMarkPrice (env : MarkPriceEnv) (s : MarkPriceListener) (c : PriceCall) :
    List PriceUpdate :=
  if s.isInitialized then
    let fundingRate := (s.fundingRate.get? c.perpetualId).getD 0
    [⟨(env.traderSymbolFromPerpId c.perpetualId).getD "", c.perpetualId, c.newMidPrice,
      c.newMarkPrice, c.newIndexPrice, fundingRate * 10000, env.openInterest c.perpetualId⟩]
  else []

/-- What the handler of `UpdateMarkPrice` sends. -/
def MarkPriceOutcome.sends (env : MarkPriceEnv) (s : MarkPriceListener) :
    MarkPriceOutcome → List PriceUpdate
  | .updated broadcast _ => updateMarkPrice env s broadcast
  | _ => []

/-- A message on `px_update` while it is handled. -/
structure PxMessage where
  /-- The keys Redis has not been asked for. -/
  indices : List String
  updatedIndices : List String
  deriving DecidableEq

/-- The listener, the messages it is handling and the updates it has sent. -/
structure PriceService where
  maps : PriceListener
  messages : List PxMessage
  sent : List PriceUpdate
  exited : Bool

/-- The next stretch of a handler. -/
inductive PriceMove where
  | onUpdateMarkPrice (e : UpdateMarkPrice)
  | onUpdateFundingRate (perpetualId : ℕ) (fFundingRate : ℤ)
  | pxUpdate (message : String)
  /-- Redis answers the message at this place; `none` is an error or no price. -/
  | tsGet (k : ℕ) (value : Option ℚ)
  /-- The message at this place has all its answers. -/
  | route (k : ℕ) (getShortSymbolThrows : String → Bool) (refreshed : IndexEnv × ExchangeInfo)

namespace PriceService

variable (env : MarkPriceEnv)

/-- `_updatePricesOnIndexPrice` for the message at a place, with the updates it sends. -/
def sendIndexPrices (s : PriceService) (k : ℕ) (updatedIndices : List String) : PriceService :=
  let listener := s.maps.listener
  let calls := updatePricesOnIndexPrice env.probToPrice listener.prices updatedIndices
  { s with
    messages := s.messages.eraseIdx k
    sent := s.sent ++ calls.1.flatMap (updateMarkPrice env listener)
    exited := calls.2 }

/-- One stretch. -/
def step (s : PriceService) (m : PriceMove) : Option PriceService :=
  if s.exited then none
  else
    match m with
    | .onUpdateMarkPrice e =>
        let r := onUpdateMarkPrice env s.maps.listener e
        some
          { s with
            maps := { s.maps with listener := r.1 }
            sent := s.sent ++ r.2.sends env r.1
            exited := decide (r.2 = .exit) }
    | .onUpdateFundingRate perpetualId fFundingRate =>
        let listener :=
          { s.maps.listener with
            fundingRate :=
              s.maps.listener.fundingRate.set perpetualId (env.ABK64x64ToFloat fFundingRate) }
        some { s with maps := { s.maps with listener := listener } }
    | .pxUpdate message => some { s with messages := s.messages ++ [⟨split message ';', []⟩] }
    | .tsGet k value =>
        match s.messages[k]? with
        | some ⟨index :: indices, updatedIndices⟩ =>
            let fetched := fetchIndicesFromRedis (fun _ => value) s.maps.store [index]
            some
              { s with
                maps := s.maps.setStore fetched.1
                messages := s.messages.set k ⟨indices, updatedIndices ++ fetched.2⟩ }
        | _ => none
    | .route k getShortSymbolThrows refreshed =>
        match s.messages[k]? with
        | some ⟨[], updatedIndices⟩ =>
            let s :=
              if isMappingRecent getShortSymbolThrows updatedIndices then s
              else
                { s with
                  maps := s.maps.setStore
                    (initIdxNamesToPerpetualIds refreshed.1 s.maps.store refreshed.2) }
            some (s.sendIndexPrices env k updatedIndices)
        | _ => none

end PriceService

/-! ## One message on its own -/

/-- Asking Redis for one key after the other. -/
theorem fetch_cons (tsGet : String → Option ℚ) (st : IndexStore) (index : String)
    (indices : List String) :
    fetchIndicesFromRedis tsGet st (index :: indices) =
      let one := fetchIndicesFromRedis (fun _ => tsGet index) st [index]
      let rest := fetchIndicesFromRedis tsGet one.1 indices
      (rest.1, one.2 ++ rest.2) := by
  simp only [fetchIndicesFromRedis]
  cases tsGet index with
  | none => rfl
  | some value =>
    simp only
    split <;> rfl

namespace PriceService

variable (env : MarkPriceEnv)

/-- All the answers a message waits for. -/
theorem answers_alone (tsGet : String → Option ℚ) (k : ℕ) (indices : List String)
    {updatedIndices : List String} {s : PriceService} (hexit : s.exited = false)
    (hk : s.messages[k]? = some ⟨indices, updatedIndices⟩) :
    (indices.map fun index => PriceMove.tsGet k (tsGet index)).foldlM (step env) s =
      let fetched := fetchIndicesFromRedis tsGet s.maps.store indices
      some
        { s with
          maps := s.maps.setStore fetched.1
          messages := s.messages.set k ⟨[], updatedIndices ++ fetched.2⟩ } := by
  induction indices generalizing s updatedIndices with
  | nil =>
    have hsame : s.messages.set k ⟨[], updatedIndices⟩ = s.messages := by
      obtain ⟨hlt, hget⟩ := List.getElem?_eq_some_iff.1 hk
      rw [← hget, List.set_getElem_self]
    show some s = some { s with messages := s.messages.set k ⟨[], updatedIndices ++ []⟩ }
    rw [List.append_nil, hsame]
  | cons index indices ih =>
    have hlt : k < s.messages.length := (List.getElem?_eq_some_iff.1 hk).1
    have hstep : s.step env (.tsGet k (tsGet index)) =
        let fetched := fetchIndicesFromRedis (fun _ => tsGet index) s.maps.store [index]
        some
          { s with
            maps := s.maps.setStore fetched.1
            messages := s.messages.set k ⟨indices, updatedIndices ++ fetched.2⟩ } := by
      simp only [step, hexit, hk]
      rfl
    have hset : ∀ m : PxMessage, (s.messages.set k m)[k]? = some m :=
      fun m => List.getElem?_set_self hlt
    have hrest := ih (s := { s with
        maps := s.maps.setStore
          (fetchIndicesFromRedis (fun _ => tsGet index) s.maps.store [index]).1
        messages := s.messages.set k ⟨indices, updatedIndices ++
          (fetchIndicesFromRedis (fun _ => tsGet index) s.maps.store [index]).2⟩ }) hexit (hset _)
    rw [List.map_cons, List.foldlM_cons, hstep]
    refine hrest.trans ?_
    rw [fetch_cons tsGet s.maps.store index indices]
    simp only [List.set_set, List.append_assoc]
    rfl

/-- The stretches of a message at a place. -/
def messageMoves (k : ℕ) (message : String) (tsGet : String → Option ℚ)
    (getShortSymbolThrows : String → Bool) (refreshed : IndexEnv × ExchangeInfo) : List PriceMove :=
  [.pxUpdate message] ++ ((split message ';').map fun index => .tsGet k (tsGet index)) ++
    [.route k getShortSymbolThrows refreshed]

/-- A message that nothing else comes between: the maps are those of the handler in one piece, and
what is sent are the prices of the indices that were fetched. -/
theorem message_alone (message : String) (tsGet : String → Option ℚ)
    (getShortSymbolThrows : String → Bool) (refreshed : IndexEnv × ExchangeInfo) {s : PriceService}
    (hexit : s.exited = false) :
    ∃ s', (messageMoves s.messages.length message tsGet getShortSymbolThrows refreshed).foldlM
        (step env) s = some s' ∧
      s'.maps = s.maps.step env (.feed message tsGet getShortSymbolThrows refreshed) ∧
      s'.messages = s.messages ∧
      s'.sent = s.sent ++ ((updatePricesOnIndexPrice env.probToPrice s'.maps.listener.prices
        (fetchIndicesFromRedis tsGet s.maps.store (split message ';')).2).1.flatMap
          (updateMarkPrice env s'.maps.listener)) := by
  have hstart : s.step env (.pxUpdate message) =
      some { s with messages := s.messages ++ [⟨split message ';', []⟩] } := by
    simp only [step, hexit]
    rfl
  have hplace : ∀ m : PxMessage, (s.messages ++ [m])[s.messages.length]? = some m := by simp
  have hset : ∀ m m' : PxMessage, (s.messages ++ [m]).set s.messages.length m' =
      s.messages ++ [m'] := by simp
  have hanswers := answers_alone env tsGet s.messages.length (split message ';')
    (s := { s with messages := s.messages ++ [⟨split message ';', []⟩] }) hexit (hplace _)
  simp only [hset, List.nil_append] at hanswers
  rw [messageMoves, List.foldlM_append, List.foldlM_append, List.foldlM_cons, hstart]
  simp only [Option.bind_eq_bind, Option.bind_some, List.foldlM_nil, Option.pure_def, hanswers,
    List.foldlM_cons]
  simp only [step, hexit, hplace, isMappingRecent_eq, if_true, Bool.false_eq_true, if_false]
  refine ⟨_, rfl, ?_, ?_, ?_⟩
  · simp only [PriceListener.step, onRedisFeedHandlerMsg, isMappingRecent_eq, if_true]
    rfl
  · have herase : ∀ m : PxMessage, (s.messages ++ [m]).eraseIdx s.messages.length = s.messages := by
      intro m
      rw [List.eraseIdx_append_of_length_le (le_refl _)]
      simp
    exact herase _
  · rfl

end PriceService

/-! ## Nothing is missing -/

/-- What the prices of a perpetual of an index are computed from. -/
def PriceState.inputs (st : PriceState) (name : String) (id : ℕ) :
    Option ℚ × Option ℚ × Option ℚ :=
  (st.idxPrices.get? name, st.midPremium.get? id, st.mrkPremium.get? id)

/-- The perpetuals of the mapping have their premia, and their indices a price. -/
structure IndexStore.Complete (st : IndexStore) : Prop where
  price : ∀ name, ∀ id ∈ st.perpetualIds name, (st.prices.idxPrices.get? name).isSome
  known : ∀ name, ∀ id ∈ st.perpetualIds name, (st.prices.isPredictionMkt.get? id).isSome
  mid : ∀ name, ∀ id ∈ st.perpetualIds name, (st.prices.midPremium.get? id).isSome
  mrk : ∀ name, ∀ id ∈ st.perpetualIds name, (st.prices.mrkPremium.get? id).isSome

/-- The mapping is the same, and nothing has disappeared. -/
structure IndexStore.Grows (st st' : IndexStore) : Prop where
  mapping : st'.prices.idxNamesToPerpetualIds = st.prices.idxNamesToPerpetualIds
  known : st'.prices.isPredictionMkt = st.prices.isPredictionMkt
  price : ∀ name, (st.prices.idxPrices.get? name).isSome → (st'.prices.idxPrices.get? name).isSome
  mid : ∀ id, (st.prices.midPremium.get? id).isSome → (st'.prices.midPremium.get? id).isSome
  mrk : ∀ id, (st.prices.mrkPremium.get? id).isSome → (st'.prices.mrkPremium.get? id).isSome

theorem IndexStore.Grows.refl (st : IndexStore) : st.Grows st :=
  ⟨rfl, rfl, fun _ h => h, fun _ h => h, fun _ h => h⟩

theorem IndexStore.Grows.trans {st st' st'' : IndexStore} (h : st.Grows st')
    (h' : st'.Grows st'') : st.Grows st'' where
  mapping := h'.mapping.trans h.mapping
  known := h'.known.trans h.known
  price name hp := h'.price name (h.price name hp)
  mid id hp := h'.mid id (h.mid id hp)
  mrk id hp := h'.mrk id (h.mrk id hp)

theorem IndexStore.Grows.perpetualIds {st st' : IndexStore} (h : st.Grows st') (name : String) :
    st'.perpetualIds name = st.perpetualIds name := by
  rw [IndexStore.perpetualIds, IndexStore.perpetualIds, h.mapping]

theorem IndexStore.Complete.grows {st st' : IndexStore} (hst : st.Complete) (h : st.Grows st') :
    st'.Complete where
  price name id hid := h.price name (hst.price name id (h.perpetualIds name ▸ hid))
  known name id hid := by
    rw [h.known]
    exact hst.known name id (h.perpetualIds name ▸ hid)
  mid name id hid := h.mid id (hst.mid name id (h.perpetualIds name ▸ hid))
  mrk name id hid := h.mrk id (hst.mrk name id (h.perpetualIds name ▸ hid))

/-- Fetching prices adds prices. -/
theorem grows_fetch (tsGet : String → Option ℚ) (st : IndexStore) (indices : List String) :
    st.Grows (fetchIndicesFromRedis tsGet st indices).1 := by
  induction indices generalizing st with
  | nil => exact .refl st
  | cons index indices ih =>
    rw [fetchIndicesFromRedis]
    cases tsGet index with
    | none => exact ih st
    | some value =>
      simp only
      split
      · refine IndexStore.Grows.trans ?_ (ih _)
        exact ⟨rfl, rfl, fun _ h => h, fun _ h => h, fun _ h => h⟩
      · refine IndexStore.Grows.trans ?_ (ih _)
        exact ⟨rfl, rfl, fun _ h => OrdMap.isSome_set _ _ h, fun _ h => h, fun _ h => h⟩

/-- The price of an index that is not returned is left alone. -/
theorem inputs_fetch (tsGet : String → Option ℚ) (st : IndexStore) {indices : List String}
    {name : String} (hname : name ∉ (fetchIndicesFromRedis tsGet st indices).2) (id : ℕ) :
    (fetchIndicesFromRedis tsGet st indices).1.prices.inputs name id =
      st.prices.inputs name id := by
  induction indices generalizing st with
  | nil => rfl
  | cons index indices ih =>
    rw [fetchIndicesFromRedis] at hname ⊢
    cases hget : tsGet index with
    | none =>
      rw [hget] at hname
      exact ih st hname
    | some value =>
      simp only [hget] at hname ⊢
      split at hname
      · rename_i hmark
        rw [if_pos hmark]
        exact ih _ hname
      · rename_i hmark
        obtain ⟨hne, hrest⟩ := not_or.1 (fun h => hname (List.mem_cons.2 h))
        rw [if_neg hmark]
        refine (ih _ hrest).trans ?_
        simp [PriceState.inputs, OrdMap.get?_set_ne _ _ (Ne.symm hne)]

/-- A perpetual is registered with its premia and the price of its index. -/
theorem complete_register (env : IndexEnv) (poolSymbol : String) {acc : IndexStore × List String}
    (h : acc.1.Complete) (perpState : PerpetualState) :
    (registerPerpetual env poolSymbol acc perpState).1.Complete := by
  have hids := (register_spec env poolSymbol acc perpState).ids
  have hcases : ∀ name, ∀ id ∈ (registerPerpetual env poolSymbol acc perpState).1.perpetualIds name,
      id ∈ acc.1.perpetualIds name ∨ perpState.idxName = name ∧ perpState.id = id := by
    intro name id hid
    rw [hids, List.mem_append] at hid
    refine hid.imp (fun h => h) fun hnew => ?_
    simpa [idsNamed] using hnew
  constructor
  · intro name id hid
    rcases hcases name id hid with hold | ⟨hname, -⟩
    · exact OrdMap.isSome_set _ _ (h.price name id hold)
    · simp [registerPerpetual, hname]
  · intro name id hid
    rcases hcases name id hid with hold | ⟨-, hnew⟩
    · exact OrdMap.isSome_set _ _ (h.known name id hold)
    · simp [registerPerpetual, hnew]
  · intro name id hid
    rcases hcases name id hid with hold | ⟨-, hnew⟩
    · exact OrdMap.isSome_set _ _ (h.mid name id hold)
    · simp [registerPerpetual, hnew]
  · intro name id hid
    rcases hcases name id hid with hold | ⟨-, hnew⟩
    · exact OrdMap.isSome_set _ _ (h.mrk name id hold)
    · simp [registerPerpetual, hnew]

theorem complete_registerAll (env : IndexEnv) (poolSymbol : String)
    (perpetuals : List PerpetualState) {acc : IndexStore × List String} (h : acc.1.Complete) :
    (perpetuals.foldl (registerPerpetual env poolSymbol) acc).1.Complete := by
  induction perpetuals generalizing acc with
  | nil => exact h
  | cons perpState perpetuals ih => exact ih (complete_register env poolSymbol h perpState)

theorem complete_init (env : IndexEnv) (info : ExchangeInfo) {st : IndexStore} (h : st.Complete) :
    (initIdxNamesToPerpetualIds env st info).Complete := by
  have hpools : ∀ (pools : List (PoolState × ℕ)) (acc : IndexStore × List String),
      acc.1.Complete → (pools.foldl (initPool env) acc).1.Complete := by
    intro pools
    induction pools with
    | nil => exact fun acc hacc => hacc
    | cons pool pools ih =>
      intro acc hacc
      apply ih
      rw [initPool]
      split
      · exact (complete_registerAll env _ _ hacc).grows (grows_fetch _ _ _)
      · exact hacc
  exact hpools _ _ h

/-- The event handler sets premia. -/
theorem grows_onUpdateMarkPrice (env : MarkPriceEnv) (s : MarkPriceListener) (emaPrices)
    (e : UpdateMarkPrice) :
    IndexStore.Grows ⟨s.prices, emaPrices⟩ ⟨(onUpdateMarkPrice env s e).1.prices, emaPrices⟩ := by
  unfold onUpdateMarkPrice
  split
  · split
    · exact .refl _
    · split
      · exact .refl _
      · have hset : ∀ midPrem mrkPrem : ℚ, IndexStore.Grows ⟨s.prices, emaPrices⟩
            ⟨{ s.prices with
                midPremium := s.prices.midPremium.set e.perpetualId midPrem
                mrkPremium := s.prices.mrkPremium.set e.perpetualId mrkPrem }, emaPrices⟩ :=
          fun _ _ => ⟨rfl, rfl, fun _ h => h, fun _ h => OrdMap.isSome_set _ _ h,
            fun _ h => OrdMap.isSome_set _ _ h⟩
        dsimp only
        split
        · exact hset _ _
        · split
          · exact hset _ _
          · exact hset _ _
  · exact .refl _

theorem isInitialized_onUpdateMarkPrice (env : MarkPriceEnv) (s : MarkPriceListener)
    (e : UpdateMarkPrice) : (onUpdateMarkPrice env s e).1.isInitialized = s.isInitialized := by
  unfold onUpdateMarkPrice
  split
  · split
    · rfl
    · split
      · rfl
      · dsimp only
        split
        · rfl
        · split <;> rfl
  · rfl

/-- Whatever has happened since the start. -/
theorem complete_run (env : MarkPriceEnv) (inputs : List PriceInput) :
    (PriceListener.fresh.run env inputs).store.Complete := by
  induction inputs using List.reverseRecOn with
  | nil =>
    constructor <;>
      simp [PriceListener.run, PriceListener.fresh, PriceListener.store, IndexStore.init,
        IndexStore.perpetualIds]
  | append_singleton inputs input ih =>
    rw [PriceListener.run, List.foldl_append, List.foldl_cons, List.foldl_nil]
    cases input with
    | startUp run => exact complete_init run.1 run.2 ih
    | initialized fundingRate => exact ih
    | markPrice e => exact ih.grows (grows_onUpdateMarkPrice env _ _ e)
    | feed message tsGet getShortSymbolThrows refreshed =>
      show (onRedisFeedHandlerMsg _ message tsGet getShortSymbolThrows refreshed).1.Complete
      rw [onRedisFeedHandlerMsg, isMappingRecent_eq, if_pos rfl]
      exact ih.grows (grows_fetch _ _ _)

/-! ## Routing -/

/-- The prices of a perpetual of an index, as the event handler computes them. -/
def callOf (probToPrice : ℚ → ℚ) (st : PriceState) (index : String) (id : ℕ) : PriceCall :=
  let new := eventPathPrices probToPrice ((st.isPredictionMkt.get? id).getD false)
    ((st.idxPrices.get? index).getD 0) ((st.midPremium.get? id).getD 0)
    ((st.mrkPremium.get? id).getD 0)
  ⟨index, id, new.1, new.2.1, new.2.2⟩

/-- No prediction market of an index comes before another perpetual. -/
def IndexStore.PredictionsLast (st : IndexStore) : Prop :=
  ∀ name, (st.perpetualIds name).Pairwise fun a _ => st.prices.isPredictionMkt.get? a = some false

/-- The loop over one index. -/
theorem routeIndex_eq (probToPrice : ℚ → ℚ) {st : PriceState} {index : String} {p : ℚ}
    (hp : st.idxPrices.get? index = some p) {ids : List ℕ}
    (hall : ∀ id ∈ ids, (st.isPredictionMkt.get? id).isSome ∧ (st.midPremium.get? id).isSome ∧
      (st.mrkPremium.get? id).isSome)
    (hlast : ids.Pairwise fun a _ => st.isPredictionMkt.get? a = some false) :
    routeIndex probToPrice st index (some p) ids =
      (ids.map (callOf probToPrice st index), false) := by
  induction ids with
  | nil => rfl
  | cons id ids ih =>
    obtain ⟨hpred, hmid, hmrk⟩ := hall id (List.mem_cons_self ..)
    obtain ⟨isPred, hpred⟩ := Option.isSome_iff_exists.1 hpred
    obtain ⟨mid, hmid⟩ := Option.isSome_iff_exists.1 hmid
    obtain ⟨mrk, hmrk⟩ := Option.isSome_iff_exists.1 hmrk
    obtain ⟨hfirst, hrest⟩ := List.pairwise_cons.1 hlast
    have hih := ih (fun j hj => hall j (List.mem_cons_of_mem _ hj)) hrest
    rw [routeIndex, List.map_cons]
    simp only [hpred, hmid, hmrk]
    cases isPred with
    | false =>
      simp only [Bool.false_eq_true, if_false, hih]
      simp [callOf, eventPathPrices, hp, hpred, hmid, hmrk]
    | true =>
      -- a prediction market is the last one, so what becomes of `px` does not matter
      obtain rfl : ids = [] := by
        rw [List.eq_nil_iff_forall_not_mem]
        intro j hj
        have hordinary := hfirst j hj
        rw [hpred] at hordinary
        cases hordinary
      simp [routeIndex, callOf, eventPathPrices, hp, hpred, hmid]

/-- The loop over the indices: every perpetual of every index. -/
theorem updatePricesOnIndexPrice_eq (probToPrice : ℚ → ℚ) {st : IndexStore} (h : st.Complete)
    (hlast : st.PredictionsLast) (indices : List String) :
    updatePricesOnIndexPrice probToPrice st.prices indices =
      (indices.flatMap fun index =>
        (st.perpetualIds index).map (callOf probToPrice st.prices index), false) := by
  induction indices with
  | nil => rfl
  | cons index indices ih =>
    rw [updatePricesOnIndexPrice, List.flatMap_cons, ih]
    cases hids : st.prices.idxNamesToPerpetualIds.get? index with
    | none => simp [IndexStore.perpetualIds, hids]
    | some ids =>
      have hperpetuals : st.perpetualIds index = ids := by simp [IndexStore.perpetualIds, hids]
      have hroute : routeIndex probToPrice st.prices index (st.prices.idxPrices.get? index) ids =
          (ids.map (callOf probToPrice st.prices index), false) := by
        cases hprice : st.prices.idxPrices.get? index with
        | none =>
          obtain rfl : ids = [] := by
            rw [List.eq_nil_iff_forall_not_mem]
            intro id hid
            have hsome := h.price index id (hperpetuals ▸ hid)
            rw [hprice] at hsome
            cases hsome
          rfl
        | some p =>
          refine routeIndex_eq probToPrice hprice (fun id hid => ?_) (hperpetuals ▸ hlast index)
          rw [← hperpetuals] at hid
          exact ⟨h.known index id hid, h.mid index id hid, h.mrk index id hid⟩
      simp only [hroute, hperpetuals]

/-! ## Up to date -/

/-- The update carries the prices of the state. -/
def PriceUpdate.Shows (env : MarkPriceEnv) (st : PriceState) (name : String) (u : PriceUpdate) :
    Prop :=
  ∃ isPred px midPrem mrkPrem, st.isPredictionMkt.get? u.perpetualId = some isPred ∧
    st.inputs name u.perpetualId = (some px, some midPrem, some mrkPrem) ∧
    (u.midPrice, u.markPrice, u.indexPrice) =
      eventPathPrices env.probToPrice isPred px midPrem mrkPrem

/-- The last update of a perpetual. -/
def lastUpdate (sent : List PriceUpdate) (id : ℕ) : Option PriceUpdate :=
  (sent.filter fun u => u.perpetualId = id).getLast?

theorem lastUpdate_append (sent updates : List PriceUpdate) (id : ℕ) :
    lastUpdate (sent ++ updates) id = (lastUpdate updates id).or (lastUpdate sent id) := by
  rw [lastUpdate, List.filter_append, List.getLast?_append]
  rfl

theorem mem_of_lastUpdate {updates : List PriceUpdate} {id : ℕ} {u : PriceUpdate}
    (h : lastUpdate updates id = some u) : u ∈ updates ∧ u.perpetualId = id := by
  have hmem := List.mem_filter.1 (List.mem_of_getLast? h)
  exact ⟨hmem.1, of_decide_eq_true hmem.2⟩

theorem lastUpdate_eq_none {updates : List PriceUpdate} {id : ℕ} :
    lastUpdate updates id = none ↔ ∀ u ∈ updates, u.perpetualId ≠ id := by
  rw [lastUpdate, List.getLast?_eq_none_iff, List.filter_eq_nil_iff]
  simp

/-- The subscribers of a perpetual were last sent the prices of the state; where they were sent
none, these are those of the start. -/
structure UpToDate (env : MarkPriceEnv) (st₀ st : PriceState) (sent : List PriceUpdate)
    (name : String) (id : ℕ) : Prop where
  last : ∀ u, lastUpdate sent id = some u → u.Shows env st name
  unsent : lastUpdate sent id = none → st.inputs name id = st₀.inputs name id

section

variable {env : MarkPriceEnv} {st₀ st st' : PriceState} {sent updates : List PriceUpdate}
  {name : String} {id : ℕ}

/-- Nothing the prices are computed from changes, and nothing is sent to these subscribers. -/
theorem UpToDate.frame (h : UpToDate env st₀ st sent name id)
    (hknown : st'.isPredictionMkt = st.isPredictionMkt)
    (hinputs : st'.inputs name id = st.inputs name id) (hnone : lastUpdate updates id = none) :
    UpToDate env st₀ st' (sent ++ updates) name id := by
  have hsent : lastUpdate (sent ++ updates) id = lastUpdate sent id := by
    rw [lastUpdate_append, hnone, Option.none_or]
  constructor
  · intro u hu
    rw [hsent] at hu
    obtain ⟨-, rfl⟩ := mem_of_lastUpdate hu
    obtain ⟨isPred, px, midPrem, mrkPrem, hpred, hin, hprices⟩ := h.last u hu
    exact ⟨isPred, px, midPrem, mrkPrem, hknown ▸ hpred, hinputs.trans hin, hprices⟩
  · intro hno
    rw [hsent] at hno
    exact hinputs.trans (h.unsent hno)

/-- They are sent the prices of the state. -/
theorem UpToDate.of_sent (hshows : ∀ u ∈ updates, u.perpetualId = id → u.Shows env st name)
    (hsome : ∃ u ∈ updates, u.perpetualId = id) :
    UpToDate env st₀ st (sent ++ updates) name id := by
  obtain ⟨u, hu⟩ : ∃ u, lastUpdate updates id = some u := by
    rw [← Option.ne_none_iff_exists']
    intro hnone
    obtain ⟨u, hmem, hid⟩ := hsome
    exact lastUpdate_eq_none.1 hnone u hmem hid
  have hsent : lastUpdate (sent ++ updates) id = some u := by
    rw [lastUpdate_append, hu, Option.some_or]
  obtain ⟨hmem, hid⟩ := mem_of_lastUpdate hu
  constructor
  · intro u' hu'
    obtain rfl := Option.some.inj (hsent.symm.trans hu')
    exact hshows u hmem hid
  · intro hno
    rw [hsent] at hno
    cases hno

/-- A call of `updateMarkPrice` with prices of the state. -/
theorem shows_of_mem {listener : MarkPriceListener} {st : IndexStore} (h : st.Complete)
    (hid : id ∈ st.perpetualIds name) {u : PriceUpdate}
    (hu : u ∈ updateMarkPrice env listener (callOf env.probToPrice st.prices name id)) :
    u.Shows env st.prices name := by
  obtain ⟨isPred, hpred⟩ := Option.isSome_iff_exists.1 (h.known name id hid)
  obtain ⟨px, hpx⟩ := Option.isSome_iff_exists.1 (h.price name id hid)
  obtain ⟨mid, hmid⟩ := Option.isSome_iff_exists.1 (h.mid name id hid)
  obtain ⟨mrk, hmrk⟩ := Option.isSome_iff_exists.1 (h.mrk name id hid)
  unfold updateMarkPrice at hu
  split at hu
  · rw [List.mem_singleton.1 hu]
    refine ⟨isPred, px, mid, mrk, hpred, ?_, ?_⟩
    · simp [PriceState.inputs, callOf, hpx, hmid, hmrk]
    · simp [callOf, hpred, hpx, hmid, hmrk]
  · cases hu

theorem perpetualId_of_mem {listener : MarkPriceListener} {c : PriceCall} {u : PriceUpdate}
    (hu : u ∈ updateMarkPrice env listener c) : u.perpetualId = c.perpetualId := by
  unfold updateMarkPrice at hu
  split at hu
  · rw [List.mem_singleton.1 hu]
  · cases hu

theorem exists_mem_updateMarkPrice (env : MarkPriceEnv) {listener : MarkPriceListener}
    (hinit : listener.isInitialized = true) (c : PriceCall) :
    ∃ u ∈ updateMarkPrice env listener c, u.perpetualId = c.perpetualId := by
  rw [updateMarkPrice, if_pos hinit]
  exact ⟨_, List.mem_singleton_self _, rfl⟩

/-- The symbol of a perpetual begins with the name of its index. -/
def IndexStore.Named (env : MarkPriceEnv) (st : IndexStore) : Prop :=
  ∀ name, ∀ id ∈ st.perpetualIds name, (env.getSymbolFromPerpId id).map pxIdxName = some name

/-- The event handler sends the prices of the state it leaves behind, or it leaves what they are
computed from alone. -/
theorem onUpdateMarkPrice_sends {s : PriceListener} (h : s.store.Complete)
    (hnamed : s.store.Named env) (e : UpdateMarkPrice) (hid : id ∈ s.store.perpetualIds name) :
    (e.perpetualId = id ∧ ∃ n, (onUpdateMarkPrice env s.listener e).2 = .updated
        (callOf env.probToPrice (onUpdateMarkPrice env s.listener e).1.prices name id) n) ∨
      (∀ c n, (onUpdateMarkPrice env s.listener e).2 = .updated c n → c.perpetualId ≠ id) ∧
        (onUpdateMarkPrice env s.listener e).1.prices.inputs name id =
          s.listener.prices.inputs name id := by
  unfold onUpdateMarkPrice
  split
  · cases hpred : s.listener.prices.isPredictionMkt.get? e.perpetualId with
    | none => exact Or.inr ⟨by simp, rfl⟩
    | some isPred =>
      simp only
      split
      · exact Or.inr ⟨by simp, rfl⟩
      · by_cases he : e.perpetualId = id
        · -- its symbol and the price of its index are known
          obtain ⟨longSym, hsym, hname⟩ := Option.map_eq_some_iff.1 (hnamed name id hid)
          obtain ⟨px, hpx⟩ := Option.isSome_iff_exists.1 (h.price name id hid)
          have hpx : s.listener.prices.idxPrices.get? (pxIdxName longSym) = some px := by
            rw [hname]
            exact hpx
          rw [he] at hpred ⊢
          simp only [hsym, hpx]
          refine Or.inl ⟨trivial, _, congrArg₂ _ ?_ rfl⟩
          rw [← hname]
          simp [callOf, hpx, hpred]
        · have hinputs : ∀ midPrem mrkPrem : ℚ,
              PriceState.inputs
                { s.listener.prices with
                  midPremium := s.listener.prices.midPremium.set e.perpetualId midPrem
                  mrkPremium := s.listener.prices.mrkPremium.set e.perpetualId mrkPrem } name id =
              s.listener.prices.inputs name id := by
            intro midPrem mrkPrem
            simp [PriceState.inputs, OrdMap.get?_set_ne _ _ he]
          right
          split
          · exact ⟨by simp, hinputs _ _⟩
          · split
            · exact ⟨by simp, hinputs _ _⟩
            · refine ⟨?_, hinputs _ _⟩
              intro c n hc
              cases hc
              exact he
  · exact Or.inr ⟨by simp, rfl⟩

end

namespace PriceService

variable {env : MarkPriceEnv} {s₀ s : PriceService}

/-- A message is about to route the index. -/
def Owed (s : PriceService) (name : String) : Prop := ∃ m ∈ s.messages, name ∈ m.updatedIndices

/-- Since the start nothing has disappeared, and what is not up to date is about to be. -/
structure Follows (env : MarkPriceEnv) (s₀ s : PriceService) : Prop where
  initialized : s.maps.listener.isInitialized = true
  grows : s₀.maps.store.Grows s.maps.store
  upToDate : ∀ name, ∀ id ∈ s₀.maps.store.perpetualIds name, s.Owed name ∨
    UpToDate env s₀.maps.store.prices s.maps.store.prices s.sent name id

/-- What is known of the perpetuals at the start. -/
structure Ready (env : MarkPriceEnv) (st : IndexStore) : Prop where
  complete : st.Complete
  named : st.Named env
  predictionsLast : st.PredictionsLast

theorem Ready.grows {st st' : IndexStore} (h : Ready env st) (hgrows : st.Grows st') :
    Ready env st' where
  complete := h.complete.grows hgrows
  named name id hid := h.named name id (hgrows.perpetualIds name ▸ hid)
  predictionsLast name := by
    rw [hgrows.perpetualIds, hgrows.known]
    exact h.predictionsLast name

/-- A perpetual has one index. -/
theorem Ready.unique {st : IndexStore} (h : Ready env st) {name name' : String} {id : ℕ}
    (hid : id ∈ st.perpetualIds name) (hid' : id ∈ st.perpetualIds name') : name = name' :=
  Option.some.inj ((h.named name id hid).symm.trans (h.named name' id hid'))

theorem follows_start (hinit : s₀.maps.listener.isInitialized = true) (hsent : s₀.sent = []) :
    Follows env s₀ s₀ where
  initialized := hinit
  grows := .refl _
  upToDate name id _ := Or.inr
    { last := fun u hu => by simp [hsent, lastUpdate] at hu
      unsent := fun _ => rfl }

/-- An element of a list that is not the one at a place is at another place. -/
theorem exists_other {α : Type*} {l : List α} {k : ℕ} {a b : α} (hk : l[k]? = some a) (hb : b ∈ l)
    (hne : b ≠ a) : ∃ j, k ≠ j ∧ l[j]? = some b := by
  obtain ⟨j, hj⟩ := List.mem_iff_getElem?.1 hb
  refine ⟨j, ?_, hj⟩
  rintro rfl
  exact hne (Option.some.inj (hj.symm.trans hk))

/-- A stretch that changes neither the maps nor what is owed, and sends nothing. -/
theorem Follows.frame (h : Follows env s₀ s) {s' : PriceService}
    (hinit : s'.maps.listener.isInitialized = s.maps.listener.isInitialized)
    (hmaps : s'.maps.store = s.maps.store) (hsent : s'.sent = s.sent)
    (howed : ∀ name, s.Owed name → s'.Owed name) : Follows env s₀ s' where
  initialized := hinit.trans h.initialized
  grows := hmaps ▸ h.grows
  upToDate name id hid := by
    rw [hmaps, hsent]
    exact (h.upToDate name id hid).imp_left (howed name)

/-- An event of the chain. -/
theorem Follows.markPrice (h : Follows env s₀ s) (hready : Ready env s₀.maps.store)
    (e : UpdateMarkPrice) (exited : Bool) :
    let r := onUpdateMarkPrice env s.maps.listener e
    Follows env s₀
      { s with
        maps := { s.maps with listener := r.1 }
        sent := s.sent ++ r.2.sends env r.1
        exited := exited } := by
  intro r
  have hinit := (isInitialized_onUpdateMarkPrice env s.maps.listener e).trans h.initialized
  have hgrows := h.grows.trans (grows_onUpdateMarkPrice env s.maps.listener s.maps.emaPrices e)
  refine ⟨hinit, hgrows, fun name id hid => ?_⟩
  refine (h.upToDate name id hid).imp (fun howed => howed) fun hup => ?_
  have hnow := hready.grows h.grows
  have hafter := hready.grows hgrows
  rcases onUpdateMarkPrice_sends hnow.complete hnow.named e (h.grows.perpetualIds name ▸ hid) with
    ⟨-, n, hcall⟩ | ⟨hother, hinputs⟩
  · -- these subscribers are sent the prices of the state after the event
    have hsends : r.2.sends env r.1 =
        updateMarkPrice env r.1 (callOf env.probToPrice r.1.prices name id) := by
      simp only [r, hcall, MarkPriceOutcome.sends]
    rw [hsends]
    refine UpToDate.of_sent (fun u hu _ => ?_) (exists_mem_updateMarkPrice env hinit _)
    exact shows_of_mem hafter.complete (hgrows.perpetualIds name ▸ hid) hu
  · refine hup.frame (onUpdateMarkPrice_frame env _ e) hinputs (lastUpdate_eq_none.2 ?_)
    intro u hu
    cases hcase : r.2 with
    | updated c n =>
      rw [hcase] at hu
      rw [perpetualId_of_mem hu]
      exact hother c n hcase
    | notInitialized => simp [hcase, MarkPriceOutcome.sends] at hu
    | exit => simp [hcase, MarkPriceOutcome.sends] at hu
    | duplicate => simp [hcase, MarkPriceOutcome.sends] at hu
    | noSymbol => simp [hcase, MarkPriceOutcome.sends] at hu
    | noIndex => simp [hcase, MarkPriceOutcome.sends] at hu

/-- An answer of Redis. -/
theorem Follows.answer (h : Follows env s₀ s) {k : ℕ} {index : String}
    {indices updatedIndices : List String}
    (hk : s.messages[k]? = some ⟨index :: indices, updatedIndices⟩) (value : Option ℚ) :
    let fetched := fetchIndicesFromRedis (fun _ => value) s.maps.store [index]
    Follows env s₀
      { s with
        maps := s.maps.setStore fetched.1
        messages := s.messages.set k ⟨indices, updatedIndices ++ fetched.2⟩ } := by
  intro fetched
  refine ⟨h.initialized, h.grows.trans (grows_fetch _ _ _), fun name id hid => ?_⟩
  have hlt : k < s.messages.length := (List.getElem?_eq_some_iff.1 hk).1
  have hmem : (⟨indices, updatedIndices ++ fetched.2⟩ : PxMessage) ∈
      s.messages.set k ⟨indices, updatedIndices ++ fetched.2⟩ := List.mem_set hlt _
  by_cases hname : name ∈ fetched.2
  · -- from now on this message owes the index
    exact Or.inl ⟨_, hmem, List.mem_append_right _ hname⟩
  · refine (h.upToDate name id hid).imp (fun howed => ?_) fun hup => ?_
    · obtain ⟨m, hm, howed⟩ := howed
      by_cases hsame : m = ⟨index :: indices, updatedIndices⟩
      · rw [hsame] at howed
        exact ⟨_, hmem, List.mem_append_left _ howed⟩
      · obtain ⟨j, hj, hother⟩ := exists_other hk hm hsame
        have hkept : (s.messages.set k ⟨indices, updatedIndices ++ fetched.2⟩)[j]? = some m := by
          rw [List.getElem?_set_ne hj, hother]
        exact ⟨m, List.mem_of_getElem? hkept, howed⟩
    · have hframe := hup.frame (fetch_frame _ _ _).2 (inputs_fetch _ _ hname id)
        (lastUpdate_eq_none.2 (List.forall_mem_nil _))
      rwa [List.append_nil] at hframe

/-- A message routes its indices. -/
theorem Follows.route (h : Follows env s₀ s) (hready : Ready env s₀.maps.store) {k : ℕ}
    {updatedIndices : List String} (hk : s.messages[k]? = some ⟨[], updatedIndices⟩) :
    Follows env s₀ (s.sendIndexPrices env k updatedIndices) := by
  have hnow := hready.grows h.grows
  have hcalls := updatePricesOnIndexPrice_eq env.probToPrice hnow.complete hnow.predictionsLast
    updatedIndices
  refine ⟨h.initialized, h.grows, fun name id hid => ?_⟩
  have hidnow : id ∈ s.maps.store.perpetualIds name := h.grows.perpetualIds name ▸ hid
  -- the calls of other indices are about other perpetuals
  have hindex : ∀ index, ∀ j ∈ s.maps.store.perpetualIds index, j = id → index = name :=
    fun index j hj hji => hnow.unique (hji ▸ hj) hidnow
  show _ ∨ UpToDate env _ _ (s.sent ++ (updatePricesOnIndexPrice env.probToPrice
    s.maps.store.prices updatedIndices).1.flatMap (updateMarkPrice env s.maps.listener)) name id
  rw [hcalls]
  have hmem : ∀ u, u ∈ (updatedIndices.flatMap fun index => (s.maps.store.perpetualIds index).map
      (callOf env.probToPrice s.maps.store.prices index)).flatMap
        (updateMarkPrice env s.maps.listener) ↔
      ∃ index ∈ updatedIndices, ∃ j ∈ s.maps.store.perpetualIds index,
        u ∈ updateMarkPrice env s.maps.listener
          (callOf env.probToPrice s.maps.store.prices index j) := by
    intro u
    simp only [List.mem_flatMap, List.mem_map]
    constructor
    · rintro ⟨c, ⟨index, hin, j, hj, rfl⟩, hu⟩
      exact ⟨index, hin, j, hj, hu⟩
    · rintro ⟨index, hin, j, hj, hu⟩
      exact ⟨_, ⟨index, hin, j, hj, rfl⟩, hu⟩
  by_cases hname : name ∈ updatedIndices
  · right
    refine UpToDate.of_sent (fun u hu huid => ?_) ?_
    · obtain ⟨index, hin, j, hj, hu⟩ := (hmem u).1 hu
      obtain rfl := hindex index j hj ((perpetualId_of_mem hu).symm.trans huid)
      exact shows_of_mem hnow.complete hj hu
    · obtain ⟨u, hu, huid⟩ := exists_mem_updateMarkPrice env h.initialized
        (callOf env.probToPrice s.maps.store.prices name id)
      exact ⟨u, (hmem u).2 ⟨name, hname, id, hidnow, hu⟩, huid⟩
  · refine (h.upToDate name id hid).imp (fun howed => ?_) fun hup => ?_
    · obtain ⟨m, hm, howed⟩ := howed
      have hother : m ≠ ⟨[], updatedIndices⟩ := fun hsame => hname (by rwa [hsame] at howed)
      obtain ⟨j, hj, hget⟩ := exists_other hk hm hother
      exact ⟨m, List.mem_eraseIdx_iff_getElem?.2 ⟨j, hj.symm, hget⟩, howed⟩
    · refine hup.frame rfl rfl (lastUpdate_eq_none.2 fun u hu huid => ?_)
      obtain ⟨index, hin, j, hj, hu⟩ := (hmem u).1 hu
      exact hname (hindex index j hj ((perpetualId_of_mem hu).symm.trans huid) ▸ hin)

/-- One stretch. -/
theorem Follows.step (h : Follows env s₀ s) (hready : Ready env s₀.maps.store) {m : PriceMove}
    {s' : PriceService} (hstep : s.step env m = some s') : Follows env s₀ s' := by
  unfold PriceService.step at hstep
  split at hstep
  · cases hstep
  · cases m with
    | onUpdateMarkPrice e =>
      cases hstep
      exact h.markPrice hready e _
    | onUpdateFundingRate perpetualId fFundingRate =>
      cases hstep
      exact h.frame rfl rfl rfl fun name howed => howed
    | pxUpdate message =>
      cases hstep
      refine h.frame rfl rfl rfl fun name howed => ?_
      obtain ⟨m, hm, howed⟩ := howed
      exact ⟨m, List.mem_append_left _ hm, howed⟩
    | tsGet k value =>
      simp only at hstep
      split at hstep
      · rename_i hk
        cases hstep
        exact h.answer hk value
      · cases hstep
    | route k getShortSymbolThrows refreshed =>
      simp only [isMappingRecent_eq, if_true] at hstep
      split at hstep
      · rename_i hk
        cases hstep
        exact h.route hready hk
      · cases hstep

/-- **Up to date.**  After any start, take the listener with the messages it is handling.  The
indices have the names the SDK knows their perpetuals by, and no index has a prediction market
before another perpetual.  Then in every state reached by events of the chain, messages and
answers of Redis in any order: for a perpetual whose index no message under way has fetched,
the last prices sent to its subscribers are those that the event handler computes from the index
price and the premia of that state; if none were sent, neither has changed. -/
theorem subscribers_up_to_date (inputs : List PriceInput) (messages : List PxMessage)
    (hinit : (PriceListener.fresh.run env inputs).listener.isInitialized = true)
    (hnamed : (PriceListener.fresh.run env inputs).store.Named env)
    (hlast : (PriceListener.fresh.run env inputs).store.PredictionsLast)
    (hreached : ReachedBy (step env) ⟨PriceListener.fresh.run env inputs, messages, [], false⟩ s)
    {name : String} {id : ℕ}
    (hid : id ∈ (PriceListener.fresh.run env inputs).store.perpetualIds name)
    (hdone : ∀ m ∈ s.messages, name ∉ m.updatedIndices) :
    UpToDate env (PriceListener.fresh.run env inputs).store.prices s.maps.store.prices s.sent
      name id := by
  have hready : Ready env (PriceListener.fresh.run env inputs).store :=
    ⟨complete_run env inputs, hnamed, hlast⟩
  have hfollows : Follows env ⟨PriceListener.fresh.run env inputs, messages, [], false⟩ s :=
    hreached.induction (follows_start hinit rfl) fun t u m ht hstep => ht.step hready hstep
  rcases hfollows.upToDate name id hid with ⟨m, hm, howed⟩ | hup
  · exact absurd howed (hdone m hm)
  · exact hup

/-- An SDK that knows the perpetuals by one name. -/
def btcEnv : MarkPriceEnv where
  ABK64x64ToFloat x := x / 2 ^ 64
  probToPrice x := x + 1
  getSymbolFromPerpId _ := some "BTC-USD-MATIC"
  traderSymbolFromPerpId _ := some "BTC-USD-MATIC"
  openInterest _ := 0

/-- A service with one perpetual has started. -/
def oneStarted : List PriceInput := [.startUp (plainIndexEnv, onePool), .initialized OrdMap.empty]

/-- Two messages about one index, the first of which comes to its route last, and an event. -/
def twoMessages : List PriceMove :=
  [.pxUpdate "pyth:BTC-USD", .pxUpdate "pyth:BTC-USD", .tsGet 0 (some 12), .tsGet 1 (some 13),
    .route 1 (fun _ => false) (plainIndexEnv, onePool), .onUpdateMarkPrice ⟨100001, 2 ^ 60, 0, 1⟩,
    .route 0 (fun _ => false) (plainIndexEnv, onePool)]

/-- Where they lead. -/
def afterTwoMessages : PriceService :=
  let started : PriceService := ⟨PriceListener.fresh.run btcEnv oneStarted, [], [], false⟩
  (twoMessages.foldlM (step btcEnv) started).getD started

theorem perpetualIds_oneStarted (name : String) :
    (PriceListener.fresh.run btcEnv oneStarted).store.perpetualIds name =
      if name = "BTC-USD" then [100001] else [] := by
  have hids := (init_spec plainIndexEnv PriceListener.fresh.store onePool).ids name
  refine hids.trans ?_
  by_cases hname : name = "BTC-USD"
  · subst hname
    rw [if_pos rfl]
    decide +kernel
  · have hidx : "BTC-USD" ≠ name := Ne.symm hname
    rw [if_neg hname]
    simp [IndexStore.perpetualIds, PriceListener.store, PriceListener.fresh, IndexStore.init,
      idsNamed, ExchangeInfo.running, onePool, PoolState.runningPerpetuals,
      PerpetualState.idxName, hidx]

theorem twoMessages_upToDate :
    (afterTwoMessages.sent.map fun u => (u.midPrice, u.indexPrice)) =
        [(13, 13), (13 + 13 / 16, 13), (13 + 13 / 16, 13)] ∧
      UpToDate btcEnv (PriceListener.fresh.run btcEnv oneStarted).store.prices
        afterTwoMessages.maps.store.prices afterTwoMessages.sent "BTC-USD" 100001 := by
  refine ⟨by decide +kernel, ?_⟩
  refine subscribers_up_to_date oneStarted [] rfl ?_ ?_ (ReachedBy.getD twoMessages ?_) ?_ ?_
  · intro name id hid
    rw [perpetualIds_oneStarted] at hid
    split at hid
    · rename_i hname
      rw [hname]
      show some (pxIdxName "BTC-USD-MATIC") = some "BTC-USD"
      decide +kernel
    · cases hid
  · intro name
    rw [perpetualIds_oneStarted]
    split
    · exact List.pairwise_singleton ..
    · exact List.Pairwise.nil
  · decide +kernel
  · decide +kernel
  · decide +kernel

end PriceService

end TraderBackend
