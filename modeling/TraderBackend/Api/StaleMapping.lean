import TraderBackend.Api.IndexMapping

/-!
# When a stale mapping is refreshed

A message on `px_update` names keys of Redis.  Their prices are fetched, and the names
of the indices that have one are looked up in the SDK, to see whether the mapping
is still recent.

* `feedActions` — what a message sets off; `onRedisFeedHandlerMsg_eq` connects it to
  the maps.
* `mem_fetched` — the names that are returned.
* `refreshes_iff` — the refresh happens exactly for messages with an unknown name **if
  and only if** there is none: the look-up is left out as soon as there is a name.
-/

namespace TraderBackend

open JsString (split)

/-- What a message sets off, in this order. -/
inductive FeedAction where
  | refreshIndexNames
  /-- `_updatePricesOnIndexPrice`. -/
  | updatePricesOnIndexPrice (indices : List String)
  deriving DecidableEq

/-- The actions of `_onRedisFeedHandlerMsg`. -/
def feedActions (st : IndexStore) (message : String) (tsGet : String → Option ℚ)
    (getShortSymbolThrows : String → Bool) : List FeedAction :=
  let updatedIndices := (fetchIndicesFromRedis tsGet st (split message ';')).2
  let isRecent := isMappingRecent getShortSymbolThrows updatedIndices
  (if isRecent then [] else [.refreshIndexNames]) ++ [.updatePricesOnIndexPrice updatedIndices]

/-- The maps are initialized again if the actions say so, and the prices are those of the names
that are returned. -/
theorem onRedisFeedHandlerMsg_eq (st : IndexStore) (message : String) (tsGet : String → Option ℚ)
    (getShortSymbolThrows : String → Bool) (refreshed : IndexEnv × ExchangeInfo) :
    let fetched := fetchIndicesFromRedis tsGet st (split message ';')
    let actions := feedActions st message tsGet getShortSymbolThrows
    onRedisFeedHandlerMsg st message tsGet getShortSymbolThrows refreshed =
        (if .refreshIndexNames ∈ actions then
          initIdxNamesToPerpetualIds refreshed.1 fetched.1 refreshed.2
        else fetched.1, fetched.2) ∧
      .updatePricesOnIndexPrice fetched.2 ∈ actions := by
  intro fetched actions
  simp only [onRedisFeedHandlerMsg, actions, feedActions, fetched]
  cases isMappingRecent getShortSymbolThrows
    (fetchIndicesFromRedis tsGet st (split message ';')).2 <;> simp

/-! ## The names that are returned -/

/-- The last part of a key. -/
def rawSymbol (index : String) : String := ((split index ':').getLast?).getD "undefined"

/-- A key of a moving average. -/
def isMarkKey (index : String) : Bool := decide ((split (rawSymbol index) '|').length = 2)

/-- A name comes from a key with a price that is not one of a moving average. -/
theorem mem_fetched {tsGet : String → Option ℚ} {st : IndexStore} {indices : List String}
    {name : String} :
    name ∈ (fetchIndicesFromRedis tsGet st indices).2 ↔
      ∃ index ∈ indices, (tsGet index).isSome ∧ isMarkKey index = false ∧
        pxIdxName (rawSymbol index) = name := by
  induction indices generalizing st with
  | nil => simp [fetchIndicesFromRedis]
  | cons index indices ih =>
    rw [fetchIndicesFromRedis, List.exists_mem_cons_iff]
    cases hget : tsGet index with
    | none =>
      simp only [ih]
      simp
    | some value =>
      simp only
      split
      · rename_i hmark
        have hkey : isMarkKey index = true := decide_eq_true hmark
        rw [ih]
        simp [hkey]
      · rename_i hmark
        have hkey : isMarkKey index = false := decide_eq_false hmark
        rw [List.mem_cons, ih]
        refine or_congr ?_ Iff.rfl
        simp only [Option.isSome_some, hkey, true_and]
        exact eq_comm

/-! ## When the mapping is refreshed -/

/-- **When a stale mapping is refreshed.**  A message makes `_onRedisFeedHandlerMsg` refresh the
index names before it routes the prices exactly if the SDK rejects a name that is returned, if and
only if it rejects none: whatever key of the message has a price, and is not one of a moving
average, its name is known. -/
theorem refreshes_iff (st : IndexStore) (message : String) (tsGet : String → Option ℚ)
    (getShortSymbolThrows : String → Bool) :
    let names := (fetchIndicesFromRedis tsGet st (split message ';')).2
    (feedActions st message tsGet getShortSymbolThrows =
        [.refreshIndexNames, .updatePricesOnIndexPrice names] ↔
      ∃ name ∈ names, getShortSymbolThrows name = true) ↔
    ∀ index ∈ split message ';', (tsGet index).isSome → isMarkKey index = false →
      getShortSymbolThrows (pxIdxName (rawSymbol index)) = false := by
  intro names
  have hactions : feedActions st message tsGet getShortSymbolThrows =
      [.updatePricesOnIndexPrice names] := by
    simp only [feedActions, isMappingRecent_eq, if_true, List.nil_append, names]
  rw [hactions]
  constructor
  · intro hrefresh index hindex hprice hmark
    by_contra hthrows
    have hname : pxIdxName (rawSymbol index) ∈ names :=
      mem_fetched.2 ⟨index, hindex, hprice, hmark, rfl⟩
    have hnone := hrefresh.2 ⟨_, hname, by simpa using hthrows⟩
    cases hnone
  · intro hknown
    refine iff_of_false (by simp) ?_
    rintro ⟨name, hname, hthrows⟩
    obtain ⟨index, hindex, hprice, hmark, rfl⟩ := mem_fetched.1 hname
    rw [hknown index hindex hprice hmark] at hthrows
    cases hthrows

/-- A message with an index the SDK does not know: nothing is refreshed. -/
theorem unknownIndex_not_refreshed :
    let actions := feedActions .init "pyth:NEW-USD" (fun _ => some 1) fun name =>
      decide (name = "NEW-USD")
    "NEW-USD" ∈ (fetchIndicesFromRedis (fun _ => some 1) .init (split "pyth:NEW-USD" ';')).2 ∧
      actions = [.updatePricesOnIndexPrice ["NEW-USD"]] := by
  decide

end TraderBackend
