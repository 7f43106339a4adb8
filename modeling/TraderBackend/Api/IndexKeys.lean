import TraderBackend.Api.IndexMapping

/-!
# The keys of the index prices

`_initIdxNamesToPerpetualIds` builds the keys under which Redis has the prices, and
`fetchIndicesFromRedis` takes a key apart again to find the name of its index.

* `IndexKind`, `indexKey` — the three forms of a key.
* `builtKeys_eq` — the keys an initialization builds, perpetual by perpetual.
* `fetch_indexKey` — where the value of one key is stored.
* `index_keys_decode` — every key that is built leads back to its index, also after a
  message of joined keys.
-/

namespace TraderBackend

open JsString (split join)

/-! ## The keys that are built -/

/-- What a key stands for. -/
inductive IndexKind where
  | plain
  /-- The price of a prediction market. -/
  | sport
  /-- Its moving average. -/
  | mark
  deriving DecidableEq

/-- The key of an index. -/
def indexKey (name : String) : IndexKind → String
  | .plain => name
  | .sport => "sport:" ++ name
  | .mark => "sport:" ++ name ++ "|mark"

variable (env : IndexEnv)

/-- The keys of a perpetual. -/
def indexKinds (poolSymbol : String) (perpState : PerpetualState) : List IndexKind :=
  if env.isPredictionMarket (perpState.idxName ++ "-" ++ poolSymbol) then [.sport, .mark]
  else [.plain]

/-- The keys of the running pools, with the perpetuals they are built for. -/
def ExchangeInfo.indexKeys (info : ExchangeInfo) : List (PerpetualState × IndexKind) :=
  info.pools.flatMap fun pool => pool.runningPerpetuals.flatMap fun perpState =>
    (indexKinds env pool.poolSymbol perpState).map fun kind => (perpState, kind)

/-- The text of such a key. -/
def keyText (k : PerpetualState × IndexKind) : String := indexKey k.1.idxName k.2

/-- `indices` at the end of an initialization. -/
def builtKeys (st : IndexStore) (info : ExchangeInfo) : List String :=
  (info.pools.zipIdx.foldl (initPool env) (st, [])).2

theorem registerPerpetual_snd (poolSymbol : String) (acc : IndexStore × List String)
    (perpState : PerpetualState) :
    (registerPerpetual env poolSymbol acc perpState).2 =
      acc.2 ++ (indexKinds env poolSymbol perpState).map (indexKey perpState.idxName) := by
  simp only [registerPerpetual, indexKinds]
  cases env.isPredictionMarket (perpState.idxName ++ "-" ++ poolSymbol) <;> rfl

/-- The keys of a pool are appended. -/
theorem initPool_snd (acc : IndexStore × List String) (pool : PoolState × ℕ) :
    (initPool env acc pool).2 =
      acc.2 ++ pool.1.runningPerpetuals.flatMap fun perpState =>
        (indexKinds env pool.1.poolSymbol perpState).map (indexKey perpState.idxName) := by
  have hloop : ∀ (perpetuals : List PerpetualState) (acc : IndexStore × List String),
      (perpetuals.foldl (registerPerpetual env pool.1.poolSymbol) acc).2 =
        acc.2 ++ perpetuals.flatMap fun perpState =>
          (indexKinds env pool.1.poolSymbol perpState).map (indexKey perpState.idxName) := by
    intro perpetuals
    induction perpetuals with
    | nil =>
      intro acc
      exact (List.append_nil _).symm
    | cons perpState perpetuals ih =>
      intro acc
      rw [List.foldl_cons, ih, registerPerpetual_snd, List.append_assoc, List.flatMap_cons]
  rw [initPool, PoolState.runningPerpetuals]
  split
  · exact hloop _ acc
  · exact (List.append_nil _).symm

/-- **The keys.** -/
theorem builtKeys_eq (st : IndexStore) (info : ExchangeInfo) :
    builtKeys env st info = (info.indexKeys env).map keyText := by
  have hloop : ∀ (pools : List (PoolState × ℕ)) (acc : IndexStore × List String),
      (pools.foldl (initPool env) acc).2 =
        acc.2 ++ (pools.map Prod.fst).flatMap fun pool =>
          pool.runningPerpetuals.flatMap fun perpState =>
            (indexKinds env pool.poolSymbol perpState).map (indexKey perpState.idxName) := by
    intro pools
    induction pools with
    | nil =>
      intro acc
      exact (List.append_nil _).symm
    | cons pool pools ih =>
      intro acc
      rw [List.foldl_cons, ih, initPool_snd, List.append_assoc, List.map_cons, List.flatMap_cons]
  rw [builtKeys, hloop, List.nil_append, List.zipIdx_map_fst, ExchangeInfo.indexKeys,
    List.map_flatMap]
  refine List.flatMap_congr fun pool _ => ?_
  rw [List.map_flatMap]
  refine List.flatMap_congr fun perpState _ => ?_
  rw [List.map_map]
  rfl

/-! ## The keys that are taken apart -/

/-- The characters that keys are put together with. -/
def keySeparators : List Char := ['-', ':', '|', ';']

/-- No currency of a perpetual has such a character. -/
def PerpetualState.SeparatorFree (perpState : PerpetualState) : Prop :=
  ∀ c ∈ keySeparators, c ∉ perpState.baseCurrency.toList ∧ c ∉ perpState.quoteCurrency.toList

instance (perpState : PerpetualState) : Decidable perpState.SeparatorFree :=
  List.decidableBAll _ keySeparators

theorem mem_idxName {perpState : PerpetualState} {c : Char} :
    c ∈ perpState.idxName.toList ↔
      c ∈ perpState.baseCurrency.toList ∨ c = '-' ∨ c ∈ perpState.quoteCurrency.toList := by
  rw [PerpetualState.idxName, String.toList_append, String.toList_append]
  simp

namespace PerpetualState.SeparatorFree

variable {perpState : PerpetualState} (h : perpState.SeparatorFree)

include h

/-- The separators other than the hyphen do not occur in a name. -/
theorem not_mem_idxName {c : Char} (hc : c ∈ keySeparators) (hne : c ≠ '-') :
    c ∉ perpState.idxName.toList := by
  rw [mem_idxName]
  rintro (hbase | heq | hquote)
  · exact (h c hc).1 hbase
  · exact hne heq
  · exact (h c hc).2 hquote

/-- The first two parts of a name are the name. -/
theorem pxIdxName_idxName : pxIdxName perpState.idxName = perpState.idxName := by
  obtain ⟨hbase, hquote⟩ := h '-' (by decide)
  have hsplit : split perpState.idxName '-' =
      [perpState.baseCurrency, perpState.quoteCurrency] := by
    rw [PerpetualState.idxName, JsString.split_append rfl hbase, JsString.split_of_not_mem hquote]
  rw [pxIdxName, hsplit]
  rfl

/-- The last part of a key behind the source. -/
theorem split_indexKey (kind : IndexKind) :
    ((split (indexKey perpState.idxName kind) ':').getLast?).getD "undefined" =
      match kind with
      | .plain => perpState.idxName
      | .sport => perpState.idxName
      | .mark => perpState.idxName ++ "|mark" := by
  have hname := h.not_mem_idxName (c := ':') (by decide) (by decide)
  have hsource : "sport:" = "sport" ++ ":" := by decide
  cases kind with
  | plain => rw [indexKey, JsString.split_of_not_mem hname]; rfl
  | sport =>
    rw [indexKey, hsource, JsString.split_append rfl (by decide), JsString.split_of_not_mem hname]
    rfl
  | mark =>
    have hmark : ':' ∉ (perpState.idxName ++ "|mark").toList := by
      rw [String.toList_append, List.mem_append]
      rintro (hmem | hmem)
      · exact hname hmem
      · revert hmem
        decide
    rw [indexKey, hsource, String.append_assoc, JsString.split_append rfl (by decide),
      JsString.split_of_not_mem hmark]
    rfl

/-- No key has the separator of a message. -/
theorem semicolon_not_mem (kind : IndexKind) :
    ';' ∉ (indexKey perpState.idxName kind).toList := by
  have hname := h.not_mem_idxName (c := ';') (by decide) (by decide)
  have hsport : ';' ∉ "sport:".toList := by decide
  have hmark : ';' ∉ "|mark".toList := by decide
  cases kind with
  | plain => exact hname
  | sport =>
    rw [indexKey, String.toList_append, List.mem_append, not_or]
    exact ⟨hsport, hname⟩
  | mark =>
    rw [indexKey, String.toList_append, String.toList_append, List.mem_append, List.mem_append,
      not_or, not_or]
    exact ⟨⟨hsport, hname⟩, hmark⟩

end PerpetualState.SeparatorFree

/-- The value of a key under the name of its index: with the moving averages, or with the prices
and among the updates. -/
def storeValue (name : String) (kind : IndexKind) (value : ℚ) (st : IndexStore) :
    IndexStore × List String :=
  match kind with
  | .mark => ({ st with emaPrices := st.emaPrices.set name value }, [])
  | _ => ({ st with
      prices := { st.prices with idxPrices := st.prices.idxPrices.set name value } }, [name])

/-- The values found for some keys, each under the name of its index. -/
def storeFound (tsGet : String → Option ℚ) (st : IndexStore) :
    List (PerpetualState × IndexKind) → IndexStore × List String
  | [] => (st, [])
  | k :: ks =>
      match tsGet (keyText k) with
      | none => storeFound tsGet st ks
      | some value =>
          let stored := storeValue k.1.idxName k.2 value st
          let rest := storeFound tsGet stored.1 ks
          (rest.1, stored.2 ++ rest.2)

/-- **One key.**  A value found for it is stored under the name it was built from. -/
theorem fetch_indexKey {perpState : PerpetualState} (h : perpState.SeparatorFree)
    (kind : IndexKind) {tsGet : String → Option ℚ} {value : ℚ}
    (hvalue : tsGet (indexKey perpState.idxName kind) = some value) (st : IndexStore)
    (indices : List String) :
    fetchIndicesFromRedis tsGet st (indexKey perpState.idxName kind :: indices) =
      let stored := storeValue perpState.idxName kind value st
      let rest := fetchIndicesFromRedis tsGet stored.1 indices
      (rest.1, stored.2 ++ rest.2) := by
  have hbar := h.not_mem_idxName (c := '|') (by decide) (by decide)
  have hplain : split perpState.idxName '|' = [perpState.idxName] :=
    JsString.split_of_not_mem hbar
  have hmark : split (perpState.idxName ++ "|mark") '|' = [perpState.idxName, "mark"] := by
    have htext : perpState.idxName ++ "|mark" = perpState.idxName ++ "|" ++ "mark" := by
      rw [String.append_assoc]
      rfl
    rw [htext, JsString.split_append rfl hbar, JsString.split_of_not_mem (by decide)]
  rw [fetchIndicesFromRedis]
  simp only [hvalue, h.split_indexKey kind]
  cases kind with
  | plain =>
    simp only [hplain, List.length_singleton, OfNat.one_ne_ofNat, if_false, h.pxIdxName_idxName]
    rfl
  | sport =>
    simp only [hplain, List.length_singleton, OfNat.one_ne_ofNat, if_false, h.pxIdxName_idxName]
    rfl
  | mark =>
    simp only [hmark, List.length_cons, List.length_nil, if_true, List.getElem?_cons_zero,
      Option.getD_some, h.pxIdxName_idxName]
    rfl

theorem fetch_keyTexts {ks : List (PerpetualState × IndexKind)}
    (h : ∀ k ∈ ks, k.1.SeparatorFree) (tsGet : String → Option ℚ) (st : IndexStore) :
    fetchIndicesFromRedis tsGet st (ks.map keyText) = storeFound tsGet st ks := by
  induction ks generalizing st with
  | nil => rfl
  | cons k ks ih =>
    obtain ⟨hk, hks⟩ := List.forall_mem_cons.1 h
    rw [List.map_cons, storeFound]
    cases hvalue : tsGet (keyText k) with
    | none =>
      rw [fetchIndicesFromRedis, hvalue]
      exact ih hks st
    | some value =>
      rw [keyText, fetch_indexKey hk k.2 hvalue]
      simp only [ih hks]

theorem mem_indexKeys {info : ExchangeInfo} {k : PerpetualState × IndexKind}
    (h : k ∈ info.indexKeys env) : k.1 ∈ info.running := by
  obtain ⟨pool, hpool, hk⟩ := List.mem_flatMap.1 h
  obtain ⟨perpState, hperp, hk⟩ := List.mem_flatMap.1 hk
  obtain ⟨kind, -, rfl⟩ := List.mem_map.1 hk
  exact List.mem_flatMap.2 ⟨pool, hpool, hperp⟩

/-- **Keys lead back to their index.**  Where the currencies have none of the separators, the keys
an initialization builds are those of the perpetuals of running pools, and for any of them, taken
alone, in any list or from a message in which they are joined, the values found are stored under
the names the keys were built from. -/
theorem index_keys_decode {info : ExchangeInfo}
    (hfree : ∀ perpState ∈ info.running, perpState.SeparatorFree) (st : IndexStore) :
    builtKeys env st info = (info.indexKeys env).map keyText ∧
      ∀ (ks : List (PerpetualState × IndexKind)), ks ⊆ info.indexKeys env →
        ∀ (tsGet : String → Option ℚ) (st : IndexStore),
          fetchIndicesFromRedis tsGet st (ks.map keyText) = storeFound tsGet st ks ∧
            (ks ≠ [] → fetchIndicesFromRedis tsGet st (split (join (ks.map keyText) ';') ';') =
              storeFound tsGet st ks) := by
  refine ⟨builtKeys_eq env st info, fun ks hks tsGet st => ?_⟩
  have hall : ∀ k ∈ ks, k.1.SeparatorFree := fun k hk => hfree _ (mem_indexKeys env (hks hk))
  have hfetch := fetch_keyTexts hall tsGet st
  refine ⟨hfetch, fun hne => ?_⟩
  rw [JsString.split_join (by simpa using hne), hfetch]
  intro text htext
  obtain ⟨k, hk, rfl⟩ := List.mem_map.1 htext
  exact (hall k hk).semicolon_not_mem k.2

/-- A pool with a perpetual and a prediction market. -/
def oneSport : ExchangeInfo :=
  ⟨[⟨"USDC", true, [⟨100001, "BTC", "USD", 10, 10, 10, 1, 5, none⟩,
    ⟨100002, "TRUMP24", "USD", 3 / 2, 3 / 2, 3 / 2, 1, 5, none⟩]⟩]⟩

/-- The SDK and Redis for it. -/
def oneSportEnv : IndexEnv where
  isPredictionMarket symbol := decide (symbol = "TRUMP24-USD-USDC")
  tsGet _ _ := none

/-- A message with all its keys. -/
theorem oneSport_decodes :
    builtKeys oneSportEnv .init oneSport =
        ["BTC-USD", "sport:TRUMP24-USD", "sport:TRUMP24-USD|mark"] ∧
      (fetchIndicesFromRedis (fun _ => some 1) .init
        (split (join (builtKeys oneSportEnv .init oneSport) ';') ';')).2 =
          ["BTC-USD", "TRUMP24-USD"] := by
  have hfree : ∀ perpState ∈ oneSport.running, perpState.SeparatorFree := by decide
  obtain ⟨hkeys, hdecode⟩ := index_keys_decode oneSportEnv hfree .init
  refine ⟨hkeys.trans (by decide), ?_⟩
  rw [hkeys, (hdecode _ (List.Subset.refl _) (fun _ => some 1) .init).2 (by decide)]
  decide

end TraderBackend
