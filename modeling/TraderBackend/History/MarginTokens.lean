import TraderBackend.Lib.OrdMap

/-!
# The margin token table

At its start the history service compares the margin tokens it has read from the
chain with the table `margin_token_info`, pool by pool
(`contracts/static_info.ts`, `db/margin_token_info.ts`).

* **The code.**  `retrievedMarginTokenInfo` is the map `initialize` builds;
  `checkAndWriteMarginTokenInfoToDB` goes through it, with the calls of the database that may
  fail.
* **One pool.**  `writePool_get?`: the row of the pool is what `settled` says, a row with
  the right address and name being left as it is, and no other row changes.
* **All pools.**  `writePools_get?`, by induction on the pools still to come.
* **Following the chain.**  `check_follows_iff`: the table ends with what was retrieved exactly
  when no row with the right address and name had other decimals.
-/

namespace TraderBackend

/-! ## The code -/

/-- `MarginTokenData`. -/
structure MarginTokenData where
  poolId : ℕ
  tokenAddr : String
  tokenDecimals : ℤ
  tokenName : String
  deriving DecidableEq

/-- A row of `margin_token_info` without its key. -/
structure MarginTokenRow where
  tokenAddr : String
  tokenName : String
  tokenDecimals : ℤ
  deriving DecidableEq

/-- `margin_token_info`, by `pool_id`. -/
abbrev MarginTokenTable := OrdMap ℕ MarginTokenRow

/-- What `initialize` learns about a pool: two fields of the exchange info and the answer of
`decimals()`. -/
structure PoolToken where
  marginTokenAddr : String
  poolSymbol : String
  decimals : ℤ
  deriving DecidableEq

/-- A call of the database, for a pool. -/
inductive MarginCall where
  | find (poolId : ℕ)
  | create (poolId : ℕ)
  | delete (poolId : ℕ)
  deriving DecidableEq

/-- Why the check throws. -/
inductive MarginError where
  /-- `initStaticData required`. -/
  | initStaticDataRequired
  /-- A field of `undefined` is read. -/
  | notRetrieved (poolId : ℕ)
  | database (call : MarginCall)
  deriving DecidableEq

/-- The entry of the map for pool `j + 1`. -/
def PoolToken.data (p : PoolToken) (j : ℕ) : MarginTokenData :=
  { poolId := j + 1, tokenAddr := p.marginTokenAddr, tokenName := p.poolSymbol,
    tokenDecimals := p.decimals }

/-- The loop of `initialize` over `info.pools`, from index `j` on. -/
def fillPools (j : ℕ) : List PoolToken → OrdMap ℕ MarginTokenData → OrdMap ℕ MarginTokenData
  | [], m => m
  | p :: pools, m => fillPools (j + 1) pools (m.set (j + 1) (p.data j))

/-- `retrievedMarginTokenInfo` after `initialize`. -/
def retrievedMarginTokenInfo (pools : List PoolToken) : OrdMap ℕ MarginTokenData :=
  fillPools 0 pools OrdMap.empty

/-- The columns written for a pool. -/
def MarginTokenData.row (m : MarginTokenData) : MarginTokenRow :=
  ⟨m.tokenAddr, m.tokenName, m.tokenDecimals⟩

section

variable (fails : MarginCall → Bool) -- the calls that fail whatever the table holds

/-- `MarginTokenInfo.insert`: the key must be free and the texts fit their columns. -/
def MarginTokenInfo.insert (t : MarginTokenTable) (m : MarginTokenData) :
    MarginTokenTable × Option MarginError :=
  if fails (.create m.poolId) || (t.get? m.poolId).isSome || decide (42 < m.tokenAddr.length) ||
      decide (20 < m.tokenName.length) then
    (t, some (.database (.create m.poolId)))
  else (t.set m.poolId m.row, none)

/-- `MarginTokenInfo.replace`: the row is deleted, then inserted. -/
def MarginTokenInfo.replace (t : MarginTokenTable) (m : MarginTokenData) :
    MarginTokenTable × Option MarginError :=
  if fails (.delete m.poolId) || (t.get? m.poolId).isNone then
    (t, some (.database (.delete m.poolId)))
  else MarginTokenInfo.insert fails (t.erase m.poolId) m

/-- `MarginTokenInfo.getMarginTokenInfo`. -/
def MarginTokenInfo.getMarginTokenInfo (t : MarginTokenTable) (poolId : ℕ) :
    Option MarginTokenData :=
  (t.get? poolId).map fun res => ⟨poolId, res.tokenAddr, res.tokenDecimals, res.tokenName⟩

/-- The loop body of `checkAndWriteMarginTokenInfoToDB`. -/
def writePool (retrieved : OrdMap ℕ MarginTokenData) (t : MarginTokenTable) (poolId : ℕ) :
    MarginTokenTable × Option MarginError :=
  if fails (.find poolId) then (t, some (.database (.find poolId)))
  else
    match retrieved.get? poolId with
    | none => (t, some (.notRetrieved poolId))
    | some el =>
      match MarginTokenInfo.getMarginTokenInfo t poolId with
      | none => MarginTokenInfo.insert fails t el
      | some dbEntry =>
        if dbEntry.poolId ≠ poolId ∨ dbEntry.tokenAddr ≠ el.tokenAddr ∨
            dbEntry.tokenName ≠ el.tokenName then
          MarginTokenInfo.replace fails t el
        else (t, none)

/-- The loop over the pools, up to the first error. -/
def writePools (retrieved : OrdMap ℕ MarginTokenData) :
    List ℕ → MarginTokenTable → MarginTokenTable × Option MarginError
  | [], t => (t, none)
  | poolId :: poolIds, t =>
    match writePool fails retrieved t poolId with
    | (t', none) => writePools retrieved poolIds t'
    | (t', some err) => (t', some err)

/-- `checkAndWriteMarginTokenInfoToDB`: the table afterwards, and what it threw. -/
def checkAndWriteMarginTokenInfoToDB (retrieved : OrdMap ℕ MarginTokenData)
    (t : MarginTokenTable) : MarginTokenTable × Option MarginError :=
  if retrieved.size = 0 then (t, some .initStaticDataRequired)
  else writePools fails retrieved (List.range' 1 retrieved.size) t

end

/-! ## The retrieved map -/

theorem get?_fillPools (pools : List PoolToken) :
    ∀ (j : ℕ) (m : OrdMap ℕ MarginTokenData) (k : ℕ),
      (fillPools j pools m).get? k =
        if j < k then ((pools[k - j - 1]?).map fun p => p.data (k - 1)).or (m.get? k)
        else m.get? k := by
  induction pools with
  | nil =>
    intro j m k
    simp [fillPools]
  | cons p pools ih =>
    intro j m k
    rw [fillPools, ih (j + 1) (m.set (j + 1) (p.data j)) k, OrdMap.get?_set]
    by_cases hlt : j + 1 < k
    · -- an entry set later
      have hindex : k - j - 1 = k - (j + 1) - 1 + 1 := by omega
      have hne : j + 1 ≠ k := by omega
      have hlt' : j < k := by omega
      rw [if_pos hlt, if_neg hne, if_pos hlt', hindex, List.getElem?_cons_succ]
    · rw [if_neg hlt]
      by_cases heq : j + 1 = k
      · subst heq
        simp
      · have hge : ¬ j < k := by omega
        rw [if_neg heq, if_neg hge]

/-- The map holds the pools `1` to `n`. -/
theorem get?_retrieved (pools : List PoolToken) (j : ℕ) :
    (retrievedMarginTokenInfo pools).get? (j + 1) = (pools[j]?).map fun p => p.data j := by
  rw [retrievedMarginTokenInfo, get?_fillPools, if_pos (Nat.succ_pos j)]
  simp [OrdMap.empty, OrdMap.get?, OrdMap.lookupL]

theorem size_fillPools (pools : List PoolToken) :
    ∀ (j : ℕ) (m : OrdMap ℕ MarginTokenData), (∀ k, j < k → m.get? k = none) →
      (fillPools j pools m).size = m.size + pools.length := by
  induction pools with
  | nil =>
    intro j m _
    rfl
  | cons p pools ih =>
    intro j m hfree
    have hsize : (m.set (j + 1) (p.data j)).size = m.size + 1 := by
      rw [OrdMap.size, OrdMap.entries_set_of_none (hfree (j + 1) (Nat.lt_succ_self j)),
        List.length_append, List.length_singleton, OrdMap.size]
    have hfree' : ∀ k, j + 1 < k → (m.set (j + 1) (p.data j)).get? k = none := by
      intro k hk
      rw [OrdMap.get?_set_ne m _ (by omega)]
      exact hfree k (by omega)
    rw [fillPools, ih (j + 1) _ hfree', hsize, List.length_cons]
    omega

theorem size_retrieved (pools : List PoolToken) :
    (retrievedMarginTokenInfo pools).size = pools.length := by
  rw [retrievedMarginTokenInfo, size_fillPools pools 0 OrdMap.empty fun _ _ => rfl]
  exact Nat.zero_add _

/-! ## One pool -/

/-- The row a pool ends with: only another address or another name makes the code write. -/
def settled (old : Option MarginTokenRow) (el : MarginTokenData) : MarginTokenRow :=
  match old with
  | none => el.row
  | some r => if r.tokenAddr = el.tokenAddr ∧ r.tokenName = el.tokenName then r else el.row

section

variable {fails : MarginCall → Bool} {retrieved : OrdMap ℕ MarginTokenData}
  {t t' : MarginTokenTable} {el : MarginTokenData}

theorem insert_ok (h : MarginTokenInfo.insert fails t el = (t', none)) :
    t' = t.set el.poolId el.row := by
  unfold MarginTokenInfo.insert at h
  split at h
  · exact absurd (congrArg Prod.snd h) (by simp)
  · exact (congrArg Prod.fst h).symm

theorem replace_ok (h : MarginTokenInfo.replace fails t el = (t', none)) :
    t' = (t.erase el.poolId).set el.poolId el.row := by
  unfold MarginTokenInfo.replace at h
  split at h
  · exact absurd (congrArg Prod.snd h) (by simp)
  · exact insert_ok h

/-- The comparison: the entry read back has the pool's own id. -/
theorem differs_iff (poolId : ℕ) (r : MarginTokenRow) :
    (poolId ≠ poolId ∨ r.tokenAddr ≠ el.tokenAddr ∨ r.tokenName ≠ el.tokenName) ↔
      ¬ (r.tokenAddr = el.tokenAddr ∧ r.tokenName = el.tokenName) := by
  tauto

/-- **One pool.** -/
theorem writePool_get? {poolId : ℕ} (hel : retrieved.get? poolId = some el)
    (hid : el.poolId = poolId) (h : writePool fails retrieved t poolId = (t', none)) (k : ℕ) :
    t'.get? k = if poolId = k then some (settled (t.get? poolId) el) else t.get? k := by
  unfold writePool MarginTokenInfo.getMarginTokenInfo at h
  rw [hel] at h
  split at h
  · exact absurd (congrArg Prod.snd h) (by simp)
  · cases hold : t.get? poolId with
    | none =>
      simp only [hold, Option.map_none] at h
      rw [insert_ok h, OrdMap.get?_set, hid]
      rfl
    | some r =>
      simp only [hold, Option.map_some, differs_iff] at h
      by_cases hsame : r.tokenAddr = el.tokenAddr ∧ r.tokenName = el.tokenName
      · -- nothing is written
        rw [if_neg (not_not.2 hsame)] at h
        obtain rfl := congrArg Prod.fst h
        rw [settled, if_pos hsame]
        split
        · rename_i hk
          rw [← hk, hold]
        · rfl
      · rw [if_pos hsame] at h
        rw [replace_ok h, OrdMap.get?_set, OrdMap.get?_erase, hid, settled, if_neg hsame]
        split
        · rfl
        · rfl

/-! ## All pools -/

/-- **All pools.**  Pools that come later are still as they were. -/
theorem writePools_get? {poolIds : List ℕ} (hnodup : poolIds.Nodup)
    (hretrieved : ∀ p ∈ poolIds, ∃ el, retrieved.get? p = some el ∧ el.poolId = p)
    (h : writePools fails retrieved poolIds t = (t', none)) :
    (∀ p ∈ poolIds, ∀ el, retrieved.get? p = some el →
        t'.get? p = some (settled (t.get? p) el)) ∧
      ∀ k, k ∉ poolIds → t'.get? k = t.get? k := by
  induction poolIds generalizing t with
  | nil =>
    obtain rfl := congrArg Prod.fst h
    exact ⟨fun p hp => absurd hp List.not_mem_nil, fun k _ => rfl⟩
  | cons p poolIds ih =>
    obtain ⟨hp, hnodup⟩ := List.nodup_cons.1 hnodup
    obtain ⟨el, hel, hid⟩ := hretrieved p List.mem_cons_self
    rw [writePools] at h
    split at h
    · rename_i t₁ hstep
      have hone := writePool_get? hel hid hstep
      obtain ⟨hrest, hothers⟩ := ih hnodup
        (fun q hq => hretrieved q (List.mem_cons_of_mem p hq)) h
      constructor
      · intro q hq el' hel'
        rcases List.mem_cons.1 hq with rfl | hmem
        · rw [hothers q hp, hone q, if_pos rfl, Option.some.inj (hel.symm.trans hel')]
        · have hne : p ≠ q := fun heq => hp (heq ▸ hmem)
          rw [hrest q hmem el' hel', hone q, if_neg hne]
      · intro k hk
        have hne : p ≠ k := fun heq => hk (heq ▸ List.mem_cons_self)
        rw [hothers k fun hmem => hk (List.mem_cons_of_mem p hmem), hone k, if_neg hne]
    · exact absurd (congrArg Prod.snd h) (by simp)

end

/-! ## Following the chain -/

/-- A row is left alone exactly when it has the right address and name. -/
theorem settled_eq_iff (old : Option MarginTokenRow) (el : MarginTokenData) :
    settled old el = el.row ↔
      ∀ r, old = some r → r.tokenAddr = el.tokenAddr → r.tokenName = el.tokenName →
        r.tokenDecimals = el.tokenDecimals := by
  cases old with
  | none =>
    constructor
    · intro _ r hr
      cases hr
    · intro _
      rfl
  | some r =>
    obtain ⟨addr, name, decimals⟩ := r
    by_cases hsame : addr = el.tokenAddr ∧ name = el.tokenName
    · obtain ⟨rfl, rfl⟩ := hsame
      simp [settled, MarginTokenData.row]
    · rw [settled, if_neg hsame]
      constructor
      · rintro _ r hr haddr hname
        obtain rfl := Option.some.inj hr
        exact absurd ⟨haddr, hname⟩ hsame
      · intro _
        rfl

section

variable {fails : MarginCall → Bool} {pools : List PoolToken} {t t' : MarginTokenTable}

/-- What a check that returns leaves behind. -/
theorem check_get? (h : checkAndWriteMarginTokenInfoToDB fails (retrievedMarginTokenInfo pools) t =
      (t', none)) :
    (∀ j (hj : j < pools.length),
        t'.get? (j + 1) = some (settled (t.get? (j + 1)) ((pools[j]).data j))) ∧
      ∀ k, ¬ (1 ≤ k ∧ k ≤ pools.length) → t'.get? k = t.get? k := by
  unfold checkAndWriteMarginTokenInfoToDB at h
  split at h
  · exact absurd (congrArg Prod.snd h) (by simp)
  · rw [size_retrieved] at h
    have hretrieved : ∀ p ∈ List.range' 1 pools.length,
        ∃ el, (retrievedMarginTokenInfo pools).get? p = some el ∧ el.poolId = p := by
      intro p hp
      obtain ⟨j, hj, rfl⟩ := List.mem_range'.1 hp
      refine ⟨(pools[j]).data j, ?_, ?_⟩
      · rw [one_mul, add_comm 1 j, get?_retrieved, List.getElem?_eq_getElem hj, Option.map_some]
      · rw [one_mul, add_comm 1 j]
        rfl
    obtain ⟨hpools, hothers⟩ := writePools_get? List.nodup_range' hretrieved h
    constructor
    · intro j hj
      apply hpools (j + 1) (List.mem_range'_1.2 ⟨by omega, by omega⟩)
      rw [get?_retrieved, List.getElem?_eq_getElem hj, Option.map_some]
    · intro k hk
      apply hothers
      rw [List.mem_range'_1]
      omega

/-- **Following the chain.**  A check that returns leaves every pool with what was retrieved
and the other pools alone, exactly when every stored row with the address and the name of
its pool's token had its decimals too. -/
theorem check_follows_iff
    (h : checkAndWriteMarginTokenInfoToDB fails (retrievedMarginTokenInfo pools) t = (t', none)) :
    ((∀ j (hj : j < pools.length), t'.get? (j + 1) = some ((pools[j]).data j).row) ∧
        ∀ k, ¬ (1 ≤ k ∧ k ≤ pools.length) → t'.get? k = t.get? k) ↔
      ∀ j (hj : j < pools.length) (r : MarginTokenRow), t.get? (j + 1) = some r →
        r.tokenAddr = (pools[j]).marginTokenAddr → r.tokenName = (pools[j]).poolSymbol →
        r.tokenDecimals = (pools[j]).decimals := by
  obtain ⟨hpools, hothers⟩ := check_get? h
  constructor
  · rintro ⟨hfollows, -⟩ j hj
    have heq := (hpools j hj).symm.trans (hfollows j hj)
    exact (settled_eq_iff _ ((pools[j]).data j)).1 (Option.some.inj heq)
  · intro hdecimals
    refine ⟨fun j hj => ?_, hothers⟩
    rw [hpools j hj, (settled_eq_iff _ ((pools[j]).data j)).2 (hdecimals j hj)]

end

/-- Two pools of a chain. -/
def twoPools : List PoolToken := [⟨"0xa", "USDC", 6⟩, ⟨"0xb", "WEETH", 18⟩]

/-- A table with another token for the second of them, nothing for the first, and a third pool. -/
def otherToken : MarginTokenTable :=
  (OrdMap.empty.set 2 ⟨"0xc", "STUSD", 18⟩).set 3 ⟨"0xd", "BTC", 8⟩

theorem twoPools_follow :
    (∀ j (hj : j < twoPools.length),
        (checkAndWriteMarginTokenInfoToDB (fun _ => false) (retrievedMarginTokenInfo twoPools)
          otherToken).1.get? (j + 1) = some ((twoPools[j]).data j).row) ∧
      ∀ k, ¬ (1 ≤ k ∧ k ≤ twoPools.length) →
        (checkAndWriteMarginTokenInfoToDB (fun _ => false) (retrievedMarginTokenInfo twoPools)
          otherToken).1.get? k = otherToken.get? k := by
  have hreturns : checkAndWriteMarginTokenInfoToDB (fun _ => false)
      (retrievedMarginTokenInfo twoPools) otherToken =
        ((checkAndWriteMarginTokenInfoToDB (fun _ => false) (retrievedMarginTokenInfo twoPools)
          otherToken).1, none) := by decide
  refine (check_follows_iff hreturns).2 ?_
  intro j hj r hr haddr _
  match j with
  | 0 => cases hr
  | 1 =>
    obtain rfl := Option.some.inj hr
    exact absurd haddr (by simp [twoPools])
  | j + 2 => exact absurd hj (by simp [twoPools])

/-- The right token with the decimals of another time: the check returns and leaves them. -/
theorem wrongDecimals_stay :
    checkAndWriteMarginTokenInfoToDB (fun _ => false) (retrievedMarginTokenInfo twoPools)
        (OrdMap.empty.set 1 ⟨"0xa", "USDC", 18⟩) =
      ((OrdMap.empty.set 1 ⟨"0xa", "USDC", 18⟩).set 2 ⟨"0xb", "WEETH", 18⟩, none) ∧
      ((OrdMap.empty.set 1 ⟨"0xa", "USDC", 18⟩).set 2 ⟨"0xb", "WEETH", 18⟩ :
        MarginTokenTable).get? 1 ≠ some ((⟨"0xa", "USDC", 6⟩ : PoolToken).data 0).row := by
  decide

end TraderBackend
