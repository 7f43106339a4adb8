import TraderBackend.History.Handlers

/-!
# Where the filter of share token transfers starts

A backfill looks for transfers of a pool from the newest row of the pool on, whatever event
that row comes from and whoever delivered it.

* `p2pTimestamp` — the date a backfill passes to `filterP2Ptransfers` for a pool.
* `stamps` — what of the table the date and the inserts depend on: the time and the type
  of every row.
* `stamps_insert` — one delivery.
* `p2pWatermark_iff` — no state of a run starts after a missing transfer **if and only if**
  no delivery stores a row while an older transfer of its pool is missing.
-/

namespace TraderBackend

open JsString

/-! ## The date -/

/-- The `created_at` of the rows of a pool. -/
def poolTimes (t : EarningsTable) (poolId : ℕ) : List ℕ :=
  (t.entries.filter fun e => decide (e.1.1 = poolId)).map fun e => e.2.createdAt

/-- `getLatestTimestampsP2PTransfer` for one pool, in milliseconds. -/
def getLatestTimestampP2PTransfer (t : EarningsTable) (poolId : ℕ) : Option ℤ :=
  (poolTimes t poolId).max?.map fun time : ℕ => (time : ℤ) * 1000

/-- The entry of `p2pTs` for a pool. -/
def p2pTimestamp (t : EarningsTable) (defaultDate : ℤ) (poolId : ℕ) : ℤ :=
  (getLatestTimestampP2PTransfer t poolId).getD defaultDate

/-! ## Deliveries -/

/-- An event that may get a row in `estimated_earnings_tokens`. -/
inductive EarningsEvent where
  | liquidityAdded (e : LiquidityEvent) (txHash : String) (blockTimestamp : ℕ)
  | liquidityRemoved (e : LiquidityEvent) (txHash : String) (blockTimestamp : ℕ)
  | p2pTransfer (x : ShareTransfer)
  deriving DecidableEq

/-- One delivery, live or by the backfill; `now` is the clock of the database. -/
structure EarningsDelivery where
  event : EarningsEvent
  isCollectedByEvent : Bool
  now : ℕ
  deriving DecidableEq

/-- The key of the row of an event. -/
def EarningsEvent.key : EarningsEvent → ℕ × String
  | .liquidityAdded e txHash _ => (e.poolId, txHash)
  | .liquidityRemoved e txHash _ => (e.poolId, txHash)
  | .p2pTransfer x => (x.poolId, x.txHash)

/-- The type of its row. -/
def EarningsEvent.eventType : EarningsEvent → EstimatedEarningsEventType
  | .liquidityAdded _ _ _ => .liquidityAdded
  | .liquidityRemoved _ _ _ => .liquidityRemoved
  | .p2pTransfer _ => .shareTokenP2PTransfer

/-- Its block timestamp. -/
def EarningsEvent.blockTimestamp : EarningsEvent → ℕ
  | .liquidityAdded _ _ blockTimestamp => blockTimestamp
  | .liquidityRemoved _ _ blockTimestamp => blockTimestamp
  | .p2pTransfer x => x.blockTimestamp

/-- The time of an insert. -/
def EarningsDelivery.time (d : EarningsDelivery) : InsertTime := ⟨d.event.blockTimestamp, d.now⟩

/-- The insert a delivery leads to. -/
def EarningsDelivery.insert (env : TransferEnv) (t : EarningsTable) (d : EarningsDelivery) :
    EarningsTable :=
  match d.event with
  | .liquidityAdded e txHash _ => insertLiquidityAdded t e txHash d.isCollectedByEvent d.time
  | .liquidityRemoved e txHash _ => insertLiquidityRemoved t e txHash d.isCollectedByEvent d.time
  | .p2pTransfer x =>
      insertShareTokenP2PTransfer env t x.event x.poolId x.txHash d.isCollectedByEvent d.time

/-- A sequence of deliveries. -/
def deliverEarnings (env : TransferEnv) (t : EarningsTable) (deliveries : List EarningsDelivery) :
    EarningsTable :=
  deliveries.foldl (EarningsDelivery.insert env) t

/-- The columns hold the amounts of the event; of a transfer those of one of its legs. -/
def EarningsEvent.storable (env : TransferEnv) : EarningsEvent → Bool
  | .liquidityAdded e _ _ => fitsDecimal40 e.tokenAmount && fitsDecimal40 e.shareAmount
  | .liquidityRemoved e _ _ => fitsDecimal40 e.tokenAmount && fitsDecimal40 e.shareAmount
  | .p2pTransfer x =>
      match env.getMarginTokenDecimals x.poolId with
      | none => false
      | some decN =>
          match floatToDecN env.mathPow10 x.event.tokensAmnt decN with
          | none => false
          | some tokens =>
              (fitsDecimal40 tokens || fitsDecimal40 ⌊x.event.tokensAmnt⌋) &&
                fitsDecimal40 x.event.amountD18

/-- There is room for a row: its transaction has none of its type, and its key is free. -/
def vacant (t : EarningsTable) (key : ℕ × String) (type : EstimatedEarningsEventType) : Bool :=
  !recordExists t key.2 type && (t.get? key).isNone

/-- A delivery that stores a row: there is room for it and its amounts fit. -/
def EarningsDelivery.stores (env : TransferEnv) (t : EarningsTable) (d : EarningsDelivery) : Bool :=
  vacant t d.event.key d.event.eventType && d.event.storable env

/-! ## Time and type of the rows -/

/-- Time and type of the row of a key. -/
def stamps (t : EarningsTable) (key : ℕ × String) : Option (ℕ × EstimatedEarningsEventType) :=
  (t.get? key).map fun row => (row.createdAt, row.eventType)

theorem recordExists_iff_stamps {t : EarningsTable} {txHash : String}
    {type : EstimatedEarningsEventType} :
    recordExists t txHash type = true ↔
      ∃ poolId time, stamps t (poolId, txHash) = some (time, type) := by
  rw [recordExists_iff]
  constructor
  · rintro ⟨⟨poolId, txHash'⟩, row, hget, rfl, rfl⟩
    exact ⟨poolId, row.createdAt, by simp [stamps, hget]⟩
  · rintro ⟨poolId, time, h⟩
    obtain ⟨row, hget, hrow⟩ := Option.map_eq_some_iff.1 h
    exact ⟨(poolId, txHash), row, hget, rfl, (Prod.mk.inj hrow).2⟩

/-- Room is a matter of the stamps. -/
theorem vacant_congr {t t' : EarningsTable} (h : stamps t' = stamps t) (key : ℕ × String)
    (type : EstimatedEarningsEventType) : vacant t' key type = vacant t key type := by
  have hex : recordExists t' key.2 type = recordExists t key.2 type := by
    rw [Bool.eq_iff_iff, recordExists_iff_stamps, recordExists_iff_stamps, h]
  have hget : (t'.get? key).isNone = (t.get? key).isNone := by
    simpa [stamps] using congrArg Option.isNone (congrFun h key)
  rw [vacant, vacant, hex, hget]

/-- A row that is there leaves no room. -/
theorem vacant_eq_false {t : EarningsTable} {key : ℕ × String} {time : ℕ}
    {type : EstimatedEarningsEventType} (h : stamps t key = some (time, type)) :
    vacant t key type = false := by
  have hex : recordExists t key.2 type = true := recordExists_iff_stamps.2 ⟨key.1, time, h⟩
  rw [vacant, hex]
  rfl

theorem stamps_updateRecord (t : EarningsTable) (key : ℕ × String) (shAmount : ℤ) :
    stamps (updateRecord t key shAmount) = stamps t := by
  funext j
  unfold updateRecord
  split
  · rename_i row hget
    split
    · unfold stamps
      rw [OrdMap.get?_set]
      split
      · rename_i h
        rw [← h, hget]
        rfl
      · rfl
    · rfl
  · rfl

/-- One insert: it changes time and type of the row of its key, if there is room and the amounts
fit. -/
theorem stamps_insert_one (t : EarningsTable) (wallet : String) (amount shAmount : ℤ)
    (poolId : ℕ) (txHash : String) (type : EstimatedEarningsEventType) (isCollectedByEvent : Bool)
    (time : InsertTime) :
    stamps (EstimatedEarnings.insert t wallet amount shAmount poolId txHash type
        isCollectedByEvent time) =
      if vacant t (poolId, txHash) type && (fitsDecimal40 amount && fitsDecimal40 shAmount) then
        Function.update (stamps t) (poolId, txHash) (some (time.createdAt, type))
      else stamps t := by
  unfold EstimatedEarnings.insert createRecord vacant
  cases hex : recordExists t txHash type with
  | true =>
    simp only [if_true, Bool.not_true, Bool.false_and, Bool.false_eq_true, if_false]
    split
    · rfl
    · exact stamps_updateRecord t _ _
  | false =>
    simp only [Bool.false_eq_true, if_false, Bool.not_false, Bool.true_and, Option.all_some,
      Bool.and_assoc]
    split
    · funext j
      simp only [stamps, OrdMap.get?_set, Function.update_apply, eq_comm (a := j)]
      split
      · rfl
      · rfl
    · rfl

variable (env : TransferEnv)

/-- The two legs of a transfer: the second one stores a row only if the first one does not fit. -/
theorem stamps_insertShareTokenP2PTransfer (t : EarningsTable) (x : ShareTransfer)
    (isCollectedByEvent : Bool) (time : InsertTime) :
    stamps (insertShareTokenP2PTransfer env t x.event x.poolId x.txHash isCollectedByEvent time) =
      if vacant t (x.poolId, x.txHash) .shareTokenP2PTransfer &&
          (EarningsEvent.p2pTransfer x).storable env then
        Function.update (stamps t) (x.poolId, x.txHash)
          (some (time.createdAt, .shareTokenP2PTransfer))
      else stamps t := by
  unfold insertShareTokenP2PTransfer EarningsEvent.storable
  cases hdec : env.getMarginTokenDecimals x.poolId with
  | none => simp [hdec]
  | some decN =>
    cases htokens : floatToDecN env.mathPow10 x.event.tokensAmnt decN with
    | none => simp [hdec, htokens]
    | some tokens =>
      have hfirst := stamps_insert_one t x.event.fromAddr tokens x.event.amountD18 x.poolId
        x.txHash .shareTokenP2PTransfer isCollectedByEvent time
      simp only [hdec, htokens, stamps_insert_one, fitsDecimal40_neg]
      split at hfirst
      · -- the first leg has its row
        rename_i hstores
        simp only [Bool.and_eq_true] at hstores
        have htaken : vacant (EstimatedEarnings.insert t x.event.fromAddr tokens x.event.amountD18
            x.poolId x.txHash .shareTokenP2PTransfer isCollectedByEvent time)
            (x.poolId, x.txHash) .shareTokenP2PTransfer = false := by
          apply vacant_eq_false
          rw [hfirst, Function.update_self]
        simp [htaken, hstores.1, hstores.2.1, hstores.2.2]
      · rename_i hnot
        rw [vacant_congr hfirst]
        have hcond : (vacant t (x.poolId, x.txHash) .shareTokenP2PTransfer &&
              (fitsDecimal40 ⌊x.event.tokensAmnt⌋ && fitsDecimal40 x.event.amountD18)) =
            (vacant t (x.poolId, x.txHash) .shareTokenP2PTransfer &&
              ((fitsDecimal40 tokens || fitsDecimal40 ⌊x.event.tokensAmnt⌋) &&
                fitsDecimal40 x.event.amountD18)) := by
          revert hnot
          cases vacant t (x.poolId, x.txHash) .shareTokenP2PTransfer <;>
            cases fitsDecimal40 tokens <;> cases fitsDecimal40 x.event.amountD18 <;> simp
        rw [hcond, if_neg hnot]

/-- **One delivery.**  It changes time and type of the row of its event, if it stores one. -/
theorem stamps_insert (t : EarningsTable) (d : EarningsDelivery) :
    stamps (d.insert env t) =
      if d.stores env t then
        Function.update (stamps t) d.event.key (some (d.time.createdAt, d.event.eventType))
      else stamps t := by
  unfold EarningsDelivery.insert EarningsDelivery.stores
  cases d.event with
  | liquidityAdded e txHash blockTimestamp =>
    have hone := stamps_insert_one t e.user (e.tokenAmount * -1) (e.shareAmount * -1) e.poolId
      txHash .liquidityAdded d.isCollectedByEvent d.time
    rw [fitsDecimal40_neg, fitsDecimal40_neg] at hone
    exact hone
  | liquidityRemoved e txHash blockTimestamp =>
    exact stamps_insert_one t e.user e.tokenAmount e.shareAmount e.poolId txHash
      .liquidityRemoved d.isCollectedByEvent d.time
  | p2pTransfer x =>
    exact stamps_insertShareTokenP2PTransfer env t x d.isCollectedByEvent d.time

/-! ## Transfers without a row -/

/-- The transfer has its row. -/
def HasRow (t : EarningsTable) (x : ShareTransfer) : Prop :=
  ∃ row, t.get? (x.poolId, x.txHash) = some row ∧ row.eventType = .shareTokenP2PTransfer

/-- No transfer newer than the default start is missed by a backfill that starts now. -/
def P2PSound (transfers : List ShareTransfer) (defaultDate : ℤ) (t : EarningsTable) : Prop :=
  ∀ x ∈ transfers, defaultDate < (x.blockTimestamp : ℤ) * 1000 → ¬ HasRow t x →
    p2pTimestamp t defaultDate x.poolId ≤ (x.blockTimestamp : ℤ) * 1000

theorem hasRow_iff_stamps {t : EarningsTable} {x : ShareTransfer} :
    HasRow t x ↔ ∃ time, stamps t (x.poolId, x.txHash) = some (time, .shareTokenP2PTransfer) := by
  constructor
  · rintro ⟨row, hget, htype⟩
    exact ⟨row.createdAt, by simp [stamps, hget, htype]⟩
  · rintro ⟨time, h⟩
    obtain ⟨row, hget, hrow⟩ := Option.map_eq_some_iff.1 h
    exact ⟨row, hget, (Prod.mk.inj hrow).2⟩

theorem mem_poolTimes {t : EarningsTable} {poolId c : ℕ} :
    c ∈ poolTimes t poolId ↔ ∃ txHash type, stamps t (poolId, txHash) = some (c, type) := by
  rw [poolTimes, List.mem_map]
  constructor
  · rintro ⟨⟨⟨pool, txHash⟩, row⟩, hmem, rfl⟩
    obtain ⟨hin, hpool⟩ := List.mem_filter.1 hmem
    obtain rfl : pool = poolId := of_decide_eq_true hpool
    exact ⟨txHash, row.eventType, by simp [stamps, OrdMap.get?_eq_some.2 hin]⟩
  · rintro ⟨txHash, type, h⟩
    obtain ⟨row, hget, hrow⟩ := Option.map_eq_some_iff.1 h
    exact ⟨((poolId, txHash), row), List.mem_filter.2
      ⟨OrdMap.get?_eq_some.1 hget, decide_eq_true rfl⟩, (Prod.mk.inj hrow).1⟩

/-- The date is not later than a time exactly if no row of the pool is. -/
theorem p2pTimestamp_le_iff {t : EarningsTable} {defaultDate : ℤ} {poolId time : ℕ}
    (hdefault : defaultDate < (time : ℤ) * 1000) :
    p2pTimestamp t defaultDate poolId ≤ (time : ℤ) * 1000 ↔
      ∀ c ∈ poolTimes t poolId, c ≤ time := by
  unfold p2pTimestamp getLatestTimestampP2PTransfer
  cases hmax : (poolTimes t poolId).max? with
  | none =>
    have hnil : poolTimes t poolId = [] := List.max?_eq_none_iff.1 hmax
    simpa [hnil] using hdefault.le
  | some m =>
    rw [← List.max?_le_iff hmax]
    show (m : ℤ) * 1000 ≤ (time : ℤ) * 1000 ↔ m ≤ time
    omega

/-- What is stored goes where nothing was. -/
theorem stamps_of_stores {t : EarningsTable} {d : EarningsDelivery} (hd : d.stores env t = true) :
    stamps t d.event.key = none := by
  have hnone : (t.get? d.event.key).isNone = true := by
    simp only [EarningsDelivery.stores, vacant, Bool.and_eq_true] at hd
    exact hd.1.2
  simp [stamps, Option.isNone_iff_eq_none.1 hnone]

/-- The rows a delivery leaves: those before, and the one it stores. -/
theorem mem_poolTimes_insert {t : EarningsTable} {d : EarningsDelivery} {poolId c : ℕ}
    (hd : d.stores env t = true) :
    c ∈ poolTimes (d.insert env t) poolId ↔
      c ∈ poolTimes t poolId ∨ poolId = d.event.key.1 ∧ c = d.time.createdAt := by
  have hfree := stamps_of_stores env hd
  rw [mem_poolTimes, mem_poolTimes, stamps_insert, if_pos hd]
  constructor
  · rintro ⟨txHash, type, h⟩
    by_cases hkey : (poolId, txHash) = d.event.key
    · rw [hkey, Function.update_self] at h
      exact Or.inr ⟨congrArg Prod.fst hkey, (Prod.mk.inj (Option.some.inj h)).1.symm⟩
    · rw [Function.update_of_ne hkey] at h
      exact Or.inl ⟨txHash, type, h⟩
  · rintro (⟨txHash, type, h⟩ | ⟨rfl, rfl⟩)
    · have hkey : (poolId, txHash) ≠ d.event.key := by
        intro hkey
        rw [hkey, hfree] at h
        cases h
      exact ⟨txHash, type, by rw [Function.update_of_ne hkey]; exact h⟩
    · exact ⟨d.event.key.2, d.event.eventType, by rw [Prod.mk.eta, Function.update_self]⟩

/-- The transfers with a row: those before, and the one delivered. -/
theorem hasRow_insert {t : EarningsTable} {d : EarningsDelivery} {x : ShareTransfer}
    (hd : d.stores env t = true) :
    HasRow (d.insert env t) x ↔
      HasRow t x ∨ (x.poolId, x.txHash) = d.event.key ∧
        d.event.eventType = .shareTokenP2PTransfer := by
  have hfree := stamps_of_stores env hd
  rw [hasRow_iff_stamps, hasRow_iff_stamps, stamps_insert, if_pos hd]
  by_cases hkey : (x.poolId, x.txHash) = d.event.key
  · rw [hkey, hfree, Function.update_self]
    simp
  · rw [Function.update_of_ne hkey]
    simp [hkey]

/-! ## Runs -/

/-- A delivery stores a row while an older transfer of its pool is missing. -/
def Overtakes (transfers : List ShareTransfer) (defaultDate : ℤ) (t : EarningsTable)
    (d : EarningsDelivery) : Prop :=
  d.stores env t = true ∧ ∃ x ∈ transfers, x.poolId = d.event.key.1 ∧
    defaultDate < (x.blockTimestamp : ℤ) * 1000 ∧ x.blockTimestamp < d.time.createdAt ∧
    ¬ HasRow t x ∧
    ¬ (x.txHash = d.event.key.2 ∧ d.event.eventType = .shareTokenP2PTransfer)

/-- The empty table starts every filter at the default. -/
theorem p2pSound_empty (transfers : List ShareTransfer) (defaultDate : ℤ) :
    P2PSound transfers defaultDate OrdMap.empty := by
  intro x _ hnew _
  exact hnew.le

/-- **One delivery.**  From a sound state it leads to a sound one exactly if it does not overtake
a missing transfer. -/
theorem p2pSound_insert_iff {transfers : List ShareTransfer} {defaultDate : ℤ} {t : EarningsTable}
    (h : P2PSound transfers defaultDate t) (d : EarningsDelivery) :
    P2PSound transfers defaultDate (d.insert env t) ↔
      ¬ Overtakes env transfers defaultDate t d := by
  cases hd : d.stores env t with
  | false =>
    have hsame : stamps (d.insert env t) = stamps t := by
      rw [stamps_insert, if_neg (by rw [hd]; exact Bool.false_ne_true)]
    have hno : ¬ Overtakes env transfers defaultDate t d := by
      rintro ⟨hstores, -⟩
      rw [hd] at hstores
      cases hstores
    apply iff_of_true _ hno
    intro x hx hnew hmissing
    rw [hasRow_iff_stamps, hsame, ← hasRow_iff_stamps] at hmissing
    rw [p2pTimestamp_le_iff hnew]
    intro c hc
    rw [mem_poolTimes, hsame, ← mem_poolTimes] at hc
    exact (p2pTimestamp_le_iff hnew).1 (h x hx hnew hmissing) c hc
  | true =>
    constructor
    · rintro hsound ⟨-, x, hx, hpool, hnew, holder, hmissing, hother⟩
      have hmissing' : ¬ HasRow (d.insert env t) x := by
        rw [hasRow_insert env hd]
        rintro (hrow | ⟨hkey, htype⟩)
        · exact hmissing hrow
        · exact hother ⟨congrArg Prod.snd hkey, htype⟩
      have hle := (p2pTimestamp_le_iff hnew).1 (hsound x hx hnew hmissing') d.time.createdAt
        ((mem_poolTimes_insert env hd).2 (Or.inr ⟨hpool, rfl⟩))
      omega
    · intro hno x hx hnew hmissing
      rw [hasRow_insert env hd, not_or] at hmissing
      rw [p2pTimestamp_le_iff hnew]
      intro c hc
      rcases (mem_poolTimes_insert env hd).1 hc with hc | ⟨hpool, rfl⟩
      · exact (p2pTimestamp_le_iff hnew).1 (h x hx hnew hmissing.1) c hc
      · by_contra hlate
        refine hno ⟨hd, x, hx, hpool, hnew, by omega, hmissing.1, ?_⟩
        rintro ⟨htx, htype⟩
        exact hmissing.2 ⟨Prod.ext hpool htx, htype⟩

/-- **When the date is sound.**  In every state of a run on the empty table no missing transfer
newer than the default start is older than the start of its pool, if and only if no delivery of
the run stores a row while an older transfer of its pool is missing. -/
theorem p2pWatermark_iff (transfers : List ShareTransfer) (defaultDate : ℤ)
    (deliveries : List EarningsDelivery) :
    (∀ done, done <+: deliveries →
        P2PSound transfers defaultDate (deliverEarnings env OrdMap.empty done)) ↔
      ∀ done d, done ++ [d] <+: deliveries →
        ¬ Overtakes env transfers defaultDate (deliverEarnings env OrdMap.empty done) d := by
  have hconcat : ∀ done d, deliverEarnings env OrdMap.empty (done ++ [d]) =
      d.insert env (deliverEarnings env OrdMap.empty done) := by
    intro done d
    simp [deliverEarnings]
  constructor
  · intro h done d hdone
    rw [← p2pSound_insert_iff env (h done ((List.prefix_append done [d]).trans hdone)) d,
      ← hconcat]
    exact h (done ++ [d]) hdone
  · intro h done
    induction done using List.reverseRecOn with
    | nil => exact fun _ => p2pSound_empty transfers defaultDate
    | append_singleton done d ih =>
      intro hdone
      rw [hconcat, p2pSound_insert_iff env (ih ((List.prefix_append done [d]).trans hdone)) d]
      exact h done d hdone

/-- A transfer of two shares in pool 1 at second 100. -/
def missedTransfer : ShareTransfer := ⟨twoShares, 1, "0xaa", 100⟩

/-- A provider adds liquidity to pool 1 at second 200; the listener delivers only this. -/
def laterDeposit : EarningsDelivery :=
  ⟨.liquidityAdded ⟨1, "0xb2", 10, 9⟩ "0xbb" 200, true, 201⟩

/-- The row of the deposit moves the start past the transfer. -/
theorem laterDeposit_hides_transfer :
    0 < (missedTransfer.blockTimestamp : ℤ) * 1000 ∧
      ¬ (∃ e ∈ (deliverEarnings sixDecimals OrdMap.empty [laterDeposit]).entries,
        e.1 = (missedTransfer.poolId, missedTransfer.txHash)) ∧
      p2pTimestamp (deliverEarnings sixDecimals OrdMap.empty [laterDeposit]) 0
        missedTransfer.poolId = 200000 := by
  decide

end TraderBackend
