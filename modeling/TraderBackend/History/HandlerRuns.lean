import TraderBackend.History.Handlers
import TraderBackend.History.LongIdPartition

/-!
# What handlers leave behind

However the handlers of a run interleave: as long as no insert takes the place of another one's
row, no row is lost, the row of every insert is there when its handler has come to its end, and
there are no rows but those.

* `DbRow` — a row of some table; `DbJob.row` is the one an insert writes.
* `DbJob.Stored` — the row of an insert is there, with the data of its event.
* `OwnPlaces` — the inserts do not take each other's places.
* `DbJob.step_spec` — a database call, assembled from one lemma for each table.
* `handlers_run` — a whole run of handlers.
-/

namespace TraderBackend

open JsString

/-! ## Rows -/

/-- A row without its flag, which each delivery of its event may change. -/
def Trade.content (row : Trade) : Trade := { row with isCollectedByEvent := false }

def Settle.content (row : Settle) : Settle := { row with isCollectedByEvent := false }

def TokenFlow.content (row : TokenFlow) : TokenFlow := { row with isCollectedByEvent := false }

def FundingRatePayment.content (row : FundingRatePayment) : FundingRatePayment :=
  { row with isCollectedByEvent := false }

/-- Of the row of a share token transfer only the type: its two inserts share it. -/
def EstimatedEarningTokens.content (row : EstimatedEarningTokens) : EstimatedEarningTokens :=
  if row.eventType = .shareTokenP2PTransfer then ⟨"", none, 0, 0, .shareTokenP2PTransfer, false⟩
  else { row with isCollectedByEvent := false }

def LiquidityWithdrawal.content (row : LiquidityWithdrawal) : LiquidityWithdrawal :=
  { row with isCollectedByEvent := false }

/-- A name without the end of its interval, which later events and the alignment move. -/
def PerpetualLongId.content (row : PerpetualLongId) : PerpetualLongId :=
  { row with validTo := farDate }

@[simp] theorem EstimatedEarningTokens.content_eventType (row : EstimatedEarningTokens) :
    row.content.eventType = row.eventType := by
  unfold EstimatedEarningTokens.content
  split
  · rename_i htransfer
    exact htransfer.symm
  · rfl

/-- A row of some table with its key, as `content` shows it. -/
inductive DbRow where
  | trade (key : String) (row : Trade)
  | settle (key : String × ℕ × String) (row : Settle)
  | tokenFlow (key : String × ℕ × String × Bool) (row : TokenFlow)
  | fundingRatePayment (key : String × String) (row : FundingRatePayment)
  | estimatedEarning (key : ℕ × String) (row : EstimatedEarningTokens)
  | liquidityWithdrawal (key : String × String) (row : LiquidityWithdrawal)
  | perpetualLongId (key : String) (row : PerpetualLongId)
  deriving DecidableEq

/-- The tables have the row. -/
def HistoryDb.Has (db : HistoryDb) : DbRow → Prop
  | .trade key row => db.trade.Holds Trade.content key row
  | .settle key row => db.settle.Holds Settle.content key row
  | .tokenFlow key row => db.tokenFlow.Holds TokenFlow.content key row
  | .fundingRatePayment key row =>
      db.fundingRatePayment.Holds FundingRatePayment.content key row
  | .estimatedEarning key row =>
      db.estimatedEarningTokens.Holds EstimatedEarningTokens.content key row
  | .liquidityWithdrawal key row =>
      db.liquidityWithdrawal.Holds LiquidityWithdrawal.content key row
  | .perpetualLongId key row => db.perpetualLongId.Holds PerpetualLongId.content key row

/-- Only one of the rows can be there: they have one key, or are earnings of one transaction and
type. -/
def DbRow.SamePlace : DbRow → DbRow → Prop
  | .trade key _, .trade key' _ => key = key'
  | .settle key _, .settle key' _ => key = key'
  | .tokenFlow key _, .tokenFlow key' _ => key = key'
  | .fundingRatePayment key _, .fundingRatePayment key' _ => key = key'
  | .estimatedEarning key row, .estimatedEarning key' row' =>
      key.2 = key'.2 ∧ (key.1 = key'.1 ∨ row.eventType = row'.eventType)
  | .liquidityWithdrawal key _, .liquidityWithdrawal key' _ => key = key'
  | .perpetualLongId key _, .perpetualLongId key' _ => key = key'
  | _, _ => False

theorem DbRow.SamePlace.symm {r r' : DbRow} (h : r.SamePlace r') : r'.SamePlace r := by
  cases r <;> cases r' <;> first | exact h.elim | exact Eq.symm h | skip
  exact ⟨h.1.symm, h.2.imp Eq.symm Eq.symm⟩

/-- The row an insert writes. -/
def DbJob.row (sha256Hex : String → String) : DbJob → Option DbRow
  | .trade e txHash _ blockTimestamp blockNumber =>
      some (.trade (e.digest sha256Hex blockNumber) (e.row txHash false blockTimestamp))
  | .settle e txHash _ blockTimestamp =>
      some (.settle (e.key txHash) ⟨e.amount - e.cash, e.cash, blockTimestamp, false⟩)
  | .tokenDeposit e txHash _ blockTimestamp =>
      some (.tokenFlow (e.key txHash true) ⟨e.amountCC, blockTimestamp, false⟩)
  | .tokenWithdraw e txHash _ blockTimestamp =>
      some (.tokenFlow (e.key txHash false) ⟨-e.amountCC, blockTimestamp, false⟩)
  | .fundingRatePayment e txHash _ blockTimestamp =>
      some (.fundingRatePayment (toLowerCase e.trader, toLowerCase txHash)
        ⟨e.perpetualId, e.fFundingPaymentCC, blockTimestamp, false⟩)
  | .estimatedEarning wallet amount shAmount poolId txHash type _ blockTimestamp =>
      some (.estimatedEarning (poolId, txHash) (EstimatedEarningTokens.content
        ⟨toLowerCase wallet, some shAmount, amount, blockTimestamp, type, false⟩))
  | .liquidityWithdrawal e isLiquidityRemovedEvent txHash _ blockTimestamp =>
      some (.liquidityWithdrawal (e.key txHash)
        ⟨e.poolId, e.shareAmount, isLiquidityRemovedEvent, blockTimestamp, false⟩)
  | .perpetualLongId log => log.currDate.map fun currDate => .perpetualLongId log.key
      (log.row currDate)
  | .alignTimestamps _ => none

/-- The row of the insert is there, with the data of its event. -/
def DbJob.Stored (sha256Hex : String → String) (db : HistoryDb) (job : DbJob) : Prop :=
  ∀ r, job.row sha256Hex = some r → db.Has r

/-- The columns can hold the row. -/
def DbJob.Fits : DbJob → Prop
  | .estimatedEarning _ amount shAmount _ _ _ _ _ =>
      fitsDecimal40 amount = true ∧ fitsDecimal40 shAmount = true
  | .liquidityWithdrawal e _ _ _ _ => fitsDecimal40 e.shareAmount = true
  | .perpetualLongId log => log.currDate.isSome
  | _ => True

/-- The insert is one of a share token transfer. -/
def DbJob.isTransfer : DbJob → Bool
  | .estimatedEarning _ _ _ _ _ .shareTokenP2PTransfer _ _ => true
  | _ => false

/-- The time of an earning is not the epoch. -/
def DbJob.WellFormed : DbJob → Prop
  | .estimatedEarning _ _ _ _ _ type _ blockTimestamp =>
      type = .shareTokenP2PTransfer ∨ 0 < blockTimestamp
  | _ => True

/-- What was there is still there. -/
def HistoryDb.Grows (db db' : HistoryDb) : Prop := ∀ r, db.Has r → db'.Has r

theorem HistoryDb.Grows.refl (db : HistoryDb) : db.Grows db := fun _ h => h

theorem HistoryDb.Grows.trans {db db' db'' : HistoryDb} (h : db.Grows db') (h' : db'.Grows db'') :
    db.Grows db'' := fun r hr => h' r (h r hr)

theorem DbJob.Stored.mono {sha256Hex : String → String} {db db' : HistoryDb} (h : db.Grows db')
    {job : DbJob} (hjob : job.Stored sha256Hex db) : job.Stored sha256Hex db' :=
  fun r hr => h r (hjob r hr)

/-- The queries for the newest row; some events share one. -/
inductive Watermark where
  | trade
  | liquidate
  | settle
  | tokenFlow
  | funding
  | liquidityAdded
  | withdrawalInitiated
  | setOracles
  deriving DecidableEq

/-- The watermark that may be read from a row, with its time in milliseconds. -/
def DbRow.stamp : DbRow → Option (Watermark × ℕ)
  | .trade _ row =>
      some (if row.side.isLiquidation then .liquidate else .trade, row.tradeTimestamp * 1000)
  | .settle _ row => some (.settle, row.timestamp * 1000)
  | .tokenFlow _ row => some (.tokenFlow, row.timestamp * 1000)
  | .fundingRatePayment _ row => some (.funding, row.paymentTimestamp * 1000)
  | .estimatedEarning _ row =>
      if row.eventType = .liquidityAdded then some (.liquidityAdded, row.createdAt * 1000) else none
  | .liquidityWithdrawal _ row =>
      if row.isRemoval then none else some (.withdrawalInitiated, row.timestamp * 1000)
  | .perpetualLongId _ row => some (.setOracles, row.validFrom)

/-- A row a watermark may be read from has this time, in milliseconds. -/
def HistoryDb.Stamp (db : HistoryDb) (w : Watermark) (date : ℕ) : Prop :=
  ∃ r, db.Has r ∧ r.stamp = some (w, date)

/-! ## Places -/

section

variable {sha256Hex : String → String} {inserts : DbJob → Prop} {db : HistoryDb} {job : DbJob}

/-- No insert takes the place of another one's row, unless it is the same row; those of share
token transfers may stand in each other's way. -/
def OwnPlaces (sha256Hex : String → String) (inserts : DbJob → Prop) : Prop :=
  ∀ job, inserts job → job.isTransfer = false → ∀ other, inserts other → ∀ r r',
    job.row sha256Hex = some r → other.row sha256Hex = some r' → r.SamePlace r' → r = r'

/-- Every row is that of an insert. -/
def HistoryDb.From (sha256Hex : String → String) (inserts : DbJob → Prop) (db : HistoryDb) : Prop :=
  ∀ r, db.Has r → ∃ job, inserts job ∧ job.row sha256Hex = some r

/-- Nothing else is at the place of an insert's row. -/
theorem eq_of_samePlace (hown : OwnPlaces sha256Hex inserts) (hdb : db.From sha256Hex inserts)
    (hjob : inserts job) (htransfer : job.isTransfer = false) {r r' : DbRow}
    (hr : job.row sha256Hex = some r) (hr' : db.Has r') (hplace : r.SamePlace r') : r' = r := by
  obtain ⟨other, hother, hrow⟩ := hdb r' hr'
  exact (hown job hjob htransfer other hother r r' hr hrow hplace).symm

/-- The row of a share token transfer's insert. -/
theorem row_of_isTransfer (h : job.isTransfer = true) {r : DbRow}
    (hr : job.row sha256Hex = some r) :
    ∃ key, r = .estimatedEarning key ⟨"", none, 0, 0, .shareTokenP2PTransfer, false⟩ := by
  cases job with
  | estimatedEarning wallet amount shAmount poolId txHash type isCollectedByEvent blockTimestamp =>
    cases type with
    | shareTokenP2PTransfer => exact ⟨_, (Option.some.inj hr).symm⟩
    | _ => cases h
  | _ => cases h

/-- Nothing else is under the key of an earning. -/
theorem eq_of_earningKey (hown : OwnPlaces sha256Hex inserts) (hdb : db.From sha256Hex inserts)
    (hjob : inserts job) {key : ℕ × String} {x y : EstimatedEarningTokens}
    (hr : job.row sha256Hex = some (.estimatedEarning key x))
    (hy : db.Has (.estimatedEarning key y)) : y = x := by
  obtain ⟨other, hother, hrow⟩ := hdb _ hy
  have hplace : (DbRow.estimatedEarning key x).SamePlace (.estimatedEarning key y) :=
    ⟨rfl, Or.inl rfl⟩
  cases htransfer : job.isTransfer with
  | false =>
    have heq := hown job hjob htransfer other hother _ _ hr hrow hplace
    exact (DbRow.estimatedEarning.inj heq).2.symm
  | true =>
    cases htransfer' : other.isTransfer with
    | false =>
      have heq := hown other hother htransfer' job hjob _ _ hrow hr hplace.symm
      exact (DbRow.estimatedEarning.inj heq).2
    | true =>
      obtain ⟨_, hx⟩ := row_of_isTransfer htransfer hr
      obtain ⟨_, hy⟩ := row_of_isTransfer htransfer' hrow
      rw [(DbRow.estimatedEarning.inj hx).2, (DbRow.estimatedEarning.inj hy).2]

end

/-! ## One lemma for each table -/

section

variable {sha256Hex : String → String} {db db' : HistoryDb} {job : DbJob}

/-- What a database call may do: nothing is lost, and a new row is that of the insert, which the
columns can hold. -/
structure DbJob.Adds (sha256Hex : String → String) (job : DbJob) (db db' : HistoryDb) : Prop where
  grows : db.Grows db'
  rows : ∀ r, db'.Has r → db.Has r ∨ (job.Fits ∧ job.row sha256Hex = some r)

theorem DbJob.Adds.of_same (h : ∀ r, db'.Has r ↔ db.Has r) : job.Adds sha256Hex db db' where
  grows r hr := (h r).2 hr
  rows r hr := Or.inl ((h r).1 hr)

theorem DbJob.Adds.of_row (hfits : job.Fits)
    (h : ∀ r, db'.Has r ↔ db.Has r ∨ job.row sha256Hex = some r) : job.Adds sha256Hex db db' where
  grows r hr := (h r).2 (Or.inl hr)
  rows r hr := ((h r).1 hr).imp_right fun hrow => ⟨hfits, hrow⟩

theorem has_trade (e : TradeHistoryEvent) (txHash : String) (isCollectedByEvent : Bool)
    {blockTimestamp blockNumber : ℕ}
    (hown : ∀ y, db.Has (.trade (e.digest sha256Hex blockNumber) y) →
      y = e.row txHash false blockTimestamp) (r : DbRow) :
    { db with
      trade := insertTradeHistoryRecord sha256Hex db.trade e txHash isCollectedByEvent
        blockTimestamp blockNumber }.Has r ↔
      db.Has r ∨ (DbJob.trade e txHash isCollectedByEvent blockTimestamp blockNumber).row
        sha256Hex = some r := by
  have hcontent : (e.row txHash isCollectedByEvent blockTimestamp).content =
      e.row txHash false blockTimestamp := by
    cases e <;> rfl
  cases r with
  | trade j y =>
    rw [DbJob.row, Option.some.injEq, DbRow.trade.injEq, ← hcontent]
    refine OrdMap.holds_upsert (fun y hy => ?_) fun old hold => ?_
    · rw [hcontent]
      exact hown y hy
    · rw [hcontent] at hold ⊢
      have hkept : old.content = { old.content with tradeTimestamp := blockTimestamp } := by
        rw [hold]
        cases e <;> rfl
      exact hkept.symm.trans hold
  | _ => exact (or_iff_left (by simp [DbJob.row])).symm

variable (sha256Hex) in
theorem has_settle (e : SettleEvent) (txHash : String) (isCollectedByEvent : Bool)
    {blockTimestamp : ℕ}
    (hown : ∀ y, db.Has (.settle (e.key txHash) y) →
      y = ⟨e.amount - e.cash, e.cash, blockTimestamp, false⟩) (r : DbRow) :
    { db with
      settle := insertSettleHistoryRecord db.settle e txHash isCollectedByEvent
        blockTimestamp }.Has r ↔
      db.Has r ∨ (DbJob.settle e txHash isCollectedByEvent blockTimestamp).row sha256Hex =
        some r := by
  cases r with
  | settle j y =>
    rw [DbJob.row, Option.some.injEq, DbRow.settle.injEq]
    exact OrdMap.holds_upsert hown fun _ _ => rfl
  | _ => exact (or_iff_left (by simp [DbJob.row])).symm

/-- Deposits and withdrawals share a table; `amountCC` has the sign. -/
theorem has_tokenFlow (e : TokenFlowEvent) {txHash : String} (isCollectedByEvent : Bool)
    {blockTimestamp : ℕ} {isDeposit : Bool}
    (hrow : job.row sha256Hex =
      some (.tokenFlow (e.key txHash isDeposit) ⟨e.amountCC, blockTimestamp, false⟩))
    (hown : ∀ y, db.Has (.tokenFlow (e.key txHash isDeposit) y) →
      y = ⟨e.amountCC, blockTimestamp, false⟩) (r : DbRow) :
    { db with
      tokenFlow := insertTokenFlowRecord db.tokenFlow e txHash isCollectedByEvent
        blockTimestamp isDeposit }.Has r ↔ db.Has r ∨ job.row sha256Hex = some r := by
  rw [hrow]
  cases r with
  | tokenFlow j y =>
    rw [Option.some.injEq, DbRow.tokenFlow.injEq]
    refine OrdMap.holds_upsert hown fun old hold => ?_
    show TokenFlow.mk old.amountCC blockTimestamp false = _
    rw [show old.amountCC = e.amountCC from congrArg TokenFlow.amountCC hold]
    rfl
  | _ => exact (or_iff_left (by simp)).symm

variable (sha256Hex) in
theorem has_fundingRatePayment (e : UpdateMarginAccountEvent) (txHash : String)
    (isCollectedByEvent : Bool) {blockTimestamp : ℕ}
    (hown : ∀ y, db.Has (.fundingRatePayment (toLowerCase e.trader, toLowerCase txHash) y) →
      y = ⟨e.perpetualId, e.fFundingPaymentCC, blockTimestamp, false⟩) :
    (∀ r, { db with
        fundingRatePayment := (fundingRatePaymentCalls e txHash isCollectedByEvent
          blockTimestamp).update db.fundingRatePayment }.Has r ↔ db.Has r) ∧
      ∀ r, { db with
        fundingRatePayment := (fundingRatePaymentCalls e txHash isCollectedByEvent
          blockTimestamp).create db.fundingRatePayment }.Has r ↔
        db.Has r ∨ (DbJob.fundingRatePayment e txHash isCollectedByEvent blockTimestamp).row
          sha256Hex = some r := by
  constructor
  · intro r
    cases r with
    | fundingRatePayment j y =>
      simp only [fundingRatePaymentCalls]
      split
      · rfl
      · exact OrdMap.holds_update fun _ _ => rfl
    | _ => rfl
  · intro r
    cases r with
    | fundingRatePayment j y =>
      rw [DbJob.row, Option.some.injEq, DbRow.fundingRatePayment.injEq]
      exact OrdMap.holds_create hown
    | _ => exact (or_iff_left (by simp [DbJob.row])).symm

/-- An update leaves alone what a row of the insert's event holds. -/
theorem content_updateRecord {old : EstimatedEarningTokens} {wallet : String}
    {amount shAmount : ℤ} {type : EstimatedEarningsEventType} {blockTimestamp : ℕ}
    (h : old.content = EstimatedEarningTokens.content
      ⟨wallet, some shAmount, amount, blockTimestamp, type, false⟩) :
    EstimatedEarningTokens.content
      { old with isCollectedByEvent := false, shareAmount := some shAmount } = old.content := by
  have htype : old.eventType = type := by
    have := congrArg EstimatedEarningTokens.eventType h
    simpa using this
  unfold EstimatedEarningTokens.content at h ⊢
  simp only [htype] at h ⊢
  split
  · rfl
  · rename_i hproxy
    rw [if_neg hproxy, if_neg hproxy] at h
    have hshares : old.shareAmount = some shAmount := congrArg EstimatedEarningTokens.shareAmount h
    rw [hshares]

theorem adds_estimatedEarning {wallet : String} {amount shAmount : ℤ} {poolId : ℕ}
    {txHash : String} {type : EstimatedEarningsEventType} {isCollectedByEvent : Bool}
    {blockTimestamp : ℕ} (k : ℕ)
    (hjob : (DbJob.estimatedEarning wallet amount shAmount poolId txHash type isCollectedByEvent
      blockTimestamp).WellFormed)
    (hown : ∀ y, db.Has (.estimatedEarning (poolId, txHash) y) → y =
      EstimatedEarningTokens.content
        ⟨toLowerCase wallet, some shAmount, amount, blockTimestamp, type, false⟩) :
    (∀ r, { db with
        estimatedEarningTokens := (estimatedEarningCalls wallet amount shAmount poolId txHash type
          isCollectedByEvent ⟨blockTimestamp, k⟩).update db.estimatedEarningTokens }.Has r ↔
        db.Has r) ∧
      (DbJob.estimatedEarning wallet amount shAmount poolId txHash type isCollectedByEvent
        blockTimestamp).Adds sha256Hex db
        { db with
          estimatedEarningTokens := (estimatedEarningCalls wallet amount shAmount poolId txHash
            type isCollectedByEvent ⟨blockTimestamp, k⟩).create db.estimatedEarningTokens } ∧
      ((DbJob.estimatedEarning wallet amount shAmount poolId txHash type isCollectedByEvent
        blockTimestamp).Fits →
        (DbJob.estimatedEarning wallet amount shAmount poolId txHash type isCollectedByEvent
          blockTimestamp).Stored sha256Hex
          { db with
            estimatedEarningTokens := (estimatedEarningCalls wallet amount shAmount poolId txHash
              type isCollectedByEvent ⟨blockTimestamp, k⟩).create db.estimatedEarningTokens }) := by
  refine ⟨?_, ?_⟩
  · intro r
    cases r with
    | estimatedEarning j y =>
      simp only [estimatedEarningCalls, updateRecord]
      split
      · rfl
      · split
        · rename_i old hold
          split
          · exact OrdMap.holds_set_of_some hold
              (content_updateRecord (hown _ (OrdMap.holds_iff.2 ⟨old, hold, rfl⟩)))
          · rfl
        · rfl
    | _ => rfl
  · have hcreated : EstimatedEarningTokens.content
        ⟨toLowerCase wallet, some shAmount, amount, InsertTime.createdAt ⟨blockTimestamp, k⟩, type,
          isCollectedByEvent⟩ = EstimatedEarningTokens.content
        ⟨toLowerCase wallet, some shAmount, amount, blockTimestamp, type, false⟩ := by
      rcases hjob with rfl | hpos
      · rfl
      · rw [InsertTime.createdAt, if_neg (Nat.pos_iff_ne_zero.1 hpos)]
        rfl
    simp only [estimatedEarningCalls, createRecord]
    split
    · rename_i hfree
      simp only [Bool.and_eq_true, Option.isNone_iff_eq_none] at hfree
      have hhas : ∀ r, { db with
          estimatedEarningTokens := db.estimatedEarningTokens.set (poolId, txHash)
            ⟨toLowerCase wallet, some shAmount, amount, InsertTime.createdAt ⟨blockTimestamp, k⟩,
              type, isCollectedByEvent⟩ }.Has r ↔
          db.Has r ∨ (DbJob.estimatedEarning wallet amount shAmount poolId txHash type
            isCollectedByEvent blockTimestamp).row sha256Hex = some r := by
        intro r
        cases r with
        | estimatedEarning j y =>
          rw [DbJob.row, Option.some.injEq, DbRow.estimatedEarning.injEq, ← hcreated]
          exact OrdMap.holds_set_of_none hfree.1.1
        | _ => exact (or_iff_left (by simp [DbJob.row])).symm
      exact ⟨.of_row ⟨hfree.1.2, hfree.2⟩ hhas, fun _ r hr => (hhas r).2 (Or.inr hr)⟩
    · rename_i htaken
      refine ⟨.of_same fun _ => Iff.rfl, ?_⟩
      -- the key is taken, by the event's own row
      rintro ⟨hamount, hshares⟩ r hr
      obtain rfl := Option.some.inj hr
      exact OrdMap.Holds.of_isSome hown
        (by simpa [hamount, hshares, Option.isSome_iff_ne_none] using htaken)

theorem adds_liquidityWithdrawal {e : WithdrawalEvent} {isLiquidityRemovedEvent : Bool}
    {txHash : String} (isCollectedByEvent : Bool) {blockTimestamp : ℕ}
    (hown : ∀ y, db.Has (.liquidityWithdrawal (e.key txHash) y) →
      y = ⟨e.poolId, e.shareAmount, isLiquidityRemovedEvent, blockTimestamp, false⟩) :
    (∀ r, { db with
        liquidityWithdrawal := (liquidityWithdrawalCalls e isLiquidityRemovedEvent txHash
          isCollectedByEvent blockTimestamp).update db.liquidityWithdrawal }.Has r ↔ db.Has r) ∧
      (DbJob.liquidityWithdrawal e isLiquidityRemovedEvent txHash isCollectedByEvent
        blockTimestamp).Adds sha256Hex db
        { db with
          liquidityWithdrawal := (liquidityWithdrawalCalls e isLiquidityRemovedEvent txHash
            isCollectedByEvent blockTimestamp).create db.liquidityWithdrawal } ∧
      ((DbJob.liquidityWithdrawal e isLiquidityRemovedEvent txHash isCollectedByEvent
        blockTimestamp).Fits →
        (DbJob.liquidityWithdrawal e isLiquidityRemovedEvent txHash isCollectedByEvent
          blockTimestamp).Stored sha256Hex
          { db with
            liquidityWithdrawal := (liquidityWithdrawalCalls e isLiquidityRemovedEvent txHash
              isCollectedByEvent blockTimestamp).create db.liquidityWithdrawal }) := by
  refine ⟨?_, ?_⟩
  · intro r
    cases r with
    | liquidityWithdrawal j y =>
      simp only [liquidityWithdrawalCalls]
      split
      · exact OrdMap.holds_update fun _ _ => rfl
      · rfl
    | _ => rfl
  · simp only [liquidityWithdrawalCalls]
    split
    · rename_i hfits
      have hhas : ∀ r, { db with
          liquidityWithdrawal := db.liquidityWithdrawal.create (e.key txHash)
            ⟨e.poolId, e.shareAmount, isLiquidityRemovedEvent, blockTimestamp,
              isCollectedByEvent⟩ }.Has r ↔
          db.Has r ∨ (DbJob.liquidityWithdrawal e isLiquidityRemovedEvent txHash
            isCollectedByEvent blockTimestamp).row sha256Hex = some r := by
        intro r
        cases r with
        | liquidityWithdrawal j y =>
          rw [DbJob.row, Option.some.injEq, DbRow.liquidityWithdrawal.injEq]
          exact OrdMap.holds_create hown
        | _ => exact (or_iff_left (by simp [DbJob.row])).symm
      exact ⟨.of_row hfits hhas, fun _ r hr => (hhas r).2 (Or.inr hr)⟩
    · rename_i hlong
      exact ⟨.of_same fun _ => Iff.rfl, fun hfits => absurd hfits hlong⟩

theorem adds_perpetualLongId {log : SetOraclesLog} {k : ℕ} {t : LongIdTable} {l l' : InsertAt}
    (hl : ∀ currDate, l = .create currDate → log.currDate = some currDate)
    (h : insertStep log k db.perpetualLongId l = some (t, l')) :
    (DbJob.perpetualLongId log).Adds sha256Hex db { db with perpetualLongId := t } := by
  rcases insertStep_cases h with rfl | ⟨key, currDate, old, -, hold, rfl⟩ |
    ⟨currDate, rfl, hnone, rfl⟩
  · exact .of_same fun _ => Iff.rfl
  · refine .of_same fun r => ?_
    cases r with
    | perpetualLongId j y => exact OrdMap.holds_set_of_some hold rfl
    | _ => rfl
  · have hdate := hl currDate rfl
    refine .of_row (by simp [DbJob.Fits, hdate]) fun r => ?_
    cases r with
    | perpetualLongId j y =>
      rw [DbJob.row, hdate, Option.map_some, Option.some.injEq, DbRow.perpetualLongId.injEq]
      exact OrdMap.holds_set_of_none hnone
    | _ => exact (or_iff_left (by simp [DbJob.row])).symm

theorem has_alignTimestamps (choice : JoinChoice) (r : DbRow) :
    { db with perpetualLongId := alignTimestamps choice db.perpetualLongId }.Has r ↔ db.Has r := by
  cases r with
  | perpetualLongId j y =>
    have hcontent : ∀ key (row : PerpetualLongId),
        (alignRow choice db.perpetualLongId key row).content = row.content := by
      intro key row
      unfold alignRow
      split <;> rfl
    simp only [HistoryDb.Has, OrdMap.Holds, alignTimestamps, OrdMap.get?_mapVal, Option.map_map,
      Function.comp_def, hcontent]
  | _ => rfl

/-! ## An insert -/

/-- What is known where an insert stands. -/
def DbJob.At (sha256Hex : String → String) (db : HistoryDb) (job : DbJob) : JobAt → Prop
  | .record (.write true) => job.isTransfer = false → job.Stored sha256Hex db
  | .record .done => job.isTransfer = false → job.Fits → job.Stored sha256Hex db
  | .longId (.closePredecessor txHash currDate) =>
      (db.perpetualLongId.get? txHash).isSome ∧
        ∀ log, job = .perpetualLongId log → log.currDate = some currDate
  | .longId (.create currDate) => ∀ log, job = .perpetualLongId log → log.currDate = some currDate
  | .longId .done => job.Fits → job.Stored sha256Hex db
  | _ => True

/-- A name that is there is still there. -/
theorem HistoryDb.Grows.isSome_perpetualLongId (h : db.Grows db') {key : String}
    (hkey : (db.perpetualLongId.get? key).isSome) : (db'.perpetualLongId.get? key).isSome := by
  obtain ⟨row, hrow⟩ := Option.isSome_iff_exists.1 hkey
  have hhas : db.Has (.perpetualLongId key row.content) := OrdMap.holds_iff.2 ⟨row, hrow, rfl⟩
  obtain ⟨row', hrow', -⟩ := OrdMap.holds_iff.1 (h _ hhas)
  exact Option.isSome_iff_exists.2 ⟨row', hrow'⟩

theorem DbJob.At.mono (h : db.Grows db') {l : JobAt} (hl : job.At sha256Hex db l) :
    job.At sha256Hex db' l := by
  cases l with
  | record l =>
    cases l with
    | find => trivial
    | write exist =>
      cases exist with
      | true => exact fun htransfer => DbJob.Stored.mono h (hl htransfer)
      | false => trivial
    | done => exact fun htransfer hfits => DbJob.Stored.mono h (hl htransfer hfits)
  | longId l =>
    cases l with
    | closePredecessor txHash currDate => exact ⟨h.isSome_perpetualLongId hl.1, hl.2⟩
    | create currDate => exact hl
    | done => exact fun hfits => DbJob.Stored.mono h (hl hfits)
    | _ => trivial

theorem DbJob.At.start (job : DbJob) : job.At sha256Hex db job.start := by
  cases job <;> trivial

theorem DbJob.At.done {l : JobAt} (hl : job.At sha256Hex db l) (hdone : l.isDone = true)
    (htransfer : job.isTransfer = false) (hfits : job.Fits) : job.Stored sha256Hex db := by
  cases l with
  | record l => cases l <;> first | exact hl htransfer hfits | cases hdone
  | longId l => cases l <;> first | exact hl hfits | cases hdone

/-- An upsert: afterwards the row is there. -/
theorem spec_upsert (hfits : job.Fits)
    (h : ∀ r, db'.Has r ↔ db.Has r ∨ job.row sha256Hex = some r) :
    job.Adds sha256Hex db db' ∧ job.At sha256Hex db' (.record .done) :=
  ⟨.of_row hfits h, fun _ _ r hr => (h r).2 (Or.inr hr)⟩

/-- A call of an insert that looks first: it leaves its table alone, or updates a row that is there,
or creates it. -/
theorem spec_recordStep {τ : Type*} {calls : RecordCalls τ} {t t' : τ} {l l' : RecordAt}
    (set : τ → HistoryDb) (hset : set t = db) (h : recordStep calls t l = some (t', l'))
    (hl : job.At sha256Hex db (.record l))
    (hfind : calls.find t = true → job.isTransfer = false → job.Stored sha256Hex db)
    (hupdate : ∀ r, (set (calls.update t)).Has r ↔ db.Has r)
    (hcreate : job.Adds sha256Hex db (set (calls.create t)))
    (hcreated : job.Fits → job.Stored sha256Hex (set (calls.create t))) :
    job.Adds sha256Hex db (set t') ∧ job.At sha256Hex (set t') (.record l') := by
  rcases recordStep_cases h with ⟨-, rfl, rfl⟩ | ⟨rfl, rfl, rfl⟩ | ⟨-, rfl, rfl⟩
  · rw [hset]
    refine ⟨.of_same fun _ => Iff.rfl, ?_⟩
    cases hf : calls.find t' with
    | true => exact hfind hf
    | false => trivial
  · exact ⟨.of_same hupdate, fun htransfer _ r hr => (hupdate r).2 (hl htransfer r hr)⟩
  · exact ⟨hcreate, fun _ => hcreated⟩

theorem at_insertStep {log : SetOraclesLog} {k : ℕ} {t : LongIdTable} {l l' : InsertAt}
    (hown : ∀ x, (DbJob.perpetualLongId log).row sha256Hex = some (.perpetualLongId log.key x) →
      ∀ y, db.Has (.perpetualLongId log.key y) → y = x)
    (h : insertStep log k db.perpetualLongId l = some (t, l'))
    (hl : (DbJob.perpetualLongId log).At sha256Hex db (.longId l)) :
    (DbJob.perpetualLongId log).At sha256Hex { db with perpetualLongId := t } (.longId l') := by
  -- the row of the key is that of the event
  have hfound : (db.perpetualLongId.get? log.key).isSome →
      (DbJob.perpetualLongId log).Stored sha256Hex db := by
    intro hsome r hr
    obtain ⟨currDate, hdate, rfl⟩ := Option.map_eq_some_iff.1 hr
    exact OrdMap.Holds.of_isSome (hown _ hr) hsome
  cases l with
  | findByHash =>
    simp only [insertStep] at h
    split at h <;> cases h
    · rename_i hsome
      exact fun _ => hfound hsome
    · trivial
  | findPredecessor =>
    simp only [insertStep] at h
    cases hdate : log.currDate with
    | none =>
      rw [hdate] at h
      cases h
      intro hfits
      simp [DbJob.Fits, hdate] at hfits
    | some currDate =>
      have hlog : ∀ log', DbJob.perpetualLongId log = .perpetualLongId log' →
          log'.currDate = some currDate := by
        rintro log' heq
        cases heq
        exact hdate
      rw [hdate] at h
      cases hpred : predecessor db.perpetualLongId log.event.perpetualId currDate k with
      | none =>
        simp only [hpred] at h
        cases h
        exact hlog
      | some txHash =>
        simp only [hpred] at h
        cases h
        obtain ⟨row, hrow, -⟩ := predecessor_mem hpred
        exact ⟨Option.isSome_iff_exists.2 ⟨row, hrow⟩, hlog⟩
  | closePredecessor txHash currDate =>
    obtain ⟨row, hrow⟩ := Option.isSome_iff_exists.1 hl.1
    simp only [insertStep, hrow] at h
    cases h
    exact hl.2
  | create currDate =>
    simp only [insertStep] at h
    split at h <;> cases h
    · rename_i htaken
      exact fun _ => hfound htaken
    · rintro - r hr
      rw [DbJob.row, hl log rfl] at hr
      obtain rfl := Option.some.inj hr
      exact OrdMap.holds_iff.2 ⟨_, OrdMap.get?_set_self _ _ _, rfl⟩
  | done => cases h

variable {inserts : DbJob → Prop}

/-- The step lemma of an insert. -/
theorem DbJob.step_spec (hown : OwnPlaces sha256Hex inserts) (hdb : db.From sha256Hex inserts)
    (hinsert : inserts job) (hjob : job.WellFormed) {k : ℕ} {l l' : JobAt}
    (h : job.step sha256Hex k db l = some (db', l')) (hl : job.At sha256Hex db l) :
    job.Adds sha256Hex db db' ∧ job.At sha256Hex db' l' := by
  cases job with
  | trade e txHash isCollectedByEvent blockTimestamp blockNumber =>
    cases l with
    | longId l => cases h
    | record l =>
      cases l <;> cases h
      exact spec_upsert trivial (has_trade e txHash isCollectedByEvent fun y hy =>
        (DbRow.trade.inj (eq_of_samePlace hown hdb hinsert rfl rfl hy rfl)).2)
  | settle e txHash isCollectedByEvent blockTimestamp =>
    cases l with
    | longId l => cases h
    | record l =>
      cases l <;> cases h
      exact spec_upsert trivial (has_settle sha256Hex e txHash isCollectedByEvent fun y hy =>
        (DbRow.settle.inj (eq_of_samePlace hown hdb hinsert rfl rfl hy rfl)).2)
  | tokenDeposit e txHash isCollectedByEvent blockTimestamp =>
    cases l with
    | longId l => cases h
    | record l =>
      cases l <;> cases h
      have hrow : (DbJob.tokenDeposit e txHash isCollectedByEvent blockTimestamp).row sha256Hex =
          some (.tokenFlow (e.key txHash true) ⟨e.amountCC, blockTimestamp, false⟩) := rfl
      exact spec_upsert trivial (has_tokenFlow e isCollectedByEvent hrow fun y hy =>
        (DbRow.tokenFlow.inj (eq_of_samePlace hown hdb hinsert rfl rfl hy rfl)).2)
  | tokenWithdraw e txHash isCollectedByEvent blockTimestamp =>
    cases l with
    | longId l => cases h
    | record l =>
      cases l <;> cases h
      have hrow : (DbJob.tokenWithdraw e txHash isCollectedByEvent blockTimestamp).row sha256Hex =
          some (.tokenFlow (e.key txHash false) ⟨-e.amountCC, blockTimestamp, false⟩) := rfl
      -- the amount goes into the table with its sign turned
      exact spec_upsert trivial (has_tokenFlow { e with amountCC := -e.amountCC }
        isCollectedByEvent hrow fun y hy =>
          (DbRow.tokenFlow.inj (eq_of_samePlace hown hdb hinsert rfl rfl hy rfl)).2)
  | fundingRatePayment e txHash isCollectedByEvent blockTimestamp =>
    cases l with
    | longId l => cases h
    | record l =>
      obtain ⟨⟨t, m⟩, hstep, hr⟩ := Option.map_eq_some_iff.1 h
      cases hr
      have hkey : ∀ y, db.Has (.fundingRatePayment (toLowerCase e.trader, toLowerCase txHash) y) →
          y = ⟨e.perpetualId, e.fFundingPaymentCC, blockTimestamp, false⟩ := fun y hy =>
        (DbRow.fundingRatePayment.inj (eq_of_samePlace hown hdb hinsert rfl rfl hy rfl)).2
      obtain ⟨hupdate, hcreate⟩ := has_fundingRatePayment sha256Hex e txHash isCollectedByEvent hkey
      refine spec_recordStep (fun u => { db with fundingRatePayment := u }) rfl hstep hl
        (fun hf _ r hr => ?_) hupdate (.of_row trivial hcreate)
        fun _ r hr => (hcreate r).2 (Or.inr hr)
      obtain rfl := Option.some.inj hr
      exact OrdMap.Holds.of_isSome hkey hf
  | estimatedEarning wallet amount shAmount poolId txHash type isCollectedByEvent blockTimestamp =>
    cases l with
    | longId l => cases h
    | record l =>
      obtain ⟨⟨t, m⟩, hstep, hr⟩ := Option.map_eq_some_iff.1 h
      cases hr
      obtain ⟨hupdate, hcreate, hcreated⟩ := adds_estimatedEarning k hjob
        fun y hy => eq_of_earningKey hown hdb hinsert rfl hy
      refine spec_recordStep (fun u => { db with estimatedEarningTokens := u }) rfl hstep hl
        (fun hf htransfer r hr => ?_) hupdate hcreate hcreated
      obtain ⟨key, row, hrow, htx, htype⟩ := recordExists_iff.1 hf
      have hhas : db.Has (.estimatedEarning key row.content) := OrdMap.holds_iff.2 ⟨row, hrow, rfl⟩
      obtain rfl := Option.some.inj hr
      have heq := eq_of_samePlace hown hdb hinsert htransfer rfl hhas
        ⟨htx.symm, Or.inr (by simp [htype])⟩
      rwa [heq] at hhas
  | liquidityWithdrawal e isRemoval txHash isCollectedByEvent blockTimestamp =>
    cases l with
    | longId l => cases h
    | record l =>
      obtain ⟨⟨t, m⟩, hstep, hr⟩ := Option.map_eq_some_iff.1 h
      cases hr
      have hkey : ∀ y, db.Has (.liquidityWithdrawal (e.key txHash) y) →
          y = ⟨e.poolId, e.shareAmount, isRemoval, blockTimestamp, false⟩ := fun y hy =>
        (DbRow.liquidityWithdrawal.inj (eq_of_samePlace hown hdb hinsert rfl rfl hy rfl)).2
      obtain ⟨hupdate, hcreate, hcreated⟩ := adds_liquidityWithdrawal isCollectedByEvent hkey
      refine spec_recordStep (fun u => { db with liquidityWithdrawal := u }) rfl hstep hl
        (fun hf _ r hr => ?_) hupdate hcreate hcreated
      obtain ⟨row, hrow, -⟩ := (Option.any_eq_true _ _).1 hf
      obtain rfl := Option.some.inj hr
      exact OrdMap.Holds.of_isSome hkey (Option.isSome_iff_exists.2 ⟨row, hrow⟩)
  | perpetualLongId log =>
    cases l with
    | record l => cases l <;> cases h
    | longId l =>
      obtain ⟨⟨t, m⟩, hstep, hr⟩ := Option.map_eq_some_iff.1 h
      cases hr
      have hdate : ∀ currDate, l = .create currDate → log.currDate = some currDate := by
        rintro currDate rfl
        exact hl log rfl
      refine ⟨adds_perpetualLongId hdate hstep, at_insertStep (fun x hx y hy => ?_) hstep hl⟩
      exact (DbRow.perpetualLongId.inj (eq_of_samePlace hown hdb hinsert rfl hx hy rfl)).2
  | alignTimestamps choice =>
    cases l with
    | longId l => cases h
    | record l =>
      cases l <;> cases h
      exact ⟨.of_same (has_alignTimestamps choice), fun _ _ r hr => nomatch hr⟩

end

/-! ## Handlers side by side -/

section

variable {sha256Hex : String → String} {inserts : DbJob → Prop} {db₀ : HistoryDb}
  {handlers : List (List DbJob)}

/-- The invariant of a run of handlers that began on `db₀`. -/
structure HandlersInv (sha256Hex : String → String) (db₀ : HistoryDb)
    (handlers : List (List DbJob)) (db : HistoryDb) : Prop where
  grows : db₀.Grows db
  rows : ∀ r, db.Has r → db₀.Has r ∨
    ∃ jobs ∈ handlers, ∃ job ∈ jobs, job.Fits ∧ job.row sha256Hex = some r

/-- What is known of handler `i`: the inserts behind it have their rows. -/
def HandlerAt.Holds (sha256Hex : String → String) (handlers : List (List DbJob)) (i : ℕ)
    (l : HandlerAt) (db : HistoryDb) : Prop :=
  ∃ finished, (handlers[i]?).getD [] = finished ++ l.rest ∧
    (∀ job ∈ finished, job.isTransfer = false → job.Fits → job.Stored sha256Hex db) ∧
    ∀ job ∈ l.rest.head?, job.At sha256Hex db l.here

theorem HandlerAt.Holds.mono {db db' : HistoryDb} (h : db.Grows db') {i : ℕ} {l : HandlerAt}
    (hl : l.Holds sha256Hex handlers i db) : l.Holds sha256Hex handlers i db' := by
  obtain ⟨finished, hsplit, hstored, hhere⟩ := hl
  exact ⟨finished, hsplit,
    fun job hjob htransfer hfits => (hstored job hjob htransfer hfits).mono h,
    fun job hjob => (hhere job hjob).mono h⟩

/-- Every job of a handler list is one of its handler. -/
theorem mem_handlers {i : ℕ} {job : DbJob} (h : job ∈ (handlers[i]?).getD []) :
    ∃ jobs ∈ handlers, job ∈ jobs := by
  cases hi : handlers[i]? with
  | none =>
    rw [hi] at h
    exact absurd h List.not_mem_nil
  | some jobs =>
    rw [hi] at h
    exact ⟨jobs, List.mem_of_getElem? hi, h⟩

/-- The step lemma of a handler. -/
theorem handlerStep_spec (hown : OwnPlaces sha256Hex inserts) (hfrom : db₀.From sha256Hex inserts)
    (hjobs : ∀ jobs ∈ handlers, ∀ job ∈ jobs, inserts job ∧ job.WellFormed) {i k : ℕ}
    {db db' : HistoryDb} {l l' : HandlerAt} (h : handlerStep sha256Hex k db l = some (db', l'))
    (hdb : HandlersInv sha256Hex db₀ handlers db) (hl : l.Holds sha256Hex handlers i db) :
    db.Grows db' ∧ HandlersInv sha256Hex db₀ handlers db' ∧
      l'.Holds sha256Hex handlers i db' := by
  obtain ⟨finished, hsplit, hstored, hhere⟩ := hl
  obtain ⟨rest, here⟩ := l
  cases rest with
  | nil => cases h
  | cons job rest =>
    obtain ⟨⟨db₁, here'⟩, hstep, hr⟩ := Option.map_eq_some_iff.1 h
    cases hr
    obtain ⟨jobs, hmem, hjob⟩ : ∃ jobs ∈ handlers, job ∈ jobs :=
      mem_handlers (i := i) (hsplit ▸ List.mem_append_right finished List.mem_cons_self)
    have hdbFrom : db.From sha256Hex inserts := by
      intro r hr
      rcases hdb.rows r hr with hold | ⟨jobs', hmem', job', hjob', -, hrow⟩
      · exact hfrom r hold
      · exact ⟨job', (hjobs jobs' hmem' job' hjob').1, hrow⟩
    obtain ⟨hinsert, hwf⟩ := hjobs jobs hmem job hjob
    obtain ⟨hadds, hat⟩ := DbJob.step_spec hown hdbFrom hinsert hwf hstep (hhere job rfl)
    refine ⟨hadds.grows, ⟨hdb.grows.trans hadds.grows, fun r hr => ?_⟩, ?_⟩
    · rcases hadds.rows r hr with hold | hnew
      · exact hdb.rows r hold
      · exact Or.inr ⟨jobs, hmem, job, hjob, hnew⟩
    · cases hdone : here'.isDone with
      | true =>
        refine ⟨finished ++ [job], by simp [HandlerAt.enter, hsplit], ?_, ?_⟩
        · intro j hj htransfer hfits
          rcases List.mem_append.1 hj with hj | hj
          · exact (hstored j hj htransfer hfits).mono hadds.grows
          · obtain rfl := List.mem_singleton.1 hj
            exact hat.done hdone htransfer hfits
        · intro j hj
          cases rest with
          | nil => cases hj
          | cons next rest =>
            cases hj
            exact DbJob.At.start _
      | false =>
        refine ⟨finished, by simpa using hsplit, ?_, ?_⟩
        · exact fun j hj htransfer hfits => (hstored j hj htransfer hfits).mono hadds.grows
        · intro j hj
          cases hj
          exact hat

theorem handlersOutline (hown : OwnPlaces sha256Hex inserts) (hfrom : db₀.From sha256Hex inserts)
    (hjobs : ∀ jobs ∈ handlers, ∀ job ∈ jobs, inserts job ∧ job.WellFormed) :
    (handlerTasks sha256Hex).Outline (HandlersInv sha256Hex db₀ handlers)
      fun i l db => l.Holds sha256Hex handlers i db where
  step _ _ _ _ _ _ h hdb hl := (handlerStep_spec hown hfrom hjobs h hdb hl).2
  frame _ _ _ _ _ _ _ _ _ h hdb hl hm := hm.mono (handlerStep_spec hown hfrom hjobs h hdb hl).1

/-- What a run of handlers that all came to their end leaves behind. -/
theorem handlers_run (hown : OwnPlaces sha256Hex inserts) (hfrom : db₀.From sha256Hex inserts)
    (hjobs : ∀ jobs ∈ handlers, ∀ job ∈ jobs, inserts job ∧ job.WellFormed)
    {schedule : List (ℕ × ℕ)} {c : Tasks.Config ℕ HistoryDb HandlerAt}
    (hrun : (handlerTasks sha256Hex).run schedule (handlersStart handlers db₀) = some c)
    (hdone : ∀ i < handlers.length, (c.locals i).rest = []) :
    HandlersInv sha256Hex db₀ handlers c.shared ∧
      ∀ jobs ∈ handlers, ∀ job ∈ jobs, job.isTransfer = false → job.Fits →
        job.Stored sha256Hex c.shared := by
  have hstart : HandlersInv sha256Hex db₀ handlers (handlersStart handlers db₀).shared :=
    ⟨.refl db₀, fun r h => Or.inl h⟩
  have hholds : ∀ i, ((handlersStart handlers db₀).locals i).Holds sha256Hex handlers i
      (handlersStart handlers db₀).shared := by
    intro i
    refine ⟨[], rfl, by simp, fun job hjob => ?_⟩
    simp only [handlersStart, HandlerAt.enter] at hjob ⊢
    rw [Option.mem_def] at hjob
    rw [hjob]
    exact DbJob.At.start job
  obtain ⟨hinv, hall⟩ := (handlersOutline hown hfrom hjobs).run hstart hholds hrun
  refine ⟨hinv, fun jobs hmem job hjob htransfer hfits => ?_⟩
  obtain ⟨i, hi, rfl⟩ := List.getElem_of_mem hmem
  obtain ⟨finished, hsplit, hstored, -⟩ := hall i
  rw [hdone i hi, List.append_nil, List.getElem?_eq_getElem hi] at hsplit
  exact hstored job (by rw [← hsplit]; exact hjob) htransfer hfits

end

end TraderBackend
