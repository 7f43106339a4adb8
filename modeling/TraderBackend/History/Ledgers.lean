import TraderBackend.Lib.JsString
import TraderBackend.Lib.Table
import TraderBackend.History.Earnings
import TraderBackend.History.TradingHistory

/-!
# Settlements, token flows, funding payments and withdrawals

Four tables with one kind of record each.  The first two are filled by upserts,
the others by an insert that looks first.

* `insertSettleHistoryRecord`, `insertTokenFlowRecord` — the upserts.
* `fundingRatePaymentCalls`, `liquidityWithdrawalCalls` — the calls of
  `insertFundingRatePayment` and of `LiquidityWithdrawals.insert`.
* `getLatestSettleTimestamp`, … — the newest row of each table collected over
  http; settlements and token flows leave a margin of an hour.
-/

namespace TraderBackend

open JsString

/-! ## Settlements -/

structure SettleEvent where
  perpetualId : ℕ
  trader : String
  amount : ℤ
  cash : ℤ
  deriving DecidableEq

/-- A row of `settle_history` without its key. -/
structure Settle where
  quantityCC : ℤ
  cashCC : ℤ
  /-- In seconds. -/
  timestamp : ℕ
  isCollectedByEvent : Bool
  deriving DecidableEq

/-- The table: trader, perpetual and transaction to row. -/
abbrev SettleTable := OrdMap (String × ℕ × String) Settle

/-- The key of a settlement. -/
def SettleEvent.key (e : SettleEvent) (txHash : String) : String × ℕ × String :=
  (toLowerCase e.trader, e.perpetualId, toLowerCase txHash)

/-- `insertSettleHistoryRecord`. -/
def insertSettleHistoryRecord (t : SettleTable) (e : SettleEvent) (txHash : String)
    (isCollectedByEvent : Bool) (tradeBlockTimestamp : ℕ) : SettleTable :=
  let row : Settle :=
    { quantityCC := e.amount - e.cash
      cashCC := e.cash
      timestamp := tradeBlockTimestamp
      isCollectedByEvent := isCollectedByEvent }
  t.upsert (e.key txHash) row fun _ => row

/-! ## Token flows -/

/-- `TokensDepositedEvent` and `TokensWithdrawnEvent`. -/
structure TokenFlowEvent where
  perpetualId : ℕ
  trader : String
  amountCC : ℤ
  deriving DecidableEq

/-- A row of `token_flow` without its key. -/
structure TokenFlow where
  amountCC : ℤ
  /-- In seconds. -/
  timestamp : ℕ
  isCollectedByEvent : Bool
  deriving DecidableEq

/-- The table: trader, perpetual, transaction and direction to row. -/
abbrev TokenFlowTable := OrdMap (String × ℕ × String × Bool) TokenFlow

/-- The key of a flow. -/
def TokenFlowEvent.key (e : TokenFlowEvent) (txHash : String) (isDeposit : Bool) :
    String × ℕ × String × Bool :=
  (toLowerCase e.trader, e.perpetualId, toLowerCase txHash, isDeposit)

/-- `insertTokenFlowRecord`. -/
def insertTokenFlowRecord (t : TokenFlowTable) (e : TokenFlowEvent) (txHash : String)
    (isCollectedByEvent : Bool) (evtBlockTimestamp : ℕ) (isDeposit : Bool) : TokenFlowTable :=
  t.upsert (e.key txHash isDeposit)
    { amountCC := e.amountCC
      timestamp := evtBlockTimestamp
      isCollectedByEvent := isCollectedByEvent }
    fun row =>
      { row with
        isCollectedByEvent := isCollectedByEvent
        timestamp := evtBlockTimestamp }

/-- `insertTokenWithdrawRecord`. -/
def insertTokenWithdrawRecord (t : TokenFlowTable) (e : TokenFlowEvent) (txHash : String)
    (isCollectedByEvent : Bool) (evtBlockTimestamp : ℕ) : TokenFlowTable :=
  insertTokenFlowRecord t { e with amountCC := -e.amountCC } txHash isCollectedByEvent
    evtBlockTimestamp false

/-- `insertTokenDepositRecord`. -/
def insertTokenDepositRecord (t : TokenFlowTable) (e : TokenFlowEvent) (txHash : String)
    (isCollectedByEvent : Bool) (evtBlockTimestamp : ℕ) : TokenFlowTable :=
  insertTokenFlowRecord t e txHash isCollectedByEvent evtBlockTimestamp true

/-! ## Funding payments -/

structure UpdateMarginAccountEvent where
  perpetualId : ℕ
  trader : String
  fFundingPaymentCC : ℤ
  deriving DecidableEq

/-- A row of `funding_rate_payments` without its key. -/
structure FundingRatePayment where
  perpetualId : ℕ
  paymentAmount : ℤ
  /-- In seconds. -/
  paymentTimestamp : ℕ
  isCollectedByEvent : Bool
  deriving DecidableEq

/-- The table: trader and transaction to row. -/
abbrev FundingTable := OrdMap (String × String) FundingRatePayment

/-- The database calls of `insertFundingRatePayment` for a payment that is not zero.  The
update names the transaction as it was handed over. -/
def fundingRatePaymentCalls (e : UpdateMarginAccountEvent) (txHash : String)
    (isCollectedByEvent : Bool) (blockTimestamp : ℕ) : RecordCalls FundingTable where
  find t := (t.get? (toLowerCase e.trader, toLowerCase txHash)).isSome
  create t := t.create (toLowerCase e.trader, toLowerCase txHash)
    { perpetualId := e.perpetualId
      paymentAmount := e.fFundingPaymentCC
      paymentTimestamp := blockTimestamp
      isCollectedByEvent := isCollectedByEvent }
  update t :=
    if isCollectedByEvent then t
    else t.update (toLowerCase e.trader, txHash) fun row => { row with isCollectedByEvent := false }

/-- `insertFundingRatePayment`. -/
def insertFundingRatePayment (t : FundingTable) (e : UpdateMarginAccountEvent) (txHash : String)
    (isCollectedByEvent : Bool) (blockTimestamp : ℕ) : FundingTable :=
  if e.fFundingPaymentCC = 0 then t
  else (fundingRatePaymentCalls e txHash isCollectedByEvent blockTimestamp).insert t

/-! ## Liquidity withdrawals -/

/-- What `LiquidityWithdrawals` reads of its two events. -/
structure WithdrawalEvent where
  poolId : ℕ
  user : String
  shareAmount : ℤ
  deriving DecidableEq

/-- A row of `liquidity_withdrawals` without its key. -/
structure LiquidityWithdrawal where
  poolId : ℕ
  amount : ℤ
  isRemoval : Bool
  /-- In seconds. -/
  timestamp : ℕ
  isCollectedByEvent : Bool
  deriving DecidableEq

/-- The table: provider and transaction to row. -/
abbrev WithdrawalTable := OrdMap (String × String) LiquidityWithdrawal

/-- The key of a withdrawal. -/
def WithdrawalEvent.key (e : WithdrawalEvent) (txHash : String) : String × String :=
  (toLowerCase e.user, toLowerCase txHash)

/-- The database calls of `LiquidityWithdrawals.insert`; the creation also fails when the amount is
too long for its column. -/
def liquidityWithdrawalCalls (e : WithdrawalEvent) (isLiquidityRemovedEvent : Bool)
    (txHash : String) (isCollectedByEvent : Bool) (blockTimestamp : ℕ) :
    RecordCalls WithdrawalTable where
  find t := (t.get? (e.key txHash)).any fun row => row.isRemoval == isLiquidityRemovedEvent
  create t :=
    if fitsDecimal40 e.shareAmount then
      t.create (e.key txHash)
        { poolId := e.poolId
          amount := e.shareAmount
          isRemoval := isLiquidityRemovedEvent
          timestamp := blockTimestamp
          isCollectedByEvent := isCollectedByEvent }
    else t
  update t :=
    if isCollectedByEvent then
      t.update (e.key txHash) fun row => { row with isCollectedByEvent := false }
    else t

/-- `LiquidityWithdrawals.insert`. -/
def insertLiquidityWithdrawal (t : WithdrawalTable) (e : WithdrawalEvent)
    (isLiquidityRemovedEvent : Bool) (txHash : String) (isCollectedByEvent : Bool)
    (blockTimestamp : ℕ) : WithdrawalTable :=
  (liquidityWithdrawalCalls e isLiquidityRemovedEvent txHash isCollectedByEvent
    blockTimestamp).insert t

/-! ## The newest rows -/

def Settle.httpTime (row : Settle) : Option ℕ :=
  if row.isCollectedByEvent then none else some row.timestamp

def TokenFlow.httpTime (row : TokenFlow) : Option ℕ :=
  if row.isCollectedByEvent then none else some row.timestamp

def FundingRatePayment.httpTime (row : FundingRatePayment) : Option ℕ :=
  if row.isCollectedByEvent then none else some row.paymentTimestamp

def LiquidityWithdrawal.httpTime (isRemoval : Bool) (row : LiquidityWithdrawal) : Option ℕ :=
  if row.isRemoval = isRemoval ∧ row.isCollectedByEvent = false then some row.timestamp else none

/-- `SettleHistory.getLatestTimestamp`, in milliseconds. -/
def getLatestSettleTimestamp (t : SettleTable) : Option ℤ :=
  (t.latest Settle.httpTime).map fun time : ℕ => (time : ℤ) * 1000 - oneHour

/-- `TokenFlow.getLatestTimestamp`. -/
def getLatestTokenFlowTimestamp (t : TokenFlowTable) : Option ℤ :=
  (t.latest TokenFlow.httpTime).map fun time : ℕ => (time : ℤ) * 1000 - oneHour

/-- `FundingRatePayments.getLatestTimestamp`. -/
def getLatestFundingTimestamp (t : FundingTable) : Option ℤ :=
  (t.latest FundingRatePayment.httpTime).map fun time : ℕ => (time : ℤ) * 1000

/-- `LiquidityWithdrawals.getLatestTimestamp`. -/
def getLatestWithdrawalTimestamp (t : WithdrawalTable) (isRemoval : Bool) : Option ℤ :=
  (t.latest (LiquidityWithdrawal.httpTime isRemoval)).map fun time : ℕ => (time : ℤ) * 1000

/-- `getLatestTimestampInitiation`. -/
def getLatestTimestampInitiation (t : WithdrawalTable) : Option ℤ :=
  getLatestWithdrawalTimestamp t false

end TraderBackend
