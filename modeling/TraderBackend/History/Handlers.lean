import TraderBackend.Lib.Interleave
import TraderBackend.History.Earnings
import TraderBackend.History.Ledgers
import TraderBackend.History.LongId

/-!
# The event handlers

A log entry of the proxy contract ends up in one or two inserts, `DbJob`s.  The
handlers of a run are started without being awaited, so their database calls
interleave.

* `HistoryDb` — the tables.
* `DbJob.step` — the next database call of an insert.
* `ProxyEvent.jobs` — the callbacks of the backfill together with the listener
  methods they call: which inserts an event leads to.
* `handlerTasks` — any number of handlers, one database call a turn.

Prices of pool shares are not modelled; a pool without usable token decimals
ends the handler of `LiquidityRemoved` at that point.
-/

namespace TraderBackend

open JsString

/-! ## The tables -/

structure HistoryDb where
  trade : TradeTable
  settle : SettleTable
  tokenFlow : TokenFlowTable
  fundingRatePayment : FundingTable
  estimatedEarningTokens : EarningsTable
  liquidityWithdrawal : WithdrawalTable
  perpetualLongId : LongIdTable

def HistoryDb.empty : HistoryDb where
  trade := OrdMap.empty
  settle := OrdMap.empty
  tokenFlow := OrdMap.empty
  fundingRatePayment := OrdMap.empty
  estimatedEarningTokens := OrdMap.empty
  liquidityWithdrawal := OrdMap.empty
  perpetualLongId := OrdMap.empty

/-! ## Inserts -/

/-- The database calls of `EstimatedEarnings.insert`. -/
def estimatedEarningCalls (wallet : String) (amount shAmount : ℤ) (poolId : ℕ) (txHash : String)
    (type : EstimatedEarningsEventType) (isCollectedByEvent : Bool) (time : InsertTime) :
    RecordCalls EarningsTable where
  find t := recordExists t txHash type
  create t := createRecord t (poolId, txHash)
    { liqProviderAddr := toLowerCase wallet
      shareAmount := some shAmount
      tokenAmount := amount
      createdAt := time.createdAt
      eventType := type
      isCollectedByEvent := isCollectedByEvent }
  update t := if isCollectedByEvent then t else updateRecord t (poolId, txHash) shAmount

theorem estimatedEarningCalls_insert (t : EarningsTable) (wallet : String) (amount shAmount : ℤ)
    (poolId : ℕ) (txHash : String) (type : EstimatedEarningsEventType) (isCollectedByEvent : Bool)
    (time : InsertTime) :
    (estimatedEarningCalls wallet amount shAmount poolId txHash type isCollectedByEvent
      time).insert t =
        EstimatedEarnings.insert t wallet amount shAmount poolId txHash type isCollectedByEvent
          time := rfl

/-- An insert with its arguments. -/
inductive DbJob where
  | trade (e : TradeHistoryEvent) (txHash : String) (isCollectedByEvent : Bool)
      (blockTimestamp blockNumber : ℕ)
  | settle (e : SettleEvent) (txHash : String) (isCollectedByEvent : Bool) (blockTimestamp : ℕ)
  | tokenDeposit (e : TokenFlowEvent) (txHash : String) (isCollectedByEvent : Bool)
      (blockTimestamp : ℕ)
  | tokenWithdraw (e : TokenFlowEvent) (txHash : String) (isCollectedByEvent : Bool)
      (blockTimestamp : ℕ)
  | fundingRatePayment (e : UpdateMarginAccountEvent) (txHash : String)
      (isCollectedByEvent : Bool) (blockTimestamp : ℕ)
  | estimatedEarning (wallet : String) (amount shAmount : ℤ) (poolId : ℕ) (txHash : String)
      (type : EstimatedEarningsEventType) (isCollectedByEvent : Bool) (blockTimestamp : ℕ)
  | liquidityWithdrawal (e : WithdrawalEvent) (isLiquidityRemovedEvent : Bool) (txHash : String)
      (isCollectedByEvent : Bool) (blockTimestamp : ℕ)
  | perpetualLongId (log : SetOraclesLog)
  | alignTimestamps (choice : JoinChoice)

/-- Where an insert stands. -/
inductive JobAt where
  | record (l : RecordAt)
  | longId (l : InsertAt)
  deriving DecidableEq

/-- Where an insert begins. -/
def DbJob.start : DbJob → JobAt
  | .perpetualLongId _ => .longId .findByHash
  | _ => .record .find

/-- Where it ends. -/
def JobAt.isDone : JobAt → Bool
  | .record .done => true
  | .longId .done => true
  | _ => false

/-- The next database call of an insert; `k` is up to the database: its choice among equal
predecessors, its clock. -/
def DbJob.step (sha256Hex : String → String) (k : ℕ) (db : HistoryDb) :
    DbJob → JobAt → Option (HistoryDb × JobAt)
  | .trade e txHash isCollectedByEvent blockTimestamp blockNumber, .record .find =>
      some ({ db with
        trade := insertTradeHistoryRecord sha256Hex db.trade e txHash isCollectedByEvent
          blockTimestamp blockNumber }, .record .done)
  | .settle e txHash isCollectedByEvent blockTimestamp, .record .find =>
      some ({ db with
        settle := insertSettleHistoryRecord db.settle e txHash isCollectedByEvent
          blockTimestamp }, .record .done)
  | .tokenDeposit e txHash isCollectedByEvent blockTimestamp, .record .find =>
      some ({ db with
        tokenFlow := insertTokenDepositRecord db.tokenFlow e txHash isCollectedByEvent
          blockTimestamp }, .record .done)
  | .tokenWithdraw e txHash isCollectedByEvent blockTimestamp, .record .find =>
      some ({ db with
        tokenFlow := insertTokenWithdrawRecord db.tokenFlow e txHash isCollectedByEvent
          blockTimestamp }, .record .done)
  | .fundingRatePayment e txHash isCollectedByEvent blockTimestamp, .record l =>
      (recordStep (fundingRatePaymentCalls e txHash isCollectedByEvent blockTimestamp)
        db.fundingRatePayment l).map fun r => ({ db with fundingRatePayment := r.1 }, .record r.2)
  | .estimatedEarning wallet amount shAmount poolId txHash type isCollectedByEvent blockTimestamp,
      .record l =>
      (recordStep (estimatedEarningCalls wallet amount shAmount poolId txHash type
        isCollectedByEvent ⟨blockTimestamp, k⟩) db.estimatedEarningTokens l).map fun r =>
          ({ db with estimatedEarningTokens := r.1 }, .record r.2)
  | .liquidityWithdrawal e isLiquidityRemovedEvent txHash isCollectedByEvent blockTimestamp,
      .record l =>
      (recordStep (liquidityWithdrawalCalls e isLiquidityRemovedEvent txHash isCollectedByEvent
        blockTimestamp) db.liquidityWithdrawal l).map fun r =>
          ({ db with liquidityWithdrawal := r.1 }, .record r.2)
  | .perpetualLongId log, .longId l =>
      (insertStep log k db.perpetualLongId l).map fun r =>
        ({ db with perpetualLongId := r.1 }, .longId r.2)
  | .alignTimestamps choice, .record .find =>
      some ({ db with
        perpetualLongId := TraderBackend.alignTimestamps choice db.perpetualLongId },
        .record .done)
  | _, _ => none

/-! ## Events and their callbacks -/

/-- The names of `allEventNames`. -/
inductive ProxyEventName where
  | trade
  | settle
  | settleV2
  | tokensDeposited
  | tokensWithdrawn
  | liquidate
  | updateMarginAccount
  | liquidityAdded
  | liquidityRemoved
  | liquidityWithdrawalInitiated
  | setOracles
  deriving DecidableEq

/-- `allEventNames`. -/
def allEventNames : List ProxyEventName :=
  [.trade, .settle, .settleV2, .tokensDeposited, .tokensWithdrawn, .liquidate,
    .updateMarginAccount, .liquidityAdded, .liquidityRemoved, .liquidityWithdrawalInitiated,
    .setOracles]

/-- The name itself; it also stands for the signature hash. -/
def ProxyEventName.text : ProxyEventName → String
  | .trade => "Trade"
  | .settle => "Settle"
  | .settleV2 => "SettleV2"
  | .tokensDeposited => "TokensDeposited"
  | .tokensWithdrawn => "TokensWithdrawn"
  | .liquidate => "Liquidate"
  | .updateMarginAccount => "UpdateMarginAccount"
  | .liquidityAdded => "LiquidityAdded"
  | .liquidityRemoved => "LiquidityRemoved"
  | .liquidityWithdrawalInitiated => "LiquidityWithdrawalInitiated"
  | .setOracles => "SetOracles"

/-- `SettleEventV1`. -/
structure SettleEventV1 where
  perpetualId : ℕ
  trader : String
  amount : ℤ
  deriving DecidableEq

/-- A decoded log entry of the proxy contract. -/
inductive ProxyEvent where
  | trade (e : TradeEvent)
  | settle (e : SettleEventV1)
  | settleV2 (e : SettleEvent)
  | tokensDeposited (e : TokenFlowEvent)
  | tokensWithdrawn (e : TokenFlowEvent)
  | liquidate (e : LiquidateEvent)
  | updateMarginAccount (e : UpdateMarginAccountEvent)
  | liquidityAdded (e : LiquidityEvent)
  | liquidityRemoved (e : LiquidityEvent)
  | liquidityWithdrawalInitiated (e : WithdrawalEvent)
  | setOracles (e : SetOraclesEvent)
  deriving DecidableEq

def ProxyEvent.name : ProxyEvent → ProxyEventName
  | .trade _ => .trade
  | .settle _ => .settle
  | .settleV2 _ => .settleV2
  | .tokensDeposited _ => .tokensDeposited
  | .tokensWithdrawn _ => .tokensWithdrawn
  | .liquidate _ => .liquidate
  | .updateMarginAccount _ => .updateMarginAccount
  | .liquidityAdded _ => .liquidityAdded
  | .liquidityRemoved _ => .liquidityRemoved
  | .liquidityWithdrawalInitiated _ => .liquidityWithdrawalInitiated
  | .setOracles _ => .setOracles

/-- What the service knows besides the chain. -/
structure HistoryEnv where
  sha256Hex : String → String
  transfer : TransferEnv
  /-- The contract interface has the event. -/
  inAbi : ProxyEventName → Bool

/-- `_updateSharePoolTokenPriceInfo` ends in an exception: the decimals of the pool's token
are not known, or zero, where `decNToFloat` pads with a negative count. -/
def HistoryEnv.priceInfoThrows (env : HistoryEnv) (poolId : ℕ) : Bool :=
  env.transfer.getMarginTokenDecimals poolId = none ∨
    env.transfer.getMarginTokenDecimals poolId = some 0

/-- The inserts the callback of an event leads to, in order. -/
def ProxyEvent.jobs (env : HistoryEnv) (txHash : String) (isCollectedByEvent : Bool)
    (blockTimestamp blockNumber : ℕ) : ProxyEvent → List DbJob
  | .trade e => [.trade (.trade e) txHash isCollectedByEvent blockTimestamp blockNumber]
  | .liquidate e => [.trade (.liquidate e) txHash isCollectedByEvent blockTimestamp blockNumber]
  | .settle e =>
      [.settle ⟨e.perpetualId, e.trader, e.amount, 0⟩ txHash isCollectedByEvent blockTimestamp]
  | .settleV2 e => [.settle e txHash isCollectedByEvent blockTimestamp]
  | .tokensDeposited e => [.tokenDeposit e txHash isCollectedByEvent blockTimestamp]
  | .tokensWithdrawn e => [.tokenWithdraw e txHash isCollectedByEvent blockTimestamp]
  | .updateMarginAccount e =>
      if e.fFundingPaymentCC = 0 then []
      else [.fundingRatePayment e txHash isCollectedByEvent blockTimestamp]
  | .liquidityAdded e =>
      [.estimatedEarning e.user (e.tokenAmount * -1) (e.shareAmount * -1) e.poolId txHash
        .liquidityAdded isCollectedByEvent blockTimestamp]
  | .liquidityRemoved e =>
      .estimatedEarning e.user e.tokenAmount e.shareAmount e.poolId txHash .liquidityRemoved
          isCollectedByEvent blockTimestamp ::
        if env.priceInfoThrows e.poolId then []
        else [.liquidityWithdrawal ⟨e.poolId, e.user, e.shareAmount⟩ true txHash
          isCollectedByEvent blockTimestamp]
  | .liquidityWithdrawalInitiated e =>
      [.liquidityWithdrawal e false txHash isCollectedByEvent blockTimestamp]
  | .setOracles e => [.perpetualLongId ⟨e, txHash, blockTimestamp⟩]

/-- A share token transfer with the log entry's data. -/
structure ShareTransfer where
  event : P2PTransferEvent
  poolId : ℕ
  txHash : String
  blockTimestamp : ℕ
  deriving DecidableEq

/-- The two inserts of `insertShareTokenP2PTransfer`. -/
def ShareTransfer.jobs (env : HistoryEnv) (isCollectedByEvent : Bool) (x : ShareTransfer) :
    List DbJob :=
  match env.transfer.getMarginTokenDecimals x.poolId with
  | none => []
  | some decN =>
      match floatToDecN env.transfer.mathPow10 x.event.tokensAmnt decN with
      | none => []
      | some tokens =>
          [.estimatedEarning x.event.fromAddr tokens x.event.amountD18 x.poolId x.txHash
              .shareTokenP2PTransfer isCollectedByEvent x.blockTimestamp,
            .estimatedEarning x.event.toAddr (⌊x.event.tokensAmnt⌋ * -1) (x.event.amountD18 * -1)
              x.poolId x.txHash .shareTokenP2PTransfer isCollectedByEvent x.blockTimestamp]

/-! ## Handlers side by side -/

/-- Where a handler stands: the inserts it still has to make, and where it is in the first
of them. -/
structure HandlerAt where
  rest : List DbJob
  here : JobAt

/-- A handler that has these inserts before it. -/
def HandlerAt.enter (jobs : List DbJob) : HandlerAt where
  rest := jobs
  here := (jobs.head?.map DbJob.start).getD (.record .find)

/-- The next database call of a handler. -/
def handlerStep (sha256Hex : String → String) (k : ℕ) (db : HistoryDb) (l : HandlerAt) :
    Option (HistoryDb × HandlerAt) :=
  match l.rest with
  | [] => none
  | job :: rest =>
      (job.step sha256Hex k db l.here).map fun r =>
        (r.1, if r.2.isDone then HandlerAt.enter rest else ⟨job :: rest, r.2⟩)

/-- Handlers side by side. -/
def handlerTasks (sha256Hex : String → String) : Tasks ℕ ℕ HistoryDb HandlerAt where
  step _ k db l := handlerStep sha256Hex k db l

/-- The handlers of a list before their first step. -/
def handlersStart (handlers : List (List DbJob)) (db : HistoryDb) :
    Tasks.Config ℕ HistoryDb HandlerAt where
  shared := db
  locals := fun i => HandlerAt.enter ((handlers[i]?).getD [])

end TraderBackend
