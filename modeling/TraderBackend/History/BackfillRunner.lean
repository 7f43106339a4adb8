import TraderBackend.History.BlockFromTime
import TraderBackend.History.FiltererRange
import TraderBackend.History.Handlers

/-!
# The backfill

`runHistoricalDataFilterers` reads a watermark for each type of event off the
newest rows, starts at the earliest of them or at the given time, and hands every
log entry from there on to its callback.  With `skipUpToDate` the entries older
than the watermark of their type are passed over.

* `Chain` — the history of the proxy contract.
* `HistoryDb.eventTimestamps` — the watermarks.
* `filterProxyEvents` — the log entries that reach a callback.
* `runHistoricalDataFilterers` — one run, its handlers interleaved at will.
* `initialBackfill`, `redundancyBackfill` — the runs `main` schedules.
-/

namespace TraderBackend

/-! ## The chain -/

/-- The history of the proxy contract: what it logged and when its blocks were made. -/
structure Chain where
  logs : List (EventLog ProxyEvent)
  /-- In seconds. -/
  timestamp : ℕ → ℕ
  deploymentBlock : ℕ
  timestamp_mono : Monotone timestamp
  /-- The signature of a log entry is that of its event. -/
  topics : ∀ log ∈ logs, log.topic0 = log.decoded.name.text
  /-- A contract logs nothing before it is deployed. -/
  deployed : ∀ log ∈ logs, deploymentBlock ≤ log.blockNumber
  /-- No log entry is as old as the epoch. -/
  dated : ∀ log ∈ logs, 0 < timestamp log.blockNumber

/-- The node while nothing fails. -/
def Chain.rpc (chain : Chain) : Rpc ProxyEvent where
  history := chain.logs
  timestamp := chain.timestamp
  queryFails _ := none
  getBlockFails _ _ := none

/-! ## Watermarks -/

/-- `EstimatedEarnings.getLatestTimestamp`, in milliseconds. -/
def getLatestEarningsTimestamp (t : EarningsTable) (eventType : EstimatedEarningsEventType) :
    Option ℤ :=
  (t.latest fun row =>
    if row.eventType = eventType ∧ row.isCollectedByEvent = false then some row.createdAt
    else none).map fun time : ℕ => (time : ℤ) * 1000

/-- `SetOracles.getLatestTimestamp`. -/
def getLatestOraclesTimestamp (t : LongIdTable) : Option ℤ :=
  (t.latest fun row => some row.validFrom).map fun date : ℕ => (date : ℤ)

/-- `eventTimestamps`. -/
def HistoryDb.eventTimestamps (db : HistoryDb) : ProxyEventName → Option ℤ
  | .trade => getLatestTradeTimestamp db.trade
  | .liquidate => getLatestLiquidateTimestamp db.trade
  | .settle => getLatestSettleTimestamp db.settle
  | .settleV2 => getLatestSettleTimestamp db.settle
  | .tokensDeposited => getLatestTokenFlowTimestamp db.tokenFlow
  | .tokensWithdrawn => getLatestTokenFlowTimestamp db.tokenFlow
  | .updateMarginAccount => getLatestFundingTimestamp db.fundingRatePayment
  | .liquidityAdded => getLatestEarningsTimestamp db.estimatedEarningTokens .liquidityAdded
  | .liquidityRemoved => getLatestEarningsTimestamp db.estimatedEarningTokens .liquidityAdded
  | .liquidityWithdrawalInitiated => getLatestTimestampInitiation db.liquidityWithdrawal
  | .setOracles => getLatestOraclesTimestamp db.perpetualLongId

/-- The date a run starts from: the earliest watermark, or the given time if that is
earlier. -/
def HistoryDb.filtererStart (db : HistoryDb) (startTimestampSec : ℤ) : ℤ :=
  (allEventNames.filterMap db.eventTimestamps).foldr min (startTimestampSec * 1000)

/-! ## One run -/

/-- The signatures asked for: those of the events the interface has. -/
def HistoryEnv.topicHashes (env : HistoryEnv) : List String :=
  (allEventNames.filter env.inAbi).map ProxyEventName.text

/-- How the filterer returns from a run from a date on. -/
def Chain.filtered (chain : Chain) (env : HistoryEnv) (latest : ℕ) (since : ℤ) :
    Option (FilterState ProxyEvent) :=
  let sinceBlocks := calculateBlockFromTime chain.timestamp latest since
  match genericFilterer chain.rpc env.topicHashes (sinceBlocks.2 + 1) sinceBlocks.1
      sinceBlocks.2 with
  | .returned s => some s
  | _ => none

/-- The early return of the callback. -/
def skips (eventTimestamps : Option (ProxyEventName → Option ℤ)) (d : Delivery ProxyEvent) :
    Bool :=
  match eventTimestamps.bind fun timestamps => timestamps d.event.decoded.name with
  | none => false
  | some watermark => decide ((d.blockTimestamp : ℤ) * 1000 < watermark)

/-- What a call of `filterProxyEvents` did. -/
structure ProxyEventsRun where
  /-- The block ranges it queried. -/
  queried : List (ℕ × ℕ)
  /-- What reached the callbacks. -/
  calls : List (Delivery ProxyEvent)

/-- `filterProxyEvents`. -/
def filterProxyEvents (env : HistoryEnv) (chain : Chain) (latest : ℕ) (since : ℤ)
    (eventTimestamps : Option (ProxyEventName → Option ℤ)) : Option ProxyEventsRun :=
  (chain.filtered env latest since).map fun s =>
    ⟨s.ranges, s.saved.delivered.filter fun d => !skips eventTimestamps d⟩

/-- The inserts of a log entry handed over by the backfill. -/
def EventLog.jobs (env : HistoryEnv) (log : EventLog ProxyEvent) (blockTimestamp : ℕ) :
    List DbJob :=
  log.decoded.jobs env log.transactionHash false blockTimestamp log.blockNumber

/-- What a run meets: the latest block, the share token transfers its second filter finds,
the database's choices, and the order of all database calls. -/
structure BackfillInput where
  latest : ℕ
  transfers : List ShareTransfer
  choice : JoinChoice
  schedule : List (ℕ × ℕ)

/-- The handlers of a run, the final `alignTimestamps` among them. -/
def BackfillInput.handlers (input : BackfillInput) (env : HistoryEnv)
    (calls : List (Delivery ProxyEvent)) : List (List DbJob) :=
  calls.map (fun d => d.event.jobs env d.blockTimestamp) ++
    input.transfers.map (ShareTransfer.jobs env false) ++ [[.alignTimestamps input.choice]]

/-- What a backfill did: its `filterProxyEvents`, and the tables it left behind. -/
structure BackfillResult where
  proxyEvents : ProxyEventsRun
  db : HistoryDb

/-- `runHistoricalDataFilterers`, until all its inserts are completed; `none` if the
schedule does not complete them. -/
def runHistoricalDataFilterers (env : HistoryEnv) (chain : Chain) (startTimestampSec : ℤ)
    (skipUpToDate : Bool) (db : HistoryDb) (input : BackfillInput) : Option BackfillResult :=
  (filterProxyEvents env chain input.latest (db.filtererStart startTimestampSec)
    (if skipUpToDate then some db.eventTimestamps else none)).bind fun proxyEvents =>
      let handlers := input.handlers env proxyEvents.calls
      ((handlerTasks env.sha256Hex).run input.schedule (handlersStart handlers db)).bind fun c =>
        if (List.range handlers.length).all fun i => (c.locals i).rest.isEmpty then
          some ⟨proxyEvents, c.shared⟩
        else none

/-! ## The schedule of `main` -/

/-- `thirtyDaysAgoSec`. -/
def thirtyDaysAgoSec (nowSec : ℤ) : ℤ := nowSec - 30 * 24 * 3600

/-- The backfill at the start of the service, on empty tables. -/
def initialBackfill (env : HistoryEnv) (chain : Chain) (nowSec : ℤ) (input : BackfillInput) :
    Option HistoryDb :=
  (runHistoricalDataFilterers env chain (thirtyDaysAgoSec nowSec) false HistoryDb.empty input).map
    BackfillResult.db

/-- The backfill of the four hour timer. -/
def redundancyBackfill (env : HistoryEnv) (chain : Chain) (db : HistoryDb)
    (input : BackfillInput) : Option HistoryDb :=
  (runHistoricalDataFilterers env chain (chain.timestamp chain.deploymentBlock) true db input).map
    BackfillResult.db

/-- The initial backfill and then one redundancy backfill after the other. -/
def backfills (env : HistoryEnv) (chain : Chain) (nowSec : ℤ) (first : BackfillInput)
    (inputs : List BackfillInput) : Option HistoryDb :=
  (initialBackfill env chain nowSec first).bind fun db =>
    inputs.foldlM (redundancyBackfill env chain) db

end TraderBackend
