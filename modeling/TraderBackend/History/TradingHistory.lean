import TraderBackend.Lib.JsString
import TraderBackend.Lib.Table

/-!
# Trades and liquidations

The table `trades_history` and the class that fills it, `TradingHistory`.

* `TradeEvent`, `LiquidateEvent` — the two events that make a row.
* `createLiquidationId` — a liquidation has no order digest; its key is a hash.
* `insertTradeHistoryRecord` — the upsert.
* `getLatestTradeTimestamp`, `getLatestLiquidateTimestamp` — up to where the
  backfill takes the rows of each kind to be complete.
-/

namespace TraderBackend

open JsString

/-! ## The events -/

/-- What the history reads of an order. -/
structure Order where
  flags : ℕ
  brokerFeeTbps : ℕ
  brokerAddr : String
  fAmount : ℤ
  leverageTDR : ℕ
  deriving DecidableEq

structure TradeEvent where
  perpetualId : ℕ
  trader : String
  order : Order
  orderDigest : String
  newPositionSizeBC : ℤ
  price : ℤ
  fFeeCC : ℤ
  fPnlCC : ℤ
  fB2C : ℤ
  deriving DecidableEq

structure LiquidateEvent where
  perpetualId : ℕ
  trader : String
  amountLiquidatedBC : ℤ
  liquidationPrice : ℤ
  newPositionSizeBC : ℤ
  fFeeCC : ℤ
  fPnlCC : ℤ
  deriving DecidableEq

/-- `TradeEvent | LiquidateEvent`. -/
inductive TradeHistoryEvent where
  | trade (e : TradeEvent)
  | liquidate (e : LiquidateEvent)
  deriving DecidableEq

/-- `isLiquidation`: the event has no order. -/
def TradeHistoryEvent.isLiquidation : TradeHistoryEvent → Bool
  | .trade _ => false
  | .liquidate _ => true

/-! ## The table -/

/-- `trade_side`. -/
inductive TradeSide where
  | buy
  | sell
  | liquidateBuy
  | liquidateSell
  deriving DecidableEq

def TradeSide.isLiquidation : TradeSide → Bool
  | .buy => false
  | .sell => false
  | .liquidateBuy => true
  | .liquidateSell => true

/-- A row of `trades_history` without its key. -/
structure Trade where
  traderAddr : String
  perpetualId : ℕ
  side : TradeSide
  orderFlags : ℕ
  price : ℤ
  quantity : ℤ
  quantityCC : Option ℤ
  fee : ℤ
  brokerFeeTbps : ℕ
  brokerAddr : String
  realizedProfit : ℤ
  newPosBC : ℤ
  leverage : Option ℕ
  txHash : String
  /-- In seconds. -/
  tradeTimestamp : ℕ
  isCollectedByEvent : Bool
  deriving DecidableEq

/-- The table: order digest hash to row. -/
abbrev TradeTable := OrdMap String Trade

/-- `ONE_64x64`. -/
def one64x64 : ℤ := 2 ^ 64

/-- `_createLiquidationId`; `sha256Hex` is the digest of a string, in hexadecimal. -/
def createLiquidationId (sha256Hex : String → String) (e : LiquidateEvent) (blockNumber : ℕ) :
    String :=
  -- `toString().slice(-2)`
  let pos := (toString e.newPositionSizeBC).toList
  sha256Hex (e.trader ++ toString e.perpetualId ++ toString blockNumber ++
    String.ofList (pos.drop (pos.length - 2)))

/-- `order_digest_hash` of an event. -/
def TradeHistoryEvent.digest (sha256Hex : String → String) (blockNumber : ℕ) :
    TradeHistoryEvent → String
  | .trade e => e.orderDigest
  | .liquidate e => createLiquidationId sha256Hex e blockNumber

/-- `data`: the row an event is created with. -/
def TradeHistoryEvent.row (txHash : String) (isCollectedByEvent : Bool) (tradeBlockTimestamp : ℕ) :
    TradeHistoryEvent → Trade
  | .trade e =>
      { traderAddr := toLowerCase e.trader
        perpetualId := e.perpetualId
        side := if e.order.fAmount > 0 then .buy else .sell
        orderFlags := e.order.flags
        price := e.price
        quantity := e.order.fAmount
        quantityCC := some ((e.fB2C * e.order.fAmount).tdiv one64x64)
        fee := e.fFeeCC
        brokerFeeTbps := e.order.brokerFeeTbps
        brokerAddr := toLowerCase e.order.brokerAddr
        realizedProfit := e.fPnlCC
        newPosBC := e.newPositionSizeBC
        leverage := some e.order.leverageTDR
        txHash := toLowerCase txHash
        tradeTimestamp := tradeBlockTimestamp
        isCollectedByEvent := isCollectedByEvent }
  | .liquidate e =>
      -- the column defaults of `order_flags` and `broker_addr`
      { traderAddr := toLowerCase e.trader
        perpetualId := e.perpetualId
        side := if e.amountLiquidatedBC > 0 then .liquidateBuy else .liquidateSell
        orderFlags := 0
        price := e.liquidationPrice
        quantity := e.amountLiquidatedBC
        quantityCC := none
        fee := e.fFeeCC
        brokerFeeTbps := 0
        brokerAddr := ""
        realizedProfit := e.fPnlCC
        newPosBC := e.newPositionSizeBC
        leverage := none
        txHash := toLowerCase txHash
        tradeTimestamp := tradeBlockTimestamp
        isCollectedByEvent := isCollectedByEvent }

/-- `insertTradeHistoryRecord`. -/
def insertTradeHistoryRecord (sha256Hex : String → String) (t : TradeTable)
    (e : TradeHistoryEvent) (txHash : String) (isCollectedByEvent : Bool)
    (tradeBlockTimestamp tradeBlockNumber : ℕ) : TradeTable :=
  t.upsert (e.digest sha256Hex tradeBlockNumber)
    (e.row txHash isCollectedByEvent tradeBlockTimestamp) fun row =>
      { row with
        isCollectedByEvent := isCollectedByEvent
        tradeTimestamp := tradeBlockTimestamp }

/-! ## The newest rows -/

/-- An hour, in milliseconds. -/
def oneHour : ℤ := 3600000

/-- The time of a row collected over http, among trades or among liquidations. -/
def Trade.httpTime (liquidation : Bool) (row : Trade) : Option ℕ :=
  if row.side.isLiquidation = liquidation ∧ row.isCollectedByEvent = false then
    some row.tradeTimestamp
  else none

/-- `getLatestTradeTimestamp`, in milliseconds. -/
def getLatestTradeTimestamp (t : TradeTable) : Option ℤ :=
  (t.latest (Trade.httpTime false)).map fun time : ℕ => (time : ℤ) * 1000 - oneHour

/-- `getLatestLiquidateTimestamp`. -/
def getLatestLiquidateTimestamp (t : TradeTable) : Option ℤ :=
  (t.latest (Trade.httpTime true)).map fun time : ℕ => (time : ℤ) * 1000 - oneHour

end TraderBackend
