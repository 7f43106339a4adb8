import TraderBackend.Lib.JsString
import TraderBackend.Lib.OrdMap
import TraderBackend.Lib.RingBuffer
import TraderBackend.Lib.Lead
import TraderBackend.Lib.Interleave
import TraderBackend.Lib.Table
import TraderBackend.Lib.Race
import TraderBackend.Lib.Journal
import TraderBackend.Lib.Bisection
import TraderBackend.Lib.Buckets
import TraderBackend.Lib.JsNumber
import TraderBackend.Lib.Decimal
import TraderBackend.Lib.Argmax
import TraderBackend.Lib.Series
import TraderBackend.Lib.SingleFlight
import TraderBackend.Lib.Memo
import TraderBackend.Lib.Join
import TraderBackend.History.Errors
import TraderBackend.History.Filterer
import TraderBackend.History.FiltererDelivery
import TraderBackend.History.FiltererRange
import TraderBackend.History.FiltererCoverage
import TraderBackend.History.BoundedRetries
import TraderBackend.History.Earnings
import TraderBackend.History.LpLedger
import TraderBackend.History.LongId
import TraderBackend.History.LongIdPartition
import TraderBackend.History.LongIdRecords
import TraderBackend.History.LongIdAlignment
import TraderBackend.History.LongIdFailures
import TraderBackend.History.TradingHistory
import TraderBackend.History.LiquidationIds
import TraderBackend.History.Ledgers
import TraderBackend.History.AccountLedgers
import TraderBackend.History.BlockFromTime
import TraderBackend.History.DeploymentBlock
import TraderBackend.History.Handlers
import TraderBackend.History.HandlerRuns
import TraderBackend.History.CollectedFlag
import TraderBackend.History.WithdrawalFlag
import TraderBackend.History.P2PWatermark
import TraderBackend.History.DeliveryRace
import TraderBackend.History.BackfillRunner
import TraderBackend.History.Watermarks
import TraderBackend.History.BackfillCompletion
import TraderBackend.History.Gaps
import TraderBackend.History.Schedule
import TraderBackend.History.MarginTokens
import TraderBackend.History.PriceInfo
import TraderBackend.History.Apy
import TraderBackend.History.BlockTimestamps
import TraderBackend.History.ListenerFailover
import TraderBackend.History.SharePriceFetch
import TraderBackend.History.OpenWithdrawals
import TraderBackend.History.NameInForce
import TraderBackend.History.TradesEndpoint
import TraderBackend.History.TradingVolume
import TraderBackend.Utils.FixedPoint
import TraderBackend.Utils.Percentages
import TraderBackend.Utils.Validation
import TraderBackend.Utils.RoundTrips
import TraderBackend.History.LpStatement
import TraderBackend.Api.IndexPrices
import TraderBackend.Api.MarkPrice
import TraderBackend.Api.EventWindow
import TraderBackend.Api.Registry
import TraderBackend.Api.OrderBook
import TraderBackend.Api.WebSocket
import TraderBackend.Api.ExchangeInfo
import TraderBackend.Api.SymbolLookup
import TraderBackend.Api.FailedSubscribe
import TraderBackend.Api.Delivery
import TraderBackend.Api.OrderFrequency
import TraderBackend.Api.RpcReset
import TraderBackend.Api.IndexMapping
import TraderBackend.Api.StaleMapping
import TraderBackend.Api.PriceUpdates
import TraderBackend.Api.StartPrices
import TraderBackend.Api.IndexKeys
import TraderBackend.Api.RpcManager
import TraderBackend.Api.RpcRotation
import TraderBackend.Api.RpcUrls
import TraderBackend.Api.OrderDigest
import TraderBackend.Api.TraderFee
import TraderBackend.Api.RedisOI
import TraderBackend.Api.LatestOI
import TraderBackend.Api.InfoFlights
