import SuperTrading.Logic.Dict
import SuperTrading.Logic.Runs
import SuperTrading.Logic.Netting
import SuperTrading.Logic.Online
import SuperTrading.Logic.SortBy
import SuperTrading.Logic.Bands
import SuperTrading.Logic.Grid
import SuperTrading.Logic.Dedupe
import SuperTrading.Logic.Texts
import SuperTrading.Logic.RowVersions
import SuperTrading.Core.Types
import SuperTrading.Brokers.Base
import SuperTrading.Brokers.Mock
import SuperTrading.Trading.PositionManager
import SuperTrading.Trading.NettingAgreement
import SuperTrading.Trading.OrderManager
import SuperTrading.Trading.Execution
import SuperTrading.Trading.ProtectiveStops
import SuperTrading.Trading.SingleStop
import SuperTrading.Risk.Engine
import SuperTrading.Options.Payoff
import SuperTrading.Risk.OptionsRisk
import SuperTrading.Trading.Persistence
import SuperTrading.Api.Stack
import SuperTrading.Api.Orders
import SuperTrading.Api.Options
import SuperTrading.Api.RejectionBreaker
import SuperTrading.Api.QuoteSeeding
import SuperTrading.Api.LegFills
import SuperTrading.Api.PartialBatch
import SuperTrading.Api.ReducingExemption
import SuperTrading.Api.AtMostOnce
import SuperTrading.Api.MockTrading
import SuperTrading.Api.BookSync
import SuperTrading.Api.StopFollowsPosition
import SuperTrading.Api.Unwind
import SuperTrading.Api.StrategyIntact
import SuperTrading.Api.StrategyVersions
import SuperTrading.Smc.Types
import SuperTrading.Smc.Engine
import SuperTrading.Smc.NoLookAhead
import SuperTrading.Smc.EqualLevels
import SuperTrading.Smc.SweepsKept
import SuperTrading.Strategy.Engine
import SuperTrading.Backtest.Engine
import SuperTrading.Paper.Engine
import SuperTrading.Paper.BacktestParity
import SuperTrading.Market.Timeframes
import SuperTrading.Market.Aggregation
import SuperTrading.Workers.AutoTrade
import SuperTrading.Workers.AutoTradeSeries
import SuperTrading.Workers.Candle
import SuperTrading.Workers.DerivedSeries
import SuperTrading.Smc.Swings
import SuperTrading.Smc.Structure
import SuperTrading.Smc.Fvg
import SuperTrading.Auth.Refresh
import SuperTrading.Auth.RefreshOnce
import SuperTrading.Auth.Containment
import SuperTrading.Core.TradeLock
import SuperTrading.Trading.Reconciliation
import SuperTrading.Trading.ReconciliationSound
import SuperTrading.Trading.BrokerMirror
import SuperTrading.Trading.OrderRoundTrip
import SuperTrading.Trading.PositionRoundTrip
import SuperTrading.Api.ExposureGate
import SuperTrading.Api.RiskCounters
import SuperTrading.Paper.OneCandle
import SuperTrading.Workers.AutoTradeJournal
import SuperTrading.Workers.OneCall
import SuperTrading.Workers.TradeProvenance
import SuperTrading.Workers.EntryCounter
import SuperTrading.Workers.Grounded
import SuperTrading.Workers.HaltedPass
import SuperTrading.Trading.OrderLife
import SuperTrading.Api.CorrelatedGate
import SuperTrading.Risk.Monotone
import SuperTrading.Logic.Piecewise
import SuperTrading.Options.PayoffShape
import SuperTrading.Options.Breakevens
import SuperTrading.Paper.Desk
import SuperTrading.Paper.TwoMarks
import SuperTrading.Ict.KillZones
import SuperTrading.Logic.HighWater
import SuperTrading.Smc.Spelling
import SuperTrading.Market.Instants
import SuperTrading.Smc.BreaksFound
import SuperTrading.Smc.Mitigation
import SuperTrading.Backtest.Fills
import SuperTrading.Logic.Buckets
import SuperTrading.Market.Resample
import SuperTrading.Market.UpstoxCandles
import SuperTrading.Market.Composition
import SuperTrading.Logic.IsoCalendar
import SuperTrading.Paper.WindowRuns
import SuperTrading.Api.WindowStarts
import SuperTrading.Brokers.MockMarks
import SuperTrading.Core.ClientIp
import SuperTrading.Backtest.Metrics
import SuperTrading.Core.RateWindow
import SuperTrading.Replay.Statistics
import SuperTrading.Replay.Engine
import SuperTrading.Replay.Soundness
import SuperTrading.Risk.Correlation
import SuperTrading.Api.OrderIdentity
import SuperTrading.Api.HonestCancel
import SuperTrading.Api.TradeJournal
import SuperTrading.Logic.Upsert
import SuperTrading.Trading.PositionMirror
import SuperTrading.Api.Paper
import SuperTrading.Api.PaperRows
import SuperTrading.Workers.MirroredRows
import SuperTrading.Logic.PyFloat
import SuperTrading.Logic.JsonValue
import SuperTrading.Ai.TotalAndSound
import SuperTrading.Ict.OpeningRange
import SuperTrading.Workers.Setups
import SuperTrading.Logic.IsoFormat
import SuperTrading.Strategy.Liveness
import SuperTrading.Strategy.Signals
import SuperTrading.Options.Strategies
import SuperTrading.Replay.Mirror
import SuperTrading.Core.PriceCache
import SuperTrading.Auth.Sessions
import SuperTrading.Workers.Consent
import SuperTrading.Api.StackCache
