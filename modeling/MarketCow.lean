import MarketCow.Core.Batch
import MarketCow.Core.Replay
import MarketCow.Core.DuplicateWindow
import MarketCow.Core.Resync
import MarketCow.Core.Sequences
import MarketCow.Core.Resolution
import MarketCow.Core.Retention
import MarketCow.Core.GapStep
import MarketCow.Core.Reader
import MarketCow.Polymarket.PriceChanges
import MarketCow.Realtime.HubRun
import MarketCow.Realtime.ReplayAfter
import MarketCow.Realtime.SparseIndex
import MarketCow.Jobs.Recovery
import MarketCow.Jobs.Leases
import MarketCow.Jobs.Dispatch
import MarketCow.Source.ReplayBudget
import MarketCow.Source.Turns
import MarketCow.Acquisition.Ownership
import MarketCow.Acquisition.Membership
import MarketCow.Acquisition.Notifications
import MarketCow.Polynode.ReceiptRun
import MarketCow.Live.Delivery
import MarketCow.Polymarket.Websocket.Gaps
import MarketCow.Sdk.PriceSeed
import MarketCow.Sdk.FanoutDelivery
import MarketCow.Sdk.MarketJoin
import MarketCow.Discovery.Reopening
import MarketCow.Btc.TimeRange
import MarketCow.Btc.OneSession
import MarketCow.Finality.Uint256
import MarketCow.Library.Claims
import MarketCow.Scope.Operations
import MarketCow.Scope.AcknowledgedCommits
import MarketCow.BtcLive.Deliveries
import MarketCow.Btc.DatabaseQueue
import MarketCow.Sdk.FanoutIsolation
import MarketCow.Source.ReplayPages
import MarketCow.Btc.TradeConvergence
