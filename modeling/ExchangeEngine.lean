import ExchangeEngine.Lib.ObjectStore
import ExchangeEngine.Lib.SortedMap
import ExchangeEngine.Lib.UnorderedMap
import ExchangeEngine.Lib.WhileLoop
import ExchangeEngine.Lib.PriceTime
import ExchangeEngine.Lib.Depth
import ExchangeEngine.Lib.Execution
import ExchangeEngine.Lib.Market
import ExchangeEngine.Lib.Relabeling
import ExchangeEngine.Lib.Layout
import ExchangeEngine.Lib.RingIndex
import ExchangeEngine.Lib.BoundedQueue
import ExchangeEngine.Lib.Precedence
import ExchangeEngine.Lib.TextStream
import ExchangeEngine.Lib.Pipeline
import ExchangeEngine.Types
import ExchangeEngine.Order
import ExchangeEngine.Orderbook
import ExchangeEngine.Protocol
import ExchangeEngine.MatchingEngine
import ExchangeEngine.SessionManager
import ExchangeEngine.Wire
import ExchangeEngine.ZmqServer
import ExchangeEngine.LockFreeQueue
import ExchangeEngine.BookInvariant
import ExchangeEngine.MatchTurns
import ExchangeEngine.MatchObjects
import ExchangeEngine.MatchLoops
import ExchangeEngine.Matching
import ExchangeEngine.LevelBooks
import ExchangeEngine.BookOperations
import ExchangeEngine.Sides
import ExchangeEngine.BookCalls
import ExchangeEngine.EngineSteps
import ExchangeEngine.DummyGenerator
import ExchangeEngine.Runs
import ExchangeEngine.Anonymity
import ExchangeEngine.Priority
import ExchangeEngine.Entries
import ExchangeEngine.Ledger
import ExchangeEngine.Announcements
import ExchangeEngine.Publication
import ExchangeEngine.BestPrices
import ExchangeEngine.Tracking
import ExchangeEngine.TrackingBounds
import ExchangeEngine.Crossing
import ExchangeEngine.PriceProtection
import ExchangeEngine.ReferenceMatching
import ExchangeEngine.Reports
import ExchangeEngine.Terminal
import ExchangeEngine.Leaves
import ExchangeEngine.TradeIds
import ExchangeEngine.TrackingMaps
import ExchangeEngine.StaleTracking
import ExchangeEngine.Unmatched
import ExchangeEngine.Ownership
import ExchangeEngine.Cancels
import ExchangeEngine.BulkCancels
import ExchangeEngine.MarketOrders
import ExchangeEngine.Replacements
import ExchangeEngine.LevelAggregates
import ExchangeEngine.ExactAggregates
import ExchangeEngine.Responses
import ExchangeEngine.Rejections
import ExchangeEngine.Acknowledgements
import ExchangeEngine.AckStatus
import ExchangeEngine.Sessions
import ExchangeEngine.ClientSessions
import ExchangeEngine.EntryParsing
import ExchangeEngine.Framing
import ExchangeEngine.MarketData
import ExchangeEngine.UdpMulticastReceiver
import ExchangeEngine.Routing
import ExchangeEngine.Exchange
import ExchangeEngine.Disconnect
import ExchangeEngine.FifoQueues
import ExchangeEngine.QueueRefinement
import ExchangeEngine.Delivery
import ExchangeEngine.Shutdown
import ExchangeEngine.ReferenceMarket
import ExchangeEngine.BestExecution
import ExchangeEngine.OrderSplitting
import ExchangeEngine.Subscribers
import ExchangeEngine.Lifecycle
import ExchangeEngine.ClientResponses
import ExchangeEngine.RunningExchange
import ExchangeEngine.OrderEntryClient
import ExchangeEngine.BoundedExchange
import ExchangeEngine.ClientDialog
import ExchangeEngine.BookDisplay
import ExchangeEngine.Symmetry
