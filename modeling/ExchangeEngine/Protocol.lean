import ExchangeEngine.Types

/-!
# Messages

The messages of `Protocol.h`: requests from clients, responses to them, market data. Every
message carries a header with its type, its length and the clock reading at which it was
built.

The three queue wrappers are tagged unions in the source. Here a wrapper is its union, whose
constructor is the tag: every piece of the source that fills a wrapper writes the member its
tag names.
-/

namespace ExchangeEngine

/-- The types of messages, which the first byte of a header names. -/
inductive MessageType
  | newOrderRequest
  | cancelOrderRequest
  | modifyOrderRequest
  | orderAck
  | orderReject
  | executionReport
  | cancelAck
  | cancelReject
  | modifyAck
  | modifyReject
  | tickUpdate
  | tradeUpdate
  | orderbookSnapshot
  deriving DecidableEq, Repr

/-- Why a request is refused. The engine gives five of the reasons; the others are reserved. -/
inductive RejectReason
  | none
  | invalidPrice
  | invalidQuantity
  | invalidSide
  | invalidOrderType
  | orderNotFound
  | duplicateOrderId
  | sessionNotFound
  | invalidMessage
  | internalError
  deriving DecidableEq, Repr

/-- The header: type, length of the whole message, and clock reading. -/
structure MessageHeader where
  type : MessageType
  length : UInt16
  timestamp : Timestamp
  deriving DecidableEq, Repr

/-! ### Requests -/

/-- A request to enter an order. Side and type are bytes that need not name an enumerator. -/
structure NewOrderRequest where
  header : MessageHeader
  clientOrderId : ClientOrderId
  side : UInt8
  orderType : UInt8
  price : Price
  quantity : Quantity
  deriving DecidableEq, Repr

/-- A request to cancel an order, under the id that the engine has given it. -/
structure CancelOrderRequest where
  header : MessageHeader
  clientOrderId : ClientOrderId
  orderId : OrderId
  deriving DecidableEq, Repr

/-- A request to give an order another price and quantity. -/
structure ModifyOrderRequest where
  header : MessageHeader
  clientOrderId : ClientOrderId
  orderId : OrderId
  newPrice : Price
  newQuantity : Quantity
  deriving DecidableEq, Repr

/-! ### Responses -/

/-- A new order has been accepted; `status` is that after matching. -/
structure OrderAck where
  header : MessageHeader
  clientOrderId : ClientOrderId
  orderId : OrderId
  status : UInt8
  deriving DecidableEq, Repr

/-- A new order has been refused. -/
structure OrderReject where
  header : MessageHeader
  clientOrderId : ClientOrderId
  reason : RejectReason
  deriving DecidableEq, Repr

/-- An order has traded; `leavesQty` is meant to be what is left of it. -/
structure ExecutionReport where
  header : MessageHeader
  orderId : OrderId
  tradeId : TradeId
  execPrice : Price
  execQty : Quantity
  leavesQty : Quantity
  side : UInt8
  deriving DecidableEq, Repr

/-- An order has been cancelled. -/
structure CancelAck where
  header : MessageHeader
  clientOrderId : ClientOrderId
  orderId : OrderId
  deriving DecidableEq, Repr

/-- A cancel has been refused. -/
structure CancelReject where
  header : MessageHeader
  clientOrderId : ClientOrderId
  orderId : OrderId
  reason : RejectReason
  deriving DecidableEq, Repr

/-- An order has been modified; price and quantity are those of the request. -/
structure ModifyAck where
  header : MessageHeader
  clientOrderId : ClientOrderId
  orderId : OrderId
  newPrice : Price
  newQuantity : Quantity
  deriving DecidableEq, Repr

/-- A modify has been refused. -/
structure ModifyReject where
  header : MessageHeader
  clientOrderId : ClientOrderId
  orderId : OrderId
  reason : RejectReason
  deriving DecidableEq, Repr

/-! ### Market data -/

/-- The length of a symbol in a message, its terminating NUL included. -/
def SYMBOL_LENGTH : ℕ := 8

/-- The best prices and the last trade; a side without a best price is reported as zero. -/
structure TickUpdate where
  header : MessageHeader
  symbol : List UInt8
  lastPrice : Price
  lastQty : Quantity
  bidPrice : Price
  askPrice : Price
  bidQty : Quantity
  askQty : Quantity
  deriving DecidableEq, Repr

/-- One trade, with the side of the order that came last. -/
structure TradeUpdate where
  header : MessageHeader
  symbol : List UInt8
  tradeId : TradeId
  price : Price
  quantity : Quantity
  aggressorSide : UInt8
  deriving DecidableEq, Repr

/-- `strncpy` of a symbol into a message, with the terminating NUL: the first
`SYMBOL_LENGTH - 1` characters up to a NUL, padded with NULs to `SYMBOL_LENGTH`. -/
def copySymbol (symbol : List UInt8) : List UInt8 :=
  let chars := (symbol.takeWhile (· ≠ 0)).take (SYMBOL_LENGTH - 1)
  chars ++ List.replicate (SYMBOL_LENGTH - chars.length) 0

/-! ### Sizes of the packed structs -/

namespace MessageType

/-- `sizeof` of the packed struct of each message type. -/
def size : MessageType → UInt16
  | newOrderRequest => 29
  | cancelOrderRequest => 27
  | modifyOrderRequest => 35
  | orderAck => 28
  | orderReject => 20
  | executionReport => 40
  | cancelAck => 27
  | cancelReject => 28
  | modifyAck => 35
  | modifyReject => 28
  | tickUpdate => 43
  | tradeUpdate => 36
  | orderbookSnapshot => 141

end MessageType

/-! ### Queue wrappers -/

/-- What a client or the dummy generator asks the engine for. -/
inductive InboundBody
  | newOrder (request : NewOrderRequest)
  | cancelOrder (request : CancelOrderRequest)
  | modifyOrder (request : ModifyOrderRequest)
  deriving DecidableEq, Repr

/-- A request on its way to the engine, with the session that it came from. -/
structure InboundMessage where
  sessionId : SessionId
  body : InboundBody
  deriving DecidableEq, Repr

/-- What the engine tells a client: six kinds of answers, and reports of executions. -/
inductive OutboundBody
  | orderAck (ack : OrderAck)
  | orderReject (reject : OrderReject)
  | execReport (report : ExecutionReport)
  | cancelAck (ack : CancelAck)
  | cancelReject (reject : CancelReject)
  | modifyAck (ack : ModifyAck)
  | modifyReject (reject : ModifyReject)
  deriving DecidableEq, Repr

/-- A response on its way to the server, with the session that it is for. -/
structure OutboundMessage where
  sessionId : SessionId
  body : OutboundBody
  deriving DecidableEq, Repr

/-- A message on its way to the feed handler. The engine publishes no snapshots. -/
inductive MarketDataMessage
  | tick (update : TickUpdate)
  | trade (update : TradeUpdate)
  deriving DecidableEq, Repr

end ExchangeEngine
