import Mathlib.Data.Finset.Basic
import ExchangeEngine.Orderbook
import ExchangeEngine.Protocol

/-!
# The Matching Engine

The class `MatchingEngine` of `MatchingEngine.h` and `MatchingEngine.cpp`: request
validation, the three request handlers, the bulk cancel of a disconnected session, and the
senders of responses and market data.

The engine only ever pushes to its two outgoing queues. `outboundQueue` and `feedQueue` hold
everything pushed to them, oldest first, as when neither queue is ever full. `clock` is the
sequence of clock readings still to come: every timestamp the engine takes uses up one.
-/

namespace ExchangeEngine

/-- The engine: the book, the two counters that ids are taken from, the three maps that track
orders, the last trade, the statistics, what has been pushed to the two queues, and the clock
readings still to come. -/
structure MatchingEngine where
  orderbook : Orderbook
  symbol : List UInt8
  nextOrderId : OrderId
  nextTradeId : TradeId
  sessionOrders : UnorderedMap SessionId (Finset OrderId)
  orderToSession : UnorderedMap OrderId SessionId
  orderToClientOrderId : UnorderedMap OrderId ClientOrderId
  lastTradePrice : Price
  lastTradeQty : Quantity
  ordersProcessed : UInt64
  tradesExecuted : UInt64
  outboundQueue : List OutboundMessage
  feedQueue : List MarketDataMessage
  clock : ℕ → Timestamp

namespace MatchingEngine

/-- A newly constructed engine. -/
def fresh (symbol : List UInt8) (clock : ℕ → Timestamp) : MatchingEngine where
  orderbook := Orderbook.empty
  symbol
  nextOrderId := 1
  nextTradeId := 1
  sessionOrders := ∅
  orderToSession := ∅
  orderToClientOrderId := ∅
  lastTradePrice := 0
  lastTradeQty := 0
  ordersProcessed := 0
  tradesExecuted := 0
  outboundQueue := []
  feedQueue := []
  clock

/-! ### Sending -/

/-- The header of a message built now. -/
def header (e : MatchingEngine) (type : MessageType) : MessageHeader :=
  ⟨type, type.size, e.clock 0⟩

/-- Push a response whose header has just been built. -/
def pushOutbound (e : MatchingEngine) (sessionId : SessionId) (body : OutboundBody) :
    MatchingEngine :=
  { e with
    outboundQueue := e.outboundQueue ++ [⟨sessionId, body⟩]
    clock := fun n => e.clock (n + 1) }

/-- Push a market data message whose header has just been built. -/
def pushFeed (e : MatchingEngine) (msg : MarketDataMessage) : MatchingEngine :=
  { e with feedQueue := e.feedQueue ++ [msg], clock := fun n => e.clock (n + 1) }

/-- Tell a client that its order has been accepted, under the id and with the status it has now. -/
def sendOrderAck (e : MatchingEngine) (sessionId : SessionId) (clientOrderId : ClientOrderId)
    (orderId : OrderId) (status : OrderStatus) : MatchingEngine :=
  e.pushOutbound sessionId
    (.orderAck { header := e.header .orderAck, clientOrderId, orderId, status := status.toUInt8 })

/-- Tell a client that its order has been refused, and why. It gets no order id. -/
def sendOrderReject (e : MatchingEngine) (sessionId : SessionId)
    (clientOrderId : ClientOrderId) (reason : RejectReason) : MatchingEngine :=
  e.pushOutbound sessionId
    (.orderReject { header := e.header .orderReject, clientOrderId, reason })

/-- An execution report takes the next trade id and advances it. -/
def sendExecutionReport (e : MatchingEngine) (sessionId : SessionId) (orderId : OrderId)
    (execPrice : Price) (execQty leavesQty : Quantity) (side : BuySell) : MatchingEngine :=
  { e with nextTradeId := e.nextTradeId + 1 }.pushOutbound sessionId
    (.execReport
      { header := e.header .executionReport, orderId, tradeId := e.nextTradeId, execPrice,
        execQty, leavesQty, side := side.toUInt8 })

/-- Tell a client that an order has been cancelled. -/
def sendCancelAck (e : MatchingEngine) (sessionId : SessionId) (clientOrderId : ClientOrderId)
    (orderId : OrderId) : MatchingEngine :=
  e.pushOutbound sessionId
    (.cancelAck { header := e.header .cancelAck, clientOrderId, orderId })

/-- Tell a client that a cancel has been refused, and why. -/
def sendCancelReject (e : MatchingEngine) (sessionId : SessionId)
    (clientOrderId : ClientOrderId) (orderId : OrderId) (reason : RejectReason) :
    MatchingEngine :=
  e.pushOutbound sessionId
    (.cancelReject { header := e.header .cancelReject, clientOrderId, orderId, reason })

/-- Tell a client that an order has been modified. The acknowledgement repeats the request; it does
not say what is left of the order. -/
def sendModifyAck (e : MatchingEngine) (sessionId : SessionId) (clientOrderId : ClientOrderId)
    (orderId : OrderId) (newPrice : Price) (newQuantity : Quantity) : MatchingEngine :=
  e.pushOutbound sessionId
    (.modifyAck { header := e.header .modifyAck, clientOrderId, orderId, newPrice, newQuantity })

/-- Tell a client that a modify has been refused, and why. -/
def sendModifyReject (e : MatchingEngine) (sessionId : SessionId)
    (clientOrderId : ClientOrderId) (orderId : OrderId) (reason : RejectReason) :
    MatchingEngine :=
  e.pushOutbound sessionId
    (.modifyReject { header := e.header .modifyReject, clientOrderId, orderId, reason })

/-- A trade update carries the current trade id and leaves it as it is. -/
def publishTradeUpdate (e : MatchingEngine) (trade : Trade) (aggressorSide : BuySell) :
    MatchingEngine :=
  e.pushFeed
    (.trade
      { header := e.header .tradeUpdate, symbol := copySymbol e.symbol,
        tradeId := e.nextTradeId, price := trade.price, quantity := trade.quantity,
        aggressorSide := aggressorSide.toUInt8 })

/-- Publish the best prices as the book reports them, and the last trade. -/
def publishTickUpdate (e : MatchingEngine) : MatchingEngine :=
  let best := e.orderbook.getBestBidAsk
  e.pushFeed
    (.tick
      { header := e.header .tickUpdate, symbol := copySymbol e.symbol,
        lastPrice := e.lastTradePrice, lastQty := e.lastTradeQty, bidPrice := best.bidPrice,
        askPrice := best.askPrice, bidQty := best.bidQty, askQty := best.askQty })

/-! ### Order tracking -/

/-- Enter an order into the three tracking maps. -/
def trackOrder (e : MatchingEngine) (sessionId : SessionId) (orderId : OrderId)
    (clientOrderId : ClientOrderId) : MatchingEngine :=
  { e with
    sessionOrders := e.sessionOrders.insert sessionId
      (insert orderId ((e.sessionOrders.lookup sessionId).getD ∅))
    orderToSession := e.orderToSession.insert orderId sessionId
    orderToClientOrderId := e.orderToClientOrderId.insert orderId clientOrderId }

/-- Remove an order from the three tracking maps. -/
def untrackOrder (e : MatchingEngine) (sessionId : SessionId) (orderId : OrderId) :
    MatchingEngine :=
  { e with
    sessionOrders := e.sessionOrders.insert sessionId
      (((e.sessionOrders.lookup sessionId).getD ∅).erase orderId)
    orderToSession := e.orderToSession.erase orderId
    orderToClientOrderId := e.orderToClientOrderId.erase orderId }

/-- The session that entered an order, if `sessionId` may cancel or modify it: the order must
be tracked, and be the session's own unless the session is the dummy session. -/
def authorize (e : MatchingEngine) (sessionId : SessionId) (orderId : OrderId) :
    Option SessionId :=
  match e.orderToSession.lookup orderId with
  | none => none
  | some owner => if owner ≠ sessionId ∧ sessionId ≠ DUMMY_SESSION_ID then none else some owner

/-! ### New orders -/

/-- The checks of `handleNewOrder`, in their order. -/
def checkNewOrder (request : NewOrderRequest) : Except RejectReason (BuySell × OrderType) :=
  match BuySell.ofUInt8 request.side with
  | none | some .default => .error .invalidSide
  | some side =>
      match OrderType.ofUInt8 request.orderType with
      | none | some .default | some .stoploss => .error .invalidOrderType
      | some orderType =>
          if request.quantity = 0 then .error .invalidQuantity
          else if orderType = .limit ∧ request.price ≤ 0 then .error .invalidPrice
          else .ok (side, orderType)

/-- The order that an accepted request creates. -/
def newOrder (e : MatchingEngine) (sessionId : SessionId) (request : NewOrderRequest)
    (side : BuySell) (orderType : OrderType) : Order where
  price := request.price
  quantity := request.quantity
  timestamp := e.clock 0
  orderId := e.nextOrderId
  orderType
  buySell := side
  orderStatus := .new
  sessionId
  clientOrderId := request.clientOrderId

/-- Take the next order id and a timestamp, create the order object and track it. -/
def registerOrder (e : MatchingEngine) (sessionId : SessionId) (request : NewOrderRequest)
    (side : BuySell) (orderType : OrderType) : MatchingEngine :=
  { e with
    nextOrderId := e.nextOrderId + 1
    clock := fun n => e.clock (n + 1)
    orderbook :=
      { e.orderbook with
        heap := e.orderbook.heap.alloc (e.newOrder sessionId request side orderType) }
  }.trackOrder sessionId e.nextOrderId request.clientOrderId

/-- What both request handlers do first with a trade: count it and remember it as the last
one. -/
def recordTrade (e : MatchingEngine) (trade : Trade) : MatchingEngine :=
  { e with
    tradesExecuted := e.tradesExecuted + 1
    lastTradePrice := trade.price
    lastTradeQty := trade.quantity }

/-- The body of the trade loop of `handleNewOrder`. The aggressor's report gives the order's
quantity as it is now, after all matching; the passive order's report gives zero. -/
def newOrderTrade (sessionId : SessionId) (order : OrderPointer) (orderId : OrderId)
    (side : BuySell) (e : MatchingEngine) (trade : Trade) : MatchingEngine :=
  let e := (e.recordTrade trade).publishTradeUpdate trade side
  let e := e.sendExecutionReport sessionId orderId trade.price trade.quantity
    (e.orderbook.heap.read order).quantity side
  let passiveOrderId := if side = .buy then trade.sellOrderId else trade.buyOrderId
  match e.orderToSession.lookup passiveOrderId with
  | none => e
  | some passiveSessionId =>
      e.sendExecutionReport passiveSessionId passiveOrderId trade.price trade.quantity 0
        side.opposite

/-- `handleNewOrder` up to and including the call of `AddOrder`, for an accepted request. -/
def enterOrder (e : MatchingEngine) (sessionId : SessionId) (request : NewOrderRequest)
    (side : BuySell) (orderType : OrderType) : MatchingEngine :=
  let order := e.orderbook.heap.next
  let e := e.registerOrder sessionId request side orderType
  { e with orderbook := e.orderbook.addOrder order }

/-- `handleNewOrder` after the trade loop: acknowledge, drop the tracking of an order that
does not rest, publish the best prices. -/
def finishNewOrder (e : MatchingEngine) (sessionId : SessionId) (clientOrderId : ClientOrderId)
    (order : OrderPointer) (orderId : OrderId) : MatchingEngine :=
  let o := e.orderbook.heap.read order
  let e := e.sendOrderAck sessionId clientOrderId orderId o.orderStatus
  let e :=
    if o.isFilled ∨ o.orderStatus = .cancelled then e.untrackOrder sessionId orderId else e
  e.publishTickUpdate

/-- `handleNewOrder` for a request that has passed the checks. The object of the order is the next
one in the heap, and stays the same through matching. -/
def acceptNewOrder (e : MatchingEngine) (sessionId : SessionId) (request : NewOrderRequest)
    (side : BuySell) (orderType : OrderType) : MatchingEngine :=
  let order := e.orderbook.heap.next
  let orderId := e.nextOrderId
  let e := e.enterOrder sessionId request side orderType
  let e := e.orderbook.trades.foldl (newOrderTrade sessionId order orderId side) e
  e.finishNewOrder sessionId request.clientOrderId order orderId

/-- Every request is counted, also one that is refused. -/
def handleNewOrder (e : MatchingEngine) (sessionId : SessionId) (request : NewOrderRequest) :
    MatchingEngine :=
  let e := { e with ordersProcessed := e.ordersProcessed + 1 }
  match checkNewOrder request with
  | .error reason => e.sendOrderReject sessionId request.clientOrderId reason
  | .ok (side, orderType) => e.acceptNewOrder sessionId request side orderType

/-! ### Cancels -/

/-- The tracking is dropped under the session that entered the order, which is not the one that
cancels it when that is the dummy session. -/
def handleCancelOrder (e : MatchingEngine) (sessionId : SessionId)
    (request : CancelOrderRequest) : MatchingEngine :=
  match e.authorize sessionId request.orderId with
  | none => e.sendCancelReject sessionId request.clientOrderId request.orderId .orderNotFound
  | some owner =>
      let e := { e with orderbook := e.orderbook.cancelOrder request.orderId }
      let e := e.untrackOrder owner request.orderId
      (e.sendCancelAck sessionId request.clientOrderId request.orderId).publishTickUpdate

/-! ### Modifies -/

/-- The checks of `handleModifyOrder`, in their order. -/
def checkModifyOrder (e : MatchingEngine) (sessionId : SessionId)
    (request : ModifyOrderRequest) : Option RejectReason :=
  match e.authorize sessionId request.orderId with
  | none => some .orderNotFound
  | some _ =>
      if request.newPrice ≤ 0 then some .invalidPrice
      else if request.newQuantity = 0 then some .invalidQuantity
      else none

/-- The body of the trade loop of `handleModifyOrder`. -/
def modifyOrderTrade (orderId : OrderId) (e : MatchingEngine) (trade : Trade) :
    MatchingEngine :=
  (e.recordTrade trade).publishTradeUpdate trade
    (if trade.buyOrderId = orderId then .buy else .sell)

/-- `handleModifyOrder` for a request that has passed the checks. The book may do nothing, and then
the loop runs over the trades of an earlier call. The modify is acknowledged in any case. -/
def acceptModifyOrder (e : MatchingEngine) (sessionId : SessionId)
    (request : ModifyOrderRequest) : MatchingEngine :=
  let e := { e with
    orderbook := e.orderbook.modifyOrder request.orderId request.newPrice request.newQuantity }
  let e := e.orderbook.trades.foldl (modifyOrderTrade request.orderId) e
  (e.sendModifyAck sessionId request.clientOrderId request.orderId request.newPrice
    request.newQuantity).publishTickUpdate

/-- A modify that is refused changes nothing but the outbound queue. -/
def handleModifyOrder (e : MatchingEngine) (sessionId : SessionId)
    (request : ModifyOrderRequest) : MatchingEngine :=
  match e.checkModifyOrder sessionId request with
  | some reason =>
      e.sendModifyReject sessionId request.clientOrderId request.orderId reason
  | none => e.acceptModifyOrder sessionId request

/-! ### Entry points -/

/-- The body of the loop of `cancelSessionOrders`. -/
def cancelForSession (e : MatchingEngine) (orderId : OrderId) : MatchingEngine :=
  { e with
    orderbook := e.orderbook.cancelOrder orderId
    orderToSession := e.orderToSession.erase orderId
    orderToClientOrderId := e.orderToClientOrderId.erase orderId }

/-- The bulk cancel of a session's orders, in the order in which `orderIds` lists the set. -/
def cancelSessionOrders (e : MatchingEngine) (sessionId : SessionId)
    (orderIds : List OrderId) : MatchingEngine :=
  let e := orderIds.foldl cancelForSession e
  let e := { e with sessionOrders := e.sessionOrders.erase sessionId }
  if orderIds = [] then e else e.publishTickUpdate

/-- The dispatch on the type of a message from the inbound queue. -/
def processInboundMessage (e : MatchingEngine) (msg : InboundMessage) : MatchingEngine :=
  match msg.body with
  | .newOrder request => e.handleNewOrder msg.sessionId request
  | .cancelOrder request => e.handleCancelOrder msg.sessionId request
  | .modifyOrder request => e.handleModifyOrder msg.sessionId request

end MatchingEngine

end ExchangeEngine
