import Mathlib.Logic.Equiv.Basic
import ExchangeEngine.MatchObjects
import ExchangeEngine.Runs

/-!
# Anonymous and Timeless Matching

An order carries the session that entered it, the client's own id for it, and a timestamp. Nothing
that the book or the engine decides depends on them: sessions decide only who may cancel or modify
an order and where reports go, and for that it only matters which sessions are the same and which
is the dummy session.

`Orderbook.anonymous` is the book without these data. Every operation of the book commutes with it
(`anonymous_call`), so that the books of two engines stay the same up to these data. `Alike`
relates two engines whose sessions correspond under a renaming; every handler keeps it.

## Main results

* `matching_anonymous`: two runs on messages that are the same up to a renaming of sessions, the
  clients' ids and the clock are alike after every input.
-/

namespace ExchangeEngine

/-! ### Books without owners and times -/

/-- The order without the data that matching does not look at. -/
def Order.anonymous (o : Order) : Order :=
  { o with timestamp := 0, sessionId := 0, clientOrderId := 0 }

namespace Order

@[simp] theorem price_anonymous (o : Order) : o.anonymous.price = o.price :=
  rfl

@[simp] theorem quantity_anonymous (o : Order) : o.anonymous.quantity = o.quantity :=
  rfl

@[simp] theorem orderId_anonymous (o : Order) : o.anonymous.orderId = o.orderId :=
  rfl

@[simp] theorem buySell_anonymous (o : Order) : o.anonymous.buySell = o.buySell :=
  rfl

@[simp] theorem orderStatus_anonymous (o : Order) : o.anonymous.orderStatus = o.orderStatus :=
  rfl

@[simp] theorem isAggressive_anonymous (o : Order) : o.anonymous.isAggressive = o.isAggressive :=
  rfl

theorem settled_anonymous (o : Order) (originalQuantity remaining : Quantity) :
    (o.settled originalQuantity remaining).anonymous =
      o.anonymous.settled originalQuantity remaining := by
  have haggr : ∀ o : Order, (o.setQuantity remaining).isAggressive = o.isAggressive :=
    fun _ => rfl
  have hstatus : ∀ o : Order, (o.setQuantity remaining).orderStatus = o.orderStatus :=
    fun _ => rfl
  simp only [settled, haggr, hstatus, isAggressive_anonymous, orderStatus_anonymous]
  split
  · rfl
  split
  · rfl
  split
  · rfl
  split <;> rfl

end Order

theorem Order.unseen_anonymous : Order.Unseen Order.anonymous :=
  ⟨fun _ => rfl, fun _ => rfl, fun _ _ => rfl, fun _ _ => rfl⟩

/-- The call with nobody's name on its order: what the book does must not depend on who enters an
order. -/
def BookCall.anonymous : BookCall → BookCall
  | .addOrder o => .addOrder o.anonymous
  | .cancelOrder orderId => .cancelOrder orderId
  | .modifyOrder orderId newPrice newQuantity => .modifyOrder orderId newPrice newQuantity

namespace Orderbook

/-- The book with the orders seen without owners and times. -/
def anonymous (b : Orderbook) : Orderbook :=
  { b with heap := b.heap.map Order.anonymous }

variable (b : Orderbook) (p : OrderPointer)

theorem read_anonymous : b.anonymous.heap.read p = (b.heap.read p).anonymous :=
  rfl

theorem anonymous_updateOrder {f : Order → Order}
    (hf : ∀ o, (f o).anonymous = f o.anonymous) :
    (b.updateOrder p f).anonymous = b.anonymous.updateOrder p f := by
  simp only [anonymous, updateOrder, ObjectStore.map_write, hf, ObjectStore.read_map]

theorem anonymous_bookOrder : (b.bookOrder p).anonymous = b.anonymous.bookOrder p := by
  by_cases hside : (b.heap.read p).buySell = .buy
  · have hside' : (b.anonymous.heap.read p).buySell = .buy := hside
    simp only [bookOrder, if_pos hside, if_pos hside']
    rfl
  · have hside' : ¬ (b.anonymous.heap.read p).buySell = .buy := hside
    simp only [bookOrder, if_neg hside, if_neg hside']
    rfl

/-- The loops on the anonymous objects. -/
theorem anonymous_matchAgainst {r : Price → Price → Prop} [DecidableRel r]
    [IsStrictTotalOrder Price r] (side : BuySell) (s : MatchState r) :
    matchAgainst p side (s.mapObjects (ObjectStore.map Order.anonymous) id) =
      (matchAgainst p side s).mapObjects (ObjectStore.map Order.anonymous) id :=
  matchAgainst_mapObjects (P := fun _ => True) Order.unseen_anonymous (fun _ _ _ _ => trivial)
    (fun _ _ => ⟨rfl, rfl, fun _ _ => rfl, fun q _ o => ObjectStore.map_write _ _ q o,
      fun _ => rfl⟩) trivial

/-- Matching looks at no name: two books that differ in names only match alike. -/
theorem anonymous_matchContra :
    b.anonymous.matchContra p = ((b.matchContra p).1.anonymous, (b.matchContra p).2) := by
  simp only [matchContra, read_anonymous, Order.buySell_anonymous, Order.quantity_anonymous]
  cases (b.heap.read p).buySell with
  | default => rfl
  | buy =>
      have hloops := anonymous_matchAgainst p .buy
        (b.matchState b.asks (b.heap.read p).quantity)
      exact congrArg (fun t : MatchState (· < ·) => (({ b with
        heap := t.heap, asks := t.contraBook, orders := t.orders,
        priceToLeveldata := t.priceToLeveldata, trades := t.trades } : Orderbook), t.remaining))
        hloops
  | sell =>
      have hloops := anonymous_matchAgainst p .sell
        (b.matchState b.bids (b.heap.read p).quantity)
      exact congrArg (fun t : MatchState (· > ·) => (({ b with
        heap := t.heap, bids := t.contraBook, orders := t.orders,
        priceToLeveldata := t.priceToLeveldata, trades := t.trades } : Orderbook), t.remaining))
        hloops

theorem anonymous_settleOrder (originalQuantity remaining : Quantity) :
    (b.settleOrder p originalQuantity remaining).anonymous =
      b.anonymous.settleOrder p originalQuantity remaining := by
  rw [settleOrder_eq, settleOrder_eq, read_anonymous]
  have hupdate := b.anonymous_updateOrder p (f := (·.settled originalQuantity remaining))
    fun o => o.settled_anonymous originalQuantity remaining
  simp only [← hupdate, ← anonymous_bookOrder, Order.isAggressive_anonymous]
  split
  · rfl
  split
  · rfl
  split <;> rfl

theorem anonymous_addToBook : (b.addToBook p).anonymous = b.anonymous.addToBook p := by
  have hmatch := anonymous_matchContra { b with trades := [] } p
  simp only [addToBook]
  rw [show ({ b.anonymous with trades := [] } : Orderbook) =
    ({ b with trades := [] } : Orderbook).anonymous from rfl, hmatch]
  exact anonymous_settleOrder _ p _ _

theorem anonymous_detachOrder : (b.detachOrder p).anonymous = b.anonymous.detachOrder p := by
  have hremove : ∀ b : Orderbook,
      (b.removeOrderFromBook p).anonymous = b.anonymous.removeOrderFromBook p := by
    intro b
    by_cases hside : (b.heap.read p).buySell = .buy
    · have hside' : (b.anonymous.heap.read p).buySell = .buy := hside
      simp only [removeOrderFromBook, if_pos hside, if_pos hside']
      rfl
    · have hside' : ¬ (b.anonymous.heap.read p).buySell = .buy := hside
      simp only [removeOrderFromBook, if_neg hside, if_neg hside']
      rfl
  by_cases hquantity : 0 < (b.heap.read p).quantity
  · have hquantity' : 0 < (b.anonymous.heap.read p).quantity := hquantity
    simp only [detachOrder, if_pos hquantity, if_pos hquantity']
    exact hremove _
  · have hquantity' : ¬ 0 < (b.anonymous.heap.read p).quantity := hquantity
    simp only [detachOrder, if_neg hquantity, if_neg hquantity']
    exact hremove _

theorem anonymous_cancelOrder (i : OrderId) :
    (b.cancelOrder i).anonymous = b.anonymous.cancelOrder i := by
  simp only [cancelOrder]
  rw [show b.anonymous.orders = b.orders from rfl]
  cases b.orders.lookup i with
  | none => rfl
  | some p =>
      simp only [← anonymous_detachOrder]
      have hcancel := @anonymous_updateOrder (b.detachOrder p) p
        (fun o => (o.setQuantity 0).setOrderStatus .cancelled) fun _ => rfl
      rw [← hcancel]
      rfl

theorem anonymous_modifyOrder (i : OrderId) (newPrice : Price) (newQuantity : Quantity) :
    (b.modifyOrder i newPrice newQuantity).anonymous =
      b.anonymous.modifyOrder i newPrice newQuantity := by
  have htarget : b.anonymous.modifyTarget i newPrice newQuantity =
      b.modifyTarget i newPrice newQuantity := rfl
  simp only [modifyOrder, htarget]
  cases b.modifyTarget i newPrice newQuantity with
  | none => rfl
  | some p =>
      have hprepared : (b.prepareModify p newPrice newQuantity).anonymous =
          b.anonymous.prepareModify p newPrice newQuantity := by
        rw [prepareModify, prepareModify, ← anonymous_detachOrder]
        exact anonymous_updateOrder _ p fun _ => rfl
      simp only [← hprepared]
      exact anonymous_addToBook _ p

theorem anonymous_allocOrder (o : Order) :
    (b.allocOrder o).anonymous = b.anonymous.allocOrder o.anonymous := by
  simp only [allocOrder, anonymous, ObjectStore.map_alloc]

/-- **Every call** does the same on the anonymous book. -/
theorem anonymous_call (c : BookCall) : (b.call c).anonymous = b.anonymous.call c.anonymous := by
  cases c with
  | addOrder o =>
      have hadd := anonymous_addToBook (b.allocOrder o) b.heap.next
      rw [anonymous_allocOrder] at hadd
      exact hadd
  | cancelOrder i => exact b.anonymous_cancelOrder i
  | modifyOrder i newPrice newQuantity => exact b.anonymous_modifyOrder i newPrice newQuantity

/-- The best prices do not depend on owners and times. -/
theorem getBestBidAsk_anonymous : b.anonymous.getBestBidAsk = b.getBestBidAsk :=
  rfl

end Orderbook

/-! ### Messages without owners and times -/

/-- A header without its clock reading, which differs between two runs under different clocks. -/
def MessageHeader.untimed (header : MessageHeader) : MessageHeader :=
  { header with timestamp := 0 }

/-- A request without the client's own id and the time of sending. -/
def InboundBody.anonymous : InboundBody → InboundBody
  | .newOrder request =>
      .newOrder { request with header := request.header.untimed, clientOrderId := 0 }
  | .cancelOrder request =>
      .cancelOrder { request with header := request.header.untimed, clientOrderId := 0 }
  | .modifyOrder request =>
      .modifyOrder { request with header := request.header.untimed, clientOrderId := 0 }

/-- A response without the echo of the client's own id and the time of sending. -/
def OutboundBody.anonymous : OutboundBody → OutboundBody
  | .orderAck ack => .orderAck { ack with header := ack.header.untimed, clientOrderId := 0 }
  | .orderReject reject =>
      .orderReject { reject with header := reject.header.untimed, clientOrderId := 0 }
  | .execReport report => .execReport { report with header := report.header.untimed }
  | .cancelAck ack => .cancelAck { ack with header := ack.header.untimed, clientOrderId := 0 }
  | .cancelReject reject =>
      .cancelReject { reject with header := reject.header.untimed, clientOrderId := 0 }
  | .modifyAck ack => .modifyAck { ack with header := ack.header.untimed, clientOrderId := 0 }
  | .modifyReject reject =>
      .modifyReject { reject with header := reject.header.untimed, clientOrderId := 0 }

/-- A market data message without its clock reading; nothing else of it may differ. -/
def MarketDataMessage.untimed : MarketDataMessage → MarketDataMessage
  | .tick update => .tick { update with header := update.header.untimed }
  | .trade update => .trade { update with header := update.header.untimed }

/-- What a response says, and to which session under a renaming. -/
def OutboundMessage.renamed (ρ : SessionId → SessionId) (msg : OutboundMessage) :
    OutboundMessage :=
  ⟨ρ msg.sessionId, msg.body.anonymous⟩

/-! ### Engines that are alike -/

/-- **Two engines are alike** under a renaming of sessions: the books are the same without owners
and times, all counters and the last trade are the same, each order belongs to the session that
corresponds to its session, and what has been sent is the same, to sessions that correspond. -/
structure Alike (ρ : SessionId → SessionId) (e e' : MatchingEngine) : Prop where
  orderbook : e'.orderbook.anonymous = e.orderbook.anonymous
  symbol : e'.symbol = e.symbol
  nextOrderId : e'.nextOrderId = e.nextOrderId
  nextTradeId : e'.nextTradeId = e.nextTradeId
  lastTradePrice : e'.lastTradePrice = e.lastTradePrice
  lastTradeQty : e'.lastTradeQty = e.lastTradeQty
  ordersProcessed : e'.ordersProcessed = e.ordersProcessed
  tradesExecuted : e'.tradesExecuted = e.tradesExecuted
  owner : ∀ i, e'.orderToSession.lookup i = (e.orderToSession.lookup i).map ρ
  tracked : ∀ s, e'.sessionOrders.lookup (ρ s) = e.sessionOrders.lookup s
  outbound : e'.outboundQueue.map (OutboundMessage.renamed id) =
    e.outboundQueue.map (OutboundMessage.renamed ρ)
  feed : e'.feedQueue.map MarketDataMessage.untimed = e.feedQueue.map MarketDataMessage.untimed

namespace Alike

variable {ρ : SessionId → SessionId} {e e' : MatchingEngine}

theorem fresh (ρ : SessionId → SessionId) (symbol : List UInt8)
    (clock clock' : ℕ → Timestamp) : Alike ρ (.fresh symbol clock) (.fresh symbol clock') :=
  ⟨rfl, rfl, rfl, rfl, rfl, rfl, rfl, rfl, fun _ => rfl, fun _ => rfl, rfl, rfl⟩

/-! ### Sending -/

theorem pushOutbound (h : Alike ρ e e') (s : SessionId) {body body' : OutboundBody}
    (hbody : body'.anonymous = body.anonymous) :
    Alike ρ (e.pushOutbound s body) (e'.pushOutbound (ρ s) body') where
  __ := h
  outbound := by
    simp only [MatchingEngine.pushOutbound, List.map_append, h.outbound, List.map_singleton,
      OutboundMessage.renamed, hbody, id]

theorem pushFeed (h : Alike ρ e e') {msg msg' : MarketDataMessage}
    (hmsg : msg'.untimed = msg.untimed) : Alike ρ (e.pushFeed msg) (e'.pushFeed msg') where
  __ := h
  feed := by
    simp only [MatchingEngine.pushFeed, List.map_append, h.feed, List.map_singleton, hmsg]

theorem sendExecutionReport (h : Alike ρ e e') (s : SessionId) (i : OrderId) (execPrice : Price)
    (execQty leavesQty : Quantity) (side : BuySell) :
    Alike ρ (e.sendExecutionReport s i execPrice execQty leavesQty side)
      (e'.sendExecutionReport (ρ s) i execPrice execQty leavesQty side) := by
  have hcounted : Alike ρ { e with nextTradeId := e.nextTradeId + 1 }
      { e' with nextTradeId := e'.nextTradeId + 1 } :=
    { h with nextTradeId := by rw [h.nextTradeId] }
  refine hcounted.pushOutbound s ?_
  simp only [OutboundBody.anonymous, h.nextTradeId]
  rfl

theorem publishTradeUpdate (h : Alike ρ e e') (trade : Trade) (side : BuySell) :
    Alike ρ (e.publishTradeUpdate trade side) (e'.publishTradeUpdate trade side) := by
  refine h.pushFeed ?_
  simp only [MarketDataMessage.untimed, h.symbol, h.nextTradeId]
  rfl

theorem publishTickUpdate (h : Alike ρ e e') :
    Alike ρ e.publishTickUpdate e'.publishTickUpdate := by
  have hbest : e'.orderbook.getBestBidAsk = e.orderbook.getBestBidAsk := by
    rw [← Orderbook.getBestBidAsk_anonymous, h.orderbook, Orderbook.getBestBidAsk_anonymous]
  refine h.pushFeed ?_
  simp only [MarketDataMessage.untimed, h.symbol, h.lastTradePrice, h.lastTradeQty, hbest]
  rfl

/-! ### Books, tracking and ownership -/

/-- An order that both engines hold, without its owner and time. -/
theorem read (h : Alike ρ e e') (p : OrderPointer) :
    (e'.orderbook.heap.read p).anonymous = (e.orderbook.heap.read p).anonymous :=
  congrArg (fun b : Orderbook => b.heap.read p) h.orderbook

theorem trades (h : Alike ρ e e') : e'.orderbook.trades = e.orderbook.trades := by
  have hbooks := congrArg Orderbook.trades h.orderbook
  exact hbooks

theorem next (h : Alike ρ e e') : e'.orderbook.heap.next = e.orderbook.heap.next := by
  have hbooks := congrArg (fun b : Orderbook => b.heap.next) h.orderbook
  exact hbooks

/-- What the engine reads of an order when it acknowledges it. -/
theorem quantity_status (h : Alike ρ e e') (p : OrderPointer) :
    (e'.orderbook.heap.read p).quantity = (e.orderbook.heap.read p).quantity ∧
      (e'.orderbook.heap.read p).orderStatus = (e.orderbook.heap.read p).orderStatus := by
  have hquantity := congrArg Order.quantity (h.read p)
  have hstatus := congrArg Order.orderStatus (h.read p)
  exact ⟨hquantity, hstatus⟩

/-- Calls that differ by names into either book. -/
theorem call (h : Alike ρ e e') {c c' : BookCall} (hc : c'.anonymous = c.anonymous) :
    Alike ρ { e with orderbook := e.orderbook.call c }
      { e' with orderbook := e'.orderbook.call c' } where
  __ := h
  orderbook := by
    simp only [Orderbook.anonymous_call, h.orderbook, hc]

/-- The same call into either book. -/
theorem sameCall (h : Alike ρ e e') (c : BookCall) :
    Alike ρ { e with orderbook := e.orderbook.call c }
      { e' with orderbook := e'.orderbook.call c } :=
  h.call rfl

theorem trackOrder (hρ : Function.Injective ρ) (h : Alike ρ e e') (s : SessionId)
    {i i' : OrderId} (hi : i' = i) (clientOrderId clientOrderId' : ClientOrderId) :
    Alike ρ (e.trackOrder s i clientOrderId) (e'.trackOrder (ρ s) i' clientOrderId') where
  __ := h
  owner := by
    intro j
    simp only [MatchingEngine.trackOrder, UnorderedMap.lookup_insert_ite, hi]
    split
    · rfl
    · exact h.owner j
  tracked := by
    intro t
    simp only [MatchingEngine.trackOrder, UnorderedMap.lookup_insert_ite, hρ.eq_iff, h.tracked,
      hi]

theorem untrackOrder (hρ : Function.Injective ρ) (h : Alike ρ e e') (s : SessionId)
    (i : OrderId) : Alike ρ (e.untrackOrder s i) (e'.untrackOrder (ρ s) i) where
  __ := h
  owner := by
    intro j
    simp only [MatchingEngine.untrackOrder, UnorderedMap.lookup_erase_ite]
    split
    · rfl
    · exact h.owner j
  tracked := by
    intro t
    simp only [MatchingEngine.untrackOrder, UnorderedMap.lookup_insert_ite, hρ.eq_iff, h.tracked]

/-- **The ownership check** only looks at which sessions are the same, and at the dummy session. -/
theorem authorize (hρ : Function.Injective ρ) (hdummy : ρ DUMMY_SESSION_ID = DUMMY_SESSION_ID)
    (h : Alike ρ e e') (s : SessionId) (i : OrderId) :
    e'.authorize (ρ s) i = (e.authorize s i).map ρ := by
  have hsession : ρ s = DUMMY_SESSION_ID ↔ s = DUMMY_SESSION_ID := by
    constructor
    · intro heq
      exact hρ (heq.trans hdummy.symm)
    · rintro rfl
      exact hdummy
  simp only [MatchingEngine.authorize, h.owner i]
  cases e.orderToSession.lookup i with
  | none => rfl
  | some owner =>
      simp only [Option.map_some, ne_eq, hρ.eq_iff, hsession]
      split <;> rfl

/-! ### The handlers -/

theorem recordTrade (h : Alike ρ e e') (trade : Trade) :
    Alike ρ (e.recordTrade trade) (e'.recordTrade trade) where
  __ := h
  lastTradePrice := rfl
  lastTradeQty := rfl
  tradesExecuted := by
    simp only [MatchingEngine.recordTrade, h.tradesExecuted]

theorem newOrderTrade (h : Alike ρ e e') (s : SessionId) (order : OrderPointer) (i : OrderId)
    (side : BuySell) (trade : Trade) :
    Alike ρ (MatchingEngine.newOrderTrade s order i side e trade)
      (MatchingEngine.newOrderTrade (ρ s) order i side e' trade) := by
  have hpublished := (h.recordTrade trade).publishTradeUpdate trade side
  have hquantity := (hpublished.quantity_status order).1
  have hreported := hpublished.sendExecutionReport s i trade.price trade.quantity
    (((e.recordTrade trade).publishTradeUpdate trade side).orderbook.heap.read order).quantity side
  simp only [MatchingEngine.newOrderTrade, hquantity]
  generalize (if side = .buy then trade.sellOrderId else trade.buyOrderId) = passive
  rw [hreported.owner passive]
  split
  · rename_i hnone
    rw [hnone]
    exact hreported
  · rename_i owner hsome
    rw [hsome]
    exact hreported.sendExecutionReport owner passive _ _ _ _

theorem foldl_newOrderTrade (h : Alike ρ e e') (s : SessionId) (order : OrderPointer)
    (i : OrderId) (side : BuySell) (trades : List Trade) :
    Alike ρ (trades.foldl (MatchingEngine.newOrderTrade s order i side) e)
      (trades.foldl (MatchingEngine.newOrderTrade (ρ s) order i side) e') := by
  induction trades generalizing e e' with
  | nil => exact h
  | cons trade trades ih => exact ih (h.newOrderTrade s order i side trade)

theorem foldl_modifyOrderTrade (h : Alike ρ e e') (i : OrderId) (trades : List Trade) :
    Alike ρ (trades.foldl (MatchingEngine.modifyOrderTrade i) e)
      (trades.foldl (MatchingEngine.modifyOrderTrade i) e') := by
  induction trades generalizing e e' with
  | nil => exact h
  | cons trade trades ih => exact ih ((h.recordTrade trade).publishTradeUpdate trade _)

theorem countOrder (h : Alike ρ e e') : Alike ρ e.countOrder e'.countOrder where
  __ := h
  ordersProcessed := by
    simp only [MatchingEngine.countOrder, h.ordersProcessed]

section NewOrder

variable {request request' : NewOrderRequest} {side : BuySell} {orderType : OrderType}

/-- The order object of either engine is entered and tracked. -/
theorem enterOrder (hρ : Function.Injective ρ) (h : Alike ρ e e') (s : SessionId)
    (hprice : request'.price = request.price) (hquantity : request'.quantity = request.quantity) :
    Alike ρ (e.enterOrder s request side orderType)
      (e'.enterOrder (ρ s) request' side orderType) := by
  have hcall : (BookCall.addOrder (e'.newOrder (ρ s) request' side orderType)).anonymous =
      (BookCall.addOrder (e.newOrder s request side orderType)).anonymous := by
    simp only [BookCall.anonymous, MatchingEngine.newOrder, Order.anonymous, hprice, hquantity,
      h.nextOrderId]
  have hentered : Alike ρ
      { e with nextOrderId := e.nextOrderId + 1, clock := fun n => e.clock (n + 1) }
      { e' with nextOrderId := e'.nextOrderId + 1, clock := fun n => e'.clock (n + 1) } :=
    { h with nextOrderId := by rw [h.nextOrderId] }
  exact (hentered.call hcall).trackOrder hρ s h.nextOrderId request.clientOrderId
    request'.clientOrderId

/-- The acknowledgement of an order depends on its status, which has no name in it. -/
theorem finishNewOrder (hρ : Function.Injective ρ) (h : Alike ρ e e') (s : SessionId)
    (clientOrderId clientOrderId' : ClientOrderId) (order : OrderPointer) (i : OrderId) :
    Alike ρ (e.finishNewOrder s clientOrderId order i)
      (e'.finishNewOrder (ρ s) clientOrderId' order i) := by
  obtain ⟨hquantity, hstatus⟩ := h.quantity_status order
  have hfilled : (e'.orderbook.heap.read order).isFilled =
      (e.orderbook.heap.read order).isFilled := by
    rw [Order.isFilled, Order.isFilled, hquantity]
  have hacked : Alike ρ
      (e.sendOrderAck s clientOrderId i (e.orderbook.heap.read order).orderStatus)
      (e'.sendOrderAck (ρ s) clientOrderId' i (e'.orderbook.heap.read order).orderStatus) := by
    rw [hstatus]
    exact h.pushOutbound s rfl
  refine publishTickUpdate ?_
  by_cases hgone : (e.orderbook.heap.read order).isFilled = true ∨
      (e.orderbook.heap.read order).orderStatus = .cancelled
  · have hgone' : (e'.orderbook.heap.read order).isFilled = true ∨
        (e'.orderbook.heap.read order).orderStatus = .cancelled := by
      rwa [hfilled, hstatus]
    rw [if_pos hgone, if_pos hgone']
    exact hacked.untrackOrder hρ s i
  · have hgone' : ¬ ((e'.orderbook.heap.read order).isFilled = true ∨
        (e'.orderbook.heap.read order).orderStatus = .cancelled) := by
      rwa [hfilled, hstatus]
    rw [if_neg hgone, if_neg hgone']
    exact hacked

theorem acceptNewOrder (hρ : Function.Injective ρ) (h : Alike ρ e e') (s : SessionId)
    (hprice : request'.price = request.price) (hquantity : request'.quantity = request.quantity) :
    Alike ρ (e.acceptNewOrder s request side orderType)
      (e'.acceptNewOrder (ρ s) request' side orderType) := by
  have hentered : Alike ρ (e.enterOrder s request side orderType)
      (e'.enterOrder (ρ s) request' side orderType) := h.enterOrder hρ s hprice hquantity
  have hreported := hentered.foldl_newOrderTrade s e.orderbook.heap.next e.nextOrderId side
    (e.enterOrder s request side orderType).orderbook.trades
  have hfinished := hreported.finishNewOrder hρ s request.clientOrderId request'.clientOrderId
    e.orderbook.heap.next e.nextOrderId
  simp only [MatchingEngine.acceptNewOrder, h.next, h.nextOrderId, hentered.trades]
  exact hfinished

end NewOrder

/-- An acknowledged cancel. -/
theorem cancelTracked (hρ : Function.Injective ρ) (h : Alike ρ e e') (owner : SessionId)
    (i : OrderId) : Alike ρ (e.cancelTracked owner i) (e'.cancelTracked (ρ owner) i) :=
  (h.sameCall (.cancelOrder i)).untrackOrder hρ owner i

theorem acceptModifyOrder (h : Alike ρ e e') (s : SessionId)
    {request request' : ModifyOrderRequest} (horder : request'.orderId = request.orderId)
    (hprice : request'.newPrice = request.newPrice)
    (hquantity : request'.newQuantity = request.newQuantity) :
    Alike ρ (e.acceptModifyOrder s request) (e'.acceptModifyOrder (ρ s) request') := by
  have hmodified :=
    h.sameCall (.modifyOrder request.orderId request.newPrice request.newQuantity)
  have hreported := hmodified.foldl_modifyOrderTrade request.orderId
    (e.orderbook.call (.modifyOrder request.orderId request.newPrice request.newQuantity)).trades
  have htrades := hmodified.trades
  simp only [MatchingEngine.acceptModifyOrder, horder, hprice, hquantity]
  refine publishTickUpdate (pushOutbound ?_ s rfl)
  simp only [Orderbook.call] at htrades hreported
  rw [htrades]
  exact hreported

/-- The checks of a modify give the same result. -/
theorem checkModifyOrder (hρ : Function.Injective ρ)
    (hdummy : ρ DUMMY_SESSION_ID = DUMMY_SESSION_ID) (h : Alike ρ e e') (s : SessionId)
    {request request' : ModifyOrderRequest} (horder : request'.orderId = request.orderId)
    (hprice : request'.newPrice = request.newPrice)
    (hquantity : request'.newQuantity = request.newQuantity) :
    e'.checkModifyOrder (ρ s) request' = e.checkModifyOrder s request := by
  simp only [MatchingEngine.checkModifyOrder, horder, hprice, hquantity,
    h.authorize hρ hdummy s request.orderId]
  cases e.authorize s request.orderId <;> rfl

/-- **Every message** keeps two engines alike, if the two that are sent to them are the same
without owners and times and come from sessions that correspond. -/
theorem processInboundMessage (hρ : Function.Injective ρ)
    (hdummy : ρ DUMMY_SESSION_ID = DUMMY_SESSION_ID) (h : Alike ρ e e')
    {msg msg' : InboundMessage} (hsession : msg'.sessionId = ρ msg.sessionId)
    (hbody : msg'.body.anonymous = msg.body.anonymous) :
    Alike ρ (e.processInboundMessage msg) (e'.processInboundMessage msg') := by
  obtain ⟨s, body⟩ := msg
  obtain ⟨s', body'⟩ := msg'
  obtain rfl : s' = ρ s := hsession
  cases body with
  | newOrder request =>
      cases body' with
      | newOrder request' =>
          simp only [InboundBody.anonymous, InboundBody.newOrder.injEq,
            NewOrderRequest.mk.injEq] at hbody
          obtain ⟨-, -, hside, htype, hprice, hquantity⟩ := hbody
          have hcheck : MatchingEngine.checkNewOrder request' =
              MatchingEngine.checkNewOrder request := by
            simp only [MatchingEngine.checkNewOrder, hside, htype, hprice, hquantity]
          simp only [MatchingEngine.processInboundMessage, MatchingEngine.handleNewOrder, hcheck]
          cases MatchingEngine.checkNewOrder request with
          | error reason => exact h.countOrder.pushOutbound s rfl
          | ok p => exact h.countOrder.acceptNewOrder hρ s hprice hquantity
      | cancelOrder request' => cases hbody
      | modifyOrder request' => cases hbody
  | cancelOrder request =>
      cases body' with
      | newOrder request' => cases hbody
      | cancelOrder request' =>
          simp only [InboundBody.anonymous, InboundBody.cancelOrder.injEq,
            CancelOrderRequest.mk.injEq] at hbody
          obtain ⟨-, -, horder⟩ := hbody
          simp only [MatchingEngine.processInboundMessage, MatchingEngine.handleCancelOrder, horder,
            h.authorize hρ hdummy s request.orderId]
          cases e.authorize s request.orderId with
          | none => exact h.pushOutbound s rfl
          | some owner =>
              have hcancelled := h.cancelTracked hρ owner request.orderId
              refine (hcancelled.pushOutbound s ?_).publishTickUpdate
              rfl
      | modifyOrder request' => cases hbody
  | modifyOrder request =>
      cases body' with
      | newOrder request' => cases hbody
      | cancelOrder request' => cases hbody
      | modifyOrder request' =>
          simp only [InboundBody.anonymous, InboundBody.modifyOrder.injEq,
            ModifyOrderRequest.mk.injEq] at hbody
          obtain ⟨-, -, horder, hprice, hquantity⟩ := hbody
          simp only [MatchingEngine.processInboundMessage, MatchingEngine.handleModifyOrder,
            h.checkModifyOrder hρ hdummy s horder hprice hquantity]
          cases e.checkModifyOrder s request with
          | some reason =>
              simp only [horder]
              exact h.pushOutbound s rfl
          | none => exact h.acceptModifyOrder s horder hprice hquantity

theorem cancelForSession (h : Alike ρ e e') (i : OrderId) :
    Alike ρ (e.cancelForSession i) (e'.cancelForSession i) where
  __ := h.sameCall (.cancelOrder i)
  owner := by
    intro j
    simp only [MatchingEngine.cancelForSession, UnorderedMap.lookup_erase_ite]
    split
    · rfl
    · exact h.owner j

/-- **A bulk cancel** keeps two engines alike. -/
theorem cancelSessionOrders (hρ : Function.Injective ρ) (h : Alike ρ e e') (s : SessionId)
    (orderIds : List OrderId) :
    Alike ρ (e.cancelSessionOrders s orderIds) (e'.cancelSessionOrders (ρ s) orderIds) := by
  have hfold : Alike ρ (orderIds.foldl MatchingEngine.cancelForSession e)
      (orderIds.foldl MatchingEngine.cancelForSession e') := by
    clear s
    induction orderIds generalizing e e' with
    | nil => exact h
    | cons i orderIds ih => exact ih (h.cancelForSession i)
  have herased : Alike ρ
      { orderIds.foldl MatchingEngine.cancelForSession e with
        sessionOrders := (orderIds.foldl MatchingEngine.cancelForSession e).sessionOrders.erase s }
      { orderIds.foldl MatchingEngine.cancelForSession e' with
        sessionOrders :=
          (orderIds.foldl MatchingEngine.cancelForSession e').sessionOrders.erase (ρ s) } :=
    { hfold with
      tracked := by
        intro t
        simp only [UnorderedMap.lookup_erase_ite, hρ.eq_iff, hfold.tracked] }
  simp only [MatchingEngine.cancelSessionOrders]
  split
  · exact herased
  · exact herased.publishTickUpdate

end Alike

/-! ### Runs -/

/-- Two inputs are alike under a renaming of sessions. -/
inductive Input.Alike (ρ : SessionId → SessionId) : Input → Input → Prop
  | message {msg msg' : InboundMessage} (hsession : msg'.sessionId = ρ msg.sessionId)
      (hbody : msg'.body.anonymous = msg.body.anonymous) :
      Input.Alike ρ (.message msg) (.message msg')
  | cancelSession (s : SessionId) (orderIds : List OrderId) :
      Input.Alike ρ (.cancelSession s orderIds) (.cancelSession (ρ s) orderIds)

/-- The engines after two histories of inputs that are alike. -/
theorem alike_run {ρ : SessionId → SessionId} (hρ : Function.Injective ρ)
    (hdummy : ρ DUMMY_SESSION_ID = DUMMY_SESSION_ID) (symbol : List UInt8)
    (clock clock' : ℕ → Timestamp) {past past' : List Input}
    (hpast : List.Forall₂ (Input.Alike ρ) past past') :
    Alike ρ (run symbol clock past) (run symbol clock' past') := by
  induction hpast with
  | nil => exact Alike.fresh ρ symbol clock clock'
  | cons hinput _ ih =>
      cases hinput with
      | message hsession hbody => exact ih.processInboundMessage hρ hdummy hsession hbody
      | cancelSession s orderIds => exact ih.cancelSessionOrders hρ s orderIds

/-- **Matching is anonymous and does not depend on the clock**: after every step of two runs on
inputs that are alike, the engines are alike. -/
theorem matching_anonymous {ρ : SessionId → SessionId} (hρ : Function.Injective ρ)
    (hdummy : ρ DUMMY_SESSION_ID = DUMMY_SESSION_ID) (symbol : List UInt8)
    (clock clock' : ℕ → Timestamp) {past past' : List Input}
    (hpast : List.Forall₂ (Input.Alike ρ) past past') (n : ℕ) :
    Alike ρ (run symbol clock (past.drop n)) (run symbol clock' (past'.drop n)) :=
  alike_run hρ hdummy symbol clock clock' (List.forall₂_drop n hpast)

/-- A SELL order of session 1, a BUY order of session 2 that it trades with, and a cancel by
session 1 of what is left of the other's order. -/
def contestedRun : List Input :=
  [.message (cancelOrderMessage 1 2), .message (limitOrderMessage 2 .buy 100 8),
    .message (limitOrderMessage 1 .sell 100 5)]

/-- The same with the two sessions exchanged, the client's own id for the BUY order being 9. -/
def contestedSwappedRun : List Input :=
  [.message (cancelOrderMessage 2 2),
    .message
      { sessionId := 1
        body := .newOrder
          { header := ⟨.newOrderRequest, MessageType.newOrderRequest.size, 3⟩
            clientOrderId := 9, side := 1, orderType := 1, price := 100, quantity := 8 } },
    .message (limitOrderMessage 2 .sell 100 5)]

theorem matching_anonymous_contestedRun :
    (run [] (fun _ => 0) contestedRun).outboundQueue.map OutboundMessage.sessionId =
      [1, 2, 1, 2, 1] ∧
    (run [] (fun _ => 5) contestedSwappedRun).outboundQueue.map OutboundMessage.sessionId =
      [2, 1, 2, 1, 2] ∧
    Alike (Equiv.swap 1 2) (run [] (fun _ => 0) (contestedRun.drop 0))
      (run [] (fun _ => 5) (contestedSwappedRun.drop 0)) := by
  refine ⟨by decide, by decide, matching_anonymous (Equiv.swap 1 2).injective (by decide) []
    (fun _ => 0) (fun _ => 5) ?_ 0⟩
  exact .cons (.message (by decide) rfl)
    (.cons (.message (by decide) rfl) (.cons (.message (by decide) rfl) .nil))

end ExchangeEngine
