import ExchangeEngine.BookCalls
import ExchangeEngine.MatchingEngine

/-!
# What a Message Does to the Engine

Every handler validates, makes at most one call into the order book, keeps the tracking maps,
and sends. This module separates the four.

* `MatchingEngine.core` is what sending leaves alone, and the `core_` lemmas say what each
  handler does to it.
* `bookCall?` is the call that a message makes; `orderbook_processInboundMessage` says that
  the book changes by that call and by nothing else.
* `isAccepted` tells the requests for new orders that pass the checks, each of which takes an
  order id.
-/

open PriceTime

namespace ExchangeEngine

/-- The part of the engine that sending leaves alone. -/
structure EngineCore where
  orderbook : Orderbook
  symbol : List UInt8
  nextOrderId : OrderId
  sessionOrders : UnorderedMap SessionId (Finset OrderId)
  orderToSession : UnorderedMap OrderId SessionId
  orderToClientOrderId : UnorderedMap OrderId ClientOrderId
  ordersProcessed : UInt64

namespace MatchingEngine

/-- What is left of the engine without all that sending and trading change next to the book: the
queues, the clock, the last trade, and the two counters of trades. -/
def core (e : MatchingEngine) : EngineCore where
  orderbook := e.orderbook
  symbol := e.symbol
  nextOrderId := e.nextOrderId
  sessionOrders := e.sessionOrders
  orderToSession := e.orderToSession
  orderToClientOrderId := e.orderToClientOrderId
  ordersProcessed := e.ordersProcessed

theorem orderbook_core (e : MatchingEngine) : e.core.orderbook = e.orderbook :=
  rfl

theorem nextOrderId_core (e : MatchingEngine) : e.core.nextOrderId = e.nextOrderId :=
  rfl

theorem orderToSession_core (e : MatchingEngine) : e.core.orderToSession = e.orderToSession :=
  rfl

/-- The tracking maps are part of the core. -/
theorem maps_of_core {e e' : MatchingEngine} (h : e'.core = e.core) :
    e'.orderToSession = e.orderToSession ∧
      e'.orderToClientOrderId = e.orderToClientOrderId ∧ e'.sessionOrders = e.sessionOrders :=
  ⟨congrArg EngineCore.orderToSession h, congrArg EngineCore.orderToClientOrderId h,
    congrArg EngineCore.sessionOrders h⟩

theorem core_pushOutbound (e : MatchingEngine) (sessionId : SessionId) (body : OutboundBody) :
    (e.pushOutbound sessionId body).core = e.core :=
  rfl

theorem core_pushFeed (e : MatchingEngine) (msg : MarketDataMessage) :
    (e.pushFeed msg).core = e.core :=
  rfl

/-- Untracking acts on the core. -/
theorem core_untrackOrder {e e' : MatchingEngine} (h : e.core = e'.core)
    (sessionId : SessionId) (orderId : OrderId) :
    (e.untrackOrder sessionId orderId).core = (e'.untrackOrder sessionId orderId).core := by
  simp only [core, EngineCore.mk.injEq] at h
  obtain ⟨hbook, hsymbol, hnext, horders, hsession, hclient, hprocessed⟩ := h
  simp only [core, untrackOrder, hbook, hsymbol, hnext, horders, hsession, hclient, hprocessed]

/-! ### The trade loops -/

section Loops

variable (sessionId : SessionId) (order : OrderPointer) (orderId : OrderId) (side : BuySell)
  (e : MatchingEngine)

theorem core_newOrderTrade (trade : Trade) :
    (newOrderTrade sessionId order orderId side e trade).core = e.core := by
  simp only [newOrderTrade]
  split <;> rfl

theorem core_foldl_newOrderTrade (trades : List Trade) :
    (trades.foldl (newOrderTrade sessionId order orderId side) e).core = e.core := by
  induction trades generalizing e with
  | nil => rfl
  | cons trade trades ih =>
      rw [List.foldl_cons, ih, core_newOrderTrade]

theorem core_foldl_modifyOrderTrade (trades : List Trade) :
    (trades.foldl (modifyOrderTrade orderId) e).core = e.core := by
  induction trades generalizing e with
  | nil => rfl
  | cons trade trades ih =>
      rw [List.foldl_cons, ih]
      rfl

end Loops

/-! ### The handlers -/

/-- Whether a request is for a new order and passes the checks. -/
def isAccepted (msg : InboundMessage) : Bool :=
  match msg.body with
  | .newOrder request =>
      match checkNewOrder request with
      | .error _ => false
      | .ok _ => true
  | _ => false

/-- The call into the order book that a message makes, if it makes one. -/
def bookCall? (e : MatchingEngine) (msg : InboundMessage) : Option BookCall :=
  match msg.body with
  | .newOrder request =>
      match checkNewOrder request with
      | .error _ => none
      | .ok (side, orderType) =>
          some (.addOrder (e.newOrder msg.sessionId request side orderType))
  | .cancelOrder request =>
      match e.authorize msg.sessionId request.orderId with
      | none => none
      | some _ => some (.cancelOrder request.orderId)
  | .modifyOrder request =>
      match e.checkModifyOrder msg.sessionId request with
      | some _ => none
      | none => some (.modifyOrder request.orderId request.newPrice request.newQuantity)

/-- The trades that a message executes in the book. -/
def stepTrades (e : MatchingEngine) (msg : InboundMessage) : List Trade :=
  match e.bookCall? msg with
  | none => []
  | some c => e.orderbook.callTrades c

/-- The moments of execution of these trades. -/
def stepMoments (e : MatchingEngine) (msg : InboundMessage) : List Moment :=
  match e.bookCall? msg with
  | none => []
  | some c => e.orderbook.callMoments c

section NewOrder

variable (e : MatchingEngine) (sessionId : SessionId) (request : NewOrderRequest)
  (side : BuySell) (orderType : OrderType)

theorem orderbook_enterOrder :
    (e.enterOrder sessionId request side orderType).orderbook =
      e.orderbook.call (.addOrder (e.newOrder sessionId request side orderType)) :=
  rfl

/-- The core after an accepted request for a new order: that of `enterOrder`, without the
tracking of an order that does not rest. -/
theorem core_acceptNewOrder :
    (e.acceptNewOrder sessionId request side orderType).core =
      let e' := e.enterOrder sessionId request side orderType
      let o := e'.orderbook.heap.read e.orderbook.heap.next
      if o.isFilled ∨ o.orderStatus = .cancelled then
        (e'.untrackOrder sessionId e.nextOrderId).core
      else e'.core := by
  have hcore := core_foldl_newOrderTrade sessionId e.orderbook.heap.next e.nextOrderId side
    (e.enterOrder sessionId request side orderType)
    (e.enterOrder sessionId request side orderType).orderbook.trades
  have hbook := congrArg EngineCore.orderbook hcore
  rw [orderbook_core, orderbook_core] at hbook
  simp only [acceptNewOrder, finishNewOrder, publishTickUpdate, core_pushFeed, hbook]
  split
  · refine core_untrackOrder ?_ sessionId e.nextOrderId
    rw [sendOrderAck, core_pushOutbound, hcore]
  · rw [sendOrderAck, core_pushOutbound, hcore]

theorem orderbook_acceptNewOrder :
    (e.acceptNewOrder sessionId request side orderType).orderbook =
      e.orderbook.call (.addOrder (e.newOrder sessionId request side orderType)) := by
  rw [← orderbook_enterOrder, ← orderbook_core, core_acceptNewOrder]
  simp only
  split <;> rfl

theorem nextOrderId_acceptNewOrder :
    (e.acceptNewOrder sessionId request side orderType).nextOrderId = e.nextOrderId + 1 := by
  rw [← nextOrderId_core, core_acceptNewOrder]
  simp only
  split <;> rfl

end NewOrder

theorem core_acceptModifyOrder (e : MatchingEngine) (sessionId : SessionId)
    (request : ModifyOrderRequest) :
    (e.acceptModifyOrder sessionId request).core =
      { e.core with
        orderbook := e.orderbook.call
          (.modifyOrder request.orderId request.newPrice request.newQuantity) } :=
  core_foldl_modifyOrderTrade request.orderId _ _

/-- The engine after counting a request for a new order. -/
def countOrder (e : MatchingEngine) : MatchingEngine :=
  { e with ordersProcessed := e.ordersProcessed + 1 }

/-- The engine after the calls that an acknowledged cancel makes, before it sends. -/
def cancelTracked (e : MatchingEngine) (owner : SessionId) (orderId : OrderId) :
    MatchingEngine :=
  { e with orderbook := e.orderbook.cancelOrder orderId }.untrackOrder owner orderId

/-- **The six ways of handling a message**: each request is rejected by the checks or carried
out. -/
inductive Handled (e : MatchingEngine) (msg : InboundMessage) : Prop
  | newRejected (request : NewOrderRequest) (reason : RejectReason)
      (body : msg.body = .newOrder request) (check : checkNewOrder request = .error reason)
      (call : e.bookCall? msg = none) (accepted : isAccepted msg = false)
      (result : e.processInboundMessage msg =
        e.countOrder.sendOrderReject msg.sessionId request.clientOrderId reason)
  | newAccepted (request : NewOrderRequest) (side : BuySell) (orderType : OrderType)
      (body : msg.body = .newOrder request)
      (check : checkNewOrder request = .ok (side, orderType))
      (call : e.bookCall? msg =
        some (.addOrder (e.newOrder msg.sessionId request side orderType)))
      (accepted : isAccepted msg = true)
      (result : e.processInboundMessage msg =
        e.countOrder.acceptNewOrder msg.sessionId request side orderType)
  | cancelRejected (request : CancelOrderRequest) (body : msg.body = .cancelOrder request)
      (auth : e.authorize msg.sessionId request.orderId = none)
      (call : e.bookCall? msg = none) (accepted : isAccepted msg = false)
      (result : e.processInboundMessage msg =
        e.sendCancelReject msg.sessionId request.clientOrderId request.orderId .orderNotFound)
  | cancelled (request : CancelOrderRequest) (owner : SessionId)
      (body : msg.body = .cancelOrder request)
      (auth : e.authorize msg.sessionId request.orderId = some owner)
      (call : e.bookCall? msg = some (.cancelOrder request.orderId))
      (accepted : isAccepted msg = false)
      (result : e.processInboundMessage msg =
        ((e.cancelTracked owner request.orderId).sendCancelAck msg.sessionId
          request.clientOrderId request.orderId).publishTickUpdate)
  | modifyRejected (request : ModifyOrderRequest) (reason : RejectReason)
      (body : msg.body = .modifyOrder request)
      (check : e.checkModifyOrder msg.sessionId request = some reason)
      (call : e.bookCall? msg = none) (accepted : isAccepted msg = false)
      (result : e.processInboundMessage msg =
        e.sendModifyReject msg.sessionId request.clientOrderId request.orderId reason)
  | modified (request : ModifyOrderRequest) (body : msg.body = .modifyOrder request)
      (check : e.checkModifyOrder msg.sessionId request = none)
      (call : e.bookCall? msg =
        some (.modifyOrder request.orderId request.newPrice request.newQuantity))
      (accepted : isAccepted msg = false)
      (result : e.processInboundMessage msg = e.acceptModifyOrder msg.sessionId request)

/-- **Every message is handled in one of six ways**: each of the three requests is refused or
carried out. -/
theorem handled (e : MatchingEngine) (msg : InboundMessage) : Handled e msg := by
  obtain ⟨sessionId, body⟩ := msg
  cases body with
  | newOrder request =>
      cases hcheck : checkNewOrder request with
      | error reason =>
          refine .newRejected request reason rfl hcheck ?_ ?_ ?_
          · simp only [bookCall?, hcheck]
          · simp only [isAccepted, hcheck]
          · simp only [processInboundMessage, handleNewOrder, hcheck]
            rfl
      | ok p =>
          obtain ⟨side, orderType⟩ := p
          refine .newAccepted request side orderType rfl hcheck ?_ ?_ ?_
          · simp only [bookCall?, hcheck]
          · simp only [isAccepted, hcheck]
          · simp only [processInboundMessage, handleNewOrder, hcheck]
            rfl
  | cancelOrder request =>
      cases hauth : e.authorize sessionId request.orderId with
      | none =>
          refine .cancelRejected request rfl hauth ?_ rfl ?_
          · simp only [bookCall?, hauth]
          · simp only [processInboundMessage, handleCancelOrder, hauth]
      | some owner =>
          refine .cancelled request owner rfl hauth ?_ rfl ?_
          · simp only [bookCall?, hauth]
          · simp only [processInboundMessage, handleCancelOrder, hauth]
            rfl
  | modifyOrder request =>
      cases hcheck : e.checkModifyOrder sessionId request with
      | some reason =>
          refine .modifyRejected request reason rfl hcheck ?_ rfl ?_
          · simp only [bookCall?, hcheck]
          · simp only [processInboundMessage, handleModifyOrder, hcheck]
      | none =>
          refine .modified request rfl hcheck ?_ rfl ?_
          · simp only [bookCall?, hcheck]
          · simp only [processInboundMessage, handleModifyOrder, hcheck]

/-- **The book changes by the call that the message makes.** -/
theorem orderbook_processInboundMessage (e : MatchingEngine) (msg : InboundMessage) :
    (e.processInboundMessage msg).orderbook =
      match e.bookCall? msg with
      | none => e.orderbook
      | some c => e.orderbook.call c := by
  cases e.handled msg with
  | newRejected request reason _ _ call _ result => rw [result, call]; rfl
  | newAccepted request side orderType _ _ call _ result =>
      rw [result, call, orderbook_acceptNewOrder]
      rfl
  | cancelRejected request _ _ call _ result => rw [result, call]; rfl
  | cancelled request owner _ _ call _ result => rw [result, call]; rfl
  | modifyRejected request reason _ _ call _ result => rw [result, call]; rfl
  | modified request _ _ call _ result =>
      rw [result, call]
      exact congrArg EngineCore.orderbook (e.core_acceptModifyOrder msg.sessionId request)

theorem orderbook_of_call {e : MatchingEngine} {msg : InboundMessage} {c : BookCall}
    (hcall : e.bookCall? msg = some c) :
    (e.processInboundMessage msg).orderbook = e.orderbook.call c := by
  rw [orderbook_processInboundMessage, hcall]

theorem orderbook_of_no_call {e : MatchingEngine} {msg : InboundMessage}
    (hcall : e.bookCall? msg = none) :
    (e.processInboundMessage msg).orderbook = e.orderbook := by
  rw [orderbook_processInboundMessage, hcall]

/-- An accepted request for a new order takes one order id. -/
theorem nextOrderId_processInboundMessage (e : MatchingEngine) (msg : InboundMessage) :
    (e.processInboundMessage msg).nextOrderId =
      if isAccepted msg then e.nextOrderId + 1 else e.nextOrderId := by
  cases e.handled msg with
  | newRejected request reason _ _ _ accepted result => rw [result, accepted]; rfl
  | newAccepted request side orderType _ _ _ accepted result =>
      rw [result, accepted, nextOrderId_acceptNewOrder]
      rfl
  | cancelRejected request _ _ _ accepted result => rw [result, accepted]; rfl
  | cancelled request owner _ _ _ accepted result => rw [result, accepted]; rfl
  | modifyRejected request reason _ _ _ accepted result => rw [result, accepted]; rfl
  | modified request _ _ _ accepted result =>
      rw [result, accepted]
      exact congrArg EngineCore.nextOrderId (e.core_acceptModifyOrder msg.sessionId request)

/-- A bulk cancel changes the book by its cancels and takes no order id. -/
theorem cancelSessionOrders_spec (e : MatchingEngine) (sessionId : SessionId)
    (orderIds : List OrderId) :
    (e.cancelSessionOrders sessionId orderIds).orderbook =
        orderIds.foldl Orderbook.cancelOrder e.orderbook ∧
      (e.cancelSessionOrders sessionId orderIds).nextOrderId = e.nextOrderId := by
  have hfold : ∀ (ids : List OrderId) (e : MatchingEngine),
      (ids.foldl cancelForSession e).orderbook = ids.foldl Orderbook.cancelOrder e.orderbook ∧
        (ids.foldl cancelForSession e).nextOrderId = e.nextOrderId := by
    intro ids
    induction ids with
    | nil => exact fun e => ⟨rfl, rfl⟩
    | cons i ids ih => exact fun e => ih (e.cancelForSession i)
  simp only [cancelSessionOrders]
  split <;> exact hfold orderIds e

/-! ### The checks -/

/-- What the checks of a new order let through. -/
theorem checkNewOrder_eq_ok {request : NewOrderRequest} {side : BuySell}
    {orderType : OrderType} (h : checkNewOrder request = .ok (side, orderType)) :
    BuySell.ofUInt8 request.side = some side ∧ (∃ s, side = buySellOf s) ∧
      (orderType = .limit ∨ orderType = .market ∨ orderType = .ioc) ∧
      request.quantity ≠ 0 ∧ (orderType = .limit → 0 < request.price) := by
  simp only [checkNewOrder] at h
  split at h
  · cases h
  · cases h
  rename_i side' hdefault hside
  split at h
  · cases h
  · cases h
  · cases h
  rename_i orderType' hnotDefault hnotStop htype
  split at h
  · cases h
  rename_i hqty
  split at h
  · cases h
  rename_i hprice
  obtain ⟨rfl, rfl⟩ := Prod.mk.inj (Except.ok.inj h)
  refine ⟨hside, ?_, ?_, hqty, fun hlimit => ?_⟩
  · cases side' with
    | default => exact absurd rfl hdefault
    | buy => exact ⟨.bid, rfl⟩
    | sell => exact ⟨.ask, rfl⟩
  · cases orderType' with
    | default => exact absurd rfl hnotDefault
    | stoploss => exact absurd rfl hnotStop
    | limit => exact Or.inl rfl
    | market => exact Or.inr (Or.inl rfl)
    | ioc => exact Or.inr (Or.inr rfl)
  · exact Int32.not_le.mp fun hle => hprice ⟨hlimit, hle⟩

theorem checkModifyOrder_eq_none {e : MatchingEngine} {sessionId : SessionId}
    {request : ModifyOrderRequest} (h : e.checkModifyOrder sessionId request = none) :
    (∃ owner, e.authorize sessionId request.orderId = some owner) ∧
      0 < request.newPrice ∧ request.newQuantity ≠ 0 := by
  simp only [checkModifyOrder] at h
  cases hauth : e.authorize sessionId request.orderId with
  | none => simp [hauth] at h
  | some owner =>
      simp only [hauth] at h
      split at h
      · cases h
      · rename_i hprice
        split at h
        · cases h
        · rename_i hqty
          exact ⟨⟨owner, rfl⟩, Int32.not_le.mp hprice, hqty⟩

/-- A message that adds an order is an accepted request, and the order is the one that the
request creates. -/
theorem bookCall_addOrder {e : MatchingEngine} {msg : InboundMessage} {o : Order}
    (hcall : e.bookCall? msg = some (.addOrder o)) :
    isAccepted msg = true ∧ ∃ request side orderType, msg.body = .newOrder request ∧
      checkNewOrder request = .ok (side, orderType) ∧
      o = e.newOrder msg.sessionId request side orderType := by
  cases e.handled msg with
  | newRejected request reason _ _ call => rw [call] at hcall; cases hcall
  | cancelRejected request _ _ call => rw [call] at hcall; cases hcall
  | modifyRejected request reason _ _ call => rw [call] at hcall; cases hcall
  | cancelled request owner _ _ call => rw [call] at hcall; cases hcall
  | modified request _ _ call => rw [call] at hcall; cases hcall
  | newAccepted request side orderType body check call accepted =>
      rw [call] at hcall
      obtain rfl := BookCall.addOrder.inj (Option.some.inj hcall)
      exact ⟨accepted, request, side, orderType, body, check, rfl⟩

/-- **The checks allow the call**, given that the next order id is not that of a resting
order. -/
theorem allows_bookCall {e : MatchingEngine} {msg : InboundMessage} {c : BookCall}
    (hnew : isAccepted msg = true → e.nextOrderId ∉ e.orderbook.view.ids)
    (hcall : e.bookCall? msg = some c) : e.orderbook.Allows c := by
  cases e.handled msg with
  | newRejected request reason _ _ call => rw [call] at hcall; cases hcall
  | cancelRejected request _ _ call => rw [call] at hcall; cases hcall
  | modifyRejected request reason _ _ call => rw [call] at hcall; cases hcall
  | cancelled request owner _ _ call =>
      rw [call] at hcall
      obtain rfl := Option.some.inj hcall
      trivial
  | modified request _ check call =>
      rw [call] at hcall
      obtain rfl := Option.some.inj hcall
      exact (checkModifyOrder_eq_none check).2
  | newAccepted request side orderType _ check call accepted =>
      rw [call] at hcall
      obtain rfl := Option.some.inj hcall
      obtain ⟨-, hside, htype, hqty, hprice⟩ := checkNewOrder_eq_ok check
      refine ⟨hside, hqty, fun haggr => ?_, hnew accepted⟩
      rcases htype with rfl | rfl | rfl
      · exact ⟨rfl, hprice rfl⟩
      · cases haggr
      · cases haggr

end MatchingEngine

end ExchangeEngine
