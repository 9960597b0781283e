import ExchangeEngine.Responses

/-!
# Answers and Rejects

Every request gets exactly one terminal response. It goes to the session that sent the request,
is of the kind that the request asks for, and echoes the ids of the request. When it is a reject,
it is all that the engine sends, and the engine keeps everything but its count of the requests for
new orders.

## Main results

* `checkNewOrder_eq_error_iff` — the requests for new orders that the checks turn down;
* `MatchingEngine.answers_request` — the answer to every message, and what a reject leaves alone.
-/

namespace ExchangeEngine

/-- **A terminal response to a request**: an acknowledgement or a reject of the request's kind,
with the request's ids. An order that has just been entered has no id in the request yet. -/
def OutboundBody.Answers : InboundBody → OutboundBody → Prop
  | .newOrder request, .orderAck ack => ack.clientOrderId = request.clientOrderId
  | .newOrder request, .orderReject reject => reject.clientOrderId = request.clientOrderId
  | .cancelOrder request, .cancelAck ack =>
      ack.clientOrderId = request.clientOrderId ∧ ack.orderId = request.orderId
  | .cancelOrder request, .cancelReject reject =>
      reject.clientOrderId = request.clientOrderId ∧ reject.orderId = request.orderId
  | .modifyOrder request, .modifyAck ack =>
      ack.clientOrderId = request.clientOrderId ∧ ack.orderId = request.orderId
  | .modifyOrder request, .modifyReject reject =>
      reject.clientOrderId = request.clientOrderId ∧ reject.orderId = request.orderId
  | _, _ => False

/-- Whether a response turns a request down. -/
def OutboundBody.isReject : OutboundBody → Bool
  | .orderReject _ | .cancelReject _ | .modifyReject _ => true
  | _ => false

/-- The requests for new orders that cannot be entered, by their wire bytes: the sides are BUY = 1
and SELL = 2, the order types LIMIT = 1, IOC = 2 and MARKET = 3. -/
def NewOrderRequest.Invalid (request : NewOrderRequest) : Prop :=
  (request.side ≠ 1 ∧ request.side ≠ 2) ∨
    (request.orderType ≠ 1 ∧ request.orderType ≠ 3 ∧ request.orderType ≠ 2) ∨
    request.quantity = 0 ∨ (request.orderType = 1 ∧ request.price ≤ 0)

instance (request : NewOrderRequest) : Decidable request.Invalid := by
  unfold NewOrderRequest.Invalid
  infer_instance

/-! ### The checks -/

/-- The bytes that name a side. -/
theorem BuySell.ofUInt8_cases (b : UInt8) :
    (b = 1 ∧ ofUInt8 b = some .buy) ∨ (b = 2 ∧ ofUInt8 b = some .sell) ∨
      (b ≠ 1 ∧ b ≠ 2 ∧ (ofUInt8 b = none ∨ ofUInt8 b = some .default)) := by
  by_cases h₁ : b = 1
  · exact Or.inl ⟨h₁, by rw [h₁]; rfl⟩
  by_cases h₂ : b = 2
  · exact Or.inr (Or.inl ⟨h₂, by rw [h₂]; rfl⟩)
  refine Or.inr (Or.inr ⟨h₁, h₂, ?_⟩)
  by_cases h₀ : b = 0 <;> simp [ofUInt8, h₀, h₁, h₂]

/-- The bytes that name an order type the engine takes. -/
theorem OrderType.ofUInt8_cases (b : UInt8) :
    (b = 1 ∧ ofUInt8 b = some .limit) ∨ (b = 2 ∧ ofUInt8 b = some .ioc) ∨
      (b = 3 ∧ ofUInt8 b = some .market) ∨
      (b ≠ 1 ∧ b ≠ 2 ∧ b ≠ 3 ∧
        (ofUInt8 b = none ∨ ofUInt8 b = some .default ∨ ofUInt8 b = some .stoploss)) := by
  by_cases h₁ : b = 1
  · exact Or.inl ⟨h₁, by rw [h₁]; rfl⟩
  by_cases h₂ : b = 2
  · exact Or.inr (Or.inl ⟨h₂, by rw [h₂]; rfl⟩)
  by_cases h₃ : b = 3
  · exact Or.inr (Or.inr (Or.inl ⟨h₃, by rw [h₃]; rfl⟩))
  refine Or.inr (Or.inr (Or.inr ⟨h₁, h₂, h₃, ?_⟩))
  by_cases h₀ : b = 0 <;> by_cases h₄ : b = 4 <;> simp [ofUInt8, h₀, h₁, h₂, h₃, h₄]

namespace MatchingEngine

/-- Two checks in a row turn down what one of them does. -/
theorem exists_error_iff {α β : Type*} (c d : Prop) [Decidable c] [Decidable d] (first second : α)
    (result : β) :
    (∃ reason, (if c then .error first else if d then .error second else .ok result) =
      (.error reason : Except α β)) ↔ c ∨ d := by
  by_cases hc : c
  · simp [hc]
  · by_cases hd : d <;> simp [hc, hd]

/-- **The checks turn down the invalid requests** and no others. -/
theorem checkNewOrder_eq_error_iff (request : NewOrderRequest) :
    (∃ reason, checkNewOrder request = .error reason) ↔ request.Invalid := by
  simp only [checkNewOrder, NewOrderRequest.Invalid]
  rcases BuySell.ofUInt8_cases request.side with ⟨hs, heq⟩ | ⟨hs, heq⟩ | ⟨hs, hs', heq | heq⟩
  -- with a bad side nothing else is looked at
  case inr.inr.inl => simp [heq, hs, hs']
  case inr.inr.inr => simp [heq, hs, hs']
  all_goals
    rcases OrderType.ofUInt8_cases request.orderType with
      ⟨ht, heq'⟩ | ⟨ht, heq'⟩ | ⟨ht, heq'⟩ | ⟨ht, ht', ht'', heq' | heq' | heq'⟩
    all_goals simp only [heq, heq', exists_error_iff]
    all_goals simp [*]

theorem not_invalid_of_ok {request : NewOrderRequest} {p : BuySell × OrderType}
    (h : checkNewOrder request = .ok p) : ¬ request.Invalid := by
  rw [← checkNewOrder_eq_error_iff, h]
  rintro ⟨reason, heq⟩
  cases heq

/-! ### What a reject leaves alone -/

/-- What a reject leaves as it was: the book, the tracking maps, the id counters, the last trade,
the count of trades and the market data. -/
structure SameBusiness (e e' : MatchingEngine) : Prop where
  orderbook : e'.orderbook = e.orderbook
  sessionOrders : e'.sessionOrders = e.sessionOrders
  orderToSession : e'.orderToSession = e.orderToSession
  orderToClientOrderId : e'.orderToClientOrderId = e.orderToClientOrderId
  nextOrderId : e'.nextOrderId = e.nextOrderId
  nextTradeId : e'.nextTradeId = e.nextTradeId
  lastTradePrice : e'.lastTradePrice = e.lastTradePrice
  lastTradeQty : e'.lastTradeQty = e.lastTradeQty
  tradesExecuted : e'.tradesExecuted = e.tradesExecuted
  feedQueue : e'.feedQueue = e.feedQueue

theorem sameBusiness_countOrder (e : MatchingEngine) : SameBusiness e e.countOrder :=
  ⟨rfl, rfl, rfl, rfl, rfl, rfl, rfl, rfl, rfl, rfl⟩

/-- Pushing a response changes none of it. -/
theorem SameBusiness.pushOutbound {e e' : MatchingEngine} (h : SameBusiness e e')
    (sessionId : SessionId) (body : OutboundBody) :
    SameBusiness e (e'.pushOutbound sessionId body) :=
  ⟨h.orderbook, h.sessionOrders, h.orderToSession, h.orderToClientOrderId, h.nextOrderId,
    h.nextTradeId, h.lastTradePrice, h.lastTradeQty, h.tradesExecuted, h.feedQueue⟩

theorem SameBusiness.refl (e : MatchingEngine) : SameBusiness e e :=
  ⟨rfl, rfl, rfl, rfl, rfl, rfl, rfl, rfl, rfl, rfl⟩

/-! ### The answer to a message -/

/-- **The answer to a message** among what handling it pushes, and what goes with a reject. -/
structure AnsweredBy (e : MatchingEngine) (msg : InboundMessage) (pushed : List OutboundMessage)
    (answer : OutboundBody) : Prop where
  queue : (e.processInboundMessage msg).outboundQueue = e.outboundQueue ++ pushed
  terminal : pushed.filter (fun m => m.body.isAnswer) = [⟨msg.sessionId, answer⟩]
  answers : answer.Answers msg.body
  rejected : ∀ request, msg.body = .newOrder request → (answer.isReject ↔ request.Invalid)
  atomic : answer.isReject →
    pushed = [⟨msg.sessionId, answer⟩] ∧ SameBusiness e (e.processInboundMessage msg)

section

variable {e : MatchingEngine} {msg : InboundMessage} {answer : OutboundBody}

/-- A handler that pushes its answer only. -/
theorem AnsweredBy.of_single (hanswer : answer.isAnswer)
    (hqueue : (e.processInboundMessage msg).outboundQueue =
      e.outboundQueue ++ [⟨msg.sessionId, answer⟩])
    (hanswers : answer.Answers msg.body)
    (hrejected : ∀ request, msg.body = .newOrder request → (answer.isReject ↔ request.Invalid))
    (hsame : answer.isReject → SameBusiness e (e.processInboundMessage msg)) :
    AnsweredBy e msg [⟨msg.sessionId, answer⟩] answer :=
  ⟨hqueue, List.filter_cons_of_pos hanswer, hanswers, hrejected, fun h => ⟨rfl, hsame h⟩⟩

/-- A handler that pushes reports before its acknowledgement. -/
theorem AnsweredBy.of_reports {reports : List OutboundMessage}
    (hreports : ∀ m ∈ reports, m.body.isAnswer = false) (hanswer : answer.isAnswer)
    (hack : answer.isReject = false)
    (hqueue : (e.processInboundMessage msg).outboundQueue =
      e.outboundQueue ++ (reports ++ [⟨msg.sessionId, answer⟩]))
    (hanswers : answer.Answers msg.body)
    (hrejected : ∀ request, msg.body = .newOrder request → ¬ request.Invalid) :
    AnsweredBy e msg (reports ++ [⟨msg.sessionId, answer⟩]) answer := by
  have hnone : reports.filter (fun m => m.body.isAnswer) = [] :=
    List.filter_eq_nil_iff.mpr fun m hm => by simp [hreports m hm]
  refine ⟨hqueue, ?_, hanswers, fun request hbody => ?_, fun h => ?_⟩
  · rw [List.filter_append, hnone]
    exact List.filter_cons_of_pos (p := fun m : OutboundMessage => m.body.isAnswer) hanswer
  · simp [hack, hrejected request hbody]
  · rw [hack] at h
    cases h

end

/-- **One answer per request, and a reject changes nothing**: handling a message pushes exactly
one terminal response, to the session that sent the message and with the ids of the request. A
request for a new order is rejected exactly when it is invalid. A reject is the only response
pushed; with it no market data is pushed and the book, the tracking maps, the id counters and the
last trade stay as they were. -/
theorem answers_request (e : MatchingEngine) (msg : InboundMessage) :
    ∃ pushed answer, AnsweredBy e msg pushed answer := by
  have hnew : ∀ {request : NewOrderRequest} {body : InboundBody}, msg.body = body →
      (∀ r, body ≠ .newOrder r) → msg.body = .newOrder request → False :=
    fun hbody hne heq => hne _ (hbody.symm.trans heq)
  cases e.handled msg with
  | newRejected request reason body check _ _ result =>
      refine ⟨_, .orderReject _, .of_single rfl (by rw [result]; rfl) ?_ ?_ fun _ => ?_⟩
      · rw [body]
        exact rfl
      · intro request' hbody
        obtain rfl : request = request' := InboundBody.newOrder.inj (body.symm.trans hbody)
        exact iff_of_true rfl ((checkNewOrder_eq_error_iff request).mp ⟨reason, check⟩)
      · rw [result]
        exact e.sameBusiness_countOrder.pushOutbound _ _
  | newAccepted request side orderType body check _ _ result =>
      obtain ⟨reports, ack, hreports, hclient, -, -, hqueue⟩ :=
        e.countOrder.exists_ack_acceptNewOrder msg.sessionId request side orderType
      refine ⟨_, .orderAck ack, .of_reports hreports rfl rfl (by rw [result]; exact hqueue) ?_ ?_⟩
      · rw [body]
        exact hclient
      · intro request' hbody
        obtain rfl : request = request' := InboundBody.newOrder.inj (body.symm.trans hbody)
        exact not_invalid_of_ok check
  | cancelRejected request body _ _ _ result =>
      refine ⟨_, .cancelReject _, .of_single rfl (by rw [result]; rfl) ?_
        (fun _ hbody => (hnew body nofun hbody).elim) fun _ => ?_⟩
      · rw [body]
        exact ⟨rfl, rfl⟩
      · rw [result]
        exact (SameBusiness.refl e).pushOutbound _ _
  | cancelled request owner body _ _ _ result =>
      refine ⟨_, .cancelAck _, .of_single rfl (by rw [result]; rfl) ?_
        (fun _ hbody => (hnew body nofun hbody).elim) nofun⟩
      rw [body]
      exact ⟨rfl, rfl⟩
  | modifyRejected request reason body _ _ _ result =>
      refine ⟨_, .modifyReject _, .of_single rfl (by rw [result]; rfl) ?_
        (fun _ hbody => (hnew body nofun hbody).elim) fun _ => ?_⟩
      · rw [body]
        exact ⟨rfl, rfl⟩
      · rw [result]
        exact (SameBusiness.refl e).pushOutbound _ _
  | modified request body _ _ _ result =>
      obtain ⟨ack, hclient, horder, hqueue⟩ :=
        e.exists_ack_acceptModifyOrder msg.sessionId request
      refine ⟨_, .modifyAck ack, .of_single rfl (by rw [result, hqueue]) ?_
        (fun _ hbody => (hnew body nofun hbody).elim) nofun⟩
      rw [body]
      exact ⟨hclient, horder⟩

end MatchingEngine

end ExchangeEngine
