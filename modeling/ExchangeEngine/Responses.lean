import ExchangeEngine.EngineSteps

/-!
# What the Engine Responds

Every message makes the engine push responses to the outbound queue: the execution reports of the
trades that its handler announces, and after them one answer, an acknowledgement or a reject, to
the session that sent the message. `responds` says so for every handler; the order of the two,
reports first, is that of `handleNewOrder`.
-/

namespace ExchangeEngine

/-- Whether a response answers a request: it is an acknowledgement or a reject. -/
def OutboundBody.isAnswer : OutboundBody → Bool
  | .execReport _ => false
  | _ => true

namespace MatchingEngine

/-- What handling a message pushes to the outbound queue. -/
def stepResponses (e : MatchingEngine) (msg : InboundMessage) : List OutboundMessage :=
  (e.processInboundMessage msg).outboundQueue.drop e.outboundQueue.length

/-- **The responses to a message**: execution reports, and then one answer to its session. Only
an accepted request for a new order is answered with an `OrderAck`, which has the id of the
order, and only it can make the engine report executions. -/
structure Responds (e : MatchingEngine) (msg : InboundMessage) (reports : List OutboundMessage)
    (answer : OutboundBody) : Prop where
  queue : (e.processInboundMessage msg).outboundQueue =
    e.outboundQueue ++ (reports ++ [⟨msg.sessionId, answer⟩])
  executions : ∀ m ∈ reports, m.body.isAnswer = false
  answers : answer.isAnswer = true
  accepted : isAccepted msg = true → ∃ ack : OrderAck,
    answer = .orderAck ack ∧ ack.orderId = e.nextOrderId
  other : isAccepted msg = false → reports = [] ∧ ∀ ack, answer ≠ .orderAck ack

section Loops

variable (sessionId : SessionId) (order : OrderPointer) (orderId : OrderId) (side : BuySell)

theorem outboundQueue_newOrderTrade (e : MatchingEngine) (trade : Trade) :
    ∃ reports : List OutboundMessage, (∀ m ∈ reports, m.body.isAnswer = false) ∧
      (newOrderTrade sessionId order orderId side e trade).outboundQueue =
        e.outboundQueue ++ reports := by
  simp only [newOrderTrade]
  split
  · exact ⟨[_], by simp [OutboundBody.isAnswer], rfl⟩
  · exact ⟨[_, _], by simp [OutboundBody.isAnswer], List.append_assoc ..⟩

/-- The trade loop of `handleNewOrder` pushes execution reports only. -/
theorem outboundQueue_foldl_newOrderTrade (trades : List Trade) (e : MatchingEngine) :
    ∃ reports : List OutboundMessage, (∀ m ∈ reports, m.body.isAnswer = false) ∧
      (trades.foldl (newOrderTrade sessionId order orderId side) e).outboundQueue =
        e.outboundQueue ++ reports := by
  induction trades generalizing e with
  | nil => exact ⟨[], by simp, (List.append_nil _).symm⟩
  | cons trade trades ih =>
      obtain ⟨first, hfirst, hqueue⟩ :=
        outboundQueue_newOrderTrade sessionId order orderId side e trade
      obtain ⟨rest, hrest, hqueue'⟩ := ih (newOrderTrade sessionId order orderId side e trade)
      refine ⟨first ++ rest, fun m hm => ?_, ?_⟩
      · rcases List.mem_append.mp hm with hm | hm
        · exact hfirst m hm
        · exact hrest m hm
      · rw [List.foldl_cons, hqueue', hqueue, List.append_assoc]

/-- The trade loop of `handleModifyOrder` pushes no response. -/
theorem outboundQueue_foldl_modifyOrderTrade (trades : List Trade) (e : MatchingEngine) :
    (trades.foldl (modifyOrderTrade orderId) e).outboundQueue = e.outboundQueue := by
  induction trades generalizing e with
  | nil => rfl
  | cons trade trades ih =>
      rw [List.foldl_cons, ih]
      rfl

end Loops

/-- **An accepted request** is acknowledged after the reports of its trades. The acknowledgement
echoes the client's id, gives the order's own, and states the status that the book left the order
with. -/
theorem exists_ack_acceptNewOrder (e : MatchingEngine) (sessionId : SessionId)
    (request : NewOrderRequest) (side : BuySell) (orderType : OrderType) :
    ∃ (reports : List OutboundMessage) (ack : OrderAck),
      (∀ m ∈ reports, m.body.isAnswer = false) ∧
      ack.clientOrderId = request.clientOrderId ∧ ack.orderId = e.nextOrderId ∧
      ack.status = ((e.acceptNewOrder sessionId request side orderType).orderbook.heap.read
        e.orderbook.heap.next).orderStatus.toUInt8 ∧
      (e.acceptNewOrder sessionId request side orderType).outboundQueue =
        e.outboundQueue ++ (reports ++ [⟨sessionId, .orderAck ack⟩]) := by
  obtain ⟨reports, hreports, hqueue⟩ := outboundQueue_foldl_newOrderTrade sessionId
    e.orderbook.heap.next e.nextOrderId side
    (e.enterOrder sessionId request side orderType).orderbook.trades
    (e.enterOrder sessionId request side orderType)
  rw [show (e.enterOrder sessionId request side orderType).outboundQueue = e.outboundQueue
    from rfl] at hqueue
  rw [acceptNewOrder]
  generalize (e.enterOrder sessionId request side orderType).orderbook.trades.foldl
    (newOrderTrade sessionId e.orderbook.heap.next e.nextOrderId side)
    (e.enterOrder sessionId request side orderType) = e' at hqueue ⊢
  refine ⟨reports,
    { header := e'.header .orderAck, clientOrderId := request.clientOrderId,
      orderId := e.nextOrderId,
      status := (e'.orderbook.heap.read e.orderbook.heap.next).orderStatus.toUInt8 },
    hreports, rfl, rfl, ?_, ?_⟩
  · -- what follows the acknowledgement leaves the book as it is
    rw [finishNewOrder]
    split <;> rfl
  · rw [← List.append_assoc, ← hqueue, finishNewOrder]
    -- dropping the tracking of the order sends nothing
    split <;> rfl

/-- A modify that is carried out is acknowledged under the ids of the request, and its trades are
not reported. -/
theorem exists_ack_acceptModifyOrder (e : MatchingEngine) (sessionId : SessionId)
    (request : ModifyOrderRequest) :
    ∃ ack : ModifyAck, ack.clientOrderId = request.clientOrderId ∧
      ack.orderId = request.orderId ∧
      (e.acceptModifyOrder sessionId request).outboundQueue =
        e.outboundQueue ++ [⟨sessionId, .modifyAck ack⟩] := by
  rw [acceptModifyOrder]
  have hqueue := outboundQueue_foldl_modifyOrderTrade request.orderId
    (e.orderbook.modifyOrder request.orderId request.newPrice request.newQuantity).trades
    { e with orderbook :=
      e.orderbook.modifyOrder request.orderId request.newPrice request.newQuantity }
  simp only at hqueue ⊢
  generalize List.foldl (modifyOrderTrade request.orderId) _ _ = e' at hqueue ⊢
  exact ⟨{ header := e'.header .modifyAck, clientOrderId := request.clientOrderId,
           orderId := request.orderId, newPrice := request.newPrice,
           newQuantity := request.newQuantity }, rfl, rfl, congrArg (· ++ _) hqueue⟩

/-- **What every handler responds.** -/
theorem responds (e : MatchingEngine) (msg : InboundMessage) :
    ∃ reports answer, Responds e msg reports answer := by
  have hother : ∀ answer : OutboundBody, answer.isAnswer = true →
      (∀ ack, answer ≠ .orderAck ack) → isAccepted msg = false →
      (e.processInboundMessage msg).outboundQueue =
        e.outboundQueue ++ [⟨msg.sessionId, answer⟩] →
      ∃ reports answer, Responds e msg reports answer := by
    intro answer hanswer hack haccepted hqueue
    refine ⟨[], answer, hqueue, by simp, hanswer, fun hacc => ?_, fun _ => ⟨rfl, hack⟩⟩
    rw [haccepted] at hacc
    cases hacc
  cases e.handled msg with
  | newRejected request reason _ _ _ accepted result =>
      exact hother (.orderReject _) rfl nofun accepted (by rw [result]; rfl)
  | newAccepted request side orderType _ _ _ accepted result =>
      obtain ⟨reports, ack, hreports, -, hid, -, hqueue⟩ :=
        e.countOrder.exists_ack_acceptNewOrder msg.sessionId request side orderType
      refine ⟨reports, .orderAck ack, ?_, hreports, rfl, fun _ => ⟨ack, rfl, hid⟩, fun hacc => ?_⟩
      · rw [result]
        exact hqueue
      · rw [accepted] at hacc
        cases hacc
  | cancelRejected request _ _ _ accepted result =>
      exact hother (.cancelReject _) rfl nofun accepted (by rw [result]; rfl)
  | cancelled request owner _ _ _ accepted result =>
      exact hother (.cancelAck _) rfl nofun accepted (by rw [result]; rfl)
  | modifyRejected request reason _ _ _ accepted result =>
      exact hother (.modifyReject _) rfl nofun accepted (by rw [result]; rfl)
  | modified request _ _ _ accepted result =>
      obtain ⟨ack, -, -, hqueue⟩ := e.exists_ack_acceptModifyOrder msg.sessionId request
      exact hother (.modifyAck ack) rfl nofun accepted (by rw [result, hqueue])

theorem Responds.stepResponses_eq {e : MatchingEngine} {msg : InboundMessage}
    {reports : List OutboundMessage} {answer : OutboundBody} (h : Responds e msg reports answer) :
    e.stepResponses msg = reports ++ [⟨msg.sessionId, answer⟩] := by
  rw [stepResponses, h.queue, List.drop_left]

/-- The outbound queue grows by the responses. -/
theorem outboundQueue_processInboundMessage (e : MatchingEngine) (msg : InboundMessage) :
    (e.processInboundMessage msg).outboundQueue = e.outboundQueue ++ e.stepResponses msg := by
  obtain ⟨reports, answer, h⟩ := e.responds msg
  rw [h.stepResponses_eq, h.queue]

/-- **Every message is answered once**, to the session that sent it. -/
theorem answers_stepResponses (e : MatchingEngine) (msg : InboundMessage) :
    ((e.stepResponses msg).filter fun m => m.body.isAnswer).map OutboundMessage.sessionId =
      [msg.sessionId] := by
  obtain ⟨reports, answer, h⟩ := e.responds msg
  have hreports : reports.filter (fun m => m.body.isAnswer) = [] :=
    List.filter_eq_nil_iff.mpr fun m hm => by simp [h.executions m hm]
  have hanswer : [(⟨msg.sessionId, answer⟩ : OutboundMessage)].filter
      (fun m => m.body.isAnswer) = [⟨msg.sessionId, answer⟩] :=
    List.filter_cons_of_pos h.answers
  rw [h.stepResponses_eq, List.filter_append, hreports, hanswer]
  rfl

end MatchingEngine

end ExchangeEngine
