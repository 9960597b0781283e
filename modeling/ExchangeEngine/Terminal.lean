import ExchangeEngine.Announcements
import ExchangeEngine.Tracking

/-!
# Requests for Orders That Have Left the Book

A request to cancel or modify an order that no longer rests should be rejected and change
nothing. The handlers decide by the map from orders to sessions, not by the book, and the
handlers of new orders and modifies drop only the incoming order from that map, and only
`handleNewOrder` does. An order that is executed in full while it rests, or by its own modify,
stays in the map, and its owner can still have it acknowledged as cancelled or modified.

## Main results

* `terminal_stays_terminal`: as long as nobody who may do so asks for an order that has left
  the book by a fill, requests for orders that do not rest are rejected and change nothing.
* `not_terminalStaysTerminal_filledRun`: a run in which an executed order is acknowledged as
  cancelled.
-/

open PriceTime

namespace ExchangeEngine

/-- The order that a cancel or modify request names. -/
def InboundMessage.named? (msg : InboundMessage) : Option OrderId :=
  match msg.body with
  | .newOrder _ => none
  | .cancelOrder request => some request.orderId
  | .modifyOrder request => some request.orderId

/-- Whether a response rejects a request: it is of the kind that the request calls for, and
names the request and its order. -/
def OutboundBody.rejects (body : OutboundBody) (msg : InboundMessage) : Bool :=
  match msg.body, body with
  | .cancelOrder request, .cancelReject reject =>
      decide (reject.clientOrderId = request.clientOrderId ∧ reject.orderId = request.orderId)
  | .modifyOrder request, .modifyReject reject =>
      decide (reject.clientOrderId = request.clientOrderId ∧ reject.orderId = request.orderId)
  | _, _ => false

namespace MatchingEngine

/-- **Handling a message only rejects it**: exactly one response is sent, a reject to the
sender, nothing is published, and the book stays as it is. -/
structure OnlyRejects (e : MatchingEngine) (msg : InboundMessage) : Prop where
  response : ∃ body, body.rejects msg = true ∧
    (e.processInboundMessage msg).outboundQueue = e.outboundQueue ++ [⟨msg.sessionId, body⟩]
  feed : (e.processInboundMessage msg).feedQueue = e.feedQueue
  book : (e.processInboundMessage msg).orderbook = e.orderbook

/-- Who may request a cancel or modify: the session that the order is tracked under, and the
dummy session. -/
theorem authorize_eq_some {e : MatchingEngine} {sessionId owner : SessionId}
    {orderId : OrderId} (h : e.authorize sessionId orderId = some owner) :
    e.orderToSession.lookup orderId = some owner ∧
      (owner = sessionId ∨ sessionId = DUMMY_SESSION_ID) := by
  rw [authorize] at h
  cases hlookup : e.orderToSession.lookup orderId with
  | none => simp [hlookup] at h
  | some owner' =>
      simp only [hlookup] at h
      split at h
      · cases h
      · rename_i hallowed
        obtain rfl := Option.some.inj h
        refine ⟨rfl, ?_⟩
        by_contra hneither
        exact hallowed (not_or.mp hneither)

theorem onlyRejects_cancelRejected {e : MatchingEngine} {msg : InboundMessage}
    {request : CancelOrderRequest} (hbody : msg.body = .cancelOrder request)
    (hresult : e.processInboundMessage msg =
      e.sendCancelReject msg.sessionId request.clientOrderId request.orderId .orderNotFound) :
    e.OnlyRejects msg := by
  refine ⟨⟨_, ?_, by rw [hresult]; rfl⟩, by rw [hresult]; rfl, by rw [hresult]; rfl⟩
  simp [OutboundBody.rejects, hbody]

theorem onlyRejects_modifyRejected {e : MatchingEngine} {msg : InboundMessage}
    {request : ModifyOrderRequest} {reason : RejectReason}
    (hbody : msg.body = .modifyOrder request)
    (hresult : e.processInboundMessage msg =
      e.sendModifyReject msg.sessionId request.clientOrderId request.orderId reason) :
    e.OnlyRejects msg := by
  refine ⟨⟨_, ?_, by rw [hresult]; rfl⟩, by rw [hresult]; rfl, by rw [hresult]; rfl⟩
  simp [OutboundBody.rejects, hbody]

end MatchingEngine

variable (symbol : List UInt8) (clock : ℕ → Timestamp)

/-- Whether a session may request a cancel or modify of an order: it entered the order, or it
is the dummy session. -/
def mayRequest (past : List InboundMessage) (sessionId : SessionId) (orderId : OrderId) :
    Bool :=
  decide (owner symbol clock past orderId = some sessionId) ||
    decide (sessionId = DUMMY_SESSION_ID)

/-- Whether a message is a request for an order that has left the book by a fill, from a
session that may make it and, in a modify, with a price and a quantity that are allowed. -/
def asksForFilled (past : List InboundMessage) (msg : InboundMessage) : Bool :=
  match msg.body with
  | .newOrder _ => false
  | .cancelOrder request =>
      leftByFill symbol clock past request.orderId &&
        mayRequest symbol clock past msg.sessionId request.orderId
  | .modifyOrder request =>
      leftByFill symbol clock past request.orderId &&
        mayRequest symbol clock past msg.sessionId request.orderId &&
        decide (0 < request.newPrice) && decide (request.newQuantity ≠ 0)

/-- **Terminal orders stay terminal**: at every step of a history, a request for an order that
was accepted and no longer rests is only rejected. -/
def TerminalStaysTerminal (past : List InboundMessage) : Prop :=
  ∀ msg before, (msg :: before) <:+ past → ∀ orderId, msg.named? = some orderId →
    (entry symbol clock before orderId).isSome = true →
    (after symbol clock before).orderbook.rests orderId = false →
    (after symbol clock before).OnlyRejects msg

/-- An order that a session is allowed to cancel or modify, and that does not rest, has left
the book by a fill. -/
theorem leftByFill_of_authorize {past : List InboundMessage} (h : acceptedOrders past < 2 ^ 64)
    {sessionId tracked : SessionId} {orderId : OrderId}
    (hauth : (after symbol clock past).authorize sessionId orderId = some tracked)
    (hgone : (after symbol clock past).orderbook.rests orderId = false) :
    leftByFill symbol clock past orderId = true ∧
      mayRequest symbol clock past sessionId orderId = true := by
  obtain ⟨hlookup, hsession⟩ := MatchingEngine.authorize_eq_some hauth
  obtain ⟨⟨request, hentry⟩, hrests⟩ := entered_of_tracked h hlookup
  refine ⟨hrests.resolve_left fun hmem => ?_, ?_⟩
  · rw [Orderbook.rests_iff.mpr hmem] at hgone
    cases hgone
  · have howner : owner symbol clock past orderId = some tracked := by
      rw [owner, hentry]
      rfl
    rw [mayRequest, howner, Bool.or_eq_true, decide_eq_true_iff, decide_eq_true_iff]
    rcases hsession with rfl | hdummy
    · exact Or.inl rfl
    · exact Or.inr hdummy

/-- **When requests for orders that do not rest are only rejected**: when none of them asks
for an order that has left the book by a fill. -/
theorem terminal_stays_terminal (past : List InboundMessage) (h : acceptedOrders past < 2 ^ 64)
    (hask : ∀ msg before, (msg :: before) <:+ past →
      asksForFilled symbol clock before msg = false) :
    TerminalStaysTerminal symbol clock past := by
  intro msg before hsuffix orderId hnamed _ hgone
  have hbefore : acceptedOrders before < 2 ^ 64 :=
    acceptedOrders_lt_of_suffix ((List.suffix_cons msg before).trans hsuffix) h
  have hnot := hask msg before hsuffix
  cases (after symbol clock before).handled msg with
  | newRejected request reason body => simp [InboundMessage.named?, body] at hnamed
  | newAccepted request side orderType body => simp [InboundMessage.named?, body] at hnamed
  | cancelRejected request body _ _ _ result =>
      exact MatchingEngine.onlyRejects_cancelRejected body result
  | cancelled request tracked body auth =>
      simp only [InboundMessage.named?, body, Option.some.injEq] at hnamed
      subst hnamed
      obtain ⟨hleft, hmay⟩ := leftByFill_of_authorize symbol clock hbefore auth hgone
      simp [asksForFilled, body, hleft, hmay] at hnot
  | modifyRejected request reason body _ _ _ result =>
      exact MatchingEngine.onlyRejects_modifyRejected body result
  | modified request body check =>
      simp only [InboundMessage.named?, body, Option.some.injEq] at hnamed
      subst hnamed
      obtain ⟨⟨tracked, hauth⟩, hprice, hqty⟩ :=
        MatchingEngine.checkModifyOrder_eq_none check
      obtain ⟨hleft, hmay⟩ := leftByFill_of_authorize symbol clock hbefore hauth hgone
      simp [asksForFilled, body, hleft, hmay, hprice, hqty] at hnot

/-- A run in which the orders that are asked for left the book as a cancelled order and as a
MARKET order. -/
def droppedRun : List InboundMessage :=
  [cancelOrderMessage 2 2, modifyOrderMessage 1 1 100 3, newOrderMessage 2 .buy 3 0 4,
    cancelOrderMessage 1 1, limitOrderMessage 1 .sell 100 5]

theorem terminal_stays_terminal_droppedRun :
    (after [] (fun _ => 0) (droppedRun.drop 2)).orderbook.rests 1 = false ∧
    TerminalStaysTerminal [] (fun _ => 0) droppedRun := by
  have hask : everyStep (fun before msg => !asksForFilled [] (fun _ => 0) before msg)
      droppedRun = true := by decide
  refine ⟨by decide, terminal_stays_terminal [] (fun _ => 0) droppedRun (by decide)
    fun msg before hsuffix => ?_⟩
  simpa using everyStep_iff.mp hask msg before hsuffix

/-- A run in which an order is executed in full while it rests, and cancelled by its owner
afterwards. -/
def filledRun : List InboundMessage :=
  [cancelOrderMessage 1 1, limitOrderMessage 2 .buy 100 5, limitOrderMessage 1 .sell 100 5]

/-- The executed order is acknowledged as cancelled. -/
theorem not_terminalStaysTerminal_filledRun :
    (after [] (fun _ => 0) (filledRun.drop 1)).orderbook.rests 1 = false ∧
    (after [] (fun _ => 0) filledRun).outboundQueue.getLast? =
      some ⟨1, .cancelAck ⟨⟨.cancelAck, 27, 0⟩, 0, 1⟩⟩ ∧
    ¬ TerminalStaysTerminal [] (fun _ => 0) filledRun := by
  refine ⟨by decide, by decide, fun h => ?_⟩
  have hreject := h _ _ List.suffix_rfl 1 rfl (by decide) (by decide)
  exact absurd (congrArg List.length hreject.feed) (by decide)

end ExchangeEngine
