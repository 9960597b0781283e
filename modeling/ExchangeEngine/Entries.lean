import ExchangeEngine.Runs

/-!
# Who Entered an Order

`entry` reads off a history of messages which session entered an order, and with which
request. A resting order still carries that session and the client's id for it, and rests on
the side that the request names (`entered_after`); so the two orders of a trade are a buy
order and a sell order of the requests that entered them (`parties_of_mem_stepMoments`).
-/

open PriceTime

namespace ExchangeEngine

variable (symbol : List UInt8) (clock : ℕ → Timestamp)

/-- The session and the request that entered the order `orderId` in a history, if it was
accepted in it. -/
def entry : List InboundMessage → OrderId → Option (SessionId × NewOrderRequest)
  | [], _ => none
  | msg :: past, orderId =>
      match msg.body with
      | .newOrder request =>
          if MatchingEngine.isAccepted msg = true ∧
              orderId = (after symbol clock past).nextOrderId then
            some (msg.sessionId, request)
          else entry past orderId
      | _ => entry past orderId

/-- The session that entered an order in a history. -/
def owner (past : List InboundMessage) (orderId : OrderId) : Option SessionId :=
  (entry symbol clock past orderId).map Prod.fst

/-- The order `orderId` was entered by the session of `tag`, under the client's id of `tag`,
for side `s`. -/
def Entered (past : List InboundMessage) (orderId : OrderId) (s : Side) (tag : OrderTag) :
    Prop :=
  ∃ request, entry symbol clock past orderId = some (tag.sessionId, request) ∧
    request.clientOrderId = tag.clientOrderId ∧
    BuySell.ofUInt8 request.side = some (buySellOf s)

section Entry

variable {symbol clock} {msg : InboundMessage} {past : List InboundMessage} {i : OrderId}
  {s : Side} {tag : OrderTag}

/-- A message enters no order but the one under the next order id. -/
theorem entry_cons_of_ne (h : MatchingEngine.isAccepted msg = true →
    i ≠ (after symbol clock past).nextOrderId) :
    entry symbol clock (msg :: past) i = entry symbol clock past i := by
  rw [entry]
  split
  · exact if_neg fun hacc => h hacc.1 hacc.2
  · rfl

/-- An accepted request enters the order under the next order id. -/
theorem entry_cons_self {request : NewOrderRequest} (hbody : msg.body = .newOrder request)
    (hacc : MatchingEngine.isAccepted msg = true) :
    entry symbol clock (msg :: past) (after symbol clock past).nextOrderId =
      some (msg.sessionId, request) := by
  simp only [entry, hbody]
  exact if_pos ⟨hacc, trivial⟩

/-- Ids of the view are never entered again. -/
theorem ne_nextOrderId (h : acceptedOrders (msg :: past) < 2 ^ 64)
    (hi : i ∈ (after symbol clock past).orderbook.view.ids)
    (hacc : MatchingEngine.isAccepted msg = true) :
    i ≠ (after symbol clock past).nextOrderId := by
  rintro rfl
  rw [acceptedOrders_cons, hacc, if_pos rfl] at h
  exact (after_inv symbol clock (by omega)).nextOrderId_notMem h hi

/-- What was entered about a resting order stays. -/
theorem Entered.cons (h : acceptedOrders (msg :: past) < 2 ^ 64)
    (hi : i ∈ (after symbol clock past).orderbook.view.ids)
    (hent : Entered symbol clock past i s tag) : Entered symbol clock (msg :: past) i s tag := by
  obtain ⟨request, hentry, hclient, hside⟩ := hent
  refine ⟨request, ?_, hclient, hside⟩
  rw [entry_cons_of_ne (ne_nextOrderId h hi)]
  exact hentry

end Entry

/-- **The incoming order of a step** was entered by the message, or it rested before. -/
theorem entered_incoming {msg : InboundMessage} {past : List InboundMessage}
    (h : acceptedOrders (msg :: past) < 2 ^ 64)
    (hold : ∀ s, ∀ a ∈ (after symbol clock past).orderbook.view.side s,
      Entered symbol clock past a.id s a.tag)
    {c : BookCall} (hcall : (after symbol clock past).bookCall? msg = some c)
    {b' : Orderbook} {order : OrderPointer} {s : Side}
    (henters : (after symbol clock past).orderbook.Enters c b' order s) :
    Entered symbol clock (msg :: past) (b'.heap.read order).orderId s
      (b'.heap.read order).offer.tag := by
  have hpast := acceptedOrders_lt_of_cons h
  have hwf := (after_inv symbol clock hpast).book.wf
  rcases henters.origin with rfl | ⟨hmem, newPrice, newQuantity, -, hread⟩
  · obtain ⟨hacc, request, side, orderType, hbody, hcheck, horder⟩ :=
      MatchingEngine.bookCall_addOrder hcall
    have hs := henters.addable.buySell
    rw [horder] at hs ⊢
    obtain ⟨hside, -⟩ := MatchingEngine.checkNewOrder_eq_ok hcheck
    refine ⟨request, entry_cons_self hbody hacc, rfl, ?_⟩
    rw [hside, show side = buySellOf s from hs]
  · have hs := henters.addable.buySell
    rw [hread] at hs ⊢
    have hside := hwf.mem_side.mpr ⟨order, hmem, hs, rfl⟩
    have hids := Book.mem_ids.mpr ⟨s, _, hside, rfl⟩
    exact (hold s _ hside).cons h hids

/-- **Every resting order is the order that its request asked for**, on the side that the
request names. -/
theorem entered_after {past : List InboundMessage} (h : acceptedOrders past < 2 ^ 64) :
    ∀ s, ∀ a ∈ (after symbol clock past).orderbook.view.side s,
      Entered symbol clock past a.id s a.tag := by
  induction past with
  | nil =>
      intro s a ha
      cases s <;> cases ha
  | cons msg past ih =>
      have hpast := acceptedOrders_lt_of_cons h
      have hold := ih hpast
      have hwf := (after_inv symbol clock hpast).book.wf
      have hkeep : ∀ s, ∀ a ∈ (after symbol clock past).orderbook.view.side s,
          Entered symbol clock (msg :: past) a.id s a.tag :=
        fun s a ha => (hold s a ha).cons h (Book.mem_ids.mpr ⟨s, a, ha, rfl⟩)
      intro t a ha
      rw [after_cons] at ha
      cases hcall : (after symbol clock past).bookCall? msg with
      | none =>
          rw [MatchingEngine.orderbook_of_no_call hcall] at ha
          exact hkeep t a ha
      | some c =>
          have hallow := after_allows symbol clock h hcall
          rw [MatchingEngine.orderbook_of_call hcall] at ha
          rcases Orderbook.call_cases hwf hallow with ⟨b', order, s, -, henters, hadded⟩ |
            ⟨orderId, -, -, -, hview⟩ | ⟨-, -, -, -, -, heq⟩
          · rw [hadded.view] at ha
            rcases Book.mem_side_submit ha with ⟨rfl, -, rfl⟩ | ⟨a', ha', hst⟩
            · exact entered_incoming symbol clock h hold hcall henters
            · rw [henters.view, Book.side_withdraw] at ha'
              have := hkeep t a' (List.mem_of_mem_filter ha')
              simp only [Offer.stamp, Prod.mk.injEq] at hst
              rwa [hst.1, hst.2.2] at this
          · rw [hview, Book.side_withdraw] at ha
            exact hkeep t a (List.mem_of_mem_filter ha)
          · rw [heq] at ha
            exact hkeep t a ha

/-- **The two orders of an execution** are a buy order and a sell order, and different ones. -/
theorem parties_of_mem_stepMoments {msg : InboundMessage} {past : List InboundMessage}
    (h : acceptedOrders (msg :: past) < 2 ^ 64) {m : Moment}
    (hm : m ∈ (after symbol clock past).stepMoments msg) :
    (∃ tag, Entered symbol clock (msg :: past) m.trade.buyOrderId .bid tag) ∧
    (∃ tag, Entered symbol clock (msg :: past) m.trade.sellOrderId .ask tag) ∧
    m.trade.buyOrderId ≠ m.trade.sellOrderId := by
  have hpast := acceptedOrders_lt_of_cons h
  have hold := entered_after symbol clock hpast
  have hwf := (after_inv symbol clock hpast).book.wf
  cases hcall : (after symbol clock past).bookCall? msg with
  | none => simp [MatchingEngine.stepMoments, hcall] at hm
  | some c =>
      simp only [MatchingEngine.stepMoments, hcall] at hm
      obtain ⟨b', order, s, -, henters, hmoment⟩ := Orderbook.exists_enters_of_mem_callMoments
        hwf (after_allows symbol clock h hcall) hm
      have hincoming := entered_incoming symbol clock h hold hcall henters
      have hresting : Entered symbol clock (msg :: past) m.resting.orderId s.contra
          m.resting.offer.tag := by
        obtain ⟨a, ha, hst⟩ := hmoment.exists_offer
        rw [henters.view, Book.side_withdraw] at ha
        have hmem := List.mem_of_mem_filter ha
        have := (hold s.contra a hmem).cons h (Book.mem_ids.mpr ⟨s.contra, a, hmem, rfl⟩)
        simp only [Offer.stamp, Prod.mk.injEq] at hst
        rwa [hst.1, hst.2.2] at this
      rw [hmoment.buyOrderId, hmoment.sellOrderId]
      cases s with
      | bid => exact ⟨⟨_, hincoming⟩, ⟨_, hresting⟩, hmoment.ne.symm⟩
      | ask => exact ⟨⟨_, hresting⟩, ⟨_, hincoming⟩, hmoment.ne⟩

end ExchangeEngine
