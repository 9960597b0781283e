import ExchangeEngine.Tracking
import ExchangeEngine.Ledger
import ExchangeEngine.Lib.Market

/-!
# The Engine Refines a Reference Market

What the exchange is for, said without heap, level lists, index, tracking maps or clock: a book of
offers, each carrying the session that entered it, on which every message performs at most one
request. A session may withdraw or replace the offers that it entered, and the dummy session those
of everybody.

Two simulations make up the refinement. A call into the order book performs the call's request on
the view of the book (`Orderbook.call_refines`), and a message performs the market's request for it
(`Refines.message`). `engine_refines_market` is the induction over runs.

## Main results

* `engine_refines_market`: after every run the engine's book shows the market's book, and the
  trades of the run are the market's deals, in order.
-/

open PriceTime

namespace ExchangeEngine

/-- The side that a value of `BuySell` names. -/
def BuySell.bookSide : BuySell → Side
  | .buy => .bid
  | .sell => .ask
  | .default => .bid

@[simp] theorem bookSide_buySellOf (s : Side) : (buySellOf s).bookSide = s := by
  cases s <;> rfl

/-- The deal that a trade is. -/
def Trade.deal (t : Trade) : Deal OrderId Price where
  buyer := t.buyOrderId
  seller := t.sellOrderId
  price := t.price
  qty := t.quantity.toNat
  full := decide (t.tradeType = .full)

theorem deal_tradeOf (s : Side) (orderId : OrderId) {f : BookFill} (h : f.executed < 2 ^ 32) :
    (tradeOf (buySellOf s) orderId f).deal = f.deal s orderId := by
  have hqty : (UInt32.ofNat f.executed).toNat = f.executed := UInt32.toNat_ofNat_of_lt' h
  cases s with
  | bid =>
      simp only [Trade.deal, tradeOf, Fill.deal, buySellOf, hqty, if_true, reduceCtorEq, if_false]
      split <;> simp_all
  | ask =>
      simp only [Trade.deal, tradeOf, Fill.deal, buySellOf, hqty, if_true, reduceCtorEq, if_false]
      split <;> simp_all

/-- The request that a call into the order book makes of a market. -/
def BookCall.request : BookCall → Request OrderId Price OrderTag
  | .addOrder o => .enter o.buySell.bookSide (!o.isAggressive) o.offer
  | .cancelOrder orderId => .withdraw orderId
  | .modifyOrder orderId newPrice newQuantity => .replace orderId newPrice newQuantity.toNat

namespace Orderbook

variable {b b' : Orderbook} {c : BookCall} {order : OrderPointer} {s : Side}

/-- A LIMIT order trades at prices no worse than its own, a MARKET or IOC order at every price. -/
theorem accepts_eq_trades {o : Order} (hlimit : o.isAggressive = false → o.orderType = .limit)
    (s : Side) : o.accepts (buySellOf s) = s.trades (!o.isAggressive) o.price := by
  funext p
  rw [Bool.eq_iff_iff, Side.trades_iff]
  cases hag : o.isAggressive with
  | true =>
      have htype : o.orderType = .market ∨ o.orderType = .ioc := by
        simpa [Order.isAggressive] using hag
      simp [Order.accepts, priceCrossed, htype]
  | false =>
      have hnot : ¬ (o.orderType = .market ∨ o.orderType = .ioc) := by
        rw [hlimit hag]
        simp
      cases s with
      | bid =>
          simp only [Order.accepts, priceCrossed, hnot, buySellOf, if_true, if_false,
            decide_eq_true_eq, Bool.not_false, forall_const]
          exact Int32.not_lt.symm
      | ask =>
          simp only [Order.accepts, priceCrossed, hnot, buySellOf, reduceCtorEq, if_true,
            if_false, decide_eq_true_eq, Bool.not_false, forall_const]
          exact Int32.not_lt.symm

/-- **Entering `addToBook` enters the offer into the market.** -/
theorem Enters.refines (h : b.Wf) (henters : b.Enters c b' order s)
    (hadded : b'.Added order s (b.call c)) (htrades : b.callTrades c = (b.call c).trades) :
    b'.view.enter s (!(b'.heap.read order).isAggressive) (b'.heap.read order).offer =
      ((b.call c).view, (b.callTrades c).map Trade.deal) := by
  have haccepts := accepts_eq_trades (fun hag => (henters.addable.limit hag).1) s
  have hprice : (b'.heap.read order).offer.price = (b'.heap.read order).price := rfl
  refine Prod.ext ?_ ?_
  · rw [hadded.view, haccepts]
    rfl
  · rw [htrades, hadded.trades, List.map_map]
    have hsweep : b'.sweepBy order s = b'.view.execution s
        (s.trades (!(b'.heap.read order).isAggressive) (b'.heap.read order).price)
        (b'.heap.read order).offer := by
      rw [sweepBy, haccepts]
    change List.map _ (b'.view.execution s _ (b'.heap.read order).offer).fills = _
    rw [hprice, ← hsweep]
    exact List.map_congr_left fun f hf =>
      (deal_tradeOf s (b'.heap.read order).orderId (henters.executed_lt h hf)).symm

/-- A modify that enters no order finds none, or one with the price and quantity asked for. -/
theorem perform_replace_of_not_entering (h : b.Wf) {orderId : OrderId} {newPrice : Price}
    {newQuantity : Quantity}
    (hent : b.entering? (.modifyOrder orderId newPrice newQuantity) = none) :
    b.view.perform (.replace orderId newPrice newQuantity.toNat) = (b.view, []) := by
  have htarget : b.modifyTarget orderId newPrice newQuantity = none :=
    Option.map_eq_none_iff.mp hent
  cases hfind : b.view.find? orderId with
  | none => simp only [Book.perform, hfind]
  | some x =>
      obtain ⟨s, a⟩ := x
      by_cases hmem : orderId ∈ b.view.ids
      · obtain ⟨p, hp, rfl⟩ := mem_ids_view.mp hmem
        obtain ⟨s', hs'⟩ := h.exists_side hp
        have hfound := Book.find?_of_mem (by rw [b.ids_view]; exact h.index.nodup)
          (h.mem_side.mpr ⟨p, hp, hs', rfl⟩)
        have hsame : (b.heap.read p).price = newPrice ∧
            (b.heap.read p).quantity = newQuantity := by
          by_contra hdiff
          have := h.modifyTarget_eq_some.mpr ⟨hp, rfl, hdiff⟩
          rw [htarget] at this
          cases this
        have hfound' : b.view.find? (b.heap.read p).orderId = some (s', (b.heap.read p).offer) :=
          hfound
        simp only [Book.perform, hfound']
        refine if_pos ⟨hsame.1, ?_⟩
        rw [← hsame.2]
        rfl
      · rw [Book.find?_eq_none.mpr hmem] at hfind
        cases hfind

/-- **A call performs its request on the view of the book**, and its trades are the deals. -/
theorem call_refines (h : b.Wf) (hallow : b.Allows c) :
    b.view.perform c.request = ((b.call c).view, (b.callTrades c).map Trade.deal) := by
  rcases call_cases h hallow with ⟨b', order, s, hent, henters, hadded⟩ |
    ⟨orderId, rfl, hent, -, hview⟩ | ⟨orderId, newPrice, newQuantity, rfl, hent, heq⟩
  · have hrefines := henters.refines h hadded (callTrades_of_entering hent)
    rw [← hrefines]
    rcases henters.origin with rfl | ⟨hmem, newPrice, newQuantity, rfl, hread⟩
    · have hview : b'.view = b.view := by
        rw [henters.view]
        exact Book.withdraw_eq_self hallow.2.2.2
      rw [BookCall.request, Book.perform, henters.addable.buySell, bookSide_buySellOf, hview]
    · have hs : (b.heap.read order).buySell = buySellOf s := by
        have := henters.addable.buySell
        rwa [hread] at this
      have hlimit : (b'.heap.read order).isAggressive = false := by
        rw [hread]
        obtain ⟨_, hrest⟩ := h.resting hmem
        simp [Order.isAggressive, Order.setOrderStatus, Order.setQuantity, Order.setPrice,
          hrest.orderType]
      have hfound : b.view.find? (b.heap.read order).orderId =
          some (s, (b.heap.read order).offer) :=
        Book.find?_of_mem (by rw [b.ids_view]; exact h.index.nodup)
          (h.mem_side.mpr ⟨order, hmem, hs, rfl⟩)
      have hdiff : ¬ ((b.heap.read order).offer.price = newPrice ∧
          (b.heap.read order).offer.qty = newQuantity.toNat) := by
        rintro ⟨hprice, hqty⟩
        obtain ⟨p, hp, -⟩ := Option.map_eq_some_iff.mp hent
        obtain ⟨hp', hid, hne⟩ := h.modifyTarget_eq_some.mp hp
        rw [h.index.inj hp' hmem hid] at hne
        exact hne ⟨hprice, UInt32.toNat_inj.mp hqty⟩
      rw [BookCall.request]
      simp only [Book.perform, hfound, if_neg hdiff]
      rw [hlimit, henters.view, hread]
      rfl
  · rw [hview, callTrades, hent]
    rfl
  · rw [heq, callTrades, hent]
    exact perform_replace_of_not_entering h hent

/-- A call for an order that does not rest changes nothing that the view shows. -/
theorem call_of_notMem (h : b.Wf) (hallow : b.Allows c) (hadd : ∀ o, c ≠ .addOrder o)
    (hnot : c.orderId ∉ b.view.ids) : (b.call c).view = b.view ∧ b.callTrades c = [] := by
  have hperform : b.view.perform c.request = (b.view, []) := by
    cases c with
    | addOrder o => exact absurd rfl (hadd o)
    | cancelOrder orderId => exact Prod.ext (Book.withdraw_eq_self hnot) rfl
    | modifyOrder orderId newPrice newQuantity =>
        have hfind : b.view.find? orderId = none := Book.find?_eq_none.mpr hnot
        simp only [BookCall.request, Book.perform, hfind]
  obtain ⟨hview, htrades⟩ := Prod.mk.inj (hperform.symm.trans (call_refines h hallow))
  exact ⟨hview.symm, List.map_eq_nil_iff.mp htrades.symm⟩

/-- **What a call leaves of the sessions of offers**: an offer in the book after a call carries
what it carried before, unless the call adds it. -/
theorem tag_of_mem_call (h : b.Wf) (hallow : b.Allows c) {t : Side} {a : BookOffer}
    (ha : a ∈ (b.call c).view.side t) :
    (∃ o, c = .addOrder o ∧ a.id = o.orderId ∧ a.tag = o.offer.tag) ∨
      ∃ a' ∈ b.view.side t, a'.id = a.id ∧ a'.tag = a.tag := by
  rcases call_cases h hallow with ⟨b', order, s, -, henters, hadded⟩ |
    ⟨orderId, -, -, -, hview⟩ | ⟨-, -, -, -, -, heq⟩
  · rw [hadded.view] at ha
    rcases Book.mem_side_submit ha with ⟨rfl, -, rfl⟩ | ⟨a', ha', hstamp⟩
    · rcases henters.origin with hc | ⟨hmem, newPrice, newQuantity, hc, hread⟩
      · exact Or.inl ⟨_, hc, rfl, rfl⟩
      · have hs : (b.heap.read order).buySell = buySellOf t := by
          have := henters.addable.buySell
          rwa [hread] at this
        refine Or.inr ⟨(b.heap.read order).offer, h.mem_side.mpr ⟨order, hmem, hs, rfl⟩, ?_⟩
        rw [hread]
        exact ⟨rfl, rfl⟩
    · rw [henters.view, Book.side_withdraw] at ha'
      exact Or.inr ⟨a', List.mem_of_mem_filter ha', congrArg Prod.fst hstamp,
        congrArg (fun x => x.2.2) hstamp⟩
  · rw [hview, Book.side_withdraw] at ha
    exact Or.inr ⟨a, List.mem_of_mem_filter ha, rfl, rfl⟩
  · rw [heq] at ha
    exact Or.inr ⟨a, ha, rfl, rfl⟩

end Orderbook

/-! ### Messages -/

/-- **The reference market of the exchange**: a book of offers, each with the session that entered
it, and the identity of the next one. -/
structure Market where
  book : Book OrderId Price SessionId
  nextOrderId : OrderId

namespace Market

/-- Whether a session may withdraw or replace an offer: it rests, and it is the session's own
unless the session is the dummy session. -/
def controls (m : Market) (sessionId : SessionId) (orderId : OrderId) : Bool :=
  match m.book.find? orderId with
  | none => false
  | some (_, o) => decide (o.tag = sessionId ∨ sessionId = DUMMY_SESSION_ID)

/-- The request that a message makes of the market, if it makes one: a valid new order enters under
the next identity, LIMIT orders to rest and the others not, and a session that controls an offer
can withdraw it, or replace it at a positive price and quantity. -/
def request? (m : Market) (msg : InboundMessage) : Option (Request OrderId Price SessionId) :=
  match msg.body with
  | .newOrder request =>
      match MatchingEngine.checkNewOrder request with
      | .error _ => none
      | .ok (side, orderType) =>
          some (.enter side.bookSide (decide (orderType = .limit))
            ⟨m.nextOrderId, request.price, request.quantity.toNat, msg.sessionId⟩)
  | .cancelOrder request =>
      if m.controls msg.sessionId request.orderId then some (.withdraw request.orderId) else none
  | .modifyOrder request =>
      if m.controls msg.sessionId request.orderId ∧ 0 < request.newPrice ∧
          request.newQuantity ≠ 0 then
        some (.replace request.orderId request.newPrice request.newQuantity.toNat)
      else none

/-- What a message does to the market, and the deals that follow. -/
def processMessage (m : Market) (msg : InboundMessage) : Market × List (Deal OrderId Price) :=
  let nextOrderId :=
    if MatchingEngine.isAccepted msg then m.nextOrderId + 1 else m.nextOrderId
  match m.request? msg with
  | none => ({ m with nextOrderId }, [])
  | some request => (⟨(m.book.perform request).1, nextOrderId⟩, (m.book.perform request).2)

/-- What an input does to the market: a message, or the withdrawal of a set of offers. -/
def apply (m : Market) : Input → Market × List (Deal OrderId Price)
  | .message msg => m.processMessage msg
  | .cancelSession _ orderIds => ({ m with book := orderIds.foldl Book.withdraw m.book }, [])

end Market

/-- The market after a history of inputs. -/
def marketAfter : List Input → Market
  | [] => ⟨⟨[], []⟩, 1⟩
  | input :: past => ((marketAfter past).apply input).1

/-- The deals of a history, oldest first. -/
def marketDeals : List Input → List (Deal OrderId Price)
  | [] => []
  | input :: past => marketDeals past ++ ((marketAfter past).apply input).2

/-- The trades that an input executes in the book. -/
def MatchingEngine.inputTrades (e : MatchingEngine) : Input → List Trade
  | .message msg => e.stepTrades msg
  | .cancelSession _ _ => []

/-- The trades of a run, oldest first. -/
def tradesOfRun (symbol : List UInt8) (clock : ℕ → Timestamp) : List Input → List Trade
  | [] => []
  | input :: past =>
      tradesOfRun symbol clock past ++ (run symbol clock past).inputTrades input

/-- The view of a book, with the sessions that entered the offers. -/
def Orderbook.ownedView (b : Orderbook) : Book OrderId Price SessionId :=
  b.view.mapTag OrderTag.sessionId

/-- **The simulation relation**: the book shows the market's book, order ids agree, and every
resting order is tracked under the session that its offer carries. -/
structure Refines (e : MatchingEngine) (m : Market) : Prop where
  book : e.orderbook.ownedView = m.book
  nextOrderId : e.nextOrderId = m.nextOrderId
  tracked : ∀ s, ∀ a ∈ e.orderbook.view.side s,
    e.orderToSession.lookup a.id = some a.tag.sessionId

namespace Refines

variable {e : MatchingEngine} {m : Market} {msg : InboundMessage}

/-- The market lets a session change an offer exactly when the engine lets it and the order
rests. -/
theorem controls_iff (h : Refines e m) (hwf : e.orderbook.Wf) {sessionId : SessionId}
    {orderId : OrderId} :
    m.controls sessionId orderId = true ↔
      (∃ owner, e.authorize sessionId orderId = some owner) ∧
        orderId ∈ e.orderbook.view.ids := by
  rw [Market.controls, ← h.book, Orderbook.ownedView, Book.find?_mapTag]
  by_cases hmem : orderId ∈ e.orderbook.view.ids
  · obtain ⟨s, a, ha, rfl⟩ := Book.mem_ids.mp hmem
    have hfound := Book.find?_of_mem (by rw [e.orderbook.ids_view]; exact hwf.index.nodup) ha
    have hsession := h.tracked s a ha
    simp only [hfound, Option.map_some, MatchingEngine.authorize, hsession, hmem, and_true,
      Offer.mapTag, decide_eq_true_eq]
    constructor
    · intro hmay
      refine ⟨a.tag.sessionId, if_neg ?_⟩
      rintro ⟨hne, hdummy⟩
      exact hmay.elim hne hdummy
    · rintro ⟨owner, howner⟩
      by_contra hnot
      rw [if_pos (not_or.mp hnot)] at howner
      cases howner
  · simp [Book.find?_eq_none.mpr hmem, hmem]

/-- The call that a message makes, as the market's request. -/
theorem request?_of_call (h : Refines e m) (hwf : e.orderbook.Wf) {c : BookCall}
    (hcall : e.bookCall? msg = some c) :
    m.request? msg = some (c.request.mapTag OrderTag.sessionId) ∨
      m.request? msg = none ∧ c.orderId ∉ e.orderbook.view.ids ∧
        MatchingEngine.isAccepted msg = false := by
  cases e.handled msg with
  | newRejected request reason _ _ call => rw [call] at hcall; cases hcall
  | cancelRejected request _ _ call => rw [call] at hcall; cases hcall
  | modifyRejected request reason _ _ call => rw [call] at hcall; cases hcall
  | newAccepted request side orderType body check call =>
      rw [call] at hcall
      obtain rfl := Option.some.inj hcall
      obtain ⟨-, -, htype, -, -⟩ := MatchingEngine.checkNewOrder_eq_ok check
      have hrests : (!(e.newOrder msg.sessionId request side orderType).isAggressive) =
          decide (orderType = .limit) := by
        rcases htype with rfl | rfl | rfl <;> rfl
      refine Or.inl ?_
      simp only [Market.request?, body, check, BookCall.request, hrests, Request.mapTag,
        ← h.nextOrderId]
      rfl
  | cancelled request owner body auth call accepted =>
      rw [call] at hcall
      obtain rfl := Option.some.inj hcall
      have hcontrols : m.controls msg.sessionId request.orderId = true ↔ _ := h.controls_iff hwf
      simp only [Market.request?, body]
      by_cases hmem : request.orderId ∈ e.orderbook.view.ids
      · exact Or.inl (if_pos (hcontrols.mpr ⟨⟨owner, auth⟩, hmem⟩))
      · exact Or.inr ⟨if_neg fun hc => hmem (hcontrols.mp hc).2, hmem, accepted⟩
  | modified request body check call accepted =>
      rw [call] at hcall
      obtain rfl := Option.some.inj hcall
      obtain ⟨hauth, hprice, hqty⟩ := MatchingEngine.checkModifyOrder_eq_none check
      have hcontrols : m.controls msg.sessionId request.orderId = true ↔ _ := h.controls_iff hwf
      simp only [Market.request?, body]
      by_cases hmem : request.orderId ∈ e.orderbook.view.ids
      · exact Or.inl (if_pos ⟨hcontrols.mpr ⟨hauth, hmem⟩, hprice, hqty⟩)
      · exact Or.inr ⟨if_neg fun hc => hmem (hcontrols.mp hc.1).2, hmem, accepted⟩

/-- A message that makes no call makes no request. -/
theorem request?_of_no_call (h : Refines e m) (hwf : e.orderbook.Wf)
    (hcall : e.bookCall? msg = none) : m.request? msg = none := by
  cases e.handled msg with
  | newAccepted request side orderType _ _ call => rw [call] at hcall; cases hcall
  | cancelled request owner _ _ call => rw [call] at hcall; cases hcall
  | modified request _ _ call => rw [call] at hcall; cases hcall
  | newRejected request reason body check => simp only [Market.request?, body, check]
  | cancelRejected request body auth =>
      simp only [Market.request?, body]
      refine if_neg fun hc => ?_
      obtain ⟨⟨owner, howner⟩, -⟩ := (h.controls_iff hwf).mp hc
      rw [auth] at howner
      cases howner
  | modifyRejected request reason body check =>
      simp only [Market.request?, body]
      refine if_neg ?_
      rintro ⟨hc, hprice, hqty⟩
      obtain ⟨⟨owner, howner⟩, -⟩ := (h.controls_iff hwf).mp hc
      simp [MatchingEngine.checkModifyOrder, howner, Int32.not_le.mpr hprice, hqty] at check

/-- What rested before a message and still rests after it is tracked as before, if the tracking
is. -/
theorem tracked_of_old (h : Refines e m) (hwf : e.orderbook.Wf)
    (hallow : ∀ c, e.bookCall? msg = some c → e.orderbook.Allows c) {s : Side} {a : BookOffer}
    (ha : a ∈ (e.processInboundMessage msg).orderbook.view.side s) :
    (∃ o, e.bookCall? msg = some (.addOrder o) ∧ a.id = o.orderId ∧ a.tag = o.offer.tag) ∨
      a.id ∈ e.orderbook.view.ids ∧ e.orderToSession.lookup a.id = some a.tag.sessionId := by
  cases hcall : e.bookCall? msg with
  | none =>
      rw [MatchingEngine.orderbook_of_no_call hcall] at ha
      exact Or.inr ⟨Book.mem_ids.mpr ⟨s, a, ha, rfl⟩, h.tracked s a ha⟩
  | some c =>
      rw [MatchingEngine.orderbook_of_call hcall] at ha
      rcases Orderbook.tag_of_mem_call hwf (hallow c hcall) ha with ⟨o, rfl, hid, htag⟩ |
        ⟨a', ha', hid, htag⟩
      · exact Or.inl ⟨o, rfl, hid, htag⟩
      · rw [← hid, ← htag]
        exact Or.inr ⟨Book.mem_ids.mpr ⟨s, a', ha', rfl⟩, h.tracked s a' ha'⟩

/-- **A message keeps the tracking of what rests.** -/
theorem tracked_message (h : Refines e m) (hwf : e.orderbook.Wf)
    (hallow : ∀ c, e.bookCall? msg = some c → e.orderbook.Allows c) {s : Side} {a : BookOffer}
    (ha : a ∈ (e.processInboundMessage msg).orderbook.view.side s) :
    (e.processInboundMessage msg).orderToSession.lookup a.id = some a.tag.sessionId := by
  have hids : a.id ∈ (e.processInboundMessage msg).orderbook.view.ids :=
    Book.mem_ids.mpr ⟨s, a, ha, rfl⟩
  have hold := h.tracked_of_old hwf hallow ha
  cases MatchingEngine.tracks hwf hallow with
  | entered request body accepted lookup =>
      rcases hold with ⟨o, hcall, hid, htag⟩ | ⟨hmem, hold⟩
      · obtain ⟨-, request, side, orderType, -, -, rfl⟩ :=
          MatchingEngine.bookCall_addOrder hcall
        have hid' : a.id = e.nextOrderId := hid
        rw [lookup, if_pos hid', if_pos hids, htag]
        rfl
      · have hne : a.id ≠ e.nextOrderId := by
          intro heq
          cases e.handled msg with
          | newAccepted request side orderType _ _ call =>
              rw [heq] at hmem
              exact (hallow _ call).2.2.2 hmem
          | newRejected _ _ _ _ _ acc => rw [accepted] at acc; cases acc
          | cancelRejected _ _ _ _ acc => rw [accepted] at acc; cases acc
          | cancelled _ _ _ _ _ acc => rw [accepted] at acc; cases acc
          | modifyRejected _ _ _ _ _ acc => rw [accepted] at acc; cases acc
          | modified _ _ _ _ acc => rw [accepted] at acc; cases acc
        rw [lookup, if_neg hne, hold]
  | dropped orderId call accepted lookup =>
      have hgone : a.id ≠ orderId := by
        rw [MatchingEngine.orderbook_of_call call] at hids
        rw [show (e.orderbook.call (.cancelOrder orderId)).view = e.orderbook.view.withdraw orderId
          from (Orderbook.cancelOrder_spec hwf orderId).2.1] at hids
        exact (Book.mem_ids_withdraw.mp hids).2
      rw [lookup, if_neg hgone]
      rcases hold with ⟨o, hcall, -⟩ | ⟨-, hold⟩
      · rw [call] at hcall
        cases hcall
      · exact hold
  | kept _ accepted map =>
      rw [map]
      rcases hold with ⟨o, hcall, -⟩ | ⟨-, hold⟩
      · rw [(MatchingEngine.bookCall_addOrder hcall).1] at accepted
        cases accepted
      · exact hold

/-- **A message performs the market's request for it**, and its trades are the deals. -/
theorem message (h : Refines e m) (hwf : e.orderbook.Wf)
    (hallow : ∀ c, e.bookCall? msg = some c → e.orderbook.Allows c) :
    Refines (e.processInboundMessage msg) (m.processMessage msg).1 ∧
      (m.processMessage msg).2 = (e.stepTrades msg).map Trade.deal := by
  have hbook : (m.processMessage msg).1.book =
      (e.processInboundMessage msg).orderbook.ownedView ∧
      (m.processMessage msg).2 = (e.stepTrades msg).map Trade.deal := by
    rw [Market.processMessage, MatchingEngine.stepTrades]
    cases hcall : e.bookCall? msg with
    | none =>
        rw [h.request?_of_no_call hwf hcall, MatchingEngine.orderbook_of_no_call hcall]
        exact ⟨h.book.symm, rfl⟩
    | some c =>
        rw [MatchingEngine.orderbook_of_call hcall]
        rcases h.request?_of_call hwf hcall with hrequest | ⟨hrequest, hnot, hacc⟩
        · have hperform := Orderbook.call_refines hwf (hallow c hcall)
          have htagged := Book.perform_mapTag OrderTag.sessionId e.orderbook.view c.request
          rw [hperform] at htagged
          have hm : m.book = e.orderbook.view.mapTag OrderTag.sessionId := h.book.symm
          simp only [hrequest, hm, htagged]
          exact ⟨rfl, trivial⟩
        · have hadd : ∀ o, c ≠ .addOrder o := by
            rintro o rfl
            rw [(MatchingEngine.bookCall_addOrder hcall).1] at hacc
            cases hacc
          obtain ⟨hview, htrades⟩ := Orderbook.call_of_notMem hwf (hallow c hcall) hadd hnot
          simp only [hrequest, htrades, Orderbook.ownedView, hview]
          exact ⟨h.book.symm, rfl⟩
  refine ⟨⟨hbook.1.symm, ?_, fun s a ha => h.tracked_message hwf hallow ha⟩, hbook.2⟩
  rw [MatchingEngine.nextOrderId_processInboundMessage, h.nextOrderId, Market.processMessage]
  cases m.request? msg with
  | none => rfl
  | some request => rfl

/-- **A bulk cancel withdraws the offers** that it names. -/
theorem cancelSession (h : Refines e m) (hwf : e.orderbook.Wf) (sessionId : SessionId)
    (orderIds : List OrderId) :
    Refines (e.cancelSessionOrders sessionId orderIds)
      { m with book := orderIds.foldl Book.withdraw m.book } := by
  have hfold : ∀ (ids : List OrderId) {e : MatchingEngine} {m : Market}, e.orderbook.Wf →
      Refines e m → Refines (ids.foldl MatchingEngine.cancelForSession e)
        { m with book := ids.foldl Book.withdraw m.book } := by
    intro ids
    induction ids with
    | nil => exact fun _ h => h
    | cons i ids ih =>
        intro e m hwf h
        obtain ⟨hwf', hview, -, -⟩ := Orderbook.cancelOrder_spec hwf i
        refine ih (e := e.cancelForSession i) (m := { m with book := m.book.withdraw i }) hwf'
          ⟨?_, h.nextOrderId, fun s a ha => ?_⟩
        · rw [← h.book]
          change (e.orderbook.cancelOrder i).view.mapTag _ = _
          rw [hview]
          exact (Book.withdraw_mapTag OrderTag.sessionId e.orderbook.view i).symm
        · change a ∈ (e.orderbook.cancelOrder i).view.side s at ha
          rw [hview, Book.side_withdraw] at ha
          obtain ⟨ha, hne⟩ := List.mem_filter.mp ha
          have hne' : a.id ≠ i := by simpa using hne
          change (e.orderToSession.erase i).lookup a.id = _
          rw [UnorderedMap.lookup_erase_ite, if_neg hne']
          exact h.tracked s a ha
  have hdone := hfold orderIds hwf h
  rw [MatchingEngine.cancelSessionOrders]
  split
  · exact ⟨hdone.book, hdone.nextOrderId, hdone.tracked⟩
  · exact ⟨hdone.book, hdone.nextOrderId, hdone.tracked⟩

end Refines

/-- **The engine refines the reference market.** After every run in which no order id is given out
twice, the book shows the market's book under the sessions that entered the offers, the next order
id is the market's, and the trades executed in the run are the market's deals, in order. -/
theorem engine_refines_market (symbol : List UInt8) (clock : ℕ → Timestamp) (past : List Input)
    (h : acceptedCount past < 2 ^ 64) :
    Refines (run symbol clock past) (marketAfter past) ∧
      (tradesOfRun symbol clock past).map Trade.deal = marketDeals past := by
  induction past with
  | nil =>
      refine ⟨⟨rfl, rfl, fun s a ha => ?_⟩, rfl⟩
      cases s <;> cases ha
  | cons input past ih =>
      have hcount : acceptedCount (input :: past) =
          acceptedCount past + if input.isAccepted then 1 else 0 :=
        List.countP_cons ..
      have hpast : acceptedCount past < 2 ^ 64 := by omega
      obtain ⟨hrefines, htrades⟩ := ih hpast
      have hinv := run_inv symbol clock past hpast
      rw [tradesOfRun, marketDeals, List.map_append, htrades]
      cases input with
      | message msg =>
          obtain ⟨hstep, hdeals⟩ := hrefines.message hinv.book.wf
            fun c hcall => hinv.allows (hcount ▸ h) hcall
          exact ⟨hstep, congrArg (marketDeals past ++ ·) hdeals.symm⟩
      | cancelSession sessionId orderIds =>
          exact ⟨hrefines.cancelSession hinv.book.wf sessionId orderIds, rfl⟩

/-- A run in which an order of session 1 trades, is replaced across the spread by its session, and
is not cancelled by another one, before session 2 disconnects. -/
def replacedRun : List Input :=
  [.cancelSession 2 [2], .message (cancelOrderMessage 2 1),
    .message (modifyOrderMessage 1 1 100 5), .message (limitOrderMessage 2 .buy 100 3),
    .message (newOrderMessage 3 .buy 3 0 2), .message (limitOrderMessage 1 .sell 105 4)]

theorem engine_refines_market_replacedRun :
    Refines (run [] (fun _ => 0) replacedRun) (marketAfter replacedRun) ∧
      (tradesOfRun [] (fun _ => 0) replacedRun).map Trade.deal = marketDeals replacedRun :=
  engine_refines_market [] (fun _ => 0) replacedRun (by decide)

example : marketDeals replacedRun = [⟨2, 1, 105, 2, false⟩, ⟨3, 1, 100, 3, false⟩] := by
  decide

end ExchangeEngine
