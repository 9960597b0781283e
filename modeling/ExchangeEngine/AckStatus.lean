import ExchangeEngine.Ledger
import ExchangeEngine.Responses
import ExchangeEngine.Sides
import ExchangeEngine.Tracking
import ExchangeEngine.TrackingBounds
import ExchangeEngine.Unmatched

/-!
# What an Acknowledgement Says

The status in an `OrderAck` and the quantity that the request executed determine each other, and
together they tell whether the new order rests. `settleOrder` decides the outcome by a cascade of
early returns; `status_addOrder` is the cascade in terms of the executed quantity.

## Main results

* `ack_truthful`: in every run in which fewer than `2 ^ 64` orders are accepted, the status
  tells the truth, and the order rests and is tracked exactly when the status says so.
* `not_ackTruthful_reusedIdRun`: after `2 ^ 64` accepted orders a MARKET order is acknowledged as
  cancelled while an order with its id rests in the book.
-/

open PriceTime

namespace ExchangeEngine

/-- The quantity that a list of trades executes. -/
def totalQuantity (trades : List Trade) : ℕ :=
  (trades.map fun t => t.quantity.toNat).sum

theorem totalQuantity_fills {side : BuySell} {orderId : OrderId} {fs : List BookFill}
    (hqty : ∀ f ∈ fs, f.executed < 2 ^ 32) :
    totalQuantity (fs.map (tradeOf side orderId)) = (fs.map Fill.executed).sum := by
  rw [totalQuantity, List.map_map]
  refine congrArg List.sum (List.map_congr_left fun f hf => ?_)
  exact UInt32.toNat_ofNat_of_lt' (hqty f hf)

/-- The status with which `settleOrder` leaves an order that has not been modified before. -/
theorem Order.orderStatus_settled {o : Order} (hnew : o.orderStatus ≠ .modify)
    {originalQuantity : Quantity} (horig : originalQuantity ≠ 0) (remaining : Quantity) :
    (o.settled originalQuantity remaining).orderStatus =
      if remaining = 0 then .traded
      else if o.isAggressive then .cancelled
      else if remaining < originalQuantity then .modify
      else .new := by
  have hfull : (remaining = 0 ∧ 0 < originalQuantity) ↔ remaining = 0 :=
    and_iff_left (Quantity.pos_iff.mpr horig)
  have haggr : (o.setQuantity remaining).isAggressive = o.isAggressive := rfl
  have hstatus : (o.setQuantity remaining).orderStatus ≠ .modify := hnew
  simp only [Order.settled, hfull, haggr, if_pos hstatus]
  split
  · rfl
  split
  · rfl
  split <;> rfl

namespace Orderbook

variable {b : Orderbook} {o : Order}

/-- **The outcome of adding an order** in terms of the quantity it executed: its status, and
whether and how it rests. -/
structure Outcome (b : Orderbook) (o : Order) (executed : ℕ) : Prop where
  le : executed ≤ o.quantity.toNat
  status : ((b.call (.addOrder o)).heap.read b.heap.next).orderStatus =
    if executed = o.quantity.toNat then .traded
    else if o.isAggressive then .cancelled
    else if 0 < executed then .modify
    else .new
  rests : o.isAggressive = false → executed < o.quantity.toNat → ∃ s, o.buySell = buySellOf s ∧
    ∃ p, (b.call (.addOrder o)).RestsAs o.orderId s o.price (o.quantity.toNat - executed) p
  gone : o.isAggressive = true ∨ executed = o.quantity.toNat →
    (b.call (.addOrder o)).Gone o.orderId

/-- What a call executes, in terms of the sweep of its order. -/
theorem Wf.totalQuantity_callTrades (h : b.Wf) {c : BookCall} {b' : Orderbook}
    {order : OrderPointer} {s : Side} (hent : b.entering? c = some (b', order))
    (henters : b.Enters c b' order s) (hadded : b'.Added order s (b.call c)) :
    totalQuantity (b.callTrades c) = ((b'.sweepBy order s).fills.map Fill.executed).sum := by
  rw [callTrades_of_entering hent, hadded.trades]
  exact totalQuantity_fills fun f hf => henters.executed_lt h hf

/-- What an accepted order is left as: filled, cancelled, or resting with what the other side did
not take. -/
theorem outcome_addOrder (h : b.Wf) (hallow : b.Allows (.addOrder o))
    (hnew : o.orderStatus = .new) : b.Outcome o (totalQuantity (b.callTrades (.addOrder o))) := by
  obtain ⟨s, henters⟩ := enters_addOrder h hallow
  have hadded := addToBook_spec henters.detached henters.addable
  have hread : (b.allocOrder o).heap.read b.heap.next = o := b.heap.read_alloc_next o
  have htrades := h.totalQuantity_callTrades rfl henters hadded
  have htotal := sweepBy_total henters
  rw [← htrades, show (BookCall.addOrder o).quantity = o.quantity from rfl] at htotal
  have hresult := hadded.read
  have hview := hadded.view
  rw [hread] at hresult hview
  have hquantity := hallow.2.1
  have hidnew : o.offer.id ∉ (b.allocOrder o).view.ids := by
    have hid := henters.detached.id_notMem
    rw [hread] at hid
    exact hid
  have hside : o.buySell = buySellOf s := hread ▸ henters.addable.buySell
  have hleft : (b.allocOrder o).view.execution s (o.accepts (buySellOf s)) o.offer =
      (b.allocOrder o).sweepBy b.heap.next s := by
    rw [sweepBy, hread]
  refine ⟨by omega, ?_, fun hag hlt => ⟨s, hside, ?_⟩, fun hclosed => ?_⟩
  · have hrem := hadded.remaining
    rw [show (b.call (.addOrder o)).heap.read b.heap.next = _ from hresult, ← hrem,
      UInt32.ofNat_toNat, Order.orderStatus_settled (by rw [hnew]; decide) hquantity]
    generalize ({ b.allocOrder o with trades := [] }.matchContra b.heap.next).2 = remaining at hrem
    have hzero : remaining = 0 ↔ totalQuantity (b.callTrades (.addOrder o)) = o.quantity.toNat := by
      rw [← UInt32.toNat_inj, UInt32.toNat_zero, hrem]
      omega
    have hlt : remaining < o.quantity ↔ 0 < totalQuantity (b.callTrades (.addOrder o)) := by
      rw [UInt32.lt_iff_toNat_lt, hrem]
      omega
    simp only [hzero, hlt]
  · have hmem : { o.offer with qty := ((b.allocOrder o).sweepBy b.heap.next s).left } ∈
        (b.call (.addOrder o)).view.side s := by
      rw [show (b.call (.addOrder o)).view = _ from hview, Book.side_submit, hleft,
        if_pos ⟨by simp [hag], by omega⟩]
      exact mem_enqueue.mpr (Or.inl rfl)
    have hrests := hadded.wf.restsAs hmem
    rw [show o.quantity.toNat - totalQuantity (b.callTrades (.addOrder o)) =
      ((b.allocOrder o).sweepBy b.heap.next s).left by omega]
    exact hrests
  · refine hadded.wf.gone_iff.mpr ?_
    rw [hview]
    refine fun hmem => ?_
    obtain ⟨hkeep, hne⟩ := (Book.mem_ids_submit_own hidnew).mp hmem
    rw [hleft] at hne
    rcases hclosed with hag | hfull
    · simp [hag] at hkeep
    · omega

end Orderbook

/-! ### The acknowledgement -/

namespace MatchingEngine

/-- All three tracking maps have the order, under its session and the client's id. -/
structure TrackedAs (e : MatchingEngine) (orderId : OrderId) (sessionId : SessionId)
    (clientOrderId : ClientOrderId) : Prop where
  orders : orderId ∈ (e.sessionOrders.lookup sessionId).getD ∅
  session : e.orderToSession.lookup orderId = some sessionId
  client : e.orderToClientOrderId.lookup orderId = some clientOrderId

/-- No tracking map has the order. -/
structure Untracked (e : MatchingEngine) (orderId : OrderId) : Prop where
  orders : ∀ s, orderId ∉ (e.sessionOrders.lookup s).getD ∅
  session : e.orderToSession.lookup orderId = none
  client : e.orderToClientOrderId.lookup orderId = none

theorem TrackedAs.of_core {e e' : MatchingEngine} {orderId : OrderId} {sessionId : SessionId}
    {clientOrderId : ClientOrderId} (h : e.TrackedAs orderId sessionId clientOrderId)
    (hcore : e'.core = e.core) : e'.TrackedAs orderId sessionId clientOrderId := by
  obtain ⟨hsession, hclient, horders⟩ := maps_of_core hcore
  exact ⟨horders ▸ h.orders, hsession ▸ h.session, hclient ▸ h.client⟩

theorem Untracked.of_core {e e' : MatchingEngine} {orderId : OrderId} (h : e.Untracked orderId)
    (hcore : e'.core = e.core) : e'.Untracked orderId := by
  obtain ⟨hsession, hclient, horders⟩ := maps_of_core hcore
  exact ⟨horders ▸ h.orders, hsession ▸ h.session, hclient ▸ h.client⟩

/-- **The tracking of a new order** after its request: that of an order which rests, or none. -/
theorem tracking_acceptNewOrder {e : MatchingEngine} {n : ℕ} (h : TrackedBelow e n)
    (hnext : n < e.nextOrderId.toNat) (hwf : e.orderbook.Wf) {sessionId : SessionId}
    {request : NewOrderRequest} {side : BuySell} {orderType : OrderType}
    (hallow : e.orderbook.Allows (.addOrder (e.newOrder sessionId request side orderType))) :
    let e' := e.acceptNewOrder sessionId request side orderType
    (e.nextOrderId ∈ e'.orderbook.view.ids →
      e'.TrackedAs e.nextOrderId sessionId request.clientOrderId) ∧
    (e.nextOrderId ∉ e'.orderbook.view.ids → e'.Untracked e.nextOrderId) := by
  intro e'
  have hclosed := Orderbook.closed_addOrder_iff hwf hallow
  have hcore := e.core_acceptNewOrder sessionId request side orderType
  have hbook : e'.orderbook = _ := e.orderbook_acceptNewOrder sessionId request side orderType
  rw [← hbook, show (e.newOrder sessionId request side orderType).orderId = e.nextOrderId
    from rfl] at hclosed
  rw [← orderbook_enterOrder] at hbook
  simp only [← hbook, if_congr hclosed rfl rfl] at hcore
  refine ⟨fun hmem => ?_, fun hnot => ?_⟩
  · rw [if_neg fun hnot => hnot hmem] at hcore
    refine TrackedAs.of_core (e := e.enterOrder sessionId request side orderType)
      ⟨?_, Finmap.lookup_insert _, Finmap.lookup_insert _⟩ hcore
    simp [enterOrder, registerOrder, trackOrder]
  · rw [if_pos hnot] at hcore
    refine Untracked.of_core (e := (e.enterOrder sessionId request side orderType).untrackOrder
      sessionId e.nextOrderId) ⟨fun s hs => ?_, Finmap.lookup_erase _ _, Finmap.lookup_erase _ _⟩
      hcore
    -- the id is erased from the session's set, and no other set has it
    simp only [untrackOrder, UnorderedMap.lookup_insert_ite] at hs
    split at hs
    · exact Finset.notMem_erase _ _ hs
    · rename_i hne
      simp only [enterOrder, registerOrder, trackOrder, UnorderedMap.lookup_insert_ite,
        if_neg hne] at hs
      exact absurd (h.orders s _ hs) (Nat.not_le.mpr hnext)

/-- The quantity that a message executes. -/
def executedBy (e : MatchingEngine) (msg : InboundMessage) : ℕ :=
  totalQuantity (e.stepTrades msg)

/-- **A truthful acknowledgement** of an accepted request: the status says what was executed, and
the order rests on its side and price with the rest of its quantity, and is tracked, exactly when
the status is MODIFY or NEW. -/
structure AckTruthful (e : MatchingEngine) (msg : InboundMessage) (request : NewOrderRequest)
    (side : BuySell) (orderType : OrderType) (ack : OrderAck) : Prop where
  sent : ∃ reports : List OutboundMessage, (∀ m ∈ reports, m.body.isAnswer = false) ∧
    (e.processInboundMessage msg).outboundQueue =
      e.outboundQueue ++ (reports ++ [⟨msg.sessionId, .orderAck ack⟩])
  orderId : ack.orderId = e.nextOrderId
  traded : ack.status = OrderStatus.traded.toUInt8 ↔ e.executedBy msg = request.quantity.toNat
  cancelled : ack.status = OrderStatus.cancelled.toUInt8 ↔
    (orderType = .market ∨ orderType = .ioc) ∧ e.executedBy msg < request.quantity.toNat
  modify : ack.status = OrderStatus.modify.toUInt8 ↔
    orderType = .limit ∧ 0 < e.executedBy msg ∧ e.executedBy msg < request.quantity.toNat
  new : ack.status = OrderStatus.new.toUInt8 ↔ orderType = .limit ∧ e.executedBy msg = 0
  rests : ack.status = OrderStatus.modify.toUInt8 ∨ ack.status = OrderStatus.new.toUInt8 →
    ∃ s p, side = buySellOf s ∧
      (e.processInboundMessage msg).orderbook.RestsAs e.nextOrderId s request.price
        (request.quantity.toNat - e.executedBy msg) p ∧
      (e.processInboundMessage msg).TrackedAs e.nextOrderId msg.sessionId request.clientOrderId
  gone : ¬ (ack.status = OrderStatus.modify.toUInt8 ∨ ack.status = OrderStatus.new.toUInt8) →
    (e.processInboundMessage msg).orderbook.Gone e.nextOrderId ∧
      (e.processInboundMessage msg).Untracked e.nextOrderId

/-- The four statuses of an acknowledgement, told apart by what was executed. -/
theorem status_cases {orderType : OrderType} {executed quantity : ℕ}
    (htype : orderType = .limit ∨ orderType = .market ∨ orderType = .ioc)
    (hquantity : 0 < quantity) (hle : executed ≤ quantity) {status : OrderStatus}
    (hstatus : status =
      if executed = quantity then .traded
      else if orderType == .market || orderType == .ioc then .cancelled
      else if 0 < executed then .modify
      else .new) :
    (status = .traded ↔ executed = quantity) ∧
    (status = .cancelled ↔ (orderType = .market ∨ orderType = .ioc) ∧ executed < quantity) ∧
    (status = .modify ↔ orderType = .limit ∧ 0 < executed ∧ executed < quantity) ∧
    (status = .new ↔ orderType = .limit ∧ executed = 0) := by
  by_cases hfull : executed = quantity
  · rw [hstatus, if_pos hfull]
    simp [hfull, Nat.pos_iff_ne_zero.mp hquantity]
  have hlt : executed < quantity := Nat.lt_of_le_of_ne hle hfull
  rw [hstatus, if_neg hfull]
  rcases htype with rfl | rfl | rfl
  · by_cases hpos : 0 < executed
    · simp [hfull, hlt, hpos, Nat.pos_iff_ne_zero.mp hpos]
    · simp [Nat.eq_zero_of_not_pos hpos, (Nat.pos_iff_ne_zero.mp hquantity).symm]
  · simp [hfull, hlt]
  · simp [hfull, hlt]

theorem toUInt8_inj {status status' : OrderStatus} :
    status.toUInt8 = status'.toUInt8 ↔ status = status' := by
  cases status <;> cases status' <;> decide

/-- **An accepted request is acknowledged truthfully** in a state that keeps the invariants of
runs and has ids to give out. -/
theorem exists_ackTruthful {e : MatchingEngine} {n : ℕ} (hinv : EngineInv e n)
    (hbelow : TrackedBelow e n) (hn : n + 1 < 2 ^ 64) {msg : InboundMessage}
    {request : NewOrderRequest} {side : BuySell} {orderType : OrderType}
    (hbody : msg.body = .newOrder request)
    (hcheck : checkNewOrder request = .ok (side, orderType)) :
    ∃ ack, e.AckTruthful msg request side orderType ack := by
  let o := e.newOrder msg.sessionId request side orderType
  have hcall : e.bookCall? msg = some (.addOrder o) := by
    simp only [bookCall?, hbody, hcheck]
    rfl
  have hwf := hinv.book.wf
  have hallow : e.orderbook.Allows (.addOrder o) :=
    allows_bookCall (fun _ => hinv.nextOrderId_notMem hn) hcall
  have hbook : (e.processInboundMessage msg).orderbook = e.orderbook.call (.addOrder o) :=
    orderbook_of_call hcall
  have hresult : e.processInboundMessage msg =
      e.countOrder.acceptNewOrder msg.sessionId request side orderType := by
    simp only [processInboundMessage, hbody, handleNewOrder, hcheck]
    rfl
  obtain ⟨-, -, htype, hqty, -⟩ := checkNewOrder_eq_ok hcheck
  -- the outcome in the book
  obtain ⟨hle, hstatus, hrests, hgone⟩ := Orderbook.outcome_addOrder hwf hallow rfl
  rw [show totalQuantity (e.orderbook.callTrades (.addOrder o)) = e.executedBy msg by
    rw [executedBy, stepTrades, hcall]] at hle hstatus hrests hgone
  have hwf' := Orderbook.wf_call hwf hallow
  obtain ⟨htraded, hcancelled, hmodify, hnew⟩ :=
    status_cases htype (Quantity.toNat_pos_iff.mpr hqty) hle hstatus
  -- the tracking maps
  have hnext : n < e.nextOrderId.toNat := by
    rw [hinv.nextOrderId, UInt64.toNat_ofNat_of_lt' hn]
    exact Nat.lt_succ_self n
  obtain ⟨htracked, huntracked⟩ := tracking_acceptNewOrder (e := e.countOrder)
    ⟨hbelow.session, hbelow.client, hbelow.orders⟩ hnext hwf hallow
  rw [← hresult, hbook] at htracked huntracked
  -- what is sent
  obtain ⟨reports, ack, hreports, -, hid, hack, hqueue⟩ :=
    e.countOrder.exists_ack_acceptNewOrder msg.sessionId request side orderType
  rw [← hresult] at hqueue hack
  rw [hbook, show e.countOrder.orderbook.heap.next = e.orderbook.heap.next from rfl] at hack
  have hlimit : o.isAggressive = false ↔ orderType = .limit := by
    rcases htype with rfl | rfl | rfl <;> simp [o, newOrder, Order.isAggressive]
  have hopen : (ack.status = OrderStatus.modify.toUInt8 ∨
      ack.status = OrderStatus.new.toUInt8) ↔
      o.isAggressive = false ∧ e.executedBy msg < request.quantity.toNat := by
    have hpos : 0 < request.quantity.toNat := Quantity.toNat_pos_iff.mpr hqty
    rw [hack, toUInt8_inj, toUInt8_inj, hmodify, hnew, hlimit, ← and_or_left]
    exact and_congr_right fun _ => by omega
  refine ⟨ack, ⟨reports, hreports, hqueue⟩, hid, ?_, ?_, ?_, ?_, fun hst => ?_, fun hst => ?_⟩
  · rw [hack, toUInt8_inj, htraded]
  · rw [hack, toUInt8_inj, hcancelled]
  · rw [hack, toUInt8_inj, hmodify]
  · rw [hack, toUInt8_inj, hnew]
  · obtain ⟨hag, hlt⟩ := hopen.mp hst
    obtain ⟨s, hside, p, hp⟩ := hrests hag hlt
    exact ⟨s, p, hside, hbook ▸ hp, htracked (hwf'.mem_ids.mpr ⟨p, hp.lookup⟩)⟩
  · have hclosed : o.isAggressive = true ∨ e.executedBy msg = request.quantity.toNat := by
      by_contra hnot
      obtain ⟨hag, hne⟩ := not_or.mp hnot
      exact hst (hopen.mpr ⟨Bool.eq_false_iff.mpr hag, Nat.lt_of_le_of_ne hle hne⟩)
    have hgone' := hgone hclosed
    exact ⟨hbook ▸ hgone', huntracked (hwf'.gone_iff.mp hgone')⟩

end MatchingEngine

section Run

variable (symbol : List UInt8) (clock : ℕ → Timestamp)

/-- **The acknowledgement tells the truth** about every accepted request, in every run in which
fewer than `2 ^ 64` orders are accepted. -/
theorem ack_truthful (past : List Input) (msg : InboundMessage) {request : NewOrderRequest}
    {side : BuySell} {orderType : OrderType} (hbody : msg.body = .newOrder request)
    (hcheck : MatchingEngine.checkNewOrder request = .ok (side, orderType))
    (h : acceptedCount (.message msg :: past) < 2 ^ 64) :
    ∃ ack, (run symbol clock past).AckTruthful msg request side orderType ack := by
  have hacc : (Input.message msg).isAccepted = true := by
    simp only [Input.isAccepted, MatchingEngine.isAccepted, hbody, hcheck]
  rw [acceptedCount, List.countP_cons_of_pos hacc] at h
  have hpast : acceptedCount past < 2 ^ 64 := Nat.lt_of_succ_lt h
  exact MatchingEngine.exists_ackTruthful (run_inv symbol clock past hpast)
    (trackedBelow_run symbol clock hpast) h hbody hcheck

/-- An order that trades a part of its quantity and rests with the other. -/
theorem ack_truthful_partlyFilled : ∃ ack, (run [] (fun _ => 0)
    [.message (limitOrderMessage 1 .sell 100 4)]).AckTruthful (limitOrderMessage 2 .buy 101 10)
      ⟨⟨.newOrderRequest, MessageType.newOrderRequest.size, 0⟩, 0, 1, 1, 101, 10⟩
      .buy .limit ack :=
  ack_truthful [] (fun _ => 0) _ _ rfl (by decide) (by decide)

/-- One resting order, and then `n` orders that meet nobody and do not rest. -/
def reusedIdRun (n : ℕ) : List InboundMessage :=
  List.replicate n (newOrderMessage 2 .sell 3 0 1) ++ [limitOrderMessage 1 .sell 100 5]

/-- If the next order after such a run gets the id of the resting order, then the resting order
keeps its place and its id while the other is acknowledged. -/
theorem rests_after_reusedIdRun {n : ℕ} (hn : (2 : OrderId) + UInt64.ofNat n = 1) :
    let e := after [] (fun _ => 0) (reusedIdRun n)
    let e' := e.processInboundMessage (newOrderMessage 2 .sell 3 0 1)
    e.nextOrderId = 1 ∧ 0 ∈ e'.orderbook.resting ∧ (e'.orderbook.heap.read 0).orderId = 1 := by
  have hunrestable : MatchingEngine.IsUnrestable (newOrderMessage 2 .sell 3 0 1) .sell :=
    ⟨_, .market, rfl, rfl, by decide⟩
  have hcontra : (after [] (fun _ => 0)
      [limitOrderMessage 1 .sell 100 5]).orderbook.NoContra .sell := rfl
  have hfirst : 0 ∈ pointers (after [] (fun _ => 0)
        [limitOrderMessage 1 .sell 100 5]).orderbook.asks.entries ∧
      ((after [] (fun _ => 0)
        [limitOrderMessage 1 .sell 100 5]).orderbook.heap.read 0).orderId = 1 := by
    decide
  have hused := usesUpIds_replicate [] (fun _ => 0) hunrestable hcontra n
  have hboth := hused.trans
    (MatchingEngine.usesUpIds_processInboundMessage hunrestable (hused.noContra hcontra))
  refine ⟨hused.nextOrderId.trans hn, List.mem_append_right _ ?_, ?_⟩
  · rw [reusedIdRun, hboth.asks]
    exact hfirst.1
  · rw [reusedIdRun, hboth.read 0 Nat.zero_lt_one]
    exact hfirst.2

/-- After `2 ^ 64` accepted orders an order can be acknowledged as cancelled while another order
with its id rests in the book. -/
theorem not_ackTruthful_reusedIdRun :
    ¬ ∃ ack, (after [] (fun _ => 0) (reusedIdRun (2 ^ 64 - 1))).AckTruthful
      (newOrderMessage 2 .sell 3 0 1)
      ⟨⟨.newOrderRequest, MessageType.newOrderRequest.size, 0⟩, 0, 2, 3, 0, 1⟩
      .sell .market ack := by
  rintro ⟨ack, htruthful⟩
  obtain ⟨hnext, hp, hid⟩ := rests_after_reusedIdRun (n := 2 ^ 64 - 1) (by decide)
  -- a MARKET order is neither NEW nor MODIFY, so its id should be gone
  have hgone := htruthful.gone fun hst => by
    rcases hst with hst | hst
    · cases (htruthful.modify.mp hst).1
    · cases (htruthful.new.mp hst).1
  exact hgone.1.1 0 hp (hid.trans hnext.symm)

end Run

end ExchangeEngine
