import ExchangeEngine.Runs

/-!
# Orders That Meet Nobody

An order that finds the opposite side of the book empty is not matched at all. If it may rest,
it is booked as it is; if it may not, it is cancelled, and all that it leaves behind is one
order id less. The counter of order ids has 64 bits, so enough of such orders bring it back to
an id that is still in use.

* `addToBook_of_noContra`: what adding an order does when the opposite side is empty.
* `usesUpIds_replicate`: any number of orders that may not rest and meet nobody leave both
  sides of the book as they are and advance the counter by their number.
-/

namespace ExchangeEngine

/-- Matching against a side whose best price is not crossed is left at once. -/
theorem matchAgainst_of_not_crossed {r : Price → Price → Prop} [DecidableRel r]
    [IsStrictTotalOrder Price r] {s : MatchState r} {order : OrderPointer} {side : BuySell}
    (hcursor : s.cursor = .levels)
    (hbest : ∀ l ∈ s.contraBook.entries.head?,
      (s.heap.read order).accepts side l.1 = false) :
    matchAgainst order side s = s := by
  refine WhileLoop.run_of_turn_eq_none ?_ _
  simp only [matchTurn, hcursor, SortedMap.begin?]
  split
  · rfl
  cases hhead : s.contraBook.entries.head? with
  | none => rfl
  | some l =>
      have hreject := hbest l hhead
      rw [Order.accepts] at hreject
      simp only [hreject, Bool.false_eq_true, if_false]

namespace Orderbook

variable {b : Orderbook} {order : OrderPointer}

/-- The order at `order` does not trade at the best price opposite to it. -/
def NotCrossed (b : Orderbook) (order : OrderPointer) : Prop :=
  match (b.heap.read order).buySell with
  | .buy => ∀ l ∈ b.asks.entries.head?, (b.heap.read order).accepts .buy l.1 = false
  | .sell => ∀ l ∈ b.bids.entries.head?, (b.heap.read order).accepts .sell l.1 = false
  | .default => True

/-- An order that does not cross is not matched. -/
theorem matchContra_of_notCrossed (h : b.NotCrossed order) :
    b.matchContra order = (b, (b.heap.read order).quantity) := by
  rw [matchContra]
  rw [NotCrossed] at h
  cases hside : (b.heap.read order).buySell with
  | default => rfl
  | buy =>
      rw [hside] at h
      have hmatch := matchAgainst_of_not_crossed
        (s := b.matchState b.asks (b.heap.read order).quantity) rfl h
      simp only [hmatch]
      rfl
  | sell =>
      rw [hside] at h
      have hmatch := matchAgainst_of_not_crossed
        (s := b.matchState b.bids (b.heap.read order).quantity) rfl h
      simp only [hmatch]
      rfl

/-- No order rests opposite to `side`. -/
def NoContra (b : Orderbook) : BuySell → Prop
  | .buy => b.asks.entries = []
  | .sell => b.bids.entries = []
  | .default => True

theorem NoContra.notCrossed (h : b.NoContra (b.heap.read order).buySell) : b.NotCrossed order := by
  rw [NotCrossed]
  cases hside : (b.heap.read order).buySell with
  | default => trivial
  | buy =>
      rw [hside] at h
      simp only [show b.asks.entries = [] from h, List.head?_nil]
      exact nofun
  | sell =>
      rw [hside] at h
      simp only [show b.bids.entries = [] from h, List.head?_nil]
      exact nofun

/-- Writing an object back changes nothing. -/
theorem updateOrder_eq_self {f : Order → Order} (hf : f (b.heap.read order) = b.heap.read order) :
    b.updateOrder order f = b := by
  rw [updateOrder, hf, ObjectStore.write, ObjectStore.read, Function.update_eq_self]

/-- **Adding a new order that meets nobody**: it is cancelled if it may not rest, and booked if
it may. -/
theorem addToBook_of_noContra (h : b.NoContra (b.heap.read order).buySell)
    (hqty : (b.heap.read order).quantity ≠ 0) (hnew : (b.heap.read order).orderStatus = .new) :
    b.addToBook order =
      if (b.heap.read order).isAggressive = true then
        { b with trades := [] }.updateOrder order fun o =>
          (o.setOrderStatus .cancelled).setQuantity 0
      else { b with trades := [] }.bookOrder order := by
  have hmatch : matchContra { b with trades := [] } order =
      ({ b with trades := [] }, (b.heap.read order).quantity) :=
    matchContra_of_notCrossed (NoContra.notCrossed (b := { b with trades := [] }) h)
  have hsame : { b with trades := [] }.updateOrder order
      (·.setQuantity (b.heap.read order).quantity) = { b with trades := [] } :=
    updateOrder_eq_self rfl
  have hstatus : { b with trades := [] }.updateOrder order (·.setOrderStatus .new) =
      { b with trades := [] } :=
    updateOrder_eq_self (by rw [← hnew]; rfl)
  have hpos : 0 < (b.heap.read order).quantity := Quantity.pos_iff.mpr hqty
  simp only [addToBook, hmatch, settleOrder, hsame, hqty, false_and, if_false]
  split
  · rfl
  · have hmodify : OrderStatus.new ≠ .modify := by decide
    simp only [UInt32.lt_irrefl, if_false, hnew, if_pos hmodify, hstatus, hpos, if_true]

/-- **Adding an order that does not cross**, whatever its fields: it is settled as it is, and
booked if it may rest and has a quantity. -/
theorem addToBook_of_notCrossed (h : b.NotCrossed order) :
    b.addToBook order =
      let q := (b.heap.read order).quantity
      let b' := { b with trades := [] }.updateOrder order (·.settled q q)
      if (b.heap.read order).isAggressive then b'
      else if 0 < q then b'.bookOrder order
      else b' := by
  have hmatch : matchContra { b with trades := [] } order =
      ({ b with trades := [] }, (b.heap.read order).quantity) :=
    matchContra_of_notCrossed (b := { b with trades := [] }) h
  have hopen : ¬ ((b.heap.read order).quantity = 0 ∧ 0 < (b.heap.read order).quantity) := by
    rintro ⟨hzero, hpos⟩
    rw [hzero] at hpos
    exact absurd hpos (by decide)
  simp only [addToBook, hmatch, settleOrder_eq, if_neg hopen]

end Orderbook

/-! ### Using up ids -/

namespace MatchingEngine

variable {e e' e'' : MatchingEngine} {msg : InboundMessage} {n m : ℕ}

/-- **The engine has used up `n` order ids**: both sides of the book and the objects that were
allocated are as they were. -/
structure UsesUpIds (e e' : MatchingEngine) (n : ℕ) : Prop where
  bids : e'.orderbook.bids = e.orderbook.bids
  asks : e'.orderbook.asks = e.orderbook.asks
  read : ∀ p < e.orderbook.heap.next, e'.orderbook.heap.read p = e.orderbook.heap.read p
  next : e.orderbook.heap.next ≤ e'.orderbook.heap.next
  nextOrderId : e'.nextOrderId = e.nextOrderId + UInt64.ofNat n

theorem UsesUpIds.trans (h : UsesUpIds e e' n) (h' : UsesUpIds e' e'' m) :
    UsesUpIds e e'' (n + m) := by
  refine ⟨h'.bids.trans h.bids, h'.asks.trans h.asks, fun p hp => ?_, h.next.trans h'.next, ?_⟩
  · rw [h'.read p (Nat.lt_of_lt_of_le hp h.next), h.read p hp]
  · rw [h'.nextOrderId, h.nextOrderId, UInt64.ofNat_add, UInt64.add_assoc]

theorem UsesUpIds.noContra (h : UsesUpIds e e' n) {side : BuySell}
    (hcontra : e.orderbook.NoContra side) : e'.orderbook.NoContra side := by
  cases side with
  | default => trivial
  | buy => exact (congrArg SortedMap.entries h.asks).trans hcontra
  | sell => exact (congrArg SortedMap.entries h.bids).trans hcontra

/-- Whether a message is an accepted request for an order that may not rest. -/
def IsUnrestable (msg : InboundMessage) (side : BuySell) : Prop :=
  ∃ request orderType, msg.body = .newOrder request ∧
    checkNewOrder request = .ok (side, orderType) ∧ orderType ≠ .limit

/-- What an accepted request that meets nobody does to the book: its order is cancelled or
booked. -/
theorem orderbook_of_noContra {request : NewOrderRequest} {side : BuySell}
    {orderType : OrderType} (hbody : msg.body = .newOrder request)
    (hcheck : checkNewOrder request = .ok (side, orderType))
    (hcontra : e.orderbook.NoContra side) :
    let o := e.newOrder msg.sessionId request side orderType
    let b := { e.orderbook.allocOrder o with trades := [] }
    (e.processInboundMessage msg).orderbook =
      if orderType = .limit then b.bookOrder e.orderbook.heap.next
      else b.updateOrder e.orderbook.heap.next fun o =>
        (o.setOrderStatus .cancelled).setQuantity 0 := by
  intro o b
  obtain ⟨-, -, htype, hqty, -⟩ := checkNewOrder_eq_ok hcheck
  have hcall : e.bookCall? msg = some (.addOrder o) := by
    simp only [bookCall?, hbody, hcheck]
    rfl
  have hread : (e.orderbook.allocOrder o).heap.read e.orderbook.heap.next = o :=
    e.orderbook.heap.read_alloc_next o
  have hadd := Orderbook.addToBook_of_noContra (b := e.orderbook.allocOrder o)
    (by rw [hread]; exact hcontra) (by rw [hread]; exact hqty) (by rw [hread]; rfl)
  have haggressive : o.isAggressive = true ↔ orderType ≠ .limit := by
    rcases htype with rfl | rfl | rfl
    · exact iff_of_false Bool.false_ne_true (fun hne => hne rfl)
    · exact iff_of_true rfl (by decide)
    · exact iff_of_true rfl (by decide)
  rw [hread] at hadd
  refine (orderbook_of_call hcall).trans (hadd.trans ?_)
  rw [if_congr haggressive rfl rfl, ite_not]

/-- **An order that may not rest and meets nobody** uses up an order id. -/
theorem usesUpIds_processInboundMessage {side : BuySell} (hmsg : IsUnrestable msg side)
    (hcontra : e.orderbook.NoContra side) :
    UsesUpIds e (e.processInboundMessage msg) 1 := by
  obtain ⟨request, orderType, hbody, hcheck, hlimit⟩ := hmsg
  have hbook := orderbook_of_noContra hbody hcheck hcontra
  simp only [if_neg hlimit] at hbook
  have hacc : isAccepted msg = true := by
    simp only [isAccepted, hbody, hcheck]
  refine ⟨?_, ?_, fun p hp => ?_, ?_, ?_⟩
  · rw [hbook]
    rfl
  · rw [hbook]
    rfl
  · rw [hbook]
    exact (ObjectStore.read_write_of_ne _ (Nat.ne_of_lt hp) _).trans
      (ObjectStore.read_alloc_of_lt _ hp _)
  · rw [hbook]
    exact Nat.le_succ _
  · rw [nextOrderId_processInboundMessage, hacc, if_pos rfl]
    rfl

/-- **An order that may rest and meets nobody** is booked as it is, and tracked. -/
theorem booked_of_noContra {request : NewOrderRequest} {side : BuySell}
    (hbody : msg.body = .newOrder request) (hcheck : checkNewOrder request = .ok (side, .limit))
    (hcontra : e.orderbook.NoContra side) :
    let o := e.newOrder msg.sessionId request side .limit
    (e.processInboundMessage msg).orderbook =
      { e.orderbook.allocOrder o with trades := [] }.bookOrder e.orderbook.heap.next ∧
    (e.processInboundMessage msg).orderToSession.lookup e.nextOrderId =
      some msg.sessionId := by
  intro o
  have hbook := orderbook_of_noContra hbody hcheck hcontra
  simp only [if_true] at hbook
  refine ⟨hbook, ?_⟩
  obtain ⟨-, -, -, hqty, -⟩ := checkNewOrder_eq_ok hcheck
  have hresult : e.processInboundMessage msg =
      e.countOrder.acceptNewOrder msg.sessionId request side .limit := by
    simp only [processInboundMessage, hbody, handleNewOrder, hcheck]
    rfl
  have hentered : (e.countOrder.enterOrder msg.sessionId request side .limit).orderbook =
      { e.orderbook.allocOrder o with trades := [] }.bookOrder e.orderbook.heap.next := by
    rw [← hbook, hresult, orderbook_acceptNewOrder, orderbook_enterOrder]
  have hread : (e.countOrder.enterOrder msg.sessionId request side .limit).orderbook.heap.read
      e.countOrder.orderbook.heap.next = o := by
    rw [hentered, Orderbook.heap_bookOrder]
    exact e.orderbook.heap.read_alloc_next o
  have hcore := e.countOrder.core_acceptNewOrder msg.sessionId request side .limit
  simp only [hread] at hcore
  rw [hresult, ← orderToSession_core, hcore]
  split
  · rename_i hdone
    rcases hdone with hfilled | hcancelled
    · exact absurd (beq_iff_eq.mp hfilled) hqty
    · cases hcancelled
  · exact Finmap.lookup_insert _

end MatchingEngine

/-- **Any number of such orders** use up as many order ids. -/
theorem usesUpIds_replicate (symbol : List UInt8) (clock : ℕ → Timestamp)
    {msg : InboundMessage} {side : BuySell} (hmsg : MatchingEngine.IsUnrestable msg side)
    {past : List InboundMessage} (hcontra : (after symbol clock past).orderbook.NoContra side)
    (n : ℕ) :
    (after symbol clock past).UsesUpIds
      (after symbol clock (List.replicate n msg ++ past)) n := by
  induction n with
  | zero => exact ⟨rfl, rfl, fun _ _ => rfl, Nat.le_refl _, (UInt64.add_zero _).symm⟩
  | succ n ih =>
      refine ih.trans (MatchingEngine.usesUpIds_processInboundMessage hmsg ?_)
      exact ih.noContra hcontra

end ExchangeEngine
