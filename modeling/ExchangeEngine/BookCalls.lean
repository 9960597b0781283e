import ExchangeEngine.BookOperations

/-!
# Calls into the Order Book

The engine reaches its order book through three calls. A call of the engine either enters an
order into `addToBook`, or withdraws one, or changes nothing (`call_cases`); `entering?` says
which, before the call is made.

`callTrades` and `callMoments` are the trades that a call executes and the moments of their
execution. They are not the buffer that `GetRecentTrades` returns: a modify that changes
nothing executes no trade and leaves in that buffer what was there before.
-/

open PriceTime

namespace ExchangeEngine

/-- A call of the engine into its order book. -/
inductive BookCall
  | addOrder (order : Order)
  | cancelOrder (orderId : OrderId)
  | modifyOrder (orderId : OrderId) (newPrice : Price) (newQuantity : Quantity)
  deriving DecidableEq, Repr

/-- The order that a call names. -/
def BookCall.orderId : BookCall → OrderId
  | .addOrder o => o.orderId
  | .cancelOrder orderId => orderId
  | .modifyOrder orderId _ _ => orderId

/-- The quantity that a call gives to its order. -/
def BookCall.quantity : BookCall → Quantity
  | .addOrder o => o.quantity
  | .cancelOrder _ => 0
  | .modifyOrder _ _ newQuantity => newQuantity

namespace Orderbook

/-- The book with an object allocated for the order `o`. -/
def allocOrder (b : Orderbook) (o : Order) : Orderbook :=
  { b with heap := b.heap.alloc o }

/-- The call as the engine makes it. A new order is an object of its own, which the engine allocates
before it calls `AddOrder`. -/
def call (b : Orderbook) : BookCall → Orderbook
  | .addOrder o => (b.allocOrder o).addOrder b.heap.next
  | .cancelOrder orderId => b.cancelOrder orderId
  | .modifyOrder orderId newPrice newQuantity => b.modifyOrder orderId newPrice newQuantity

/-- The book and the order with which a call enters `addToBook`, if it does. -/
def entering? (b : Orderbook) : BookCall → Option (Orderbook × OrderPointer)
  | .addOrder o => some (b.allocOrder o, b.heap.next)
  | .cancelOrder _ => none
  | .modifyOrder orderId newPrice newQuantity =>
      (b.modifyTarget orderId newPrice newQuantity).map fun order =>
        (b.prepareModify order newPrice newQuantity, order)

/-- The trades that a call executes. -/
def callTrades (b : Orderbook) (c : BookCall) : List Trade :=
  match b.entering? c with
  | none => []
  | some (b', order) => (b'.addToBook order).trades

/-- The moments of execution of a call's trades. -/
def callMoments (b : Orderbook) (c : BookCall) : List Moment :=
  match b.entering? c with
  | none => []
  | some (b', order) => b'.addToBookMoments order

variable {b b' : Orderbook} {c : BookCall} {order : OrderPointer}

/-- A call that enters `addToBook` ends there. -/
theorem call_of_entering (h : b.entering? c = some (b', order)) :
    b.call c = b'.addToBook order := by
  cases c with
  | addOrder o =>
      obtain ⟨rfl, rfl⟩ := Prod.mk.inj (Option.some.inj h)
      rfl
  | cancelOrder orderId => cases h
  | modifyOrder orderId newPrice newQuantity =>
      obtain ⟨p, hp, heq⟩ := Option.map_eq_some_iff.mp h
      obtain ⟨rfl, rfl⟩ := Prod.mk.inj heq
      rw [call, modifyOrder, hp]

/-- The arguments that the checks of the handlers let through. -/
def Allows (b : Orderbook) : BookCall → Prop
  | .addOrder o =>
      (∃ s, o.buySell = buySellOf s) ∧ o.quantity ≠ 0 ∧
        (o.isAggressive = false → o.orderType = .limit ∧ 0 < o.price) ∧ o.orderId ∉ b.view.ids
  | .cancelOrder _ => True
  | .modifyOrder _ newPrice newQuantity => 0 < newPrice ∧ newQuantity ≠ 0

/-- **Entering `addToBook`**: the incoming order rests nowhere, and the rest of the book is
what `b` was without it. The order is that of the call, or it is a resting order with the
price and quantity of the call. -/
structure Enters (b : Orderbook) (c : BookCall) (b' : Orderbook) (order : OrderPointer)
    (s : Side) : Prop where
  detached : b'.Detached order
  addable : b'.Addable order s
  view : b'.view = b.view.withdraw c.orderId
  origin : c = .addOrder (b'.heap.read order) ∨
    order ∈ b.resting ∧ ∃ newPrice newQuantity,
      c = .modifyOrder (b.heap.read order).orderId newPrice newQuantity ∧
      b'.heap.read order =
        (((b.heap.read order).setPrice newPrice).setQuantity newQuantity).setOrderStatus .modify

theorem Enters.orderId {s : Side} (h : b.Enters c b' order s) :
    (b'.heap.read order).orderId = c.orderId := by
  rcases h.origin with hc | ⟨-, newPrice, newQuantity, hc, hread⟩
  · rw [hc]
    rfl
  · rw [hc, hread]
    rfl

theorem Enters.quantity {s : Side} (h : b.Enters c b' order s) :
    (b'.heap.read order).quantity = c.quantity := by
  rcases h.origin with hc | ⟨-, newPrice, newQuantity, hc, hread⟩
  · rw [hc]
    rfl
  · rw [hc, hread]
    rfl

/-- Allocating an object changes neither the view nor the invariant. -/
theorem Wf.allocOrder (h : b.Wf) (o : Order) :
    (b.allocOrder o).Wf ∧ (b.allocOrder o).view = b.view := by
  have hread : ∀ q ∈ b.resting, (b.allocOrder o).heap.read q = b.heap.read q :=
    fun q hq => ObjectStore.read_alloc_of_lt b.heap (h.allocated q hq) o
  have hbids : ∀ q ∈ pointers b.bids.entries, (b.allocOrder o).heap.read q = b.heap.read q :=
    fun q hq => hread q (List.mem_append_left _ hq)
  have hasks : ∀ q ∈ pointers b.asks.entries, (b.allocOrder o).heap.read q = b.heap.read q :=
    fun q hq => hread q (List.mem_append_right _ hq)
  refine ⟨⟨h.bids.congr hbids, h.asks.congr hasks, h.bids_noEmpty, h.asks_noEmpty,
    h.index.congr fun q hq => by rw [hread q hq], fun q hq => ?_⟩, ?_⟩
  · exact Nat.lt_succ_of_lt (h.allocated q hq)
  · have hb := offers_congr hbids
    have ha := offers_congr hasks
    simp only [Orderbook.allocOrder] at hb ha
    simp only [view, Orderbook.allocOrder, hb, ha]

theorem enters_addOrder (h : b.Wf) {o : Order} (hallow : b.Allows (.addOrder o)) :
    ∃ s, b.Enters (.addOrder o) (b.allocOrder o) b.heap.next s := by
  obtain ⟨⟨s, hs⟩, hqty, hlimit, hnew⟩ := hallow
  obtain ⟨hwf, hview⟩ := h.allocOrder o
  have hread : (b.allocOrder o).heap.read b.heap.next = o := b.heap.read_alloc_next o
  have hnone : (b.allocOrder o).orders.lookup o.orderId = none := by
    rw [h.mem_ids, not_exists] at hnew
    exact Option.eq_none_iff_forall_ne_some.mpr hnew
  have hnone' : (b.allocOrder o).orders.lookup
      ((b.allocOrder o).heap.read b.heap.next).orderId = none := by
    rw [hread]
    exact hnone
  refine ⟨s, hwf.detached hnone', ⟨?_, ?_, ?_, fun _ => hnone', Nat.lt_succ_self _⟩, ?_,
    Or.inl (by rw [hread])⟩
  · rw [hread]
    exact hs
  · rw [hread]
    exact hqty
  · rw [hread]
    exact hlimit
  · exact hview.trans (Book.withdraw_eq_self hnew).symm

theorem enters_of_entering (h : b.Wf) (hallow : b.Allows c)
    (hent : b.entering? c = some (b', order)) : ∃ s, b.Enters c b' order s := by
  cases c with
  | addOrder o =>
      obtain ⟨rfl, rfl⟩ := Prod.mk.inj (Option.some.inj hent)
      exact enters_addOrder h hallow
  | cancelOrder orderId => cases hent
  | modifyOrder orderId newPrice newQuantity =>
      obtain ⟨p, hp, heq⟩ := Option.map_eq_some_iff.mp hent
      obtain ⟨rfl, rfl⟩ := Prod.mk.inj heq
      obtain ⟨hmem, rfl, -⟩ := h.modifyTarget_eq_some.mp hp
      obtain ⟨s, hs⟩ := h.exists_side hmem
      have hprep := prepareModify_spec h hmem hs hallow.1 hallow.2
      exact ⟨s, hprep.detached, hprep.addable, hprep.view,
        Or.inr ⟨hmem, newPrice, newQuantity, rfl, hprep.read⟩⟩

/-- **What a call does to a well-formed book**: it enters an order, or it withdraws an id, or
it changes nothing. -/
theorem call_cases (h : b.Wf) (hallow : b.Allows c) :
    (∃ b' order s, b.entering? c = some (b', order) ∧ b.Enters c b' order s ∧
      b'.Added order s (b.call c)) ∨
    (∃ orderId, c = .cancelOrder orderId ∧ b.entering? c = none ∧ (b.call c).Wf ∧
      (b.call c).view = b.view.withdraw orderId) ∨
    (∃ orderId newPrice newQuantity, c = .modifyOrder orderId newPrice newQuantity ∧
      b.entering? c = none ∧ b.call c = b) := by
  cases hent : b.entering? c with
  | some e =>
      obtain ⟨b', order⟩ := e
      obtain ⟨s, henters⟩ := enters_of_entering h hallow hent
      refine Or.inl ⟨b', order, s, rfl, henters, ?_⟩
      rw [call_of_entering hent]
      exact addToBook_spec henters.detached henters.addable
  | none =>
      cases c with
      | addOrder o => cases hent
      | cancelOrder orderId =>
          obtain ⟨hwf, hview, -, -⟩ := cancelOrder_spec h orderId
          exact Or.inr (Or.inl ⟨orderId, rfl, rfl, hwf, hview⟩)
      | modifyOrder orderId newPrice newQuantity =>
          have htarget := Option.map_eq_none_iff.mp hent
          exact Or.inr (Or.inr ⟨orderId, newPrice, newQuantity, rfl, rfl,
            by rw [call, modifyOrder, htarget]⟩)

theorem callTrades_of_entering (h : b.entering? c = some (b', order)) :
    b.callTrades c = (b.call c).trades := by
  rw [callTrades, h, call_of_entering h]

/-- The trades of a call are those of its moments. -/
theorem callTrades_eq_moments (h : b.Wf) (hallow : b.Allows c) :
    b.callTrades c = (b.callMoments c).map Moment.trade := by
  rcases call_cases h hallow with ⟨b', order, s, hent, -, hadded⟩ | ⟨-, -, hent, -⟩ |
    ⟨-, -, -, -, hent, -⟩
  · rw [callTrades_of_entering hent, hadded.moments, callMoments, hent]
  · rw [callTrades, callMoments, hent, List.map_nil]
  · rw [callTrades, callMoments, hent, List.map_nil]

/-- Every execution of a call is one of an order that enters. -/
theorem exists_enters_of_mem_callMoments (h : b.Wf) (hallow : b.Allows c) {m : Moment}
    (hm : m ∈ b.callMoments c) :
    ∃ b' order s, b.entering? c = some (b', order) ∧ b.Enters c b' order s ∧
      MomentWf (b'.heap.read order) (buySellOf s) (buySellOf s.contra) (b'.view.side s.contra)
        m := by
  rcases call_cases h hallow with ⟨b', order, s, hent, henters, hadded⟩ | ⟨-, -, hent, -⟩ |
    ⟨-, -, -, -, hent, -⟩
  · rw [callMoments, hent] at hm
    exact ⟨b', order, s, hent, henters, hadded.momentWf m hm⟩
  · rw [callMoments, hent] at hm
    cases hm
  · rw [callMoments, hent] at hm
    cases hm

/-- Every call keeps the representation invariant. -/
theorem wf_call (h : b.Wf) (hallow : b.Allows c) : (b.call c).Wf := by
  rcases call_cases h hallow with ⟨b', order, s, -, -, hadded⟩ | ⟨-, -, -, hwf, -⟩ |
    ⟨-, -, -, -, -, heq⟩
  · exact hadded.wf
  · exact hwf
  · rw [heq]
    exact h

end Orderbook

end ExchangeEngine
