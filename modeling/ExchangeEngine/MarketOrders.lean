import ExchangeEngine.MatchObjects
import ExchangeEngine.Cancels

/-!
# MARKET Orders as LIMIT Orders without a Bound

A MARKET order trades at any price because of its type, and what it cannot execute is dropped. A
LIMIT order at the extreme price of its side trades at any price because of the comparison, and what
it cannot execute is booked, from where a cancel takes it out again. This module shows that the two
leave the same book.

The result is about the books of all runs, also of those in which order ids have been given out
twice. What holds of all of them is their `Shape`: no level is empty, and no list and no index entry
refers to an object that has not been allocated.

## Main results

* `run_shape`: every book of every run has the shape.
* `market_agrees_with_limit`: adding a MARKET order, against adding the LIMIT order and cancelling
  it.
-/

namespace ExchangeEngine

/-! ### The shape of a book -/

/-- What holds of a book whatever ids its orders have. -/
structure Orderbook.Shape (b : Orderbook) : Prop where
  bids : NoEmptyLevel b.bids.entries
  asks : NoEmptyLevel b.asks.entries
  resting : ∀ p ∈ b.resting, p < b.heap.next
  indexed : ∀ i p, b.orders.lookup i = some p → p < b.heap.next

section LevelBook

variable {r : Price → Price → Prop} [DecidableRel r] [IsStrictTotalOrder Price r]
  {m : LevelBook r} {k : Price} {p q : OrderPointer}

/-- A level to which an order is appended is not empty. -/
theorem noEmptyLevel_upsert (hne : NoEmptyLevel m.entries) :
    NoEmptyLevel (m.upsert k fun level => level.getD [] ++ [p]).entries := by
  obtain ⟨l₁, level, l₂, hent, -, -, -, hup, -⟩ := m.split k
  rw [hent, noEmptyLevel_append, noEmptyLevel_append] at hne
  rw [hup, noEmptyLevel_append, noEmptyLevel_cons]
  exact ⟨hne.1.1, by simp, hne.2⟩

theorem mem_pointers_upsert
    (hq : q ∈ pointers (m.upsert k fun level => level.getD [] ++ [p]).entries) :
    q = p ∨ q ∈ pointers m.entries := by
  obtain ⟨l₁, level, l₂, hent, -, -, -, hup, -⟩ := m.split k
  rw [hup] at hq
  rw [hent, pointers_append, pointers_append, pointers_level]
  simp only [pointers_append, pointers_cons, List.mem_append, List.mem_singleton] at hq ⊢
  rcases hq with hq | (hq | hq) | hq
  · exact Or.inr (Or.inl (Or.inl hq))
  · exact Or.inr (Or.inl (Or.inr hq))
  · exact Or.inl hq
  · exact Or.inr (Or.inr hq)

/-- A level that is emptied is erased. -/
theorem noEmptyLevel_eraseFromBook (heap : Heap) (hne : NoEmptyLevel m.entries) :
    NoEmptyLevel (Orderbook.eraseFromBook heap p m).entries := by
  obtain ⟨l₁, level, l₂, hent, -, -, hfind, hup, herase⟩ := m.split (heap.read p).price
  have hparts := hne
  rw [hent, noEmptyLevel_append, noEmptyLevel_append] at hparts
  simp only [Orderbook.eraseFromBook, hfind]
  cases level with
  | none => exact hne
  | some ps =>
      simp only
      split
      · rw [herase, noEmptyLevel_append]
        exact ⟨hparts.1.1, hparts.2⟩
      · rename_i hps
        rw [hup, noEmptyLevel_append, noEmptyLevel_cons]
        exact ⟨hparts.1.1, hps, hparts.2⟩

theorem mem_pointers_eraseFromBook {heap : Heap}
    (hq : q ∈ pointers (Orderbook.eraseFromBook heap p m).entries) :
    q ∈ pointers m.entries := by
  obtain ⟨l₁, level, l₂, hent, -, -, hfind, hup, herase⟩ := m.split (heap.read p).price
  simp only [Orderbook.eraseFromBook, hfind] at hq
  cases level with
  | none => exact hq
  | some ps =>
      rw [hent, pointers_append, pointers_append, pointers_level, Option.getD_some]
      simp only at hq
      split at hq
      · rw [herase, pointers_append] at hq
        simp only [List.mem_append] at hq ⊢
        exact hq.imp_left Or.inl
      · rw [hup, pointers_append, pointers_cons] at hq
        simp only [List.mem_append] at hq ⊢
        rcases hq with hq | hq | hq
        · exact Or.inl (Or.inl hq)
        · exact Or.inl (Or.inr (List.mem_of_mem_eraseP hq))
        · exact Or.inr hq

end LevelBook

namespace Orderbook

variable {b : Orderbook} {p : OrderPointer} {i : OrderId}

theorem shape_empty : Orderbook.empty.Shape := by
  refine ⟨List.forall_mem_nil _, List.forall_mem_nil _, ?_, ?_⟩
  · intro p hp
    cases hp
  · intro i p hp
    cases hp

/-- What matching leaves of a book. -/
structure MatchedFrame (b b' : Orderbook) : Prop where
  bids : NoEmptyLevel b'.bids.entries
  asks : NoEmptyLevel b'.asks.entries
  resting : b'.resting ⊆ b.resting
  read : ∀ q ∉ b.resting, b'.heap.read q = b.heap.read q
  orderId : ∀ q, (b'.heap.read q).orderId = (b.heap.read q).orderId
  next : b'.heap.next = b.heap.next
  lookup : ∀ i q, b'.orders.lookup i = some q → b.orders.lookup i = some q

namespace Shape

theorem allocOrder (h : b.Shape) (o : Order) : (b.allocOrder o).Shape :=
  ⟨h.bids, h.asks, fun q hq => Nat.lt_succ_of_lt (h.resting q hq),
    fun i q hlook => Nat.lt_succ_of_lt (h.indexed i q hlook)⟩

theorem updateOrder (h : b.Shape) (p : OrderPointer) (f : Order → Order) :
    (b.updateOrder p f).Shape :=
  ⟨h.bids, h.asks, h.resting, h.indexed⟩

theorem clearOrderRecord (h : b.Shape) (i : OrderId) : (b.clearOrderRecord i).Shape := by
  refine ⟨h.bids, h.asks, h.resting, fun j q hlook => ?_⟩
  rw [Orderbook.clearOrderRecord, UnorderedMap.lookup_erase_ite] at hlook
  split at hlook
  · cases hlook
  · exact h.indexed j q hlook

theorem bookOrder (h : b.Shape) (hp : p < b.heap.next) : (b.bookOrder p).Shape := by
  have hindexed : ∀ i q, (b.orders.insert (b.heap.read p).orderId p).lookup i = some q →
      q < b.heap.next := by
    intro i q hlook
    rw [UnorderedMap.lookup_insert_ite] at hlook
    split at hlook
    · obtain rfl := Option.some.inj hlook
      exact hp
    · exact h.indexed i q hlook
  have hresting := fun q hq => h.resting q hq
  simp only [Orderbook.resting, List.mem_append] at hresting
  by_cases hside : (b.heap.read p).buySell = .buy
  · simp only [Orderbook.bookOrder, hside, if_true]
    refine ⟨noEmptyLevel_upsert h.bids, h.asks, fun q hq => ?_, hindexed⟩
    rcases List.mem_append.mp hq with hq | hq
    · rcases mem_pointers_upsert hq with rfl | hq
      · exact hp
      · exact hresting q (Or.inl hq)
    · exact hresting q (Or.inr hq)
  · simp only [Orderbook.bookOrder, if_neg hside]
    refine ⟨h.bids, noEmptyLevel_upsert h.asks, fun q hq => ?_, hindexed⟩
    rcases List.mem_append.mp hq with hq | hq
    · exact hresting q (Or.inl hq)
    · rcases mem_pointers_upsert hq with rfl | hq
      · exact hp
      · exact hresting q (Or.inr hq)

/-- **Matching** takes orders out of the book, writes to no other, and leaves no level empty. -/
theorem matchContra_frame (h : b.Shape) (p : OrderPointer) :
    b.MatchedFrame (b.matchContra p).1 := by
  simp only [Orderbook.matchContra]
  split
  · obtain ⟨hframe, hne⟩ := @matchAgainst_frame _ p .buy
      (b.matchState b.asks (b.heap.read p).quantity) _ _ rfl h.asks
    refine ⟨h.bids, hne, fun q hq => ?_, fun q hq => hframe.read q fun hmem => hq ?_,
      hframe.orderId, hframe.next, hframe.lookup⟩
    · exact List.mem_append.mpr
        ((List.mem_append.mp hq).imp_right fun hq => hframe.suffix.subset hq)
    · exact List.mem_append_right _ hmem
  · obtain ⟨hframe, hne⟩ := @matchAgainst_frame _ p .sell
      (b.matchState b.bids (b.heap.read p).quantity) _ _ rfl h.bids
    refine ⟨hne, h.asks, fun q hq => ?_, fun q hq => hframe.read q fun hmem => hq ?_,
      hframe.orderId, hframe.next, hframe.lookup⟩
    · exact List.mem_append.mpr
        ((List.mem_append.mp hq).imp_left fun hq => hframe.suffix.subset hq)
    · exact List.mem_append_left _ hmem
  · exact ⟨h.bids, h.asks, fun _ hq => hq, fun _ _ => rfl, fun _ => rfl, rfl, fun _ _ h => h⟩

theorem matchContra (h : b.Shape) (p : OrderPointer) : (b.matchContra p).1.Shape := by
  have hmatched := h.matchContra_frame p
  refine ⟨hmatched.bids, hmatched.asks, fun q hq => ?_, fun i q hlook => ?_⟩
  · rw [hmatched.next]
    exact h.resting q (hmatched.resting hq)
  · rw [hmatched.next]
    exact h.indexed i q (hmatched.lookup i q hlook)

theorem settleOrder (h : b.Shape) (hp : p < b.heap.next) (originalQuantity remaining : Quantity) :
    (b.settleOrder p originalQuantity remaining).Shape := by
  rw [settleOrder_eq]
  have hupdated := h.updateOrder p (·.settled originalQuantity remaining)
  simp only
  split
  · exact hupdated.clearOrderRecord _
  split
  · exact hupdated
  split
  · exact hupdated.bookOrder hp
  · exact hupdated

theorem addToBook (h : b.Shape) (hp : p < b.heap.next) : (b.addToBook p).Shape := by
  have hcleared : ({ b with trades := [] } : Orderbook).Shape :=
    ⟨h.bids, h.asks, h.resting, h.indexed⟩
  refine (hcleared.matchContra p).settleOrder ?_ _ _
  rw [(hcleared.matchContra_frame p).next]
  exact hp

theorem detachOrder (h : b.Shape) (p : OrderPointer) : (b.detachOrder p).Shape := by
  have hlevels : ∀ levelData, ({ b with priceToLeveldata := levelData } : Orderbook).Shape :=
    fun _ => ⟨h.bids, h.asks, h.resting, h.indexed⟩
  have hremove : ∀ b' : Orderbook, b'.Shape → (b'.removeOrderFromBook p).Shape := by
    rintro b' ⟨hbids, hasks, hresting, hindexed⟩
    rw [removeOrderFromBook]
    split
    · refine ⟨noEmptyLevel_eraseFromBook _ hbids, hasks, fun q hq => hresting q ?_, hindexed⟩
      exact List.mem_append.mpr
        ((List.mem_append.mp hq).imp_left fun hq => mem_pointers_eraseFromBook hq)
    · refine ⟨hbids, noEmptyLevel_eraseFromBook _ hasks, fun q hq => hresting q ?_, hindexed⟩
      exact List.mem_append.mpr
        ((List.mem_append.mp hq).imp_right fun hq => mem_pointers_eraseFromBook hq)
  simp only [Orderbook.detachOrder]
  split
  · exact hremove _ (hlevels _)
  · exact hremove _ h

theorem cancelOrder (h : b.Shape) (i : OrderId) : (b.cancelOrder i).Shape := by
  rw [Orderbook.cancelOrder]
  split
  · exact h
  · exact ((h.detachOrder _).updateOrder _ _).clearOrderRecord _

theorem modifyOrder (h : b.Shape) (i : OrderId) (newPrice : Price) (newQuantity : Quantity) :
    (b.modifyOrder i newPrice newQuantity).Shape := by
  rw [Orderbook.modifyOrder]
  split
  · exact h
  · rename_i p htarget
    refine ((h.detachOrder p).updateOrder p _).addToBook ?_
    rw [modifyTarget] at htarget
    split at htarget
    · cases htarget
    · rename_i q hlook
      simp only at htarget
      split at htarget
      · cases htarget
      · obtain rfl := Option.some.inj htarget
        have hp := h.indexed i q hlook
        rw [← heap_detachOrder b q] at hp
        exact hp

theorem call (h : b.Shape) (c : BookCall) : (b.call c).Shape := by
  cases c with
  | addOrder o => exact (h.allocOrder o).addToBook (Nat.lt_succ_self _)
  | cancelOrder i => exact h.cancelOrder i
  | modifyOrder i newPrice newQuantity => exact h.modifyOrder i newPrice newQuantity

end Shape

end Orderbook

/-- An input keeps the shape of the book. -/
theorem shape_apply {e : MatchingEngine} (h : e.orderbook.Shape) (input : Input) :
    (e.apply input).orderbook.Shape := by
  cases input with
  | message msg =>
      rw [MatchingEngine.apply, MatchingEngine.orderbook_processInboundMessage]
      split
      · exact h
      · exact h.call _
  | cancelSession sessionId orderIds =>
      rw [MatchingEngine.apply, (e.cancelSessionOrders_spec sessionId orderIds).1]
      induction orderIds generalizing e with
      | nil => exact h
      | cons i orderIds ih => exact ih (e := e.cancelForSession i) (h.cancelOrder i)

/-- **Every book of every run has the shape.** -/
theorem run_shape (symbol : List UInt8) (clock : ℕ → Timestamp) (past : List Input) :
    (run symbol clock past).orderbook.Shape := by
  induction past with
  | nil => exact Orderbook.shape_empty
  | cons input past ih => exact shape_apply ih input

/-! ### The two orders -/

/-- The price at which a LIMIT order of a side trades with every resting order. -/
def unboundedPrice (side : BuySell) : Price :=
  if side = .buy then Int32.maxValue else Int32.minValue

/-- `limit` is an order without a bound on the price for what the MARKET order `market` asks. -/
structure UnboundedLimit (market limit : Order) : Prop where
  type_eq : market.orderType = .market
  limitType_eq : limit.orderType = .limit
  side : market.buySell = .buy ∨ market.buySell = .sell
  orderId : limit.orderId = market.orderId
  buySell : limit.buySell = market.buySell
  quantity : limit.quantity = market.quantity
  price : limit.price = unboundedPrice market.buySell

/-- Both orders trade at every price. -/
theorem UnboundedLimit.accepts {market limit : Order} (h : UnboundedLimit market limit) :
    limit.accepts market.buySell = market.accepts market.buySell := by
  funext price
  have hmarket : market.accepts market.buySell price = true := by
    simp [Order.accepts, priceCrossed, h.type_eq]
  rw [hmarket]
  rcases h.side with hside | hside
  · simp [Order.accepts, priceCrossed, h.limitType_eq, h.price, hside, unboundedPrice]
  · simp [Order.accepts, priceCrossed, h.limitType_eq, h.price, hside, unboundedPrice]

theorem UnboundedLimit.isAggressive {market limit : Order} (h : UnboundedLimit market limit) :
    market.isAggressive = true ∧ limit.isAggressive = false := by
  simp [Order.isAggressive, h.type_eq, h.limitType_eq]

namespace Orderbook

variable {b : Orderbook} {p : OrderPointer} {limit : Order}

/-- The loops for the MARKET order see the same as those for the LIMIT order. -/
theorem seesSame_of_unboundedLimit {r : Price → Price → Prop} [DecidableRel r]
    [IsStrictTotalOrder Price r] {s₀ s : MatchState r} (hframe : LoopFrame s₀ s)
    (hp : p ∉ pointers s₀.contraBook.entries) (h : UnboundedLimit (s₀.heap.read p) limit) :
    SeesSame p p (s₀.heap.read p).buySell (fun heap => heap.write p limit) id id s := by
  have hread := hframe.read p hp
  have hne : ∀ q ∈ pointers s.contraBook.entries, q ≠ p := by
    rintro q hq rfl
    exact hp (hframe.suffix.subset hq)
  refine ⟨?_, ?_, fun q hq => ObjectStore.read_write_of_ne _ (hne q hq) _, fun q hq o => ?_,
    fun _ => rfl⟩
  · rw [ObjectStore.read_write_self, hread, h.orderId]
  · rw [ObjectStore.read_write_self, hread, h.accepts]
  · exact (ObjectStore.write_comm _ (hne q hq) _ _)

/-- **Matching** does the same for either order. -/
theorem matchContra_unboundedLimit (hp : p ∉ b.resting)
    (h : UnboundedLimit (b.heap.read p) limit) :
    (b.updateOrder p fun _ => limit).matchContra p =
      ((b.matchContra p).1.updateOrder p fun _ => limit, (b.matchContra p).2) := by
  have hloops : ∀ {r : Price → Price → Prop} [DecidableRel r] [IsStrictTotalOrder Price r]
      (s : MatchState r), s.cursor = .levels → s.heap = b.heap →
      p ∉ pointers s.contraBook.entries →
      matchAgainst p (b.heap.read p).buySell (s.mapObjects (fun heap => heap.write p limit) id) =
        (matchAgainst p (b.heap.read p).buySell s).mapObjects (fun heap => heap.write p limit)
          id := by
    intro r _ _ s hcur hheap hps
    rw [← hheap] at h ⊢
    exact matchAgainst_mapObjects (P := fun t => CursorAtHead t ∧ LoopFrame s t) Order.unseen_id
      (fun t t' hat hturn => CursorAtHead.turn_frame hat hturn)
      (fun t hat => seesSame_of_unboundedLimit hat.2 hps h)
      ⟨cursorAtHead_of_levels hcur, LoopFrame.refl s⟩
  have hwritten : ((b.updateOrder p fun _ => limit).heap.read p) = limit :=
    ObjectStore.read_write_self _ _ _
  simp only [resting, List.mem_append, not_or] at hp
  rcases h.side with hside | hside
  · have hmatch := hloops (b.matchState b.asks (b.heap.read p).quantity) rfl rfl hp.2
    rw [hside] at hmatch
    simp only [matchContra, hwritten, h.buySell, hside, h.quantity]
    exact congrArg (fun t : MatchState (· < ·) => (({ b with
      heap := t.heap, asks := t.contraBook, orders := t.orders,
      priceToLeveldata := t.priceToLeveldata, trades := t.trades } : Orderbook), t.remaining))
      hmatch
  · have hmatch := hloops (b.matchState b.bids (b.heap.read p).quantity) rfl rfl hp.1
    rw [hside] at hmatch
    simp only [matchContra, hwritten, h.buySell, hside, h.quantity]
    exact congrArg (fun t : MatchState (· > ·) => (({ b with
      heap := t.heap, bids := t.contraBook, orders := t.orders,
      priceToLeveldata := t.priceToLeveldata, trades := t.trades } : Orderbook), t.remaining))
      hmatch

/-! ### What is left of either order -/

/-- No order of the book has the id, and the index does not know it. -/
structure Unused (b : Orderbook) (i : OrderId) : Prop where
  lookup : b.orders.lookup i = none
  resting : ∀ q ∈ b.resting, (b.heap.read q).orderId ≠ i

/-- **Two books are the same**, apart from the orders that do not rest: the recent trades, both
sides, the index and the resting orders. -/
structure SameBook (b b' : Orderbook) : Prop where
  trades : b'.trades = b.trades
  bids : b'.bids = b.bids
  asks : b'.asks = b.asks
  orders : b'.orders = b.orders
  read : ∀ q ∈ b.resting, b'.heap.read q = b.heap.read q

theorem trades_cancelOrder (b : Orderbook) (i : OrderId) :
    (b.cancelOrder i).trades = b.trades := by
  rw [cancelOrder]
  split
  · rfl
  · simp only [clearOrderRecord, updateOrder, detachOrder, removeOrderFromBook]
    split <;> split <;> rfl

/-- Cancelling what was booked of an order takes the book back to what it was. -/
theorem sameBook_cancelOrder_bookOrder (hbids : NoEmptyLevel b.bids.entries)
    (hasks : NoEmptyLevel b.asks.entries) (hunused : b.Unused (b.heap.read p).orderId)
    (hp : p ∉ b.resting) : b.SameBook ((b.bookOrder p).cancelOrder (b.heap.read p).orderId) := by
  obtain ⟨hbids', hasks', horders, hothers⟩ :=
    cancelOrder_bookOrder rfl hunused.lookup hunused.resting hbids hasks
  refine ⟨?_, hbids', hasks', horders, fun q hq => hothers q fun heq => hp (heq ▸ hq)⟩
  rw [trades_cancelOrder, trades_bookOrder]

theorem SameBook.trans {b b' b'' : Orderbook} (h : b.SameBook b') (h' : b'.SameBook b'') :
    b.SameBook b'' := by
  have hresting : b'.resting = b.resting := by rw [resting, resting, h.bids, h.asks]
  refine ⟨h'.trades.trans h.trades, h'.bids.trans h.bids, h'.asks.trans h.asks,
    h'.orders.trans h.orders, fun q hq => ?_⟩
  rw [h'.read q (hresting.symm ▸ hq), h.read q hq]

/-- Two writes to an order that does not rest. -/
theorem sameBook_updateOrder (hp : p ∉ b.resting) (f g : Order → Order) :
    SameBook (b.updateOrder p f) (b.updateOrder p g) := by
  refine ⟨rfl, rfl, rfl, rfl, fun q hq => ?_⟩
  have hne : q ≠ p := by
    rintro rfl
    exact hp hq
  rw [read_updateOrder_of_ne b hne, read_updateOrder_of_ne b hne]

/-- **Settling** either order, after which the LIMIT order is cancelled. -/
theorem sameBook_settleOrder (hbids : NoEmptyLevel b.bids.entries)
    (hasks : NoEmptyLevel b.asks.entries) (hp : p ∉ b.resting)
    (h : UnboundedLimit (b.heap.read p) limit) (hunused : b.Unused (b.heap.read p).orderId)
    (originalQuantity remaining : Quantity) :
    SameBook (b.settleOrder p originalQuantity remaining)
      (((b.updateOrder p fun _ => limit).settleOrder p originalQuantity remaining).cancelOrder
        (b.heap.read p).orderId) := by
  have hwritten : (b.updateOrder p fun _ => limit).heap.read p = limit :=
    ObjectStore.read_write_self _ _ _
  rw [settleOrder_eq, settleOrder_eq, hwritten, updateOrder_updateOrder]
  have hsame := sameBook_updateOrder hp (·.settled originalQuantity remaining)
    fun _ => limit.settled originalQuantity remaining
  simp only [h.isAggressive.1, h.isAggressive.2, if_true, Bool.false_eq_true, if_false]
  split
  · -- both are executed in full
    have hcleared : ((b.updateOrder p fun _ => limit.settled originalQuantity
        remaining).clearOrderRecord limit.orderId).orders.lookup (b.heap.read p).orderId =
          none := by
      rw [h.orderId]
      exact Finmap.lookup_erase _ _
    rw [cancelOrder_of_none hcleared, h.orderId]
    exact ⟨rfl, rfl, rfl, rfl, hsame.read⟩
  split
  · -- the rest is dropped, or booked and cancelled
    have hid : ((b.updateOrder p fun _ => limit.settled originalQuantity
        remaining).heap.read p).orderId = (b.heap.read p).orderId := by
      rw [read_updateOrder_self, Order.settled_eq]
      exact h.orderId
    have hrest : ∀ q ∈ b.resting, ((b.updateOrder p fun _ => limit.settled originalQuantity
        remaining).heap.read q).orderId ≠ (b.heap.read p).orderId := by
      intro q hq
      have hne : q ≠ p := by
        rintro rfl
        exact hp hq
      rw [read_updateOrder_of_ne b hne]
      exact hunused.resting q hq
    have hbooked := @sameBook_cancelOrder_bookOrder
      (b.updateOrder p fun _ => limit.settled originalQuantity remaining) p hbids hasks
      (by rw [hid]; exact ⟨hunused.lookup, hrest⟩) hp
    rw [hid] at hbooked
    exact hsame.trans hbooked
  · rw [cancelOrder_of_none]
    · exact hsame
    · exact hunused.lookup

/-- The rest of an order after matching, against the rest of the LIMIT order. -/
theorem Shape.sameBook_addToBook (hb : b.Shape) (hp : p ∉ b.resting)
    (h : UnboundedLimit (b.heap.read p) limit) (hunused : b.Unused (b.heap.read p).orderId) :
    SameBook (b.addToBook p)
      (((b.updateOrder p fun _ => limit).addToBook p).cancelOrder (b.heap.read p).orderId) := by
  have hcleared : ({ b with trades := [] } : Orderbook).Shape :=
    ⟨hb.bids, hb.asks, hb.resting, hb.indexed⟩
  have hmatched := hcleared.matchContra_frame p
  have hincoming : (({ b with trades := [] } : Orderbook).matchContra p).1.heap.read p =
      b.heap.read p := hmatched.read p hp
  have hsettled := @sameBook_settleOrder (({ b with trades := [] } : Orderbook).matchContra p).1 p
    limit hmatched.bids hmatched.asks (fun hmem => hp (hmatched.resting hmem))
    (hincoming.symm ▸ h) ?_ (b.heap.read p).quantity
    (({ b with trades := [] } : Orderbook).matchContra p).2
  · have hloops := @matchContra_unboundedLimit { b with trades := [] } p limit hp h
    have hquantity : ((b.updateOrder p fun _ => limit).heap.read p).quantity =
        (b.heap.read p).quantity := by rw [read_updateOrder_self, h.quantity]
    rw [hincoming] at hsettled
    simp only [Orderbook.addToBook, hquantity]
    rw [show ({ b.updateOrder p fun _ => limit with trades := [] } : Orderbook) =
      ({ b with trades := [] } : Orderbook).updateOrder p fun _ => limit from rfl, hloops]
    exact hsettled
  · rw [hincoming]
    refine ⟨Option.eq_none_iff_forall_ne_some.mpr fun q hlook => ?_, fun q hq => ?_⟩
    · have hlook' := hmatched.lookup _ q hlook
      rw [hunused.lookup] at hlook'
      cases hlook'
    · rw [hmatched.orderId q]
      exact hunused.resting q (hmatched.resting hq)

/-- **Adding** a MARKET order, against adding the LIMIT order and cancelling it. -/
theorem Shape.sameBook_addOrder (hb : b.Shape) {market : Order}
    (h : UnboundedLimit market limit) (hunused : b.Unused market.orderId) :
    SameBook (b.call (.addOrder market))
      ((b.call (.addOrder limit)).cancelOrder market.orderId) := by
  have hread : (b.allocOrder market).heap.read b.heap.next = market :=
    b.heap.read_alloc_next market
  have hwrite : b.allocOrder limit =
      (b.allocOrder market).updateOrder b.heap.next fun _ => limit := by
    simp only [Orderbook.allocOrder, Orderbook.updateOrder, ObjectStore.write, ObjectStore.alloc,
      Function.update_idem]
  have hp : b.heap.next ∉ (b.allocOrder market).resting :=
    fun hmem => absurd (hb.resting _ hmem) (Nat.lt_irrefl _)
  have hids : ∀ q ∈ (b.allocOrder market).resting,
      ((b.allocOrder market).heap.read q).orderId ≠ market.orderId := by
    intro q hq
    have holder : (b.allocOrder market).heap.read q = b.heap.read q :=
      b.heap.read_alloc_of_lt (hb.resting q hq) market
    rw [holder]
    exact hunused.resting q hq
  have hlimit : UnboundedLimit ((b.allocOrder market).heap.read b.heap.next) limit :=
    hread.symm ▸ h
  have hadd := (hb.allocOrder market).sameBook_addToBook hp hlimit
    (hread.symm ▸ ⟨hunused.lookup, hids⟩)
  rw [hread, ← hwrite] at hadd
  exact hadd

end Orderbook

/-- **A MARKET order does what a LIMIT order without a bound and a cancel do**, in every book of
every run and for every id that the book does not know. -/
theorem market_agrees_with_limit (symbol : List UInt8) (clock : ℕ → Timestamp)
    (past : List Input) {market limit : Order} (h : UnboundedLimit market limit)
    (hunused : (run symbol clock past).orderbook.Unused market.orderId) :
    Orderbook.SameBook ((run symbol clock past).orderbook.call (.addOrder market))
      (((run symbol clock past).orderbook.call (.addOrder limit)).cancelOrder market.orderId) :=
  (run_shape symbol clock past).sameBook_addOrder h hunused

/-- A run in which two SELL orders rest, one of them at the highest price there is. -/
def extremePriceRun : List Input :=
  [.message (limitOrderMessage 1 .sell Int32.maxValue 4),
    .message (limitOrderMessage 2 .sell 100 3)]

/-- A MARKET order to buy more than rests there. -/
def sweepingMarketOrder : Order where
  price := 0
  quantity := 9
  timestamp := 0
  orderId := 3
  orderType := .market
  buySell := .buy
  orderStatus := .new
  sessionId := 3
  clientOrderId := 0

theorem market_agrees_with_limit_extremePriceRun :
    (((run [] (fun _ => 0) extremePriceRun).orderbook.call
      (.addOrder sweepingMarketOrder)).trades.map Trade.quantity = [3, 4]) ∧
    Orderbook.SameBook
      ((run [] (fun _ => 0) extremePriceRun).orderbook.call (.addOrder sweepingMarketOrder))
      (((run [] (fun _ => 0) extremePriceRun).orderbook.call
        (.addOrder { sweepingMarketOrder with orderType := .limit, price := Int32.maxValue })
          ).cancelOrder 3) :=
  ⟨by decide, market_agrees_with_limit [] (fun _ => 0) extremePriceRun
    ⟨rfl, rfl, Or.inl rfl, rfl, rfl, rfl, rfl⟩ ⟨by decide, by decide⟩⟩

end ExchangeEngine
