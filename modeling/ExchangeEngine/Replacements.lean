import ExchangeEngine.Cancels
import ExchangeEngine.MatchObjects

/-!
# Modifying Is Cancelling and Adding

`ModifyOrder` takes the order out of its level and hands the same object, with the new price and
quantity, back to `addToBook`; its index entry stays where it is all the while. Cancelling the
order and adding a new one with the same id goes through another object and makes a new index
entry. This module shows that the two come to the same.

The matching loops read of the incoming order only what the two objects agree on, and write to
neither, so that the loops on the one book are the image of the loops on the other under
`MatchState.renew`.

## Main results

* `modify_replaces`: what `ModifyOrder` does, in the books of runs in which fewer than `2 ^ 64`
  orders are accepted.
* `not_modifyReplaces_wrappedRun`: the two differ when two orders have one id.
-/

open PriceTime

namespace ExchangeEngine

/-! ### The loops with another incoming object -/

section Renew

variable {r : Price → Price → Prop}

/-- The state with the order at `order` overwritten by `old`, a new object for `new`, and no index
entry for the id `i`. -/
def MatchState.renew (order : OrderPointer) (old new : Order) (i : OrderId) (s : MatchState r) :
    MatchState r :=
  { s with heap := (s.heap.write order old).alloc new, orders := s.orders.erase i }

variable [DecidableRel r] [IsStrictTotalOrder Price r]
  {order : OrderPointer} {o old new : Order} {side contraSide : BuySell} {own : OrderPointers}
  {s : MatchState r} {n : ℕ}

/-- What the loops keep: their invariant, and that no object is allocated. -/
structure RenewInv (order : OrderPointer) (o : Order) (side contraSide : BuySell)
    (own : OrderPointers) (n : ℕ) (s : MatchState r) : Prop where
  inv : MatchInv order o side contraSide own s
  next : s.heap.next = n
  allocated : ∀ q ∈ pointers s.contraBook.entries, q < n

theorem RenewInv.turn (h : RenewInv order o side contraSide own n s) {s' : MatchState r}
    (hturn : matchTurn order side s = some s') : RenewInv order o side contraSide own n s' := by
  have hframe := matchTurn_frame h.inv hturn
  exact ⟨(matchTurn_spec h.inv hturn).1, hframe.next.trans h.next,
    fun q hq => h.allocated q (hframe.sublist.subset hq)⟩

omit [DecidableRel r] [IsStrictTotalOrder Price r] in
/-- An order of the opposite side is neither of the two objects. -/
theorem RenewInv.read (h : RenewInv order o side contraSide own n s) {q : OrderPointer}
    (hq : q ∈ pointers s.contraBook.entries) (old new : Order) (i : OrderId) :
    q ≠ order ∧ q ≠ s.heap.next ∧ (s.renew order old new i).heap.read q = s.heap.read q := by
  have hne : q ≠ order := by
    rintro rfl
    exact h.inv.index.id_ne_of_erase (List.mem_append_left _ hq)
      (congrArg Order.orderId h.inv.order_eq)
  have hnext : q < s.heap.next := by
    rw [h.next]
    exact h.allocated q hq
  refine ⟨hne, Nat.ne_of_lt hnext, ?_⟩
  rw [MatchState.renew, ObjectStore.read_alloc_of_lt _ (by exact hnext),
    ObjectStore.read_write_of_ne _ hne]

omit [DecidableRel r] [IsStrictTotalOrder Price r] in
/-- The new object is at the address that was free. -/
theorem read_renew_next (s : MatchState r) (i : OrderId) :
    (s.renew order old new i).heap.read s.heap.next = new :=
  ObjectStore.read_alloc_next (s.heap.write order old) new

omit [DecidableRel r] [IsStrictTotalOrder Price r] in
/-- The loops see the same with the other object as incoming order, if the two have the same id,
type and price. -/
theorem RenewInv.seesSame (h : RenewInv order o side contraSide own n s)
    (hid : new.orderId = o.orderId) (htype : new.orderType = o.orderType)
    (hprice : new.price = o.price) :
    SeesSame order n side (fun heap => (heap.write order old).alloc new)
      (fun orders => orders.erase o.orderId) id s := by
  obtain rfl := h.next
  have hincoming : (s.renew order old new o.orderId).heap.read s.heap.next = new :=
    read_renew_next s o.orderId
  refine ⟨?_, ?_, fun q hq => (h.read hq old new o.orderId).2.2, fun q hq o' => ?_,
    fun i => Finmap.erase_erase⟩
  · rw [h.inv.order_eq, ← hid]
    exact congrArg Order.orderId hincoming
  · have haccepts : new.accepts side = o.accepts side := by
      funext price
      rw [Order.accepts, Order.accepts, htype, hprice]
    rw [h.inv.order_eq, ← haccepts]
    exact congrArg (Order.accepts · side) hincoming
  · obtain ⟨hne, hnext, -⟩ := h.read hq old new o.orderId
    exact (congrArg (ObjectStore.alloc · new) (ObjectStore.write_comm _ hne.symm _ _).symm).trans
      (ObjectStore.alloc_write _ (by exact hnext) _ _)

/-- **The loops** do the same with the other object as incoming order. -/
theorem matchAgainst_renew (h : RenewInv order o side contraSide own n s) (old new : Order)
    (hid : new.orderId = o.orderId) (htype : new.orderType = o.orderType)
    (hprice : new.price = o.price) :
    matchAgainst n side (s.renew order old new o.orderId) =
      (matchAgainst order side s).renew order old new o.orderId :=
  matchAgainst_mapObjects Order.unseen_id (fun _ _ ht h => ht.turn h)
    (fun _ ht => ht.seesSame hid htype hprice) h

end Renew

/-! ### Books that are the same up to a status -/

/-- The order without its status, if it is the order with the id `i`. -/
def Order.upToStatus (i : OrderId) (o : Order) : Order :=
  if o.orderId = i then o.setOrderStatus .default else o

theorem Order.quantity_upToStatus (i : OrderId) (o : Order) :
    (o.upToStatus i).quantity = o.quantity := by
  rw [Order.upToStatus]
  split <;> rfl

/-- The orders of each level, as `look` shows them. -/
def contents (look : OrderPointer → Order) (levels : Levels) : List (Price × List Order) :=
  levels.map fun l => (l.1, l.2.map look)

theorem contents_append (look : OrderPointer → Order) (l₁ l₂ : Levels) :
    contents look (l₁ ++ l₂) = contents look l₁ ++ contents look l₂ :=
  List.map_append

theorem contents_congr {look look' : OrderPointer → Order} {levels : Levels}
    (h : ∀ q ∈ pointers levels, look q = look' q) : contents look levels = contents look' levels := by
  refine List.map_congr_left fun l hl => ?_
  rw [List.map_congr_left fun q hq => h q (mem_pointers.mpr ⟨l, hl, hq⟩)]

/-- Two orders that look the same, appended to the same level. -/
theorem contents_upsert {r : Price → Price → Prop} [DecidableRel r] [IsStrictTotalOrder Price r]
    {m : LevelBook r} {look look' : OrderPointer → Order} {p p' : OrderPointer}
    (h : ∀ q ∈ pointers m.entries, look q = look' q) (hp : look p = look' p') (k : Price) :
    contents look (m.upsert k fun level => level.getD [] ++ [p]).entries =
      contents look' (m.upsert k fun level => level.getD [] ++ [p']).entries := by
  obtain ⟨l₁, level, l₂, hent, -, -, -, hup, -⟩ := m.split k
  rw [hent, pointers_append, pointers_append, pointers_level] at h
  simp only [List.forall_mem_append] at h
  obtain ⟨⟨h₁, hlevel⟩, h₂⟩ := h
  rw [hup, hup, contents_append, contents_append, contents_congr h₁]
  have hcons : ∀ (look : OrderPointer → Order) (l : Price × OrderPointers),
      contents look (l :: l₂) = (l.1, l.2.map look) :: contents look l₂ := fun _ _ => rfl
  rw [hcons, hcons, contents_congr h₂, List.map_append, List.map_append,
    List.map_congr_left hlevel, List.map_singleton, List.map_singleton, hp]

namespace Orderbook

/-- The order at a pointer, without the status of the order with the id `i`. -/
def look (b : Orderbook) (i : OrderId) (p : OrderPointer) : Order :=
  (b.heap.read p).upToStatus i

/-- **Two books are the same up to the status of one order**: the levels of both sides, with the
orders in them, the orders in the index, the level data and the trades. -/
structure SameUpToStatus (i : OrderId) (b b' : Orderbook) : Prop where
  levels : ∀ s, contents (b'.look i) (b'.levels s) = contents (b.look i) (b.levels s)
  orders : ∀ j, (b'.orders.lookup j).map (b'.look i) = (b.orders.lookup j).map (b.look i)
  priceToLeveldata : b'.priceToLeveldata = b.priceToLeveldata
  trades : b'.trades = b.trades

/-- The first orders of two levels have the same quantity. -/
theorem SameUpToStatus.quantity_head {i : OrderId} {b b' : Orderbook} {s : Side} {k k' : Price}
    {q q' : OrderPointer} {ps ps' : OrderPointers} (h : SameUpToStatus i b b')
    (hlevels : b.levels s = [(k, q :: ps)]) (hlevels' : b'.levels s = [(k', q' :: ps')]) :
    (b'.heap.read q').quantity = (b.heap.read q).quantity := by
  have hsame := h.levels s
  rw [hlevels, hlevels'] at hsame
  simp only [contents, List.map_cons, List.cons.injEq, Prod.mk.injEq] at hsame
  have hquantity := congrArg Order.quantity hsame.1.2.1
  rwa [look, look, Order.quantity_upToStatus, Order.quantity_upToStatus] at hquantity

/-- The book with the order at `order` overwritten by `old`, a new object for `new`, and no index
entry for the id `i`. -/
def renew (b : Orderbook) (order : OrderPointer) (old new : Order) (i : OrderId) : Orderbook :=
  { b with heap := (b.heap.write order old).alloc new, orders := b.orders.erase i }

section Renew

variable {b : Orderbook} {order q : OrderPointer} {old new : Order} {status : OrderStatus}
  {s : Side}

theorem read_renew_next (b : Orderbook) (order : OrderPointer) (old new : Order) (i : OrderId) :
    (b.renew order old new i).heap.read b.heap.next = new :=
  ObjectStore.read_alloc_next (b.heap.write order old) new

/-- The resting orders are at other addresses. -/
theorem Detached.read_renew (h : b.Detached order) (hq : q ∈ b.resting) (i : OrderId) :
    (b.renew order old new i).heap.read q = b.heap.read q := by
  have hne : q ≠ order := fun heq => h.notMem (heq ▸ hq)
  rw [renew, ObjectStore.read_alloc_of_lt _ (by exact h.allocated q hq),
    ObjectStore.read_write_of_ne _ hne]

/-- **Matching** does the same with another object for the incoming order, whatever its status. -/
theorem matchContra_renew (h : b.Detached order) (hs : (b.heap.read order).buySell = buySellOf s)
    (old : Order) (status : OrderStatus) :
    let o := b.heap.read order
    (b.renew order old (o.setOrderStatus status) o.orderId).matchContra b.heap.next =
      ((b.matchContra order).1.renew order old (o.setOrderStatus status) o.orderId,
        (b.matchContra order).2) := by
  intro o
  have hs' : (o.setOrderStatus status).buySell = buySellOf s := hs
  have hqty : (o.setOrderStatus status).quantity = o.quantity := rfl
  cases s with
  | bid =>
      have hinv : RenewInv order o .buy .sell (pointers b.bids.entries) b.heap.next
          (b.matchState b.asks o.quantity) :=
        ⟨⟨rfl, h.asks, h.index.perm List.perm_append_comm, h.asks_noEmpty⟩, rfl,
          fun q hq => h.allocated q (List.mem_append_right _ hq)⟩
      have hmatch := matchAgainst_renew hinv old (o.setOrderStatus status) rfl rfl rfl
      simp only [matchContra, read_renew_next, hs, hs', hqty, buySellOf]
      rw [show (b.renew order old (o.setOrderStatus status) o.orderId).matchState
        (b.renew order old (o.setOrderStatus status) o.orderId).asks o.quantity =
        (b.matchState b.asks o.quantity).renew order old (o.setOrderStatus status) o.orderId
        from rfl, hmatch]
      rfl
  | ask =>
      have hinv : RenewInv order o .sell .buy (pointers b.asks.entries) b.heap.next
          (b.matchState b.bids o.quantity) :=
        ⟨⟨rfl, h.bids, h.index, h.bids_noEmpty⟩, rfl,
          fun q hq => h.allocated q (List.mem_append_left _ hq)⟩
      have hmatch := matchAgainst_renew hinv old (o.setOrderStatus status) rfl rfl rfl
      simp only [matchContra, read_renew_next, hs, hs', hqty, buySellOf]
      rw [show (b.renew order old (o.setOrderStatus status) o.orderId).matchState
        (b.renew order old (o.setOrderStatus status) o.orderId).bids o.quantity =
        (b.matchState b.bids o.quantity).renew order old (o.setOrderStatus status) o.orderId
        from rfl, hmatch]
      rfl

/-- The status that an order had before it was settled does not change its other fields. -/
theorem setOrderStatus_settled (o : Order) (status : OrderStatus) (q remaining : Quantity) :
    ((o.setOrderStatus status).settled q remaining).setOrderStatus .default =
      (o.settled q remaining).setOrderStatus .default := by
  have hquantity : ((o.setOrderStatus status).settled q remaining).quantity =
      (o.settled q remaining).quantity := by
    rw [Order.quantity_settled, Order.quantity_settled]
    rfl
  rw [Order.settled_eq (o.setOrderStatus status), Order.settled_eq o, hquantity]
  rfl

/-- **A book with another incoming object**: apart from the object and the index entry of its id,
the two books are the same. -/
structure Renewed (i : OrderId) (b : Orderbook) (order : OrderPointer) (b' : Orderbook)
    (order' : OrderPointer) : Prop where
  orderId : (b.heap.read order).orderId = i
  incoming : (b'.heap.read order').setOrderStatus .default =
    (b.heap.read order).setOrderStatus .default
  bids : b'.bids = b.bids
  asks : b'.asks = b.asks
  priceToLeveldata : b'.priceToLeveldata = b.priceToLeveldata
  trades : b'.trades = b.trades
  look : ∀ p ∈ b.resting, b'.look i p = b.look i p
  orders : ∀ j, j ≠ i → (b'.orders.lookup j).map (b'.look i) = (b.orders.lookup j).map (b.look i)

section Renewed

variable {b' : Orderbook} {order' : OrderPointer} {i : OrderId}

theorem Renewed.orderId_eq (h : Renewed i b order b' order') : (b'.heap.read order').orderId = i :=
  (congrArg Order.orderId h.incoming).trans h.orderId

theorem Renewed.look_incoming (h : Renewed i b order b' order') :
    b'.look i order' = b.look i order := by
  rw [Orderbook.look, Orderbook.look, Order.upToStatus, Order.upToStatus, if_pos h.orderId_eq,
    if_pos h.orderId, h.incoming]

theorem Renewed.look_levels (h : Renewed i b order b' order') (s : Side) :
    ∀ p ∈ pointers (b.levels s), b'.look i p = b.look i p :=
  fun p hp => h.look p (mem_resting.mpr ⟨s, hp⟩)

/-- The order is closed in either book. -/
theorem Renewed.clearOrderRecord (h : Renewed i b order b' order') :
    SameUpToStatus i (b.clearOrderRecord i) (b'.clearOrderRecord i) := by
  refine ⟨fun s => ?_, fun j => ?_, h.priceToLeveldata, h.trades⟩
  · have hlevels : (b'.clearOrderRecord i).levels s = b.levels s := by
      cases s with
      | bid => exact congrArg SortedMap.entries h.bids
      | ask => exact congrArg SortedMap.entries h.asks
    rw [hlevels]
    exact contents_congr (h.look_levels s)
  · simp only [Orderbook.clearOrderRecord, UnorderedMap.lookup_erase_ite]
    split
    · rfl
    · rename_i hj
      exact h.orders j hj

/-- The order is booked in either book. -/
theorem Renewed.bookOrder (h : Renewed i b order b' order')
    (hs : (b.heap.read order).buySell = buySellOf s) :
    SameUpToStatus i (b.bookOrder order) (b'.bookOrder order') := by
  have hs' : (b'.heap.read order').buySell = buySellOf s :=
    (congrArg Order.buySell h.incoming).trans hs
  have hprice : (b'.heap.read order').price = (b.heap.read order).price :=
    (congrArg Order.price h.incoming).trans rfl
  have hqty : (b'.heap.read order').quantity = (b.heap.read order).quantity :=
    (congrArg Order.quantity h.incoming).trans rfl
  obtain ⟨hdata, horders⟩ := b.bookOrder_rest order
  obtain ⟨hdata', horders'⟩ := b'.bookOrder_rest order'
  have hlook : ∀ (b : Orderbook) (p : OrderPointer), (b.bookOrder p).look i = b.look i := by
    intro b p
    funext q
    rw [Orderbook.look, Orderbook.look, heap_bookOrder]
  refine ⟨fun t => ?_, fun j => ?_, ?_, ?_⟩
  · rw [hlook, hlook]
    obtain ⟨hown, hcontra⟩ := levels_bookOrder hs
    obtain ⟨hown', hcontra'⟩ := levels_bookOrder hs'
    by_cases ht : t = s
    · subst ht
      rw [hown, hown', hprice]
      cases t with
      | bid =>
          simp only [h.bids]
          exact contents_upsert (h.look_levels .bid) h.look_incoming _
      | ask =>
          simp only [h.asks]
          exact contents_upsert (h.look_levels .ask) h.look_incoming _
    · obtain rfl : t = s.contra := by
        cases t <;> cases s <;> first | rfl | exact absurd rfl ht
      have hlevels : b'.levels s.contra = b.levels s.contra := by
        cases s with
        | bid => exact congrArg SortedMap.entries h.asks
        | ask => exact congrArg SortedMap.entries h.bids
      rw [hcontra, hcontra', hlevels]
      exact contents_congr (h.look_levels s.contra)
  · rw [hlook, hlook, horders, horders', h.orderId, h.orderId_eq, UnorderedMap.lookup_insert_ite,
      UnorderedMap.lookup_insert_ite]
    split
    · rw [Option.map_some, Option.map_some, h.look_incoming]
    · rename_i hj
      exact h.orders j hj
  · rw [hdata, hdata', h.priceToLeveldata, hprice, hqty]
  · rw [trades_bookOrder, trades_bookOrder, h.trades]

end Renewed

/-- **Settling** leaves the same book, up to the status of the order. -/
theorem settleOrder_renew (h : b.Detached order) (hs : (b.heap.read order).buySell = buySellOf s)
    (hlimit : (b.heap.read order).orderType = .limit) (old : Order) (status : OrderStatus)
    {q : Quantity} (hq : q ≠ 0) (remaining : Quantity) :
    let o := b.heap.read order
    SameUpToStatus o.orderId (b.settleOrder order q remaining)
      ((b.renew order old (o.setOrderStatus status) o.orderId).settleOrder b.heap.next q
        remaining) := by
  intro o
  have hnew : (b.renew order old (o.setOrderStatus status) o.orderId).heap.read b.heap.next =
      o.setOrderStatus status := read_renew_next b order _ _ _
  have hid : (b.heap.read order).orderId = o.orderId := rfl
  have hid' : (o.setOrderStatus status).orderId = o.orderId := rfl
  rw [settleOrder_of_limit b hq hlimit, settleOrder_of_limit _ hq (by rw [hnew]; exact hlimit),
    hnew, hid', hid]
  -- the write of the settled order, in either book
  have hread : ∀ p ∈ b.resting,
      ((b.renew order old (o.setOrderStatus status) o.orderId).updateOrder b.heap.next
        (·.settled q remaining)).look o.orderId p =
      (b.updateOrder order (·.settled q remaining)).look o.orderId p := by
    intro p hp
    have hne : p ≠ order := fun heq => h.notMem (heq ▸ hp)
    rw [look, look, read_updateOrder_of_ne _ (Nat.ne_of_lt (h.allocated p hp)),
      read_updateOrder_of_ne _ hne, h.read_renew hp]
  have hrenewed : Renewed o.orderId (b.updateOrder order (·.settled q remaining)) order
      ((b.renew order old (o.setOrderStatus status) o.orderId).updateOrder b.heap.next
        (·.settled q remaining)) b.heap.next := by
    refine ⟨?_, ?_, rfl, rfl, rfl, rfl, hread, fun j hj => ?_⟩
    · rw [read_updateOrder_self, Order.settled_eq]
    · rw [read_updateOrder_self, read_updateOrder_self, hnew]
      exact setOrderStatus_settled o status q remaining
    · change ((b.orders.erase o.orderId).lookup j).map _ = (b.orders.lookup j).map _
      rw [Finmap.lookup_erase_ne hj]
      cases hlook : b.orders.lookup j with
      | none => rfl
      | some p =>
          have hmem := (h.index.lookup j p).mp (by rw [Finmap.lookup_erase_ne hj, hlook])
          rw [Option.map_some, Option.map_some, hread p hmem.1]
  simp only
  split
  · exact hrenewed.clearOrderRecord
  · refine hrenewed.bookOrder (s := s) ?_
    rw [read_updateOrder_self, Order.settled_eq]
    exact hs

end Renew

/-! ### Cancelling and adding -/

/-- The new LIMIT order that stands for a modified one: its id, side, timestamp, session and
client's id are those of the old one. -/
def replacement (o : Order) (newPrice : Price) (newQuantity : Quantity) : Order :=
  { o with
    price := newPrice, quantity := newQuantity, orderType := .limit, orderStatus := .new }

/-- **A modify of the order with the id `i`** does what cancelling it and adding another order in
its place does; one that asks for the price and the quantity that the order has does nothing. -/
structure ModifyReplaces (b : Orderbook) (i : OrderId) (newPrice : Price)
    (newQuantity : Quantity) : Prop where
  replaced : ∀ p ∈ b.resting, (b.heap.read p).orderId = i →
    ¬ ((b.heap.read p).price = newPrice ∧ (b.heap.read p).quantity = newQuantity) →
    SameUpToStatus i (b.modifyOrder i newPrice newQuantity)
      ((b.cancelOrder i).call (.addOrder (replacement (b.heap.read p) newPrice newQuantity)))
  unchanged : ∀ p ∈ b.resting, (b.heap.read p).orderId = i →
    (b.heap.read p).price = newPrice ∧ (b.heap.read p).quantity = newQuantity →
    b.modifyOrder i newPrice newQuantity = b

variable {b : Orderbook} {p : OrderPointer} {newPrice : Price} {newQuantity : Quantity}

/-- The book from which the new order is added is the one from which the modified order is, with
another object for the order. -/
theorem allocOrder_cancelOrder (hlook : b.orders.lookup (b.heap.read p).orderId = some p)
    (hlimit : (b.heap.read p).orderType = .limit) :
    let b' := b.prepareModify p newPrice newQuantity
    (b.cancelOrder (b.heap.read p).orderId).allocOrder
        (replacement (b.heap.read p) newPrice newQuantity) =
      b'.renew p (((b.heap.read p).setQuantity 0).setOrderStatus .cancelled)
        ((b'.heap.read p).setOrderStatus .new) (b'.heap.read p).orderId := by
  have hnew : replacement (b.heap.read p) newPrice newQuantity =
      ((((b.heap.read p).setPrice newPrice).setQuantity newQuantity).setOrderStatus
        .modify).setOrderStatus .new := by
    rw [replacement, ← hlimit]
    rfl
  simp only [hnew, cancelOrder, hlook, prepareModify, renew, allocOrder, clearOrderRecord,
    updateOrder, heap_detachOrder, ObjectStore.write_write, ObjectStore.read_write_self]
  rfl

/-- **Adding** does the same with another object for the order, up to the status. -/
theorem addToBook_renew {s : Side} (h : b.Detached p) (hs : (b.heap.read p).buySell = buySellOf s)
    (hlimit : (b.heap.read p).orderType = .limit) (hqty : (b.heap.read p).quantity ≠ 0)
    (old : Order) (status : OrderStatus) :
    let o := b.heap.read p
    SameUpToStatus o.orderId (b.addToBook p)
      ((b.renew p old (o.setOrderStatus status) o.orderId).addToBook b.heap.next) := by
  intro o
  have hmatched := matchContra_spec (h.setTrades []) hs
  have hrenew := matchContra_renew (h.setTrades []) hs old status
  have hread : (matchContra { b with trades := [] } p).1.heap.read p = o := hmatched.read
  have hnext : (matchContra { b with trades := [] } p).1.heap.next = b.heap.next := hmatched.next
  have hsettled := settleOrder_renew hmatched.detached (by rw [hread]; exact hs)
    (by rw [hread]; exact hlimit) old status hqty (matchContra { b with trades := [] } p).2
  simp only [hread, hnext] at hsettled
  have hadd : (b.renew p old (o.setOrderStatus status) o.orderId).addToBook b.heap.next =
      ((matchContra { b with trades := [] } p).1.renew p old (o.setOrderStatus status)
        o.orderId).settleOrder b.heap.next o.quantity (matchContra { b with trades := [] } p).2 := by
    simp only [addToBook, read_renew_next]
    rw [show matchContra { b.renew p old (o.setOrderStatus status) o.orderId with trades := [] }
      b.heap.next = _ from hrenew]
    rfl
  rw [hadd]
  exact hsettled

/-- **Modifying is cancelling and adding** in a well-formed book. -/
theorem Wf.modifyReplaces (h : b.Wf) (i : OrderId) (hprice : 0 < newPrice)
    (hqty : newQuantity ≠ 0) : b.ModifyReplaces i newPrice newQuantity := by
  refine ⟨fun p hp hid hdiff => ?_, fun p hp hid hsame => ?_⟩
  · subst hid
    have hlook := (h.index.lookup _ p).mpr ⟨hp, rfl⟩
    obtain ⟨s, hrest⟩ := h.resting hp
    have hprep := prepareModify_spec h hp hrest.buySell hprice hqty
    have htarget := h.modifyTarget_eq_some.mpr ⟨hp, rfl, hdiff⟩
    have hid : ((b.prepareModify p newPrice newQuantity).heap.read p).orderId =
        (b.heap.read p).orderId := by
      rw [hprep.read]
      rfl
    have hsame := addToBook_renew hprep.detached hprep.addable.buySell
      (by rw [hprep.read]; exact hrest.orderType) hprep.addable.quantity
      (((b.heap.read p).setQuantity 0).setOrderStatus .cancelled) .new
    have hnext : (b.cancelOrder (b.heap.read p).orderId).heap.next = b.heap.next :=
      (cancelOrder_spec h _).2.2.2
    rw [modifyOrder, htarget, call, addOrder, hnext, allocOrder_cancelOrder hlook hrest.orderType,
      ← hprep.next]
    simp only [hid] at hsame ⊢
    exact hsame
  · have hnone : b.modifyTarget i newPrice newQuantity = none := by
      refine Option.eq_none_iff_forall_ne_some.mpr fun q hq => ?_
      obtain ⟨hmem, hqid, hdiff⟩ := h.modifyTarget_eq_some.mp hq
      obtain rfl := h.index.inj hmem hp (hqid.trans hid.symm)
      exact hdiff hsame
    rw [modifyOrder, hnone]

end Orderbook

section Runs

variable (symbol : List UInt8) (clock : ℕ → Timestamp)

/-- **Modifying is cancelling and adding** in the book of every run in which no order id is given
out twice. -/
theorem modify_replaces (past : List Input) (h : acceptedCount past < 2 ^ 64) (i : OrderId)
    (newPrice : Price) (newQuantity : Quantity) (hprice : 0 < newPrice) (hqty : 0 < newQuantity) :
    (run symbol clock past).orderbook.ModifyReplaces i newPrice newQuantity :=
  (run_inv symbol clock past h).book.wf.modifyReplaces i hprice (Quantity.pos_iff.mp hqty)

end Runs

theorem modify_replaces_sharedLevelRun :
    (run [] (fun _ => 0) sharedLevelRun).orderbook.view.ids = [1, 2] ∧
    (run [] (fun _ => 0) sharedLevelRun).orderbook.ModifyReplaces 1 99 3 :=
  ⟨by decide, modify_replaces [] (fun _ => 0) sharedLevelRun (by decide) 1 99 3 (by decide)
    (by decide)⟩

/-! ### Two orders with one id -/

section SameId

open Orderbook

variable {b : Orderbook} {order p q : OrderPointer} {price : Price} {newQuantity : Quantity}

/-- A SELL order that meets nobody goes behind the orders at its price, and no order's quantity
changes. -/
theorem addToBook_behind {ps : OrderPointers} (hbids : b.bids.entries = [])
    (hasks : b.asks.entries = [(price, ps)]) (hprice : (b.heap.read order).price = price)
    (hside : (b.heap.read order).buySell = .sell)
    (hlimit : (b.heap.read order).orderType = .limit) (hqty : (b.heap.read order).quantity ≠ 0) :
    (b.addToBook order).asks.entries = [(price, ps ++ [order])] ∧
      ∀ q, ((b.addToBook order).heap.read q).quantity = (b.heap.read q).quantity := by
  have hcross : b.NotCrossed order :=
    NoContra.notCrossed (by rw [hside]; exact hbids)
  have hresting : (b.heap.read order).isAggressive = false := by
    simp [Order.isAggressive, hlimit]
  have hadd := addToBook_of_notCrossed hcross
  simp only [hresting, Quantity.pos_iff.mpr hqty, if_true, Bool.false_eq_true, if_false] at hadd
  have hread := Orderbook.read_updateOrder_self { b with trades := [] } order
    (·.settled (b.heap.read order).quantity (b.heap.read order).quantity)
  rw [Order.settled_eq] at hread
  refine ⟨?_, fun q => ?_⟩
  · rw [hadd, bookOrder, hread]
    simp only [hside, hprice, reduceCtorEq, if_false]
    exact (SortedMap.split_head hasks).2.1 _
  · rw [hadd, heap_bookOrder]
    by_cases hq : q = order
    · rw [hq, read_updateOrder_self, Order.quantity_settled]
      simp only [hresting, Bool.false_eq_true, if_false]
    · rw [read_updateOrder_of_ne _ hq]

/-- **With two orders under one id**, a modify takes the one in front out of the level and enters
the other a second time. -/
theorem not_modifyReplaces_of_sameId (hbids : b.bids.entries = [])
    (hasks : b.asks.entries = [(price, [p, q])])
    (hid : (b.heap.read p).orderId = (b.heap.read q).orderId)
    (hprice : (b.heap.read q).price = price) (hside : (b.heap.read q).buySell = .sell)
    (hlimit : (b.heap.read q).orderType = .limit)
    (hindex : b.orders.lookup (b.heap.read q).orderId = some q) (hq : q < b.heap.next)
    (hqty : newQuantity ≠ 0) (hne : (b.heap.read q).quantity ≠ newQuantity) :
    ¬ b.ModifyReplaces (b.heap.read q).orderId price newQuantity := by
  intro h
  have hmem : q ∈ b.resting := by
    refine List.mem_append_right _ ?_
    rw [hasks]
    exact mem_pointers.mpr ⟨_, List.mem_singleton_self _, by simp⟩
  have htarget : b.modifyTarget (b.heap.read q).orderId price newQuantity = some q := by
    simp only [modifyTarget, hindex]
    exact if_neg fun hsame => hne hsame.2
  -- the level after the modify: the same object twice
  obtain ⟨hdasks, hdbids⟩ := detachOrder_sameId hasks hid hprice hside
  have hread : (b.prepareModify q price newQuantity).heap.read q =
      (((b.heap.read q).setPrice price).setQuantity newQuantity).setOrderStatus .modify := by
    rw [prepareModify, read_updateOrder_self, heap_detachOrder]
  obtain ⟨hmodified, hmodifiedQty⟩ := addToBook_behind (b := b.prepareModify q price newQuantity)
    ((congrArg SortedMap.entries hdbids).trans hbids) hdasks (by rw [hread]; rfl)
    (by rw [hread]; exact hside) (by rw [hread]; exact hlimit) (by rw [hread]; exact hqty)
  -- the level after the cancel and the add: the cancelled order, and a new one
  obtain ⟨hcasks, hcbids, hcread⟩ := cancelOrder_sameId hasks hid hprice hside hindex
  have hnew := (b.cancelOrder (b.heap.read q).orderId).heap.read_alloc_next
    (replacement (b.heap.read q) price newQuantity)
  obtain ⟨hadded, haddedQty⟩ := addToBook_behind
    (b := (b.cancelOrder (b.heap.read q).orderId).allocOrder
      (replacement (b.heap.read q) price newQuantity))
    ((congrArg SortedMap.entries hcbids).trans hbids) hcasks (congrArg Order.price hnew)
    ((congrArg Order.buySell hnew).trans hside) (congrArg Order.orderType hnew)
    (fun hzero => hqty ((congrArg Order.quantity hnew).symm.trans hzero))
  have hcnext : q < (b.cancelOrder (b.heap.read q).orderId).heap.next := by
    simp only [cancelOrder, hindex, clearOrderRecord, updateOrder, heap_detachOrder]
    exact hq
  have hsame := h.replaced q hmem rfl fun hsame => hne hsame.2
  rw [modifyOrder, htarget] at hsame
  have hquantity := hsame.quantity_head (s := .ask) hmodified hadded
  rw [hmodifiedQty, hread] at hquantity
  refine hqty (hquantity.symm.trans ((haddedQty q).trans ?_))
  rw [allocOrder, ObjectStore.read_alloc_of_lt _ hcnext, hcread]
  rfl

end SameId

theorem SharesId.not_modifyReplaces {e : MatchingEngine} {p : OrderPointer} (h : SharesId e p) :
    ¬ e.orderbook.ModifyReplaces 1 100 7 := by
  have hid := h.orderId
  have hqty : (e.orderbook.heap.read p).quantity = 5 := congrArg Order.quantity h.second
  have hnot := not_modifyReplaces_of_sameId h.bids h.asks h.sameId h.price h.buySell
    (congrArg Order.orderType h.second) (hid ▸ h.index) h.allocated (by decide : (7 : Quantity) ≠ 0)
    (by rw [hqty]; decide)
  rwa [hid] at hnot

theorem not_modifyReplaces_wrappedRun :
    ¬ (after [] (fun _ => 0) (wrappedRun (2 ^ 64 - 1))).orderbook.ModifyReplaces 1 100 7 := by
  obtain ⟨p, h⟩ := wrappedRun_spec (n := 2 ^ 64 - 1) (by decide)
  exact h.not_modifyReplaces

end ExchangeEngine
