import ExchangeEngine.LevelBooks
import ExchangeEngine.Matching

/-!
# The Operations of the Order Book

What `addToBook`, `modifyOrder` and `cancelOrder` do to the representation invariant and to
the view of a book.

* `addToBook_spec`: adding an order submits its offer to the view. MARKET and IOC orders are
  submitted without being kept.
* `cancelOrder_spec`: cancelling an id withdraws it from the view.
* `prepareModify_spec`: the first half of an effective modify withdraws the order and gives it the
  new price and quantity; the second half adds it again, behind everything at the new price.

Between the two halves of a modify the index still has the entry of an order that rests
nowhere. `Detached` is the invariant in that state, and what `addToBook` starts from.
-/

open PriceTime

namespace ExchangeEngine

/-- The value of `BuySell` that names a side. -/
def buySellOf : Side → BuySell
  | .bid => .buy
  | .ask => .sell

namespace Orderbook

variable {b : Orderbook} {order p : OrderPointer} {s : Side}

/-- The book is well formed apart from the index entry of the order at `order`, which rests
in no level. -/
structure Detached (b : Orderbook) (order : OrderPointer) : Prop where
  bids : LevelsWf b.heap .buy b.bids.entries
  asks : LevelsWf b.heap .sell b.asks.entries
  bids_noEmpty : NoEmptyLevel b.bids.entries
  asks_noEmpty : NoEmptyLevel b.asks.entries
  index : Indexed b.heap (b.orders.erase (b.heap.read order).orderId) b.resting
  allocated : ∀ p ∈ b.resting, p < b.heap.next

theorem Detached.notMem (h : b.Detached order) : order ∉ b.resting :=
  fun hmem => h.index.id_ne_of_erase hmem rfl

theorem Detached.nodup_ids (h : b.Detached order) : b.view.ids.Nodup := by
  rw [b.ids_view]
  exact h.index.nodup

theorem Detached.id_notMem (h : b.Detached order) :
    (b.heap.read order).orderId ∉ b.view.ids := by
  intro hmem
  obtain ⟨q, hq, hid⟩ := mem_ids_view.mp hmem
  exact h.index.id_ne_of_erase hq hid

/-- An order with an id that the index does not know rests nowhere. -/
theorem Wf.detached (h : b.Wf) (hnone : b.orders.lookup (b.heap.read order).orderId = none) :
    b.Detached order :=
  ⟨h.bids, h.asks, h.bids_noEmpty, h.asks_noEmpty,
    (UnorderedMap.erase_eq_self hnone).symm ▸ h.index, h.allocated⟩

/-- A detached order without an index entry needs none. -/
theorem Detached.wf (h : b.Detached order)
    (hnone : b.orders.lookup (b.heap.read order).orderId = none) : b.Wf :=
  ⟨h.bids, h.asks, h.bids_noEmpty, h.asks_noEmpty,
    UnorderedMap.erase_eq_self hnone ▸ h.index, h.allocated⟩

/-- The recorded trades are no part of the invariant. -/
theorem Detached.setTrades (h : b.Detached order) (trades : List Trade) :
    { b with trades }.Detached order :=
  ⟨h.bids, h.asks, h.bids_noEmpty, h.asks_noEmpty, h.index, h.allocated⟩

/-! ### Writing to an order outside the book -/

@[simp] theorem read_updateOrder_self (b : Orderbook) (order : OrderPointer)
    (f : Order → Order) :
    (b.updateOrder order f).heap.read order = f (b.heap.read order) :=
  ObjectStore.read_write_self b.heap order _

theorem read_updateOrder_of_ne (b : Orderbook) {order q : OrderPointer} (h : q ≠ order)
    (f : Order → Order) : (b.updateOrder order f).heap.read q = b.heap.read q :=
  ObjectStore.read_write_of_ne b.heap h _

@[simp] theorem updateOrder_updateOrder (b : Orderbook) (order : OrderPointer)
    (f g : Order → Order) :
    (b.updateOrder order f).updateOrder order g = b.updateOrder order fun o => g (f o) := by
  simp [updateOrder]

/-- Writing to an order that rests nowhere changes neither the view nor the invariant. -/
theorem Detached.updateOrder (h : b.Detached order) {f : Order → Order}
    (hid : (f (b.heap.read order)).orderId = (b.heap.read order).orderId) :
    (b.updateOrder order f).Detached order ∧ (b.updateOrder order f).view = b.view := by
  have hread : ∀ q ∈ b.resting, (b.updateOrder order f).heap.read q = b.heap.read q := by
    intro q hq
    refine read_updateOrder_of_ne b ?_ f
    rintro rfl
    exact h.notMem hq
  have hbids : ∀ q ∈ pointers b.bids.entries,
      (b.updateOrder order f).heap.read q = b.heap.read q :=
    fun q hq => hread q (List.mem_append_left _ hq)
  have hasks : ∀ q ∈ pointers b.asks.entries,
      (b.updateOrder order f).heap.read q = b.heap.read q :=
    fun q hq => hread q (List.mem_append_right _ hq)
  refine ⟨⟨h.bids.congr hbids, h.asks.congr hasks, h.bids_noEmpty, h.asks_noEmpty, ?_,
    h.allocated⟩, ?_⟩
  · rw [read_updateOrder_self, hid]
    exact h.index.congr fun q hq => by rw [hread q hq]
  · have hb := offers_congr hbids
    have ha := offers_congr hasks
    simp only [Orderbook.updateOrder] at hb ha
    simp only [view, Orderbook.updateOrder, hb, ha]

/-- Forgetting the index entry of an order that rests nowhere completes the invariant. -/
theorem Detached.clearOrderRecord (h : b.Detached order) :
    (b.clearOrderRecord (b.heap.read order).orderId).Wf :=
  ⟨h.bids, h.asks, h.bids_noEmpty, h.asks_noEmpty, h.index, h.allocated⟩

/-! ### Matching -/

/-- The executions of the matching part of `addToBook`. -/
def contraMoments (b : Orderbook) (order : OrderPointer) : List Moment :=
  let originalQuantity := (b.heap.read order).quantity
  match (b.heap.read order).buySell with
  | .buy => matchMoments order .buy (b.matchState b.asks originalQuantity)
  | .sell => matchMoments order .sell (b.matchState b.bids originalQuantity)
  | .default => []

/-- The sweep of the opposite side by the order at `order`, an order of side `s`. -/
def sweepBy (b : Orderbook) (order : OrderPointer) (s : Side) : Sweep OrderId Price OrderTag :=
  b.view.execution s ((b.heap.read order).accepts (buySellOf s)) (b.heap.read order).offer

/-- **What matching does**: it leaves a book `b'` and a remaining quantity. -/
structure Matched (b : Orderbook) (order : OrderPointer) (s : Side) (b' : Orderbook)
    (remaining : Quantity) : Prop where
  detached : b'.Detached order
  read : b'.heap.read order = b.heap.read order
  view : b'.view = b.view.setSide s.contra (b.sweepBy order s).rest
  trades : b'.trades =
    b.trades ++ (b.sweepBy order s).fills.map (tradeOf (buySellOf s) (b.heap.read order).orderId)
  moments : b'.trades = b.trades ++ (b.contraMoments order).map Moment.trade
  momentWf : ∀ m ∈ b.contraMoments order,
    MomentWf (b.heap.read order) (buySellOf s) (buySellOf s.contra) (b.view.side s.contra) m
  remaining : remaining.toNat = (b.sweepBy order s).left
  next : b'.heap.next = b.heap.next
  lookup : b'.orders.lookup (b.heap.read order).orderId =
    b.orders.lookup (b.heap.read order).orderId

/-- **Matching** is the sweep of the other side by the order's quantity: its fills are the trades,
and what it leaves is the other side. The order itself stays detached. -/
theorem matchContra_spec (h : b.Detached order)
    (hs : (b.heap.read order).buySell = buySellOf s) :
    b.Matched order s (b.matchContra order).1 (b.matchContra order).2 := by
  cases s with
  | bid =>
      have hinv : MatchInv order (b.heap.read order) .buy .sell (pointers b.bids.entries)
          (b.matchState b.asks (b.heap.read order).quantity) :=
        ⟨rfl, h.asks, h.index.perm List.perm_append_comm, h.asks_noEmpty⟩
      have hout := matchAgainst_spec hinv rfl
      have hcon : b.contraMoments order =
          matchMoments order .buy (b.matchState b.asks (b.heap.read order).quantity) := by
        simp only [contraMoments, hs, buySellOf]
      simp only [matchContra, hs, buySellOf]
      have hown := hout.frame.own
      refine ⟨⟨h.bids.congr hown, hout.inv.levels, h.bids_noEmpty, hout.noEmpty, ?_, ?_⟩,
        hout.inv.order_eq, ?_, hout.trades, ?_, ?_, hout.remaining, hout.frame.next,
        hout.frame.lookup⟩
      · rw [show Orderbook.heap _ = _ from rfl, hout.inv.order_eq]
        exact hout.inv.index.perm List.perm_append_comm
      · intro q hq
        rw [show ObjectStore.next _ = _ from hout.frame.next]
        refine h.allocated q ?_
        rcases List.mem_append.mp hq with hq | hq
        · exact List.mem_append_left _ hq
        · exact List.mem_append_right _ (hout.frame.sublist.subset hq)
      · simp only [view, Book.setSide, Side.contra, offers_congr hown, hout.offers]
        rfl
      · rw [hcon]
        exact trades_matchAgainst _
      · rw [hcon]
        exact momentWf_of_mem hinv
  | ask =>
      have hinv : MatchInv order (b.heap.read order) .sell .buy (pointers b.asks.entries)
          (b.matchState b.bids (b.heap.read order).quantity) :=
        ⟨rfl, h.bids, h.index, h.bids_noEmpty⟩
      have hout := matchAgainst_spec hinv rfl
      have hcon : b.contraMoments order =
          matchMoments order .sell (b.matchState b.bids (b.heap.read order).quantity) := by
        simp only [contraMoments, hs, buySellOf]
      simp only [matchContra, hs, buySellOf]
      have hown := hout.frame.own
      refine ⟨⟨hout.inv.levels, h.asks.congr hown, hout.noEmpty, h.asks_noEmpty, ?_, ?_⟩,
        hout.inv.order_eq, ?_, hout.trades, ?_, ?_, hout.remaining, hout.frame.next,
        hout.frame.lookup⟩
      · rw [show Orderbook.heap _ = _ from rfl, hout.inv.order_eq]
        exact hout.inv.index
      · intro q hq
        rw [show ObjectStore.next _ = _ from hout.frame.next]
        refine h.allocated q ?_
        rcases List.mem_append.mp hq with hq | hq
        · exact List.mem_append_left _ (hout.frame.sublist.subset hq)
        · exact List.mem_append_right _ hq
      · simp only [view, Book.setSide, Side.contra, offers_congr hown, hout.offers]
        rfl
      · rw [hcon]
        exact trades_matchAgainst _
      · rw [hcon]
        exact momentWf_of_mem hinv

/-! ### Settling -/

end Orderbook

/-- The incoming order after `settleOrder`. -/
def Order.settled (o : Order) (originalQuantity remaining : Quantity) : Order :=
  let o := o.setQuantity remaining
  if remaining = 0 ∧ 0 < originalQuantity then o.setOrderStatus .traded
  else if o.isAggressive then (o.setOrderStatus .cancelled).setQuantity 0
  else if remaining < originalQuantity then o.setOrderStatus .modify
  else if o.orderStatus ≠ .modify then o.setOrderStatus .new
  else o

section Settled

variable (o : Order) (originalQuantity remaining : Quantity)

theorem Order.settled_eq :
    o.settled originalQuantity remaining =
      { o with
        quantity := (o.settled originalQuantity remaining).quantity
        orderStatus := (o.settled originalQuantity remaining).orderStatus } := by
  simp only [Order.settled]
  split
  · rfl
  split
  · rfl
  split
  · rfl
  split <;> rfl

/-- Only an order that may rest keeps a quantity. -/
theorem Order.quantity_settled :
    (o.settled originalQuantity remaining).quantity =
      if o.isAggressive then 0 else remaining := by
  have haggr : (o.setQuantity remaining).isAggressive = o.isAggressive := rfl
  simp only [Order.settled, haggr]
  split
  · rename_i h
    rw [show ((o.setQuantity remaining).setOrderStatus .traded).quantity = remaining from rfl,
      h.1, ite_self]
  · cases o.isAggressive with
    | true => rfl
    | false =>
        simp only [Bool.false_eq_true, if_false]
        split
        · rfl
        split <;> rfl

end Settled

namespace Orderbook

variable {b : Orderbook} {order p : OrderPointer} {s : Side}

/-- `settleOrder` writes to the incoming order once, and then books it, takes it out of the
index, or does neither. -/
theorem settleOrder_eq (b : Orderbook) (order : OrderPointer)
    (originalQuantity remaining : Quantity) :
    b.settleOrder order originalQuantity remaining =
      let b' := b.updateOrder order (·.settled originalQuantity remaining)
      if remaining = 0 ∧ 0 < originalQuantity then
        b'.clearOrderRecord (b.heap.read order).orderId
      else if (b.heap.read order).isAggressive then b'
      else if 0 < remaining then b'.bookOrder order
      else b' := by
  have hsettled := (b.heap.read order).quantity_settled originalQuantity remaining
  have haggr : ((b.heap.read order).setQuantity remaining).isAggressive =
      (b.heap.read order).isAggressive := rfl
  by_cases hfull : remaining = 0 ∧ 0 < originalQuantity
  · simp only [settleOrder, Order.settled, if_pos hfull, updateOrder_updateOrder,
      read_updateOrder_self]
    rfl
  by_cases hag : (b.heap.read order).isAggressive = true
  · simp only [settleOrder, if_neg hfull, read_updateOrder_self, haggr, if_pos hag,
      updateOrder_updateOrder]
    simp only [updateOrder, Order.settled, if_neg hfull, haggr, if_pos hag]
  · simp only [settleOrder, if_neg hfull, read_updateOrder_self, haggr, if_neg hag,
      updateOrder_updateOrder]
    have hwrite : ∀ f : Order → Order,
        f (b.heap.read order) = (b.heap.read order).settled originalQuantity remaining →
        b.updateOrder order f = b.updateOrder order (·.settled originalQuantity remaining) := by
      intro f hf
      rw [updateOrder, updateOrder, hf]
    by_cases hlt : remaining < originalQuantity
    · simp only [if_pos hlt]
      rw [hwrite fun o => (o.setQuantity remaining).setOrderStatus .modify]
      · rw [read_updateOrder_self, hsettled, if_neg hag]
      · simp only [Order.settled, if_neg hfull, haggr, if_neg hag, if_pos hlt]
    have hstatus : ((b.heap.read order).setQuantity remaining).orderStatus =
        (b.heap.read order).orderStatus := rfl
    by_cases hst : (b.heap.read order).orderStatus = .modify
    · simp only [if_neg hlt, hstatus, hst, ne_eq, not_true, if_false]
      rw [hwrite (·.setQuantity remaining)]
      · rw [read_updateOrder_self, hsettled, if_neg hag]
      · simp only [Order.settled, if_neg hfull, haggr, if_neg hag, if_neg hlt, hstatus, hst,
          ne_eq, not_true, if_false]
    · simp only [if_neg hlt, hstatus, ne_eq, hst, not_false_iff, if_true]
      rw [hwrite fun o => (o.setQuantity remaining).setOrderStatus .new]
      · rw [read_updateOrder_self, hsettled, if_neg hag]
      · simp only [Order.settled, if_neg hfull, haggr, if_neg hag, if_neg hlt, hstatus, ne_eq,
          hst, not_false_iff, if_true]

/-- What an order must satisfy to be added to the book: it has a quantity, and it is either
a LIMIT order at a positive price or a MARKET or IOC order that the index does not know. -/
structure Addable (b : Orderbook) (order : OrderPointer) (s : Side) : Prop where
  buySell : (b.heap.read order).buySell = buySellOf s
  quantity : (b.heap.read order).quantity ≠ 0
  limit : (b.heap.read order).isAggressive = false →
    (b.heap.read order).orderType = .limit ∧ 0 < (b.heap.read order).price
  aggressive : (b.heap.read order).isAggressive = true →
    b.orders.lookup (b.heap.read order).orderId = none
  allocated : order < b.heap.next

theorem heap_bookOrder (b : Orderbook) (order : OrderPointer) :
    (b.bookOrder order).heap = b.heap := by
  simp only [bookOrder]
  split <;> rfl

theorem trades_bookOrder (b : Orderbook) (order : OrderPointer) :
    (b.bookOrder order).trades = b.trades := by
  simp only [bookOrder]
  split <;> rfl

/-- Booking an order puts its offer behind all others at its price, and makes the book well-formed
again. -/
theorem bookOrder_spec (h : b.Detached order) (hs : (b.heap.read order).buySell = buySellOf s)
    (hrest : Resting b.heap (buySellOf s) (b.heap.read order).price order)
    (halloc : order < b.heap.next) :
    (b.bookOrder order).Wf ∧
      (b.bookOrder order).view =
        b.view.setSide s (enqueue s.better (b.heap.read order).offer (b.view.side s)) := by
  cases s with
  | bid =>
      obtain ⟨hwf, hne, hperm, hoff⟩ := upsert_spec h.bids h.bids_noEmpty hrest
      have hperm' : (order :: b.resting).Perm (pointers (b.bids.upsert (b.heap.read order).price
          fun level => level.getD [] ++ [order]).entries ++ pointers b.asks.entries) :=
        (hperm.append_right _).symm
      simp only [bookOrder, hs, buySellOf, if_true]
      refine ⟨⟨hwf, h.asks, hne, h.asks_noEmpty, h.index.insert.perm hperm', ?_⟩, ?_⟩
      · intro q hq
        rcases List.mem_cons.mp (hperm'.mem_iff.mpr hq) with rfl | hq
        · exact halloc
        · exact h.allocated q hq
      · simp only [view, Book.setSide, Book.side, hoff]
        rfl
  | ask =>
      obtain ⟨hwf, hne, hperm, hoff⟩ := upsert_spec h.asks h.asks_noEmpty hrest
      have hperm' : (order :: b.resting).Perm (pointers b.bids.entries ++
          pointers (b.asks.upsert (b.heap.read order).price
            fun level => level.getD [] ++ [order]).entries) :=
        ((hperm.append_left _).trans List.perm_middle).symm
      simp only [bookOrder, hs, buySellOf, reduceCtorEq, if_false]
      refine ⟨⟨h.bids, hwf, h.bids_noEmpty, hne, h.index.insert.perm hperm', ?_⟩, ?_⟩
      · intro q hq
        rcases List.mem_cons.mp (hperm'.mem_iff.mpr hq) with rfl | hq
        · exact halloc
        · exact h.allocated q hq
      · simp only [view, Book.setSide, Book.side, hoff]
        rfl

/-- **What settling does** to a book after matching. -/
theorem settleOrder_spec (h : b.Detached order) (hadd : b.Addable order s)
    {originalQuantity : Quantity} (horig : originalQuantity ≠ 0) (remaining : Quantity) :
    let b' := b.settleOrder order originalQuantity remaining
    b'.Wf ∧
      b'.view =
        (if (b.heap.read order).isAggressive = false ∧ remaining.toNat ≠ 0 then
          b.view.setSide s (enqueue s.better
            { (b.heap.read order).offer with qty := remaining.toNat } (b.view.side s))
        else b.view) ∧
      b'.heap.read order = (b.heap.read order).settled originalQuantity remaining ∧
      b'.trades = b.trades ∧ b'.heap.next = b.heap.next := by
  have hset := (b.heap.read order).settled_eq originalQuantity remaining
  have hqty := (b.heap.read order).quantity_settled originalQuantity remaining
  obtain ⟨hdet, hview⟩ := h.updateOrder (f := (·.settled originalQuantity remaining))
    (by rw [hset])
  have hread := read_updateOrder_self b order (·.settled originalQuantity remaining)
  have hzero : remaining.toNat ≠ 0 ↔ remaining ≠ 0 := by
    rw [← Nat.pos_iff_ne_zero, Quantity.toNat_pos_iff]
  by_cases hrem : remaining = 0
  · have hfull : remaining = 0 ∧ 0 < originalQuantity := ⟨hrem, Quantity.pos_iff.mpr horig⟩
    have hid : (b.heap.read order).orderId =
        ((b.updateOrder order (·.settled originalQuantity remaining)).heap.read order).orderId := by
      rw [hread, hset]
    rw [settleOrder_eq, if_pos hfull, if_neg fun h => hzero.mp h.2 hrem]
    exact ⟨hid ▸ hdet.clearOrderRecord, hview, hread, rfl, rfl⟩
  have hfull : ¬ (remaining = 0 ∧ 0 < originalQuantity) := fun h => hrem h.1
  cases hag : (b.heap.read order).isAggressive with
  | true =>
      rw [settleOrder_eq, if_neg hfull, if_pos hag, if_neg (by simp)]
      have hnone := hadd.aggressive hag
      refine ⟨hdet.wf ?_, hview, hread, rfl, rfl⟩
      rw [hread, hset]
      exact hnone
  | false =>
      have hag' : ¬ (b.heap.read order).isAggressive = true := by simp [hag]
      rw [settleOrder_eq, if_neg hfull, if_neg hag', if_pos (Quantity.pos_iff.mpr hrem),
        if_pos ⟨rfl, hzero.mpr hrem⟩]
      obtain ⟨hlimit, hprice⟩ := hadd.limit hag
      have hqty' : ((b.heap.read order).settled originalQuantity remaining).quantity =
          remaining := by
        rw [hqty, if_neg hag']
      have hs : ((b.updateOrder order (·.settled originalQuantity remaining)).heap.read
          order).buySell = buySellOf s := by
        rw [hread, hset]
        exact hadd.buySell
      have hoffer : ((b.heap.read order).settled originalQuantity remaining).offer =
          { (b.heap.read order).offer with qty := remaining.toNat } := by
        rw [Order.offer, hqty', hset]
        rfl
      obtain ⟨hwf, hbook⟩ := bookOrder_spec hdet hs
        ⟨hs, by rw [hread, hset]; exact hlimit, by rw [hread, hqty']; exact hrem, rfl,
          by rw [hread, hset]; exact hprice⟩ hadd.allocated
      rw [hview, hread, hoffer] at hbook
      exact ⟨hwf, hbook, by rw [heap_bookOrder, hread], trades_bookOrder _ _,
        by rw [heap_bookOrder]; rfl⟩

/-! ### Adding -/

/-- The executions of `addToBook`, in order. -/
def addToBookMoments (b : Orderbook) (order : OrderPointer) : List Moment :=
  { b with trades := [] }.contraMoments order

/-- **What adding an order does.** -/
structure Added (b : Orderbook) (order : OrderPointer) (s : Side) (b' : Orderbook) : Prop where
  wf : b'.Wf
  view : b'.view = b.view.submit s ((b.heap.read order).accepts (buySellOf s))
    (!(b.heap.read order).isAggressive) (b.heap.read order).offer
  read : b'.heap.read order = (b.heap.read order).settled (b.heap.read order).quantity
    (UInt32.ofNat (b.sweepBy order s).left)
  remaining : ({ b with trades := [] }.matchContra order).2.toNat = (b.sweepBy order s).left
  trades : b'.trades =
    (b.sweepBy order s).fills.map (tradeOf (buySellOf s) (b.heap.read order).orderId)
  moments : b'.trades = (b.addToBookMoments order).map Moment.trade
  momentWf : ∀ m ∈ b.addToBookMoments order,
    MomentWf (b.heap.read order) (buySellOf s) (buySellOf s.contra) (b.view.side s.contra) m
  next : b'.heap.next = b.heap.next

/-- Matching leaves the incoming order as it was. -/
theorem Addable.matched {b' : Orderbook} {trades : List Trade} {remaining : Quantity}
    (hadd : b.Addable order s) (hmatch : { b with trades }.Matched order s b' remaining) :
    b'.Addable order s := by
  have hread : b'.heap.read order = b.heap.read order := hmatch.read
  refine ⟨?_, ?_, ?_, ?_, ?_⟩
  · rw [hread]
    exact hadd.buySell
  · rw [hread]
    exact hadd.quantity
  · rw [hread]
    exact hadd.limit
  · rw [hread]
    exact fun hag => hmatch.lookup.trans (hadd.aggressive hag)
  · rw [hmatch.next]
    exact hadd.allocated

/-- **Adding a detached order** submits its offer to the view. -/
theorem addToBook_spec (h : b.Detached order) (hadd : b.Addable order s) :
    b.Added order s (b.addToBook order) := by
  obtain ⟨b', remaining, hb'⟩ : ∃ b' remaining,
      { b with trades := [] }.matchContra order = (b', remaining) := ⟨_, _, rfl⟩
  have hmatch : Matched { b with trades := [] } order s b' remaining := by
    have := matchContra_spec (h.setTrades []) hadd.buySell
    rwa [hb'] at this
  have hread : b'.heap.read order = b.heap.read order := hmatch.read
  have hadd' : b'.Addable order s := hadd.matched hmatch
  obtain ⟨hwf, hview, hfinal, htrades, hnext⟩ :=
    settleOrder_spec hmatch.detached hadd' hadd.quantity remaining
  have hadded : b.addToBook order = b'.settleOrder order (b.heap.read order).quantity remaining := by
    simp only [addToBook, hb']
  have hrem : remaining = UInt32.ofNat (b.sweepBy order s).left := by
    rw [← UInt32.toNat_inj, ← show remaining.toNat = (b.sweepBy order s).left from hmatch.remaining,
      UInt32.ofNat_toNat]
  rw [hadded]
  refine ⟨hwf, ?_, ?_, ?_, htrades.trans ?_, htrades.trans ?_, hmatch.momentWf,
    hnext.trans hmatch.next⟩
  · have hview' : b'.view = b.view.setSide s.contra (b.sweepBy order s).rest := hmatch.view
    have hleft : remaining.toNat = (b.sweepBy order s).left := hmatch.remaining
    have hexec : b.view.execution s ((b.heap.read order).accepts (buySellOf s))
        (b.heap.read order).offer = b.sweepBy order s := rfl
    rw [hview, hview', hread, Book.side_contra_setSide]
    simp only [Book.submit, hexec, hleft, Bool.not_eq_true']
  · rw [hfinal, hread, hrem]
  · rw [hb']
    exact hmatch.remaining
  · exact hmatch.trades.trans (List.nil_append _)
  · exact hmatch.moments.trans (List.nil_append _)

/-! ### Removing -/

theorem Wf.buySell_bids (h : b.Wf) (hp : p ∈ pointers b.bids.entries) :
    (b.heap.read p).buySell = .buy :=
  (h.bids.resting hp).buySell

theorem Wf.buySell_asks (h : b.Wf) (hp : p ∈ pointers b.asks.entries) :
    (b.heap.read p).buySell = .sell :=
  (h.asks.resting hp).buySell

/-- The orders in the levels of the buyers are the resting orders that buy. -/
theorem Wf.mem_bids (h : b.Wf) :
    p ∈ pointers b.bids.entries ↔ p ∈ b.resting ∧ (b.heap.read p).buySell = .buy := by
  refine ⟨fun hp => ⟨List.mem_append_left _ hp, h.buySell_bids hp⟩, fun ⟨hp, hs⟩ => ?_⟩
  refine (List.mem_append.mp hp).resolve_right fun hask => ?_
  rw [h.buySell_asks hask] at hs
  cases hs

/-- The orders in the levels of the sellers are the resting orders that sell. -/
theorem Wf.mem_asks (h : b.Wf) :
    p ∈ pointers b.asks.entries ↔ p ∈ b.resting ∧ (b.heap.read p).buySell = .sell := by
  refine ⟨fun hp => ⟨List.mem_append_right _ hp, h.buySell_asks hp⟩, fun ⟨hp, hs⟩ => ?_⟩
  refine (List.mem_append.mp hp).resolve_left fun hbid => ?_
  rw [h.buySell_bids hbid] at hs
  cases hs

/-- An order in the book rests on one of the two sides. -/
theorem Wf.resting (h : b.Wf) (hp : p ∈ b.resting) :
    ∃ s, Resting b.heap (buySellOf s) (b.heap.read p).price p := by
  rcases List.mem_append.mp hp with hbid | hask
  · exact ⟨.bid, h.bids.resting hbid⟩
  · exact ⟨.ask, h.asks.resting hask⟩

/-- The offers of a side of the view are those of the resting orders of that side. -/
theorem Wf.mem_side (h : b.Wf) {a : BookOffer} :
    a ∈ b.view.side s ↔
      ∃ p ∈ b.resting, (b.heap.read p).buySell = buySellOf s ∧ (b.heap.read p).offer = a := by
  cases s with
  | bid =>
      refine mem_offersAt.trans (exists_congr fun p => ?_)
      rw [h.mem_bids, and_assoc]
      rfl
  | ask =>
      refine mem_offersAt.trans (exists_congr fun p => ?_)
      rw [h.mem_asks, and_assoc]
      rfl

/-- Filtering out the id of an order of the other side changes nothing. -/
theorem Wf.filter_other (h : b.Wf) (hp : p ∈ b.resting) {ps : OrderPointers}
    (hps : ∀ q ∈ ps, q ∈ b.resting ∧ (b.heap.read q).buySell ≠ (b.heap.read p).buySell) :
    ps.filter (fun q => (b.heap.read q).orderId ≠ (b.heap.read p).orderId) = ps := by
  refine List.filter_eq_self.mpr fun q hq => ?_
  obtain ⟨hmem, hside⟩ := hps q hq
  have hid : (b.heap.read q).orderId ≠ (b.heap.read p).orderId := by
    intro heq
    exact hside (by rw [h.index.inj hmem hp heq])
  simpa using hid

/-- **What `detachOrder` does** with a resting order: the order leaves the levels, and its
index entry stays behind. -/
structure DetachedFrom (b : Orderbook) (order : OrderPointer) (b' : Orderbook) : Prop where
  detached : b'.Detached order
  view : b'.view = b.view.withdraw (b.heap.read order).orderId
  heap : b'.heap = b.heap
  orders : b'.orders = b.orders
  trades : b'.trades = b.trades

/-- The aggregates after `detachOrder`. -/
def detachedLevels (b : Orderbook) (order : OrderPointer) : UnorderedMap Price LevelData :=
  if 0 < (b.heap.read order).quantity then
    updateLevelOnFill b.priceToLeveldata (b.heap.read order).price
      (b.heap.read order).quantity true
  else b.priceToLeveldata

theorem detachOrder_buy (hs : (b.heap.read order).buySell = .buy) :
    b.detachOrder order =
      { b with
        priceToLeveldata := b.detachedLevels order
        bids := eraseFromBook b.heap order b.bids } := by
  simp only [detachOrder, detachedLevels]
  split <;> simp only [removeOrderFromBook, hs, if_true]

theorem detachOrder_sell (hs : (b.heap.read order).buySell = .sell) :
    b.detachOrder order =
      { b with
        priceToLeveldata := b.detachedLevels order
        asks := eraseFromBook b.heap order b.asks } := by
  simp only [detachOrder, detachedLevels]
  split <;> simp only [removeOrderFromBook, hs, reduceCtorEq, if_false]

/-- Taking an order out of its level withdraws it from the view, while the index still has its
entry. -/
theorem detachOrder_spec (h : b.Wf) (hp : order ∈ b.resting) :
    b.DetachedFrom order (b.detachOrder order) := by
  have hindex := h.index.filter (b.heap.read order).orderId
  rw [resting, List.filter_append] at hindex
  have hnd := h.index.nodup
  rw [resting, List.map_append] at hnd
  have hoffers : ∀ levels : Levels,
      offersAt b.heap ((pointers levels).filter
        fun q => (b.heap.read q).orderId ≠ (b.heap.read order).orderId) =
      (offers b.heap levels).filter fun o => o.id ≠ (b.heap.read order).orderId :=
    fun levels => offersAt_filter b.heap (pointers levels) _
  have halloc : ∀ ps : OrderPointers, ps.Sublist b.resting → ∀ q ∈ ps, q < b.heap.next :=
    fun ps hsub q hq => h.allocated q (hsub.subset hq)
  rcases List.mem_append.mp hp with hbid | hask
  · have hs : (b.heap.read order).buySell = .buy := h.buySell_bids hbid
    have hother := h.filter_other hp fun q (hq : q ∈ pointers b.asks.entries) =>
      ⟨List.mem_append_right _ hq, by rw [hs, h.buySell_asks hq]; decide⟩
    obtain ⟨hwf, hne, hptr⟩ := eraseFromBook_spec h.bids h.bids_noEmpty hnd.of_append_left hbid
    rw [detachOrder_buy hs]
    refine ⟨⟨hwf, h.asks, hne, h.asks_noEmpty, ?_, halloc _ ?_⟩, ?_, rfl, rfl, rfl⟩
    · rw [resting, hptr, ← hother]
      exact hindex
    · rw [resting, hptr]
      exact List.filter_sublist.append (List.Sublist.refl _)
    · rw [view, offers, offers, hptr, hoffers, ← hother, hoffers]
      rfl
  · have hs : (b.heap.read order).buySell = .sell := h.buySell_asks hask
    have hother := h.filter_other hp fun q (hq : q ∈ pointers b.bids.entries) =>
      ⟨List.mem_append_left _ hq, by rw [hs, h.buySell_bids hq]; decide⟩
    obtain ⟨hwf, hne, hptr⟩ := eraseFromBook_spec h.asks h.asks_noEmpty hnd.of_append_right hask
    rw [detachOrder_sell hs]
    refine ⟨⟨h.bids, hwf, h.bids_noEmpty, hne, ?_, halloc _ ?_⟩, ?_, rfl, rfl, rfl⟩
    · rw [resting, hptr, ← hother]
      exact hindex
    · rw [resting, hptr]
      exact (List.Sublist.refl _).append List.filter_sublist
    · rw [view, offers, offers, hptr, hoffers, ← hother, hoffers]
      rfl

/-- **Cancelling** an id withdraws it, if an order with that id rests; otherwise nothing
happens. -/
theorem cancelOrder_spec (h : b.Wf) (orderId : OrderId) :
    (b.cancelOrder orderId).Wf ∧ (b.cancelOrder orderId).view = b.view.withdraw orderId ∧
      (b.cancelOrder orderId).trades = b.trades ∧
      (b.cancelOrder orderId).heap.next = b.heap.next := by
  cases hlook : b.orders.lookup orderId with
  | none =>
      have hself : b.cancelOrder orderId = b := by rw [cancelOrder, hlook]
      rw [hself]
      refine ⟨h, (Book.withdraw_eq_self ?_).symm, rfl, rfl⟩
      rw [h.mem_ids]
      simp [hlook]
  | some order =>
      obtain ⟨hmem, hid⟩ := (h.index.lookup orderId order).mp hlook
      have hdet := detachOrder_spec h hmem
      obtain ⟨hupd, hview⟩ := hdet.detached.updateOrder
        (f := fun o => (o.setQuantity 0).setOrderStatus .cancelled) rfl
      have hid' : orderId = (((b.detachOrder order).updateOrder order fun o =>
          (o.setQuantity 0).setOrderStatus .cancelled).heap.read order).orderId := by
        rw [read_updateOrder_self, hdet.heap]
        exact hid.symm
      have hwf := hupd.clearOrderRecord
      rw [← hid'] at hwf
      simp only [cancelOrder, hlook]
      refine ⟨hwf, ?_, hdet.trades, ?_⟩
      · rw [← hid, ← hdet.view]
        exact hview
      · rw [← hdet.heap]
        rfl

/-! ### Modifying -/

/-- The order that a modify changes rests in the book under the id, and it differs from what
is asked for. -/
theorem Wf.modifyTarget_eq_some (h : b.Wf) {orderId : OrderId} {newPrice : Price}
    {newQuantity : Quantity} :
    b.modifyTarget orderId newPrice newQuantity = some order ↔
      order ∈ b.resting ∧ (b.heap.read order).orderId = orderId ∧
        ¬ ((b.heap.read order).price = newPrice ∧
          (b.heap.read order).quantity = newQuantity) := by
  cases hlook : b.orders.lookup orderId with
  | none =>
      simp only [modifyTarget, hlook, reduceCtorEq, false_iff]
      rintro ⟨hmem, hid, -⟩
      have := (h.index.lookup orderId order).mpr ⟨hmem, hid⟩
      rw [hlook] at this
      cases this
  | some p =>
      have hiff := h.index.lookup orderId order
      rw [hlook, Option.some.injEq] at hiff
      simp only [modifyTarget, hlook]
      rw [← and_assoc, ← hiff]
      constructor
      · intro hsome
        split at hsome
        · cases hsome
        · rename_i hdiff
          obtain rfl := Option.some.inj hsome
          exact ⟨rfl, hdiff⟩
      · rintro ⟨rfl, hdiff⟩
        rw [if_neg hdiff]

/-- **What `prepareModify` does**: the order is withdrawn and carries the new price and
quantity. -/
structure Prepared (b : Orderbook) (order : OrderPointer) (newPrice : Price)
    (newQuantity : Quantity) (s : Side) (b' : Orderbook) : Prop where
  detached : b'.Detached order
  addable : b'.Addable order s
  view : b'.view = b.view.withdraw (b.heap.read order).orderId
  read : b'.heap.read order =
    (((b.heap.read order).setPrice newPrice).setQuantity newQuantity).setOrderStatus .modify
  next : b'.heap.next = b.heap.next

/-- **The first half of a modify** withdraws the order and gives it the new terms; what it leaves
can be added again. -/
theorem prepareModify_spec (h : b.Wf) (hmem : order ∈ b.resting)
    (hs : (b.heap.read order).buySell = buySellOf s) {newPrice : Price}
    {newQuantity : Quantity} (hprice : 0 < newPrice) (hqty : newQuantity ≠ 0) :
    b.Prepared order newPrice newQuantity s (b.prepareModify order newPrice newQuantity) := by
  have hdet := detachOrder_spec h hmem
  obtain ⟨hupd, hview⟩ := hdet.detached.updateOrder (f := fun o =>
    ((o.setPrice newPrice).setQuantity newQuantity).setOrderStatus .modify) rfl
  have hread : (b.prepareModify order newPrice newQuantity).heap.read order =
      (((b.heap.read order).setPrice newPrice).setQuantity newQuantity).setOrderStatus
        .modify := by
    rw [prepareModify, read_updateOrder_self, hdet.heap]
  obtain ⟨_, hrest⟩ := h.resting hmem
  have hlimit := hrest.orderType
  have hnext : (b.prepareModify order newPrice newQuantity).heap.next = b.heap.next := by
    rw [← hdet.heap]
    rfl
  refine ⟨hupd, ⟨?_, ?_, ?_, ?_, ?_⟩, hview.trans hdet.view, hread, hnext⟩
  · rw [hread]
    exact hs
  · rw [hread]
    exact hqty
  · rw [hread]
    exact fun _ => ⟨hlimit, hprice⟩
  · rw [hread]
    intro hag
    simp [Order.isAggressive, Order.setOrderStatus, Order.setQuantity, Order.setPrice,
      hlimit] at hag
  · rw [hnext]
    exact h.allocated order hmem

/-- A resting order is a LIMIT order. -/
theorem Wf.isAggressive (h : b.Wf) (hmem : order ∈ b.resting) :
    (b.heap.read order).isAggressive = false := by
  obtain ⟨s, hrest⟩ := h.resting hmem
  rw [Order.isAggressive, hrest.orderType]
  rfl

/-- A resting order is of one of the two sides. -/
theorem Wf.exists_side (h : b.Wf) (hmem : order ∈ b.resting) :
    ∃ s, (b.heap.read order).buySell = buySellOf s := by
  obtain ⟨s, hrest⟩ := h.resting hmem
  exact ⟨s, hrest.buySell⟩

end Orderbook

end ExchangeEngine
