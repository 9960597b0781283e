import ExchangeEngine.BookOperations

/-!
# The Two Sides, by Name

The book keeps its bids and its asks in two members. Facts that hold of both are stated here for
the side `s`: its levels, what is true of them in a well-formed book, and what it means that an
order rests on it.
-/

open PriceTime

namespace ExchangeEngine

namespace Orderbook

variable {b : Orderbook} {p : OrderPointer} {s : Side} {orderId : OrderId}

/-- The levels of one side, best price first. -/
def levels (b : Orderbook) : Side → Levels
  | .bid => b.bids.entries
  | .ask => b.asks.entries

theorem sorted_levels (b : Orderbook) (s : Side) :
    (b.levels s).Pairwise fun x y => s.better x.1 y.1 := by
  cases s with
  | bid => exact b.bids.sorted
  | ask => exact b.asks.sorted

theorem mem_resting : p ∈ b.resting ↔ ∃ s, p ∈ pointers (b.levels s) := by
  refine List.mem_append.trans ⟨?_, ?_⟩
  · rintro (hbid | hask)
    · exact ⟨.bid, hbid⟩
    · exact ⟨.ask, hask⟩
  · rintro ⟨s, hp⟩
    cases s with
    | bid => exact Or.inl hp
    | ask => exact Or.inr hp

theorem Wf.levelsWf (h : b.Wf) (s : Side) : LevelsWf b.heap (buySellOf s) (b.levels s) := by
  cases s with
  | bid => exact h.bids
  | ask => exact h.asks

theorem Wf.noEmptyLevel (h : b.Wf) (s : Side) : NoEmptyLevel (b.levels s) := by
  cases s with
  | bid => exact h.bids_noEmpty
  | ask => exact h.asks_noEmpty

/-- The orders in the levels of a side are the resting orders of that side. -/
theorem Wf.mem_levels (h : b.Wf) :
    p ∈ pointers (b.levels s) ↔ p ∈ b.resting ∧ (b.heap.read p).buySell = buySellOf s := by
  cases s with
  | bid => exact h.mem_bids
  | ask => exact h.mem_asks

/-- No order is in a side twice. -/
theorem Wf.nodup_pointers (h : b.Wf) (s : Side) : (pointers (b.levels s)).Nodup := by
  have hboth := h.index.nodup.of_map _
  rw [Orderbook.resting] at hboth
  cases s with
  | bid => exact hboth.of_append_left
  | ask => exact hboth.of_append_right

/-- A LIMIT order is closed or booked. -/
theorem settleOrder_of_limit (b : Orderbook) {order : OrderPointer} {q : Quantity} (hq : q ≠ 0)
    (hlimit : (b.heap.read order).orderType = .limit) (remaining : Quantity) :
    b.settleOrder order q remaining =
      let b' := b.updateOrder order (·.settled q remaining)
      if remaining = 0 then b'.clearOrderRecord (b.heap.read order).orderId
      else b'.bookOrder order := by
  have haggressive : (b.heap.read order).isAggressive = false := by
    simp [Order.isAggressive, hlimit]
  rw [settleOrder_eq]
  by_cases hrem : remaining = 0
  · simp only [hrem, Quantity.pos_iff.mpr hq, and_self, if_true]
  · simp only [hrem, false_and, if_false, haggressive, Bool.false_eq_true,
      Quantity.pos_iff.mpr hrem, if_true]

/-- The levels after an order has been booked. -/
theorem levels_bookOrder {order : OrderPointer} (hs : (b.heap.read order).buySell = buySellOf s) :
    (b.bookOrder order).levels s = (match s with
      | .bid =>
          (b.bids.upsert (b.heap.read order).price fun level => level.getD [] ++ [order]).entries
      | .ask =>
          (b.asks.upsert (b.heap.read order).price fun level => level.getD [] ++ [order]).entries) ∧
    (b.bookOrder order).levels s.contra = b.levels s.contra := by
  cases s with
  | bid =>
      simp only [bookOrder, hs, buySellOf, if_true]
      exact ⟨rfl, rfl⟩
  | ask =>
      simp only [bookOrder, hs, buySellOf, reduceCtorEq, if_false]
      exact ⟨rfl, rfl⟩

/-- What booking does to the rest of the book. -/
theorem bookOrder_rest (b : Orderbook) (order : OrderPointer) :
    (b.bookOrder order).priceToLeveldata = updateLevelOnAdd b.priceToLeveldata
      (b.heap.read order).price (b.heap.read order).quantity ∧
    (b.bookOrder order).orders = b.orders.insert (b.heap.read order).orderId order := by
  simp only [bookOrder]
  split <;> exact ⟨rfl, rfl⟩

/-- **An order rests**: the index knows it, and it is in the level at its price. -/
structure RestsAs (b : Orderbook) (orderId : OrderId) (s : Side) (price : Price) (quantity : ℕ)
    (p : OrderPointer) : Prop where
  lookup : b.orders.lookup orderId = some p
  level : ∃ level, (price, level) ∈ b.levels s ∧ p ∈ level
  orderId_eq : (b.heap.read p).orderId = orderId
  buySell : (b.heap.read p).buySell = buySellOf s
  price_eq : (b.heap.read p).price = price
  quantity_eq : (b.heap.read p).quantity.toNat = quantity

/-- Every offer on a side is that of an order that rests there. -/
theorem Wf.restsAs (h : b.Wf) {a : BookOffer} (ha : a ∈ b.view.side s) :
    ∃ p, b.RestsAs a.id s a.price a.qty p := by
  obtain ⟨p, hp, hside, rfl⟩ := h.mem_side.mp ha
  obtain ⟨l, hl, hmem⟩ := mem_pointers.mp (h.mem_levels.mpr ⟨hp, hside⟩)
  refine ⟨p, (h.index.lookup _ _).mpr ⟨hp, rfl⟩, ⟨l.2, ?_, hmem⟩, rfl, hside, rfl, rfl⟩
  rw [show (b.heap.read p).offer.price = l.1 from (h.levelsWf s l hl p hmem).price_eq]
  exact hl

/-- **An order does not rest**: neither the levels nor the index know its id. -/
def Gone (b : Orderbook) (orderId : OrderId) : Prop :=
  (∀ p ∈ b.resting, (b.heap.read p).orderId ≠ orderId) ∧ b.orders.lookup orderId = none

theorem Wf.gone_iff (h : b.Wf) : b.Gone orderId ↔ orderId ∉ b.view.ids := by
  refine ⟨fun hgone hmem => ?_, fun hnot => ⟨fun p hp hid => ?_, ?_⟩⟩
  · obtain ⟨p, hp, hid⟩ := mem_ids_view.mp hmem
    exact hgone.1 p hp hid
  · exact hnot (mem_ids_view.mpr ⟨p, hp, hid⟩)
  · rw [h.mem_ids, not_exists] at hnot
    exact Option.eq_none_iff_forall_ne_some.mpr hnot

end Orderbook

/-! ### Quantities of a level -/

/-- The quantity that rests at a list of pointers. -/
def quantitySum (heap : Heap) (ps : OrderPointers) : ℕ :=
  (ps.map fun p => (heap.read p).quantity.toNat).sum

@[simp] theorem quantitySum_nil (heap : Heap) : quantitySum heap [] = 0 :=
  rfl

@[simp] theorem quantitySum_cons (heap : Heap) (p : OrderPointer) (ps : OrderPointers) :
    quantitySum heap (p :: ps) = (heap.read p).quantity.toNat + quantitySum heap ps :=
  List.sum_cons

@[simp] theorem quantitySum_append (heap : Heap) (ps qs : OrderPointers) :
    quantitySum heap (ps ++ qs) = quantitySum heap ps + quantitySum heap qs := by
  simp [quantitySum]

/-- Something rests at a level of a well-formed book. -/
theorem quantitySum_pos {heap : Heap} {side : BuySell} {price : Price} {ps : OrderPointers}
    (hne : ps ≠ []) (hps : ∀ p ∈ ps, Resting heap side price p) : 0 < quantitySum heap ps := by
  cases ps with
  | nil => exact absurd rfl hne
  | cons p ps =>
      have hp := Quantity.toNat_pos_iff.mpr (hps p List.mem_cons_self).quantity
      rw [quantitySum_cons]
      omega

end ExchangeEngine
