import ExchangeEngine.Lib.PriceTime
import ExchangeEngine.Orderbook

/-!
# What a Book Represents

The three structures of an `Orderbook` (two sorted maps of lists, one index) and the heap
behind their pointers represent one thing: a two-sided book of offers in priority order,
`Orderbook.view`. This module defines the view and the representation invariant
`Orderbook.Wf` under which the view is meaningful.

* `Resting` is what is true of one order in a level; `LevelsWf` says it of all levels of a
  side.
* `Indexed` says that the index maps exactly the ids of a list of pointers, each to its
  pointer; the lemmas about it are the ways in which the operations change a book: a
  write that keeps ids, an entry erased, an entry inserted.
-/

open PriceTime

namespace ExchangeEngine

/-- The data of an order that matching does not look at. -/
structure OrderTag where
  timestamp : Timestamp
  sessionId : SessionId
  clientOrderId : ClientOrderId
  deriving DecidableEq, Repr

/-- The offers, fills and books of the abstract market, at the types of this program. -/
abbrev BookOffer := Offer OrderId Price OrderTag

abbrev BookFill := Fill OrderId Price OrderTag

abbrev BookView := Book OrderId Price OrderTag

/-- The offer that a resting order makes. -/
def Order.offer (o : Order) : BookOffer where
  id := o.orderId
  price := o.price
  qty := o.quantity.toNat
  tag := ⟨o.timestamp, o.sessionId, o.clientOrderId⟩

/-- The entries of a level book. -/
abbrev Levels := List (Price × OrderPointers)

/-- The pointers of all levels, best level first and first in, first out within a level. -/
def pointers (levels : Levels) : OrderPointers :=
  levels.flatMap Prod.snd

@[simp] theorem pointers_nil : pointers [] = [] :=
  rfl

@[simp] theorem pointers_cons (l : Price × OrderPointers) (levels : Levels) :
    pointers (l :: levels) = l.2 ++ pointers levels :=
  rfl

@[simp] theorem pointers_append (l₁ l₂ : Levels) :
    pointers (l₁ ++ l₂) = pointers l₁ ++ pointers l₂ :=
  List.flatMap_append

theorem mem_pointers {levels : Levels} {p : OrderPointer} :
    p ∈ pointers levels ↔ ∃ l ∈ levels, p ∈ l.2 :=
  List.mem_flatMap

/-- The offers of a list of pointers. -/
def offersAt (heap : Heap) (ps : OrderPointers) : List BookOffer :=
  ps.map fun p => (heap.read p).offer

/-- The offers of a side, in priority order. -/
def offers (heap : Heap) (levels : Levels) : List BookOffer :=
  offersAt heap (pointers levels)

@[simp] theorem offersAt_nil (heap : Heap) : offersAt heap [] = [] :=
  rfl

@[simp] theorem offersAt_cons (heap : Heap) (p : OrderPointer) (ps : OrderPointers) :
    offersAt heap (p :: ps) = (heap.read p).offer :: offersAt heap ps :=
  rfl

@[simp] theorem offersAt_append (heap : Heap) (ps qs : OrderPointers) :
    offersAt heap (ps ++ qs) = offersAt heap ps ++ offersAt heap qs :=
  List.map_append

theorem offersAt_congr {heap heap' : Heap} {ps : OrderPointers}
    (h : ∀ p ∈ ps, (heap'.read p).offer = (heap.read p).offer) :
    offersAt heap' ps = offersAt heap ps :=
  List.map_congr_left h

theorem offers_congr {heap heap' : Heap} {levels : Levels}
    (h : ∀ p ∈ pointers levels, heap'.read p = heap.read p) :
    offers heap' levels = offers heap levels :=
  offersAt_congr fun p hp => congrArg Order.offer (h p hp)

theorem mem_offersAt {heap : Heap} {ps : OrderPointers} {o : BookOffer} :
    o ∈ offersAt heap ps ↔ ∃ p ∈ ps, (heap.read p).offer = o :=
  List.mem_map

/-- The book of offers that an order book represents. -/
def Orderbook.view (b : Orderbook) : BookView where
  bids := offers b.heap b.bids.entries
  asks := offers b.heap b.asks.entries

/-! ### Resting orders -/

/-- What is true of every order in the level at `price` of side `side`. -/
structure Resting (heap : Heap) (side : BuySell) (price : Price) (p : OrderPointer) : Prop where
  buySell : (heap.read p).buySell = side
  orderType : (heap.read p).orderType = .limit
  quantity : (heap.read p).quantity ≠ 0
  price_eq : (heap.read p).price = price
  price_pos : 0 < price

/-- A write elsewhere does not affect a resting order. -/
theorem Resting.congr {heap heap' : Heap} {side : BuySell} {price : Price} {p : OrderPointer}
    (h : Resting heap side price p) (heq : heap'.read p = heap.read p) :
    Resting heap' side price p :=
  ⟨heq ▸ h.buySell, heq ▸ h.orderType, heq ▸ h.quantity, heq ▸ h.price_eq, h.price_pos⟩

/-- Every order in every level is a resting order of that level. -/
def LevelsWf (heap : Heap) (side : BuySell) (levels : Levels) : Prop :=
  ∀ l ∈ levels, ∀ p ∈ l.2, Resting heap side l.1 p

theorem LevelsWf.congr {heap heap' : Heap} {side : BuySell} {levels : Levels}
    (h : LevelsWf heap side levels)
    (heq : ∀ p ∈ pointers levels, heap'.read p = heap.read p) : LevelsWf heap' side levels :=
  fun l hl p hp => (h l hl p hp).congr (heq p (mem_pointers.mpr ⟨l, hl, hp⟩))

/-- No level is an empty list. -/
def NoEmptyLevel (levels : Levels) : Prop :=
  ∀ l ∈ levels, l.2 ≠ []

/-! ### The index -/

/-- The index `orders` maps exactly the ids of the orders at `ps`, each to its own pointer,
and no id occurs twice. -/
structure Indexed (heap : Heap) (orders : UnorderedMap OrderId OrderPointer)
    (ps : OrderPointers) : Prop where
  nodup : (ps.map fun p => (heap.read p).orderId).Nodup
  lookup : ∀ i p, orders.lookup i = some p ↔ p ∈ ps ∧ (heap.read p).orderId = i

namespace Indexed

variable {heap heap' : Heap} {orders : UnorderedMap OrderId OrderPointer}
  {p : OrderPointer} {ps qs : OrderPointers}

theorem congr (h : Indexed heap orders ps)
    (heq : ∀ p ∈ ps, (heap'.read p).orderId = (heap.read p).orderId) :
    Indexed heap' orders ps := by
  refine ⟨?_, fun i p => ?_⟩
  · rw [List.map_congr_left heq]
    exact h.nodup
  · rw [h.lookup i p]
    exact ⟨fun ⟨hp, hi⟩ => ⟨hp, (heq p hp).trans hi⟩,
      fun ⟨hp, hi⟩ => ⟨hp, (heq p hp).symm.trans hi⟩⟩

theorem perm (h : Indexed heap orders ps) (hperm : ps.Perm qs) : Indexed heap orders qs := by
  refine ⟨(hperm.map _).nodup_iff.mp h.nodup, fun i p => ?_⟩
  rw [h.lookup i p, hperm.mem_iff]

/-- Orders at different places have different ids. -/
theorem id_ne (h : Indexed heap orders (p :: ps)) {q : OrderPointer} (hq : q ∈ ps) :
    (heap.read q).orderId ≠ (heap.read p).orderId := by
  intro heq
  exact (List.nodup_cons.mp h.nodup).1 (List.mem_map.mpr ⟨q, hq, heq⟩)

theorem notMem (h : Indexed heap orders (p :: ps)) : p ∉ ps :=
  fun hp => h.id_ne hp rfl

/-- Taking an order out of the index and out of the list. -/
theorem erase (h : Indexed heap orders (p :: ps)) :
    Indexed heap (orders.erase (heap.read p).orderId) ps := by
  refine ⟨(List.nodup_cons.mp h.nodup).2, fun i q => ?_⟩
  rw [UnorderedMap.lookup_erase_ite]
  split
  · rename_i hi
    refine ⟨fun hq => absurd hq (by simp), fun ⟨hq, hqi⟩ => ?_⟩
    exact absurd (hqi.trans hi) (h.id_ne hq)
  · rename_i hi
    rw [h.lookup i q, List.mem_cons]
    refine ⟨?_, fun ⟨hq, hqi⟩ => ⟨Or.inr hq, hqi⟩⟩
    rintro ⟨rfl | hq, hqi⟩
    · exact absurd hqi.symm hi
    · exact ⟨hq, hqi⟩

/-- Taking whatever order has the id `i` out of the index and out of the list. -/
theorem filter (h : Indexed heap orders ps) (i : OrderId) :
    Indexed heap (orders.erase i) (ps.filter fun q => (heap.read q).orderId ≠ i) := by
  refine ⟨h.nodup.sublist (List.filter_sublist.map _), fun j q => ?_⟩
  rw [UnorderedMap.lookup_erase_ite, List.mem_filter, decide_eq_true_iff]
  split
  · rename_i hj
    refine ⟨fun hq => absurd hq (by simp), fun ⟨⟨_, hne⟩, hqj⟩ => ?_⟩
    exact absurd (hqj.trans hj) hne
  · rename_i hj
    rw [h.lookup j q]
    refine ⟨fun ⟨hq, hqj⟩ => ⟨⟨hq, ?_⟩, hqj⟩, fun ⟨⟨hq, _⟩, hqj⟩ => ⟨hq, hqj⟩⟩
    exact fun hqi => hj (hqj.symm.trans hqi)

/-- Two places of the list with the same id are one. -/
theorem inj (h : Indexed heap orders ps) {q : OrderPointer} (hp : p ∈ ps) (hq : q ∈ ps)
    (heq : (heap.read p).orderId = (heap.read q).orderId) : p = q :=
  List.inj_on_of_nodup_map h.nodup hp hq heq

/-- No order in the list has an id that the index does not know. -/
theorem id_ne_of_erase {i : OrderId} (h : Indexed heap (orders.erase i) ps)
    {q : OrderPointer} (hq : q ∈ ps) : (heap.read q).orderId ≠ i := by
  intro heq
  have hlook := (h.lookup i q).mpr ⟨hq, heq⟩
  rw [Finmap.lookup_erase] at hlook
  cases hlook

/-- Entering an order, whatever entry the index had under its id. -/
theorem insert (h : Indexed heap (orders.erase (heap.read p).orderId) ps) :
    Indexed heap (orders.insert (heap.read p).orderId p) (p :: ps) := by
  refine ⟨List.nodup_cons.mpr ⟨?_, h.nodup⟩, fun i q => ?_⟩
  · rintro hmem
    obtain ⟨q, hq, heq⟩ := List.mem_map.mp hmem
    exact h.id_ne_of_erase hq heq
  · have hlook := h.lookup i q
    rw [UnorderedMap.lookup_erase_ite] at hlook
    rw [UnorderedMap.lookup_insert_ite, List.mem_cons]
    split
    · rename_i hi
      rw [if_pos hi] at hlook
      constructor
      · intro hq
        obtain rfl : p = q := Option.some.inj hq
        exact ⟨Or.inl rfl, hi.symm⟩
      · rintro ⟨rfl | hq, hqi⟩
        · rfl
        · exact absurd (hqi.trans hi) (h.id_ne_of_erase hq)
    · rename_i hi
      rw [if_neg hi] at hlook
      rw [hlook]
      refine ⟨fun ⟨hq, hqi⟩ => ⟨Or.inr hq, hqi⟩, ?_⟩
      rintro ⟨rfl | hq, hqi⟩
      · exact absurd hqi.symm hi
      · exact ⟨hq, hqi⟩

end Indexed

/-! ### The representation invariant -/

/-- The pointers of both sides. -/
def Orderbook.resting (b : Orderbook) : OrderPointers :=
  pointers b.bids.entries ++ pointers b.asks.entries

/-- **The representation invariant of the book**: the levels hold resting orders of their own
side and price, no level is empty, and the index holds exactly the resting orders. -/
structure Orderbook.Wf (b : Orderbook) : Prop where
  bids : LevelsWf b.heap .buy b.bids.entries
  asks : LevelsWf b.heap .sell b.asks.entries
  bids_noEmpty : NoEmptyLevel b.bids.entries
  asks_noEmpty : NoEmptyLevel b.asks.entries
  index : Indexed b.heap b.orders b.resting
  allocated : ∀ p ∈ b.resting, p < b.heap.next

theorem Orderbook.ids_view (b : Orderbook) :
    b.view.ids = b.resting.map fun p => (b.heap.read p).orderId := by
  simp only [Book.ids, Orderbook.view, offers, offersAt, Orderbook.resting, List.map_append,
    List.map_map]
  rfl

theorem Orderbook.mem_ids_view {b : Orderbook} {i : OrderId} :
    i ∈ b.view.ids ↔ ∃ p ∈ b.resting, (b.heap.read p).orderId = i := by
  rw [b.ids_view, List.mem_map]

/-- The id of a resting order is an id of the view. -/
theorem Orderbook.mem_ids_of_mem_resting {b : Orderbook} {p : OrderPointer}
    (hp : p ∈ b.resting) : (b.heap.read p).orderId ∈ b.view.ids :=
  mem_ids_view.mpr ⟨p, hp, rfl⟩

/-- The index knows exactly the ids of the view. -/
theorem Orderbook.Wf.mem_ids {b : Orderbook} (h : b.Wf) {i : OrderId} :
    i ∈ b.view.ids ↔ ∃ p, b.orders.lookup i = some p := by
  rw [mem_ids_view]
  exact exists_congr fun p => (h.index.lookup i p).symm

theorem Orderbook.wf_empty : Orderbook.empty.Wf := by
  refine ⟨?_, ?_, ?_, ?_, ⟨List.nodup_nil, fun i p => ?_⟩, ?_⟩
  · exact fun l hl => absurd hl List.not_mem_nil
  · exact fun l hl => absurd hl List.not_mem_nil
  · exact fun l hl => absurd hl List.not_mem_nil
  · exact fun l hl => absurd hl List.not_mem_nil
  · simp [Orderbook.empty, Orderbook.resting]
  · exact fun p hp => absurd hp List.not_mem_nil

end ExchangeEngine
