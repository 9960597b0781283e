import ExchangeEngine.Crossing
import ExchangeEngine.Ownership
import ExchangeEngine.Sides

/-!
# What a Cancel Removes

`CancelOrder` finds the order in the index, its level by the order's own price and side, and its
place in the level by id. In a well-formed book that is the place of the one order with that id,
so a cancel removes that order and nothing else.

* `keepOrders`: levels with some orders taken out, and the levels that are emptied by it;
  `levels_cancelOrder` says that a cancel does this to both sides.
* `cancelOrder_addOrder`: cancelling an order that was just added without trading takes the book
  back to what it was.

## Main results

* `cancel_exact`: cancels in the books of runs in which fewer than `2 ^ 64` orders are accepted.
* `not_cancelExact_wrappedRun`: with two orders under one id, a cancel takes out the wrong one.
-/

open PriceTime

namespace ExchangeEngine

/-! ### Taking orders out of levels -/

/-- The level at `price` with the orders `ps`; there is no level without orders. -/
def keepLevel (price : Price) (ps : OrderPointers) : Levels :=
  if ps = [] then [] else [(price, ps)]

/-- The levels with only the orders that `keep` lets through. -/
def keepOrders (keep : OrderPointer → Bool) (levels : Levels) : Levels :=
  levels.flatMap fun l => keepLevel l.1 (l.2.filter keep)

theorem keepLevel_of_ne {price : Price} {ps : OrderPointers} (h : ps ≠ []) :
    keepLevel price ps = [(price, ps)] :=
  if_neg h

theorem keepOrders_append (keep : OrderPointer → Bool) (l₁ l₂ : Levels) :
    keepOrders keep (l₁ ++ l₂) = keepOrders keep l₁ ++ keepOrders keep l₂ :=
  List.flatMap_append

theorem keepOrders_cons (keep : OrderPointer → Bool) (l : Price × OrderPointers)
    (levels : Levels) :
    keepOrders keep (l :: levels) = keepLevel l.1 (l.2.filter keep) ++ keepOrders keep levels :=
  List.flatMap_cons

/-- Levels of which every order is kept stay as they are. -/
theorem keepOrders_eq_self {keep : OrderPointer → Bool} {levels : Levels}
    (hne : NoEmptyLevel levels) (hkeep : ∀ p ∈ pointers levels, keep p = true) :
    keepOrders keep levels = levels := by
  induction levels with
  | nil => rfl
  | cons l levels ih =>
      obtain ⟨hl, hne'⟩ := noEmptyLevel_cons.mp hne
      rw [pointers_cons, List.forall_mem_append] at hkeep
      rw [keepOrders_cons, List.filter_eq_self.mpr hkeep.1, keepLevel_of_ne hl,
        ih hne' hkeep.2]
      rfl

theorem keepOrders_keepLevel (keep : OrderPointer → Bool) (price : Price) (ps : OrderPointers) :
    keepOrders keep (keepLevel price ps) = keepLevel price (ps.filter keep) := by
  by_cases h : ps = []
  · rw [h]
    rfl
  · rw [keepLevel_of_ne h, keepOrders, List.flatMap_singleton]

/-- Orders taken out one after the other. -/
theorem keepOrders_keepOrders (keep keep' : OrderPointer → Bool) (levels : Levels) :
    keepOrders keep (keepOrders keep' levels) = keepOrders (fun p => keep p && keep' p) levels := by
  induction levels with
  | nil => rfl
  | cons l levels ih =>
      rw [keepOrders_cons, keepOrders_append, keepOrders_keepLevel, List.filter_filter, ih,
        keepOrders_cons]

/-- Taking orders out keeps the others in their order. -/
theorem pointers_keepOrders (keep : OrderPointer → Bool) (levels : Levels) :
    pointers (keepOrders keep levels) = (pointers levels).filter keep := by
  induction levels with
  | nil => rfl
  | cons l levels ih =>
      have hlevel : pointers (keepLevel l.1 (l.2.filter keep)) = l.2.filter keep := by
        rw [keepLevel]
        split
        · rename_i hnil
          rw [hnil]
          rfl
        · simp
      rw [keepOrders_cons, pointers_append, ih, hlevel, pointers_cons, List.filter_append]

theorem keepOrders_congr {keep keep' : OrderPointer → Bool} {levels : Levels}
    (h : ∀ p ∈ pointers levels, keep p = keep' p) :
    keepOrders keep levels = keepOrders keep' levels := by
  refine List.flatMap_congr fun l hl => ?_
  rw [List.filter_congr fun p hp => h p (mem_pointers.mpr ⟨l, hl, hp⟩)]

/-- The orders around one of them. -/
theorem pointers_around (l₁ l₂ : Levels) (price : Price) (ps₁ ps₂ : OrderPointers)
    (p : OrderPointer) : pointers (l₁ ++ (price, ps₁ ++ p :: ps₂) :: l₂) =
      (pointers l₁ ++ ps₁) ++ p :: (ps₂ ++ pointers l₂) := by
  simp

/-- Levels from which one order is taken out. -/
theorem keepOrders_around {keep : OrderPointer → Bool} {l₁ l₂ : Levels} {price : Price}
    {ps₁ ps₂ : OrderPointers} {p : OrderPointer}
    (hne : NoEmptyLevel (l₁ ++ (price, ps₁ ++ p :: ps₂) :: l₂)) (hp : keep p = false)
    (hkeep : ∀ q ∈ (pointers l₁ ++ ps₁) ++ (ps₂ ++ pointers l₂), keep q = true) :
    keepOrders keep (l₁ ++ (price, ps₁ ++ p :: ps₂) :: l₂) =
      l₁ ++ keepLevel price (ps₁ ++ ps₂) ++ l₂ := by
  simp only [List.forall_mem_append] at hkeep
  obtain ⟨⟨hl₁, hps₁⟩, hps₂, hl₂⟩ := hkeep
  obtain ⟨hne₁, hne₂⟩ := noEmptyLevel_append.mp hne
  rw [keepOrders_append, keepOrders_cons, keepOrders_eq_self hne₁ hl₁,
    keepOrders_eq_self (noEmptyLevel_cons.mp hne₂).2 hl₂, List.filter_append,
    List.filter_cons_of_neg (by simp [hp]), List.filter_eq_self.mpr hps₁,
    List.filter_eq_self.mpr hps₂, List.append_assoc]

/-! ### Erasing an order from its level -/

section LevelBook

variable {r : Price → Price → Prop} [DecidableRel r] [IsStrictTotalOrder Price r]
  {heap : Heap} {m : LevelBook r} {price : Price} {p : OrderPointer}

/-- **Erasing an order** from between the other orders of its level. -/
theorem eraseFromBook_at {l₁ l₂ : Levels} {ps₁ ps₂ : OrderPointers}
    (hent : m.entries = l₁ ++ (price, ps₁ ++ p :: ps₂) :: l₂)
    (hprice : (heap.read p).price = price)
    (hids : ∀ q ∈ ps₁, (heap.read q).orderId ≠ (heap.read p).orderId) :
    (Orderbook.eraseFromBook heap p m).entries = l₁ ++ keepLevel price (ps₁ ++ ps₂) ++ l₂ := by
  obtain ⟨hfind, hup, herase⟩ := SortedMap.split_at hent
  have hfirst : (ps₁ ++ p :: ps₂).eraseP (fun q => (heap.read q).orderId = (heap.read p).orderId) =
      ps₁ ++ ps₂ := by
    rw [List.eraseP_append_right _ fun q hq => by simpa using hids q hq,
      List.eraseP_cons_of_pos (by simp)]
  simp only [Orderbook.eraseFromBook, hprice, hfind, hfirst]
  by_cases hnil : ps₁ ++ ps₂ = []
  · rw [if_pos hnil, herase, hnil]
    simp [keepLevel]
  · rw [if_neg hnil, hup, keepLevel_of_ne hnil]
    simp

/-- **Erasing the order that was just appended** to its level takes the levels back to what they
were. -/
theorem eraseFromBook_upsert (hne : NoEmptyLevel m.entries) (hprice : (heap.read p).price = price)
    (hids : ∀ q ∈ pointers m.entries, (heap.read q).orderId ≠ (heap.read p).orderId) :
    Orderbook.eraseFromBook heap p (m.upsert price fun level => level.getD [] ++ [p]) = m := by
  obtain ⟨l₁, level, l₂, hent, -, -, -, hup, -⟩ := m.split price
  refine SortedMap.ext ?_
  have hlevel : ∀ q ∈ level.getD [], q ∈ pointers m.entries := by
    intro q hq
    rw [hent, pointers_append, pointers_append, pointers_level]
    exact List.mem_append_left _ (List.mem_append_right _ hq)
  rw [eraseFromBook_at (hup _) hprice fun q hq => hids q (hlevel q hq), hent, List.append_nil]
  cases level with
  | none => rfl
  | some ps =>
      rw [hent, noEmptyLevel_append, noEmptyLevel_append] at hne
      have hps : ps ≠ [] := hne.1.2 (price, ps) (by simp)
      rw [Option.getD_some, keepLevel_of_ne hps]
      rfl

end LevelBook

/-! ### Cancelling -/

namespace Orderbook

variable {b : Orderbook} {i j : OrderId} {p q : OrderPointer} {s : Side}

theorem cancelOrder_of_none (h : b.orders.lookup i = none) : b.cancelOrder i = b := by
  rw [cancelOrder, h]

/-- A cancel takes the id out of the index, whether it was there or not. -/
theorem orders_cancelOrder (b : Orderbook) (i : OrderId) :
    (b.cancelOrder i).orders = b.orders.erase i := by
  cases hlook : b.orders.lookup i with
  | none => rw [cancelOrder_of_none hlook, UnorderedMap.erase_eq_self hlook]
  | some p =>
      simp only [cancelOrder, hlook, clearOrderRecord, updateOrder, detachOrder,
        removeOrderFromBook]
      split <;> split <;> rfl

/-- Detaching an order writes to no object. -/
theorem heap_detachOrder (b : Orderbook) (p : OrderPointer) : (b.detachOrder p).heap = b.heap := by
  simp only [detachOrder, removeOrderFromBook]
  split <;> split <;> rfl

/-- A cancel writes to the order it cancels and to no other. -/
theorem read_cancelOrder_of_ne (h : b.orders.lookup i ≠ some q) :
    (b.cancelOrder i).heap.read q = b.heap.read q := by
  cases hlook : b.orders.lookup i with
  | none => rw [cancelOrder_of_none hlook]
  | some p =>
      have hne : q ≠ p := fun heq => h (heq ▸ hlook)
      simp only [cancelOrder, hlook, clearOrderRecord, updateOrder, heap_detachOrder]
      exact ObjectStore.read_write_of_ne _ hne _

/-- A cancel changes no id. -/
theorem orderId_cancelOrder (b : Orderbook) (i : OrderId) (q : OrderPointer) :
    ((b.cancelOrder i).heap.read q).orderId = (b.heap.read q).orderId := by
  by_cases hq : b.orders.lookup i = some q
  · simp only [cancelOrder, hq, clearOrderRecord, updateOrder, heap_detachOrder,
      ObjectStore.read_write_self]
    rfl
  · rw [read_cancelOrder_of_ne hq]

/-- **A cancel removes the order at `p`**: it leaves its level, which stays if other orders are in
it; the other levels, the other side and all other orders stay as they are; and the index loses
the id. -/
structure RemovesOne (b : Orderbook) (i : OrderId) (p : OrderPointer) (s : Side) (price : Price)
    (l₁ l₂ : Levels) (ps₁ ps₂ : OrderPointers) : Prop where
  before : b.levels s = l₁ ++ (price, ps₁ ++ p :: ps₂) :: l₂
  after : (b.cancelOrder i).levels s = l₁ ++ keepLevel price (ps₁ ++ ps₂) ++ l₂
  contra : (b.cancelOrder i).levels s.contra = b.levels s.contra
  orders : (b.cancelOrder i).orders = b.orders.erase i
  others : ∀ q, q ≠ p → (b.cancelOrder i).heap.read q = b.heap.read q

/-- The levels after a cancel of the order at `p`. -/
theorem levels_cancelOrder_of_some (hlook : b.orders.lookup i = some p)
    (hside : (b.heap.read p).buySell = buySellOf s) :
    (b.cancelOrder i).levels s = (match s with
      | .bid => (eraseFromBook b.heap p b.bids).entries
      | .ask => (eraseFromBook b.heap p b.asks).entries) ∧
    (b.cancelOrder i).levels s.contra = b.levels s.contra := by
  cases s with
  | bid =>
      simp only [cancelOrder, hlook, detachOrder_buy hside]
      exact ⟨rfl, rfl⟩
  | ask =>
      simp only [cancelOrder, hlook, detachOrder_sell hside]
      exact ⟨rfl, rfl⟩

/-- The entry of an id in the index leads to the one place where the order rests, and a cancel takes
it out there. -/
theorem Wf.removesOne (h : b.Wf) (hlook : b.orders.lookup i = some p) :
    ∃ s price l₁ l₂ ps₁ ps₂, b.RemovesOne i p s price l₁ l₂ ps₁ ps₂ := by
  obtain ⟨hmem, hid⟩ := (h.index.lookup i p).mp hlook
  obtain ⟨s, hs⟩ := mem_resting.mp hmem
  obtain ⟨l, hl, hpl⟩ := mem_pointers.mp hs
  obtain ⟨l₁, l₂, hlevels⟩ := List.append_of_mem hl
  obtain ⟨ps₁, ps₂, hps⟩ := List.append_of_mem hpl
  have hbefore : b.levels s = l₁ ++ (l.1, ps₁ ++ p :: ps₂) :: l₂ := by
    rw [hlevels, ← hps]
  have hrest := h.levelsWf s l hl p hpl
  -- ids occur once, so nothing in front of the order has its id
  have hids : ∀ q ∈ ps₁, (b.heap.read q).orderId ≠ (b.heap.read p).orderId := by
    intro q hq heq
    have hqmem : q ∈ b.resting :=
      mem_resting.mpr ⟨s, mem_pointers.mpr ⟨l, hl, by rw [hps]; exact List.mem_append_left _ hq⟩⟩
    obtain rfl := h.index.inj hqmem hmem heq
    have hnd := h.nodup_pointers s
    rw [hbefore, pointers_append, pointers_cons] at hnd
    have hlevel := hnd.of_append_right.of_append_left
    exact (List.nodup_append.mp hlevel).2.2 q hq q List.mem_cons_self rfl
  obtain ⟨hafter, hcontra⟩ := levels_cancelOrder_of_some (s := s) hlook hrest.buySell
  refine ⟨s, l.1, l₁, l₂, ps₁, ps₂, hbefore, hafter.trans ?_, hcontra, b.orders_cancelOrder i,
    fun q hq => read_cancelOrder_of_ne fun heq => ?_⟩
  · cases s with
    | bid => exact eraseFromBook_at hbefore hrest.price_eq hids
    | ask => exact eraseFromBook_at hbefore hrest.price_eq hids
  · rw [hlook] at heq
    exact hq (Option.some.inj heq).symm

/-- **What a cancel does to either side**: the orders with the id are taken out. -/
theorem Wf.levels_cancelOrder (h : b.Wf) (i : OrderId) (s : Side) :
    (b.cancelOrder i).levels s =
      keepOrders (fun p => (b.heap.read p).orderId ≠ i) (b.levels s) := by
  have hself : ∀ levels, NoEmptyLevel levels → (∀ q ∈ pointers levels, (b.heap.read q).orderId ≠ i) →
      keepOrders (fun p => (b.heap.read p).orderId ≠ i) levels = levels :=
    fun levels hne hids => keepOrders_eq_self hne fun q hq => by simpa using hids q hq
  cases hlook : b.orders.lookup i with
  | none =>
      rw [cancelOrder_of_none hlook, hself _ (h.noEmptyLevel s)]
      intro q hq hid
      have hfound := (h.index.lookup i q).mpr ⟨mem_resting.mpr ⟨s, hq⟩, hid⟩
      rw [hlook] at hfound
      cases hfound
  | some p =>
      obtain ⟨hmem, hid⟩ := (h.index.lookup i p).mp hlook
      obtain ⟨t, price, l₁, l₂, ps₁, ps₂, hremoves⟩ := h.removesOne hlook
      have hother : ∀ q ∈ b.resting, q ≠ p → (b.heap.read q).orderId ≠ i :=
        fun q hq hne heq => hne (h.index.inj hq hmem (heq.trans hid.symm))
      by_cases hs : s = t
      · subst hs
        have hnd := h.nodup_pointers s
        have hsub : ∀ q ∈ pointers (b.levels s), q ∈ b.resting :=
          fun q hq => mem_resting.mpr ⟨s, hq⟩
        have hne := h.noEmptyLevel s
        rw [hremoves.before] at hnd hsub hne ⊢
        rw [pointers_around] at hnd hsub
        have hp := (List.nodup_cons.mp (List.nodup_middle.mp hnd)).1
        rw [hremoves.after, keepOrders_around hne (by simp [hid]) fun q hq => ?_]
        refine decide_eq_true (hother q (hsub q ?_) fun heq => hp (heq ▸ hq))
        rw [List.mem_append, List.mem_cons]
        exact (List.mem_append.mp hq).imp_right Or.inr
      · obtain rfl : s = t.contra := by
          cases s <;> cases t <;> first | rfl | exact absurd rfl hs
        rw [hremoves.contra, hself _ (h.noEmptyLevel _)]
        intro q hq
        refine hother q (mem_resting.mpr ⟨_, hq⟩) ?_
        rintro rfl
        -- the order cannot be on both sides
        have hmem' : q ∈ pointers (b.levels t) := by
          rw [hremoves.before]
          simp
        have hsides := (h.mem_levels.mp hq).2.symm.trans (h.mem_levels.mp hmem').2
        cases t <;> cases hsides

/-! ### Cancelling an order that was just added -/

/-- An order that does not cross by the prices of the orders does not cross by the keys of
the levels. -/
theorem Wf.notCrossed (h : b.Wf) (hcross : b.crosses (b.heap.read p) = false) :
    b.NotCrossed p := by
  have hhead : ∀ {side : BuySell} {levels : Levels} {accepts : Price → Bool},
      LevelsWf b.heap side levels → NoEmptyLevel levels →
      (∀ o ∈ ((pointers levels).map b.heap.read).head?, accepts o.price = false) →
      ∀ l ∈ levels.head?, accepts l.1 = false := by
    intro side levels accepts hwf hne hfirst l hl
    cases levels with
    | nil => cases hl
    | cons l' levels =>
        obtain rfl : l' = l := Option.some.inj hl
        obtain ⟨q, ps, hps⟩ := List.exists_cons_of_ne_nil (noEmptyLevel_cons.mp hne).1
        have hrest := (levelsWf_cons.mp hwf).1 q (by rw [hps]; exact List.mem_cons_self)
        rw [← hrest.price_eq]
        exact hfirst _ (by rw [pointers_cons, hps]; rfl)
  have hfirst : ∀ o ∈ (b.opposite (b.heap.read p).buySell).head?,
      (b.heap.read p).accepts (b.heap.read p).buySell o.price = false := by
    intro o ho
    rw [crosses] at hcross
    cases hopp : b.opposite (b.heap.read p).buySell with
    | nil => simp [hopp] at ho
    | cons first rest =>
        obtain rfl : first = o := by simpa [hopp] using ho
        simpa only [hopp] using hcross
  rw [NotCrossed]
  cases hside : (b.heap.read p).buySell with
  | default => trivial
  | buy =>
      rw [hside] at hfirst
      exact hhead h.asks h.asks_noEmpty hfirst
  | sell =>
      rw [hside] at hfirst
      exact hhead h.bids h.bids_noEmpty hfirst

/-- Allocating an object changes nothing that an order could trade with. -/
theorem Wf.crosses_allocOrder (h : b.Wf) (o : Order) :
    (b.allocOrder o).crosses o = b.crosses o := by
  have hread : ∀ ps : OrderPointers, ps ⊆ b.resting →
      ps.map (b.allocOrder o).heap.read = ps.map b.heap.read :=
    fun ps hps => List.map_congr_left fun q hq =>
      ObjectStore.read_alloc_of_lt b.heap (h.allocated q (hps hq)) o
  have hopp : (b.allocOrder o).opposite o.buySell = b.opposite o.buySell := by
    cases hside : o.buySell with
    | default => rfl
    | buy => exact hread _ (List.subset_append_right _ _)
    | sell => exact hread _ (List.subset_append_left _ _)
  rw [crosses, crosses, hopp]

/-- Cancelling the order that was just booked takes the book back to what it was. -/
theorem cancelOrder_bookOrder {b : Orderbook} {p : OrderPointer} {i : OrderId}
    (hid : (b.heap.read p).orderId = i) (hnone : b.orders.lookup i = none)
    (hids : ∀ q ∈ b.resting, (b.heap.read q).orderId ≠ i)
    (hbids : NoEmptyLevel b.bids.entries) (hasks : NoEmptyLevel b.asks.entries) :
    ((b.bookOrder p).cancelOrder i).bids = b.bids ∧
      ((b.bookOrder p).cancelOrder i).asks = b.asks ∧
      ((b.bookOrder p).cancelOrder i).orders = b.orders ∧
      ∀ q, q ≠ p → ((b.bookOrder p).cancelOrder i).heap.read q = b.heap.read q := by
  obtain rfl := hid
  have hlook : (b.bookOrder p).orders.lookup (b.heap.read p).orderId = some p := by
    simp only [bookOrder]
    split <;> exact Finmap.lookup_insert _
  have horders : ((b.bookOrder p).cancelOrder (b.heap.read p).orderId).orders = b.orders := by
    rw [orders_cancelOrder]
    have hinsert : (b.bookOrder p).orders = b.orders.insert (b.heap.read p).orderId p := by
      simp only [bookOrder]
      split <;> rfl
    refine Finmap.ext_lookup fun j => ?_
    rw [hinsert, UnorderedMap.lookup_erase_ite, UnorderedMap.lookup_insert_ite]
    split
    · rename_i hj
      rw [hj, hnone]
    · rfl
  have hbids' : ∀ q ∈ pointers b.bids.entries,
      (b.heap.read q).orderId ≠ (b.heap.read p).orderId :=
    fun q hq => hids q (List.mem_append_left _ hq)
  have hasks' : ∀ q ∈ pointers b.asks.entries,
      (b.heap.read q).orderId ≠ (b.heap.read p).orderId :=
    fun q hq => hids q (List.mem_append_right _ hq)
  have hothers : ∀ q, q ≠ p →
      ((b.bookOrder p).cancelOrder (b.heap.read p).orderId).heap.read q = b.heap.read q := by
    intro q hq
    rw [read_cancelOrder_of_ne (hlook ▸ fun heq => hq (Option.some.inj heq).symm), heap_bookOrder]
  refine ⟨?_, ?_, horders, hothers⟩
  · by_cases hside : (b.heap.read p).buySell = .buy
    · have hbuy : ((b.bookOrder p).heap.read p).buySell = .buy := by rw [heap_bookOrder, hside]
      simp only [cancelOrder, hlook, detachOrder_buy hbuy, heap_bookOrder]
      simp only [bookOrder, hside, if_true, clearOrderRecord, updateOrder]
      exact eraseFromBook_upsert hbids rfl hbids'
    · simp only [cancelOrder, hlook, detachOrder, removeOrderFromBook]
      split <;> simp [bookOrder, hside, clearOrderRecord, updateOrder]
  · by_cases hside : (b.heap.read p).buySell = .buy
    · simp only [cancelOrder, hlook, detachOrder, removeOrderFromBook]
      split <;> simp [bookOrder, hside, clearOrderRecord, updateOrder]
    · simp only [cancelOrder, hlook, detachOrder, removeOrderFromBook, heap_bookOrder]
      simp only [bookOrder, if_neg hside]
      split <;> exact eraseFromBook_upsert hasks rfl hasks'

/-- **Adding and cancelling**: an order with a fresh id that does not cross leaves no trace on
either side, in the index or in a resting order when it is cancelled. -/
theorem cancelOrder_addOrder (h : b.Wf) {o : Order}
    (hnew : ∀ q ∈ b.resting, (b.heap.read q).orderId ≠ o.orderId) (hcross : b.crosses o = false) :
    ((b.call (.addOrder o)).cancelOrder o.orderId).bids = b.bids ∧
      ((b.call (.addOrder o)).cancelOrder o.orderId).asks = b.asks ∧
      ((b.call (.addOrder o)).cancelOrder o.orderId).orders = b.orders ∧
      ∀ q ∈ b.resting,
        ((b.call (.addOrder o)).cancelOrder o.orderId).heap.read q = b.heap.read q := by
  have hread : (b.allocOrder o).heap.read b.heap.next = o := b.heap.read_alloc_next o
  have hnone : b.orders.lookup o.orderId = none := by
    refine Option.eq_none_iff_forall_ne_some.mpr fun q hq => ?_
    obtain ⟨hmem, hid⟩ := (h.index.lookup _ q).mp hq
    exact hnew q hmem hid
  have hadd := addToBook_of_notCrossed (Wf.notCrossed (h.allocOrder o).1
    (p := b.heap.next) (by rw [hread, h.crosses_allocOrder, hcross]))
  have hsettled := o.settled_eq o.quantity o.quantity
  rw [hread] at hadd
  have hcall : b.call (.addOrder o) = _ := hadd
  rw [hcall]
  -- an order that is not booked is in no level and not in the index
  have hopen : ∀ f : Order → Order,
      (({ b.allocOrder o with trades := [] }.updateOrder b.heap.next f).cancelOrder o.orderId) =
        { b.allocOrder o with trades := [] }.updateOrder b.heap.next f :=
    fun f => cancelOrder_of_none hnone
  have hfresh : ∀ q ∈ b.resting, q ≠ b.heap.next := fun q hq => Nat.ne_of_lt (h.allocated q hq)
  have hkept : ∀ f : Order → Order, ∀ q ∈ b.resting,
      ({ b.allocOrder o with trades := [] }.updateOrder b.heap.next f).heap.read q =
        b.heap.read q := by
    intro f q hq
    rw [read_updateOrder_of_ne _ (hfresh q hq)]
    exact ObjectStore.read_alloc_of_lt b.heap (h.allocated q hq) o
  simp only
  split
  · rw [hopen]
    exact ⟨rfl, rfl, rfl, hkept _⟩
  split
  · have hids : ∀ q ∈ b.resting, (({ b.allocOrder o with trades := [] }.updateOrder b.heap.next
        (·.settled o.quantity o.quantity)).heap.read q).orderId ≠ o.orderId := by
      intro q hq
      rw [hkept _ q hq]
      exact hnew q hq
    have hid : (({ b.allocOrder o with trades := [] }.updateOrder b.heap.next
        (·.settled o.quantity o.quantity)).heap.read b.heap.next).orderId = o.orderId := by
      rw [read_updateOrder_self, show ({ b.allocOrder o with trades := [] } : Orderbook).heap.read
        b.heap.next = o from hread, hsettled]
    obtain ⟨hbids, hasks, horders, hothers⟩ :=
      cancelOrder_bookOrder hid hnone hids h.bids_noEmpty h.asks_noEmpty
    exact ⟨hbids, hasks, horders, fun q hq => (hothers q (hfresh q hq)).trans (hkept _ q hq)⟩
  · rw [hopen]
    exact ⟨rfl, rfl, rfl, hkept _⟩

/-! ### What a cancel promises -/

/-- **A cancel of `i` removes exactly one order**: the one that rests under `i`, and nothing if
there is none. It can be repeated, it commutes with other cancels, and it undoes an add that did
not trade. -/
structure CancelExact (b : Orderbook) (i : OrderId) : Prop where
  removes : ∀ p ∈ b.resting, (b.heap.read p).orderId = i →
    ∃ s price l₁ l₂ ps₁ ps₂, b.RemovesOne i p s price l₁ l₂ ps₁ ps₂
  gone : (b.cancelOrder i).Gone i
  absent : (∀ p ∈ b.resting, (b.heap.read p).orderId ≠ i) → b.cancelOrder i = b
  idempotent : (b.cancelOrder i).cancelOrder i = b.cancelOrder i
  commutes : ∀ j,
    ((b.cancelOrder i).cancelOrder j).bids = ((b.cancelOrder j).cancelOrder i).bids ∧
    ((b.cancelOrder i).cancelOrder j).asks = ((b.cancelOrder j).cancelOrder i).asks ∧
    ((b.cancelOrder i).cancelOrder j).orders = ((b.cancelOrder j).cancelOrder i).orders ∧
    ∀ q, (b.heap.read q).orderId ≠ i → (b.heap.read q).orderId ≠ j →
      ((b.cancelOrder i).cancelOrder j).heap.read q = ((b.cancelOrder j).cancelOrder i).heap.read q
  restores : ∀ o : Order, (∀ p ∈ b.resting, (b.heap.read p).orderId ≠ o.orderId) →
    b.crosses o = false →
    ((b.call (.addOrder o)).cancelOrder o.orderId).bids = b.bids ∧
    ((b.call (.addOrder o)).cancelOrder o.orderId).asks = b.asks ∧
    ((b.call (.addOrder o)).cancelOrder o.orderId).orders = b.orders ∧
    ∀ q ∈ b.resting, ((b.call (.addOrder o)).cancelOrder o.orderId).heap.read q = b.heap.read q

/-- Two cancels take the orders with either id out of each side. -/
theorem Wf.levels_cancelOrder_cancelOrder (h : b.Wf) (i j : OrderId) (s : Side) :
    ((b.cancelOrder i).cancelOrder j).levels s =
      keepOrders (fun p => (b.heap.read p).orderId ≠ j ∧ (b.heap.read p).orderId ≠ i)
        (b.levels s) := by
  rw [(cancelOrder_spec h i).1.levels_cancelOrder, h.levels_cancelOrder, keepOrders_keepOrders]
  simp only [orderId_cancelOrder, Bool.decide_and]

/-- Cancels of two ids commute. -/
theorem Wf.cancelOrder_comm (h : b.Wf) (i j : OrderId) (s : Side) :
    ((b.cancelOrder i).cancelOrder j).levels s = ((b.cancelOrder j).cancelOrder i).levels s := by
  rw [h.levels_cancelOrder_cancelOrder, h.levels_cancelOrder_cancelOrder]
  simp only [and_comm]

/-- Cancels of two ids write to no other order. -/
theorem Wf.read_cancelOrder_cancelOrder (h : b.Wf) (hi : (b.heap.read q).orderId ≠ i)
    (hj : (b.heap.read q).orderId ≠ j) :
    ((b.cancelOrder i).cancelOrder j).heap.read q = b.heap.read q := by
  have hnone : ∀ k, (b.heap.read q).orderId ≠ k → b.orders.lookup k ≠ some q :=
    fun k hne hlook => hne ((h.index.lookup k q).mp hlook).2
  have hlookup : (b.cancelOrder i).orders.lookup j ≠ some q := by
    rw [orders_cancelOrder, UnorderedMap.lookup_erase_ite]
    split
    · exact nofun
    · exact hnone j hj
  rw [read_cancelOrder_of_ne hlookup, read_cancelOrder_of_ne (hnone i hi)]

/-- A well-formed book is all that a cancel needs to be exact. -/
theorem Wf.cancelExact (h : b.Wf) (i : OrderId) : b.CancelExact i := by
  obtain ⟨hwf, hview, -⟩ := cancelOrder_spec h i
  have hnone : (b.cancelOrder i).orders.lookup i = none := by
    rw [orders_cancelOrder]
    exact Finmap.lookup_erase i _
  refine ⟨fun p hp hid => h.removesOne ((h.index.lookup i p).mpr ⟨hp, hid⟩), ?_, fun habsent => ?_,
    cancelOrder_of_none hnone, fun j => ⟨SortedMap.ext (h.cancelOrder_comm i j .bid),
      SortedMap.ext (h.cancelOrder_comm i j .ask), ?_, fun q hi hj => ?_⟩,
    fun o => cancelOrder_addOrder h⟩
  · rw [hwf.gone_iff, hview]
    exact fun hmem => (Book.mem_ids_withdraw.mp hmem).2 rfl
  · refine cancelOrder_of_none (Option.eq_none_iff_forall_ne_some.mpr fun q hq => ?_)
    obtain ⟨hmem, hid⟩ := (h.index.lookup i q).mp hq
    exact habsent q hmem hid
  · simp only [orders_cancelOrder]
    exact Finmap.erase_erase
  · rw [h.read_cancelOrder_cancelOrder hi hj, h.read_cancelOrder_cancelOrder hj hi]

end Orderbook

variable (symbol : List UInt8) (clock : ℕ → Timestamp)

/-- **Cancels are exact** in the book of every run in which no order id is given out twice. -/
theorem cancel_exact (past : List Input) (h : acceptedCount past < 2 ^ 64) (i : OrderId) :
    (run symbol clock past).orderbook.CancelExact i :=
  (run_inv symbol clock past h).book.wf.cancelExact i

/-- A run with two orders at one price. -/
def sharedLevelRun : List Input :=
  [.message (limitOrderMessage 2 .sell 100 4), .message (limitOrderMessage 1 .sell 100 5)]

theorem cancel_exact_sharedLevelRun :
    (run [] (fun _ => 0) sharedLevelRun).orderbook.asks.entries = [(100, [0, 1])] ∧
    (run [] (fun _ => 0) sharedLevelRun).orderbook.CancelExact 1 :=
  ⟨by decide, cancel_exact [] (fun _ => 0) sharedLevelRun (by decide) 1⟩

/-- **With two orders under one id**, a cancel takes the first of them out of the level and the
second out of the index: an order with the id still rests. -/
theorem not_gone_wrappedRun {n : ℕ} (hn : (2 : OrderId) + UInt64.ofNat n = 1) :
    ¬ ((after [] (fun _ => 0) (wrappedRun n)).orderbook.cancelOrder 1).Gone 1 := by
  obtain ⟨p, h⟩ := wrappedRun_spec hn
  have hid := h.orderId
  have hasks' := (cancelOrder_sameId h.asks h.sameId h.price h.buySell (hid ▸ h.index)).1
  rw [hid] at hasks'
  intro hgone
  refine hgone.1 p (List.mem_append_right _ ?_) ((Orderbook.orderId_cancelOrder _ _ p).trans hid)
  rw [hasks']
  exact List.mem_singleton_self p

theorem not_cancelExact_wrappedRun :
    ¬ (after [] (fun _ => 0) (wrappedRun (2 ^ 64 - 1))).orderbook.CancelExact 1 :=
  fun h => not_gone_wrappedRun (n := 2 ^ 64 - 1) (by decide) h.gone

end ExchangeEngine
