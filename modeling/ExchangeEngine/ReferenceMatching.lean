import ExchangeEngine.Sides
import ExchangeEngine.PriceProtection

/-!
# The Reference Matching

`addToBook` is two nested loops over the levels of the opposite side. The reference is one list: the
opposite side, best level first and first in, first out within a level, as far as the incoming
order's limit goes, filled greedily from the front. This module shows that `AddOrder` does exactly
that in every book whose levels are not empty, whose orders have quantities and whose ids are
unique. Nothing is asked of the other fields of the orders that rest, nor of the index.

## Main results

* `Orderbook.add_order_is_reference`: `AddOrder` equals the reference matching.
-/

open PriceTime

namespace ExchangeEngine

/-- The prices at which an incoming order trades: a MARKET order at every price, a LIMIT order at
those not worse than its own. -/
def Order.tradesAt (o : Order) (price : Price) : Bool :=
  decide (o.orderType = .market) || o.withinLimit price

/-- The order is appended to the level at `price`, which may be a new one; the other levels stay as
they are. -/
def Appends (order : OrderPointer) (price : Price) (levels levels' : Levels) : Prop :=
  ∃ (l₁ : Levels) (level : Option OrderPointers) (l₂ : Levels),
    levels = l₁ ++ (level.toList.map fun ps => (price, ps)) ++ l₂ ∧
    levels' = l₁ ++ (price, level.getD [] ++ [order]) :: l₂

namespace Orderbook

/-- **The representation invariant that the reference asks for**: no level is empty, every order
has a quantity, and no two orders have one id. That the levels are sorted is part of their type. -/
structure RepInvariant (b : Orderbook) : Prop where
  noEmptyLevel : ∀ s, NoEmptyLevel (b.levels s)
  quantity : ∀ p ∈ b.resting, (b.heap.read p).quantity ≠ 0
  ids : (b.resting.map fun p => (b.heap.read p).orderId).Nodup

/-- An incoming order of side `s`: a LIMIT or MARKET order with a quantity and an id that the book
does not know. -/
structure Incoming (b : Orderbook) (order : OrderPointer) (s : Side) : Prop where
  buySell : (b.heap.read order).buySell = buySellOf s
  orderType : (b.heap.read order).orderType = .limit ∨ (b.heap.read order).orderType = .market
  quantity : (b.heap.read order).quantity ≠ 0
  fresh : ∀ p ∈ b.resting, (b.heap.read p).orderId ≠ (b.heap.read order).orderId
  unknown : b.orders.lookup (b.heap.read order).orderId = none

section Reference

variable (b : Orderbook) (order : OrderPointer) (s : Side)

/-- The offers that the incoming order can trade with: the opposite side, flattened best level
first and first in, first out within a level, as far as the order's limit goes. -/
def reachable : List BookOffer :=
  (levelOffers b.heap (b.levels s.contra)).filter fun a => (b.heap.read order).tradesAt a.price

/-- **The reference matching**: the greedy fill of the incoming quantity along these offers. -/
def greedyFill : Sweep OrderId Price OrderTag :=
  sweep (fun _ => true) (b.heap.read order).quantity.toNat (b.reachable order s)

/-- The levels of the opposite side that the incoming order cannot trade with. -/
def untouched : Levels :=
  (b.levels s.contra).filter fun l => !(b.heap.read order).tradesAt l.1

/-- Whether the order rests after the reference matching. -/
def Rests : Prop :=
  (b.heap.read order).orderType = .limit ∧ 0 < (b.greedyFill order s).left

instance : Decidable (b.Rests order s) :=
  inferInstanceAs (Decidable (_ ∧ _))

end Reference

/-- **The book `b'` is what the reference matching makes of `b`.** -/
structure AddsAsReference (b : Orderbook) (order : OrderPointer) (s : Side) (b' : Orderbook) :
    Prop where
  /-- One trade for each fill, at the resting price. -/
  trades : b'.trades = (b.greedyFill order s).fills.map
    (tradeOf (buySellOf s) (b.heap.read order).orderId)
  /-- What is not filled, in its order, and behind it the untouched levels. -/
  contra : ∃ unfilled : Levels, b'.levels s.contra = unfilled ++ b.untouched order s ∧
    levelOffers b'.heap unfilled = (b.greedyFill order s).rest
  noEmptyLevel : NoEmptyLevel (b'.levels s.contra)
  /-- The orders of the untouched levels and of the own side are as they were. -/
  unchanged : ∀ p ∈ pointers (b.untouched order s) ++ pointers (b.levels s),
    b'.heap.read p = b.heap.read p
  /-- The own side gains the order, if it rests. -/
  own : if b.Rests order s then
      Appends order (b.heap.read order).price (b.levels s) (b'.levels s)
    else b'.levels s = b.levels s
  incoming : b.Rests order s →
    (b'.heap.read order).quantity.toNat = (b.greedyFill order s).left
  terms : b'.heap.read order = { b.heap.read order with
    quantity := (b'.heap.read order).quantity, orderStatus := (b'.heap.read order).orderStatus }
  /-- The index loses the orders that are filled, and gains the order, if it rests. -/
  orders : ∀ i, b'.orders.lookup i =
    if b.Rests order s ∧ i = (b.heap.read order).orderId then some order
    else if i ∈ closedIds (b.greedyFill order s).fills then none
    else b.orders.lookup i

variable {b : Orderbook} {order : OrderPointer} {s : Side}

/-- Every well-formed book satisfies the invariant. -/
theorem Wf.repInvariant (h : b.Wf) : b.RepInvariant := by
  refine ⟨h.noEmptyLevel, fun p hp => ?_, h.index.nodup⟩
  obtain ⟨_, hrest⟩ := h.resting hp
  exact hrest.quantity

/-! ### The prices that are reached -/

/-- `priceCrossed` is the reference's condition. -/
theorem Incoming.accepts (h : b.Incoming order s) (price : Price) :
    (b.heap.read order).accepts (buySellOf s) price = (b.heap.read order).tradesAt price := by
  rcases h.orderType with hlimit | hmarket
  · rw [accepts_of_limit h.buySell hlimit, Order.tradesAt, hlimit]
    rfl
  · simp [Order.accepts, priceCrossed, Order.tradesAt, hmarket]

theorem Incoming.tradesAt_of_better (h : b.Incoming order s) {x y : Price}
    (hxy : s.contra.better x y) (hy : (b.heap.read order).tradesAt y = true) :
    (b.heap.read order).tradesAt x = true := by
  rw [Order.tradesAt, Bool.or_eq_true] at hy ⊢
  exact hy.imp_right (withinLimit_of_better h.buySell hxy)

/-- The levels of the opposite side that are reached, and behind them those that are not. -/
theorem Incoming.levels_contra (h : b.Incoming order s) :
    ((b.levels s.contra).filter fun l => (b.heap.read order).tradesAt l.1) ++
      b.untouched order s = b.levels s.contra :=
  filter_append_of_pairwise (b.sorted_levels s.contra) fun _ _ hxy hy =>
    h.tradesAt_of_better hxy hy

/-- **The sweep of the loops is the greedy fill**, with the untouched levels behind it. -/
theorem Incoming.sweep_contra (h : b.Incoming order s) :
    sweep ((b.heap.read order).accepts (buySellOf s)) (b.heap.read order).quantity.toNat
        (levelOffers b.heap (b.levels s.contra)) =
      ⟨(b.greedyFill order s).fills,
        (b.greedyFill order s).rest ++ levelOffers b.heap (b.untouched order s),
        (b.greedyFill order s).left⟩ := by
  have hlevels := congrArg (levelOffers b.heap) h.levels_contra
  rw [levelOffers_append, ← levelOffers_filter] at hlevels
  have hreach : ∀ a ∈ b.reachable order s,
      (b.heap.read order).accepts (buySellOf s) a.price = true := by
    intro a ha
    rw [h.accepts]
    exact (List.mem_filter.mp ha).2
  have hreject : ∀ a ∈ levelOffers b.heap (b.untouched order s),
      (b.heap.read order).accepts (buySellOf s) a.price = false := by
    intro a ha
    obtain ⟨l, hl, p, -, rfl⟩ := mem_levelOffers.mp ha
    rw [h.accepts]
    exact Bool.not_eq_true' _ ▸ (List.mem_filter.mp hl).2
  rw [← hlevels]
  exact sweep_of_split hreach hreject _

/-! ### The loops -/

/-- **What the loops leave**: the reference matching, but for what becomes of the order itself. -/
structure Filled (b : Orderbook) (order : OrderPointer) (s : Side) (b' : Orderbook)
    (remaining : Quantity) : Prop where
  read : b'.heap.read order = b.heap.read order
  own : b'.levels s = b.levels s
  unchanged : ∀ p ∈ pointers (b.untouched order s) ++ pointers (b.levels s),
    b'.heap.read p = b.heap.read p
  contra : ∃ unfilled : Levels, b'.levels s.contra = unfilled ++ b.untouched order s ∧
    levelOffers b'.heap unfilled = (b.greedyFill order s).rest
  noEmptyLevel : NoEmptyLevel (b'.levels s.contra)
  notMem : order ∉ pointers (b'.levels s.contra)
  trades : b'.trades = b.trades ++ (b.greedyFill order s).fills.map
    (tradeOf (buySellOf s) (b.heap.read order).orderId)
  remaining : remaining.toNat = (b.greedyFill order s).left
  orders : b'.orders = eraseIds b.orders (closedIds (b.greedyFill order s).fills)

section Loops

variable {r : Price → Price → Prop} [DecidableRel r] [IsStrictTotalOrder Price r]
  {m : LevelBook r}

omit [DecidableRel r] [IsStrictTotalOrder Price r] in
/-- The invariant of the loops holds when they start. -/
theorem RepInvariant.loopInv (hb : b.RepInvariant) (h : b.Incoming order s)
    (hm : m.entries = b.levels s.contra) :
    LoopInv order (b.heap.read order) (buySellOf s) (b.untouched order s)
      (pointers (b.levels s)) (b.matchState m (b.heap.read order).quantity) := by
  have hperm : (pointers (b.levels s.contra) ++ pointers (b.levels s)).Perm b.resting := by
    cases s with
    | bid => exact List.perm_append_comm
    | ask => exact List.Perm.refl _
  refine ⟨rfl, ?_, ⟨_, h.levels_contra.trans hm.symm⟩, fun l hl => ?_, ?_⟩
  · rw [show (b.matchState m (b.heap.read order).quantity).contraBook.entries = _ from hm,
      List.map_cons, List.nodup_cons, (hperm.map _).nodup_iff]
    refine ⟨fun hmem => ?_, hb.ids⟩
    obtain ⟨p, hp, hid⟩ := List.mem_map.mp hmem
    exact h.fresh p (hperm.subset hp) hid
  · rw [h.accepts]
    simpa using (List.mem_filter.mp hl).2
  · have hne := hb.noEmptyLevel s.contra
    rw [← hm] at hne
    exact hne

/-- The loops on the opposite side, and the rest of the book as it was. -/
theorem RepInvariant.filled (hb : b.RepInvariant) (h : b.Incoming order s)
    (hm : m.entries = b.levels s.contra) {b' : Orderbook} {s' : MatchState r}
    (hs' : matchAgainst order (buySellOf s) (b.matchState m (b.heap.read order).quantity) = s')
    (hheap : b'.heap = s'.heap) (hcontra : b'.levels s.contra = s'.contraBook.entries)
    (hown : b'.levels s = b.levels s) (htrades : b'.trades = s'.trades)
    (horders : b'.orders = s'.orders) : b.Filled order s b' s'.remaining := by
  have hout := (hb.loopInv h hm).loopOutcome rfl
  have hsweep : (b.matchState m (b.heap.read order).quantity).levelSweep (b.heap.read order)
      (buySellOf s) = _ := (congrArg (fun levels => sweep _ _ (levelOffers b.heap levels)) hm).trans
        h.sweep_contra
  rw [hs'] at hout
  have hnd := (List.nodup_cons.mp hout.inv.nodup.of_map).1
  obtain ⟨unfilled, hunfilled⟩ := hout.inv.suffix
  have hoffers := hout.offers
  rw [hsweep, ← hunfilled, levelOffers_append, levelOffers_congr fun p hp =>
    hout.frame p (List.mem_append_left _ hp)] at hoffers
  refine ⟨?_, hown, fun p hp => ?_, ⟨unfilled, ?_, ?_⟩, ?_, fun hmem => ?_, ?_, ?_, ?_⟩
  · rw [hheap]
    exact hout.inv.order_eq
  · rw [hheap]
    exact hout.frame p hp
  · rw [hcontra, hunfilled]
  · rw [hheap]
    exact List.append_cancel_right hoffers
  · rw [hcontra]
    exact hout.noEmpty
  · rw [hcontra] at hmem
    exact hnd (List.mem_append_left _ hmem)
  · rw [htrades, hout.trades, hsweep]
    rfl
  · rw [hout.remaining, hsweep]
  · rw [horders, hout.orders, hsweep]
    rfl

end Loops

theorem RepInvariant.matchContra (hb : b.RepInvariant) (h : b.Incoming order s) :
    b.Filled order s (b.matchContra order).1 (b.matchContra order).2 := by
  have hs := h.buySell
  cases s with
  | bid =>
      simp only [Orderbook.matchContra, hs, buySellOf]
      exact hb.filled h (m := b.asks) rfl rfl rfl rfl rfl rfl rfl
  | ask =>
      simp only [Orderbook.matchContra, hs, buySellOf]
      exact hb.filled h (m := b.bids) rfl rfl rfl rfl rfl rfl rfl

/-! ### What becomes of the order -/

section Settle

variable {b₁ b' : Orderbook} {remaining : Quantity}

theorem Filled.rests_iff (hf : b.Filled order s b₁ remaining) :
    b.Rests order s ↔ (b.heap.read order).orderType = .limit ∧ remaining ≠ 0 := by
  rw [Rests, ← hf.remaining, Quantity.toNat_pos_iff]

/-- The order is booked at the end of the level at its price. -/
theorem appends_bookOrder (hs : (b.heap.read order).buySell = buySellOf s) :
    Appends order (b.heap.read order).price (b.levels s) ((b.bookOrder order).levels s) := by
  rw [(levels_bookOrder hs).1]
  cases s with
  | bid =>
      obtain ⟨l₁, level, l₂, hent, -, -, -, hup, -⟩ := b.bids.split (b.heap.read order).price
      exact ⟨l₁, level, l₂, hent, hup _⟩
  | ask =>
      obtain ⟨l₁, level, l₂, hent, -, -, -, hup, -⟩ := b.asks.split (b.heap.read order).price
      exact ⟨l₁, level, l₂, hent, hup _⟩

/-- The order is written to once more; the rest is what the loops left. -/
theorem Filled.addsAsReference (hf : b.Filled order s b₁ remaining) (hnil : b.trades = [])
    (hfresh : ∀ p ∈ pointers (b.untouched order s) ++ pointers (b.levels s), p ≠ order)
    (hheap : b'.heap = (b₁.updateOrder order
      (·.settled (b.heap.read order).quantity remaining)).heap)
    (htrades : b'.trades = b₁.trades) (hcontra : b'.levels s.contra = b₁.levels s.contra)
    (hown : if b.Rests order s then
        Appends order (b.heap.read order).price (b.levels s) (b'.levels s)
      else b'.levels s = b.levels s)
    (horders : ∀ i, b'.orders.lookup i =
      if b.Rests order s ∧ i = (b.heap.read order).orderId then some order
      else b₁.orders.lookup i) : b.AddsAsReference order s b' := by
  have hread : ∀ p ≠ order, b'.heap.read p = b₁.heap.read p := by
    intro p hp
    rw [hheap, read_updateOrder_of_ne _ hp]
  have hself : b'.heap.read order =
      (b.heap.read order).settled (b.heap.read order).quantity remaining := by
    rw [hheap, read_updateOrder_self, hf.read]
  obtain ⟨unfilled, hlevels, hoffers⟩ := hf.contra
  have hunfilled : ∀ p ∈ pointers unfilled, b'.heap.read p = b₁.heap.read p := by
    intro p hp
    refine hread p fun heq => hf.notMem ?_
    rw [hlevels, pointers_append]
    exact List.mem_append_left _ (heq ▸ hp)
  refine ⟨?_, ⟨unfilled, hcontra.trans hlevels, ?_⟩, ?_, fun p hp => ?_, hown, fun hrests => ?_, ?_,
    fun i => ?_⟩
  · rw [htrades, hf.trades, hnil, List.nil_append]
  · rw [levelOffers_congr hunfilled, hoffers]
  · rw [hcontra]
    exact hf.noEmptyLevel
  · rw [hread p (hfresh p hp), hf.unchanged p hp]
  · have haggressive : (b.heap.read order).isAggressive = false := by
      simp [Order.isAggressive, hrests.1]
    rw [hself, Order.quantity_settled, haggressive, ← hf.remaining]
    rfl
  · rw [hself]
    exact Order.settled_eq _ _ _
  · rw [horders, hf.orders, lookup_eraseIds]

/-- An order that does not rest leaves the book at most the index without its id. -/
theorem Filled.settleOrder_of_not_rests (hf : b.Filled order s b₁ remaining)
    (h : b.Incoming order s) (hrests : ¬ b.Rests order s) :
    let b' := b₁.updateOrder order (·.settled (b.heap.read order).quantity remaining)
    b₁.settleOrder order (b.heap.read order).quantity remaining = b' ∨
      b₁.settleOrder order (b.heap.read order).quantity remaining =
        b'.clearOrderRecord (b.heap.read order).orderId := by
  rw [hf.rests_iff] at hrests
  rw [settleOrder_eq, hf.read]
  by_cases hrem : remaining = 0
  · exact Or.inr (if_pos ⟨hrem, Quantity.pos_iff.mpr h.quantity⟩)
  · have hmarket := h.orderType.resolve_left fun hlimit => hrests ⟨hlimit, hrem⟩
    have haggressive : (b.heap.read order).isAggressive = true := by
      simp [Order.isAggressive, hmarket]
    refine Or.inl ?_
    simp only [hrem, false_and, if_false, haggressive, if_true]

/-- **Settling** books the order exactly if the reference lets it rest. -/
theorem Filled.settleOrder (hf : b.Filled order s b₁ remaining) (h : b.Incoming order s)
    (hnil : b.trades = []) :
    b.AddsAsReference order s (b₁.settleOrder order (b.heap.read order).quantity remaining) := by
  have hfresh : ∀ p ∈ pointers (b.untouched order s) ++ pointers (b.levels s), p ≠ order := by
    rintro p hp rfl
    refine h.fresh p (mem_resting.mpr ?_) rfl
    rcases List.mem_append.mp hp with hp | hp
    · exact ⟨s.contra, (List.filter_sublist.flatMap _).subset hp⟩
    · exact ⟨s, hp⟩
  have hunknown : b₁.orders.lookup (b.heap.read order).orderId = none := by
    rw [hf.orders, lookup_eraseIds, h.unknown, ite_self]
  by_cases hrests : b.Rests order s
  · obtain ⟨hlimit, hrem⟩ := hf.rests_iff.mp hrests
    rw [settleOrder_of_limit b₁ h.quantity (by rw [hf.read]; exact hlimit), if_neg hrem]
    have hterms := read_updateOrder_self b₁ order (·.settled (b.heap.read order).quantity remaining)
    rw [hf.read, Order.settled_eq] at hterms
    have hside := (congrArg Order.buySell hterms).trans h.buySell
    have hlevels : ∀ t, (b₁.updateOrder order (·.settled (b.heap.read order).quantity
        remaining)).levels t = b₁.levels t := fun t => by cases t <;> rfl
    obtain ⟨-, horders⟩ := bookOrder_rest (b₁.updateOrder order
      (·.settled (b.heap.read order).quantity remaining)) order
    refine hf.addsAsReference hnil hfresh (heap_bookOrder _ _) (trades_bookOrder _ _)
      ((levels_bookOrder hside).2.trans (hlevels _)) ?_ fun i => ?_
    · have happends := appends_bookOrder hside
      rw [hlevels, hf.own, hterms] at happends
      rw [if_pos hrests]
      exact happends
    · rw [horders, hterms, UnorderedMap.lookup_insert_ite]
      simp only [hrests, true_and, eq_comm]
      rfl
  · have hunbooked := hf.settleOrder_of_not_rests h hrests
    have hlevels : ∀ t, (b₁.settleOrder order (b.heap.read order).quantity remaining).levels t =
        b₁.levels t := by
      intro t
      rcases hunbooked with heq | heq <;> rw [heq] <;> cases t <;> rfl
    refine hf.addsAsReference hnil hfresh ?_ ?_ (hlevels _) ?_ fun i => ?_
    · rcases hunbooked with heq | heq <;> rw [heq]
      rfl
    · rcases hunbooked with heq | heq <;> rw [heq] <;> rfl
    · rw [if_neg hrests, hlevels, hf.own]
    · rw [if_neg fun hi => hrests hi.1]
      rcases hunbooked with heq | heq
      · rw [heq]
        rfl
      · rw [heq, Orderbook.clearOrderRecord, UnorderedMap.lookup_erase_ite]
        split
        · rename_i hi
          rw [hi, hunknown]
        · rfl

end Settle

/-- **`AddOrder` equals the reference matching**, in every book that satisfies the representation
invariant and for every incoming order. -/
theorem add_order_is_reference (b : Orderbook) (order : OrderPointer) (s : Side)
    (hb : b.RepInvariant) (h : b.Incoming order s) :
    b.AddsAsReference order s (b.addOrder order) := by
  have hb' : RepInvariant { b with trades := [] } := ⟨hb.noEmptyLevel, hb.quantity, hb.ids⟩
  have h' : Incoming { b with trades := [] } order s :=
    ⟨h.buySell, h.orderType, h.quantity, h.fresh, h.unknown⟩
  obtain ⟨htrades, hcontra, hne, hunchanged, hown, hincoming, hterms, horders⟩ :=
    (hb'.matchContra h').settleOrder h' rfl
  exact ⟨htrades, hcontra, hne, hunchanged, hown, hincoming, hterms, horders⟩

end Orderbook

/-- Two SELL orders rest at 100 and one rests at 101. -/
def twoLevelRun : List InboundMessage :=
  [limitOrderMessage 2 .sell 101 4, limitOrderMessage 2 .sell 100 3, limitOrderMessage 1 .sell 100 5]

/-- Their book, with a BUY order at 100 that fills both orders there and rests with what is left. -/
def twoLevelBook : Orderbook :=
  (after [] (fun _ => 0) twoLevelRun).orderbook.allocOrder
    { price := 100, quantity := 10, timestamp := 0, orderId := 4, orderType := .limit,
      buySell := .buy, orderStatus := .new, sessionId := 3, clientOrderId := 0 }

theorem add_order_is_reference_twoLevelBook :
    ((twoLevelBook.greedyFill 3 .bid).fills.map Fill.executed = [5, 3] ∧
      twoLevelBook.Rests 3 .bid ∧ twoLevelBook.untouched 3 .bid = [(101, [2])]) ∧
    twoLevelBook.AddsAsReference 3 .bid (twoLevelBook.addOrder 3) := by
  have hrun : acceptedOrders twoLevelRun < 2 ^ 64 := by decide
  have hb : twoLevelBook.RepInvariant :=
    ((after_inv [] (fun _ => 0) hrun).book.wf.allocOrder _).1.repInvariant
  exact ⟨by decide, Orderbook.add_order_is_reference twoLevelBook 3 .bid hb
    ⟨rfl, Or.inl rfl, by decide, by decide, by decide⟩⟩

end ExchangeEngine
