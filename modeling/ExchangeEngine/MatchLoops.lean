import Mathlib.Data.List.Flatten
import ExchangeEngine.MatchTurns

/-!
# The Matching Loops

The nested loops of `matchAgainst` erase list nodes, map levels and index entries while they
iterate. This module shows that they compute `PriceTime.sweep` of the incoming quantity along
the levels of the opposite side, whatever orders these hold, as long as no two of them have one
id.

The argument is a conserved quantity. Each state of the loops has an **outcome**: the trades
recorded so far followed by those of a sweep of the remaining quantity, the side that sweep
leaves, its demand left over, and the index without the orders that it closes. Every turn keeps
the outcome (`LoopInv.turn`); at the start it is the sweep itself, and at the end nothing is left
to sweep, so what the loops have recorded is the outcome.

`LoopInv` is the invariant of the loops; `CursorWf` is what holds at each loop head. The position
`i` of the iterator is `0` as long as there is quantity left, because the iterator only steps over
an order that the last execution did not close.
-/

open PriceTime

namespace ExchangeEngine

variable {r : Price → Price → Prop}

/-- The trade that a fill of a sweep is recorded as. -/
def tradeOf (side : BuySell) (orderId : OrderId) (f : BookFill) : Trade where
  price := f.offer.price
  quantity := UInt32.ofNat f.executed
  tradeType := if f.executed = f.offer.qty ∧ f.left = 0 then .full else .partial_
  buyOrderId := if side = .buy then orderId else f.offer.id
  sellOrderId := if side = .sell then orderId else f.offer.id

/-- What holds at a loop head: between levels no level is empty; inside the level at
`restingPrice` that level is the first one, its price crosses, and the iterator has moved
only if nothing is left to execute. -/
def CursorWf (accepts : Price → Bool) (s : MatchState r) : Prop :=
  match s.cursor with
  | .levels => NoEmptyLevel s.contraBook.entries
  | .orders restingPrice i =>
      ∃ ps es, s.contraBook.entries = (restingPrice, ps) :: es ∧ NoEmptyLevel es ∧
        accepts restingPrice = true ∧ (i = 0 ∨ s.remaining = 0)

/-! ### The offers of a side, as its levels price them -/

/-- The offer of an order in the level at `price`. -/
def Order.offerAt (o : Order) (price : Price) : BookOffer :=
  { o.offer with price }

/-- The offers of all levels, each at the price of its level. -/
def levelOffers (heap : Heap) (levels : Levels) : List BookOffer :=
  levels.flatMap fun l => l.2.map fun p => (heap.read p).offerAt l.1

theorem levelOffers_cons (heap : Heap) (l : Price × OrderPointers) (levels : Levels) :
    levelOffers heap (l :: levels) =
      (l.2.map fun p => (heap.read p).offerAt l.1) ++ levelOffers heap levels :=
  List.flatMap_cons

theorem levelOffers_append (heap : Heap) (l₁ l₂ : Levels) :
    levelOffers heap (l₁ ++ l₂) = levelOffers heap l₁ ++ levelOffers heap l₂ :=
  List.flatMap_append

theorem levelOffers_congr {heap heap' : Heap} {levels : Levels}
    (h : ∀ p ∈ pointers levels, heap'.read p = heap.read p) :
    levelOffers heap' levels = levelOffers heap levels := by
  refine List.flatMap_congr fun l hl => List.map_congr_left fun p hp => ?_
  rw [h p (mem_pointers.mpr ⟨l, hl, hp⟩)]

theorem mem_levelOffers {heap : Heap} {levels : Levels} {a : BookOffer} :
    a ∈ levelOffers heap levels ↔ ∃ l ∈ levels, ∃ p ∈ l.2, (heap.read p).offerAt l.1 = a := by
  simp only [levelOffers, List.mem_flatMap, List.mem_map]

/-- A filter by price takes whole levels. -/
theorem levelOffers_filter (heap : Heap) (levels : Levels) (within : Price → Bool) :
    (levelOffers heap levels).filter (fun a => within a.price) =
      levelOffers heap (levels.filter fun l => within l.1) := by
  induction levels with
  | nil => rfl
  | cons l levels ih =>
      have hprice : ∀ a ∈ l.2.map fun p => (heap.read p).offerAt l.1, a.price = l.1 := by
        intro a ha
        obtain ⟨p, -, rfl⟩ := List.mem_map.mp ha
        rfl
      rw [levelOffers_cons, List.filter_append, ih]
      cases hin : within l.1 with
      | true =>
          have hkeep : ∀ a ∈ l.2.map fun p => (heap.read p).offerAt l.1, within a.price = true :=
            fun a ha => by rw [hprice a ha, hin]
          simp only [List.filter_eq_self.mpr hkeep, List.filter_cons, hin, if_true,
            levelOffers_cons]
      | false =>
          have hdrop : ∀ a ∈ l.2.map fun p => (heap.read p).offerAt l.1, ¬ within a.price = true :=
            fun a ha => by rw [hprice a ha, hin]; exact Bool.false_ne_true
          simp only [List.filter_eq_nil_iff.mpr hdrop, List.filter_cons, hin,
            Bool.false_eq_true, if_false, List.nil_append]

/-- In the levels of their own prices, these are the offers of the orders. -/
theorem LevelsWf.levelOffers_eq {heap : Heap} {side : BuySell} {levels : Levels}
    (h : LevelsWf heap side levels) : levelOffers heap levels = offers heap levels := by
  rw [offers, offersAt, pointers, List.map_flatMap]
  refine List.flatMap_congr fun l hl => List.map_congr_left fun p hp => ?_
  rw [Order.offerAt, ← (h l hl p hp).price_eq]
  rfl

/-- The ids of the offers that some fills close. -/
def closedIds (fs : List BookFill) : List OrderId :=
  (fs.filter fun f => f.executed = f.offer.qty).map fun f => f.offer.id

/-- The index without some ids. -/
def eraseIds (orders : UnorderedMap OrderId OrderPointer) (ids : List OrderId) :
    UnorderedMap OrderId OrderPointer :=
  ids.foldl (fun orders i => orders.erase i) orders

theorem closedIds_close (a : BookOffer) (left : ℕ) (fs : List BookFill) :
    closedIds (⟨a, a.qty, left⟩ :: fs) = a.id :: closedIds fs := by
  simp [closedIds]

theorem closedIds_within {a : BookOffer} {x : ℕ} (h : x ≠ a.qty) (left : ℕ)
    (fs : List BookFill) : closedIds (⟨a, x, left⟩ :: fs) = closedIds fs := by
  simp [closedIds, h]

theorem lookup_eraseIds (orders : UnorderedMap OrderId OrderPointer) (ids : List OrderId)
    (i : OrderId) :
    (eraseIds orders ids).lookup i = if i ∈ ids then none else orders.lookup i := by
  induction ids generalizing orders with
  | nil => rfl
  | cons j ids ih =>
      rw [eraseIds, List.foldl_cons, ← eraseIds, ih]
      exact UnorderedMap.ite_lookup_erase orders j i ids

/-! ### One turn -/

/-- **The invariant of the matching loops** for the incoming order `o` at the address `order`: no
two of the incoming order, the orders of the opposite side and those of the own side have one id;
the levels `beyond` the prices that the order accepts stand at the end. -/
structure LoopInv (order : OrderPointer) (o : Order) (side : BuySell) (beyond : Levels)
    (own : OrderPointers) (s : MatchState r) : Prop where
  order_eq : s.heap.read order = o
  nodup : ((order :: (pointers s.contraBook.entries ++ own)).map fun q =>
    (s.heap.read q).orderId).Nodup
  suffix : beyond <:+ s.contraBook.entries
  rejected : ∀ l ∈ beyond, o.accepts side l.1 = false
  cursor : CursorWf (o.accepts side) s

/-- The sweep that is still to be done in a state of the loops. -/
def MatchState.levelSweep (o : Order) (side : BuySell) (s : MatchState r) :
    Sweep OrderId Price OrderTag :=
  sweep (o.accepts side) s.remaining.toNat (levelOffers s.heap s.contraBook.entries)

/-- The outcome of the loops as seen from one of their states: all trades, the side that
remains, the quantity left over, and the index. -/
def MatchState.levelOutcome (o : Order) (side : BuySell) (s : MatchState r) :
    List Trade × List BookOffer × ℕ × UnorderedMap OrderId OrderPointer :=
  (s.trades ++ (s.levelSweep o side).fills.map (tradeOf side o.orderId),
    (s.levelSweep o side).rest, (s.levelSweep o side).left,
    eraseIds s.orders (closedIds (s.levelSweep o side).fills))

section Turn

variable {order p : OrderPointer} {o : Order} {side : BuySell} {beyond : Levels}
  {own ps : OrderPointers} {k : Price} {es : Levels} {s s' : MatchState r}

/-- The trade of an execution is the one recorded for the corresponding fill of the sweep. -/
theorem trade_eq_tradeOf (horder : s.heap.read order = o) {x q : ℕ}
    (hx : (s.executed p).toNat = x) (hq : (s.remaining - s.executed p).toNat = q) :
    s.trade order side k p = tradeOf side o.orderId ⟨(s.heap.read p).offerAt k, x, q⟩ := by
  have hquantity : s.executed p = UInt32.ofNat x := by
    rw [← hx, UInt32.ofNat_toNat]
  have htype : ((s.reduced p).isFilled = true ∧ s.remaining - s.executed p = 0) ↔
      (x = (s.heap.read p).quantity.toNat ∧ q = 0) := by
    have hle := (executed_le s p).2
    have hfill := reduced_isFilled s p
    have hmin : (s.executed p).toNat = min s.remaining.toNat (s.heap.read p).quantity.toNat := by
      rw [MatchState.executed, Quantity.toNat_min]
    rw [hfill, ← UInt32.toNat_inj, hq, UInt32.toNat_zero]
    omega
  simp only [MatchState.trade, tradeOf, Order.offerAt, Order.offer, horder, htype, ← hquantity]
  rfl

/-- The other orders are at other addresses than the order at the head of the first level. -/
theorem LoopInv.ne_head (hinv : LoopInv order o side beyond own s)
    (hent : s.contraBook.entries = (k, p :: ps) :: es) {q : OrderPointer}
    (hq : q ∈ order :: (ps ++ pointers es ++ own)) : q ≠ p := by
  have hnd := hinv.nodup
  have hperm : (order :: (pointers s.contraBook.entries ++ own)).Perm
      (p :: order :: (ps ++ pointers es ++ own)) := by
    rw [hent, pointers_cons]
    exact List.Perm.swap _ _ _
  rw [(hperm.map _).nodup_iff, List.map_cons, List.nodup_cons] at hnd
  rintro rfl
  exact hnd.1 (List.mem_map_of_mem hq)

/-- The levels that are not accepted come after a level that is. -/
theorem LoopInv.suffix_tail (hinv : LoopInv order o side beyond own s)
    (hent : s.contraBook.entries = (k, ps) :: es) (hk : o.accepts side k = true) :
    beyond <:+ es := by
  have hsuf := hinv.suffix
  rw [hent, List.suffix_cons_iff] at hsuf
  refine hsuf.resolve_left fun heq => ?_
  have hreject := hinv.rejected (k, ps) (heq ▸ List.mem_cons_self)
  rw [hk] at hreject
  cases hreject

/-- A write to the order at the head leaves the incoming order, the levels beyond and the own side
alone. -/
theorem LoopInv.read_write (hinv : LoopInv order o side beyond own s)
    (hent : s.contraBook.entries = (k, p :: ps) :: es) (hk : o.accepts side k = true) (o' : Order) :
    (s.heap.write p o').read order = o ∧
      (∀ q ∈ ps ++ pointers es, (s.heap.write p o').read q = s.heap.read q) ∧
      ∀ q ∈ pointers beyond ++ own, (s.heap.write p o').read q = s.heap.read q := by
  have hne : ∀ q ∈ order :: (ps ++ pointers es ++ own),
      (s.heap.write p o').read q = s.heap.read q :=
    fun q hq => ObjectStore.read_write_of_ne _ (hinv.ne_head hent hq) _
  refine ⟨(hne order List.mem_cons_self).trans hinv.order_eq, fun q hq => ?_, fun q hq => ?_⟩
  · exact hne q (List.mem_cons_of_mem _ (List.mem_append_left _ hq))
  · refine hne q (List.mem_cons_of_mem _ ?_)
    have hsub : (pointers beyond).Sublist (pointers es) :=
      (hinv.suffix_tail hent hk).sublist.flatMap _
    rcases List.mem_append.mp hq with hq | hq
    · exact List.mem_append_left _ (List.mem_append_right _ (hsub.subset hq))
    · exact List.mem_append_right _ hq

variable [DecidableRel r] [IsStrictTotalOrder Price r]

omit [DecidableRel r] [IsStrictTotalOrder Price r] in
/-- The offer of the order at the head comes first. -/
theorem levelOffers_head (hent : s.contraBook.entries = (k, p :: ps) :: es) (heap : Heap) :
    levelOffers heap s.contraBook.entries =
      (heap.read p).offerAt k :: levelOffers heap ((k, ps) :: es) := by
  rw [hent]
  rfl

/-- An execution that closes the resting order takes its offer out. -/
theorem LoopInv.offers_closed (hinv : LoopInv order o side beyond own s)
    (hent : s.contraBook.entries = (k, p :: ps) :: es) (hk : o.accepts side k = true)
    (hfill : (s.reduced p).isFilled = true) :
    levelOffers (s.fill order side k 0 p).heap (s.fill order side k 0 p).contraBook.entries =
      levelOffers s.heap ((k, ps) :: es) := by
  rw [fill_of_filled hfill]
  simp only [entries_erase_head hent]
  exact levelOffers_congr (hinv.read_write hent hk _).2.1

/-- An execution within the resting order reduces its offer. -/
theorem LoopInv.offers_open (hinv : LoopInv order o side beyond own s)
    (hent : s.contraBook.entries = (k, p :: ps) :: es) (hk : o.accepts side k = true)
    (hfill : (s.reduced p).isFilled = false) :
    levelOffers (s.fill order side k 0 p).heap (s.fill order side k 0 p).contraBook.entries =
      { (s.heap.read p).offerAt k with
        qty := (s.heap.read p).quantity.toNat - (s.executed p).toNat } ::
        levelOffers s.heap ((k, ps) :: es) := by
  have hoffer : ((s.reduced p).setOrderStatus .modify).offerAt k =
      { (s.heap.read p).offerAt k with
        qty := (s.heap.read p).quantity.toNat - (s.executed p).toNat } := by
    simp only [Order.offerAt, Order.offer, Order.setOrderStatus, (toNat_after_fill s p).2]
    rw [reduced_eq]
    rfl
  rw [fill_of_not_filled hfill]
  simp only [levelOffers_head hent, ObjectStore.read_write_self, hoffer]
  exact congrArg (List.cons _) (levelOffers_congr (hinv.read_write hent hk _).2.1)

/-- **What a turn keeps**: the invariant, the outcome, and the orders that it does not reach. -/
structure LoopStep (order : OrderPointer) (o : Order) (side : BuySell) (beyond : Levels)
    (own : OrderPointers) (s s' : MatchState r) : Prop where
  inv : LoopInv order o side beyond own s'
  outcome : s'.levelOutcome o side = s.levelOutcome o side
  frame : ∀ q ∈ pointers beyond ++ own, s'.heap.read q = s.heap.read q

/-- **An execution that closes the resting order**: the order leaves its level and the index, and
the sweep goes on behind it. -/
theorem LoopInv.fill_closed (hinv : LoopInv order o side beyond own s)
    (hcur : s.cursor = .orders k 0) (hent : s.contraBook.entries = (k, p :: ps) :: es)
    (hes : NoEmptyLevel es) (hk : o.accepts side k = true) (hrem : s.remaining ≠ 0)
    (hfill : (s.reduced p).isFilled = true) :
    LoopStep order o side beyond own s (s.fill order side k 0 p) := by
  obtain ⟨horder, hothers, hframe⟩ :=
    hinv.read_write hent hk ((s.reduced p).setOrderStatus .traded)
  have hle := (reduced_isFilled s p).mp hfill
  have hid : (s.reduced p).orderId = ((s.heap.read p).offerAt k).id := by rw [reduced_eq]; rfl
  have hentries := entries_erase_head hent
  have hexec : (s.executed p).toNat = (s.heap.read p).quantity.toNat := by
    rw [executed_of_le hle]
  have hleft : (s.remaining - s.executed p).toNat =
      s.remaining.toNat - (s.heap.read p).quantity.toNat := by
    rw [(toNat_after_fill s p).1, hexec]
  have hoffers := hinv.offers_closed hent hk hfill
  rw [fill_of_filled hfill] at hoffers ⊢
  refine ⟨⟨horder, ?_, ?_, hinv.rejected, ?_⟩, ?_, hframe⟩
  · rw [hentries]
    have hsub : (order :: (pointers ((k, ps) :: es) ++ own)).Sublist
        (order :: (pointers s.contraBook.entries ++ own)) := by
      rw [hent]
      exact ((List.sublist_cons_self p _).append_right own).cons_cons order
    have hids : ∀ q ∈ order :: (pointers ((k, ps) :: es) ++ own),
        ((s.heap.write p ((s.reduced p).setOrderStatus .traded)).read q).orderId =
          (s.heap.read q).orderId :=
      fun q hq => congrArg Order.orderId
        (ObjectStore.read_write_of_ne _ (hinv.ne_head hent hq) _)
    rw [List.map_congr_left hids]
    exact hinv.nodup.sublist (hsub.map _)
  · rw [hentries]
    exact (hinv.suffix_tail hent hk).trans (List.suffix_cons _ _)
  · simp only [CursorWf, hcur]
    exact ⟨ps, es, hentries, hes, hk, Or.inl trivial⟩
  · have hsweep := @sweep_close _ _ _ (o.accepts side) _ ((s.heap.read p).offerAt k)
      (Nat.pos_iff_ne_zero.mp (Quantity.toNat_pos_iff.mpr hrem)) hk hle
      (levelOffers s.heap ((k, ps) :: es))
    rw [← levelOffers_head hent] at hsweep
    simp only [MatchState.levelOutcome, MatchState.levelSweep, hsweep]
    simp only [hoffers, hleft, trade_eq_tradeOf hinv.order_eq hexec hleft, hid, List.map_cons,
      List.append_assoc, List.singleton_append, closedIds_close]
    rfl

/-- **An execution within the resting order**: the order keeps its place with the reduced
quantity, and nothing is left to execute. -/
theorem LoopInv.fill_open (hinv : LoopInv order o side beyond own s)
    (hent : s.contraBook.entries = (k, p :: ps) :: es)
    (hes : NoEmptyLevel es) (hk : o.accepts side k = true) (hrem : s.remaining ≠ 0)
    (hfill : (s.reduced p).isFilled = false) :
    LoopStep order o side beyond own s (s.fill order side k 0 p) := by
  obtain ⟨horder, hothers, hframe⟩ :=
    hinv.read_write hent hk ((s.reduced p).setOrderStatus .modify)
  have hlt : s.remaining.toNat < (s.heap.read p).quantity.toNat := by
    have := (reduced_isFilled s p).not.mp (by simp [hfill])
    omega
  have hexec : (s.executed p).toNat = s.remaining.toNat := by rw [executed_of_lt hlt]
  have hleft : (s.remaining - s.executed p).toNat = 0 := by
    rw [(toNat_after_fill s p).1, hexec, Nat.sub_self]
  have hzero : s.remaining - s.executed p = 0 := by
    rw [← UInt32.toNat_inj, hleft, UInt32.toNat_zero]
  have hoffers := hinv.offers_open hent hk hfill
  rw [fill_of_not_filled hfill] at hoffers ⊢
  refine ⟨⟨horder, ?_, hinv.suffix, hinv.rejected, p :: ps, es, hent, hes, hk, Or.inr hzero⟩,
    ?_, hframe⟩
  · have hids : ∀ q, ((s.heap.write p ((s.reduced p).setOrderStatus .modify)).read q).orderId =
        (s.heap.read q).orderId := by
      intro q
      by_cases hqp : q = p
      · rw [hqp, ObjectStore.read_write_self, reduced_eq]
        rfl
      · rw [ObjectStore.read_write_of_ne s.heap hqp]
    rw [List.map_congr_left fun q _ => hids q]
    exact hinv.nodup
  · have hsweep := @sweep_within _ _ _ (o.accepts side) _ ((s.heap.read p).offerAt k)
      (Nat.pos_iff_ne_zero.mp (Quantity.toNat_pos_iff.mpr hrem)) hk hlt
      (levelOffers s.heap ((k, ps) :: es))
    rw [← levelOffers_head hent] at hsweep
    rw [hexec] at hoffers
    simp only [MatchState.levelOutcome, MatchState.levelSweep, hsweep]
    simp only [hoffers, hleft, sweep_zero, List.map_nil, List.append_nil,
      trade_eq_tradeOf hinv.order_eq hexec hleft, List.map_cons,
      closedIds_within (a := (s.heap.read p).offerAt k) (Nat.ne_of_lt hlt)]
    rfl

/-- Leaving a level takes no offer out. -/
theorem LoopInv.offers_leaveLevel (hinv : LoopInv order o side beyond own s) {i : ℕ}
    (hcur : s.cursor = .orders k i) :
    levelOffers (s.leaveLevel k).heap (s.leaveLevel k).contraBook.entries =
      levelOffers s.heap s.contraBook.entries := by
  have hwf := hinv.cursor
  simp only [CursorWf, hcur] at hwf
  obtain ⟨ps, es, hent, -, -, -⟩ := hwf
  rw [MatchState.leaveLevel, levelOrders_head hent]
  split
  · rename_i hps
    simp only [(SortedMap.split_head hent).2.2]
    rw [hent, levelOffers_cons, hps, List.map_nil, List.nil_append]
  · rfl

/-- Leaving a level changes nothing that the outcome depends on. -/
theorem LoopInv.leaveLevel (hinv : LoopInv order o side beyond own s) {i : ℕ}
    (hcur : s.cursor = .orders k i) :
    LoopStep order o side beyond own s (s.leaveLevel k) := by
  have hoffers := hinv.offers_leaveLevel hcur
  have hwf := hinv.cursor
  simp only [CursorWf, hcur] at hwf
  obtain ⟨ps, es, hent, hes, hk, -⟩ := hwf
  rw [MatchState.leaveLevel, levelOrders_head hent] at hoffers ⊢
  by_cases hps : ps = []
  · rw [if_pos hps] at hoffers ⊢
    have herase : (s.contraBook.erase k).entries = es := (SortedMap.split_head hent).2.2
    have hptr : pointers es = pointers s.contraBook.entries := by
      rw [hent, pointers_cons, hps, List.nil_append]
    refine ⟨⟨hinv.order_eq, ?_, ?_, hinv.rejected, ?_⟩, ?_, fun _ _ => rfl⟩
    · rw [herase, hptr]
      exact hinv.nodup
    · rw [herase]
      exact hinv.suffix_tail hent hk
    · simpa only [CursorWf, herase] using hes
    · simp only [MatchState.levelOutcome, MatchState.levelSweep, hoffers]
  · rw [if_neg hps]
    refine ⟨⟨hinv.order_eq, hinv.nodup, hinv.suffix, hinv.rejected, ?_⟩, rfl, fun _ _ => rfl⟩
    simp only [CursorWf, hent]
    intro l hl
    rcases List.mem_cons.mp hl with rfl | hl
    · exact hps
    · exact hes l hl

omit [DecidableRel r] [IsStrictTotalOrder Price r] in
theorem CursorWf.cursorAtHead {accepts : Price → Bool} (hwf : CursorWf accepts s) :
    CursorAtHead s := by
  intro k i hcur
  simp only [CursorWf, hcur] at hwf
  obtain ⟨ps, es, hent, -, -, hi⟩ := hwf
  exact ⟨ps, es, hent, hi⟩

/-- An execution happens at the head of the first level, which crosses. -/
theorem CursorWf.head_of_fill {accepts : Price → Bool} (hwf : CursorWf accepts s) {i : ℕ}
    (hcur : s.cursor = .orders k i) (hp : (s.levelOrders k)[i]? = some p)
    (hrem : s.remaining ≠ 0) :
    i = 0 ∧ ∃ ps es, s.contraBook.entries = (k, p :: ps) :: es ∧ NoEmptyLevel es ∧
      accepts k = true := by
  obtain ⟨rfl, ps, es, hent⟩ := hwf.cursorAtHead.head_of_fill hcur hp hrem
  simp only [CursorWf, hcur] at hwf
  obtain ⟨qs, es', hent', hes, hk, -⟩ := hwf
  rw [hent] at hent'
  cases hent'
  exact ⟨rfl, ps, es, hent, hes, hk⟩

/-- **Every turn keeps the invariant and the outcome.** -/
theorem LoopInv.turn (hinv : LoopInv order o side beyond own s)
    (h : matchTurn order side s = some s') : LoopStep order o side beyond own s s' := by
  rcases matchTurn_cases h with ⟨hcur, -, k, ps, es, hent, hk, rfl⟩ | ⟨k, i, hcur, -, rfl⟩ |
    ⟨k, i, p, hcur, hp, hrem, rfl⟩
  · have hwf := hinv.cursor
    simp only [CursorWf, hcur] at hwf
    refine ⟨⟨hinv.order_eq, hinv.nodup, hinv.suffix, hinv.rejected, ?_⟩, rfl, fun _ _ => rfl⟩
    refine ⟨ps, es, hent, fun l hl => hwf l (by simp [hent, hl]), ?_, Or.inl rfl⟩
    rw [← hinv.order_eq]
    exact hk
  · exact hinv.leaveLevel hcur
  · obtain ⟨rfl, ps, es, hent, hes, hk⟩ := hinv.cursor.head_of_fill hcur hp hrem
    cases hfill : (s.reduced p).isFilled with
    | true => exact hinv.fill_closed hcur hent hes hk hrem hfill
    | false => exact hinv.fill_open hent hes hk hrem hfill

/-- **When the loops are left, nothing remains to be swept.** -/
theorem LoopInv.of_turn_eq_none (hinv : LoopInv order o side beyond own s)
    (h : matchTurn order side s = none) :
    NoEmptyLevel s.contraBook.entries ∧
      s.levelSweep o side =
        ⟨[], levelOffers s.heap s.contraBook.entries, s.remaining.toNat⟩ := by
  have hwf := hinv.cursor
  cases hcur : s.cursor with
  | orders k i =>
      simp only [matchTurn, hcur] at h
      cases hp : (s.levelOrders k)[i]? with
      | none => simp [hp] at h
      | some p =>
          simp only [hp] at h
          split at h <;> cases h
  | levels =>
      simp only [CursorWf, hcur] at hwf
      simp only [matchTurn, hcur, SortedMap.begin?] at h
      refine ⟨hwf, ?_⟩
      rw [MatchState.levelSweep]
      split at h
      · rename_i hrem
        rw [hrem]
        exact sweep_zero _ _
      · cases hent : s.contraBook.entries with
        | nil => rfl
        | cons l es =>
            obtain ⟨k, ps⟩ := l
            simp only [hent, List.head?_cons] at h
            split at h
            · cases h
            · rename_i hk
              cases ps with
              | nil => exact absurd rfl (hwf (k, []) (by simp [hent]))
              | cons p ps =>
                  refine sweep_reject ?_ _
                  rw [hinv.order_eq] at hk
                  exact Bool.eq_false_iff.mpr hk

/-! ### The loops as a whole -/

/-- **What `matchAgainst` does**: it records the fills of the sweep as trades, leaves the rest of
the sweep on the opposite side, ends with the demand left over, and takes the orders that it closes
out of the index. -/
structure LoopOutcome (order : OrderPointer) (o : Order) (side : BuySell) (beyond : Levels)
    (own : OrderPointers) (s s' : MatchState r) : Prop where
  inv : LoopInv order o side beyond own s'
  noEmpty : NoEmptyLevel s'.contraBook.entries
  frame : ∀ q ∈ pointers beyond ++ own, s'.heap.read q = s.heap.read q
  trades : s'.trades = s.trades ++ (s.levelSweep o side).fills.map (tradeOf side o.orderId)
  offers : levelOffers s'.heap s'.contraBook.entries = (s.levelSweep o side).rest
  remaining : s'.remaining.toNat = (s.levelSweep o side).left
  orders : s'.orders = eraseIds s.orders (closedIds (s.levelSweep o side).fills)

theorem LoopInv.loopOutcome (hinv : LoopInv order o side beyond own s)
    (hcur : s.cursor = .levels) :
    LoopOutcome order o side beyond own s (matchAgainst order side s) := by
  have hstep : LoopStep order o side beyond own s (matchAgainst order side s) := by
    refine WhileLoop.run_invariant (P := LoopStep order o side beyond own s) ?_ _
      ⟨hinv, rfl, fun _ _ => rfl⟩
    intro t t' ht h
    have hturn := ht.inv.turn h
    exact ⟨hturn.inv, hturn.outcome.trans ht.outcome,
      fun q hq => (hturn.frame q hq).trans (ht.frame q hq)⟩
  obtain ⟨hne, hleft⟩ := hstep.inv.of_turn_eq_none (turn_matchAgainst hcur)
  have hout := hstep.outcome
  simp only [MatchState.levelOutcome, hleft, List.map_nil, List.append_nil, Prod.mk.injEq] at hout
  exact ⟨hstep.inv, hne, hstep.frame, hout.1, hout.2.1, hout.2.2.1, hout.2.2.2⟩

end Turn

end ExchangeEngine
