import ExchangeEngine.MatchTurns

/-!
# The Matching Loops on Other Objects

The loops of `matchAgainst` look at the id, the price and the type of the incoming order and at the
id and the quantity of a resting order, and they write the quantity and the status of a resting
order. So they do the same on another heap and another index that agree on these, whatever else
is different there: `MatchState.mapObjects` takes the run on the one to the run on the other.

## Main results

* `matchAgainst_mapObjects`: the loops commute with a change of objects and index that they do not
  see.
-/

namespace ExchangeEngine

variable {r : Price → Price → Prop}

/-- A change of the data of an order that an execution neither looks at nor writes. -/
structure Order.Unseen (change : Order → Order) : Prop where
  orderId : ∀ o, (change o).orderId = o.orderId
  quantity : ∀ o, (change o).quantity = o.quantity
  setQuantity : ∀ o q, change (o.setQuantity q) = (change o).setQuantity q
  setOrderStatus : ∀ o status, change (o.setOrderStatus status) =
    (change o).setOrderStatus status

theorem Order.unseen_id : Order.Unseen id :=
  ⟨fun _ => rfl, fun _ => rfl, fun _ _ => rfl, fun _ _ => rfl⟩

/-- The state with another heap and another index. -/
def MatchState.mapObjects (f : Heap → Heap)
    (g : UnorderedMap OrderId OrderPointer → UnorderedMap OrderId OrderPointer)
    (s : MatchState r) : MatchState r :=
  { s with heap := f s.heap, orders := g s.orders }

/-- In the state `s`, the loops for the order at `order` see the same as those for the order at
`order'` on the heap and the index that `f` and `g` give: the incoming order has the same id and
trades at the same prices, a resting order is the same up to `change`, and the writes that an
execution makes commute with `f` and `g`. -/
structure SeesSame (order order' : OrderPointer) (side : BuySell) (f : Heap → Heap)
    (g : UnorderedMap OrderId OrderPointer → UnorderedMap OrderId OrderPointer)
    (change : Order → Order) (s : MatchState r) : Prop where
  orderId : ((f s.heap).read order').orderId = (s.heap.read order).orderId
  accepts : ((f s.heap).read order').accepts side = (s.heap.read order).accepts side
  read : ∀ q ∈ pointers s.contraBook.entries, (f s.heap).read q = change (s.heap.read q)
  write : ∀ q ∈ pointers s.contraBook.entries, ∀ o,
    f (s.heap.write q o) = (f s.heap).write q (change o)
  erase : ∀ i, g (s.orders.erase i) = (g s.orders).erase i

section Turn

variable [DecidableRel r] [IsStrictTotalOrder Price r]
  {order order' : OrderPointer} {side : BuySell} {f : Heap → Heap}
  {g : UnorderedMap OrderId OrderPointer → UnorderedMap OrderId OrderPointer}
  {change : Order → Order} {s : MatchState r} {k : Price} {i : ℕ} {q : OrderPointer}

/-- An order in a level is an order of the opposite side. -/
theorem mem_pointers_of_levelOrders (hq : (s.levelOrders k)[i]? = some q) :
    q ∈ pointers s.contraBook.entries := by
  obtain ⟨l₁, level, l₂, hent, -, -, hfind, -⟩ := s.contraBook.split k
  rw [MatchState.levelOrders, hfind] at hq
  rw [hent, pointers_append, pointers_append]
  refine List.mem_append_left _ (List.mem_append_right _ ?_)
  cases level with
  | none => cases hq
  | some ps => simpa using List.mem_of_getElem? hq

/-- **An execution** on other objects. -/
theorem fill_mapObjects (hchange : Order.Unseen change)
    (h : SeesSame order order' side f g change s) (hq : q ∈ pointers s.contraBook.entries) :
    (s.mapObjects f g).fill order' side k i q = (s.fill order side k i q).mapObjects f g := by
  have hread : (s.mapObjects f g).heap.read q = change (s.heap.read q) := h.read q hq
  have hexec : (s.mapObjects f g).executed q = s.executed q := by
    rw [MatchState.executed, MatchState.executed, hread, hchange.quantity]
    rfl
  have hreduced : (s.mapObjects f g).reduced q = change (s.reduced q) := by
    rw [reduced_eq, reduced_eq, hread, hexec, hchange.setQuantity, hchange.quantity]
  have hfilled : ((s.mapObjects f g).reduced q).isFilled = (s.reduced q).isFilled := by
    rw [hreduced, Order.isFilled, Order.isFilled, hchange.quantity]
  have htrade : (s.mapObjects f g).trade order' side k q = s.trade order side k q := by
    have horder : ((s.mapObjects f g).heap.read order').orderId = (s.heap.read order).orderId :=
      h.orderId
    simp only [MatchState.trade, hexec, hfilled, horder, hread, hchange.orderId]
    rfl
  have hheap : ∀ status, (s.mapObjects f g).heap.write q
      (((s.mapObjects f g).reduced q).setOrderStatus status) =
        f (s.heap.write q ((s.reduced q).setOrderStatus status)) := by
    intro status
    rw [hreduced, ← hchange.setOrderStatus]
    exact (h.write q hq _).symm
  cases hfill : (s.reduced q).isFilled with
  | true =>
      have hid : ((s.mapObjects f g).reduced q).orderId = (s.reduced q).orderId := by
        rw [hreduced, hchange.orderId]
      rw [fill_of_filled (hfilled.trans hfill), fill_of_filled hfill, hexec, hheap, htrade, hid]
      simp only [MatchState.mapObjects, h.erase]
      rfl
  | false =>
      rw [fill_of_not_filled (hfilled.trans hfill), fill_of_not_filled hfill, hexec, hheap, htrade]
      rfl

/-- **A turn** on other objects. -/
theorem matchTurn_mapObjects (hchange : Order.Unseen change)
    (h : SeesSame order order' side f g change s) :
    matchTurn order' side (s.mapObjects f g) =
      (matchTurn order side s).map (MatchState.mapObjects f g) := by
  have hcross : ∀ price, priceCrossed ((f s.heap).read order').price price side
      ((f s.heap).read order').orderType =
        priceCrossed (s.heap.read order).price price side (s.heap.read order).orderType :=
    fun price => congrFun h.accepts price
  cases hcur : s.cursor with
  | levels =>
      simp only [matchTurn, MatchState.mapObjects, hcur, hcross]
      split
      · rfl
      cases s.contraBook.begin? with
      | none => rfl
      | some l =>
          simp only
          split <;> rfl
  | orders k i =>
      have hlevel : (s.mapObjects f g).levelOrders k = s.levelOrders k := rfl
      have hleave : (s.mapObjects f g).leaveLevel k = (s.leaveLevel k).mapObjects f g := by
        rw [MatchState.leaveLevel, MatchState.leaveLevel, hlevel]
        split <;> rfl
      simp only [matchTurn, show (s.mapObjects f g).cursor = .orders k i from hcur, hcur, hlevel,
        show (s.mapObjects f g).remaining = s.remaining from rfl]
      cases hq : (s.levelOrders k)[i]? with
      | none => simp only [hleave, Option.map_some]
      | some q =>
          simp only
          split
          · rw [hleave, Option.map_some]
          · rw [fill_mapObjects hchange h (mem_pointers_of_levelOrders hq), Option.map_some]

/-- **The loops** on other objects: what every turn keeps ensures that they see the same. -/
theorem matchAgainst_mapObjects {P : MatchState r → Prop} (hchange : Order.Unseen change)
    (hturn : ∀ s s', P s → matchTurn order side s = some s' → P s')
    (hsame : ∀ s, P s → SeesSame order order' side f g change s) (hs : P s) :
    matchAgainst order' side (s.mapObjects f g) = (matchAgainst order side s).mapObjects f g :=
  WhileLoop.run_map hturn (fun _ ht => matchTurn_mapObjects hchange (hsame _ ht)) _ hs

end Turn

end ExchangeEngine
