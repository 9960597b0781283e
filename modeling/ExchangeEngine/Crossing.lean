import ExchangeEngine.Runs

/-!
# Which Requests Trade

Whether a request trades, and with how much of the book, can be read off the book before it is
handled: `opposite` lists the orders that an order would trade with, in the order in which it
would, and `incoming?` is the order that a message hands to matching.

* `stepTrades_eq_nil_iff`: a message trades exactly when its order crosses the first opposite
  order (`crosses`).
* `stepTrades_singleton`: when it stops there (`stopsAtFirst`), the one trade is with that
  order.
-/

open PriceTime

namespace ExchangeEngine

namespace Orderbook

/-- The orders that rest opposite to an order of side `side`, best price first and first in,
first out at a price. -/
def opposite (b : Orderbook) (side : BuySell) : List Order :=
  match side with
  | .buy => (pointers b.asks.entries).map b.heap.read
  | .sell => (pointers b.bids.entries).map b.heap.read
  | .default => []

/-- Whether an order trades with the first opposite order. -/
def crosses (b : Orderbook) (o : Order) : Bool :=
  match b.opposite o.buySell with
  | [] => false
  | first :: _ => o.accepts o.buySell first.price

/-- Whether an order, if it trades, trades with the first opposite order only: that order has
enough, or the second one asks for a price at which the order does not trade. -/
def stopsAtFirst (b : Orderbook) (o : Order) : Bool :=
  match b.opposite o.buySell with
  | [] => true
  | [_] => true
  | first :: second :: _ =>
      decide (o.quantity ≤ first.quantity) || !o.accepts o.buySell second.price

/-- The order that a call hands to matching, if it does. -/
def incoming? (b : Orderbook) (c : BookCall) : Option Order :=
  (b.entering? c).map fun p => p.1.heap.read p.2

variable {b b' : Orderbook} {c : BookCall} {order : OrderPointer} {s : Side}

theorem incoming_addOrder (b : Orderbook) (o : Order) : b.incoming? (.addOrder o) = some o :=
  congrArg some (b.heap.read_alloc_next o)

/-- The offers of the opposite orders are the opposite side of the view. -/
theorem map_offer_opposite (b : Orderbook) (s : Side) :
    (b.opposite (buySellOf s)).map Order.offer = b.view.side s.contra := by
  cases s <;> exact List.map_map

/-- The order that enters does not rest opposite to itself. -/
theorem Enters.contra (h : b.Wf) (hallow : b.Allows c) (henters : b.Enters c b' order s) :
    b'.view.side s.contra = b.view.side s.contra := by
  rw [henters.view, Book.side_withdraw]
  refine List.filter_eq_self.mpr fun a ha => ?_
  have hne : a.id ≠ c.orderId := by
    intro heq
    rcases henters.origin with hc | ⟨hmem, newPrice, newQuantity, hc, hread⟩
    · rw [hc] at hallow heq
      exact hallow.2.2.2 (Book.mem_ids.mpr ⟨s.contra, a, ha, heq⟩)
    · rw [hc] at heq
      obtain ⟨q, hq, hside, rfl⟩ := h.mem_side.mp ha
      have hs := henters.addable.buySell
      rw [hread] at hs
      obtain rfl : q = order := h.index.inj hq hmem heq
      have hboth : buySellOf s = buySellOf s.contra := hs.symm.trans hside
      cases s <;> cases hboth
  simpa using hne

/-- **The execution of a call** is a sweep along the opposite orders of its incoming order. -/
structure Executes (b : Orderbook) (c : BookCall) (o : Order) (s : Side) : Prop where
  buySell : o.buySell = buySellOf s
  quantity : o.quantity ≠ 0
  orderId : o.orderId = c.orderId
  trades : b.callTrades c =
    (sweep (o.accepts (buySellOf s)) o.quantity.toNat
      ((b.opposite (buySellOf s)).map Order.offer)).fills.map
        (tradeOf (buySellOf s) o.orderId)

theorem executes_of_incoming (h : b.Wf) (hallow : b.Allows c) {o : Order}
    (hincoming : b.incoming? c = some o) : ∃ s, b.Executes c o s := by
  obtain ⟨⟨b', order⟩, hent, rfl⟩ := Option.map_eq_some_iff.mp hincoming
  obtain ⟨s, henters⟩ := enters_of_entering h hallow hent
  have hadded := addToBook_spec henters.detached henters.addable
  refine ⟨s, henters.addable.buySell, henters.addable.quantity, henters.orderId, ?_⟩
  rw [callTrades, hent, map_offer_opposite, ← Enters.contra h hallow henters]
  exact hadded.trades

variable {o : Order}

/-- An order trades exactly when it crosses. -/
theorem Executes.trades_eq_nil_iff (h : b.Executes c o s) :
    b.callTrades c = [] ↔ b.crosses o = false := by
  have hqty : o.quantity.toNat ≠ 0 :=
    Nat.pos_iff_ne_zero.mp (Quantity.toNat_pos_iff.mpr h.quantity)
  rw [h.trades, List.map_eq_nil_iff, sweep_fills_eq_nil_iff hqty, crosses, h.buySell]
  cases b.opposite (buySellOf s) with
  | nil => simp
  | cons first rest =>
      simp only [List.map_cons, List.head?_cons, Option.mem_some_iff, forall_eq']
      exact Iff.rfl

/-- An order that crosses and stops at the first opposite order trades with it alone. -/
theorem Executes.trades_singleton (h : b.Executes c o s) (hcross : b.crosses o = true)
    (hstop : b.stopsAtFirst o = true) :
    ∃ first rest, b.opposite (buySellOf s) = first :: rest ∧
      b.callTrades c = [tradeOf (buySellOf s) o.orderId
        ⟨first.offer, min o.quantity.toNat first.quantity.toNat,
          o.quantity.toNat - first.quantity.toNat⟩] := by
  have hqty : o.quantity.toNat ≠ 0 :=
    Nat.pos_iff_ne_zero.mp (Quantity.toNat_pos_iff.mpr h.quantity)
  rw [crosses, h.buySell] at hcross
  rw [stopsAtFirst, h.buySell] at hstop
  rw [h.trades]
  cases hopp : b.opposite (buySellOf s) with
  | nil => simp [hopp] at hcross
  | cons first rest =>
      simp only [hopp] at hcross hstop
      refine ⟨first, rest, rfl, ?_⟩
      rw [List.map_cons, sweep_fills_singleton hqty hcross]
      · rfl
      · cases rest with
        | nil => exact Or.inr (by simp)
        | cons second rest =>
            simp only [Bool.or_eq_true, decide_eq_true_eq, Bool.not_eq_true'] at hstop
            rcases hstop with hle | hreject
            · exact Or.inl (UInt32.le_iff_toNat_le.mp hle)
            · refine Or.inr ?_
              simp only [List.map_cons, List.head?_cons, Option.mem_some_iff, forall_eq']
              exact hreject

end Orderbook

/-! ### Messages -/

namespace MatchingEngine

/-- The order that a message hands to matching, if it does. -/
def incoming? (e : MatchingEngine) (msg : InboundMessage) : Option Order :=
  (e.bookCall? msg).bind e.orderbook.incoming?

/-- Whether the order of a message trades. -/
def crosses (e : MatchingEngine) (msg : InboundMessage) : Bool :=
  match e.incoming? msg with
  | none => false
  | some o => e.orderbook.crosses o

/-- Whether the order of a message, if it trades, trades with the first opposite order only. -/
def stopsAtFirst (e : MatchingEngine) (msg : InboundMessage) : Bool :=
  match e.incoming? msg with
  | none => true
  | some o => e.orderbook.stopsAtFirst o

end MatchingEngine

variable {symbol : List UInt8} {clock : ℕ → Timestamp} {msg : InboundMessage}
  {past : List InboundMessage}

/-- **A message trades exactly when its order crosses.** -/
theorem stepTrades_eq_nil_iff (h : acceptedOrders (msg :: past) < 2 ^ 64) :
    (after symbol clock past).stepTrades msg = [] ↔
      (after symbol clock past).crosses msg = false := by
  have hpast := acceptedOrders_lt_of_cons h
  have hwf := (after_inv symbol clock hpast).book.wf
  rw [MatchingEngine.stepTrades, MatchingEngine.crosses, MatchingEngine.incoming?]
  cases hcall : (after symbol clock past).bookCall? msg with
  | none => simp
  | some c =>
      simp only [Option.bind_some]
      cases hincoming : (after symbol clock past).orderbook.incoming? c with
      | none =>
          have hent := Option.map_eq_none_iff.mp hincoming
          simp [Orderbook.callTrades, hent]
      | some o =>
          obtain ⟨s, hexec⟩ := Orderbook.executes_of_incoming hwf
            (after_allows symbol clock h hcall) hincoming
          exact hexec.trades_eq_nil_iff

/-- An order that crosses and stops at the first opposite order trades once. -/
theorem length_stepTrades_eq_one (h : acceptedOrders (msg :: past) < 2 ^ 64)
    (hcross : (after symbol clock past).crosses msg = true)
    (hstop : (after symbol clock past).stopsAtFirst msg = true) :
    ((after symbol clock past).stepTrades msg).length = 1 := by
  have hpast := acceptedOrders_lt_of_cons h
  have hwf := (after_inv symbol clock hpast).book.wf
  rw [MatchingEngine.crosses, MatchingEngine.incoming?] at hcross
  rw [MatchingEngine.stopsAtFirst, MatchingEngine.incoming?] at hstop
  rw [MatchingEngine.stepTrades]
  cases hcall : (after symbol clock past).bookCall? msg with
  | none => simp [hcall] at hcross
  | some c =>
      simp only [hcall, Option.bind_some] at hcross hstop
      cases hincoming : (after symbol clock past).orderbook.incoming? c with
      | none => simp [hincoming] at hcross
      | some o =>
          simp only [hincoming] at hcross hstop
          obtain ⟨s, hexec⟩ := Orderbook.executes_of_incoming hwf
            (after_allows symbol clock h hcall) hincoming
          obtain ⟨first, rest, -, htrades⟩ := hexec.trades_singleton hcross hstop
          simp only [htrades]
          rfl

end ExchangeEngine
