import ExchangeEngine.Crossing

/-!
# Price Protection

An order with a limit price should trade at prices no worse than its limit. `priceCrossed` looks
at the order type before it looks at the price, and lets IOC orders, which clients send with a
price, cross at any price as MARKET orders do. So a LIMIT order, and an order that a modify enters
with a new price, is always protected, and an IOC order with a price is protected only where the
opposite orders within its limit meet its demand or nothing rests beyond the limit.

## Main results

* `price_protected_iff`: when every trade of a run is within the limit of the order that it was
  executed for.
* `not_priceProtected_iocRun`: an IOC order that trades beyond its limit.
-/

open PriceTime

namespace ExchangeEngine

/-- Whether a price is no worse than an order's limit price. -/
def Order.withinLimit (o : Order) (price : Price) : Bool :=
  match o.buySell with
  | .buy => decide (price ≤ o.price)
  | .sell => decide (o.price ≤ price)
  | .default => false

/-- The orders that carry a limit price: LIMIT orders, and IOC orders sent with a price. -/
def Order.CarriesLimit (o : Order) : Prop :=
  o.orderType = .limit ∨ o.orderType = .ioc ∧ 0 < o.price

namespace Orderbook

variable {b : Orderbook} {c : BookCall} {o : Order} {s : Side}

/-- Whether the limit of an order cannot be passed: nothing opposite rests beyond it, or what
rests within it is enough for the order. -/
def limitSuffices (b : Orderbook) (o : Order) : Bool :=
  (b.opposite o.buySell).all (fun r => o.withinLimit r.price) ||
    decide (o.quantity.toNat ≤
      (((b.opposite o.buySell).filter fun r => o.withinLimit r.price).map
        fun r => r.quantity.toNat).sum)

/-- A better price than one within the limit is within the limit. -/
theorem withinLimit_of_better (hs : o.buySell = buySellOf s) {x y : Price}
    (hxy : s.contra.better x y) (hy : o.withinLimit y = true) : o.withinLimit x = true := by
  cases s with
  | bid =>
      simp only [Order.withinLimit, hs, buySellOf, decide_eq_true_eq] at hy ⊢
      exact Int32.le_trans (Int32.le_of_lt hxy) hy
  | ask =>
      simp only [Order.withinLimit, hs, buySellOf, decide_eq_true_eq] at hy ⊢
      exact Int32.le_trans hy (Int32.le_of_lt hxy)

/-- A LIMIT order accepts the prices within its limit. -/
theorem accepts_of_limit (hs : o.buySell = buySellOf s) (hlimit : o.orderType = .limit)
    (price : Price) : o.accepts (buySellOf s) price = o.withinLimit price := by
  cases s <;> simp [Order.accepts, priceCrossed, Order.withinLimit, hs, hlimit, buySellOf]

/-- An IOC order accepts every price. -/
theorem accepts_of_ioc (hioc : o.orderType = .ioc) (price : Price) :
    o.accepts (buySellOf s) price = true := by
  simp [Order.accepts, priceCrossed, hioc]

/-- **A LIMIT order is protected** in every call. -/
theorem Executes.within_of_limit (h : b.Executes c o s) (hlimit : o.orderType = .limit) :
    ∀ t ∈ b.callTrades c, o.withinLimit t.price = true := by
  rw [h.trades, List.forall_mem_map]
  intro f hf
  rw [← accepts_of_limit h.buySell hlimit]
  exact (mem_sweep_fills hf).2.1

/-- **When an IOC order is protected.** -/
theorem Executes.within_iff_of_ioc (h : b.Executes c o s)
    (hord : b.view.Ordered fun _ _ => True) (hioc : o.orderType = .ioc) :
    (∀ t ∈ b.callTrades c, o.withinLimit t.price = true) ↔ b.limitSuffices o = true := by
  -- the opposite side: first what is within the limit, then what is beyond it
  have hsplit : (((b.opposite (buySellOf s)).map Order.offer).filter
      fun a => o.withinLimit a.price) ++ (((b.opposite (buySellOf s)).map Order.offer).filter
      fun a => !o.withinLimit a.price) = (b.opposite (buySellOf s)).map Order.offer := by
    rw [map_offer_opposite]
    exact (hord s.contra).filter_append fun x y => withinLimit_of_better h.buySell
  rw [h.trades, List.forall_mem_map, ← hsplit]
  refine (sweep_within_iff (fun a _ => accepts_of_ioc hioc a.price)
    (fun a _ => accepts_of_ioc hioc a.price) (fun a ha => by simpa using List.of_mem_filter ha)
    (fun a ha => by simpa using List.of_mem_filter ha) _).trans ?_
  rw [limitSuffices, h.buySell, Bool.or_eq_true, decide_eq_true_eq, List.all_eq_true,
    List.filter_eq_nil_iff, List.forall_mem_map, List.filter_map, List.map_map]
  refine or_congr (forall₂_congr fun r _ => ?_) Iff.rfl
  simp [Order.offer]

end Orderbook

namespace MatchingEngine

/-- **Price protection in a step**: what a message trades for an order that carries a limit price
is within the limit. -/
def PriceProtected (e : MatchingEngine) (msg : InboundMessage) : Prop :=
  ∀ o, e.incoming? msg = some o → o.CarriesLimit →
    ∀ t ∈ e.stepTrades msg, o.withinLimit t.price = true

/-- Whether a message that enters an IOC order with a price finds enough within its limit. -/
def limitHeld (e : MatchingEngine) (msg : InboundMessage) : Bool :=
  match e.incoming? msg with
  | none => true
  | some o => !decide (o.orderType = .ioc ∧ 0 < o.price) || e.orderbook.limitSuffices o

/-- **When a step is protected.** -/
theorem priceProtected_iff {e : MatchingEngine} {msg : InboundMessage} (hwf : e.orderbook.Wf)
    (hord : e.orderbook.view.Ordered fun _ _ => True)
    (hallow : ∀ c, e.bookCall? msg = some c → e.orderbook.Allows c) :
    e.PriceProtected msg ↔ e.limitHeld msg = true := by
  rw [PriceProtected, limitHeld]
  cases hin : e.incoming? msg with
  | none => exact iff_of_true (fun o ho => by cases ho) rfl
  | some o =>
      obtain ⟨c, hcall, hincoming⟩ := Option.bind_eq_some_iff.mp hin
      obtain ⟨s, hexec⟩ := Orderbook.executes_of_incoming hwf (hallow c hcall) hincoming
      have htrades : e.stepTrades msg = e.orderbook.callTrades c := by
        rw [stepTrades, hcall]
      simp only [Option.some.injEq, forall_eq', htrades]
      by_cases hioc : o.orderType = .ioc ∧ 0 < o.price
      · have hcarries : o.CarriesLimit := Or.inr hioc
        rw [forall_prop_of_true hcarries, hexec.within_iff_of_ioc hord hioc.1]
        simp [hioc]
      · simp only [hioc, decide_false, Bool.not_false, Bool.true_or, iff_true]
        rintro (hlimit | hpriced)
        · exact hexec.within_of_limit hlimit
        · exact absurd hpriced hioc

end MatchingEngine

section Run

variable (symbol : List UInt8) (clock : ℕ → Timestamp)

/-- **Price protection** of a run: every message of it trades within limits. -/
def PriceProtected (past : List Input) : Prop :=
  ∀ msg before, (.message msg :: before) <:+ past →
    (run symbol clock before).PriceProtected msg

/-- **When a run is protected**: exactly when every IOC order that enters with a price finds no
opposite order beyond its limit, or enough within it. -/
theorem price_protected_iff (past : List Input) (h : acceptedCount past < 2 ^ 64) :
    PriceProtected symbol clock past ↔
      ∀ msg before, (.message msg :: before) <:+ past →
        (run symbol clock before).limitHeld msg = true := by
  refine forall₃_congr fun msg before hsuffix => ?_
  have hstep : acceptedCount (.message msg :: before) < 2 ^ 64 :=
    Nat.lt_of_le_of_lt hsuffix.sublist.countP_le h
  have hcount : acceptedCount (.message msg :: before) = acceptedCount before +
      if MatchingEngine.isAccepted msg then 1 else 0 :=
    List.countP_cons ..
  have hinv := run_inv symbol clock before (by omega)
  exact MatchingEngine.priceProtected_iff hinv.book.wf hinv.book.ordered
    fun c hcall => hinv.allows (by omega) hcall

/-- A run in which an IOC order finds just enough within its limit. -/
def enoughWithinRun : List Input :=
  [.message (newOrderMessage 2 .buy 2 100 4), .message (limitOrderMessage 1 .sell 105 5),
    .message (limitOrderMessage 1 .sell 100 4)]

theorem price_protected_iff_enoughWithinRun :
    PriceProtected [] (fun _ => 0) enoughWithinRun := by
  have hheld : ∀ history ∈ enoughWithinRun.tails,
      (match history with
        | .message msg :: before => (run [] (fun _ => 0) before).limitHeld msg
        | _ => true) = true := by
    decide
  exact (price_protected_iff [] (fun _ => 0) enoughWithinRun (by decide)).mpr
    fun _ _ hsuffix => hheld _ ((List.mem_tails _ _).mpr hsuffix)

/-- A run in which an IOC order wants more than rests within its limit. -/
def iocRun : List Input :=
  [.message (newOrderMessage 2 .buy 2 100 10), .message (limitOrderMessage 1 .sell 105 5),
    .message (limitOrderMessage 1 .sell 100 4)]

/-- **An IOC order to buy at 100 trades at 105.** -/
theorem not_priceProtected_iocRun : ¬ PriceProtected [] (fun _ => 0) iocRun := by
  intro h
  have hstep := h _ _ (List.suffix_refl iocRun)
  have hall : ∀ t ∈ (run [] (fun _ => 0) iocRun.tail).stepTrades
      (newOrderMessage 2 .buy 2 100 10), t.price ≤ 100 := fun t ht =>
    of_decide_eq_true (hstep _ rfl (Or.inr ⟨rfl, by decide⟩) t ht)
  exact absurd hall (by decide)

end Run

end ExchangeEngine
