import ExchangeEngine.Ledger
import ExchangeEngine.Reports

/-!
# The Leaves Quantity of Execution Reports

An execution report should say what its order has left after the trade that it reports. The
reports of a request are sent after all its matching: the one for the incoming order gives the
quantity that the order has at the end, and the one for the resting order gives zero.

Both are right only for a request that trades once, and closes the resting order by it, and
is not cut off at zero as a MARKET or IOC order (`leavesKnown`).

## Main results

* `truthful_leaves`: the leaves quantities of a run are right if all its requests for new
  orders are of that kind.
* `not_truthfulLeaves_sweepingRun`: a run in which two of four leaves quantities are wrong.
-/

open PriceTime

namespace ExchangeEngine

variable (symbol : List UInt8) (clock : ℕ → Timestamp)

/-- The account of an order when the trades of a message begin. -/
def opening (past : List InboundMessage) (msg : InboundMessage) (orderId : OrderId) : Account :=
  let e := after symbol clock past
  match e.bookCall? msg with
  | none => account symbol clock past orderId
  | some c =>
      if (e.orderbook.entering? c).isSome ∧ orderId = c.orderId then ⟨c.quantity.toNat, 0, 0⟩
      else account symbol clock past orderId

/-- What an order has left after the trade number `n` of a message, counted from zero: the
quantity set, less what has been executed up to and including that trade. -/
def leavesAfter (past : List InboundMessage) (msg : InboundMessage) (n : ℕ)
    (orderId : OrderId) : ℕ :=
  let a := opening symbol clock past msg orderId
  a.quantity -
    (a.executed + executedIn orderId (((after symbol clock past).stepTrades msg).take (n + 1)))

/-- **The leaves quantities of a run are truthful**: the reports sent are those of its
announcements, and in each of them the leaves quantity is what the order has left after the
trade. -/
structure TruthfulLeaves (past : List InboundMessage) : Prop where
  sent : (after symbol clock past).reports =
    (runAnnouncements symbol clock past).flatMap Announcement.reports
  leaves : ∀ msg before, (msg :: before) <:+ past → ∀ n a,
    ((after symbol clock before).stepAnnouncements msg)[n]? = some a → ∀ p ∈ a.reports,
      p.2.leavesQty.toNat = leavesAfter symbol clock before msg n p.2.orderId

/-- An order that trades with the first opposite order closes it, and what is then left of the
order is not taken from it. -/
def Orderbook.closesFirst (b : Orderbook) (o : Order) : Bool :=
  match b.opposite o.buySell with
  | [] => true
  | first :: _ =>
      decide (first.quantity = o.quantity) ||
        !o.isAggressive && decide (first.quantity < o.quantity)

/-- Whether a message is one for whose reports the leaves quantities are known: it adds no
order, or its order trades with no opposite order or with the first one only, and closes it. -/
def MatchingEngine.leavesKnown (e : MatchingEngine) (msg : InboundMessage) : Bool :=
  match msg.body with
  | .newOrder _ =>
      !e.crosses msg ||
        e.stopsAtFirst msg &&
          match e.incoming? msg with
          | none => true
          | some o => e.orderbook.closesFirst o
  | _ => true

section Steps

variable {symbol clock} {msg : InboundMessage} {past : List InboundMessage}

/-- What a resting order has left, by its account, is its quantity. -/
theorem quantity_of_resting (h : acceptedOrders past < 2 ^ 64) {o : Order}
    (ho : ∃ p ∈ (after symbol clock past).orderbook.resting,
      (after symbol clock past).orderbook.heap.read p = o) :
    (account symbol clock past o.orderId).quantity =
      o.quantity.toNat + (account symbol clock past o.orderId).executed := by
  have hwf := (after_inv symbol clock h).book.wf
  obtain ⟨p, hp, rfl⟩ := ho
  have hcons : (after symbol clock past).orderbook.view.held _ +
      (account symbol clock past _).executed + (account symbol clock past _).cancelled =
        (account symbol clock past _).quantity :=
    account_conserves h ((after symbol clock past).orderbook.heap.read p).orderId
  rw [hwf.held_eq hp, cancelled_of_mem h (Orderbook.mem_ids_of_mem_resting hp)] at hcons
  exact hcons.symm

/-- The opposite orders rest in the book. -/
theorem exists_of_mem_opposite {b : Orderbook} {side : BuySell} {o : Order}
    (ho : o ∈ b.opposite side) : ∃ p ∈ b.resting, b.heap.read p = o := by
  cases side with
  | default => cases ho
  | buy =>
      obtain ⟨p, hp, rfl⟩ := List.mem_map.mp ho
      exact ⟨p, List.mem_append_right _ hp, rfl⟩
  | sell =>
      obtain ⟨p, hp, rfl⟩ := List.mem_map.mp ho
      exact ⟨p, List.mem_append_left _ hp, rfl⟩

/-- The reports in an announcement of an accepted request: one for the order that it enters,
with what that order has left after the call, and one for the resting order, with zero. -/
theorem leavesQty_of_mem_stepAnnouncements {request : NewOrderRequest} {side : BuySell}
    {orderType : OrderType} (hbody : msg.body = .newOrder request)
    (hcheck : MatchingEngine.checkNewOrder request = .ok (side, orderType)) {a : Announcement}
    (ha : a ∈ (after symbol clock past).stepAnnouncements msg)
    {p : SessionId × ExecutionReport} (hp : p ∈ a.reports) :
    (p.2.orderId = (after symbol clock past).nextOrderId ∧
      p.2.leavesQty = (((after symbol clock past).orderbook.call (.addOrder
        ((after symbol clock past).newOrder msg.sessionId request side orderType))).heap.read
          (after symbol clock past).orderbook.heap.next).quantity) ∨
    (p.2.orderId = MatchingEngine.passiveOrderId side a.trade ∧ p.2.leavesQty = 0) := by
  simp only [MatchingEngine.stepAnnouncements, hbody, hcheck] at ha
  obtain ⟨e', hcore, heq⟩ := MatchingEngine.exists_of_mem_announcements
    (MatchingEngine.announces_newOrderTrade msg.sessionId _ _ side) ha
  rw [MatchingEngine.announcement_newOrderTrade] at heq
  rw [heq] at hp
  have hbook : e'.orderbook = _ := congrArg EngineCore.orderbook hcore
  rcases List.mem_cons.mp hp with rfl | hp
  · refine Or.inl ⟨rfl, ?_⟩
    rw [MatchingEngine.aggressorReport, hbook]
    rfl
  · obtain ⟨sessionId, -, rfl⟩ := Option.map_eq_some_iff.mp (Option.mem_toList.mp hp)
    exact Or.inr ⟨rfl, rfl⟩

/-- The trade of an order that closes the first opposite order and stops there. -/
theorem trade_of_closesFirst {b : Orderbook} {c : BookCall} {o : Order} {s : Side}
    (hexec : b.Executes c o s) (hcross : b.crosses o = true)
    (hstop : b.stopsAtFirst o = true) (hclose : b.closesFirst o = true) :
    ∃ first t, (∃ p ∈ b.resting, b.heap.read p = first) ∧ b.callTrades c = [t] ∧
      t.quantity = first.quantity ∧
      MatchingEngine.passiveOrderId (buySellOf s) t = first.orderId ∧
      (∀ i, (t.buyOrderId = i ∨ t.sellOrderId = i) ↔ i = o.orderId ∨ first.orderId = i) ∧
      first.quantity.toNat ≤ o.quantity.toNat ∧
      (o.isAggressive = true → first.quantity = o.quantity) := by
  obtain ⟨first, rest, hopp, htrades⟩ := hexec.trades_singleton hcross hstop
  have hmem : first ∈ b.opposite (buySellOf s) := by
    rw [hopp]
    exact List.mem_cons_self
  rw [Orderbook.closesFirst, hexec.buySell, hopp] at hclose
  simp only [Bool.or_eq_true, Bool.and_eq_true, decide_eq_true_eq, Bool.not_eq_true'] at hclose
  have hle : first.quantity.toNat ≤ o.quantity.toNat := by
    rcases hclose with heq | ⟨-, hlt⟩
    · rw [heq]
    · exact Nat.le_of_lt (UInt32.lt_iff_toNat_lt.mp hlt)
  refine ⟨first, _, exists_of_mem_opposite hmem, htrades, ?_, ?_, fun i => ?_, hle,
    fun hag => ?_⟩
  · rw [tradeOf, Nat.min_eq_right hle]
    exact UInt32.ofNat_toNat
  · cases s <;> rfl
  · exact names_tradeOf s o.orderId i _
  · rcases hclose with heq | ⟨hag', -⟩
    · exact heq
    · rw [hag'] at hag
      cases hag

/-- The order that a request enters starts with the quantity asked for. -/
theorem opening_entered {o : Order}
    (hcall : (after symbol clock past).bookCall? msg = some (.addOrder o)) :
    opening symbol clock past msg o.orderId = ⟨o.quantity.toNat, 0, 0⟩ := by
  simp only [opening, hcall]
  exact if_pos ⟨rfl, rfl⟩

/-- Every other order starts with the account that it has. -/
theorem opening_of_ne {o : Order}
    (hcall : (after symbol clock past).bookCall? msg = some (.addOrder o)) {i : OrderId}
    (hne : i ≠ o.orderId) : opening symbol clock past msg i = account symbol clock past i := by
  simp only [opening, hcall]
  exact if_neg fun hown => hne hown.2

/-- An order that is added has an id that no resting order has. -/
theorem ne_of_allows_addOrder {b : Orderbook} {o first : Order} (h : b.Allows (.addOrder o))
    (hfirst : ∃ p ∈ b.resting, b.heap.read p = first) : first.orderId ≠ o.orderId := by
  obtain ⟨p, hp, rfl⟩ := hfirst
  exact fun heq => h.2.2.2 (Orderbook.mem_ids_view.mpr ⟨p, hp, heq⟩)

/-- **The leaves quantities of an accepted request** for which they are known. -/
theorem leaves_newAccepted (h : acceptedOrders (msg :: past) < 2 ^ 64)
    {request : NewOrderRequest} {side : BuySell} {orderType : OrderType}
    (hbody : msg.body = .newOrder request)
    (hcheck : MatchingEngine.checkNewOrder request = .ok (side, orderType))
    (hcall : (after symbol clock past).bookCall? msg = some (.addOrder
      ((after symbol clock past).newOrder msg.sessionId request side orderType)))
    (hknown : (after symbol clock past).leavesKnown msg = true) {n : ℕ} {a : Announcement}
    (ha : ((after symbol clock past).stepAnnouncements msg)[n]? = some a)
    {p : SessionId × ExecutionReport} (hp : p ∈ a.reports) :
    p.2.leavesQty.toNat = leavesAfter symbol clock past msg n p.2.orderId := by
  have hpast := acceptedOrders_lt_of_cons h
  have hwf := (after_inv symbol clock hpast).book.wf
  have hallow := after_allows symbol clock h hcall
  obtain ⟨s, hexec⟩ :=
    Orderbook.executes_of_incoming hwf hallow (Orderbook.incoming_addOrder _ _)
  have htrades : (after symbol clock past).stepTrades msg =
      (after symbol clock past).orderbook.callTrades (.addOrder
        ((after symbol clock past).newOrder msg.sessionId request side orderType)) := by
    rw [MatchingEngine.stepTrades, hcall]
  -- announcement number `n` is about trade number `n` of the step
  have hat : ((after symbol clock past).stepTrades msg)[n]? = some a.trade := by
    rw [← MatchingEngine.map_trade_of_addOrder hcall, List.getElem?_map, ha]
    rfl
  have hcross : (after symbol clock past).orderbook.crosses
      ((after symbol clock past).newOrder msg.sessionId request side orderType) = true := by
    by_contra hnot
    rw [Bool.not_eq_true, ← hexec.trades_eq_nil_iff, ← htrades] at hnot
    rw [hnot] at hat
    cases hat
  simp only [MatchingEngine.leavesKnown, hbody, MatchingEngine.crosses,
    MatchingEngine.stopsAtFirst, MatchingEngine.incoming?, hcall, Option.bind_some,
    Orderbook.incoming_addOrder, hcross, Bool.not_true, Bool.false_or, Bool.and_eq_true]
    at hknown
  obtain ⟨first, t, hfirst, hsingle, hqty, hpassive, hnames, hle, haggr⟩ :=
    trade_of_closesFirst hexec hcross hknown.1 hknown.2
  rw [htrades, hsingle] at hat
  obtain ⟨rfl, htrade⟩ : n = 0 ∧ t = a.trade := by
    cases n with
    | zero => exact ⟨rfl, Option.some.inj hat⟩
    | succ n => cases hat
  have hexecuted : ∀ i, i = (after symbol clock past).nextOrderId ∨ first.orderId = i →
      executedIn i [t] = first.quantity.toNat := by
    intro i hi
    rw [executedIn_cons, if_pos ((hnames i).mpr hi), executedIn_nil, Nat.add_zero, hqty]
  rw [leavesAfter, htrades, hsingle]
  rcases leavesQty_of_mem_stepAnnouncements hbody hcheck (List.mem_of_getElem? ha) hp with
    ⟨hid, hleaves⟩ | ⟨hid, hleaves⟩
  · have hopening : opening symbol clock past msg (after symbol clock past).nextOrderId =
        ⟨request.quantity.toNat, 0, 0⟩ := opening_entered hcall
    have hnext := hexecuted _ (Or.inl rfl)
    have hafter := Orderbook.quantity_addOrder hwf hallow
    rw [hsingle, show executedIn ((after symbol clock past).newOrder msg.sessionId request side
      orderType).orderId [t] = first.quantity.toNat from hnext] at hafter
    rw [hid, hleaves, hafter, hopening]
    simp only [Nat.zero_add, List.take_succ_cons, List.take_zero, hnext]
    split
    · rename_i hag
      rw [haggr hag]
      exact (Nat.sub_self _).symm
    · rfl
  · have hid' : p.2.orderId = first.orderId := by
      rw [hid, ← htrade, ← hpassive, ← hexec.buySell]
      rfl
    have hquantity : (account symbol clock past first.orderId).quantity = _ :=
      quantity_of_resting hpast hfirst
    have hfirst' := hexecuted _ (Or.inr rfl)
    rw [hid', hleaves, opening_of_ne hcall (ne_of_allows_addOrder hallow hfirst), hquantity]
    simp only [Nat.zero_add, List.take_succ_cons, List.take_zero, hfirst']
    rw [Nat.add_comm, Nat.sub_self]
    rfl

end Steps

/-- **When the leaves quantities of a run are truthful**: when every request for a new order
either does not trade, or trades once, closing the resting order and leaving nothing that its
type takes away. -/
theorem truthful_leaves (past : List InboundMessage) (h : acceptedOrders past < 2 ^ 64)
    (hknown : ∀ msg before, (msg :: before) <:+ past →
      (after symbol clock before).leavesKnown msg = true) :
    TruthfulLeaves symbol clock past := by
  refine ⟨reports_after symbol clock past, fun msg before hsuffix n a ha p hp => ?_⟩
  have hmem := List.mem_of_getElem? ha
  cases (after symbol clock before).handled msg with
  | newRejected request reason body check =>
      simp [MatchingEngine.stepAnnouncements, body, check] at hmem
  | newAccepted request side orderType body check call =>
      exact leaves_newAccepted (acceptedOrders_lt_of_suffix hsuffix h) body check call
        (hknown msg before hsuffix) ha hp
  | cancelRejected request body => simp [MatchingEngine.stepAnnouncements, body] at hmem
  | cancelled request tracked body => simp [MatchingEngine.stepAnnouncements, body] at hmem
  | modifyRejected request reason body check =>
      simp [MatchingEngine.stepAnnouncements, body, check] at hmem
  | modified request body check =>
      simp only [MatchingEngine.stepAnnouncements, body, check] at hmem
      obtain ⟨e', -, heq⟩ := MatchingEngine.exists_of_mem_announcements
        (MatchingEngine.announces_modifyOrderTrade request.orderId) hmem
      rw [heq, MatchingEngine.announcement_modifyOrderTrade] at hp
      cases hp

/-- A run in which a LIMIT order closes a smaller one and a MARKET order closes the rest. -/
def closingRun : List InboundMessage :=
  [newOrderMessage 3 .sell 3 0 2, limitOrderMessage 2 .buy 100 5, limitOrderMessage 1 .sell 100 3]

theorem truthful_leaves_closingRun :
    (after [] (fun _ => 0) closingRun).reports.map (fun p => (p.2.orderId, p.2.leavesQty)) =
      [(2, 2), (1, 0), (3, 0), (2, 0)] ∧
    TruthfulLeaves [] (fun _ => 0) closingRun := by
  have hknown : everyStep (fun before msg => (after [] (fun _ => 0) before).leavesKnown msg)
      closingRun = true := by decide
  exact ⟨by decide, truthful_leaves [] (fun _ => 0) closingRun (by decide)
    (everyStep_iff.mp hknown)⟩

/-- A run in which a LIMIT order closes one resting order and fills a part of the next. -/
def sweepingRun : List InboundMessage :=
  [limitOrderMessage 2 .buy 101 4, limitOrderMessage 1 .sell 101 5,
    limitOrderMessage 1 .sell 100 2]

/-- The first report for the incoming order says that it has nothing left, when it has 2, and
the last one says so of a resting order that has 3 left. -/
theorem not_truthfulLeaves_sweepingRun :
    (after [] (fun _ => 0) sweepingRun).reports.map (fun p => (p.2.orderId, p.2.leavesQty)) =
      [(3, 0), (1, 0), (3, 0), (2, 0)] ∧
    leavesAfter [] (fun _ => 0) (sweepingRun.drop 1) (limitOrderMessage 2 .buy 101 4) 0 3 = 2 ∧
    leavesAfter [] (fun _ => 0) (sweepingRun.drop 1) (limitOrderMessage 2 .buy 101 4) 1 2 = 3 ∧
    ¬ TruthfulLeaves [] (fun _ => 0) sweepingRun := by
  refine ⟨by decide, by decide, by decide, fun h => ?_⟩
  have hwrong : (((after [] (fun _ => 0) (sweepingRun.drop 1)).stepAnnouncements
      (limitOrderMessage 2 .buy 101 4))[0]?.any fun a => a.reports.any fun p =>
        decide (p.2.leavesQty.toNat ≠ leavesAfter [] (fun _ => 0) (sweepingRun.drop 1)
          (limitOrderMessage 2 .buy 101 4) 0 p.2.orderId)) = true := by decide
  obtain ⟨a, ha, hany⟩ := (Option.any_eq_true _ _).mp hwrong
  obtain ⟨p, hp, hne⟩ := List.any_eq_true.mp hany
  exact of_decide_eq_true hne (h.leaves _ _ List.suffix_rfl 0 a ha p hp)

end ExchangeEngine
