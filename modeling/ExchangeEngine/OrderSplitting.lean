import ExchangeEngine.BestExecution
import ExchangeEngine.ReferenceMarket

/-!
# Splitting an Order

Whether a session sends an order whole or in two parts, one right after the other, makes no
difference to the orders that it trades with. The parts may come from other sessions and carry
other client order ids, and they take two order ids where the whole takes one.

## Main results

* `order_splitting`: in every run, the two parts leave the opposite side as the whole order does and
  execute the same quantity against every resting order; MARKET and IOC orders leave the same book.
-/

open PriceTime

namespace ExchangeEngine

/-- **Two requests that split a third**: they are for its side, type and price, and their quantities
make up its own. -/
structure Splits (whole part₁ part₂ : NewOrderRequest) : Prop where
  side₁ : part₁.side = whole.side
  side₂ : part₂.side = whole.side
  orderType₁ : part₁.orderType = whole.orderType
  orderType₂ : part₂.orderType = whole.orderType
  price₁ : part₁.price = whole.price
  price₂ : part₂.price = whole.price
  quantity₁ : part₁.quantity ≠ 0
  quantity₂ : part₂.quantity ≠ 0
  quantity : whole.quantity.toNat = part₁.quantity.toNat + part₂.quantity.toNat

namespace MatchingEngine

/-- The checks look at the quantity only for whether it is zero. -/
theorem checkNewOrder_of_alike {whole part : NewOrderRequest} {side : BuySell}
    {orderType : OrderType} (hcheck : checkNewOrder whole = .ok (side, orderType))
    (hside : part.side = whole.side) (htype : part.orderType = whole.orderType)
    (hprice : part.price = whole.price) (hqty : part.quantity ≠ 0) :
    checkNewOrder part = .ok (side, orderType) := by
  have hwhole : whole.quantity ≠ 0 := (checkNewOrder_eq_ok hcheck).2.2.2.1
  simp only [checkNewOrder, if_neg hwhole] at hcheck
  simp only [checkNewOrder, hside, htype, hprice, if_neg hqty]
  exact hcheck

variable {e : MatchingEngine} {sessionId : SessionId} {request : NewOrderRequest}
  {orderType : OrderType} {s : Side}

/-- The offer that an accepted request enters. -/
def requestOffer (e : MatchingEngine) (sessionId : SessionId) (request : NewOrderRequest) :
    BookOffer where
  id := e.nextOrderId
  price := request.price
  qty := request.quantity.toNat
  tag := ⟨e.clock 0, sessionId, request.clientOrderId⟩

/-- **What an accepted request does**: it enters its offer into the view of the book, and executes
against every other order what the offer's sweep does. -/
theorem accepted_enters (hwf : e.orderbook.Wf)
    (hcheck : checkNewOrder request = .ok (buySellOf s, orderType))
    (hallow : ∀ c, e.bookCall? ⟨sessionId, .newOrder request⟩ = some c → e.orderbook.Allows c) :
    (e.processInboundMessage ⟨sessionId, .newOrder request⟩).orderbook.view =
        (e.orderbook.view.enter s (decide (orderType = .limit))
          (e.requestOffer sessionId request)).1 ∧
      ∀ i, i ≠ e.nextOrderId →
        executedIn i (e.stepTrades ⟨sessionId, .newOrder request⟩) =
          executedFor i (e.orderbook.view.execution s
            (s.trades (decide (orderType = .limit)) request.price)
            (e.requestOffer sessionId request)).fills := by
  obtain ⟨o, ho⟩ : ∃ o, o = e.newOrder sessionId request (buySellOf s) orderType := ⟨_, rfl⟩
  have hcall : e.bookCall? ⟨sessionId, .newOrder request⟩ = some (.addOrder o) := by
    simp only [bookCall?, hcheck, ho]
  have hallow := hallow _ hcall
  have hoffer : o.offer = e.requestOffer sessionId request := by
    rw [ho]
    rfl
  have hrests : (!o.isAggressive) = decide (orderType = .limit) := by
    obtain ⟨-, -, htype, -, -⟩ := checkNewOrder_eq_ok hcheck
    rw [ho]
    rcases htype with rfl | rfl | rfl <;> rfl
  refine ⟨?_, fun i hi => ?_⟩
  · have hrefines := congrArg Prod.fst (Orderbook.call_refines hwf hallow)
    have hside : o.buySell = buySellOf s := by rw [ho]; rfl
    rw [orderbook_of_call hcall]
    rw [BookCall.request, Book.perform, hside, bookSide_buySellOf, hrests, hoffer] at hrefines
    exact hrefines.symm
  · obtain ⟨s', hexec⟩ := Orderbook.executes_of_incoming hwf hallow
      (Orderbook.incoming_addOrder e.orderbook o)
    obtain rfl : s' = s := by
      rw [← bookSide_buySellOf s', ← hexec.buySell, ho]
      exact bookSide_buySellOf s
    have hne : ∀ f ∈ (sweep (o.accepts (buySellOf s')) o.quantity.toNat
        ((e.orderbook.opposite (buySellOf s')).map Order.offer)).fills,
        f.offer.id ≠ o.orderId := by
      intro f hf heq
      have hmem := (mem_sweep_fills hf).1
      rw [Orderbook.map_offer_opposite] at hmem
      exact hallow.2.2.2 (Book.mem_ids.mpr ⟨s'.contra, f.offer, hmem, heq⟩)
    have hid : i ≠ o.orderId := by
      rw [ho]
      exact hi
    have haccepts := Orderbook.accepts_eq_trades (fun hag => (hallow.2.2.1 hag).1) s'
    have hprice : o.price = request.price := by rw [ho]; rfl
    have htrades : e.stepTrades ⟨sessionId, .newOrder request⟩ =
        e.orderbook.callTrades (.addOrder o) := by
      rw [stepTrades, hcall]
    rw [htrades, hexec.trades,
      executedIn_fills (fun f hf => Orderbook.executed_lt_of_mem hf) hne, if_neg hid,
      Orderbook.map_offer_opposite, haccepts, hrests, hprice, ← hoffer]
    rfl

end MatchingEngine

/-- **What it means that two messages do what one message does**, in the state `e`, for an order of
side `s`. -/
structure SplitsAlike (e : MatchingEngine) (s : Side) (orderType : OrderType)
    (whole part₁ part₂ : InboundMessage) : Prop where
  /-- The opposite side is left with the same offers. -/
  contra : ((e.processInboundMessage part₁).processInboundMessage part₂).orderbook.view.side
      s.contra = (e.processInboundMessage whole).orderbook.view.side s.contra
  /-- The same quantity is executed against every resting order. -/
  executed : ∀ i ∈ e.orderbook.view.ids,
    executedIn i (e.stepTrades part₁) +
        executedIn i ((e.processInboundMessage part₁).stepTrades part₂) =
      executedIn i (e.stepTrades whole)
  /-- An order that may not rest leaves the same book. -/
  book : orderType ≠ .limit →
    ((e.processInboundMessage part₁).processInboundMessage part₂).orderbook.view =
      (e.processInboundMessage whole).orderbook.view

/-- **Splitting an order** makes no difference to the orders that it trades with. -/
theorem order_splitting (symbol : List UInt8) (clock : ℕ → Timestamp) {past : List Input}
    (h : acceptedCount past + 2 < 2 ^ 64) {whole part₁ part₂ : NewOrderRequest}
    (hsplits : Splits whole part₁ part₂) {s : Side} {orderType : OrderType}
    (hcheck : MatchingEngine.checkNewOrder whole = .ok (buySellOf s, orderType))
    (sessionId sessionId₁ sessionId₂ : SessionId) :
    SplitsAlike (run symbol clock past) s orderType ⟨sessionId, .newOrder whole⟩
      ⟨sessionId₁, .newOrder part₁⟩ ⟨sessionId₂, .newOrder part₂⟩ := by
  obtain ⟨e, he⟩ : ∃ e, e = run symbol clock past := ⟨_, rfl⟩
  have hinv : EngineInv e (acceptedCount past) := he ▸ run_inv symbol clock past (by omega)
  have hcheck₁ := MatchingEngine.checkNewOrder_of_alike hcheck hsplits.side₁
    hsplits.orderType₁ hsplits.price₁ hsplits.quantity₁
  have hcheck₂ := MatchingEngine.checkNewOrder_of_alike hcheck hsplits.side₂
    hsplits.orderType₂ hsplits.price₂ hsplits.quantity₂
  -- the state between the parts
  have hacc : MatchingEngine.isAccepted ⟨sessionId₁, .newOrder part₁⟩ = true := by
    simp only [MatchingEngine.isAccepted, hcheck₁]
  have hone : ∀ msg : InboundMessage,
      (if MatchingEngine.isAccepted msg then 1 else 0) ≤ 1 := by
    intro msg
    split <;> omega
  have hinv₁ := hinv.message ⟨sessionId₁, .newOrder part₁⟩
    (Nat.lt_of_le_of_lt (Nat.add_le_add_left (hone _) _) (by omega))
  rw [if_pos hacc] at hinv₁
  have hallow : ∀ msg c, e.bookCall? msg = some c → e.orderbook.Allows c := fun msg c =>
    hinv.allows (Nat.lt_of_le_of_lt (Nat.add_le_add_left (hone _) _) (by omega))
  obtain ⟨hview, hexec⟩ := MatchingEngine.accepted_enters hinv.book.wf hcheck
    (hallow ⟨sessionId, .newOrder whole⟩)
  obtain ⟨hview₁, hexec₁⟩ := MatchingEngine.accepted_enters hinv.book.wf hcheck₁
    (hallow ⟨sessionId₁, .newOrder part₁⟩)
  obtain ⟨hview₂, hexec₂⟩ := MatchingEngine.accepted_enters hinv₁.book.wf hcheck₂
    fun (c : BookCall) (hcall : MatchingEngine.bookCall? _ ⟨sessionId₂, .newOrder part₂⟩ = _) =>
      hinv₁.allows (Nat.lt_of_le_of_lt (Nat.add_le_add_left (hone _) _) (by omega)) hcall
  rw [hview₁] at hview₂ hexec₂
  obtain ⟨hcontra, hexecuted, hbook⟩ := Book.enter_split e.orderbook.view
    s (decide (orderType = .limit)) (e.requestOffer sessionId whole)
    (e.requestOffer sessionId₁ part₁)
    ((e.processInboundMessage ⟨sessionId₁, .newOrder part₁⟩).requestOffer sessionId₂ part₂)
    hsplits.price₁ hsplits.price₂ hsplits.quantity
  rw [← he]
  refine ⟨?_, fun i hi => ?_, fun hne => ?_⟩
  · rw [hview₂, hview]
    exact hcontra
  · have hle := hinv.book.ids i hi
    have hfresh : i ≠ e.nextOrderId := by
      rintro rfl
      exact hinv.nextOrderId_notMem (by omega) hi
    have hfresh₁ : i ≠ (e.processInboundMessage ⟨sessionId₁, .newOrder part₁⟩).nextOrderId := by
      rintro rfl
      rw [hinv₁.nextOrderId, UInt64.toNat_ofNat_of_lt' (by omega)] at hle
      omega
    rw [hexec i hfresh, hexec₁ i hfresh, hexec₂ i hfresh₁]
    exact hexecuted i
  · rw [hview₂, hview]
    exact hbook (decide_eq_false hne)

/-- A request to buy at no more than 102. -/
def buyRequest (clientOrderId : ClientOrderId) (quantity : Quantity) : NewOrderRequest where
  header := ⟨.newOrderRequest, MessageType.newOrderRequest.size, 0⟩
  clientOrderId
  side := BuySell.buy.toUInt8
  orderType := 1
  price := 102
  quantity

theorem order_splitting_ladderRun :
    SplitsAlike (run [] (fun _ => 0) ladderRun) .bid .limit ⟨9, .newOrder (buyRequest 0 9)⟩
      ⟨9, .newOrder (buyRequest 1 5)⟩ ⟨8, .newOrder (buyRequest 2 4)⟩ := by
  have hcount : acceptedCount ladderRun + 2 < 2 ^ 64 := by decide
  have hsplits : Splits (buyRequest 0 9) (buyRequest 1 5) (buyRequest 2 4) :=
    ⟨rfl, rfl, rfl, rfl, rfl, rfl, by decide, by decide, by decide⟩
  have hcheck : MatchingEngine.checkNewOrder (buyRequest 0 9) = .ok (buySellOf .bid, .limit) := by
    decide
  exact order_splitting [] (fun _ => 0) hcount hsplits hcheck 9 9 8

end ExchangeEngine
