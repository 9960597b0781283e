import ExchangeEngine.Lib.Relabeling
import ExchangeEngine.AckStatus
import ExchangeEngine.BookDisplay
import ExchangeEngine.ReferenceMarket

/-!
# Prices Are Names, and the Sides Are Alike

The source treats the two sides in two copies of the same code, and prices by comparing them. So an
exchange whose prices have other names in the same order does the same under these names, and one
in which every buyer sells and every seller buys, at prices in the opposite order, does the same
with the sides exchanged: books, trades, responses, market data and tracking correspond.

There is one exception. A modify without effect publishes the trades of the call before it again,
and names SELL as the aggressor of those that are not of its own order, whichever side it was.

## Main results

* `exchange_symmetric`: a run on relabeled messages is the relabeled run, up to the aggressor side
  of trades that are published again.
-/

open PriceTime

namespace ExchangeEngine

/-- **Other prices for an exchange**: positive prices get positive names, and zero, which stands for
no price, keeps its own. -/
structure PriceChange (within : Price → Prop) extends Relabeling Price Price within where
  zero : price 0 = 0
  pos : ∀ p, 0 < price p ↔ 0 < p

namespace PriceChange

variable {within : Price → Prop} (σ : PriceChange within)

/-! ### What is relabeled -/

/-- The side that an order has, as a value of `BuySell`. -/
def buySell (side : BuySell) : BuySell :=
  if σ.exchanged then
    match side with
    | .buy => .sell
    | .sell => .buy
    | .default => .default
  else side

/-- The byte that stands for the side. A byte that names no side stays as it is. -/
def sideByte (b : UInt8) : UInt8 :=
  if σ.exchanged then if b = 1 then 2 else if b = 2 then 1 else b else b

/-- The change acts on everything that has a price or a side: on an order, -/
def order (o : Order) : Order :=
  { o with price := σ.price o.price, buySell := σ.buySell o.buySell }

/-- on a trade, whose two orders change places with the sides, -/
def trade (t : Trade) : Trade :=
  { t with
    buyOrderId := if σ.exchanged then t.sellOrderId else t.buyOrderId
    sellOrderId := if σ.exchanged then t.buyOrderId else t.sellOrderId
    price := σ.price t.price }

/-- on a call of the book, -/
def call : BookCall → BookCall
  | .addOrder o => .addOrder (σ.order o)
  | .cancelOrder orderId => .cancelOrder orderId
  | .modifyOrder orderId newPrice newQuantity =>
      .modifyOrder orderId (σ.price newPrice) newQuantity

/-- on a request for an order, whose side is a byte, -/
def newOrderRequest (request : NewOrderRequest) : NewOrderRequest :=
  { request with side := σ.sideByte request.side, price := σ.price request.price }

/-- on a request for other terms, -/
def modifyOrderRequest (request : ModifyOrderRequest) : ModifyOrderRequest :=
  { request with newPrice := σ.price request.newPrice }

/-- on a message to the engine, -/
def message (msg : InboundMessage) : InboundMessage :=
  { msg with
    body := match msg.body with
      | .newOrder request => .newOrder (σ.newOrderRequest request)
      | .cancelOrder request => .cancelOrder request
      | .modifyOrder request => .modifyOrder (σ.modifyOrderRequest request) }

/-- on an input of a run, -/
def input : Input → Input
  | .message msg => .message (σ.message msg)
  | .cancelSession sessionId orderIds => .cancelSession sessionId orderIds

/-- on a response, -/
def response : OutboundBody → OutboundBody
  | .execReport report =>
      .execReport { report with
        execPrice := σ.price report.execPrice, side := σ.sideByte report.side }
  | .modifyAck ack => .modifyAck { ack with newPrice := σ.price ack.newPrice }
  | body => body

/-- on a message to the server, -/
def outbound (msg : OutboundMessage) : OutboundMessage :=
  { msg with body := σ.response msg.body }

/-- and on market data, whose best bid and best ask change places with the sides. -/
def marketData : MarketDataMessage → MarketDataMessage
  | .tick update =>
      .tick { update with
        lastPrice := σ.price update.lastPrice
        bidPrice := σ.price (if σ.exchanged then update.askPrice else update.bidPrice)
        askPrice := σ.price (if σ.exchanged then update.bidPrice else update.askPrice)
        bidQty := if σ.exchanged then update.askQty else update.bidQty
        askQty := if σ.exchanged then update.bidQty else update.askQty }
  | .trade update =>
      .trade { update with
        price := σ.price update.price, aggressorSide := σ.sideByte update.aggressorSide }

/-- The price that a message gives to an order, if it is positive, is within the set. -/
def Covers (within : Price → Prop) (msg : InboundMessage) : Prop :=
  match msg.body with
  | .newOrder request => 0 < request.price → within request.price
  | .cancelOrder _ => True
  | .modifyOrder request => 0 < request.newPrice → within request.newPrice

/-- The same for the message of an input. -/
def CoversInput (within : Price → Prop) : Input → Prop
  | .message msg => Covers within msg
  | .cancelSession _ _ => True

theorem buySell_buySellOf (s : Side) : σ.buySell (buySellOf s) = buySellOf (σ.side s) := by
  simp only [buySell, Relabeling.side, Side.turn]
  cases σ.exchanged <;> cases s <;> rfl

theorem toUInt8_buySell (side : BuySell) : (σ.buySell side).toUInt8 = σ.sideByte side.toUInt8 := by
  simp only [buySell, sideByte]
  cases σ.exchanged <;> cases side <;> rfl

theorem buySell_opposite (s : Side) :
    (σ.buySell (buySellOf s)).opposite = σ.buySell (buySellOf s).opposite := by
  simp only [buySell]
  cases σ.exchanged <;> cases s <;> rfl

theorem ofUInt8_sideByte (b : UInt8) :
    BuySell.ofUInt8 (σ.sideByte b) = (BuySell.ofUInt8 b).map σ.buySell := by
  have hvalues : σ.exchanged = true → σ.buySell .default = .default ∧ σ.buySell .buy = .sell ∧
      σ.buySell .sell = .buy := by
    intro hx
    simp [buySell, hx]
  cases hx : σ.exchanged with
  | false =>
      have hsame : σ.buySell = id := funext fun side => by simp [buySell, hx]
      simp [sideByte, hx, hsame]
  | true =>
      obtain ⟨hdefault, hbuy, hsell⟩ := hvalues hx
      simp only [sideByte, hx, if_true]
      by_cases h1 : b = 1
      · simp [h1, BuySell.ofUInt8, hbuy]
      by_cases h2 : b = 2
      · simp [h2, BuySell.ofUInt8, hsell]
      by_cases h0 : b = 0
      · simp [h0, BuySell.ofUInt8, hdefault]
      simp [h0, h1, h2, BuySell.ofUInt8]

theorem nonpos_iff (p : Price) : σ.price p ≤ 0 ↔ p ≤ 0 := by
  rw [← Int32.not_lt, ← Int32.not_lt, σ.pos]

/-- The checks of a new order look at the type, at the quantity and at the sign of the price. -/
theorem checkNewOrder_congr {request request' : NewOrderRequest} {s s' : Side}
    (hside : BuySell.ofUInt8 request.side = some (buySellOf s))
    (hside' : BuySell.ofUInt8 request'.side = some (buySellOf s'))
    (htype : request'.orderType = request.orderType)
    (hquantity : request'.quantity = request.quantity)
    (hprice : request'.price ≤ 0 ↔ request.price ≤ 0) :
    MatchingEngine.checkNewOrder request' =
      (MatchingEngine.checkNewOrder request).map fun x => (buySellOf s', x.2) := by
  simp only [MatchingEngine.checkNewOrder, hside, hside', htype, hquantity, hprice]
  cases s <;> cases s' <;> simp only [buySellOf]
  all_goals
    rcases OrderType.ofUInt8 request.orderType with _ | orderType
    · rfl
    cases orderType with
    | default => rfl
    | stoploss => rfl
    | _ => simp only; split_ifs <;> rfl

/-- **The checks of a new order** give the same result, on the relabeled side. -/
theorem checkNewOrder_newOrderRequest (request : NewOrderRequest) :
    MatchingEngine.checkNewOrder (σ.newOrderRequest request) =
      (MatchingEngine.checkNewOrder request).map fun x => (σ.buySell x.1, x.2) := by
  have hbyte : BuySell.ofUInt8 (σ.newOrderRequest request).side = _ :=
    σ.ofUInt8_sideByte request.side
  have hdefault : σ.buySell .default = .default := by
    simp only [buySell]
    split <;> rfl
  have hok : ∀ s : Side, BuySell.ofUInt8 request.side = some (buySellOf s) →
      MatchingEngine.checkNewOrder (σ.newOrderRequest request) =
        (MatchingEngine.checkNewOrder request).map fun x => (σ.buySell x.1, x.2) := by
    intro s hside
    rw [hside, Option.map_some, buySell_buySellOf] at hbyte
    rw [checkNewOrder_congr hside hbyte rfl rfl (σ.nonpos_iff request.price)]
    cases hcheck : MatchingEngine.checkNewOrder request with
    | error reason => rfl
    | ok x =>
        obtain ⟨side, orderType⟩ := x
        obtain ⟨hside', -⟩ := MatchingEngine.checkNewOrder_eq_ok hcheck
        rw [hside] at hside'
        rw [Except.map, Except.map, ← Option.some.inj hside', buySell_buySellOf]
  cases hside : BuySell.ofUInt8 request.side with
  | none =>
      rw [hside, Option.map_none] at hbyte
      simp only [MatchingEngine.checkNewOrder, hside, hbyte]
      rfl
  | some side =>
      cases side with
      | default =>
          rw [hside, Option.map_some, hdefault] at hbyte
          simp only [MatchingEngine.checkNewOrder, hside, hbyte]
          rfl
      | buy => exact hok .bid hside
      | sell => exact hok .ask hside

end PriceChange

/-! ### Trades that are published again -/

/-- For each market data message that a message makes the engine publish, whether it is a trade that a
modify without effect publishes again and that is not between its order and another one. -/
def MatchingEngine.echoes (e : MatchingEngine) (msg : InboundMessage) : List Bool :=
  match e.bookCall? msg with
  | none => []
  | some (.addOrder o) =>
      ((e.orderbook.call (.addOrder o)).trades.map fun _ => false) ++ [false]
  | some (.cancelOrder _) => [false]
  | some (.modifyOrder i newPrice newQuantity) =>
      ((e.orderbook.call (.modifyOrder i newPrice newQuantity)).trades.map fun t =>
        (e.orderbook.entering? (.modifyOrder i newPrice newQuantity)).isNone &&
          decide (t.buyOrderId = i ↔ t.sellOrderId = i)) ++ [false]

/-- The same for an input. -/
def MatchingEngine.inputEchoes (e : MatchingEngine) : Input → List Bool
  | .message msg => e.echoes msg
  | .cancelSession _ orderIds => if orderIds = [] then [] else [false]

/-- The same for each market data message of a run. -/
def echoes (symbol : List UInt8) (clock : ℕ → Timestamp) : List Input → List Bool
  | [] => []
  | input :: past => echoes symbol clock past ++ (run symbol clock past).inputEchoes input

/-! ### The best prices of a view -/

namespace Orderbook

/-- Price and total quantity of the first offers of a side, as `GetBestBidAsk` reports them. -/
def top : List BookOffer → Price × Quantity
  | [] => (0, 0)
  | a :: L =>
      if 0 < UInt32.ofNat (depthAt a.price (a :: L)) then
        (a.price, .ofNat (depthAt a.price (a :: L)))
      else (0, 0)

/-- The quote of a side is the best price of the view with the quantity that rests there. -/
theorem Wf.quote_eq_top {b : Orderbook} (h : b.Wf) (s : Side) :
    b.quote s = top (b.view.side s) := by
  have htotals := h.levelTotals_eq s
  have hside : b.view.side s = offers b.heap (b.levels s) := by cases s <;> rfl
  rw [quote_eq]
  cases hlevels : b.levels s with
  | nil =>
      rw [hside, hlevels]
      rfl
  | cons l levels =>
      have hl : l ∈ b.levels s := hlevels ▸ List.mem_cons_self
      obtain ⟨p, ps, hps⟩ := List.exists_cons_of_ne_nil (h.noEmptyLevel s l hl)
      have hprice : (b.heap.read p).offer.price = l.1 :=
        (h.levelsWf s l hl p (hps ▸ List.mem_cons_self)).price_eq
      rw [hlevels] at htotals
      -- the first entry of the profile is the first level
      have hentry : (l.1, quantitySum b.heap l.2) ∈ profile (b.view.side s) :=
        htotals ▸ List.mem_cons_self
      obtain ⟨k, -, hk⟩ := List.mem_map.mp hentry
      obtain ⟨rfl, hdepth⟩ := Prod.mk.inj hk
      have hcons : b.view.side s =
          (b.heap.read p).offer :: offersAt b.heap (ps ++ pointers levels) := by
        rw [hside, hlevels, offers, pointers_cons, hps]
        rfl
      rw [hcons] at hdepth ⊢
      simp only [top, hprice, hdepth, bestOf, levelQuantity_eq, decide_eq_true_eq]

end Orderbook

namespace PriceChange

variable {within : Price → Prop} (σ : PriceChange within)

/-! ### Corresponding books -/

/-- **Corresponding books**: each offer of the one is the relabeled offer of the other, at its
place, and the trades that are kept correspond. -/
structure SameBook (b b' : Orderbook) : Prop where
  wf : b.Wf
  wf' : b'.Wf
  within : ∀ s, ∀ a ∈ b.view.side s, within a.price
  view : b'.view = σ.book b.view
  trades : b'.trades = b.trades.map σ.trade

/-- The price that a call gives to an order is within the set. -/
def CoversCall (within : Price → Prop) : BookCall → Prop
  | .addOrder o => o.isAggressive = false → within o.price
  | .cancelOrder _ => True
  | .modifyOrder _ newPrice _ => within newPrice

/-- A trade that is recorded with a deal. -/
def ofDeal (d : Deal OrderId Price) : Trade where
  buyOrderId := d.buyer
  sellOrderId := d.seller
  price := d.price
  quantity := .ofNat d.qty
  tradeType := if d.full then .full else .partial_

theorem ofDeal_tradeOf (side : BuySell) (orderId : OrderId) (f : BookFill) :
    ofDeal (tradeOf side orderId f).deal = tradeOf side orderId f := by
  by_cases hfull : f.executed = f.offer.qty ∧ f.left = 0
  · simp only [ofDeal, Trade.deal, tradeOf, UInt32.ofNat_toNat, if_pos hfull, decide_true, if_true]
  · simp only [ofDeal, Trade.deal, tradeOf, UInt32.ofNat_toNat, if_neg hfull, reduceCtorEq,
      decide_false, Bool.false_eq_true, if_false]

theorem ofDeal_deal_of_trade {t : Trade} (h : ofDeal t.deal = t) :
    ofDeal (σ.deal t.deal) = σ.trade t :=
  congrArg σ.trade h

theorem executedIn_map_trade (i : OrderId) (trades : List Trade) :
    executedIn i (trades.map σ.trade) = executedIn i trades := by
  induction trades with
  | nil => rfl
  | cons t trades ih =>
      have hnames : ((σ.trade t).buyOrderId = i ∨ (σ.trade t).sellOrderId = i) ↔
          (t.buyOrderId = i ∨ t.sellOrderId = i) := by
        simp only [trade]
        split
        · exact or_comm
        · exact Iff.rfl
      rw [List.map_cons, executedIn_cons, executedIn_cons, ih, if_congr hnames rfl rfl]
      rfl

section Calls

variable {σ} {b b' : Orderbook} {c : BookCall}

/-- The trades of a call are determined by their deals, and each is one of the call's order with
another order. -/
theorem trades_of_call (h : b.Wf) (hallow : b.Allows c) {t : Trade} (ht : t ∈ b.callTrades c) :
    ofDeal t.deal = t ∧ ¬ (t.buyOrderId = c.orderId ↔ t.sellOrderId = c.orderId) := by
  rcases Orderbook.call_cases h hallow with ⟨b₁, order, s, hent, henters, hadded⟩ |
    ⟨-, -, hent, -⟩ | ⟨-, -, -, -, hent, -⟩
  · rw [Orderbook.callTrades_of_entering hent, hadded.trades] at ht
    obtain ⟨f, hf, rfl⟩ := List.mem_map.mp ht
    refine ⟨ofDeal_tradeOf _ _ _, ?_⟩
    have hother : f.offer.id ≠ c.orderId := by
      obtain ⟨hmem, -⟩ := mem_sweep_fills hf
      rw [henters.view, Book.side_withdraw] at hmem
      simpa using (List.mem_filter.mp hmem).2
    rw [henters.orderId]
    cases s <;> simp [tradeOf, buySellOf, hother]
  · rw [Orderbook.callTrades, hent] at ht
    cases ht
  · rw [Orderbook.callTrades, hent] at ht
    cases ht

/-- A modify enters no order exactly if every offer with the id is as it is to become. -/
theorem entering_modifyOrder_eq_none (h : b.Wf) {i : OrderId} {newPrice : Price}
    {newQuantity : Quantity} :
    b.entering? (.modifyOrder i newPrice newQuantity) = none ↔
      ∀ s, ∀ a ∈ b.view.side s, a.id = i → a.price = newPrice ∧ a.qty = newQuantity.toNat := by
  have htarget : b.entering? (.modifyOrder i newPrice newQuantity) = none ↔
      ∀ p, b.modifyTarget i newPrice newQuantity ≠ some p := by
    rw [Orderbook.entering?, Option.map_eq_none_iff, Option.eq_none_iff_forall_ne_some]
  rw [htarget]
  constructor
  · rintro hnone s a ha rfl
    obtain ⟨p, hp, -, rfl⟩ := h.mem_side.mp ha
    by_contra hdiff
    refine hnone p (h.modifyTarget_eq_some.mpr ⟨hp, rfl, fun hsame => hdiff ⟨hsame.1, ?_⟩⟩)
    rw [← hsame.2]
    rfl
  · intro hsame p hp
    obtain ⟨hmem, hid, hdiff⟩ := h.modifyTarget_eq_some.mp hp
    obtain ⟨s, hs⟩ := h.exists_side hmem
    obtain ⟨hprice, hqty⟩ := hsame s _ (h.mem_side.mpr ⟨p, hmem, hs, rfl⟩) hid
    exact hdiff ⟨hprice, UInt32.toNat_inj.mp hqty⟩

/-- The trades that a call leaves behind. -/
theorem trades_call (h : b.Wf) (c : BookCall) :
    (b.call c).trades = if (b.entering? c).isSome then b.callTrades c else b.trades := by
  cases hent : b.entering? c with
  | some x =>
      obtain ⟨b₁, order⟩ := x
      exact (Orderbook.callTrades_of_entering hent).symm
  | none =>
      cases c with
      | addOrder o => cases hent
      | cancelOrder i => exact (Orderbook.cancelOrder_spec h i).2.2.1
      | modifyOrder i newPrice newQuantity =>
          have htarget := Option.map_eq_none_iff.mp hent
          simp only [Orderbook.call, Orderbook.modifyOrder, htarget]
          rfl

namespace SameBook

theorem empty : σ.SameBook .empty .empty where
  wf := Orderbook.wf_empty
  wf' := Orderbook.wf_empty
  within := by
    intro s a ha
    cases s <;> cases ha
  view := by
    have hempty : ∀ s, Orderbook.empty.view.side s = [] := fun s => by cases s <;> rfl
    simp only [Relabeling.book, hempty]
    rfl
  trades := rfl

theorem allows (h : σ.SameBook b b') (hallow : b.Allows c) : b'.Allows (σ.call c) := by
  cases c with
  | addOrder o =>
      obtain ⟨⟨s, hs⟩, hqty, hlimit, hnew⟩ := hallow
      refine ⟨⟨σ.side s, ?_⟩, hqty, fun haggr => ?_, ?_⟩
      · rw [← buySell_buySellOf, ← hs]
        rfl
      · obtain ⟨htype, hprice⟩ := hlimit haggr
        exact ⟨htype, (σ.pos o.price).mpr hprice⟩
      · rw [h.view]
        exact fun hmem => hnew (σ.mem_ids_book.mp hmem)
  | cancelOrder i => trivial
  | modifyOrder i newPrice newQuantity => exact ⟨(σ.pos newPrice).mpr hallow.1, hallow.2⟩

theorem request_call (hallow : b.Allows c) : (σ.call c).request = σ.request c.request := by
  cases c with
  | addOrder o =>
      obtain ⟨s, hs⟩ := hallow.1
      have hside : (σ.order o).buySell = buySellOf (σ.side s) := by
        rw [← buySell_buySellOf, ← hs]
        rfl
      simp only [call, BookCall.request, Relabeling.request, hside, hs, bookSide_buySellOf]
      rfl
  | cancelOrder i => rfl
  | modifyOrder i newPrice newQuantity => rfl

theorem covers_request (hcover : CoversCall within c) :
    Relabeling.Covers within c.request := by
  cases c with
  | addOrder o => exact fun hrests => hcover (by simpa using hrests)
  | cancelOrder i => trivial
  | modifyOrder i newPrice newQuantity => exact hcover

/-- Either book lets a call enter an order, or neither. -/
theorem isSome_entering (h : σ.SameBook b b') (hcover : CoversCall within c) :
    (b'.entering? (σ.call c)).isSome = (b.entering? c).isSome := by
  cases c with
  | addOrder o => rfl
  | cancelOrder i => rfl
  | modifyOrder i newPrice newQuantity =>
      have hiff : b'.entering? (σ.call (.modifyOrder i newPrice newQuantity)) = none ↔
          b.entering? (.modifyOrder i newPrice newQuantity) = none := by
        rw [call, entering_modifyOrder_eq_none h.wf', entering_modifyOrder_eq_none h.wf, h.view]
        constructor
        · intro hsame s a ha hid
          have hmem : σ.offer a ∈ (σ.book b.view).side (σ.side s) := by
            rw [Relabeling.side_book, Relabeling.side_side]
            exact List.mem_map_of_mem ha
          obtain ⟨hprice, hqty⟩ := hsame _ _ hmem hid
          exact ⟨(σ.price_eq_iff (h.within s a ha) hcover).mp hprice, hqty⟩
        · intro hsame s a' ha' hid
          rw [Relabeling.side_book] at ha'
          obtain ⟨a, ha, rfl⟩ := List.mem_map.mp ha'
          obtain ⟨hprice, hqty⟩ := hsame _ a ha hid
          exact ⟨congrArg σ.price hprice, hqty⟩
      rw [Bool.eq_iff_iff, Option.isSome_iff_ne_none, Option.isSome_iff_ne_none]
      exact not_congr hiff

/-- **A call and its relabeled call** keep two books the same, and their trades correspond. -/
theorem call (h : σ.SameBook b b') (hallow : b.Allows c) (hcover : CoversCall within c) :
    σ.SameBook (b.call c) (b'.call (σ.call c)) ∧
      b'.callTrades (σ.call c) = (b.callTrades c).map σ.trade := by
  have hallow' := h.allows hallow
  have hnd : b.view.ids.Nodup := by
    rw [b.ids_view]
    exact h.wf.index.nodup
  have hrefines := Orderbook.call_refines h.wf hallow
  have hrefines' := Orderbook.call_refines h.wf' hallow'
  have hperform := σ.perform_book hnd h.within (covers_request hcover)
  rw [h.view, request_call hallow, hperform, hrefines] at hrefines'
  obtain ⟨hview, hdeals⟩ := Prod.mk.inj hrefines'
  have htrades : b'.callTrades (σ.call c) = (b.callTrades c).map σ.trade := by
    have hrecorded := congrArg (List.map ofDeal) hdeals.symm
    rw [List.map_map, List.map_map, List.map_map] at hrecorded
    calc b'.callTrades (σ.call c)
        = (b'.callTrades (σ.call c)).map (ofDeal ∘ Trade.deal) :=
          (List.map_id'' (fun t => rfl) _).symm.trans
            (List.map_congr_left fun t ht => (trades_of_call h.wf' hallow' ht).1.symm)
      _ = (b.callTrades c).map σ.trade :=
          hrecorded.trans (List.map_congr_left fun t ht =>
            σ.ofDeal_deal_of_trade (trades_of_call h.wf hallow ht).1)
  refine ⟨⟨Orderbook.wf_call h.wf hallow, Orderbook.wf_call h.wf' hallow', ?_, hview.symm, ?_⟩,
    htrades⟩
  · have hwithin := Relabeling.within_perform h.within (covers_request hcover)
    rw [hrefines] at hwithin
    exact hwithin
  · rw [trades_call h.wf', trades_call h.wf, h.isSome_entering hcover, htrades, h.trades]
    split <;> rfl

/-- What the engine reads of an order that it has added is the same in either book. -/
theorem read_addOrder (h : σ.SameBook b b') {o : Order} (hallow : b.Allows (.addOrder o))
    (hcover : CoversCall within (.addOrder o)) (hnew : o.orderStatus = .new) :
    let o₁ := (b.call (.addOrder o)).heap.read b.heap.next
    let o₂ := (b'.call (.addOrder (σ.order o))).heap.read b'.heap.next
    o₂.quantity = o₁.quantity ∧ o₂.orderStatus = o₁.orderStatus := by
  have htrades : b'.callTrades (.addOrder (σ.order o)) =
      (b.callTrades (.addOrder o)).map σ.trade := (h.call hallow hcover).2
  have hallow' := h.allows hallow
  have hexecuted : executedIn o.orderId (b'.callTrades (.addOrder (σ.order o))) =
      executedIn o.orderId (b.callTrades (.addOrder o)) := by
    rw [htrades, executedIn_map_trade]
  have htotal : totalQuantity (b'.callTrades (.addOrder (σ.order o))) =
      totalQuantity (b.callTrades (.addOrder o)) := by
    rw [htrades, totalQuantity, totalQuantity, List.map_map]
    rfl
  have hquantity := Orderbook.quantity_addOrder h.wf hallow
  have hquantity' := Orderbook.quantity_addOrder h.wf' hallow'
  have hstatus := (Orderbook.outcome_addOrder h.wf hallow hnew).status
  have hstatus' := (Orderbook.outcome_addOrder h.wf' hallow' hnew).status
  refine ⟨UInt32.toNat_inj.mp ?_, ?_⟩
  · rw [hquantity, ← hexecuted]
    exact hquantity'
  · rw [hstatus, ← htotal]
    exact hstatus'

/-- **The best price of a side** and what rests at it are those of the corresponding side. -/
theorem quote (h : σ.SameBook b b') (s : Side) :
    b'.quote (σ.side s) = (σ.price (b.quote s).1, (b.quote s).2) := by
  rw [h.wf'.quote_eq_top, h.wf.quote_eq_top, h.view, Relabeling.side_book, Relabeling.side_side]
  have hwithin := h.within s
  cases hside : b.view.side s with
  | nil => simp [Orderbook.top, σ.zero]
  | cons a L =>
      rw [hside] at hwithin
      have hdepth : depthAt (σ.price a.price) ((a :: L).map σ.offer) =
          depthAt a.price (a :: L) := by
        rw [depthAt, depthAt, List.filter_map, List.map_map]
        have hfilter : (a :: L).filter ((fun o => decide (o.price = σ.price a.price)) ∘ σ.offer) =
            (a :: L).filter fun o => o.price = a.price := by
          refine List.filter_congr fun o ho => decide_eq_decide.mpr ?_
          exact σ.price_eq_iff (hwithin o ho) (hwithin a List.mem_cons_self)
        rw [hfilter]
        rfl
      rw [List.map_cons] at hdepth ⊢
      simp only [Orderbook.top, Relabeling.price_offer, hdepth]
      split
      · rfl
      · simp [σ.zero]

end SameBook

end Calls

/-! ### Corresponding engines -/

/-- The market data message that the relabeled exchange publishes: the relabeled one, but for the
aggressor side of a trade that is published again. -/
def published (echo : Bool) : MarketDataMessage → MarketDataMessage
  | .trade update =>
      if echo then .trade { update with price := σ.price update.price }
      else σ.marketData (.trade update)
  | msg => σ.marketData msg

theorem published_false (msg : MarketDataMessage) : σ.published false msg = σ.marketData msg := by
  cases msg <;> rfl

/-- **Corresponding engines**: the books and what has been sent correspond, and everything else is
the same. -/
structure SameEngine (flags : List Bool) (e e' : MatchingEngine) : Prop where
  orderbook : σ.SameBook e.orderbook e'.orderbook
  symbol : e'.symbol = e.symbol
  nextOrderId : e'.nextOrderId = e.nextOrderId
  nextTradeId : e'.nextTradeId = e.nextTradeId
  sessionOrders : e'.sessionOrders = e.sessionOrders
  orderToSession : e'.orderToSession = e.orderToSession
  orderToClientOrderId : e'.orderToClientOrderId = e.orderToClientOrderId
  lastTradePrice : e'.lastTradePrice = σ.price e.lastTradePrice
  lastTradeQty : e'.lastTradeQty = e.lastTradeQty
  ordersProcessed : e'.ordersProcessed = e.ordersProcessed
  tradesExecuted : e'.tradesExecuted = e.tradesExecuted
  outbound : e'.outboundQueue = e.outboundQueue.map σ.outbound
  feed : e'.feedQueue = List.zipWith σ.published flags e.feedQueue
  length_feed : flags.length = e.feedQueue.length
  clock : e'.clock = e.clock

namespace SameEngine

variable {σ} {flags : List Bool} {e e' : MatchingEngine}

theorem fresh (symbol : List UInt8) (clock : ℕ → Timestamp) :
    σ.SameEngine [] (.fresh symbol clock) (.fresh symbol clock) :=
  ⟨SameBook.empty, rfl, rfl, rfl, rfl, rfl, rfl, σ.zero.symm, rfl, rfl, rfl, rfl, rfl, rfl, rfl⟩

/-! ### Sending -/

theorem header (h : σ.SameEngine flags e e') (type : MessageType) :
    e'.header type = e.header type := by
  rw [MatchingEngine.header, h.clock]
  rfl

theorem pushOutbound (h : σ.SameEngine flags e e') (s : SessionId) {body body' : OutboundBody}
    (hbody : body' = σ.response body) :
    σ.SameEngine flags (e.pushOutbound s body) (e'.pushOutbound s body') where
  __ := h
  outbound := by
    simp only [MatchingEngine.pushOutbound, h.outbound, hbody, List.map_append, List.map_singleton]
    rfl
  clock := by
    simp only [MatchingEngine.pushOutbound, h.clock]

theorem pushFeed (h : σ.SameEngine flags e e') {msg msg' : MarketDataMessage} {echo : Bool}
    (hmsg : msg' = σ.published echo msg) :
    σ.SameEngine (flags ++ [echo]) (e.pushFeed msg) (e'.pushFeed msg') where
  __ := h
  feed := by
    simp only [MatchingEngine.pushFeed, h.feed, hmsg]
    rw [List.zipWith_append h.length_feed]
    rfl
  length_feed := by
    simp only [MatchingEngine.pushFeed, List.length_append, h.length_feed, List.length_singleton]
  clock := by
    simp only [MatchingEngine.pushFeed, h.clock]

theorem sendExecutionReport (h : σ.SameEngine flags e e') (s : SessionId) (i : OrderId)
    (execPrice : Price) (execQty leavesQty : Quantity) (side : BuySell) :
    σ.SameEngine flags (e.sendExecutionReport s i execPrice execQty leavesQty side)
      (e'.sendExecutionReport s i (σ.price execPrice) execQty leavesQty (σ.buySell side)) := by
  have hcounted : σ.SameEngine flags { e with nextTradeId := e.nextTradeId + 1 }
      { e' with nextTradeId := e'.nextTradeId + 1 } :=
    { h with nextTradeId := by rw [h.nextTradeId] }
  refine hcounted.pushOutbound s ?_
  rw [h.header, h.nextTradeId, toUInt8_buySell]
  rfl

theorem sendOrderReject (h : σ.SameEngine flags e e') (s : SessionId)
    (clientOrderId : ClientOrderId) (reason : RejectReason) :
    σ.SameEngine flags (e.sendOrderReject s clientOrderId reason)
      (e'.sendOrderReject s clientOrderId reason) := by
  refine h.pushOutbound s ?_
  rw [h.header]
  rfl

theorem sendCancelAck (h : σ.SameEngine flags e e') (s : SessionId) (clientOrderId : ClientOrderId)
    (i : OrderId) :
    σ.SameEngine flags (e.sendCancelAck s clientOrderId i)
      (e'.sendCancelAck s clientOrderId i) := by
  refine h.pushOutbound s ?_
  rw [h.header]
  rfl

theorem sendModifyAck (h : σ.SameEngine flags e e') (s : SessionId) (clientOrderId : ClientOrderId)
    (i : OrderId) (newPrice : Price) (newQuantity : Quantity) :
    σ.SameEngine flags (e.sendModifyAck s clientOrderId i newPrice newQuantity)
      (e'.sendModifyAck s clientOrderId i (σ.price newPrice) newQuantity) := by
  refine h.pushOutbound s ?_
  rw [h.header]
  rfl

/-- A trade of the one engine is published by the other as one between the other sides. -/
theorem publishTradeUpdate (h : σ.SameEngine flags e e') (t : Trade) (echo : Bool)
    {side side' : BuySell} (hside : side' = if echo then side else σ.buySell side) :
    σ.SameEngine (flags ++ [echo]) (e.publishTradeUpdate t side)
      (e'.publishTradeUpdate (σ.trade t) side') := by
  refine h.pushFeed ?_
  rw [h.header, h.symbol, h.nextTradeId, hside]
  cases echo with
  | true => rfl
  | false =>
      rw [if_neg Bool.false_ne_true, toUInt8_buySell]
      rfl

/-- The best bid of one engine is the best ask of the other, if the sides are exchanged. -/
theorem publishTickUpdate (h : σ.SameEngine flags e e') :
    σ.SameEngine (flags ++ [false]) e.publishTickUpdate e'.publishTickUpdate := by
  have hbid := h.orderbook.quote (σ.side .bid)
  have hask := h.orderbook.quote (σ.side .ask)
  rw [Relabeling.side_side] at hbid hask
  have hquotes : e'.orderbook.getBestBidAsk.bidPrice =
        σ.price (e.orderbook.quote (σ.side .bid)).1 ∧
      e'.orderbook.getBestBidAsk.bidQty = (e.orderbook.quote (σ.side .bid)).2 ∧
      e'.orderbook.getBestBidAsk.askPrice = σ.price (e.orderbook.quote (σ.side .ask)).1 ∧
      e'.orderbook.getBestBidAsk.askQty = (e.orderbook.quote (σ.side .ask)).2 :=
    ⟨congrArg Prod.fst hbid, congrArg Prod.snd hbid, congrArg Prod.fst hask,
      congrArg Prod.snd hask⟩
  obtain ⟨hbidPrice, hbidQty, haskPrice, haskQty⟩ := hquotes
  refine h.pushFeed ?_
  simp only [hbidPrice, hbidQty, haskPrice, haskQty, h.header, h.symbol, h.lastTradePrice,
    h.lastTradeQty]
  rw [published_false]
  cases hx : σ.exchanged <;>
    simp [marketData, hx, Relabeling.side, Side.turn, Side.contra, Orderbook.quote]

/-! ### The handlers -/

theorem recordTrade (h : σ.SameEngine flags e e') (t : Trade) :
    σ.SameEngine flags (e.recordTrade t) (e'.recordTrade (σ.trade t)) where
  __ := h
  lastTradePrice := rfl
  lastTradeQty := rfl
  tradesExecuted := by
    simp only [MatchingEngine.recordTrade, h.tradesExecuted]

theorem trackOrder (h : σ.SameEngine flags e e') (s : SessionId) {i i' : OrderId} (hi : i' = i)
    (clientOrderId : ClientOrderId) :
    σ.SameEngine flags (e.trackOrder s i clientOrderId) (e'.trackOrder s i' clientOrderId) where
  __ := h
  sessionOrders := by
    simp only [MatchingEngine.trackOrder, h.sessionOrders, hi]
  orderToSession := by
    simp only [MatchingEngine.trackOrder, h.orderToSession, hi]
  orderToClientOrderId := by
    simp only [MatchingEngine.trackOrder, h.orderToClientOrderId, hi]

theorem untrackOrder (h : σ.SameEngine flags e e') (s : SessionId) (i : OrderId) :
    σ.SameEngine flags (e.untrackOrder s i) (e'.untrackOrder s i) where
  __ := h
  sessionOrders := by
    simp only [MatchingEngine.untrackOrder, h.sessionOrders]
  orderToSession := by
    simp only [MatchingEngine.untrackOrder, h.orderToSession]
  orderToClientOrderId := by
    simp only [MatchingEngine.untrackOrder, h.orderToClientOrderId]

theorem authorize (h : σ.SameEngine flags e e') (s : SessionId) (i : OrderId) :
    e'.authorize s i = e.authorize s i := by
  simp only [MatchingEngine.authorize, h.orderToSession]

theorem countOrder (h : σ.SameEngine flags e e') :
    σ.SameEngine flags e.countOrder e'.countOrder where
  __ := h
  ordersProcessed := by
    simp only [MatchingEngine.countOrder, h.ordersProcessed]

/-- Corresponding calls into either book. -/
theorem call (h : σ.SameEngine flags e e') {c : BookCall} (hallow : e.orderbook.Allows c)
    (hcover : CoversCall within c) :
    σ.SameEngine flags { e with orderbook := e.orderbook.call c }
      { e' with orderbook := e'.orderbook.call (σ.call c) } :=
  { h with orderbook := (h.orderbook.call hallow hcover).1 }

/-- The passive order of a trade is the same, seen from the same order. -/
theorem passiveOrderId_trade (s : Side) (t : Trade) :
    MatchingEngine.passiveOrderId (σ.buySell (buySellOf s)) (σ.trade t) =
      MatchingEngine.passiveOrderId (buySellOf s) t := by
  cases hx : σ.exchanged <;> cases s <;>
    simp [MatchingEngine.passiveOrderId, buySell, trade, buySellOf, hx]

/-- The reports of a trade, in terms of the engine before it. -/
theorem newOrderTrade_eq (s : SessionId) (order : OrderPointer) (i : OrderId) (side : BuySell)
    (e : MatchingEngine) (t : Trade) :
    MatchingEngine.newOrderTrade s order i side e t =
      let reported := ((e.recordTrade t).publishTradeUpdate t side).sendExecutionReport s i t.price
        t.quantity (e.orderbook.heap.read order).quantity side
      match e.orderToSession.lookup (MatchingEngine.passiveOrderId side t) with
      | none => reported
      | some owner => reported.sendExecutionReport owner (MatchingEngine.passiveOrderId side t)
          t.price t.quantity 0 side.opposite :=
  rfl

/-- The reports of a trade go to the same sessions with buyer and seller exchanged. -/
theorem newOrderTrade (h : σ.SameEngine flags e e') (s : SessionId) {order order' : OrderPointer}
    (hquantity : (e'.orderbook.heap.read order').quantity =
      (e.orderbook.heap.read order).quantity) (i : OrderId) (side : Side) (t : Trade) :
    σ.SameEngine (flags ++ [false]) (MatchingEngine.newOrderTrade s order i (buySellOf side) e t)
      (MatchingEngine.newOrderTrade s order' i (σ.buySell (buySellOf side)) e' (σ.trade t)) := by
  have hpublished := (h.recordTrade t).publishTradeUpdate t false
    (rfl : σ.buySell (buySellOf side) = _)
  have hreported := hpublished.sendExecutionReport s i t.price t.quantity
    (e.orderbook.heap.read order).quantity (buySellOf side)
  rw [newOrderTrade_eq, newOrderTrade_eq, passiveOrderId_trade, h.orderToSession, hquantity]
  cases e.orderToSession.lookup (MatchingEngine.passiveOrderId (buySellOf side) t) with
  | none => exact hreported
  | some owner =>
      have hpassive := hreported.sendExecutionReport owner
        (MatchingEngine.passiveOrderId (buySellOf side) t) t.price t.quantity 0
        (buySellOf side).opposite
      rw [← buySell_opposite] at hpassive
      exact hpassive

/-- So do the reports of all trades of an order, one after another. -/
theorem foldl_newOrderTrade (h : σ.SameEngine flags e e') (s : SessionId)
    {order order' : OrderPointer} (hquantity : (e'.orderbook.heap.read order').quantity =
      (e.orderbook.heap.read order).quantity) (i : OrderId) (side : Side) (trades : List Trade) :
    σ.SameEngine (flags ++ trades.map fun _ => false)
      (trades.foldl (MatchingEngine.newOrderTrade s order i (buySellOf side)) e)
      ((trades.map σ.trade).foldl
        (MatchingEngine.newOrderTrade s order' i (σ.buySell (buySellOf side))) e') := by
  induction trades generalizing e e' flags with
  | nil => exact (List.append_nil flags).symm ▸ h
  | cons t trades ih =>
      rw [List.map_cons, List.append_cons]
      refine ih (h.newOrderTrade s hquantity i side t) ?_
      have hcore := MatchingEngine.core_newOrderTrade s order i (buySellOf side) e t
      have hcore' := MatchingEngine.core_newOrderTrade s order' i (σ.buySell (buySellOf side)) e'
        (σ.trade t)
      rw [show (MatchingEngine.newOrderTrade s order i (buySellOf side) e t).orderbook = e.orderbook
          from congrArg EngineCore.orderbook hcore,
        show (MatchingEngine.newOrderTrade s order' i (σ.buySell (buySellOf side)) e'
          (σ.trade t)).orderbook = e'.orderbook from congrArg EngineCore.orderbook hcore']
      exact hquantity

/-- **The aggressor of a trade** in the loop of a modify: on the relabeled side, unless the trade is
not one of the modified order with another one. -/
theorem aggressor_trade (i : OrderId) (t : Trade) :
    (if (σ.trade t).buyOrderId = i then BuySell.buy else .sell) =
      if decide (t.buyOrderId = i ↔ t.sellOrderId = i) = true then
        if t.buyOrderId = i then .buy else .sell
      else σ.buySell (if t.buyOrderId = i then .buy else .sell) := by
  by_cases hown : t.buyOrderId = i ↔ t.sellOrderId = i
  · rw [if_pos (decide_eq_true hown)]
    cases hx : σ.exchanged with
    | false => simp only [trade, hx, Bool.false_eq_true, if_false]
    | true => simp only [trade, hx, if_true, hown]
  · rw [if_neg (fun h => hown (of_decide_eq_true h))]
    cases hx : σ.exchanged with
    | false => simp [trade, buySell, hx]
    | true =>
        by_cases hbuy : t.buyOrderId = i
        · have hsell : ¬ t.sellOrderId = i := fun hsell => hown (iff_of_true hbuy hsell)
          simp [trade, buySell, hx, hbuy, hsell]
        · have hsell : t.sellOrderId = i := by
            by_contra hsell
            exact hown (iff_of_false hbuy hsell)
          simp [trade, buySell, hx, hbuy, hsell]

theorem foldl_modifyOrderTrade (h : σ.SameEngine flags e e') (i : OrderId) (trades : List Trade)
    (echo : Trade → Bool)
    (hecho : ∀ t ∈ trades, echo t = decide (t.buyOrderId = i ↔ t.sellOrderId = i)) :
    σ.SameEngine (flags ++ trades.map echo)
      (trades.foldl (MatchingEngine.modifyOrderTrade i) e)
      ((trades.map σ.trade).foldl (MatchingEngine.modifyOrderTrade i) e') := by
  induction trades generalizing e e' flags with
  | nil => exact (List.append_nil flags).symm ▸ h
  | cons t trades ih =>
      obtain ⟨ht, htrades⟩ := List.forall_mem_cons.mp hecho
      rw [List.map_cons, List.append_cons, ht]
      exact ih ((h.recordTrade t).publishTradeUpdate t _ (aggressor_trade i t)) htrades

section NewOrder

variable {request : NewOrderRequest} {side : Side} {orderType : OrderType}

/-- What comes after the trades is alike too: the orders have the same status on both sides. -/
theorem finishNewOrder (h : σ.SameEngine flags e e') (s : SessionId)
    (clientOrderId : ClientOrderId) {order order' : OrderPointer}
    (hquantity : (e'.orderbook.heap.read order').quantity =
      (e.orderbook.heap.read order).quantity)
    (hstatus : (e'.orderbook.heap.read order').orderStatus =
      (e.orderbook.heap.read order).orderStatus) (i : OrderId) :
    σ.SameEngine (flags ++ [false]) (e.finishNewOrder s clientOrderId order i)
      (e'.finishNewOrder s clientOrderId order' i) := by
  have hacked : σ.SameEngine flags
      (e.sendOrderAck s clientOrderId i (e.orderbook.heap.read order).orderStatus)
      (e'.sendOrderAck s clientOrderId i (e'.orderbook.heap.read order').orderStatus) := by
    refine h.pushOutbound s ?_
    rw [h.header, hstatus]
    rfl
  have hgone : ((e'.orderbook.heap.read order').isFilled = true ∨
        (e'.orderbook.heap.read order').orderStatus = .cancelled) ↔
      ((e.orderbook.heap.read order).isFilled = true ∨
        (e.orderbook.heap.read order).orderStatus = .cancelled) := by
    rw [Order.isFilled, Order.isFilled, hquantity, hstatus]
  simp only [MatchingEngine.finishNewOrder, hgone]
  refine publishTickUpdate ?_
  split
  · exact hacked.untrackOrder s i
  · exact hacked

/-- **An accepted order** is handled alike by both engines, and both tell its client the same. -/
theorem acceptNewOrder (h : σ.SameEngine flags e e') (s : SessionId)
    (hallow : e.orderbook.Allows (.addOrder (e.newOrder s request (buySellOf side) orderType)))
    (hcover : CoversCall within (.addOrder (e.newOrder s request (buySellOf side) orderType))) :
    σ.SameEngine
      (flags ++ ((e.orderbook.call
        (.addOrder (e.newOrder s request (buySellOf side) orderType))).trades.map fun _ => false) ++
          [false])
      (e.acceptNewOrder s request (buySellOf side) orderType)
      (e'.acceptNewOrder s (σ.newOrderRequest request) (σ.buySell (buySellOf side)) orderType) := by
  have hcall : BookCall.addOrder (e'.newOrder s (σ.newOrderRequest request)
      (σ.buySell (buySellOf side)) orderType) =
      σ.call (.addOrder (e.newOrder s request (buySellOf side) orderType)) := by
    simp only [MatchingEngine.newOrder, h.nextOrderId, h.clock]
    rfl
  have hentered : σ.SameEngine flags (e.enterOrder s request (buySellOf side) orderType)
      (e'.enterOrder s (σ.newOrderRequest request) (σ.buySell (buySellOf side)) orderType) := by
    have hnext : σ.SameEngine flags
        { e with nextOrderId := e.nextOrderId + 1, clock := fun n => e.clock (n + 1) }
        { e' with nextOrderId := e'.nextOrderId + 1, clock := fun n => e'.clock (n + 1) } :=
      { h with nextOrderId := by rw [h.nextOrderId], clock := by rw [h.clock] }
    have hbooked := hnext.call hallow hcover
    rw [← hcall] at hbooked
    exact hbooked.trackOrder s h.nextOrderId request.clientOrderId
  obtain ⟨hquantity, hstatus⟩ := h.orderbook.read_addOrder hallow hcover rfl
  rw [show BookCall.addOrder (σ.order (e.newOrder s request (buySellOf side) orderType)) =
    σ.call (.addOrder (e.newOrder s request (buySellOf side) orderType)) from rfl, ← hcall,
    ← MatchingEngine.orderbook_enterOrder, ← MatchingEngine.orderbook_enterOrder]
    at hquantity hstatus
  have hreported := hentered.foldl_newOrderTrade s hquantity e.nextOrderId side
    (e.enterOrder s request (buySellOf side) orderType).orderbook.trades
  have hbook : ∀ (e : MatchingEngine) order i side (trades : List Trade),
      (trades.foldl (MatchingEngine.newOrderTrade s order i side) e).orderbook = e.orderbook :=
    fun e order i side trades => congrArg EngineCore.orderbook
      (MatchingEngine.core_foldl_newOrderTrade s order i side e trades)
  have hfinished := @finishNewOrder within σ _ _ _ hreported s request.clientOrderId
    e.orderbook.heap.next e'.orderbook.heap.next (by rw [hbook, hbook]; exact hquantity)
    (by rw [hbook, hbook]; exact hstatus) e.nextOrderId
  simp only [MatchingEngine.acceptNewOrder, hentered.orderbook.trades, h.nextOrderId]
  exact hfinished

end NewOrder

/-- The checks of a modify give the same result. -/
theorem checkModifyOrder (h : σ.SameEngine flags e e') (s : SessionId)
    (request : ModifyOrderRequest) :
    e'.checkModifyOrder s (σ.modifyOrderRequest request) = e.checkModifyOrder s request := by
  simp only [MatchingEngine.checkModifyOrder, modifyOrderRequest, σ.nonpos_iff, h.authorize]
  cases e.authorize s request.orderId <;> rfl

/-- **A modify that is carried out** is handled alike, but for the trade updates of a modify without
effect, which republish what is left from an earlier call. -/
theorem acceptModifyOrder (h : σ.SameEngine flags e e') (s : SessionId)
    {request : ModifyOrderRequest} {c : BookCall}
    (hc : c = .modifyOrder request.orderId request.newPrice request.newQuantity)
    (hallow : e.orderbook.Allows c) (hcover : within request.newPrice) :
    σ.SameEngine
      (flags ++ ((e.orderbook.call c).trades.map fun t => (e.orderbook.entering? c).isNone &&
        decide (t.buyOrderId = request.orderId ↔ t.sellOrderId = request.orderId)) ++ [false])
      (e.acceptModifyOrder s request)
      (e'.acceptModifyOrder s (σ.modifyOrderRequest request)) := by
  subst hc
  have hmodified := h.call hallow hcover
  have htrades := trades_call h.orderbook.wf
    (.modifyOrder request.orderId request.newPrice request.newQuantity)
  have hreported := hmodified.foldl_modifyOrderTrade request.orderId
    (e.orderbook.call
      (.modifyOrder request.orderId request.newPrice request.newQuantity)).trades
    (fun t => (e.orderbook.entering?
      (.modifyOrder request.orderId request.newPrice request.newQuantity)).isNone &&
        decide (t.buyOrderId = request.orderId ↔ t.sellOrderId = request.orderId)) ?_
  · rw [← hmodified.orderbook.trades] at hreported
    exact (hreported.sendModifyAck s request.clientOrderId request.orderId request.newPrice
      request.newQuantity).publishTickUpdate
  · intro t ht
    rw [htrades] at ht
    split at ht
    · -- a trade that the call has made is one of its order with another order
      have hown : ¬ (t.buyOrderId = request.orderId ↔ t.sellOrderId = request.orderId) :=
        (trades_of_call h.orderbook.wf hallow ht).2
      rw [decide_eq_false hown, Bool.and_false]
    · rename_i hnone
      rw [Bool.not_eq_true, Option.isSome_eq_false_iff] at hnone
      rw [hnone, Bool.true_and]

/-- A new order is refused by both engines for the same reason, or by neither. -/
theorem handleNewOrder (h : σ.SameEngine flags e e') (s : SessionId) {request : NewOrderRequest}
    (hallow : ∀ c, e.bookCall? ⟨s, .newOrder request⟩ = some c → e.orderbook.Allows c)
    (hcover : 0 < request.price → within request.price) :
    σ.SameEngine (flags ++ e.echoes ⟨s, .newOrder request⟩) (e.handleNewOrder s request)
      (e'.handleNewOrder s (σ.newOrderRequest request)) := by
  simp only [MatchingEngine.handleNewOrder, checkNewOrder_newOrderRequest]
  cases hcheck : MatchingEngine.checkNewOrder request with
  | error reason =>
      have hcall : e.bookCall? ⟨s, .newOrder request⟩ = none := by
        simp only [MatchingEngine.bookCall?, hcheck]
      rw [MatchingEngine.echoes, hcall, List.append_nil]
      exact h.countOrder.sendOrderReject s request.clientOrderId reason
  | ok x =>
      obtain ⟨side, orderType⟩ := x
      have hcall : e.bookCall? ⟨s, .newOrder request⟩ =
          some (.addOrder (e.newOrder s request side orderType)) := by
        simp only [MatchingEngine.bookCall?, hcheck]
      have hallowed := hallow _ hcall
      obtain ⟨-, ⟨t, rfl⟩, htype, -, hprice⟩ := MatchingEngine.checkNewOrder_eq_ok hcheck
      simp only [MatchingEngine.echoes, hcall]
      rw [← List.append_assoc]
      refine h.countOrder.acceptNewOrder s hallowed fun haggr => ?_
      -- only a limit order rests, and its price has been checked
      rcases htype with rfl | rfl | rfl
      · exact hcover (hprice rfl)
      · cases haggr
      · cases haggr

/-- A cancel looks at ids only. -/
theorem handleCancelOrder (h : σ.SameEngine flags e e') (s : SessionId)
    (request : CancelOrderRequest) :
    σ.SameEngine (flags ++ e.echoes ⟨s, .cancelOrder request⟩) (e.handleCancelOrder s request)
      (e'.handleCancelOrder s request) := by
  simp only [MatchingEngine.handleCancelOrder, MatchingEngine.echoes, MatchingEngine.bookCall?,
    h.authorize]
  cases e.authorize s request.orderId with
  | none =>
      rw [List.append_nil]
      refine h.pushOutbound s ?_
      rw [h.header]
      rfl
  | some owner =>
      have hcancelled : σ.SameEngine flags (e.cancelTracked owner request.orderId)
          (e'.cancelTracked owner request.orderId) :=
        (h.call (c := .cancelOrder request.orderId) trivial trivial).untrackOrder owner
          request.orderId
      exact (hcancelled.sendCancelAck s request.clientOrderId request.orderId).publishTickUpdate

/-- A modify is refused by both engines for the same reason, or by neither. -/
theorem handleModifyOrder (h : σ.SameEngine flags e e') (s : SessionId)
    {request : ModifyOrderRequest}
    (hallow : ∀ c, e.bookCall? ⟨s, .modifyOrder request⟩ = some c → e.orderbook.Allows c)
    (hcover : 0 < request.newPrice → within request.newPrice) :
    σ.SameEngine (flags ++ e.echoes ⟨s, .modifyOrder request⟩) (e.handleModifyOrder s request)
      (e'.handleModifyOrder s (σ.modifyOrderRequest request)) := by
  simp only [MatchingEngine.handleModifyOrder, h.checkModifyOrder]
  cases hcheck : e.checkModifyOrder s request with
  | some reason =>
      have hcall : e.bookCall? ⟨s, .modifyOrder request⟩ = none := by
        simp only [MatchingEngine.bookCall?, hcheck]
      rw [MatchingEngine.echoes, hcall, List.append_nil]
      refine h.pushOutbound s ?_
      rw [h.header]
      rfl
  | none =>
      have hcall : e.bookCall? ⟨s, .modifyOrder request⟩ =
          some (.modifyOrder request.orderId request.newPrice request.newQuantity) := by
        simp only [MatchingEngine.bookCall?, hcheck]
      obtain ⟨-, hprice, -⟩ := MatchingEngine.checkModifyOrder_eq_none hcheck
      simp only [MatchingEngine.echoes, hcall]
      rw [← List.append_assoc]
      exact h.acceptModifyOrder s rfl (hallow _ hcall) (hcover hprice)

/-- **Every message** and its relabeled message keep two engines the same. -/
theorem processInboundMessage (h : σ.SameEngine flags e e') {msg : InboundMessage}
    (hallow : ∀ c, e.bookCall? msg = some c → e.orderbook.Allows c) (hcover : Covers within msg) :
    σ.SameEngine (flags ++ e.echoes msg) (e.processInboundMessage msg)
      (e'.processInboundMessage (σ.message msg)) := by
  obtain ⟨s, body⟩ := msg
  cases body with
  | newOrder request => exact h.handleNewOrder s hallow hcover
  | cancelOrder request => exact h.handleCancelOrder s request
  | modifyOrder request => exact h.handleModifyOrder s hallow hcover

theorem cancelForSession (h : σ.SameEngine flags e e') (i : OrderId) :
    σ.SameEngine flags (e.cancelForSession i) (e'.cancelForSession i) where
  __ := h.call (c := .cancelOrder i) trivial trivial
  orderToSession := by
    simp only [MatchingEngine.cancelForSession, h.orderToSession]
  orderToClientOrderId := by
    simp only [MatchingEngine.cancelForSession, h.orderToClientOrderId]

/-- **A bulk cancel** keeps two engines the same. -/
theorem cancelSessionOrders (h : σ.SameEngine flags e e') (s : SessionId)
    (orderIds : List OrderId) :
    σ.SameEngine (flags ++ e.inputEchoes (.cancelSession s orderIds))
      (e.cancelSessionOrders s orderIds) (e'.cancelSessionOrders s orderIds) := by
  have hfold : σ.SameEngine flags (orderIds.foldl MatchingEngine.cancelForSession e)
      (orderIds.foldl MatchingEngine.cancelForSession e') := by
    clear s
    induction orderIds generalizing e e' with
    | nil => exact h
    | cons i orderIds ih => exact ih (h.cancelForSession i)
  have herased : σ.SameEngine flags
      { orderIds.foldl MatchingEngine.cancelForSession e with
        sessionOrders := (orderIds.foldl MatchingEngine.cancelForSession e).sessionOrders.erase s }
      { orderIds.foldl MatchingEngine.cancelForSession e' with
        sessionOrders :=
          (orderIds.foldl MatchingEngine.cancelForSession e').sessionOrders.erase s } :=
    { hfold with sessionOrders := by rw [hfold.sessionOrders] }
  simp only [MatchingEngine.cancelSessionOrders, MatchingEngine.inputEchoes]
  split
  · rw [List.append_nil]
    exact herased
  · exact herased.publishTickUpdate

end SameEngine

/-! ### Two changes of prices -/

theorem toInt_mirrored {p : Price} (hp : 0 < p) :
    (Int32.minValue - p).toInt = 2 ^ 31 - p.toInt := by
  have hpos : 0 < p.toInt := Int32.lt_iff_toInt_lt.mp hp
  have hlt := Int32.toInt_lt p
  have hmin : Int32.minValue.toInt = -2 ^ 31 := by decide
  rw [Int32.toInt_sub, hmin, Int.bmod_def]
  split <;> omega

/-- **The mirror**: buyers and sellers are exchanged, and a price `p` becomes `2 ^ 31 - p`, so that
the order of all positive prices is reversed. -/
def mirror : PriceChange fun p => 0 < p where
  exchanged := true
  price p := if 0 < p then Int32.minValue - p else 0
  better_iff := by
    intro s p q hp hq
    have hlt : ∀ {p q : Price}, 0 < p → 0 < q →
        (Int32.minValue - p < Int32.minValue - q ↔ q < p) := by
      intro p q hp hq
      rw [Int32.lt_iff_toInt_lt, Int32.lt_iff_toInt_lt, toInt_mirrored hp, toInt_mirrored hq]
      omega
    simp only [if_pos hp, if_pos hq]
    cases s with
    | bid => exact hlt hp hq
    | ask => exact hlt hq hp
  injOn := by
    intro p q hp hq heq
    simp only [if_pos hp, if_pos hq] at heq
    have hsame := congrArg Int32.toInt heq
    rw [toInt_mirrored hp, toInt_mirrored hq] at hsame
    exact Int32.toInt_inj.mp (by omega)
  zero := rfl
  pos := by
    intro p
    by_cases hp : 0 < p
    · have hlt := Int32.toInt_lt p
      refine iff_of_true ?_ hp
      rw [if_pos hp, Int32.lt_iff_toInt_lt, toInt_mirrored hp, Int32.toInt_zero]
      omega
    · refine iff_of_false ?_ hp
      rw [if_neg hp]
      exact Int32.lt_irrefl

theorem toInt_scaled {k : ℕ} {p : Price} (h : 0 < p ∧ p.toInt * k < 2 ^ 31) :
    (Int32.ofInt (p.toInt * k)).toInt = p.toInt * k := by
  have hpos : 0 < p.toInt := Int32.lt_iff_toInt_lt.mp h.1
  have hmul : 0 ≤ p.toInt * k := Int.mul_nonneg (Int.le_of_lt hpos) (Int.natCast_nonneg k)
  exact Int32.toInt_ofInt_of_le (by omega) h.2

/-- **A finer tick size**: prices are multiplied by `k`, as far as they fit in 32 bits then. -/
def scaled (k : ℕ) (hk : 0 < k) : PriceChange fun p => 0 < p ∧ p.toInt * k < 2 ^ 31 where
  exchanged := false
  price p := if 0 < p ∧ p.toInt * k < 2 ^ 31 then .ofInt (p.toInt * k) else p
  better_iff := by
    intro s p q hp hq
    have hlt : ∀ {p q : Price}, (0 < p ∧ p.toInt * k < 2 ^ 31) →
        (0 < q ∧ q.toInt * k < 2 ^ 31) →
        (Int32.ofInt (p.toInt * k) < Int32.ofInt (q.toInt * k) ↔ p < q) := by
      intro p q hp hq
      rw [Int32.lt_iff_toInt_lt, Int32.lt_iff_toInt_lt, toInt_scaled hp, toInt_scaled hq]
      exact Int.mul_lt_mul_right (Int.natCast_pos.mpr hk)
    simp only [if_pos hp, if_pos hq]
    cases s with
    | bid => exact hlt hq hp
    | ask => exact hlt hp hq
  injOn := by
    intro p q hp hq heq
    simp only [if_pos hp, if_pos hq] at heq
    have hsame := congrArg Int32.toInt heq
    rw [toInt_scaled hp, toInt_scaled hq] at hsame
    exact Int32.toInt_inj.mp (Int.eq_of_mul_eq_mul_right (by omega) hsame)
  zero := rfl
  pos := by
    intro p
    by_cases hp : 0 < p ∧ p.toInt * k < 2 ^ 31
    · refine iff_of_true ?_ hp.1
      have hpos : 0 < p.toInt := Int32.lt_iff_toInt_lt.mp hp.1
      rw [if_pos hp, Int32.lt_iff_toInt_lt, toInt_scaled hp, Int32.toInt_zero]
      exact Int.mul_pos hpos (Int.natCast_pos.mpr hk)
    · rw [if_neg hp]

theorem covers_mirror (input : Input) : CoversInput (fun p => 0 < p) input := by
  cases input with
  | cancelSession s orderIds => trivial
  | message msg =>
      obtain ⟨s, body⟩ := msg
      cases body with
      | newOrder request => exact id
      | cancelOrder request => trivial
      | modifyOrder request => exact id

end PriceChange

/-! ### Runs -/

/-- **Prices are names, and the sides are alike.** An exchange that is sent the messages of a run
under other prices, in the same order or, with the sides exchanged, in the opposite order, is in a
state that corresponds: its book, its trades, its responses, its market data and its tracking are
the relabeled ones. Only a trade that a modify without effect publishes again keeps its aggressor
side, if it is not between the modified order and another one. -/
theorem exchange_symmetric {within : Price → Prop} (σ : PriceChange within) (symbol : List UInt8)
    (clock : ℕ → Timestamp) (past : List Input) (h : acceptedCount past < 2 ^ 64)
    (hcover : ∀ input ∈ past, PriceChange.CoversInput within input) :
    σ.SameEngine (echoes symbol clock past) (run symbol clock past)
      (run symbol clock (past.map σ.input)) := by
  induction past with
  | nil => exact .fresh symbol clock
  | cons input past ih =>
      have hcount : acceptedCount (input :: past) =
          acceptedCount past + if input.isAccepted then 1 else 0 :=
        List.countP_cons ..
      obtain ⟨hinput, hrest⟩ := List.forall_mem_cons.mp hcover
      have hpast := ih (by omega) hrest
      cases input with
      | message msg =>
          have hinv := run_inv symbol clock past (by omega)
          exact hpast.processInboundMessage (fun c hcall => hinv.allows (hcount ▸ h) hcall) hinput
      | cancelSession s orderIds => exact hpast.cancelSessionOrders s orderIds

theorem exchange_symmetric_replacedRun :
    PriceChange.mirror.SameEngine (echoes [] (fun _ => 0) replacedRun)
        (run [] (fun _ => 0) replacedRun)
        (run [] (fun _ => 0) (replacedRun.map PriceChange.mirror.input)) ∧
      (PriceChange.scaled 10 (by decide)).SameEngine (echoes [] (fun _ => 0) replacedRun)
        (run [] (fun _ => 0) replacedRun)
        (run [] (fun _ => 0) (replacedRun.map (PriceChange.scaled 10 (by decide)).input)) := by
  refine ⟨exchange_symmetric PriceChange.mirror [] (fun _ => 0) replacedRun (by decide)
    fun input _ => PriceChange.covers_mirror input,
    exchange_symmetric (PriceChange.scaled 10 (by decide)) [] (fun _ => 0) replacedRun (by decide)
      ?_⟩
  simp only [replacedRun, List.forall_mem_cons]
  exact ⟨trivial, trivial, fun _ => by decide, fun _ => by decide,
    fun hpos => absurd hpos (by decide), fun _ => by decide,
    fun _ hin => absurd hin List.not_mem_nil⟩

/-- A BUY and a SELL order that trade, and a modify without effect of a third order. -/
def republishingRun : List Input :=
  [.message (modifyOrderMessage 3 1 90 1), .message (limitOrderMessage 2 .sell 100 5),
    .message (limitOrderMessage 1 .buy 100 5), .message (limitOrderMessage 3 .buy 90 1)]

/-- The trade that is published again keeps its aggressor side, and no other one does. -/
example : echoes [] (fun _ => 0) republishingRun = [false, false, false, false, true, false] ∧
    (run [] (fun _ => 0) (republishingRun.map PriceChange.mirror.input)).feedQueue ≠
      (run [] (fun _ => 0) republishingRun).feedQueue.map PriceChange.mirror.marketData := by
  decide +kernel

end ExchangeEngine
