import ExchangeEngine.Crossing
import ExchangeEngine.Lib.Execution

/-!
# Best Execution

What a request gets from the book, in every state of every run.

The trades of a message are the fills of one sweep along the opposite orders. So no better way of
filling the order exists: within every limit that the order accepts it trades as much as its
quantity and the opposite orders within that limit allow, and it walks along the opposite side from
its front, closing every order that it trades with before it comes to the next.

## Main results

* `best_execution`: within every limit, a message trades as much as possible.
* `walks_book`: its trades are with the first opposite orders, in their order, at their prices; all
  but the last take the whole of them, and the book keeps what is left and the other orders.
-/

open PriceTime

namespace ExchangeEngine

/-- Whether a price is no worse than `limit` for an order of side `side`. -/
def BuySell.noWorse (side : BuySell) (limit price : Price) : Bool :=
  match side with
  | .buy => decide (price ≤ limit)
  | .sell => decide (limit ≤ price)
  | .default => false

/-- The quantity that trades execute at prices no worse than `limit`. -/
def tradedWithin (side : BuySell) (limit : Price) (trades : List Trade) : ℕ :=
  ((trades.filter fun t => side.noWorse limit t.price).map fun t => t.quantity.toNat).sum

/-- The resting order that a trade is with, for an incoming order of side `side`. -/
def Trade.passiveOrderId (t : Trade) (side : BuySell) : OrderId :=
  if side = .buy then t.sellOrderId else t.buyOrderId

@[simp] theorem passiveOrderId_tradeOf (s : Side) (orderId : OrderId) (f : BookFill) :
    (tradeOf (buySellOf s) orderId f).passiveOrderId (buySellOf s) = f.offer.id := by
  cases s <;> rfl

/-- A better price than one that is no worse is no worse. -/
theorem noWorse_of_better {s : Side} {limit x y : Price} (hxy : s.contra.better x y)
    (hy : (buySellOf s).noWorse limit y = true) : (buySellOf s).noWorse limit x = true := by
  cases s with
  | bid =>
      simp only [BuySell.noWorse, buySellOf, decide_eq_true_eq] at hy ⊢
      exact Int32.le_trans (Int32.le_of_lt hxy) hy
  | ask =>
      simp only [BuySell.noWorse, buySellOf, decide_eq_true_eq] at hy ⊢
      exact Int32.le_trans hy (Int32.le_of_lt hxy)

/-- Of two prices of which the second is not better, the first is no worse. -/
theorem noWorse_of_not_better {s : Side} {x y : Price} (h : ¬ s.contra.better y x) :
    (buySellOf s).noWorse y x = true := by
  cases s with
  | bid => exact decide_eq_true (Int32.not_lt.mp h)
  | ask => exact decide_eq_true (Int32.not_lt.mp h)

/-- An order accepts every price that is no worse than one that it accepts. -/
theorem accepts_of_noWorse {o : Order} {s : Side} {limit price : Price}
    (hlimit : o.accepts (buySellOf s) limit = true)
    (hprice : (buySellOf s).noWorse limit price = true) :
    o.accepts (buySellOf s) price = true := by
  by_cases htype : o.orderType = .market ∨ o.orderType = .ioc
  · simp [Order.accepts, priceCrossed, htype]
  · cases s with
    | bid =>
        simp only [Order.accepts, priceCrossed, htype, BuySell.noWorse, buySellOf, if_true,
          if_false, decide_eq_true_eq] at hlimit hprice ⊢
        exact Int32.le_trans hprice hlimit
    | ask =>
        simp only [Order.accepts, priceCrossed, htype, BuySell.noWorse, buySellOf, reduceCtorEq,
          if_true, if_false, decide_eq_true_eq] at hlimit hprice ⊢
        exact Int32.le_trans hlimit hprice

namespace Orderbook

variable {b b' : Orderbook} {c : BookCall} {o : Order} {s : Side}

/-- The quantity that rests opposite to an order of side `side` at prices no worse than `limit`. -/
def restingWithin (b : Orderbook) (side : BuySell) (limit : Price) : ℕ :=
  (((b.opposite side).filter fun r => side.noWorse limit r.price).map
    fun r => r.quantity.toNat).sum

theorem restingWithin_eq (b : Orderbook) (s : Side) (limit : Price) :
    b.restingWithin (buySellOf s) limit =
      offeredWithin ((buySellOf s).noWorse limit) (b.view.side s.contra) := by
  rw [restingWithin, offeredWithin, ← map_offer_opposite, List.filter_map, List.map_map]
  rfl

/-- The fills of the sweep along the opposite orders execute 32-bit quantities. -/
theorem executed_lt_of_mem {ok : Price → Bool} {q : ℕ} {f : BookFill}
    (hf : f ∈ (sweep ok q ((b.opposite (buySellOf s)).map Order.offer)).fills) :
    f.executed < 2 ^ 32 := by
  obtain ⟨hmem, -, hle, -⟩ := mem_sweep_fills hf
  obtain ⟨r, -, hr⟩ := List.mem_map.mp hmem
  rw [← hr] at hle
  exact Nat.lt_of_le_of_lt hle (UInt32.toNat_lt _)

/-- **A call trades within every accepted limit as much as possible.** -/
theorem Executes.tradedWithin_eq (h : b.Executes c o s)
    (hord : b.view.Ordered fun _ _ => True) {limit : Price}
    (hlimit : o.accepts (buySellOf s) limit = true) :
    tradedWithin (buySellOf s) limit (b.callTrades c) =
      min o.quantity.toNat (b.restingWithin (buySellOf s) limit) := by
  have hprice : ∀ f : BookFill, (buySellOf s).noWorse limit
      (tradeOf (buySellOf s) o.orderId f).price =
        (buySellOf s).noWorse limit f.offer.price := fun _ => rfl
  have hbest := sweep_executed_within (hord s.contra)
    (fun _ _ hxy hy => noWorse_of_better hxy hy)
    (fun _ hprice => accepts_of_noWorse hlimit hprice) o.quantity.toNat
  have hqty : ∀ f ∈ (sweep (o.accepts (buySellOf s)) o.quantity.toNat
      ((b.opposite (buySellOf s)).map Order.offer)).fills,
      (tradeOf (buySellOf s) o.orderId f).quantity.toNat = f.executed :=
    fun f hf => UInt32.toNat_ofNat_of_lt' (executed_lt_of_mem hf)
  rw [restingWithin_eq, ← hbest, tradedWithin, h.trades, List.filter_map, List.map_map,
    executedWithin, ← map_offer_opposite]
  refine congrArg List.sum (List.map_congr_left fun f hf => ?_)
  exact hqty f (List.mem_of_mem_filter hf)

/-- What a trade leaves of the resting order that it is with; nothing, if it takes all of it. -/
def leftBy (t : Trade) (r : Order) : Option BookOffer :=
  if t.quantity = r.quantity then none
  else some { r.offer with qty := r.quantity.toNat - t.quantity.toNat }

/-- **What it means that trades walk along the book** `b` for the order `o`, and leave `b'`. -/
structure WalksBook (b : Orderbook) (o : Order) (trades : List Trade) (b' : Orderbook) :
    Prop where
  /-- Of the opposite orders the first are hit, one by each trade, in their order and at their
  prices. All trades but the last take the whole of them and leave something of the order. The book
  keeps what the trades leave of those orders, and behind it the others. -/
  walk : ∃ hit kept, b.opposite o.buySell = hit ++ kept ∧
    List.Forall₂ (fun t r => t.passiveOrderId o.buySell = r.orderId ∧ t.price = r.price ∧
      t.quantity ≤ r.quantity) trades hit ∧
    List.Forall₂ (fun t r => t.quantity = r.quantity ∧ t.tradeType = .partial_)
      trades.dropLast hit.dropLast ∧
    (b'.opposite o.buySell).map Order.offer =
      (List.zipWith leftBy trades hit).reduceOption ++ kept.map Order.offer
  /-- Prices get no better from one trade to the next. -/
  prices : trades.Pairwise fun t u => o.buySell.noWorse u.price t.price = true
  /-- An opposite order of which a trade takes the whole is gone. -/
  closed : ∀ t ∈ trades, ∀ r ∈ b.opposite o.buySell, t.passiveOrderId o.buySell = r.orderId →
    t.quantity = r.quantity → r.orderId ∉ b'.view.ids

/-- The quantity of the trade of a fill. -/
theorem toNat_quantity_tradeOf {f : BookFill} {r : Order} (orderId : OrderId)
    (hr : r.offer = f.offer) (hle : f.executed ≤ f.offer.qty) :
    (tradeOf (buySellOf s) orderId f).quantity.toNat = f.executed := by
  have hqty : r.quantity.toNat = f.offer.qty := congrArg Offer.qty hr
  exact UInt32.toNat_ofNat_of_lt' (Nat.lt_of_le_of_lt hle (hqty ▸ UInt32.toNat_lt _))

/-- A trade takes of the order that it is with what the fill takes of the offer. -/
theorem leftBy_tradeOf {f : BookFill} {r : Order} (orderId : OrderId) (hr : r.offer = f.offer)
    (hle : f.executed ≤ f.offer.qty) :
    leftBy (tradeOf (buySellOf s) orderId f) r = f.remainder := by
  have hqty : r.quantity.toNat = f.offer.qty := congrArg Offer.qty hr
  simp only [leftBy, Fill.remainder, ← UInt32.toNat_inj, toNat_quantity_tradeOf orderId hr hle,
    hqty, hr]

/-- The fills of a sweep and the opposite orders that it hits, one by one. -/
theorem forall₂_of_map_eq {fills : List BookFill} {hit : List Order}
    (h : hit.map Order.offer = fills.map Fill.offer) :
    List.Forall₂ (fun f r => r.offer = f.offer) fills hit := by
  have heq := List.forall₂_eq_eq_eq (α := BookOffer) ▸ h.symm
  rw [List.forall₂_map_left_iff, List.forall₂_map_right_iff] at heq
  exact heq.imp fun _ _ hfr => hfr.symm

/-- What the trades of a sweep leave of the orders that it hits. -/
theorem zipWith_leftBy {fills : List BookFill} {hit : List Order} (orderId : OrderId)
    (hhit : List.Forall₂ (fun f r => r.offer = f.offer) fills hit)
    (hle : ∀ f ∈ fills, f.executed ≤ f.offer.qty) :
    (List.zipWith leftBy (fills.map (tradeOf (buySellOf s) orderId)) hit).reduceOption =
      fills.filterMap Fill.remainder := by
  induction hhit with
  | nil => rfl
  | cons hr htail ih =>
      rename_i f r fills hit
      obtain ⟨hf, hfills⟩ := List.forall_mem_cons.mp hle
      rw [List.map_cons, List.zipWith_cons_cons, leftBy_tradeOf orderId hr hf,
        List.filterMap_cons, ← ih hfills]
      cases f.remainder <;> rfl

/-- An opposite order that a call closes is gone. -/
theorem notMem_ids_of_closed {order : OrderPointer}
    (hent : b.entering? c = some (b', order)) (henters : b.Enters c b' order s) {f : BookFill}
    (hf : f ∈ (b'.sweepBy order s).fills) (hclosed : f.executed = f.offer.qty) :
    f.offer.id ∉ (b.call c).view.ids := by
  have hadded := addToBook_spec henters.detached henters.addable
  rw [call_of_entering hent, hadded.view]
  have hmem : f.offer.id ∈ (b'.view.side s.contra).map Offer.id :=
    List.mem_map_of_mem (mem_sweep_fills hf).1
  obtain ⟨-, hnd, hdisj⟩ := (Book.nodup_ids_iff s).mp henters.detached.nodup_ids
  have hne : f.offer.id ≠ (b'.heap.read order).offer.id := fun heq =>
    henters.detached.id_notMem (Book.mem_ids.mpr ⟨s.contra, _, (mem_sweep_fills hf).1, heq⟩)
  rw [Book.mem_ids_submit_of_ne hne]
  rintro (hown | hrest)
  · exact hdisj hown hmem
  · exact notMem_rest_of_closed hnd hf hclosed hrest

/-- **A call walks along the book.** -/
theorem walksBook_call (h : b.Wf) (hallow : b.Allows c) (hord : b.view.Ordered fun _ _ => True)
    (hincoming : b.incoming? c = some o) :
    b.WalksBook o (b.callTrades c) (b.call c) := by
  obtain ⟨⟨b', order⟩, hent, rfl⟩ := Option.map_eq_some_iff.mp hincoming
  obtain ⟨s, henters⟩ := enters_of_entering h hallow hent
  have hadded := addToBook_spec henters.detached henters.addable
  have hside : (b'.heap.read order).buySell = buySellOf s := henters.addable.buySell
  have hcontra : b'.view.side s.contra = b.view.side s.contra := Enters.contra h hallow henters
  have hord' : InPriority s.contra.better (fun _ _ => True) (b'.view.side s.contra) :=
    hcontra ▸ hord s.contra
  have htrades : b.callTrades c = (b'.sweepBy order s).fills.map
      (tradeOf (buySellOf s) (b'.heap.read order).orderId) := by
    rw [callTrades, hent]
    exact hadded.trades
  have hle : ∀ f ∈ (b'.sweepBy order s).fills, f.executed ≤ f.offer.qty :=
    fun f hf => (mem_sweep_fills hf).2.2.1
  obtain ⟨kept', hwalks, hrest⟩ : ∃ kept',
      b'.view.side s.contra = (b'.sweepBy order s).fills.map Fill.offer ++ kept' ∧
      (b'.sweepBy order s).rest = (b'.sweepBy order s).fills.filterMap Fill.remainder ++ kept' :=
    sweep_walks _ _ _
  rw [htrades]
  refine ⟨?_, ?_, ?_⟩ <;> simp only [hside]
  · rw [hcontra, ← map_offer_opposite] at hwalks
    obtain ⟨hit, kept, hopposite, hmap, rfl⟩ := List.map_eq_append_iff.mp hwalks
    have hhit := forall₂_of_map_eq hmap
    have hlast : List.Forall₂ (fun f r => r.offer = f.offer)
        (b'.sweepBy order s).fills.dropLast hit.dropLast := by
      refine forall₂_of_map_eq ?_
      rw [List.map_dropLast, List.map_dropLast, hmap]
    refine ⟨hit, kept, hopposite, ?_, ?_, ?_⟩
    · rw [List.forall₂_map_left_iff]
      refine ((List.forall₂_and_left _ _).mpr ⟨hle, hhit⟩).imp fun f r hboth => ?_
      obtain ⟨hexecuted, hr⟩ := hboth
      rw [passiveOrderId_tradeOf, ← hr]
      refine ⟨rfl, (congrArg Offer.price hr).symm, UInt32.le_iff_toNat_le.mpr ?_⟩
      rw [toNat_quantity_tradeOf _ hr hexecuted]
      exact hexecuted.trans_eq (congrArg Offer.qty hr).symm
    · rw [← List.map_dropLast, List.forall₂_map_left_iff]
      refine ((List.forall₂_and_left _ _).mpr ⟨fun f hf => closed_of_mem_dropLast hf, hlast⟩).imp
        fun f r hboth => ?_
      obtain ⟨⟨hclosed, hleft⟩, hr⟩ := hboth
      refine ⟨?_, if_neg fun hfull => hleft hfull.2⟩
      rw [← UInt32.toNat_inj, toNat_quantity_tradeOf _ hr hclosed.le, hclosed, ← hr]
      rfl
    · rw [zipWith_leftBy _ hhit hle, map_offer_opposite, call_of_entering hent, hadded.view,
        Book.side_contra_submit]
      exact hrest
  · rw [List.pairwise_map]
    exact (pairwise_fills hord' _ _).imp fun hworse => noWorse_of_not_better hworse
  · intro t ht r hr hid hqty
    obtain ⟨f, hf, rfl⟩ := List.mem_map.mp ht
    obtain ⟨hmem, -⟩ := mem_sweep_fills hf
    rw [passiveOrderId_tradeOf] at hid
    have hrmem : r.offer ∈ b'.view.side s.contra := by
      rw [hcontra, ← map_offer_opposite]
      exact List.mem_map_of_mem hr
    obtain ⟨-, hnd, -⟩ := (Book.nodup_ids_iff s).mp henters.detached.nodup_ids
    have hsame : r.offer = f.offer :=
      List.inj_on_of_nodup_map hnd hrmem hmem hid.symm
    rw [← hid]
    refine notMem_ids_of_closed hent henters hf ?_
    rw [← UInt32.toNat_inj, toNat_quantity_tradeOf _ hsame (hle f hf)] at hqty
    rw [hqty, ← hsame]
    rfl

end Orderbook

/-! ### Runs -/

section Run

variable (symbol : List UInt8) (clock : ℕ → Timestamp)

/-- What the invariant of runs gives before a message. -/
theorem before_message {past : List Input} {msg : InboundMessage}
    (h : acceptedCount (.message msg :: past) < 2 ^ 64) :
    BookInv (run symbol clock past).orderbook (acceptedCount past) ∧
      ∀ c, (run symbol clock past).bookCall? msg = some c →
        (run symbol clock past).orderbook.Allows c := by
  have hcount : acceptedCount (.message msg :: past) = acceptedCount past +
      if MatchingEngine.isAccepted msg then 1 else 0 :=
    List.countP_cons ..
  have hinv := run_inv symbol clock past (by omega)
  exact ⟨hinv.book, fun c hcall => hinv.allows (by omega) hcall⟩

/-- **Best execution.** In every run, the order of a message trades at prices no worse than any
limit that it accepts as much as its quantity and the opposite orders within that limit allow. -/
theorem best_execution {past : List Input} {msg : InboundMessage}
    (h : acceptedCount (.message msg :: past) < 2 ^ 64) {o : Order}
    (hincoming : (run symbol clock past).incoming? msg = some o) {limit : Price}
    (hlimit : o.accepts o.buySell limit = true) :
    tradedWithin o.buySell limit ((run symbol clock past).stepTrades msg) =
      min o.quantity.toNat ((run symbol clock past).orderbook.restingWithin o.buySell limit) := by
  obtain ⟨hinv, hallow⟩ := before_message symbol clock h
  obtain ⟨c, hcall, hin⟩ := Option.bind_eq_some_iff.mp hincoming
  obtain ⟨s, hexec⟩ := Orderbook.executes_of_incoming hinv.wf (hallow c hcall) hin
  rw [MatchingEngine.stepTrades, hcall]
  rw [hexec.buySell] at hlimit ⊢
  exact hexec.tradedWithin_eq hinv.ordered hlimit

/-- A run that leaves a ladder of sell orders. -/
def ladderRun : List Input :=
  [.message (limitOrderMessage 3 .sell 103 5), .message (limitOrderMessage 2 .sell 101 6),
    .message (limitOrderMessage 1 .sell 100 4)]

/-- A request to buy 9 at no more than 102, and its order after that run. -/
def takerMessage : InboundMessage :=
  limitOrderMessage 9 .buy 102 9

/-- The order that the engine makes of the request: it takes the fourth order id, and the time is
the clock's. -/
def takerOrder : Order where
  price := 102
  quantity := 9
  timestamp := 0
  orderId := 4
  orderType := .limit
  buySell := .buy
  orderStatus := .new
  sessionId := 9
  clientOrderId := 0

theorem incoming_ladderRun :
    (run [] (fun _ => 0) ladderRun).incoming? takerMessage = some takerOrder := by
  decide +kernel

theorem best_execution_ladderRun :
    tradedWithin .buy 101 ((run [] (fun _ => 0) ladderRun).stepTrades takerMessage) =
      min 9 ((run [] (fun _ => 0) ladderRun).orderbook.restingWithin .buy 101) := by
  have hcount : acceptedCount (.message takerMessage :: ladderRun) < 2 ^ 64 := by decide
  have hlimit : takerOrder.accepts takerOrder.buySell 101 = true := by decide
  exact best_execution [] (fun _ => 0) hcount incoming_ladderRun hlimit

/-- **A message walks along the book.** In every run, its trades are with the first opposite orders,
in their order and at their prices, all but the last take the whole of them, and the book keeps what
the last leaves, and the other orders behind it. -/
theorem walks_book {past : List Input} {msg : InboundMessage}
    (h : acceptedCount (.message msg :: past) < 2 ^ 64) {o : Order}
    (hincoming : (run symbol clock past).incoming? msg = some o) :
    (run symbol clock past).orderbook.WalksBook o ((run symbol clock past).stepTrades msg)
      ((run symbol clock past).processInboundMessage msg).orderbook := by
  obtain ⟨hinv, hallow⟩ := before_message symbol clock h
  obtain ⟨c, hcall, hin⟩ := Option.bind_eq_some_iff.mp hincoming
  rw [MatchingEngine.stepTrades, hcall, MatchingEngine.orderbook_of_call hcall]
  exact Orderbook.walksBook_call hinv.wf (hallow c hcall) hinv.ordered hin

theorem walks_book_ladderRun :
    (run [] (fun _ => 0) ladderRun).orderbook.WalksBook takerOrder
      ((run [] (fun _ => 0) ladderRun).stepTrades takerMessage)
      ((run [] (fun _ => 0) ladderRun).processInboundMessage takerMessage).orderbook :=
  walks_book [] (fun _ => 0) (by decide) incoming_ladderRun

end Run

end ExchangeEngine
