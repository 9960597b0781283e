import ExchangeEngine.LevelAggregates
import ExchangeEngine.Ownership

/-!
# Level Aggregates Are Exact

Each operation of the book keeps the level aggregates exact, and so do all engine runs in which the
quantities at a price add up to less than `2 ^ 32`: an order joins the aggregates when it is booked,
every execution takes its quantity out, and an order that leaves takes out what it has left.

## Main results

* `level_aggregates_exact`: the aggregates after every run, and the calls of `updateLevelOnFill` that
  the run makes.
* `not_levelAggregatesExact_wrappedRun`: the aggregates are wrong when two orders have one id.
-/

open PriceTime

namespace ExchangeEngine

namespace Orderbook

/-! ### What the aggregates should be -/

/-- The orders that rest at a price, on either side. -/
def ordersAt (b : Orderbook) (price : Price) : OrderPointers :=
  pointers ((b.bids.entries ++ b.asks.entries).filter fun l => l.1 = price)

/-- **The level aggregates are exact**: there is an entry for exactly the prices at which an order
rests, with the sum of the quantities and the number of the orders that rest there. -/
structure LevelsExact (b : Orderbook) : Prop where
  entry : ∀ price, (∃ data, b.priceToLeveldata.lookup price = some data) ↔ b.ordersAt price ≠ []
  exact : ∀ price data, b.priceToLeveldata.lookup price = some data →
    data.totalQuantity.toNat = quantitySum b.heap (b.ordersAt price) ∧
      data.numberOfOrders.toNat = (b.ordersAt price).length

/-- The quantities at each price add up to less than `2 ^ 32`. -/
def DepthFits (b : Orderbook) : Prop :=
  ∀ price, quantitySum b.heap (b.ordersAt price) < 2 ^ 32

variable {b b' : Orderbook} {order : OrderPointer} {s : Side} {price : Price}

theorem map_qty_levelOffers (heap : Heap) (levels : Levels) :
    (levelOffers heap levels).map Offer.qty =
      (pointers levels).map fun p => (heap.read p).quantity.toNat := by
  rw [levelOffers, pointers, List.map_flatMap, List.map_flatMap]
  exact List.flatMap_congr fun l _ => List.map_map

theorem Wf.offers_view (h : b.Wf) :
    b.view.offers = levelOffers b.heap (b.bids.entries ++ b.asks.entries) := by
  rw [levelOffers_append, h.bids.levelOffers_eq, h.asks.levelOffers_eq]
  rfl

/-- The quantities of the offers at a price are those of the orders there. -/
theorem Wf.qty_offers_at (h : b.Wf) (price : Price) :
    (b.view.offers.filter fun a => a.price = price).map Offer.qty =
      (b.ordersAt price).map fun p => (b.heap.read p).quantity.toNat := by
  rw [h.offers_view, levelOffers_filter _ _ fun k => decide (k = price), map_qty_levelOffers,
    ordersAt]

theorem Wf.depthAt_offers (h : b.Wf) (price : Price) :
    depthAt price b.view.offers = quantitySum b.heap (b.ordersAt price) :=
  congrArg List.sum (h.qty_offers_at price)

theorem Wf.countAt_offers (h : b.Wf) (price : Price) :
    countAt price b.view.offers = (b.ordersAt price).length := by
  have hlength := congrArg List.length (h.qty_offers_at price)
  rwa [List.length_map, List.length_map] at hlength

/-- The aggregates of the offers are the exact ones. -/
theorem Wf.levelsExact (h : b.Wf) (hagg : Aggregates b.view.offers b.priceToLeveldata) :
    b.LevelsExact := by
  refine ⟨fun price => ?_, fun price data hdata => ?_⟩
  · rw [← Option.ne_none_iff_exists', Ne, hagg.entry, h.countAt_offers, List.length_eq_zero_iff]
  · rw [← h.depthAt_offers, ← h.countAt_offers]
    exact hagg.exact price data hdata

/-! ### The calls of `updateLevelOnFill` that the operations make -/

section Calls

variable (b : Orderbook)

/-- The call of `detachOrder`. -/
def detachLevelFills (order : OrderPointer) : List LevelFill :=
  let o := b.heap.read order
  if 0 < o.quantity then [⟨b.priceToLeveldata, o.price, o.quantity, true⟩] else []

/-- The calls of `matchContra`. -/
def contraLevelFills (order : OrderPointer) : List LevelFill :=
  let originalQuantity := (b.heap.read order).quantity
  match (b.heap.read order).buySell with
  | .buy => matchLevelFills order .buy (b.matchState b.asks originalQuantity)
  | .sell => matchLevelFills order .sell (b.matchState b.bids originalQuantity)
  | .default => []

/-- The calls of `addToBook`. -/
def addLevelFills (order : OrderPointer) : List LevelFill :=
  contraLevelFills { b with trades := [] } order

/-- The calls of an operation of the book. -/
def callLevelFills : BookCall → List LevelFill
  | .addOrder o => (b.allocOrder o).addLevelFills b.heap.next
  | .cancelOrder orderId =>
      match b.orders.lookup orderId with
      | none => []
      | some order => b.detachLevelFills order
  | .modifyOrder orderId newPrice newQuantity =>
      match b.modifyTarget orderId newPrice newQuantity with
      | none => []
      | some order => b.detachLevelFills order ++
          (b.prepareModify order newPrice newQuantity).addLevelFills order

/-- The calls of a sequence of cancels. -/
def cancelsLevelFills (b : Orderbook) : List OrderId → List LevelFill
  | [] => []
  | i :: orderIds => b.callLevelFills (.cancelOrder i) ++ cancelsLevelFills (b.cancelOrder i) orderIds

end Calls

/-! ### Adding -/

/-- **Matching** keeps the aggregates. -/
theorem Detached.aggregates_matchContra (h : b.Detached order)
    (hs : (b.heap.read order).buySell = buySellOf s)
    (hagg : Aggregates b.view.offers b.priceToLeveldata) :
    Aggregates (b.matchContra order).1.view.offers (b.matchContra order).1.priceToLeveldata ∧
      ∀ f ∈ b.contraLevelFills order, f.Sound := by
  have hmatched := matchContra_spec h hs
  have hside : (b.matchContra order).1.view.side s = b.view.side s := by
    rw [hmatched.view, Book.side_contra_setSide]
  replace hagg := hagg.perm (b.view.offers_perm s)
  suffices Aggregates ((b.matchContra order).1.view.side s.contra ++ b.view.side s)
      (b.matchContra order).1.priceToLeveldata ∧ ∀ f ∈ b.contraLevelFills order, f.Sound by
    refine ⟨this.1.perm ?_, this.2⟩
    rw [← hside]
    exact (Book.offers_perm _ s).symm
  cases s with
  | bid =>
      have hinv : MatchInv order (b.heap.read order) .buy .sell (pointers b.bids.entries)
          (b.matchState b.asks (b.heap.read order).quantity) :=
        ⟨rfl, h.asks, h.index.perm List.perm_append_comm, h.asks_noEmpty⟩
      have hloops := hinv.aggregates rfl hagg
      simp only [contraLevelFills, matchContra, hs, buySellOf]
      exact hloops
  | ask =>
      have hinv : MatchInv order (b.heap.read order) .sell .buy (pointers b.asks.entries)
          (b.matchState b.bids (b.heap.read order).quantity) :=
        ⟨rfl, h.bids, h.index, h.bids_noEmpty⟩
      have hloops := hinv.aggregates rfl hagg
      simp only [contraLevelFills, matchContra, hs, buySellOf]
      exact hloops

/-- The aggregates after settling: an order that is booked joins them. -/
theorem priceToLeveldata_settleOrder (b : Orderbook) (order : OrderPointer) {q : Quantity}
    (hq : q ≠ 0) (remaining : Quantity) :
    (b.settleOrder order q remaining).priceToLeveldata =
      if (b.heap.read order).isAggressive = false ∧ remaining.toNat ≠ 0 then
        updateLevelOnAdd b.priceToLeveldata (b.heap.read order).price remaining
      else b.priceToLeveldata := by
  rw [settleOrder_eq]
  by_cases hrem : remaining = 0
  · rw [if_pos ⟨hrem, Quantity.pos_iff.mpr hq⟩, if_neg (by simp [hrem])]
    rfl
  have hpos : remaining.toNat ≠ 0 := by
    rw [← Nat.pos_iff_ne_zero, Quantity.toNat_pos_iff]
    exact hrem
  cases hag : (b.heap.read order).isAggressive with
  | true => simp only [hrem, false_and, if_false, if_true, reduceCtorEq]; rfl
  | false =>
      have hquantity := (b.heap.read order).quantity_settled q remaining
      rw [hag] at hquantity
      simp only [hrem, false_and, if_false, Quantity.pos_iff.mpr hrem, Bool.false_eq_true, if_true,
        hpos, ne_eq, not_false_iff, and_self, (bookOrder_rest _ order).1, read_updateOrder_self,
        hquantity]
      rw [Order.settled_eq]
      rfl

/-- **Adding** keeps the aggregates, if what rests afterwards fits in 32 bits. -/
theorem Detached.aggregates_addToBook (h : b.Detached order) (hadd : b.Addable order s)
    (hagg : Aggregates b.view.offers b.priceToLeveldata)
    (hfits : ∀ price, depthAt price (b.addToBook order).view.offers < 2 ^ 32) :
    Aggregates (b.addToBook order).view.offers (b.addToBook order).priceToLeveldata ∧
      ∀ f ∈ b.addLevelFills order, f.Sound := by
  have hmatched := matchContra_spec (h.setTrades []) hadd.buySell
  obtain ⟨hagg', hsound⟩ := (h.setTrades []).aggregates_matchContra hadd.buySell hagg
  refine ⟨?_, hsound⟩
  obtain ⟨-, hview, -⟩ := settleOrder_spec hmatched.detached (hadd.matched hmatched) hadd.quantity
    (matchContra { b with trades := [] } order).2
  have hlevels := priceToLeveldata_settleOrder (matchContra { b with trades := [] } order).1 order
    hadd.quantity (matchContra { b with trades := [] } order).2
  have hadded : b.addToBook order =
      (matchContra { b with trades := [] } order).1.settleOrder order (b.heap.read order).quantity
        (matchContra { b with trades := [] } order).2 := rfl
  rw [hadded, hview] at hfits
  rw [hadded, hview, hlevels]
  split
  · rename_i hrests
    rw [if_pos hrests] at hfits
    have hperm := Book.offers_enqueue (r := s.better)
      (matchContra { b with trades := [] } order).1.view s
      { ((matchContra { b with trades := [] } order).1.heap.read order).offer with
        qty := (matchContra { b with trades := [] } order).2.toNat }
    refine (hagg'.add rfl ?_ ?_).perm hperm.symm
    · exact fun hzero => hrests.2 (congrArg UInt32.toNat hzero)
    · rw [← depthAt_perm hperm]
      exact hfits _
  · exact hagg'

/-! ### Leaving the book -/

theorem priceToLeveldata_detachOrder (b : Orderbook) (order : OrderPointer) :
    (b.detachOrder order).priceToLeveldata = b.detachedLevels order := by
  simp only [detachOrder, removeOrderFromBook, detachedLevels]
  split <;> split <;> rfl

/-- **Taking an order out of its level** keeps the aggregates, without its offer. -/
theorem Wf.aggregates_detachOrder (h : b.Wf) (hp : order ∈ b.resting)
    (hagg : Aggregates b.view.offers b.priceToLeveldata) :
    Aggregates (b.detachOrder order).view.offers (b.detachOrder order).priceToLeveldata ∧
      ∀ f ∈ b.detachLevelFills order, f.Sound := by
  obtain ⟨s, hs⟩ := h.exists_side hp
  have hmem : (b.heap.read order).offer ∈ b.view.offers :=
    (b.view.offers_perm s).mem_iff.mpr
      (List.mem_append_right _ (h.mem_side.mpr ⟨order, hp, hs, rfl⟩))
  have hids : b.view.ids.Nodup := by
    rw [b.ids_view]
    exact h.index.nodup
  have hqty : (b.heap.read order).quantity ≠ 0 :=
    Quantity.toNat_pos_iff.mp (hagg.positive _ hmem)
  replace hagg := hagg.perm (Book.offers_withdraw hids hmem)
  rw [(detachOrder_spec h hp).view, priceToLeveldata_detachOrder, detachedLevels, detachLevelFills,
    if_pos (Quantity.pos_iff.mpr hqty), if_pos (Quantity.pos_iff.mpr hqty)]
  refine ⟨hagg.close rfl hqty, fun f hf => ?_⟩
  rw [List.mem_singleton.mp hf]
  exact hagg.sound (Nat.le_refl _) true

/-- **Cancelling** keeps the aggregates. -/
theorem Wf.aggregates_cancelOrder (h : b.Wf)
    (hagg : Aggregates b.view.offers b.priceToLeveldata) (orderId : OrderId) :
    Aggregates (b.cancelOrder orderId).view.offers (b.cancelOrder orderId).priceToLeveldata ∧
      ∀ f ∈ b.callLevelFills (.cancelOrder orderId), f.Sound := by
  cases hlook : b.orders.lookup orderId with
  | none =>
      simp only [cancelOrder, callLevelFills, hlook]
      exact ⟨hagg, List.forall_mem_nil _⟩
  | some order =>
      obtain ⟨hmem, rfl⟩ := (h.index.lookup orderId order).mp hlook
      obtain ⟨hagg', hsound⟩ := h.aggregates_detachOrder hmem hagg
      rw [(detachOrder_spec h hmem).view] at hagg'
      rw [(cancelOrder_spec h _).2.1]
      simp only [cancelOrder, callLevelFills, hlook]
      exact ⟨hagg', hsound⟩

/-- **A sequence of cancels** keeps the aggregates. -/
theorem Wf.aggregates_cancelOrders (h : b.Wf)
    (hagg : Aggregates b.view.offers b.priceToLeveldata) (orderIds : List OrderId) :
    let b' := orderIds.foldl Orderbook.cancelOrder b
    Aggregates b'.view.offers b'.priceToLeveldata ∧ ∀ f ∈ b.cancelsLevelFills orderIds, f.Sound := by
  induction orderIds generalizing b with
  | nil => exact ⟨hagg, List.forall_mem_nil _⟩
  | cons i orderIds ih =>
      obtain ⟨hcancelled, hsound⟩ := h.aggregates_cancelOrder hagg i
      obtain ⟨hrest, hsoundRest⟩ := ih (cancelOrder_spec h i).1 hcancelled
      refine ⟨hrest, fun f hf => ?_⟩
      rcases List.mem_append.mp hf with hf | hf
      · exact hsound f hf
      · exact hsoundRest f hf

/-- **A call keeps the aggregates**, if what rests afterwards fits in 32 bits. -/
theorem Wf.aggregates_call (h : b.Wf) {c : BookCall} (hallow : b.Allows c)
    (hagg : Aggregates b.view.offers b.priceToLeveldata) (hfits : (b.call c).DepthFits) :
    Aggregates (b.call c).view.offers (b.call c).priceToLeveldata ∧
      ∀ f ∈ b.callLevelFills c, f.Sound := by
  have hdepth : ∀ price, depthAt price (b.call c).view.offers < 2 ^ 32 := fun price => by
    rw [(wf_call h hallow).depthAt_offers]
    exact hfits price
  cases c with
  | addOrder o =>
      obtain ⟨s, henters⟩ := enters_addOrder h hallow
      have hagg' : Aggregates (b.allocOrder o).view.offers (b.allocOrder o).priceToLeveldata := by
        rw [(h.allocOrder o).2]
        exact hagg
      exact henters.detached.aggregates_addToBook henters.addable hagg' hdepth
  | cancelOrder orderId => exact h.aggregates_cancelOrder hagg orderId
  | modifyOrder orderId newPrice newQuantity =>
      cases htarget : b.modifyTarget orderId newPrice newQuantity with
      | none =>
          simp only [call, modifyOrder, callLevelFills, htarget]
          exact ⟨hagg, List.forall_mem_nil _⟩
      | some order =>
          obtain ⟨hmem, -, -⟩ := h.modifyTarget_eq_some.mp htarget
          obtain ⟨s, hs⟩ := h.exists_side hmem
          have hprep := prepareModify_spec h hmem hs hallow.1 hallow.2
          obtain ⟨hdetached, hsound⟩ := h.aggregates_detachOrder hmem hagg
          rw [(detachOrder_spec h hmem).view, ← hprep.view] at hdetached
          simp only [call, modifyOrder, callLevelFills, htarget] at hdepth ⊢
          obtain ⟨hadded, hsound'⟩ :=
            hprep.detached.aggregates_addToBook hprep.addable hdetached hdepth
          refine ⟨hadded, fun f hf => ?_⟩
          rcases List.mem_append.mp hf with hf | hf
          · exact hsound f hf
          · exact hsound' f hf

end Orderbook

/-! ### Runs -/

/-- The calls of `updateLevelOnFill` that an input makes. -/
def MatchingEngine.inputLevelFills (e : MatchingEngine) : Input → List LevelFill
  | .message msg =>
      match e.bookCall? msg with
      | none => []
      | some c => e.orderbook.callLevelFills c
  | .cancelSession _ orderIds => e.orderbook.cancelsLevelFills orderIds

/-- **An input keeps the aggregates**, if what rests afterwards fits in 32 bits. -/
theorem EngineInv.aggregates_apply {e : MatchingEngine} {n : ℕ} (h : EngineInv e n) (input : Input)
    (hn : n + (if input.isAccepted then 1 else 0) < 2 ^ 64)
    (hagg : Aggregates e.orderbook.view.offers e.orderbook.priceToLeveldata)
    (hfits : (e.apply input).orderbook.DepthFits) :
    Aggregates (e.apply input).orderbook.view.offers (e.apply input).orderbook.priceToLeveldata ∧
      ∀ f ∈ e.inputLevelFills input, f.Sound := by
  cases input with
  | message msg =>
      have hbook := e.orderbook_processInboundMessage msg
      simp only [MatchingEngine.apply, MatchingEngine.inputLevelFills] at hfits ⊢
      cases hcall : e.bookCall? msg with
      | none =>
          rw [hcall] at hbook
          rw [hbook]
          exact ⟨hagg, List.forall_mem_nil _⟩
      | some c =>
          rw [hcall] at hbook
          rw [hbook] at hfits ⊢
          exact h.book.wf.aggregates_call (h.allows hn hcall) hagg hfits
  | cancelSession sessionId orderIds =>
      rw [MatchingEngine.apply, (e.cancelSessionOrders_spec sessionId orderIds).1]
      exact h.book.wf.aggregates_cancelOrders hagg orderIds

section Runs

variable (symbol : List UInt8) (clock : ℕ → Timestamp)

/-- **The level aggregates are exact throughout a run**, and each call of `updateLevelOnFill` with a
positive quantity finds an entry whose total is not below it. -/
structure LevelAggregatesExact (past : List Input) : Prop where
  levels : ∀ before, before <:+ past → (run symbol clock before).orderbook.LevelsExact
  fills : ∀ input before, input :: before <:+ past →
    ∀ f ∈ (run symbol clock before).inputLevelFills input, f.Sound

/-- The aggregates after a run are those of the offers in the book. -/
theorem run_aggregates (past : List Input) (h : acceptedCount past < 2 ^ 64)
    (hfits : ∀ before, before <:+ past → (run symbol clock before).orderbook.DepthFits) :
    Aggregates (run symbol clock past).orderbook.view.offers
      (run symbol clock past).orderbook.priceToLeveldata := by
  induction past with
  | nil => exact Aggregates.nil
  | cons input past ih =>
      have hcount : acceptedCount (input :: past) =
          acceptedCount past + if input.isAccepted then 1 else 0 :=
        List.countP_cons ..
      have hpast : acceptedCount past < 2 ^ 64 := by omega
      have hagg := ih hpast fun before hsuffix => hfits before (hsuffix.trans (List.suffix_cons _ _))
      exact ((run_inv symbol clock past hpast).aggregates_apply input (hcount ▸ h) hagg
        (hfits _ (List.suffix_refl _))).1

/-- **The level aggregates are exact** throughout every run in which no order id is given out twice
and the quantities at each price always add up to less than `2 ^ 32`. -/
theorem level_aggregates_exact (past : List Input) (h : acceptedCount past < 2 ^ 64)
    (hfits : ∀ before, before <:+ past → (run symbol clock before).orderbook.DepthFits) :
    LevelAggregatesExact symbol clock past := by
  have hcount : ∀ before, before <:+ past → acceptedCount before < 2 ^ 64 := fun before hsuffix =>
    Nat.lt_of_le_of_lt hsuffix.sublist.countP_le h
  have hagg : ∀ before, before <:+ past →
      Aggregates (run symbol clock before).orderbook.view.offers
        (run symbol clock before).orderbook.priceToLeveldata := fun before hsuffix =>
    run_aggregates symbol clock before (hcount before hsuffix) fun b hb =>
      hfits b (hb.trans hsuffix)
  refine ⟨fun before hsuffix => ?_, fun input before hsuffix => ?_⟩
  · exact (run_inv symbol clock before (hcount before hsuffix)).book.wf.levelsExact
      (hagg before hsuffix)
  · have hbefore := (List.suffix_cons input before).trans hsuffix
    have haccepted : acceptedCount before + (if input.isAccepted then 1 else 0) < 2 ^ 64 := by
      have := hcount _ hsuffix
      rwa [acceptedCount, List.countP_cons] at this
    exact ((run_inv symbol clock before (hcount before hbefore)).aggregates_apply input haccepted
      (hagg before hbefore) (hfits _ hsuffix)).2

end Runs

/-- Where all orders together fit, those at each price do. -/
theorem Orderbook.depthFits_of_total {b : Orderbook} (h : quantitySum b.heap b.resting < 2 ^ 32) :
    b.DepthFits := by
  intro price
  have hresting : b.resting = pointers (b.bids.entries ++ b.asks.entries) :=
    (pointers_append _ _).symm
  rw [hresting] at h
  refine Nat.lt_of_le_of_lt ?_ h
  rw [ordersAt]
  generalize b.bids.entries ++ b.asks.entries = levels
  induction levels with
  | nil => exact Nat.le_refl 0
  | cons l levels ih =>
      rw [List.filter_cons, pointers_cons, quantitySum_append]
      split
      · rw [pointers_cons, quantitySum_append]
        omega
      · omega

/-- A run in which two orders at one price are executed against, the second is modified, and a bulk
cancel takes it out. -/
def levelDataRun : List Input :=
  [.cancelSession 2 [2], .message (modifyOrderMessage 2 2 101 7),
    .message (limitOrderMessage 3 .buy 100 6), .message (limitOrderMessage 2 .sell 100 4),
    .message (limitOrderMessage 1 .sell 100 5)]

theorem level_aggregates_exact_levelDataRun :
    (run [] (fun _ => 0) (levelDataRun.drop 2)).orderbook.priceToLeveldata.lookup 100 =
      some { price := 100, totalQuantity := 3, numberOfOrders := 1 } ∧
    LevelAggregatesExact [] (fun _ => 0) levelDataRun := by
  have htotal : ∀ before ∈ levelDataRun.tails, quantitySum
      (run [] (fun _ => 0) before).orderbook.heap
      (run [] (fun _ => 0) before).orderbook.resting < 2 ^ 32 := by
    decide
  exact ⟨by decide, level_aggregates_exact [] (fun _ => 0) levelDataRun (by decide)
    fun before hsuffix => Orderbook.depthFits_of_total
      (htotal before ((List.mem_tails _ _).mpr hsuffix))⟩

/-! ### Two orders with one id -/

section SameId

variable {b : Orderbook} {p q : OrderPointer} {price : Price}

/-- **With two orders under one id**, the cancelled order stays in the level, with nothing left, and
the entry of the level counts the other one. -/
theorem not_levelsExact_of_sameId (hbids : b.bids.entries = [])
    (hasks : b.asks.entries = [(price, [p, q])])
    (hid : (b.heap.read p).orderId = (b.heap.read q).orderId)
    (hprice : (b.heap.read q).price = price) (hside : (b.heap.read q).buySell = .sell)
    (hindex : b.orders.lookup (b.heap.read q).orderId = some q)
    (hp : (b.heap.read p).quantity ≠ 0) (hq : (b.heap.read q).quantity ≠ 0)
    (hexact : b.LevelsExact) : ¬ (b.cancelOrder (b.heap.read q).orderId).LevelsExact := by
  intro hexact'
  obtain ⟨hasks', hbids', hread⟩ := cancelOrder_sameId hasks hid hprice hside hindex
  have hat : b.ordersAt price = [p, q] := by
    simp [Orderbook.ordersAt, hbids, hasks, pointers]
  have hat' : (b.cancelOrder (b.heap.read q).orderId).ordersAt price = [q] := by
    simp [Orderbook.ordersAt, hbids', hbids, hasks', pointers]
  -- before the cancel: the quantities of both orders
  obtain ⟨data, hdata⟩ := (hexact.entry price).mpr (by simp [hat])
  have htotal := (hexact.exact price data hdata).1
  rw [hat] at htotal
  simp only [quantitySum_cons, quantitySum_nil] at htotal
  -- after it: that of the cancelled one
  obtain ⟨data', hdata'⟩ := (hexact'.entry price).mpr (by simp [hat'])
  have htotal' := (hexact'.exact price data' hdata').1
  rw [hat', quantitySum_cons, quantitySum_nil, hread] at htotal'
  have hlevels : (b.cancelOrder (b.heap.read q).orderId).priceToLeveldata =
      updateLevelOnFill b.priceToLeveldata price (b.heap.read q).quantity true := by
    simp only [Orderbook.cancelOrder, hindex, Orderbook.clearOrderRecord, Orderbook.updateOrder,
      Orderbook.priceToLeveldata_detachOrder, Orderbook.detachedLevels,
      if_pos (Quantity.pos_iff.mpr hq), hprice]
  have hfill : data' = data.fill (b.heap.read q).quantity true := by
    rw [hlevels] at hdata'
    simp only [updateLevelOnFill, if_neg hq, hdata] at hdata'
    split at hdata'
    · rw [UnorderedMap.lookup_erase_ite, if_pos rfl] at hdata'
      cases hdata'
    · rw [UnorderedMap.lookup_insert_ite, if_pos rfl] at hdata'
      exact (Option.some.inj hdata').symm
  rw [hfill, LevelData.toNat_fill, htotal] at htotal'
  have hpos := Quantity.toNat_pos_iff.mpr hp
  have hzero : (((b.heap.read q).setQuantity 0).setOrderStatus .cancelled).quantity.toNat = 0 := rfl
  omega

/-- The quantities in such a book. -/
theorem SharesId.quantities {e : MatchingEngine} (h : SharesId e p) :
    (e.orderbook.heap.read 0).quantity = 5 ∧ (e.orderbook.heap.read p).quantity = 5 :=
  ⟨congrArg Order.quantity h.first, congrArg Order.quantity h.second⟩

theorem SharesId.not_levelsExact {e : MatchingEngine} (h : SharesId e p)
    (hexact : e.orderbook.LevelsExact) : ¬ (e.orderbook.cancelOrder 1).LevelsExact := by
  have hid := h.orderId
  have hnot := not_levelsExact_of_sameId h.bids h.asks h.sameId h.price h.buySell (hid ▸ h.index)
    (by rw [h.quantities.1]; decide) (by rw [h.quantities.2]; decide) hexact
  rwa [hid] at hnot

/-- In none of the states before and after the cancel does more than 10 rest. -/
theorem SharesId.depthFits {e : MatchingEngine} (h : SharesId e p) :
    e.orderbook.DepthFits ∧ (e.orderbook.cancelOrder 1).DepthFits := by
  have hid := h.orderId
  obtain ⟨hfirst, hsecond⟩ := h.quantities
  obtain ⟨hasks', hbids', hread⟩ :=
    cancelOrder_sameId h.asks h.sameId h.price h.buySell (hid ▸ h.index)
  rw [hid] at hasks' hbids' hread
  constructor <;> refine Orderbook.depthFits_of_total ?_
  · simp [Orderbook.resting, h.bids, h.asks, pointers, hfirst, hsecond]
  · simp [Orderbook.resting, hbids', h.bids, hasks', pointers, hread, Order.setQuantity,
      Order.setOrderStatus]

end SameId

/-- The run in which session 2 cancels its order after the counter has wrapped around. -/
def cancelledRun (n : ℕ) : List InboundMessage :=
  cancelOrderMessage 2 1 :: wrappedRun n

theorem orderbook_cancelledRun {n : ℕ} {p : OrderPointer}
    (h : SharesId (after [] (fun _ => 0) (wrappedRun n)) p) :
    (after [] (fun _ => 0) (cancelledRun n)).orderbook =
      (after [] (fun _ => 0) (wrappedRun n)).orderbook.cancelOrder 1 := by
  rw [cancelledRun, after_cons]
  exact orderbook_cancelMessage h.owner

/-- In no state of that run does more than 10 rest. -/
theorem depthFits_cancelledRun {n : ℕ} (hn : (2 : OrderId) + UInt64.ofNat n = 1)
    {before : List InboundMessage} (hsuffix : before <:+ cancelledRun n) :
    (after [] (fun _ => 0) before).orderbook.DepthFits := by
  obtain ⟨p, h⟩ := wrappedRun_spec hn
  rw [cancelledRun, List.suffix_cons_iff, wrappedRun, List.suffix_cons_iff,
    List.suffix_concat_iff] at hsuffix
  rcases hsuffix with rfl | rfl | rfl | ⟨used, rfl, hused⟩
  · exact orderbook_cancelledRun h ▸ h.depthFits.2
  · exact h.depthFits.1
  · exact Orderbook.depthFits_of_total (by decide)
  · rw [(List.suffix_replicate_iff.mp hused).2]
    have hunrestable : MatchingEngine.IsUnrestable (newOrderMessage 2 .sell 3 0 1) .sell :=
      ⟨_, .market, rfl, rfl, by decide⟩
    have hcontra : (after [] (fun _ => 0)
        [limitOrderMessage 1 .sell 100 5]).orderbook.NoContra .sell := rfl
    have hused := usesUpIds_replicate [] (fun _ => 0) hunrestable hcontra used.length
    have hresting : (after [] (fun _ => 0)
        [limitOrderMessage 1 .sell 100 5]).orderbook.resting = [0] := by
      decide
    have hquantity : ((after [] (fun _ => 0)
        [limitOrderMessage 1 .sell 100 5]).orderbook.heap.read 0).quantity = 5 := by
      decide
    refine Orderbook.depthFits_of_total ?_
    rw [Orderbook.resting, hused.bids, hused.asks, ← Orderbook.resting, hresting, quantitySum_cons,
      quantitySum_nil, hused.read 0 Nat.zero_lt_one, hquantity]
    decide

theorem not_levelAggregatesExact_wrappedRun :
    let past := (cancelledRun (2 ^ 64 - 1)).map Input.message
    (∀ before, before <:+ past → (run [] (fun _ => 0) before).orderbook.DepthFits) ∧
      ¬ LevelAggregatesExact [] (fun _ => 0) past := by
  have hn : (2 : OrderId) + UInt64.ofNat (2 ^ 64 - 1) = 1 := by decide
  obtain ⟨p, h⟩ := wrappedRun_spec hn
  refine ⟨fun before hsuffix => ?_, fun hexact => ?_⟩
  · obtain ⟨messages, hmessages, rfl⟩ := List.suffix_map_iff.mp hsuffix
    exact depthFits_cancelledRun hn hmessages
  · refine h.not_levelsExact ?_ ?_
    · exact hexact.levels _ ((List.suffix_cons _ _).map _)
    · rw [← orderbook_cancelledRun h]
      exact hexact.levels _ (List.suffix_refl _)

end ExchangeEngine
