import ExchangeEngine.Announcements
import ExchangeEngine.Sides

/-!
# Best Bid and Best Ask

`GetBestBidAsk` should report the best price of each side and what rests at it. It adds up the
quantities of the best level in 32 bits, and reads off the sum whether the side has a level at
all. So it is exact as long as the sum fits: where a sum wraps around the quantity is wrong, and
where it wraps to zero the side is reported as empty.

## Main results

* `bestExact_iff`: the best prices of a well-formed book are exact exactly when the quantities at
  the best bid and those at the best ask add up to less than `2 ^ 32`.
* `best_always_exact_iff`: the same for all states of a run and the tick updates published in it.
* `not_bestAlwaysExact_wrappedSumRun`: two SELL orders that together hide the best ask.
-/

open PriceTime

namespace ExchangeEngine

/-- The sum that the source accumulates is the sum of the quantities modulo `2 ^ 32`. -/
theorem toNat_levelQuantity (heap : Heap) (ps : OrderPointers) :
    (Orderbook.levelQuantity heap ps).toNat = quantitySum heap ps % 2 ^ 32 := by
  have hfold : ∀ (ps : OrderPointers) (acc : Quantity),
      (ps.foldl (fun qty p => qty + (heap.read p).quantity) acc).toNat =
        (acc.toNat + quantitySum heap ps) % 2 ^ 32 := by
    intro ps
    induction ps with
    | nil => exact fun acc => (Nat.mod_eq_of_lt (UInt32.toNat_lt acc)).symm
    | cons p ps ih =>
        intro acc
        rw [List.foldl_cons, ih, UInt32.toNat_add, quantitySum_cons]
        omega
  rw [Orderbook.levelQuantity, hfold, UInt32.toNat_zero, Nat.zero_add]

namespace Orderbook

variable {b : Orderbook} {s : Side} {price : Price} {qty : Quantity}

/-- Price and quantity that `GetBestBidAsk` reports for a side. -/
def quote (b : Orderbook) : Side → Price × Quantity
  | .bid => (b.getBestBidAsk.bidPrice, b.getBestBidAsk.bidQty)
  | .ask => (b.getBestBidAsk.askPrice, b.getBestBidAsk.askQty)

/-- **An exact quote** for a side: the best price at which the side has a level and the exact sum
of the quantities at that level, or zero and zero if the side is empty and only then. -/
structure Quotes (b : Orderbook) (s : Side) (price : Price) (qty : Quantity) : Prop where
  best : b.levels s ≠ [] → ∃ level, (price, level) ∈ b.levels s ∧
    (∀ l ∈ b.levels s, ¬ s.better l.1 price) ∧ qty.toNat = quantitySum b.heap level
  zero : price = 0 ∧ qty = 0 ↔ b.levels s = []

/-- **The best prices are exact.** -/
structure BestExact (b : Orderbook) : Prop where
  bid : b.Quotes .bid b.getBestBidAsk.bidPrice b.getBestBidAsk.bidQty
  ask : b.Quotes .ask b.getBestBidAsk.askPrice b.getBestBidAsk.askQty
  found : b.getBestBidAsk.found = true ↔ b.levels .bid ≠ [] ∨ b.levels .ask ≠ []

/-- Whether the quantities at the best price of a side add up to less than `2 ^ 32`. -/
def bestFits (b : Orderbook) (s : Side) : Bool :=
  match b.levels s with
  | [] => true
  | (_, level) :: _ => decide (quantitySum b.heap level < 2 ^ 32)

/-- What `GetBestBid` and `GetBestAsk` report of a list of levels. -/
def bestOf (heap : Heap) : Levels → Bool × Price × Quantity
  | [] => (false, 0, 0)
  | (price, level) :: _ =>
      (decide (0 < levelQuantity heap level), price, levelQuantity heap level)

theorem bestLevel_eq {r : Price → Price → Prop} (heap : Heap) (book : LevelBook r) :
    bestLevel heap book = bestOf heap book.entries := by
  rw [bestLevel, SortedMap.begin?]
  cases book.entries <;> rfl

theorem quote_eq (b : Orderbook) (s : Side) :
    b.quote s = if (bestOf b.heap (b.levels s)).1 then (bestOf b.heap (b.levels s)).2
      else (0, 0) := by
  cases s with
  | bid =>
      simp only [quote, getBestBidAsk, getBestBid, bestLevel_eq, levels]
      by_cases hfound : (bestOf b.heap b.bids.entries).1 = true <;> simp [hfound]
  | ask =>
      simp only [quote, getBestBidAsk, getBestAsk, bestLevel_eq, levels]
      by_cases hfound : (bestOf b.heap b.asks.entries).1 = true <;> simp [hfound]

theorem found_eq (b : Orderbook) : b.getBestBidAsk.found =
    ((bestOf b.heap (b.levels .bid)).1 || (bestOf b.heap (b.levels .ask)).1) := by
  simp only [getBestBidAsk, getBestBid, getBestAsk, bestLevel_eq, levels]

/-- A side is reported to have a level exactly when it has one, if the sum fits. -/
theorem Wf.found_iff (h : b.Wf) (hfits : b.bestFits s = true) :
    (bestOf b.heap (b.levels s)).1 = true ↔ b.levels s ≠ [] := by
  rw [bestFits] at hfits
  cases hlevels : b.levels s with
  | nil => simp [bestOf]
  | cons l es =>
      simp only [hlevels, decide_eq_true_eq] at hfits
      have hmem : l ∈ b.levels s := hlevels ▸ List.mem_cons_self
      have hpos := quantitySum_pos (h.noEmptyLevel s l hmem) (h.levelsWf s l hmem)
      refine iff_of_true (decide_eq_true ?_) (List.cons_ne_nil _ _)
      rw [UInt32.lt_iff_toNat_lt, toNat_levelQuantity, Nat.mod_eq_of_lt hfits]
      exact hpos

/-- **When a quote is exact.** -/
theorem Wf.quotes_iff (h : b.Wf) (s : Side) :
    b.Quotes s (b.quote s).1 (b.quote s).2 ↔ b.bestFits s = true := by
  constructor
  · intro hquote
    rw [bestFits]
    cases hlevels : b.levels s with
    | nil => rfl
    | cons l es =>
        obtain ⟨level, hmem, hbest, hsum⟩ := hquote.best (by simp [hlevels])
        have hsorted := b.sorted_levels s
        rw [hlevels] at hmem hsorted hbest
        -- a level behind the first one would not be the best
        have hhead : ((b.quote s).1, level) = l := by
          refine (List.mem_cons.mp hmem).resolve_right fun htail => ?_
          exact hbest l List.mem_cons_self ((List.pairwise_cons.mp hsorted).1 _ htail)
        refine decide_eq_true ?_
        rw [← hhead, ← hsum]
        exact UInt32.toNat_lt _
  · intro hfits
    have hfound := h.found_iff hfits
    rw [quote_eq]
    cases hlevels : b.levels s with
    | nil => exact ⟨fun hne => absurd hlevels hne, by simp [bestOf, hlevels]⟩
    | cons l es =>
        have hmem : l ∈ b.levels s := hlevels ▸ List.mem_cons_self
        have hprice := (h.levelsWf s l hmem)
        rw [hlevels] at hfound
        rw [if_pos (hfound.mpr (List.cons_ne_nil _ _))]
        simp only [bestFits, hlevels, decide_eq_true_eq] at hfits
        have hsorted := hlevels ▸ b.sorted_levels s
        refine ⟨fun _ => ⟨l.2, hmem, fun l' hl' => ?_, ?_⟩, ?_⟩
        · rw [hlevels] at hl'
          rcases List.mem_cons.mp hl' with rfl | htail
          · exact irrefl_of _ _
          · exact asymm_of _ ((List.pairwise_cons.mp hsorted).1 l' htail)
        · exact (toNat_levelQuantity b.heap l.2).trans (Nat.mod_eq_of_lt hfits)
        · obtain ⟨p, hp⟩ := List.exists_mem_of_ne_nil l.2 (h.noEmptyLevel s l hmem)
          refine iff_of_false (fun hzero => ?_) (by simp [hlevels])
          have hpos := (h.levelsWf s l hmem p hp).price_pos
          rw [show l.1 = 0 from hzero.1] at hpos
          exact absurd hpos (by decide)

/-- **When the best prices are exact**: when both sums fit in 32 bits. -/
theorem Wf.bestExact_iff (h : b.Wf) :
    b.BestExact ↔ b.bestFits .bid = true ∧ b.bestFits .ask = true := by
  refine ⟨fun hexact => ⟨(h.quotes_iff .bid).mp hexact.bid, (h.quotes_iff .ask).mp hexact.ask⟩,
    fun ⟨hbid, hask⟩ => ⟨(h.quotes_iff .bid).mpr hbid, (h.quotes_iff .ask).mpr hask, ?_⟩⟩
  rw [found_eq, Bool.or_eq_true, h.found_iff hbid, h.found_iff hask]

end Orderbook

/-! ### Tick updates -/

/-- The tick update in a market data message. -/
def MarketDataMessage.tick? : MarketDataMessage → Option TickUpdate
  | .trade _ => none
  | .tick update => some update

namespace MatchingEngine

/-- The tick updates published so far. -/
def ticks (e : MatchingEngine) : List TickUpdate :=
  e.feedQueue.filterMap MarketDataMessage.tick?

/-- The tick updates that handling a message publishes. -/
def stepTicks (e : MatchingEngine) (msg : InboundMessage) : List TickUpdate :=
  (e.processInboundMessage msg).ticks.drop e.ticks.length

/-- A tick update carries best prices. -/
def Carries (tick : TickUpdate) (best : Orderbook.BestBidAsk) : Prop :=
  tick.bidPrice = best.bidPrice ∧ tick.bidQty = best.bidQty ∧
    tick.askPrice = best.askPrice ∧ tick.askQty = best.askQty

theorem ticks_pushFeed (e : MatchingEngine) (msg : MarketDataMessage) :
    (e.pushFeed msg).ticks = e.ticks ++ msg.tick?.toList := by
  simp only [ticks, pushFeed, List.filterMap_append]
  cases msg <;> rfl

/-- The trade loop of `handleNewOrder` publishes no tick update. -/
theorem ticks_foldl_newOrderTrade (sessionId : SessionId) (order : OrderPointer)
    (orderId : OrderId) (side : BuySell) (trades : List Trade) (e : MatchingEngine) :
    (trades.foldl (newOrderTrade sessionId order orderId side) e).ticks = e.ticks := by
  induction trades generalizing e with
  | nil => rfl
  | cons trade trades ih =>
      have hupdate : ((e.recordTrade trade).publishTradeUpdate trade side).ticks = e.ticks :=
        (ticks_pushFeed _ _).trans (List.append_nil _)
      rw [List.foldl_cons, ih, ← hupdate, newOrderTrade]
      split <;> rfl

/-- The trade loop of `handleModifyOrder` publishes no tick update. -/
theorem ticks_foldl_modifyOrderTrade (orderId : OrderId) (trades : List Trade)
    (e : MatchingEngine) :
    (trades.foldl (modifyOrderTrade orderId) e).ticks = e.ticks := by
  induction trades generalizing e with
  | nil => rfl
  | cons trade trades ih =>
      rw [List.foldl_cons, ih, modifyOrderTrade]
      exact (ticks_pushFeed _ _).trans (List.append_nil _)

/-- Publishing the best prices adds one tick update, which carries them. -/
theorem ticks_publishTickUpdate (e : MatchingEngine) :
    ∃ tick, e.publishTickUpdate.ticks = e.ticks ++ [tick] ∧
      Carries tick e.publishTickUpdate.orderbook.getBestBidAsk :=
  ⟨_, ticks_pushFeed e _, rfl, rfl, rfl, rfl⟩

/-- A handler ends by publishing the best prices, and publishes no other tick update. -/
theorem ticks_acceptNewOrder (e : MatchingEngine) (sessionId : SessionId)
    (request : NewOrderRequest) (side : BuySell) (orderType : OrderType) :
    ∃ tick, (e.acceptNewOrder sessionId request side orderType).ticks = e.ticks ++ [tick] ∧
      Carries tick
        (e.acceptNewOrder sessionId request side orderType).orderbook.getBestBidAsk := by
  rw [acceptNewOrder, finishNewOrder]
  split
  · obtain ⟨tick, hticks, hcarries⟩ := ticks_publishTickUpdate _
    refine ⟨tick, hticks.trans (congrArg (· ++ [tick]) ?_), hcarries⟩
    exact ticks_foldl_newOrderTrade ..
  · obtain ⟨tick, hticks, hcarries⟩ := ticks_publishTickUpdate _
    refine ⟨tick, hticks.trans (congrArg (· ++ [tick]) ?_), hcarries⟩
    exact ticks_foldl_newOrderTrade ..

theorem ticks_acceptModifyOrder (e : MatchingEngine) (sessionId : SessionId)
    (request : ModifyOrderRequest) :
    ∃ tick, (e.acceptModifyOrder sessionId request).ticks = e.ticks ++ [tick] ∧
      Carries tick (e.acceptModifyOrder sessionId request).orderbook.getBestBidAsk := by
  rw [acceptModifyOrder]
  obtain ⟨tick, hticks, hcarries⟩ := ticks_publishTickUpdate _
  refine ⟨tick, hticks.trans (congrArg (· ++ [tick]) ?_), hcarries⟩
  exact ticks_foldl_modifyOrderTrade ..

/-- **The tick updates of a message** carry the best prices of the book after it. -/
theorem carries_of_mem_stepTicks (e : MatchingEngine) (msg : InboundMessage) :
    ∀ tick ∈ e.stepTicks msg, Carries tick (e.processInboundMessage msg).orderbook.getBestBidAsk := by
  have hnone : (e.processInboundMessage msg).ticks = e.ticks → ∀ tick ∈ e.stepTicks msg,
      Carries tick (e.processInboundMessage msg).orderbook.getBestBidAsk := by
    intro hticks tick htick
    rw [stepTicks, hticks, List.drop_length] at htick
    cases htick
  have hone : (∃ tick, (e.processInboundMessage msg).ticks = e.ticks ++ [tick] ∧
      Carries tick (e.processInboundMessage msg).orderbook.getBestBidAsk) →
      ∀ tick ∈ e.stepTicks msg,
        Carries tick (e.processInboundMessage msg).orderbook.getBestBidAsk := by
    rintro ⟨tick, hticks, hcarries⟩ tick' htick
    rw [stepTicks, hticks, List.drop_left, List.mem_singleton] at htick
    rw [htick]
    exact hcarries
  cases e.handled msg with
  | newRejected request reason _ _ _ _ result => exact hnone (by rw [result]; rfl)
  | newAccepted request side orderType _ _ _ _ result =>
      refine hone ?_
      rw [result]
      exact e.countOrder.ticks_acceptNewOrder msg.sessionId request side orderType
  | cancelRejected request _ _ _ _ result => exact hnone (by rw [result]; rfl)
  | cancelled request owner _ _ _ _ result =>
      refine hone ?_
      rw [result]
      exact ticks_publishTickUpdate _
  | modifyRejected request reason _ _ _ _ result => exact hnone (by rw [result]; rfl)
  | modified request _ _ _ _ result =>
      refine hone ?_
      rw [result]
      exact e.ticks_acceptModifyOrder msg.sessionId request

end MatchingEngine

/-! ### Runs -/

section Run

variable (symbol : List UInt8) (clock : ℕ → Timestamp)

/-- **The best prices of a run are exact**: in every state of it, and in every tick update that
a message of it publishes, which is about the book after the message. -/
structure BestAlwaysExact (past : List InboundMessage) : Prop where
  states : ∀ before, before <:+ past → (after symbol clock before).orderbook.BestExact
  ticks : ∀ msg before, (msg :: before) <:+ past →
    ∀ tick ∈ (after symbol clock before).stepTicks msg,
      (after symbol clock (msg :: before)).orderbook.Quotes .bid tick.bidPrice tick.bidQty ∧
      (after symbol clock (msg :: before)).orderbook.Quotes .ask tick.askPrice tick.askQty

/-- **When the best prices of a run are exact**: exactly when in every state of it the
quantities at the best bid and those at the best ask add up to less than `2 ^ 32`. -/
theorem best_always_exact_iff (past : List InboundMessage) (h : acceptedOrders past < 2 ^ 64) :
    BestAlwaysExact symbol clock past ↔ ∀ before, before <:+ past →
      (after symbol clock before).orderbook.bestFits .bid = true ∧
      (after symbol clock before).orderbook.bestFits .ask = true := by
  have hexact : ∀ before, before <:+ past → ((after symbol clock before).orderbook.BestExact ↔
      (after symbol clock before).orderbook.bestFits .bid = true ∧
      (after symbol clock before).orderbook.bestFits .ask = true) := fun before hsuffix =>
    (after_inv symbol clock (acceptedOrders_lt_of_suffix hsuffix h)).book.wf.bestExact_iff
  refine ⟨fun hbest before hsuffix => (hexact before hsuffix).mp (hbest.states before hsuffix),
    fun hfits => ⟨fun before hsuffix => (hexact before hsuffix).mpr (hfits before hsuffix), ?_⟩⟩
  intro msg before hsuffix tick htick
  have hbest := (hexact (msg :: before) hsuffix).mpr (hfits (msg :: before) hsuffix)
  obtain ⟨hbidPrice, hbidQty, haskPrice, haskQty⟩ :=
    MatchingEngine.carries_of_mem_stepTicks _ msg tick htick
  rw [hbidPrice, hbidQty, haskPrice, haskQty]
  exact ⟨hbest.bid, hbest.ask⟩

/-- A run in which the quantities at the best ask add up to `2 ^ 32 - 1`. -/
def fullLevelRun : List InboundMessage :=
  [limitOrderMessage 2 .sell 100 4294967290, limitOrderMessage 1 .sell 100 5]

theorem best_always_exact_iff_fullLevelRun : BestAlwaysExact [] (fun _ => 0) fullLevelRun := by
  have hfits : ∀ before ∈ fullLevelRun.tails,
      (after [] (fun _ => 0) before).orderbook.bestFits .bid = true ∧
      (after [] (fun _ => 0) before).orderbook.bestFits .ask = true := by
    decide
  exact (best_always_exact_iff [] (fun _ => 0) fullLevelRun (by decide)).mpr
    fun _ hsuffix => hfits _ ((List.mem_tails _ _).mpr hsuffix)

/-- A run in which the quantities at the best ask add up to `2 ^ 32`. -/
def wrappedSumRun : List InboundMessage :=
  [limitOrderMessage 2 .sell 100 2147483648, limitOrderMessage 1 .sell 100 2147483648]

/-- **The best ask is hidden**: two SELL orders rest at 100, and the book is reported to have
no ask. -/
theorem not_bestAlwaysExact_wrappedSumRun : ¬ BestAlwaysExact [] (fun _ => 0) wrappedSumRun := by
  intro h
  have hfound := (h.states _ (List.suffix_refl wrappedSumRun)).found
  exact absurd hfound (by decide)

end Run

end ExchangeEngine
