import ExchangeEngine.Announcements
import ExchangeEngine.Entries

/-!
# The Trade Updates of a Run

The feed should carry the trades of a run, each once and in order. The handlers take the
trades to publish from the buffer of the order book, and the early returns of `ModifyOrder`
leave that buffer as an earlier call filled it: a modify that passes the checks but changes
nothing publishes the trades of that call again.

This module proves that such a modify is the only way to go wrong: the feed is right for a
run exactly when every modify without effect finds the buffer empty.

## Main results

* `publishes_once_iff`: when the trade updates of a run are its trades.
* `not_publishesOnce_repeatedRun`: a run in which a trade is published twice.
-/

open PriceTime

namespace ExchangeEngine

/-- What a trade update says about a trade: price, quantity, and side of the aggressor. -/
def TradeUpdate.content (u : TradeUpdate) : Price × Quantity × UInt8 :=
  (u.price, u.quantity, u.aggressorSide)

/-- A byte that names a side is the byte of that side. -/
theorem BuySell.toUInt8_of_ofUInt8 {b : UInt8} {side : BuySell}
    (h : BuySell.ofUInt8 b = some side) : side.toUInt8 = b := by
  rw [BuySell.ofUInt8] at h
  split at h
  · rename_i hb
    obtain rfl := Option.some.inj h
    exact hb.symm
  split at h
  · rename_i hb
    obtain rfl := Option.some.inj h
    exact hb.symm
  split at h
  · rename_i hb
    obtain rfl := Option.some.inj h
    exact hb.symm
  · cases h

variable (symbol : List UInt8) (clock : ℕ → Timestamp)

/-- The side of the order that a request is about, as the byte in the request that entered
it. -/
def requestSide (past : List InboundMessage) (msg : InboundMessage) : UInt8 :=
  let entered (orderId : OrderId) : UInt8 :=
    ((entry symbol clock past orderId).map fun p => p.2.side).getD 0
  match msg.body with
  | .newOrder request => request.side
  | .cancelOrder request => entered request.orderId
  | .modifyOrder request => entered request.orderId

/-- What the feed should say about a history: for each trade executed, in order, its price
and quantity and the side of the order whose request caused it. -/
def expectedUpdates (past : List InboundMessage) : List (Price × Quantity × UInt8) :=
  chronicle (fun before msg => ((after symbol clock before).stepTrades msg).map fun t =>
    (t.price, t.quantity, requestSide symbol clock before msg)) past

/-- **Each trade is published exactly once**, and the count of trades, a 64-bit number, is
the number of trades. -/
structure PublishesOnce (past : List InboundMessage) : Prop where
  updates : (after symbol clock past).updates.map TradeUpdate.content =
    expectedUpdates symbol clock past
  count : (after symbol clock past).tradesExecuted =
    UInt64.ofNat (executedTrades symbol clock past).length

/-- The content of the updates in an announcement. -/
def Announcement.contents (a : Announcement) : List (Price × Quantity × UInt8) :=
  a.updates.map TradeUpdate.content

/-- The side that a modify takes its order to be on is the side of the request that entered
the order. -/
theorem modifySide_eq {msg : InboundMessage} {past : List InboundMessage}
    (h : acceptedOrders (msg :: past) < 2 ^ 64) {request : ModifyOrderRequest}
    (hbody : msg.body = .modifyOrder request) {t : Trade}
    (ht : t ∈ (after symbol clock past).stepTrades msg) :
    (MatchingEngine.modifySide request.orderId t).toUInt8 =
      requestSide symbol clock past msg := by
  have hpast := acceptedOrders_lt_of_cons h
  have hwf := (after_inv symbol clock hpast).book.wf
  rw [stepTrades_eq_moments symbol clock h] at ht
  obtain ⟨m, hm, rfl⟩ := List.mem_map.mp ht
  cases hcall : (after symbol clock past).bookCall? msg with
  | none => simp [MatchingEngine.stepMoments, hcall] at hm
  | some c =>
      have hc : c = .modifyOrder request.orderId request.newPrice request.newQuantity := by
        simp only [MatchingEngine.bookCall?, hbody] at hcall
        split at hcall
        · cases hcall
        · exact (Option.some.inj hcall).symm
      simp only [MatchingEngine.stepMoments, hcall] at hm
      obtain ⟨b', order, s, -, henters, hmoment⟩ := Orderbook.exists_enters_of_mem_callMoments
        hwf (after_allows symbol clock h hcall) hm
      have hid : (b'.heap.read order).orderId = request.orderId := by
        rw [henters.orderId, hc]
        rfl
      have hside : MatchingEngine.modifySide request.orderId m.trade = buySellOf s := by
        rw [MatchingEngine.modifySide, hmoment.buyOrderId, ← hid]
        cases s with
        | bid => exact if_pos rfl
        | ask => exact if_neg hmoment.ne
      rcases henters.origin with horigin | ⟨hmem, newPrice, newQuantity, horigin, hread⟩
      · rw [hc] at horigin
        cases horigin
      · rw [hread] at hid
        have hs := henters.addable.buySell
        rw [hread] at hs
        have hmem' := hwf.mem_side.mpr ⟨order, hmem, hs, rfl⟩
        obtain ⟨entered, hentry, -, hbyte⟩ := entered_after symbol clock hpast s _ hmem'
        have hentry' : entry symbol clock past request.orderId =
            some (((after symbol clock past).orderbook.heap.read order).sessionId, entered) := by
          rw [← hid]
          exact hentry
        rw [hside, requestSide, hbody]
        simp only [hentry', Option.map_some, Option.getD_some]
        exact BuySell.toUInt8_of_ofUInt8 hbyte
/-- **What a step publishes**, when no trade is left over from an earlier call. -/
theorem contents_stepAnnouncements {msg : InboundMessage} {past : List InboundMessage}
    (h : acceptedOrders (msg :: past) < 2 ^ 64)
    (hstale : (after symbol clock past).staleTrades msg = []) :
    ((after symbol clock past).stepAnnouncements msg).flatMap Announcement.contents =
      ((after symbol clock past).stepTrades msg).map fun t =>
        (t.price, t.quantity, requestSide symbol clock past msg) := by
  have htrades := (after symbol clock past).map_trade_stepAnnouncements msg
  rw [hstale, List.append_nil] at htrades
  cases (after symbol clock past).handled msg with
  | newRejected request reason body check =>
      rw [← htrades]
      simp only [MatchingEngine.stepAnnouncements, body, check]
      rfl
  | newAccepted request side orderType body check =>
      have hside : side.toUInt8 = request.side :=
        BuySell.toUInt8_of_ofUInt8 (MatchingEngine.checkNewOrder_eq_ok check).1
      rw [← htrades, requestSide]
      simp only [MatchingEngine.stepAnnouncements, body, check]
      rw [MatchingEngine.map_trade_announcements, List.map_eq_flatMap]
      refine MatchingEngine.flatMap_announcements
        (MatchingEngine.announces_newOrderTrade msg.sessionId _ _ side) (fun e' t _ => ?_) _
      rw [MatchingEngine.announcement_newOrderTrade, Announcement.contents, ← hside]
      rfl
  | cancelRejected request body =>
      rw [← htrades]
      simp only [MatchingEngine.stepAnnouncements, body]
      rfl
  | cancelled request owner body =>
      rw [← htrades]
      simp only [MatchingEngine.stepAnnouncements, body]
      rfl
  | modifyRejected request reason body check =>
      rw [← htrades]
      simp only [MatchingEngine.stepAnnouncements, body, check]
      rfl
  | modified request body check =>
      have hcontents : ((after symbol clock past).stepAnnouncements msg).flatMap
          Announcement.contents = ((after symbol clock past).stepTrades msg).map fun t =>
            (t.price, t.quantity, (MatchingEngine.modifySide request.orderId t).toUInt8) := by
        rw [← htrades]
        simp only [MatchingEngine.stepAnnouncements, body, check]
        rw [MatchingEngine.map_trade_announcements, List.map_eq_flatMap]
        refine MatchingEngine.flatMap_announcements
          (MatchingEngine.announces_modifyOrderTrade request.orderId) (fun e' t _ => ?_) _
        rw [MatchingEngine.announcement_modifyOrderTrade]
        rfl
      rw [hcontents]
      exact List.map_congr_left fun t ht => by rw [modifySide_eq symbol clock h body ht]

/-- The trades that the steps of a history take from the buffer of an earlier call. -/
def repeatedTrades (past : List InboundMessage) : List Trade :=
  chronicle (fun before msg => (after symbol clock before).staleTrades msg) past

/-- There are as many announcements as trades executed and trades repeated, and each
publishes one update. -/
theorem length_updates_after (past : List InboundMessage) :
    (runAnnouncements symbol clock past).length =
        (executedTrades symbol clock past).length + (repeatedTrades symbol clock past).length ∧
      (after symbol clock past).updates.length = (runAnnouncements symbol clock past).length := by
  constructor
  · have htrades := congrArg List.length (map_trade_runAnnouncements symbol clock past)
    rw [List.length_map, length_chronicle_append] at htrades
    exact htrades
  · have hone : ∀ a ∈ runAnnouncements symbol clock past, a.updates.length = 1 := by
      refine forall_mem_chronicle fun msg before _ a ha => ?_
      obtain ⟨u, hu⟩ := MatchingEngine.updates_of_mem_stepAnnouncements ha
      rw [hu]
      rfl
    rw [updates_after, List.length_flatMap, List.map_congr_left hone]
    simp

/-- **When the feed carries each trade exactly once**: when every modify without effect finds
the buffer of recent trades empty. -/
theorem publishes_once_iff (past : List InboundMessage) (h : acceptedOrders past < 2 ^ 64) :
    PublishesOnce symbol clock past ↔
      ∀ msg before, (msg :: before) <:+ past →
        (after symbol clock before).staleTrades msg = [] := by
  obtain ⟨hcount, hlength⟩ := length_updates_after symbol clock past
  constructor
  · rintro ⟨hupdates, -⟩
    have hexpected : (expectedUpdates symbol clock past).length =
        (executedTrades symbol clock past).length :=
      length_chronicle_congr (fun _ _ => List.length_map _) past
    have hnone : repeatedTrades symbol clock past = [] := by
      have := congrArg List.length hupdates
      rw [List.length_map] at this
      exact List.eq_nil_of_length_eq_zero (by omega)
    exact chronicle_eq_nil.mp hnone
  · intro hstale
    have hnone : repeatedTrades symbol clock past = [] := chronicle_eq_nil.mpr hstale
    refine ⟨?_, ?_⟩
    · rw [updates_after, List.map_flatMap, runAnnouncements, flatMap_chronicle]
      refine chronicle_congr fun msg before hsuffix => ?_
      exact contents_stepAnnouncements symbol clock (acceptedOrders_lt_of_suffix hsuffix h)
        (hstale msg before hsuffix)
    · rw [(announced_after symbol clock past).tradesExecuted, hcount, hnone]
      exact UInt64.zero_add _

/-- A run in which a modify between two trades changes the price of an order. -/
def changedRun : List InboundMessage :=
  [limitOrderMessage 2 .buy 101 1, modifyOrderMessage 1 1 101 2, limitOrderMessage 2 .buy 100 3,
    limitOrderMessage 1 .sell 100 5]

theorem publishes_once_iff_changedRun :
    expectedUpdates [] (fun _ => 0) changedRun = [(100, 3, 1), (101, 1, 1)] ∧
    PublishesOnce [] (fun _ => 0) changedRun :=
  ⟨by decide,
    (publishes_once_iff [] (fun _ => 0) changedRun (by decide)).mpr
      (chronicle_eq_nil.mp (by decide))⟩

/-- A run in which a modify gives an order the price and quantity that it has, after a trade. -/
def repeatedRun : List InboundMessage :=
  [modifyOrderMessage 1 1 100 2, limitOrderMessage 2 .buy 100 3, limitOrderMessage 1 .sell 100 5]

/-- The one trade of the run is published again, as one of the modified order. -/
theorem not_publishesOnce_repeatedRun :
    expectedUpdates [] (fun _ => 0) repeatedRun = [(100, 3, 1)] ∧
    (after [] (fun _ => 0) repeatedRun).updates.map TradeUpdate.content =
      [(100, 3, 1), (100, 3, 2)] ∧
    ¬ PublishesOnce [] (fun _ => 0) repeatedRun := by
  refine ⟨by decide, by decide, fun h => ?_⟩
  exact absurd h.updates (by decide)

end ExchangeEngine
