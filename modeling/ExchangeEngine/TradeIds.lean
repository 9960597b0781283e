import ExchangeEngine.Crossing
import ExchangeEngine.Publication

/-!
# The Trade Ids of a Run

A trade id should identify a trade: the trade update and the execution reports of one trade
carry the same id, and those of different trades different ones. The engine reads its counter
of trade ids when it publishes an update and advances it when it sends a report, once for each
report; the trade loop of `handleModifyOrder` sends no report and never advances it.

So the two reports of a trade of a new order differ, and the updates of two trades of modifies
agree. Trade ids identify trades only in runs without trades of new orders, and with at most
one trade.

## Main results

* `trade_ids_identify`: trade ids are right in these runs.
* `not_tradeIdsIdentify_tradingRun`: a run with one trade, whose two reports carry different
  ids.
-/

open PriceTime

namespace ExchangeEngine

/-- The trade ids that an announcement carries, in its trade update and its reports. -/
def Announcement.tradeIds (a : Announcement) : List TradeId :=
  a.updates.map TradeUpdate.tradeId ++ a.reports.map fun p => p.2.tradeId

variable (symbol : List UInt8) (clock : ℕ → Timestamp)

/-- The announcements of a history, each with the number of the trade that it is about, in the
order of execution. Those of one step are about the trades executed last. -/
def numberedAnnouncements (past : List InboundMessage) : List (Announcement × ℕ) :=
  chronicle (fun before msg =>
    let as := (after symbol clock before).stepAnnouncements msg
    as.zipIdx ((executedTrades symbol clock (msg :: before)).length - as.length)) past

/-- **Trade ids identify trades**: the updates and reports of a run are those of its
announcements, and of the ids in them two are equal exactly when they are for the same
trade. -/
structure TradeIdsIdentify (past : List InboundMessage) : Prop where
  updates : (after symbol clock past).updates =
    (runAnnouncements symbol clock past).flatMap Announcement.updates
  reports : (after symbol clock past).reports =
    (runAnnouncements symbol clock past).flatMap Announcement.reports
  ids : ∀ x ∈ numberedAnnouncements symbol clock past,
    ∀ y ∈ numberedAnnouncements symbol clock past,
      ∀ i ∈ x.1.tradeIds, ∀ j ∈ y.1.tradeIds, i = j ↔ x.2 = y.2

/-! ### The number of an announcement -/

section Numbers

variable {symbol clock} {msg : InboundMessage} {past : List InboundMessage}

theorem executedTrades_cons (msg : InboundMessage) (past : List InboundMessage) :
    executedTrades symbol clock (msg :: past) =
      executedTrades symbol clock past ++ (after symbol clock past).stepTrades msg :=
  rfl

/-- What a step takes from the buffer is the whole buffer, and then it trades nothing. -/
theorem staleTrades_cases (e : MatchingEngine) (msg : InboundMessage) :
    e.staleTrades msg = [] ∨
      e.staleTrades msg = e.orderbook.trades ∧ e.stepTrades msg = [] := by
  rw [MatchingEngine.staleTrades]
  split
  · rename_i orderId newPrice newQuantity hcall
    split
    · rename_i htarget
      refine Or.inr ⟨rfl, ?_⟩
      simp [MatchingEngine.stepTrades, hcall, Orderbook.callTrades, Orderbook.entering?, htarget]
    · exact Or.inl rfl
  · exact Or.inl rfl

/-- **The buffer holds the trades executed last.** -/
theorem buffer_suffix (h : acceptedOrders past < 2 ^ 64) :
    (after symbol clock past).orderbook.trades <:+ executedTrades symbol clock past := by
  induction past with
  | nil => exact List.suffix_rfl
  | cons msg past ih =>
      have hpast := acceptedOrders_lt_of_cons h
      have hwf := (after_inv symbol clock hpast).book.wf
      rw [after_cons, executedTrades_cons, MatchingEngine.stepTrades]
      cases hcall : (after symbol clock past).bookCall? msg with
      | none =>
          rw [MatchingEngine.orderbook_of_no_call hcall]
          simp only [List.append_nil]
          exact ih hpast
      | some c =>
          rw [MatchingEngine.orderbook_of_call hcall]
          rcases Orderbook.call_cases hwf (after_allows symbol clock h hcall) with
            ⟨b', order, s, hent, -, -⟩ | ⟨orderId, rfl, hent, -, -⟩ | ⟨-, -, -, -, hent, heq⟩
          · simp only [Orderbook.callTrades_of_entering hent]
            exact List.suffix_append _ _
          · have htrades := (Orderbook.cancelOrder_spec hwf orderId).2.2.1
            rw [Orderbook.call, htrades]
            simp only [Orderbook.callTrades, hent, List.append_nil]
            exact ih hpast
          · rw [heq]
            simp only [Orderbook.callTrades, hent, List.append_nil]
            exact ih hpast

/-- The trades that a step announces are the ones executed last. -/
theorem announced_suffix (h : acceptedOrders (msg :: past) < 2 ^ 64) :
    ((after symbol clock past).stepAnnouncements msg).map Announcement.trade <:+
      executedTrades symbol clock (msg :: past) := by
  have hpast := acceptedOrders_lt_of_cons h
  rw [MatchingEngine.map_trade_stepAnnouncements, executedTrades_cons]
  rcases staleTrades_cases (after symbol clock past) msg with hnone | ⟨hbuffer, hnone⟩
  · rw [hnone, List.append_nil]
    exact List.suffix_append _ _
  · rw [hbuffer, hnone, List.append_nil, List.nil_append]
    exact buffer_suffix hpast

/-- **An announcement is about the trade of its number.** -/
theorem executedTrades_of_mem (h : acceptedOrders past < 2 ^ 64) {x : Announcement × ℕ}
    (hx : x ∈ numberedAnnouncements symbol clock past) :
    (executedTrades symbol clock past)[x.2]? = some x.1.trade := by
  induction past with
  | nil => cases hx
  | cons msg past ih =>
      have hpast := acceptedOrders_lt_of_cons h
      rcases List.mem_append.mp hx with hx | hx
      · have hold := ih hpast hx
        have hlt := (List.getElem?_eq_some_iff.mp hold).1
        rw [executedTrades_cons, List.getElem?_append_left hlt]
        exact hold
      · obtain ⟨before, hsuffix⟩ : ((after symbol clock past).stepAnnouncements msg).map
            Announcement.trade <:+ executedTrades symbol clock (msg :: past) :=
          announced_suffix h
        obtain ⟨hle, hat⟩ := List.mem_zipIdx_iff_le_and_getElem?_sub.mp hx
        rw [← hsuffix, List.length_append, List.length_map, Nat.add_sub_cancel] at hle hat
        rw [← hsuffix, List.getElem?_append_right hle, List.getElem?_map, hat]
        rfl

/-- The announcements of a run are the numbered ones. -/
theorem map_fst_numberedAnnouncements (past : List InboundMessage) :
    (numberedAnnouncements symbol clock past).map Prod.fst =
      runAnnouncements symbol clock past := by
  rw [numberedAnnouncements, map_chronicle]
  exact chronicle_congr fun msg before _ => List.zipIdx_map_fst _ _

end Numbers

/-! ### Runs in which trade ids identify trades -/

/-- Whether a step keeps trade ids right: it adds no order that trades, and if it changes an
order that trades, that is the first trade of the run and its only one. -/
def keepsTradeIds (past : List InboundMessage) (msg : InboundMessage) : Bool :=
  match msg.body with
  | .newOrder _ => !(after symbol clock past).crosses msg
  | .cancelOrder _ => true
  | .modifyOrder _ =>
      !(after symbol clock past).crosses msg ||
        (executedTrades symbol clock past).isEmpty && (after symbol clock past).stopsAtFirst msg

section Steps

variable {symbol clock} {msg : InboundMessage} {past : List InboundMessage}

/-- The trade loop of a modify carries one trade id and sends no report. -/
theorem tradeIds_of_mem_modify {e : MatchingEngine} {orderId : OrderId} {trades : List Trade}
    {a : Announcement}
    (ha : a ∈ MatchingEngine.announcements (MatchingEngine.modifyOrderTrade orderId) e trades) :
    a.reports = [] ∧ a.tradeIds = [e.nextTradeId] := by
  induction trades generalizing e with
  | nil => cases ha
  | cons trade trades ih =>
      rcases List.mem_cons.mp ha with rfl | ha
      · rw [MatchingEngine.announcement_modifyOrderTrade]
        exact ⟨rfl, rfl⟩
      · have hrest := ih ha
        exact hrest

/-- A step that adds no order that trades announces with the current trade id only, and sends
no report. -/
theorem tradeIds_of_mem_step (h : acceptedOrders (msg :: past) < 2 ^ 64)
    (hkeeps : keepsTradeIds symbol clock past msg = true) {a : Announcement}
    (ha : a ∈ (after symbol clock past).stepAnnouncements msg) :
    a.reports = [] ∧ a.tradeIds = [(after symbol clock past).nextTradeId] := by
  cases (after symbol clock past).handled msg with
  | newRejected request reason body check =>
      simp [MatchingEngine.stepAnnouncements, body, check] at ha
  | newAccepted request side orderType body check call =>
      -- nothing is traded, so nothing is announced
      simp only [keepsTradeIds, body, Bool.not_eq_true'] at hkeeps
      have hmap := MatchingEngine.map_trade_of_addOrder call
      rw [(stepTrades_eq_nil_iff h).mpr hkeeps] at hmap
      rw [List.map_eq_nil_iff.mp hmap] at ha
      cases ha
  | cancelRejected request body => simp [MatchingEngine.stepAnnouncements, body] at ha
  | cancelled request tracked body => simp [MatchingEngine.stepAnnouncements, body] at ha
  | modifyRejected request reason body check =>
      simp [MatchingEngine.stepAnnouncements, body, check] at ha
  | modified request body check =>
      simp only [MatchingEngine.stepAnnouncements, body, check] at ha
      have hmodify := tradeIds_of_mem_modify ha
      exact hmodify

/-- Such a step executes at most one trade, and only as the first of the run. -/
theorem stepTrades_of_keepsTradeIds (h : acceptedOrders (msg :: past) < 2 ^ 64)
    (hkeeps : keepsTradeIds symbol clock past msg = true) :
    (after symbol clock past).stepTrades msg = [] ∨
      executedTrades symbol clock past = [] ∧
        ((after symbol clock past).stepTrades msg).length = 1 := by
  by_cases hcross : (after symbol clock past).crosses msg = true
  · refine Or.inr ?_
    obtain ⟨hfirst, hstop⟩ : executedTrades symbol clock past = [] ∧
        (after symbol clock past).stopsAtFirst msg = true := by
      rw [keepsTradeIds] at hkeeps
      split at hkeeps
      · simp [hcross] at hkeeps
      · rename_i request hbody
        cases hauth : (after symbol clock past).authorize msg.sessionId request.orderId <;>
          simp [MatchingEngine.crosses, MatchingEngine.incoming?, MatchingEngine.bookCall?,
            hbody, hauth, Orderbook.incoming?, Orderbook.entering?] at hcross
      · simpa [hcross] using hkeeps
    exact ⟨hfirst, length_stepTrades_eq_one h hcross hstop⟩
  · exact Or.inl ((stepTrades_eq_nil_iff h).mpr (Bool.not_eq_true _ ▸ hcross))

/-- **The invariant of these runs**: at most one trade, and one trade id in use. -/
theorem run_of_keepsTradeIds (h : acceptedOrders past < 2 ^ 64)
    (hkeeps : ∀ msg before, (msg :: before) <:+ past →
      keepsTradeIds symbol clock before msg = true) :
    (executedTrades symbol clock past).length ≤ 1 ∧ (after symbol clock past).nextTradeId = 1 ∧
      ∀ a ∈ runAnnouncements symbol clock past, a.tradeIds = [1] := by
  induction past with
  | nil =>
      refine ⟨Nat.zero_le 1, rfl, fun a ha => ?_⟩
      cases ha
  | cons msg past ih =>
      have hpast := acceptedOrders_lt_of_cons h
      obtain ⟨hlength, hnext, hids⟩ := ih hpast fun msg' before hsuffix =>
        hkeeps msg' before (hsuffix.trans (List.suffix_cons msg past))
      have hstep := hkeeps msg past List.suffix_rfl
      have hannounce : ∀ a ∈ (after symbol clock past).stepAnnouncements msg,
          a.reports = [] ∧ a.tradeIds = [1] := by
        intro a ha
        rw [← hnext]
        exact tradeIds_of_mem_step h hstep ha
      refine ⟨?_, ?_, fun a ha => ?_⟩
      · rw [executedTrades_cons, List.length_append]
        rcases stepTrades_of_keepsTradeIds h hstep with hnone | ⟨hfirst, hone⟩
        · rw [hnone, List.length_nil]
          exact hlength
        · rw [hfirst, List.length_nil, hone]
      · have hsilent : ((after symbol clock past).stepAnnouncements msg).flatMap
            Announcement.reports = [] :=
          List.flatMap_eq_nil_iff.mpr fun a ha => (hannounce a ha).1
        rw [after_cons, (MatchingEngine.announced_processInboundMessage _ msg).nextTradeId,
          hsilent, hnext]
        rfl
      · rcases List.mem_append.mp ha with ha | ha
        · exact hids a ha
        · exact (hannounce a ha).2

end Steps

/-- **When trade ids identify trades**: in runs without trades of new orders and with at most
one trade, that of a modify. -/
theorem trade_ids_identify (past : List InboundMessage) (h : acceptedOrders past < 2 ^ 64)
    (hkeeps : ∀ msg before, (msg :: before) <:+ past →
      keepsTradeIds symbol clock before msg = true) :
    TradeIdsIdentify symbol clock past := by
  obtain ⟨hlength, -, hids⟩ := run_of_keepsTradeIds h hkeeps
  have hone : ∀ x ∈ numberedAnnouncements symbol clock past, x.2 = 0 ∧ x.1.tradeIds = [1] := by
    intro x hx
    have hat := executedTrades_of_mem h hx
    have hlt := (List.getElem?_eq_some_iff.mp hat).1
    have hmem : x.1 ∈ runAnnouncements symbol clock past := by
      rw [← map_fst_numberedAnnouncements]
      exact List.mem_map_of_mem hx
    exact ⟨by omega, hids x.1 hmem⟩
  refine ⟨updates_after symbol clock past, reports_after symbol clock past,
    fun x hx y hy i hi j hj => ?_⟩
  obtain ⟨hx, hxids⟩ := hone x hx
  obtain ⟨hy, hyids⟩ := hone y hy
  rw [hxids, List.mem_singleton] at hi
  rw [hyids, List.mem_singleton] at hj
  rw [hi, hj, hx, hy]
  exact ⟨fun _ => rfl, fun _ => rfl⟩

/-- A run with one trade, by a modify, which a later modify without effect publishes again. -/
def modifiedOnceRun : List InboundMessage :=
  [modifyOrderMessage 2 2 100 3, modifyOrderMessage 1 1 100 5, limitOrderMessage 2 .sell 100 8,
    limitOrderMessage 1 .buy 90 5]

theorem trade_ids_identify_modifiedOnceRun :
    (after [] (fun _ => 0) modifiedOnceRun).updates.map TradeUpdate.tradeId = [1, 1] ∧
    TradeIdsIdentify [] (fun _ => 0) modifiedOnceRun := by
  have hkeeps : everyStep (keepsTradeIds [] fun _ => 0) modifiedOnceRun = true := by decide
  exact ⟨by decide, trade_ids_identify [] (fun _ => 0) modifiedOnceRun (by decide)
    (everyStep_iff.mp hkeeps)⟩

/-- A run with one trade, by a new order. -/
def tradingRun : List InboundMessage :=
  [limitOrderMessage 2 .buy 100 5, limitOrderMessage 1 .sell 100 5]

/-- The update and the first report of the trade carry the id 1, the second report the id 2. -/
theorem not_tradeIdsIdentify_tradingRun :
    (runAnnouncements [] (fun _ => 0) tradingRun).map Announcement.tradeIds = [[1, 1, 2]] ∧
    ¬ TradeIdsIdentify [] (fun _ => 0) tradingRun := by
  refine ⟨by decide, fun h => ?_⟩
  have hwrong : ((numberedAnnouncements [] (fun _ => 0) tradingRun).any fun x =>
      decide ((1 : TradeId) ∈ x.1.tradeIds ∧ (2 : TradeId) ∈ x.1.tradeIds)) = true := by decide
  obtain ⟨x, hx, hboth⟩ := List.any_eq_true.mp hwrong
  obtain ⟨hone, htwo⟩ := of_decide_eq_true hboth
  exact absurd ((h.ids x hx x hx 1 hone 2 htwo).mpr rfl) (by decide)

end ExchangeEngine
