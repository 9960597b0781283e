import ExchangeEngine.Announcements
import ExchangeEngine.Crossing
import ExchangeEngine.Tracking

/-!
# The Execution Reports of a Run

Every trade should be reported to the owners of both its orders. `handleNewOrder` does so: it
knows the owner of the incoming order and finds that of the resting one in the map. The trade
loop of `handleModifyOrder` sends no execution report at all.

`reports_with_missing` says what is sent in every run: the reports that are due, less those
for trades of modifies. So the reports of a run are complete exactly when none of its modifies
trades.

## Main results

* `reportsEveryTrade_iff`: when every trade of a run is reported to both owners.
* `not_reportsEveryTrade_modifiedRun`: a run in which a trade is reported to nobody.
-/

open PriceTime

namespace ExchangeEngine

/-- What an execution report says about an execution: to which session, for which order, at
what price, for what quantity and on which side. -/
abbrev ReportContent := Option SessionId × OrderId × Price × Quantity × UInt8

/-- What a report says, and to whom; its trade id and its `leavesQty` are looked at elsewhere. -/
def reportContent (p : SessionId × ExecutionReport) : ReportContent :=
  (some p.1, p.2.orderId, p.2.execPrice, p.2.execQty, p.2.side)

/-- The content of the reports in an announcement. -/
def Announcement.reportContents (a : Announcement) : List ReportContent :=
  a.reports.map reportContent

variable (symbol : List UInt8) (clock : ℕ → Timestamp)

/-- The reports that are due for a trade: one to the owner of its buy order and one to the
owner of its sell order. -/
def dueReports (history : List InboundMessage) (t : Trade) : List ReportContent :=
  [(owner symbol clock history t.buyOrderId, t.buyOrderId, t.price, t.quantity,
      BuySell.buy.toUInt8),
    (owner symbol clock history t.sellOrderId, t.sellOrderId, t.price, t.quantity,
      BuySell.sell.toUInt8)]

/-- The reports that are due for the trades of a history. -/
def expectedReports (past : List InboundMessage) : List ReportContent :=
  chronicle (fun before msg => ((after symbol clock before).stepTrades msg).flatMap
    (dueReports symbol clock (msg :: before))) past

/-- **Every trade is reported to both owners**: what has been sent is what is due, each report
exactly once and no other. -/
def ReportsEveryTrade (past : List InboundMessage) : Prop :=
  ((after symbol clock past).reports.map reportContent).Perm (expectedReports symbol clock past)

/-- The reports that a step owes and does not send: all those for the trades of a modify. -/
def missingReports (before : List InboundMessage) (msg : InboundMessage) :
    List ReportContent :=
  match msg.body with
  | .modifyOrder _ =>
      ((after symbol clock before).stepTrades msg).flatMap (dueReports symbol clock (msg :: before))
  | _ => []

section Chronicle

variable {α : Type*} {step step' missing : List InboundMessage → InboundMessage → List α}

/-- Lists that agree up to order at every step agree up to order over a run. -/
theorem chronicle_append_perm {past : List InboundMessage}
    (h : ∀ msg before, (msg :: before) <:+ past →
      (step before msg ++ missing before msg).Perm (step' before msg)) :
    (chronicle step past ++ chronicle missing past).Perm (chronicle step' past) := by
  induction past with
  | nil => exact List.Perm.refl _
  | cons msg past ih =>
      have hpast := ih fun msg' before hsuffix =>
        h msg' before (hsuffix.trans (List.suffix_cons msg past))
      have hstep := h msg past List.suffix_rfl
      have hswap : ((chronicle step past ++ step past msg) ++
          (chronicle missing past ++ missing past msg)).Perm
          ((chronicle step past ++ chronicle missing past) ++
            (step past msg ++ missing past msg)) := by
        simp only [List.append_assoc]
        exact (List.perm_append_comm_assoc _ _ _).append_left _
      exact hswap.trans (hpast.append hstep)

end Chronicle

/-! ### The parties of a trade of an accepted request -/

section Steps

variable {symbol clock} {msg : InboundMessage} {past : List InboundMessage}

/-- A trade of an accepted request is between the order that it enters and one that rested. -/
theorem parties_of_newAccepted (h : acceptedOrders (msg :: past) < 2 ^ 64)
    {request : NewOrderRequest} {side : BuySell} {orderType : OrderType}
    (hcall : (after symbol clock past).bookCall? msg = some (.addOrder
      ((after symbol clock past).newOrder msg.sessionId request side orderType))) {t : Trade}
    (ht : t ∈ (after symbol clock past).stepTrades msg) :
    MatchingEngine.passiveOrderId side t ∈ (after symbol clock past).orderbook.view.ids ∧
      ((side = .buy ∧ t.buyOrderId = (after symbol clock past).nextOrderId) ∨
        (side = .sell ∧ t.sellOrderId = (after symbol clock past).nextOrderId)) := by
  have hpast := acceptedOrders_lt_of_cons h
  have hwf := (after_inv symbol clock hpast).book.wf
  rw [stepTrades_eq_moments symbol clock h] at ht
  obtain ⟨m, hm, rfl⟩ := List.mem_map.mp ht
  simp only [MatchingEngine.stepMoments, hcall] at hm
  obtain ⟨b', order, s, -, henters, hmoment⟩ := Orderbook.exists_enters_of_mem_callMoments
    hwf (after_allows symbol clock h hcall) hm
  have hid : (b'.heap.read order).orderId = (after symbol clock past).nextOrderId :=
    henters.orderId
  have hside : side = buySellOf s := by
    rcases henters.origin with hc | ⟨-, newPrice, newQuantity, hc, -⟩
    · have hs := henters.addable.buySell
      rw [← BookCall.addOrder.inj hc] at hs
      exact hs
    · cases hc
  have hresting : m.resting.orderId ∈ (after symbol clock past).orderbook.view.ids := by
    obtain ⟨a, ha, hst⟩ := hmoment.exists_offer
    rw [henters.view, Book.side_withdraw] at ha
    have hid : a.id = m.resting.orderId := congrArg Prod.fst hst
    exact Book.mem_ids.mpr ⟨s.contra, a, List.mem_of_mem_filter ha, hid⟩
  have hbuyer := hmoment.buyOrderId
  have hseller := hmoment.sellOrderId
  rw [hid] at hbuyer hseller
  cases s with
  | bid =>
      subst hside
      refine ⟨?_, Or.inl ⟨rfl, hbuyer⟩⟩
      rw [show MatchingEngine.passiveOrderId (buySellOf .bid) m.trade = m.trade.sellOrderId
        from rfl, hseller]
      exact hresting
  | ask =>
      subst hside
      refine ⟨?_, Or.inr ⟨rfl, hseller⟩⟩
      rw [show MatchingEngine.passiveOrderId (buySellOf .ask) m.trade = m.trade.buyOrderId
        from rfl, hbuyer]
      exact hresting

/-! ### What a step reports -/

/-- **The trades of an accepted request are reported** to the owners of both orders. -/
theorem reportContents_newAccepted (h : acceptedOrders (msg :: past) < 2 ^ 64)
    {request : NewOrderRequest} {side : BuySell} {orderType : OrderType}
    (hbody : msg.body = .newOrder request)
    (hcheck : MatchingEngine.checkNewOrder request = .ok (side, orderType))
    (hcall : (after symbol clock past).bookCall? msg = some (.addOrder
      ((after symbol clock past).newOrder msg.sessionId request side orderType)))
    (hacc : MatchingEngine.isAccepted msg = true) :
    (((after symbol clock past).stepAnnouncements msg).flatMap
        Announcement.reportContents).Perm
      (((after symbol clock past).stepTrades msg).flatMap
        (dueReports symbol clock (msg :: past))) := by
  have hpast := acceptedOrders_lt_of_cons h
  have hcontents : ((after symbol clock past).stepAnnouncements msg).flatMap
      Announcement.reportContents =
      ((after symbol clock past).stepTrades msg).flatMap fun t =>
        (some msg.sessionId, (after symbol clock past).nextOrderId, t.price, t.quantity,
            side.toUInt8) ::
          ((((after symbol clock past).orderToSession.insert
              (after symbol clock past).nextOrderId msg.sessionId).lookup
            (MatchingEngine.passiveOrderId side t)).map fun sessionId =>
              ((some sessionId, MatchingEngine.passiveOrderId side t, t.price, t.quantity,
                side.opposite.toUInt8) : ReportContent)).toList := by
    simp only [MatchingEngine.stepAnnouncements, hbody, hcheck]
    rw [MatchingEngine.stepTrades, hcall]
    refine MatchingEngine.flatMap_announcements
      (MatchingEngine.announces_newOrderTrade msg.sessionId _ _ side) (fun e' t hcore => ?_) _
    have hmap : e'.orderToSession = (after symbol clock past).orderToSession.insert
        (after symbol clock past).nextOrderId msg.sessionId :=
      congrArg EngineCore.orderToSession hcore
    rw [MatchingEngine.announcement_newOrderTrade, Announcement.reportContents, hmap]
    cases ((after symbol clock past).orderToSession.insert (after symbol clock past).nextOrderId
      msg.sessionId).lookup (MatchingEngine.passiveOrderId side t) <;> rfl
  rw [hcontents]
  refine List.Perm.flatMap_left _ fun t ht => ?_
  obtain ⟨hpassive, hside⟩ := parties_of_newAccepted h hcall ht
  obtain ⟨sessionId, entered, hentry, hlookup⟩ := tracked_of_resting hpast hpassive
  have hne := ne_nextOrderId h hpassive hacc
  have hpassiveOwner : owner symbol clock (msg :: past)
      (MatchingEngine.passiveOrderId side t) = some sessionId := by
    rw [owner, entry_cons h hentry]
    rfl
  have haggressorOwner : owner symbol clock (msg :: past)
      (after symbol clock past).nextOrderId = some msg.sessionId := by
    rw [owner, entry_cons_self hbody hacc]
    rfl
  rw [UnorderedMap.lookup_insert_ite, if_neg hne, hlookup, Option.map_some, Option.toList_some]
  rcases hside with ⟨rfl, hbuyer⟩ | ⟨rfl, hseller⟩
  · rw [dueReports, hbuyer, haggressorOwner]
    rw [show t.sellOrderId = MatchingEngine.passiveOrderId .buy t from rfl, hpassiveOwner]
    exact List.Perm.refl _
  · rw [dueReports, hseller, haggressorOwner]
    rw [show t.buyOrderId = MatchingEngine.passiveOrderId .sell t from rfl, hpassiveOwner]
    exact List.Perm.swap _ _ _

/-- **What a step reports**: all that is due, but for the trades of a modify. -/
theorem reportContents_with_missing (h : acceptedOrders (msg :: past) < 2 ^ 64) :
    (((after symbol clock past).stepAnnouncements msg).flatMap Announcement.reportContents ++
        missingReports symbol clock past msg).Perm
      (((after symbol clock past).stepTrades msg).flatMap
        (dueReports symbol clock (msg :: past))) := by
  cases (after symbol clock past).handled msg with
  | newRejected request reason body check call =>
      simp only [MatchingEngine.stepAnnouncements, missingReports, MatchingEngine.stepTrades,
        body, check, call]
      exact List.Perm.refl _
  | newAccepted request side orderType body check call accepted =>
      have hmissing : missingReports symbol clock past msg = [] := by
        rw [missingReports, body]
      rw [hmissing, List.append_nil]
      exact reportContents_newAccepted h body check call accepted
  | cancelRejected request body _ call =>
      simp only [MatchingEngine.stepAnnouncements, missingReports, MatchingEngine.stepTrades,
        body, call]
      exact List.Perm.refl _
  | cancelled request owner body _ call =>
      simp only [MatchingEngine.stepAnnouncements, missingReports, MatchingEngine.stepTrades,
        body, call]
      exact List.Perm.refl _
  | modifyRejected request reason body check call =>
      simp only [MatchingEngine.stepAnnouncements, missingReports, MatchingEngine.stepTrades,
        body, check, call]
      exact List.Perm.refl _
  | modified request body check call =>
      have hsilent : ((after symbol clock past).stepAnnouncements msg).flatMap
          Announcement.reportContents = [] := by
        rw [List.flatMap_eq_nil_iff]
        intro a ha
        simp only [MatchingEngine.stepAnnouncements, body, check] at ha
        obtain ⟨e', -, heq⟩ := MatchingEngine.exists_of_mem_announcements
          (MatchingEngine.announces_modifyOrderTrade request.orderId) ha
        rw [MatchingEngine.announcement_modifyOrderTrade] at heq
        rw [heq]
        rfl
      rw [hsilent, List.nil_append, missingReports, body]

end Steps

/-- **What has been reported in a run**: all that is due, but for the trades of modifies. -/
theorem reports_with_missing (past : List InboundMessage) (h : acceptedOrders past < 2 ^ 64) :
    ((after symbol clock past).reports.map reportContent ++
        chronicle (missingReports symbol clock) past).Perm
      (expectedReports symbol clock past) := by
  rw [reports_after, List.map_flatMap, runAnnouncements, flatMap_chronicle]
  exact chronicle_append_perm fun msg before hsuffix =>
    reportContents_with_missing (acceptedOrders_lt_of_suffix hsuffix h)

/-- Whether a message is a modify that trades. -/
def MatchingEngine.modifyTrades (e : MatchingEngine) (msg : InboundMessage) : Bool :=
  match msg.body with
  | .modifyOrder _ => e.crosses msg
  | _ => false

/-- A step owes no report exactly when it is not a modify that trades. -/
theorem missingReports_eq_nil_iff {msg : InboundMessage} {past : List InboundMessage}
    (h : acceptedOrders (msg :: past) < 2 ^ 64) :
    missingReports symbol clock past msg = [] ↔
      (after symbol clock past).modifyTrades msg = false := by
  obtain ⟨sessionId, body⟩ := msg
  cases body with
  | newOrder request => exact ⟨fun _ => rfl, fun _ => rfl⟩
  | cancelOrder request => exact ⟨fun _ => rfl, fun _ => rfl⟩
  | modifyOrder request =>
      rw [MatchingEngine.modifyTrades, ← stepTrades_eq_nil_iff h, missingReports,
        List.flatMap_eq_nil_iff]
      refine ⟨fun hnone => List.eq_nil_iff_forall_not_mem.mpr fun t ht => ?_, fun hnil => ?_⟩
      · cases hnone t ht
      · rw [hnil]
        exact fun t ht => absurd ht List.not_mem_nil

/-- **When every trade of a run is reported to both owners**: when no modify of the run
trades. -/
theorem reportsEveryTrade_iff (past : List InboundMessage) (h : acceptedOrders past < 2 ^ 64) :
    ReportsEveryTrade symbol clock past ↔
      ∀ msg before, (msg :: before) <:+ past →
        (after symbol clock before).modifyTrades msg = false := by
  have hperm := reports_with_missing symbol clock past h
  have hmissing : chronicle (missingReports symbol clock) past = [] ↔
      ∀ msg before, (msg :: before) <:+ past →
        (after symbol clock before).modifyTrades msg = false := by
    rw [chronicle_eq_nil]
    constructor
    · intro hnil msg before hsuffix
      exact (missingReports_eq_nil_iff symbol clock
        (acceptedOrders_lt_of_suffix hsuffix h)).mp (hnil msg before hsuffix)
    · intro hquiet msg before hsuffix
      exact (missingReports_eq_nil_iff symbol clock
        (acceptedOrders_lt_of_suffix hsuffix h)).mpr (hquiet msg before hsuffix)
  rw [← hmissing]
  constructor
  · intro hall
    have hlength := hperm.length_eq.trans hall.length_eq.symm
    rw [List.length_append] at hlength
    exact List.eq_nil_of_length_eq_zero (by omega)
  · intro hnil
    rw [hnil, List.append_nil] at hperm
    exact hperm

/-- A run in which a resting order is hit twice. -/
def hitTwiceRun : List InboundMessage :=
  [newOrderMessage 3 .buy 3 0 2, limitOrderMessage 2 .buy 100 3, limitOrderMessage 1 .sell 100 5]

theorem reportsEveryTrade_iff_hitTwiceRun :
    (expectedReports [] (fun _ => 0) hitTwiceRun).length = 4 ∧
    ReportsEveryTrade [] (fun _ => 0) hitTwiceRun := by
  have hquiet : everyStep (fun before msg => !(after [] (fun _ => 0) before).modifyTrades msg)
      hitTwiceRun = true := by decide
  refine ⟨by decide, (reportsEveryTrade_iff [] (fun _ => 0) hitTwiceRun (by decide)).mpr
    fun msg before hsuffix => ?_⟩
  simpa using everyStep_iff.mp hquiet msg before hsuffix

/-- A run in which a modify makes a bid trade with an ask of another session. -/
def modifiedRun : List InboundMessage :=
  [modifyOrderMessage 1 1 100 5, limitOrderMessage 2 .sell 100 5, limitOrderMessage 1 .buy 90 5]

/-- The trade of the run is reported to nobody. -/
theorem not_reportsEveryTrade_modifiedRun :
    executedTrades [] (fun _ => 0) modifiedRun =
      [{ buyOrderId := 1, sellOrderId := 2, price := 100, quantity := 5, tradeType := .full }] ∧
    (after [] (fun _ => 0) modifiedRun).reports = [] ∧
    ¬ ReportsEveryTrade [] (fun _ => 0) modifiedRun := by
  refine ⟨by decide, by decide, fun h => ?_⟩
  have hlength := h.length_eq
  exact absurd hlength (by decide)

end ExchangeEngine
