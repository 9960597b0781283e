import ExchangeEngine.Runs

/-!
# What the Engine Announces

The trade loops of the two handlers announce trades: they publish trade updates and send
execution reports. An `Announcement` is what one turn of such a loop adds to the two queues,
together with the trade that the turn is about. Everything in the queues that is a trade
update or an execution report comes from an announcement (`announced_processInboundMessage`).

The loops run over the buffer that `GetRecentTrades` returns. After a modify that changes
nothing, the buffer is still that of an earlier call, so the trades of a step's announcements
need not be the trades that the step executed.
-/

namespace ExchangeEngine

/-- The execution report in a response, with the session that it is addressed to. -/
def OutboundMessage.report? (msg : OutboundMessage) : Option (SessionId × ExecutionReport) :=
  match msg.body with
  | .execReport report => some (msg.sessionId, report)
  | _ => none

/-- The trade update in a market data message. -/
def MarketDataMessage.update? : MarketDataMessage → Option TradeUpdate
  | .trade update => some update
  | .tick _ => none

/-- What one turn of a trade loop announces, and the trade that it announces. -/
structure Announcement where
  trade : Trade
  updates : List TradeUpdate
  reports : List (SessionId × ExecutionReport)
  deriving DecidableEq, Repr

namespace MatchingEngine

/-- The execution reports sent so far. -/
def reports (e : MatchingEngine) : List (SessionId × ExecutionReport) :=
  e.outboundQueue.filterMap OutboundMessage.report?

/-- The trade updates published so far. -/
def updates (e : MatchingEngine) : List TradeUpdate :=
  e.feedQueue.filterMap MarketDataMessage.update?

/-- What the turn of a trade loop that takes up `trade` adds to the queues. -/
def announcement (turn : MatchingEngine → Trade → MatchingEngine) (e : MatchingEngine)
    (trade : Trade) : Announcement where
  trade
  updates := (turn e trade).updates.drop e.updates.length
  reports := (turn e trade).reports.drop e.reports.length

/-- What a trade loop announces, turn by turn. -/
def announcements (turn : MatchingEngine → Trade → MatchingEngine) :
    MatchingEngine → List Trade → List Announcement
  | _, [] => []
  | e, trade :: trades => announcement turn e trade :: announcements turn (turn e trade) trades

/-- The engine at the start of the trade loop of `handleModifyOrder`. -/
def callModifyOrder (e : MatchingEngine) (request : ModifyOrderRequest) : MatchingEngine :=
  { e with
    orderbook := e.orderbook.modifyOrder request.orderId request.newPrice request.newQuantity }

/-- What handling a message announces. -/
def stepAnnouncements (e : MatchingEngine) (msg : InboundMessage) : List Announcement :=
  match msg.body with
  | .newOrder request =>
      match checkNewOrder request with
      | .error _ => []
      | .ok (side, orderType) =>
          let e' := e.countOrder.enterOrder msg.sessionId request side orderType
          announcements (newOrderTrade msg.sessionId e.orderbook.heap.next e.nextOrderId side)
            e' e'.orderbook.trades
  | .cancelOrder _ => []
  | .modifyOrder request =>
      match e.checkModifyOrder msg.sessionId request with
      | some _ => []
      | none =>
          announcements (modifyOrderTrade request.orderId) (e.callModifyOrder request)
            (e.callModifyOrder request).orderbook.trades

/-! ### Pushes, as the two readers of the queues see them -/

section Push

variable (e : MatchingEngine)

theorem reports_pushOutbound (sessionId : SessionId) (body : OutboundBody) :
    (e.pushOutbound sessionId body).reports =
      e.reports ++ (OutboundMessage.report? ⟨sessionId, body⟩).toList := by
  simp only [reports, pushOutbound, List.filterMap_append]
  cases body <;> rfl

theorem updates_pushFeed (msg : MarketDataMessage) :
    (e.pushFeed msg).updates = e.updates ++ msg.update?.toList := by
  simp only [updates, pushFeed, List.filterMap_append]
  cases msg <;> rfl

theorem reports_publishTradeUpdate (trade : Trade) (aggressorSide : BuySell) :
    (e.publishTradeUpdate trade aggressorSide).reports = e.reports :=
  rfl

theorem updates_publishTradeUpdate (trade : Trade) (aggressorSide : BuySell) :
    (e.publishTradeUpdate trade aggressorSide).updates =
      e.updates ++
        [{ header := e.header .tradeUpdate, symbol := copySymbol e.symbol,
           tradeId := e.nextTradeId, price := trade.price, quantity := trade.quantity,
           aggressorSide := aggressorSide.toUInt8 }] :=
  e.updates_pushFeed _

theorem updates_publishTickUpdate : e.publishTickUpdate.updates = e.updates :=
  (e.updates_pushFeed _).trans (List.append_nil _)

theorem reports_sendExecutionReport (sessionId : SessionId) (orderId : OrderId)
    (execPrice : Price) (execQty leavesQty : Quantity) (side : BuySell) :
    (e.sendExecutionReport sessionId orderId execPrice execQty leavesQty side).reports =
      e.reports ++
        [(sessionId,
          { header := e.header .executionReport, orderId, tradeId := e.nextTradeId, execPrice,
            execQty, leavesQty, side := side.toUInt8 })] :=
  reports_pushOutbound { e with nextTradeId := e.nextTradeId + 1 } sessionId _

theorem updates_sendExecutionReport (sessionId : SessionId) (orderId : OrderId)
    (execPrice : Price) (execQty leavesQty : Quantity) (side : BuySell) :
    (e.sendExecutionReport sessionId orderId execPrice execQty leavesQty side).updates =
      e.updates :=
  rfl

end Push
/-! ### One turn of a trade loop -/

/-- The trade update that a turn publishes. -/
def tradeUpdate (e : MatchingEngine) (trade : Trade) (aggressorSide : BuySell) : TradeUpdate where
  header := e.header .tradeUpdate
  symbol := copySymbol e.symbol
  tradeId := e.nextTradeId
  price := trade.price
  quantity := trade.quantity
  aggressorSide := aggressorSide.toUInt8

/-- The order that an incoming order of side `side` trades against. -/
def passiveOrderId (side : BuySell) (trade : Trade) : OrderId :=
  if side = .buy then trade.sellOrderId else trade.buyOrderId

/-- The report that a turn of `handleNewOrder` sends for the incoming order. -/
def aggressorReport (e : MatchingEngine) (order : OrderPointer) (orderId : OrderId)
    (side : BuySell) (trade : Trade) : ExecutionReport where
  header := ⟨.executionReport, MessageType.executionReport.size, e.clock 1⟩
  orderId
  tradeId := e.nextTradeId
  execPrice := trade.price
  execQty := trade.quantity
  leavesQty := (e.orderbook.heap.read order).quantity
  side := side.toUInt8

/-- The report that a turn of `handleNewOrder` sends for the resting order. -/
def passiveReport (e : MatchingEngine) (side : BuySell) (trade : Trade) : ExecutionReport where
  header := ⟨.executionReport, MessageType.executionReport.size, e.clock 2⟩
  orderId := passiveOrderId side trade
  tradeId := e.nextTradeId + 1
  execPrice := trade.price
  execQty := trade.quantity
  leavesQty := 0
  side := side.opposite.toUInt8

section Turn

variable (sessionId : SessionId) (order : OrderPointer) (orderId : OrderId) (side : BuySell)
  (e : MatchingEngine) (trade : Trade)

theorem updates_newOrderTrade :
    (newOrderTrade sessionId order orderId side e trade).updates =
      e.updates ++ [e.tradeUpdate trade side] := by
  simp only [newOrderTrade]
  split
  · rw [updates_sendExecutionReport, updates_publishTradeUpdate]
    rfl
  · rw [updates_sendExecutionReport, updates_sendExecutionReport, updates_publishTradeUpdate]
    rfl

/-- A turn of `handleNewOrder` reports to the session of the incoming order, and to the
session that the resting order is tracked under. -/
theorem reports_newOrderTrade :
    (newOrderTrade sessionId order orderId side e trade).reports =
      e.reports ++ ((sessionId, e.aggressorReport order orderId side trade) ::
        ((e.orderToSession.lookup (passiveOrderId side trade)).map fun passiveSessionId =>
          (passiveSessionId, e.passiveReport side trade)).toList) := by
  simp only [newOrderTrade]
  split
  · rename_i hnone
    rw [reports_sendExecutionReport, reports_publishTradeUpdate]
    rw [show e.orderToSession.lookup (passiveOrderId side trade) = none from hnone]
    rfl
  · rename_i passiveSessionId hsome
    rw [reports_sendExecutionReport, reports_sendExecutionReport, reports_publishTradeUpdate,
      List.append_assoc]
    rw [show e.orderToSession.lookup (passiveOrderId side trade) = some passiveSessionId
      from hsome]
    rfl

theorem announcement_newOrderTrade :
    announcement (newOrderTrade sessionId order orderId side) e trade =
      { trade
        updates := [e.tradeUpdate trade side]
        reports := (sessionId, e.aggressorReport order orderId side trade) ::
          ((e.orderToSession.lookup (passiveOrderId side trade)).map fun passiveSessionId =>
            (passiveSessionId, e.passiveReport side trade)).toList } := by
  simp only [announcement, updates_newOrderTrade, reports_newOrderTrade, List.drop_left]

/-- The side that a turn of `handleModifyOrder` takes the modified order to be on. -/
def modifySide (orderId : OrderId) (trade : Trade) : BuySell :=
  if trade.buyOrderId = orderId then .buy else .sell

theorem updates_modifyOrderTrade :
    (modifyOrderTrade orderId e trade).updates =
      e.updates ++ [e.tradeUpdate trade (modifySide orderId trade)] :=
  updates_publishTradeUpdate (e.recordTrade trade) trade _

/-- A turn of `handleModifyOrder` reports to nobody. -/
theorem reports_modifyOrderTrade : (modifyOrderTrade orderId e trade).reports = e.reports :=
  rfl

theorem announcement_modifyOrderTrade :
    announcement (modifyOrderTrade orderId) e trade =
      { trade
        updates := [e.tradeUpdate trade (modifySide orderId trade)]
        reports := [] } := by
  simp only [announcement, updates_modifyOrderTrade, reports_modifyOrderTrade, List.drop_left,
    List.drop_length]

theorem tradesExecuted_newOrderTrade :
    (newOrderTrade sessionId order orderId side e trade).tradesExecuted =
      e.tradesExecuted + 1 := by
  simp only [newOrderTrade]
  split <;> rfl

theorem nextTradeId_newOrderTrade :
    (newOrderTrade sessionId order orderId side e trade).nextTradeId =
      e.nextTradeId + UInt64.ofNat
        (announcement (newOrderTrade sessionId order orderId side) e trade).reports.length := by
  rw [announcement_newOrderTrade]
  simp only [newOrderTrade]
  split
  · rename_i hnone
    rw [show e.orderToSession.lookup (passiveOrderId side trade) = none from hnone]
    rfl
  · rename_i passiveSessionId hsome
    rw [show e.orderToSession.lookup (passiveOrderId side trade) = some passiveSessionId
      from hsome]
    exact UInt64.add_assoc e.nextTradeId 1 1

end Turn

/-! ### A whole trade loop -/

/-- **A turn that only announces**: it adds to the queues, counts one trade, and leaves the
core alone. -/
structure Announces (turn : MatchingEngine → Trade → MatchingEngine) : Prop where
  core : ∀ e trade, (turn e trade).core = e.core
  updates : ∀ e trade,
    (turn e trade).updates = e.updates ++ (announcement turn e trade).updates
  reports : ∀ e trade,
    (turn e trade).reports = e.reports ++ (announcement turn e trade).reports
  tradesExecuted : ∀ e trade, (turn e trade).tradesExecuted = e.tradesExecuted + 1
  nextTradeId : ∀ e trade, (turn e trade).nextTradeId =
    e.nextTradeId + UInt64.ofNat (announcement turn e trade).reports.length

theorem announces_newOrderTrade (sessionId : SessionId) (order : OrderPointer)
    (orderId : OrderId) (side : BuySell) :
    Announces (newOrderTrade sessionId order orderId side) where
  core := core_newOrderTrade sessionId order orderId side
  updates e trade := by rw [announcement_newOrderTrade, updates_newOrderTrade]
  reports e trade := by rw [announcement_newOrderTrade, reports_newOrderTrade]
  tradesExecuted := tradesExecuted_newOrderTrade sessionId order orderId side
  nextTradeId := nextTradeId_newOrderTrade sessionId order orderId side

theorem announces_modifyOrderTrade (orderId : OrderId) :
    Announces (modifyOrderTrade orderId) where
  core _ _ := rfl
  updates e trade := by rw [announcement_modifyOrderTrade, updates_modifyOrderTrade]
  reports e trade := by
    rw [announcement_modifyOrderTrade, reports_modifyOrderTrade, List.append_nil]
  tradesExecuted _ _ := rfl
  nextTradeId e trade := by
    rw [announcement_modifyOrderTrade]
    exact (UInt64.add_zero e.nextTradeId).symm

section Loop

variable {turn : MatchingEngine → Trade → MatchingEngine}

theorem map_trade_announcements (e : MatchingEngine) (trades : List Trade) :
    (announcements turn e trades).map Announcement.trade = trades := by
  induction trades generalizing e with
  | nil => rfl
  | cons trade trades ih =>
      rw [announcements, List.map_cons, ih]
      rfl

/-- Every announcement of a loop is made by an engine that differs from the one at its start
in what sending changes. -/
theorem exists_of_mem_announcements (h : Announces turn) {e : MatchingEngine}
    {trades : List Trade} {a : Announcement} (ha : a ∈ announcements turn e trades) :
    ∃ e' : MatchingEngine, e'.core = e.core ∧ a = announcement turn e' a.trade := by
  induction trades generalizing e with
  | nil => cases ha
  | cons trade trades ih =>
      rcases List.mem_cons.mp ha with rfl | ha
      · exact ⟨e, rfl, rfl⟩
      · obtain ⟨e', hcore, heq⟩ := ih ha
        exact ⟨e', hcore.trans (h.core e trade), heq⟩

/-- What each announcement of a loop contributes to a list, if it depends only on its trade
and on the core. -/
theorem flatMap_announcements {β : Type*} (h : Announces turn) {e : MatchingEngine}
    {f : Announcement → List β} {g : Trade → List β}
    (hf : ∀ (e' : MatchingEngine) (trade : Trade), e'.core = e.core →
      f (announcement turn e' trade) = g trade) (trades : List Trade) :
    (announcements turn e trades).flatMap f = trades.flatMap g := by
  induction trades generalizing e with
  | nil => rfl
  | cons trade trades ih =>
      have hrest := ih fun e' trade' hcore => hf e' trade' (hcore.trans (h.core e trade))
      rw [announcements, List.flatMap_cons, List.flatMap_cons, hrest, hf e trade rfl]

/-- **What a trade loop does outside the core** is what its announcements say. -/
structure Announced (e e' : MatchingEngine) (as : List Announcement) : Prop where
  updates : e'.updates = e.updates ++ as.flatMap Announcement.updates
  reports : e'.reports = e.reports ++ as.flatMap Announcement.reports
  tradesExecuted : e'.tradesExecuted = e.tradesExecuted + UInt64.ofNat as.length
  nextTradeId : e'.nextTradeId =
    e.nextTradeId + UInt64.ofNat (as.flatMap Announcement.reports).length

/-- Nothing is announced when the four are left as they are. -/
theorem Announced.of_eq {e e' : MatchingEngine} (hupdates : e'.updates = e.updates)
    (hreports : e'.reports = e.reports) (hcount : e'.tradesExecuted = e.tradesExecuted)
    (hnext : e'.nextTradeId = e.nextTradeId) : Announced e e' [] := by
  refine ⟨?_, ?_, ?_, ?_⟩
  · rw [hupdates, List.flatMap_nil, List.append_nil]
  · rw [hreports, List.flatMap_nil, List.append_nil]
  · rw [hcount]
    exact (UInt64.add_zero _).symm
  · rw [hnext]
    exact (UInt64.add_zero _).symm

theorem Announced.trans {e e' e'' : MatchingEngine} {as as' : List Announcement}
    (h : Announced e e' as) (h' : Announced e' e'' as') : Announced e e'' (as ++ as') := by
  refine ⟨?_, ?_, ?_, ?_⟩
  · rw [h'.updates, h.updates, List.flatMap_append, List.append_assoc]
  · rw [h'.reports, h.reports, List.flatMap_append, List.append_assoc]
  · rw [h'.tradesExecuted, h.tradesExecuted, List.length_append, UInt64.ofNat_add,
      UInt64.add_assoc]
  · rw [h'.nextTradeId, h.nextTradeId, List.flatMap_append, List.length_append,
      UInt64.ofNat_add, UInt64.add_assoc]

theorem announced_turn (h : Announces turn) (e : MatchingEngine) (trade : Trade) :
    Announced e (turn e trade) [announcement turn e trade] := by
  refine ⟨?_, ?_, h.tradesExecuted e trade, ?_⟩
  · rw [List.flatMap_singleton]
    exact h.updates e trade
  · rw [List.flatMap_singleton]
    exact h.reports e trade
  · rw [List.flatMap_singleton]
    exact h.nextTradeId e trade

theorem announced_foldl (h : Announces turn) (e : MatchingEngine) (trades : List Trade) :
    Announced e (trades.foldl turn e) (announcements turn e trades) := by
  induction trades generalizing e with
  | nil => exact Announced.of_eq rfl rfl rfl rfl
  | cons trade trades ih =>
      rw [List.foldl_cons]
      exact (announced_turn h e trade).trans (ih (turn e trade))

end Loop

/-! ### A whole message -/

/-- A response that is not an execution report announces nothing. -/
theorem announced_pushOutbound (e : MatchingEngine) {sessionId : SessionId}
    {body : OutboundBody} (hbody : OutboundMessage.report? ⟨sessionId, body⟩ = none) :
    Announced e (e.pushOutbound sessionId body) [] := by
  refine Announced.of_eq rfl ?_ rfl rfl
  rw [reports_pushOutbound, hbody]
  exact List.append_nil _

theorem announced_sendModifyAck (e : MatchingEngine) (sessionId : SessionId)
    (clientOrderId : ClientOrderId) (orderId : OrderId) (newPrice : Price)
    (newQty : Quantity) :
    Announced e (e.sendModifyAck sessionId clientOrderId orderId newPrice newQty) [] :=
  announced_pushOutbound e rfl

theorem announced_untrackOrder (e : MatchingEngine) (sessionId : SessionId)
    (orderId : OrderId) : Announced e (e.untrackOrder sessionId orderId) [] :=
  Announced.of_eq rfl rfl rfl rfl

theorem announced_publishTickUpdate (e : MatchingEngine) :
    Announced e e.publishTickUpdate [] :=
  Announced.of_eq (updates_publishTickUpdate e) rfl rfl rfl

theorem announced_finishNewOrder (e : MatchingEngine) (sessionId : SessionId)
    (clientOrderId : ClientOrderId) (order : OrderPointer) (orderId : OrderId) :
    Announced e (e.finishNewOrder sessionId clientOrderId order orderId) [] := by
  have hack : Announced e (e.sendOrderAck sessionId clientOrderId orderId
      (e.orderbook.heap.read order).orderStatus) [] := announced_pushOutbound e rfl
  simp only [finishNewOrder]
  split
  · exact (hack.trans (announced_untrackOrder _ sessionId orderId)).trans
      (announced_publishTickUpdate _)
  · exact hack.trans (announced_publishTickUpdate _)

/-- **What a message adds to the queues** is what its trade loop announces, besides responses
that are not execution reports and ticks. -/
theorem announced_processInboundMessage (e : MatchingEngine) (msg : InboundMessage) :
    Announced e (e.processInboundMessage msg) (e.stepAnnouncements msg) := by
  cases e.handled msg with
  | newRejected request reason body check _ _ result =>
      rw [result, stepAnnouncements, body]
      simp only [check]
      have hcount : Announced e e.countOrder [] := Announced.of_eq rfl rfl rfl rfl
      exact hcount.trans (announced_pushOutbound _ rfl)
  | newAccepted request side orderType body check _ _ result =>
      rw [result, stepAnnouncements, body]
      simp only [check]
      have henter : Announced e
          (e.countOrder.enterOrder msg.sessionId request side orderType) [] :=
        Announced.of_eq rfl rfl rfl rfl
      have hloop := announced_foldl
        (announces_newOrderTrade msg.sessionId e.orderbook.heap.next e.nextOrderId side)
        (e.countOrder.enterOrder msg.sessionId request side orderType)
        (e.countOrder.enterOrder msg.sessionId request side orderType).orderbook.trades
      have hall := (henter.trans hloop).trans (announced_finishNewOrder _ msg.sessionId
        request.clientOrderId e.orderbook.heap.next e.nextOrderId)
      rw [List.append_nil] at hall
      exact hall
  | cancelRejected request body _ _ _ result =>
      rw [result, stepAnnouncements, body]
      exact announced_pushOutbound e rfl
  | cancelled request owner body _ _ _ result =>
      rw [result, stepAnnouncements, body]
      have hcancel : Announced e (e.cancelTracked owner request.orderId) [] :=
        Announced.of_eq rfl rfl rfl rfl
      exact (hcancel.trans (announced_pushOutbound _ rfl)).trans (announced_publishTickUpdate _)
  | modifyRejected request reason body check _ _ result =>
      rw [result, stepAnnouncements, body]
      simp only [check]
      exact announced_pushOutbound e rfl
  | modified request body check _ _ result =>
      rw [result, stepAnnouncements, body]
      simp only [check]
      have hmodify : Announced e (e.callModifyOrder request) [] :=
        Announced.of_eq rfl rfl rfl rfl
      have hloop := announced_foldl (announces_modifyOrderTrade request.orderId)
        (e.callModifyOrder request) (e.callModifyOrder request).orderbook.trades
      have hall := ((hmodify.trans hloop).trans (announced_sendModifyAck _ msg.sessionId
        request.clientOrderId request.orderId request.newPrice request.newQuantity)).trans
        (announced_publishTickUpdate _)
      rw [List.append_nil, List.append_nil] at hall
      exact hall

/-- The trades of an earlier call that handling a message announces again: those still in the
buffer, when the message is a modify that passes the checks and changes nothing. -/
def staleTrades (e : MatchingEngine) (msg : InboundMessage) : List Trade :=
  match e.bookCall? msg with
  | some (.modifyOrder orderId newPrice newQuantity) =>
      match e.orderbook.modifyTarget orderId newPrice newQuantity with
      | none => e.orderbook.trades
      | some _ => []
  | _ => []

/-- **A message announces the trades that it executes**, and those that a modify without
effect finds in the buffer. -/
theorem map_trade_stepAnnouncements (e : MatchingEngine) (msg : InboundMessage) :
    (e.stepAnnouncements msg).map Announcement.trade =
      e.stepTrades msg ++ e.staleTrades msg := by
  cases e.handled msg with
  | newRejected request reason body check call =>
      simp only [stepAnnouncements, body, check, stepTrades, staleTrades, call]
      rfl
  | newAccepted request side orderType body check call =>
      simp only [stepAnnouncements, body, check, stepTrades, staleTrades, call]
      rw [map_trade_announcements, List.append_nil]
      rfl
  | cancelRejected request body _ call =>
      simp only [stepAnnouncements, body, stepTrades, staleTrades, call]
      rfl
  | cancelled request owner body _ call =>
      simp only [stepAnnouncements, body, stepTrades, staleTrades, call]
      rfl
  | modifyRejected request reason body check call =>
      simp only [stepAnnouncements, body, check, stepTrades, staleTrades, call]
      rfl
  | modified request body check call =>
      simp only [stepAnnouncements, body, check, stepTrades, staleTrades, call]
      rw [map_trade_announcements, callModifyOrder, Orderbook.modifyOrder,
        Orderbook.callTrades, Orderbook.entering?]
      cases htarget : e.orderbook.modifyTarget request.orderId request.newPrice
          request.newQuantity with
      | none => rfl
      | some order => exact (List.append_nil _).symm

/-- **A request that enters an order announces the trades that it executes**, and no others. -/
theorem map_trade_of_addOrder {e : MatchingEngine} {msg : InboundMessage} {o : Order}
    (hcall : e.bookCall? msg = some (.addOrder o)) :
    (e.stepAnnouncements msg).map Announcement.trade = e.stepTrades msg := by
  have hstale : e.staleTrades msg = [] := by
    simp only [staleTrades, hcall]
  rw [map_trade_stepAnnouncements, hstale, List.append_nil]

/-- Every announcement publishes one trade update. -/
theorem updates_of_mem_stepAnnouncements {e : MatchingEngine} {msg : InboundMessage}
    {a : Announcement} (ha : a ∈ e.stepAnnouncements msg) : ∃ u, a.updates = [u] := by
  cases e.handled msg with
  | newRejected request reason body check => simp [stepAnnouncements, body, check] at ha
  | newAccepted request side orderType body check =>
      simp only [stepAnnouncements, body, check] at ha
      obtain ⟨e', -, heq⟩ :=
        exists_of_mem_announcements (announces_newOrderTrade msg.sessionId _ _ side) ha
      rw [announcement_newOrderTrade] at heq
      exact ⟨_, congrArg Announcement.updates heq⟩
  | cancelRejected request body => simp [stepAnnouncements, body] at ha
  | cancelled request owner body => simp [stepAnnouncements, body] at ha
  | modifyRejected request reason body check => simp [stepAnnouncements, body, check] at ha
  | modified request body check =>
      simp only [stepAnnouncements, body, check] at ha
      obtain ⟨e', -, heq⟩ :=
        exists_of_mem_announcements (announces_modifyOrderTrade request.orderId) ha
      rw [announcement_modifyOrderTrade] at heq
      exact ⟨_, congrArg Announcement.updates heq⟩

end MatchingEngine

/-! ### Whole runs -/

/-- What the steps of a history contribute to a list, the oldest first. -/
def chronicle {α : Type*} (step : List InboundMessage → InboundMessage → List α) :
    List InboundMessage → List α
  | [] => []
  | msg :: past => chronicle step past ++ step past msg

/-- Whether every step of a history passes a test. -/
def everyStep (test : List InboundMessage → InboundMessage → Bool) : List InboundMessage → Bool
  | [] => true
  | msg :: past => test past msg && everyStep test past

theorem everyStep_iff {test : List InboundMessage → InboundMessage → Bool}
    {past : List InboundMessage} :
    everyStep test past = true ↔
      ∀ msg before, (msg :: before) <:+ past → test before msg = true := by
  induction past with
  | nil =>
      refine ⟨fun _ msg before hsuffix => ?_, fun _ => rfl⟩
      cases List.suffix_nil.mp hsuffix
  | cons msg past ih =>
      rw [everyStep, Bool.and_eq_true, ih]
      constructor
      · rintro ⟨hstep, hpast⟩ msg' before hsuffix
        rcases List.suffix_cons_iff.mp hsuffix with heq | hsuffix
        · obtain ⟨rfl, rfl⟩ := List.cons.inj heq
          exact hstep
        · exact hpast msg' before hsuffix
      · intro h
        exact ⟨h msg past List.suffix_rfl, fun msg' before hsuffix =>
          h msg' before (hsuffix.trans (List.suffix_cons msg past))⟩

section Chronicle

variable {α β : Type*} {step step' : List InboundMessage → InboundMessage → List α}

theorem chronicle_congr {past : List InboundMessage}
    (h : ∀ msg before, (msg :: before) <:+ past → step before msg = step' before msg) :
    chronicle step past = chronicle step' past := by
  induction past with
  | nil => rfl
  | cons msg past ih =>
      rw [chronicle, chronicle, h msg past List.suffix_rfl,
        ih fun msg' before hsuffix => h msg' before (hsuffix.trans (List.suffix_cons msg past))]

theorem flatMap_chronicle (f : α → List β) (past : List InboundMessage) :
    (chronicle step past).flatMap f =
      chronicle (fun before msg => (step before msg).flatMap f) past := by
  induction past with
  | nil => rfl
  | cons msg past ih => rw [chronicle, chronicle, List.flatMap_append, ih]

theorem map_chronicle (f : α → β) (past : List InboundMessage) :
    (chronicle step past).map f =
      chronicle (fun before msg => (step before msg).map f) past := by
  induction past with
  | nil => rfl
  | cons msg past ih => rw [chronicle, chronicle, List.map_append, ih]

/-- A list of a run is empty when every step contributes nothing. -/
theorem chronicle_eq_nil {past : List InboundMessage} :
    chronicle step past = [] ↔ ∀ msg before, (msg :: before) <:+ past → step before msg = [] := by
  have hevery : chronicle step past = [] ↔
      everyStep (fun before msg => (step before msg).isEmpty) past = true := by
    induction past with
    | nil => exact ⟨fun _ => rfl, fun _ => rfl⟩
    | cons msg past ih =>
        rw [chronicle, everyStep, List.append_eq_nil_iff, ih, Bool.and_eq_true,
          List.isEmpty_iff, and_comm]
  rw [hevery, everyStep_iff]
  simp only [List.isEmpty_iff]

theorem length_chronicle_append (past : List InboundMessage) :
    (chronicle (fun before msg => step before msg ++ step' before msg) past).length =
      (chronicle step past).length + (chronicle step' past).length := by
  induction past with
  | nil => rfl
  | cons msg past ih =>
      simp only [chronicle, List.length_append, ih]
      omega

theorem length_chronicle_congr {step' : List InboundMessage → InboundMessage → List β}
    (h : ∀ before msg, (step before msg).length = (step' before msg).length)
    (past : List InboundMessage) :
    (chronicle step past).length = (chronicle step' past).length := by
  induction past with
  | nil => rfl
  | cons msg past ih => rw [chronicle, chronicle, List.length_append, List.length_append, ih, h]

/-- A property of everything that steps contribute. -/
theorem forall_mem_chronicle {P : α → Prop} {past : List InboundMessage}
    (h : ∀ msg before, (msg :: before) <:+ past → ∀ x ∈ step before msg, P x) :
    ∀ x ∈ chronicle step past, P x := by
  induction past with
  | nil =>
      intro x hx
      cases hx
  | cons msg past ih =>
      intro x hx
      rcases List.mem_append.mp hx with hx | hx
      · exact ih (fun msg' before hsuffix =>
          h msg' before (hsuffix.trans (List.suffix_cons msg past))) x hx
      · exact h msg past List.suffix_rfl x hx

end Chronicle

variable (symbol : List UInt8) (clock : ℕ → Timestamp)

/-- The trades executed in a history, in order. -/
def executedTrades (past : List InboundMessage) : List Trade :=
  chronicle (fun before msg => (after symbol clock before).stepTrades msg) past

/-- The announcements made in a history, in order. -/
def runAnnouncements (past : List InboundMessage) : List Announcement :=
  chronicle (fun before msg => (after symbol clock before).stepAnnouncements msg) past

/-- **The queues of a run** hold what has been announced. -/
theorem announced_after (past : List InboundMessage) :
    MatchingEngine.Announced (.fresh symbol clock) (after symbol clock past)
      (runAnnouncements symbol clock past) := by
  induction past with
  | nil => exact MatchingEngine.Announced.of_eq rfl rfl rfl rfl
  | cons msg past ih => exact ih.trans (MatchingEngine.announced_processInboundMessage _ msg)

/-- The trades announced in a run are those executed in it and those left in the buffer. -/
theorem map_trade_runAnnouncements (past : List InboundMessage) :
    (runAnnouncements symbol clock past).map Announcement.trade =
      chronicle (fun before msg => (after symbol clock before).stepTrades msg ++
        (after symbol clock before).staleTrades msg) past := by
  rw [runAnnouncements, map_chronicle]
  exact chronicle_congr fun msg before _ =>
    (after symbol clock before).map_trade_stepAnnouncements msg

theorem reports_after (past : List InboundMessage) :
    (after symbol clock past).reports =
      (runAnnouncements symbol clock past).flatMap Announcement.reports :=
  (announced_after symbol clock past).reports

theorem updates_after (past : List InboundMessage) :
    (after symbol clock past).updates =
      (runAnnouncements symbol clock past).flatMap Announcement.updates :=
  (announced_after symbol clock past).updates

end ExchangeEngine
