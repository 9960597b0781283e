import ExchangeEngine.ClientResponses
import ExchangeEngine.DummyGenerator
import ExchangeEngine.Publication
import ExchangeEngine.Subscribers

/-!
# The Running Program

All components of a started exchange, with a step for each call that one of their threads makes:
those of the server and of the engine as in `Exchange`, `processMessage` of the feed handler on the
message popped last, and `generateOrder` of the dummy generator, if the configuration enables it.
What the environment decides is part of a step: what the generator draws, what the socket of the
feed does with a datagram.

## Main results

* `statistics_truthful`: in every state of every history, the figures of `printStatistics` are the
  numbers of the events they stand for, as their counters wrap.
* `dummy_orders_served`: orders of a generator with room for its prices are processed in the order
  in which they were generated, accepted without exception, and known to no client.
-/

namespace ExchangeEngine

/-- The exchange with the dummy generator that enters orders into it and the feed handler that
publishes its market data, each with its own counters. -/
structure RunningExchange where
  exchange : Exchange
  feedHandler : FeedHandler
  /-- The number of messages that have been popped from the feed queue. -/
  feedPopped : ℕ
  dummyGenerator : Option DummyGenerator

/-- The figures that `printStatistics` prints; the last one only if there is a generator. -/
structure Statistics where
  ordersProcessed : UInt64
  tradesExecuted : UInt64
  activeSessions : ℕ
  ticksPublished : UInt64
  tradesPublished : UInt64
  dummyOrdersGenerated : Option UInt64
  deriving DecidableEq, Repr

namespace RunningExchange

/-- A newly started exchange. -/
def fresh (arrivals : ℕ → List Frame) (symbol : List UInt8) (clock : ℕ → Timestamp)
    (dummyConfig : Option DummyGeneratorConfig) : RunningExchange where
  exchange := .fresh arrivals symbol clock
  feedHandler := .fresh
  feedPopped := 0
  dummyGenerator := dummyConfig.map fun config => (DummyGenerator.fresh.setConfig config).start

/-- The figures that `printStatistics` prints. -/
def printStatistics (x : RunningExchange) : Statistics where
  ordersProcessed := x.exchange.matchingEngine.ordersProcessed
  tradesExecuted := x.exchange.matchingEngine.tradesExecuted
  activeSessions := x.exchange.zmqServer.sessionManager.getActiveSessionCount
  ticksPublished := x.feedHandler.ticksPublished
  tradesPublished := x.feedHandler.tradesPublished
  dummyOrdersGenerated := x.dummyGenerator.map DummyGenerator.ordersGenerated

/-- Pop a message from the feed queue and process it. -/
def processMessage (x : RunningExchange) (sent : ℤ) : RunningExchange :=
  match x.exchange.matchingEngine.feedQueue[x.feedPopped]?.bind MarketDataMessage.pack? with
  | none => x
  | some msg => { x with
      feedHandler := x.feedHandler.processMessage msg sent
      feedPopped := x.feedPopped + 1 }

/-- Generate an order, and push it to the inbound queue if there is room. -/
def generateOrder (x : RunningExchange) (draw : OrderDraw) : RunningExchange :=
  match x.dummyGenerator with
  | none => x
  | some g =>
      let (dummyGenerator, msg) := g.generateOrder draw
      { x with
        exchange :=
          if draw.pushed then x.exchange.setInboundQueue (x.exchange.inboundQueue ++ [msg])
          else x.exchange
        dummyGenerator := some dummyGenerator }

/-- The steps of the threads. -/
inductive Action
  | processIncoming
  | processOutbound
  | processInbound
  | handleClientDisconnect (identity : Identity)
  | processMessage (sent : ℤ)
  | generateOrder (draw : OrderDraw)

section Steps

variable (iterate : Finset OrderId → List OrderId)

/-- The effect of a step. Only the feed handler's own step publishes. -/
def step (x : RunningExchange) : Action → RunningExchange
  | .processIncoming => { x with exchange := x.exchange.processIncoming }
  | .processOutbound => { x with exchange := x.exchange.processOutbound }
  | .processInbound => { x with exchange := x.exchange.processInbound }
  | .handleClientDisconnect identity =>
      { x with exchange := x.exchange.handleClientDisconnect iterate identity }
  | .processMessage sent => x.processMessage sent
  | .generateOrder draw => x.generateOrder draw

variable (arrivals : ℕ → List Frame) (symbol : List UInt8) (clock : ℕ → Timestamp)
  (dummyConfig : Option DummyGeneratorConfig)

/-- The program after a history of steps, newest first. -/
def after : List Action → RunningExchange
  | [] => .fresh arrivals symbol clock dummyConfig
  | action :: past => (after past).step iterate action

/-- The message that a step of the generator pushes. -/
def generatedBy? (x : RunningExchange) : Action → Option InboundMessage
  | .generateOrder draw =>
      x.dummyGenerator.bind fun g => if draw.pushed then some (g.generateOrder draw).2 else none
  | _ => none

/-- The messages of the generator that the inbound queue has taken, oldest first. -/
def generated : List Action → List InboundMessage
  | [] => []
  | action :: past =>
      generated past ++
        ((after iterate arrivals symbol clock dummyConfig past).generatedBy? action).toList

/-- What a step is to the server and the engine. -/
def exchangeAction? (x : RunningExchange) : Action → Option Exchange.Action
  | .processIncoming => some .processIncoming
  | .processOutbound => some .processOutbound
  | .processInbound => some .processInbound
  | .handleClientDisconnect identity => some (.handleClientDisconnect identity)
  | .processMessage _ => none
  | .generateOrder draw =>
      x.dummyGenerator.bind fun g =>
        if draw.pushed then some (.generateOrder (g.generateRequest draw).2) else none

/-- The history of the server and the engine. -/
def exchangeActions : List Action → List Exchange.Action
  | [] => []
  | action :: past =>
      ((after iterate arrivals symbol clock dummyConfig past).exchangeAction? action).toList ++
        exchangeActions past

end Steps

end RunningExchange

/-! ### The counters of the engine -/

section Engine

/-- Whether a message asks for a new order. -/
def InboundMessage.isNewOrder (msg : InboundMessage) : Bool :=
  match msg.body with
  | .newOrder _ => true
  | _ => false

/-- Every request for a new order is counted once, also if it is refused, and nothing else is. -/
theorem MatchingEngine.ordersProcessed_processInboundMessage (e : MatchingEngine)
    (msg : InboundMessage) :
    (e.processInboundMessage msg).ordersProcessed =
      if msg.isNewOrder then e.ordersProcessed + 1 else e.ordersProcessed := by
  cases e.handled msg with
  | newRejected request reason body _ _ _ result =>
      rw [result, InboundMessage.isNewOrder, body]
      rfl
  | newAccepted request side orderType body _ _ _ result =>
      rw [result, InboundMessage.isNewOrder, body]
      have hcore := congrArg EngineCore.ordersProcessed
        (e.countOrder.core_acceptNewOrder msg.sessionId request side orderType)
      refine Eq.trans hcore ?_
      simp only
      split <;> rfl
  | cancelRejected request body _ _ _ result =>
      rw [result, InboundMessage.isNewOrder, body]
      rfl
  | cancelled request owner body _ _ _ result =>
      rw [result, InboundMessage.isNewOrder, body]
      rfl
  | modifyRejected request reason body _ _ _ result =>
      rw [result, InboundMessage.isNewOrder, body]
      rfl
  | modified request body _ _ _ result =>
      rw [result, InboundMessage.isNewOrder, body]
      exact congrArg EngineCore.ordersProcessed (e.core_acceptModifyOrder msg.sessionId request)

variable (symbol : List UInt8) (clock : ℕ → Timestamp)

/-- Every request for a new order is counted, valid or not. -/
theorem ordersProcessed_after (past : List InboundMessage) :
    (after symbol clock past).ordersProcessed =
      UInt64.ofNat (past.countP InboundMessage.isNewOrder) := by
  induction past with
  | nil => rfl
  | cons msg past ih =>
      rw [after_cons, MatchingEngine.ordersProcessed_processInboundMessage, ih, List.countP_cons]
      split
      · rw [UInt64.ofNat_add]
        rfl
      · rfl

/-- A session whose requests are all accepted for new orders is answered with acknowledgements. -/
theorem acknowledged_after {past : List InboundMessage} {sessionId : SessionId}
    (haccepted : ∀ msg ∈ past, msg.sessionId = sessionId → MatchingEngine.isAccepted msg = true)
    {m : OutboundMessage} (hm : m ∈ (after symbol clock past).outboundQueue)
    (hsession : m.sessionId = sessionId) (hanswer : m.body.isAnswer = true) :
    ∃ ack, m.body = .orderAck ack := by
  induction past with
  | nil => cases hm
  | cons msg past ih =>
      obtain ⟨reports, answer, hresponds⟩ := (after symbol clock past).responds msg
      rw [after_cons, hresponds.queue] at hm
      rcases List.mem_append.mp hm with hm | hm
      · exact ih (fun msg' hmem => haccepted msg' (List.mem_cons_of_mem msg hmem)) hm
      rcases List.mem_append.mp hm with hm | hm
      · rw [hresponds.executions m hm] at hanswer
        cases hanswer
      · obtain rfl := List.mem_singleton.mp hm
        obtain ⟨ack, hack, -⟩ := hresponds.accepted (haccepted msg List.mem_cons_self hsession)
        exact ⟨ack, hack⟩

/-- Every trade is counted, and so is every trade that is published again. -/
theorem tradesExecuted_after (past : List InboundMessage) :
    (after symbol clock past).tradesExecuted =
      UInt64.ofNat ((executedTrades symbol clock past).length +
        (repeatedTrades symbol clock past).length) := by
  rw [← (length_updates_after symbol clock past).1]
  exact (announced_after symbol clock past).tradesExecuted.trans (UInt64.zero_add _)

end Engine

/-! ### The sessions -/

namespace ZmqServer.LiveSessions

variable {server : ZmqServer} {created : List (SessionId × Identity)} {destroyed : List SessionId}

/-- **The sessions that are counted** are those created and not destroyed. -/
theorem activeSessionCount (h : server.LiveSessions created destroyed) (hnodup : destroyed.Nodup) :
    server.sessionManager.getActiveSessionCount + destroyed.length = created.length := by
  have hkeys : server.sessionManager.sessions.keys =
      (created.map Prod.fst).toFinset \ destroyed.toFinset := by
    ext sessionId
    rw [Finmap.mem_keys, ← Finmap.lookup_isSome, h.sessions, Option.isSome_map, h.live,
      Finset.mem_sdiff, List.mem_toFinset, List.mem_toFinset, mem_map_fst_iff]
    split
    · rename_i hmem
      simp [hmem]
    · rename_i hmem
      simp [hmem]
  have hsubset : destroyed.toFinset ⊆ (created.map Prod.fst).toFinset := by
    intro sessionId hmem
    exact List.mem_toFinset.mpr (h.destroyed_created sessionId (List.mem_toFinset.mp hmem))
  have hcard := Finset.card_sdiff_add_card_eq_card hsubset
  rw [List.toFinset_card_of_nodup hnodup, List.toFinset_card_of_nodup h.nodup,
    List.length_map] at hcard
  rw [SessionManager.getActiveSessionCount, hkeys, hcard]

end ZmqServer.LiveSessions

namespace Exchange

variable (iterate : Finset OrderId → List OrderId) (arrivals : ℕ → List Frame)
  (symbol : List UInt8) (clock : ℕ → Timestamp)

/-- No session is destroyed twice. -/
theorem nodup_closed (past : List Action)
    (hroom : (opened iterate arrivals symbol clock past).length < 2 ^ 32 - 1) :
    (closed iterate arrivals symbol clock past).Nodup := by
  induction past with
  | nil => exact List.nodup_nil
  | cons action past ih =>
      have hpast : (opened iterate arrivals symbol clock past).length < 2 ^ 32 - 1 := by
        rw [opened, List.length_append] at hroom
        omega
      have hlive := liveSessions_after iterate arrivals symbol clock past hpast
      rw [closed]
      cases hclosed : (after iterate arrivals symbol clock past).closedBy? action with
      | none => exact ih hpast
      | some sessionId =>
          refine List.nodup_cons.mpr ⟨?_, ih hpast⟩
          cases action with
          | handleClientDisconnect identity => exact (hlive.notMem_of_lookup hclosed).2
          | _ => cases hclosed

/-- Whether a message is the generator's. -/
def isDummy (msg : InboundMessage) : Bool :=
  msg.sessionId = DUMMY_SESSION_ID

/-- What reading a message adds to the inbound queue is not the generator's. -/
theorem exists_processIncoming {x : Exchange} {created : List (SessionId × Identity)}
    {destroyed : List SessionId} (h : x.zmqServer.LiveSessions created destroyed)
    (hroom : ((x.openedBy? .processIncoming).toList ++ created).length < 2 ^ 32 - 1) :
    ∃ msgs : List InboundMessage, x.processIncoming.inboundQueue = x.inboundQueue ++ msgs ∧
      ∀ msg ∈ msgs, isDummy msg = false := by
  have hnothing : ∀ y : Exchange, y.inboundQueue = x.inboundQueue →
      ∃ msgs : List InboundMessage, y.inboundQueue = x.inboundQueue ++ msgs ∧
        ∀ msg ∈ msgs, isDummy msg = false :=
    fun y hy => ⟨[], by rw [hy, List.append_nil], fun msg hmem => by cases hmem⟩
  obtain ⟨received, socket, hboth⟩ :
      ∃ received socket, x.zmqServer.socket.receive = (received, socket) := ⟨_, _, rfl⟩
  cases received with
  | none =>
      refine hnothing _ ?_
      simp only [processIncoming, inboundQueue, ZmqServer.processIncoming, hboth]
  | some received =>
      obtain ⟨identity, frame⟩ := received
      have hreceive : x.zmqServer.socket.receive.1 = some (identity, frame) := by rw [hboth]
      have hconnected := liveSessions_connect h hroom hreceive socket
      have hqueue : (({ x.zmqServer with socket } : ZmqServer).connect
          identity).sessionManager.inboundQueue = x.inboundQueue :=
        ZmqServer.inboundQueue_connect _ _
      simp only [processIncoming, inboundQueue, ZmqServer.processIncoming, hboth]
      generalize ({ x.zmqServer with socket } : ZmqServer).connect identity = connected
        at hconnected hqueue ⊢
      obtain ⟨sessionId, hsession⟩ | hnone :
          (∃ sessionId, connected.identityToSession.lookup identity = some sessionId) ∨
            connected.identityToSession.lookup identity = none := by
        cases connected.identityToSession.lookup identity with
        | none => exact Or.inr rfl
        | some sessionId => exact Or.inl ⟨sessionId, rfl⟩
      · rw [ZmqServer.parseAndRouteMessage_of_session hsession]
        split
        · exact ⟨[], by rw [hqueue, List.append_nil]; rfl, fun msg hmem => by cases hmem⟩
        · rename_i request _
          refine ⟨[⟨sessionId, request⟩], ?_, fun msg hmem => ?_⟩
          · rw [SessionManager.routeToInbound, hqueue]
            rfl
          · obtain rfl := List.mem_singleton.mp hmem
            have hmem := (hconnected.notMem_of_lookup hsession).1
            exact decide_eq_false (hconnected.ne_dummy hroom hmem)
      · refine ⟨[], ?_, fun msg hmem => by cases hmem⟩
        rw [List.append_nil, ZmqServer.parseAndRouteMessage]
        split
        · exact hqueue
        · simp only [hnone]
          exact hqueue

/-- Destroying sessions takes nothing from the inbound queue. -/
theorem inboundQueue_handleClientDisconnect (x : Exchange) (identity : Identity) :
    (x.handleClientDisconnect iterate identity).inboundQueue = x.inboundQueue := by
  obtain ⟨matchingEngine, hnotify⟩ := exists_notify iterate
    { x with zmqServer := (x.zmqServer.handleClientDisconnect identity).2 }
    (x.zmqServer.handleClientDisconnect identity).1
  rw [handleClientDisconnect, hnotify]
  simp only [inboundQueue, ZmqServer.handleClientDisconnect]
  split
  · rfl
  · simp only [SessionManager.destroySession]
    split <;> rfl

/-- The generator's messages that the engine has processed or will process, oldest first. -/
def dummyMessages (past : List Action) : List InboundMessage :=
  ((processed iterate arrivals symbol clock past).reverse ++
    (after iterate arrivals symbol clock past).inboundQueue).filter isDummy

/-- The message of a step of the generator. -/
def generatedBy : Action → List InboundMessage
  | .generateOrder request => [⟨DUMMY_SESSION_ID, .newOrder request⟩]
  | _ => []

/-- **The generator's messages keep their order**, and none is lost or repeated. -/
theorem dummyMessages_cons (action : Action) (past : List Action)
    (hroom : (opened iterate arrivals symbol clock (action :: past)).length < 2 ^ 32 - 1) :
    dummyMessages iterate arrivals symbol clock (action :: past) =
      dummyMessages iterate arrivals symbol clock past ++ generatedBy action := by
  have hpast : (opened iterate arrivals symbol clock past).length < 2 ^ 32 - 1 := by
    rw [opened, List.length_append] at hroom
    omega
  have hlive := liveSessions_after iterate arrivals symbol clock past hpast
  rw [opened] at hroom
  -- only the engine processes messages
  have hprocessed : action ≠ .processInbound →
      processed iterate arrivals symbol clock (action :: past) =
        processed iterate arrivals symbol clock past := by
    intro hne
    cases action with
    | processInbound => exact absurd rfl hne
    | _ => rfl
  have hnothing : ∀ queue : List InboundMessage,
      queue = (after iterate arrivals symbol clock past).inboundQueue →
      ((processed iterate arrivals symbol clock past).reverse ++ queue).filter isDummy =
        dummyMessages iterate arrivals symbol clock past ++ [] := by
    rintro queue rfl
    exact (List.append_nil _).symm
  rw [dummyMessages]
  cases action with
  | processIncoming =>
      obtain ⟨msgs, hqueue, hmsgs⟩ := exists_processIncoming hlive hroom
      have hnone : msgs.filter isDummy = [] :=
        List.filter_eq_nil_iff.mpr fun msg hmem => by simp [hmsgs msg hmem]
      rw [hprocessed (by simp), after, step, hqueue, ← List.append_assoc, List.filter_append, hnone]
      rfl
  | processOutbound => exact hnothing _ rfl
  | processInbound =>
      cases hqueue : (after iterate arrivals symbol clock past).inboundQueue with
      | nil =>
          simp only [processed, after, step, processInbound, hqueue]
          exact hnothing _ hqueue.symm
      | cons msg rest =>
          simp only [processed, after, step, processInbound, hqueue, dummyMessages,
            List.reverse_cons, List.append_assoc]
          exact (List.append_nil _).symm
  | generateOrder request =>
      have hqueue : (after iterate arrivals symbol clock
          (.generateOrder request :: past)).inboundQueue =
          (after iterate arrivals symbol clock past).inboundQueue ++
            [⟨DUMMY_SESSION_ID, .newOrder request⟩] := rfl
      rw [hprocessed (by simp), hqueue, ← List.append_assoc, List.filter_append]
      rfl
  | handleClientDisconnect identity =>
      rw [hprocessed (by simp)]
      exact hnothing _ (inboundQueue_handleClientDisconnect iterate _ identity)

/-- What a step makes of the engine: a message is processed, or nothing happens. -/
theorem matchingEngine_step {x : Exchange} (h : x.zmqServer.sessionManager.NoActiveOrders)
    (action : Action) :
    (x.step iterate action).matchingEngine = x.matchingEngine ∨
      ∃ msg, (x.step iterate action).matchingEngine =
        x.matchingEngine.processInboundMessage msg := by
  cases action with
  | processInbound =>
      rw [step, processInbound]
      split
      · exact Or.inl rfl
      · exact Or.inr ⟨_, rfl⟩
  | _ => exact Or.inl ((step_inv h _).2 (by simp))

end Exchange

/-! ### Steps of the program -/

namespace RunningExchange

section Steps

variable (iterate : Finset OrderId → List OrderId) {x : RunningExchange}

/-- A step of the program is a step of the exchange in it, or leaves the exchange alone. -/
theorem exchange_step (action : Action) :
    (x.step iterate action).exchange =
      match x.exchangeAction? action with
      | none => x.exchange
      | some exchangeAction => x.exchange.step iterate exchangeAction := by
  cases action with
  | processMessage sent =>
      simp only [step, processMessage, exchangeAction?]
      split <;> rfl
  | generateOrder draw =>
      simp only [step, generateOrder, exchangeAction?]
      cases x.dummyGenerator with
      | none => rfl
      | some g =>
          simp only [Option.bind_some]
          cases draw.pushed <;> rfl
  | _ => rfl

/-- The message that the generator pushes is the one that the inbound queue gets. -/
theorem generatedBy_exchangeAction (action : Action) :
    (match x.exchangeAction? action with
      | none => []
      | some exchangeAction => Exchange.generatedBy exchangeAction) =
      (x.generatedBy? action).toList := by
  cases action with
  | generateOrder draw =>
      simp only [exchangeAction?, generatedBy?]
      cases x.dummyGenerator with
      | none => rfl
      | some g =>
          simp only [Option.bind_some]
          cases draw.pushed <;> rfl
  | _ => rfl

/-- **What has been broadcast so far**: some of the messages that have been popped from the feed
queue, each sent whole. -/
structure Broadcasts (x : RunningExchange) : Prop where
  popped : x.feedPopped ≤ x.exchange.matchingEngine.feedQueue.length
  sent : ∃ whole : List MarketData,
    (whole.map some).Sublist ((x.exchange.matchingEngine.feedQueue.take x.feedPopped).map
      MarketDataMessage.pack?) ∧
    FeedHandler.fresh.Sent whole x.feedHandler

/-- The engine only adds to the feed queue. -/
theorem exists_feedQueue_step (hidle : x.exchange.zmqServer.sessionManager.NoActiveOrders)
    (action : Action) : ∃ msgs, (x.step iterate action).exchange.matchingEngine.feedQueue =
      x.exchange.matchingEngine.feedQueue ++ msgs := by
  rw [exchange_step]
  split
  · exact ⟨[], (List.append_nil _).symm⟩
  · rename_i exchangeAction _
    rcases Exchange.matchingEngine_step iterate hidle exchangeAction with heq | ⟨msg, heq⟩
    · exact ⟨[], by rw [heq, List.append_nil]⟩
    · obtain ⟨-, msgs, hmsgs, -⟩ := x.exchange.matchingEngine.speaks_apply (.message msg)
      exact ⟨msgs, by rw [heq]; exact hmsgs⟩

theorem Broadcasts.of_append {y : RunningExchange} (h : x.Broadcasts)
    (hpopped : y.feedPopped = x.feedPopped) (hfeed : y.feedHandler = x.feedHandler)
    {msgs : List MarketDataMessage} (hqueue : y.exchange.matchingEngine.feedQueue =
      x.exchange.matchingEngine.feedQueue ++ msgs) : y.Broadcasts := by
  obtain ⟨hle, whole, hwhole, hsent⟩ := h
  refine ⟨?_, whole, ?_, hfeed ▸ hsent⟩
  · rw [hpopped, hqueue, List.length_append]
    omega
  · rw [hpopped, hqueue, List.take_append_of_le_length hle]
    exact hwhole

/-- A message that is popped is sent whole, or lost. -/
theorem Broadcasts.processMessage (h : x.Broadcasts) (sent : ℤ) :
    (x.processMessage sent).Broadcasts := by
  rw [RunningExchange.processMessage]
  split
  · exact h
  · rename_i msg hpop
    obtain ⟨pushed, hpushed, hpack⟩ := Option.bind_eq_some_iff.mp hpop
    obtain ⟨hle, whole, hwhole, hsent⟩ := h
    obtain ⟨hlt, hget⟩ := List.getElem?_eq_some_iff.mp hpushed
    refine ⟨hlt, whole ++ (if sent = msg.bytes.length then [msg] else []), ?_,
      hsent.trans (FeedHandler.sent_processMessage hsent.ready msg sent)⟩
    simp only [List.take_succ_eq_append_getElem hlt, hget, List.map_append]
    refine hwhole.append ?_
    rw [List.map_singleton, hpack]
    split
    · exact List.Sublist.refl _
    · exact List.nil_sublist _

theorem Broadcasts.step (h : x.Broadcasts)
    (hidle : x.exchange.zmqServer.sessionManager.NoActiveOrders) (action : Action) :
    (x.step iterate action).Broadcasts := by
  obtain ⟨msgs, hmsgs⟩ := exists_feedQueue_step iterate hidle action
  cases action with
  | processMessage sent => exact h.processMessage sent
  | generateOrder draw =>
      refine h.of_append ?_ ?_ hmsgs
      · simp only [RunningExchange.step, generateOrder]
        split <;> rfl
      · simp only [RunningExchange.step, generateOrder]
        split <;> rfl
  | _ => exact h.of_append rfl rfl hmsgs

/-- **The generator counts what the inbound queue has taken.** -/
theorem ordersGenerated_step (action : Action) :
    (x.step iterate action).dummyGenerator.map DummyGenerator.ordersGenerated =
      x.dummyGenerator.map fun g =>
        g.ordersGenerated + UInt64.ofNat (x.generatedBy? action).toList.length := by
  have hkeep : x.dummyGenerator.map DummyGenerator.ordersGenerated =
      x.dummyGenerator.map fun g => g.ordersGenerated + UInt64.ofNat 0 :=
    congrArg (x.dummyGenerator.map ·) (funext fun g => (UInt64.add_zero _).symm)
  cases action with
  | processMessage sent =>
      simp only [step, RunningExchange.processMessage]
      split <;> exact hkeep
  | generateOrder draw =>
      simp only [step, generateOrder, generatedBy?]
      cases hgenerator : x.dummyGenerator with
      | none => simp only [hgenerator, Option.map_none]
      | some g =>
          have hcount : (g.generateRequest draw).1.ordersGenerated = g.ordersGenerated := by
            simp only [DummyGenerator.generateRequest]
            split
            · rfl
            · split <;> rfl
          simp only [DummyGenerator.generateOrder, Option.bind_some, Option.map_some]
          cases draw.pushed with
          | false => simp [hcount]
          | true => simp [hcount]
  | _ => exact hkeep

/-- **A generator with room for its prices** pushes only messages that are accepted. -/
theorem accepted_step {config : DummyGeneratorConfig} (h : config.Sensible)
    (hroom : config.LeavesRoom) (hwalks : ∀ g, x.dummyGenerator = some g → g.Walks config)
    (action : Action) (hdraw : ∀ draw, action = .generateOrder draw → draw.Allowed config) :
    (∀ g, (x.step iterate action).dummyGenerator = some g → g.Walks config) ∧
      ∀ msg, x.generatedBy? action = some msg → MatchingEngine.isAccepted msg = true := by
  cases action with
  | processMessage sent =>
      refine ⟨?_, fun msg hmsg => by cases hmsg⟩
      simp only [step, RunningExchange.processMessage]
      split <;> exact hwalks
  | generateOrder draw =>
      simp only [step, generateOrder, generatedBy?]
      cases hgenerator : x.dummyGenerator with
      | none =>
          refine ⟨fun g hg => ?_, fun msg hmsg => by cases hmsg⟩
          rw [hgenerator] at hg
          cases hg
      | some g =>
          obtain ⟨hstep, hvalid⟩ := DummyGenerator.generateOrder_of_leavesRoom h hroom
            (hwalks g hgenerator) (hdraw draw rfl)
          refine ⟨fun g' hg' => ?_, fun msg hmsg => ?_⟩
          · exact Option.some.inj hg' ▸ hstep
          · rw [Option.bind_some] at hmsg
            split at hmsg
            · exact Option.some.inj hmsg ▸ hvalid.accepted
            · cases hmsg
  | _ => exact ⟨hwalks, fun msg hmsg => by cases hmsg⟩

end Steps

/-! ### Histories -/

section Histories

variable (iterate : Finset OrderId → List OrderId) (arrivals : ℕ → List Frame)
  (symbol : List UInt8) (clock : ℕ → Timestamp) (dummyConfig : Option DummyGeneratorConfig)

/-- **The server and the engine** do what they do without the other two components. -/
theorem exchange_after (past : List Action) :
    (after iterate arrivals symbol clock dummyConfig past).exchange =
      Exchange.after iterate arrivals symbol clock
        (exchangeActions iterate arrivals symbol clock dummyConfig past) := by
  induction past with
  | nil => rfl
  | cons action past ih =>
      rw [after, exchange_step, exchangeActions]
      cases (after iterate arrivals symbol clock dummyConfig past).exchangeAction? action with
      | none => exact ih
      | some exchangeAction => exact congrArg (Exchange.step iterate · exchangeAction) ih

theorem broadcasts_after (past : List Action) :
    (after iterate arrivals symbol clock dummyConfig past).Broadcasts := by
  induction past with
  | nil =>
      exact ⟨Nat.le_refl _, [], List.Sublist.refl _, FeedHandler.Sent.refl _⟩
  | cons action past ih =>
      refine ih.step iterate ?_ action
      rw [exchange_after]
      exact Exchange.noActiveOrders_after iterate arrivals symbol clock _

/-- The messages of the generator are those that are on their way or processed. -/
theorem dummyMessages_after (past : List Action)
    (hroom : (Exchange.opened iterate arrivals symbol clock
      (exchangeActions iterate arrivals symbol clock dummyConfig past)).length < 2 ^ 32 - 1) :
    Exchange.dummyMessages iterate arrivals symbol clock
        (exchangeActions iterate arrivals symbol clock dummyConfig past) =
      generated iterate arrivals symbol clock dummyConfig past := by
  induction past with
  | nil => rfl
  | cons action past ih =>
      have hgenerated := generatedBy_exchangeAction
        (x := after iterate arrivals symbol clock dummyConfig past) action
      rw [exchangeActions] at hroom ⊢
      rw [generated, ← hgenerated]
      cases haction : (after iterate arrivals symbol clock dummyConfig past).exchangeAction?
          action with
      | none =>
          rw [haction] at hroom
          exact (ih hroom).trans (List.append_nil _).symm
      | some exchangeAction =>
          rw [haction, Option.toList_some, List.singleton_append] at hroom
          rw [Option.toList_some, List.singleton_append,
            Exchange.dummyMessages_cons iterate arrivals symbol clock _ _ hroom, ih]
          rw [Exchange.opened, List.length_append] at hroom
          omega

/-- The generator counts the orders that the inbound queue has taken. -/
theorem ordersGenerated_after (past : List Action) :
    (after iterate arrivals symbol clock dummyConfig past).dummyGenerator.map
        DummyGenerator.ordersGenerated =
      dummyConfig.map fun _ =>
        UInt64.ofNat (generated iterate arrivals symbol clock dummyConfig past).length := by
  induction past with
  | nil => cases dummyConfig <;> rfl
  | cons action past ih =>
      rw [after, ordersGenerated_step, generated, List.length_append, UInt64.ofNat_add]
      cases hgenerator : (after iterate arrivals symbol clock dummyConfig past).dummyGenerator with
      | none =>
          rw [hgenerator] at ih
          cases dummyConfig with
          | none => rfl
          | some config => cases ih
      | some g =>
          rw [hgenerator] at ih
          cases dummyConfig with
          | none => cases ih
          | some config =>
              rw [Option.map_some, Option.map_some] at ih ⊢
              rw [Option.some.inj ih]

/-- **The figures are truthful** in a state after a history of the server and the engine: they
count, as far as 64 bits go, the requests for new orders that were processed, the trades that were
executed and those that were published again, the sessions that are open, the messages that the
network got, and the orders of the generator that are on their way or processed. -/
structure StatisticsTruthful (x : RunningExchange) (actions : List Exchange.Action) : Prop where
  ordersProcessed : x.printStatistics.ordersProcessed =
    UInt64.ofNat ((Exchange.processed iterate arrivals symbol clock actions).countP
      InboundMessage.isNewOrder)
  tradesExecuted : x.printStatistics.tradesExecuted =
    UInt64.ofNat
      ((executedTrades symbol clock
          (Exchange.processed iterate arrivals symbol clock actions)).length +
        (repeatedTrades symbol clock
          (Exchange.processed iterate arrivals symbol clock actions)).length)
  activeSessions : x.printStatistics.activeSessions +
      (Exchange.closed iterate arrivals symbol clock actions).length =
    (Exchange.opened iterate arrivals symbol clock actions).length
  published : ∃ whole : List MarketData,
    (whole.map some).Sublist
      (x.exchange.matchingEngine.feedQueue.map MarketDataMessage.pack?) ∧
    x.feedHandler.multicast.network = whole.map MarketData.bytes ∧
    x.printStatistics.ticksPublished = UInt64.ofNat (whole.countP MarketData.isTick) ∧
    x.printStatistics.tradesPublished = UInt64.ofNat (whole.countP MarketData.isTrade)
  dummyOrdersGenerated : x.printStatistics.dummyOrdersGenerated =
    dummyConfig.map fun _ => UInt64.ofNat
      ((Exchange.processed iterate arrivals symbol clock actions).countP Exchange.isDummy +
        x.exchange.inboundQueue.countP Exchange.isDummy)

/-- **The statistics tell the truth** in every state of every history in which the session ids
last. -/
theorem statistics_truthful (past : List Action)
    (hroom : (Exchange.opened iterate arrivals symbol clock
      (exchangeActions iterate arrivals symbol clock dummyConfig past)).length < 2 ^ 32 - 1) :
    StatisticsTruthful iterate arrivals symbol clock dummyConfig
      (after iterate arrivals symbol clock dummyConfig past)
      (exchangeActions iterate arrivals symbol clock dummyConfig past) := by
  have hexchange := exchange_after iterate arrivals symbol clock dummyConfig past
  have hengine := Exchange.matchingEngine_after iterate arrivals symbol clock
    (exchangeActions iterate arrivals symbol clock dummyConfig past)
  refine ⟨?_, ?_, ?_, ?_, ?_⟩
  · rw [printStatistics, hexchange, hengine]
    exact ordersProcessed_after symbol clock _
  · rw [printStatistics, hexchange, hengine]
    exact tradesExecuted_after symbol clock _
  · rw [printStatistics, hexchange]
    exact (Exchange.liveSessions_after iterate arrivals symbol clock _ hroom).activeSessionCount
      (Exchange.nodup_closed iterate arrivals symbol clock _ hroom)
  · obtain ⟨-, whole, hwhole, hsent⟩ :=
      broadcasts_after iterate arrivals symbol clock dummyConfig past
    refine ⟨whole, hwhole.trans ((List.take_sublist _ _).map _), hsent.network, ?_, ?_⟩
    · exact hsent.ticksPublished.trans (UInt64.zero_add _)
    · exact hsent.tradesPublished.trans (UInt64.zero_add _)
  · have hcount := congrArg List.length
      (dummyMessages_after iterate arrivals symbol clock dummyConfig past hroom)
    rw [Exchange.dummyMessages, ← List.countP_eq_length_filter, List.countP_append,
      List.countP_reverse] at hcount
    rw [hexchange, hcount]
    exact ordersGenerated_after iterate arrivals symbol clock dummyConfig past

variable {config : DummyGeneratorConfig}

/-- A generator with room for its prices pushes only messages that are accepted, in any history. -/
theorem accepted_generated (h : config.Sensible) (hprices : config.LeavesRoom) {past : List Action}
    (hdraws : ∀ draw, .generateOrder draw ∈ past → draw.Allowed config) :
    (∀ g, (after iterate arrivals symbol clock (some config) past).dummyGenerator = some g →
        g.Walks config) ∧
      ∀ msg ∈ generated iterate arrivals symbol clock (some config) past,
        MatchingEngine.isAccepted msg = true := by
  induction past with
  | nil =>
      refine ⟨fun g hg => ?_, fun msg hmem => by cases hmem⟩
      exact Option.some.inj hg ▸ DummyGenerator.walks_start h _
  | cons action past ih =>
      obtain ⟨hwalks, haccepted⟩ := ih fun draw hmem => hdraws draw (List.mem_cons_of_mem _ hmem)
      obtain ⟨hwalks', hpushed⟩ := accepted_step iterate h hprices hwalks action
        fun draw hdraw => hdraws draw (hdraw ▸ List.mem_cons_self)
      refine ⟨hwalks', fun msg hmem => ?_⟩
      rcases List.mem_append.mp hmem with hmem | hmem
      · exact haccepted msg hmem
      · exact hpushed msg (Option.mem_toList.mp hmem)

/-- **The orders of the generator are served**: in the order in which they were generated, with
acknowledgements only, and no response to them finds a client. -/
structure DummyOrdersServed (past : List Action) (x : RunningExchange)
    (actions : List Exchange.Action) : Prop where
  order : ((Exchange.processed iterate arrivals symbol clock actions).reverse ++
      x.exchange.inboundQueue).filter Exchange.isDummy =
    generated iterate arrivals symbol clock dummyConfig past
  accepted : ∀ msg ∈ Exchange.processed iterate arrivals symbol clock actions,
    msg.sessionId = DUMMY_SESSION_ID → MatchingEngine.isAccepted msg = true
  acknowledged : ∀ m ∈ x.exchange.matchingEngine.outboundQueue,
    m.sessionId = DUMMY_SESSION_ID → m.body.isAnswer = true → ∃ ack, m.body = .orderAck ack
  unseen : ∀ m : OutboundMessage, m.sessionId = DUMMY_SESSION_ID →
    x.exchange.zmqServer.recipient? m = none

/-- **Dummy orders are served** in every history: whatever is drawn, however the threads interleave
and whatever clients send, if the configuration leaves room for the prices. -/
theorem dummy_orders_served (h : config.Sensible) (hprices : config.LeavesRoom)
    {past : List Action} (hdraws : ∀ draw, .generateOrder draw ∈ past → draw.Allowed config)
    (hroom : (Exchange.opened iterate arrivals symbol clock
      (exchangeActions iterate arrivals symbol clock (some config) past)).length < 2 ^ 32 - 1) :
    DummyOrdersServed iterate arrivals symbol clock (some config) past
      (after iterate arrivals symbol clock (some config) past)
      (exchangeActions iterate arrivals symbol clock (some config) past) := by
  have hexchange := exchange_after iterate arrivals symbol clock (some config) past
  have hgenerated := dummyMessages_after iterate arrivals symbol clock (some config) past hroom
  have haccepted : ∀ msg ∈ Exchange.processed iterate arrivals symbol clock
      (exchangeActions iterate arrivals symbol clock (some config) past),
      msg.sessionId = DUMMY_SESSION_ID → MatchingEngine.isAccepted msg = true := by
    intro msg hmem hdummy
    refine (accepted_generated iterate arrivals symbol clock h hprices hdraws).2 msg ?_
    rw [← hgenerated, Exchange.dummyMessages, List.mem_filter]
    exact ⟨List.mem_append_left _ (List.mem_reverse.mpr hmem), decide_eq_true hdummy⟩
  refine ⟨?_, haccepted, ?_, ?_⟩
  · rw [hexchange]
    exact hgenerated
  · rw [hexchange, Exchange.matchingEngine_after]
    intro m hm
    exact acknowledged_after symbol clock haccepted hm
  · intro m hdummy
    have hlive := Exchange.liveSessions_after iterate arrivals symbol clock _ hroom
    rw [hexchange, ZmqServer.recipient?, hlive.live, hdummy]
    have hnone : (Exchange.opened iterate arrivals symbol clock (exchangeActions iterate arrivals
        symbol clock (some config) past)).lookup DUMMY_SESSION_ID = none := by
      refine Option.not_isSome_iff_eq_none.mp fun hsome => ?_
      exact hlive.ne_dummy hroom (ZmqServer.mem_map_fst_iff.mpr hsome) rfl
    rw [hnone, ite_self]

end Histories

/-- The configuration of the generator that `main` sets. -/
def mainConfig : DummyGeneratorConfig where
  basePrice := 1000
  priceRange := 50
  tickSize := 1
  minQuantity := 1
  maxQuantity := 100

theorem sensible_mainConfig : mainConfig.Sensible := by
  constructor <;> decide

theorem leavesRoom_mainConfig : mainConfig.LeavesRoom := by
  constructor <;> decide

/-- A LIMIT order to buy 10. -/
def buyDraw : OrderDraw where
  side := .buy
  orderType := .limit
  quantity := 10
  priceChange := 0
  ticks := 2

theorem allowed_buyDraw : buyDraw.Allowed mainConfig := by
  constructor <;> decide

/-- The orders of two clients trade while the generator enters an order, the first client
disconnects, and the last message of the feed is lost. -/
def mixedRun : List Action :=
  [.processMessage 0, .processMessage 36, .processMessage 43, .processOutbound,
    .handleClientDisconnect [65], .processInbound, .processInbound, .processInbound,
    .generateOrder buyDraw, .processIncoming, .processIncoming]

theorem length_opened_mixedRun :
    (Exchange.opened Finset.toList Exchange.tradingArrivals [] (fun _ => 0)
      (exchangeActions Finset.toList Exchange.tradingArrivals [] (fun _ => 0) (some mainConfig)
        mixedRun)).length < 2 ^ 32 - 1 := by
  decide +kernel

theorem statistics_truthful_mixedRun :
    (after Finset.toList Exchange.tradingArrivals [] (fun _ => 0) (some mainConfig)
      mixedRun).printStatistics = ⟨3, 1, 1, 1, 1, some 1⟩ ∧
    StatisticsTruthful Finset.toList Exchange.tradingArrivals [] (fun _ => 0) (some mainConfig)
      (after Finset.toList Exchange.tradingArrivals [] (fun _ => 0) (some mainConfig) mixedRun)
      (exchangeActions Finset.toList Exchange.tradingArrivals [] (fun _ => 0) (some mainConfig)
        mixedRun) :=
  ⟨by decide +kernel, statistics_truthful Finset.toList Exchange.tradingArrivals [] (fun _ => 0)
    (some mainConfig) mixedRun length_opened_mixedRun⟩

theorem dummy_orders_served_mixedRun :
    generated Finset.toList Exchange.tradingArrivals [] (fun _ => 0) (some mainConfig) mixedRun =
      [⟨DUMMY_SESSION_ID, .newOrder
        { header := ⟨.newOrderRequest, 29, 0⟩, clientOrderId := 1, side := 1, orderType := 1,
          price := 998, quantity := 10 }⟩] ∧
    DummyOrdersServed Finset.toList Exchange.tradingArrivals [] (fun _ => 0) (some mainConfig)
      mixedRun
      (after Finset.toList Exchange.tradingArrivals [] (fun _ => 0) (some mainConfig) mixedRun)
      (exchangeActions Finset.toList Exchange.tradingArrivals [] (fun _ => 0) (some mainConfig)
        mixedRun) := by
  have hdraws : ∀ draw, .generateOrder draw ∈ mixedRun → draw.Allowed mainConfig := by
    intro draw hmem
    simp only [mixedRun, List.mem_cons, List.not_mem_nil, reduceCtorEq, or_false, false_or,
      Action.generateOrder.injEq] at hmem
    exact hmem ▸ allowed_buyDraw
  exact ⟨by decide +kernel, dummy_orders_served Finset.toList Exchange.tradingArrivals []
    (fun _ => 0) sensible_mainConfig leavesRoom_mainConfig hdraws length_opened_mixedRun⟩

end RunningExchange

end ExchangeEngine
