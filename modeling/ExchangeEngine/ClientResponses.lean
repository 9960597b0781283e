import ExchangeEngine.ClientSessions
import ExchangeEngine.Disconnect
import ExchangeEngine.Rejections
import ExchangeEngine.Reports

/-!
# What a Client Is Sent

A client should be sent the responses to its own requests and the reports of its own orders, and
nothing about the business of others. Three threads take part in that: the thread of the server
gives a client its session and routes its requests under it, the thread of the engine addresses
responses to sessions, and the thread of the server later looks up the client of the session, which
may have disconnected, and come back under another session, in the meantime.

## Main results

* `concerns_after`: every response of the engine concerns the session that it is addressed to.
* `liveSessions_after`: the session maps agree in every state of a running exchange.
* `sent_to_owner`: in every interleaving, what a client is sent concerns a session of its own.
-/

namespace ExchangeEngine

/-! ### What a response is about -/

section Engine

variable (symbol : List UInt8) (clock : ℕ → Timestamp)

/-- **A response concerns a session** in a history of messages: it reports an execution of an order
that the session entered, or it answers a request of the session. -/
def OutboundBody.Concerns (past : List InboundMessage) (sessionId : SessionId) :
    OutboundBody → Prop
  | .execReport report =>
      owner symbol clock past report.orderId = some sessionId ∧
        ∃ trade ∈ executedTrades symbol clock past,
          (trade.buyOrderId = report.orderId ∨ trade.sellOrderId = report.orderId) ∧
            trade.price = report.execPrice ∧ trade.quantity = report.execQty
  | body => ∃ msg ∈ past, msg.sessionId = sessionId ∧ body.Answers msg.body

theorem OutboundBody.isAnswer_of_answers {request : InboundBody} {body : OutboundBody}
    (h : body.Answers request) : body.isAnswer = true := by
  cases body with
  | execReport report => cases request <;> cases h
  | _ => rfl

/-- A message is answered last, with the ids of its request. -/
theorem MatchingEngine.exists_answer (e : MatchingEngine) (msg : InboundMessage) :
    ∃ (reports : List OutboundMessage) (answer : OutboundBody),
      (∀ m ∈ reports, m.body.isAnswer = false) ∧ answer.Answers msg.body ∧
      (e.processInboundMessage msg).outboundQueue =
        e.outboundQueue ++ (reports ++ [⟨msg.sessionId, answer⟩]) := by
  -- all but an accepted request for a new order are answered only
  have hsingle : ∀ answer : OutboundBody, answer.Answers msg.body →
      (e.processInboundMessage msg).outboundQueue =
        e.outboundQueue ++ [⟨msg.sessionId, answer⟩] →
      ∃ (reports : List OutboundMessage) (answer : OutboundBody),
        (∀ m ∈ reports, m.body.isAnswer = false) ∧ answer.Answers msg.body ∧
        (e.processInboundMessage msg).outboundQueue =
          e.outboundQueue ++ (reports ++ [⟨msg.sessionId, answer⟩]) := by
    intro answer hanswers hqueue
    exact ⟨[], answer, by simp, hanswers, hqueue⟩
  cases e.handled msg with
  | newRejected request reason body _ _ _ result =>
      refine hsingle (.orderReject _) ?_ (by rw [result]; rfl)
      rw [body]
      exact rfl
  | newAccepted request side orderType body _ _ _ result =>
      obtain ⟨reports, ack, hreports, hclient, -, -, hqueue⟩ :=
        e.countOrder.exists_ack_acceptNewOrder msg.sessionId request side orderType
      refine ⟨reports, .orderAck ack, hreports, ?_, by rw [result]; exact hqueue⟩
      rw [body]
      exact hclient
  | cancelRejected request body _ _ _ result =>
      refine hsingle (.cancelReject _) ?_ (by rw [result]; rfl)
      rw [body]
      exact ⟨rfl, rfl⟩
  | cancelled request owner body _ _ _ result =>
      refine hsingle (.cancelAck _) ?_ (by rw [result]; rfl)
      rw [body]
      exact ⟨rfl, rfl⟩
  | modifyRejected request reason body _ _ _ result =>
      refine hsingle (.modifyReject _) ?_ (by rw [result]; rfl)
      rw [body]
      exact ⟨rfl, rfl⟩
  | modified request body _ _ _ result =>
      obtain ⟨ack, hclient, horder, hqueue⟩ :=
        e.exists_ack_acceptModifyOrder msg.sessionId request
      refine hsingle (.modifyAck ack) ?_ (by rw [result, hqueue])
      rw [body]
      exact ⟨hclient, horder⟩

variable {symbol clock} {past before : List InboundMessage}

/-- **Every answer** of a run answers a request of the session that it is addressed to. -/
theorem answered_after {m : OutboundMessage}
    (hm : m ∈ (after symbol clock past).outboundQueue) (hanswer : m.body.isAnswer = true) :
    ∃ msg ∈ past, msg.sessionId = m.sessionId ∧ m.body.Answers msg.body := by
  induction past with
  | nil => cases hm
  | cons msg past ih =>
      obtain ⟨reports, answer, hreports, hanswers, hqueue⟩ :=
        (after symbol clock past).exists_answer msg
      rw [after_cons, hqueue] at hm
      rcases List.mem_append.mp hm with hm | hm
      · obtain ⟨request, hmem, hsession, hrequest⟩ := ih hm
        exact ⟨request, List.mem_cons_of_mem _ hmem, hsession, hrequest⟩
      rcases List.mem_append.mp hm with hm | hm
      · rw [hreports m hm] at hanswer
        cases hanswer
      · obtain rfl := List.mem_singleton.mp hm
        exact ⟨msg, List.mem_cons_self, rfl, hanswers⟩

/-- An order keeps the session that entered it. -/
theorem owner_of_suffix (h : acceptedOrders past < 2 ^ 64) (hsuffix : before <:+ past)
    {orderId : OrderId} {sessionId : SessionId}
    (howner : owner symbol clock before orderId = some sessionId) :
    owner symbol clock past orderId = some sessionId := by
  induction past with
  | nil => rwa [List.suffix_nil.mp hsuffix] at howner
  | cons msg past ih =>
      rcases List.suffix_cons_iff.mp hsuffix with rfl | hsuffix
      · exact howner
      · obtain ⟨⟨session, request⟩, hentry, hsession⟩ :=
          Option.map_eq_some_iff.mp (ih (acceptedOrders_lt_of_cons h) hsuffix)
        rw [owner, entry_cons h hentry]
        exact congrArg some hsession

/-- What a step contributes is in the list of the run. -/
theorem mem_chronicle {α : Type*} {step : List InboundMessage → InboundMessage → List α}
    {msg : InboundMessage} (hsuffix : (msg :: before) <:+ past) {a : α}
    (ha : a ∈ step before msg) : a ∈ chronicle step past := by
  induction past with
  | nil => cases List.suffix_nil.mp hsuffix
  | cons msg' past ih =>
      rw [chronicle, List.mem_append]
      rcases List.suffix_cons_iff.mp hsuffix with heq | hsuffix
      · obtain ⟨rfl, rfl⟩ := List.cons.inj heq
        exact Or.inr ha
      · exact Or.inl (ih hsuffix)

/-- **Every report** of a run is about an execution of an order of the session that it is addressed
to. -/
theorem reported_after (h : acceptedOrders past < 2 ^ 64) {sessionId : SessionId}
    {report : ExecutionReport}
    (hm : ⟨sessionId, .execReport report⟩ ∈ (after symbol clock past).outboundQueue) :
    (OutboundBody.execReport report).Concerns symbol clock past sessionId := by
  have hreport : (sessionId, report) ∈ (after symbol clock past).reports :=
    List.mem_filterMap.mpr ⟨_, hm, rfl⟩
  have hdue : reportContent (sessionId, report) ∈ expectedReports symbol clock past :=
    (reports_with_missing symbol clock past h).subset
      (List.mem_append_left _ (List.mem_map_of_mem hreport))
  obtain ⟨msg, before, hsuffix, hstep⟩ : ∃ msg before, (msg :: before) <:+ past ∧
      reportContent (sessionId, report) ∈ ((after symbol clock before).stepTrades msg).flatMap
        (dueReports symbol clock (msg :: before)) :=
    forall_mem_chronicle (P := fun content => ∃ msg before, (msg :: before) <:+ past ∧
        content ∈ ((after symbol clock before).stepTrades msg).flatMap
          (dueReports symbol clock (msg :: before)))
      (fun msg before hsuffix _ hmem => ⟨msg, before, hsuffix, hmem⟩) _ hdue
  obtain ⟨trade, htrade, hcontent⟩ := List.mem_flatMap.mp hstep
  have hexecuted : trade ∈ executedTrades symbol clock past := mem_chronicle hsuffix htrade
  simp only [dueReports, reportContent, List.mem_cons, List.not_mem_nil, or_false,
    Prod.mk.injEq] at hcontent
  rcases hcontent with ⟨howner, horder, hprice, hquantity, -⟩ |
    ⟨howner, horder, hprice, hquantity, -⟩
  · refine ⟨owner_of_suffix h hsuffix (by rw [horder]; exact howner.symm), trade, hexecuted,
      Or.inl horder.symm, hprice.symm, hquantity.symm⟩
  · refine ⟨owner_of_suffix h hsuffix (by rw [horder]; exact howner.symm), trade, hexecuted,
      Or.inr horder.symm, hprice.symm, hquantity.symm⟩

/-- **Every response of a run concerns the session that it is addressed to.** -/
theorem concerns_after (h : acceptedOrders past < 2 ^ 64) {m : OutboundMessage}
    (hm : m ∈ (after symbol clock past).outboundQueue) :
    m.body.Concerns symbol clock past m.sessionId := by
  obtain ⟨sessionId, body⟩ := m
  cases body with
  | execReport report => exact reported_after h hm
  | _ => exact answered_after hm rfl

end Engine

/-! ### The sessions of an exchange -/

namespace ZmqServer.LiveSessions

variable {server : ZmqServer} {created : List (SessionId × Identity)} {destroyed : List SessionId}

/-- A session that has been created keeps its client. -/
theorem lookup_cons (h : server.LiveSessions created destroyed) {sessionId : SessionId}
    {identity other : Identity} (hlookup : created.lookup sessionId = some identity) :
    ((server.sessionManager.nextSessionId, other) :: created).lookup sessionId =
      some identity := by
  rw [List.lookup_cons]
  split
  · rename_i heq
    refine absurd ?_ h.next_notMem
    rw [← eq_of_beq heq, mem_map_fst_iff, hlookup]
    rfl
  · exact hlookup

/-- A session that a client has is not one that has been destroyed. -/
theorem notMem_of_lookup (h : server.LiveSessions created destroyed) {identity : Identity}
    {sessionId : SessionId} (hlookup : server.identityToSession.lookup identity = some sessionId) :
    sessionId ∈ created.map Prod.fst ∧ sessionId ∉ destroyed := by
  have hclient := (h.inverse identity sessionId).mp hlookup
  rw [h.live] at hclient
  split at hclient
  · cases hclient
  · rename_i hlive
    refine ⟨mem_map_fst_iff.mpr ?_, hlive⟩
    rw [hclient]
    rfl

/-- No client has the dummy session. -/
theorem ne_dummy (h : server.LiveSessions created destroyed)
    (hroom : created.length < 2 ^ 32 - 1) {sessionId : SessionId}
    (hmem : sessionId ∈ created.map Prod.fst) : sessionId ≠ DUMMY_SESSION_ID := by
  rintro rfl
  have hle := (h.numbered _ hmem).2
  rw [show DUMMY_SESSION_ID.toNat = 2 ^ 32 - 1 from rfl] at hle
  omega

/-- Reading a message keeps the invariant if connecting its sender does. -/
theorem processIncoming {identity : Identity} {msg : Frame}
    (hreceive : server.socket.receive.1 = some (identity, msg))
    (hconnect : ∀ socket,
      (({ server with socket } : ZmqServer).connect identity).LiveSessions created destroyed) :
    server.processIncoming.LiveSessions created destroyed := by
  obtain ⟨received, socket, hboth⟩ :
      ∃ received socket, server.socket.receive = (received, socket) := ⟨_, _, rfl⟩
  rw [hboth] at hreceive
  obtain rfl : received = some (identity, msg) := hreceive
  simp only [ZmqServer.processIncoming, hboth]
  exact (hconnect socket).parseAndRouteMessage identity msg

end ZmqServer.LiveSessions

namespace Exchange

/-- The session that a step creates, with the identity of its client: that of the sender of the
message that is read, if it has none. -/
def openedBy? (x : Exchange) : Action → Option (SessionId × Identity)
  | .processIncoming =>
      match x.zmqServer.socket.receive.1 with
      | none => none
      | some (identity, _) =>
          match x.zmqServer.identityToSession.lookup identity with
          | some _ => none
          | none => some ((x.zmqServer.sessionManager.createSession identity).1, identity)
  | _ => none

/-- The session that a step destroys. -/
def closedBy? (x : Exchange) : Action → Option SessionId
  | .handleClientDisconnect identity => x.zmqServer.identityToSession.lookup identity
  | _ => none

section Runs

variable (iterate : Finset OrderId → List OrderId) (arrivals : ℕ → List Frame)
  (symbol : List UInt8) (clock : ℕ → Timestamp)

/-- The sessions created in a history, with their clients, newest first. -/
def opened : List Action → List (SessionId × Identity)
  | [] => []
  | action :: past =>
      ((after iterate arrivals symbol clock past).openedBy? action).toList ++ opened past

/-- The sessions destroyed in a history, newest first. -/
def closed : List Action → List SessionId
  | [] => []
  | action :: past =>
      ((after iterate arrivals symbol clock past).closedBy? action).toList ++ closed past

/-- **A client is sent what concerns it.** The sessions are those of clients, each of one client,
and the dummy session is none of them. What has been sent is some of the responses of the engine, in
order and none twice, each to the client of its session and about that session. -/
structure SentToOwner (past : List Action) : Prop where
  sessions : ((opened iterate arrivals symbol clock past).map Prod.fst).Nodup
  dummy : DUMMY_SESSION_ID ∉ (opened iterate arrivals symbol clock past).map Prod.fst
  responses : ∃ kept : List OutboundMessage,
    kept.Sublist (after iterate arrivals symbol clock past).matchingEngine.outboundQueue ∧
    List.Forall₂ (fun sent msg => sent.2 = msg.body ∧
        (opened iterate arrivals symbol clock past).lookup msg.sessionId = some sent.1 ∧
        msg.body.Concerns symbol clock (processed iterate arrivals symbol clock past)
          msg.sessionId)
      (after iterate arrivals symbol clock past).sent kept

end Runs

/-! ### Steps -/

section Steps

variable {iterate : Finset OrderId → List OrderId} {x : Exchange}
  {created : List (SessionId × Identity)} {destroyed : List SessionId}

/-- The callback is the engine's affair. -/
theorem exists_notify (iterate : Finset OrderId → List OrderId) (x : Exchange)
    (callback : Option (SessionId × Finset OrderId)) :
    ∃ matchingEngine, x.notify iterate callback = { x with matchingEngine } := by
  cases callback with
  | none => exact ⟨x.matchingEngine, rfl⟩
  | some arguments =>
      simp only [notify, onSessionDisconnect]
      split
      · exact ⟨x.matchingEngine, rfl⟩
      · exact ⟨_, rfl⟩

/-- A client that has no session gets the next one. -/
theorem openedBy?_processIncoming (h : x.zmqServer.LiveSessions created destroyed)
    {identity : Identity} {msg : Frame}
    (hreceive : x.zmqServer.socket.receive.1 = some (identity, msg))
    (hnew : x.zmqServer.identityToSession.lookup identity = none) :
    x.openedBy? .processIncoming = some (x.zmqServer.sessionManager.nextSessionId, identity) := by
  have hmanager : x.zmqServer.sessionManager.identityToSession.lookup identity = none := by
    rw [← h.maps]
    exact hnew
  simp only [openedBy?, hreceive, hnew, SessionManager.createSession, hmanager]

/-- Connecting the sender of the message that is read. -/
theorem liveSessions_connect (h : x.zmqServer.LiveSessions created destroyed)
    (hroom : ((x.openedBy? .processIncoming).toList ++ created).length < 2 ^ 32 - 1)
    {identity : Identity} {msg : Frame}
    (hreceive : x.zmqServer.socket.receive.1 = some (identity, msg)) (socket : Socket) :
    (({ x.zmqServer with socket } : ZmqServer).connect identity).LiveSessions
      ((x.openedBy? .processIncoming).toList ++ created) destroyed := by
  have hread : ({ x.zmqServer with socket } : ZmqServer).LiveSessions created destroyed :=
    h.of_eq _ _
  cases hlookup : x.zmqServer.identityToSession.lookup identity with
  | some sessionId =>
      simp only [openedBy?, hreceive, hlookup, ZmqServer.connect]
      exact hread
  | none =>
      rw [openedBy?_processIncoming h hreceive hlookup] at hroom ⊢
      exact hread.connect hlookup hroom

/-- **Every step keeps the session maps in agreement.** -/
theorem liveSessions_step (h : x.zmqServer.LiveSessions created destroyed) (action : Action)
    (hroom : ((x.openedBy? action).toList ++ created).length < 2 ^ 32 - 1) :
    (x.step iterate action).zmqServer.LiveSessions ((x.openedBy? action).toList ++ created)
      ((x.closedBy? action).toList ++ destroyed) := by
  cases action with
  | processIncoming =>
      cases hreceive : x.zmqServer.socket.receive.1 with
      | none =>
          obtain ⟨received, socket, hboth⟩ : ∃ received socket,
              x.zmqServer.socket.receive = (received, socket) := ⟨_, _, rfl⟩
          rw [hboth] at hreceive
          obtain rfl : received = none := hreceive
          simp only [openedBy?, closedBy?, step, processIncoming, ZmqServer.processIncoming, hboth]
          exact h.of_eq _ _
      | some received =>
          obtain ⟨identity, msg⟩ := received
          exact ZmqServer.LiveSessions.processIncoming hreceive
            (liveSessions_connect h hroom hreceive)
  | processOutbound => exact h
  | processInbound =>
      rw [step, processInbound]
      split
      · exact h
      · exact h.of_eq _ _
  | generateOrder request => exact h.of_eq _ _
  | handleClientDisconnect identity =>
      obtain ⟨matchingEngine, hnotify⟩ := exists_notify iterate
        { x with zmqServer := (x.zmqServer.handleClientDisconnect identity).2 }
        (x.zmqServer.handleClientDisconnect identity).1
      rw [step, handleClientDisconnect, hnotify]
      cases hlookup : x.zmqServer.identityToSession.lookup identity with
      | some sessionId =>
          simp only [closedBy?, hlookup]
          exact h.disconnect hlookup
      | none =>
          simp only [closedBy?, ZmqServer.handleClientDisconnect, hlookup]
          exact h

/-- **What has been sent so far**: some of the responses that have been popped, each to the client
whose message created its session. -/
structure SentInOrder (x : Exchange) (created : List (SessionId × Identity)) : Prop where
  popped : x.outboundPopped ≤ x.matchingEngine.outboundQueue.length
  responses : ∃ kept : List OutboundMessage,
    kept.Sublist (x.matchingEngine.outboundQueue.take x.outboundPopped) ∧
    List.Forall₂ (fun sent msg => sent.2 = msg.body ∧
      created.lookup msg.sessionId = some sent.1) x.sent kept

theorem SentInOrder.congr {y : Exchange} (h : x.SentInOrder created)
    (hengine : y.matchingEngine = x.matchingEngine) (hpopped : y.outboundPopped = x.outboundPopped)
    (hsent : y.sent = x.sent) : y.SentInOrder created := by
  obtain ⟨hle, hresponses⟩ := h
  exact ⟨by rw [hengine, hpopped]; exact hle, by rw [hengine, hpopped, hsent]; exact hresponses⟩

/-- A session that is created takes no response from another. -/
theorem SentInOrder.opened (h : x.SentInOrder created)
    (hlive : x.zmqServer.LiveSessions created destroyed) (action : Action) :
    x.SentInOrder ((x.openedBy? action).toList ++ created) := by
  obtain ⟨hle, kept, hkept, hall⟩ := h
  refine ⟨hle, kept, hkept, hall.imp ?_⟩
  rintro sent msg ⟨hbody, hlookup⟩
  refine ⟨hbody, ?_⟩
  cases action with
  | processIncoming =>
      cases hreceive : x.zmqServer.socket.receive.1 with
      | none =>
          simp only [openedBy?, hreceive]
          exact hlookup
      | some received =>
          obtain ⟨identity, frame⟩ := received
          cases hnew : x.zmqServer.identityToSession.lookup identity with
          | some sessionId =>
              simp only [openedBy?, hreceive, hnew]
              exact hlookup
          | none =>
              rw [openedBy?_processIncoming hlive hreceive hnew]
              exact hlive.lookup_cons hlookup
  | _ => exact hlookup

/-- The responses that find their clients, and the clients that they find. -/
theorem forall₂_processOutbound (hlive : x.zmqServer.LiveSessions created destroyed)
    (outbound : List OutboundMessage) :
    List.Forall₂ (fun sent msg => sent.2 = msg.body ∧ created.lookup msg.sessionId = some sent.1)
      (x.zmqServer.processOutbound outbound)
      (outbound.filter fun msg => (x.zmqServer.recipient? msg).isSome) := by
  induction outbound with
  | nil => exact List.Forall₂.nil
  | cons msg outbound ih =>
      rw [ZmqServer.processOutbound, List.filterMap_cons, List.filter_cons]
      cases hrecipient : x.zmqServer.recipient? msg with
      | none => exact ih
      | some sent =>
          refine List.Forall₂.cons ?_ ih
          simp only [ZmqServer.recipient?, hlive.live] at hrecipient
          split at hrecipient
          · cases hrecipient
          · rename_i identity hlookup
            obtain rfl := Option.some.inj hrecipient
            refine ⟨rfl, ?_⟩
            split at hlookup
            · cases hlookup
            · exact hlookup

/-- **Every step sends in order**, and only to the clients of the sessions. -/
theorem SentInOrder.step (h : x.SentInOrder created)
    (hlive : x.zmqServer.LiveSessions created destroyed)
    (hidle : x.zmqServer.sessionManager.NoActiveOrders) (action : Action) :
    (x.step iterate action).SentInOrder ((x.openedBy? action).toList ++ created) := by
  have hopened := h.opened hlive action
  cases action with
  | processIncoming => exact hopened.congr rfl rfl rfl
  | processOutbound =>
      obtain ⟨hle, kept, hkept, hall⟩ := h
      refine ⟨Nat.le_refl _, kept ++ (x.matchingEngine.outboundQueue.drop x.outboundPopped).filter
        (fun msg => (x.zmqServer.recipient? msg).isSome), ?_, ?_⟩
      · have hwhole : (x.step iterate .processOutbound).matchingEngine.outboundQueue.take
            (x.step iterate .processOutbound).outboundPopped =
              x.matchingEngine.outboundQueue.take x.outboundPopped ++
                x.matchingEngine.outboundQueue.drop x.outboundPopped := by
          rw [List.take_append_drop]
          exact List.take_length
        rw [hwhole]
        exact hkept.append List.filter_sublist
      · exact List.rel_append hall (forall₂_processOutbound hlive _)
  | processInbound =>
      rw [Exchange.step, processInbound]
      split
      · exact hopened
      · rename_i msg inboundQueue hqueue
        obtain ⟨added, hadded⟩ : ∃ added, (x.matchingEngine.processInboundMessage
            msg).outboundQueue = x.matchingEngine.outboundQueue ++ added := by
          obtain ⟨reports, answer, -, -, houtbound⟩ := x.matchingEngine.exists_answer msg
          exact ⟨_, houtbound⟩
        obtain ⟨hle, kept, hkept, hall⟩ := hopened
        refine ⟨?_, kept, ?_, hall⟩
        · simp only [hadded, List.length_append]
          exact Nat.le_add_right_of_le hle
        · have htake : (x.matchingEngine.outboundQueue ++ added).take x.outboundPopped =
              x.matchingEngine.outboundQueue.take x.outboundPopped :=
            List.take_append_of_le_length hle
          simp only [hadded]
          exact htake ▸ hkept
  | generateOrder request => exact hopened.congr rfl rfl rfl
  | handleClientDisconnect identity =>
      have hengine : (x.step iterate (.handleClientDisconnect identity)).matchingEngine =
          x.matchingEngine := (step_inv hidle _).2 (by simp)
      obtain ⟨matchingEngine, hnotify⟩ := exists_notify iterate
        { x with zmqServer := (x.zmqServer.handleClientDisconnect identity).2 }
        (x.zmqServer.handleClientDisconnect identity).1
      refine hopened.congr hengine ?_ ?_
      · rw [Exchange.step, handleClientDisconnect, hnotify]
      · rw [Exchange.step, handleClientDisconnect, hnotify]

end Steps

/-! ### Histories -/

section Histories

variable (iterate : Finset OrderId → List OrderId) (arrivals : ℕ → List Frame)
  (symbol : List UInt8) (clock : ℕ → Timestamp)

/-- **The session maps agree in every history** in which the session ids last. -/
theorem liveSessions_after (past : List Action)
    (hroom : (opened iterate arrivals symbol clock past).length < 2 ^ 32 - 1) :
    (after iterate arrivals symbol clock past).zmqServer.LiveSessions
      (opened iterate arrivals symbol clock past) (closed iterate arrivals symbol clock past) := by
  induction past with
  | nil => exact ZmqServer.liveSessions_fresh arrivals
  | cons action past ih =>
      have hpast : (opened iterate arrivals symbol clock past).length < 2 ^ 32 - 1 := by
        rw [opened, List.length_append] at hroom
        omega
      exact liveSessions_step (ih hpast) action hroom

theorem sentInOrder_after (past : List Action)
    (hroom : (opened iterate arrivals symbol clock past).length < 2 ^ 32 - 1) :
    (after iterate arrivals symbol clock past).SentInOrder
      (opened iterate arrivals symbol clock past) := by
  induction past with
  | nil => exact ⟨Nat.le_refl _, [], List.nil_sublist _, List.Forall₂.nil⟩
  | cons action past ih =>
      have hpast : (opened iterate arrivals symbol clock past).length < 2 ^ 32 - 1 := by
        rw [opened, List.length_append] at hroom
        omega
      exact (ih hpast).step (liveSessions_after iterate arrivals symbol clock past hpast)
        (noActiveOrders_after iterate arrivals symbol clock past) action

/-- **What is sent goes to its owner.** However the threads interleave and whatever arrives, a
client is sent responses to requests of its own sessions and reports of its own orders, and nothing
else, as long as no session id and no order id is given out twice. -/
theorem sent_to_owner (past : List Action)
    (hroom : (opened iterate arrivals symbol clock past).length < 2 ^ 32 - 1)
    (h : acceptedOrders (processed iterate arrivals symbol clock past) < 2 ^ 64) :
    SentToOwner iterate arrivals symbol clock past := by
  have hlive := liveSessions_after iterate arrivals symbol clock past hroom
  obtain ⟨-, kept, hkept, hall⟩ := sentInOrder_after iterate arrivals symbol clock past hroom
  refine ⟨hlive.nodup, fun hmem => hlive.ne_dummy hroom hmem rfl, kept,
    hkept.trans (List.take_sublist _ _), ?_⟩
  · -- only responses of the engine are kept
    have hqueue : ∀ msg ∈ kept, msg ∈ (ExchangeEngine.after symbol clock
        (processed iterate arrivals symbol clock past)).outboundQueue := by
      intro msg hmem
      rw [← matchingEngine_after iterate arrivals symbol clock past]
      exact (hkept.trans (List.take_sublist _ _)).subset hmem
    refine List.forall₂_iff_get.mpr ⟨hall.length_eq, fun i hi hi' => ?_⟩
    obtain ⟨hbody, hlookup⟩ := hall.get hi hi'
    exact ⟨hbody, hlookup, concerns_after h (hqueue _ (List.get_mem _ _))⟩

end Histories

/-- Two clients, whose orders trade. -/
def tradingArrivals : ℕ → List Frame
  | 0 => [[65], [], (limitRequest .sell 100).bytes, [66], [], (limitRequest .buy 100).bytes]
  | _ => []

/-- The first client disconnects before the orders trade. -/
def tradedWithoutSeller : List Action :=
  [.processOutbound, .processInbound, .handleClientDisconnect [65], .processOutbound,
    .processInbound, .processIncoming, .processIncoming]

/-- The report of the seller is sent to nobody. -/
theorem sent_to_owner_tradedWithoutSeller :
    (after Finset.toList tradingArrivals [] (fun _ => 0) tradedWithoutSeller).sent.map Prod.fst =
      [[65], [66], [66]] ∧
    SentToOwner Finset.toList tradingArrivals [] (fun _ => 0) tradedWithoutSeller := by
  have hroom : (opened Finset.toList tradingArrivals [] (fun _ => 0)
      tradedWithoutSeller).length < 2 ^ 32 - 1 := by decide +kernel
  have h : acceptedOrders (processed Finset.toList tradingArrivals [] (fun _ => 0)
      tradedWithoutSeller) < 2 ^ 64 := by decide +kernel
  exact ⟨by decide +kernel, sent_to_owner Finset.toList tradingArrivals [] (fun _ => 0) _ hroom h⟩

end Exchange

end ExchangeEngine
