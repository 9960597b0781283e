import ExchangeEngine.BoundedExchange
import ExchangeEngine.Lib.Pipeline
import ExchangeEngine.OrderEntryClient

/-!
# Clients and the Exchange

Any number of client programs talk to one exchange, each under an identity of its own. A client
sends a request for a command that is typed, and then reads one response before it looks at the next
line. The exchange reads requests, processes them and sends responses, in threads of its own and
through queues of bounded size; the dummy generator enters orders. All this is interleaved step by
step.

A request or a response that finds its queue full is dropped, and the client that waits for the
response waits for ever. The results are about histories in which this does not happen; an order of
the generator may be dropped at any time.

The exchange also sends reports of executions, at any time. A client does not tell them from
answers, so that from the first report on it shows its user the answers late.

* `inv_after`: in every history every request is in one place, and the answers are in order.
* `exists_drained`: the threads of the exchange need no help to run out of work.

## Main results

* `dialog_sound`: what clients are shown, when they wait, and when they are in step.
-/

namespace ExchangeEngine

/-! ### The program -/

/-- The state of a client program. -/
structure OrderEntryClient where
  /-- The requests sent, oldest first. -/
  requests : List InboundBody
  /-- Whether a request has been sent whose response has not been read. -/
  waiting : Bool
  running : Bool
  /-- The number of frames read from the DEALER socket. -/
  framesRead : ℕ
  /-- What `printResponse` has printed, oldest first; none where it has made a fault. -/
  shown : List (Option (List Char))

namespace OrderEntryClient

/-- A client that has connected. -/
def fresh : OrderEntryClient where
  requests := []
  waiting := false
  running := true
  framesRead := 0
  shown := []

/-- `zmqRecvPayload`: the payload and the number of frames read, none while a frame is missing. Each
frame comes with whether more frames of its message follow. -/
def zmqRecvPayload : List (Frame × Bool) → Option (Frame × ℕ)
  | [] => none
  | (f1, false) :: _ => some (f1, 1)
  | [(_, true)] => none
  | (_, true) :: (f2, _) :: _ => some (f2, 2)

end OrderEntryClient

namespace Exchange

/-- The responses sent to a client, oldest first. -/
def sentTo (x : Exchange) (identity : Identity) : List OutboundBody :=
  (x.sent.filter fun p => p.1 = identity).map Prod.snd

/-- The exchange when more frames have arrived at its socket. -/
def arrive (x : Exchange) (frames : List Frame) : Exchange :=
  { x with
    zmqServer := { x.zmqServer with
      socket := { x.zmqServer.socket with incoming := x.zmqServer.socket.incoming ++ frames } } }

end Exchange

namespace BoundedExchange

/-- The responses sent to a client, oldest first. -/
def sentTo (x : BoundedExchange) (identity : Identity) : List OutboundBody :=
  x.unbounded.sentTo identity

/-- The exchange when more frames have arrived at its socket. -/
def arrive (x : BoundedExchange) (frames : List Frame) : BoundedExchange :=
  { x with
    zmqServer := { x.zmqServer with
      socket := { x.zmqServer.socket with incoming := x.zmqServer.socket.incoming ++ frames } } }

end BoundedExchange

/-- The clients, by their identities, and the exchange. -/
structure Dialog where
  exchange : BoundedExchange
  client : Identity → OrderEntryClient

namespace Dialog

/-- The exchange has started, and no client has sent anything. -/
def fresh (symbol : List UInt8) (clock : ℕ → Timestamp) : Dialog where
  exchange := .fresh (fun _ => []) symbol clock
  client _ := .fresh

/-- The frames that the DEALER socket of a client gets, without its identity: `sendToClient` sends
an empty frame and the bytes of the struct. -/
def framesTo (x : Dialog) (identity : Identity) : List (Frame × Bool) :=
  (x.exchange.sentTo identity).flatMap fun body => [([], true), (body.bytes, false)]

/-- The dialog with another state of one client. -/
def setClient (x : Dialog) (identity : Identity) (client : OrderEntryClient) : Dialog :=
  { x with client := Function.update x.client identity client }

/-- A line is typed for a client, which reads it unless it waits for a response or has ended. No
identity is empty. -/
def typeLine (x : Dialog) (identity : Identity) (line : List Char) (timestamp : Timestamp) :
    Dialog :=
  let client := x.client identity
  if identity = [] ∨ client.waiting = true ∨ client.running = false then x
  else
    match readCommand timestamp line with
    | .skip => x
    | .notice _ => x
    | .quit => x.setClient identity { client with running := false }
    | .send request =>
        { x with exchange := x.exchange.arrive (requestFrames identity request) }.setClient
          identity { client with requests := client.requests ++ [request], waiting := true }

/-- A client that waits reads a response and prints it. -/
def readResponse (x : Dialog) (identity : Identity) : Dialog :=
  let client := x.client identity
  if client.waiting = false then x
  else
    match OrderEntryClient.zmqRecvPayload ((x.framesTo identity).drop client.framesRead) with
    | none => x
    | some (payload, frames) => x.setClient identity
        { client with
          waiting := false
          framesRead := client.framesRead + frames
          shown := client.shown ++ [printResponse payload] }

/-- What can happen next: a line is typed for a client, a client reads from its socket, or a thread
of the exchange takes a step. -/
inductive Action
  | typeLine (identity : Identity) (line : List Char) (timestamp : Timestamp)
  | readResponse (identity : Identity)
  | serve (step : BoundedExchange.ServerStep)

/-- The effect of an action. Each leaves what it is not about as it is. -/
def step (x : Dialog) : Action → Dialog
  | .typeLine identity line timestamp => x.typeLine identity line timestamp
  | .readResponse identity => x.readResponse identity
  | .serve step => { x with exchange := step.run x.exchange }

/-- The session that a step creates, with the identity of its client. -/
def openedBy? (x : Dialog) : Action → Option (SessionId × Identity)
  | .serve .processIncoming => x.exchange.unbounded.openedBy? .processIncoming
  | _ => none

/-- Whether a request or a response that a step pushes finds room in its queue. -/
def hasRoom (x : Dialog) : Action → Bool
  | .serve step => x.exchange.hasRoom step
  | _ => true

section Runs

variable (symbol : List UInt8) (clock : ℕ → Timestamp)

/-- The clients and the exchange after a history of steps, newest first. -/
def after : List Action → Dialog
  | [] => .fresh symbol clock
  | action :: past => (after past).step action

/-- The sessions created in a history, with their clients, newest first. -/
def opened : List Action → List (SessionId × Identity)
  | [] => []
  | action :: past => ((after symbol clock past).openedBy? action).toList ++ opened past

/-- Whether every request and every response of a history has found room in its queue. -/
def alwaysRoom : List Action → Bool
  | [] => true
  | action :: past => alwaysRoom past && (after symbol clock past).hasRoom action

end Runs

end Dialog

/-! ### What the exchange holds for a client -/

namespace Exchange

/-- Whether a session is a client's. -/
def isFor (x : Exchange) (identity : Identity) (sessionId : SessionId) : Bool :=
  x.zmqServer.sessionToIdentity.lookup sessionId = some identity

/-- The requests of a client in the inbound queue. -/
def inboundOf (x : Exchange) (identity : Identity) : List InboundBody :=
  (x.inboundQueue.filter fun m => x.isFor identity m.sessionId).map InboundMessage.body

/-- Those of some responses that are for a client. -/
def responsesFor (x : Exchange) (identity : Identity) (outbound : List OutboundMessage) :
    List OutboundBody :=
  (outbound.filter fun m => x.isFor identity m.sessionId).map OutboundMessage.body

/-- The responses to a client, sent or still to be sent. -/
def responsesTo (x : Exchange) (identity : Identity) : List OutboundBody :=
  x.sentTo identity ++ x.responsesFor identity x.waitingOutbound

/-- The socket holds the frames of requests, and no more are to come but those that arrive. -/
structure Holds (x : Exchange) (requests : List (Identity × InboundBody)) : Prop where
  arrivals : ∀ n, x.zmqServer.socket.arrivals n = []
  incoming : x.zmqServer.socket.incoming = requests.flatMap fun p => requestFrames p.1 p.2
  sound : ∀ p ∈ requests, p.1 ≠ [] ∧ p.2.Constructed

/-- The session of a message in a queue: the dummy session, or one that has been created. -/
def Known (created : List (SessionId × Identity)) (sessionId : SessionId) : Prop :=
  sessionId = DUMMY_SESSION_ID ∨ sessionId ∈ created.map Prod.fst

section Socket

variable {x : Exchange} {requests : List (Identity × InboundBody)} {identity : Identity}
  {request : InboundBody}

/-- A request that arrives is the last one. -/
theorem Holds.arrive (h : x.Holds requests) (hne : identity ≠ []) (hrequest : request.Constructed) :
    (x.arrive (requestFrames identity request)).Holds (requests ++ [(identity, request)]) := by
  refine ⟨h.arrivals, ?_, ?_⟩
  · simp only [Exchange.arrive, h.incoming, List.flatMap_append, List.flatMap_cons,
      List.flatMap_nil, List.append_nil]
  · intro p hp
    rcases List.mem_append.mp hp with hp | hp
    · exact h.sound p hp
    · obtain rfl := List.mem_singleton.mp hp
      exact ⟨hne, hrequest⟩

/-- Nothing is read from a socket that holds nothing. -/
theorem Holds.processIncoming_nil (h : x.Holds []) :
    x.processIncoming.Holds [] ∧ x.openedBy? .processIncoming = none ∧
      x.processIncoming.zmqServer.sessionToIdentity = x.zmqServer.sessionToIdentity ∧
      x.processIncoming.inboundQueue = x.inboundQueue := by
  have hincoming : x.zmqServer.socket.incoming = [] := h.incoming
  have hreceive : x.zmqServer.socket.receive = (none, { x.zmqServer.socket with
      incoming := [], recvCalls := x.zmqServer.socket.recvCalls + 1 }) := by
    simp only [Socket.receive, Socket.recv, hincoming, h.arrivals, List.append_nil]
  refine ⟨⟨?_, ?_, h.sound⟩, ?_, ?_, ?_⟩
  all_goals simp only [processIncoming, ZmqServer.processIncoming, openedBy?, hreceive]
  · exact h.arrivals
  · rfl
  · rfl

/-- **The first request is read** from the socket and queued under the session of its client. -/
theorem Holds.processIncoming_cons (h : x.Holds ((identity, request) :: requests)) :
    x.processIncoming.Holds requests ∧ ∃ sessionId,
      x.processIncoming.zmqServer.identityToSession.lookup identity = some sessionId ∧
      x.processIncoming.inboundQueue = x.inboundQueue ++ [⟨sessionId, request⟩] := by
  obtain ⟨hne, hrequest⟩ := h.sound _ List.mem_cons_self
  have hlength : ¬ identity.length = 0 := by simpa using hne
  have hreceive : x.zmqServer.socket.receive = (some (identity, request.bytes),
      { x.zmqServer.socket with
        incoming := requests.flatMap fun p => requestFrames p.1 p.2
        recvCalls := x.zmqServer.socket.recvCalls + 3 }) := by
    simp only [Socket.receive, Socket.recv, h.incoming, h.arrivals, List.append_nil,
      List.flatMap_cons, requestFrames, List.cons_append, List.nil_append, hlength, if_false]
  generalize hsocket : ({ x.zmqServer.socket with
    incoming := requests.flatMap fun p => requestFrames p.1 p.2
    recvCalls := x.zmqServer.socket.recvCalls + 3 } : Socket) = socket at hreceive
  obtain ⟨sessionId, hsession⟩ :=
    ({ x.zmqServer with socket } : ZmqServer).exists_lookup_connect identity
  have hconnect := ({ x.zmqServer with socket } : ZmqServer).socket_connect identity
  have hqueue := ({ x.zmqServer with socket } : ZmqServer).inboundQueue_connect identity
  have hbytes : ZmqServer.request? request.bytes = some request := by
    have hall := request_bytes hrequest []
    rwa [List.append_nil] at hall
  have hserver : x.processIncoming.zmqServer =
      { ({ x.zmqServer with socket } : ZmqServer).connect identity with
        sessionManager := ((({ x.zmqServer with socket } : ZmqServer).connect
          identity).sessionManager.routeToInbound sessionId request).2 } := by
    simp only [processIncoming, ZmqServer.processIncoming, hreceive,
      ZmqServer.parseAndRouteMessage_of_session hsession, hbytes]
  have hread : x.processIncoming.zmqServer.socket = socket := by
    rw [hserver]
    exact hconnect
  refine ⟨⟨?_, ?_, fun p hp => h.sound p (List.mem_cons_of_mem _ hp)⟩, sessionId, ?_, ?_⟩
  · rw [hread, ← hsocket]
    exact h.arrivals
  · rw [hread, ← hsocket]
  · rw [hserver]
    exact hsession
  · rw [inboundQueue, hserver]
    exact congrArg (· ++ [_]) hqueue

end Socket

section Steps

variable {x : Exchange} {created : List (SessionId × Identity)} {identity : Identity}
  {sessionId : SessionId}

theorem isFor_iff (hlive : x.zmqServer.LiveSessions created []) :
    x.isFor identity sessionId = true ↔ created.lookup sessionId = some identity := by
  rw [isFor, decide_eq_true_eq, hlive.live, if_neg List.not_mem_nil]

/-- The dummy session is nobody's. -/
theorem not_isFor_dummy (hlive : x.zmqServer.LiveSessions created [])
    (hroom : created.length < 2 ^ 32 - 1) : x.isFor identity DUMMY_SESSION_ID = false := by
  rw [Bool.eq_false_iff]
  intro hfor
  refine hlive.ne_dummy hroom ?_ rfl
  rw [ZmqServer.mem_map_fst_iff, (isFor_iff hlive).mp hfor]
  rfl

/-- A session that is known keeps its client when another is created. -/
theorem lookup_opened (hlive : x.zmqServer.LiveSessions created [])
    (hroom : ((x.openedBy? .processIncoming).toList ++ created).length < 2 ^ 32 - 1)
    (hknown : Known created sessionId) :
    ((x.openedBy? .processIncoming).toList ++ created).lookup sessionId =
      created.lookup sessionId := by
  cases hreceive : x.zmqServer.socket.receive.1 with
  | none => simp only [openedBy?, hreceive, Option.toList_none, List.nil_append]
  | some received =>
      obtain ⟨identity, msg⟩ := received
      cases hlookup : x.zmqServer.identityToSession.lookup identity with
      | some sessionId =>
          simp only [openedBy?, hreceive, hlookup, Option.toList_none, List.nil_append]
      | none =>
          rw [openedBy?_processIncoming hlive hreceive hlookup] at hroom ⊢
          have hne : sessionId ≠ x.zmqServer.sessionManager.nextSessionId := by
            rintro rfl
            rcases hknown with hdummy | hmem
            · have hnext := hlive.next
              rw [hdummy, show DUMMY_SESSION_ID.toNat = 2 ^ 32 - 1 from rfl] at hnext
              rw [Option.toList_some, List.singleton_append, List.length_cons] at hroom
              omega
            · exact hlive.next_notMem hmem
          rw [Option.toList_some, List.singleton_append, List.lookup_cons,
            beq_eq_false_iff_ne.mpr hne]

theorem Known.opened (hknown : Known created sessionId) (more : List (SessionId × Identity)) :
    Known (more ++ created) sessionId := by
  refine hknown.imp_right fun hmem => ?_
  rw [List.map_append]
  exact List.mem_append_right _ hmem

theorem responsesFor_append (x : Exchange) (identity : Identity)
    (outbound outbound' : List OutboundMessage) :
    x.responsesFor identity (outbound ++ outbound') =
      x.responsesFor identity outbound ++ x.responsesFor identity outbound' := by
  rw [responsesFor, List.filter_append, List.map_append]
  rfl

theorem responsesFor_singleton (x : Exchange) (identity : Identity) (m : OutboundMessage) :
    x.responsesFor identity [m] = if x.isFor identity m.sessionId then [m.body] else [] := by
  rw [responsesFor, List.filter_cons, List.filter_nil]
  split <;> rfl

/-- The response that is sent goes to the client of its session, if there is one. -/
theorem sentTo_sendNext {m : OutboundMessage} {rest : List OutboundMessage}
    (hwaiting : x.waitingOutbound = m :: rest) (identity : Identity) :
    x.sendNext.sentTo identity = x.sentTo identity ++ x.responsesFor identity [m] := by
  rw [sendNext, hwaiting, responsesFor_singleton, isFor, sentTo, sentTo, List.filter_append,
    List.map_append, ZmqServer.recipient?]
  refine congrArg _ ?_
  cases x.zmqServer.sessionToIdentity.lookup m.sessionId with
  | none => rfl
  | some owner =>
      simp only [Option.toList_some, List.filter_cons, List.filter_nil, Option.some.injEq]
      split <;> rfl

theorem waitingOutbound_sendNext {m : OutboundMessage} {rest : List OutboundMessage}
    (hwaiting : x.waitingOutbound = m :: rest) : x.sendNext.waitingOutbound = rest := by
  have htail : (x.matchingEngine.outboundQueue.drop x.outboundPopped).tail = rest := by
    rw [← waitingOutbound, hwaiting, List.tail_cons]
  rw [waitingOutbound, sendNext, hwaiting, ← htail, List.tail_drop]

/-- Sending a response takes it out of the queue. -/
theorem responsesTo_sendNext (x : Exchange) (identity : Identity) :
    x.sendNext.responsesTo identity = x.responsesTo identity := by
  cases hwaiting : x.waitingOutbound with
  | nil => rw [sendNext, hwaiting]
  | cons m rest =>
      have hfor : x.sendNext.responsesFor identity rest = x.responsesFor identity rest := by
        rw [sendNext, hwaiting]
        rfl
      rw [responsesTo, responsesTo, sentTo_sendNext hwaiting, waitingOutbound_sendNext hwaiting,
        hfor, hwaiting, List.append_assoc, ← responsesFor_append, List.singleton_append]

/-- The first message in the inbound queue is a request of the client of its session. -/
theorem inboundOf_of_cons {m : InboundMessage} {queue : List InboundMessage}
    (hqueue : x.inboundQueue = m :: queue) (identity : Identity) :
    x.inboundOf identity = (if x.isFor identity m.sessionId then [m.body] else []) ++
      (x.setInboundQueue queue).inboundOf identity := by
  rw [inboundOf, hqueue, List.filter_cons]
  split <;> rfl

end Steps

/-- **Whatever a client has sent is in one place**: at the socket, in the inbound queue, or answered
in its turn. -/
structure Serves (x : Exchange) (created : List (SessionId × Identity))
    (requests : List (Identity × InboundBody)) (sent : Identity → List InboundBody) : Prop where
  live : x.zmqServer.LiveSessions created []
  holds : x.Holds requests
  popped : x.outboundPopped ≤ x.matchingEngine.outboundQueue.length
  inbound : ∀ m ∈ x.inboundQueue, Known created m.sessionId
  outbound : ∀ m ∈ x.waitingOutbound, m.body.isAnswer = true → Known created m.sessionId
  pipeline : ∀ identity, Pipeline (fun answer request => answer.Answers request)
    OutboundBody.isAnswer (sent identity)
    ((requests.filter fun p => p.1 = identity).map Prod.snd) (x.inboundOf identity)
    (x.responsesTo identity)

section Serves

variable {x : Exchange} {created : List (SessionId × Identity)}
  {requests : List (Identity × InboundBody)} {sent : Identity → List InboundBody}

theorem serves_fresh (symbol : List UInt8) (clock : ℕ → Timestamp) :
    (fresh (fun _ => []) symbol clock).Serves [] [] fun _ => [] where
  live := ZmqServer.liveSessions_fresh _
  holds := ⟨fun _ => rfl, rfl, fun _ hp => absurd hp List.not_mem_nil⟩
  popped := Nat.le_refl _
  inbound _ hm := absurd hm List.not_mem_nil
  outbound _ hm := absurd hm List.not_mem_nil
  pipeline _ := Pipeline.nil

/-- Sending a response changes nothing in what the exchange owes its clients. -/
theorem Serves.sendNext (h : x.Serves created requests sent) :
    x.sendNext.Serves created requests sent := by
  cases hwaiting : x.waitingOutbound with
  | nil =>
      rw [Exchange.sendNext, hwaiting]
      exact h
  | cons m rest =>
      have hstep : x.sendNext = { x with
          outboundPopped := x.outboundPopped + 1
          sent := x.sent ++ (x.zmqServer.recipient? m).toList } := by
        rw [Exchange.sendNext, hwaiting]
      have hlt : x.outboundPopped < x.matchingEngine.outboundQueue.length := by
        by_contra hnot
        rw [waitingOutbound, List.drop_eq_nil_of_le (Nat.le_of_not_lt hnot)] at hwaiting
        cases hwaiting
      refine ⟨?_, ?_, ?_, ?_, fun m' hm' => ?_, fun identity => ?_⟩
      · rw [hstep]
        exact h.live
      · rw [hstep]
        exact ⟨h.holds.arrivals, h.holds.incoming, h.holds.sound⟩
      · rw [hstep]
        exact hlt
      · rw [hstep]
        exact h.inbound
      · rw [waitingOutbound_sendNext hwaiting] at hm'
        exact h.outbound m' (hwaiting ▸ List.mem_cons_of_mem m hm')
      · rw [responsesTo_sendNext, show x.sendNext.inboundOf identity = x.inboundOf identity by
          rw [hstep]; rfl]
        exact h.pipeline identity

/-- An order of the generator is no client's request: its session is nobody's. -/
theorem Serves.generateOrder (h : x.Serves created requests sent)
    (hroom : created.length < 2 ^ 32 - 1) (request : NewOrderRequest) :
    (x.generateOrder request).Serves created requests sent where
  live := h.live.of_eq _ _
  holds := ⟨h.holds.arrivals, h.holds.incoming, h.holds.sound⟩
  popped := h.popped
  inbound m hm := by
    rcases List.mem_append.mp hm with hm | hm
    · exact h.inbound m hm
    · rw [List.mem_singleton.mp hm]
      exact Or.inl rfl
  outbound := h.outbound
  pipeline identity := by
    have hqueue : (x.generateOrder request).inboundOf identity = x.inboundOf identity := by
      have hdummy : (x.generateOrder request).isFor identity DUMMY_SESSION_ID = false :=
        not_isFor_dummy (h.live.of_eq _ _) hroom
      rw [inboundOf, show (x.generateOrder request).inboundQueue =
        x.inboundQueue ++ [⟨DUMMY_SESSION_ID, .newOrder request⟩] from rfl, List.filter_append,
        List.filter_cons_of_neg (by simp [hdummy]), List.filter_nil, List.append_nil]
      rfl
    rw [hqueue]
    exact h.pipeline identity

/-- **Processing a request answers it**, after reports to whoever they concern. -/
theorem Serves.processInbound (h : x.Serves created requests sent) :
    x.processInbound.Serves created requests sent := by
  rw [Exchange.processInbound]
  split
  · exact h
  rename_i m queue hqueue
  obtain ⟨reports, answer, hreports, hanswers, houtbound⟩ := x.matchingEngine.exists_answer m
  have hanswer := OutboundBody.isAnswer_of_answers hanswers
  have hm : Known created m.sessionId := h.inbound m (by rw [hqueue]; exact List.mem_cons_self)
  have hwaiting : ({ x.setInboundQueue queue with
      matchingEngine := x.matchingEngine.processInboundMessage m } : Exchange).waitingOutbound =
        x.waitingOutbound ++ (reports ++ [⟨m.sessionId, answer⟩]) := by
    rw [waitingOutbound, waitingOutbound, houtbound]
    exact List.drop_append_of_le_length h.popped
  refine ⟨h.live.of_eq _ _, ⟨h.holds.arrivals, h.holds.incoming, h.holds.sound⟩, ?_, ?_, ?_, ?_⟩
  · simp only [houtbound, List.length_append]
    exact Nat.le_add_right_of_le h.popped
  · intro m' hm'
    refine h.inbound m' ?_
    rw [hqueue]
    exact List.mem_cons_of_mem _ hm'
  · intro m' hm' hisAnswer
    rw [hwaiting] at hm'
    rcases List.mem_append.mp hm' with hm' | hm'
    · exact h.outbound m' hm' hisAnswer
    rcases List.mem_append.mp hm' with hm' | hm'
    · rw [hreports m' hm'] at hisAnswer
      cases hisAnswer
    · rw [List.mem_singleton.mp hm']
      exact hm
  · intro identity
    have hpipeline := h.pipeline identity
    have hothers : ∀ r ∈ x.responsesFor identity reports, r.isAnswer = false := by
      intro r hr
      obtain ⟨report, hreport, rfl⟩ := List.mem_map.mp hr
      exact hreports report (List.mem_of_mem_filter hreport)
    rw [inboundOf_of_cons hqueue] at hpipeline
    rw [responsesTo, hwaiting]
    show Pipeline _ _ _ _ ((x.setInboundQueue queue).inboundOf identity)
      (x.sentTo identity ++ x.responsesFor identity
        (x.waitingOutbound ++ (reports ++ [⟨m.sessionId, answer⟩])))
    rw [responsesFor_append, responsesFor_append, responsesFor_singleton, ← List.append_assoc,
      ← List.append_assoc]
    -- the reports count for nothing, and the answer counts for the client of the session
    split
    · rename_i hfor
      rw [if_pos hfor] at hpipeline
      exact (hpipeline.notify hothers).answer hanswer hanswers
    · rename_i hfor
      rw [if_neg hfor] at hpipeline
      rw [List.append_nil]
      exact hpipeline.notify hothers

/-- The answers in the outbound queue are for the clients that they were for. -/
theorem filter_responsesFor (x x' : Exchange) (identity : Identity)
    {outbound : List OutboundMessage}
    (hfor : ∀ m ∈ outbound, m.body.isAnswer = true →
      x'.isFor identity m.sessionId = x.isFor identity m.sessionId) :
    (x'.responsesFor identity outbound).filter OutboundBody.isAnswer =
      (x.responsesFor identity outbound).filter OutboundBody.isAnswer := by
  rw [responsesFor, responsesFor, List.filter_map, List.filter_map, List.filter_filter,
    List.filter_filter]
  refine congrArg _ (List.filter_congr fun m hm => ?_)
  cases hanswer : m.body.isAnswer with
  | true => rw [hfor m hm hanswer]
  | false => simp [hanswer]

/-- **Reading a request queues it** under the session of its client. -/
theorem Serves.processIncoming (h : x.Serves created requests sent)
    (hroom : ((x.openedBy? .processIncoming).toList ++ created).length < 2 ^ 32 - 1) :
    ∃ requests', x.processIncoming.Serves ((x.openedBy? .processIncoming).toList ++ created)
      requests' sent := by
  have hlive : x.processIncoming.zmqServer.LiveSessions
      ((x.openedBy? .processIncoming).toList ++ created) [] :=
    @liveSessions_step (fun _ => []) x created [] h.live .processIncoming hroom
  have hfor : ∀ identity sessionId, Known created sessionId →
      x.processIncoming.isFor identity sessionId = x.isFor identity sessionId := by
    intro identity sessionId hknown
    rw [Bool.eq_iff_iff, isFor_iff hlive, isFor_iff h.live, lookup_opened h.live hroom hknown]
  have hqueued : ∀ identity, (x.inboundQueue.filter fun m =>
      x.processIncoming.isFor identity m.sessionId).map InboundMessage.body =
        x.inboundOf identity := by
    intro identity
    rw [inboundOf, List.filter_congr fun m hm => hfor identity m.sessionId (h.inbound m hm)]
  have hresponses : ∀ identity,
      (x.processIncoming.responsesTo identity).filter OutboundBody.isAnswer =
        (x.responsesTo identity).filter OutboundBody.isAnswer := by
    intro identity
    rw [responsesTo, responsesTo, List.filter_append, List.filter_append]
    refine congrArg _ (filter_responsesFor x x.processIncoming identity fun m hm hanswer => ?_)
    exact hfor identity m.sessionId (h.outbound m hm hanswer)
  cases requests with
  | nil =>
      obtain ⟨hholds, -, -, hqueue⟩ := h.holds.processIncoming_nil
      refine ⟨[], hlive, hholds, h.popped, fun m hm => ?_,
        fun m hm hanswer => (h.outbound m hm hanswer).opened _, fun identity => ?_⟩
      · rw [hqueue] at hm
        exact (h.inbound m hm).opened _
      · rw [inboundOf, hqueue, hqueued]
        exact (h.pipeline identity).congr (hresponses identity)
  | cons p rest =>
      obtain ⟨owner, request⟩ := p
      obtain ⟨hholds, sessionId, hlookup, hqueue⟩ := h.holds.processIncoming_cons
      have howner : ∀ identity,
          x.processIncoming.isFor identity sessionId = decide (owner = identity) := by
        intro identity
        simp only [isFor, (hlive.inverse owner sessionId).mp hlookup, Option.some.injEq]
      refine ⟨rest, hlive, hholds, h.popped, fun m hm => ?_,
        fun m hm hanswer => (h.outbound m hm hanswer).opened _, fun identity => ?_⟩
      · rw [hqueue] at hm
        rcases List.mem_append.mp hm with hm | hm
        · exact (h.inbound m hm).opened _
        · rw [List.mem_singleton.mp hm]
          exact Or.inr (hlive.notMem_of_lookup hlookup).1
      · have hpipeline := (h.pipeline identity).congr (hresponses identity)
        rw [inboundOf, hqueue, List.filter_append, List.map_append, hqueued, List.filter_cons,
          howner, List.filter_nil]
        rw [List.filter_cons] at hpipeline
        split
        · rename_i heq
          rw [if_pos heq] at hpipeline
          exact hpipeline.enqueue
        · rename_i hne
          rw [if_neg hne] at hpipeline
          rw [List.map_nil, List.append_nil]
          exact hpipeline

/-- **A request that arrives** is one more that its client has sent. -/
theorem Serves.arrive (h : x.Serves created requests sent) {identity : Identity}
    (hne : identity ≠ []) {request : InboundBody} (hrequest : request.Constructed) :
    (x.arrive (requestFrames identity request)).Serves created (requests ++ [(identity, request)])
      (Function.update sent identity (sent identity ++ [request])) where
  live := h.live.of_eq _ _
  holds := h.holds.arrive hne hrequest
  popped := h.popped
  inbound := h.inbound
  outbound := h.outbound
  pipeline other := by
    have hpipeline := h.pipeline other
    rw [List.filter_append, List.map_append, List.filter_cons, List.filter_nil]
    by_cases heq : identity = other
    · subst heq
      rw [if_pos (by simp), Function.update_self]
      exact hpipeline.submit request
    · rw [if_neg (by simpa using heq), Function.update_of_ne (Ne.symm heq), List.map_nil,
        List.append_nil]
      exact hpipeline

end Serves

end Exchange

/-! ### What a client has read -/

namespace Dialog

/-- **A client reads one response for each request**, in the order in which they are sent to it. -/
structure Paced (client : OrderEntryClient) (sent : List OutboundBody) : Prop where
  frames : client.framesRead = 2 * client.shown.length
  shown : client.shown = (sent.take client.shown.length).map fun body => some body.line
  requests : client.requests.length = client.shown.length + if client.waiting then 1 else 0

section Clients

variable {client : OrderEntryClient} {sent : List OutboundBody}

theorem Paced.length_le (h : Paced client sent) : client.shown.length ≤ sent.length := by
  have hlength := congrArg List.length h.shown
  rw [List.length_map, List.length_take] at hlength
  omega

/-- What is sent later makes no difference to what has been read. -/
theorem Paced.append (h : Paced client sent) (more : List OutboundBody) :
    Paced client (sent ++ more) := by
  refine ⟨h.frames, ?_, h.requests⟩
  rw [List.take_append_of_le_length h.length_le]
  exact h.shown

/-- A client that sends a request waits for one more response. -/
theorem Paced.send (h : Paced client sent) (hwaiting : client.waiting = false)
    (request : InboundBody) :
    Paced { client with requests := client.requests ++ [request], waiting := true } sent := by
  refine ⟨h.frames, h.shown, ?_⟩
  have hlength := h.requests
  rw [hwaiting] at hlength
  simpa using hlength

/-- A client that reads a response has shown one more. -/
theorem Paced.read (h : Paced client sent) (hwaiting : client.waiting = true)
    {body : OutboundBody} (hnext : sent[client.shown.length]? = some body) :
    Paced { client with
      waiting := false
      framesRead := client.framesRead + 2
      shown := client.shown ++ [some body.line] } sent := by
  refine ⟨?_, ?_, ?_⟩
  · simp only [List.length_append, List.length_singleton, h.frames]
    omega
  · simp only [List.length_append, List.length_singleton, List.take_add_one, hnext,
      List.map_append, ← h.shown]
    rfl
  · have hlength := h.requests
    rw [hwaiting] at hlength
    simpa using hlength

/-- The frames from the next response on. -/
theorem drop_frames (sent : List OutboundBody) (n : ℕ) :
    (sent.flatMap fun body => [(([] : Frame), true), (body.bytes, false)]).drop (2 * n) =
      (sent.drop n).flatMap fun body => [([], true), (body.bytes, false)] := by
  induction n generalizing sent with
  | zero => rfl
  | succ n ih =>
      cases sent with
      | nil => simp
      | cons body sent => exact ih sent

/-- **A client that waits** reads the next response, if there is one. -/
theorem zmqRecvPayload_drop (h : Paced client sent) :
    OrderEntryClient.zmqRecvPayload ((sent.flatMap fun body =>
        [(([] : Frame), true), (body.bytes, false)]).drop client.framesRead) =
      sent[client.shown.length]?.map fun body => (body.bytes, 2) := by
  rw [h.frames, drop_frames]
  cases hnext : sent[client.shown.length]? with
  | none =>
      rw [List.drop_eq_nil_of_le (List.getElem?_eq_none_iff.mp hnext)]
      rfl
  | some body =>
      obtain ⟨hlt, rfl⟩ := List.getElem?_eq_some_iff.mp hnext
      rw [List.drop_eq_getElem_cons hlt]
      rfl

end Clients

/-! ### The invariant -/

/-- **The invariant** of clients and exchange, given the sessions created so far. -/
structure Inv (x : Dialog) (created : List (SessionId × Identity)) : Prop where
  serves : ∃ requests, x.exchange.unbounded.Serves created requests fun identity =>
    (x.client identity).requests
  lossless : x.exchange.Lossless
  spoken : x.exchange.matchingEngine.Spoken
  constructed : ∀ p ∈ x.exchange.sent, p.2.Constructed
  paced : ∀ identity, Paced (x.client identity) (x.exchange.sentTo identity)

section Steps

variable {x : Dialog} {created : List (SessionId × Identity)}

theorem inv_fresh (symbol : List UInt8) (clock : ℕ → Timestamp) : (fresh symbol clock).Inv [] where
  serves := ⟨[], Exchange.serves_fresh symbol clock⟩
  lossless := List.nil_suffix
  spoken _ hm := absurd hm List.not_mem_nil
  constructed _ hp := absurd hp List.not_mem_nil
  paced _ := ⟨rfl, rfl, rfl⟩

/-- One client moves. -/
theorem paced_setClient {client : OrderEntryClient} {identity : Identity} {sent : Identity →
    List OutboundBody} (h : ∀ other, Paced (x.client other) (sent other))
    (hclient : Paced client (sent identity)) (other : Identity) :
    Paced ((x.setClient identity client).client other) (sent other) := by
  by_cases heq : other = identity
  · subst heq
    simp only [setClient, Function.update_self]
    exact hclient
  · simp only [setClient, Function.update_of_ne heq]
    exact h other

theorem requests_setClient (x : Dialog) (identity : Identity) (client : OrderEntryClient) :
    (fun other => ((x.setClient identity client).client other).requests) =
      Function.update (fun other => (x.client other).requests) identity client.requests := by
  funext other
  by_cases heq : other = identity
  · subst heq
    simp only [setClient, Function.update_self]
  · simp only [setClient, Function.update_of_ne heq]

/-- A client that sends nothing. -/
theorem serves_setClient {requests : List (Identity × InboundBody)} {identity : Identity}
    {client : OrderEntryClient}
    (h : x.exchange.unbounded.Serves created requests fun other => (x.client other).requests)
    (hsame : client.requests = (x.client identity).requests) :
    (x.setClient identity client).exchange.unbounded.Serves created requests fun other =>
      ((x.setClient identity client).client other).requests := by
  rw [requests_setClient, hsame]
  exact (Function.update_eq_self identity fun other => (x.client other).requests).symm ▸ h

/-- A line that is typed sends one request or none, and only for a client that does not wait. -/
theorem Inv.typeLine (h : x.Inv created) (identity : Identity) (line : List Char)
    (timestamp : Timestamp) : (x.typeLine identity line timestamp).Inv created := by
  obtain ⟨⟨requests, hserves⟩, hlossless, hspoken, hconstructed, hpaced⟩ := h
  have hclient := hpaced identity
  rw [Dialog.typeLine]
  split
  · exact ⟨⟨requests, hserves⟩, hlossless, hspoken, hconstructed, hpaced⟩
  rename_i hready
  rw [not_or, not_or, Bool.not_eq_true, Bool.not_eq_false] at hready
  obtain ⟨hne, hwaiting, -⟩ := hready
  split
  · exact ⟨⟨requests, hserves⟩, hlossless, hspoken, hconstructed, hpaced⟩
  · exact ⟨⟨requests, hserves⟩, hlossless, hspoken, hconstructed, hpaced⟩
  · exact ⟨⟨requests, serves_setClient hserves rfl⟩, hlossless, hspoken, hconstructed,
      paced_setClient hpaced ⟨hclient.frames, hclient.shown, hclient.requests⟩⟩
  · rename_i request hsend
    refine ⟨⟨requests ++ [(identity, request)], ?_⟩, hlossless, hspoken, hconstructed,
      paced_setClient hpaced (hclient.send hwaiting request)⟩
    rw [requests_setClient]
    exact hserves.arrive hne (constructed_of_send hsend)

/-- A client that waits reads the next response that was sent to it, and waits no more. -/
theorem Inv.readResponse (h : x.Inv created) (identity : Identity) :
    (x.readResponse identity).Inv created := by
  obtain ⟨⟨requests, hserves⟩, hlossless, hspoken, hconstructed, hpaced⟩ := h
  have hclient := hpaced identity
  rw [Dialog.readResponse]
  split
  · exact ⟨⟨requests, hserves⟩, hlossless, hspoken, hconstructed, hpaced⟩
  rename_i hwaiting
  rw [Bool.not_eq_false] at hwaiting
  rw [framesTo, zmqRecvPayload_drop hclient]
  cases hnext : (x.exchange.sentTo identity)[(x.client identity).shown.length]? with
  | none => exact ⟨⟨requests, hserves⟩, hlossless, hspoken, hconstructed, hpaced⟩
  | some body =>
      obtain ⟨hlt, hbody⟩ := List.getElem?_eq_some_iff.mp hnext
      have hmem : body ∈ x.exchange.sentTo identity := hbody ▸ List.getElem_mem hlt
      obtain ⟨p, hp, rfl⟩ := List.mem_map.mp hmem
      have hprint := printResponse_bytes (hconstructed p (List.mem_of_mem_filter hp)).1
      simp only [Option.map_some, hprint]
      exact ⟨⟨requests, serves_setClient hserves rfl⟩, hlossless, hspoken, hconstructed,
        paced_setClient hpaced (hclient.read hwaiting hnext)⟩

/-- A turn of the loop of `processOutbound` sends a well-formed response, or nothing. -/
theorem Inv.processOutbound (h : x.Inv created) :
    (x.step (.serve .processOutbound)).Inv created := by
  obtain ⟨⟨requests, hserves⟩, hlossless, hspoken, hconstructed, hpaced⟩ := h
  have hstep : ∃ more : List (Identity × OutboundBody),
      x.exchange.processOutbound.sent = x.exchange.sent ++ more ∧
      x.exchange.processOutbound.matchingEngine = x.exchange.matchingEngine ∧
      ∀ p ∈ more, p.2.Constructed := by
    cases hitems : x.exchange.outbound.items with
    | nil =>
        rw [BoundedExchange.processOutbound_of_nil hitems]
        exact ⟨[], (List.append_nil _).symm, rfl, fun p hp => absurd hp List.not_mem_nil⟩
    | cons msg rest =>
        rw [BoundedExchange.processOutbound_of_cons hitems]
        refine ⟨_, rfl, rfl, fun p hp => ?_⟩
        have hmem : msg ∈ x.exchange.matchingEngine.outboundQueue := by
          refine hlossless.subset (List.mem_append_left _ ?_)
          rw [hitems]
          exact List.mem_cons_self
        rw [ZmqServer.recipient?] at hp
        split at hp
        · cases hp
        · rw [List.mem_singleton.mp hp]
          exact hspoken msg hmem
  obtain ⟨more, hsent, hengine, hmore⟩ := hstep
  refine ⟨⟨requests, ?_⟩, hlossless.processOutbound, ?_, fun p hp => ?_, fun identity => ?_⟩
  · rcases BoundedExchange.unbounded_processOutbound hlossless with hsame | hnext
    · exact hsame ▸ hserves
    · exact hnext ▸ hserves.sendNext
  · exact hengine ▸ hspoken
  · rcases List.mem_append.mp (hsent ▸ hp) with hp | hp
    · exact hconstructed p hp
    · exact hmore p hp
  · have hto : (x.step (.serve .processOutbound)).exchange.sentTo identity =
        x.exchange.sentTo identity ++ (more.filter fun p => p.1 = identity).map Prod.snd := by
      rw [BoundedExchange.sentTo, BoundedExchange.sentTo, Exchange.sentTo, Exchange.sentTo,
        ← List.map_append, ← List.filter_append]
      exact congrArg (fun sent => (List.filter _ sent).map Prod.snd) hsent
    rw [hto]
    exact (hpaced identity).append _

/-- Processing a message sends nothing; its responses are well formed. -/
theorem Inv.processInbound (h : x.Inv created) (hidle : x.exchange.unpushed = []) :
    Inv { x with exchange := x.exchange.processInbound } created := by
  obtain ⟨⟨requests, hserves⟩, hlossless, hspoken, hconstructed, hpaced⟩ := h
  have hserved := hserves.processInbound
  rw [← BoundedExchange.unbounded_processInbound hidle] at hserved
  have hlossless' := hlossless.processInbound hidle
  cases hitems : x.exchange.inbound.items with
  | nil =>
      rw [BoundedExchange.processInbound_of_nil hitems]
      exact ⟨⟨requests, hserves⟩, hlossless, hspoken, hconstructed, hpaced⟩
  | cons msg rest =>
      rw [BoundedExchange.processInbound_of_cons hitems] at hserved hlossless' ⊢
      exact ⟨⟨requests, hserved⟩, hlossless', hspoken.processInboundMessage msg, hconstructed,
        hpaced⟩

/-- A push by the handler in progress sends nothing. -/
theorem Inv.pushResponse (h : x.Inv created) (hroom : x.exchange.hasRoom .pushResponse = true) :
    (x.step (.serve .pushResponse)).Inv created := by
  obtain ⟨⟨requests, hserves⟩, hlossless, hspoken, hconstructed, hpaced⟩ := h
  have hsame := BoundedExchange.unbounded_pushResponse hroom
  have hengine : x.exchange.pushResponse.matchingEngine = x.exchange.matchingEngine :=
    congrArg Exchange.matchingEngine hsame
  have hsent : x.exchange.pushResponse.sent = x.exchange.sent := congrArg Exchange.sent hsame
  refine ⟨⟨requests, hsame ▸ hserves⟩, hlossless.pushResponse hroom, hengine ▸ hspoken,
    hsent ▸ hconstructed, fun identity => ?_⟩
  have hto : x.exchange.pushResponse.sentTo identity = x.exchange.sentTo identity :=
    congrArg (Exchange.sentTo · identity) hsame
  exact (congrArg (Paced (x.client identity)) hto).mpr (hpaced identity)

/-- A step of a thread of the exchange keeps the invariant if it finds room for what it pushes. -/
theorem Inv.serve (h : x.Inv created) (step : BoundedExchange.ServerStep)
    (hsessions : ((x.openedBy? (.serve step)).toList ++ created).length < 2 ^ 32 - 1)
    (hroom : x.exchange.hasRoom step = true) :
    (x.step (.serve step)).Inv ((x.openedBy? (.serve step)).toList ++ created) := by
  cases step with
  | processIncoming =>
      obtain ⟨requests, hserved⟩ := h.serves.choose_spec.processIncoming hsessions
      refine ⟨⟨requests, ?_⟩, h.lossless, h.spoken, h.constructed, h.paced⟩
      rw [← BoundedExchange.unbounded_processIncoming hroom] at hserved
      exact hserved
  | processOutbound => exact h.processOutbound
  | processInbound =>
      rw [Dialog.step, BoundedExchange.ServerStep.run]
      split
      · exact h.processInbound ‹_›
      · exact h
  | pushResponse => exact h.pushResponse hroom
  | generateOrder request =>
      obtain ⟨⟨requests, hserves⟩, hlossless, hspoken, hconstructed, hpaced⟩ := h
      refine ⟨⟨requests, ?_⟩, hlossless, hspoken, hconstructed, hpaced⟩
      have hpush := x.exchange.unbounded_generateOrder request
      split at hpush
      · exact hpush ▸ hserves.generateOrder hsessions request
      · exact hpush ▸ hserves

/-- **Every step keeps the invariant** as long as the session ids last and no queue is full. -/
theorem Inv.step (h : x.Inv created) (action : Action)
    (hsessions : ((x.openedBy? action).toList ++ created).length < 2 ^ 32 - 1)
    (hroom : x.hasRoom action = true) :
    (x.step action).Inv ((x.openedBy? action).toList ++ created) := by
  cases action with
  | typeLine identity line timestamp => exact h.typeLine identity line timestamp
  | readResponse identity => exact h.readResponse identity
  | serve step => exact h.serve step hsessions hroom

end Steps

section Histories

variable (symbol : List UInt8) (clock : ℕ → Timestamp)

/-- **The invariant holds in every history** in which session ids last and requests and responses
find room. -/
theorem inv_after (past : List Action) (hsessions : (opened symbol clock past).length < 2 ^ 32 - 1)
    (hroom : alwaysRoom symbol clock past = true) :
    (after symbol clock past).Inv (opened symbol clock past) := by
  induction past with
  | nil => exact inv_fresh symbol clock
  | cons action past ih =>
      have hpast : (opened symbol clock past).length < 2 ^ 32 - 1 := by
        rw [opened, List.length_append] at hsessions
        omega
      rw [alwaysRoom, Bool.and_eq_true] at hroom
      exact (ih hpast hroom.1).step action hsessions hroom.2

end Histories

/-! ### Running out of work -/

section Drain

variable {requests : List (Identity × InboundBody)}

/-- **The threads of the exchange run out of work** when nobody gives them more: they read a
request, process it and send its responses before they read the next. -/
theorem exists_drained {x : BoundedExchange} (h : x.unbounded.Holds requests) :
    ∃ y, BoundedExchange.Reaches x y ∧ y.Quiet := by
  induction requests generalizing x with
  | nil =>
      obtain ⟨y, hy, hflushed, hserver, hinbound⟩ := x.exists_emptied
      have hincoming : y.zmqServer.socket.incoming = [] := hserver ▸ h.incoming
      exact ⟨y, hy, hincoming, hinbound, hflushed.unpushed, hflushed.outbound⟩
  | cons p requests ih =>
      obtain ⟨y, hy, -, hserver, hinbound⟩ := x.exists_emptied
      have hsocket : y.zmqServer.socket = x.zmqServer.socket := congrArg ZmqServer.socket hserver
      have hholds : y.unbounded.Holds (p :: requests) :=
        ⟨fun n => (congrArg (Socket.arrivals · n) hsocket).trans (h.arrivals n),
          (congrArg Socket.incoming hsocket).trans h.incoming, h.sound⟩
      have hroom : y.hasRoom .processIncoming = true := by
        rw [BoundedExchange.hasRoom, BoundedQueue.hasRoom, hinbound]
        exact Bool.or_true _
      obtain ⟨z, hz, hquiet⟩ := ih (x := y.processIncoming) (by
        rw [BoundedExchange.unbounded_processIncoming hroom]
        exact hholds.processIncoming_cons.1)
      exact ⟨z, hy.trans (.next .processIncoming (fun _ h => by cases h) hroom hz), hquiet⟩

/-- What the exchange can reach, it can reach while the clients do nothing. -/
theorem exists_steps (symbol : List UInt8) (clock : ℕ → Timestamp) {x y : BoundedExchange}
    (h : BoundedExchange.Reaches x y) {past : List Action}
    (hexchange : (after symbol clock past).exchange = x) :
    ∃ steps : List BoundedExchange.ServerStep, (∀ request, .generateOrder request ∉ steps) ∧
      after symbol clock (steps.map Action.serve ++ past) =
        { after symbol clock past with exchange := y } ∧
      alwaysRoom symbol clock (steps.map Action.serve ++ past) = alwaysRoom symbol clock past := by
  induction h generalizing past with
  | refl x => exact ⟨[], fun _ => List.not_mem_nil, by rw [← hexchange]; rfl, rfl⟩
  | next step hstep hroom _ ih =>
      obtain ⟨steps, hsteps, hafter, halways⟩ := @ih (.serve step :: past) (by
        rw [after, Dialog.step, hexchange])
      refine ⟨steps ++ [step], fun request hmem => ?_, ?_, ?_⟩
      · rcases List.mem_append.mp hmem with hmem | hmem
        · exact hsteps request hmem
        · exact hstep request (List.mem_singleton.mp hmem).symm
      · rw [List.map_append, List.append_assoc]
        exact hafter
      · rw [List.map_append, List.append_assoc]
        refine halways.trans ?_
        rw [alwaysRoom, Dialog.hasRoom, hexchange, hroom, Bool.and_true]

/-- An exchange that is out of work has a response for every request. -/
theorem length_le_sentTo {x : BoundedExchange} {created : List (SessionId × Identity)}
    {sent : Identity → List InboundBody} (h : x.unbounded.Serves created requests sent)
    (hlossless : x.Lossless) (hquiet : x.Quiet) (identity : Identity) :
    (sent identity).length ≤ (x.sentTo identity).length := by
  have hnone : requests = [] := by
    have hincoming : x.zmqServer.socket.incoming = _ := h.holds.incoming
    rw [hquiet.incoming] at hincoming
    cases requests with
    | nil => rfl
    | cons p requests => cases hincoming
  have hpipeline := h.pipeline identity
  have hinbound : x.unbounded.inboundOf identity = [] := by
    have hqueue : x.unbounded.inboundQueue = [] := hquiet.inbound
    rw [Exchange.inboundOf, hqueue]
    rfl
  have hresponses : x.unbounded.responsesTo identity = x.sentTo identity := by
    rw [Exchange.responsesTo, hlossless.waitingOutbound, BoundedExchange.waiting, hquiet.outbound,
      hquiet.unpushed]
    exact List.append_nil _
  rw [hnone, hinbound, hresponses] at hpipeline
  exact hpipeline.length_le

/-- **A client that waits is served** by an exchange that has a response for every request. -/
theorem waiting_readResponse {x : Dialog} {identity : Identity}
    (h : Paced (x.client identity) (x.exchange.sentTo identity))
    (hlength : (x.client identity).requests.length ≤ (x.exchange.sentTo identity).length) :
    ((x.readResponse identity).client identity).waiting = false := by
  rw [Dialog.readResponse]
  split
  · assumption
  rename_i hwaiting
  rw [Bool.not_eq_false] at hwaiting
  have hrequests := h.requests
  rw [hwaiting, if_pos rfl] at hrequests
  have hlt : (x.client identity).shown.length < (x.exchange.sentTo identity).length := by omega
  rw [framesTo, zmqRecvPayload_drop h, List.getElem?_eq_getElem hlt]
  simp only [Option.map_some, setClient, Function.update_self]

end Drain

/-! ### What clients are promised -/

/-- **A sound dialog.** A client is shown the first responses that are sent to it, as many as it has
sent requests, but for the one it waits for. The answers among the responses are those to its first
requests, in order, each answered once. When the exchange has run out of work, which needs nobody's
help, there is a response for every client that waits. What a client shows is the answers to its
requests, one for one, exactly if no report of an execution is among it. -/
structure Sound (symbol : List UInt8) (clock : ℕ → Timestamp) (past : List Action) : Prop where
  shown : ∀ identity, ((after symbol clock past).client identity).shown =
    (((after symbol clock past).exchange.sentTo identity).take
      ((after symbol clock past).client identity).shown.length).map fun body => some body.line
  paced : ∀ identity, ((after symbol clock past).client identity).requests.length =
    ((after symbol clock past).client identity).shown.length +
      if ((after symbol clock past).client identity).waiting then 1 else 0
  answered : ∀ identity, ∃ answered,
    answered <+: ((after symbol clock past).client identity).requests ∧
    List.Forall₂ (fun answer request => answer.Answers request)
      (((after symbol clock past).exchange.sentTo identity).filter OutboundBody.isAnswer) answered
  drained : ∃ steps : List BoundedExchange.ServerStep,
    (∀ request, .generateOrder request ∉ steps) ∧
    alwaysRoom symbol clock (steps.map Action.serve ++ past) = true ∧
    (after symbol clock (steps.map Action.serve ++ past)).exchange.Quiet ∧
    (after symbol clock (steps.map Action.serve ++ past)).client =
      (after symbol clock past).client
  served : ∀ identity, (after symbol clock past).exchange.Quiet →
    (((after symbol clock past).readResponse identity).client identity).waiting = false
  inStep : ∀ identity,
    List.Forall₂ (fun answer request => answer.Answers request)
      (((after symbol clock past).exchange.sentTo identity).take
        ((after symbol clock past).client identity).shown.length)
      (((after symbol clock past).client identity).requests.take
        ((after symbol clock past).client identity).shown.length) ↔
    ∀ body ∈ ((after symbol clock past).exchange.sentTo identity).take
        ((after symbol clock past).client identity).shown.length, body.isAnswer = true

/-- **Clients and exchange get on**, as long as the session ids last and no queue is full. -/
theorem dialog_sound (symbol : List UInt8) (clock : ℕ → Timestamp) (past : List Action)
    (hsessions : (opened symbol clock past).length < 2 ^ 32 - 1)
    (hroom : alwaysRoom symbol clock past = true) : Sound symbol clock past := by
  obtain ⟨⟨requests, hserves⟩, hlossless, -, -, hpaced⟩ :=
    inv_after symbol clock past hsessions hroom
  have hbegin : ∀ identity, (after symbol clock past).exchange.sentTo identity <+:
      (after symbol clock past).exchange.unbounded.responsesTo identity :=
    fun identity => List.prefix_append _ _
  refine ⟨fun identity => (hpaced identity).shown, fun identity => (hpaced identity).requests,
    fun identity => (hserves.pipeline identity).exists_answered (hbegin identity), ?_,
    fun identity hquiet => ?_, fun identity => ?_⟩
  · obtain ⟨y, hy, hquiet⟩ := exists_drained hserves.holds
    obtain ⟨steps, hsteps, hafter, halways⟩ := exists_steps symbol clock hy rfl
    refine ⟨steps, hsteps, halways.trans hroom, ?_⟩
    rw [hafter]
    exact ⟨hquiet, rfl⟩
  · exact waiting_readResponse (hpaced identity)
      (length_le_sentTo hserves hlossless hquiet identity)
  · have hstep := (hserves.pipeline identity).in_step_iff
      (fun answer request h => OutboundBody.isAnswer_of_answers h)
      ((List.take_prefix ((after symbol clock past).client identity).shown.length _).trans
        (hbegin identity))
    rwa [List.length_take, Nat.min_eq_left (hpaced identity).length_le] at hstep

/-- The threads of the exchange read a request, process it and send its three responses, newest
first. -/
def serverRound : List Action :=
  (List.replicate 3 [.serve .processOutbound, .serve .pushResponse]).flatten ++
    [.serve .processInbound, .serve .processIncoming]

/-- The order of the second client meets that of the first, and is reported to it. -/
def reportedDialog : List Action :=
  [.readResponse [66]] ++ serverRound ++ [.typeLine [66] "cancel 3 9".toList 0,
    .readResponse [66]] ++ serverRound ++ [.typeLine [66] "new 2 buy limit 100 5".toList 0,
    .readResponse [65]] ++ serverRound ++ [.typeLine [65] "new 1 sell limit 100 5".toList 0]

/-- The second client takes the report for its first answer, and its first answer for the second. -/
theorem dialog_sound_reportedDialog :
    ((after [] (fun _ => 0) reportedDialog).client [66]).shown =
      [some "[EXEC] orderId=2 tradeId=1 px=100 qty=5 leaves=0 side=1\n".toList,
        some "[ORDER_ACK] clientOrderId=2 orderId=2 status=3\n".toList] ∧
    Sound [] (fun _ => 0) reportedDialog := by
  have hsessions : (opened [] (fun _ => 0) reportedDialog).length < 2 ^ 32 - 1 := by
    decide +kernel
  have hroom : alwaysRoom [] (fun _ => 0) reportedDialog = true := by decide +kernel
  exact ⟨by decide +kernel, dialog_sound [] (fun _ => 0) reportedDialog hsessions hroom⟩

end Dialog

end ExchangeEngine
