import ExchangeEngine.Exchange
import ExchangeEngine.Lib.BoundedQueue
import ExchangeEngine.LockFreeQueue
import ExchangeEngine.Responses
import ExchangeEngine.Sessions

/-!
# The Exchange with Bounded Queues

The two queues of the exchange have room for 65535 messages each, and nobody looks at the result of
a push: what finds its queue full is dropped. The steps are finer here than in `Exchange`. A turn of
the loop of `processOutbound` pops one response, and the handler of a message pushes its responses
one by one, so that the server may pop one before the next is pushed. A push or a pop is one step,
which `MPSCQueue.mpsc_linearizable` allows for the inbound queue and `SPSCQueue.spsc_linearizable`
for the outbound queue.

`zmqServer.sessionManager.inboundQueue` is here what the last call of `processIncoming` has tried to
push, and `matchingEngine.outboundQueue` the history of what the handlers have tried to push;
`inbound` and `outbound` are the queues.

## Main results

* `unbounded_processIncoming` and its like: as long as every push finds room, the exchange does what
  it does with unbounded queues.
* `exists_emptied`: the queues can always be run empty, and no push finds them full on the way.
-/

namespace ExchangeEngine

/-- The server with other messages in the list that `routeToInbound` adds to. -/
def ZmqServer.setInboundQueue (server : ZmqServer) (inboundQueue : List InboundMessage) :
    ZmqServer :=
  { server with sessionManager := { server.sessionManager with inboundQueue } }

/-- The exchange and its queues. `unpushed` is what the handler in progress has still to push; there
is a handler in progress if it is not empty. -/
structure BoundedExchange where
  zmqServer : ZmqServer
  inbound : BoundedQueue InboundMessage (INBOUND_QUEUE_SIZE - 1)
  matchingEngine : MatchingEngine
  unpushed : List OutboundMessage
  outbound : BoundedQueue OutboundMessage (OUTBOUND_QUEUE_SIZE - 1)
  /-- What has been sent to the clients, oldest first. -/
  sent : List (Identity × OutboundBody)

namespace BoundedExchange

/-- A newly started exchange. -/
def fresh (arrivals : ℕ → List Frame) (symbol : List UInt8) (clock : ℕ → Timestamp) :
    BoundedExchange where
  zmqServer := .fresh arrivals
  inbound := .empty
  matchingEngine := .fresh symbol clock
  unpushed := []
  outbound := .empty
  sent := []

/-- What a call of `processIncoming` tries to push. -/
def routed (x : BoundedExchange) : List InboundMessage :=
  (x.zmqServer.setInboundQueue []).processIncoming.sessionManager.inboundQueue

/-- Read a message, and push the request in it, if there is one. The result of the push is ignored:
a request that finds the queue full is gone. -/
def processIncoming (x : BoundedExchange) : BoundedExchange :=
  { x with
    zmqServer := (x.zmqServer.setInboundQueue []).processIncoming
    inbound := x.routed.foldl (fun queue msg => (queue.push msg).2) x.inbound }

/-- A turn of the loop of `processOutbound`: pop a response, and send it if its session has a
client. -/
def processOutbound (x : BoundedExchange) : BoundedExchange :=
  match x.outbound.pop with
  | (none, _) => x
  | (some msg, outbound) =>
      { x with outbound, sent := x.sent ++ (x.zmqServer.recipient? msg).toList }

/-- Pop a message from the inbound queue and start its handler. -/
def processInbound (x : BoundedExchange) : BoundedExchange :=
  match x.inbound.pop with
  | (none, _) => x
  | (some msg, inbound) => { x with
      inbound
      matchingEngine := x.matchingEngine.processInboundMessage msg
      unpushed := x.matchingEngine.stepResponses msg }

/-- The next push of the handler in progress. -/
def pushResponse (x : BoundedExchange) : BoundedExchange :=
  match x.unpushed with
  | [] => x
  | msg :: unpushed => { x with unpushed, outbound := (x.outbound.push msg).2 }

/-- Push an order of the dummy generator to the inbound queue. -/
def generateOrder (x : BoundedExchange) (request : NewOrderRequest) : BoundedExchange :=
  { x with inbound := (x.inbound.push ⟨DUMMY_SESSION_ID, .newOrder request⟩).2 }

/-- The steps of the threads of the server, of the engine and of the generator. -/
inductive ServerStep
  | processIncoming
  | processOutbound
  | processInbound
  | pushResponse
  | generateOrder (request : NewOrderRequest)

/-- The effect of a step. The engine starts no handler while one is in progress. -/
def ServerStep.run (x : BoundedExchange) : ServerStep → BoundedExchange
  | processIncoming => x.processIncoming
  | processOutbound => x.processOutbound
  | processInbound => if x.unpushed = [] then x.processInbound else x
  | pushResponse => x.pushResponse
  | generateOrder request => x.generateOrder request

/-- Whether a step that pushes a request or a response finds room for it. -/
def hasRoom (x : BoundedExchange) : ServerStep → Bool
  | .processIncoming => x.routed.isEmpty || x.inbound.hasRoom
  | .pushResponse => x.unpushed.isEmpty || x.outbound.hasRoom
  | _ => true

/-- Nothing is left to do for the threads. -/
structure Quiet (x : BoundedExchange) : Prop where
  incoming : x.zmqServer.socket.incoming = []
  inbound : x.inbound.items = []
  unpushed : x.unpushed = []
  outbound : x.outbound.items = []

/-! ### Unbounded queues -/

/-- The responses on their way from the engine to the server. -/
def waiting (x : BoundedExchange) : List OutboundMessage :=
  x.outbound.items ++ x.unpushed

/-- The exchange as one with unbounded queues, whose handlers push all their responses at once. -/
def unbounded (x : BoundedExchange) : Exchange where
  zmqServer := x.zmqServer.setInboundQueue x.inbound.items
  matchingEngine := x.matchingEngine
  outboundPopped := x.matchingEngine.outboundQueue.length - x.waiting.length
  sent := x.sent

/-- **No response has been lost**: those on their way are the last that the engine has produced. -/
def Lossless (x : BoundedExchange) : Prop :=
  x.waiting <:+ x.matchingEngine.outboundQueue

end BoundedExchange

namespace Exchange

/-- The responses in the outbound queue. -/
def waitingOutbound (x : Exchange) : List OutboundMessage :=
  x.matchingEngine.outboundQueue.drop x.outboundPopped

/-- Pop one response, and send it if its session has a client. -/
def sendNext (x : Exchange) : Exchange :=
  match x.waitingOutbound with
  | [] => x
  | msg :: _ => { x with
      outboundPopped := x.outboundPopped + 1
      sent := x.sent ++ (x.zmqServer.recipient? msg).toList }

end Exchange

namespace ZmqServer

variable (server : ZmqServer) (queue : List InboundMessage) (identity : Identity) (msg : Frame)

theorem connect_setInboundQueue : (server.setInboundQueue queue).connect identity =
    (server.connect identity).setInboundQueue queue := by
  simp only [connect, setInboundQueue, SessionManager.createSession]
  cases server.identityToSession.lookup identity with
  | some _ => rfl
  | none => cases server.sessionManager.identityToSession.lookup identity <;> rfl

/-- A message is routed behind whatever is in the queue, or not at all. -/
theorem exists_routed_parseAndRouteMessage :
    ∃ routed : List InboundMessage, routed.length ≤ 1 ∧ ∀ queue,
      ((server.setInboundQueue queue).parseAndRouteMessage identity msg).2 =
        (server.parseAndRouteMessage identity msg).2.setInboundQueue (queue ++ routed) := by
  cases hsession : server.identityToSession.lookup identity with
  | none =>
      refine ⟨[], Nat.zero_le 1, fun queue => ?_⟩
      simp only [parseAndRouteMessage, setInboundQueue, hsession, List.append_nil]
      cases Wire.rawHeader.read msg <;> rfl
  | some sessionId =>
      have hother : ∀ queue, (server.setInboundQueue queue).identityToSession.lookup identity =
        some sessionId := fun _ => hsession
      cases hrequest : request? msg with
      | none =>
          refine ⟨[], Nat.zero_le 1, fun queue => ?_⟩
          rw [parseAndRouteMessage_of_session hsession,
            parseAndRouteMessage_of_session (hother queue), hrequest, List.append_nil]
      | some request =>
          refine ⟨[⟨sessionId, request⟩], Nat.le_refl 1, fun queue => ?_⟩
          rw [parseAndRouteMessage_of_session hsession,
            parseAndRouteMessage_of_session (hother queue), hrequest]
          rfl

/-- **A call of `processIncoming`** routes at most one message, behind whatever is in the queue. -/
theorem exists_routed_processIncoming :
    ∃ routed : List InboundMessage, routed.length ≤ 1 ∧ ∀ queue,
      (server.setInboundQueue queue).processIncoming =
        server.processIncoming.setInboundQueue (queue ++ routed) := by
  have hsocket : ∀ queue, (server.setInboundQueue queue).socket = server.socket := fun _ => rfl
  cases hreceive : server.socket.receive with
  | mk received socket =>
    cases received with
    | none =>
        refine ⟨[], Nat.zero_le 1, fun queue => ?_⟩
        simp only [processIncoming, hsocket, hreceive, List.append_nil]
        rfl
    | some received =>
        obtain ⟨routed, hlength, hrouted⟩ := exists_routed_parseAndRouteMessage
          (({ server with socket } : ZmqServer).connect received.1) received.1 received.2
        refine ⟨routed, hlength, fun queue => ?_⟩
        simp only [processIncoming, hsocket, hreceive]
        rw [← hrouted, ← connect_setInboundQueue]
        rfl

end ZmqServer

namespace BoundedExchange

variable {x : BoundedExchange}

/-! ### The steps -/

section Pop

theorem processOutbound_of_nil (h : x.outbound.items = []) : x.processOutbound = x := by
  rw [processOutbound, BoundedQueue.pop_of_nil h]

theorem processOutbound_of_cons {msg : OutboundMessage} {rest : List OutboundMessage}
    (h : x.outbound.items = msg :: rest) :
    x.processOutbound = { x with
      outbound := x.outbound.pop.2
      sent := x.sent ++ (x.zmqServer.recipient? msg).toList } := by
  rw [processOutbound, show x.outbound.pop = (some msg, x.outbound.pop.2) from
    Prod.ext (BoundedQueue.pop_of_cons h).1 rfl]

theorem processInbound_of_nil (h : x.inbound.items = []) : x.processInbound = x := by
  rw [processInbound, BoundedQueue.pop_of_nil h]

theorem processInbound_of_cons {msg : InboundMessage} {rest : List InboundMessage}
    (h : x.inbound.items = msg :: rest) :
    x.processInbound = { x with
      inbound := x.inbound.pop.2
      matchingEngine := x.matchingEngine.processInboundMessage msg
      unpushed := x.matchingEngine.stepResponses msg } := by
  rw [processInbound, show x.inbound.pop = (some msg, x.inbound.pop.2) from
    Prod.ext (BoundedQueue.pop_of_cons h).1 rfl]

theorem pushResponse_of_nil (h : x.unpushed = []) : x.pushResponse = x := by
  rw [pushResponse, h]

theorem pushResponse_of_cons {msg : OutboundMessage} {rest : List OutboundMessage}
    (h : x.unpushed = msg :: rest) :
    x.pushResponse = { x with unpushed := rest, outbound := (x.outbound.push msg).2 } := by
  rw [pushResponse, h]

end Pop

/-! ### What the unbounded exchange does -/

section Refines

/-- Pushing to a queue that has room for the only item, if there is one. -/
theorem items_foldl_push {α : Type*} {limit : ℕ} {queue : BoundedQueue α limit} {items : List α}
    (hlength : items.length ≤ 1) (hroom : (items.isEmpty || queue.hasRoom) = true) :
    (items.foldl (fun queue item => (queue.push item).2) queue).items = queue.items ++ items := by
  match items with
  | [] => exact (List.append_nil _).symm
  | [item] =>
      have hqueue : queue.hasRoom = true := hroom
      rw [List.foldl_cons, List.foldl_nil, BoundedQueue.items_push, hqueue, if_pos rfl]

/-- **Reading a message**, if there is room for a request. -/
theorem unbounded_processIncoming (h : x.hasRoom .processIncoming = true) :
    x.processIncoming.unbounded = x.unbounded.processIncoming := by
  obtain ⟨routed, hlength, hrouted⟩ := x.zmqServer.exists_routed_processIncoming
  have hpushed : x.routed = routed := by
    rw [BoundedExchange.routed, hrouted]
    rfl
  have hitems : x.processIncoming.inbound.items = x.inbound.items ++ routed := by
    rw [← hpushed]
    exact items_foldl_push (hpushed ▸ hlength) h
  have hserver : x.processIncoming.unbounded.zmqServer = x.unbounded.processIncoming.zmqServer := by
    show ((x.zmqServer.setInboundQueue []).processIncoming).setInboundQueue _ =
      (x.zmqServer.setInboundQueue x.inbound.items).processIncoming
    rw [hitems, hrouted, hrouted]
    rfl
  exact congrArg (fun server => { x.unbounded with zmqServer := server }) hserver

/-- A request of the generator is queued if there is room for it. -/
theorem unbounded_generateOrder (x : BoundedExchange) (request : NewOrderRequest) :
    (x.generateOrder request).unbounded =
      if x.inbound.hasRoom then x.unbounded.generateOrder request else x.unbounded := by
  have hitems := x.inbound.items_push ⟨DUMMY_SESSION_ID, .newOrder request⟩
  cases hroom : x.inbound.hasRoom with
  | true =>
      rw [hroom, if_pos rfl] at hitems
      rw [if_pos rfl]
      exact congrArg (fun items => x.unbounded.setInboundQueue items) hitems
  | false =>
      rw [hroom, if_neg Bool.false_ne_true, List.append_nil] at hitems
      rw [if_neg Bool.false_ne_true]
      exact congrArg (fun items => x.unbounded.setInboundQueue items) hitems

/-- **Processing a message** produces all its responses. -/
theorem unbounded_processInbound (hidle : x.unpushed = []) :
    x.processInbound.unbounded = x.unbounded.processInbound := by
  cases hitems : x.inbound.items with
  | nil =>
      have hqueue : x.unbounded.inboundQueue = [] := hitems
      rw [processInbound_of_nil hitems, Exchange.processInbound, hqueue]
  | cons msg rest =>
      have hqueue : x.unbounded.inboundQueue = msg :: rest := hitems
      rw [processInbound_of_cons hitems, Exchange.processInbound, hqueue]
      simp only [unbounded, waiting, hidle, List.append_nil, List.length_append,
        x.matchingEngine.outboundQueue_processInboundMessage, (BoundedQueue.pop_of_cons hitems).2,
        Nat.add_sub_add_right]
      rfl

/-- The responses of a handler that starts are the last that the engine has produced. -/
theorem Lossless.processInbound (h : x.Lossless) (hidle : x.unpushed = []) :
    x.processInbound.Lossless := by
  cases hitems : x.inbound.items with
  | nil => rwa [processInbound_of_nil hitems]
  | cons msg rest =>
      obtain ⟨before, hbefore⟩ := h
      rw [waiting, hidle, List.append_nil] at hbefore
      rw [processInbound_of_cons hitems]
      refine ⟨before, ?_⟩
      simp only [waiting, x.matchingEngine.outboundQueue_processInboundMessage, ← hbefore,
        List.append_assoc]

/-- A push that finds room takes a response from the handler to the queue, and none gets lost. -/
theorem waiting_pushResponse (h : x.hasRoom .pushResponse = true) :
    x.pushResponse.waiting = x.waiting := by
  cases hunpushed : x.unpushed with
  | nil => rw [pushResponse_of_nil hunpushed]
  | cons msg rest =>
      rw [hasRoom, hunpushed, List.isEmpty_cons, Bool.false_or] at h
      rw [pushResponse_of_cons hunpushed]
      simp only [waiting, BoundedQueue.items_push, h, if_pos, hunpushed, List.append_assoc,
        List.singleton_append]

/-- **Pushing a response** is not seen in the unbounded exchange. -/
theorem unbounded_pushResponse (h : x.hasRoom .pushResponse = true) :
    x.pushResponse.unbounded = x.unbounded := by
  have hwaiting := waiting_pushResponse h
  cases hunpushed : x.unpushed with
  | nil => rw [pushResponse_of_nil hunpushed]
  | cons msg rest =>
      rw [pushResponse_of_cons hunpushed] at hwaiting ⊢
      rw [unbounded, hwaiting]
      rfl

/-- A push that finds room loses nothing. -/
theorem Lossless.pushResponse (h : x.Lossless) (hroom : x.hasRoom .pushResponse = true) :
    x.pushResponse.Lossless := by
  have hwaiting := waiting_pushResponse hroom
  cases hunpushed : x.unpushed with
  | nil => rwa [pushResponse_of_nil hunpushed]
  | cons msg rest =>
      rw [pushResponse_of_cons hunpushed] at hwaiting ⊢
      rw [Lossless, hwaiting]
      exact h

/-- The responses on their way are those in the queue of the unbounded exchange. -/
theorem Lossless.waitingOutbound (h : x.Lossless) : x.unbounded.waitingOutbound = x.waiting := by
  obtain ⟨before, hbefore⟩ := h
  rw [Exchange.waitingOutbound, unbounded]
  simp only [← hbefore, List.length_append, Nat.add_sub_cancel, List.drop_left]

/-- What is popped is the oldest response on its way. -/
theorem Lossless.processOutbound (h : x.Lossless) : x.processOutbound.Lossless := by
  cases hitems : x.outbound.items with
  | nil => rwa [processOutbound_of_nil hitems]
  | cons msg rest =>
      rw [processOutbound_of_cons hitems]
      refine List.IsSuffix.trans ⟨[msg], ?_⟩ h
      simp only [waiting, hitems, (BoundedQueue.pop_of_cons hitems).2, List.cons_append,
        List.nil_append]

/-- **A turn of the loop of `processOutbound`** sends the next response, if it has been pushed. -/
theorem unbounded_processOutbound (h : x.Lossless) :
    x.processOutbound.unbounded = x.unbounded ∨
      x.processOutbound.unbounded = x.unbounded.sendNext := by
  cases hitems : x.outbound.items with
  | nil => exact Or.inl (by rw [processOutbound_of_nil hitems])
  | cons msg rest =>
      right
      have hwaiting : x.unbounded.waitingOutbound = msg :: (rest ++ x.unpushed) := by
        rw [h.waitingOutbound, waiting, hitems, List.cons_append]
      have hlength := h.length_le
      rw [processOutbound_of_cons hitems, Exchange.sendNext, hwaiting]
      simp only [unbounded, waiting, hitems, (BoundedQueue.pop_of_cons hitems).2,
        List.length_append, List.length_cons] at hlength ⊢
      refine congrArg (fun popped => ({ x.unbounded with
        outboundPopped := popped
        sent := x.sent ++ (x.zmqServer.recipient? msg).toList } : Exchange)) ?_
      omega

/-- **Every step** keeps the responses, if it finds room for what it pushes. -/
theorem Lossless.run (h : x.Lossless) (step : ServerStep) (hroom : x.hasRoom step = true) :
    (step.run x).Lossless := by
  cases step with
  | processIncoming => exact h
  | processOutbound => exact h.processOutbound
  | processInbound =>
      rw [ServerStep.run]
      split
      · exact h.processInbound ‹_›
      · exact h
  | pushResponse => exact h.pushResponse hroom
  | generateOrder request => exact h

end Refines

/-! ### Running empty -/

/-- **What the threads can do** without the generator and with room for every push. -/
inductive Reaches : BoundedExchange → BoundedExchange → Prop
  | refl (x : BoundedExchange) : Reaches x x
  | next {x y : BoundedExchange} (step : ServerStep) : (∀ request, step ≠ .generateOrder request) →
      x.hasRoom step = true → Reaches (step.run x) y → Reaches x y

theorem Reaches.trans {x y z : BoundedExchange} (h : Reaches x y) (h' : Reaches y z) :
    Reaches x z := by
  induction h with
  | refl _ => exact h'
  | next step hstep hroom _ ih => exact .next step hstep hroom (ih h')

section Empty

/-- No response is on its way. -/
structure Flushed (x : BoundedExchange) : Prop where
  unpushed : x.unpushed = []
  outbound : x.outbound.items = []

/-- The handler in progress pushes its responses, each of which the server sends at once. -/
theorem exists_flushed (x : BoundedExchange) :
    ∃ y, Reaches x y ∧ y.Flushed ∧ y.zmqServer = x.zmqServer ∧ y.inbound = x.inbound := by
  -- a push takes a response to the queue, a pop takes it out
  obtain ⟨n, hn⟩ : ∃ n, 2 * x.unpushed.length + x.outbound.items.length = n := ⟨_, rfl⟩
  induction n using Nat.strong_induction_on generalizing x with
  | h n ih =>
    cases houtbound : x.outbound.items with
    | cons msg rest =>
        have hstep := processOutbound_of_cons houtbound
        obtain ⟨y, hy, hflushed, hserver, hinbound⟩ :=
          ih (2 * x.unpushed.length + rest.length)
            (by rw [← hn, houtbound, List.length_cons]; omega) x.processOutbound
            (by rw [hstep, (BoundedQueue.pop_of_cons houtbound).2])
        refine ⟨y, .next .processOutbound (fun _ h => by cases h) rfl hy, hflushed, ?_, ?_⟩
        · rw [hserver, hstep]
        · rw [hinbound, hstep]
    | nil =>
      cases hunpushed : x.unpushed with
      | nil => exact ⟨x, .refl x, ⟨hunpushed, houtbound⟩, rfl, rfl⟩
      | cons msg rest =>
          have hstep := pushResponse_of_cons hunpushed
          have hroom : x.outbound.hasRoom = true := by
            rw [BoundedQueue.hasRoom, houtbound]
            decide
          have hitems : x.pushResponse.outbound.items = [msg] := by
            rw [hstep, BoundedQueue.items_push, hroom, houtbound, if_pos rfl, List.nil_append]
          obtain ⟨y, hy, hflushed, hserver, hinbound⟩ :=
            ih (2 * rest.length + 1) (by rw [← hn, hunpushed, List.length_cons]; omega)
              x.pushResponse (by rw [hitems, hstep, List.length_singleton])
          refine ⟨y, .next .pushResponse (fun _ h => by cases h) ?_ hy, hflushed, ?_, ?_⟩
          · rw [hasRoom, hroom, Bool.or_true]
          · rw [hserver, hstep]
          · rw [hinbound, hstep]

/-- **The queues run empty**, one message after another. -/
theorem exists_emptied (x : BoundedExchange) :
    ∃ y, Reaches x y ∧ y.Flushed ∧ y.zmqServer = x.zmqServer ∧ y.inbound.items = [] := by
  obtain ⟨n, hn⟩ : ∃ n, x.inbound.items.length = n := ⟨_, rfl⟩
  induction n generalizing x with
  | zero =>
      obtain ⟨y, hy, hflushed, hserver, hinbound⟩ := x.exists_flushed
      exact ⟨y, hy, hflushed, hserver, hinbound ▸ List.length_eq_zero_iff.mp hn⟩
  | succ n ih =>
      obtain ⟨y, hy, hflushed, hserver, hinbound⟩ := x.exists_flushed
      obtain ⟨msg, rest, hitems⟩ := List.exists_cons_of_length_eq_add_one (hinbound ▸ hn)
      have hstep : ServerStep.run y .processInbound = _ :=
        (if_pos hflushed.unpushed).trans (processInbound_of_cons hitems)
      obtain ⟨z, hz, hflushed', hserver', hempty⟩ := ih (ServerStep.run y .processInbound) (by
        rw [hstep, (BoundedQueue.pop_of_cons hitems).2]
        rw [← hinbound, hitems, List.length_cons] at hn
        exact Nat.succ.inj hn)
      refine ⟨z, hy.trans (.next .processInbound (fun _ h => by cases h) rfl hz), hflushed', ?_,
        hempty⟩
      rw [hserver', hstep]
      exact hserver

end Empty

end BoundedExchange

end ExchangeEngine
