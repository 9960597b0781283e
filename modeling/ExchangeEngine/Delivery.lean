import ExchangeEngine.Lib.BoundedQueue
import ExchangeEngine.LockFreeQueue
import ExchangeEngine.Responses
import ExchangeEngine.Runs
import ExchangeEngine.Sessions

/-!
# Requests and Responses in Transit

The thread of the server and the thread of the engine are connected by two bounded queues. The
first reads requests and pushes them to the inbound queue, and pops responses from the outbound
queue; the second pops a message from the inbound queue, and its handler pushes the responses to
the outbound queue one after another. Both ignore whether a push was refused. A push or a pop is
one step, which `MPSCQueue.mpsc_linearizable` allows for the inbound queue and
`SPSCQueue.spsc_linearizable` for the outbound queue.

`sessionManager.inboundQueue` and `matchingEngine.outboundQueue` are here the histories of what
the two threads have tried to push; `inbound` and `outbound` are the queues.

## Main results

* `nothing_lost_iff`: when the queues have run empty, nothing is lost exactly if no push has found
  its queue full.
* `not_nothingLost_floodedRun`: the queues can be full.
-/

namespace ExchangeEngine

/-- A message of a client that one call of `processIncoming` reads as it was sent: the identity of
the client, which is not empty, a delimiter, and a well-formed request. -/
structure ClientRequest where
  identity : Identity
  delimiter : Frame
  payload : Frame
  body : InboundBody
  identity_ne : identity ≠ []
  wellFormed : ZmqServer.request? payload = some body

/-- The frames that the socket hands out for a request. -/
def ClientRequest.frames (request : ClientRequest) : List Frame :=
  [request.identity, request.delimiter, request.payload]

/-- Where the thread of the server is in the body of `eventLoop`: before the call of
`processIncoming`, or at the head of the loop of `processOutbound`. -/
inductive LoopPosition
  | incoming
  | outbound
  deriving DecidableEq, Repr

/-- The two threads and the queues between them. `unpushed` is what the handler in progress has
still to push; there is a handler in progress if it is not empty. -/
structure Threads where
  zmqServer : ZmqServer
  position : LoopPosition
  inbound : BoundedQueue InboundMessage (INBOUND_QUEUE_SIZE - 1)
  matchingEngine : MatchingEngine
  unpushed : List OutboundMessage
  outbound : BoundedQueue OutboundMessage (OUTBOUND_QUEUE_SIZE - 1)
  /-- The requests read, with the clients that sent them, oldest first. -/
  read : List (Identity × InboundBody)
  /-- The responses popped by `processOutbound`, oldest first. -/
  taken : List OutboundMessage

namespace Threads

/-- Nothing has been read yet. -/
def fresh (symbol : List UInt8) (clock : ℕ → Timestamp) : Threads where
  zmqServer := .fresh fun _ => []
  position := .incoming
  inbound := .empty
  matchingEngine := .fresh symbol clock
  unpushed := []
  outbound := .empty
  read := []
  taken := []

/-- The steps of the threads: a call of `processIncoming`, for which there is a request or not, a
turn of the loop of `processOutbound`, the start of the handler of the next message, a push of the
handler. -/
inductive Action
  | processIncoming (request : Option ClientRequest)
  | processOutbound
  | processInbound
  | pushResponse

/-- What `processIncoming` tries to push. -/
def routed (x : Threads) (request : ClientRequest) : List InboundMessage :=
  (x.zmqServer.withFrames request.frames).processIncoming.sessionManager.inboundQueue.drop
    x.zmqServer.sessionManager.inboundQueue.length

/-- The call of `processIncoming`, after which the thread goes on to `processOutbound` whether there
was a message or not. The result of the push is ignored. -/
def processIncoming (x : Threads) : Option ClientRequest → Threads
  | none => { x with position := .outbound }
  | some request => { x with
      zmqServer := (x.zmqServer.withFrames request.frames).processIncoming
      position := .outbound
      inbound := (x.routed request).foldl (fun q msg => (q.push msg).2) x.inbound
      read := x.read ++ [(request.identity, request.body)] }

/-- A turn of the loop of `processOutbound`: pop a response, or leave the loop. -/
def processOutbound (x : Threads) : Threads :=
  match x.outbound.pop with
  | (none, _) => { x with position := .incoming }
  | (some msg, outbound) => { x with outbound, taken := x.taken ++ [msg] }

/-- Pop a message from the inbound queue and start its handler. -/
def processInbound (x : Threads) : Threads :=
  match x.inbound.pop with
  | (none, _) => x
  | (some msg, inbound) => { x with
      inbound
      matchingEngine := x.matchingEngine.processInboundMessage msg
      unpushed := x.matchingEngine.stepResponses msg }

/-- The next push of the handler in progress. -/
def pushResponse (x : Threads) : Threads :=
  match x.unpushed with
  | [] => x
  | msg :: unpushed => { x with unpushed, outbound := (x.outbound.push msg).2 }

/-- The effect of an action. An action for which its thread is not ready has none. -/
def step (x : Threads) : Action → Threads
  | .processIncoming request =>
      if x.position = .incoming then x.processIncoming request else x
  | .processOutbound => if x.position = .outbound then x.processOutbound else x
  | .processInbound => if x.unpushed = [] then x.processInbound else x
  | .pushResponse => x.pushResponse

/-- Whether a step that pushes finds room in the queue. -/
def hasRoom (x : Threads) : Action → Bool
  | .processIncoming (some _) => decide (x.position ≠ .incoming) || x.inbound.hasRoom
  | .pushResponse => decide (x.unpushed = []) || x.outbound.hasRoom
  | _ => true

section Run

variable (symbol : List UInt8) (clock : ℕ → Timestamp)

/-- The threads after a history of actions, newest first. -/
def after : List Action → Threads
  | [] => .fresh symbol clock
  | action :: past => (after past).step action

/-- Whether every push of a history has found room. -/
def alwaysRoom : List Action → Bool
  | [] => true
  | action :: past => alwaysRoom past && (after symbol clock past).hasRoom action

end Run

/-- Both queues are empty and no handler is in progress. -/
structure Quiet (x : Threads) : Prop where
  inbound : x.inbound.items = []
  outbound : x.outbound.items = []
  unpushed : x.unpushed = []

/-- The session of a client. -/
def sessionOf? (x : Threads) (identity : Identity) : Option SessionId :=
  x.zmqServer.identityToSession.lookup identity

/-- The number of requests read from the client of a session. -/
def requestsOf (x : Threads) (sessionId : SessionId) : ℕ :=
  x.read.countP fun request => x.sessionOf? request.1 = some sessionId

/-- The number of acknowledgements and rejects taken out for a session. -/
def answersTo (x : Threads) (sessionId : SessionId) : ℕ :=
  x.taken.countP fun msg => msg.body.isAnswer && decide (msg.sessionId = sessionId)

/-- **Nothing is lost**: every request has been answered to its session, and every response that
a handler has produced for a session has been taken out for it, in order. -/
structure NothingLost (x : Threads) : Prop where
  answers : ∀ sessionId, x.answersTo sessionId = x.requestsOf sessionId
  responses : ∀ sessionId,
    x.taken.filter (fun msg => msg.sessionId = sessionId) =
      x.matchingEngine.outboundQueue.filter fun msg => msg.sessionId = sessionId

/-! ### The steps that pop -/

section Pop

variable {x : Threads}

theorem processOutbound_of_nil (h : x.outbound.items = []) :
    x.processOutbound = { x with position := .incoming } := by
  rw [processOutbound, BoundedQueue.pop_of_nil h]

theorem processOutbound_of_cons {msg : OutboundMessage} {rest : List OutboundMessage}
    (h : x.outbound.items = msg :: rest) :
    x.processOutbound =
      { x with outbound := x.outbound.pop.2, taken := x.taken ++ [msg] } := by
  rw [processOutbound, show x.outbound.pop = (some msg, x.outbound.pop.2) from
    Prod.ext (BoundedQueue.pop_of_cons h).1 rfl]

theorem processInbound_of_nil (h : x.inbound.items = []) : x.processInbound = x := by
  rw [processInbound, BoundedQueue.pop_of_nil h]

theorem processInbound_of_cons {msg : InboundMessage} {rest : List InboundMessage}
    (h : x.inbound.items = msg :: rest) :
    x.processInbound = { x with
      inbound := x.inbound.pop.2
      matchingEngine := x.matchingEngine.processInboundMessage msg
      unpushed := x.matchingEngine.stepResponses msg } := by
  rw [processInbound, show x.inbound.pop = (some msg, x.inbound.pop.2) from
    Prod.ext (BoundedQueue.pop_of_cons h).1 rfl]

end Pop

/-! ### Accounts -/

/-- **The accounts of the two threads**, after the messages `processed` and with `lost` pushes
refused: what has been routed is what has been processed or waits, less what was refused, and what
has been produced is what has been taken, waits or is still to be pushed, less what was refused. -/
structure Accounts (x : Threads) (processed : List InboundMessage) (lost : ℕ) : Prop where
  sessions : x.zmqServer.sessionManager.inboundQueue.map (fun msg => some msg.sessionId) =
    x.read.map fun request => x.sessionOf? request.1
  inbound : (processed ++ x.inbound.items).Sublist x.zmqServer.sessionManager.inboundQueue
  outbound : (x.taken ++ (x.outbound.items ++ x.unpushed)).Sublist
    x.matchingEngine.outboundQueue
  answers : (x.matchingEngine.outboundQueue.filter fun msg => msg.body.isAnswer).map
    OutboundMessage.sessionId = processed.map InboundMessage.sessionId
  balance : x.zmqServer.sessionManager.inboundQueue.length +
      x.matchingEngine.outboundQueue.length =
    (processed ++ x.inbound.items).length +
      (x.taken ++ (x.outbound.items ++ x.unpushed)).length + lost

variable {x : Threads} {processed : List InboundMessage} {lost : ℕ}

theorem accounts_fresh (symbol : List UInt8) (clock : ℕ → Timestamp) :
    Accounts (fresh symbol clock) [] 0 :=
  ⟨rfl, List.Sublist.refl _, List.Sublist.refl _, rfl, rfl⟩

/-- What reading a request does to the server: the client has a session, the request is routed
under it, and other clients keep theirs. -/
theorem processIncoming_request (server : ZmqServer) (request : ClientRequest) :
    ∃ sessionId,
      (server.withFrames request.frames).processIncoming.identityToSession.lookup
        request.identity = some sessionId ∧
      (server.withFrames request.frames).processIncoming.sessionManager.inboundQueue =
        server.sessionManager.inboundQueue ++ [⟨sessionId, request.body⟩] ∧
      ∀ identity other, server.identityToSession.lookup identity = some other →
        (server.withFrames request.frames).processIncoming.identityToSession.lookup identity =
          some other := by
  obtain ⟨sessionId, hsession⟩ := server.afterThree.exists_lookup_connect request.identity
  rw [ClientRequest.frames, ZmqServer.processIncoming_withFrames server request.identity_ne,
    ZmqServer.parseAndRouteMessage_of_session hsession]
  simp only [request.wellFormed]
  refine ⟨sessionId, hsession, ?_, fun identity other hother =>
    server.afterThree.lookup_connect request.identity hother⟩
  rw [SessionManager.routeToInbound, ZmqServer.inboundQueue_connect]
  rfl

/-- A request is routed once; if there is no room for it, it is lost. -/
theorem Accounts.processIncoming (h : Accounts x processed lost) (request : ClientRequest) :
    Accounts (x.processIncoming (some request)) processed
      (lost + if x.inbound.hasRoom then 0 else 1) := by
  obtain ⟨sessionId, hsession, hqueue, hkept⟩ := processIncoming_request x.zmqServer request
  have hrouted : x.routed request = [⟨sessionId, request.body⟩] := by
    rw [routed, hqueue, List.drop_left]
  have hread : ∀ r ∈ x.read,
      (x.processIncoming (some request)).sessionOf? r.1 = x.sessionOf? r.1 := by
    intro r hr
    have hmem : x.sessionOf? r.1 ∈ x.read.map fun request => x.sessionOf? request.1 :=
      List.mem_map_of_mem hr
    rw [← h.sessions] at hmem
    obtain ⟨msg, -, hmsg⟩ := List.mem_map.mp hmem
    exact (hkept r.1 msg.sessionId hmsg.symm).trans hmsg
  have hitems : (x.processIncoming (some request)).inbound.items =
      x.inbound.items ++ if x.inbound.hasRoom then [⟨sessionId, request.body⟩] else [] := by
    simp only [Threads.processIncoming, hrouted, List.foldl_cons, List.foldl_nil]
    exact x.inbound.items_push _
  have hqueue' : (x.processIncoming (some request)).zmqServer.sessionManager.inboundQueue =
      x.zmqServer.sessionManager.inboundQueue ++ [⟨sessionId, request.body⟩] := hqueue
  refine ⟨?_, ?_, h.outbound, h.answers, ?_⟩
  · rw [hqueue', show (x.processIncoming (some request)).read =
      x.read ++ [(request.identity, request.body)] from rfl, List.map_append, List.map_append,
      List.map_congr_left hread, h.sessions]
    exact congrArg _ (congrArg (fun s => [s]) hsession.symm)
  · rw [hitems, hqueue', ← List.append_assoc]
    refine h.inbound.append ?_
    split
    · exact List.Sublist.refl _
    · exact List.nil_sublist _
  · have hbalance := h.balance
    rw [hitems, hqueue']
    simp only [Threads.processIncoming, List.length_append] at hbalance ⊢
    split <;> simp only [List.length_cons, List.length_nil] <;> omega

/-- A turn of the loop of `processOutbound` takes a response out of the queue. -/
theorem Accounts.processOutbound (h : Accounts x processed lost) :
    Accounts x.processOutbound processed lost := by
  cases hitems : x.outbound.items with
  | nil =>
      rw [processOutbound_of_nil hitems]
      exact ⟨h.sessions, h.inbound, h.outbound, h.answers, h.balance⟩
  | cons msg rest =>
      have hrest := (BoundedQueue.pop_of_cons hitems).2
      have hsplit : x.taken ++ (x.outbound.items ++ x.unpushed) =
          (x.taken ++ [msg]) ++ (x.outbound.pop.2.items ++ x.unpushed) := by
        rw [hitems, hrest, List.append_assoc]
        rfl
      have houtbound := h.outbound
      have hbalance := h.balance
      rw [hsplit] at houtbound hbalance
      rw [processOutbound_of_cons hitems]
      exact ⟨h.sessions, h.inbound, houtbound, h.answers, hbalance⟩

/-- Starting the handler of a message produces its responses, of which one is an answer. -/
theorem Accounts.processInbound (h : Accounts x processed lost) (hidle : x.unpushed = []) :
    ∃ processed', Accounts x.processInbound processed' lost := by
  cases hitems : x.inbound.items with
  | nil =>
      refine ⟨processed, ?_⟩
      rw [processInbound_of_nil hitems]
      exact h
  | cons msg rest =>
      refine ⟨processed ++ [msg], ?_⟩
      have hrest := (BoundedQueue.pop_of_cons hitems).2
      have hqueue := x.matchingEngine.outboundQueue_processInboundMessage msg
      have hanswers := x.matchingEngine.answers_stepResponses msg
      rw [processInbound_of_cons hitems]
      have hsplit : processed ++ x.inbound.items =
          (processed ++ [msg]) ++ x.inbound.pop.2.items := by
        rw [hitems, hrest, List.append_assoc]
        rfl
      have hinbound := h.inbound
      have houtbound := h.outbound
      have hbalance := h.balance
      rw [hsplit] at hinbound hbalance
      rw [hidle, List.append_nil] at houtbound hbalance
      refine ⟨h.sessions, hinbound, ?_, ?_, ?_⟩
      · simp only [hqueue]
        rw [← List.append_assoc]
        exact houtbound.append (List.Sublist.refl _)
      · simp only [hqueue]
        rw [List.filter_append, List.map_append, List.map_append, h.answers, hanswers]
        rfl
      · simp only [hqueue, List.length_append] at hbalance ⊢
        omega

/-- A push of a handler puts its response into the queue, or loses it. -/
theorem Accounts.pushResponse (h : Accounts x processed lost) :
    Accounts x.pushResponse processed (lost + if x.hasRoom .pushResponse then 0 else 1) := by
  cases hunpushed : x.unpushed with
  | nil =>
      rw [Threads.pushResponse, hasRoom, hunpushed]
      exact h
  | cons msg unpushed =>
      have hroom : x.hasRoom .pushResponse = x.outbound.hasRoom := by
        simp [hasRoom, hunpushed]
      have houtbound := h.outbound
      have hbalance := h.balance
      rw [hunpushed] at houtbound hbalance
      rw [Threads.pushResponse, hunpushed, hroom]
      refine ⟨h.sessions, h.inbound, ?_, h.answers, ?_⟩
      · simp only [x.outbound.items_push, List.append_assoc]
        refine List.Sublist.trans ?_ houtbound
        refine (List.Sublist.refl _).append ((List.Sublist.refl _).append ?_)
        split
        · exact List.Sublist.refl _
        · exact List.sublist_cons_self msg unpushed
      · simp only [x.outbound.items_push, List.length_append] at hbalance ⊢
        split <;> simp only [List.length_cons, List.length_nil] at hbalance ⊢ <;> omega

/-- **Every step keeps the accounts**, and loses something exactly if it finds no room. -/
theorem accounts_step (h : Accounts x processed lost) (action : Action) :
    ∃ processed', Accounts (x.step action) processed'
      (lost + if x.hasRoom action then 0 else 1) := by
  cases action with
  | processIncoming request =>
      rw [step]
      split
      · rename_i hposition
        cases request with
        | none => exact ⟨processed, h.sessions, h.inbound, h.outbound, h.answers, h.balance⟩
        | some request =>
            have hroom : x.hasRoom (.processIncoming (some request)) = x.inbound.hasRoom := by
              simp [hasRoom, hposition]
            rw [hroom]
            exact ⟨processed, h.processIncoming request⟩
      · rename_i hposition
        have hroom : x.hasRoom (.processIncoming request) = true := by
          cases request <;> simp [hasRoom, hposition]
        rw [hroom]
        exact ⟨processed, h⟩
  | processOutbound =>
      rw [step]
      split
      · exact ⟨processed, h.processOutbound⟩
      · exact ⟨processed, h⟩
  | processInbound =>
      rw [step]
      split
      · rename_i hidle
        exact h.processInbound hidle
      · exact ⟨processed, h⟩
  | pushResponse => exact ⟨processed, h.pushResponse⟩

/-- **The accounts of a run**: nothing has been lost exactly if every push has found room. -/
theorem accounts_after (symbol : List UInt8) (clock : ℕ → Timestamp) (past : List Action) :
    ∃ processed lost, Accounts (after symbol clock past) processed lost ∧
      (alwaysRoom symbol clock past = true ↔ lost = 0) := by
  induction past with
  | nil => exact ⟨[], 0, accounts_fresh symbol clock, by simp [alwaysRoom]⟩
  | cons action past ih =>
      obtain ⟨processed, lost, haccounts, hlost⟩ := ih
      obtain ⟨processed', haccounts'⟩ := accounts_step haccounts action
      refine ⟨processed', _, haccounts', ?_⟩
      rw [alwaysRoom, Bool.and_eq_true, hlost, Nat.add_eq_zero_iff]
      simp

/-! ### Quiet states -/

/-- A sublist with as many of each item as the list is the list. -/
theorem eq_of_sublist_of_count {α : Type*} [DecidableEq α] {l l' : List α} (h : l.Sublist l')
    (hcount : ∀ a, l.count a = l'.count a) : l = l' :=
  h.eq_of_length (List.perm_iff_count.mpr hcount).length_eq

/-- What the accounts say about the numbers of answers and requests of a session. -/
theorem Accounts.counts (h : Accounts x processed lost) (sessionId : SessionId) :
    x.matchingEngine.outboundQueue.countP
        (fun msg => msg.body.isAnswer && decide (msg.sessionId = sessionId)) =
      (processed.map InboundMessage.sessionId).count sessionId ∧
    x.requestsOf sessionId = (x.zmqServer.sessionManager.inboundQueue.map
      InboundMessage.sessionId).count sessionId := by
  constructor
  · rw [← h.answers, List.count, List.countP_map, List.countP_filter]
    refine List.countP_congr fun msg _ => ?_
    simp [and_comm]
  · have hrequests : x.requestsOf sessionId =
        (x.read.map fun request => x.sessionOf? request.1).countP fun s => s = some sessionId := by
      rw [requestsOf, List.countP_map]
      rfl
    rw [hrequests, ← h.sessions, List.countP_map, List.count, List.countP_map]
    refine List.countP_congr fun msg _ => ?_
    simp

/-- **In a quiet state nothing is lost** exactly if the accounts say so. -/
theorem Accounts.nothingLost_iff (h : Accounts x processed lost) (hquiet : x.Quiet) :
    x.NothingLost ↔ lost = 0 := by
  obtain ⟨hin, hout, hunpushed⟩ := hquiet
  have hinbound := h.inbound
  have houtbound := h.outbound
  have hbalance := h.balance
  rw [hin, List.append_nil] at hinbound hbalance
  rw [hout, hunpushed, List.append_nil, List.append_nil] at houtbound hbalance
  have hle := hinbound.length_le
  have hle' := houtbound.length_le
  constructor
  · intro hlossless
    have htaken : x.taken = x.matchingEngine.outboundQueue := by
      refine eq_of_sublist_of_count houtbound fun msg => ?_
      have hsame := congrArg (List.count msg) (hlossless.responses msg.sessionId)
      rwa [List.count_filter (by simp), List.count_filter (by simp)] at hsame
    have hprocessed : processed.map InboundMessage.sessionId =
        x.zmqServer.sessionManager.inboundQueue.map InboundMessage.sessionId := by
      refine eq_of_sublist_of_count (hinbound.map _) fun sessionId => ?_
      obtain ⟨hanswers, hrequests⟩ := h.counts sessionId
      rw [← hanswers, ← hrequests, ← hlossless.answers sessionId, answersTo, htaken]
    have hlength := congrArg List.length hprocessed
    rw [List.length_map, List.length_map] at hlength
    rw [htaken, hlength] at hbalance
    omega
  · rintro rfl
    have htaken : x.taken = x.matchingEngine.outboundQueue :=
      houtbound.eq_of_length (by omega)
    have hprocessed : processed = x.zmqServer.sessionManager.inboundQueue :=
      hinbound.eq_of_length (by omega)
    refine ⟨fun sessionId => ?_, fun sessionId => by rw [htaken]⟩
    obtain ⟨hanswers, hrequests⟩ := h.counts sessionId
    rw [answersTo, htaken, hanswers, hrequests, hprocessed]

/-- **When nothing is lost**: in every quiet state of a run, exactly if every push of the run has
found room in its queue. -/
theorem nothing_lost_iff (symbol : List UInt8) (clock : ℕ → Timestamp) (past : List Action)
    (hquiet : (after symbol clock past).Quiet) :
    (after symbol clock past).NothingLost ↔ alwaysRoom symbol clock past = true := by
  obtain ⟨processed, lost, haccounts, hlost⟩ := accounts_after symbol clock past
  rw [haccounts.nothingLost_iff hquiet, hlost]

/-- A client asks to sell, and another to buy what it sells. -/
def sellRequest : ClientRequest where
  identity := [83]
  delimiter := []
  payload := (limitOrderMessage 1 .sell 100 5).body.bytes
  body := (limitOrderMessage 1 .sell 100 5).body
  identity_ne := by decide
  wellFormed := by decide

def buyRequest : ClientRequest where
  identity := [84]
  delimiter := []
  payload := (limitOrderMessage 2 .buy 100 5).body.bytes
  body := (limitOrderMessage 2 .buy 100 5).body
  identity_ne := by decide
  wellFormed := by decide

/-- Both requests are read before the first is answered; the second trades with the first, which is
reported to both clients; newest first. -/
def answeredRun : List Action :=
  List.replicate 5 .processOutbound ++ [.processIncoming none] ++
    List.replicate 3 .pushResponse ++ [.processInbound, .pushResponse, .processInbound] ++
    [.processOutbound, .processIncoming (some buyRequest),
      .processOutbound, .processIncoming (some sellRequest)]

theorem nothing_lost_iff_answeredRun :
    let x := after [] (fun _ => 0) answeredRun
    x.Quiet ∧ x.taken.map OutboundMessage.sessionId = [1, 2, 1, 2] ∧
      x.answersTo 1 = 1 ∧ x.answersTo 2 = 1 ∧ x.NothingLost := by
  have hquiet : (after [] (fun _ => 0) answeredRun).Quiet :=
    ⟨by decide +kernel, by decide +kernel, by decide +kernel⟩
  exact ⟨hquiet, by decide +kernel, by decide +kernel, by decide +kernel,
    (nothing_lost_iff [] (fun _ => 0) answeredRun hquiet).mpr (by decide +kernel)⟩

/-! ### A flood of requests -/

/-- The request of a client to cancel an order that there is not. -/
def unknownCancel : ClientRequest where
  identity := [67]
  delimiter := []
  payload := (cancelOrderMessage 1 7).body.bytes
  body := (cancelOrderMessage 1 7).body
  identity_ne := by decide
  wellFormed := by decide

/-- The thread of the server goes through its loop once and reads the request; newest first. -/
def readRound : List Action :=
  [.processOutbound, .processIncoming (some unknownCancel)]

/-- The thread of the engine answers a request, and the thread of the server goes through its
loop once and takes the answer out; newest first. -/
def answerRound : List Action :=
  [.processOutbound, .processOutbound, .processIncoming none, .pushResponse, .processInbound]

/-- The state between rounds when `waiting` requests wait, `answered` have been answered and
`requests` have been read. -/
structure Flooded (x : Threads) (waiting answered requests : ℕ) : Prop where
  position : x.position = .incoming
  session : x.sessionOf? [67] = some 1
  inbound : x.inbound.items = List.replicate waiting (cancelOrderMessage 1 7)
  unknown : x.matchingEngine.orderToSession.lookup 7 = none
  unpushed : x.unpushed = []
  outbound : x.outbound.items = []
  answers : x.answersTo 1 = answered
  read : x.read = List.replicate requests ([67], (cancelOrderMessage 1 7).body)

variable {waiting answered requests : ℕ}

/-- **Reading another request** loses it if the inbound queue is full. -/
theorem Flooded.readRound (h : Flooded x waiting answered requests) :
    Flooded ((x.step (.processIncoming (some unknownCancel))).step .processOutbound)
      (if waiting < INBOUND_QUEUE_SIZE - 1 then waiting + 1 else waiting) answered
      (requests + 1) := by
  obtain ⟨sessionId, hsession, hqueue, hkept⟩ :=
    processIncoming_request x.zmqServer unknownCancel
  have hsession' := hkept [67] 1 h.session
  obtain rfl : sessionId = 1 := Option.some.inj (hsession.symm.trans hsession')
  have hrouted : x.routed unknownCancel = [cancelOrderMessage 1 7] := by
    rw [routed, hqueue, List.drop_left]
    rfl
  have houtbound : (x.processIncoming (some unknownCancel)).outbound.items = [] := h.outbound
  rw [step, if_pos h.position, step, if_pos (by rfl), processOutbound_of_nil houtbound]
  refine ⟨rfl, hsession', ?_, h.unknown, h.unpushed, h.outbound, h.answers, ?_⟩
  · simp only [processIncoming, hrouted, List.foldl_cons, List.foldl_nil,
      BoundedQueue.items_push, BoundedQueue.hasRoom, h.inbound, List.length_replicate,
      decide_eq_true_eq]
    split
    · exact List.replicate_succ'.symm
    · exact List.append_nil _
  · simp only [processIncoming, h.read]
    exact List.replicate_succ'.symm

/-- **Answering a request.** -/
theorem Flooded.answerRound (h : Flooded x (waiting + 1) answered requests) :
    Flooded (((((x.step .processInbound).step .pushResponse).step
      (.processIncoming none)).step .processOutbound).step .processOutbound)
      waiting (answered + 1) requests := by
  have hitems : x.inbound.items =
      cancelOrderMessage 1 7 :: List.replicate waiting (cancelOrderMessage 1 7) := h.inbound
  have hauth : x.matchingEngine.authorize 1 7 = none := by
    rw [MatchingEngine.authorize, h.unknown]
  have hhandled : x.matchingEngine.processInboundMessage (cancelOrderMessage 1 7) =
      x.matchingEngine.sendCancelReject 1 0 7 .orderNotFound := by
    simp only [MatchingEngine.processInboundMessage, cancelOrderMessage,
      MatchingEngine.handleCancelOrder, hauth]
  obtain ⟨reject, hresponses⟩ : ∃ reject, x.matchingEngine.stepResponses (cancelOrderMessage 1 7) =
      [⟨1, .cancelReject reject⟩] := by
    rw [MatchingEngine.stepResponses, hhandled]
    exact ⟨_, List.drop_left⟩
  have hstarted : x.step .processInbound = { x with
      inbound := x.inbound.pop.2
      matchingEngine := x.matchingEngine.sendCancelReject 1 0 7 .orderNotFound
      unpushed := [⟨1, .cancelReject reject⟩] } := by
    rw [step, if_pos h.unpushed, processInbound_of_cons hitems, hhandled, hresponses]
  rw [hstarted]
  simp only [step, pushResponse, h.position, if_true, processIncoming]
  have hpushed : (x.outbound.push ⟨1, .cancelReject reject⟩).2.items =
      [⟨1, .cancelReject reject⟩] := by
    rw [BoundedQueue.items_push, BoundedQueue.hasRoom, h.outbound]
    rfl
  have hpopped := (BoundedQueue.pop_of_cons hpushed).2
  rw [processOutbound_of_cons hpushed]
  simp only [if_true]
  rw [processOutbound_of_nil hpopped]
  refine ⟨rfl, h.session, (BoundedQueue.pop_of_cons hitems).2, h.unknown, rfl, hpopped, ?_,
    h.read⟩
  rw [← h.answers, answersTo, answersTo, List.countP_append]
  rfl

/-- More requests than the inbound queue has room for are read before the first is answered. -/
def floodedRun : List Action :=
  (List.replicate (INBOUND_QUEUE_SIZE - 1) answerRound).flatten ++
    (List.replicate INBOUND_QUEUE_SIZE readRound).flatten

/-- Reading requests up to the capacity of the inbound queue and beyond. -/
theorem flooded_readRounds (n : ℕ) :
    Flooded (after [] (fun _ => 0) (List.replicate (n + 1) readRound).flatten)
      (min (n + 1) (INBOUND_QUEUE_SIZE - 1)) 0 (n + 1) := by
  induction n with
  | zero =>
      exact ⟨by decide, by decide, by decide, by decide, by decide, by decide, by decide,
        by decide⟩
  | succ n ih =>
      have hcount : min (n + 1 + 1) (INBOUND_QUEUE_SIZE - 1) =
          if min (n + 1) (INBOUND_QUEUE_SIZE - 1) < INBOUND_QUEUE_SIZE - 1 then
            min (n + 1) (INBOUND_QUEUE_SIZE - 1) + 1
          else min (n + 1) (INBOUND_QUEUE_SIZE - 1) := by
        split <;> omega
      rw [List.replicate_succ, List.flatten_cons, hcount]
      exact ih.readRound

/-- Answering the requests that wait. -/
theorem Flooded.answerRounds {past : List Action} (n : ℕ)
    (h : Flooded (after [] (fun _ => 0) past) n answered requests) :
    Flooded (after [] (fun _ => 0) ((List.replicate n Threads.answerRound).flatten ++ past))
      0 (answered + n) requests := by
  induction n generalizing answered past with
  | zero => exact h
  | succ n ih =>
      have hround : Flooded (after [] (fun _ => 0) (Threads.answerRound ++ past)) n
          (answered + 1) requests := h.answerRound
      rw [List.replicate_succ', List.flatten_append, List.flatten_singleton, List.append_assoc,
        ← Nat.add_assoc, Nat.add_right_comm]
      exact ih hround

/-- **One request of the flood is never answered**: the inbound queue had no room for it. -/
theorem not_nothingLost_floodedRun :
    let x := after [] (fun _ => 0) floodedRun
    x.Quiet ∧ x.requestsOf 1 = 65536 ∧ x.answersTo 1 = 65535 ∧ ¬ x.NothingLost := by
  have h : Flooded (after [] (fun _ => 0) floodedRun) 0 (0 + 65535) 65536 :=
    (flooded_readRounds 65535).answerRounds 65535
  have hrequests : (after [] (fun _ => 0) floodedRun).requestsOf 1 = 65536 := by
    rw [requestsOf, h.read, List.countP_replicate, if_pos]
    rw [h.session]
    rfl
  refine ⟨⟨h.inbound, h.outbound, h.unpushed⟩, hrequests, h.answers, fun hlossless => ?_⟩
  have hsame := hlossless.answers 1
  rw [h.answers, hrequests] at hsame
  cases hsame

end Threads

end ExchangeEngine
