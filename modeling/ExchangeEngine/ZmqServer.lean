import ExchangeEngine.SessionManager
import ExchangeEngine.Wire

/-!
# The ZeroMQ Server

The class `ZmqServer` of `ZmqServer.h` and `ZmqServer.cpp`. One call of `processIncoming` takes
an identity frame, a delimiter frame and a message frame from the ROUTER socket, creates a
session for a client that has none, and routes the request in the message frame to the engine.
`processOutbound` sends the responses of the engine to the clients of their sessions.

The socket hands out the frames that have arrived, one at each call of `recv`. Frames arrive
while the server runs, also between two calls of `recv` in one call of `processIncoming`:
`arrivals` says which ones arrive before each call.
-/

namespace ExchangeEngine

/-- The content of one frame of a message. -/
abbrev Frame := List UInt8

/-- The ROUTER socket on the side of its reader: the frames that have arrived and not been
read, and the number of calls of `recv` made so far. -/
structure Socket where
  arrivals : ℕ → List Frame
  incoming : List Frame
  recvCalls : ℕ

namespace Socket

/-- Read the next frame. There is none if none has arrived by the end of the call. -/
def recv (s : Socket) : Option Frame × Socket :=
  match s.incoming ++ s.arrivals s.recvCalls with
  | [] => (none, { s with incoming := [], recvCalls := s.recvCalls + 1 })
  | frame :: frames => (some frame, { s with incoming := frames, recvCalls := s.recvCalls + 1 })

/-- The frames that `processIncoming` reads: an identity, a delimiter, which it ignores, and a
message. It gives up at an empty identity, and when a frame is missing. -/
def receive (s : Socket) : Option (Identity × Frame) × Socket :=
  match s.recv with
  | (none, s) => (none, s)
  | (some identityFrame, s) =>
      if identityFrame.length = 0 then (none, s)
      else
        match s.recv with
        | (none, s) => (none, s)
        | (some _, s) =>
            match s.recv with
            | (none, s) => (none, s)
            | (some messageFrame, s) => (some (identityFrame, messageFrame), s)

end Socket

/-- The server: its socket, the session manager, and the two maps by which it finds the session of a
client and the client of a session. -/
structure ZmqServer where
  socket : Socket
  sessionManager : SessionManager
  identityToSession : UnorderedMap Identity SessionId
  sessionToIdentity : UnorderedMap SessionId Identity

namespace ZmqServer

/-- A newly started server, with a session manager of its own. -/
def fresh (arrivals : ℕ → List Frame) : ZmqServer where
  socket := { arrivals, incoming := [], recvCalls := 0 }
  sessionManager := .fresh
  identityToSession := ∅
  sessionToIdentity := ∅

/-- Create a session for a client that is new to the server. -/
def connect (server : ZmqServer) (identity : Identity) : ZmqServer :=
  match server.identityToSession.lookup identity with
  | some _ => server
  | none =>
      let session := server.sessionManager.createSession identity
      { server with
        sessionManager := session.2
        identityToSession := server.identityToSession.insert identity session.1
        sessionToIdentity := server.sessionToIdentity.insert session.1 identity }

/-- The request in a message of the type that a byte names: the message must be of a type that
clients send, and at least as long as the struct of that type. -/
def requestOfType? (type : UInt8) (msg : Frame) : Option InboundBody :=
  match MessageType.ofUInt8 type with
  | some .newOrderRequest => (Wire.newOrderRequest.read msg).map .newOrder
  | some .cancelOrderRequest => (Wire.cancelOrderRequest.read msg).map .cancelOrder
  | some .modifyOrderRequest => (Wire.modifyOrderRequest.read msg).map .modifyOrder
  | _ => none

/-- Route the request in a message of a client, and say whether it could be routed. -/
def parseAndRouteMessage (server : ZmqServer) (identity : Identity) (msg : Frame) :
    Bool × ZmqServer :=
  match Wire.rawHeader.read msg with
  | none => (false, server)
  | some (type, length, _) =>
      match server.identityToSession.lookup identity with
      | none => (false, server)
      | some sessionId =>
          if msg.length < length.toNat then (false, server)
          else
            match requestOfType? type msg with
            | none => (false, server)
            | some request =>
                let routed := server.sessionManager.routeToInbound sessionId request
                (routed.1, { server with sessionManager := routed.2 })

/-- `processIncoming`: read three frames as one message, give its client a session, and route the
request. A message that cannot be routed is dropped; its client keeps its session. -/
def processIncoming (server : ZmqServer) : ZmqServer :=
  match server.socket.receive with
  | (none, socket) => { server with socket }
  | (some (identity, messageFrame), socket) =>
      (({ server with socket }.connect identity).parseAndRouteMessage identity messageFrame).2

/-- The client to which a response is sent, and the response; none if its session has no
client. -/
def recipient? (server : ZmqServer) (msg : OutboundMessage) : Option (Identity × OutboundBody) :=
  match server.sessionToIdentity.lookup msg.sessionId with
  | none => none
  | some identity => some (identity, msg.body)

/-- Send the responses in the outbound queue to their clients; those of sessions without a
client are dropped. -/
def processOutbound (server : ZmqServer) (outbound : List OutboundMessage) :
    List (Identity × OutboundBody) :=
  outbound.filterMap server.recipient?

/-- Destroy the session of a client that has disconnected; also the arguments of the call of the
disconnect callback, if it is called. -/
def handleClientDisconnect (server : ZmqServer) (identity : Identity) :
    Option (SessionId × Finset OrderId) × ZmqServer :=
  match server.identityToSession.lookup identity with
  | none => (none, server)
  | some sessionId =>
      let destroyed := server.sessionManager.destroySession sessionId
      (destroyed.1, { server with
        sessionManager := destroyed.2
        sessionToIdentity := server.sessionToIdentity.erase sessionId
        identityToSession := server.identityToSession.erase identity })

/-- What stopping the server does to the sessions when its thread has ended: all are destroyed,
`iterate` giving them in the order of the loop over the map; also the arguments of the calls of
the disconnect callback. -/
def stop (iterate : UnorderedMap Identity SessionId → List SessionId) (server : ZmqServer) :
    List (SessionId × Finset OrderId) × ZmqServer :=
  let destroyed := server.sessionManager.destroySessions (iterate server.identityToSession)
  (destroyed.1, { server with
    sessionManager := destroyed.2
    identityToSession := ∅
    sessionToIdentity := ∅ })

/-! ### Well-formed requests -/

/-- The request in a message frame, if the frame is well-formed. -/
def request? (msg : Frame) : Option InboundBody :=
  match Wire.rawHeader.read msg with
  | none => none
  | some (type, length, _) =>
      if msg.length < length.toNat then none else requestOfType? type msg

/-- **A request is read from its own bytes**: the frame starts with them. -/
theorem bytes_prefix_of_request? {msg : Frame} {request : InboundBody}
    (h : request? msg = some request) : request.bytes <+: msg := by
  rw [request?] at h
  split at h
  · cases h
  · split at h
    · cases h
    · rw [requestOfType?] at h
      split at h
      · obtain ⟨r, hr, rfl⟩ := Option.map_eq_some_iff.mp h
        exact Wire.newOrderRequest.read_eq_some_iff.mp hr
      · obtain ⟨r, hr, rfl⟩ := Option.map_eq_some_iff.mp h
        exact Wire.cancelOrderRequest.read_eq_some_iff.mp hr
      · obtain ⟨r, hr, rfl⟩ := Option.map_eq_some_iff.mp h
        exact Wire.modifyOrderRequest.read_eq_some_iff.mp hr
      · cases h

variable {server : ZmqServer} {identity : Identity} {sessionId : SessionId} {msg : Frame}

/-- A message of a client with a session is routed exactly if its frame is well-formed. -/
theorem parseAndRouteMessage_of_session
    (h : server.identityToSession.lookup identity = some sessionId) :
    server.parseAndRouteMessage identity msg =
      match request? msg with
      | none => (false, server)
      | some request => (true, { server with
          sessionManager := (server.sessionManager.routeToInbound sessionId request).2 }) := by
  rw [parseAndRouteMessage, request?]
  cases Wire.rawHeader.read msg with
  | none => rfl
  | some header =>
      simp only [h]
      split
      · rfl
      · cases requestOfType? header.1 msg <;> rfl

/-! ### Messages of three frames -/

/-- The server with `frames` in its socket, and no more to come. -/
def withFrames (server : ZmqServer) (frames : List Frame) : ZmqServer :=
  { server with socket := { arrivals := fun _ => [], incoming := frames, recvCalls := 0 } }

/-- The server after a call of `processIncoming` has read three frames. -/
def afterThree (server : ZmqServer) : ZmqServer :=
  { server with socket := { arrivals := fun _ => [], incoming := [], recvCalls := 3 } }

/-- A call of `processIncoming` that finds a message of three frames. -/
theorem processIncoming_withFrames (server : ZmqServer) (hne : identity ≠ []) (delimiter : Frame) :
    (server.withFrames [identity, delimiter, msg]).processIncoming =
      ((server.afterThree.connect identity).parseAndRouteMessage identity msg).2 := by
  have hlength : ¬ identity.length = 0 := by simpa using hne
  simp only [processIncoming, withFrames, Socket.receive, Socket.recv, List.append_nil, hlength,
    if_false]
  rfl

end ZmqServer

end ExchangeEngine
