import Mathlib.Data.Finset.Basic
import ExchangeEngine.Lib.UnorderedMap
import ExchangeEngine.Protocol

/-!
# The Session Manager

The class `SessionManager` of `SessionManager.h`: which client, known by its ZeroMQ identity,
has which session, and the routing of requests to the inbound queue of the engine.

`inboundQueue` holds everything routed to it, oldest first, as when the queue is never full. The
queue of the program has room for 65535 messages, and a request that finds it full is dropped:
`EntryParsing`, `Delivery`, `Shutdown` and `BoundedExchange` push into a queue with that bound what
is routed here.
-/

namespace ExchangeEngine

/-- The identity frame of a client, a string of bytes. -/
abbrev Identity := List UInt8

/-- A session: its client, and the orders that are to be cancelled when it ends. Nothing in the
program ever enters an order there. -/
structure SessionInfo where
  sessionId : SessionId
  zmqIdentity : Identity
  isActive : Bool
  activeOrders : Finset OrderId

/-- A newly created session. -/
def SessionInfo.new (id : SessionId) (identity : Identity) : SessionInfo where
  sessionId := id
  zmqIdentity := identity
  isActive := true
  activeOrders := ∅

/-- The sessions by id and by identity, the id of the next one, and the queue that requests are
routed to. Ids are given out in turn and never taken back. -/
structure SessionManager where
  sessions : UnorderedMap SessionId SessionInfo
  identityToSession : UnorderedMap Identity SessionId
  nextSessionId : SessionId
  inboundQueue : List InboundMessage

namespace SessionManager

/-- A newly constructed session manager. -/
def fresh : SessionManager where
  sessions := ∅
  identityToSession := ∅
  nextSessionId := 1
  inboundQueue := []

/-- The session of a client, created if it has none. As `emplace`, adding a session does not
replace one that has the same id. -/
def createSession (m : SessionManager) (zmqIdentity : Identity) : SessionId × SessionManager :=
  match m.identityToSession.lookup zmqIdentity with
  | some sessionId => (sessionId, m)
  | none =>
      let sessionId := m.nextSessionId
      (sessionId, { m with
        nextSessionId := m.nextSessionId + 1
        sessions :=
          if (m.sessions.lookup sessionId).isSome then m.sessions
          else m.sessions.insert sessionId (.new sessionId zmqIdentity)
        identityToSession := m.identityToSession.insert zmqIdentity sessionId })

/-- Destroy a session; also the arguments of the call of the disconnect callback, which is not
called when the session has no active orders. -/
def destroySession (m : SessionManager) (sessionId : SessionId) :
    Option (SessionId × Finset OrderId) × SessionManager :=
  match m.sessions.lookup sessionId with
  | none => (none, m)
  | some session =>
      let ordersToCancel := session.activeOrders
      (if ordersToCancel = ∅ then none else some (sessionId, ordersToCancel), { m with
        identityToSession := m.identityToSession.erase session.zmqIdentity
        sessions := m.sessions.erase sessionId })

/-- Destroy sessions one after another; also the arguments of the calls of the disconnect
callback. -/
def destroySessions (m : SessionManager) :
    List SessionId → List (SessionId × Finset OrderId) × SessionManager
  | [] => ([], m)
  | sessionId :: sessionIds =>
      let destroyed := m.destroySession sessionId
      let rest := destroyed.2.destroySessions sessionIds
      (destroyed.1.toList ++ rest.1, rest.2)

/-- Whether there is such a session; no session is ever made inactive without being destroyed. -/
def isSessionActive (m : SessionManager) (sessionId : SessionId) : Bool :=
  match m.sessions.lookup sessionId with
  | none => false
  | some session => session.isActive

/-- The identity of the client whose session it is, empty if there is no such session. -/
def getIdentity (m : SessionManager) (sessionId : SessionId) : Identity :=
  match m.sessions.lookup sessionId with
  | none => []
  | some session => session.zmqIdentity

/-- The number of sessions, as it is printed with the statistics. -/
def getActiveSessionCount (m : SessionManager) : ℕ :=
  m.sessions.keys.card

/-- Push a request of a session to the inbound queue, and say whether there was room. The list has
always room; `routeTagged` is the push to a bounded queue, which may fail. -/
def routeToInbound (m : SessionManager) (sessionId : SessionId) (request : InboundBody) :
    Bool × SessionManager :=
  (true, { m with inboundQueue := m.inboundQueue ++ [⟨sessionId, request⟩] })

end SessionManager

end ExchangeEngine
