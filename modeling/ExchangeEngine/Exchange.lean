import ExchangeEngine.Runs
import ExchangeEngine.ZmqServer

/-!
# The Exchange

The class `Exchange` of `Exchange.h` and `Exchange.cpp` puts the components together: requests
go from the server through the inbound queue to the engine, responses through the outbound queue
back to the server, and the session manager tells the exchange when a session is destroyed.

A step of the exchange is one call in one of its threads: of `processIncoming`, `processOutbound`
or `handleClientDisconnect` in the thread of the server, of `processInboundMessage` on the message
popped last in the thread of the engine, of `generateOrder` in the thread of the dummy generator.
No message is dropped here because a queue is full.
-/

namespace ExchangeEngine

/-- The server and the engine, with the queues between them in the state of the side that pushes:
the inbound queue is in the session manager, and the outbound queue is what the engine has ever
pushed, of which `outboundPopped` have been popped. Neither is bounded here; `BoundedExchange` and
`Threads` bound them. -/
structure Exchange where
  zmqServer : ZmqServer
  matchingEngine : MatchingEngine
  /-- The number of responses that have been popped from the outbound queue. -/
  outboundPopped : ℕ
  /-- What has been sent to the clients, oldest first. -/
  sent : List (Identity × OutboundBody)

namespace Exchange

/-- A newly started exchange. -/
def fresh (arrivals : ℕ → List Frame) (symbol : List UInt8) (clock : ℕ → Timestamp) :
    Exchange where
  zmqServer := .fresh arrivals
  matchingEngine := .fresh symbol clock
  outboundPopped := 0
  sent := []

/-- The messages in the inbound queue. -/
def inboundQueue (x : Exchange) : List InboundMessage :=
  x.zmqServer.sessionManager.inboundQueue

/-- The exchange with other messages in the inbound queue. -/
def setInboundQueue (x : Exchange) (inboundQueue : List InboundMessage) : Exchange :=
  { x with
    zmqServer := { x.zmqServer with
      sessionManager := { x.zmqServer.sessionManager with inboundQueue } } }

/-- Read one message in the thread of the server. A request in it is queued, as there is always
room. -/
def processIncoming (x : Exchange) : Exchange :=
  { x with zmqServer := x.zmqServer.processIncoming }

/-- Pop all responses and send each to the client of its session. -/
def processOutbound (x : Exchange) : Exchange :=
  { x with
    outboundPopped := x.matchingEngine.outboundQueue.length
    sent := x.sent ++
      x.zmqServer.processOutbound (x.matchingEngine.outboundQueue.drop x.outboundPopped) }

/-- Pop a message from the inbound queue and process it. -/
def processInbound (x : Exchange) : Exchange :=
  match x.inboundQueue with
  | [] => x
  | msg :: inboundQueue =>
      { x.setInboundQueue inboundQueue with
        matchingEngine := x.matchingEngine.processInboundMessage msg }

/-- Push an order of the dummy generator to the inbound queue. -/
def generateOrder (x : Exchange) (request : NewOrderRequest) : Exchange :=
  x.setInboundQueue (x.inboundQueue ++ [⟨DUMMY_SESSION_ID, .newOrder request⟩])

section Disconnect

-- the order in which a loop over a set of order ids visits them
variable (iterate : Finset OrderId → List OrderId)

/-- The disconnect callback. -/
def onSessionDisconnect (x : Exchange) (sessionId : SessionId) (orderIds : Finset OrderId) :
    Exchange :=
  if orderIds = ∅ then x
  else { x with
    matchingEngine := x.matchingEngine.cancelSessionOrders sessionId (iterate orderIds) }

/-- The call of the disconnect callback, if the session manager calls it. -/
def notify (x : Exchange) : Option (SessionId × Finset OrderId) → Exchange
  | none => x
  | some (sessionId, ordersToCancel) => x.onSessionDisconnect iterate sessionId ordersToCancel

/-- `SessionManager::destroySession` with the callback that the exchange installs. -/
def destroySession (x : Exchange) (sessionId : SessionId) : Exchange :=
  let destroyed := x.zmqServer.sessionManager.destroySession sessionId
  { x with zmqServer := { x.zmqServer with sessionManager := destroyed.2 } }.notify iterate
    destroyed.1

/-- `handleClientDisconnect` with the callback that the exchange installs. -/
def handleClientDisconnect (x : Exchange) (identity : Identity) : Exchange :=
  let disconnected := x.zmqServer.handleClientDisconnect identity
  { x with zmqServer := disconnected.2 }.notify iterate disconnected.1

/-- The steps of the threads. -/
inductive Action
  | processIncoming
  | processOutbound
  | processInbound
  | generateOrder (request : NewOrderRequest)
  | handleClientDisconnect (identity : Identity)

/-- The effect of a step. -/
def step (x : Exchange) : Action → Exchange
  | .processIncoming => x.processIncoming
  | .processOutbound => x.processOutbound
  | .processInbound => x.processInbound
  | .generateOrder request => x.generateOrder request
  | .handleClientDisconnect identity => x.handleClientDisconnect iterate identity

variable (arrivals : ℕ → List Frame) (symbol : List UInt8) (clock : ℕ → Timestamp)

/-- The exchange after a history of steps, newest first. -/
def after : List Action → Exchange
  | [] => .fresh arrivals symbol clock
  | action :: past => (after past).step iterate action

/-- The messages that the engine has processed in a history, newest first. -/
def processed : List Action → List InboundMessage
  | [] => []
  | .processInbound :: past =>
      match (after iterate arrivals symbol clock past).inboundQueue with
      | [] => processed past
      | msg :: _ => msg :: processed past
  | _ :: past => processed past

end Disconnect

end Exchange

end ExchangeEngine
