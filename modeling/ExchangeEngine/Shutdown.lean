import ExchangeEngine.Delivery
import ExchangeEngine.Disconnect

/-!
# Shutdown

`Exchange::stop` stops the components in turn: the dummy generator, the server, the engine and the
feed handler. Stopping a component clears its flag `running_` and joins its thread. The threads of
the engine and of the feed handler drain their queues when they find the flag cleared; the thread
of the server leaves its loop at once.

Each step of `Exchange::stop` joins a thread and clears the flag of the next component. A thread
takes one step for the condition of its loop, one for each item that it pops and one for each push
of a handler. The pushes of a handler to the two outgoing queues interleave in any order. A push or
a pop is one step, which `MPSCQueue.mpsc_linearizable` allows for the inbound queue, which has two
producers, and `SPSCQueue.spsc_linearizable` for the other two queues.

## Main results

* `inbound_and_feed_drained`: when `Exchange::stop` has returned, the engine and the feed handler
  have drained their queues.
* `shutdown_drains_iff`: the outbound queue has been drained too exactly if there was no request and
  no response on its way when the thread of the server ended.
* `not_drained_lateRequestRun`: there can be one.
-/

namespace ExchangeEngine

/-- How far `Exchange::stop` has come: it has not been called, it is joining the thread of a
component, or it has returned. -/
inductive StopStage
  | notCalled
  | joinGenerator
  | joinServer
  | joinEngine
  | joinFeed
  | returned
  deriving DecidableEq, Repr

namespace StopStage

/-! ### The flags `running_` of the components -/

/-- Whether the `running_` flag of each component is still set. `stop` clears one flag after
another, each before it joins the thread of its component. -/
def generatorRunning : StopStage → Bool
  | notCalled => true
  | _ => false

def serverRunning : StopStage → Bool
  | notCalled | joinGenerator => true
  | _ => false

def engineRunning : StopStage → Bool
  | notCalled | joinGenerator | joinServer => true
  | _ => false

def feedRunning : StopStage → Bool
  | notCalled | joinGenerator | joinServer | joinEngine => true
  | _ => false

end StopStage

/-- Where the thread of the generator is in `generatorLoop`. -/
inductive GeneratorPosition
  | head
  | body
  | ended
  deriving DecidableEq, Repr

/-- Where the thread of the server is in `eventLoop`. -/
inductive ServerPosition
  | head
  | incoming
  | outbound
  | ended
  deriving DecidableEq, Repr

/-- Where a thread is in `matchingLoop` or `feedLoop`: at the condition of the loop, in the loop
inside it, in the loop after it that drains the queue, or at its end. -/
inductive DrainPosition
  | head
  | popping
  | draining
  | ended
  deriving DecidableEq, Repr

/-- What `processIncoming` finds at the socket: frames, perhaps none, or a ZeroMQ error. -/
inductive Arrival
  | frames (frames : List Frame)
  | error

/-- The components of the exchange, their threads and their queues. `unpushedResponses` and
`unpushedMarketData` are what the handler in progress has still to push. -/
structure Components where
  stage : StopStage
  generator : GeneratorPosition
  server : ServerPosition
  engine : DrainPosition
  feed : DrainPosition
  zmqServer : ZmqServer
  inbound : TracedQueue InboundMessage (INBOUND_QUEUE_SIZE - 1)
  matchingEngine : MatchingEngine
  unpushedResponses : List OutboundMessage
  unpushedMarketData : List MarketDataMessage
  outbound : TracedQueue OutboundMessage (OUTBOUND_QUEUE_SIZE - 1)
  feedQueue : TracedQueue MarketDataMessage (FEED_QUEUE_SIZE - 1)

namespace MatchingEngine

/-- What handling a message pushes to the feed queue. -/
def stepMarketData (e : MatchingEngine) (msg : InboundMessage) : List MarketDataMessage :=
  (e.processInboundMessage msg).feedQueue.drop e.feedQueue.length

end MatchingEngine

namespace Components

/-- Newly started components; an exchange without a dummy generator is as one whose generator
thread has ended. -/
def fresh (symbol : List UInt8) (clock : ℕ → Timestamp) (generator : GeneratorPosition) :
    Components where
  stage := .notCalled
  generator
  server := .head
  engine := .head
  feed := .head
  zmqServer := .fresh fun _ => []
  inbound := .empty
  matchingEngine := .fresh symbol clock
  unpushedResponses := []
  unpushedMarketData := []
  outbound := .empty
  feedQueue := .empty

/-! ### The threads -/

/-- The thread of the generator; `request` is what it generates, if it is time to. -/
def generatorLoop (x : Components) (request : Option NewOrderRequest) : Components :=
  match x.generator with
  | .head => { x with generator := if x.stage.generatorRunning then .body else .ended }
  | .body =>
      match request with
      | none => { x with generator := .head }
      | some request => { x with
          generator := .head
          inbound := x.inbound.push ⟨DUMMY_SESSION_ID, .newOrder request⟩ }
  | .ended => x

/-- What `processIncoming` tries to push. -/
def routed (x : Components) (frames : List Frame) : List InboundMessage :=
  (x.zmqServer.withFrames frames).processIncoming.sessionManager.inboundQueue.drop
    x.zmqServer.sessionManager.inboundQueue.length

/-- The thread of the server. An error takes it back to the condition of its loop. -/
def eventLoop (x : Components) (arrival : Arrival) : Components :=
  match x.server with
  | .head => { x with server := if x.stage.serverRunning then .incoming else .ended }
  | .incoming =>
      match arrival with
      | .frames frames => { x with
          server := .outbound
          zmqServer := (x.zmqServer.withFrames frames).processIncoming
          inbound := (x.routed frames).foldl TracedQueue.push x.inbound }
      | .error => { x with server := .head }
  | .outbound =>
      match x.outbound.pop with
      | (none, _) => { x with server := .head }
      | (some _, outbound) => { x with outbound }
  | .ended => x

/-- Pop a message from the inbound queue and start its handler, or leave the loop. -/
def processInbound (x : Components) (next : DrainPosition) : Components :=
  match x.inbound.pop with
  | (none, _) => { x with engine := next }
  | (some msg, inbound) => { x with
      inbound
      matchingEngine := x.matchingEngine.processInboundMessage msg
      unpushedResponses := x.matchingEngine.stepResponses msg
      unpushedMarketData := x.matchingEngine.stepMarketData msg }

/-- The thread of the engine, when no handler is in progress. -/
def matchingLoop (x : Components) : Components :=
  match x.engine with
  | .head => { x with engine := if x.stage.engineRunning then .popping else .draining }
  | .popping => x.processInbound .head
  | .draining => x.processInbound .ended
  | .ended => x

/-- The next push of the handler in progress to the outbound queue. -/
def pushResponse (x : Components) : Components :=
  match x.unpushedResponses with
  | [] => x
  | msg :: unpushedResponses => { x with unpushedResponses, outbound := x.outbound.push msg }

/-- The next push of the handler in progress to the feed queue. -/
def pushMarketData (x : Components) : Components :=
  match x.unpushedMarketData with
  | [] => x
  | msg :: unpushedMarketData => { x with unpushedMarketData, feedQueue := x.feedQueue.push msg }

/-- Pop a message from the feed queue and hand it to multicast, or leave the loop. -/
def processMessage (x : Components) (next : DrainPosition) : Components :=
  match x.feedQueue.pop with
  | (none, _) => { x with feed := next }
  | (some _, feedQueue) => { x with feedQueue }

/-- The thread of the feed handler. -/
def feedLoop (x : Components) : Components :=
  match x.feed with
  | .head => { x with feed := if x.stage.feedRunning then .popping else .draining }
  | .popping => x.processMessage .head
  | .draining => x.processMessage .ended
  | .ended => x

section Run

-- the order in which the loop over the clients visits their sessions
variable (iterate : UnorderedMap Identity SessionId → List SessionId)

/-- The call of `Exchange::stop`. Joining a thread has no effect until the thread has ended. The
sessions are destroyed when the thread of the server has been joined; the disconnect callback is
not called for them (`calls_after`). -/
def stop (x : Components) : Components :=
  match x.stage with
  | .notCalled => { x with stage := .joinGenerator }
  | .joinGenerator => if x.generator = .ended then { x with stage := .joinServer } else x
  | .joinServer =>
      if x.server = .ended then
        { x with stage := .joinEngine, zmqServer := (x.zmqServer.stop iterate).2 }
      else x
  | .joinEngine => if x.engine = .ended then { x with stage := .joinFeed } else x
  | .joinFeed => if x.feed = .ended then { x with stage := .returned } else x
  | .returned => x

/-- The steps of the call of `Exchange::stop` and of the threads. -/
inductive Action
  | stop
  | generatorLoop (request : Option NewOrderRequest)
  | eventLoop (arrival : Arrival)
  | matchingLoop
  | pushResponse
  | pushMarketData
  | feedLoop

/-- The effect of an action. An action for which its thread is not ready has none. -/
def step (x : Components) : Action → Components
  | .stop => x.stop iterate
  | .generatorLoop request => x.generatorLoop request
  | .eventLoop arrival => x.eventLoop arrival
  | .matchingLoop =>
      if x.unpushedResponses = [] ∧ x.unpushedMarketData = [] then x.matchingLoop else x
  | .pushResponse => x.pushResponse
  | .pushMarketData => x.pushMarketData
  | .feedLoop => x.feedLoop

/-- The components after a history of actions, newest first, that starts at `x`. -/
def after (x : Components) : List Action → Components
  | [] => x
  | action :: past => (after x past).step iterate action

/-- Whether an action is the one with which the thread of the server leaves its loop. -/
def endsServer (x : Components) : Action → Bool
  | .eventLoop _ => decide (x.server = .head) && !x.stage.serverRunning
  | _ => false

/-- No request waits for the engine, and no response for the server. -/
def Idle (x : Components) : Prop :=
  x.inbound.items = [] ∧ x.unpushedResponses = [] ∧ x.outbound.items = []

instance (x : Components) : Decidable x.Idle :=
  inferInstanceAs (Decidable (_ ∧ _ ∧ _))

/-- Whether, if the thread of the server has left its loop in a history, it did so when no request
and no response was on its way. -/
def quietExit (x : Components) : List Action → Bool
  | [] => true
  | action :: past => quietExit x past &&
      (!(after iterate x past).endsServer action || decide (after iterate x past).Idle)

end Run

/-- The components run: `Exchange::stop` has not been called, and no thread but that of the
generator, which may have nothing to generate, has left its loop. -/
structure Started (x : Components) : Prop where
  stage : x.stage = .notCalled
  server : x.server ≠ .ended
  engine : x.engine ≠ .draining ∧ x.engine ≠ .ended
  feed : x.feed ≠ .draining ∧ x.feed ≠ .ended

/-- **Everything is drained**: every request that was pushed to the inbound queue has been processed
by the engine, all market data that was pushed to the feed queue has been handed to multicast, and
every response that was pushed to the outbound queue has been taken out. -/
structure Drained (x : Components) : Prop where
  requests : x.inbound.popped = x.inbound.pushed
  handled : x.unpushedResponses = [] ∧ x.unpushedMarketData = []
  marketData : x.feedQueue.popped = x.feedQueue.pushed
  responses : x.outbound.popped = x.outbound.pushed
  empty : x.inbound.items = [] ∧ x.feedQueue.items = [] ∧ x.outbound.items = []

variable {iterate : UnorderedMap Identity SessionId → List SessionId} {x : Components}

theorem drained_iff (x : Components) : x.Drained ↔
    x.inbound.items = [] ∧ (x.unpushedResponses = [] ∧ x.unpushedMarketData = []) ∧
      x.feedQueue.items = [] ∧ x.outbound.items = [] := by
  constructor
  · intro h
    exact ⟨h.empty.1, h.handled, h.empty.2.1, h.empty.2.2⟩
  · rintro ⟨hinbound, hhandled, hfeed, houtbound⟩
    exact ⟨x.inbound.popped_eq_pushed_iff.mpr hinbound, hhandled,
      x.feedQueue.popped_eq_pushed_iff.mpr hfeed, x.outbound.popped_eq_pushed_iff.mpr houtbound,
      hinbound, hfeed, houtbound⟩

theorem started_fresh (symbol : List UInt8) (clock : ℕ → Timestamp)
    (generator : GeneratorPosition) : (fresh symbol clock generator).Started :=
  ⟨rfl, by simp [fresh], by simp [fresh], by simp [fresh]⟩

section Pop

theorem processInbound_of_nil (h : x.inbound.items = []) (next : DrainPosition) :
    x.processInbound next = { x with engine := next } := by
  rw [processInbound, show x.inbound.pop = (none, x.inbound.pop.2) from
    Prod.ext (TracedQueue.pop_of_nil h).1 rfl]

theorem processInbound_of_cons {msg : InboundMessage} {rest : List InboundMessage}
    (h : x.inbound.items = msg :: rest) (next : DrainPosition) :
    x.processInbound next = { x with
      inbound := x.inbound.pop.2
      matchingEngine := x.matchingEngine.processInboundMessage msg
      unpushedResponses := x.matchingEngine.stepResponses msg
      unpushedMarketData := x.matchingEngine.stepMarketData msg } := by
  rw [processInbound, show x.inbound.pop = (some msg, x.inbound.pop.2) from
    Prod.ext (TracedQueue.pop_of_cons h).1 rfl]

theorem processMessage_of_nil (h : x.feedQueue.items = []) (next : DrainPosition) :
    x.processMessage next = { x with feed := next } := by
  rw [processMessage, show x.feedQueue.pop = (none, x.feedQueue.pop.2) from
    Prod.ext (TracedQueue.pop_of_nil h).1 rfl]

theorem processMessage_of_cons {msg : MarketDataMessage} {rest : List MarketDataMessage}
    (h : x.feedQueue.items = msg :: rest) (next : DrainPosition) :
    x.processMessage next = { x with feedQueue := x.feedQueue.pop.2 } := by
  rw [processMessage, show x.feedQueue.pop = (some msg, x.feedQueue.pop.2) from
    Prod.ext (TracedQueue.pop_of_cons h).1 rfl]

end Pop

/-! ### The order of joining -/

/-- **What is known when threads have ended**: a flag is cleared when the threads before it have
ended, a thread does not leave its loop before its flag is cleared, and the threads of the engine
and of the feed handler end with their queues empty. -/
structure Joined (x : Components) : Prop where
  generator : x.stage.serverRunning = false → x.generator = .ended
  server : x.stage.engineRunning = false → x.server = .ended
  engine : x.stage.feedRunning = false → x.engine = .ended
  feed : x.stage = .returned → x.feed = .ended
  serverStopped : x.server = .ended → x.stage.serverRunning = false
  engineStopped : x.engine = .draining ∨ x.engine = .ended → x.stage.engineRunning = false
  feedStopped : x.feed = .draining ∨ x.feed = .ended → x.stage.feedRunning = false
  engineDrained : x.engine = .ended →
    x.inbound.items = [] ∧ x.unpushedResponses = [] ∧ x.unpushedMarketData = []
  feedDrained : x.feed = .ended → x.feedQueue.items = []

theorem Started.joined (h : Started x) : Joined x := by
  obtain ⟨hstage, hserver, ⟨hdraining, hended⟩, hfeed, hfeedEnded⟩ := h
  constructor <;> simp [hstage, StopStage.serverRunning, StopStage.engineRunning,
    StopStage.feedRunning, hserver, hdraining, hended, hfeed, hfeedEnded]

namespace Joined

/-- When the thread of the server has ended, so has that of the generator. -/
theorem generator_ended (h : Joined x) (hserver : x.server = .ended) : x.generator = .ended :=
  h.generator (h.serverStopped hserver)

theorem server_ended (h : Joined x) (hengine : x.engine = .draining ∨ x.engine = .ended) :
    x.server = .ended :=
  h.server (h.engineStopped hengine)

theorem engine_ended (h : Joined x) (hfeed : x.feed = .draining ∨ x.feed = .ended) :
    x.engine = .ended :=
  h.engine (h.feedStopped hfeed)

/-- `Exchange::stop` clears the next flag when the threads before it have ended. -/
theorem advance (h : Joined x) (stage : StopStage) (zmqServer : ZmqServer)
    (hgenerator : stage.serverRunning = false → x.generator = .ended)
    (hserver : stage.engineRunning = false → x.server = .ended)
    (hengine : stage.feedRunning = false → x.engine = .ended)
    (hfeed : stage = .returned → x.feed = .ended)
    (hcleared : (x.stage.serverRunning = false → stage.serverRunning = false) ∧
      (x.stage.engineRunning = false → stage.engineRunning = false) ∧
      (x.stage.feedRunning = false → stage.feedRunning = false)) :
    Joined { x with stage, zmqServer } where
  generator := hgenerator
  server := hserver
  engine := hengine
  feed := hfeed
  serverStopped hended := hcleared.1 (h.serverStopped hended)
  engineStopped hended := hcleared.2.1 (h.engineStopped hended)
  feedStopped hended := hcleared.2.2 (h.feedStopped hended)
  engineDrained := h.engineDrained
  feedDrained := h.feedDrained

/-- A step of `Exchange::stop` goes on only when the thread that it waits for has ended. -/
theorem stop (h : Joined x) : Joined (x.stop iterate) := by
  cases hstage : x.stage with
  | notCalled =>
      simp only [Components.stop, hstage]
      exact h.advance .joinGenerator x.zmqServer nofun nofun nofun nofun
        (by simp [hstage, StopStage.serverRunning, StopStage.engineRunning,
          StopStage.feedRunning])
  | joinGenerator =>
      simp only [Components.stop, hstage]
      split
      · rename_i hgenerator
        exact h.advance .joinServer x.zmqServer (fun _ => hgenerator) nofun nofun nofun
          (by simp [hstage, StopStage.serverRunning, StopStage.engineRunning,
            StopStage.feedRunning])
      · exact h
  | joinServer =>
      simp only [Components.stop, hstage]
      split
      · rename_i hserver
        exact h.advance .joinEngine (x.zmqServer.stop iterate).2
          (fun _ => h.generator_ended hserver) (fun _ => hserver) nofun nofun
          (by simp [hstage, StopStage.serverRunning, StopStage.engineRunning,
            StopStage.feedRunning])
      · exact h
  | joinEngine =>
      simp only [Components.stop, hstage]
      split
      · rename_i hengine
        have hserver := h.server_ended (.inr hengine)
        exact h.advance .joinFeed x.zmqServer (fun _ => h.generator_ended hserver)
          (fun _ => hserver) (fun _ => hengine) nofun
          (by simp [hstage, StopStage.serverRunning, StopStage.engineRunning,
            StopStage.feedRunning])
      · exact h
  | joinFeed =>
      simp only [Components.stop, hstage]
      split
      · rename_i hfeed
        have hengine := h.engine_ended (.inr hfeed)
        have hserver := h.server_ended (.inr hengine)
        exact h.advance .returned x.zmqServer (fun _ => h.generator_ended hserver)
          (fun _ => hserver) (fun _ => hengine) (fun _ => hfeed)
          (by simp [hstage, StopStage.serverRunning, StopStage.engineRunning,
            StopStage.feedRunning])
      · exact h
  | returned =>
      simp only [Components.stop, hstage]
      exact h

/-- The generator runs: then the server and the engine do. -/
theorem generatorLoop (h : Joined x) (request : Option NewOrderRequest) :
    Joined (x.generatorLoop request) := by
  by_cases hended : x.generator = .ended
  · simp only [Components.generatorLoop, hended]
    exact h
  · have hserver : x.server ≠ .ended := fun hserver => hended (h.generator_ended hserver)
    have hengine : x.engine ≠ .ended := fun hengine => hserver (h.server_ended (.inr hengine))
    have hrunning : x.stage.serverRunning ≠ false := fun hstopped => hended (h.generator hstopped)
    simp only [Components.generatorLoop]
    split
    · exact ⟨fun hstopped => absurd hstopped hrunning, h.server, h.engine, h.feed,
        h.serverStopped, h.engineStopped, h.feedStopped, h.engineDrained, h.feedDrained⟩
    · split <;>
      exact ⟨fun hstopped => absurd hstopped hrunning, h.server, h.engine, h.feed,
        h.serverStopped, h.engineStopped, h.feedStopped, fun hended => absurd hended hengine,
        h.feedDrained⟩
    · exact h

/-- The thread of the server ends only at the head of its loop, whatever it finds at the socket. -/
theorem eventLoop (h : Joined x) (arrival : Arrival) : Joined (x.eventLoop arrival) := by
  by_cases hended : x.server = .ended
  · simp only [Components.eventLoop, hended]
    exact h
  · have hengine : x.engine ≠ .ended := fun hengine => hended (h.server_ended (.inr hengine))
    have hrunning : x.stage.engineRunning ≠ false := fun hstopped => hended (h.server hstopped)
    simp only [Components.eventLoop]
    split
    · refine ⟨h.generator, fun hstopped => absurd hstopped hrunning, h.engine, h.feed, ?_,
        h.engineStopped, h.feedStopped, h.engineDrained, h.feedDrained⟩
      simp only
      split
      · exact nofun
      · rename_i hstopped
        exact fun _ => Bool.not_eq_true _ ▸ hstopped
    · split <;>
      exact ⟨h.generator, fun hstopped => absurd hstopped hrunning, h.engine, h.feed, nofun,
        h.engineStopped, h.feedStopped, fun hended => absurd hended hengine, h.feedDrained⟩
    · split
      · exact ⟨h.generator, fun hstopped => absurd hstopped hrunning, h.engine, h.feed, nofun,
          h.engineStopped, h.feedStopped, h.engineDrained, h.feedDrained⟩
      · exact ⟨h.generator, h.server, h.engine, h.feed, h.serverStopped,
          h.engineStopped, h.feedStopped, h.engineDrained, h.feedDrained⟩
    · exact h

/-- Popping a message for its handler, in the loop `here` or on the way out of it. -/
theorem processInbound (h : Joined x) (hended : x.engine ≠ .ended)
    (hpushed : x.unpushedResponses = [] ∧ x.unpushedMarketData = []) {next : DrainPosition}
    (hstopped : next = .draining ∨ next = .ended → x.stage.engineRunning = false) :
    Joined (x.processInbound next) := by
  have hrunning : x.stage.feedRunning ≠ false := fun hstopped => hended (h.engine hstopped)
  cases hitems : x.inbound.items with
  | nil =>
      rw [processInbound_of_nil hitems]
      exact ⟨h.generator, h.server, fun hstopped => absurd hstopped hrunning, h.feed,
        h.serverStopped, hstopped, h.feedStopped, fun _ => ⟨hitems, hpushed⟩, h.feedDrained⟩
  | cons msg rest =>
      rw [processInbound_of_cons hitems]
      exact ⟨h.generator, h.server, fun hstopped => absurd hstopped hrunning, h.feed,
        h.serverStopped, h.engineStopped, h.feedStopped, fun h => absurd h hended,
        h.feedDrained⟩

/-- The thread of the engine ends when it finds the inbound queue empty, and nobody pushes to it any
more. -/
theorem matchingLoop (h : Joined x)
    (hpushed : x.unpushedResponses = [] ∧ x.unpushedMarketData = []) :
    Joined x.matchingLoop := by
  cases hengine : x.engine with
  | head =>
      have hrunning : x.stage.feedRunning ≠ false := fun hstopped => by
        simpa [hengine] using h.engine hstopped
      simp only [Components.matchingLoop, hengine]
      refine ⟨h.generator, h.server, fun hstopped => absurd hstopped hrunning, h.feed,
        h.serverStopped, ?_, h.feedStopped, ?_, h.feedDrained⟩
      · simp only
        split
        · exact nofun
        · rename_i hstopped
          exact fun _ => Bool.not_eq_true _ ▸ hstopped
      · simp only
        split <;> exact nofun
  | popping =>
      simp only [Components.matchingLoop, hengine]
      exact h.processInbound (by simp [hengine]) hpushed nofun
  | draining =>
      simp only [Components.matchingLoop, hengine]
      exact h.processInbound (by simp [hengine]) hpushed
        fun _ => h.engineStopped (.inl hengine)
  | ended =>
      simp only [Components.matchingLoop, hengine]
      exact h

theorem pushResponse (h : Joined x) : Joined x.pushResponse := by
  cases hunpushed : x.unpushedResponses with
  | nil =>
      simp only [Components.pushResponse, hunpushed]
      exact h
  | cons msg rest =>
      simp only [Components.pushResponse, hunpushed]
      refine ⟨h.generator, h.server, h.engine, h.feed, h.serverStopped, h.engineStopped,
        h.feedStopped, fun hended => ?_, h.feedDrained⟩
      have hpushed := (h.engineDrained hended).2.1
      rw [hunpushed] at hpushed
      cases hpushed

theorem pushMarketData (h : Joined x) : Joined x.pushMarketData := by
  cases hunpushed : x.unpushedMarketData with
  | nil =>
      simp only [Components.pushMarketData, hunpushed]
      exact h
  | cons msg rest =>
      have hengine : x.engine ≠ .ended := by
        intro hended
        have hpushed := (h.engineDrained hended).2.2
        rw [hunpushed] at hpushed
        cases hpushed
      simp only [Components.pushMarketData, hunpushed]
      exact ⟨h.generator, h.server, h.engine, h.feed, h.serverStopped, h.engineStopped,
        h.feedStopped, fun hended => absurd hended hengine,
        fun hended => absurd (h.engine_ended (.inr hended)) hengine⟩

theorem processMessage (h : Joined x) (hended : x.feed ≠ .ended) {next : DrainPosition}
    (hstopped : next = .draining ∨ next = .ended → x.stage.feedRunning = false) :
    Joined (x.processMessage next) := by
  have hreturned : x.stage ≠ .returned := fun hreturned => hended (h.feed hreturned)
  cases hitems : x.feedQueue.items with
  | nil =>
      rw [processMessage_of_nil hitems]
      exact ⟨h.generator, h.server, h.engine, fun h => absurd h hreturned, h.serverStopped,
        h.engineStopped, hstopped, h.engineDrained, fun _ => hitems⟩
  | cons msg rest =>
      rw [processMessage_of_cons hitems]
      exact ⟨h.generator, h.server, h.engine, h.feed, h.serverStopped, h.engineStopped,
        h.feedStopped, h.engineDrained, fun h => absurd h hended⟩

/-- The thread of the feed handler ends when it finds the feed queue empty, and the engine pushes no
more. -/
theorem feedLoop (h : Joined x) : Joined x.feedLoop := by
  cases hfeed : x.feed with
  | head =>
      have hreturned : x.stage ≠ .returned := fun hreturned => by
        simpa [hfeed] using h.feed hreturned
      simp only [Components.feedLoop, hfeed]
      refine ⟨h.generator, h.server, h.engine, fun h => absurd h hreturned, h.serverStopped,
        h.engineStopped, ?_, h.engineDrained, ?_⟩
      · simp only
        split
        · exact nofun
        · rename_i hstopped
          exact fun _ => Bool.not_eq_true _ ▸ hstopped
      · simp only
        split <;> exact nofun
  | popping =>
      simp only [Components.feedLoop, hfeed]
      exact h.processMessage (by simp [hfeed]) nofun
  | draining =>
      simp only [Components.feedLoop, hfeed]
      exact h.processMessage (by simp [hfeed]) fun _ => h.feedStopped (.inl hfeed)
  | ended =>
      simp only [Components.feedLoop, hfeed]
      exact h

/-- **Every step keeps what is known.** -/
theorem step (h : Joined x) (action : Action) : Joined (x.step iterate action) := by
  cases action with
  | stop => exact h.stop
  | generatorLoop request => exact h.generatorLoop request
  | eventLoop arrival => exact h.eventLoop arrival
  | matchingLoop =>
      rw [Components.step]
      split
      · rename_i hpushed
        exact h.matchingLoop hpushed
      · exact h
  | pushResponse => exact h.pushResponse
  | pushMarketData => exact h.pushMarketData
  | feedLoop => exact h.feedLoop

end Joined

theorem joined_after (h : Started x) (past : List Action) : Joined (after iterate x past) := by
  induction past with
  | nil => exact h.joined
  | cons action past ih => exact ih.step action

/-- **The engine and the feed handler drain their queues**: when `Exchange::stop` has returned, all
requests have been processed and all market data has been handed to multicast. -/
theorem inbound_and_feed_drained (h : Started x) {past : List Action}
    (hreturned : (after iterate x past).stage = .returned) :
    (after iterate x past).inbound.popped = (after iterate x past).inbound.pushed ∧
      (after iterate x past).feedQueue.popped = (after iterate x past).feedQueue.pushed := by
  have hjoined : Joined (after iterate x past) := joined_after h past
  have hfeed := hjoined.feed hreturned
  have hengine := hjoined.engine_ended (.inr hfeed)
  exact ⟨(TracedQueue.popped_eq_pushed_iff _).mpr (hjoined.engineDrained hengine).1,
    (TracedQueue.popped_eq_pushed_iff _).mpr (hjoined.feedDrained hfeed)⟩

/-! ### The disconnect callback -/

section Callback

theorem zmqServer_processInbound (next : DrainPosition) :
    (x.processInbound next).zmqServer = x.zmqServer := by
  rw [processInbound]
  split <;> rfl

theorem zmqServer_matchingLoop : x.matchingLoop.zmqServer = x.zmqServer := by
  rw [matchingLoop]
  split
  · rfl
  · exact zmqServer_processInbound .head
  · exact zmqServer_processInbound .ended
  · rfl

theorem zmqServer_feedLoop : x.feedLoop.zmqServer = x.zmqServer := by
  have hmessage : ∀ next, (x.processMessage next).zmqServer = x.zmqServer := by
    intro next
    rw [processMessage]
    split <;> rfl
  rw [feedLoop]
  split
  · rfl
  · exact hmessage .head
  · exact hmessage .ended
  · rfl

theorem noActiveOrders_stop (h : x.zmqServer.sessionManager.NoActiveOrders) :
    (x.stop iterate).zmqServer.sessionManager.NoActiveOrders := by
  simp only [stop]
  split
  · exact h
  · split <;> exact h
  · split
    · exact (ZmqServer.calls_stop h iterate).2
    · exact h
  · split <;> exact h
  · split <;> exact h
  · exact h

theorem noActiveOrders_eventLoop (h : x.zmqServer.sessionManager.NoActiveOrders)
    (arrival : Arrival) : (x.eventLoop arrival).zmqServer.sessionManager.NoActiveOrders := by
  simp only [eventLoop]
  split
  · exact h
  · cases arrival with
    | frames frames =>
        have hframes : (x.zmqServer.withFrames frames).sessionManager.NoActiveOrders := h
        exact ZmqServer.noActiveOrders_processIncoming hframes
    | error => exact h
  · split <;> exact h
  · exact h

/-- No step gives a session an active order. -/
theorem noActiveOrders_step (h : x.zmqServer.sessionManager.NoActiveOrders) (action : Action) :
    (x.step iterate action).zmqServer.sessionManager.NoActiveOrders := by
  cases action with
  | stop => exact noActiveOrders_stop h
  | generatorLoop request =>
      simp only [step, generatorLoop]
      split
      · exact h
      · split <;> exact h
      · exact h
  | eventLoop arrival => exact noActiveOrders_eventLoop h arrival
  | matchingLoop =>
      rw [step]
      split
      · rwa [zmqServer_matchingLoop]
      · exact h
  | pushResponse =>
      rw [step, pushResponse]
      split <;> exact h
  | pushMarketData =>
      rw [step, pushMarketData]
      split <;> exact h
  | feedLoop => rwa [step, zmqServer_feedLoop]

/-- **Stopping calls the disconnect callback for no session**, whatever has happened before. -/
theorem calls_after (h : x.zmqServer.sessionManager.NoActiveOrders) (past : List Action) :
    ((after iterate x past).zmqServer.stop iterate).1 = [] := by
  suffices hall : (after iterate x past).zmqServer.sessionManager.NoActiveOrders from
    (ZmqServer.calls_stop hall iterate).1
  induction past with
  | nil => exact h
  | cons action past ih => exact noActiveOrders_step ih action

end Callback

/-! ### After the thread of the server -/

theorem idle_stop : (x.stop iterate).Idle ↔ x.Idle := by
  simp only [stop]
  split
  · exact Iff.rfl
  · split <;> exact Iff.rfl
  · split <;> exact Iff.rfl
  · split <;> exact Iff.rfl
  · split <;> exact Iff.rfl
  · exact Iff.rfl

/-- A message that is popped leaves a response on its way. -/
theorem idle_processInbound (next : DrainPosition) :
    (x.processInbound next).Idle ↔ x.Idle := by
  cases hitems : x.inbound.items with
  | nil =>
      rw [processInbound_of_nil hitems]
      exact Iff.rfl
  | cons msg rest =>
      rw [processInbound_of_cons hitems]
      constructor
      · rintro ⟨-, hresponses, -⟩
        obtain ⟨reports, answer, hresponds⟩ := x.matchingEngine.responds msg
        simp only [hresponds.stepResponses_eq] at hresponses
        exact absurd hresponses (List.append_ne_nil_of_right_ne_nil _ (List.cons_ne_nil _ _))
      · rintro ⟨hnil, -⟩
        rw [hitems] at hnil
        cases hnil

theorem idle_matchingLoop : x.matchingLoop.Idle ↔ x.Idle := by
  cases hengine : x.engine with
  | head =>
      simp only [matchingLoop, hengine]
      exact Iff.rfl
  | popping =>
      simp only [matchingLoop, hengine]
      exact idle_processInbound .head
  | draining =>
      simp only [matchingLoop, hengine]
      exact idle_processInbound .ended
  | ended => simp only [matchingLoop, hengine]

/-- A response that is pushed waits in the outbound queue, or others fill the queue. -/
theorem idle_pushResponse : x.pushResponse.Idle ↔ x.Idle := by
  cases hunpushed : x.unpushedResponses with
  | nil => simp only [pushResponse, hunpushed]
  | cons msg rest =>
      simp only [pushResponse, hunpushed]
      constructor
      · rintro ⟨-, -, hnil⟩
        exact absurd hnil (x.outbound.items_push_ne_nil (by decide) msg)
      · rintro ⟨-, hnil, -⟩
        rw [hunpushed] at hnil
        cases hnil

theorem idle_pushMarketData : x.pushMarketData.Idle ↔ x.Idle := by
  rw [pushMarketData]
  split <;> exact Iff.rfl

theorem idle_processMessage (next : DrainPosition) :
    (x.processMessage next).Idle ↔ x.Idle := by
  rw [processMessage]
  split <;> exact Iff.rfl

theorem idle_feedLoop : x.feedLoop.Idle ↔ x.Idle := by
  rw [feedLoop]
  split
  · exact Iff.rfl
  · exact idle_processMessage .head
  · exact idle_processMessage .ended
  · exact Iff.rfl

/-- **Once the thread of the server has ended**, what is on its way stays on its way: a request
becomes a response, and no response leaves the outbound queue. -/
theorem idle_step (h : Joined x) (hserver : x.server = .ended) (action : Action) :
    (x.step iterate action).Idle ↔ x.Idle := by
  cases action with
  | stop => exact idle_stop
  | generatorLoop request =>
      simp only [step, generatorLoop, h.generator_ended hserver]
  | eventLoop arrival => simp only [step, eventLoop, hserver]
  | matchingLoop =>
      rw [step]
      split
      · exact idle_matchingLoop
      · exact Iff.rfl
  | pushResponse => exact idle_pushResponse
  | pushMarketData => exact idle_pushMarketData
  | feedLoop => exact idle_feedLoop

section Server

theorem server_stop : (x.stop iterate).server = x.server := by
  simp only [stop]
  split
  · rfl
  · split <;> rfl
  · split <;> rfl
  · split <;> rfl
  · split <;> rfl
  · rfl

theorem server_generatorLoop (request : Option NewOrderRequest) :
    (x.generatorLoop request).server = x.server := by
  simp only [generatorLoop]
  split
  · rfl
  · split <;> rfl
  · rfl

theorem server_processInbound (next : DrainPosition) :
    (x.processInbound next).server = x.server := by
  rw [processInbound]
  split <;> rfl

theorem server_matchingLoop : x.matchingLoop.server = x.server := by
  rw [matchingLoop]
  split
  · rfl
  · exact server_processInbound .head
  · exact server_processInbound .ended
  · rfl

theorem server_pushResponse : x.pushResponse.server = x.server := by
  rw [pushResponse]
  split <;> rfl

theorem server_pushMarketData : x.pushMarketData.server = x.server := by
  rw [pushMarketData]
  split <;> rfl

theorem server_processMessage (next : DrainPosition) :
    (x.processMessage next).server = x.server := by
  rw [processMessage]
  split <;> rfl

theorem server_feedLoop : x.feedLoop.server = x.server := by
  rw [feedLoop]
  split
  · rfl
  · exact server_processMessage .head
  · exact server_processMessage .ended
  · rfl

/-- The thread of the server leaves its loop at its condition, when its flag is cleared. -/
theorem server_eventLoop (arrival : Arrival) (hserver : x.server ≠ .ended) :
    (x.eventLoop arrival).server = .ended ↔ x.endsServer (.eventLoop arrival) = true := by
  cases hposition : x.server with
  | head =>
      cases hrunning : x.stage.serverRunning <;>
        simp [eventLoop, endsServer, hposition, hrunning]
  | incoming => cases arrival <;> simp [eventLoop, endsServer, hposition]
  | outbound =>
      simp only [eventLoop, endsServer, hposition]
      split <;> simp
  | ended => exact absurd hposition hserver

/-- Whether the thread of the server has ended after a step. -/
theorem server_step (action : Action) :
    (x.step iterate action).server = .ended ↔ x.server = .ended ∨ x.endsServer action = true := by
  cases action with
  | stop => simp [step, server_stop, endsServer]
  | generatorLoop request => simp [step, server_generatorLoop, endsServer]
  | eventLoop arrival =>
      by_cases hserver : x.server = .ended
      · simp [step, eventLoop, hserver]
      · rw [step, server_eventLoop arrival hserver]
        exact ⟨.inr, fun h => h.resolve_left hserver⟩
  | matchingLoop =>
      rw [step]
      split <;> simp [server_matchingLoop, endsServer]
  | pushResponse => simp [step, server_pushResponse, endsServer]
  | pushMarketData => simp [step, server_pushMarketData, endsServer]
  | feedLoop => simp [step, server_feedLoop, endsServer]

end Server

/-- Leaving its loop, the thread of the server pushes nothing and pops nothing. -/
theorem idle_of_endsServer {action : Action} (h : x.endsServer action = true) :
    (x.step iterate action).Idle ↔ x.Idle := by
  cases action with
  | eventLoop arrival =>
      obtain ⟨hhead, -⟩ := Bool.and_eq_true_iff.mp h
      simp only [step, eventLoop, of_decide_eq_true hhead]
      exact Iff.rfl
  | _ => cases h

/-- **What is on its way after the thread of the server has ended** was on its way when it did. -/
theorem idle_after (h : Started x) (past : List Action) :
    ((after iterate x past).server = .ended →
      ((after iterate x past).Idle ↔ quietExit iterate x past = true)) ∧
    ((after iterate x past).server ≠ .ended → quietExit iterate x past = true) := by
  induction past with
  | nil => exact ⟨fun hended => absurd hended h.server, fun _ => rfl⟩
  | cons action past ih =>
      have hjoined : Joined (after iterate x past) := joined_after h past
      rw [after, quietExit, ne_eq, server_step]
      by_cases hserver : (after iterate x past).server = .ended
      · have hends : (after iterate x past).endsServer action = false := by
          cases action <;> simp [endsServer, hserver]
        rw [hends]
        refine ⟨fun _ => ?_, fun hne => absurd (.inl hserver) hne⟩
        refine (idle_step hjoined hserver action).trans ((ih.1 hserver).trans ?_)
        simp
      · rw [ih.2 hserver]
        cases hends : (after iterate x past).endsServer action with
        | true =>
            refine ⟨fun _ => ?_, fun hne => absurd (.inr rfl) hne⟩
            refine (idle_of_endsServer hends).trans ?_
            simp
        | false => exact ⟨fun hended => absurd hended (by simp [hserver]), fun _ => rfl⟩

/-- **When shutting down drains everything**: exactly if the thread of the server has left its loop
at a moment when no request waited for the engine and no response for the server. -/
theorem shutdown_drains_iff (h : Started x) (past : List Action)
    (hreturned : (after iterate x past).stage = .returned) :
    (after iterate x past).Drained ↔ quietExit iterate x past = true := by
  have hjoined : Joined (after iterate x past) := joined_after h past
  have hfeed := hjoined.feed hreturned
  have hengine := hjoined.engine_ended (.inr hfeed)
  have hserver := hjoined.server_ended (.inr hengine)
  obtain ⟨hinbound, hhandled⟩ := hjoined.engineDrained hengine
  rw [drained_iff, ← (idle_after h past).1 hserver]
  constructor
  · rintro ⟨-, -, -, houtbound⟩
    exact ⟨hinbound, hhandled.1, houtbound⟩
  · rintro ⟨-, -, houtbound⟩
    exact ⟨hinbound, hhandled, hjoined.feedDrained hfeed, houtbound⟩

/-! ### A request before the last response -/

/-- The request of a client to cancel an order that there is not. -/
def lateRequest : Arrival :=
  .frames [[65], [], (cancelOrderMessage 1 7).body.bytes]

/-- The threads of the engine and of the feed handler drain their queues; newest first. -/
def drainRound : List Action :=
  [.stop, .feedLoop, .feedLoop, .stop, .matchingLoop, .pushResponse, .matchingLoop,
    .matchingLoop, .stop]

/-- The request is read and answered, and its answer is sent, before `Exchange::stop` is called;
newest first. -/
def answeredRequestRun : List Action :=
  drainRound ++
    [.eventLoop lateRequest, .stop, .stop,
      .eventLoop lateRequest, .eventLoop lateRequest, .pushResponse, .matchingLoop, .matchingLoop,
      .eventLoop lateRequest, .eventLoop lateRequest]

/-- The request is read, and `Exchange::stop` is called before the engine has seen it; newest
first. -/
def lateRequestRun : List Action :=
  drainRound ++
    [.eventLoop lateRequest, .eventLoop lateRequest, .stop, .stop,
      .eventLoop lateRequest, .eventLoop lateRequest]

/-- The loop over the clients when the only client has session 1. -/
def onlyClient : UnorderedMap Identity SessionId → List SessionId :=
  fun _ => [1]

/-- A newly started exchange without a dummy generator. -/
def withoutGenerator : Components :=
  fresh [] (fun _ => 0) .ended

/-- A request is answered before the exchange is stopped. -/
theorem shutdown_drains_iff_answeredRequestRun :
    withoutGenerator.Started ∧
    (after onlyClient withoutGenerator answeredRequestRun).outbound.pushed.length = 1 ∧
    (after onlyClient withoutGenerator answeredRequestRun).Drained :=
  ⟨started_fresh [] (fun _ => 0) .ended, by decide,
    (shutdown_drains_iff (started_fresh [] (fun _ => 0) .ended) answeredRequestRun
      (by decide)).mpr (by decide)⟩

/-- **The answer to a late request stays in the outbound queue**: the thread of the server has ended
before the engine pushes it. -/
theorem not_drained_lateRequestRun :
    let x := after onlyClient withoutGenerator lateRequestRun
    withoutGenerator.Started ∧ x.stage = .returned ∧ x.inbound.popped.length = 1 ∧
      x.outbound.items.length = 1 ∧ ¬ x.Drained := by
  refine ⟨started_fresh [] (fun _ => 0) .ended, by decide, by decide, by decide, fun h => ?_⟩
  have hlength : (after onlyClient withoutGenerator lateRequestRun).outbound.items.length = 1 := by
    decide
  rw [h.empty.2.2] at hlength
  cases hlength

end Components

end ExchangeEngine
