import Mathlib.Data.List.Infix
import Mathlib.Tactic.Common

/-!
# The Life of an Exchange

`Exchange::start`, `stop` and `waitForShutdown`, and the destructor, with the calls that they make
to the components. Each component has a flag `running_` and a thread; the feed handler owns the
socket of the multicast as well, and the server a ZeroMQ context and its socket. To assign a thread
to a `std::thread` that is still joinable, or to destroy one, terminates the process; to destroy a
context waits for its socket to be closed, for ever if nobody closes it.

`ZmqServer::start` leaves context and socket as they are if it fails, and `ZmqServer::stop` does
nothing then. So after a start whose bind failed the next start that makes a context waits for ever,
as it destroys the context that is left while the socket of this one is open.

The components are started from the consumer to the producer, and stopped the other way round. The
log of launched and joined threads, newest first, shows it in every state on the way: no thread
ever runs without the one that takes its messages.

## Main results

* `lifecycle_sound`: in every sequence of calls, whatever fails to start, the process is never
  terminated, the components run together or not at all, and every thread outlives the threads whose
  requests or market data it takes; and the only call that does not return is a start after one whose
  bind failed.
-/

namespace ExchangeEngine

/-- The components of the exchange, in the order in which they are launched. -/
inductive ComponentName
  | feedHandler
  | matchingEngine
  | zmqServer
  | dummyGenerator
  deriving DecidableEq, Repr

/-- The flag `running_` of a component, and whether its thread is joinable. -/
structure Component where
  running : Bool
  joinable : Bool
  deriving DecidableEq, Repr

/-- A component that has not been started, or has been stopped. -/
def Component.idle : Component :=
  ⟨false, false⟩

/-- A component that has been started. -/
def Component.active : Component :=
  ⟨true, true⟩

/-- What happens to the thread of a component. -/
inductive ThreadEvent
  | launched (name : ComponentName)
  | joined (name : ComponentName)
  deriving DecidableEq, Repr

/-- How `UdpMulticast::initialize` comes out: `socket` fails, the `setsockopt` for the time to live
fails, or neither. -/
inductive Initialization
  | noSocket
  | noTtl
  | initialized
  deriving DecidableEq, Repr

/-- How the set-up of the server comes out: the context is not made, its socket is not made, an
option of the socket or the bind fails, or nothing fails. -/
inductive ServerSetup
  | noContext
  | noSocket
  | noBind
  | bound
  deriving DecidableEq, Repr

/-- Why a call does not return: it terminates the process, or it waits for ever. -/
inductive Halt
  | terminated
  | blocked
  deriving DecidableEq, Repr

/-- What starting and stopping reads and writes. `openSockets` counts the sockets that the process
has open for the multicast, and `socketFd` says whether the publisher refers to one. `context` and
`socket` say whether the server has the one and the other; its socket is one of its context. -/
structure Lifecycle where
  running : Bool
  shutdownRequested : Bool
  enableDummyGenerator : Bool
  components : ComponentName → Component
  socketFd : Bool
  openSockets : ℕ
  context : Bool
  socket : Bool
  log : List ThreadEvent

namespace Lifecycle

/-- A newly constructed exchange. -/
def fresh (enableDummyGenerator : Bool) : Lifecycle where
  running := false
  shutdownRequested := false
  enableDummyGenerator
  components := fun _ => .idle
  socketFd := false
  openSockets := 0
  context := false
  socket := false
  log := []

/-- The exchange with another state of one component. -/
def setComponent (x : Lifecycle) (name : ComponentName) (c : Component) : Lifecycle :=
  { x with components := Function.update x.components name c }

/-! ### The components -/

/-- `UdpMulticast::initialize`. -/
def initializeMulticast (x : Lifecycle) : Initialization → Bool × Lifecycle
  | .noSocket => (false, { x with socketFd := false })
  | .noTtl => (false, { x with socketFd := false })
  | .initialized => (true, { x with socketFd := true, openSockets := x.openSockets + 1 })

/-- `UdpMulticast::shutdown`. -/
def shutdown (x : Lifecycle) : Lifecycle :=
  if x.socketFd then { x with socketFd := false, openSockets := x.openSockets - 1 } else x

/-- Make a new context and put it in the place of the one that is left, which is destroyed. -/
def replaceContext (x : Lifecycle) : Except Halt Lifecycle :=
  if x.context && x.socket then .error .blocked else .ok { x with context := true }

/-- What `ZmqServer::start` does before it launches its thread. -/
def setUpServer (x : Lifecycle) : ServerSetup → Except Halt (Bool × Lifecycle)
  | .noContext => return (false, x)
  | .noSocket => do
      let x ← x.replaceContext
      return (false, x)
  | .noBind => do
      let x ← x.replaceContext
      return (false, { x with socket := true })
  | .bound => do
      let x ← x.replaceContext
      return (true, { x with socket := true })

/-- Close the socket of the server, and then its context. -/
def releaseServer (x : Lifecycle) : Lifecycle :=
  { x with socket := false, context := false }

/-- Assign a new thread to the thread of a component. -/
def launch (x : Lifecycle) (name : ComponentName) : Except Halt Lifecycle :=
  if (x.components name).joinable then .error .terminated
  else .ok { x.setComponent name .active with log := .launched name :: x.log }

/-- The `start` of a component, where `prepare` is what it does between setting its flag and
launching its thread. -/
def startComponent (x : Lifecycle) (name : ComponentName)
    (prepare : Lifecycle → Except Halt (Bool × Lifecycle)) : Except Halt (Bool × Lifecycle) := do
  if (x.components name).running then return (false, x)
  let x := x.setComponent name { x.components name with running := true }
  let (ready, x) ← prepare x
  if ready then
    let x ← x.launch name
    return (true, x)
  else return (false, x.setComponent name { x.components name with running := false })

/-- The `stop` of a component, where `cleanup` is what it does after joining its thread. -/
def stopComponent (x : Lifecycle) (name : ComponentName) (cleanup : Lifecycle → Lifecycle) :
    Lifecycle :=
  if (x.components name).running then
    let x := x.setComponent name { x.components name with running := false }
    let x :=
      if (x.components name).joinable then
        { x.setComponent name .idle with log := .joined name :: x.log }
      else x
    cleanup x
  else x

/-- `FeedHandler::start`, which sets up multicast before it launches its thread. -/
def startFeedHandler (x : Lifecycle) (initialization : Initialization) :
    Except Halt (Bool × Lifecycle) :=
  x.startComponent .feedHandler fun x => .ok (x.initializeMulticast initialization)

/-- `FeedHandler::stop`, which shuts multicast down when its thread has been joined. -/
def stopFeedHandler (x : Lifecycle) : Lifecycle :=
  x.stopComponent .feedHandler shutdown

/-- `MatchingEngine::start`, which can only fail if the engine runs already. -/
def startMatchingEngine (x : Lifecycle) : Except Halt (Bool × Lifecycle) :=
  x.startComponent .matchingEngine fun x => .ok (true, x)

/-- `MatchingEngine::stop`. -/
def stopMatchingEngine (x : Lifecycle) : Lifecycle :=
  x.stopComponent .matchingEngine id

/-- `ZmqServer::start`, which makes a context and a socket and binds it. A failure at the bind
leaves both open. -/
def startZmqServer (x : Lifecycle) (setup : ServerSetup) : Except Halt (Bool × Lifecycle) :=
  x.startComponent .zmqServer fun x => x.setUpServer setup

/-- `ZmqServer::stop`, which closes the socket when its thread has been joined. -/
def stopZmqServer (x : Lifecycle) : Lifecycle :=
  x.stopComponent .zmqServer releaseServer

/-- `DummyGenerator::start`, which can only fail if the generator runs already. -/
def startDummyGenerator (x : Lifecycle) : Except Halt (Bool × Lifecycle) :=
  x.startComponent .dummyGenerator fun x => .ok (true, x)

/-- `DummyGenerator::stop`. -/
def stopDummyGenerator (x : Lifecycle) : Lifecycle :=
  x.stopComponent .dummyGenerator id

/-! ### The exchange -/

/-- `Exchange::start`. What was started is stopped again if a later component does not start; the
generator need not start. -/
def start (x : Lifecycle) (initialization : Initialization) (setup : ServerSetup) :
    Except Halt (Bool × Lifecycle) := do
  if x.running then return (false, x)
  -- setupSignalHandlers
  let x := { x with running := true, shutdownRequested := false }
  let (started, x) ← x.startFeedHandler initialization
  if !started then return (false, { x with running := false })
  let (started, x) ← x.startMatchingEngine
  if !started then return (false, { x.stopFeedHandler with running := false })
  let (started, x) ← x.startZmqServer setup
  if !started then
    return (false, { x.stopMatchingEngine.stopFeedHandler with running := false })
  if x.enableDummyGenerator then
    let (_, x) ← x.startDummyGenerator
    return (true, x)
  return (true, x)

/-- `Exchange::stop`. -/
def stop (x : Lifecycle) : Lifecycle :=
  if x.running then
    let x := { x with running := false }
    let x := if x.enableDummyGenerator then x.stopDummyGenerator else x
    x.stopZmqServer.stopMatchingEngine.stopFeedHandler
  else x

/-- `Exchange::signalHandler`, for SIGINT and SIGTERM. -/
def signalHandler (x : Lifecycle) : Lifecycle :=
  { x with shutdownRequested := true }

/-- One look of `waitForShutdown` at its condition, and whether it returns. -/
def waitForShutdown (x : Lifecycle) : Bool × Lifecycle :=
  if x.running ∧ x.shutdownRequested = false then (false, x)
  else if x.shutdownRequested then (true, x.stop)
  else (true, x)

/-- Destroy a component: stop it, and destroy its thread. -/
def destroyComponent (x : Lifecycle) (name : ComponentName)
    (cleanup : Lifecycle → Lifecycle) : Except Halt Lifecycle :=
  let x := x.stopComponent name cleanup
  if (x.components name).joinable then .error .terminated else .ok x

/-- `Exchange::~Exchange`, and the destructors of its members, the last one first. So the socket of
the server is closed before its context. -/
def destroy (x : Lifecycle) : Except Halt Lifecycle := do
  let x := x.stop
  let x ← if x.enableDummyGenerator then x.destroyComponent .dummyGenerator id else .ok x
  let x ← x.destroyComponent .feedHandler shutdown
  let x ← x.destroyComponent .matchingEngine id
  let x ← x.destroyComponent .zmqServer releaseServer
  return x.releaseServer

/-- The calls that are made to an exchange, and the signals. -/
inductive Call
  | start (initialization : Initialization) (setup : ServerSetup)
  | stop
  | signal
  | waitForShutdown
  deriving DecidableEq, Repr

/-- The effect of a call, if it returns. -/
def call (x : Lifecycle) : Call → Except Halt Lifecycle
  | .start initialization setup => (x.start initialization setup).map Prod.snd
  | .stop => .ok x.stop
  | .signal => .ok x.signalHandler
  | .waitForShutdown => .ok x.waitForShutdown.2

/-- The exchange after a history of calls, newest first, if they have all returned. -/
def after (enableDummyGenerator : Bool) : List Call → Except Halt Lifecycle
  | [] => .ok (fresh enableDummyGenerator)
  | c :: past => do
      let x ← after enableDummyGenerator past
      x.call c

/-- A start whose bind failed leaves a socket that no later call closes. -/
example : after true [.start .initialized .bound, .stop, .start .initialized .noBind] =
    .error .blocked := rfl

/-! ### Which threads run -/

/-- Whether the thread of a component runs after a log. -/
def alive (name : ComponentName) : List ThreadEvent → Bool
  | [] => false
  | .launched name' :: past => decide (name' = name) || alive name past
  | .joined name' :: past => decide (name' ≠ name) && alive name past

/-- **Requests and market data are taken**: when a thread runs that pushes to the inbound queue,
the engine runs, and when the engine runs, the feed handler does. Responses are not: the server
starts after the engine, and stops before it. -/
structure Served (log : List ThreadEvent) : Prop where
  generator : alive .dummyGenerator log = true → alive .matchingEngine log = true
  server : alive .zmqServer log = true → alive .matchingEngine log = true
  engine : alive .matchingEngine log = true → alive .feedHandler log = true

end Lifecycle

/-- The place of a component in the order in which they are started. -/
def ComponentName.rank : ComponentName → ℕ
  | .feedHandler => 0
  | .matchingEngine => 1
  | .zmqServer => 2
  | .dummyGenerator => 3

theorem ComponentName.rank_injective {name name' : ComponentName} (h : name.rank = name'.rank) :
    name = name' := by
  cases name <;> cases name' <;> first | rfl | cases h

namespace Lifecycle

/-- **The first `k` components run**, in the order in which they are started, and the others do
not; and so it was, for other numbers, in every state before. -/
structure Phase (x : Lifecycle) (k : ℕ) : Prop where
  components : ∀ name, x.components name = if name.rank < k then .active else .idle
  socketFd : x.socketFd = decide (0 < k)
  openSockets : x.openSockets = if 0 < k then 1 else 0
  threads : ∀ name, alive name x.log = decide (name.rank < k)
  served : ∀ past, past <:+ x.log → Served past

/-- What starting and stopping components leaves alone, but for what the server does with its
context and its socket. -/
structure SameFlags (x y : Lifecycle) : Prop where
  running : y.running = x.running
  shutdownRequested : y.shutdownRequested = x.shutdownRequested
  enableDummyGenerator : y.enableDummyGenerator = x.enableDummyGenerator
  context : y.context = x.context
  socket : y.socket = x.socket

theorem SameFlags.trans {x y z : Lifecycle} (h : SameFlags x y) (h' : SameFlags y z) :
    SameFlags x z :=
  ⟨h'.running.trans h.running, h'.shutdownRequested.trans h.shutdownRequested,
    h'.enableDummyGenerator.trans h.enableDummyGenerator, h'.context.trans h.context,
    h'.socket.trans h.socket⟩

variable {x y : Lifecycle} {k : ℕ} {name : ComponentName}

/-- In a phase the threads that run are served. -/
theorem served_of_threads {log : List ThreadEvent}
    (h : ∀ name, alive name log = decide (name.rank < k)) : Served log := by
  have hrank : ∀ name : ComponentName, alive name log = true ↔ name.rank < k := fun name => by
    rw [h name, decide_eq_true_eq]
  refine ⟨?_, ?_, ?_⟩ <;> rw [hrank, hrank] <;> simp only [ComponentName.rank] <;> omega

/-- The phases do not look at the flags of the exchange. -/
theorem Phase.of_eq (h : Phase x k) (hcomponents : y.components = x.components)
    (hsocket : y.socketFd = x.socketFd) (hopen : y.openSockets = x.openSockets)
    (hlog : y.log = x.log) : Phase y k :=
  ⟨fun name => by rw [hcomponents, h.components], hsocket.trans h.socketFd,
    hopen.trans h.openSockets, fun name => by rw [hlog, h.threads], hlog ▸ h.served⟩

/-- **Launching the next thread** begins the next phase. -/
theorem Phase.launched (h : Phase x k) (hrank : name.rank = k)
    (hcomponents : y.components = Function.update x.components name .active)
    (hsocket : y.socketFd = true) (hopen : y.openSockets = 1)
    (hlog : y.log = .launched name :: x.log) : Phase y (k + 1) := by
  have hlt : ∀ other : ComponentName, other ≠ name → (other.rank < k + 1 ↔ other.rank < k) := by
    intro other hne
    have : other.rank ≠ k := fun heq => hne (ComponentName.rank_injective (heq.trans hrank.symm))
    omega
  have hthreads : ∀ other, alive other y.log = decide (other.rank < k + 1) := by
    intro other
    rw [hlog, alive, h.threads]
    by_cases heq : name = other
    · have : other.rank < k + 1 := by rw [← heq]; omega
      simp [heq, this]
    · simp [heq, hlt other (Ne.symm heq)]
  refine ⟨fun other => ?_, by simp [hsocket], by simp [hopen], hthreads, fun past hpast => ?_⟩
  · rw [hcomponents]
    by_cases heq : other = name
    · have : other.rank < k + 1 := by rw [heq]; omega
      rw [heq, Function.update_self, if_pos (heq ▸ this)]
    · rw [Function.update_of_ne heq, h.components]
      simp only [hlt other heq]
  · rw [hlog] at hpast
    rcases List.suffix_cons_iff.mp hpast with rfl | hpast
    · exact served_of_threads (hlog ▸ hthreads)
    · exact h.served past hpast

/-- **Joining the last thread** goes back to the phase before. -/
theorem Phase.joined (h : Phase x (k + 1)) (hrank : name.rank = k)
    (hcomponents : y.components = Function.update x.components name .idle)
    (hsocket : y.socketFd = decide (0 < k)) (hopen : y.openSockets = if 0 < k then 1 else 0)
    (hlog : y.log = .joined name :: x.log) : Phase y k := by
  have hlt : ∀ other : ComponentName, other ≠ name → (other.rank < k + 1 ↔ other.rank < k) := by
    intro other hne
    have : other.rank ≠ k := fun heq => hne (ComponentName.rank_injective (heq.trans hrank.symm))
    omega
  have hthreads : ∀ other, alive other y.log = decide (other.rank < k) := by
    intro other
    rw [hlog, alive, h.threads]
    by_cases heq : name = other
    · have : ¬ other.rank < k := by rw [← heq]; omega
      simp [heq, this]
    · simp [heq, hlt other (Ne.symm heq)]
  refine ⟨fun other => ?_, hsocket, hopen, hthreads, fun past hpast => ?_⟩
  · rw [hcomponents]
    by_cases heq : other = name
    · have : ¬ other.rank < k := by rw [heq]; omega
      rw [heq, Function.update_self, if_neg (heq ▸ this)]
    · rw [Function.update_of_ne heq, h.components]
      simp only [hlt other heq]
  · rw [hlog] at hpast
    rcases List.suffix_cons_iff.mp hpast with rfl | hpast
    · exact served_of_threads (hlog ▸ hthreads)
    · exact h.served past hpast

/-! ### Starting and stopping one component -/

section Start

variable {prepare : Lifecycle → Except Halt (Bool × Lifecycle)}

/-- A component that is idle starts if its preparation comes out well. -/
theorem startComponent_of_ready (hidle : x.components name = .idle)
    (hprepare : prepare (x.setComponent name ⟨true, false⟩) = .ok (true, y))
    (hkeep : y.components name = ⟨true, false⟩) :
    x.startComponent name prepare =
      .ok (true, { y.setComponent name .active with log := .launched name :: y.log }) := by
  simp only [startComponent, hidle, Component.idle, hprepare, launch, hkeep, Bool.false_eq_true,
    if_false, if_true, bind, Except.bind, pure, Except.pure]

/-- It stays idle if not. -/
theorem startComponent_of_unready (hidle : x.components name = .idle)
    (hprepare : prepare (x.setComponent name ⟨true, false⟩) = .ok (false, y))
    (hkeep : y.components name = ⟨true, false⟩) :
    x.startComponent name prepare = .ok (false, y.setComponent name .idle) := by
  simp only [startComponent, hidle, Component.idle, hprepare, hkeep, Bool.false_eq_true, if_false,
    bind, Except.bind, pure, Except.pure]

/-- It waits for ever if its preparation does. -/
theorem startComponent_of_blocked (hidle : x.components name = .idle)
    (hprepare : prepare (x.setComponent name ⟨true, false⟩) = .error .blocked) :
    x.startComponent name prepare = .error .blocked := by
  simp only [startComponent, hidle, Component.idle, hprepare, Bool.false_eq_true, if_false, bind,
    Except.bind]

/-- To set a component and take it back changes nothing. -/
theorem update_back (hidle : x.components name = .idle) (c : Component) :
    Function.update (Function.update x.components name c) name .idle = x.components := by
  rw [Function.update_idem, ← hidle, Function.update_eq_self]

/-- **Starting the next component**, which may change the server's context and socket. -/
theorem Phase.startComponent (h : Phase x (k + 1)) (name : ComponentName)
    (hrank : name.rank = k + 1) (prepare : Lifecycle → Except Halt (Bool × Lifecycle))
    (ready context socket : Bool)
    (hprepare : prepare (x.setComponent name ⟨true, false⟩) =
      .ok (ready, { x.setComponent name ⟨true, false⟩ with context, socket })) :
    ∃ y, x.startComponent name prepare = .ok (ready, y) ∧
      Phase y (if ready then k + 2 else k + 1) ∧ SameFlags { x with context, socket } y := by
  have hidle : x.components name = .idle := by
    rw [h.components, if_neg (by omega)]
  have hopen : x.openSockets = 1 := by simp [h.openSockets]
  have hsocket : x.socketFd = true := by simp [h.socketFd]
  cases ready with
  | true =>
      refine ⟨_, startComponent_of_ready hidle hprepare (Function.update_self ..), ?_, rfl, rfl,
        rfl, rfl, rfl⟩
      exact h.launched hrank (Function.update_idem ..) hsocket hopen rfl
  | false =>
      refine ⟨_, startComponent_of_unready hidle hprepare (Function.update_self ..), ?_, rfl, rfl,
        rfl, rfl, rfl⟩
      exact h.of_eq (update_back hidle _) rfl rfl rfl

/-- **Starting the feed handler** opens the socket. -/
theorem Phase.startFeedHandler (h : Phase x 0) (initialization : Initialization) :
    ∃ y, x.startFeedHandler initialization =
        .ok (decide (initialization = .initialized), y) ∧
      Phase y (if initialization = .initialized then 1 else 0) ∧ SameFlags x y := by
  have hidle : x.components .feedHandler = .idle := h.components .feedHandler
  have hopen : x.openSockets = 0 := h.openSockets
  have hsocket : x.socketFd = false := h.socketFd
  have hkeep : Function.update x.components .feedHandler ⟨true, false⟩ .feedHandler =
      ⟨true, false⟩ := Function.update_self ..
  cases initialization with
  | initialized =>
      refine ⟨_, startComponent_of_ready hidle rfl hkeep, ?_, rfl, rfl, rfl, rfl, rfl⟩
      exact h.launched rfl (Function.update_idem ..) rfl (congrArg (· + 1) hopen) rfl
  | noSocket =>
      refine ⟨_, startComponent_of_unready hidle rfl hkeep, ?_, rfl, rfl, rfl, rfl, rfl⟩
      exact h.of_eq (update_back hidle _) hsocket.symm rfl rfl
  | noTtl =>
      refine ⟨_, startComponent_of_unready hidle rfl hkeep, ?_, rfl, rfl, rfl, rfl, rfl⟩
      exact h.of_eq (update_back hidle _) hsocket.symm rfl rfl

end Start

/-! What the set-up of the server does -/

/-- A context that is made finds a socket that is left of the context before. -/
theorem setUpServer_of_left (hcontext : x.context = true) (hsocket : x.socket = true)
    {setup : ServerSetup} (hsetup : setup ≠ .noContext) :
    x.setUpServer setup = .error .blocked := by
  have hblocked : x.replaceContext = .error .blocked := by
    simp only [replaceContext, hcontext, hsocket, Bool.and_self, if_true]
  cases setup with
  | noContext => exact absurd rfl hsetup
  | _ => simp only [setUpServer, hblocked, bind, Except.bind]

/-- Without one, the server keeps what could be made. -/
theorem setUpServer_of_clean (hsocket : x.socket = false) (setup : ServerSetup) :
    x.setUpServer setup = .ok (decide (setup = .bound),
      { x with
        context := x.context || decide (setup ≠ .noContext)
        socket := decide (setup = .noBind ∨ setup = .bound) }) := by
  have hreplaced : x.replaceContext = .ok { x with context := true } := by
    simp only [replaceContext, hsocket, Bool.and_false, Bool.false_eq_true, if_false]
  have hsame : { x with socket := false } = x := by rw [← hsocket]
  cases setup with
  | noContext =>
      simp only [setUpServer, pure, Except.pure]
      simp [hsame]
  | noSocket =>
      simp only [setUpServer, hreplaced, bind, Except.bind, pure, Except.pure]
      simp [← hsocket]
  | noBind =>
      simp only [setUpServer, hreplaced, bind, Except.bind, pure, Except.pure]
      simp
  | bound =>
      simp only [setUpServer, hreplaced, bind, Except.bind, pure, Except.pure]
      simp

/-- Stopping the last component that runs, where the clean-up leaves the phase. -/
theorem Phase.stopComponent (h : Phase x (k + 2)) (name : ComponentName)
    (hrank : name.rank = k + 1) (cleanup : Lifecycle → Lifecycle) (context socket : Bool)
    (hcleanup : ∀ z : Lifecycle, z.context = x.context → z.socket = x.socket →
      cleanup z = { z with context, socket }) :
    Phase (x.stopComponent name cleanup) (k + 1) ∧
      SameFlags { x with context, socket } (x.stopComponent name cleanup) := by
  have hactive : x.components name = .active := by
    rw [h.components, if_pos (by omega)]
  have hopen : x.openSockets = 1 := by simp [h.openSockets]
  have hsocket : x.socketFd = true := by simp [h.socketFd]
  have hstop : x.stopComponent name cleanup =
      { x.setComponent name .idle with log := .joined name :: x.log, context, socket } := by
    simp only [Lifecycle.stopComponent, hactive, Component.active, if_true, setComponent,
      Function.update_self, Function.update_idem]
    exact hcleanup _ rfl rfl
  rw [hstop]
  exact ⟨h.joined hrank rfl (by simp [setComponent, hsocket]) (by simp [setComponent, hopen]) rfl,
    rfl, rfl, rfl, rfl, rfl⟩

/-- Stopping a component without a clean-up. -/
theorem Phase.stopComponent_id (h : Phase x (k + 2)) (name : ComponentName)
    (hrank : name.rank = k + 1) :
    Phase (x.stopComponent name id) (k + 1) ∧ SameFlags x (x.stopComponent name id) := by
  refine h.stopComponent name hrank id x.context x.socket fun z hcontext hsocket => ?_
  rw [← hcontext, ← hsocket]
  rfl

/-- Stopping the feed handler closes the socket. -/
theorem Phase.stopFeedHandler (h : Phase x 1) :
    Phase x.stopFeedHandler 0 ∧ SameFlags x x.stopFeedHandler := by
  have hactive : x.components .feedHandler = .active := h.components .feedHandler
  have hopen : x.openSockets = 1 := h.openSockets
  have hsocket : x.socketFd = true := h.socketFd
  have hstop : x.stopFeedHandler =
      { x.setComponent .feedHandler .idle with
        log := .joined .feedHandler :: x.log, socketFd := false,
        openSockets := x.openSockets - 1 } := by
    simp only [Lifecycle.stopFeedHandler, Lifecycle.stopComponent, hactive, Component.active,
      if_true, setComponent, Function.update_self, Function.update_idem, shutdown, hsocket]
  rw [hstop]
  exact ⟨h.joined rfl rfl rfl (congrArg (· - 1) hopen) rfl, rfl, rfl, rfl, rfl, rfl⟩

/-- A component that does not run is stopped without effect. -/
theorem Phase.stop_idle (h : Phase x k) (hrank : k ≤ name.rank)
    (cleanup : Lifecycle → Lifecycle) : x.stopComponent name cleanup = x := by
  have hidle : x.components name = .idle := by
    rw [h.components, if_neg (by omega)]
  simp [Lifecycle.stopComponent, hidle, Component.idle]

/-! ### Calls -/

/-- The number of components that run when the exchange does. -/
def componentCount (x : Lifecycle) : ℕ :=
  if x.running then if x.enableDummyGenerator then 4 else 3 else 0

/-- **The components run together** with the exchange, or not at all. While it runs, the server has
its socket; a socket that the server has while the exchange does not run is left of a bind that
failed. -/
structure Settled (x : Lifecycle) : Prop where
  phase : Phase x x.componentCount
  server : x.running = true → x.socket = true
  context : x.socket = true → x.context = true

/-- Whether the server has a socket while the exchange does not run. -/
def leftSocket (x : Lifecycle) : Bool :=
  !x.running && x.socket

theorem settled_of_stopped (h : Phase x 0) (hrunning : y.running = false)
    (hcontext : y.socket = true → y.context = true)
    (hcomponents : y.components = x.components) (hsocket : y.socketFd = x.socketFd)
    (hopen : y.openSockets = x.openSockets) (hlog : y.log = x.log) : Settled y := by
  refine ⟨?_, fun hruns => ?_, hcontext⟩
  · rw [componentCount, hrunning]
    exact h.of_eq hcomponents hsocket hopen hlog
  · rw [hrunning] at hruns
    cases hruns

/-- Whether a start waits for ever: it makes a context, and a socket of the one before is left. -/
def blocks (x : Lifecycle) (initialization : Initialization) (setup : ServerSetup) : Bool :=
  x.leftSocket && decide (initialization = .initialized) && decide (setup ≠ .noContext)

/-- Whether a start succeeds, if it does not wait for ever. -/
def starts (x : Lifecycle) (initialization : Initialization) (setup : ServerSetup) : Bool :=
  !x.running && decide (initialization = .initialized) && decide (setup = .bound)

/-- Whether a start leaves a socket, if it does not wait for ever. -/
def failsToBind (x : Lifecycle) (initialization : Initialization) (setup : ServerSetup) : Bool :=
  !x.running && decide (initialization = .initialized) && decide (setup = .noBind)

/-- **The threads that the server serves run** when it is started. -/
theorem exists_engine (h : Settled x) (hrunning : x.running = false) :
    ∃ feed engine, { x with running := true, shutdownRequested := false }.startFeedHandler
        .initialized = .ok (true, feed) ∧
      feed.startMatchingEngine = .ok (true, engine) ∧ Phase engine 2 ∧
      SameFlags { x with running := true, shutdownRequested := false } engine := by
  have hphase : Phase { x with running := true, shutdownRequested := false } 0 := by
    have hstopped := h.phase
    rw [componentCount, hrunning] at hstopped
    exact hstopped.of_eq rfl rfl rfl rfl
  obtain ⟨feed, hfeed, hfeedPhase, hfeedSame⟩ := hphase.startFeedHandler .initialized
  obtain ⟨engine, hengine, henginePhase, hengineSame⟩ :=
    hfeedPhase.startComponent .matchingEngine rfl (fun x => .ok (true, x)) true feed.context
      feed.socket rfl
  exact ⟨feed, engine, hfeed, hengine, henginePhase, hfeedSame.trans hengineSame⟩

/-- **A start that makes a context waits for ever** if a socket of the one before is left. -/
theorem start_of_blocks (h : Settled x) {initialization : Initialization} {setup : ServerSetup}
    (hblocks : x.blocks initialization setup = true) :
    x.start initialization setup = .error .blocked := by
  simp only [blocks, leftSocket, Bool.and_eq_true, Bool.not_eq_true', decide_eq_true_eq] at hblocks
  obtain ⟨⟨⟨hrunning, hsocket⟩, rfl⟩, hsetup⟩ := hblocks
  obtain ⟨feed, engine, hfeed, hengine, hphase, hsame⟩ := exists_engine h hrunning
  have hidle : engine.components .zmqServer = .idle := hphase.components .zmqServer
  have hserver : engine.startZmqServer setup = .error .blocked := by
    refine startComponent_of_blocked hidle (setUpServer_of_left ?_ ?_ hsetup)
    · exact hsame.context.trans (h.context hsocket)
    · exact hsame.socket.trans hsocket
  simp [start, hrunning, hfeed, hengine, hserver, bind, Except.bind]

/-- **What a start that returns does.** -/
structure Started (x : Lifecycle) (initialization : Initialization) (setup : ServerSetup)
    (y : Lifecycle) : Prop where
  start : x.start initialization setup = .ok (x.starts initialization setup, y)
  settled : Settled y
  enableDummyGenerator : y.enableDummyGenerator = x.enableDummyGenerator
  running : y.running = (x.running || x.starts initialization setup)
  leftSocket : y.leftSocket = (x.leftSocket || x.failsToBind initialization setup)

/-- A server that does not start: the engine and the feed handler are rolled back. -/
theorem started_of_rollback {feed engine server : Lifecycle} {setup : ServerSetup}
    (hrunning : x.running = false)
    (hfeed : { x with running := true, shutdownRequested := false }.startFeedHandler
      .initialized = .ok (true, feed))
    (hengine : feed.startMatchingEngine = .ok (true, engine))
    (hserver : engine.startZmqServer setup = .ok (false, server)) (hsetup : setup ≠ .bound)
    (hphase : Phase server 2) (henable : server.enableDummyGenerator = x.enableDummyGenerator)
    (hcontext : server.socket = true → server.context = true)
    (hsocket : server.socket = (x.socket || decide (setup = .noBind))) :
    ∃ y, Started x .initialized setup y := by
  obtain ⟨hback, hbackSame⟩ := hphase.stopComponent_id .matchingEngine rfl
  obtain ⟨hdown, hdownSame⟩ := Phase.stopFeedHandler hback
  have hsame := hbackSame.trans hdownSame
  refine ⟨{ server.stopMatchingEngine.stopFeedHandler with running := false }, ?_, ?_, ?_, ?_, ?_⟩
  · simp [Lifecycle.start, starts, hrunning, hfeed, hengine, hserver, hsetup, bind, Except.bind,
      pure, Except.pure]
  · refine settled_of_stopped hdown rfl (fun hleft => ?_) rfl rfl rfl rfl
    exact hsame.context.trans (hcontext (hsame.socket.symm.trans hleft))
  · exact hsame.enableDummyGenerator.trans henable
  · simp [starts, hrunning, hsetup]
  · have hleft : (server.stopMatchingEngine.stopFeedHandler).socket = server.socket := hsame.socket
    simp [leftSocket, failsToBind, hrunning, hleft, hsocket]

/-- **Starting** an exchange starts all components, or leaves none running, if it does not wait for
ever. -/
theorem start_spec (h : Settled x) {initialization : Initialization} {setup : ServerSetup}
    (hblocks : x.blocks initialization setup = false) :
    ∃ y, Started x initialization setup y := by
  cases hrunning : x.running with
  | true =>
      refine ⟨x, ?_, h, rfl, ?_, ?_⟩
      · simp [start, starts, hrunning, pure, Except.pure]
      · simp [hrunning]
      · simp [failsToBind, hrunning]
  | false =>
      by_cases hinitialized : initialization = .initialized
      · subst hinitialized
        obtain ⟨feed, engine, hfeed, hengine, hphase, hsame⟩ := exists_engine h hrunning
        have hidle : engine.components .zmqServer = .idle := hphase.components .zmqServer
        have hsocket : engine.socket = x.socket := hsame.socket
        by_cases hleft : x.socket = true
        · -- a socket is left, and no context is made
          have hsetup : setup = .noContext := by
            simpa [blocks, leftSocket, hrunning, hleft] using hblocks
          subst hsetup
          obtain ⟨server, hserver, hserverPhase, hserverSame⟩ := hphase.startComponent .zmqServer
            rfl (fun x => x.setUpServer .noContext) false engine.context engine.socket rfl
          have hall := hsame.trans hserverSame
          refine started_of_rollback hrunning hfeed hengine hserver nofun hserverPhase
            hall.enableDummyGenerator (fun _ => hall.context.trans (h.context hleft)) ?_
          simp [hall.socket]
        · rw [Bool.not_eq_true] at hleft
          have hclean := setUpServer_of_clean (x := engine.setComponent .zmqServer ⟨true, false⟩)
            (hsocket.trans hleft) setup
          obtain ⟨server, hserver, hserverPhase, hserverSame⟩ :=
            hphase.startComponent .zmqServer rfl (fun x => x.setUpServer setup) _ _ _ hclean
          have henable : server.enableDummyGenerator = x.enableDummyGenerator :=
            hserverSame.enableDummyGenerator.trans hsame.enableDummyGenerator
          have hserverSocket := hserverSame.socket
          have hserverContext := hserverSame.context
          by_cases hsetup : setup = .bound
          · subst hsetup
            cases hgenerator : x.enableDummyGenerator with
            | true =>
                rw [hgenerator] at henable
                obtain ⟨generator, hstarted, hgeneratorPhase, hgeneratorSame⟩ :=
                  hserverPhase.startComponent .dummyGenerator rfl (fun x => .ok (true, x)) true
                    server.context server.socket rfl
                have hruns : generator.running = true :=
                  hgeneratorSame.running.trans (hserverSame.running.trans hsame.running)
                refine ⟨generator, ?_, ⟨?_, fun _ => ?_, fun _ => ?_⟩, ?_, ?_, ?_⟩
                · simp [Lifecycle.start, starts, hrunning, hfeed, hengine, startZmqServer, hserver,
                    startDummyGenerator, hstarted, henable, bind, Except.bind, pure, Except.pure]
                · rw [componentCount, hruns, hgeneratorSame.enableDummyGenerator]
                  simp only [henable, if_true]
                  exact hgeneratorPhase
                · exact hgeneratorSame.socket.trans (by simp [hserverSocket])
                · exact hgeneratorSame.context.trans (by simp [hserverContext])
                · exact hgeneratorSame.enableDummyGenerator.trans (henable.trans hgenerator.symm)
                · simp [hruns, starts, hrunning]
                · simp [leftSocket, failsToBind, hruns, hleft]
            | false =>
                rw [hgenerator] at henable
                have hruns : server.running = true := hserverSame.running.trans hsame.running
                refine ⟨server, ?_, ⟨?_, fun _ => ?_, fun _ => ?_⟩, ?_, ?_, ?_⟩
                · simp [Lifecycle.start, starts, hrunning, hfeed, hengine, startZmqServer, hserver,
                    henable, bind, Except.bind, pure, Except.pure]
                · rw [componentCount, hruns, henable]
                  exact hserverPhase
                · simp [hserverSocket]
                · simp [hserverContext]
                · exact henable.trans hgenerator.symm
                · simp [hruns, starts, hrunning]
                · simp [leftSocket, failsToBind, hruns, hleft]
          · rw [decide_eq_false hsetup] at hserver hserverPhase
            refine started_of_rollback hrunning hfeed hengine hserver hsetup hserverPhase henable
              (fun hopen => ?_) ?_
            · rw [hserverSocket] at hopen
              simp only [decide_eq_true_eq] at hopen
              rw [hserverContext]
              rcases hopen with rfl | rfl <;> simp
            · simp [hserverSocket, hleft, hsetup]
      · have hphase : Phase { x with running := true, shutdownRequested := false } 0 := by
          have hstopped := h.phase
          rw [componentCount, hrunning] at hstopped
          exact hstopped.of_eq rfl rfl rfl rfl
        obtain ⟨feed, hfeed, hfeedPhase, hfeedSame⟩ := hphase.startFeedHandler initialization
        rw [if_neg hinitialized] at hfeedPhase
        refine ⟨{ feed with running := false }, ?_, settled_of_stopped hfeedPhase rfl
          (fun hleft => ?_) rfl rfl rfl rfl, hfeedSame.enableDummyGenerator, ?_, ?_⟩
        · simp [Lifecycle.start, starts, hrunning, hfeed, hinitialized, bind, Except.bind, pure,
            Except.pure]
        · exact hfeedSame.context.trans (h.context (hfeedSame.socket.symm.trans hleft))
        · simp [starts, hrunning, hinitialized]
        · have hsocket : feed.socket = x.socket := hfeedSame.socket
          simp [leftSocket, failsToBind, hrunning, hinitialized, hsocket]

/-- **Stopping** an exchange stops all components, and keeps a socket that is left. -/
theorem stop_spec (h : Settled x) :
    Phase x.stop 0 ∧ x.stop.running = false ∧
      x.stop.enableDummyGenerator = x.enableDummyGenerator ∧
      x.stop.socket = x.leftSocket ∧ (x.stop.socket = true → x.stop.context = true) := by
  cases hrunning : x.running with
  | false =>
      have hstop : x.stop = x := by simp [stop, hrunning]
      have hphase := h.phase
      rw [componentCount, hrunning] at hphase
      rw [hstop]
      exact ⟨hphase, hrunning, rfl, by simp [leftSocket, hrunning], h.context⟩
  | true =>
      obtain ⟨y, hy⟩ : ∃ y, y = { x with running := false } := ⟨_, rfl⟩
      obtain ⟨z, hz, hphase, hsame⟩ : ∃ z, z = (if y.enableDummyGenerator then
          y.stopDummyGenerator else y) ∧ Phase z 3 ∧ SameFlags y z := by
        have hphase : Phase y (if x.enableDummyGenerator then 4 else 3) := by
          have hruns := h.phase
          rw [componentCount, hrunning] at hruns
          exact hruns.of_eq (hy ▸ rfl) (hy ▸ rfl) (hy ▸ rfl) (hy ▸ rfl)
        have henabled : y.enableDummyGenerator = x.enableDummyGenerator := hy ▸ rfl
        refine ⟨_, rfl, ?_⟩
        rw [henabled]
        cases hgenerator : x.enableDummyGenerator with
        | true =>
            rw [hgenerator] at hphase
            exact hphase.stopComponent_id .dummyGenerator rfl
        | false =>
            rw [hgenerator] at hphase
            exact ⟨hphase, rfl, rfl, rfl, rfl, rfl⟩
      have hstop : x.stop = z.stopZmqServer.stopMatchingEngine.stopFeedHandler := by
        rw [stop, if_pos hrunning, hz, hy]
      obtain ⟨hserver, hserverSame⟩ := hphase.stopComponent .zmqServer rfl releaseServer false
        false fun z _ _ => rfl
      obtain ⟨hengine, hengineSame⟩ := hserver.stopComponent_id .matchingEngine rfl
      obtain ⟨hfeed, hfeedSame⟩ := Phase.stopFeedHandler hengine
      have hsame' := (hserverSame.trans hengineSame).trans hfeedSame
      have hsocket : z.stopZmqServer.stopMatchingEngine.stopFeedHandler.socket = false :=
        hsame'.socket
      rw [hstop]
      refine ⟨hfeed, hsame'.running.trans (hsame.running.trans (hy ▸ rfl)),
        hsame'.enableDummyGenerator.trans (hsame.enableDummyGenerator.trans (hy ▸ rfl)), ?_, ?_⟩
      · rw [hsocket, leftSocket, hrunning]
        rfl
      · rw [hsocket]
        exact nofun

theorem settled_stop (h : Settled x) : Settled x.stop := by
  obtain ⟨hphase, hrunning, -, -, hcontext⟩ := stop_spec h
  exact settled_of_stopped hphase hrunning hcontext rfl rfl rfl rfl

/-- Nothing is left to stop, or to terminate the process, when a stopped exchange is destroyed. -/
theorem Phase.destroyComponent (h : Phase x 0) (name : ComponentName)
    (cleanup : Lifecycle → Lifecycle) : x.destroyComponent name cleanup = .ok x := by
  have hidle : x.components name = .idle := h.components name
  simp [Lifecycle.destroyComponent, h.stop_idle (Nat.zero_le name.rank), hidle, Component.idle]

/-- **Destroying** an exchange stops it and releases what is left of the server, and does not
terminate the process. -/
theorem destroy_spec (h : Settled x) : x.destroy = .ok x.stop.releaseServer := by
  obtain ⟨hphase, -⟩ := stop_spec h
  simp [destroy, hphase.destroyComponent, bind, Except.bind, pure, Except.pure]

/-- **What holds of an exchange between calls.** -/
structure Sound (x : Lifecycle) : Prop where
  /-- The components run together with the exchange, or not at all, and with their threads. -/
  together : ∀ name, x.components name =
    if x.running = true ∧ (name = .dummyGenerator → x.enableDummyGenerator = true) then .active
    else .idle
  threads : ∀ name, alive name x.log = (x.components name).joinable
  /-- In every state on the way, every thread ran with the one that takes its requests or its market
  data. -/
  served : ∀ past, past <:+ x.log → Served past
  /-- The socket of the multicast is open while the exchange runs, and no other one is. -/
  multicast : x.socketFd = x.running ∧ x.openSockets = if x.running then 1 else 0
  /-- While the exchange runs, the server has its context and its socket. -/
  server : x.running = true → x.context = true ∧ x.socket = true
  /-- A start waits for ever if it makes a context and a socket of the one before is left. If not,
  it comes to an end; it succeeds if nothing fails and the exchange does not run yet. -/
  start : ∀ initialization setup,
    if x.blocks initialization setup then x.start initialization setup = .error .blocked
    else ∃ y, x.start initialization setup = .ok (x.starts initialization setup, y) ∧
      y.running = (x.running || x.starts initialization setup)
  /-- When `waitForShutdown` returns, the exchange is stopped. -/
  waited : x.waitForShutdown.1 = true → x.waitForShutdown.2.running = false
  /-- Destroying the exchange does not terminate the process and does not wait, and leaves no thread,
  no socket and no context. -/
  destroyed : ∃ y, x.destroy = .ok y ∧ (∀ name, alive name y.log = false) ∧
    y.openSockets = 0 ∧ y.socket = false ∧ y.context = false ∧
    ∀ past, past <:+ y.log → Served past

/-- Between two calls nothing is half started: what holds of a settled exchange is all that is
promised. -/
theorem Settled.sound (h : Settled x) : Sound x := by
  have hcomponents : ∀ name, x.components name =
      if x.running = true ∧ (name = .dummyGenerator → x.enableDummyGenerator = true) then .active
      else .idle := by
    intro name
    rw [h.phase.components, componentCount]
    cases x.running <;> cases x.enableDummyGenerator <;> cases name <;> rfl
  have hcount : 0 < x.componentCount ↔ x.running = true := by
    rw [componentCount]
    cases x.running <;> cases x.enableDummyGenerator <;> decide
  refine ⟨hcomponents, fun name => ?_, h.phase.served, ⟨?_, ?_⟩,
    fun hruns => ⟨h.context (h.server hruns), h.server hruns⟩, fun initialization setup => ?_, ?_, ?_⟩
  · rw [h.phase.threads, h.phase.components]
    by_cases hlt : name.rank < x.componentCount <;>
      simp [hlt, Component.active, Component.idle]
  · rw [h.phase.socketFd]
    simp only [hcount, Bool.decide_eq_true]
  · rw [h.phase.openSockets]
    simp only [hcount]
  · split
    · rename_i hblocks
      exact start_of_blocks h hblocks
    · rename_i hblocks
      obtain ⟨y, hstarted⟩ := start_spec h (Bool.not_eq_true _ ▸ hblocks)
      exact ⟨y, hstarted.start, hstarted.running⟩
  · rw [waitForShutdown]
    split
    · intro hreturns
      cases hreturns
    · rename_i hwaits
      split
      · exact fun _ => (stop_spec h).2.1
      · rename_i hrequested
        intro _
        by_contra hrunning
        exact hwaits ⟨by simpa using hrunning, by simpa using hrequested⟩
  · obtain ⟨hphase, -⟩ := stop_spec h
    exact ⟨_, destroy_spec h, hphase.threads, hphase.openSockets, rfl, rfl, hphase.served⟩

theorem settled_fresh (enableDummyGenerator : Bool) : Settled (fresh enableDummyGenerator) := by
  refine ⟨⟨fun name => rfl, rfl, rfl, fun name => rfl, fun past hpast => ?_⟩, nofun, nofun⟩
  obtain rfl := List.suffix_nil.mp hpast
  exact served_of_threads (k := 0) fun name => rfl

/-! ### Runs -/

/-- Whether a start in a history has left a socket of the server: the exchange did not run, and the
bind failed. -/
def BindFailed (enableDummyGenerator : Bool) (past : List Call) : Prop :=
  ∃ before x, .start .initialized .noBind :: before <:+ past ∧
    after enableDummyGenerator before = .ok x ∧ x.running = false

/-- **What holds after a history of calls that have returned.** -/
structure Between (enableDummyGenerator : Bool) (past : List Call) (x : Lifecycle) : Prop where
  settled : Settled x
  enabled : x.enableDummyGenerator = enableDummyGenerator
  left : x.leftSocket = true ↔ BindFailed enableDummyGenerator past

variable {enableDummyGenerator : Bool} {past : List Call}

theorem bindFailed_cons (h : after enableDummyGenerator past = .ok x) (c : Call) :
    BindFailed enableDummyGenerator (c :: past) ↔
      BindFailed enableDummyGenerator past ∨
        c = .start .initialized .noBind ∧ x.running = false := by
  constructor
  · rintro ⟨before, x', hsuffix, hbefore, hrunning⟩
    rcases List.suffix_cons_iff.mp hsuffix with heq | hsuffix
    · obtain ⟨hc, rfl⟩ := List.cons.inj heq
      rw [h] at hbefore
      obtain rfl := Except.ok.inj hbefore
      exact Or.inr ⟨hc.symm, hrunning⟩
    · exact Or.inl ⟨before, x', hsuffix, hbefore, hrunning⟩
  · rintro (⟨before, x', hsuffix, hbefore, hrunning⟩ | ⟨rfl, hrunning⟩)
    · exact ⟨before, x', hsuffix.trans (List.suffix_cons c past), hbefore, hrunning⟩
    · exact ⟨past, x, List.suffix_rfl, h, hrunning⟩

/-- A call that does not bind keeps what is left. -/
theorem Between.of_left (h : Between enableDummyGenerator past x)
    (hafter : after enableDummyGenerator past = .ok x) {c : Call}
    (hc : ∀ initialization setup, c ≠ .start initialization setup) (hsettled : Settled y)
    (henable : y.enableDummyGenerator = x.enableDummyGenerator)
    (hleft : y.leftSocket = x.leftSocket) : Between enableDummyGenerator (c :: past) y := by
  refine ⟨hsettled, henable.trans h.enabled, ?_⟩
  rw [hleft, h.left, bindFailed_cons hafter]
  exact (or_iff_left fun ⟨hstart, _⟩ => hc _ _ hstart).symm

theorem leftSocket_stop (h : Settled x) : x.stop.leftSocket = x.leftSocket := by
  obtain ⟨-, hrunning, -, hsocket, -⟩ := stop_spec h
  rw [leftSocket, hrunning, hsocket]
  rfl

/-- **Every call** comes to an end and keeps the components together, or it is a start that waits for
ever. -/
theorem Between.call (h : Between enableDummyGenerator past x)
    (hafter : after enableDummyGenerator past = .ok x) (c : Call) :
    (∃ y, x.call c = .ok y ∧ Between enableDummyGenerator (c :: past) y) ∨
      (x.call c = .error .blocked ∧ ∃ initialization setup,
        c = .start initialization setup ∧ x.blocks initialization setup = true) := by
  have hstopped := h.of_left hafter (c := .waitForShutdown) nofun (settled_stop h.settled)
    (stop_spec h.settled).2.2.1 (leftSocket_stop h.settled)
  cases c with
  | start initialization setup =>
      cases hblocks : x.blocks initialization setup with
      | true =>
          refine Or.inr ⟨?_, initialization, setup, rfl, hblocks⟩
          simp only [Lifecycle.call, start_of_blocks h.settled hblocks, Except.map]
      | false =>
          obtain ⟨y, hstarted⟩ := start_spec h.settled hblocks
          refine Or.inl ⟨y, ?_, hstarted.settled,
            hstarted.enableDummyGenerator.trans h.enabled, ?_⟩
          · simp only [Lifecycle.call, hstarted.start, Except.map]
          · rw [hstarted.leftSocket, Bool.or_eq_true, h.left, bindFailed_cons hafter, failsToBind]
            simp only [Bool.and_eq_true, Bool.not_eq_true', decide_eq_true_eq, Call.start.injEq]
            tauto
  | stop =>
      exact Or.inl ⟨_, rfl, h.of_left hafter nofun (settled_stop h.settled)
        (stop_spec h.settled).2.2.1 (leftSocket_stop h.settled)⟩
  | signal =>
      refine Or.inl ⟨_, rfl, h.of_left hafter nofun ⟨?_, h.settled.server, h.settled.context⟩ rfl rfl⟩
      exact h.settled.phase.of_eq rfl rfl rfl rfl
  | waitForShutdown =>
      refine Or.inl ⟨_, rfl, ?_⟩
      rw [waitForShutdown]
      split
      · exact h.of_left hafter nofun h.settled rfl rfl
      split
      · exact hstopped
      · exact h.of_left hafter nofun h.settled rfl rfl

/-- **The life of an exchange.** Whatever calls are made to it and whatever fails to start, the
process is not terminated. After calls that have returned the exchange is sound, and a socket of the
server is left while it does not run exactly if a start before has failed to bind. A call that does
not return is a start that makes a context after that. -/
theorem lifecycle_sound (enableDummyGenerator : Bool) (past : List Call) :
    match after enableDummyGenerator past with
    | .ok x => x.enableDummyGenerator = enableDummyGenerator ∧ Sound x ∧
        (x.leftSocket = true ↔ BindFailed enableDummyGenerator past)
    | .error halt => halt = .blocked ∧ ∃ before x initialization setup,
        .start initialization setup :: before <:+ past ∧
        after enableDummyGenerator before = .ok x ∧ BindFailed enableDummyGenerator before ∧
        x.blocks initialization setup = true := by
  have hrun : (∃ x, after enableDummyGenerator past = .ok x ∧
        Between enableDummyGenerator past x) ∨
      (after enableDummyGenerator past = .error .blocked ∧ ∃ before x initialization setup,
        .start initialization setup :: before <:+ past ∧
        after enableDummyGenerator before = .ok x ∧ BindFailed enableDummyGenerator before ∧
        x.blocks initialization setup = true) := by
    induction past with
    | nil =>
        refine Or.inl ⟨_, rfl, settled_fresh enableDummyGenerator, rfl, iff_of_false nofun ?_⟩
        rintro ⟨before, x, hsuffix, -⟩
        cases List.suffix_nil.mp hsuffix
    | cons c past ih =>
        rcases ih with ⟨x, hx, hbetween⟩ | ⟨hx, before, y, initialization, setup, hsuffix, hrest⟩
        · have hstep : after enableDummyGenerator (c :: past) = x.call c := by
            rw [after, hx]
            rfl
          rw [hstep]
          rcases hbetween.call hx c with hreturns | ⟨hwaits, initialization, setup, rfl, hblocks⟩
          · exact Or.inl hreturns
          · refine Or.inr ⟨hwaits, past, x, initialization, setup, List.suffix_rfl, hx, ?_, hblocks⟩
            simp only [blocks, Bool.and_eq_true] at hblocks
            exact hbetween.left.mp hblocks.1.1
        · refine Or.inr ⟨?_, before, y, initialization, setup,
            hsuffix.trans (List.suffix_cons c past), hrest⟩
          rw [after, hx]
          rfl
  rcases hrun with ⟨x, hx, hbetween⟩ | ⟨hx, hwaits⟩
  · rw [hx]
    exact ⟨hbetween.enabled, hbetween.settled.sound, hbetween.left⟩
  · rw [hx]
    exact ⟨rfl, hwaits⟩

end Lifecycle

end ExchangeEngine
