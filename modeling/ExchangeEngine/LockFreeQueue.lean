import Mathlib.Logic.Function.Basic
import ExchangeEngine.Lib.RingIndex

/-!
# Lock-Free Queues

The class templates `SPSCQueue` and `MPSCQueue` of `LockFreeQueue.h`, at the granularity of their
loads, stores and slot accesses: each of these is one indivisible step, and the steps of the
threads interleave in any order.

A call in progress is a program counter with the local variables of the call: `Push` and `Pop`
name the step that comes next. The two overloads of `push`, which copy and move, take the same
steps. `moved` is what moving an item out of a slot leaves in the slot.

`pushed` and `popped` are histories, which no step reads: the slots and items of the calls of
`push` that have stored `tail_`, and the items of the calls of `pop` that have stored `head_`,
oldest first. `pushResults` and `popResults` are histories as well: what the callers have been
returned, call by call.
-/

namespace ExchangeEngine

/-! ### The sizes of the queues; a queue holds one item less -/

/-- The slots of the three queues of the exchange. One slot of each stays empty. -/
def INBOUND_QUEUE_SIZE : ℕ := 65536
def OUTBOUND_QUEUE_SIZE : ℕ := 65536
def FEED_QUEUE_SIZE : ℕ := 16384

/-- The memory of a queue that both sides share. -/
structure RingBuffer (T : Type*) where
  head : UInt64
  tail : UInt64
  buffer : UInt64 → T
  pushed : List (UInt64 × T)
  popped : List T

/-- A call of `push` in progress. -/
inductive Push (T : Type*)
  | loadTail (item : T)
  | loadHead (item : T) (currentTail : UInt64)
  | writeSlot (item : T) (currentTail nextTail : UInt64)
  | storeTail (item : T) (currentTail nextTail : UInt64)
  | done (item : T) (result : Bool)

/-- A call of `pop` in progress. -/
inductive Pop (T : Type*)
  | loadHead
  | loadTail (currentHead : UInt64)
  | readSlot (currentHead : UInt64)
  | storeHead (currentHead : UInt64) (item : T)
  | done (result : Option T)

/-- The item that the next step of a call of `push` makes visible by storing `tail_`. -/
def Push.storing {T : Type*} : Push T → List T
  | .storeTail item _ _ => [item]
  | _ => []

namespace RingBuffer

variable {T : Type*}

/-- The memory of a newly constructed queue, whose slots hold anything. -/
def fresh (buffer : UInt64 → T) : RingBuffer T where
  head := 0
  tail := 0
  buffer
  pushed := []
  popped := []

/-- The slots and items past which `head_` has not yet been advanced, oldest first. -/
def waiting (r : RingBuffer T) : List (UInt64 × T) :=
  r.pushed.drop r.popped.length

variable (c : RingCapacity) (moved : T → T)

/-- The next step of a call of `push`. -/
def push (r : RingBuffer T) : Push T → RingBuffer T × Push T
  | .loadTail item => (r, .loadHead item r.tail)
  | .loadHead item currentTail =>
      let nextTail := c.next currentTail
      if nextTail = r.head then (r, .done item false)
      else (r, .writeSlot item currentTail nextTail)
  | .writeSlot item currentTail nextTail =>
      ({ r with buffer := Function.update r.buffer currentTail item },
        .storeTail item currentTail nextTail)
  | .storeTail item currentTail nextTail =>
      ({ r with tail := nextTail, pushed := r.pushed ++ [(currentTail, item)] },
        .done item true)
  | .done item result => (r, .done item result)

/-- The next step of a call of `pop`. -/
def pop (r : RingBuffer T) : Pop T → RingBuffer T × Pop T
  | .loadHead => (r, .loadTail r.head)
  | .loadTail currentHead =>
      if currentHead = r.tail then (r, .done none) else (r, .readSlot currentHead)
  | .readSlot currentHead =>
      ({ r with buffer := Function.update r.buffer currentHead (moved (r.buffer currentHead)) },
        .storeHead currentHead (r.buffer currentHead))
  | .storeHead currentHead item =>
      ({ r with head := c.next currentHead, popped := r.popped ++ [item] }, .done (some item))
  | .done result => (r, .done result)

/-- Whether the queue is empty, as `empty` computes it from `head_` and `tail_`. -/
def empty (r : RingBuffer T) : Bool :=
  r.head == r.tail

/-- The size of the queue, as `size` computes it from `head_` and `tail_`. -/
def size (r : RingBuffer T) : UInt64 :=
  c.distance r.head r.tail

end RingBuffer

/-! ### One producer -/

/-- A queue with one producer and one consumer, each of which may be in a call. -/
structure SPSCQueue (T : Type*) where
  ring : RingBuffer T
  producer : Option (Push T)
  consumer : Option (Pop T)
  /-- The items of the calls of `push` that have returned, and what they have returned. -/
  pushResults : List (T × Bool)
  /-- What the calls of `pop` have returned. -/
  popResults : List (Option T)

namespace SPSCQueue

variable {T : Type*}

/-- A newly constructed queue. -/
def fresh (buffer : UInt64 → T) : SPSCQueue T where
  ring := .fresh buffer
  producer := none
  consumer := none
  pushResults := []
  popResults := []

/-- What may happen next: a side that is in no call begins one, or a side in a call takes its
next step. -/
inductive Action (T : Type*)
  | push (item : T)
  | producer
  | pop
  | consumer

variable (c : RingCapacity) (moved : T → T)

/-- The effect of an action. A side that cannot act does nothing; a call that is done returns. -/
def step (q : SPSCQueue T) : Action T → SPSCQueue T
  | .push item =>
      match q.producer with
      | none => { q with producer := some (.loadTail item) }
      | some _ => q
  | .producer =>
      match q.producer with
      | none => q
      | some (.done item result) =>
          { q with producer := none, pushResults := q.pushResults ++ [(item, result)] }
      | some p =>
          let next := q.ring.push c p
          { q with ring := next.1, producer := some next.2 }
  | .pop =>
      match q.consumer with
      | none => { q with consumer := some .loadHead }
      | some _ => q
  | .consumer =>
      match q.consumer with
      | none => q
      | some (.done result) =>
          { q with consumer := none, popResults := q.popResults ++ [result] }
      | some p =>
          let next := q.ring.pop c moved p
          { q with ring := next.1, consumer := some next.2 }

/-- The queue after a history of actions, newest first. -/
def after (buffer : UInt64 → T) : List (Action T) → SPSCQueue T
  | [] => .fresh buffer
  | action :: past => (after buffer past).step c moved action

end SPSCQueue

/-! ### Many producers -/

/-- Where a producer is: in no call, before the acquisition of the lock, or with the lock in the
body of the call. A call that is done releases the lock in its next step. -/
inductive Producer (T : Type*)
  | idle
  | acquire (item : T)
  | locked (call : Push T)

/-- A queue with many producers and one consumer. The history `log` has the items of the calls
of `push` that have stored `tail_`, with their producers. -/
structure MPSCQueue (ι T : Type*) where
  ring : RingBuffer T
  producerLock : Bool
  producer : ι → Producer T
  consumer : Option (Pop T)
  log : List (ι × T)
  /-- The items of the calls of `push` of each producer that have returned, and what they have
  returned. -/
  pushResults : ι → List (T × Bool)
  /-- What the calls of `pop` have returned. -/
  popResults : List (Option T)

namespace MPSCQueue

variable {ι T : Type*}

/-- A newly constructed queue. -/
def fresh (buffer : UInt64 → T) : MPSCQueue ι T where
  ring := .fresh buffer
  producerLock := false
  producer := fun _ => .idle
  consumer := none
  log := []
  pushResults := fun _ => []
  popResults := []

/-- What may happen next: a thread that is in no call begins one, or a thread in a call takes its
next step. -/
inductive Action (ι T : Type*)
  | push (i : ι) (item : T)
  | producer (i : ι)
  | pop
  | consumer

variable [DecidableEq ι] (c : RingCapacity) (moved : T → T)

/-- The next step of a producer. An exchange that finds the lock taken leaves it taken. -/
def produce (q : MPSCQueue ι T) (i : ι) : MPSCQueue ι T :=
  match q.producer i with
  | .idle => q
  | .acquire item =>
      { q with
        producerLock := true
        producer :=
          if q.producerLock then q.producer
          else Function.update q.producer i (.locked (.loadTail item)) }
  | .locked (.done item result) =>
      { q with
        producerLock := false
        producer := Function.update q.producer i .idle
        pushResults :=
          Function.update q.pushResults i (q.pushResults i ++ [(item, result)]) }
  | .locked p =>
      let next := q.ring.push c p
      { q with
        ring := next.1
        producer := Function.update q.producer i (.locked next.2)
        log := q.log ++ p.storing.map fun item => (i, item) }

/-- The effect of an action. A thread that cannot act does nothing. -/
def step (q : MPSCQueue ι T) : Action ι T → MPSCQueue ι T
  | .push i item =>
      match q.producer i with
      | .idle => { q with producer := Function.update q.producer i (.acquire item) }
      | _ => q
  | .producer i => q.produce c i
  | .pop =>
      match q.consumer with
      | none => { q with consumer := some .loadHead }
      | some _ => q
  | .consumer =>
      match q.consumer with
      | none => q
      | some (.done result) =>
          { q with consumer := none, popResults := q.popResults ++ [result] }
      | some p =>
          let next := q.ring.pop c moved p
          { q with ring := next.1, consumer := some next.2 }

/-- The queue after a history of actions, newest first. -/
def after (buffer : UInt64 → T) : List (Action ι T) → MPSCQueue ι T
  | [] => .fresh buffer
  | action :: past => (after buffer past).step c moved action

end MPSCQueue

end ExchangeEngine
