import ExchangeEngine.FifoQueues
import ExchangeEngine.Lib.BoundedQueue

/-!
# The Lock-Free Queues as Bounded Queues

The threads of the exchange may take a call of `push` or `pop` for one indivisible step on a
bounded queue with room for one item less than the ring has slots. A call acts in one of its steps:
a `push` when it stores `tail_`, or when it loads `head_` and finds the queue full; a `pop` when it
stores `head_`, or when it loads `tail_` and finds the queue empty.

## Main results

* `push_refines`, `pop_refines`: a step in which a call does not act leaves the queue as it is, and
  one in which it acts is a call of the bounded queue with the same result.
* `spsc_linearizable`, `mpsc_linearizable`: in every run, the calls in the order in which they act
  are calls of a bounded queue made one after another.
-/

open BoundedQueue

namespace ExchangeEngine

variable {T : Type*} {c : RingCapacity} {r : RingBuffer T} {p : Push T} {d : Pop T}
  {moved : T → T}

/-- The call of the bounded queue as which a call of `push` has acted, if it has. -/
def Push.event? : Push T → Option (Event T)
  | .done item result => some (.push item result)
  | _ => none

/-- The call of the bounded queue as which a call of `pop` has acted, if it has. -/
def Pop.event? : Pop T → Option (Event T)
  | .done result => some (.pop result)
  | _ => none

namespace RingInv

/-- The bounded queue of the items that wait in a ring. -/
def queue (h : RingInv c r) : BoundedQueue T (c.slots - 1) where
  items := r.waiting.map Prod.snd
  bounded := by
    have hroom := h.room
    rw [List.length_map, length_waiting]
    omega

/-- The queue depends on the ring only. -/
theorem queue_eq {r' : RingBuffer T} (h : RingInv c r) (h' : RingInv c r') (heq : r' = r) :
    h'.queue = h.queue := by
  subst heq
  rfl

theorem length_queue (h : RingInv c r) :
    h.queue.items.length = r.pushed.length - r.popped.length := by
  rw [queue, List.length_map, length_waiting]

/-- **A step of `push`** acts as a `push` of the bounded queue if it decides the result of the call,
and otherwise leaves the queue as it is. -/
theorem push_refines (h : RingInv c r) (hp : PushInv c r p)
    (hnew : ∀ item result, p ≠ .done item result) {r' : RingBuffer T} {p' : Push T}
    (hstep : r.push c p = (r', p')) (h' : RingInv c r') :
    Takes h.queue h'.queue p'.event? := by
  have hle := h.length_le
  cases p with
  | loadTail item =>
      obtain ⟨rfl, rfl⟩ := Prod.mk.inj hstep
      exact rfl
  | loadHead item currentTail =>
      obtain rfl := hp
      simp only [RingBuffer.push] at hstep
      split at hstep
      · rename_i hfull
        obtain ⟨rfl, rfl⟩ := Prod.mk.inj hstep
        refine push_of_full ?_ item
        rw [h.next_tail_eq_head_iff] at hfull
        rw [h.length_queue]
        omega
      · obtain ⟨rfl, rfl⟩ := Prod.mk.inj hstep
        exact rfl
  | writeSlot item currentTail nextTail =>
      obtain ⟨rfl, rfl⟩ := Prod.mk.inj hstep
      exact rfl
  | storeTail item currentTail nextTail =>
      obtain ⟨-, -, hroom, -⟩ := hp
      obtain ⟨rfl, rfl⟩ := Prod.mk.inj hstep
      have hlt : h.queue.items.length < c.slots - 1 := by
        rw [h.length_queue]
        omega
      obtain ⟨hresult, hitems⟩ := push_of_room hlt item
      refine Prod.ext hresult (BoundedQueue.ext (hitems.trans ?_))
      simp only [queue, RingBuffer.waiting]
      rw [List.drop_append_of_le_length hle, List.map_append]
      rfl
  | done item result => exact absurd rfl (hnew item result)

/-- **A step of `pop`** acts as a `pop` of the bounded queue if it decides the result of the call, and
otherwise leaves the queue as it is. -/
theorem pop_refines (h : RingInv c r) (hd : PopInv r d) (hnew : ∀ result, d ≠ .done result)
    {r' : RingBuffer T} {d' : Pop T} (hstep : r.pop c moved d = (r', d'))
    (h' : RingInv c r') : Takes h.queue h'.queue d'.event? := by
  cases d with
  | loadHead =>
      obtain ⟨rfl, rfl⟩ := Prod.mk.inj hstep
      exact rfl
  | loadTail currentHead =>
      obtain ⟨rfl, -⟩ := hd
      simp only [RingBuffer.pop] at hstep
      split at hstep
      · rename_i hempty
        obtain ⟨rfl, rfl⟩ := Prod.mk.inj hstep
        rw [h.head_eq_tail_iff] at hempty
        have hnil : h.queue.items = [] := by
          refine List.eq_nil_of_length_eq_zero ?_
          rw [h.length_queue]
          omega
        exact pop_of_nil hnil
      · obtain ⟨rfl, rfl⟩ := Prod.mk.inj hstep
        exact rfl
  | readSlot currentHead =>
      obtain ⟨rfl, rfl⟩ := Prod.mk.inj hstep
      exact rfl
  | storeHead currentHead item =>
      obtain ⟨-, s, hfront⟩ := hd
      obtain ⟨rfl, rfl⟩ := Prod.mk.inj hstep
      obtain ⟨hlt, hget⟩ := List.getElem?_eq_some_iff.mp hfront
      have hitems : h.queue.items =
          item :: (r.pushed.drop (r.popped.length + 1)).map Prod.snd := by
        simp only [queue, RingBuffer.waiting]
        rw [List.drop_eq_getElem_cons hlt, hget, List.map_cons]
      obtain ⟨hresult, hrest⟩ := pop_of_cons hitems
      refine Prod.ext hresult (BoundedQueue.ext (hrest.trans ?_))
      simp only [queue, RingBuffer.waiting, List.length_append, List.length_singleton]
  | done result => exact absurd rfl (hnew result)

end RingInv

/-! ### One producer -/

namespace SPSCQueue

variable (c moved) (buffer : UInt64 → T)

/-- The bounded queue after a history of actions. -/
def queueAfter (past : List (Action T)) : BoundedQueue T (c.slots - 1) :=
  (inv_after c moved buffer past).ring.queue

/-- The call of the bounded queue as which a call of the producer or the consumer acts in an
action, if it does. -/
def event? (q : SPSCQueue T) : Action T → Option (Event T)
  | .producer =>
      match q.producer with
      | none => none
      | some (.done _ _) => none
      | some p => (q.ring.push c p).2.event?
  | .consumer =>
      match q.consumer with
      | none => none
      | some (.done _) => none
      | some d => (q.ring.pop c moved d).2.event?
  | _ => none

/-- The calls in the order in which they act in a history, newest first. -/
def events : List (Action T) → List (Event T)
  | [] => []
  | action :: past => ((after c moved buffer past).event? c moved action).toList ++ events past

variable {c moved} {q : SPSCQueue T}

/-- **An action is a call of the bounded queue, or leaves it as it is.** -/
theorem takes_step (h : Inv c q) (action : Action T) {q' : SPSCQueue T}
    (hstep : q.step c moved action = q') (h' : RingInv c q'.ring) :
    Takes h.ring.queue h'.queue (q.event? c moved action) := by
  cases action with
  | push item =>
      refine RingInv.queue_eq h.ring h' ?_
      rw [← hstep, step]
      split <;> rfl
  | producer =>
      simp only [step] at hstep
      split at hstep
      · rename_i hproducer
        simp only [event?, hproducer]
        exact RingInv.queue_eq h.ring h' (by rw [← hstep])
      · rename_i hproducer
        simp only [event?, hproducer]
        exact RingInv.queue_eq h.ring h' (by rw [← hstep])
      · rename_i p hnew hproducer
        simp only [event?, hproducer]
        subst hstep
        exact h.ring.push_refines (h.producer p hproducer) hnew rfl h'
  | pop =>
      refine RingInv.queue_eq h.ring h' ?_
      rw [← hstep, step]
      split <;> rfl
  | consumer =>
      have hcall := h.consumer
      simp only [step] at hstep
      split at hstep
      · rename_i hconsumer
        simp only [event?, hconsumer]
        exact RingInv.queue_eq h.ring h' (by rw [← hstep])
      · rename_i hconsumer
        simp only [event?, hconsumer]
        exact RingInv.queue_eq h.ring h' (by rw [← hstep])
      · rename_i d hnew hconsumer
        rw [hconsumer] at hcall
        simp only [event?, hconsumer]
        subst hstep
        exact h.ring.pop_refines hcall hnew rfl h'

/-- **The queue with one producer is a bounded queue**: in every run, its calls in the order in
which they act are calls made one after another. -/
theorem spsc_linearizable (c : RingCapacity) (moved : T → T) (buffer : UInt64 → T)
    (past : List (Action T)) :
    Sequential (events c moved buffer past) (queueAfter c moved buffer past) := by
  induction past with
  | nil => exact BoundedQueue.ext rfl
  | cons action past ih => exact ih.step (takes_step (inv_after c moved buffer past) action rfl _)

end SPSCQueue

/-! ### Many producers -/

namespace MPSCQueue

variable {ι : Type*} [DecidableEq ι]

section Run

variable (c moved) (buffer : UInt64 → T)

/-- The bounded queue after a history of actions. -/
def queueAfter (past : List (Action ι T)) : BoundedQueue T (c.slots - 1) :=
  (inv_after c moved buffer past).ring.queue

/-- The call of the bounded queue as which a call of a producer or the consumer acts in an action,
if it does. -/
def event? (q : MPSCQueue ι T) : Action ι T → Option (Event T)
  | .producer i =>
      match q.producer i with
      | .locked (.done _ _) => none
      | .locked p => (q.ring.push c p).2.event?
      | _ => none
  | .consumer =>
      match q.consumer with
      | none => none
      | some (.done _) => none
      | some d => (q.ring.pop c moved d).2.event?
  | _ => none

/-- The calls in the order in which they act in a history, newest first. -/
def events : List (Action ι T) → List (Event T)
  | [] => []
  | action :: past => ((after c moved buffer past).event? c moved action).toList ++ events past

end Run

variable {q : MPSCQueue ι T}

/-- **An action is a call of the bounded queue, or leaves it as it is.** -/
theorem takes_step (h : Inv c q) (action : Action ι T) {q' : MPSCQueue ι T}
    (hstep : q.step c moved action = q') (h' : RingInv c q'.ring) :
    Takes h.ring.queue h'.queue (q.event? c moved action) := by
  cases action with
  | push i item =>
      refine RingInv.queue_eq h.ring h' ?_
      rw [← hstep, step]
      split <;> rfl
  | producer i =>
      simp only [step, produce] at hstep
      split at hstep
      · rename_i hi
        simp only [event?, hi]
        exact RingInv.queue_eq h.ring h' (by rw [← hstep])
      · rename_i hi
        simp only [event?, hi]
        exact RingInv.queue_eq h.ring h' (by rw [← hstep])
      · rename_i hi
        simp only [event?, hi]
        exact RingInv.queue_eq h.ring h' (by rw [← hstep])
      · rename_i p hnew hi
        simp only [event?, hi]
        subst hstep
        exact h.ring.push_refines (h.holder i p hi).2 hnew rfl h'
  | pop =>
      refine RingInv.queue_eq h.ring h' ?_
      rw [← hstep, step]
      split <;> rfl
  | consumer =>
      have hcall := h.consumer
      simp only [step] at hstep
      split at hstep
      · rename_i hconsumer
        simp only [event?, hconsumer]
        exact RingInv.queue_eq h.ring h' (by rw [← hstep])
      · rename_i hconsumer
        simp only [event?, hconsumer]
        exact RingInv.queue_eq h.ring h' (by rw [← hstep])
      · rename_i d hnew hconsumer
        rw [hconsumer] at hcall
        simp only [event?, hconsumer]
        subst hstep
        exact h.ring.pop_refines hcall hnew rfl h'

/-- **The queue with many producers is a bounded queue**: in every run, its calls in the order in
which they act are calls made one after another. -/
theorem mpsc_linearizable (c : RingCapacity) (moved : T → T) (buffer : UInt64 → T)
    (past : List (Action ι T)) :
    Sequential (events c moved buffer past) (queueAfter c moved buffer past) := by
  induction past with
  | nil => exact BoundedQueue.ext rfl
  | cons action past ih => exact ih.step (takes_step (inv_after c moved buffer past) action rfl _)

end MPSCQueue

/-! ### The queues of the exchange -/

/-- The ring of the inbound queue and of the outbound queue. -/
def requestRing : RingCapacity where
  size := UInt64.ofNat INBOUND_QUEUE_SIZE
  size_ne_zero := by decide
  and_sub_one := by decide

/-- The ring of the feed queue. -/
def feedRing : RingCapacity where
  size := UInt64.ofNat FEED_QUEUE_SIZE
  size_ne_zero := by decide
  and_sub_one := by decide

example : requestRing.slots = INBOUND_QUEUE_SIZE ∧ requestRing.slots = OUTBOUND_QUEUE_SIZE ∧
    feedRing.slots = FEED_QUEUE_SIZE := by decide

end ExchangeEngine
