import Mathlib.Data.List.Basic
import Mathlib.Tactic.Common

/-!
# Bounded Queues

A first-in first-out queue of at most `limit` items. A push to a full queue is refused and leaves
the queue as it is; what becomes of the item is up to the caller.

`Sequential` says what the results of calls can be that are made one after another. A queue whose
calls overlap is as good as this one if each call acts at one moment, and the calls in the order
of these moments are sequential.

A traced queue remembers the items that it has taken and those that it has given out. It carries
the proof that the difference is what it holds, so that what has been given out is what has been
taken exactly if it is empty (`popped_eq_pushed_iff`).
-/

/-- A first-in first-out queue of at most `limit` items, the oldest first. -/
@[ext] structure BoundedQueue (α : Type*) (limit : ℕ) where
  items : List α
  bounded : items.length ≤ limit

namespace BoundedQueue

variable {α : Type*} {limit : ℕ}

/-- A queue that holds nothing. -/
def empty : BoundedQueue α limit where
  items := []
  bounded := Nat.zero_le limit

/-- Whether there is room for one more item. -/
def hasRoom (q : BoundedQueue α limit) : Bool :=
  decide (q.items.length < limit)

/-- Push an item, and say whether there was room for it. -/
def push (q : BoundedQueue α limit) (item : α) : Bool × BoundedQueue α limit :=
  if h : q.items.length < limit then
    (true, { items := q.items ++ [item], bounded := by rw [List.length_append]; exact h })
  else (false, q)

/-- Pop the oldest item, if there is one. -/
def pop (q : BoundedQueue α limit) : Option α × BoundedQueue α limit :=
  (q.items.head?,
    { items := q.items.tail
      bounded := Nat.le_trans (by rw [List.length_tail]; exact Nat.sub_le _ _) q.bounded })

/-- A push adds its item if there is room for it. -/
theorem items_push (q : BoundedQueue α limit) (item : α) :
    (q.push item).2.items = q.items ++ if q.hasRoom then [item] else [] := by
  by_cases h : q.items.length < limit
  · rw [push, dif_pos h, hasRoom, decide_eq_true h, if_pos rfl]
  · rw [push, dif_neg h, hasRoom, decide_eq_false h, if_neg Bool.false_ne_true, List.append_nil]

/-- A push says whether there was room. -/
theorem result_push (q : BoundedQueue α limit) (item : α) : (q.push item).1 = q.hasRoom := by
  by_cases h : q.items.length < limit
  · rw [push, dif_pos h, hasRoom, decide_eq_true h]
  · rw [push, dif_neg h, hasRoom, decide_eq_false h]

/-- Popping gives the items of a queue one after another. -/
theorem pop_of_cons {q : BoundedQueue α limit} {item : α} {items : List α}
    (h : q.items = item :: items) : q.pop.1 = some item ∧ q.pop.2.items = items := by
  simp only [pop, h]
  exact ⟨rfl, rfl⟩

theorem pop_of_nil {q : BoundedQueue α limit} (h : q.items = []) : q.pop = (none, q) := by
  refine Prod.ext ?_ (BoundedQueue.ext ?_)
  · simp only [pop, h, List.head?_nil]
  · simp only [pop, h, List.tail_nil]

/-- A queue that cannot take an item is not empty. -/
theorem items_push_ne_nil (hlimit : 0 < limit) (q : BoundedQueue α limit) (item : α) :
    (q.push item).2.items ≠ [] := by
  rw [items_push]
  split
  · exact List.append_ne_nil_of_right_ne_nil _ (List.cons_ne_nil item [])
  · rename_i hfull
    rw [List.append_nil]
    intro hnil
    exact hfull (by rw [hasRoom, hnil]; exact decide_eq_true hlimit)

theorem push_of_room {q : BoundedQueue α limit} (h : q.items.length < limit) (item : α) :
    (q.push item).1 = true ∧ (q.push item).2.items = q.items ++ [item] := by
  rw [push, dif_pos h]
  exact ⟨rfl, rfl⟩

theorem push_of_full {q : BoundedQueue α limit} (h : ¬ q.items.length < limit) (item : α) :
    q.push item = (false, q) := by
  rw [push, dif_neg h]

/-- A call and its result. -/
inductive Event (α : Type*)
  | push (item : α) (result : Bool)
  | pop (result : Option α)

/-- What a call with its result does to a queue; a moment without a call does nothing. -/
def Takes (q q' : BoundedQueue α limit) : Option (Event α) → Prop
  | none => q' = q
  | some (.push item result) => q.push item = (result, q')
  | some (.pop result) => q.pop = (result, q')

/-- **Calls one after another**, newest first, from the empty queue to a state. -/
def Sequential : List (Event α) → BoundedQueue α limit → Prop
  | [], q => q = empty
  | event :: past, q => ∃ before, Sequential past before ∧ Takes before q (some event)

/-- A run goes on by a call, or by a moment without one. -/
theorem Sequential.step {past : List (Event α)} {q q' : BoundedQueue α limit}
    (h : Sequential past q) {event : Option (Event α)} (htakes : Takes q q' event) :
    Sequential (event.toList ++ past) q' := by
  cases event with
  | none =>
      obtain rfl : q' = q := htakes
      exact h
  | some event => exact ⟨q, h, htakes⟩

end BoundedQueue

/-- A bounded queue and its history: of the items pushed to it, apart from those that it refused,
each has been popped or is still in the queue, in order. -/
structure TracedQueue (α : Type*) (limit : ℕ) where
  queue : BoundedQueue α limit
  pushed : List α
  popped : List α
  balanced : pushed = popped ++ queue.items

namespace TracedQueue

variable {α : Type*} {limit : ℕ}

def empty : TracedQueue α limit where
  queue := .empty
  pushed := []
  popped := []
  balanced := rfl

/-- The items in the queue. -/
def items (q : TracedQueue α limit) : List α :=
  q.queue.items

/-- Push an item; a full queue refuses it. -/
def push (q : TracedQueue α limit) (item : α) : TracedQueue α limit where
  queue := (q.queue.push item).2
  pushed := q.pushed ++ if q.queue.hasRoom then [item] else []
  popped := q.popped
  balanced := by rw [BoundedQueue.items_push, ← List.append_assoc, ← q.balanced]

/-- Pop the oldest item, if there is one. -/
def pop (q : TracedQueue α limit) : Option α × TracedQueue α limit :=
  (q.queue.pop.1,
    { queue := q.queue.pop.2
      pushed := q.pushed
      popped := q.popped ++ q.queue.pop.1.toList
      balanced := by
        rw [q.balanced, List.append_assoc]
        congr 1
        cases hitems : q.queue.items <;> simp [BoundedQueue.pop, hitems] })

/-- **Everything has been given out** exactly if the queue is empty. -/
theorem popped_eq_pushed_iff (q : TracedQueue α limit) : q.popped = q.pushed ↔ q.items = [] := by
  rw [q.balanced, List.self_eq_append_right]
  rfl

theorem pop_of_cons {q : TracedQueue α limit} {item : α} {items : List α}
    (h : q.items = item :: items) : q.pop.1 = some item ∧ q.pop.2.items = items :=
  BoundedQueue.pop_of_cons h

theorem pop_of_nil {q : TracedQueue α limit} (h : q.items = []) :
    q.pop.1 = none ∧ q.pop.2.items = [] := by
  have hpop := BoundedQueue.pop_of_nil h
  exact ⟨congrArg Prod.fst hpop, (congrArg (BoundedQueue.items ∘ Prod.snd) hpop).trans h⟩

theorem items_push_ne_nil (hlimit : 0 < limit) (q : TracedQueue α limit) (item : α) :
    (q.push item).items ≠ [] :=
  q.queue.items_push_ne_nil hlimit item

end TracedQueue
