import Mathlib.Data.List.Infix
import Mathlib.Data.List.ReduceOption
import ExchangeEngine.LockFreeQueue

/-!
# The Queues are Queues

A queue in memory is a window of a stream: of the items pushed so far, those not yet popped, with
`head_` the slot of the first of them and `tail_` the slot after the last one. `RingInv` is this
invariant; `PushInv` and `PopInv` say what the local variables of a call in progress know.

Each side keeps its own invariant by its own steps, and the steps of the other side do not
disturb it: `head_` only moves away from the producer, and `tail_` only away from the consumer.
This is the whole argument for one producer. With many producers the lock lets one of them at a
time into the body of `push`, so the same argument applies to the holder of the lock.

## Main results

* `spsc_correct`: the queue with one producer is a bounded first-in first-out queue.
* `mpsc_correct`: so is the queue with many producers, and they exclude each other.
-/

namespace ExchangeEngine

variable {T : Type*}

/-- A prefix is extended by the next item. -/
theorem prefix_concat {l l' : List T} {a : T} (h : l <+: l') (ha : l'[l.length]? = some a) :
    l ++ [a] <+: l' := by
  obtain ⟨rest, rfl⟩ := h
  rw [List.getElem?_append_right (Nat.le_refl _), Nat.sub_self] at ha
  cases rest with
  | nil => cases ha
  | cons b rest =>
      obtain rfl := Option.some.inj ha
      exact ⟨rest, List.append_assoc ..⟩

/-- The items of a list with one more item at its end. -/
theorem getElem?_concat {l : List T} {a b : T} {k : ℕ} (h : (l ++ [a])[k]? = some b) :
    l[k]? = some b ∨ k = l.length ∧ b = a := by
  rw [List.getElem?_append] at h
  split at h
  · exact Or.inl h
  · rename_i hge
    obtain ⟨hlt, heq⟩ := List.getElem?_eq_some_iff.mp h
    rw [List.length_singleton] at hlt
    refine Or.inr ⟨by omega, ?_⟩
    rw [List.getElem_singleton] at heq
    exact heq.symm

/-- In a history, newest first, an action has been taken in a state with a property. -/
def Took {α σ : Type*} (after : List α → σ) (action : α) (P : σ → Prop) (past : List α) : Prop :=
  ∃ before, action :: before <:+ past ∧ P (after before)

theorem Took.cons {α σ : Type*} {after : List α → σ} {action : α} {P : σ → Prop} {past : List α}
    (h : Took after action P past) (next : α) : Took after action P (next :: past) := by
  obtain ⟨before, hsuffix, hP⟩ := h
  exact ⟨before, hsuffix.trans (List.suffix_cons next past), hP⟩

/-- **The results of a thread are traced**, in a history: of each one, and of the call in progress,
a statement holds about the moment that decided it. Calls are told apart by how many have returned
before. -/
structure Traced {α σ κ ρ : Type*} (after : List α → σ) (call : σ → Option κ)
    (results : σ → List ρ) (Decided : List α → ℕ → κ → Prop)
    (Explained : List α → ℕ → ρ → Prop) (past : List α) : Prop where
  call : ∀ p, call (after past) = some p → Decided past (results (after past)).length p
  result : ∀ k result, (results (after past))[k]? = some result → Explained past k result

namespace Traced

variable {α σ κ ρ : Type*} {after : List α → σ} {call : σ → Option κ} {results : σ → List ρ}
  {Decided : List α → ℕ → κ → Prop} {Explained : List α → ℕ → ρ → Prop} {past : List α}
  {action : α}

/-- No call returns. -/
theorem keep (h : Traced after call results Decided Explained past)
    (hlater : ∀ k result, Explained past k result → Explained (action :: past) k result)
    (hresults : results (after (action :: past)) = results (after past))
    (hcall : ∀ p, call (after (action :: past)) = some p →
      Decided (action :: past) (results (after past)).length p) :
    Traced after call results Decided Explained (action :: past) := by
  refine ⟨fun p hp => ?_, fun k result hk => ?_⟩
  · rw [hresults]
    exact hcall p hp
  · rw [hresults] at hk
    exact hlater k result (h.result k result hk)

/-- The call in progress returns. -/
theorem returns (h : Traced after call results Decided Explained past) (result : ρ)
    (hlater : ∀ k result, Explained past k result → Explained (action :: past) k result)
    (hresults : results (after (action :: past)) = results (after past) ++ [result])
    (hcall : call (after (action :: past)) = none)
    (hresult : Explained (action :: past) (results (after past)).length result) :
    Traced after call results Decided Explained (action :: past) := by
  refine ⟨fun p hp => ?_, fun k result' hk => ?_⟩
  · rw [hcall] at hp
    cases hp
  · rw [hresults] at hk
    rcases getElem?_concat hk with hold | ⟨rfl, rfl⟩
    · exact hlater k result' (h.result k result' hold)
    · exact hresult

end Traced

/-! ### What a call returns -/

/-- The items that have been accepted, of those pushed. -/
def accepted (results : List (T × Bool)) : List T :=
  (results.filter Prod.snd).map Prod.fst

/-- The item of a call of `push` that has stored `tail_` and is about to return. -/
def Push.returning : Push T → List T
  | .done item true => [item]
  | _ => []

/-- The item of a call of `pop` that has stored `head_` and is about to return. -/
def Pop.returning : Pop T → List T
  | .done (some item) => [item]
  | _ => []

theorem Push.returning_eq_nil {p : Push T} (hnew : ∀ item result, p ≠ .done item result) :
    p.returning = [] := by
  cases p with
  | done item result => exact absurd rfl (hnew item result)
  | _ => rfl

theorem Pop.returning_eq_nil {d : Pop T} (hnew : ∀ result, d ≠ .done result) :
    d.returning = [] := by
  cases d with
  | done result => exact absurd rfl (hnew result)
  | _ => rfl

theorem accepted_concat (results : List (T × Bool)) (item : T) (result : Bool) :
    accepted (results ++ [(item, result)]) =
      accepted results ++ (Push.done item result).returning := by
  rw [accepted, List.filter_append, List.map_append]
  cases result <;> rfl

theorem reduceOption_concat (results : List (Option T)) (result : Option T) :
    (results ++ [result]).reduceOption = results.reduceOption ++ (Pop.done result).returning := by
  rw [List.reduceOption_append]
  cases result <;> rfl

/-- **What a call of `push` returns was decided when it loaded `head_`**: `full` holds of its item
and of whether there was no room then. -/
def Push.Decided (full : T → Bool → Prop) : Push T → Prop
  | .loadTail _ => True
  | .loadHead _ _ => True
  | .writeSlot item _ _ => full item false
  | .storeTail item _ _ => full item false
  | .done item result => full item (!result)

/-- **What a call of `pop` returns was decided when it loaded `tail_`**: `empty` holds of whether
there was nothing to pop then. -/
def Pop.Decided (empty : Bool → Prop) : Pop T → Prop
  | .loadHead => True
  | .loadTail _ => True
  | .readSlot _ => empty false
  | .storeHead _ _ => empty false
  | .done result => empty result.isNone

theorem Push.Decided.imp {full full' : T → Bool → Prop} {p : Push T} (h : p.Decided full)
    (himp : ∀ item b, full item b → full' item b) : p.Decided full' := by
  cases p with
  | loadTail item => trivial
  | loadHead item currentTail => trivial
  | writeSlot item currentTail nextTail => exact himp _ _ h
  | storeTail item currentTail nextTail => exact himp _ _ h
  | done item result => exact himp _ _ h

theorem Pop.Decided.imp {empty empty' : Bool → Prop} {d : Pop T} (h : d.Decided empty)
    (himp : ∀ b, empty b → empty' b) : d.Decided empty' := by
  cases d with
  | loadHead => trivial
  | loadTail currentHead => trivial
  | readSlot currentHead => exact himp _ h
  | storeHead currentHead item => exact himp _ h
  | done result => exact himp _ h

/-- A step of `push` goes by the decision, and makes it when it loads `head_`. -/
theorem Push.Decided.push {c : RingCapacity} {r : RingBuffer T} {full : T → Bool → Prop}
    {p : Push T} (h : p.Decided full) (hload : ∀ item currentTail,
      p = .loadHead item currentTail → full item (decide (c.next currentTail = r.head))) :
    (r.push c p).2.Decided full := by
  cases p with
  | loadTail item => trivial
  | loadHead item currentTail =>
      have hdecided := hload item currentTail rfl
      simp only [RingBuffer.push]
      split
      · rename_i hfull
        rwa [decide_eq_true hfull] at hdecided
      · rename_i hroom
        rwa [decide_eq_false hroom] at hdecided
  | writeSlot item currentTail nextTail => exact h
  | storeTail item currentTail nextTail => exact h
  | done item result => exact h

/-- A step of `pop` goes by the decision, and makes it when it loads `tail_`. -/
theorem Pop.Decided.pop {c : RingCapacity} {moved : T → T} {r : RingBuffer T}
    {empty : Bool → Prop} {d : Pop T} (h : d.Decided empty) (hload : ∀ currentHead,
      d = .loadTail currentHead → empty (decide (currentHead = r.tail))) :
    (r.pop c moved d).2.Decided empty := by
  cases d with
  | loadHead => trivial
  | loadTail currentHead =>
      have hdecided := hload currentHead rfl
      simp only [RingBuffer.pop]
      split
      · rename_i hempty
        rwa [decide_eq_true hempty] at hdecided
      · rename_i hitem
        rwa [decide_eq_false hitem] at hdecided
  | readSlot currentHead => exact h
  | storeHead currentHead item => exact h
  | done result => exact h

/-! ### What traces the results of the consumer -/

namespace Traced

variable {α σ : Type*} {after : List α → σ} {consumer : σ → Option (Pop T)}
  {popResults : σ → List (Option T)} {empty : List α → ℕ → Bool → Prop} {past : List α}
  {action : α}

/-- Nothing happens to the consumer. -/
theorem unconsumed (h : Traced after consumer popResults (fun past k d => d.Decided (empty past k))
      (fun past k result => empty past k result.isNone) past)
    (hempty : ∀ k b, empty past k b → empty (action :: past) k b)
    (hconsumer : consumer (after (action :: past)) = consumer (after past))
    (hresults : popResults (after (action :: past)) = popResults (after past)) :
    Traced after consumer popResults (fun past k d => d.Decided (empty past k))
      (fun past k result => empty past k result.isNone) (action :: past) := by
  refine h.keep (fun k result => hempty k result.isNone) hresults (fun d hd => ?_)
  rw [hconsumer] at hd
  exact (h.call d hd).imp fun b => hempty _ b

/-- The consumer begins a call, if it is in none. -/
theorem consumerBegins
    (h : Traced after consumer popResults (fun past k d => d.Decided (empty past k))
      (fun past k result => empty past k result.isNone) past)
    (hempty : ∀ k b, empty past k b → empty (action :: past) k b)
    (hconsumer : consumer (after (action :: past)) =
      some ((consumer (after past)).getD .loadHead))
    (hresults : popResults (after (action :: past)) = popResults (after past)) :
    Traced after consumer popResults (fun past k d => d.Decided (empty past k))
      (fun past k result => empty past k result.isNone) (action :: past) := by
  cases hbefore : consumer (after past) with
  | some d =>
      rw [hbefore, Option.getD_some, ← hbefore] at hconsumer
      exact h.unconsumed hempty hconsumer hresults
  | none =>
      refine h.keep (fun k result => hempty k result.isNone) hresults (fun d hd => ?_)
      rw [hconsumer, hbefore, Option.getD_none, Option.some.injEq] at hd
      subst hd
      trivial

/-- The consumer takes the next step of its call: the load of `tail_` decides the result, and a call
that is done returns it. -/
theorem consumed (c : RingCapacity) (moved : T → T) (r : RingBuffer T)
    (h : Traced after consumer popResults (fun past k d => d.Decided (empty past k))
      (fun past k result => empty past k result.isNone) past)
    (hempty : ∀ k b, empty past k b → empty (action :: past) k b)
    (hload : ∀ currentHead, consumer (after past) = some (.loadTail currentHead) →
      empty (action :: past) (popResults (after past)).length (decide (currentHead = r.tail)))
    (hidle : consumer (after past) = none →
      consumer (after (action :: past)) = none ∧
        popResults (after (action :: past)) = popResults (after past))
    (hdone : ∀ result, consumer (after past) = some (.done result) →
      consumer (after (action :: past)) = none ∧
        popResults (after (action :: past)) = popResults (after past) ++ [result])
    (hturn : ∀ d, (∀ result, d ≠ .done result) → consumer (after past) = some d →
      consumer (after (action :: past)) = some (r.pop c moved d).2 ∧
        popResults (after (action :: past)) = popResults (after past)) :
    Traced after consumer popResults (fun past k d => d.Decided (empty past k))
      (fun past k result => empty past k result.isNone) (action :: past) := by
  have hlater (k : ℕ) (result : Option T) := hempty k result.isNone
  cases hbefore : consumer (after past) with
  | none =>
      obtain ⟨hconsumer, hresults⟩ := hidle hbefore
      exact h.unconsumed hempty (hconsumer.trans hbefore.symm) hresults
  | some d =>
      have hcall := (h.call d hbefore).imp fun b => hempty _ b
      by_cases hnew : ∃ result, d = .done result
      · obtain ⟨result, rfl⟩ := hnew
        obtain ⟨hconsumer, hresults⟩ := hdone result hbefore
        exact h.returns result hlater hresults hconsumer hcall
      · obtain ⟨hconsumer, hresults⟩ :=
          hturn d (fun result hresult => hnew ⟨result, hresult⟩) hbefore
        refine h.keep hlater hresults (fun d' hd' => ?_)
        rw [hconsumer, Option.some.injEq] at hd'
        subst hd'
        refine hcall.pop fun currentHead hloads => hload currentHead ?_
        rw [hbefore, hloads]

end Traced

/-! ### The memory -/

/-- **The memory of a queue** is a window of a stream of items. The item in front is left out
of `behind`: while a call of `pop` is between its read and its store, its slot has been moved
from. -/
structure RingInv (c : RingCapacity) (r : RingBuffer T) : Prop where
  room : r.pushed.length < r.popped.length + c.slots
  head : r.head = c.slot r.popped.length
  tail : r.tail = c.slot r.pushed.length
  slot : ∀ {k s item}, r.pushed[k]? = some (s, item) → s = c.slot k
  fifo : r.popped <+: r.pushed.map Prod.snd
  behind : ∀ {k s item}, r.pushed[k]? = some (s, item) → r.popped.length < k → r.buffer s = item

/-- The item in front is in its slot. -/
def FrontIntact (r : RingBuffer T) : Prop :=
  ∀ s item, r.pushed[r.popped.length]? = some (s, item) → r.buffer s = item

/-- What a call of `push` knows. -/
def PushInv (c : RingCapacity) (r : RingBuffer T) : Push T → Prop
  | .loadTail _ => True
  | .loadHead _ currentTail => currentTail = r.tail
  | .writeSlot _ currentTail nextTail => currentTail = r.tail ∧ nextTail = c.next r.tail ∧
      r.pushed.length + 1 < r.popped.length + c.slots
  | .storeTail item currentTail nextTail => currentTail = r.tail ∧ nextTail = c.next r.tail ∧
      r.pushed.length + 1 < r.popped.length + c.slots ∧ r.buffer r.tail = item
  | .done _ _ => True

/-- What a call of `pop` knows. -/
def PopInv (r : RingBuffer T) : Pop T → Prop
  | .loadHead => FrontIntact r
  | .loadTail currentHead => currentHead = r.head ∧ FrontIntact r
  | .readSlot currentHead => currentHead = r.head ∧ FrontIntact r ∧
      r.popped.length < r.pushed.length
  | .storeHead currentHead item => currentHead = r.head ∧
      ∃ s, r.pushed[r.popped.length]? = some (s, item)
  | .done _ => FrontIntact r

namespace RingInv

variable {c : RingCapacity} {r : RingBuffer T} {p : Push T} {d : Pop T} {moved : T → T}

theorem fresh (c : RingCapacity) (buffer : UInt64 → T) : RingInv c (.fresh buffer) where
  room := by
    have := c.slots_pos
    simpa [RingBuffer.fresh] using this
  head := c.slot_zero.symm
  tail := c.slot_zero.symm
  slot h := by simp [RingBuffer.fresh] at h
  fifo := List.nil_prefix
  behind h := by simp [RingBuffer.fresh] at h

theorem length_le (h : RingInv c r) : r.popped.length ≤ r.pushed.length := by
  have := h.fifo.length_le
  rwa [List.length_map] at this

/-- The slot at the tail is that of no waiting item. -/
theorem tail_ne (h : RingInv c r) {k : ℕ} {s : UInt64} {item : T}
    (hk : r.pushed[k]? = some (s, item)) (hle : r.popped.length ≤ k) : r.tail ≠ s := by
  have hlt := (List.getElem?_eq_some_iff.mp hk).1
  have hroom := h.room
  rw [h.tail, h.slot hk]
  intro heq
  have := c.slot_inj h.length_le (by omega) hle (by omega) heq
  omega

/-- The slot at the head is that of no waiting item but the one in front. -/
theorem head_ne (h : RingInv c r) {k : ℕ} {s : UInt64} {item : T}
    (hk : r.pushed[k]? = some (s, item)) (hlt : r.popped.length < k) : r.head ≠ s := by
  have hlt' := (List.getElem?_eq_some_iff.mp hk).1
  have hroom := h.room
  rw [h.head, h.slot hk]
  intro heq
  have := c.slot_inj (Nat.le_refl _) (by omega) hlt.le (by omega) heq
  omega

/-- The next slot is the head's if the ring has room for one less item than it has slots. -/
theorem next_tail_eq_head_iff (h : RingInv c r) :
    c.next r.tail = r.head ↔ r.pushed.length + 1 = r.popped.length + c.slots := by
  rw [h.tail, h.head]
  exact c.next_slot_eq_iff h.length_le h.room

theorem head_eq_tail_iff (h : RingInv c r) :
    r.head = r.tail ↔ r.popped.length = r.pushed.length := by
  have hroom := h.room
  have hle := h.length_le
  have hpos := c.slots_pos
  rw [h.tail, h.head]
  constructor
  · intro heq
    exact c.slot_inj (Nat.le_refl _) (by omega) hle (by omega) heq
  · intro heq
    rw [heq]

/-- **A step of `push`** keeps the memory a window, and does not disturb a call of `pop`. -/
theorem push (h : RingInv c r) (hp : PushInv c r p) :
    RingInv c (r.push c p).1 ∧ PushInv c (r.push c p).1 (r.push c p).2 := by
  cases p with
  | loadTail item => exact ⟨h, rfl⟩
  | loadHead item currentTail =>
      obtain rfl := hp
      simp only [RingBuffer.push]
      split
      · exact ⟨h, trivial⟩
      · rename_i hne
        have hroom := h.room
        rw [h.next_tail_eq_head_iff] at hne
        have hless : r.pushed.length + 1 < r.popped.length + c.slots := by omega
        exact ⟨h, rfl, rfl, hless⟩
  | writeSlot item currentTail nextTail =>
      obtain ⟨rfl, rfl, hroom⟩ := hp
      refine ⟨⟨h.room, h.head, h.tail, h.slot, h.fifo, fun {k s item'} hk hlt => ?_⟩,
        rfl, rfl, hroom, Function.update_self ..⟩
      simp only [RingBuffer.push]
      rw [Function.update_of_ne (h.tail_ne hk hlt.le).symm]
      exact h.behind hk hlt
  | storeTail item currentTail nextTail =>
      obtain ⟨rfl, rfl, hroom, hbuffer⟩ := hp
      refine ⟨⟨?_, h.head, ?_, fun hk => ?_, ?_, fun hk hlt => ?_⟩, trivial⟩
      · simpa [RingBuffer.push] using hroom
      · simp only [RingBuffer.push, List.length_append, List.length_singleton]
        rw [h.tail, c.next_slot]
      · rcases getElem?_concat hk with hold | ⟨rfl, hnew⟩
        · exact h.slot hold
        · obtain ⟨rfl, -⟩ := Prod.mk.inj hnew
          exact h.tail
      · simp only [RingBuffer.push, List.map_append]
        exact h.fifo.trans (List.prefix_append _ _)
      · rcases getElem?_concat hk with hold | ⟨-, hnew⟩
        · exact h.behind hold hlt
        · obtain ⟨rfl, rfl⟩ := Prod.mk.inj hnew
          exact hbuffer
  | done item result => exact ⟨h, trivial⟩

/-- What a step of `push` changes: nothing, or the slot at the tail, or it pushes the item in
that slot. -/
theorem push_cases (hp : PushInv c r p) :
    (r.push c p).1 = r ∨
    (∃ item, (r.push c p).1 = { r with buffer := Function.update r.buffer r.tail item }) ∨
    (∃ item, (r.push c p).1 =
        { r with tail := c.next r.tail, pushed := r.pushed ++ [(r.tail, item)] } ∧
      r.buffer r.tail = item) := by
  cases p with
  | loadTail item => exact Or.inl rfl
  | loadHead item currentTail =>
      refine Or.inl ?_
      simp only [RingBuffer.push]
      split <;> rfl
  | writeSlot item currentTail nextTail =>
      obtain ⟨rfl, rfl, -⟩ := hp
      exact Or.inr (Or.inl ⟨item, rfl⟩)
  | storeTail item currentTail nextTail =>
      obtain ⟨rfl, rfl, -, hbuffer⟩ := hp
      exact Or.inr (Or.inr ⟨item, rfl, hbuffer⟩)
  | done item result => exact Or.inl rfl

/-- A call of `pop` is not disturbed by what leaves the items pushed so far, the head and the
item in front as they are. -/
theorem popInv_congr {r' : RingBuffer T} (hd : PopInv r d) (hhead : r'.head = r.head)
    (hpopped : r'.popped = r.popped)
    (hpushed : ∀ {k : ℕ} {p}, r.pushed[k]? = some p → r'.pushed[k]? = some p)
    (hfront : FrontIntact r → FrontIntact r') : PopInv r' d := by
  cases d with
  | loadHead => exact hfront hd
  | loadTail currentHead => exact ⟨hd.1.trans hhead.symm, hfront hd.2⟩
  | readSlot currentHead =>
      obtain ⟨hcurrent, hintact, hlt⟩ := hd
      refine ⟨hcurrent.trans hhead.symm, hfront hintact, ?_⟩
      rw [hpopped]
      exact (List.getElem?_eq_some_iff.mp (hpushed (List.getElem?_eq_getElem hlt))).1
  | storeHead currentHead item =>
      obtain ⟨hcurrent, s, hs⟩ := hd
      refine ⟨hcurrent.trans hhead.symm, s, ?_⟩
      rw [hpopped]
      exact hpushed hs
  | done result => exact hfront hd

/-- **A step of `push` does not disturb a call of `pop`.** -/
theorem popInv_push (h : RingInv c r) (hp : PushInv c r p) (hd : PopInv r d) :
    PopInv (r.push c p).1 d := by
  rcases push_cases hp with heq | ⟨item, heq⟩ | ⟨item, heq, hbuffer⟩
  · rw [heq]
    exact hd
  · rw [heq]
    refine popInv_congr hd rfl rfl id fun hfront s item' hk => ?_
    exact (Function.update_of_ne (h.tail_ne hk (Nat.le_refl _)).symm _ _).trans
      (hfront s item' hk)
  · rw [heq]
    refine popInv_congr hd rfl rfl (fun {k p} hk => ?_) fun hfront s item' hk => ?_
    · have hlt := (List.getElem?_eq_some_iff.mp hk).1
      exact (List.getElem?_append_left hlt).trans hk
    · rcases getElem?_concat hk with hold | ⟨-, hnew⟩
      · exact hfront s item' hold
      · obtain ⟨rfl, rfl⟩ := Prod.mk.inj hnew
        exact hbuffer

/-- **A step of `pop`** keeps the memory a window. -/
theorem pop (h : RingInv c r) (hd : PopInv r d) :
    RingInv c (r.pop c moved d).1 ∧ PopInv (r.pop c moved d).1 (r.pop c moved d).2 := by
  cases d with
  | loadHead => exact ⟨h, rfl, hd⟩
  | loadTail currentHead =>
      obtain ⟨rfl, hfront⟩ := hd
      simp only [RingBuffer.pop]
      split
      · exact ⟨h, hfront⟩
      · rename_i hne
        rw [h.head_eq_tail_iff] at hne
        have hlt : r.popped.length < r.pushed.length := by
          have := h.length_le
          omega
        exact ⟨h, rfl, hfront, hlt⟩
  | readSlot currentHead =>
      obtain ⟨rfl, hfront, hlt⟩ := hd
      obtain ⟨front, hget⟩ : ∃ front, r.pushed[r.popped.length]? = some front :=
        ⟨_, List.getElem?_eq_getElem hlt⟩
      have hslot : front.1 = r.head := (h.slot hget).trans h.head.symm
      refine ⟨⟨h.room, h.head, h.tail, h.slot, h.fifo, fun {k s item} hk hk' => ?_⟩, rfl,
        front.1, ?_⟩
      · rw [show (r.pop c moved (.readSlot r.head)).1.buffer s = r.buffer s from
          Function.update_of_ne (h.head_ne hk hk').symm _ _]
        exact h.behind hk hk'
      · rw [← hslot, hfront _ _ hget]
        exact hget
  | storeHead currentHead item =>
      obtain ⟨rfl, s, hfront⟩ := hd
      have hlt := (List.getElem?_eq_some_iff.mp hfront).1
      have hroom := h.room
      have hlength : (r.pop c moved (.storeHead r.head item)).1.popped.length =
          r.popped.length + 1 := List.length_append
      refine ⟨⟨?_, ?_, h.tail, h.slot, ?_, fun hk hk' => ?_⟩, fun s' item' hk => ?_⟩
      · rw [hlength]
        exact Nat.lt_of_lt_of_le h.room (by omega)
      · rw [hlength, ← c.next_slot, ← h.head]
        rfl
      · refine prefix_concat h.fifo ?_
        exact (List.getElem?_map ..).trans (congrArg (Option.map Prod.snd) hfront)
      · rw [hlength] at hk'
        exact h.behind hk (by omega)
      · rw [hlength] at hk
        exact h.behind hk (Nat.lt_succ_self _)
  | done result => exact ⟨h, hd⟩

theorem pushed_pop (r : RingBuffer T) (d : Pop T) : (r.pop c moved d).1.pushed = r.pushed := by
  cases d with
  | loadTail currentHead =>
      simp only [RingBuffer.pop]
      split <;> rfl
  | _ => rfl

/-- **A step of `pop` does not disturb a call of `push`.** -/
theorem pushInv_pop (h : RingInv c r) (hd : PopInv r d) (hp : PushInv c r p) :
    PushInv c (r.pop c moved d).1 p := by
  have htail : (r.pop c moved d).1.tail = r.tail := by
    cases d with
    | loadTail currentHead =>
        simp only [RingBuffer.pop]
        split <;> rfl
    | _ => rfl
  have hpushed : (r.pop c moved d).1.pushed = r.pushed := pushed_pop r d
  have hpopped : r.popped.length ≤ (r.pop c moved d).1.popped.length := by
    cases d with
    | loadTail currentHead =>
        simp only [RingBuffer.pop]
        split <;> exact Nat.le_refl _
    | storeHead currentHead item => simp [RingBuffer.pop]
    | _ => exact Nat.le_refl _
  have hbuffer : (r.pop c moved d).1.buffer r.tail = r.buffer r.tail := by
    cases d with
    | loadTail currentHead =>
        simp only [RingBuffer.pop]
        split <;> rfl
    | readSlot currentHead =>
        obtain ⟨rfl, -, hlt⟩ := hd
        have hne : r.tail ≠ r.head := fun heq => by
          have := h.head_eq_tail_iff.mp heq.symm
          omega
        exact Function.update_of_ne hne _ _
    | _ => rfl
  cases p with
  | loadTail item => trivial
  | loadHead item currentTail => exact hp.trans htail.symm
  | writeSlot item currentTail nextTail =>
      obtain ⟨hcurrent, hnext, hroom⟩ := hp
      rw [PushInv, htail, hpushed]
      exact ⟨hcurrent, hnext, by omega⟩
  | storeTail item currentTail nextTail =>
      obtain ⟨hcurrent, hnext, hroom, hitem⟩ := hp
      rw [PushInv, htail, hpushed]
      exact ⟨hcurrent, hnext, by omega, hbuffer.trans hitem⟩
  | done item result => trivial

/-- **What a step of `push` adds** to the items pushed is what it is about to return. -/
theorem map_pushed_push (r : RingBuffer T) (hnew : ∀ item result, p ≠ .done item result) :
    (r.push c p).1.pushed.map Prod.snd = r.pushed.map Prod.snd ++ p.storing ∧
      (r.push c p).2.returning = p.storing := by
  cases p with
  | loadTail item => exact ⟨(List.append_nil _).symm, rfl⟩
  | loadHead item currentTail =>
      simp only [RingBuffer.push, Push.storing]
      split <;> exact ⟨(List.append_nil _).symm, rfl⟩
  | writeSlot item currentTail nextTail => exact ⟨(List.append_nil _).symm, rfl⟩
  | storeTail item currentTail nextTail => exact ⟨List.map_append, rfl⟩
  | done item result => exact absurd rfl (hnew item result)

/-- **What a step of `pop` adds** to the items popped is what it is about to return. -/
theorem popped_pop (r : RingBuffer T) (hnew : ∀ result, d ≠ .done result) :
    (r.pop c moved d).1.popped = r.popped ++ (r.pop c moved d).2.returning := by
  cases d with
  | loadHead => exact (List.append_nil _).symm
  | loadTail currentHead =>
      simp only [RingBuffer.pop]
      split <;> exact (List.append_nil _).symm
  | readSlot currentHead => exact (List.append_nil _).symm
  | storeHead currentHead item => rfl
  | done result => exact absurd rfl (hnew result)

theorem popped_push (r : RingBuffer T) (p : Push T) : (r.push c p).1.popped = r.popped := by
  cases p with
  | loadHead item currentTail =>
      simp only [RingBuffer.push]
      split <;> rfl
  | _ => rfl

/-! ### What the invariant says about the items that wait -/

theorem length_waiting (r : RingBuffer T) :
    r.waiting.length = r.pushed.length - r.popped.length :=
  List.length_drop ..

/-- **No waiting item is overwritten.** -/
theorem ne_of_mem_waiting (h : RingInv c r) {item : T} {currentTail nextTail : UInt64}
    (hp : PushInv c r (.writeSlot item currentTail nextTail)) :
    ∀ w ∈ r.waiting, w.1 ≠ currentTail := by
  obtain ⟨rfl, -⟩ := hp
  intro w hw
  obtain ⟨k, hk⟩ := List.mem_iff_getElem?.mp hw
  rw [RingBuffer.waiting, List.getElem?_drop] at hk
  exact (h.tail_ne hk (Nat.le_add_right _ _)).symm

/-- **When a call of `push` finds no room**: exactly if all slots but one are taken. -/
theorem next_eq_head_iff (h : RingInv c r) {item : T} {currentTail : UInt64}
    (hp : PushInv c r (.loadHead item currentTail)) :
    c.next currentTail = r.head ↔ r.waiting.length + 1 = c.slots := by
  obtain rfl := hp
  have hle := h.length_le
  rw [h.next_tail_eq_head_iff, length_waiting]
  omega

/-- **When a call of `pop` finds nothing**: exactly if no item waits. -/
theorem eq_tail_iff (h : RingInv c r) {currentHead : UInt64}
    (hd : PopInv r (.loadTail currentHead)) : currentHead = r.tail ↔ r.waiting = [] := by
  obtain ⟨rfl, -⟩ := hd
  rw [h.head_eq_tail_iff, RingBuffer.waiting, List.drop_eq_nil_iff]
  exact ⟨fun heq => heq.ge, fun hge => Nat.le_antisymm h.length_le hge⟩

/-- **The size** is the number of waiting items. -/
theorem toNat_size (h : RingInv c r) : (r.size c).toNat = r.waiting.length := by
  rw [RingBuffer.size, h.head, h.tail, c.toNat_distance h.length_le h.room, length_waiting]

theorem empty_iff (h : RingInv c r) : r.empty = true ↔ r.waiting.length = 0 := by
  have hle := h.length_le
  rw [RingBuffer.empty, beq_iff_eq, h.head_eq_tail_iff, length_waiting]
  omega

end RingInv

/-! ### One producer -/

namespace SPSCQueue

variable {c : RingCapacity} {moved : T → T} {q : SPSCQueue T}

/-- **The invariant of the queue with one producer.** A consumer in no call is as one whose call
is done. -/
structure Inv (c : RingCapacity) (q : SPSCQueue T) : Prop where
  ring : RingInv c q.ring
  producer : ∀ p, q.producer = some p → PushInv c q.ring p
  consumer : PopInv q.ring (q.consumer.getD (.done none))
  pushed : q.ring.pushed.map Prod.snd =
    accepted q.pushResults ++ (q.producer.map Push.returning).getD []
  popped : q.ring.popped =
    q.popResults.reduceOption ++ (q.consumer.map Pop.returning).getD []

/-- **Every step keeps the invariant**, whichever of the two threads takes it: only the step that
stores an index moves a boundary of the waiting items. -/
theorem inv_step (h : Inv c q) (action : Action T) : Inv c (q.step c moved action) := by
  cases action with
  | push item =>
      simp only [step]
      split
      · rename_i hproducer
        have hpushed := h.pushed
        rw [hproducer] at hpushed
        refine ⟨h.ring, fun p hp => ?_, h.consumer, hpushed, h.popped⟩
        obtain rfl := Option.some.inj hp
        trivial
      · exact h
  | producer =>
      have hpushed := h.pushed
      simp only [step]
      split
      · exact h
      · rename_i item result hproducer
        rw [hproducer] at hpushed
        refine ⟨h.ring, fun p hp => ?_, h.consumer, ?_, h.popped⟩
        · cases hp
        · simp only [accepted_concat, Option.map_none, Option.getD_none, List.append_nil]
          exact hpushed
      · rename_i p hnew hproducer
        have hp := h.producer p hproducer
        obtain ⟨hring, hnext⟩ := h.ring.push hp
        obtain ⟨hstored, hreturning⟩ := RingInv.map_pushed_push (c := c) q.ring hnew
        rw [hproducer, Option.map_some, Option.getD_some, Push.returning_eq_nil hnew,
          List.append_nil] at hpushed
        refine ⟨hring, fun p' hp' => ?_, h.ring.popInv_push hp h.consumer, ?_, ?_⟩
        · obtain rfl := Option.some.inj hp'
          exact hnext
        · rw [Option.map_some, Option.getD_some, hstored, hreturning, hpushed]
        · rw [RingInv.popped_push]
          exact h.popped
  | pop =>
      simp only [step]
      split
      · rename_i hconsumer
        have hfront := h.consumer
        have hpopped := h.popped
        rw [hconsumer] at hfront hpopped
        exact ⟨h.ring, h.producer, hfront, h.pushed, hpopped⟩
      · exact h
  | consumer =>
      have hcall := h.consumer
      have hpopped := h.popped
      simp only [step]
      split
      · exact h
      · rename_i result hconsumer
        rw [hconsumer] at hcall hpopped
        refine ⟨h.ring, h.producer, hcall, h.pushed, ?_⟩
        simp only [reduceOption_concat, Option.map_none, Option.getD_none, List.append_nil]
        exact hpopped
      · rename_i d hnew hconsumer
        rw [hconsumer] at hcall hpopped
        obtain ⟨hring, hnext⟩ := h.ring.pop hcall
        refine ⟨hring, fun p hp => h.ring.pushInv_pop hcall (h.producer p hp), hnext, ?_, ?_⟩
        · rw [RingInv.pushed_pop]
          exact h.pushed
        · rw [Option.map_some, Option.getD_some, Pop.returning_eq_nil hnew,
            List.append_nil] at hpopped
          rw [Option.map_some, Option.getD_some, RingInv.popped_pop q.ring hnew, hpopped]

theorem inv_after (c : RingCapacity) (moved : T → T) (buffer : UInt64 → T)
    (past : List (Action T)) : Inv c (after c moved buffer past) := by
  induction past with
  | nil =>
      refine ⟨.fresh c buffer, fun p hp => ?_, fun s item hk => ?_, rfl, rfl⟩
      · cases hp
      · cases hk
  | cons action past ih => exact inv_step ih action

/-! What decides the results of the calls -/

section Results

variable (c moved) (buffer : UInt64 → T)

/-- In a history, the call of `push` that `k` others have returned before has loaded `head_`; it was
for `item`, and `full` says whether all slots but one were taken. -/
def LoadedHead (past : List (Action T)) (k : ℕ) (item : T) (full : Bool) : Prop :=
  Took (after c moved buffer) .producer (fun q => q.pushResults.length = k ∧
    (∃ currentTail, q.producer = some (.loadHead item currentTail)) ∧
    (full = true ↔ q.ring.waiting.length + 1 = c.slots)) past

/-- In a history, the call of `pop` that `k` others have returned before has loaded `tail_`, and
`empty` says whether no item waited. -/
def LoadedTail (past : List (Action T)) (k : ℕ) (empty : Bool) : Prop :=
  Took (after c moved buffer) .consumer (fun q => q.popResults.length = k ∧
    (∃ currentHead, q.consumer = some (.loadTail currentHead)) ∧
    (empty = true ↔ q.ring.waiting = [])) past

/-- **What `push` returns** was decided by a load of `head_`. -/
theorem traced_push (past : List (Action T)) :
    Traced (after c moved buffer) SPSCQueue.producer SPSCQueue.pushResults
      (fun past k p => p.Decided (LoadedHead c moved buffer past k))
      (fun past k result => LoadedHead c moved buffer past k result.1 (!result.2)) past := by
  induction past with
  | nil => exact ⟨nofun, nofun⟩
  | cons action past ih =>
      have hdecided (p) (hp : (after c moved buffer past).producer = some p) :=
        (ih.call p hp).imp fun item full hfull => hfull.cons action
      have hlater (k : ℕ) (result : T × Bool)
          (h : LoadedHead c moved buffer past k result.1 (!result.2)) := h.cons action
      cases action with
      | push item =>
          cases hproducer : (after c moved buffer past).producer with
          | some p =>
              refine ih.keep hlater (by simp only [after, step, hproducer]) (fun p' hp' => ?_)
              simp only [after, step, hproducer] at hp'
              exact hdecided p' (hproducer.trans hp')
          | none =>
              refine ih.keep hlater (by simp only [after, step, hproducer]) (fun p hp => ?_)
              simp only [after, step, hproducer, Option.some.injEq] at hp
              subst hp
              trivial
      | producer =>
          cases hproducer : (after c moved buffer past).producer with
          | none =>
              refine ih.keep hlater (by simp only [after, step, hproducer]) (fun p hp => ?_)
              simp only [after, step, hproducer] at hp
              cases hp
          | some p =>
              have hcall := hdecided p hproducer
              have hinv := inv_after c moved buffer past
              cases p with
              | done item result =>
                  exact ih.returns (item, result) hlater (by simp only [after, step, hproducer])
                    (by simp only [after, step, hproducer]) hcall
              | _ =>
                  refine ih.keep hlater (by simp only [after, step, hproducer]) (fun p' hp' => ?_)
                  simp only [after, step, hproducer, Option.some.injEq] at hp'
                  subst hp'
                  refine hcall.push fun item currentTail hload => ?_
                  rw [hload] at hproducer
                  refine ⟨past, List.suffix_rfl, rfl, ⟨currentTail, hproducer⟩, ?_⟩
                  rw [decide_eq_true_eq]
                  exact hinv.ring.next_eq_head_iff (hinv.producer _ hproducer)
      | pop =>
          refine ih.keep hlater ?_ (fun p hp => hdecided p (hp ▸ ?_))
          · simp only [after, step]
            split <;> rfl
          · simp only [after, step]
            split <;> rfl
      | consumer =>
          refine ih.keep hlater ?_ (fun p hp => hdecided p (hp ▸ ?_))
          · simp only [after, step]
            split <;> rfl
          · simp only [after, step]
            split <;> rfl

/-- **What `pop` returns** was decided by a load of `tail_`. -/
theorem traced_pop (past : List (Action T)) :
    Traced (after c moved buffer) SPSCQueue.consumer SPSCQueue.popResults
      (fun past k d => d.Decided (LoadedTail c moved buffer past k))
      (fun past k result => LoadedTail c moved buffer past k result.isNone) past := by
  induction past with
  | nil => exact ⟨nofun, nofun⟩
  | cons action past ih =>
      have hempty (k : ℕ) (b : Bool) (h : LoadedTail c moved buffer past k b) := h.cons action
      cases action with
      | pop =>
          refine ih.consumerBegins hempty ?_ ?_
          · cases hconsumer : (after c moved buffer past).consumer with
            | none => simp only [after, step, hconsumer, Option.getD_none]
            | some d => simp only [after, step, hconsumer, Option.getD_some]
          · simp only [after, step]
            split <;> rfl
      | consumer =>
          have hinv := inv_after c moved buffer past
          have hknown := hinv.consumer
          refine Traced.consumed c moved (after c moved buffer past).ring ih hempty
            (fun currentHead hconsumer => ?_) (fun hconsumer => ?_)
            (fun result hconsumer => ?_) (fun d hnew hconsumer => ?_)
          · rw [hconsumer] at hknown
            refine ⟨past, List.suffix_rfl, rfl, ⟨currentHead, hconsumer⟩, ?_⟩
            rw [decide_eq_true_eq]
            exact hinv.ring.eq_tail_iff hknown
          · simp only [after, step, hconsumer, and_self]
          · simp only [after, step, hconsumer, and_self]
          · cases d with
            | done result => exact absurd rfl (hnew result)
            | _ => simp only [after, step, hconsumer, and_self]
      | push item =>
          refine ih.unconsumed hempty ?_ ?_
          · simp only [after, step]
            split <;> rfl
          · simp only [after, step]
            split <;> rfl
      | producer =>
          refine ih.unconsumed hempty ?_ ?_
          · simp only [after, step]
            split <;> rfl
          · simp only [after, step]
            split <;> rfl

/-- **A correct queue with one producer**, in a history. What the calls of `pop` have returned are
the first items that the calls of `push` have returned to have accepted, or are about to. No waiting
item is overwritten. A call of `push` has returned false exactly if all slots but one were taken
when it loaded `head_`, and a call of `pop` has returned nothing exactly if no item waited when it
loaded `tail_`. While neither side is in a call, the sizes are those of the items accepted and not
yet popped. -/
structure Correct (past : List (Action T)) : Prop where
  pushed : (after c moved buffer past).ring.pushed.map Prod.snd =
    accepted (after c moved buffer past).pushResults ++
      ((after c moved buffer past).producer.map Push.returning).getD []
  popped : (after c moved buffer past).ring.popped =
    (after c moved buffer past).popResults.reduceOption ++
      ((after c moved buffer past).consumer.map Pop.returning).getD []
  fifo : (after c moved buffer past).ring.popped <+:
    (after c moved buffer past).ring.pushed.map Prod.snd
  noOverwrite : ∀ item currentTail nextTail,
    (after c moved buffer past).producer = some (.writeSlot item currentTail nextTail) →
      ∀ w ∈ (after c moved buffer past).ring.waiting, w.1 ≠ currentTail
  pushResult : ∀ k item result,
    (after c moved buffer past).pushResults[k]? = some (item, result) →
      LoadedHead c moved buffer past k item (!result)
  popResult : ∀ k result, (after c moved buffer past).popResults[k]? = some result →
    LoadedTail c moved buffer past k result.isNone
  size : (after c moved buffer past).producer = none → (after c moved buffer past).consumer = none →
    (after c moved buffer past).popResults.reduceOption.length +
        ((after c moved buffer past).ring.size c).toNat =
      (accepted (after c moved buffer past).pushResults).length
  empty : (after c moved buffer past).producer = none →
    (after c moved buffer past).consumer = none →
      ((after c moved buffer past).ring.empty = true ↔
        (after c moved buffer past).popResults.reduceOption.length =
          (accepted (after c moved buffer past).pushResults).length)

end Results

/-- **The queue with one producer is correct** for every capacity, after every interleaving of
the steps of its producer and its consumer. -/
theorem spsc_correct (c : RingCapacity) (moved : T → T) (buffer : UInt64 → T)
    (past : List (Action T)) : Correct c moved buffer past := by
  have h := inv_after c moved buffer past
  have hwaiting (hproducer : (after c moved buffer past).producer = none)
      (hconsumer : (after c moved buffer past).consumer = none) :
      (after c moved buffer past).popResults.reduceOption.length +
          (after c moved buffer past).ring.waiting.length =
        (accepted (after c moved buffer past).pushResults).length := by
    have hle := h.ring.length_le
    have hpushed := congrArg List.length h.pushed
    have hpopped := congrArg List.length h.popped
    rw [hproducer, List.length_map, List.length_append] at hpushed
    rw [hconsumer, List.length_append] at hpopped
    rw [RingInv.length_waiting]
    simp only [Option.map_none, Option.getD_none, List.length_nil, Nat.add_zero] at hpushed hpopped
    omega
  refine ⟨h.pushed, h.popped, h.ring.fifo, fun item currentTail nextTail hp => ?_,
    fun k item result hk => (traced_push c moved buffer past).result k (item, result) hk,
    (traced_pop c moved buffer past).result, fun hproducer hconsumer => ?_,
    fun hproducer hconsumer => ?_⟩
  · exact h.ring.ne_of_mem_waiting (h.producer _ hp)
  · rw [h.ring.toNat_size]
    exact hwaiting hproducer hconsumer
  · have hlength := hwaiting hproducer hconsumer
    rw [h.ring.empty_iff]
    omega

end SPSCQueue

/-! ### Many producers -/

/-- The call in whose body a producer is. -/
def Producer.call? : Producer T → Option (Push T)
  | .locked call => some call
  | _ => none

namespace MPSCQueue

variable {ι : Type*} [DecidableEq ι] {c : RingCapacity} {moved : T → T} {q : MPSCQueue ι T}
  {i : ι} {p : Push T}

/-- The items of a producer, in the order of its stores of `tail_`. -/
def itemsOf (q : MPSCQueue ι T) (i : ι) : List T :=
  (q.log.filter fun entry => entry.1 = i).map Prod.snd

/-- **The invariant of the queue with many producers**: the lock is taken by every producer
in the body of a call, and there is at most one. -/
structure Inv (c : RingCapacity) (q : MPSCQueue ι T) : Prop where
  ring : RingInv c q.ring
  consumer : PopInv q.ring (q.consumer.getD (.done none))
  holder : ∀ i p, q.producer i = .locked p → q.producerLock = true ∧ PushInv c q.ring p
  exclusive : ∀ i j p p', q.producer i = .locked p → q.producer j = .locked p' → i = j
  log : q.log.map Prod.snd = q.ring.pushed.map Prod.snd
  own : ∀ i, q.itemsOf i =
    accepted (q.pushResults i) ++ ((q.producer i).call?.map Push.returning).getD []
  popped : q.ring.popped =
    q.popResults.reduceOption ++ (q.consumer.map Pop.returning).getD []

/-- What the stores of one producer add to the items of each. -/
theorem itemsOf_append (q : MPSCQueue ι T) (i j : ι) (items : List T) :
    ((q.log ++ items.map fun item => (i, item)).filter fun entry => entry.1 = j).map Prod.snd =
      q.itemsOf j ++ if i = j then items else [] := by
  rw [itemsOf, List.filter_append, List.map_append, List.filter_map]
  congr 1
  split
  · rename_i hij
    simp [Function.comp_def, hij]
  · rename_i hij
    simp [Function.comp_def, hij]

/-- **A step of the holder of the lock** in the body of `push`. -/
theorem inv_push (h : Inv c q) (hi : q.producer i = .locked p)
    (hnew : ∀ item result, p ≠ .done item result) :
    Inv c { q with
      ring := (q.ring.push c p).1
      producer := Function.update q.producer i (.locked (q.ring.push c p).2)
      log := q.log ++ p.storing.map fun item => (i, item) } := by
  obtain ⟨hlock, hp⟩ := h.holder i p hi
  obtain ⟨hring, hnext⟩ := h.ring.push hp
  obtain ⟨hpushed, hreturning⟩ := RingInv.map_pushed_push (c := c) q.ring hnew
  have hother : ∀ j p', Function.update q.producer i (.locked (q.ring.push c p).2) j =
      .locked p' → j = i := by
    intro j p' hj
    by_contra hne
    rw [Function.update_of_ne hne] at hj
    exact hne (h.exclusive j i p' p hj hi)
  refine ⟨hring, h.ring.popInv_push hp h.consumer, fun j p' hj => ?_, fun j k p' p'' hj hk => ?_,
    ?_, fun j => ?_, ?_⟩
  · obtain rfl := hother j p' hj
    simp only [Function.update_self, Producer.locked.injEq] at hj
    exact ⟨hlock, hj ▸ hnext⟩
  · rw [hother j p' hj, hother k p'' hk]
  · simp only [List.map_append, List.map_map, hpushed, h.log]
    exact congrArg _ (List.map_id _)
  · refine (itemsOf_append q i j p.storing).trans ?_
    simp only [h.own j]
    by_cases hij : i = j
    · subst hij
      simp only [hi, Function.update_self, if_true, Producer.call?, Option.map_some,
        Option.getD_some, hreturning, Push.returning_eq_nil hnew, List.append_nil]
    · rw [if_neg hij, Function.update_of_ne (Ne.symm hij), List.append_nil]
  · rw [RingInv.popped_push]
    exact h.popped

/-- The call of the holder returns and releases the lock. -/
theorem inv_release {item : T} {result : Bool} (h : Inv c q)
    (hi : q.producer i = .locked (.done item result)) :
    Inv c { q with
      producerLock := false
      producer := Function.update q.producer i .idle
      pushResults :=
        Function.update q.pushResults i (q.pushResults i ++ [(item, result)]) } := by
  have hnone : ∀ j p', Function.update q.producer i .idle j ≠ .locked p' := by
    intro j p' hj
    by_cases hne : j = i
    · rw [hne, Function.update_self] at hj
      cases hj
    · rw [Function.update_of_ne hne] at hj
      exact hne (h.exclusive j i p' _ hj hi)
  refine ⟨h.ring, h.consumer, fun j p' hj => absurd hj (hnone j p'),
    fun j k p' _ hj => absurd hj (hnone j p'), h.log, fun j => ?_, h.popped⟩
  refine (h.own j).trans ?_
  by_cases hij : j = i
  · subst hij
    simp only [hi, Function.update_self, accepted_concat, Producer.call?, Option.map_some,
      Option.map_none, Option.getD_some, Option.getD_none, List.append_nil]
  · simp only [Function.update_of_ne hij]

/-- A producer begins a call. -/
theorem inv_call (h : Inv c q) (hi : q.producer i = .idle) (item : T) :
    Inv c { q with producer := Function.update q.producer i (.acquire item) } := by
  have hlocked : ∀ j p', Function.update q.producer i (.acquire item) j = .locked p' →
      q.producer j = .locked p' := by
    intro j p' hj
    by_cases hij : j = i
    · rw [hij, Function.update_self] at hj
      cases hj
    · rwa [Function.update_of_ne hij] at hj
  refine ⟨h.ring, h.consumer, fun j p' hj => h.holder j p' (hlocked j p' hj),
    fun j k p' p'' hj hk => h.exclusive j k p' p'' (hlocked j p' hj) (hlocked k p'' hk), h.log,
    fun j => (h.own j).trans ?_, h.popped⟩
  by_cases hij : j = i
  · subst hij
    simp only [hi, Function.update_self]
    rfl
  · simp only [Function.update_of_ne hij]

/-- A producer finds the lock free and takes it. -/
theorem inv_acquire {item : T} (h : Inv c q) (hi : q.producer i = .acquire item)
    (hfree : q.producerLock = false) :
    Inv c { q with
      producerLock := true
      producer := Function.update q.producer i (.locked (.loadTail item)) } := by
  have hnone : ∀ j p', q.producer j ≠ .locked p' := by
    intro j p' hj
    have hlock := (h.holder j p' hj).1
    rw [hfree] at hlock
    cases hlock
  have hother : ∀ j p', Function.update q.producer i (.locked (.loadTail item)) j = .locked p' →
      j = i := by
    intro j p' hj
    by_contra hne
    rw [Function.update_of_ne hne] at hj
    exact hnone j p' hj
  refine ⟨h.ring, h.consumer, fun j p' hj => ?_, fun j k p' p'' hj hk => ?_, h.log,
    fun j => ?_, h.popped⟩
  · obtain rfl := hother j p' hj
    simp only [Function.update_self, Producer.locked.injEq] at hj
    exact ⟨rfl, hj ▸ trivial⟩
  · rw [hother j p' hj, hother k p'' hk]
  · refine (h.own j).trans ?_
    by_cases hij : j = i
    · subst hij
      simp only [hi, Function.update_self]
      rfl
    · simp only [Function.update_of_ne hij]

/-- **A step of a producer** keeps the invariant. -/
theorem inv_produce (h : Inv c q) (i : ι) : Inv c (q.produce c i) := by
  rw [produce]
  split
  · exact h
  · rename_i item hi
    by_cases hlock : q.producerLock = true
    · simp only [hlock, if_true]
      have hsame : ({ q with producerLock := true } : MPSCQueue ι T) = q := by
        rw [← hlock]
      rw [hsame]
      exact h
    · simp only [hlock]
      exact inv_acquire h hi (Bool.not_eq_true _ ▸ hlock)
  · rename_i item result hi
    exact inv_release h hi
  · rename_i p hnew hi
    exact inv_push h hi hnew

/-- **Every step keeps the invariant**: the slot of an acquired push is its producer's until it is
released, and only the store of an index moves a boundary of the waiting items. -/
theorem inv_step (h : Inv c q) (action : Action ι T) : Inv c (q.step c moved action) := by
  cases action with
  | push i item =>
      simp only [step]
      split
      · rename_i hi
        exact inv_call h hi item
      · exact h
  | producer i => exact inv_produce h i
  | pop =>
      simp only [step]
      split
      · rename_i hconsumer
        have hfront := h.consumer
        have hpopped := h.popped
        rw [hconsumer] at hfront hpopped
        exact ⟨h.ring, hfront, h.holder, h.exclusive, h.log, h.own, hpopped⟩
      · exact h
  | consumer =>
      have hcall := h.consumer
      have hpopped := h.popped
      simp only [step]
      split
      · exact h
      · rename_i result hconsumer
        rw [hconsumer] at hcall hpopped
        refine ⟨h.ring, hcall, h.holder, h.exclusive, h.log, h.own, ?_⟩
        simp only [reduceOption_concat, Option.map_none, Option.getD_none, List.append_nil]
        exact hpopped
      · rename_i d hnew hconsumer
        rw [hconsumer] at hcall hpopped
        obtain ⟨hring, hnext⟩ := h.ring.pop hcall
        refine ⟨hring, hnext, fun i p hi => ?_, h.exclusive, ?_, h.own, ?_⟩
        · obtain ⟨hlock, hp⟩ := h.holder i p hi
          exact ⟨hlock, h.ring.pushInv_pop hcall hp⟩
        · rw [h.log, RingInv.pushed_pop]
        · rw [Option.map_some, Option.getD_some, Pop.returning_eq_nil hnew,
            List.append_nil] at hpopped
          rw [Option.map_some, Option.getD_some, RingInv.popped_pop q.ring hnew, hpopped]

theorem inv_after (c : RingCapacity) (moved : T → T) (buffer : UInt64 → T)
    (past : List (Action ι T)) : Inv c (after c moved buffer past) := by
  induction past with
  | nil =>
      refine ⟨.fresh c buffer, fun s item hk => ?_, fun i p hi => ?_, fun i j p p' hi => ?_, rfl,
        fun i => rfl, rfl⟩
      · cases hk
      · cases hi
      · cases hi
  | cons action past ih => exact inv_step ih action

/-! What decides the results of the calls -/

/-- A step of a producer leaves the others where they are, and their results. -/
theorem produce_ne {j : ι} (hne : i ≠ j) (q : MPSCQueue ι T) :
    (q.produce c j).producer i = q.producer i ∧
      (q.produce c j).pushResults i = q.pushResults i := by
  simp only [produce]
  split
  · exact ⟨rfl, rfl⟩
  · dsimp only
    split
    · exact ⟨rfl, rfl⟩
    · exact ⟨Function.update_of_ne hne .., rfl⟩
  · exact ⟨Function.update_of_ne hne .., Function.update_of_ne hne ..⟩
  · exact ⟨Function.update_of_ne hne .., rfl⟩

theorem produce_consumer (q : MPSCQueue ι T) (i : ι) :
    (q.produce c i).consumer = q.consumer ∧ (q.produce c i).popResults = q.popResults := by
  simp only [produce]
  split <;> exact ⟨rfl, rfl⟩

section Results

variable (c moved) (buffer : UInt64 → T)

/-- In a history, the call of `push` of a producer that `k` others of its calls have returned before
has loaded `head_`; it was for `item`, and `full` says whether all slots but one were taken. -/
def LoadedHead (i : ι) (past : List (Action ι T)) (k : ℕ) (item : T) (full : Bool) : Prop :=
  Took (after c moved buffer) (.producer i) (fun q => (q.pushResults i).length = k ∧
    (∃ currentTail, q.producer i = .locked (.loadHead item currentTail)) ∧
    (full = true ↔ q.ring.waiting.length + 1 = c.slots)) past

/-- In a history, the call of `pop` that `k` others have returned before has loaded `tail_`, and
`empty` says whether no item waited. -/
def LoadedTail (past : List (Action ι T)) (k : ℕ) (empty : Bool) : Prop :=
  Took (after c moved buffer) .consumer (fun q => q.popResults.length = k ∧
    (∃ currentHead, q.consumer = some (.loadTail currentHead)) ∧
    (empty = true ↔ q.ring.waiting = [])) past

/-- **What `push` returns** was decided by a load of `head_`. -/
theorem traced_push (i : ι) (past : List (Action ι T)) :
    Traced (after c moved buffer) (fun q => (q.producer i).call?) (fun q => q.pushResults i)
      (fun past k p => p.Decided (LoadedHead c moved buffer i past k))
      (fun past k result => LoadedHead c moved buffer i past k result.1 (!result.2)) past := by
  induction past with
  | nil => exact ⟨nofun, nofun⟩
  | cons action past ih =>
      have hdecided (p) (hp : ((after c moved buffer past).producer i).call? = some p) :=
        (ih.call p hp).imp fun item full hfull => hfull.cons action
      have hlater (k : ℕ) (result : T × Bool)
          (h : LoadedHead c moved buffer i past k result.1 (!result.2)) := h.cons action
      cases action with
      | push j item =>
          refine ih.keep hlater ?_ (fun p hp => ?_)
          · simp only [after, step]
            split <;> rfl
          · simp only [after, step] at hp
            split at hp
            · dsimp only at hp
              by_cases hij : i = j
              · rw [hij, Function.update_self] at hp
                cases hp
              · rw [Function.update_of_ne hij] at hp
                exact hdecided p hp
            · exact hdecided p hp
      | producer j =>
          by_cases hij : i = j
          · subst hij
            cases hproducer : (after c moved buffer past).producer i with
            | idle =>
                refine ih.keep hlater (by simp only [after, step, produce, hproducer])
                  (fun p hp => ?_)
                simp only [after, step, produce, hproducer, Producer.call?] at hp
                cases hp
            | acquire item =>
                refine ih.keep hlater (by simp only [after, step, produce, hproducer])
                  (fun p hp => ?_)
                simp only [after, step, produce, hproducer] at hp
                split at hp
                · rw [hproducer] at hp
                  cases hp
                · rw [Function.update_self] at hp
                  obtain rfl := Option.some.inj hp
                  trivial
            | locked p =>
                have hcall := hdecided p (by rw [hproducer]; rfl)
                have hinv := inv_after c moved buffer past
                cases p with
                | done item result =>
                    exact ih.returns (item, result) hlater
                      (by simp only [after, step, produce, hproducer, Function.update_self])
                      (by simp only [after, step, produce, hproducer, Function.update_self,
                        Producer.call?]) hcall
                | _ =>
                    refine ih.keep hlater (by simp only [after, step, produce, hproducer])
                      (fun p' hp' => ?_)
                    simp only [after, step, produce, hproducer, Function.update_self,
                      Producer.call?, Option.some.injEq] at hp'
                    subst hp'
                    refine hcall.push fun item currentTail hload => ?_
                    rw [hload] at hproducer
                    refine ⟨past, List.suffix_rfl, rfl, ⟨currentTail, hproducer⟩, ?_⟩
                    rw [decide_eq_true_eq]
                    exact hinv.ring.next_eq_head_iff (hinv.holder i _ hproducer).2
          · obtain ⟨hsame, hresults⟩ :=
              produce_ne (c := c) hij (after c moved buffer past)
            exact ih.keep hlater hresults (fun p hp => hdecided p (hsame ▸ hp))
      | pop =>
          refine ih.keep hlater ?_ (fun p hp => hdecided p (hp ▸ ?_))
          · simp only [after, step]
            split <;> rfl
          · simp only [after, step]
            split <;> rfl
      | consumer =>
          refine ih.keep hlater ?_ (fun p hp => hdecided p (hp ▸ ?_))
          · simp only [after, step]
            split <;> rfl
          · simp only [after, step]
            split <;> rfl

/-- **What `pop` returns** was decided by a load of `tail_`. -/
theorem traced_pop (past : List (Action ι T)) :
    Traced (after c moved buffer) MPSCQueue.consumer MPSCQueue.popResults
      (fun past k d => d.Decided (LoadedTail c moved buffer past k))
      (fun past k result => LoadedTail c moved buffer past k result.isNone) past := by
  induction past with
  | nil => exact ⟨nofun, nofun⟩
  | cons action past ih =>
      have hempty (k : ℕ) (b : Bool) (h : LoadedTail c moved buffer past k b) := h.cons action
      cases action with
      | pop =>
          refine ih.consumerBegins hempty ?_ ?_
          · cases hconsumer : (after c moved buffer past).consumer with
            | none => simp only [after, step, hconsumer, Option.getD_none]
            | some d => simp only [after, step, hconsumer, Option.getD_some]
          · simp only [after, step]
            split <;> rfl
      | consumer =>
          have hinv := inv_after c moved buffer past
          have hknown := hinv.consumer
          refine Traced.consumed c moved (after c moved buffer past).ring ih hempty
            (fun currentHead hconsumer => ?_) (fun hconsumer => ?_)
            (fun result hconsumer => ?_) (fun d hnew hconsumer => ?_)
          · rw [hconsumer] at hknown
            refine ⟨past, List.suffix_rfl, rfl, ⟨currentHead, hconsumer⟩, ?_⟩
            rw [decide_eq_true_eq]
            exact hinv.ring.eq_tail_iff hknown
          · simp only [after, step, hconsumer, and_self]
          · simp only [after, step, hconsumer, and_self]
          · cases d with
            | done result => exact absurd rfl (hnew result)
            | _ => simp only [after, step, hconsumer, and_self]
      | push j item =>
          refine ih.unconsumed hempty ?_ ?_
          · simp only [after, step]
            split <;> rfl
          · simp only [after, step]
            split <;> rfl
      | producer j =>
          obtain ⟨hsame, hresults⟩ := produce_consumer (c := c) (after c moved buffer past) j
          exact ih.unconsumed hempty hsame hresults

/-- **A correct queue with many producers**, in a history. At most one of them is in the body of
`push`. What the calls of `pop` have returned are the first items stored, in the order of the stores
of `tail_`; the items that a producer has stored are those that its calls of `push` have returned to
have accepted, or are about to, in the order of the calls. No waiting item is overwritten. A call of
`push` has returned false exactly if all slots but one were taken when it loaded `head_`, and a call
of `pop` has returned nothing exactly if no item waited when it loaded `tail_`. -/
structure Correct (past : List (Action ι T)) : Prop where
  exclusive : ∀ i j p p', (after c moved buffer past).producer i = .locked p →
    (after c moved buffer past).producer j = .locked p' → i = j
  log : (after c moved buffer past).log.map Prod.snd =
    (after c moved buffer past).ring.pushed.map Prod.snd
  own : ∀ i, (after c moved buffer past).itemsOf i =
    accepted ((after c moved buffer past).pushResults i) ++
      (((after c moved buffer past).producer i).call?.map Push.returning).getD []
  popped : (after c moved buffer past).ring.popped =
    (after c moved buffer past).popResults.reduceOption ++
      ((after c moved buffer past).consumer.map Pop.returning).getD []
  fifo : (after c moved buffer past).ring.popped <+:
    (after c moved buffer past).log.map Prod.snd
  noOverwrite : ∀ i item currentTail nextTail,
    (after c moved buffer past).producer i = .locked (.writeSlot item currentTail nextTail) →
      ∀ w ∈ (after c moved buffer past).ring.waiting, w.1 ≠ currentTail
  pushResult : ∀ i k item result,
    ((after c moved buffer past).pushResults i)[k]? = some (item, result) →
      LoadedHead c moved buffer i past k item (!result)
  popResult : ∀ k result, (after c moved buffer past).popResults[k]? = some result →
    LoadedTail c moved buffer past k result.isNone

end Results

/-- **The queue with many producers is correct** for every capacity, after every interleaving of
the steps of its producers and its consumer. -/
theorem mpsc_correct (c : RingCapacity) (moved : T → T) (buffer : UInt64 → T)
    (past : List (Action ι T)) : Correct c moved buffer past := by
  have h := inv_after c moved buffer past
  refine ⟨h.exclusive, h.log, h.own, h.popped, ?_, fun i item currentTail nextTail hi => ?_,
    fun i k item result hk => (traced_push c moved buffer i past).result k (item, result) hk,
    (traced_pop c moved buffer past).result⟩
  · rw [h.log]
    exact h.ring.fifo
  · exact h.ring.ne_of_mem_waiting (h.holder i _ hi).2

end MPSCQueue

end ExchangeEngine
