import Mathlib.Logic.Function.Basic
import Mathlib.Tactic.Common

/-!
# A Store of Shared Objects

Objects held through shared pointers live in a store: an address names one object, every
holder of the address sees every write through it, and an allocation gives an address that
no earlier allocation gave. Objects are never moved, and an object no holder refers to any
more is simply never read again, so there is no operation that frees one.
-/

/-- A store of objects of type `α` at natural-number addresses. Addresses below `next` have
been allocated. -/
structure ObjectStore (α : Type*) where
  cells : ℕ → α
  next : ℕ

namespace ObjectStore

variable {α : Type*}

/-- The store in which nothing has been allocated yet. -/
def empty [Inhabited α] : ObjectStore α :=
  ⟨fun _ => default, 0⟩

/-- The object at address `p`. -/
def read (s : ObjectStore α) (p : ℕ) : α :=
  s.cells p

/-- Overwrite the object at address `p`. -/
def write (s : ObjectStore α) (p : ℕ) (a : α) : ObjectStore α :=
  { s with cells := Function.update s.cells p a }

/-- Allocate a new object; its address is `s.next`. -/
def alloc (s : ObjectStore α) (a : α) : ObjectStore α :=
  ⟨Function.update s.cells s.next a, s.next + 1⟩

@[simp] theorem read_write_self (s : ObjectStore α) (p : ℕ) (a : α) :
    (s.write p a).read p = a := by
  simp only [read, write, Function.update_self]

@[simp] theorem read_write_of_ne (s : ObjectStore α) {p q : ℕ} (h : q ≠ p) (a : α) :
    (s.write p a).read q = s.read q := by
  simp only [read, write, Function.update_of_ne h]

@[simp] theorem write_write (s : ObjectStore α) (p : ℕ) (a a' : α) :
    (s.write p a).write p a' = s.write p a' := by
  simp only [write, Function.update_idem]

@[simp] theorem next_write (s : ObjectStore α) (p : ℕ) (a : α) :
    (s.write p a).next = s.next :=
  rfl

@[simp] theorem read_alloc_next (s : ObjectStore α) (a : α) : (s.alloc a).read s.next = a := by
  simp only [read, alloc, Function.update_self]

theorem read_alloc_of_lt (s : ObjectStore α) {p : ℕ} (h : p < s.next) (a : α) :
    (s.alloc a).read p = s.read p := by
  simp only [read, alloc, Function.update_of_ne (Nat.ne_of_lt h)]

@[simp] theorem next_alloc (s : ObjectStore α) (a : α) : (s.alloc a).next = s.next + 1 :=
  rfl

/-- Writes to different objects commute. -/
theorem write_comm (s : ObjectStore α) {p q : ℕ} (h : q ≠ p) (a b : α) :
    (s.write q b).write p a = (s.write p a).write q b := by
  simp only [write, Function.update_comm h]

/-- A write to an older object commutes with an allocation. -/
theorem alloc_write (s : ObjectStore α) {q : ℕ} (h : q ≠ s.next) (a b : α) :
    (s.write q b).alloc a = (s.alloc a).write q b := by
  simp only [write, alloc, Function.update_comm h]

/-! ### Objects seen through a function -/

variable {β : Type*}

/-- The store with each object replaced by its image. -/
def map (f : α → β) (s : ObjectStore α) : ObjectStore β :=
  ⟨fun p => f (s.cells p), s.next⟩

@[simp] theorem read_map (f : α → β) (s : ObjectStore α) (p : ℕ) :
    (s.map f).read p = f (s.read p) :=
  rfl

@[simp] theorem next_map (f : α → β) (s : ObjectStore α) : (s.map f).next = s.next :=
  rfl

theorem map_write (f : α → β) (s : ObjectStore α) (p : ℕ) (a : α) :
    (s.write p a).map f = (s.map f).write p (f a) := by
  simp only [map, write, ObjectStore.mk.injEq, and_true]
  funext q
  rw [Function.apply_update fun _ => f]

theorem map_alloc (f : α → β) (s : ObjectStore α) (a : α) :
    (s.alloc a).map f = (s.map f).alloc (f a) := by
  simp only [map, alloc, ObjectStore.mk.injEq, and_true]
  funext q
  rw [Function.apply_update fun _ => f]

end ObjectStore
