import Mathlib.Algebra.GroupWithZero.Nat
import Mathlib.Data.List.Basic
import Mathlib.Data.Vector.Basic
import Mathlib.Tactic.Common

/-!
# Layouts of Packed Records

A packed record of an imperative language is a fixed number of bytes: its fields one after
another, integers with their least significant byte first. A `Layout` of a type says how many
bytes a value takes, how it is written, and how it is read from the front of a byte string. A
byte string that is too short has no value.

The law of a layout is a field of the type: reading gives a value exactly when the written
value is a prefix. Both round trips are this one law, and the layouts of a record are built
from those of its fields by `Layout.prod` and `Layout.map`, with `Layout.vector` for its arrays.

`Layout.readAt` is the read of one field at its offset in a record, as compiled code makes it,
with a check that it stays inside the byte string. Reading a record is reading its fields at
their offsets (`readAt_prod`, `readAt_map`).
-/

/-- A fixed-size binary representation of `α`. -/
structure Layout (α : Type*) where
  size : ℕ
  write : α → List UInt8
  read : List UInt8 → Option α
  length_write : ∀ a, (write a).length = size
  read_eq_some_iff : ∀ {bs a}, read bs = some a ↔ write a <+: bs

namespace Layout

variable {α β : Type*}

/-- What has been written is read back, whatever follows it. -/
theorem read_write_append (l : Layout α) (a : α) (rest : List UInt8) :
    l.read (l.write a ++ rest) = some a :=
  l.read_eq_some_iff.mpr (List.prefix_append _ _)

/-! ### Integers -/

/-- The number whose base 256 digits are the bytes, the least significant first. -/
def littleEndian : List UInt8 → ℕ
  | [] => 0
  | b :: bs => b.toNat + 256 * littleEndian bs

/-- The `n` low bytes of a number, the least significant first. -/
def lowBytes : ℕ → ℕ → List UInt8
  | 0, _ => []
  | n + 1, v => UInt8.ofNat v :: lowBytes n (v / 256)

theorem length_lowBytes (n v : ℕ) : (lowBytes n v).length = n := by
  induction n generalizing v with
  | zero => rfl
  | succ n ih => rw [lowBytes, List.length_cons, ih]

theorem littleEndian_lowBytes {n v : ℕ} (h : v < 256 ^ n) :
    littleEndian (lowBytes n v) = v := by
  induction n generalizing v with
  | zero =>
      rw [Nat.pow_zero] at h
      rw [lowBytes, littleEndian]
      omega
  | succ n ih =>
      have hdiv : v / 256 < 256 ^ n := Nat.div_lt_of_lt_mul (by rwa [Nat.pow_succ'] at h)
      rw [lowBytes, littleEndian, ih hdiv, UInt8.toNat_ofNat']
      omega

theorem lowBytes_littleEndian (bs : List UInt8) :
    lowBytes bs.length (littleEndian bs) = bs := by
  induction bs with
  | nil => rfl
  | cons b bs ih =>
      have hb : b.toNat < 256 := b.toNat_lt
      have hdiv : (b.toNat + 256 * littleEndian bs) / 256 = littleEndian bs := by omega
      have hlow : UInt8.ofNat (b.toNat + 256 * littleEndian bs) = b := by
        refine UInt8.toNat_inj.mp ?_
        rw [UInt8.toNat_ofNat']
        omega
      rw [List.length_cons, littleEndian, lowBytes, hdiv, ih, hlow]

theorem littleEndian_lt (bs : List UInt8) : littleEndian bs < 256 ^ bs.length := by
  induction bs with
  | nil => exact Nat.one_pos
  | cons b bs ih =>
      have hb : b.toNat < 256 := b.toNat_lt
      rw [littleEndian, List.length_cons, Nat.pow_succ']
      omega

/-- **An unsigned integer of `n` bytes**, for a type that is the numbers below `256 ^ n`. -/
def unsigned (n : ℕ) (toNat : α → ℕ) (ofNat : ℕ → α) (hlt : ∀ a, toNat a < 256 ^ n)
    (hof : ∀ a, ofNat (toNat a) = a) (hto : ∀ v < 256 ^ n, toNat (ofNat v) = v) :
    Layout α where
  size := n
  write a := lowBytes n (toNat a)
  read bs := if n ≤ bs.length then some (ofNat (littleEndian (bs.take n))) else none
  length_write a := length_lowBytes n (toNat a)
  read_eq_some_iff := by
    intro bs a
    rw [List.prefix_iff_eq_take, length_lowBytes]
    constructor
    · intro h
      obtain ⟨hle, ha⟩ := Option.ite_none_right_eq_some.mp h
      have hlength : (bs.take n).length = n := List.length_take_of_le hle
      have hsmall := littleEndian_lt (bs.take n)
      rw [hlength] at hsmall
      have hback := lowBytes_littleEndian (bs.take n)
      rw [hlength] at hback
      rw [← Option.some.inj ha, hto _ hsmall, hback]
    · intro h
      have hle : n ≤ bs.length := by
        have hlength := congrArg List.length h
        rw [length_lowBytes, List.length_take] at hlength
        omega
      rw [if_pos hle, ← h, littleEndian_lowBytes (hlt a), hof]

/-! ### Records -/

/-- **Two fields, one after the other.** -/
def prod (l : Layout α) (k : Layout β) : Layout (α × β) where
  size := l.size + k.size
  write p := l.write p.1 ++ k.write p.2
  read bs := (l.read bs).bind fun a => (k.read (bs.drop l.size)).map fun b => (a, b)
  length_write p := by rw [List.length_append, l.length_write, k.length_write]
  read_eq_some_iff := by
    rintro bs ⟨a, b⟩
    constructor
    · intro h
      obtain ⟨a', ha, h⟩ := Option.bind_eq_some_iff.mp h
      obtain ⟨b', hb, h⟩ := Option.map_eq_some_iff.mp h
      obtain ⟨rfl, rfl⟩ := Prod.mk.inj h
      obtain ⟨rest, rfl⟩ := l.read_eq_some_iff.mp ha
      rw [List.drop_left' (l.length_write a')] at hb
      exact (List.prefix_append_right_inj _).mpr (k.read_eq_some_iff.mp hb)
    · intro h
      obtain ⟨rest, rfl⟩ := h
      have ha : l.read (l.write a ++ k.write b ++ rest) = some a := by
        rw [List.append_assoc]
        exact l.read_write_append a _
      have hb : k.read ((l.write a ++ k.write b ++ rest).drop l.size) = some b := by
        rw [List.append_assoc, List.drop_left' (l.length_write a)]
        exact k.read_write_append b rest
      simp only [ha, hb, Option.bind_some, Option.map_some]

/-- **Another type for the same bytes**: `f` gives the value that some of them stand for, and
`g` is its inverse. -/
def map (l : Layout α) (f : α → Option β) (g : β → α) (h : ∀ {a b}, f a = some b ↔ g b = a) :
    Layout β where
  size := l.size
  write b := l.write (g b)
  read bs := (l.read bs).bind f
  length_write b := l.length_write (g b)
  read_eq_some_iff := by
    intro bs b
    constructor
    · intro hread
      obtain ⟨a, ha, hb⟩ := Option.bind_eq_some_iff.mp hread
      rw [h.mp hb]
      exact l.read_eq_some_iff.mp ha
    · intro hbegin
      rw [l.read_eq_some_iff.mpr hbegin, Option.bind_some]
      exact h.mpr rfl

/-- No fields. -/
def empty : Layout (List.Vector α 0) where
  size := 0
  write _ := []
  read _ := some .nil
  length_write _ := rfl
  read_eq_some_iff := by
    intro bs as
    exact iff_of_true (congrArg some as.eq_nil.symm) List.nil_prefix

/-- **An array of `n` elements**, one after another. -/
def vector (l : Layout α) : (n : ℕ) → Layout (List.Vector α n)
  | 0 => empty
  | n + 1 =>
      (l.prod (l.vector n)).map (fun (a, as) => some (a ::ᵥ as)) (fun as => (as.head, as.tail)) (by
        rintro ⟨a, as⟩ bs
        constructor
        · intro h
          rw [← Option.some.inj h, List.Vector.head_cons, List.Vector.tail_cons]
        · intro h
          obtain ⟨rfl, rfl⟩ := Prod.mk.inj h
          exact congrArg some bs.cons_head_tail)

/-! ### Reads at an offset -/

variable {l : Layout α} {k : Layout β} {bs : List UInt8} {offset : ℕ}

/-- **A checked read** at an offset: it gives nothing if it would go beyond the end. -/
def readAt (l : Layout α) (bs : List UInt8) (offset : ℕ) : Option α :=
  if offset + l.size ≤ bs.length then l.read (bs.drop offset) else none

/-- A byte string that has a value is long enough. -/
theorem size_le_of_read {a : α} (h : l.read bs = some a) : l.size ≤ bs.length := by
  rw [← l.length_write a]
  exact (l.read_eq_some_iff.mp h).length_le

theorem read_eq_none (h : bs.length < l.size) : l.read bs = none :=
  Option.eq_none_iff_forall_ne_some.mpr fun _ ha => Nat.not_le_of_lt h (size_le_of_read ha)

theorem readAt_zero (l : Layout α) (bs : List UInt8) : l.readAt bs 0 = l.read bs := by
  rw [readAt, Nat.zero_add, List.drop_zero]
  split
  · rfl
  · rename_i hshort
    exact (read_eq_none (Nat.lt_of_not_le hshort)).symm

theorem readAt_prod (l : Layout α) (k : Layout β) (bs : List UInt8) (offset : ℕ) :
    (l.prod k).readAt bs offset =
      (l.readAt bs offset).bind fun a => (k.readAt bs (offset + l.size)).map fun b => (a, b) := by
  have hsize : (l.prod k).size = l.size + k.size := rfl
  simp only [readAt, hsize, ← Nat.add_assoc]
  by_cases hk : offset + l.size + k.size ≤ bs.length
  · have hl : offset + l.size ≤ bs.length := by omega
    rw [if_pos hk, if_pos hk, if_pos hl]
    simp only [prod, List.drop_drop]
  · rw [if_neg hk, if_neg hk]
    simp

theorem readAt_map (l : Layout α) (f : α → Option β) (g : β → α)
    (h : ∀ {a b}, f a = some b ↔ g b = a) (bs : List UInt8) (offset : ℕ) :
    (l.map f g @h).readAt bs offset = (l.readAt bs offset).bind f := by
  simp only [readAt, show (l.map f g @h).size = l.size from rfl]
  split <;> rfl

/-- Every byte string that is long enough has a value. -/
def Total (l : Layout α) : Prop :=
  ∀ bs, l.size ≤ bs.length → ∃ a, l.read bs = some a

/-- A checked read of such a value fails only beyond the end. -/
theorem Total.readAt (h : l.Total) (hle : offset + l.size ≤ bs.length) :
    ∃ a, l.readAt bs offset = some a := by
  rw [Layout.readAt, if_pos hle]
  refine h _ ?_
  rw [List.length_drop]
  omega

theorem total_unsigned {n : ℕ} {toNat : α → ℕ} {ofNat : ℕ → α} {hlt : ∀ a, toNat a < 256 ^ n}
    {hof : ∀ a, ofNat (toNat a) = a} {hto : ∀ v < 256 ^ n, toNat (ofNat v) = v} :
    (unsigned n toNat ofNat hlt hof hto).Total :=
  fun _ hle => ⟨_, if_pos hle⟩

/-- A checked read of an integer gives the number that its bytes stand for. -/
theorem toNat_of_readAt {n : ℕ} {toNat : α → ℕ} {ofNat : ℕ → α} {hlt : ∀ a, toNat a < 256 ^ n}
    {hof : ∀ a, ofNat (toNat a) = a} {hto : ∀ v < 256 ^ n, toNat (ofNat v) = v} {a : α}
    (h : (unsigned n toNat ofNat hlt hof hto).readAt bs offset = some a) :
    toNat a = littleEndian ((bs.drop offset).take n) := by
  obtain ⟨-, hread⟩ := Option.ite_none_right_eq_some.mp h
  obtain ⟨hle, ha⟩ := Option.ite_none_right_eq_some.mp hread
  have hsmall := littleEndian_lt ((bs.drop offset).take n)
  rw [List.length_take_of_le hle] at hsmall
  rw [← Option.some.inj ha, hto _ hsmall]

theorem Total.prod (hl : l.Total) (hk : k.Total) : (l.prod k).Total := by
  intro bs hle
  have hsize : (l.prod k).size = l.size + k.size := rfl
  obtain ⟨a, ha⟩ := hl bs (by omega)
  obtain ⟨b, hb⟩ := hk (bs.drop l.size) (by rw [List.length_drop]; omega)
  exact ⟨(a, b), by simp only [Layout.prod, ha, hb, Option.bind_some, Option.map_some]⟩

theorem Total.map {f : α → β} {g : β → α} {h : ∀ {a b}, some (f a) = some b ↔ g b = a}
    (hl : l.Total) : (l.map (fun a => some (f a)) g @h).Total := by
  intro bs hle
  obtain ⟨a, ha⟩ := hl bs hle
  exact ⟨f a, by simp only [Layout.map, ha, Option.bind_some]⟩

theorem Total.vector (hl : l.Total) (n : ℕ) : (l.vector n).Total := by
  induction n with
  | zero => exact fun _ _ => ⟨.nil, rfl⟩
  | succ n ih => exact (hl.prod ih).map

end Layout
