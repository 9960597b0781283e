import Mathlib.Data.Nat.ModEq
import Mathlib.Tactic.Common

/-!
# Ring Indices

A ring has a power of two many slots, and its indices are machine words: an index is advanced by
adding one and masking. A stream of items that goes round and round the ring puts item number
`n` into `slot n`. As long as a window of the stream is no longer than the ring, its items lie in
different slots, so what a pair of indices says about a window can be read off the indices alone.

## Main results

* `next_slot`: advancing the index of an item gives the index of the next one.
* `slot_inj`: two items of a window lie in different slots.
* `next_slot_eq_iff`: when the slot after a window is the first one of the window.
* `toNat_distance`: the length of a window from its two indices, with wrapping arithmetic.
-/

/-- The capacity of a ring: a power of two. -/
structure RingCapacity where
  size : UInt64
  size_ne_zero : size ≠ 0
  and_sub_one : size &&& (size - 1) = 0

namespace RingCapacity

variable (c : RingCapacity)

/-- The number of slots. -/
def slots : ℕ :=
  c.size.toNat

/-- The index after an index. -/
def next (i : UInt64) : UInt64 :=
  (i + 1) &&& (c.size - 1)

/-- The distance from one index on to another. -/
def distance (i j : UInt64) : UInt64 :=
  (j - i + c.size) &&& (c.size - 1)

/-- The slot of item number `n` of a stream. -/
def slot (n : ℕ) : UInt64 :=
  UInt64.ofNat (n % c.slots)

theorem slots_pos : 0 < c.slots :=
  Nat.pos_of_ne_zero fun h => c.size_ne_zero (UInt64.toNat_inj.mp h)

theorem slots_lt : c.slots < 2 ^ 64 :=
  c.size.toNat_lt

theorem exists_two_pow : ∃ k, k ≤ 64 ∧ c.slots = 2 ^ k := by
  have hand := congrArg UInt64.toNat c.and_sub_one
  have hle : (1 : UInt64) ≤ c.size := UInt64.le_iff_toNat_le.mpr c.slots_pos
  rw [UInt64.toNat_and, UInt64.toNat_sub_of_le _ _ hle] at hand
  obtain ⟨k, hk⟩ := (Nat.and_sub_one_eq_zero_iff_isPowerOfTwo c.slots_pos.ne').mp hand
  refine ⟨k, ?_, hk⟩
  have hlt : 2 ^ k < 2 ^ 64 := hk ▸ c.slots_lt
  exact ((Nat.pow_lt_pow_iff_right (by decide)).mp hlt).le

/-- Masking is reducing modulo the number of slots. -/
theorem toNat_mask (i : UInt64) : (i &&& (c.size - 1)).toNat = i.toNat % c.slots := by
  obtain ⟨k, -, hk⟩ := c.exists_two_pow
  have hle : (1 : UInt64) ≤ c.size := UInt64.le_iff_toNat_le.mpr c.slots_pos
  rw [UInt64.toNat_and, UInt64.toNat_sub_of_le _ _ hle, hk]
  rw [slots] at hk
  rw [hk]
  exact Nat.and_two_pow_sub_one_eq_mod i.toNat k

/-- The number of slots divides the number of machine words, so wrapping is harmless. -/
theorem slots_dvd : c.slots ∣ 2 ^ 64 := by
  obtain ⟨k, hle, hk⟩ := c.exists_two_pow
  rw [hk]
  exact Nat.pow_dvd_pow 2 hle

theorem mod_mod_slots (n : ℕ) : n % 2 ^ 64 % c.slots = n % c.slots :=
  Nat.mod_mod_of_dvd n c.slots_dvd

theorem toNat_slot (n : ℕ) : (c.slot n).toNat = n % c.slots := by
  have hlt := Nat.lt_trans (Nat.mod_lt n c.slots_pos) c.slots_lt
  exact UInt64.toNat_ofNat_of_lt' hlt

theorem slot_zero : c.slot 0 = 0 := by
  rw [slot, Nat.zero_mod]
  rfl

theorem next_slot (n : ℕ) : c.next (c.slot n) = c.slot (n + 1) := by
  refine UInt64.toNat_inj.mp ?_
  rw [next, toNat_mask, UInt64.toNat_add, c.mod_mod_slots, toNat_slot, toNat_slot]
  exact Nat.mod_add_mod n c.slots 1

/-- **The items of a window lie in different slots.** -/
theorem slot_inj {m i j : ℕ} (hi : m ≤ i) (hi' : i < m + c.slots) (hj : m ≤ j)
    (hj' : j < m + c.slots) (h : c.slot i = c.slot j) : i = j := by
  have hmod : i ≡ j [MOD c.slots] := by
    have := congrArg UInt64.toNat h
    rwa [toNat_slot, toNat_slot] at this
  have hshift : i - m ≡ j - m [MOD c.slots] := by
    refine Nat.ModEq.add_right_cancel' m ?_
    rwa [Nat.sub_add_cancel hi, Nat.sub_add_cancel hj]
  have heq := Nat.ModEq.eq_of_lt_of_lt hshift (by omega) (by omega)
  omega

theorem slot_add_slots (n : ℕ) : c.slot (n + c.slots) = c.slot n := by
  rw [slot, slot, Nat.add_mod_right]

/-- **The slot after a window** is the first one of the window if the window is one short of the
ring. -/
theorem next_slot_eq_iff {m n : ℕ} (hle : m ≤ n) (hlt : n < m + c.slots) :
    c.next (c.slot n) = c.slot m ↔ n + 1 = m + c.slots := by
  rw [next_slot]
  constructor
  · intro h
    by_contra hne
    have := c.slot_inj (by omega) (by omega) (Nat.le_refl m) (by omega) h
    omega
  · intro h
    rw [h, slot_add_slots]

/-- **The length of a window** from its two indices. -/
theorem toNat_distance {m n : ℕ} (hle : m ≤ n) (hlt : n < m + c.slots) :
    (c.distance (c.slot m) (c.slot n)).toNat = n - m := by
  obtain ⟨k, hk⟩ := c.slots_dvd
  have hm := Nat.mod_lt m c.slots_pos
  have hlt64 := c.slots_lt
  rw [distance, toNat_mask, UInt64.toNat_add, c.mod_mod_slots, UInt64.toNat_sub, toNat_slot,
    toNat_slot, ← slots, Nat.add_mod_right, c.mod_mod_slots]
  rw [Nat.add_mod_mod]
  -- the two multiples of the number of slots, from the wrapping and from the stream, drop out
  have hsum : 2 ^ 64 - m % c.slots + n = c.slots * (k + m / c.slots) + (n - m) := by
    have hdiv := Nat.div_add_mod m c.slots
    rw [Nat.mul_add, ← hk]
    omega
  rw [hsum, Nat.mul_add_mod]
  exact Nat.mod_eq_of_lt (by omega)

end RingCapacity
