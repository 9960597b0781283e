import Mathlib.Data.Finmap
import Mathlib.Tactic.Common

/-!
# Unordered Maps

A hash map of an imperative library, seen through the operations that do not depend on its
iteration order, is a finite map: Mathlib's `Finmap` at a constant value type. Two of them
are equal when all lookups agree (`Finmap.ext_lookup`). The lemmas below read a lookup
after an update as one case distinction on the key, and say how two maps that are inverse to
each other stay so.
-/

/-- A finite map from `K` to `V`, without an order on its entries. -/
abbrev UnorderedMap (K V : Type*) :=
  Finmap fun _ : K => V

namespace UnorderedMap

variable {K V : Type*} [DecidableEq K]

theorem lookup_insert_ite (m : UnorderedMap K V) (k k' : K) (v : V) :
    (m.insert k v).lookup k' = if k' = k then some v else m.lookup k' := by
  split
  · rename_i h
    subst h
    exact Finmap.lookup_insert m
  · rename_i h
    exact Finmap.lookup_insert_of_ne m h

theorem lookup_erase_ite (m : UnorderedMap K V) (k k' : K) :
    (m.erase k).lookup k' = if k' = k then none else m.lookup k' := by
  split
  · rename_i h
    subst h
    exact Finmap.lookup_erase k' m
  · rename_i h
    exact Finmap.lookup_erase_ne h

/-- Erasing a key that has no value changes nothing. -/
theorem erase_eq_self {m : UnorderedMap K V} {k : K} (h : m.lookup k = none) :
    m.erase k = m := by
  refine Finmap.ext_lookup fun k' => ?_
  rw [lookup_erase_ite]
  split
  · rename_i hk
    rw [hk, h]
  · rfl

/-- Keys erased one after the other: those of `ks`, and before them `k`. -/
theorem ite_lookup_erase (m : UnorderedMap K V) (k k' : K) (ks : List K) :
    (if k' ∈ ks then none else (m.erase k).lookup k') =
      if k' ∈ k :: ks then none else m.lookup k' := by
  rw [lookup_erase_ite, ← ite_or]
  simp only [List.mem_cons, or_comm]

/-! ### Inverse maps -/

variable {m : UnorderedMap K V} {k : K} {v : V}

/-- Two maps are **inverse** to each other: what one maps to, the other maps back. -/
def Inverse (m : UnorderedMap K V) [DecidableEq V] (m' : UnorderedMap V K) : Prop :=
  ∀ k v, m.lookup k = some v ↔ m'.lookup v = some k

variable [DecidableEq V] {m' : UnorderedMap V K}

/-- A pair that is new to both maps can be inserted. -/
theorem Inverse.insert (h : Inverse m m') (hk : m.lookup k = none) (hv : m'.lookup v = none) :
    Inverse (m.insert k v) (m'.insert v k) := by
  intro k' v'
  rw [lookup_insert_ite, lookup_insert_ite]
  by_cases hk' : k' = k
  · by_cases hv' : v' = v
    · simp [hk', hv']
    · have hnone : m'.lookup v' ≠ some k := by
        rw [Ne, ← h, hk]
        exact nofun
      simp [hk', hv', Ne.symm hv', hnone]
  · by_cases hv' : v' = v
    · have hnone : m.lookup k' ≠ some v := by
        rw [Ne, h, hv]
        exact nofun
      simp [hk', hv', Ne.symm hk', hnone]
    · simp [hk', hv', h k' v']

/-- A pair can be erased from both maps. -/
theorem Inverse.erase (h : Inverse m m') (hk : m.lookup k = some v) :
    Inverse (m.erase k) (m'.erase v) := by
  have hv := (h k v).mp hk
  intro k' v'
  rw [lookup_erase_ite, lookup_erase_ite]
  by_cases hk' : k' = k
  · by_cases hv' : v' = v
    · simp [hk', hv']
    · have hnone : m'.lookup v' ≠ some k := by
        rw [Ne, ← h, hk]
        exact fun heq => hv' (Option.some.inj heq).symm
      simp [hk', hv', hnone]
  · by_cases hv' : v' = v
    · have hnone : m.lookup k' ≠ some v := by
        rw [Ne, h, hv]
        exact fun heq => hk' (Option.some.inj heq).symm
      simp [hk', hv', hnone]
    · simp [hk', hv', h k' v']

end UnorderedMap
