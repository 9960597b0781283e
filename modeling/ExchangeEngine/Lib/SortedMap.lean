import Mathlib.Data.List.Pairwise
import Mathlib.Order.RelClasses
import Mathlib.Tactic.Common

/-!
# Sorted Maps

A map kept as its list of entries, strictly sorted by the comparison `r` on keys, as an
ordered container of an imperative library is. The order is a field of the type, so an
unsorted map cannot be built: every operation carries the proof that its result is sorted.

`SortedMap.split` is the working lemma: it locates a key in the entries, and says what
`find?`, `upsert` and `erase` do in terms of the entries before and after that place.
-/

/-- A map from `K` to `V` whose entries are strictly sorted by `r`, the entry that `r` puts
first at the front. -/
structure SortedMap (K V : Type*) (r : K → K → Prop) where
  entries : List (K × V)
  sorted : entries.Pairwise fun a b => r a.1 b.1

namespace SortedMap

variable {K V : Type*} {r : K → K → Prop}

@[ext] theorem ext {m m' : SortedMap K V r} (h : m.entries = m'.entries) : m = m' := by
  cases m
  cases m'
  simpa using h

/-- The map without entries. -/
def empty : SortedMap K V r :=
  ⟨[], List.Pairwise.nil⟩

/-- The first entry, if there is one. -/
def begin? (m : SortedMap K V r) : Option (K × V) :=
  m.entries.head?

/-- The value stored under `k`, if there is one. -/
def find? [DecidableEq K] (m : SortedMap K V r) (k : K) : Option V :=
  (m.entries.find? fun e => e.1 = k).map Prod.snd

/-- Entries with the value under `k` replaced by `f` of it, or with a new entry `f none` at
the sorted place when there is none. -/
def upsertEntries [DecidableRel r] (k : K) (f : Option V → V) : List (K × V) → List (K × V)
  | [] => [(k, f none)]
  | (k', v) :: es =>
      if r k' k then (k', v) :: upsertEntries k f es
      else if r k k' then (k, f none) :: (k', v) :: es
      else (k', f (some v)) :: es

theorem fst_mem_upsertEntries [DecidableRel r] {k : K} {f : Option V → V}
    {es : List (K × V)} {e : K × V} (h : e ∈ upsertEntries (r := r) k f es) :
    e.1 = k ∨ e.1 ∈ es.map Prod.fst := by
  induction es with
  | nil =>
      simp only [upsertEntries, List.mem_singleton] at h
      exact Or.inl (by rw [h])
  | cons a es ih =>
      obtain ⟨k', v⟩ := a
      simp only [upsertEntries] at h
      split at h
      · rcases List.mem_cons.mp h with rfl | h
        · exact Or.inr (by simp)
        · rcases ih h with h | h
          · exact Or.inl h
          · exact Or.inr (by simp [h])
      · split at h
        · rcases List.mem_cons.mp h with rfl | h
          · exact Or.inl rfl
          · exact Or.inr (List.mem_map_of_mem h)
        · rcases List.mem_cons.mp h with rfl | h
          · exact Or.inr (by simp)
          · exact Or.inr (by simp [List.mem_map_of_mem (f := Prod.fst) h])

theorem pairwise_upsertEntries [DecidableRel r] [IsStrictTotalOrder K r] (k : K)
    (f : Option V → V) {es : List (K × V)} (h : es.Pairwise fun a b => r a.1 b.1) :
    (upsertEntries (r := r) k f es).Pairwise fun a b => r a.1 b.1 := by
  induction es with
  | nil => exact List.pairwise_singleton _ _
  | cons a es ih =>
      obtain ⟨k', v⟩ := a
      obtain ⟨ha, hes⟩ := List.pairwise_cons.mp h
      simp only [upsertEntries]
      split
      · rename_i hlt
        refine List.pairwise_cons.mpr ⟨fun e he => ?_, ih hes⟩
        rcases fst_mem_upsertEntries he with he | he
        · exact he ▸ hlt
        · obtain ⟨e', he', heq⟩ := List.mem_map.mp he
          exact heq ▸ ha e' he'
      · split
        · rename_i hlt
          refine List.pairwise_cons.mpr ⟨fun e he => ?_, h⟩
          rcases List.mem_cons.mp he with rfl | he
          · exact hlt
          · exact trans_of r hlt (ha e he)
        · exact List.pairwise_cons.mpr ⟨ha, hes⟩

/-- Replace the value under `k` by `f` of it; insert `f none` when `k` has no value. -/
def upsert [DecidableRel r] [IsStrictTotalOrder K r] (m : SortedMap K V r) (k : K)
    (f : Option V → V) : SortedMap K V r :=
  ⟨upsertEntries (r := r) k f m.entries, pairwise_upsertEntries k f m.sorted⟩

/-- Remove the entry under `k`, if there is one. -/
def erase [DecidableEq K] (m : SortedMap K V r) (k : K) : SortedMap K V r :=
  ⟨m.entries.filter fun e => e.1 ≠ k, m.sorted.filter _⟩

@[simp] theorem entries_empty : (empty : SortedMap K V r).entries = [] :=
  rfl

theorem entries_upsert [DecidableRel r] [IsStrictTotalOrder K r] (m : SortedMap K V r) (k : K)
    (f : Option V → V) : (m.upsert k f).entries = upsertEntries (r := r) k f m.entries :=
  rfl

theorem entries_erase [DecidableEq K] (m : SortedMap K V r) (k : K) :
    (m.erase k).entries = m.entries.filter fun e => e.1 ≠ k :=
  rfl

/-! ### Locating a key -/

section Split

variable [IsStrictTotalOrder K r]

/-- A sorted list of entries consists of the entries strictly before `k`, the entry under
`k` if there is one, and the entries strictly after it. -/
theorem exists_split {es : List (K × V)} (h : es.Pairwise fun a b => r a.1 b.1) (k : K) :
    ∃ (l₁ : List (K × V)) (o : Option V) (l₂ : List (K × V)),
      es = l₁ ++ (o.toList.map fun v => (k, v)) ++ l₂ ∧
      (∀ e ∈ l₁, r e.1 k) ∧ (∀ e ∈ l₂, r k e.1) := by
  induction es with
  | nil => exact ⟨[], none, [], rfl, by simp, by simp⟩
  | cons a es ih =>
      obtain ⟨k', v⟩ := a
      obtain ⟨ha, hes⟩ := List.pairwise_cons.mp h
      rcases trichotomous_of r k' k with hlt | rfl | hgt
      · obtain ⟨l₁, o, l₂, rfl, h₁, h₂⟩ := ih hes
        refine ⟨(k', v) :: l₁, o, l₂, by simp, fun e he => ?_, h₂⟩
        rcases List.mem_cons.mp he with rfl | he
        · exact hlt
        · exact h₁ e he
      · exact ⟨[], some v, es, by simp, by simp, ha⟩
      · refine ⟨[], none, (k', v) :: es, by simp, by simp, fun e he => ?_⟩
        rcases List.mem_cons.mp he with rfl | he
        · exact hgt
        · exact trans_of r hgt (ha e he)

theorem upsertEntries_split [DecidableRel r] {k : K} (f : Option V → V)
    (l₁ : List (K × V)) {l₂ : List (K × V)} (o : Option V) (h₁ : ∀ e ∈ l₁, r e.1 k)
    (h₂ : ∀ e ∈ l₂, r k e.1) :
    upsertEntries (r := r) k f (l₁ ++ (o.toList.map fun v => (k, v)) ++ l₂) =
      l₁ ++ (k, f o) :: l₂ := by
  induction l₁ with
  | nil =>
      cases o with
      | some v => simp [upsertEntries, irrefl_of r k]
      | none =>
          cases l₂ with
          | nil => rfl
          | cons e l₂ =>
              have hke : r k e.1 := h₂ e (by simp)
              simp [upsertEntries, hke, asymm_of r hke]
  | cons e l₁ ih =>
      have he : r e.1 k := h₁ e (by simp)
      have ih := ih fun e' he' => h₁ e' (by simp [he'])
      simp only [List.cons_append, upsertEntries, he, if_true]
      rw [ih]

variable [DecidableEq K] [DecidableRel r]

/-- **The place of a key.** The entries before `k`, the value under `k`, and the entries
after it describe every operation at `k`. -/
theorem split (m : SortedMap K V r) (k : K) :
    ∃ (l₁ : List (K × V)) (o : Option V) (l₂ : List (K × V)),
      m.entries = l₁ ++ (o.toList.map fun v => (k, v)) ++ l₂ ∧
      (∀ e ∈ l₁, r e.1 k) ∧ (∀ e ∈ l₂, r k e.1) ∧
      m.find? k = o ∧ (∀ f, (m.upsert k f).entries = l₁ ++ (k, f o) :: l₂) ∧
      (m.erase k).entries = l₁ ++ l₂ := by
  obtain ⟨l₁, o, l₂, hes, h₁, h₂⟩ := exists_split m.sorted k
  have hne₁ : ∀ e ∈ l₁, e.1 ≠ k := fun e he => ne_of_irrefl (h₁ e he)
  have hne₂ : ∀ e ∈ l₂, e.1 ≠ k := fun e he => (ne_of_irrefl (h₂ e he)).symm
  refine ⟨l₁, o, l₂, hes, h₁, h₂, ?_, fun f => ?_, ?_⟩
  · have hnone : l₁.find? (fun e => e.1 = k) = none :=
      List.find?_eq_none.mpr fun e he => by simpa using hne₁ e he
    have hnone₂ : l₂.find? (fun e => e.1 = k) = none :=
      List.find?_eq_none.mpr fun e he => by simpa using hne₂ e he
    cases o with
    | none => simp [find?, hes, hnone, hnone₂]
    | some v => simp [find?, hes, hnone]
  · rw [entries_upsert, hes]
    exact upsertEntries_split f l₁ o h₁ h₂
  · have hf₁ : l₁.filter (fun e => e.1 ≠ k) = l₁ :=
      List.filter_eq_self.mpr fun e he => by simpa using hne₁ e he
    have hf₂ : l₂.filter (fun e => e.1 ≠ k) = l₂ :=
      List.filter_eq_self.mpr fun e he => by simpa using hne₂ e he
    rw [entries_erase, hes, List.filter_append, List.filter_append, hf₁, hf₂]
    cases o with
    | none => simp
    | some v => simp

/-- At the key of an entry, `find?`, `upsert` and `erase` act on that entry. -/
theorem split_at {m : SortedMap K V r} {k : K} {v : V} {l₁ l₂ : List (K × V)}
    (h : m.entries = l₁ ++ (k, v) :: l₂) :
    m.find? k = some v ∧ (∀ f, (m.upsert k f).entries = l₁ ++ (k, f (some v)) :: l₂) ∧
      (m.erase k).entries = l₁ ++ l₂ := by
  obtain ⟨-, hafter, hbefore⟩ := List.pairwise_append.mp (h ▸ m.sorted)
  have h₁ : ∀ e ∈ l₁, r e.1 k := fun e he => hbefore e he (k, v) List.mem_cons_self
  have h₂ : ∀ e ∈ l₂, r k e.1 := (List.pairwise_cons.mp hafter).1
  have hne₁ : ∀ e ∈ l₁, e.1 ≠ k := fun e he => ne_of_irrefl (h₁ e he)
  have hne₂ : ∀ e ∈ l₂, e.1 ≠ k := fun e he => (ne_of_irrefl (h₂ e he)).symm
  refine ⟨?_, fun f => ?_, ?_⟩
  · have hnone : l₁.find? (fun e => e.1 = k) = none :=
      List.find?_eq_none.mpr fun e he => by simpa using hne₁ e he
    simp [find?, h, hnone]
  · have hup := upsertEntries_split (r := r) f l₁ (some v) h₁ h₂
    rw [entries_upsert, h]
    simpa using hup
  · have hf₁ : l₁.filter (fun e => e.1 ≠ k) = l₁ :=
      List.filter_eq_self.mpr fun e he => by simpa using hne₁ e he
    have hf₂ : l₂.filter (fun e => e.1 ≠ k) = l₂ :=
      List.filter_eq_self.mpr fun e he => by simpa using hne₂ e he
    rw [entries_erase, h, List.filter_append, hf₁, List.filter_cons_of_neg (by simp), hf₂]

/-- At the first key, `find?`, `upsert` and `erase` act on the head of the entries. -/
theorem split_head {m : SortedMap K V r} {k : K} {v : V} {es : List (K × V)}
    (h : m.entries = (k, v) :: es) :
    m.find? k = some v ∧ (∀ f, (m.upsert k f).entries = (k, f (some v)) :: es) ∧
      (m.erase k).entries = es := by
  have h' : m.entries = [] ++ (k, v) :: es := h
  exact split_at h'

end Split

end SortedMap
