import Mathlib.Data.List.Basic
import Mathlib.Tactic.Common

/-!
# Precedence in a Trace

In a trace, one kind of event precedes another if before each event of the second kind there is
one of the first. A trace that has been extended is judged by what it was before and by the
extension (`precedes_append`), so precedence over a run can be followed step by step.
-/

/-- **Precedence**: before each event of `l` that satisfies `Q` there is one that satisfies `P`. -/
def Precedes {α : Type*} (P Q : α → Prop) (l : List α) : Prop :=
  ∀ earlier event later, l = earlier ++ event :: later → Q event → ∃ cause ∈ earlier, P cause

variable {α : Type*} {P P' Q : α → Prop} {l l' : List α}

/-- There is nothing to be preceded. -/
theorem precedes_of_no_event (h : ∀ event ∈ l, ¬ Q event) : Precedes P Q l := by
  rintro earlier event later rfl hevent
  exact absurd hevent (h event (List.mem_append_right _ (List.mem_cons_self ..)))

/-- In a trace without causes, precedence means that there are no events to be preceded. -/
theorem precedes_iff_of_no_cause (h : ∀ event ∈ l, ¬ P event) :
    Precedes P Q l ↔ ∀ event ∈ l, ¬ Q event := by
  constructor
  · intro hprecedes event hmem hevent
    obtain ⟨earlier, later, rfl⟩ := List.append_of_mem hmem
    obtain ⟨cause, hcause, hP⟩ := hprecedes earlier event later rfl hevent
    exact h cause (List.mem_append_left _ hcause) hP
  · exact precedes_of_no_event

/-- **Extending a trace.** -/
theorem precedes_append :
    Precedes P Q (l ++ l') ↔ Precedes P Q l ∧ ((∃ cause ∈ l, P cause) ∨ Precedes P Q l') := by
  constructor
  · intro h
    refine ⟨?_, ?_⟩
    · rintro earlier event later rfl hevent
      exact h earlier event (later ++ l') (List.append_assoc ..) hevent
    · by_cases hcause : ∃ cause ∈ l, P cause
      · exact Or.inl hcause
      · refine Or.inr ?_
        rintro earlier event later rfl hevent
        obtain ⟨cause, hmem, hP⟩ :=
          h (l ++ earlier) event later (List.append_assoc ..).symm hevent
        rcases List.mem_append.mp hmem with hmem | hmem
        · exact absurd ⟨cause, hmem, hP⟩ hcause
        · exact ⟨cause, hmem, hP⟩
  · rintro ⟨hl, hl'⟩ earlier event later heq hevent
    rcases List.append_eq_append_iff.mp heq with ⟨between, rfl, hsplit⟩ |
      ⟨between, rfl, hsplit⟩
    · -- the event is in the extension
      rcases hl' with ⟨cause, hmem, hP⟩ | hl'
      · exact ⟨cause, List.mem_append_left _ hmem, hP⟩
      · obtain ⟨cause, hmem, hP⟩ := hl' between event later hsplit hevent
        exact ⟨cause, List.mem_append_right _ hmem, hP⟩
    · cases between with
      | nil =>
          rw [List.append_nil] at hl hl'
          rcases hl' with hcause | hl'
          · exact hcause
          · obtain ⟨cause, hmem, -⟩ := hl' [] event later hsplit.symm hevent
            cases hmem
      | cons first between =>
          obtain ⟨rfl, -⟩ := List.cons.inj hsplit
          exact hl earlier event between rfl hevent

/-- Precedence depends on the events of the trace only. -/
theorem precedes_congr (h : ∀ event ∈ l, P event ↔ P' event) :
    Precedes P Q l ↔ Precedes P' Q l := by
  constructor
  · rintro hprecedes earlier event later rfl hevent
    obtain ⟨cause, hmem, hP⟩ := hprecedes earlier event later rfl hevent
    exact ⟨cause, hmem, (h cause (List.mem_append_left _ hmem)).mp hP⟩
  · rintro hprecedes earlier event later rfl hevent
    obtain ⟨cause, hmem, hP⟩ := hprecedes earlier event later rfl hevent
    exact ⟨cause, hmem, (h cause (List.mem_append_left _ hmem)).mpr hP⟩
