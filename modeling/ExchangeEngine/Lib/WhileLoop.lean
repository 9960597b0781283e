import Mathlib.Data.List.Basic
import Mathlib.Tactic.Common

/-!
# While Loops as Iterated Turns

A loop nest of an imperative program is given here by its **turn function**: from a state
at a loop head, `turn` either reports that the loop nest is left (`none`) or gives the
state at the next loop head. `run` iterates the turn function under a turn budget, and
`visited` lists the states from which a turn was taken, in order.

The budget is a technical device: `turn_run_eq_none` turns a variant of the loop into the
statement that `run` stopped because the loop was left, never because the budget ran out.

## Main results

* `run_invariant` / `visited_invariant`: an invariant of the turn function holds of the
  final state and of every visited state.
* `run_appends`: a log to which each turn appends is the initial log followed by what the
  visited states appended.
* `turn_run_eq_none`: within the budget that a decreasing variant gives, the loop is left.
* `run_map`: a map of states that commutes with the turns commutes with the loop.
* `run_history`: a relation between a state, the states visited from it and the final state,
  built turn by turn.
* `countP_heads_le`: a credit of which each counted loop head uses one bounds their number.
-/

namespace WhileLoop

variable {σ α β : Type*} (turn : σ → Option σ)

/-- Iterate `turn` from `s`, for at most `n` turns, until it reports that the loop is
left. -/
def run : ℕ → σ → σ
  | 0, s => s
  | n + 1, s =>
      match turn s with
      | none => s
      | some s' => run n s'

/-- The states from which a turn was taken, in the order in which they were visited. -/
def visited : ℕ → σ → List σ
  | 0, _ => []
  | n + 1, s =>
      match turn s with
      | none => []
      | some s' => s :: visited n s'

/-- The loop heads that control reaches: the visited states, and the one where it stops. -/
def heads (n : ℕ) (s : σ) : List σ :=
  visited turn n s ++ [run turn n s]

variable {turn}

theorem heads_of_turn_eq_none {s : σ} (h : turn s = none) (n : ℕ) : heads turn (n + 1) s = [s] := by
  simp only [heads, visited, run, h, List.nil_append]

theorem heads_of_turn_eq_some {s s' : σ} (h : turn s = some s') (n : ℕ) :
    heads turn (n + 1) s = s :: heads turn n s' := by
  simp only [heads, visited, run, h, List.cons_append]

theorem run_of_turn_eq_none {s : σ} (h : turn s = none) (n : ℕ) : run turn n s = s := by
  cases n with
  | zero => rfl
  | succ n => simp only [run, h]

/-- **The invariant rule.** A property kept by every turn holds of the final state. -/
theorem run_invariant {P : σ → Prop} (hturn : ∀ s s', P s → turn s = some s' → P s')
    (n : ℕ) {s : σ} (hs : P s) : P (run turn n s) := by
  induction n generalizing s with
  | zero => exact hs
  | succ n ih =>
      cases h : turn s with
      | none => simpa only [run, h] using hs
      | some s' =>
          simp only [run, h]
          exact ih (hturn s s' hs h)

/-- A property kept by every turn holds of every visited state. -/
theorem visited_invariant {P : σ → Prop} (hturn : ∀ s s', P s → turn s = some s' → P s')
    (n : ℕ) {s : σ} (hs : P s) : ∀ t ∈ visited turn n s, P t := by
  induction n generalizing s with
  | zero => simp only [visited, List.not_mem_nil, false_implies, implies_true]
  | succ n ih =>
      cases h : turn s with
      | none => simp only [visited, h, List.not_mem_nil, false_implies, implies_true]
      | some s' =>
          intro t ht
          simp only [visited, h, List.mem_cons] at ht
          rcases ht with rfl | ht
          · exact hs
          · exact ih (hturn s s' hs h) t ht

/-- A turn is taken from every visited state. -/
theorem exists_turn_of_mem_visited {n : ℕ} {s t : σ} (ht : t ∈ visited turn n s) :
    ∃ t', turn t = some t' := by
  induction n generalizing s with
  | zero => exact absurd ht List.not_mem_nil
  | succ n ih =>
      cases h : turn s with
      | none => simp only [visited, h, List.not_mem_nil] at ht
      | some s' =>
          simp only [visited, h, List.mem_cons] at ht
          rcases ht with rfl | ht
          · exact ⟨s', h⟩
          · exact ih ht

/-- A log to which every turn appends `out` of the state it leaves ends as the initial log
followed by the output of the visited states. -/
theorem run_appends {log out : σ → List β}
    (happ : ∀ s s', turn s = some s' → log s' = log s ++ out s) (n : ℕ) (s : σ) :
    log (run turn n s) = log s ++ (visited turn n s).flatMap out := by
  induction n generalizing s with
  | zero => simp only [run, visited, List.flatMap_nil, List.append_nil]
  | succ n ih =>
      cases h : turn s with
      | none => simp only [run, visited, h, List.flatMap_nil, List.append_nil]
      | some s' =>
          simp only [run, visited, h, List.flatMap_cons]
          rw [ih s', happ s s' h, List.append_assoc]

/-- **The variant rule.** If every turn taken under the invariant `P` decreases `μ`, then a
budget of `μ s` turns is enough: the loop is left within it. -/
theorem turn_run_eq_none {P : σ → Prop} (hturn : ∀ s s', P s → turn s = some s' → P s')
    {μ : σ → ℕ} (hμ : ∀ s s', P s → turn s = some s' → μ s' < μ s)
    (n : ℕ) {s : σ} (hs : P s) (hn : μ s < n) : turn (run turn n s) = none := by
  induction n generalizing s with
  | zero => exact absurd hn (Nat.not_lt_zero _)
  | succ n ih =>
      cases h : turn s with
      | none => simp only [run, h]
      | some s' =>
          simp only [run, h]
          exact ih (hturn s s' hs h) (by have := hμ s s' hs h; omega)

/-- **The simulation rule.** If under the invariant `P` a map of states takes the turns of one
loop to those of another, it takes the final state of the one to that of the other. -/
theorem run_map {τ : Type*} {turn' : τ → Option τ} {P : σ → Prop} {f : σ → τ}
    (hturn : ∀ s s', P s → turn s = some s' → P s')
    (hmap : ∀ s, P s → turn' (f s) = (turn s).map f) (n : ℕ) {s : σ} (hs : P s) :
    run turn' n (f s) = f (run turn n s) := by
  induction n generalizing s with
  | zero => rfl
  | succ n ih =>
      have hstep := hmap s hs
      cases h : turn s with
      | none =>
          rw [h, Option.map_none] at hstep
          simp only [run, h, hstep]
      | some s' =>
          rw [h, Option.map_some] at hstep
          simp only [run, h, hstep]
          exact ih (hturn s s' hs h)

/-- **The history rule.** A relation that holds of no turns, and that a turn taken under the
invariant `P` extends at its front, relates each state to the states visited from it and to the
final state. -/
theorem run_history {P : σ → Prop} {R : σ → List σ → σ → Prop}
    (hturn : ∀ s s', P s → turn s = some s' → P s') (hnil : ∀ s, P s → R s [] s)
    (hcons : ∀ s s' vs t, P s → turn s = some s' → R s' vs t → R s (s :: vs) t)
    (n : ℕ) {s : σ} (hs : P s) : R s (visited turn n s) (run turn n s) := by
  induction n generalizing s with
  | zero => exact hnil s hs
  | succ n ih =>
      cases h : turn s with
      | none => simpa only [visited, run, h] using hnil s hs
      | some s' =>
          simp only [visited, run, h]
          exact hcons s s' _ _ hs h (ih (hturn s s' hs h))

/-- **The credit rule.** If under the invariant `P` no turn adds to the credit `μ`, and each counted
loop head has one to use, then no more heads are counted than the credit at the start. -/
theorem countP_heads_le {P : σ → Prop} {counted : σ → Bool} {μ : σ → ℕ}
    (hturn : ∀ s s', P s → turn s = some s' → P s')
    (hμ : ∀ s s', P s → turn s = some s' → μ s' + (if counted s then 1 else 0) ≤ μ s)
    (hlast : ∀ s, P s → counted s = true → 0 < μ s)
    (n : ℕ) {s : σ} (hs : P s) : (heads turn n s).countP counted ≤ μ s := by
  have hstop : ∀ s, P s → [s].countP counted ≤ μ s := by
    intro s hs
    rw [List.countP_singleton]
    split
    · exact hlast s hs ‹_›
    · exact Nat.zero_le _
  induction n generalizing s with
  | zero => exact hstop s hs
  | succ n ih =>
      cases h : turn s with
      | none =>
          rw [heads_of_turn_eq_none h]
          exact hstop s hs
      | some s' =>
          rw [heads_of_turn_eq_some h, List.countP_cons]
          have hrest := ih (hturn s s' hs h)
          have hcredit := hμ s s' hs h
          omega

end WhileLoop
