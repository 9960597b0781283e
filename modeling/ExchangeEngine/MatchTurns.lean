import ExchangeEngine.BookInvariant

/-!
# The Turns of the Matching Loops

What one turn of the nested loops of `matchAgainst` does to the opposite side, and that the loops
end. Nothing is assumed of the book here: a level may be an empty list, a resting order may have
quantity zero, a pointer may stand in several lists, and the incoming order may stand in them
itself.

The iterator of the inner loop only steps over an order that the last execution did not close,
and such an execution exhausts the remaining quantity. So as long as there is quantity left the
iterator stands at the front of the first level (`CursorAtHead`), and leaving that level erases it.

## Main results

* `matchTurn_cases`: the three kinds of turns.
* `turn_matchAgainst`: the loops are left because their condition fails, on any book.
* `matching_loops_bounded`: how often the bodies of the loops run, and what they leave.
-/

namespace ExchangeEngine

variable {r : Price → Price → Prop}

/-- The prices an incoming order trades at. -/
def Order.accepts (o : Order) (side : BuySell) (restingPrice : Price) : Bool :=
  priceCrossed o.price restingPrice side o.orderType

/-! ### One execution -/

section Fill

variable {p : OrderPointer} {s : MatchState r}

theorem executed_of_le (h : (s.heap.read p).quantity.toNat ≤ s.remaining.toNat) :
    s.executed p = (s.heap.read p).quantity := by
  rw [← UInt32.toNat_inj, MatchState.executed, Quantity.toNat_min, Nat.min_eq_right h]

theorem executed_of_lt (h : s.remaining.toNat < (s.heap.read p).quantity.toNat) :
    s.executed p = s.remaining := by
  rw [← UInt32.toNat_inj, MatchState.executed, Quantity.toNat_min,
    Nat.min_eq_left (Nat.le_of_lt h)]

/-- The executed quantity exceeds neither the remaining quantity nor the resting order's. -/
theorem executed_le (s : MatchState r) (p : OrderPointer) :
    (s.executed p).toNat ≤ s.remaining.toNat ∧
      (s.executed p).toNat ≤ (s.heap.read p).quantity.toNat := by
  rw [MatchState.executed, Quantity.toNat_min]
  exact ⟨Nat.min_le_left _ _, Nat.min_le_right _ _⟩

theorem reduced_eq (s : MatchState r) (p : OrderPointer) :
    s.reduced p = (s.heap.read p).setQuantity ((s.heap.read p).quantity - s.executed p) := by
  have hmin : min (s.heap.read p).quantity (s.executed p) = s.executed p := by
    rw [← UInt32.toNat_inj, Quantity.toNat_min]
    exact Nat.min_eq_right (executed_le s p).2
  simp only [MatchState.reduced, Order.reduceQuantity, hmin]

/-- Neither of the two subtractions of an execution wraps. -/
theorem toNat_after_fill (s : MatchState r) (p : OrderPointer) :
    (s.remaining - s.executed p).toNat = s.remaining.toNat - (s.executed p).toNat ∧
      (s.reduced p).quantity.toNat =
        (s.heap.read p).quantity.toNat - (s.executed p).toNat := by
  obtain ⟨hrem, hqty⟩ := executed_le s p
  refine ⟨Quantity.toNat_sub hrem, ?_⟩
  rw [reduced_eq]
  exact Quantity.toNat_sub hqty

/-- The resting order is closed exactly when there was enough remaining quantity. -/
theorem reduced_isFilled (s : MatchState r) (p : OrderPointer) :
    (s.reduced p).isFilled = true ↔
      (s.heap.read p).quantity.toNat ≤ s.remaining.toNat := by
  have hzero : (s.reduced p).isFilled = true ↔ (s.reduced p).quantity.toNat = 0 := by
    rw [Order.isFilled, beq_iff_eq, ← UInt32.toNat_inj, UInt32.toNat_zero]
  rw [hzero, (toNat_after_fill s p).2, MatchState.executed, Quantity.toNat_min]
  omega

theorem executed_ne_zero (hrem : s.remaining ≠ 0) (hqty : (s.heap.read p).quantity ≠ 0) :
    s.executed p ≠ 0 := by
  have h₁ := Quantity.toNat_pos_iff.mpr hrem
  have h₂ := Quantity.toNat_pos_iff.mpr hqty
  rw [← Quantity.toNat_pos_iff, MatchState.executed, Quantity.toNat_min]
  omega

end Fill

/-! ### The kinds of turns -/

section Turn

variable {order p : OrderPointer} {side : BuySell} {ps : OrderPointers} {k : Price}
  {es : Levels} {s s' : MatchState r}
variable [DecidableRel r] [IsStrictTotalOrder Price r]

theorem levelOrders_head (hent : s.contraBook.entries = (k, ps) :: es) :
    s.levelOrders k = ps := by
  rw [MatchState.levelOrders, (SortedMap.split_head hent).1, Option.getD_some]

/-- The levels after the front order of the first level has been erased from its list. -/
theorem entries_erase_head (hent : s.contraBook.entries = (k, p :: ps) :: es) :
    (s.contraBook.upsert k fun _ => (s.levelOrders k).eraseIdx 0).entries = (k, ps) :: es := by
  rw [(SortedMap.split_head hent).2.1, levelOrders_head hent]
  rfl

/-- An execution that closes the resting order. -/
theorem fill_of_filled (h : (s.reduced p).isFilled = true) (i : ℕ) :
    s.fill order side k i p =
      { s with
        heap := s.heap.write p ((s.reduced p).setOrderStatus .traded)
        contraBook := s.contraBook.upsert k fun _ => (s.levelOrders k).eraseIdx i
        orders := s.orders.erase (s.reduced p).orderId
        priceToLeveldata := updateLevelOnFill s.priceToLeveldata k (s.executed p) true
        trades := s.trades ++ [s.trade order side k p]
        remaining := s.remaining - s.executed p } := by
  simp only [MatchState.fill, h, if_true]

/-- An execution that leaves part of the resting order. -/
theorem fill_of_not_filled (h : (s.reduced p).isFilled = false) (i : ℕ) :
    s.fill order side k i p =
      { s with
        heap := s.heap.write p ((s.reduced p).setOrderStatus .modify)
        priceToLeveldata := updateLevelOnFill s.priceToLeveldata k (s.executed p) false
        trades := s.trades ++ [s.trade order side k p]
        remaining := s.remaining - s.executed p
        cursor := .orders k (i + 1) } := by
  simp only [MatchState.fill, h, Bool.false_eq_true, if_false]

theorem trades_fill (i : ℕ) :
    (s.fill order side k i p).trades = s.trades ++ [s.trade order side k p] := by
  cases h : (s.reduced p).isFilled with
  | true => rw [fill_of_filled h]
  | false => rw [fill_of_not_filled h]
/-- **The three kinds of turns**: enter the first level, leave a level, execute against a
resting order. -/
theorem matchTurn_cases (h : matchTurn order side s = some s') :
    (s.cursor = .levels ∧ s.remaining ≠ 0 ∧
      ∃ k ps es, s.contraBook.entries = (k, ps) :: es ∧
        (s.heap.read order).accepts side k = true ∧ s' = { s with cursor := .orders k 0 }) ∨
    (∃ k i, s.cursor = .orders k i ∧ ((s.levelOrders k)[i]? = none ∨ s.remaining = 0) ∧
      s' = s.leaveLevel k) ∨
    (∃ k i p, s.cursor = .orders k i ∧ (s.levelOrders k)[i]? = some p ∧ s.remaining ≠ 0 ∧
      s' = s.fill order side k i p) := by
  cases hcur : s.cursor with
  | levels =>
      simp only [matchTurn, hcur, SortedMap.begin?] at h
      refine Or.inl ⟨rfl, ?_⟩
      split at h
      · cases h
      · rename_i hrem
        refine ⟨hrem, ?_⟩
        cases hent : s.contraBook.entries with
        | nil => simp [hent] at h
        | cons l es =>
            simp only [hent, List.head?_cons] at h
            split at h
            · rename_i hk
              exact ⟨l.1, l.2, es, rfl, hk, (Option.some.inj h).symm⟩
            · cases h
  | orders k i =>
      simp only [matchTurn, hcur] at h
      refine Or.inr ?_
      cases hp : (s.levelOrders k)[i]? with
      | none =>
          simp only [hp] at h
          exact Or.inl ⟨k, i, rfl, Or.inl hp, (Option.some.inj h).symm⟩
      | some p =>
          simp only [hp] at h
          split at h
          · rename_i hrem
            exact Or.inl ⟨k, i, rfl, Or.inr hrem, (Option.some.inj h).symm⟩
          · rename_i hrem
            exact Or.inr ⟨k, i, p, rfl, hp, hrem, (Option.some.inj h).symm⟩

/-! ### The iterator stands at the front -/

/-- Inside a level that level is the first one, and the iterator has moved only if nothing is
left to execute. -/
def CursorAtHead (s : MatchState r) : Prop :=
  ∀ k i, s.cursor = .orders k i →
    ∃ ps es, s.contraBook.entries = (k, ps) :: es ∧ (i = 0 ∨ s.remaining = 0)

omit [DecidableRel r] [IsStrictTotalOrder Price r] in
theorem cursorAtHead_of_levels (hcur : s.cursor = .levels) : CursorAtHead s := by
  intro k i hcur'
  rw [hcur] at hcur'
  cases hcur'

/-- An execution happens at the head of the first level. -/
theorem CursorAtHead.head_of_fill (hat : CursorAtHead s) {i : ℕ} (hcur : s.cursor = .orders k i)
    (hp : (s.levelOrders k)[i]? = some p) (hrem : s.remaining ≠ 0) :
    i = 0 ∧ ∃ ps es, s.contraBook.entries = (k, p :: ps) :: es := by
  obtain ⟨qs, es, hent, hi⟩ := hat k i hcur
  obtain rfl : i = 0 := hi.resolve_right hrem
  rw [levelOrders_head hent] at hp
  cases qs with
  | nil => cases hp
  | cons q qs =>
      obtain rfl : q = p := Option.some.inj hp
      exact ⟨rfl, qs, es, hent⟩

omit [DecidableRel r] [IsStrictTotalOrder Price r] in
/-- An execution that leaves part of the resting order leaves nothing to execute. -/
theorem executed_of_not_filled (h : (s.reduced p).isFilled = false) :
    s.executed p = s.remaining ∧ s.remaining - s.executed p = 0 := by
  have hlt : ¬ (s.heap.read p).quantity.toNat ≤ s.remaining.toNat := by
    rw [← reduced_isFilled, h]
    exact Bool.false_ne_true
  have hexec := executed_of_lt (Nat.not_le.mp hlt)
  rw [hexec, UInt32.sub_self]
  exact ⟨rfl, rfl⟩

theorem remaining_fill (i : ℕ) :
    (s.fill order side k i p).remaining = s.remaining - s.executed p := by
  cases h : (s.reduced p).isFilled with
  | true => rw [fill_of_filled h]
  | false => rw [fill_of_not_filled h]

/-- **The five ways in which a turn goes on from the front**: a level is entered, an empty level is
erased, a level is kept with nothing left to execute, an order is closed, an order is stepped
over. -/
inductive MatchStep (order : OrderPointer) (side : BuySell) :
    MatchState r → MatchState r → Prop
  | enter {s : MatchState r} {k : Price} {ps : OrderPointers} {es : Levels} :
      s.cursor = .levels → s.remaining ≠ 0 → s.contraBook.entries = (k, ps) :: es →
      MatchStep order side s { s with cursor := .orders k 0 }
  | erase {s : MatchState r} {k : Price} {i : ℕ} {es : Levels} :
      s.cursor = .orders k i → s.contraBook.entries = (k, []) :: es →
      MatchStep order side s { s with contraBook := s.contraBook.erase k, cursor := .levels }
  | keep {s : MatchState r} {k : Price} {i : ℕ} {ps : OrderPointers} {es : Levels} :
      s.cursor = .orders k i → s.contraBook.entries = (k, ps) :: es → ps ≠ [] →
      s.remaining = 0 → MatchStep order side s { s with cursor := .levels }
  | close {s : MatchState r} {k : Price} {p : OrderPointer} {ps : OrderPointers} {es : Levels} :
      s.cursor = .orders k 0 → s.remaining ≠ 0 → s.contraBook.entries = (k, p :: ps) :: es →
      (s.reduced p).isFilled = true → MatchStep order side s (s.fill order side k 0 p)
  | step {s : MatchState r} {k : Price} {p : OrderPointer} {ps : OrderPointers} {es : Levels} :
      s.cursor = .orders k 0 → s.remaining ≠ 0 → s.contraBook.entries = (k, p :: ps) :: es →
      (s.reduced p).isFilled = false → MatchStep order side s (s.fill order side k 0 p)

theorem CursorAtHead.matchStep (hat : CursorAtHead s) (h : matchTurn order side s = some s') :
    MatchStep order side s s' := by
  rcases matchTurn_cases h with ⟨hcur, hrem, k, ps, es, hent, -, rfl⟩ |
    ⟨k, i, hcur, hend, rfl⟩ | ⟨k, i, p, hcur, hp, hrem, rfl⟩
  · exact .enter hcur hrem hent
  · obtain ⟨ps, es, hent, hi⟩ := hat k i hcur
    rw [MatchState.leaveLevel, levelOrders_head hent]
    split
    · rename_i hps
      exact .erase hcur (hps ▸ hent)
    · rename_i hps
      refine .keep hcur hent hps (by_contra fun hrem => hps ?_)
      -- with quantity left the iterator is at the front, so the level is empty
      obtain rfl : i = 0 := hi.resolve_right hrem
      have hnone := hend.resolve_right hrem
      rw [levelOrders_head hent] at hnone
      exact List.isEmpty_iff.mp (by simpa using hnone)
  · obtain ⟨rfl, ps, es, hent⟩ := hat.head_of_fill hcur hp hrem
    cases hfill : (s.reduced p).isFilled with
    | true => exact .close hcur hrem hent hfill
    | false => exact .step hcur hrem hent hfill

/-- The state after an execution that closes the order at the front. -/
theorem fill_of_close (hcur : s.cursor = .orders k 0)
    (hent : s.contraBook.entries = (k, p :: ps) :: es) (hfill : (s.reduced p).isFilled = true) :
    (s.fill order side k 0 p).cursor = .orders k 0 ∧
      (s.fill order side k 0 p).contraBook.entries = (k, ps) :: es ∧
      (s.fill order side k 0 p).remaining = s.remaining - s.executed p := by
  rw [fill_of_filled hfill]
  exact ⟨hcur, entries_erase_head hent, rfl⟩

/-- The state after an execution that steps over the order at the front. -/
theorem fill_of_step (hfill : (s.reduced p).isFilled = false) :
    (s.fill order side k 0 p).cursor = .orders k 1 ∧
      (s.fill order side k 0 p).contraBook = s.contraBook ∧
      (s.fill order side k 0 p).remaining = 0 := by
  rw [fill_of_not_filled hfill]
  exact ⟨rfl, rfl, (executed_of_not_filled hfill).2⟩

theorem MatchStep.cursorAtHead (h : MatchStep order side s s') : CursorAtHead s' := by
  cases h with
  | @enter k ps es _ _ hent =>
      rintro k' i hcur
      cases hcur
      exact ⟨ps, es, hent, Or.inl rfl⟩
  | erase _ _ => exact cursorAtHead_of_levels rfl
  | keep _ _ _ _ => exact cursorAtHead_of_levels rfl
  | @close k p ps es hcur _ hent hfill =>
      obtain ⟨hcur', hent', -⟩ := @fill_of_close r order p side ps k es s _ _ hcur hent hfill
      rintro k' i hcur''
      rw [hcur'] at hcur''
      cases hcur''
      exact ⟨ps, es, hent', Or.inl rfl⟩
  | @step k p ps es _ _ hent hfill =>
      obtain ⟨hcur', hbook, hzero⟩ := @fill_of_step r order p side k s _ _ hfill
      rintro k' i hcur''
      rw [hcur'] at hcur''
      cases hcur''
      exact ⟨p :: ps, es, by rw [hbook, hent], Or.inr hzero⟩

/-- Every turn keeps the iterator at the front. -/
theorem CursorAtHead.turn (hat : CursorAtHead s) (h : matchTurn order side s = some s') :
    CursorAtHead s' :=
  (hat.matchStep h).cursorAtHead

/-! ### The loops end -/

/-- A number of turns for each level, and one for each of its orders. -/
def levelTurns (levels : Levels) : ℕ :=
  (levels.map fun l => l.2.length + 2).sum

/-- **The variant of the loops.** With nothing left to execute, only the way out of a level
remains. -/
def loopVariant (s : MatchState r) : ℕ :=
  match s.cursor with
  | .levels => if s.remaining = 0 then 0 else levelTurns s.contraBook.entries
  | .orders _ _ => if s.remaining = 0 then 1 else levelTurns s.contraBook.entries - 1

omit [DecidableRel r] [IsStrictTotalOrder Price r] in
theorem levelTurns_cons (l : Price × OrderPointers) (es : Levels) :
    levelTurns (l :: es) = l.2.length + 2 + levelTurns es := by
  simp [levelTurns]

omit [DecidableRel r] [IsStrictTotalOrder Price r] in
/-- At a loop head inside a level the variant is positive and at most the turns of the
levels. -/
theorem loopVariant_le_of_orders {i : ℕ} (hcur : s.cursor = .orders k i)
    (hent : s.contraBook.entries = (k, ps) :: es) :
    loopVariant s ≤ ps.length + 1 + levelTurns es ∧
      (s.remaining ≠ 0 → loopVariant s = ps.length + 1 + levelTurns es) := by
  simp only [loopVariant, hcur, hent, levelTurns_cons]
  constructor
  · split <;> omega
  · intro hrem
    rw [if_neg hrem]
    omega

/-- Every turn from the front decreases the variant. -/
theorem MatchStep.variant (h : MatchStep order side s s') : loopVariant s' < loopVariant s := by
  cases h with
  | @enter k ps es hcur hrem hent =>
      simp only [loopVariant, hcur, hent, if_neg hrem, levelTurns_cons]
      omega
  | @erase k i es hcur hent =>
      have herase : (s.contraBook.erase k).entries = es := (SortedMap.split_head hent).2.2
      simp only [loopVariant, hcur, hent, herase, levelTurns_cons]
      split <;> omega
  | keep hcur _ _ hrem => simp only [loopVariant, hcur, hrem, if_true, Nat.zero_lt_one]
  | @close k p ps es hcur hrem hent hfill =>
      obtain ⟨hcur', hent', -⟩ := @fill_of_close r order p side ps k es s _ _ hcur hent hfill
      have hafter := (loopVariant_le_of_orders hcur' hent').1
      have hbefore := (loopVariant_le_of_orders hcur hent).2 hrem
      rw [List.length_cons] at hbefore
      omega
  | @step k p ps es hcur hrem hent hfill =>
      obtain ⟨hcur', -, hzero⟩ := @fill_of_step r order p side k s _ _ hfill
      have hbefore := (loopVariant_le_of_orders hcur hent).2 hrem
      rw [List.length_cons] at hbefore
      simp only [loopVariant, hcur', hzero, if_true] at hbefore ⊢
      omega

/-- **The loops are left because their conditions fail**, on any book. -/
theorem turn_matchAgainst (hcur : s.cursor = .levels) :
    matchTurn order side (matchAgainst order side s) = none := by
  have hvariant : ∀ t t' : MatchState r, CursorAtHead t → matchTurn order side t = some t' →
      loopVariant t' < loopVariant t := fun t t' hat h => (hat.matchStep h).variant
  refine WhileLoop.turn_run_eq_none (fun t t' hat h => hat.turn h) hvariant _
    (cursorAtHead_of_levels hcur) ?_
  simp only [loopVariant, hcur, matchBudget, levelTurns]
  split <;> omega

/-- The loops are only left from the head of the outer one. -/
theorem cursor_of_turn_eq_none (h : matchTurn order side s = none) : s.cursor = .levels := by
  cases hcur : s.cursor with
  | levels => rfl
  | orders k i =>
      simp only [matchTurn, hcur] at h
      split at h
      · cases h
      · split at h <;> cases h

/-! ### What the loops leave alone -/

/-- Between levels no level is empty; inside a level no level behind it is. -/
def FilledLevels (s : MatchState r) : Prop :=
  match s.cursor with
  | .levels => NoEmptyLevel s.contraBook.entries
  | .orders _ _ => NoEmptyLevel s.contraBook.entries.tail

theorem MatchStep.filledLevels (h : MatchStep order side s s') (hne : FilledLevels s) :
    FilledLevels s' := by
  cases h with
  | enter hcur _ hent =>
      simp only [FilledLevels, hcur, hent] at hne
      simp only [FilledLevels, hent, List.tail_cons]
      exact fun l hl => hne l (List.mem_cons_of_mem _ hl)
  | @erase k i es hcur hent =>
      simp only [FilledLevels, hcur, hent, List.tail_cons] at hne
      simpa only [FilledLevels, (SortedMap.split_head hent).2.2] using hne
  | @keep k i ps es hcur hent hps _ =>
      simp only [FilledLevels, hcur, hent, List.tail_cons] at hne
      simp only [FilledLevels, hent]
      exact List.forall_mem_cons.mpr ⟨hps, hne⟩
  | @close k p ps es hcur _ hent hfill =>
      obtain ⟨hcur', hent', -⟩ := @fill_of_close r order p side ps k es s _ _ hcur hent hfill
      simp only [FilledLevels, hcur, hent, List.tail_cons] at hne
      simpa only [FilledLevels, hcur', hent', List.tail_cons] using hne
  | @step k p ps es hcur _ _ hfill =>
      obtain ⟨hcur', hbook, -⟩ := @fill_of_step r order p side k s _ _ hfill
      simp only [FilledLevels, hcur] at hne
      simpa only [FilledLevels, hcur', hbook] using hne

/-- The loops write to orders of the opposite side only, allocate nothing, and take entries out of
the opposite side and out of the index. -/
structure LoopFrame (s s' : MatchState r) : Prop where
  suffix : pointers s'.contraBook.entries <:+ pointers s.contraBook.entries
  read : ∀ q ∉ pointers s.contraBook.entries, s'.heap.read q = s.heap.read q
  orderId : ∀ q, (s'.heap.read q).orderId = (s.heap.read q).orderId
  next : s'.heap.next = s.heap.next
  lookup : ∀ i q, s'.orders.lookup i = some q → s.orders.lookup i = some q

omit [DecidableRel r] [IsStrictTotalOrder Price r] in
theorem LoopFrame.refl (s : MatchState r) : LoopFrame s s :=
  ⟨List.suffix_rfl, fun _ _ => rfl, fun _ => rfl, rfl, fun _ _ h => h⟩

omit [DecidableRel r] [IsStrictTotalOrder Price r] in
theorem LoopFrame.trans {s'' : MatchState r} (h : LoopFrame s s') (h' : LoopFrame s' s'') :
    LoopFrame s s'' := by
  refine ⟨h'.suffix.trans h.suffix, fun q hq => ?_,
    fun q => (h'.orderId q).trans (h.orderId q), h'.next.trans h.next,
    fun i q hlook => h.lookup i q (h'.lookup i q hlook)⟩
  rw [h'.read q fun hmem => hq (h.suffix.subset hmem), h.read q hq]

/-- An execution changes the order it is made against, and takes it out if it closes it. -/
theorem loopFrame_fill (hent : s.contraBook.entries = (k, p :: ps) :: es) :
    LoopFrame s (s.fill order side k 0 p) := by
  have hmem : p ∈ pointers s.contraBook.entries := by
    rw [hent, pointers_cons]
    exact List.mem_append_left _ List.mem_cons_self
  have hread : ∀ (o : Order), ∀ q ∉ pointers s.contraBook.entries,
      (s.heap.write p o).read q = s.heap.read q := by
    intro o q hq
    refine ObjectStore.read_write_of_ne _ ?_ _
    rintro rfl
    exact hq hmem
  have hid : ∀ (status : OrderStatus) (q : OrderPointer),
      ((s.heap.write p ((s.reduced p).setOrderStatus status)).read q).orderId =
        (s.heap.read q).orderId := by
    intro status q
    by_cases hqp : q = p
    · rw [hqp, ObjectStore.read_write_self, reduced_eq]
      rfl
    · rw [ObjectStore.read_write_of_ne s.heap hqp]
  cases hfill : (s.reduced p).isFilled with
  | true =>
      rw [fill_of_filled hfill]
      refine ⟨?_, hread _, hid _, rfl, fun i q hlook => ?_⟩
      · rw [entries_erase_head hent, hent]
        exact List.suffix_cons p _
      · rw [UnorderedMap.lookup_erase_ite] at hlook
        split at hlook
        · cases hlook
        · exact hlook
  | false =>
      rw [fill_of_not_filled hfill]
      exact ⟨List.suffix_rfl, hread _, hid _, rfl, fun _ _ h => h⟩

theorem MatchStep.loopFrame (h : MatchStep order side s s') : LoopFrame s s' := by
  cases h with
  | enter _ _ _ => exact ⟨List.suffix_rfl, fun _ _ => rfl, fun _ => rfl, rfl, fun _ _ h => h⟩
  | @erase k i es _ hent =>
      refine ⟨?_, fun _ _ => rfl, fun _ => rfl, rfl, fun _ _ h => h⟩
      simp only [(SortedMap.split_head hent).2.2, hent, pointers_cons, List.nil_append]
      exact List.suffix_rfl
  | keep _ _ _ _ => exact ⟨List.suffix_rfl, fun _ _ => rfl, fun _ => rfl, rfl, fun _ _ h => h⟩
  | close _ _ hent _ => exact loopFrame_fill hent
  | step _ _ hent _ => exact loopFrame_fill hent

/-- What the turns keep: the iterator stays at the front, and the frame. -/
theorem CursorAtHead.turn_frame {s₀ : MatchState r} (hat : CursorAtHead s ∧ LoopFrame s₀ s)
    (h : matchTurn order side s = some s') : CursorAtHead s' ∧ LoopFrame s₀ s' :=
  ⟨hat.1.turn h, hat.2.trans (hat.1.matchStep h).loopFrame⟩

/-- **The loops as a whole** leave these alone, and no level empty. -/
theorem matchAgainst_frame (hcur : s.cursor = .levels) (hne : NoEmptyLevel s.contraBook.entries) :
    LoopFrame s (matchAgainst order side s) ∧
      NoEmptyLevel (matchAgainst order side s).contraBook.entries := by
  have hkept : (CursorAtHead (matchAgainst order side s) ∧
      LoopFrame s (matchAgainst order side s)) ∧ FilledLevels (matchAgainst order side s) := by
    refine WhileLoop.run_invariant (P := fun t => (CursorAtHead t ∧ LoopFrame s t) ∧
      FilledLevels t) ?_ _ ⟨⟨cursorAtHead_of_levels hcur, LoopFrame.refl s⟩, ?_⟩
    · rintro t t' ⟨hat, hfilled⟩ h
      exact ⟨CursorAtHead.turn_frame hat h, (hat.1.matchStep h).filledLevels hfilled⟩
    · simpa only [FilledLevels, hcur] using hne
  refine ⟨hkept.1.2, ?_⟩
  have hfilled := hkept.2
  rwa [FilledLevels, cursor_of_turn_eq_none (turn_matchAgainst hcur)] at hfilled

/-! ### How often the bodies run -/

/-- The resting order on which the body of the inner loop runs in a state, if it does. -/
def MatchState.bodyOrder (s : MatchState r) : Option OrderPointer :=
  match s.cursor with
  | .levels => none
  | .orders k i => if s.remaining = 0 then none else (s.levelOrders k)[i]?

/-- The resting orders that the iterations of the inner loop visit, in order. -/
def visitedOrders (order : OrderPointer) (side : BuySell) (s : MatchState r) : OrderPointers :=
  (WhileLoop.visited (matchTurn order side) (matchBudget s) s).filterMap MatchState.bodyOrder

/-- The states at the heads of the two loops. -/
def loopHeads (order : OrderPointer) (side : BuySell) (s : MatchState r) : List (MatchState r) :=
  WhileLoop.heads (matchTurn order side) (matchBudget s) s

/-- How often control is at the head of the outer loop: once for each of its iterations, and once
more if its condition ends it. -/
def outerHeads (order : OrderPointer) (side : BuySell) (s : MatchState r) : ℕ :=
  (loopHeads order side s).countP fun t => t.cursor == .levels

/-- The outer loop heads that are still to come: one for each level, and one. -/
def headCredit (s : MatchState r) : ℕ :=
  if s.remaining = 0 then 1
  else if s.cursor = .levels then s.contraBook.entries.length + 1
  else s.contraBook.entries.length

theorem MatchStep.headCredit_le (h : MatchStep order side s s') :
    headCredit s' + (if s.cursor == .levels then 1 else 0) ≤ headCredit s := by
  cases h with
  | @enter k ps es hcur hrem hent => simp [headCredit, hcur, hrem]
  | @erase k i es hcur hent =>
      have herase : (s.contraBook.erase k).entries = es := (SortedMap.split_head hent).2.2
      simp [headCredit, hcur, hent, herase]
  | keep hcur _ _ hrem => simp [headCredit, hcur, hrem]
  | @close k p ps es hcur hrem hent hfill =>
      obtain ⟨hcur', hent', -⟩ := @fill_of_close r order p side ps k es s _ _ hcur hent hfill
      simp only [headCredit, hcur, hcur', hent, hent', hrem, List.length_cons]
      split <;> simp
  | @step k p ps es hcur hrem hent hfill =>
      obtain ⟨hcur', -, hzero⟩ := @fill_of_step r order p side k s _ _ hfill
      simp [headCredit, hcur, hzero, hrem, hent]

/-- What the iterations from a state `s` to a state `t` have done, `vs` being the states visited
on the way: the orders closed are the first ones of the opposite side, one more may have been
visited and stays at the front, each visit recorded one trade, and what was traded is what the
remaining quantity has lost. -/
structure MatchTrace (s : MatchState r) (vs : List (MatchState r)) (t : MatchState r) : Prop where
  closed : ∃ closed, pointers s.contraBook.entries = closed ++ pointers t.contraBook.entries ∧
    (vs.filterMap MatchState.bodyOrder = closed ∨
      ∃ p ps, vs.filterMap MatchState.bodyOrder = closed ++ [p] ∧
        pointers t.contraBook.entries = p :: ps)
  trades : ∃ new, t.trades = s.trades ++ new ∧
    new.length = (vs.filterMap MatchState.bodyOrder).length ∧
    t.remaining.toNat + (new.map fun trade => trade.quantity.toNat).sum = s.remaining.toNat
  remaining : (vs ++ [t]).Pairwise fun t t' => t'.remaining ≤ t.remaining
  below : ∀ t' ∈ vs ++ [t], t'.remaining ≤ s.remaining
  exhausted : s.remaining = 0 → vs.filterMap MatchState.bodyOrder = [] ∧
    pointers t.contraBook.entries = pointers s.contraBook.entries

omit [DecidableRel r] [IsStrictTotalOrder Price r] in
theorem matchTrace_nil (s : MatchState r) : MatchTrace s [] s where
  closed := ⟨[], rfl, Or.inl rfl⟩
  trades := ⟨[], (List.append_nil _).symm, rfl, Nat.add_zero _⟩
  remaining := List.pairwise_singleton _ _
  below := by
    intro t' ht'
    obtain rfl := List.mem_singleton.mp ht'
    exact UInt32.le_refl _
  exhausted := fun _ => ⟨rfl, rfl⟩

omit [DecidableRel r] [IsStrictTotalOrder Price r] in
/-- The remaining quantities of a trace that a turn extends at its front. -/
theorem MatchTrace.remaining_cons {vs : List (MatchState r)} {t : MatchState r}
    (htrace : MatchTrace s' vs t) (hle : s'.remaining ≤ s.remaining) :
    ((s :: vs) ++ [t]).Pairwise (fun t t' => t'.remaining ≤ t.remaining) ∧
      ∀ t' ∈ (s :: vs) ++ [t], t'.remaining ≤ s.remaining := by
  have hbelow : ∀ t' ∈ vs ++ [t], t'.remaining ≤ s.remaining :=
    fun t' ht' => UInt32.le_trans (htrace.below t' ht') hle
  refine ⟨List.pairwise_cons.mpr ⟨hbelow, htrace.remaining⟩, ?_⟩
  intro t' ht'
  rcases List.mem_cons.mp ht' with rfl | ht'
  · exact UInt32.le_refl _
  · exact hbelow t' ht'

omit [DecidableRel r] [IsStrictTotalOrder Price r] in
/-- A turn in which no body of the inner loop runs. -/
theorem MatchTrace.cons_of_bodyOrder_eq_none {vs : List (MatchState r)} {t : MatchState r}
    (htrace : MatchTrace s' vs t) (hbody : s.bodyOrder = none)
    (hptr : pointers s'.contraBook.entries = pointers s.contraBook.entries)
    (htrades : s'.trades = s.trades) (hrem : s'.remaining = s.remaining) :
    MatchTrace s (s :: vs) t := by
  have hvisited : (s :: vs).filterMap MatchState.bodyOrder = vs.filterMap MatchState.bodyOrder :=
    List.filterMap_cons_none hbody
  obtain ⟨hpairwise, hbelow⟩ := htrace.remaining_cons (UInt32.le_of_eq hrem)
  refine ⟨?_, ?_, hpairwise, hbelow, ?_⟩
  · rw [hvisited, ← hptr]
    exact htrace.closed
  · rw [hvisited, ← htrades, ← hrem]
    exact htrace.trades
  · rw [hvisited, ← hptr, ← hrem]
    exact htrace.exhausted

/-- A turn in which the body of the inner loop runs on the order at the front. -/
theorem MatchTrace.cons_fill {vs : List (MatchState r)} {t : MatchState r}
    (htrace : MatchTrace (s.fill order side k 0 p) vs t) (hcur : s.cursor = .orders k 0)
    (hrem : s.remaining ≠ 0) (hent : s.contraBook.entries = (k, p :: ps) :: es) :
    MatchTrace s (s :: vs) t := by
  have hbody : s.bodyOrder = some p := by
    simp only [MatchState.bodyOrder, hcur, if_neg hrem, levelOrders_head hent,
      List.getElem?_cons_zero]
  have hvisited : (s :: vs).filterMap MatchState.bodyOrder =
      p :: vs.filterMap MatchState.bodyOrder := List.filterMap_cons_some hbody
  have hptr : pointers s.contraBook.entries = p :: (ps ++ pointers es) := by
    rw [hent, pointers_cons, List.cons_append]
  obtain ⟨hexec, hleft⟩ : (s.executed p).toNat ≤ s.remaining.toNat ∧
      (s.fill order side k 0 p).remaining.toNat =
        s.remaining.toNat - (s.executed p).toNat := by
    refine ⟨(executed_le s p).1, ?_⟩
    rw [remaining_fill]
    exact (toNat_after_fill s p).1
  obtain ⟨hpairwise, hbelow⟩ := htrace.remaining_cons
    (UInt32.le_iff_toNat_le.mpr (hleft ▸ Nat.sub_le _ _))
  refine ⟨?_, ?_, hpairwise, hbelow, fun hzero => absurd hzero hrem⟩
  · rw [hvisited, hptr]
    cases hfill : (s.reduced p).isFilled with
    | true =>
        obtain ⟨-, hent', -⟩ := @fill_of_close r order p side ps k es s _ _ hcur hent hfill
        obtain ⟨closed, hclosed, hstays⟩ := htrace.closed
        rw [hent', pointers_cons] at hclosed
        refine ⟨p :: closed, by rw [hclosed, List.cons_append], ?_⟩
        rcases hstays with hstays | ⟨q, qs, hstays, hfront⟩
        · exact Or.inl (by rw [hstays])
        · exact Or.inr ⟨q, qs, by rw [hstays, List.cons_append], hfront⟩
    | false =>
        -- nothing is left to execute, so no further body runs and the order stays at the front
        obtain ⟨-, hbook, hzero⟩ := @fill_of_step r order p side k s _ _ hfill
        obtain ⟨hnone, hsame⟩ := htrace.exhausted hzero
        rw [hbook, hptr] at hsame
        exact ⟨[], hsame.symm, Or.inr ⟨p, ps ++ pointers es, by rw [hnone]; rfl, hsame⟩⟩
  · obtain ⟨new, htrades, hlength, hsum⟩ := htrace.trades
    refine ⟨s.trade order side k p :: new, ?_, ?_, ?_⟩
    · rw [htrades, trades_fill, List.append_assoc, List.singleton_append]
    · rw [hvisited, List.length_cons, List.length_cons, hlength]
    · have hquantity : (s.trade order side k p).quantity = s.executed p := rfl
      rw [List.map_cons, List.sum_cons, hquantity]
      omega

/-- **The trace of the loops**, by induction on the turns: each of the five ways in which a turn
goes on extends it at its front. -/
theorem matchTrace_run (n : ℕ) (hat : CursorAtHead s) :
    MatchTrace s (WhileLoop.visited (matchTurn order side) n s)
      (WhileLoop.run (matchTurn order side) n s) := by
  refine WhileLoop.run_history (R := MatchTrace) (fun t t' hat h => hat.turn h)
    (fun t _ => matchTrace_nil t) ?_ n hat
  intro s s' vs t hat hturn htrace
  cases hat.matchStep hturn with
  | enter hcur _ _ =>
      exact htrace.cons_of_bodyOrder_eq_none (by simp only [MatchState.bodyOrder, hcur]) rfl rfl rfl
  | @erase k i es hcur hent =>
      have herase : (s.contraBook.erase k).entries = es := (SortedMap.split_head hent).2.2
      refine htrace.cons_of_bodyOrder_eq_none ?_ ?_ rfl rfl
      · simp only [MatchState.bodyOrder, hcur, levelOrders_head hent, List.getElem?_nil, ite_self]
      · simp only [herase, hent, pointers_cons, List.nil_append]
  | keep hcur _ _ hrem =>
      exact htrace.cons_of_bodyOrder_eq_none
        (by simp only [MatchState.bodyOrder, hcur, hrem, if_true]) rfl rfl rfl
  | close hcur hrem hent _ => exact htrace.cons_fill hcur hrem hent
  | step hcur hrem hent _ => exact htrace.cons_fill hcur hrem hent

/-- **What holds of the loops from a state `s`, whatever the opposite side contains.** -/
structure LoopBounds (order : OrderPointer) (side : BuySell) (s : MatchState r) : Prop where
  /-- The loops are left because their conditions fail. -/
  ended : matchTurn order side (matchAgainst order side s) = none
  /-- The inner iterations visit entries of the opposite side in order, none of them twice. -/
  visits : visitedOrders order side s <+: pointers s.contraBook.entries
  inner : (visitedOrders order side s).length ≤ (pointers s.contraBook.entries).length
  outer : outerHeads order side s ≤ s.contraBook.entries.length + 1
  /-- The remaining quantity never increases. -/
  decreasing : (loopHeads order side s).Pairwise fun t t' => t'.remaining ≤ t.remaining
  /-- One trade is recorded for each visit, and no subtraction from the remaining quantity wraps. -/
  trades : ∃ new, (matchAgainst order side s).trades = s.trades ++ new ∧
    new.length = (visitedOrders order side s).length ∧
    (matchAgainst order side s).remaining.toNat +
      (new.map fun trade => trade.quantity.toNat).sum = s.remaining.toNat
  /-- The visited entries are taken out of the book, all or all but one. -/
  stays : ∃ closed, pointers s.contraBook.entries =
      closed ++ pointers (matchAgainst order side s).contraBook.entries ∧
    closed <+: visitedOrders order side s ∧
    (visitedOrders order side s).length ≤ closed.length + 1

/-- A loop that starts at the head of the levels needs no more turns than there are levels and
orders. -/
theorem loopBounds_of_levels (hcur : s.cursor = .levels) : LoopBounds order side s := by
  have hat : CursorAtHead s := cursorAtHead_of_levels hcur
  have htrace := @matchTrace_run r order side s _ _ (matchBudget s) hat
  obtain ⟨closed, hclosed, hstays⟩ := htrace.closed
  have hvisits : visitedOrders order side s <+: pointers s.contraBook.entries ∧
      closed <+: visitedOrders order side s ∧
      (visitedOrders order side s).length ≤ closed.length + 1 := by
    rw [visitedOrders]
    rcases hstays with hstays | ⟨p, ps, hstays, hfront⟩
    · rw [hstays, hclosed]
      exact ⟨List.prefix_append _ _, List.prefix_rfl, Nat.le_succ _⟩
    · rw [hstays, hclosed, hfront]
      refine ⟨⟨ps, by rw [List.append_assoc]; rfl⟩, List.prefix_append _ _, ?_⟩
      rw [List.length_append, List.length_singleton]
  have houter : outerHeads order side s ≤ headCredit s := by
    refine WhileLoop.countP_heads_le (fun t t' hat h => hat.turn h)
      (fun t t' hat h => (hat.matchStep h).headCredit_le) ?_ _ hat
    intro t _ ht
    have hlevels : t.cursor = .levels := by simpa using ht
    rw [headCredit, if_pos hlevels]
    split <;> omega
  refine ⟨turn_matchAgainst hcur, hvisits.1, hvisits.1.length_le, houter.trans ?_,
    htrace.remaining, htrace.trades, closed, hclosed, hvisits.2⟩
  rw [headCredit, if_pos hcur]
  split <;> omega

end Turn

/-- **The matching loops end on any book**, for the order at any address, with any quantity to
execute, against either side. -/
theorem matching_loops_bounded (b : Orderbook) (order : OrderPointer) (quantity : Quantity) :
    LoopBounds order .buy (b.matchState b.asks quantity) ∧
      LoopBounds order .sell (b.matchState b.bids quantity) :=
  ⟨loopBounds_of_levels rfl, loopBounds_of_levels rfl⟩

end ExchangeEngine
