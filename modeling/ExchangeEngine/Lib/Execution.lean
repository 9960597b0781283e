import ExchangeEngine.Lib.PriceTime

/-!
# What a Sweep Gets

How good the executions of a sweep are, and how two sweeps compose, over arbitrary identities and
prices.

## Main results

* `sweep_executed_within`: within any limit that is tighter than what a sweep accepts, it executes
  as much as its demand and the offers within that limit allow.
* `sweep_walks`, `closed_of_mem_dropLast`: a sweep walks along its side from the front, closes every
  offer that it hits, except perhaps the last, and keeps the others.
* `sweep_add`: a demand that comes in two parts executes what it executes in one.
-/

namespace PriceTime

variable {ι P τ : Type*} {ok : P → Bool}

/-- The quantity that a list of fills executes within a limit. -/
def executedWithin (within : P → Bool) (fs : List (Fill ι P τ)) : ℕ :=
  ((fs.filter fun f => within f.offer.price).map Fill.executed).sum

/-- The quantity that a side offers within a limit. -/
def offeredWithin (within : P → Bool) (L : List (Offer ι P τ)) : ℕ :=
  ((L.filter fun o => within o.price).map Offer.qty).sum

/-- **Best execution.** Of a side in priority order, a sweep executes within a limit as much as its
demand and the offers within the limit allow, if it accepts every price within the limit. -/
theorem sweep_executed_within {r : P → P → Prop} {before : ι → ι → Prop}
    {L : List (Offer ι P τ)} (h : InPriority r before L) {within : P → Bool}
    (hlimit : ∀ x y, r x y → within y = true → within x = true)
    (hok : ∀ p, within p = true → ok p = true) (q : ℕ) :
    executedWithin within (sweep ok q L).fills = min q (offeredWithin within L) := by
  obtain ⟨A, hA⟩ : ∃ A, A = L.filter fun o => within o.price := ⟨_, rfl⟩
  obtain ⟨B, hB⟩ : ∃ B, B = L.filter fun o => !within o.price := ⟨_, rfl⟩
  have hL : A ++ B = L := hA ▸ hB ▸ h.filter_append hlimit
  have hin : ∀ a ∈ A, within a.price = true := fun a ha => by
    rw [hA] at ha
    simpa using List.of_mem_filter ha
  have hout : ∀ b ∈ B, within b.price = false := fun b hb => by
    rw [hB] at hb
    simpa using List.of_mem_filter hb
  have haccepted : ∀ a ∈ A, ok a.price = true := fun a ha => hok _ (hin a ha)
  have hfirst : (sweep ok q A).fills.filter (fun f => within f.offer.price) =
      (sweep ok q A).fills :=
    List.filter_eq_self.mpr fun f hf => hin _ (mem_sweep_fills hf).1
  have hlater : (sweep ok (sweep ok q A).left B).fills.filter
      (fun f => within f.offer.price) = [] :=
    List.filter_eq_nil_iff.mpr fun f hf => by simp [hout _ (mem_sweep_fills hf).1]
  have htotal := sweep_total ok q A
  have hleft := sweep_left_of_accepted haccepted q
  rw [offeredWithin, ← hA, ← hL, sweep_append haccepted, executedWithin]
  simp only [List.filter_append, hfirst, hlater, List.append_nil]
  omega

/-- What a fill leaves of the offer that it hits; nothing, if it closes it. -/
def Fill.remainder (f : Fill ι P τ) : Option (Offer ι P τ) :=
  if f.executed = f.offer.qty then none
  else some { f.offer with qty := f.offer.qty - f.executed }

/-- **A sweep walks along its side**: it hits the offers at the front, in their order, and keeps the
others, behind what it leaves of those. -/
theorem sweep_walks (ok : P → Bool) (q : ℕ) (L : List (Offer ι P τ)) :
    ∃ kept, L = (sweep ok q L).fills.map Fill.offer ++ kept ∧
      (sweep ok q L).rest = (sweep ok q L).fills.filterMap Fill.remainder ++ kept := by
  induction L generalizing q with
  | nil => exact ⟨[], rfl, rfl⟩
  | cons o L ih =>
      rcases sweep_cases ok q o L with ⟨h, -⟩ | ⟨h, -⟩ | ⟨h, -, -, hlt⟩
      · rw [h]
        exact ⟨o :: L, rfl, rfl⟩
      · obtain ⟨kept, hside, hrest⟩ := ih (q - o.qty)
        have hclosed : Fill.remainder ⟨o, o.qty, q - o.qty⟩ = none := if_pos rfl
        rw [h]
        refine ⟨kept, congrArg (List.cons o) hside, ?_⟩
        rw [List.filterMap_cons_none hclosed]
        exact hrest
      · have hleft : Fill.remainder ⟨o, q, 0⟩ = some { o with qty := o.qty - q } :=
          if_neg (Nat.ne_of_lt hlt)
        rw [h]
        refine ⟨L, rfl, ?_⟩
        rw [List.filterMap_cons_some hleft]
        rfl

/-- The offers that a sweep hits are those at the front. -/
theorem map_offer_fills (ok : P → Bool) (q : ℕ) (L : List (Offer ι P τ)) :
    (sweep ok q L).fills.map Fill.offer <+: L := by
  obtain ⟨kept, hside, -⟩ := sweep_walks ok q L
  exact ⟨kept, hside.symm⟩

/-- The prices of a sweep get no better from one execution to the next. -/
theorem pairwise_fills {r : P → P → Prop} [IsStrictOrder P r] {before : ι → ι → Prop}
    {L : List (Offer ι P τ)} (h : InPriority r before L) (ok : P → Bool) (q : ℕ) :
    (sweep ok q L).fills.Pairwise fun f g => ¬ r g.offer.price f.offer.price := by
  have hfront := h.sublist (map_offer_fills ok q L).sublist
  rw [InPriority, List.pairwise_map] at hfront
  refine hfront.imp fun {f g} hfg => ?_
  rcases hfg with hr | ⟨heq, -⟩
  · exact asymm_of r hr
  · rw [heq]
    exact irrefl_of r _

/-- **A sweep closes every offer that it hits, except perhaps the last**, and has demand left
after each of these if no offer is empty. -/
theorem closed_of_mem_dropLast {q : ℕ} {L : List (Offer ι P τ)} {f : Fill ι P τ}
    (hf : f ∈ (sweep ok q L).fills.dropLast) : f.executed = f.offer.qty ∧ f.left ≠ 0 := by
  induction L generalizing q with
  | nil => cases hf
  | cons o L ih =>
      rcases sweep_cases ok q o L with ⟨h, -⟩ | ⟨h, hq, hok, hle⟩ | ⟨h, -⟩
      · rw [h] at hf
        cases hf
      · simp only [h] at hf
        have hne : (sweep ok (q - o.qty) L).fills ≠ [] := by
          rintro hnil
          rw [hnil] at hf
          cases hf
        rw [List.dropLast_cons_of_ne_nil hne] at hf
        rcases List.mem_cons.mp hf with rfl | hf
        · refine ⟨rfl, fun hzero => hne ?_⟩
          change q - o.qty = 0 at hzero
          rw [hzero, sweep_zero]
        · exact ih hf
      · rw [h] at hf
        cases hf

/-- An offer that a sweep closes is gone, if no other offer has its identity. -/
theorem notMem_rest_of_closed {q : ℕ} {L : List (Offer ι P τ)} (hL : (L.map Offer.id).Nodup)
    {f : Fill ι P τ} (hf : f ∈ (sweep ok q L).fills) (hclosed : f.executed = f.offer.qty) :
    f.offer.id ∉ (sweep ok q L).rest.map Offer.id := by
  induction L generalizing q with
  | nil => cases hf
  | cons o L ih =>
      obtain ⟨ho, hnd⟩ := List.nodup_cons.mp hL
      rcases sweep_cases ok q o L with ⟨h, -⟩ | ⟨h, hq, hok, hle⟩ | ⟨h, -, -, hlt⟩
      · rw [h] at hf
        cases hf
      · rw [h] at hf
        rcases List.mem_cons.mp hf with rfl | hf
        · exact notMem_sweep_rest hq hok hle ho
        · rw [h]
          exact ih hnd hf
      · rw [h, List.mem_singleton] at hf
        subst hf
        exact absurd hclosed (Nat.ne_of_lt hlt)

/-- **A demand in two parts**: the side that remains is the one that the whole demand leaves, and
what the two parts leave open is what the whole demand leaves open. -/
theorem sweep_add (ok : P → Bool) (q₁ q₂ : ℕ) (L : List (Offer ι P τ)) :
    (sweep ok q₂ (sweep ok q₁ L).rest).rest = (sweep ok (q₁ + q₂) L).rest ∧
      (sweep ok q₁ L).left + (sweep ok q₂ (sweep ok q₁ L).rest).left =
        (sweep ok (q₁ + q₂) L).left := by
  induction L generalizing q₁ with
  | nil => exact ⟨rfl, rfl⟩
  | cons o L ih =>
      rcases sweep_cases ok q₁ o L with ⟨h, rfl | hok⟩ | ⟨h, hq, hok, hle⟩ | ⟨h, hq, hok, hlt⟩
      · rw [sweep_zero, Nat.zero_add]
        exact ⟨rfl, Nat.zero_add _⟩
      · rw [h, sweep_reject hok, sweep_reject hok]
        exact ⟨rfl, rfl⟩
      · obtain ⟨hrest, hleft⟩ := ih (q₁ - o.qty)
        have hsum : q₁ + q₂ - o.qty = q₁ - o.qty + q₂ := by omega
        rw [sweep_close (by omega) hok (by omega : o.qty ≤ q₁ + q₂), hsum, h]
        exact ⟨hrest, hleft⟩
      · rw [h]
        by_cases hq₂ : q₂ = 0
        · rw [hq₂, Nat.add_zero, sweep_zero, h]
          exact ⟨rfl, rfl⟩
        by_cases hle : o.qty ≤ q₁ + q₂
        · have hle' : o.qty - q₁ ≤ q₂ := by omega
          have hsum : q₁ + q₂ - o.qty = q₂ - (o.qty - q₁) := by omega
          rw [sweep_close (by omega) hok hle, hsum,
            sweep_close (o := { o with qty := o.qty - q₁ }) hq₂ hok hle']
          exact ⟨rfl, Nat.zero_add _⟩
        · have hlt' : q₂ < o.qty - q₁ := by omega
          rw [sweep_within (by omega) hok (by omega : q₁ + q₂ < o.qty),
            sweep_within (o := { o with qty := o.qty - q₁ }) hq₂ hok hlt', Nat.sub_sub]
          exact ⟨rfl, rfl⟩

/-- What the two parts execute against an offer is what the whole demand executes against it. -/
theorem executedFor_add [DecidableEq ι] (ok : P → Bool) (i : ι) (q₁ q₂ : ℕ)
    (L : List (Offer ι P τ)) :
    executedFor i (sweep ok q₁ L).fills +
        executedFor i (sweep ok q₂ (sweep ok q₁ L).rest).fills =
      executedFor i (sweep ok (q₁ + q₂) L).fills := by
  have hfirst := sweep_conserves ok i q₁ L
  have hsecond := sweep_conserves ok i q₂ (sweep ok q₁ L).rest
  have hwhole := sweep_conserves ok i (q₁ + q₂) L
  rw [(sweep_add ok q₁ q₂ L).1] at hsecond
  omega

end PriceTime
