import Mathlib.Data.List.Dedup
import ExchangeEngine.Lib.PriceTime

/-!
# Market Depth

What is on offer at each price: `depthAt p L` is the total quantity of the offers of `L` at the
price `p`, and `countAt p L` their number. Neither depends on the order of the offers, so that both
can be followed through a book by what joins it and what leaves it. `profile L` lists the prices of
`L`, each with its depth.
-/

namespace PriceTime

variable {ι P τ : Type*} [DecidableEq P]

/-- The quantity on offer at a price. -/
def depthAt (p : P) (L : List (Offer ι P τ)) : ℕ :=
  ((L.filter fun o => o.price = p).map Offer.qty).sum

/-- The number of offers at a price. -/
def countAt (p : P) (L : List (Offer ι P τ)) : ℕ :=
  (L.filter fun o => o.price = p).length

theorem depthAt_cons (p : P) (o : Offer ι P τ) (L : List (Offer ι P τ)) :
    depthAt p (o :: L) = (if o.price = p then o.qty else 0) + depthAt p L := by
  by_cases h : o.price = p <;> simp [depthAt, h]

theorem countAt_cons (p : P) (o : Offer ι P τ) (L : List (Offer ι P τ)) :
    countAt p (o :: L) = (if o.price = p then 1 else 0) + countAt p L := by
  by_cases h : o.price = p <;> simp [countAt, h, Nat.add_comm]

theorem depthAt_perm {L L' : List (Offer ι P τ)} (h : L.Perm L') (p : P) :
    depthAt p L = depthAt p L' :=
  ((h.filter _).map _).sum_nat

theorem countAt_perm {L L' : List (Offer ι P τ)} (h : L.Perm L') (p : P) :
    countAt p L = countAt p L' :=
  (h.filter _).length_eq

/-- There are no more offers at a price than what they offer, if each offers something. -/
theorem countAt_le_depthAt {L : List (Offer ι P τ)} (hpos : ∀ o ∈ L, 0 < o.qty) (p : P) :
    countAt p L ≤ depthAt p L := by
  induction L with
  | nil => exact Nat.le_refl 0
  | cons o L ih =>
      have ih := ih fun a ha => hpos a (List.mem_cons_of_mem o ha)
      have ho := hpos o List.mem_cons_self
      rw [countAt_cons, depthAt_cons]
      split <;> omega

theorem depthAt_eq_zero_of_countAt {L : List (Offer ι P τ)} {p : P} (h : countAt p L = 0) :
    depthAt p L = 0 := by
  rw [depthAt, List.length_eq_zero_iff.mp h]
  rfl

/-- Something is on offer at a price exactly where there is an offer, if each offers something. -/
theorem depthAt_eq_zero_iff {L : List (Offer ι P τ)} (hpos : ∀ o ∈ L, 0 < o.qty) (p : P) :
    depthAt p L = 0 ↔ countAt p L = 0 := by
  refine ⟨fun h => ?_, depthAt_eq_zero_of_countAt⟩
  have hle := countAt_le_depthAt hpos p
  omega

theorem depthAt_append (p : P) (L L' : List (Offer ι P τ)) :
    depthAt p (L ++ L') = depthAt p L + depthAt p L' := by
  simp [depthAt]

/-- The depth at a price at which all offers are is their total. -/
theorem depthAt_of_forall {p : P} {L : List (Offer ι P τ)} (h : ∀ o ∈ L, o.price = p) :
    depthAt p L = (L.map Offer.qty).sum := by
  rw [depthAt, List.filter_eq_self.mpr fun o ho => decide_eq_true (h o ho)]

theorem depthAt_eq_zero {p : P} {L : List (Offer ι P τ)} (h : ∀ o ∈ L, o.price ≠ p) :
    depthAt p L = 0 := by
  rw [depthAt, List.filter_eq_nil_iff.mpr fun o ho => by simpa using h o ho]
  rfl

/-- **The depth of a side, price by price**, in the order of the prices. -/
def profile (L : List (Offer ι P τ)) : List (P × ℕ) :=
  (L.map Offer.price).dedup.map fun p => (p, depthAt p L)

/-- The offers at one price come first in the profile, if the price does not come again. -/
theorem profile_append {p : P} {A B : List (Offer ι P τ)} (hne : A ≠ [])
    (hA : ∀ o ∈ A, o.price = p) (hB : ∀ o ∈ B, o.price ≠ p) :
    profile (A ++ B) = (p, (A.map Offer.qty).sum) :: profile B := by
  have hprices : ((A ++ B).map Offer.price).dedup = p :: (B.map Offer.price).dedup := by
    have hrun : A.map Offer.price = List.replicate A.length p :=
      List.eq_replicate_iff.mpr ⟨List.length_map .., fun x hx => by
        obtain ⟨o, ho, rfl⟩ := List.mem_map.mp hx
        exact hA o ho⟩
    have hnot : p ∉ B.map Offer.price := by
      intro hp
      obtain ⟨o, ho, heq⟩ := List.mem_map.mp hp
      exact hB o ho heq
    rw [List.map_append, hrun]
    obtain ⟨n, hn⟩ := Nat.exists_eq_succ_of_ne_zero (mt List.length_eq_zero_iff.mp hne)
    rw [hn]
    clear hn hrun
    induction n with
    | zero => exact List.dedup_cons_of_notMem hnot
    | succ n ih =>
        rw [List.replicate_succ, List.cons_append, List.dedup_cons_of_mem, ih]
        exact List.mem_append_left _ (by simp)
  have htotal : depthAt p (A ++ B) = (A.map Offer.qty).sum := by
    rw [depthAt_append, depthAt_of_forall hA, depthAt_eq_zero hB, Nat.add_zero]
  rw [profile, hprices, List.map_cons, htotal]
  refine congrArg (List.cons _) (List.map_congr_left fun k hk => ?_)
  obtain ⟨o, ho, rfl⟩ := List.mem_map.mp (List.mem_dedup.mp hk)
  have hA' : ∀ a ∈ A, a.price ≠ o.price := fun a ha heq => hB o ho (heq.symm.trans (hA a ha))
  rw [depthAt_append, depthAt_eq_zero hA', Nat.zero_add]

namespace Book

/-- The offers of both sides. -/
def offers (b : Book ι P τ) : List (Offer ι P τ) :=
  b.bids ++ b.asks

omit [DecidableEq P] in
theorem offers_perm (b : Book ι P τ) (s : Side) :
    b.offers.Perm (b.side s.contra ++ b.side s) := by
  cases s with
  | bid => exact List.perm_append_comm
  | ask => exact List.Perm.refl _

omit [DecidableEq P] in
/-- An offer that is queued on a side joins the offers of the book. -/
theorem offers_enqueue {r : P → P → Prop} [DecidableRel r] (b : Book ι P τ) (s : Side)
    (o : Offer ι P τ) : (b.setSide s (enqueue r o (b.side s))).offers.Perm (o :: b.offers) := by
  cases s with
  | bid => exact (enqueue_perm o b.bids).append_right b.asks
  | ask => exact ((enqueue_perm o b.asks).append_left b.bids).trans List.perm_middle

omit [DecidableEq P] in
/-- Withdrawing an id takes its offer out of a book without repeated ids. -/
theorem offers_withdraw [DecidableEq ι] {b : Book ι P τ} (hnd : b.ids.Nodup)
    {o : Offer ι P τ} (ho : o ∈ b.offers) : b.offers.Perm (o :: (b.withdraw o.id).offers) := by
  rw [ids, ← List.map_append, ← offers] at hnd
  have hfilter : (b.withdraw o.id).offers = b.offers.filter fun a => a.id ≠ o.id :=
    (List.filter_append ..).symm
  rw [hfilter]
  obtain ⟨A, B, heq⟩ := List.append_of_mem ho
  rw [heq] at hnd ⊢
  have hperm : (A ++ o :: B).Perm (o :: (A ++ B)) := List.perm_middle
  have hids := (List.nodup_cons.mp ((hperm.map Offer.id).nodup_iff.mp hnd)).1
  have hself : (A ++ B).filter (fun a => a.id ≠ o.id) = A ++ B := by
    refine List.filter_eq_self.mpr fun a ha => decide_eq_true fun hid => ?_
    exact hids (hid ▸ List.mem_map_of_mem ha)
  refine hperm.trans (List.Perm.cons o ?_)
  rw [List.filter_append, List.filter_cons_of_neg (by simp), ← List.filter_append, hself]

end Book

end PriceTime
