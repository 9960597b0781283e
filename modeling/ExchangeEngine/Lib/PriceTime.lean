import Mathlib.Algebra.GroupWithZero.Nat
import Mathlib.Data.List.Pairwise
import Mathlib.Data.List.Nodup
import Mathlib.Order.RelClasses
import Mathlib.Tactic.Common

/-!
# Price–Time Priority Matching

The mathematics of a limit order book, over arbitrary types of identities, prices and
attached data. One side of a book is a list of **offers** in priority order: the best price
first and, at one price, the offer that has waited longest first. Nothing here knows how a
program stores a book; quantities are natural numbers and prices come with a strict total
order `r` that puts the better price of the side first.

* `sweep ok q L` consumes the side `L` from the front with a demand of `q`, as long as `ok`
  accepts the price at the front. Its `fills` are the executions, `rest` the side that
  remains and `left` the demand that was not met.
* `enqueue r o L` queues an offer behind all offers at a better or equal price.
* `Book` has a bid and an ask side; `Book.submit` sweeps the opposite side and may queue
  the unmet rest, `Book.withdraw` removes an offer.

## Main results

* `sweep_total`, `sweep_conserves`: what is executed against an offer is exactly what the
  offer loses, and what is executed in total is exactly what the demand loses.
* `sweep_stop`: a sweep with demand left over stopped at an empty side or at a price that
  is not accepted.
* `InPriority` and its preservation by `sweep`, `enqueue` and `withdraw`: a side stays
  sorted by price and, within a price, by time of arrival.
* `Book.submit_uncrossed`: a book in which every bid is below every ask stays so.
-/

namespace PriceTime

/-- A quantity on offer at a price. `tag` is data that matching does not look at. -/
@[ext] structure Offer (ι P τ : Type*) where
  id : ι
  price : P
  qty : ℕ
  tag : τ
  deriving DecidableEq

/-- One execution of a sweep: the offer as it stood when it was hit, the executed quantity,
and the demand left after it. -/
structure Fill (ι P τ : Type*) where
  offer : Offer ι P τ
  executed : ℕ
  left : ℕ
  deriving DecidableEq

/-- The outcome of a sweep. -/
structure Sweep (ι P τ : Type*) where
  fills : List (Fill ι P τ)
  rest : List (Offer ι P τ)
  left : ℕ
  deriving DecidableEq

/-- In a list whose elements keep `within` towards the front, the elements within stand before the
others. -/
theorem filter_append_of_pairwise {α : Type*} {R : α → α → Prop} {within : α → Bool} {l : List α}
    (h : l.Pairwise R) (hwithin : ∀ a b, R a b → within b = true → within a = true) :
    l.filter within ++ l.filter (fun a => !within a) = l := by
  induction l with
  | nil => rfl
  | cons a l ih =>
      obtain ⟨ha, hl⟩ := List.pairwise_cons.mp h
      cases hin : within a with
      | true => simp [hin, ih hl]
      | false =>
          have hout : ∀ b ∈ l, within b = false := by
            intro b hb
            refine Bool.eq_false_iff.mpr fun hb' => ?_
            rw [hwithin a b (ha b hb) hb'] at hin
            cases hin
          rw [List.filter_cons_of_neg (by simp [hin]), List.filter_cons_of_pos (by simp [hin]),
            List.filter_eq_nil_iff.mpr fun b hb => by simp [hout b hb],
            List.filter_eq_self.mpr fun b hb => by simp [hout b hb]]
          rfl

variable {ι P τ : Type*}

/-- An offer without its quantity: what executions leave alone. -/
def Offer.stamp (o : Offer ι P τ) : ι × P × τ :=
  (o.id, o.price, o.tag)

/-- Consume the offers of a side, front first, with a demand of `q`. The sweep ends when the
demand is met, the side is exhausted, or `ok` rejects the price at the front. -/
def sweep (ok : P → Bool) : ℕ → List (Offer ι P τ) → Sweep ι P τ
  | q, [] => ⟨[], [], q⟩
  | q, o :: L =>
      if q = 0 ∨ ok o.price = false then ⟨[], o :: L, q⟩
      else if o.qty ≤ q then
        let s := sweep ok (q - o.qty) L
        ⟨⟨o, o.qty, q - o.qty⟩ :: s.fills, s.rest, s.left⟩
      else ⟨[⟨o, q, 0⟩], { o with qty := o.qty - q } :: L, 0⟩

section Sweep

variable (ok : P → Bool)

@[simp] theorem sweep_nil (q : ℕ) : sweep ok q ([] : List (Offer ι P τ)) = ⟨[], [], q⟩ :=
  rfl

@[simp] theorem sweep_zero (L : List (Offer ι P τ)) : sweep ok 0 L = ⟨[], L, 0⟩ := by
  cases L <;> simp [sweep]

variable {ok}

theorem sweep_reject {q : ℕ} {o : Offer ι P τ} (h : ok o.price = false)
    (L : List (Offer ι P τ)) : sweep ok q (o :: L) = ⟨[], o :: L, q⟩ := by
  simp [sweep, h]

theorem sweep_close {q : ℕ} {o : Offer ι P τ} (hq : q ≠ 0) (h : ok o.price = true)
    (hle : o.qty ≤ q) (L : List (Offer ι P τ)) :
    sweep ok q (o :: L) =
      ⟨⟨o, o.qty, q - o.qty⟩ :: (sweep ok (q - o.qty) L).fills,
        (sweep ok (q - o.qty) L).rest, (sweep ok (q - o.qty) L).left⟩ := by
  simp [sweep, h, hq, hle]

theorem sweep_within {q : ℕ} {o : Offer ι P τ} (hq : q ≠ 0) (h : ok o.price = true)
    (hlt : q < o.qty) (L : List (Offer ι P τ)) :
    sweep ok q (o :: L) = ⟨[⟨o, q, 0⟩], { o with qty := o.qty - q } :: L, 0⟩ := by
  simp [sweep, h, hq, Nat.not_le.mpr hlt]

/-- **The three ways a sweep can go** at a nonempty side: it stops at once, it closes the
offer at the front and goes on, or it ends inside the offer at the front. -/
theorem sweep_cases (ok : P → Bool) (q : ℕ) (o : Offer ι P τ) (L : List (Offer ι P τ)) :
    (sweep ok q (o :: L) = ⟨[], o :: L, q⟩ ∧ (q = 0 ∨ ok o.price = false)) ∨
    (sweep ok q (o :: L) =
      ⟨⟨o, o.qty, q - o.qty⟩ :: (sweep ok (q - o.qty) L).fills,
        (sweep ok (q - o.qty) L).rest, (sweep ok (q - o.qty) L).left⟩ ∧
      q ≠ 0 ∧ ok o.price = true ∧ o.qty ≤ q) ∨
    (sweep ok q (o :: L) = ⟨[⟨o, q, 0⟩], { o with qty := o.qty - q } :: L, 0⟩ ∧
      q ≠ 0 ∧ ok o.price = true ∧ q < o.qty) := by
  by_cases hq : q = 0
  · exact Or.inl ⟨by simp [hq], Or.inl hq⟩
  cases hok : ok o.price with
  | false => exact Or.inl ⟨sweep_reject hok L, Or.inr rfl⟩
  | true =>
      by_cases hle : o.qty ≤ q
      · exact Or.inr (Or.inl ⟨sweep_close hq hok hle L, hq, rfl, hle⟩)
      · exact Or.inr (Or.inr ⟨sweep_within hq hok (Nat.not_le.mp hle) L, hq, rfl,
          Nat.not_le.mp hle⟩)

/-- **The demand is conserved**: what the fills executed and what is left make up `q`. -/
theorem sweep_total (ok : P → Bool) (q : ℕ) (L : List (Offer ι P τ)) :
    ((sweep ok q L).fills.map Fill.executed).sum + (sweep ok q L).left = q := by
  induction L generalizing q with
  | nil => simp
  | cons o L ih =>
      rcases sweep_cases ok q o L with ⟨h, -⟩ | ⟨h, -, -, hle⟩ | ⟨h, -⟩
      · simp [h]
      · have := ih (q - o.qty)
        simp only [h, List.map_cons, List.sum_cons]
        omega
      · simp [h]

/-- Every fill hits an offer of the side at an accepted price, for at most the offer's
quantity, and for a positive one when the side has positive quantities. -/
theorem mem_sweep_fills {q : ℕ} {L : List (Offer ι P τ)} {f : Fill ι P τ}
    (hf : f ∈ (sweep ok q L).fills) :
    f.offer ∈ L ∧ ok f.offer.price = true ∧ f.executed ≤ f.offer.qty ∧
      (0 < f.offer.qty → 0 < f.executed) := by
  induction L generalizing q with
  | nil => simp at hf
  | cons o L ih =>
      rcases sweep_cases ok q o L with ⟨h, -⟩ | ⟨h, -, hok, -⟩ | ⟨h, hq, hok, hlt⟩
      · simp [h] at hf
      · simp only [h, List.mem_cons] at hf
        rcases hf with rfl | hf
        · exact ⟨by simp, hok, Nat.le_refl _, fun hp => hp⟩
        · obtain ⟨hmem, hrest⟩ := ih hf
          exact ⟨List.mem_cons_of_mem o hmem, hrest⟩
      · simp only [h, List.mem_singleton] at hf
        subst hf
        exact ⟨by simp, hok, Nat.le_of_lt hlt, fun _ => Nat.pos_of_ne_zero hq⟩

/-- Up to quantities, what remains of a side is a suffix of it. -/
theorem sweep_rest_suffix (ok : P → Bool) (q : ℕ) (L : List (Offer ι P τ)) :
    (sweep ok q L).rest.map Offer.stamp <:+ L.map Offer.stamp := by
  induction L generalizing q with
  | nil => simp
  | cons o L ih =>
      rcases sweep_cases ok q o L with ⟨h, -⟩ | ⟨h, -⟩ | ⟨h, -⟩
      · simp [h]
      · simp only [h, List.map_cons]
        exact (ih (q - o.qty)).trans (List.suffix_cons _ _)
      · simp [h, Offer.stamp]

/-- A sweep executes nothing exactly when the price at the front is not accepted. -/
theorem sweep_fills_eq_nil_iff {q : ℕ} (hq : q ≠ 0) {L : List (Offer ι P τ)} :
    (sweep ok q L).fills = [] ↔ ∀ o ∈ L.head?, ok o.price = false := by
  cases L with
  | nil => simp
  | cons o L =>
      simp only [List.head?_cons, Option.mem_some_iff, forall_eq']
      rcases sweep_cases ok q o L with ⟨h, hstop⟩ | ⟨h, -, hok, -⟩ | ⟨h, -, hok, -⟩
      · rw [h]
        exact ⟨fun _ => hstop.resolve_left hq, fun _ => rfl⟩
      · rw [h, hok]
        simp
      · rw [h, hok]
        simp

/-- A sweep whose demand ends in the first offer, or whose second price is not accepted,
executes against the first offer only. -/
theorem sweep_fills_singleton {q : ℕ} (hq : q ≠ 0) {o : Offer ι P τ} (hok : ok o.price = true)
    {L : List (Offer ι P τ)} (hstop : q ≤ o.qty ∨ ∀ a ∈ L.head?, ok a.price = false) :
    (sweep ok q (o :: L)).fills = [⟨o, min q o.qty, q - o.qty⟩] := by
  by_cases hle : o.qty ≤ q
  · rw [sweep_close hq hok hle, Nat.min_eq_right hle]
    by_cases hzero : q - o.qty = 0
    · rw [hzero, sweep_zero]
    · rw [(sweep_fills_eq_nil_iff hzero).mpr (hstop.resolve_left (by omega))]
  · have hlt := Nat.not_le.mp hle
    rw [sweep_within hq hok hlt, Nat.min_eq_left (Nat.le_of_lt hlt),
      Nat.sub_eq_zero_of_le (Nat.le_of_lt hlt)]

/-- A sweep that cannot close the offer at the front removes none. -/
theorem sweep_rest_stamps {q : ℕ} {L : List (Offer ι P τ)}
    (hkeep : ∀ o ∈ L.head?, ok o.price = true → q < o.qty) :
    (sweep ok q L).rest.map Offer.stamp = L.map Offer.stamp := by
  cases L with
  | nil => rfl
  | cons o L =>
      rcases sweep_cases ok q o L with ⟨h, -⟩ | ⟨-, -, hok, hle⟩ | ⟨h, -⟩
      · rw [h]
      · exact absurd hle (Nat.not_le.mpr (hkeep o rfl hok))
      · rw [h]
        rfl

/-- A sweep that closes the offer at the front removes it. -/
theorem notMem_sweep_rest {q : ℕ} (hq : q ≠ 0) {o : Offer ι P τ} (hok : ok o.price = true)
    (hle : o.qty ≤ q) {L : List (Offer ι P τ)} (hnew : o.id ∉ L.map Offer.id) :
    o.id ∉ (sweep ok q (o :: L)).rest.map Offer.id := by
  rw [sweep_close hq hok hle]
  intro hmem
  obtain ⟨a, ha, hid⟩ := List.mem_map.mp hmem
  have hstamp := (sweep_rest_suffix ok (q - o.qty) L).subset (List.mem_map_of_mem ha)
  obtain ⟨a', ha', hst⟩ := List.mem_map.mp hstamp
  have hid' : a'.id = o.id := (congrArg Prod.fst hst).trans hid
  exact hnew (hid' ▸ List.mem_map_of_mem ha')

/-- A sweep that can trade at the front and cannot close the offer there uses up its demand;
one that cannot trade there keeps it. -/
theorem sweep_left_of_head {q : ℕ} {o : Offer ι P τ} {L : List (Offer ι P τ)}
    (hkeep : ok o.price = true → q < o.qty) :
    (sweep ok q (o :: L)).left = if ok o.price = true then 0 else q := by
  rcases sweep_cases ok q o L with ⟨h, rfl | hok⟩ | ⟨-, -, hok, hle⟩ | ⟨h, -, hok, -⟩
  · rw [h]
    exact (ite_self 0).symm
  · rw [h, hok]
    rfl
  · exact absurd hle (Nat.not_le.mpr (hkeep hok))
  · rw [h, if_pos hok]

/-- **A sweep stops for a reason**: its demand is met, the side is exhausted, or the price
at the front is not accepted. -/
theorem sweep_stop (ok : P → Bool) (q : ℕ) (L : List (Offer ι P τ)) :
    (sweep ok q L).left = 0 ∨ (sweep ok q L).rest = [] ∨
      ∃ o L', (sweep ok q L).rest = o :: L' ∧ ok o.price = false := by
  induction L generalizing q with
  | nil => exact Or.inr (Or.inl rfl)
  | cons o L ih =>
      rcases sweep_cases ok q o L with ⟨h, hq | hok⟩ | ⟨h, -⟩ | ⟨h, -⟩
      · exact Or.inl (by simp [hq])
      · exact Or.inr (Or.inr ⟨o, L, by simp [h], hok⟩)
      · simpa [h] using ih (q - o.qty)
      · exact Or.inl (by simp [h])

/-- A sweep looks at the prices of the offers only through `ok`. -/
theorem sweep_congr {ok' : P → Bool} {L : List (Offer ι P τ)}
    (h : ∀ a ∈ L, ok a.price = ok' a.price) (q : ℕ) : sweep ok q L = sweep ok' q L := by
  induction L generalizing q with
  | nil => rfl
  | cons o L ih =>
      have ih := ih fun a ha => h a (List.mem_cons_of_mem o ha)
      simp only [sweep, h o List.mem_cons_self, ih]

/-- **A sweep goes on behind accepted offers** with what they leave of its demand. -/
theorem sweep_append {A : List (Offer ι P τ)} (hA : ∀ a ∈ A, ok a.price = true) (q : ℕ)
    (B : List (Offer ι P τ)) :
    sweep ok q (A ++ B) =
      ⟨(sweep ok q A).fills ++ (sweep ok (sweep ok q A).left B).fills,
        (sweep ok q A).rest ++ (sweep ok (sweep ok q A).left B).rest,
        (sweep ok (sweep ok q A).left B).left⟩ := by
  induction A generalizing q with
  | nil => rfl
  | cons a A ih =>
      have ih := ih fun x hx => hA x (List.mem_cons_of_mem a hx)
      rcases sweep_cases ok q a A with ⟨h, rfl | hok⟩ | ⟨h, hq, hok, hle⟩ | ⟨h, hq, hok, hlt⟩
      · simp
      · rw [hA a List.mem_cons_self] at hok
        cases hok
      · rw [List.cons_append, sweep_close hq hok hle, h, ih]
        rfl
      · rw [List.cons_append, sweep_within hq hok hlt, h, sweep_zero]
        rfl

/-- A sweep does not reach offers that are not accepted. -/
theorem sweep_of_rejected {B : List (Offer ι P τ)} (hB : ∀ b ∈ B, ok b.price = false) (q : ℕ) :
    sweep ok q B = ⟨[], B, q⟩ := by
  cases B with
  | nil => rfl
  | cons b B => exact sweep_reject (hB b List.mem_cons_self) B

/-- **A sweep is a greedy fill of the accepted offers**, if these stand in front of the others. -/
theorem sweep_of_split {A B : List (Offer ι P τ)} (hA : ∀ a ∈ A, ok a.price = true)
    (hB : ∀ b ∈ B, ok b.price = false) (q : ℕ) :
    sweep ok q (A ++ B) =
      ⟨(sweep (fun _ => true) q A).fills, (sweep (fun _ => true) q A).rest ++ B,
        (sweep (fun _ => true) q A).left⟩ := by
  have hall : sweep ok q A = sweep (fun _ => true) q A := sweep_congr hA q
  rw [sweep_append hA, sweep_of_rejected hB, List.append_nil, hall]

/-- A sweep through accepted offers leaves what they do not offer. -/
theorem sweep_left_of_accepted {A : List (Offer ι P τ)} (hA : ∀ a ∈ A, ok a.price = true)
    (q : ℕ) : (sweep ok q A).left = q - (A.map Offer.qty).sum := by
  induction A generalizing q with
  | nil => rfl
  | cons a A ih =>
      have ih := ih (fun x hx => hA x (List.mem_cons_of_mem a hx)) (q - a.qty)
      rw [List.map_cons, List.sum_cons]
      rcases sweep_cases ok q a A with ⟨h, rfl | hok⟩ | ⟨h, -, -, hle⟩ | ⟨h, -, -, hlt⟩
      · rw [h]
        exact (Nat.zero_sub _).symm
      · rw [hA a List.mem_cons_self] at hok
        cases hok
      · rw [h, ih]
        omega
      · rw [h]
        exact (Nat.sub_eq_zero_of_le (by omega)).symm

/-- **When a sweep stays within limits**: an accepting sweep first meets the offers `A`, whose
prices are within the limits, and then the offers `B`, whose prices are not. It stays within the
limits exactly when there is nothing beyond them or `A` meets its demand. -/
theorem sweep_within_iff {A B : List (Offer ι P τ)} (hA : ∀ a ∈ A, ok a.price = true)
    (hB : ∀ b ∈ B, ok b.price = true) {within : P → Bool} (hin : ∀ a ∈ A, within a.price = true)
    (hout : ∀ b ∈ B, within b.price = false) (q : ℕ) :
    (∀ f ∈ (sweep ok q (A ++ B)).fills, within f.offer.price = true) ↔
      B = [] ∨ q ≤ (A.map Offer.qty).sum := by
  have hfirst : ∀ f ∈ (sweep ok q A).fills, within f.offer.price = true :=
    fun f hf => hin f.offer (mem_sweep_fills hf).1
  have hleft := sweep_left_of_accepted hA q
  rw [sweep_append hA, List.forall_mem_append, and_iff_right hfirst]
  by_cases hq : q ≤ (A.map Offer.qty).sum
  · rw [hleft, Nat.sub_eq_zero_of_le hq, sweep_zero]
    exact iff_of_true nofun (Or.inr hq)
  · have hne : (sweep ok q A).left ≠ 0 := by omega
    cases B with
    | nil => exact iff_of_true nofun (Or.inl rfl)
    | cons b B =>
        refine iff_of_false (fun hall => ?_) (by simp [hq])
        -- the demand that is left reaches the first offer of `B`
        have hreached : ∃ f ∈ (sweep ok (sweep ok q A).left (b :: B)).fills, f.offer = b := by
          rcases sweep_cases ok (sweep ok q A).left b B with
            ⟨-, hzero | hok⟩ | ⟨h, -⟩ | ⟨h, -⟩
          · exact absurd hzero hne
          · rw [hB b List.mem_cons_self] at hok
            cases hok
          · exact ⟨_, by rw [h]; exact List.mem_cons_self, rfl⟩
          · exact ⟨_, by rw [h]; exact List.mem_cons_self, rfl⟩
        obtain ⟨f, hf, rfl⟩ := hreached
        exact Bool.eq_false_iff.mp (hout f.offer List.mem_cons_self) (hall f hf)

end Sweep

/-! ### Accounts: what a sweep executes against each offer -/

section Accounts

variable [DecidableEq ι] {ok : P → Bool}

/-- The quantity executed against the offer `i` by a list of fills. -/
def executedFor (i : ι) (fs : List (Fill ι P τ)) : ℕ :=
  ((fs.filter fun f => f.offer.id = i).map Fill.executed).sum

@[simp] theorem executedFor_nil (i : ι) : executedFor i ([] : List (Fill ι P τ)) = 0 :=
  rfl

theorem executedFor_cons (i : ι) (f : Fill ι P τ) (fs : List (Fill ι P τ)) :
    executedFor i (f :: fs) = (if f.offer.id = i then f.executed else 0) + executedFor i fs := by
  by_cases h : f.offer.id = i <;> simp [executedFor, h]

/-- Nothing is executed against an identity that is not on the side. -/
theorem executedFor_sweep_of_notMem {i : ι} {q : ℕ} {L : List (Offer ι P τ)}
    (h : i ∉ L.map Offer.id) : executedFor i (sweep ok q L).fills = 0 := by
  have hf : (sweep ok q L).fills.filter (fun f => f.offer.id = i) = [] := by
    refine List.filter_eq_nil_iff.mpr fun f hf => ?_
    have hmem : f.offer.id ∈ L.map Offer.id := List.mem_map_of_mem (mem_sweep_fills hf).1
    simpa using fun heq : f.offer.id = i => h (heq ▸ hmem)
  rw [executedFor, hf]
  rfl

/-- The quantity that a side offers under the identity `i`. -/
def qtyFor (i : ι) (L : List (Offer ι P τ)) : ℕ :=
  ((L.filter fun o => o.id = i).map Offer.qty).sum

@[simp] theorem qtyFor_nil (i : ι) : qtyFor i ([] : List (Offer ι P τ)) = 0 :=
  rfl

theorem qtyFor_cons (i : ι) (o : Offer ι P τ) (L : List (Offer ι P τ)) :
    qtyFor i (o :: L) = (if o.id = i then o.qty else 0) + qtyFor i L := by
  by_cases h : o.id = i <;> simp [qtyFor, h]

theorem qtyFor_perm {L L' : List (Offer ι P τ)} (h : L.Perm L') (i : ι) :
    qtyFor i L = qtyFor i L' :=
  ((h.filter _).map _).sum_nat

theorem qtyFor_eq_zero {i : ι} {L : List (Offer ι P τ)} (h : i ∉ L.map Offer.id) :
    qtyFor i L = 0 := by
  have hf : L.filter (fun o => o.id = i) = [] := by
    refine List.filter_eq_nil_iff.mpr fun o ho => ?_
    simpa using fun heq : o.id = i => h (heq ▸ List.mem_map_of_mem ho)
  rw [qtyFor, hf]
  rfl

/-- With distinct identities, the quantity under an identity is that of its offer. -/
theorem qtyFor_of_mem {L : List (Offer ι P τ)} (hL : (L.map Offer.id).Nodup) {o : Offer ι P τ}
    (ho : o ∈ L) : qtyFor o.id L = o.qty := by
  induction L with
  | nil => cases ho
  | cons a L ih =>
      obtain ⟨ha, hnd⟩ := List.nodup_cons.mp hL
      rw [qtyFor_cons]
      rcases List.mem_cons.mp ho with rfl | ho
      · rw [if_pos rfl, qtyFor_eq_zero ha, Nat.add_zero]
      · have hne : a.id ≠ o.id := fun heq => ha (heq ▸ List.mem_map_of_mem ho)
        rw [if_neg hne, Nat.zero_add]
        exact ih hnd ho

theorem qtyFor_filter_ne (i j : ι) (L : List (Offer ι P τ)) :
    qtyFor i (L.filter fun o => o.id ≠ j) = if i = j then 0 else qtyFor i L := by
  induction L with
  | nil => simp
  | cons o L ih =>
      by_cases hoj : o.id = j
      · rw [List.filter_cons_of_neg (by simpa using hoj), ih, qtyFor_cons]
        by_cases hij : i = j
        · rw [if_pos hij, if_pos hij]
        · rw [if_neg hij, if_neg hij, if_neg fun h => hij (h.symm.trans hoj), Nat.zero_add]
      · rw [List.filter_cons_of_pos (by simpa using hoj), qtyFor_cons, qtyFor_cons, ih]
        by_cases hij : i = j
        · rw [if_pos hij, if_pos hij, if_neg fun h => hoj (h.trans hij)]
        · rw [if_neg hij, if_neg hij]

/-- **Conservation in a sweep**: under every identity, what a side offers goes down by exactly
what is executed against that identity. -/
theorem sweep_conserves (ok : P → Bool) (i : ι) (q : ℕ) (L : List (Offer ι P τ)) :
    qtyFor i (sweep ok q L).rest + executedFor i (sweep ok q L).fills = qtyFor i L := by
  induction L generalizing q with
  | nil => rfl
  | cons a L ih =>
      rcases sweep_cases ok q a L with ⟨h, -⟩ | ⟨h, -⟩ | ⟨h, -, -, hlt⟩
      · rw [h, executedFor_nil, Nat.add_zero]
      · have := ih (q - a.qty)
        rw [h, executedFor_cons, qtyFor_cons]
        simp only
        omega
      · rw [h, executedFor_cons, executedFor_nil, qtyFor_cons, qtyFor_cons]
        simp only
        split <;> omega

end Accounts

/-! ### Priority -/

section Priority

variable (r : P → P → Prop)

/-- A side in **priority order**: of two offers the earlier one has the better price, or the
same price and came `before`. -/
def InPriority (before : ι → ι → Prop) (L : List (Offer ι P τ)) : Prop :=
  L.Pairwise fun a b => r a.price b.price ∨ a.price = b.price ∧ before a.id b.id

/-- Queue an offer behind every offer at a better or equal price. -/
def enqueue [DecidableRel r] (o : Offer ι P τ) : List (Offer ι P τ) → List (Offer ι P τ)
  | [] => [o]
  | a :: L => if r o.price a.price then o :: a :: L else a :: enqueue o L

variable {r} {before : ι → ι → Prop}

theorem inPriority_iff_stamps {L : List (Offer ι P τ)} :
    InPriority r before L ↔
      (L.map Offer.stamp).Pairwise fun a b => r a.2.1 b.2.1 ∨ a.2.1 = b.2.1 ∧ before a.1 b.1 := by
  rw [List.pairwise_map]
  rfl

/-- Priority depends on stamps only, and every part of a side in priority order is in
priority order. -/
theorem InPriority.of_stamps_sublist {L L' : List (Offer ι P τ)} (h : InPriority r before L)
    (hsub : (L'.map Offer.stamp).Sublist (L.map Offer.stamp)) : InPriority r before L' :=
  inPriority_iff_stamps.mpr ((inPriority_iff_stamps.mp h).sublist hsub)

theorem InPriority.sublist {L L' : List (Offer ι P τ)} (h : InPriority r before L)
    (hsub : L'.Sublist L) : InPriority r before L' :=
  List.Pairwise.sublist hsub h

theorem InPriority.sweep {L : List (Offer ι P τ)} (h : InPriority r before L)
    (ok : P → Bool) (q : ℕ) : InPriority r before (sweep ok q L).rest :=
  h.of_stamps_sublist (sweep_rest_suffix ok q L).sublist

/-- At the head of a side in priority order stands an offer with the best price and, among
the offers at that price, the one that came before all others. -/
theorem InPriority.head_best [Std.Asymm r] {o : Offer ι P τ} {L : List (Offer ι P τ)}
    (h : InPriority r before (o :: L)) :
    ∀ a ∈ L, ¬ r a.price o.price ∧ (a.price = o.price → before o.id a.id) := by
  intro a ha
  rcases (List.pairwise_cons.mp h).1 a ha with hr | ⟨heq, hb⟩
  · exact ⟨asymm_of r hr, fun heq => absurd (heq ▸ hr) (irrefl_of r _)⟩
  · exact ⟨heq ▸ irrefl_of r _, fun _ => hb⟩

/-- **A limit splits a side**: in a side in priority order, the offers at prices within a limit
stand before those beyond it. -/
theorem InPriority.filter_append {L : List (Offer ι P τ)} (h : InPriority r before L)
    {within : P → Bool} (hlimit : ∀ x y, r x y → within y = true → within x = true) :
    (L.filter fun a => within a.price) ++ (L.filter fun a => !within a.price) = L := by
  refine filter_append_of_pairwise h fun a b hab hb => ?_
  rcases hab with hr | ⟨heq, -⟩
  · exact hlimit _ _ hr hb
  · rw [heq]
    exact hb

variable [DecidableRel r]

theorem enqueue_perm (o : Offer ι P τ) (L : List (Offer ι P τ)) :
    (enqueue r o L).Perm (o :: L) := by
  induction L with
  | nil => exact List.Perm.refl _
  | cons a L ih =>
      simp only [enqueue]
      split
      · exact List.Perm.refl _
      · exact (ih.cons a).trans (List.Perm.swap o a L)

theorem mem_enqueue {o x : Offer ι P τ} {L : List (Offer ι P τ)} :
    x ∈ enqueue r o L ↔ x = o ∨ x ∈ L := by
  rw [(enqueue_perm o L).mem_iff, List.mem_cons]

/-- Offers that are told apart from the queued one by their stamps keep their order. -/
theorem filter_stamps_enqueue {f : ι × P × τ → Bool} {o : Offer ι P τ} (ho : f o.stamp = false)
    (L : List (Offer ι P τ)) :
    ((enqueue r o L).map Offer.stamp).filter f = (L.map Offer.stamp).filter f := by
  induction L with
  | nil => simp [PriceTime.enqueue, ho]
  | cons a L ih =>
      rw [PriceTime.enqueue]
      split
      · rw [List.map_cons, List.filter_cons_of_neg (by simp [ho])]
      · rw [List.map_cons, List.map_cons, List.filter_cons, List.filter_cons, ih]

/-- Where an offer is queued: behind the part of the side that is not worse, in front of the
part that is. -/
theorem enqueue_append {o : Offer ι P τ} {A B : List (Offer ι P τ)}
    (hA : ∀ a ∈ A, ¬ r o.price a.price) (hB : ∀ b ∈ B, r o.price b.price) :
    enqueue r o (A ++ B) = A ++ o :: B := by
  induction A with
  | nil =>
      cases B with
      | nil => rfl
      | cons b B => simp [enqueue, hB b (by simp)]
  | cons a A ih =>
      have ha : ¬ r o.price a.price := hA a (by simp)
      simp only [List.cons_append, enqueue, if_neg ha]
      rw [ih fun a' ha' => hA a' (List.mem_cons_of_mem a ha')]

/-- **Queueing keeps priority** when everything already queued at the offer's price came
before it. -/
theorem InPriority.enqueue [IsStrictTotalOrder P r] {L : List (Offer ι P τ)}
    (h : InPriority r before L) {o : Offer ι P τ}
    (ho : ∀ a ∈ L, a.price = o.price → before a.id o.id) :
    InPriority r before (enqueue r o L) := by
  induction L with
  | nil => exact List.pairwise_singleton _ _
  | cons a L ih =>
      obtain ⟨ha, hL⟩ := List.pairwise_cons.mp h
      simp only [PriceTime.enqueue]
      split
      · rename_i hlt
        refine List.pairwise_cons.mpr ⟨fun b hb => Or.inl ?_, h⟩
        rcases List.mem_cons.mp hb with rfl | hb
        · exact hlt
        · rcases ha b hb with hab | ⟨heq, -⟩
          · exact trans_of r hlt hab
          · exact heq ▸ hlt
      · rename_i hge
        refine List.pairwise_cons.mpr ⟨fun b hb => ?_, ih hL fun b hb => ho b (by simp [hb])⟩
        rcases mem_enqueue.mp hb with rfl | hb
        · rcases trichotomous_of r a.price b.price with hlt | heq | hgt
          · exact Or.inl hlt
          · exact Or.inr ⟨heq, ho a (by simp) heq⟩
          · exact absurd hgt hge
        · exact ha b hb

end Priority

/-! ### Two-sided books -/

/-- The two sides of a book. -/
inductive Side
  | bid
  | ask
  deriving DecidableEq

/-- The side an offer of this side trades against. -/
def Side.contra : Side → Side
  | .bid => .ask
  | .ask => .bid

/-- The better price of a side: the higher bid, the lower ask. -/
def Side.better [LT P] : Side → P → P → Prop
  | .bid, p, q => q < p
  | .ask, p, q => p < q

instance [LT P] [DecidableLT P] (s : Side) : DecidableRel (s.better (P := P)) :=
  fun p q => match s with
    | .bid => inferInstanceAs (Decidable (q < p))
    | .ask => inferInstanceAs (Decidable (p < q))

instance [LT P] [IsStrictTotalOrder P (· < ·)] (s : Side) :
    IsStrictTotalOrder P s.better :=
  match s with
  | .bid => inferInstanceAs (IsStrictTotalOrder P (Function.swap (· < ·)))
  | .ask => inferInstanceAs (IsStrictTotalOrder P (· < ·))

/-- A book: the offers of each side, best first. -/
structure Book (ι P τ : Type*) where
  bids : List (Offer ι P τ)
  asks : List (Offer ι P τ)
  deriving DecidableEq

namespace Book

/-- The offers of one side. -/
def side (b : Book ι P τ) : Side → List (Offer ι P τ)
  | .bid => b.bids
  | .ask => b.asks

/-- Replace one side. -/
def setSide (b : Book ι P τ) : Side → List (Offer ι P τ) → Book ι P τ
  | .bid, L => { b with bids := L }
  | .ask, L => { b with asks := L }

@[simp] theorem side_setSide_self (b : Book ι P τ) (s : Side) (L : List (Offer ι P τ)) :
    (b.setSide s L).side s = L := by
  cases s <;> rfl

@[simp] theorem side_setSide_contra (b : Book ι P τ) (s : Side) (L : List (Offer ι P τ)) :
    (b.setSide s L).side s.contra = b.side s.contra := by
  cases s <;> rfl

@[simp] theorem side_contra_setSide (b : Book ι P τ) (s : Side) (L : List (Offer ι P τ)) :
    (b.setSide s.contra L).side s = b.side s := by
  cases s <;> rfl

/-- Every bid is strictly below every ask. -/
def Uncrossed [LT P] (b : Book ι P τ) : Prop :=
  ∀ x ∈ b.bids, ∀ y ∈ b.asks, x.price < y.price

/-- The identities on both sides. -/
def ids (b : Book ι P τ) : List ι :=
  b.bids.map Offer.id ++ b.asks.map Offer.id

/-- Sweep the opposite side with the quantity of `o`. -/
def execution (b : Book ι P τ) (s : Side) (ok : P → Bool) (o : Offer ι P τ) : Sweep ι P τ :=
  sweep ok o.qty (b.side s.contra)

/-- **Submit** an offer on side `s`: sweep the opposite side and, if `keeps` is set, queue
what is left of the offer on its own side. -/
def submit [LT P] [DecidableLT P] (b : Book ι P τ) (s : Side) (ok : P → Bool) (keeps : Bool)
    (o : Offer ι P τ) : Book ι P τ :=
  let w := b.execution s ok o
  let b' := b.setSide s.contra w.rest
  if keeps = true ∧ w.left ≠ 0 then
    b'.setSide s (enqueue s.better { o with qty := w.left } (b.side s))
  else b'

/-- **Withdraw** an identity from both sides. -/
def withdraw [DecidableEq ι] (b : Book ι P τ) (i : ι) : Book ι P τ :=
  ⟨b.bids.filter fun o => o.id ≠ i, b.asks.filter fun o => o.id ≠ i⟩

theorem side_withdraw [DecidableEq ι] (b : Book ι P τ) (i : ι) (s : Side) :
    (b.withdraw i).side s = (b.side s).filter fun o => o.id ≠ i := by
  cases s <;> rfl

/-- The quantity that the book holds under the identity `i`. -/
def held [DecidableEq ι] (b : Book ι P τ) (i : ι) : ℕ :=
  qtyFor i b.bids + qtyFor i b.asks

theorem held_eq [DecidableEq ι] {b : Book ι P τ} (s : Side) {i : ι} :
    b.held i = qtyFor i (b.side s) + qtyFor i (b.side s.contra) := by
  cases s with
  | bid => rfl
  | ask => exact Nat.add_comm _ _

theorem held_withdraw [DecidableEq ι] (b : Book ι P τ) (i j : ι) :
    (b.withdraw j).held i = if i = j then 0 else b.held i := by
  simp only [held, withdraw, qtyFor_filter_ne]
  split <;> rfl

theorem held_eq_zero [DecidableEq ι] {b : Book ι P τ} {i : ι} (h : i ∉ b.ids) :
    b.held i = 0 := by
  rw [ids, List.mem_append, not_or] at h
  rw [held, qtyFor_eq_zero h.1, qtyFor_eq_zero h.2]

/-- With distinct identities, the book holds under an identity what its offer has. -/
theorem held_of_mem [DecidableEq ι] {b : Book ι P τ} (h : b.ids.Nodup) {s : Side}
    {o : Offer ι P τ} (ho : o ∈ b.side s) : b.held o.id = o.qty := by
  obtain ⟨hbids, hasks, hdisj⟩ := List.nodup_append.mp h
  have hid : o.id ∈ (b.side s).map Offer.id := List.mem_map_of_mem ho
  cases s with
  | bid =>
      rw [held, qtyFor_of_mem hbids ho, qtyFor_eq_zero fun hmem => hdisj _ hid _ hmem rfl,
        Nat.add_zero]
  | ask =>
      rw [held, qtyFor_of_mem hasks ho, qtyFor_eq_zero fun hmem => hdisj _ hmem _ hid rfl,
        Nat.zero_add]

theorem mem_ids {b : Book ι P τ} {i : ι} : i ∈ b.ids ↔ ∃ s, ∃ o ∈ b.side s, o.id = i := by
  rw [ids, List.mem_append, List.mem_map, List.mem_map]
  constructor
  · rintro (h | h)
    · exact ⟨.bid, h⟩
    · exact ⟨.ask, h⟩
  · rintro ⟨s, h⟩
    cases s with
    | bid => exact Or.inl h
    | ask => exact Or.inr h

theorem mem_ids_withdraw [DecidableEq ι] {b : Book ι P τ} {i j : ι} :
    j ∈ (b.withdraw i).ids ↔ j ∈ b.ids ∧ j ≠ i := by
  simp only [mem_ids, side_withdraw, List.mem_filter, decide_eq_true_iff]
  constructor
  · rintro ⟨s, o, ⟨ho, hne⟩, rfl⟩
    exact ⟨⟨s, o, ho, rfl⟩, hne⟩
  · rintro ⟨⟨s, o, ho, rfl⟩, hne⟩
    exact ⟨s, o, ⟨ho, hne⟩, rfl⟩

/-- Withdrawing an identity that is not in the book changes nothing. -/
theorem withdraw_eq_self [DecidableEq ι] {b : Book ι P τ} {i : ι} (h : i ∉ b.ids) :
    b.withdraw i = b := by
  have hkeep : ∀ L : List (Offer ι P τ), L.map Offer.id ⊆ b.ids →
      L.filter (fun o => o.id ≠ i) = L := by
    intro L hL
    refine List.filter_eq_self.mpr fun o ho => ?_
    have hne : o.id ≠ i := fun heq => h (heq ▸ hL (List.mem_map_of_mem ho))
    simpa using hne
  rw [withdraw, hkeep b.bids (List.subset_append_left _ _),
    hkeep b.asks (List.subset_append_right _ _)]

/-- Both sides in priority order. -/
def Ordered [LT P] (before : ι → ι → Prop) (b : Book ι P τ) : Prop :=
  ∀ s : Side, InPriority s.better before (b.side s)

/-- Priority order depends on `before` only between the identities of the book. -/
theorem Ordered.imp [LT P] {before before' : ι → ι → Prop} {b : Book ι P τ}
    (h : b.Ordered before)
    (himp : ∀ i ∈ b.ids, ∀ j ∈ b.ids, before i j → before' i j) : b.Ordered before' := by
  intro s
  refine List.Pairwise.imp_of_mem (fun {x y} hx hy hxy => ?_) (h s)
  rcases hxy with hr | ⟨heq, hb⟩
  · exact Or.inl hr
  · exact Or.inr ⟨heq, himp _ (mem_ids.mpr ⟨s, x, hx, rfl⟩) _ (mem_ids.mpr ⟨s, y, hy, rfl⟩) hb⟩

section Submit

variable [LT P] [DecidableLT P] {s : Side} {ok : P → Bool} {keeps : Bool}

theorem side_contra_submit (b : Book ι P τ) (o : Offer ι P τ) :
    (b.submit s ok keeps o).side s.contra = (b.execution s ok o).rest := by
  simp only [submit]
  split <;> cases s <;> rfl

theorem side_submit (b : Book ι P τ) (o : Offer ι P τ) :
    (b.submit s ok keeps o).side s =
      if keeps = true ∧ (b.execution s ok o).left ≠ 0 then
        enqueue s.better { o with qty := (b.execution s ok o).left } (b.side s)
      else b.side s := by
  simp only [submit]
  split <;> cases s <;> rfl

omit [LT P] [DecidableLT P] in
/-- What a sweep leaves of the opposite side was there before, up to quantities. -/
theorem exists_stamp_of_mem_rest {b : Book ι P τ} {o : Offer ι P τ} {a : Offer ι P τ}
    (ha : a ∈ (b.execution s ok o).rest) : ∃ a' ∈ b.side s.contra, a'.stamp = a.stamp := by
  have hmem := (sweep_rest_suffix ok o.qty (b.side s.contra)).subset (List.mem_map_of_mem ha)
  exact List.mem_map.mp hmem

/-- Submitting an offer adds no identity but its own. -/
theorem mem_ids_submit {b : Book ι P τ} {o : Offer ι P τ} {i : ι}
    (h : i ∈ (b.submit s ok keeps o).ids) : i = o.id ∨ i ∈ b.ids := by
  obtain ⟨t, a, ha, rfl⟩ := mem_ids.mp h
  have hown : a ∈ (b.submit s ok keeps o).side s → a.id = o.id ∨ a.id ∈ b.ids := by
    intro ha
    rw [side_submit] at ha
    split at ha
    · rcases mem_enqueue.mp ha with rfl | ha
      · exact Or.inl rfl
      · exact Or.inr (mem_ids.mpr ⟨s, a, ha, rfl⟩)
    · exact Or.inr (mem_ids.mpr ⟨s, a, ha, rfl⟩)
  have hcontra : a ∈ (b.submit s ok keeps o).side s.contra → a.id = o.id ∨ a.id ∈ b.ids := by
    intro ha
    rw [side_contra_submit] at ha
    obtain ⟨a', ha', hst⟩ := exists_stamp_of_mem_rest ha
    exact Or.inr (mem_ids.mpr ⟨s.contra, a', ha', congrArg Prod.fst hst⟩)
  cases s <;> cases t
  exacts [hown ha, hcontra ha, hcontra ha, hown ha]

/-- Every offer in the book after a submission is the unmet rest of the submitted one, on its
own side, or it has the stamp of an offer that was there before. -/
theorem mem_side_submit {b : Book ι P τ} {o : Offer ι P τ} {t : Side} {a : Offer ι P τ}
    (ha : a ∈ (b.submit s ok keeps o).side t) :
    (t = s ∧ keeps = true ∧ a = { o with qty := (b.execution s ok o).left }) ∨
    ∃ a' ∈ b.side t, a'.stamp = a.stamp := by
  by_cases hts : t = s
  · subst hts
    rw [side_submit] at ha
    split at ha
    · rename_i hkeep
      rcases mem_enqueue.mp ha with rfl | ha
      · exact Or.inl ⟨rfl, hkeep.1, rfl⟩
      · exact Or.inr ⟨a, ha, rfl⟩
    · exact Or.inr ⟨a, ha, rfl⟩
  · obtain rfl : t = s.contra := by
      cases s <;> cases t
      exacts [absurd rfl hts, rfl, rfl, absurd rfl hts]
    rw [side_contra_submit] at ha
    exact Or.inr (exists_stamp_of_mem_rest ha)

omit [LT P] [DecidableLT P] in
theorem mem_ids_iff {b : Book ι P τ} (s : Side) {i : ι} :
    i ∈ b.ids ↔ i ∈ (b.side s).map Offer.id ∨ i ∈ (b.side s.contra).map Offer.id := by
  rw [ids, List.mem_append]
  cases s with
  | bid => exact Iff.rfl
  | ask => exact or_comm

omit [LT P] [DecidableLT P] in
/-- The identities of a book are all different if those of each side are and no identity is on
both. -/
theorem nodup_ids_iff {b : Book ι P τ} (s : Side) :
    b.ids.Nodup ↔ ((b.side s).map Offer.id).Nodup ∧ ((b.side s.contra).map Offer.id).Nodup ∧
      ∀ {i}, i ∈ (b.side s).map Offer.id → i ∉ (b.side s.contra).map Offer.id := by
  rw [ids, List.nodup_append', List.disjoint_left]
  cases s with
  | bid => exact Iff.rfl
  | ask =>
      rw [and_left_comm]
      exact and_congr_right fun _ => and_congr_right fun _ => forall_congr' fun _ => imp_not_comm

/-- Of the other identities, a submission leaves those on its own side and those that the
sweep leaves. -/
theorem mem_ids_submit_of_ne {b : Book ι P τ} {o : Offer ι P τ} {i : ι} (hne : i ≠ o.id) :
    i ∈ (b.submit s ok keeps o).ids ↔
      i ∈ (b.side s).map Offer.id ∨ i ∈ (b.execution s ok o).rest.map Offer.id := by
  rw [mem_ids_iff s, side_contra_submit, side_submit]
  split
  · rw [((enqueue_perm _ _).map Offer.id).mem_iff, List.map_cons, List.mem_cons]
    exact or_congr_left (or_iff_right hne)
  · rfl

/-- **A submission keeps the order of the other offers**: those that stay, told apart from the
submitted one by their stamps, are a sublist of those that there were. -/
theorem filter_stamps_submit {b : Book ι P τ} {o : Offer ι P τ} {f : ι × P × τ → Bool}
    (ho : f o.stamp = false) (t : Side) :
    ((((b.submit s ok keeps o).side t).map Offer.stamp).filter f).Sublist
      (((b.side t).map Offer.stamp).filter f) := by
  by_cases hts : t = s
  · subst hts
    rw [side_submit]
    split
    · rw [filter_stamps_enqueue (r := t.better)
        (o := { o with qty := (b.execution t ok o).left }) ho]
    · exact List.Sublist.refl _
  · obtain rfl : t = s.contra := by
      cases s <;> cases t
      exacts [absurd rfl hts, rfl, rfl, absurd rfl hts]
    rw [side_contra_submit]
    exact (sweep_rest_suffix ok o.qty (b.side s.contra)).sublist.filter f

/-- A new identity is in the book after its submission exactly when a rest of it is kept. -/
theorem mem_ids_submit_own {b : Book ι P τ} {o : Offer ι P τ} (hnew : o.id ∉ b.ids) :
    o.id ∈ (b.submit s ok keeps o).ids ↔ keeps = true ∧ (b.execution s ok o).left ≠ 0 := by
  constructor
  · intro hmem
    obtain ⟨t, a, ha, hid⟩ := mem_ids.mp hmem
    rcases mem_side_submit ha with ⟨rfl, hkeep, -⟩ | ⟨a', ha', hst⟩
    · refine ⟨hkeep, fun hzero => hnew ?_⟩
      rw [side_submit, if_neg fun h => h.2 hzero] at ha
      exact mem_ids.mpr ⟨t, a, ha, hid⟩
    · have hid' : a'.id = o.id := (congrArg Prod.fst hst).trans hid
      exact absurd (mem_ids.mpr ⟨t, a', ha', hid'⟩) hnew
  · intro hkeep
    refine mem_ids.mpr ⟨s, { o with qty := (b.execution s ok o).left }, ?_, rfl⟩
    rw [side_submit, if_pos hkeep]
    exact mem_enqueue.mpr (Or.inl rfl)

/-- **Conservation in a submission**: under every identity, the book loses what is executed
against it and gains what is kept of the submitted offer. -/
theorem submit_conserves [DecidableEq ι] (b : Book ι P τ) (o : Offer ι P τ) (i : ι) :
    (b.submit s ok keeps o).held i + executedFor i (b.execution s ok o).fills =
      b.held i +
        if o.id = i ∧ keeps = true then (b.execution s ok o).left else 0 := by
  have hown : qtyFor i ((b.submit s ok keeps o).side s) = qtyFor i (b.side s) +
      if o.id = i ∧ keeps = true then (b.execution s ok o).left else 0 := by
    rw [side_submit]
    split
    · rename_i hkeep
      rw [qtyFor_perm (enqueue_perm _ _), qtyFor_cons, Nat.add_comm]
      simp only [hkeep.1, and_true]
    · rename_i hkeep
      split
      · rename_i hid
        have : (b.execution s ok o).left = 0 := by
          by_contra hne
          exact hkeep ⟨hid.2, hne⟩
        rw [this, Nat.add_zero]
      · rfl
  have hcontra : qtyFor i ((b.submit s ok keeps o).side s.contra) +
      executedFor i (b.execution s ok o).fills = qtyFor i (b.side s.contra) := by
    rw [side_contra_submit]
    exact sweep_conserves ok i o.qty (b.side s.contra)
  rw [held_eq s, held_eq s]
  omega

variable [IsStrictTotalOrder P (· < ·)] {before : ι → ι → Prop}

/-- **Submitting keeps priority**, given that the new offer came last at its price. -/
theorem Ordered.submit {b : Book ι P τ} (h : b.Ordered before) {o : Offer ι P τ}
    (ho : ∀ a ∈ b.side s, a.price = o.price → before a.id o.id) :
    (b.submit s ok keeps o).Ordered before := by
  have hown : InPriority s.better before ((b.submit s ok keeps o).side s) := by
    rw [side_submit]
    split
    · exact (h s).enqueue ho
    · exact h s
  have hcontra : InPriority s.contra.better before ((b.submit s ok keeps o).side s.contra) := by
    rw [side_contra_submit]
    exact (h s.contra).sweep ok o.qty
  intro t
  cases s <;> cases t
  exacts [hown, hcontra, hcontra, hown]

omit [DecidableLT P] in
/-- What remains on the opposite side when part of the offer is left over is worse than the
offer's limit. -/
theorem better_of_mem_rest {b : Book ι P τ} (h : b.Ordered before) {o : Offer ι P τ}
    (hok : ∀ p, ok p = false → s.contra.better o.price p)
    (hleft : (b.execution s ok o).left ≠ 0) :
    ∀ a ∈ (b.execution s ok o).rest, s.contra.better o.price a.price := by
  rcases sweep_stop ok o.qty (b.side s.contra) with h0 | hnil | ⟨a, L, hL, hrej⟩
  · exact absurd h0 hleft
  · intro a ha
    rw [execution, hnil] at ha
    cases ha
  · have hord : InPriority s.contra.better before (a :: L) := hL ▸ (h s.contra).sweep ok o.qty
    intro x hx
    rw [execution, hL] at hx
    rcases List.mem_cons.mp hx with rfl | hx
    · exact hok _ hrej
    · rcases (List.pairwise_cons.mp hord).1 x hx with hr | ⟨heq, -⟩
      · exact trans_of s.contra.better (hok _ hrej) hr
      · exact heq ▸ hok _ hrej

/-- **No crossing.** If the sweep of a kept offer stops only at prices beyond its limit, an
uncrossed book stays uncrossed. -/
theorem submit_uncrossed {b : Book ι P τ} (h : b.Ordered before) (hunc : b.Uncrossed)
    {o : Offer ι P τ} (hok : keeps = true → ∀ p, ok p = false → s.contra.better o.price p) :
    (b.submit s ok keeps o).Uncrossed := by
  have hrest : ∀ a ∈ (b.execution s ok o).rest, ∃ a' ∈ b.side s.contra, a.price = a'.price := by
    intro a ha
    obtain ⟨a', ha', hst⟩ := exists_stamp_of_mem_rest ha
    exact ⟨a', ha', congrArg (fun x => x.2.1) hst.symm⟩
  have hown : ∀ x ∈ (b.submit s ok keeps o).side s,
      x ∈ b.side s ∨ x.price = o.price ∧
        ∀ a ∈ (b.execution s ok o).rest, s.contra.better o.price a.price := by
    intro x hx
    rw [side_submit] at hx
    split at hx
    · rename_i hk
      rcases mem_enqueue.mp hx with rfl | hx
      · exact Or.inr ⟨rfl, better_of_mem_rest h (hok hk.1) hk.2⟩
      · exact Or.inl hx
    · exact Or.inl hx
  have hcontra : (b.submit s ok keeps o).side s.contra = (b.execution s ok o).rest :=
    side_contra_submit b o
  intro x hx y hy
  cases s with
  | bid =>
      have hy' : y ∈ (b.execution .bid ok o).rest := hcontra ▸ hy
      rcases hown x hx with hx | ⟨hpx, hall⟩
      · obtain ⟨a, ha, hpa⟩ := hrest y hy'
        exact hpa ▸ hunc x hx a ha
      · exact hpx ▸ hall y hy'
  | ask =>
      have hx' : x ∈ (b.execution .ask ok o).rest := hcontra ▸ hx
      rcases hown y hy with hy | ⟨hpy, hall⟩
      · obtain ⟨a, ha, hpa⟩ := hrest x hx'
        exact hpa ▸ hunc a ha y hy
      · exact hpy ▸ hall x hx'

end Submit

section Withdraw

variable [LT P] [DecidableEq ι] {before : ι → ι → Prop}

theorem Ordered.withdraw {b : Book ι P τ} (h : b.Ordered before) (i : ι) :
    (b.withdraw i).Ordered before := by
  intro s
  rw [side_withdraw]
  exact (h s).sublist List.filter_sublist

omit [LT P] in
/-- A withdrawal keeps the order of the other offers. -/
theorem filter_stamps_withdraw {b : Book ι P τ} {i : ι} (f : ι × P × τ → Bool) (t : Side) :
    ((((b.withdraw i).side t).map Offer.stamp).filter f).Sublist
      (((b.side t).map Offer.stamp).filter f) := by
  rw [side_withdraw]
  exact (List.filter_sublist.map Offer.stamp).filter f

theorem Uncrossed.withdraw {b : Book ι P τ} (h : b.Uncrossed) (i : ι) :
    (b.withdraw i).Uncrossed :=
  fun x hx y hy => h x (List.mem_of_mem_filter hx) y (List.mem_of_mem_filter hy)

end Withdraw

end Book

end PriceTime
