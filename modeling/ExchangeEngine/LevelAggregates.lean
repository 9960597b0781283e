import ExchangeEngine.Lib.Depth
import ExchangeEngine.Ledger
import ExchangeEngine.Sides

/-!
# Level Aggregates

`price_to_leveldata_` keeps the total quantity and the number of orders of each price. The map knows
no sides, and it is updated order by order: `updateLevelOnAdd` when an order is booked,
`updateLevelOnFill` when an order is executed against, cancelled or modified.
-/

open PriceTime

namespace ExchangeEngine

/-! ### The two updates -/

/-- The number of orders goes down by one with an order that is closed. -/
theorem LevelData.numberOfOrders_fill (data : LevelData) (quantity : Quantity)
    (orderClosed : Bool) :
    (data.fill quantity orderClosed).numberOfOrders.toNat =
      data.numberOfOrders.toNat - if orderClosed = true then 1 else 0 := by
  have hkeep : (if data.totalQuantity ≤ quantity then { data with totalQuantity := 0 }
      else { data with totalQuantity := data.totalQuantity - quantity }).numberOfOrders =
      data.numberOfOrders := by
    split <;> rfl
  cases orderClosed with
  | false => simp [LevelData.fill, hkeep]
  | true =>
      simp only [LevelData.fill, hkeep, Bool.true_and, decide_eq_true_eq, if_true]
      split
      · rename_i hpos
        rw [UInt64.toNat_sub_of_le]
        · rfl
        · exact UInt64.le_iff_toNat_le.mpr (UInt64.lt_iff_toNat_lt.mp hpos)
      · rename_i hzero
        rw [hkeep]
        have : ¬ 0 < data.numberOfOrders.toNat := fun h => hzero (UInt64.lt_iff_toNat_lt.mpr h)
        omega

/-- **The aggregates of some offers**: the map has an entry for exactly the prices at which there is
an offer, with the total quantity and the number of the offers there. -/
structure Aggregates (L : List BookOffer) (levels : UnorderedMap Price LevelData) : Prop where
  positive : ∀ a ∈ L, 0 < a.qty
  entry : ∀ price, levels.lookup price = none ↔ countAt price L = 0
  exact : ∀ price data, levels.lookup price = some data →
    data.totalQuantity.toNat = depthAt price L ∧ data.numberOfOrders.toNat = countAt price L

namespace Aggregates

variable {L L' : List BookOffer} {levels : UnorderedMap Price LevelData} {a : BookOffer}
  {q : Quantity}

theorem perm (h : Aggregates L levels) (hperm : L.Perm L') : Aggregates L' levels := by
  refine ⟨fun a ha => h.positive a (hperm.mem_iff.mpr ha), fun price => ?_,
    fun price data hdata => ?_⟩
  · rw [h.entry, countAt_perm hperm]
  · rw [← depthAt_perm hperm, ← countAt_perm hperm]
    exact h.exact price data hdata

theorem nil : Aggregates [] ∅ :=
  ⟨fun _ ha => absurd ha List.not_mem_nil, fun _ => iff_of_true (Finmap.lookup_empty _) rfl,
    fun _ _ hdata => by simp at hdata⟩

/-- Where something is on offer, the map has an entry. -/
theorem exists_data (h : Aggregates L levels) {price : Price} (hdepth : depthAt price L ≠ 0) :
    ∃ data, levels.lookup price = some data ∧
      data.totalQuantity.toNat = depthAt price L ∧ data.numberOfOrders.toNat = countAt price L := by
  cases hdata : levels.lookup price with
  | none => exact absurd (depthAt_eq_zero_of_countAt ((h.entry price).mp hdata)) hdepth
  | some data => exact ⟨data, rfl, h.exact price data hdata⟩

/-- **`updateLevelOnFill`** keeps the aggregates, when the quantity leaves the offers at its price
and, with `orderClosed`, one of these offers with it. -/
theorem fill (h : Aggregates L levels) {price : Price} {orderClosed : Bool} (hq : q ≠ 0)
    (hpos : ∀ a ∈ L', 0 < a.qty)
    (hdepth : ∀ k, depthAt k L = (if price = k then q.toNat else 0) + depthAt k L')
    (hcount : ∀ k, countAt k L =
      (if price = k ∧ orderClosed = true then 1 else 0) + countAt k L') :
    Aggregates L' (updateLevelOnFill levels price q orderClosed) := by
  have hqpos := Quantity.toNat_pos_iff.mpr hq
  have hprice := hdepth price
  have hprice' := hcount price
  rw [if_pos rfl] at hprice
  simp only [true_and] at hprice'
  obtain ⟨data, hdata, htotal, hnumber⟩ := h.exists_data (by omega : depthAt price L ≠ 0)
  have htotal' := LevelData.toNat_fill data q orderClosed
  have hnumber' := LevelData.numberOfOrders_fill data q orderClosed
  rw [htotal, hprice, Nat.add_sub_cancel_left] at htotal'
  rw [hnumber, hprice', Nat.add_sub_cancel_left] at hnumber'
  have hgone : ((data.fill q orderClosed).totalQuantity = 0 ∨
      (data.fill q orderClosed).numberOfOrders = 0) ↔ countAt price L' = 0 := by
    rw [← UInt32.toNat_inj, ← UInt64.toNat_inj, htotal', hnumber', UInt32.toNat_zero,
      UInt64.toNat_zero, depthAt_eq_zero_iff hpos, or_self]
  have hlookup : ∀ k, (updateLevelOnFill levels price q orderClosed).lookup k =
      if k = price then
        if countAt price L' = 0 then none else some (data.fill q orderClosed)
      else levels.lookup k := by
    intro k
    simp only [updateLevelOnFill, if_neg hq, hdata, hgone]
    split
    · exact UnorderedMap.lookup_erase_ite levels price k
    · exact UnorderedMap.lookup_insert_ite levels price k _
  refine ⟨hpos, fun k => ?_, fun k data' hdata' => ?_⟩
  · rw [hlookup]
    by_cases hk : k = price
    · rw [hk, if_pos rfl]
      split <;> simp [*]
    · have hcount := hcount k
      rw [if_neg fun heq => hk heq.1.symm, Nat.zero_add] at hcount
      rw [if_neg hk, h.entry, hcount]
  · rw [hlookup] at hdata'
    by_cases hk : k = price
    · rw [hk, if_pos rfl] at hdata'
      split at hdata'
      · cases hdata'
      · obtain rfl := Option.some.inj hdata'
        rw [hk]
        exact ⟨htotal', hnumber'⟩
    · have hdepth := hdepth k
      have hcount := hcount k
      rw [if_neg fun heq => hk heq.symm, Nat.zero_add] at hdepth
      rw [if_neg fun heq => hk heq.1.symm, Nat.zero_add] at hcount
      rw [if_neg hk] at hdata'
      rw [← hdepth, ← hcount]
      exact h.exact k data' hdata'

/-- **`updateLevelOnAdd`** takes an offer in, if the total at its price fits in 32 bits. -/
theorem add (h : Aggregates L levels) (hqty : a.qty = q.toNat) (hq : q ≠ 0)
    (hfits : depthAt a.price (a :: L) < 2 ^ 32) :
    Aggregates (a :: L) (updateLevelOnAdd levels a.price q) := by
  have hqpos := Quantity.toNat_pos_iff.mpr hq
  have hpos : ∀ x ∈ a :: L, 0 < x.qty := by
    intro x hx
    rcases List.mem_cons.mp hx with rfl | hx
    · rw [hqty]
      exact hqpos
    · exact h.positive x hx
  have hcount := countAt_le_depthAt hpos a.price
  have hold : ((levels.lookup a.price).getD {}).totalQuantity.toNat = depthAt a.price L ∧
      ((levels.lookup a.price).getD {}).numberOfOrders.toNat = countAt a.price L := by
    cases hdata : levels.lookup a.price with
    | none =>
        have hzero := (h.entry a.price).mp hdata
        rw [depthAt_eq_zero_of_countAt hzero, hzero]
        exact ⟨rfl, rfl⟩
    | some data => exact h.exact a.price data hdata
  have hdepth_self := depthAt_cons a.price a L
  have hcount_self := countAt_cons a.price a L
  rw [if_pos rfl] at hdepth_self hcount_self
  refine ⟨hpos, fun k => ?_, fun k data hdata => ?_⟩
  · rw [updateLevelOnAdd, if_neg hq, UnorderedMap.lookup_insert_ite, countAt_cons]
    by_cases hk : k = a.price
    · simp [hk]
    · rw [if_neg hk, if_neg fun heq => hk heq.symm, Nat.zero_add, h.entry]
  · rw [updateLevelOnAdd, if_neg hq, UnorderedMap.lookup_insert_ite] at hdata
    by_cases hk : k = a.price
    · rw [if_pos hk] at hdata
      obtain rfl := Option.some.inj hdata
      rw [hk]
      constructor
      · rw [UInt32.toNat_add, hold.1, hdepth_self, hqty]
        omega
      · rw [UInt64.toNat_add, hold.2, hcount_self]
        simp only [UInt64.toNat_one]
        omega
    · rw [if_neg hk] at hdata
      rw [depthAt_cons, countAt_cons, if_neg fun heq => hk heq.symm,
        if_neg fun heq => hk heq.symm, Nat.zero_add, Nat.zero_add]
      exact h.exact k data hdata

/-- Closing an order takes its offer out. -/
theorem close (h : Aggregates (a :: L) levels) (hqty : a.qty = q.toNat) (hq : q ≠ 0) :
    Aggregates L (updateLevelOnFill levels a.price q true) := by
  refine h.fill hq (fun x hx => h.positive x (List.mem_cons_of_mem a hx)) (fun k => ?_)
    fun k => ?_
  · rw [depthAt_cons, hqty]
  · simp only [countAt_cons, and_true]

/-- An execution within an order takes its quantity out. -/
theorem within (h : Aggregates (a :: L) levels) (hq : q ≠ 0) (hlt : q.toNat < a.qty) :
    Aggregates ({ a with qty := a.qty - q.toNat } :: L)
      (updateLevelOnFill levels a.price q false) := by
  refine h.fill hq (fun x hx => ?_) (fun k => ?_) fun k => ?_
  · rcases List.mem_cons.mp hx with rfl | hx
    · exact Nat.sub_pos_of_lt hlt
    · exact h.positive x (List.mem_cons_of_mem a hx)
  · simp only [depthAt_cons]
    split <;> omega
  · simp [countAt_cons]

end Aggregates

/-! ### The calls of `updateLevelOnFill` -/

/-- A call of `updateLevelOnFill`: the map it is made on, and its arguments. -/
structure LevelFill where
  levels : UnorderedMap Price LevelData
  price : Price
  quantity : Quantity
  orderClosed : Bool

namespace LevelFill

/-- The map after the call. -/
def result (f : LevelFill) : UnorderedMap Price LevelData :=
  updateLevelOnFill f.levels f.price f.quantity f.orderClosed

/-- **The call finds what it takes out**: with a positive quantity, there is an entry for the price,
and its total is not below the quantity. -/
def Sound (f : LevelFill) : Prop :=
  0 < f.quantity → ∃ data, f.levels.lookup f.price = some data ∧ f.quantity ≤ data.totalQuantity

end LevelFill

/-- A call for no more than one of the offers is sound. -/
theorem Aggregates.sound {L : List BookOffer} {levels : UnorderedMap Price LevelData}
    {a : BookOffer} {q : Quantity} (h : Aggregates (a :: L) levels) (hle : q.toNat ≤ a.qty)
    (orderClosed : Bool) : LevelFill.Sound ⟨levels, a.price, q, orderClosed⟩ := by
  intro hq
  have hpos : 0 < q.toNat := Quantity.toNat_pos_iff.mpr (Quantity.pos_iff.mp hq)
  have hdepth := depthAt_cons a.price a L
  rw [if_pos rfl] at hdepth
  have hne : depthAt a.price (a :: L) ≠ 0 := by omega
  obtain ⟨data, hdata, htotal, -⟩ := h.exists_data hne
  have hle' : q.toNat ≤ data.totalQuantity.toNat := by omega
  exact ⟨data, hdata, UInt32.le_iff_toNat_le.mpr hle'⟩

section Loops

variable {r : Price → Price → Prop} [DecidableRel r] [IsStrictTotalOrder Price r]
  {order : OrderPointer} {o : Order} {side : BuySell} {beyond : Levels} {own : OrderPointers}
  {s s' : MatchState r} {L : List BookOffer}

/-- The call that the turn taken from a state makes, if it makes one. -/
def MatchState.levelFill? (s : MatchState r) : Option LevelFill :=
  match s.cursor with
  | .levels => none
  | .orders restingPrice i =>
      match (s.levelOrders restingPrice)[i]? with
      | none => none
      | some restingOrder =>
          if s.remaining = 0 then none
          else
            some ⟨s.priceToLeveldata, restingPrice, s.executed restingOrder,
              (s.reduced restingOrder).isFilled⟩

/-- The calls that `matchAgainst` makes, in order. -/
def matchLevelFills (order : OrderPointer) (side : BuySell) (s : MatchState r) : List LevelFill :=
  (WhileLoop.visited (matchTurn order side) (matchBudget s) s).flatMap fun t =>
    t.levelFill?.toList

omit [DecidableRel r] [IsStrictTotalOrder Price r] in
/-- The end of a level makes no call. -/
theorem levelFill_of_end {k : Price} {i : ℕ} (hcur : s.cursor = .orders k i)
    (hend : (s.levelOrders k)[i]? = none ∨ s.remaining = 0) : s.levelFill? = none := by
  simp only [MatchState.levelFill?, hcur]
  rcases hend with hp | hrem
  · rw [hp]
  · split
    · rfl
    · rw [if_pos hrem]

omit [DecidableRel r] [IsStrictTotalOrder Price r] in
/-- An execution makes one call. -/
theorem levelFill_of_fill {k : Price} {i : ℕ} {p : OrderPointer} (hcur : s.cursor = .orders k i)
    (hp : (s.levelOrders k)[i]? = some p) (hrem : s.remaining ≠ 0) :
    s.levelFill? = some ⟨s.priceToLeveldata, k, s.executed p, (s.reduced p).isFilled⟩ := by
  simp only [MatchState.levelFill?, hcur, hp, if_neg hrem]

theorem priceToLeveldata_fill (k : Price) (i : ℕ) (p : OrderPointer) :
    (s.fill order side k i p).priceToLeveldata =
      updateLevelOnFill s.priceToLeveldata k (s.executed p) (s.reduced p).isFilled := by
  cases hfill : (s.reduced p).isFilled with
  | true => rw [fill_of_filled hfill]
  | false => rw [fill_of_not_filled hfill]

/-- **A turn changes the aggregates by its call**, and by nothing else. -/
theorem priceToLeveldata_matchTurn (h : matchTurn order side s = some s') :
    s'.priceToLeveldata = s.levelFill?.elim s.priceToLeveldata LevelFill.result := by
  rcases matchTurn_cases h with ⟨hcur, -, k, -, -, -, -, rfl⟩ | ⟨k, i, hcur, hend, rfl⟩ |
    ⟨k, i, p, hcur, hp, hrem, rfl⟩
  · simp [MatchState.levelFill?, hcur]
  · rw [levelFill_of_end hcur hend, MatchState.leaveLevel]
    split <;> rfl
  · rw [levelFill_of_fill hcur hp hrem, priceToLeveldata_fill]
    rfl

/-- **A turn keeps the aggregates**, and its call is sound. -/
theorem LoopInv.aggregates_turn (hinv : LoopInv order o side beyond own s)
    (h : Aggregates (levelOffers s.heap s.contraBook.entries ++ L) s.priceToLeveldata)
    (hturn : matchTurn order side s = some s') :
    Aggregates (levelOffers s'.heap s'.contraBook.entries ++ L) s'.priceToLeveldata ∧
      ∀ f ∈ s.levelFill?, f.Sound := by
  have hlevels := priceToLeveldata_matchTurn hturn
  rcases matchTurn_cases hturn with ⟨hcur, -, k, -, -, -, -, rfl⟩ | ⟨k, i, hcur, hend, rfl⟩ |
    ⟨k, i, p, hcur, hp, hrem, rfl⟩
  · exact ⟨h, by simp [MatchState.levelFill?, hcur]⟩
  · have hnone := levelFill_of_end hcur hend
    rw [hnone] at hlevels ⊢
    rw [hinv.offers_leaveLevel hcur, hlevels]
    exact ⟨h, nofun⟩
  · obtain ⟨rfl, ps, es, hent, hes, hk⟩ := hinv.cursor.head_of_fill hcur hp hrem
    have hcall := levelFill_of_fill hcur hp hrem
    have hle := (executed_le s p).2
    rw [levelOffers_head hent, List.cons_append] at h
    have hzero : s.executed p ≠ 0 :=
      executed_ne_zero hrem (Quantity.toNat_pos_iff.mp (h.positive _ List.mem_cons_self))
    have hsound := h.sound (a := (s.heap.read p).offerAt k) hle (s.reduced p).isFilled
    rw [hcall] at hlevels ⊢
    refine ⟨?_, fun f hf => Option.some.inj hf ▸ hsound⟩
    rw [hlevels]
    cases hfill : (s.reduced p).isFilled with
    | true =>
        rw [hinv.offers_closed hent hk hfill]
        have hexec := executed_of_le ((reduced_isFilled s p).mp hfill)
        exact h.close (congrArg UInt32.toNat hexec.symm) hzero
    | false =>
        rw [hinv.offers_open hent hk hfill]
        refine h.within hzero ?_
        have hopen := (reduced_isFilled s p).not.mp (by simp [hfill])
        have hmin : (s.executed p).toNat = s.remaining.toNat :=
          congrArg UInt32.toNat (executed_of_lt (Nat.not_le.mp hopen))
        exact hmin ▸ Nat.not_le.mp hopen

/-- **The loops keep the aggregates**, and all their calls are sound. -/
theorem LoopInv.aggregates_matchAgainst (hinv : LoopInv order o side beyond own s)
    (h : Aggregates (levelOffers s.heap s.contraBook.entries ++ L) s.priceToLeveldata) :
    Aggregates (levelOffers (matchAgainst order side s).heap
        (matchAgainst order side s).contraBook.entries ++ L)
      (matchAgainst order side s).priceToLeveldata ∧
      ∀ f ∈ matchLevelFills order side s, f.Sound := by
  have hturn : ∀ t t' : MatchState r, LoopInv order o side beyond own t ∧
      Aggregates (levelOffers t.heap t.contraBook.entries ++ L) t.priceToLeveldata →
      matchTurn order side t = some t' → LoopInv order o side beyond own t' ∧
        Aggregates (levelOffers t'.heap t'.contraBook.entries ++ L) t'.priceToLeveldata :=
    fun t t' ⟨ht, hagg⟩ h => ⟨(ht.turn h).inv, (ht.aggregates_turn hagg h).1⟩
  refine ⟨(WhileLoop.run_invariant hturn _ ⟨hinv, h⟩).2, fun f hf => ?_⟩
  obtain ⟨t, ht, hft⟩ := List.mem_flatMap.mp hf
  obtain ⟨hinvt, haggt⟩ := WhileLoop.visited_invariant hturn _ ⟨hinv, h⟩ t ht
  obtain ⟨t', hnext⟩ := WhileLoop.exists_turn_of_mem_visited ht
  exact (hinvt.aggregates_turn haggt hnext).2 f (Option.mem_toList.mp hft)

/-- The same on a well-formed book. -/
theorem MatchInv.aggregates {contraSide : BuySell} (hinv : MatchInv order o side contraSide own s)
    (hcur : s.cursor = .levels)
    (h : Aggregates (offers s.heap s.contraBook.entries ++ L) s.priceToLeveldata) :
    Aggregates (offers (matchAgainst order side s).heap
        (matchAgainst order side s).contraBook.entries ++ L)
      (matchAgainst order side s).priceToLeveldata ∧
      ∀ f ∈ matchLevelFills order side s, f.Sound := by
  rw [← hinv.levels.levelOffers_eq] at h
  rw [← (matchAgainst_spec hinv hcur).inv.levels.levelOffers_eq]
  exact hinv.loopInv.aggregates_matchAgainst h

end Loops

end ExchangeEngine
