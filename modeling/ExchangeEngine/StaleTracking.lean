import Mathlib.Algebra.BigOperators.Group.Finset.Basic
import ExchangeEngine.Announcements
import ExchangeEngine.Crossing
import ExchangeEngine.TrackingMaps

/-!
# Orders That Stay Tracked After They Have Left

An order that leaves the book should leave the tracking maps. Only two of the ways out do so:
the cancel, and the clean-up of an incoming order at the end of `handleNewOrder`. An order
that is executed in full while it rests, or by its own modify, stays in the maps.

* `exists_left_iff`: which messages take an order out of the book without cancelling it,
  read off the book before the message (`leavesStale`).
* `no_stale_tracking_iff`: the maps hold resting orders only, in every state of a run,
  exactly when no message of the run does so.
-/

open PriceTime

namespace ExchangeEngine

namespace Orderbook

variable {b b' : Orderbook} {c : BookCall} {order : OrderPointer} {s : Side} {o : Order}

/-- Whether an order trades with the first opposite order and has enough to execute it in
full. -/
def removesFirst (b : Orderbook) (o : Order) : Bool :=
  match b.opposite o.buySell with
  | [] => false
  | first :: _ => o.accepts o.buySell first.price && decide (first.quantity ≤ o.quantity)

theorem crosses_of_removesFirst (h : b.removesFirst o = true) : b.crosses o = true := by
  rw [removesFirst] at h
  rw [crosses]
  cases hopp : b.opposite o.buySell with
  | nil => simp [hopp] at h
  | cons first rest =>
      simp only [hopp, Bool.and_eq_true] at h
      exact h.1

/-- An order does not close the first opposite order if it does not trade with it or wants
less. -/
theorem removesFirst_eq_false (hs : o.buySell = buySellOf s) :
    b.removesFirst o = false ↔ ∀ a ∈ (b.view.side s.contra).head?,
      o.accepts (buySellOf s) a.price = true → o.quantity.toNat < a.qty := by
  rw [← map_offer_opposite, removesFirst, hs]
  cases b.opposite (buySellOf s) with
  | nil => simp
  | cons first rest =>
      simp only [List.map_cons, List.head?_cons, Option.mem_some_iff, forall_eq',
        Bool.and_eq_false_imp, decide_eq_false_iff_not]
      exact forall_congr' fun _ => UInt32.not_le.trans UInt32.lt_iff_toNat_lt

/-- **An incoming order takes another order out of the book** exactly when it closes the
first opposite one. -/
theorem Enters.exists_left_iff (h : b.Wf) (hallow : b.Allows c)
    (henters : b.Enters c b' order s) (hadded : b'.Added order s (b.call c)) :
    (∃ i ∈ b.view.ids, i ≠ c.orderId ∧ i ∉ (b.call c).view.ids) ↔
      b.removesFirst (b'.heap.read order) = true := by
  have hcontra := Enters.contra h hallow henters
  have hid : (b'.heap.read order).offer.id = c.orderId := henters.orderId
  have hside := removesFirst_eq_false (b := b) henters.addable.buySell
  constructor
  · rintro ⟨i, hi, hne, hgone⟩
    by_contra hclose
    have hkeep := hside.mp (Bool.not_eq_true _ ▸ hclose)
    refine hgone ?_
    have hi' : i ∈ b'.view.ids := by
      rw [henters.view]
      exact Book.mem_ids_withdraw.mpr ⟨hi, hne⟩
    rw [hadded.view, Book.mem_ids_submit_of_ne (hid ▸ hne)]
    refine ((Book.mem_ids_iff s).mp hi').imp_right fun hmem => ?_
    have hstamps : (b'.view.execution s ((b'.heap.read order).accepts (buySellOf s))
        (b'.heap.read order).offer).rest.map Offer.stamp =
        (b'.view.side s.contra).map Offer.stamp := by
      refine sweep_rest_stamps ?_
      rw [hcontra]
      exact hkeep
    have hids := congrArg (List.map Prod.fst) hstamps
    rw [List.map_map, List.map_map] at hids
    exact hids ▸ hmem
  · intro hclose
    have hnot : ¬ b.removesFirst (b'.heap.read order) = false := by rw [hclose]; simp
    rw [hside] at hnot
    push Not at hnot
    obtain ⟨a, ha, hok, hle⟩ := hnot
    obtain ⟨rest, hrest⟩ := List.head?_eq_some_iff.mp ha
    have hnd := henters.detached.nodup_ids
    have hmem : a ∈ b'.view.side s.contra := by
      rw [hcontra, hrest]
      exact List.mem_cons_self
    have hi' : a.id ∈ b'.view.ids := Book.mem_ids.mpr ⟨s.contra, a, hmem, rfl⟩
    rw [henters.view] at hi'
    obtain ⟨hi, hne⟩ := Book.mem_ids_withdraw.mp hi'
    have hlist : b'.view.side s.contra = a :: rest := hcontra.trans hrest
    have hnew : a.id ∉ (b'.view.side s).map Offer.id ∧ a.id ∉ rest.map Offer.id := by
      have hsplit := (Book.nodup_ids_iff s).mp hnd
      rw [hlist, List.map_cons, List.nodup_cons] at hsplit
      exact ⟨fun hown => hsplit.2.2 hown List.mem_cons_self, hsplit.2.1.1⟩
    refine ⟨a.id, hi, hne, ?_⟩
    rw [hadded.view, Book.mem_ids_submit_of_ne (hid ▸ hne)]
    rintro (hown | hleft)
    · exact hnew.1 hown
    · rw [Book.execution, hlist] at hleft
      have hq : (b'.heap.read order).offer.qty ≠ 0 :=
        Nat.pos_iff_ne_zero.mp (Quantity.toNat_pos_iff.mpr henters.addable.quantity)
      exact notMem_sweep_rest hq hok hle hnew.2 hleft

theorem crosses_eq_false (hs : o.buySell = buySellOf s) :
    b.crosses o = false ↔ ∀ a ∈ (b.view.side s.contra).head?,
      o.accepts (buySellOf s) a.price = false := by
  rw [← map_offer_opposite, crosses, hs]
  cases b.opposite (buySellOf s) with
  | nil => simp
  | cons first rest =>
      simp only [List.map_cons, List.head?_cons, Option.mem_some_iff, forall_eq']
      exact Iff.rfl

/-- What is left of an incoming order that does not close the first opposite order: nothing if
it trades, everything if it does not. -/
theorem Enters.left_of_removesFirst_eq_false (h : b.Wf) (hallow : b.Allows c)
    (henters : b.Enters c b' order s)
    (hclose : b.removesFirst (b'.heap.read order) = false) :
    (b'.sweepBy order s).left =
      if b.crosses (b'.heap.read order) = true then 0
      else (b'.heap.read order).quantity.toNat := by
  have hkeep := (removesFirst_eq_false henters.addable.buySell).mp hclose
  have hcross := crosses_eq_false (b := b) henters.addable.buySell
  rw [sweepBy, Book.execution, Enters.contra h hallow henters]
  cases hside : b.view.side s.contra with
  | nil =>
      rw [hside] at hcross
      rw [if_neg (by simp [hcross.mpr (by simp)])]
      rfl
  | cons a rest =>
      rw [hside] at hcross hkeep
      refine (sweep_left_of_head (hkeep a rfl)).trans (if_congr ?_ rfl rfl)
      rw [← not_iff_not, Bool.not_eq_true, Bool.not_eq_true, hcross]
      simp

/-- **A modified order that trades** takes itself or the first opposite order out of the
book; one that does not trade takes none. -/
theorem Enters.exists_left_modified_iff (h : b.Wf) (hallow : b.Allows c)
    (henters : b.Enters c b' order s) (hadded : b'.Added order s (b.call c))
    (hmem : c.orderId ∈ b.view.ids) (hrest : (b'.heap.read order).isAggressive = false) :
    (∃ i ∈ b.view.ids, i ∉ (b.call c).view.ids) ↔
      b.crosses (b'.heap.read order) = true := by
  have hothers := henters.exists_left_iff h hallow hadded
  have hid : (b'.heap.read order).offer.id = c.orderId := henters.orderId
  have hown : c.orderId ∈ (b.call c).view.ids ↔ (b'.sweepBy order s).left ≠ 0 := by
    rw [hadded.view, ← hid, Book.mem_ids_submit_own henters.detached.id_notMem, hrest]
    exact and_iff_right rfl
  have hq : (b'.heap.read order).quantity.toNat ≠ 0 :=
    Nat.pos_iff_ne_zero.mp (Quantity.toNat_pos_iff.mpr henters.addable.quantity)
  cases hclose : b.removesFirst (b'.heap.read order) with
  | true =>
      obtain ⟨i, hi, -, hgone⟩ := hothers.mpr hclose
      exact iff_of_true ⟨i, hi, hgone⟩ (crosses_of_removesFirst hclose)
  | false =>
      have hleft := henters.left_of_removesFirst_eq_false h hallow hclose
      constructor
      · rintro ⟨i, hi, hgone⟩
        by_contra hcross
        rw [if_neg hcross] at hleft
        by_cases hic : i = c.orderId
        · rw [hic] at hgone
          exact hgone (hown.mpr (hleft ▸ hq))
        · have := hothers.mp ⟨i, hi, hic, hgone⟩
          rw [hclose] at this
          cases this
      · intro hcross
        rw [if_pos hcross] at hleft
        exact ⟨c.orderId, hmem, fun hin => hown.mp hin hleft⟩

end Orderbook

/-! ### Messages -/

/-- Whether a message takes a resting order out of the book without cancelling it: a new order
that closes the first opposite order, or a modified order that trades. -/
def MatchingEngine.leavesStale (e : MatchingEngine) (msg : InboundMessage) : Bool :=
  match e.incoming? msg with
  | none => false
  | some o =>
      match msg.body with
      | .newOrder _ => e.orderbook.removesFirst o
      | _ => e.orderbook.crosses o

variable {symbol : List UInt8} {clock : ℕ → Timestamp} {msg : InboundMessage}
  {past : List InboundMessage}

/-- **Which messages leave a stale entry**: some order rests before the message, does not rest
after it, and is not cancelled by it, exactly when `leavesStale`. -/
theorem exists_left_iff (h : acceptedOrders (msg :: past) < 2 ^ 64) :
    (∃ i ∈ (after symbol clock past).orderbook.view.ids,
      i ∉ (after symbol clock (msg :: past)).orderbook.view.ids ∧
        (after symbol clock past).bookCall? msg ≠ some (.cancelOrder i)) ↔
      (after symbol clock past).leavesStale msg = true := by
  have hpast := acceptedOrders_lt_of_cons h
  have hwf := (after_inv symbol clock hpast).book.wf
  rw [after_cons, MatchingEngine.leavesStale, MatchingEngine.incoming?]
  cases hcall : (after symbol clock past).bookCall? msg with
  | none =>
      rw [MatchingEngine.orderbook_of_no_call hcall]
      simp
  | some c =>
      have hallow := after_allows symbol clock h hcall
      rw [MatchingEngine.orderbook_of_call hcall, Option.bind_some, Orderbook.incoming?]
      rcases Orderbook.call_cases hwf hallow with ⟨b', order, s, hent, henters, hadded⟩ |
        ⟨orderId, rfl, hent, -, hview⟩ | ⟨j, newPrice, newQuantity, rfl, hent, heq⟩
      · rw [hent, Option.map_some]
        rcases henters.origin with hc | ⟨hmem, newPrice, newQuantity, hc, hread⟩
        · have hbody : ∃ request, msg.body = .newOrder request := by
            rw [hc] at hcall
            obtain ⟨-, request, -, -, hbody, -⟩ := MatchingEngine.bookCall_addOrder hcall
            exact ⟨request, hbody⟩
          obtain ⟨request, hbody⟩ := hbody
          rw [hbody, ← henters.exists_left_iff hwf hallow hadded]
          refine exists_congr fun i => and_congr_right fun hi => ?_
          have hne : i ≠ c.orderId := by
            rintro rfl
            rw [hc] at hallow hi
            exact hallow.2.2.2 hi
          have hcancel : some c ≠ some (.cancelOrder i) := by
            rw [hc]
            simp
          rw [and_iff_left hcancel, and_iff_right hne]
        · have hbody : ∀ request, msg.body ≠ .newOrder request := by
            intro request hbody
            simp only [MatchingEngine.bookCall?, hbody] at hcall
            split at hcall
            · cases hcall
            · rw [hc] at hcall
              cases hcall
          have hid : c.orderId ∈ (after symbol clock past).orderbook.view.ids := by
            rw [hc]
            exact Orderbook.mem_ids_of_mem_resting hmem
          have hrest : (b'.heap.read order).isAggressive = false := by
            rw [hread]
            exact hwf.isAggressive hmem
          have hleft := henters.exists_left_modified_iff hwf hallow hadded hid hrest
          have hcancel : ∀ i, some c ≠ some (.cancelOrder i) := by
            rw [hc]
            simp
          simp only [hcancel, ne_eq, not_false_eq_true, and_true]
          exact hleft
      · rw [hent, hview]
        refine iff_of_false ?_ (by simp)
        rintro ⟨i, hi, hgone, hcancel⟩
        refine hgone (Book.mem_ids_withdraw.mpr ⟨hi, ?_⟩)
        rintro rfl
        exact hcancel rfl
      · rw [hent, heq]
        refine iff_of_false ?_ (by simp)
        rintro ⟨i, hi, hgone, -⟩
        exact hgone hi

/-! ### Runs -/

/-- **No stale tracking**: every id in a tracking map is that of a resting order, so none of
the maps has more ids than there are resting orders. -/
structure NoStaleTracking (e : MatchingEngine) : Prop where
  orderToSession : ∀ i ∈ e.orderToSession, e.orderbook.rests i = true
  orderToClientOrderId : ∀ i ∈ e.orderToClientOrderId, e.orderbook.rests i = true
  sessionOrders : ∀ s, ∀ i ∈ (e.sessionOrders.lookup s).getD ∅, e.orderbook.rests i = true
  card_orderToSession : e.orderToSession.keys.card ≤ e.orderbook.resting.length
  card_orderToClientOrderId :
    e.orderToClientOrderId.keys.card ≤ e.orderbook.resting.length
  card_sessionOrders :
    ∑ s ∈ e.sessionOrders.keys, ((e.sessionOrders.lookup s).getD ∅).card ≤
      e.orderbook.resting.length

/-- Ids of resting orders only are at most as many as the resting orders. -/
theorem Orderbook.card_le_resting {b : Orderbook} {ids : Finset OrderId}
    (h : ∀ i ∈ ids, b.rests i = true) : ids.card ≤ b.resting.length := by
  have hsub : ids ⊆ b.view.ids.toFinset := fun i hi =>
    List.mem_toFinset.mpr (Orderbook.rests_iff.mp (h i hi))
  calc ids.card ≤ b.view.ids.toFinset.card := Finset.card_le_card hsub
    _ ≤ b.view.ids.length := List.toFinset_card_le _
    _ = b.resting.length := by rw [b.ids_view, List.length_map]

/-- In maps that agree, one map without stale ids is enough. -/
theorem Represents.noStaleTracking {e : MatchingEngine} {register : Register}
    (h : Represents e register) (hrests : ∀ i, register i ≠ none → e.orderbook.rests i = true) :
    NoStaleTracking e := by
  have hsession : ∀ i ∈ e.orderToSession, e.orderbook.rests i = true := by
    intro i hi
    rw [← Finmap.lookup_isSome, h.session, Option.isSome_map] at hi
    exact hrests i (Option.isSome_iff_ne_none.mp hi)
  have hclient : ∀ i ∈ e.orderToClientOrderId, e.orderbook.rests i = true := by
    intro i hi
    rw [← Finmap.lookup_isSome, h.client, Option.isSome_map] at hi
    exact hrests i (Option.isSome_iff_ne_none.mp hi)
  have horders : ∀ s, ∀ i ∈ (e.sessionOrders.lookup s).getD ∅, e.orderbook.rests i = true := by
    intro s i hi
    obtain ⟨p, hp, -⟩ := Option.map_eq_some_iff.mp ((h.orders s i).mp hi)
    exact hrests i fun hnone => by rw [hnone] at hp; cases hp
  refine ⟨hsession, hclient, horders, ?_, ?_, ?_⟩
  · exact Orderbook.card_le_resting fun i hi => hsession i (Finmap.mem_keys.mp hi)
  · exact Orderbook.card_le_resting fun i hi => hclient i (Finmap.mem_keys.mp hi)
  · have hdisj : (e.sessionOrders.keys : Set SessionId).PairwiseDisjoint
        fun s => (e.sessionOrders.lookup s).getD ∅ := by
      intro s _ s' _ hne
      refine Finset.disjoint_left.mpr fun i hi hi' => hne ?_
      exact Option.some.inj (((h.orders s i).mp hi).symm.trans ((h.orders s' i).mp hi'))
    rw [← Finset.card_biUnion hdisj]
    refine Orderbook.card_le_resting fun i hi => ?_
    obtain ⟨s, -, hi⟩ := Finset.mem_biUnion.mp hi
    exact horders s i hi

/-- An order that is taken out of the book without being cancelled is still tracked. -/
theorem tracked_of_left {i : OrderId} (h : acceptedOrders (msg :: past) < 2 ^ 64)
    (hi : i ∈ (after symbol clock past).orderbook.view.ids)
    (hcancel : (after symbol clock past).bookCall? msg ≠ some (.cancelOrder i)) :
    i ∈ (after symbol clock (msg :: past)).orderToSession := by
  have hpast := acceptedOrders_lt_of_cons h
  obtain ⟨sessionId, -, -, hlookup⟩ := tracked_of_resting hpast hi
  have hkeep : (after symbol clock (msg :: past)).orderToSession.lookup i = some sessionId := by
    rw [lookup_of_not_cancelled h (ne_nextOrderId h hi) hcancel]
    exact hlookup
  exact Finmap.mem_of_lookup_eq_some hkeep

/-- No order leaves by a fill in a run whose messages leave nothing stale. -/
theorem leftByFill_eq_false (h : acceptedOrders past < 2 ^ 64)
    (hsteps : ∀ msg before, (msg :: before) <:+ past →
      (after symbol clock before).leavesStale msg = false) (i : OrderId) :
    leftByFill symbol clock past i = false := by
  induction past with
  | nil => rfl
  | cons msg past ih =>
      have hpast := acceptedOrders_lt_of_cons h
      have hold := ih hpast fun msg' before hsuffix =>
        hsteps msg' before (hsuffix.trans (List.suffix_cons msg past))
      have hstep := hsteps msg past List.suffix_rfl
      by_contra hleft
      rw [leftByFill, hold] at hleft
      simp only [Bool.false_or, Bool.and_eq_true, Bool.not_eq_true', Bool.not_eq_false,
        decide_eq_true_eq] at hleft
      obtain ⟨⟨hi, hgone⟩, hcancel⟩ := hleft
      have hgone' : i ∉ (after symbol clock (msg :: past)).orderbook.view.ids := by
        intro hmem
        rw [Orderbook.rests_iff.mpr hmem] at hgone
        cases hgone
      have hstale := (exists_left_iff h).mp ⟨i, Orderbook.rests_iff.mp hi, hgone', hcancel⟩
      rw [hstep] at hstale
      cases hstale

/-- **When no state of a run has stale tracking**: when no message of the run takes a resting
order out of the book by a trade. -/
theorem no_stale_tracking_iff (symbol : List UInt8) (clock : ℕ → Timestamp)
    (past : List InboundMessage) (h : acceptedOrders past < 2 ^ 64) :
    (∀ before, before <:+ past → NoStaleTracking (after symbol clock before)) ↔
      ∀ msg before, (msg :: before) <:+ past →
        (after symbol clock before).leavesStale msg = false := by
  constructor
  · intro hnone msg before hsuffix
    have hbefore := acceptedOrders_lt_of_suffix hsuffix h
    by_contra hleaves
    obtain ⟨i, hi, hgone, hcancel⟩ :=
      (exists_left_iff hbefore).mpr (Bool.not_eq_false _ ▸ hleaves)
    have htracked := tracked_of_left hbefore hi hcancel
    exact hgone (Orderbook.rests_iff.mp ((hnone _ hsuffix).orderToSession i htracked))
  · intro hsteps before hsuffix
    have hbefore := acceptedOrders_lt_of_suffix hsuffix h
    obtain ⟨register, hrep, -⟩ := represents_after symbol clock hbefore
    refine hrep.noStaleTracking fun i hi => ?_
    obtain ⟨p, hp⟩ := Option.ne_none_iff_exists'.mp hi
    have hlookup := hrep.session i
    rw [hp, Option.map_some] at hlookup
    rcases (entered_of_tracked hbefore hlookup).2 with hrests | hleft
    · exact Orderbook.rests_iff.mpr hrests
    · rw [leftByFill_eq_false hbefore fun msg before' hsuffix' =>
        hsteps msg before' (hsuffix'.trans hsuffix)] at hleft
      cases hleft

/-- A run in which a resting order is partly filled, modified and cancelled, and an incoming
order does not come to rest. -/
def cleanRun : List InboundMessage :=
  [cancelOrderMessage 1 1, modifyOrderMessage 1 1 99 4, limitOrderMessage 2 .sell 100 3,
    limitOrderMessage 1 .buy 100 5]

theorem no_stale_tracking_iff_cleanRun :
    (after [] (fun _ => 0) cleanRun).orderToSession.keys = ∅ ∧
    ∀ before, before <:+ cleanRun → NoStaleTracking (after [] (fun _ => 0) before) := by
  have hsteps : everyStep (fun before msg => !(after [] (fun _ => 0) before).leavesStale msg)
      cleanRun = true := by decide
  refine ⟨by decide, (no_stale_tracking_iff [] (fun _ => 0) cleanRun (by decide)).mpr
    fun msg before hsuffix => ?_⟩
  simpa using everyStep_iff.mp hsteps msg before hsuffix

/-- A run in which a resting order is executed in full. -/
def closedRun : List InboundMessage :=
  [limitOrderMessage 2 .buy 100 5, limitOrderMessage 1 .sell 100 5]

/-- The executed order is still tracked, in an empty book. -/
theorem not_noStaleTracking_closedRun :
    (after [] (fun _ => 0) closedRun).orderbook.resting = [] ∧
    (after [] (fun _ => 0) closedRun).orderToSession.lookup 1 = some 1 ∧
    ¬ NoStaleTracking (after [] (fun _ => 0) closedRun) := by
  refine ⟨by decide, by decide, fun h => ?_⟩
  exact absurd (h.orderToSession 1 (Finmap.mem_of_lookup_eq_some (b := 1) (by decide)))
    (by decide)

end ExchangeEngine
