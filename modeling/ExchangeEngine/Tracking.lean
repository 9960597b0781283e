import ExchangeEngine.Entries

/-!
# Whose Order Is It

The engine keeps a map from order ids to sessions and decides by it who may cancel or modify
an order and who is told about a trade of a resting order. This module relates the map to the
book and to the history.

* `orderToSession_cases`: what a message does to the map. An accepted request enters its order
  and drops it again if the order does not rest; an acknowledged cancel drops its order;
  nothing else is ever dropped.
* `tracked_of_resting`: every resting order is in the map, under the session that entered it.
* `entered_of_tracked`: every order in the map is there under the session that entered it, and
  it rests, or it has left the book other than by a cancel (`leftByFill`).
-/

open PriceTime

namespace ExchangeEngine

/-- A settled order is filled or cancelled unless a part of it is left and may rest. -/
theorem Order.closed_settled (o : Order) (originalQuantity remaining : Quantity) :
    ((o.settled originalQuantity remaining).isFilled = true ∨
      (o.settled originalQuantity remaining).orderStatus = .cancelled) ↔
    o.isAggressive = true ∨ remaining = 0 := by
  have hfilled : (o.settled originalQuantity remaining).isFilled = true ↔
      o.isAggressive = true ∨ remaining = 0 := by
    rw [Order.isFilled, beq_iff_eq, Order.quantity_settled]
    cases o.isAggressive <;> simp
  rw [hfilled]
  refine ⟨fun h => h.elim id fun hstatus => ?_, Or.inl⟩
  by_contra hopen
  obtain ⟨hag, hrem⟩ := not_or.mp hopen
  have hag' : (o.setQuantity remaining).isAggressive = false := Bool.not_eq_true _ ▸ hag
  have hfull : ¬ (remaining = 0 ∧ 0 < originalQuantity) := fun hzero => hrem hzero.1
  simp only [Order.settled, if_neg hfull, hag', Bool.false_eq_true, if_false] at hstatus
  split at hstatus
  · cases hstatus
  split at hstatus
  · cases hstatus
  · rename_i hmodify
    rw [not_not.mp hmodify] at hstatus
    cases hstatus

namespace Orderbook

variable {b : Orderbook} {o : Order}

/-- **An added order is filled or cancelled exactly when it does not rest.** -/
theorem closed_addOrder_iff (h : b.Wf) (hallow : b.Allows (.addOrder o)) :
    (((b.call (.addOrder o)).heap.read b.heap.next).isFilled = true ∨
      ((b.call (.addOrder o)).heap.read b.heap.next).orderStatus = .cancelled) ↔
    o.orderId ∉ (b.call (.addOrder o)).view.ids := by
  obtain ⟨s, henters⟩ := enters_addOrder h hallow
  have hadded := addToBook_spec henters.detached henters.addable
  have hread : (b.allocOrder o).heap.read b.heap.next = o := b.heap.read_alloc_next o
  have hnew : o.offer.id ∉ (b.allocOrder o).view.ids := by
    have hid := henters.detached.id_notMem
    rw [hread] at hid
    exact hid
  have hresult : (b.call (.addOrder o)).heap.read b.heap.next =
      o.settled o.quantity (UInt32.ofNat ((b.allocOrder o).sweepBy b.heap.next s).left) := by
    have := hadded.read
    rwa [hread] at this
  have hleft : UInt32.ofNat ((b.allocOrder o).sweepBy b.heap.next s).left = 0 ↔
      ((b.allocOrder o).sweepBy b.heap.next s).left = 0 := by
    rw [← hadded.remaining, UInt32.ofNat_toNat, ← UInt32.toNat_inj, UInt32.toNat_zero]
  have hview : (b.call (.addOrder o)).view = (b.allocOrder o).view.submit s
      (o.accepts (buySellOf s)) (!o.isAggressive) o.offer := by
    have := hadded.view
    rwa [hread] at this
  have hown : o.orderId ∈ (b.call (.addOrder o)).view.ids ↔
      (!o.isAggressive) = true ∧ ((b.allocOrder o).sweepBy b.heap.next s).left ≠ 0 := by
    rw [hview, Orderbook.sweepBy, hread]
    exact Book.mem_ids_submit_own hnew
  rw [hresult, Order.closed_settled, hleft, hown]
  cases o.isAggressive <;> simp

/-- Whether an order rests in the book. -/
def rests (b : Orderbook) (orderId : OrderId) : Bool :=
  b.resting.any fun p => decide ((b.heap.read p).orderId = orderId)

theorem rests_iff {orderId : OrderId} : b.rests orderId = true ↔ orderId ∈ b.view.ids := by
  simp only [rests, ids_view, List.any_eq_true, List.mem_map, decide_eq_true_iff]

end Orderbook

/-! ### What a message does to the map -/

namespace MatchingEngine

variable {e : MatchingEngine} {msg : InboundMessage}

/-- The ways in which a message changes whom the orders belong to. -/
inductive Tracks (e : MatchingEngine) (msg : InboundMessage) : Prop
  | entered (request : NewOrderRequest) (body : msg.body = .newOrder request)
      (accepted : isAccepted msg = true)
      (lookup : ∀ i, (e.processInboundMessage msg).orderToSession.lookup i =
        if i = e.nextOrderId then
          if i ∈ (e.processInboundMessage msg).orderbook.view.ids then some msg.sessionId
          else none
        else e.orderToSession.lookup i)
  | dropped (orderId : OrderId) (call : e.bookCall? msg = some (.cancelOrder orderId))
      (accepted : isAccepted msg = false)
      (lookup : ∀ i, (e.processInboundMessage msg).orderToSession.lookup i =
        if i = orderId then none else e.orderToSession.lookup i)
  | kept (call : ∀ orderId, e.bookCall? msg ≠ some (.cancelOrder orderId))
      (accepted : isAccepted msg = false)
      (map : (e.processInboundMessage msg).orderToSession = e.orderToSession)

/-- An accepted request enters its order into the map exactly when the order rests. -/
theorem lookup_acceptNewOrder (hwf : e.orderbook.Wf) {sessionId : SessionId}
    {request : NewOrderRequest} {side : BuySell} {orderType : OrderType}
    (hallow : e.orderbook.Allows (.addOrder (e.newOrder sessionId request side orderType)))
    (i : OrderId) :
    (e.acceptNewOrder sessionId request side orderType).orderToSession.lookup i =
      if i = e.nextOrderId then
        if i ∈ (e.acceptNewOrder sessionId request side orderType).orderbook.view.ids then
          some sessionId
        else none
      else e.orderToSession.lookup i := by
  have hclosed := Orderbook.closed_addOrder_iff hwf hallow
  have hcore := e.core_acceptNewOrder sessionId request side orderType
  rw [← orderbook_enterOrder] at hclosed
  rw [orderbook_acceptNewOrder, ← orderbook_enterOrder, ← orderToSession_core]
  simp only at hcore
  split at hcore
  · rename_i hdone
    have hgone : e.nextOrderId ∉ _ := hclosed.mp hdone
    have hmap : (e.acceptNewOrder sessionId request side orderType).core.orderToSession =
        (e.orderToSession.insert e.nextOrderId sessionId).erase e.nextOrderId := by
      rw [hcore]
      rfl
    rw [hmap, UnorderedMap.lookup_erase_ite, UnorderedMap.lookup_insert_ite]
    split
    · rename_i hi
      rw [hi, if_neg hgone]
    · rfl
  · rename_i hdone
    have hrests : e.nextOrderId ∈ _ := not_not.mp fun hgone => hdone (hclosed.mpr hgone)
    have hmap : (e.acceptNewOrder sessionId request side orderType).core.orderToSession =
        e.orderToSession.insert e.nextOrderId sessionId := by
      rw [hcore]
      rfl
    rw [hmap, UnorderedMap.lookup_insert_ite]
    split
    · rename_i hi
      rw [hi, if_pos hrests]
    · rfl

/-- What an engine step does to the map is what it does to the orders in the book. -/
theorem tracks (hwf : e.orderbook.Wf)
    (hallow : ∀ c, e.bookCall? msg = some c → e.orderbook.Allows c) : Tracks e msg := by
  cases e.handled msg with
  | newRejected request reason _ _ call accepted result =>
      exact .kept (fun j hj => by rw [call] at hj; cases hj) accepted (by rw [result]; rfl)
  | newAccepted request side orderType body _ call accepted result =>
      have hlookup := lookup_acceptNewOrder (e := e.countOrder) hwf (hallow _ call)
      exact .entered request body accepted (by rw [result]; exact hlookup)
  | cancelRejected request _ _ call accepted result =>
      exact .kept (fun j hj => by rw [call] at hj; cases hj) accepted (by rw [result]; rfl)
  | cancelled request owner _ _ call accepted result =>
      refine .dropped request.orderId call accepted fun i => ?_
      rw [result]
      exact UnorderedMap.lookup_erase_ite e.orderToSession request.orderId i
  | modifyRejected request reason _ _ call accepted result =>
      exact .kept (fun j hj => by rw [call] at hj; cases hj) accepted (by rw [result]; rfl)
  | modified request _ _ call accepted result =>
      refine .kept (fun j hj => by rw [call] at hj; cases hj) accepted ?_
      rw [result]
      exact congrArg EngineCore.orderToSession (e.core_acceptModifyOrder msg.sessionId request)

end MatchingEngine

/-! ### The map over runs -/

variable (symbol : List UInt8) (clock : ℕ → Timestamp)

/-- Whether an order has left the book otherwise than by a cancel: it was executed in full
while it rested, or when a modify entered it into matching again. -/
def leftByFill : List InboundMessage → OrderId → Bool
  | [], _ => false
  | msg :: past, orderId =>
      leftByFill past orderId ||
        ((after symbol clock past).orderbook.rests orderId &&
          !(after symbol clock (msg :: past)).orderbook.rests orderId &&
          decide ((after symbol clock past).bookCall? msg ≠ some (.cancelOrder orderId)))

section Runs

variable {symbol clock} {msg : InboundMessage} {past : List InboundMessage} {i : OrderId}
  {sessionId : SessionId} {request : NewOrderRequest}

/-- Every order that was entered has an id below the next one. -/
theorem toNat_le_of_entry (h : acceptedOrders past < 2 ^ 64)
    (hentry : entry symbol clock past i = some (sessionId, request)) :
    i.toNat ≤ acceptedOrders past := by
  induction past with
  | nil => cases hentry
  | cons msg past ih =>
      have hpast := acceptedOrders_lt_of_cons h
      by_cases hnew : MatchingEngine.isAccepted msg = true ∧
          i = (after symbol clock past).nextOrderId
      · obtain ⟨hacc, rfl⟩ := hnew
        rw [acceptedOrders_cons, hacc, if_pos rfl] at h ⊢
        rw [(after_inv symbol clock hpast).nextOrderId, UInt64.toNat_ofNat_of_lt' h]
      · rw [entry_cons_of_ne fun hacc heq => hnew ⟨hacc, heq⟩] at hentry
        exact Nat.le_trans (ih hpast hentry) (acceptedOrders_le_cons msg past)

/-- The next order has not been entered yet. -/
theorem entry_nextOrderId (h : acceptedOrders (msg :: past) < 2 ^ 64)
    (hacc : MatchingEngine.isAccepted msg = true) :
    entry symbol clock past (after symbol clock past).nextOrderId = none := by
  cases hentry : entry symbol clock past (after symbol clock past).nextOrderId with
  | none => rfl
  | some entered =>
      have hpast := acceptedOrders_lt_of_cons h
      have hle := toNat_le_of_entry hpast hentry
      rw [acceptedOrders_cons, hacc, if_pos rfl] at h
      rw [(after_inv symbol clock hpast).nextOrderId, UInt64.toNat_ofNat_of_lt' h] at hle
      omega

/-- An order that was entered is not entered again. -/
theorem entry_cons (h : acceptedOrders (msg :: past) < 2 ^ 64)
    (hentry : entry symbol clock past i = some (sessionId, request)) :
    entry symbol clock (msg :: past) i = some (sessionId, request) := by
  rw [entry_cons_of_ne]
  · exact hentry
  · rintro hacc rfl
    rw [entry_nextOrderId h hacc] at hentry
    cases hentry

/-- What a message of a run does to the map. -/
theorem tracks_after (h : acceptedOrders (msg :: past) < 2 ^ 64) :
    (after symbol clock past).Tracks msg :=
  have hpast := acceptedOrders_lt_of_cons h
  MatchingEngine.tracks (after_inv symbol clock hpast).book.wf
    fun _ hcall => after_allows symbol clock h hcall

/-- An order that rests after a message and is not the one that it adds rested before, and
was not cancelled by it. -/
theorem mem_ids_before (h : acceptedOrders (msg :: past) < 2 ^ 64)
    (hi : i ∈ (after symbol clock (msg :: past)).orderbook.view.ids)
    (hne : MatchingEngine.isAccepted msg = true → i ≠ (after symbol clock past).nextOrderId) :
    i ∈ (after symbol clock past).orderbook.view.ids ∧
      (after symbol clock past).bookCall? msg ≠ some (.cancelOrder i) := by
  have hpast := acceptedOrders_lt_of_cons h
  have hwf := (after_inv symbol clock hpast).book.wf
  rw [after_cons] at hi
  cases hcall : (after symbol clock past).bookCall? msg with
  | none =>
      rw [MatchingEngine.orderbook_of_no_call hcall] at hi
      exact ⟨hi, by simp⟩
  | some c =>
      rw [MatchingEngine.orderbook_of_call hcall] at hi
      refine ⟨?_, ?_⟩
      · rcases Orderbook.mem_ids_call hwf (after_allows symbol clock h hcall) hi with
          hold | ⟨o, rfl, rfl⟩
        · exact hold
        · obtain ⟨hacc, request, side, orderType, -, -, rfl⟩ :=
            MatchingEngine.bookCall_addOrder hcall
          exact absurd rfl (hne hacc)
      · rintro heq
        obtain rfl := Option.some.inj heq
        have hview := (Orderbook.cancelOrder_spec hwf i).2.1
        rw [Orderbook.call, hview] at hi
        exact (Book.mem_ids_withdraw.mp hi).2 rfl

/-- A message leaves alone what is tracked of an order that it neither enters nor cancels. -/
theorem lookup_of_not_cancelled (h : acceptedOrders (msg :: past) < 2 ^ 64)
    (hne : MatchingEngine.isAccepted msg = true → i ≠ (after symbol clock past).nextOrderId)
    (hcancel : (after symbol clock past).bookCall? msg ≠ some (.cancelOrder i)) :
    (after symbol clock (msg :: past)).orderToSession.lookup i =
      (after symbol clock past).orderToSession.lookup i := by
  have htracks : (after symbol clock past).Tracks msg := tracks_after h
  rw [after_cons]
  cases htracks with
  | entered _ _ accepted lookup => rw [lookup, if_neg (hne accepted)]
  | dropped orderId call _ lookup =>
      have hother : i ≠ orderId := by
        rintro rfl
        exact hcancel call
      rw [lookup, if_neg hother]
  | kept _ _ map => rw [map]

/-- **Every resting order is tracked** under the session that entered it. -/
theorem tracked_of_resting (h : acceptedOrders past < 2 ^ 64)
    (hi : i ∈ (after symbol clock past).orderbook.view.ids) :
    ∃ sessionId request, entry symbol clock past i = some (sessionId, request) ∧
      (after symbol clock past).orderToSession.lookup i = some sessionId := by
  induction past with
  | nil => cases hi
  | cons msg past ih =>
      have hpast := acceptedOrders_lt_of_cons h
      by_cases hnew : MatchingEngine.isAccepted msg = true ∧
          i = (after symbol clock past).nextOrderId
      · obtain ⟨hacc, rfl⟩ := hnew
        have htracks : (after symbol clock past).Tracks msg := tracks_after h
        cases htracks with
        | entered request body _ lookup =>
            refine ⟨msg.sessionId, request, entry_cons_self body hacc, ?_⟩
            rw [after_cons, lookup, if_pos rfl]
            exact if_pos hi
        | dropped orderId _ accepted => rw [accepted] at hacc; cases hacc
        | kept _ accepted => rw [accepted] at hacc; cases hacc
      · have hne : MatchingEngine.isAccepted msg = true →
            i ≠ (after symbol clock past).nextOrderId := fun hacc heq => hnew ⟨hacc, heq⟩
        obtain ⟨hold, hcancel⟩ := mem_ids_before h hi hne
        obtain ⟨sessionId, request, hentry, hlookup⟩ := ih hpast hold
        refine ⟨sessionId, request, entry_cons h hentry, ?_⟩
        rw [lookup_of_not_cancelled h hne hcancel]
        exact hlookup

/-- An order that a message removes without cancelling it has left by a fill. -/
theorem rests_or_leftByFill
    (hold : i ∈ (after symbol clock past).orderbook.view.ids ∨
      leftByFill symbol clock past i = true)
    (hcancel : (after symbol clock past).bookCall? msg ≠ some (.cancelOrder i)) :
    i ∈ (after symbol clock (msg :: past)).orderbook.view.ids ∨
      leftByFill symbol clock (msg :: past) i = true := by
  by_cases hrests : i ∈ (after symbol clock (msg :: past)).orderbook.view.ids
  · exact Or.inl hrests
  · refine Or.inr ?_
    have hgone : (after symbol clock (msg :: past)).orderbook.rests i = false := by
      rw [← Bool.not_eq_true, Orderbook.rests_iff]
      exact hrests
    rcases hold with hold | hleft
    · rw [leftByFill, Orderbook.rests_iff.mpr hold, hgone]
      simp [hcancel]
    · rw [leftByFill, hleft, Bool.true_or]

/-- **Every tracked order** is tracked under the session that entered it, and it rests or has
left the book by a fill. -/
theorem entered_of_tracked (h : acceptedOrders past < 2 ^ 64)
    (hi : (after symbol clock past).orderToSession.lookup i = some sessionId) :
    (∃ request, entry symbol clock past i = some (sessionId, request)) ∧
      (i ∈ (after symbol clock past).orderbook.view.ids ∨
        leftByFill symbol clock past i = true) := by
  induction past with
  | nil => cases hi
  | cons msg past ih =>
      have hpast := acceptedOrders_lt_of_cons h
      have hkeep : (after symbol clock past).orderToSession.lookup i = some sessionId →
          (after symbol clock past).bookCall? msg ≠ some (.cancelOrder i) →
          (∃ request, entry symbol clock (msg :: past) i = some (sessionId, request)) ∧
            (i ∈ (after symbol clock (msg :: past)).orderbook.view.ids ∨
              leftByFill symbol clock (msg :: past) i = true) := by
        intro hlookup hcancel
        obtain ⟨⟨request, hentry⟩, hold⟩ := ih hpast hlookup
        exact ⟨⟨request, entry_cons h hentry⟩, rests_or_leftByFill hold hcancel⟩
      rw [after_cons] at hi
      have htracks : (after symbol clock past).Tracks msg := tracks_after h
      cases htracks with
      | entered request body accepted lookup =>
          rw [lookup] at hi
          by_cases hid : i = (after symbol clock past).nextOrderId
          · rw [if_pos hid] at hi
            split at hi
            · rename_i hrests
              obtain rfl := Option.some.inj hi
              constructor
              · rw [hid]
                exact ⟨request, entry_cons_self body accepted⟩
              · rw [after_cons]
                exact Or.inl hrests
            · cases hi
          · rw [if_neg hid] at hi
            refine hkeep hi fun hcall => ?_
            simp only [MatchingEngine.bookCall?, body] at hcall
            split at hcall
            · cases hcall
            · cases hcall
      | dropped orderId call _ lookup =>
          rw [lookup] at hi
          split at hi
          · cases hi
          · rename_i hne
            refine hkeep hi fun hcall => hne ?_
            rw [call] at hcall
            exact (BookCall.cancelOrder.inj (Option.some.inj hcall)).symm
      | kept call _ map =>
          rw [map] at hi
          exact hkeep hi (call i)

end Runs

end ExchangeEngine
