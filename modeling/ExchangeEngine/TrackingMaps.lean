import ExchangeEngine.Tracking

/-!
# The Tracking Maps

What the engine knows about the owner of an order is spread over three maps: the session by
order, the client's id by order, and the set of orders by session. One register, from order
ids to a session and a client's id, says the same. This module proves that the three maps
together hold such a register in every state of every run, and reads off what that means for
the orders in the book.

* `Represents`: the three maps hold a register.
* `Represents.processInboundMessage`: every message keeps the maps in agreement, and adds no
  more than the order that it enters.
* `resting_orders_tracked`: every resting order is tracked in all three maps under the session
  and the client's id of its request, the maps agree with each other, and the owner of a
  resting order can cancel it.
-/

open PriceTime

namespace ExchangeEngine

/-- Which session entered an order, and under which client's id, for the orders that are
tracked. -/
abbrev Register :=
  OrderId → Option (SessionId × ClientOrderId)

/-- **The three tracking maps hold a register** between them. -/
structure Represents (e : MatchingEngine) (register : Register) : Prop where
  session : ∀ i, e.orderToSession.lookup i = (register i).map Prod.fst
  client : ∀ i, e.orderToClientOrderId.lookup i = (register i).map Prod.snd
  orders : ∀ s i,
    i ∈ (e.sessionOrders.lookup s).getD ∅ ↔ (register i).map Prod.fst = some s

namespace Represents

variable {e e' : MatchingEngine} {register : Register} {msg : InboundMessage}

theorem fresh (symbol : List UInt8) (clock : ℕ → Timestamp) :
    Represents (.fresh symbol clock) fun _ => none := by
  refine ⟨fun _ => rfl, fun _ => rfl, fun s i => ?_⟩
  constructor <;> intro h <;> cases h

/-- Whether the maps hold a register depends on the maps only. -/
theorem of_maps (h : Represents e register) (hsession : e'.orderToSession = e.orderToSession)
    (hclient : e'.orderToClientOrderId = e.orderToClientOrderId)
    (horders : e'.sessionOrders = e.sessionOrders) : Represents e' register := by
  refine ⟨?_, ?_, ?_⟩
  · rw [hsession]
    exact h.session
  · rw [hclient]
    exact h.client
  · rw [horders]
    exact h.orders

theorem of_core (h : Represents e register) (hcore : e'.core = e.core) :
    Represents e' register := by
  obtain ⟨hsession, hclient, horders⟩ := MatchingEngine.maps_of_core hcore
  exact h.of_maps hsession hclient horders

/-- An order is in the set of the session that it is tracked under, and in no other. -/
theorem mem_sessionOrders (h : Represents e register) (s : SessionId) (i : OrderId) :
    i ∈ (e.sessionOrders.lookup s).getD ∅ ↔ e.orderToSession.lookup i = some s := by
  rw [h.orders, h.session]

/-- An order has a client's id exactly if it is tracked under a session. -/
theorem mem_keys (h : Represents e register) (i : OrderId) :
    i ∈ e.orderToSession ↔ i ∈ e.orderToClientOrderId := by
  rw [← Finmap.lookup_isSome, ← Finmap.lookup_isSome, h.session, h.client, Option.isSome_map,
    Option.isSome_map]

/-- **Tracking an order** that is not tracked enters it into the register. -/
theorem trackOrder (h : Represents e register) {orderId : OrderId}
    (hnew : register orderId = none) (sessionId : SessionId) (clientOrderId : ClientOrderId) :
    Represents (e.trackOrder sessionId orderId clientOrderId)
      (Function.update register orderId (some (sessionId, clientOrderId))) := by
  refine ⟨fun i => ?_, fun i => ?_, fun s i => ?_⟩
  · rw [MatchingEngine.trackOrder, UnorderedMap.lookup_insert_ite, Function.update_apply]
    split
    · rfl
    · exact h.session i
  · rw [MatchingEngine.trackOrder, UnorderedMap.lookup_insert_ite, Function.update_apply]
    split
    · rfl
    · exact h.client i
  · rw [MatchingEngine.trackOrder, UnorderedMap.lookup_insert_ite, Function.update_apply]
    have hown := h.orders s i
    by_cases hi : i = orderId
    · subst hi
      rw [hnew] at hown
      have hgone : i ∉ (e.sessionOrders.lookup s).getD ∅ := fun hmem => by
        cases hown.mp hmem
      split
      · rename_i hs
        subst hs
        simp
      · rename_i hs
        simp [hgone, Ne.symm hs]
    · rw [if_neg hi]
      split
      · rename_i hs
        subst hs
        simp [hi, hown]
      · exact hown

/-- **Untracking an order** of its own session removes it from the register. -/
theorem untrackOrder (h : Represents e register) {orderId : OrderId} {sessionId : SessionId}
    (howner : ∀ p, register orderId = some p → p.1 = sessionId) :
    Represents (e.untrackOrder sessionId orderId)
      (Function.update register orderId none) := by
  refine ⟨fun i => ?_, fun i => ?_, fun s i => ?_⟩
  · rw [MatchingEngine.untrackOrder, UnorderedMap.lookup_erase_ite, Function.update_apply]
    split
    · rfl
    · exact h.session i
  · rw [MatchingEngine.untrackOrder, UnorderedMap.lookup_erase_ite, Function.update_apply]
    split
    · rfl
    · exact h.client i
  · rw [MatchingEngine.untrackOrder, UnorderedMap.lookup_insert_ite, Function.update_apply]
    have hown := h.orders s i
    by_cases hi : i = orderId
    · subst hi
      rw [if_pos rfl]
      split
      · simp
      · rename_i hs
        have hgone : i ∉ (e.sessionOrders.lookup s).getD ∅ := by
          intro hmem
          obtain ⟨p, hp, hps⟩ := Option.map_eq_some_iff.mp (hown.mp hmem)
          exact hs (hps.symm.trans (howner p hp))
        simp [hgone]
    · rw [if_neg hi]
      split
      · rename_i hs
        subst hs
        simp [hi, hown]
      · exact hown

/-- Entering an order into the book tracks it. -/
theorem enterOrder (h : Represents e register) (hnew : register e.nextOrderId = none)
    (sessionId : SessionId) (request : NewOrderRequest) (side : BuySell)
    (orderType : OrderType) :
    Represents (e.enterOrder sessionId request side orderType)
      (Function.update register e.nextOrderId
        (some (sessionId, request.clientOrderId))) := by
  obtain ⟨hsession, hclient, horders⟩ := h.trackOrder hnew sessionId request.clientOrderId
  exact ⟨hsession, hclient, horders⟩

/-- An accepted request adds its order to the register, or nothing if the order does not
rest. -/
theorem acceptNewOrder (h : Represents e register) (hnew : register e.nextOrderId = none)
    (sessionId : SessionId) (request : NewOrderRequest) (side : BuySell)
    (orderType : OrderType) :
    ∃ register', Represents (e.acceptNewOrder sessionId request side orderType) register' ∧
      ∀ i p, register' i = some p → register i = some p ∨
        i = e.nextOrderId ∧ p = (sessionId, request.clientOrderId) := by
  have hentered := h.enterOrder hnew sessionId request side orderType
  have hcore := e.core_acceptNewOrder sessionId request side orderType
  simp only at hcore
  split at hcore
  · have howner : ∀ p, Function.update register e.nextOrderId
        (some (sessionId, request.clientOrderId)) e.nextOrderId = some p → p.1 = sessionId := by
      intro p hp
      rw [Function.update_self] at hp
      exact congrArg Prod.fst (Option.some.inj hp).symm
    refine ⟨_, (hentered.untrackOrder howner).of_core hcore, fun i p hp => Or.inl ?_⟩
    rw [Function.update_apply] at hp
    split at hp
    · cases hp
    · rename_i hi
      rwa [Function.update_of_ne hi] at hp
  · refine ⟨_, hentered.of_core hcore, fun i p hp => ?_⟩
    rw [Function.update_apply] at hp
    split at hp
    · rename_i hi
      exact Or.inr ⟨hi, (Option.some.inj hp).symm⟩
    · exact Or.inl hp

/-- An acknowledged cancel removes its order from the register. -/
theorem cancelTracked (h : Represents e register) {sessionId owner : SessionId}
    {orderId : OrderId} (auth : e.authorize sessionId orderId = some owner) :
    Represents (e.cancelTracked owner orderId) (Function.update register orderId none) := by
  have hcancel : Represents { e with orderbook := e.orderbook.cancelOrder orderId } register :=
    ⟨h.session, h.client, h.orders⟩
  refine hcancel.untrackOrder fun p hp => ?_
  have hlookup := h.session orderId
  rw [hp, Option.map_some] at hlookup
  simp only [MatchingEngine.authorize, hlookup] at auth
  split at auth
  · cases auth
  · exact Option.some.inj auth

/-- **A message keeps the maps in agreement.** The register loses orders, or gains the order
that the message enters. -/
theorem processInboundMessage (h : Represents e register)
    (hnew : MatchingEngine.isAccepted msg = true → register e.nextOrderId = none) :
    ∃ register', Represents (e.processInboundMessage msg) register' ∧
      ∀ i p, register' i = some p → register i = some p ∨
        ∃ request, msg.body = .newOrder request ∧ MatchingEngine.isAccepted msg = true ∧
          i = e.nextOrderId ∧ p = (msg.sessionId, request.clientOrderId) := by
  have hcount : Represents e.countOrder register := ⟨h.session, h.client, h.orders⟩
  cases e.handled msg with
  | newRejected request reason _ _ _ _ result =>
      refine ⟨register, ?_, fun i p => Or.inl⟩
      rw [result]
      exact hcount.of_core rfl
  | newAccepted request side orderType body _ _ accepted result =>
      obtain ⟨register', hrep, hsub⟩ :=
        hcount.acceptNewOrder (hnew accepted) msg.sessionId request side orderType
      rw [result]
      refine ⟨register', hrep, fun i p hp => ?_⟩
      rcases hsub i p hp with hold | ⟨hi, hp'⟩
      · exact Or.inl hold
      · exact Or.inr ⟨request, body, accepted, hi, hp'⟩
  | cancelRejected request _ _ _ _ result =>
      refine ⟨register, ?_, fun i p => Or.inl⟩
      rw [result]
      exact h.of_core rfl
  | cancelled request owner _ auth _ _ result =>
      rw [result]
      refine ⟨_, (h.cancelTracked auth).of_core rfl, fun i p hp => Or.inl ?_⟩
      rw [Function.update_apply] at hp
      split at hp
      · cases hp
      · exact hp
  | modifyRejected request reason _ _ _ _ result =>
      refine ⟨register, ?_, fun i p => Or.inl⟩
      rw [result]
      exact h.of_core rfl
  | modified request _ _ _ _ result =>
      refine ⟨register, ?_, fun i p => Or.inl⟩
      have hcore := e.core_acceptModifyOrder msg.sessionId request
      have hsession : (e.acceptModifyOrder msg.sessionId request).orderToSession =
          e.orderToSession := congrArg EngineCore.orderToSession hcore
      have hclient : (e.acceptModifyOrder msg.sessionId request).orderToClientOrderId =
          e.orderToClientOrderId := congrArg EngineCore.orderToClientOrderId hcore
      have horders : (e.acceptModifyOrder msg.sessionId request).sessionOrders =
          e.sessionOrders := congrArg EngineCore.sessionOrders hcore
      rw [result]
      exact h.of_maps hsession hclient horders

end Represents

/-! ### The maps over runs -/

variable (symbol : List UInt8) (clock : ℕ → Timestamp)

/-- **The maps agree after every run**, on the sessions and the client's ids of the requests
that entered the tracked orders. -/
theorem represents_after {past : List InboundMessage} (h : acceptedOrders past < 2 ^ 64) :
    ∃ register, Represents (after symbol clock past) register ∧
      ∀ i p, register i = some p → ∃ request,
        entry symbol clock past i = some (p.1, request) ∧ request.clientOrderId = p.2 := by
  induction past with
  | nil => exact ⟨_, .fresh symbol clock, fun i p hp => by cases hp⟩
  | cons msg past ih =>
      have hpast := acceptedOrders_lt_of_cons h
      obtain ⟨register, hrep, hentries⟩ := ih hpast
      have hnew : MatchingEngine.isAccepted msg = true →
          register (after symbol clock past).nextOrderId = none := by
        intro hacc
        refine Option.eq_none_iff_forall_ne_some.mpr fun p hp => ?_
        obtain ⟨request, hentry, -⟩ := hentries _ p hp
        rw [entry_nextOrderId h hacc] at hentry
        cases hentry
      obtain ⟨register', hrep', hsub⟩ := hrep.processInboundMessage hnew
      refine ⟨register', hrep', fun i p hp => ?_⟩
      rcases hsub i p hp with hold | ⟨request, hbody, hacc, rfl, rfl⟩
      · obtain ⟨request, hentry, hclient⟩ := hentries i p hold
        exact ⟨request, entry_cons h hentry, hclient⟩
      · exact ⟨request, entry_cons_self hbody hacc, rfl⟩

/-- **Resting orders are tracked correctly**, and the tracking maps agree. -/
structure TracksResting (past : List InboundMessage) (e : MatchingEngine) : Prop where
  resting : ∀ p ∈ e.orderbook.resting, ∃ request,
    let o := e.orderbook.heap.read p
    entry symbol clock past o.orderId = some (o.sessionId, request) ∧
    e.orderToSession.lookup o.orderId = some o.sessionId ∧
    e.orderToClientOrderId.lookup o.orderId = some request.clientOrderId ∧
    o.orderId ∈ (e.sessionOrders.lookup o.sessionId).getD ∅
  sessionOrders : ∀ sessionId orderId,
    orderId ∈ (e.sessionOrders.lookup sessionId).getD ∅ ↔
      e.orderToSession.lookup orderId = some sessionId
  keys : ∀ orderId, orderId ∈ e.orderToSession ↔ orderId ∈ e.orderToClientOrderId
  cancellable : ∀ p ∈ e.orderbook.resting, ∀ request : CancelOrderRequest,
    let o := e.orderbook.heap.read p
    let e' := e.processInboundMessage ⟨o.sessionId, .cancelOrder request⟩
    request.orderId = o.orderId →
      (∀ q ∈ e'.orderbook.resting, (e'.orderbook.heap.read q).orderId ≠ o.orderId) ∧
      e'.outboundQueue = e.outboundQueue ++ [⟨o.sessionId, .cancelAck
        { header := e.header .cancelAck, clientOrderId := request.clientOrderId,
          orderId := o.orderId }⟩]

/-- A session can cancel an order that is tracked under it. -/
theorem cancel_of_tracked {e : MatchingEngine} (hwf : e.orderbook.Wf) {sessionId : SessionId}
    (request : CancelOrderRequest)
    (htracked : e.orderToSession.lookup request.orderId = some sessionId) :
    request.orderId ∉ (e.processInboundMessage
      ⟨sessionId, .cancelOrder request⟩).orderbook.view.ids ∧
    (e.processInboundMessage ⟨sessionId, .cancelOrder request⟩).outboundQueue =
      e.outboundQueue ++ [⟨sessionId, .cancelAck
        { header := e.header .cancelAck, clientOrderId := request.clientOrderId,
          orderId := request.orderId }⟩] := by
  have hauth : e.authorize sessionId request.orderId = some sessionId := by
    simp [MatchingEngine.authorize, htracked]
  have hview := (Orderbook.cancelOrder_spec hwf request.orderId).2.1
  constructor
  · rw [MatchingEngine.orderbook_of_call (c := .cancelOrder request.orderId)
      (by simp only [MatchingEngine.bookCall?, hauth]), Orderbook.call, hview]
    exact fun hmem => (Book.mem_ids_withdraw.mp hmem).2 rfl
  · simp only [MatchingEngine.processInboundMessage, MatchingEngine.handleCancelOrder, hauth]
    rfl

/-- Where the maps have a resting order: under its own session and the client's id of its
request. -/
theorem tracked_of_mem_resting {past : List InboundMessage} (h : acceptedOrders past < 2 ^ 64)
    {p : OrderPointer} (hp : p ∈ (after symbol clock past).orderbook.resting) :
    ∃ request,
      let o := (after symbol clock past).orderbook.heap.read p
      entry symbol clock past o.orderId = some (o.sessionId, request) ∧
      (after symbol clock past).orderToSession.lookup o.orderId = some o.sessionId ∧
      (after symbol clock past).orderToClientOrderId.lookup o.orderId =
        some request.clientOrderId ∧
      o.orderId ∈ ((after symbol clock past).sessionOrders.lookup o.sessionId).getD ∅ := by
  obtain ⟨register, hrep, hentries⟩ := represents_after symbol clock h
  have hwf := (after_inv symbol clock h).book.wf
  obtain ⟨s, hs⟩ := hwf.exists_side hp
  obtain ⟨request, hentry, -, -⟩ := entered_after symbol clock h s _
    (hwf.mem_side.mpr ⟨p, hp, hs, rfl⟩)
  have hmem : ((after symbol clock past).orderbook.heap.read p).orderId ∈
      (after symbol clock past).orderbook.view.ids :=
    Book.mem_ids.mpr ⟨s, _, hwf.mem_side.mpr ⟨p, hp, hs, rfl⟩, rfl⟩
  obtain ⟨sessionId, request', hentry', hlookup⟩ := tracked_of_resting h hmem
  obtain ⟨rfl, rfl⟩ := Prod.mk.inj (Option.some.inj (hentry'.symm.trans hentry))
  obtain ⟨q, hq, hqs⟩ := Option.map_eq_some_iff.mp ((hrep.session _).symm.trans hlookup)
  obtain ⟨request'', hentry'', hclient⟩ := hentries _ q hq
  obtain ⟨-, rfl⟩ := Prod.mk.inj (Option.some.inj (hentry''.symm.trans hentry'))
  refine ⟨request'', hentry, hlookup, ?_, ?_⟩
  · rw [hrep.client, hq, hclient]
    rfl
  · rw [hrep.orders, hq, Option.map_some, hqs]
    rfl

/-- **Every resting order is correctly tracked** after every run: all three maps have it under
the session and the client's id of its request, the maps agree with each other, and the owner
of a resting order can cancel it. -/
theorem resting_orders_tracked (past : List InboundMessage)
    (h : acceptedOrders past < 2 ^ 64) :
    TracksResting symbol clock past (after symbol clock past) := by
  obtain ⟨register, hrep, -⟩ := represents_after symbol clock h
  have hwf := (after_inv symbol clock h).book.wf
  refine ⟨fun p hp => tracked_of_mem_resting symbol clock h hp, hrep.mem_sessionOrders,
    hrep.mem_keys, fun p hp request hid => ?_⟩
  obtain ⟨_, -, hlookup, -⟩ := tracked_of_mem_resting symbol clock h hp
  rw [← hid] at hlookup ⊢
  obtain ⟨hgone, hsent⟩ := cancel_of_tracked hwf request hlookup
  exact ⟨fun q hq heq => hgone (Orderbook.mem_ids_view.mpr ⟨q, hq, heq⟩), hsent⟩

/-- A run in which a resting order is partly filled by another session's order, which does not
rest, and is then modified by its own session. -/
def keptOrderRun : List InboundMessage :=
  [modifyOrderMessage 1 1 101 6, limitOrderMessage 2 .sell 100 3, limitOrderMessage 1 .buy 100 10]

theorem resting_orders_tracked_keptOrderRun :
    (after [] (fun _ => 0) keptOrderRun).orderbook.view.ids = [1] ∧
    TracksResting [] (fun _ => 0) keptOrderRun (after [] (fun _ => 0) keptOrderRun) :=
  ⟨by decide, resting_orders_tracked [] (fun _ => 0) keptOrderRun (by decide)⟩

end ExchangeEngine
