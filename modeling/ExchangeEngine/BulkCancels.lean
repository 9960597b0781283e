import ExchangeEngine.Cancels
import ExchangeEngine.TrackingMaps

/-!
# Bulk Cancels

`cancelSessionOrders` cancels all orders of a session in one go. It takes the ids from a set, in
whatever order a loop over the set visits them, checks no ownership, and drops the session's set
as a whole. The session could instead ask for each cancel in a message of its own.

* `levels_foldl_cancelOrder`: any number of cancels take out the orders with one of the ids, so
  their order does not matter.
* `bulkCancelled`, `cancelledOneByOne`: what the two ways of cancelling do to the book and to the
  tracking maps.

## Main results

* `bulk_cancel_agrees`: the two ways agree, and leave the orders of other sessions and the
  agreement of the tracking maps as they were, in runs in which fewer than `2 ^ 64` orders are
  accepted.
* `not_bulkCancelAgrees_wrappedRun`: they differ when two orders have one id.
-/

open PriceTime

namespace ExchangeEngine

/-! ### Any number of cancels -/

namespace Orderbook

variable {b : Orderbook} {q : OrderPointer}

/-- **Any number of cancels** take out of both sides the orders with one of the ids. -/
theorem Wf.levels_foldl_cancelOrder (h : b.Wf) (ids : List OrderId) (s : Side) :
    (ids.foldl cancelOrder b).levels s =
      keepOrders (fun p => (b.heap.read p).orderId ∉ ids) (b.levels s) := by
  induction ids generalizing b with
  | nil => exact (keepOrders_eq_self (h.noEmptyLevel s) fun p _ => by simp).symm
  | cons i ids ih =>
      rw [List.foldl_cons, ih (cancelOrder_spec h i).1, h.levels_cancelOrder,
        keepOrders_keepOrders]
      simp only [orderId_cancelOrder, List.mem_cons, not_or, ← Bool.decide_and, and_comm]

theorem lookup_foldl_cancelOrder (b : Orderbook) (ids : List OrderId) (j : OrderId) :
    (ids.foldl cancelOrder b).orders.lookup j = if j ∈ ids then none else b.orders.lookup j := by
  induction ids generalizing b with
  | nil => rfl
  | cons i ids ih =>
      rw [List.foldl_cons, ih, orders_cancelOrder, UnorderedMap.ite_lookup_erase]

/-- Cancels write to no resting order with another id. -/
theorem Wf.read_foldl_cancelOrder (h : b.Wf) {ids : List OrderId}
    (hq : (b.heap.read q).orderId ∉ ids) :
    (ids.foldl cancelOrder b).heap.read q = b.heap.read q := by
  induction ids generalizing b with
  | nil => rfl
  | cons i ids ih =>
      rw [List.mem_cons, not_or] at hq
      have hread : (b.cancelOrder i).heap.read q = b.heap.read q :=
        read_cancelOrder_of_ne fun hlook => hq.1 ((h.index.lookup i q).mp hlook).2
      rw [List.foldl_cons, ih (cancelOrder_spec h i).1 (by rw [hread]; exact hq.2), hread]

end Orderbook

/-! ### The two ways of cancelling -/

namespace MatchingEngine

variable {e e' : MatchingEngine} {sessionId : SessionId}

/-- The orders that the engine tracks for a session. -/
def ordersOf (e : MatchingEngine) (sessionId : SessionId) : Finset OrderId :=
  (e.sessionOrders.lookup sessionId).getD ∅

/-- A session asks for cancels one by one. -/
def cancelOneByOne (e : MatchingEngine) (sessionId : SessionId)
    (requests : List CancelOrderRequest) : MatchingEngine :=
  requests.foldl (fun e request => e.processInboundMessage ⟨sessionId, .cancelOrder request⟩) e

/-- **The orders `ids` of a session are cancelled** in the book and in the two maps from order
ids. -/
structure Cancelled (e : MatchingEngine) (ids : List OrderId) (e' : MatchingEngine) : Prop where
  orderbook : e'.orderbook = ids.foldl Orderbook.cancelOrder e.orderbook
  session : ∀ i, e'.orderToSession.lookup i =
    if i ∈ ids then none else e.orderToSession.lookup i
  client : ∀ i, e'.orderToClientOrderId.lookup i =
    if i ∈ ids then none else e.orderToClientOrderId.lookup i

/-- **A bulk cancel** cancels the orders and drops the session's set. -/
theorem bulkCancelled (e : MatchingEngine) (sessionId : SessionId) (ids : List OrderId) :
    e.Cancelled ids (e.cancelSessionOrders sessionId ids) ∧
      (e.cancelSessionOrders sessionId ids).sessionOrders = e.sessionOrders.erase sessionId := by
  have hfold : ∀ (ids : List OrderId) (e : MatchingEngine),
      e.Cancelled ids (ids.foldl cancelForSession e) ∧
        (ids.foldl cancelForSession e).sessionOrders = e.sessionOrders := by
    intro ids
    induction ids with
    | nil => exact fun e => ⟨⟨rfl, fun _ => rfl, fun _ => rfl⟩, rfl⟩
    | cons i ids ih =>
        intro e
        obtain ⟨⟨hbook, hsession, hclient⟩, horders⟩ := ih (e.cancelForSession i)
        exact ⟨⟨hbook, fun j => (hsession j).trans (e.orderToSession.ite_lookup_erase i j ids),
          fun j => (hclient j).trans (e.orderToClientOrderId.ite_lookup_erase i j ids)⟩, horders⟩
  obtain ⟨⟨hbook, hsession, hclient⟩, horders⟩ := hfold ids e
  simp only [cancelSessionOrders]
  split
  · exact ⟨⟨hbook, hsession, hclient⟩, by rw [horders]⟩
  · exact ⟨⟨hbook, hsession, hclient⟩, congrArg (Finmap.erase sessionId) horders⟩

/-- A request to cancel an order of the session's own is carried out. -/
theorem core_cancel_own {request : CancelOrderRequest}
    (hown : e.orderToSession.lookup request.orderId = some sessionId) :
    (e.processInboundMessage ⟨sessionId, .cancelOrder request⟩).core =
      (e.cancelTracked sessionId request.orderId).core := by
  have hauth : e.authorize sessionId request.orderId = some sessionId := by
    simp [authorize, hown]
  simp only [processInboundMessage, handleCancelOrder, hauth]
  rfl

/-- **Cancels one by one**, of orders of the session's own, cancel the orders and take them out
of the session's set. -/
theorem cancelledOneByOne {requests : List CancelOrderRequest}
    (hnd : (requests.map (·.orderId)).Nodup)
    (hown : ∀ request ∈ requests, e.orderToSession.lookup request.orderId = some sessionId) :
    e.Cancelled (requests.map (·.orderId)) (e.cancelOneByOne sessionId requests) ∧
      (∀ s, s ≠ sessionId →
        (e.cancelOneByOne sessionId requests).sessionOrders.lookup s = e.sessionOrders.lookup s) ∧
      (e.cancelOneByOne sessionId requests).ordersOf sessionId =
        e.ordersOf sessionId \ (requests.map (·.orderId)).toFinset := by
  induction requests generalizing e with
  | nil => exact ⟨⟨rfl, fun _ => rfl, fun _ => rfl⟩, fun _ _ => rfl, by simp [cancelOneByOne]⟩
  | cons request requests ih =>
      rw [List.map_cons, List.nodup_cons] at hnd
      have hcore := core_cancel_own (hown request List.mem_cons_self)
      have hbook₁ := congrArg EngineCore.orderbook hcore
      have hsession₁ := congrArg EngineCore.orderToSession hcore
      have hclient₁ := congrArg EngineCore.orderToClientOrderId hcore
      have horders₁ := congrArg EngineCore.sessionOrders hcore
      simp only [core, cancelTracked, untrackOrder] at hbook₁ hsession₁ hclient₁ horders₁
      obtain ⟨⟨hbook, hsession, hclient⟩, hothers, hset⟩ :=
        ih (e := e.processInboundMessage ⟨sessionId, .cancelOrder request⟩) hnd.2 (by
          intro other hmem
          have hne : other.orderId ≠ request.orderId :=
            fun heq => hnd.1 (heq ▸ List.mem_map_of_mem hmem)
          rw [hsession₁, UnorderedMap.lookup_erase_ite, if_neg hne]
          exact hown other (List.mem_cons_of_mem _ hmem))
      rw [cancelOneByOne, List.foldl_cons, ← cancelOneByOne, List.map_cons]
      refine ⟨⟨?_, fun j => ?_, fun j => ?_⟩, fun s hs => ?_, ?_⟩
      · rw [hbook, hbook₁]
        rfl
      · rw [hsession, hsession₁, UnorderedMap.ite_lookup_erase]
      · rw [hclient, hclient₁, UnorderedMap.ite_lookup_erase]
      · rw [hothers s hs, horders₁, UnorderedMap.lookup_insert_ite, if_neg hs]
      · rw [hset, ordersOf, horders₁, UnorderedMap.lookup_insert_ite, if_pos rfl,
          Option.getD_some, ← ordersOf, List.toFinset_cons]
        ext j
        simp only [Finset.mem_sdiff, Finset.mem_erase, Finset.mem_insert, not_or]
        tauto

/-! ### What a bulk cancel promises -/

/-- A list in which a loop over a set visits its members. -/
structure Visits (ids : List OrderId) (orderIds : Finset OrderId) : Prop where
  nodup : ids.Nodup
  toFinset : ids.toFinset = orderIds

theorem Visits.mem_iff {ids : List OrderId} {orderIds : Finset OrderId}
    (h : Visits ids orderIds) {i : OrderId} : i ∈ ids ↔ i ∈ orderIds := by
  rw [← h.toFinset, List.mem_toFinset]

/-- Two engines have the same orders on both sides of the book and in the index, and track the
same orders under the same sessions and client's ids. -/
structure SameOrders (e e' : MatchingEngine) : Prop where
  bids : e'.orderbook.bids = e.orderbook.bids
  asks : e'.orderbook.asks = e.orderbook.asks
  orders : e'.orderbook.orders = e.orderbook.orders
  read : ∀ p ∈ e.orderbook.resting, e'.orderbook.heap.read p = e.orderbook.heap.read p
  orderToSession : e'.orderToSession = e.orderToSession
  orderToClientOrderId : e'.orderToClientOrderId = e.orderToClientOrderId

/-- **The tracking maps agree**: an order is in the set of the session that it is tracked under
and in no other, and has a client's id exactly if it is tracked. -/
structure MapsAgree (e : MatchingEngine) : Prop where
  sessionOrders : ∀ sessionId orderId,
    orderId ∈ e.ordersOf sessionId ↔ e.orderToSession.lookup orderId = some sessionId
  keys : ∀ orderId, orderId ∈ e.orderToSession ↔ orderId ∈ e.orderToClientOrderId

/-- **The bulk cancel of a session** does the same in whatever order it visits the orders, and
the same as requests of the session for each of them in any order, up to the empty set that these
leave behind. No order of the session is left, the orders of the other sessions stay as they are
and where they are, and the tracking maps agree. -/
structure BulkCancelAgrees (e : MatchingEngine) (sessionId : SessionId) : Prop where
  independent : ∀ ids ids', Visits ids (e.ordersOf sessionId) →
    Visits ids' (e.ordersOf sessionId) →
    SameOrders (e.cancelSessionOrders sessionId ids) (e.cancelSessionOrders sessionId ids') ∧
    (e.cancelSessionOrders sessionId ids').sessionOrders =
      (e.cancelSessionOrders sessionId ids).sessionOrders
  oneByOne : ∀ ids, ∀ requests : List CancelOrderRequest, Visits ids (e.ordersOf sessionId) →
    Visits (requests.map (·.orderId)) (e.ordersOf sessionId) →
    SameOrders (e.cancelSessionOrders sessionId ids) (e.cancelOneByOne sessionId requests) ∧
    (e.cancelOneByOne sessionId requests).sessionOrders.erase sessionId =
      (e.cancelSessionOrders sessionId ids).sessionOrders ∧
    (e.cancelOneByOne sessionId requests).ordersOf sessionId = ∅
  gone : ∀ ids, Visits ids (e.ordersOf sessionId) →
    ∀ p ∈ (e.cancelSessionOrders sessionId ids).orderbook.resting,
      ((e.cancelSessionOrders sessionId ids).orderbook.heap.read p).sessionId ≠ sessionId
  others : ∀ ids, Visits ids (e.ordersOf sessionId) →
    (∀ s, (e.cancelSessionOrders sessionId ids).orderbook.levels s =
      keepOrders (fun p => (e.orderbook.heap.read p).sessionId ≠ sessionId)
        (e.orderbook.levels s)) ∧
    ∀ p ∈ e.orderbook.resting, (e.orderbook.heap.read p).sessionId ≠ sessionId →
      (e.cancelSessionOrders sessionId ids).orderbook.heap.read p = e.orderbook.heap.read p
  consistent : ∀ ids, Visits ids (e.ordersOf sessionId) →
    MapsAgree (e.cancelSessionOrders sessionId ids)

/-- Two ways of cancelling the same orders come to the same. -/
theorem Cancelled.sameOrders (hwf : e.orderbook.Wf) {ids ids' : List OrderId}
    {e₁ e₂ : MatchingEngine} (h₁ : e.Cancelled ids e₁) (h₂ : e.Cancelled ids' e₂)
    (hids : ∀ i, i ∈ ids ↔ i ∈ ids') : SameOrders e₁ e₂ := by
  have hlevels : ∀ s, e₂.orderbook.levels s = e₁.orderbook.levels s := by
    intro s
    rw [h₁.orderbook, h₂.orderbook, hwf.levels_foldl_cancelOrder, hwf.levels_foldl_cancelOrder]
    simp only [hids]
  refine ⟨SortedMap.ext (hlevels .bid), SortedMap.ext (hlevels .ask), ?_, fun p hp => ?_, ?_, ?_⟩
  · refine Finmap.ext_lookup fun i => ?_
    rw [h₁.orderbook, h₂.orderbook, Orderbook.lookup_foldl_cancelOrder,
      Orderbook.lookup_foldl_cancelOrder]
    simp only [hids]
  · rw [h₁.orderbook] at hp
    -- an order that still rests has none of the ids
    obtain ⟨s, hs⟩ := Orderbook.mem_resting.mp hp
    rw [hwf.levels_foldl_cancelOrder, pointers_keepOrders, List.mem_filter,
      decide_eq_true_iff] at hs
    rw [h₁.orderbook, h₂.orderbook, hwf.read_foldl_cancelOrder hs.2,
      hwf.read_foldl_cancelOrder (mt (hids _).mpr hs.2)]
  · refine Finmap.ext_lookup fun i => ?_
    rw [h₁.session, h₂.session]
    simp only [hids]
  · refine Finmap.ext_lookup fun i => ?_
    rw [h₁.client, h₂.client]
    simp only [hids]

end MatchingEngine

/-- Maps that hold a register agree. -/
theorem Represents.mapsAgree {e : MatchingEngine} {register : Register}
    (h : Represents e register) : e.MapsAgree :=
  ⟨h.mem_sessionOrders, h.mem_keys⟩

/-- **A bulk cancel** of all orders of a session takes them out of the register. -/
theorem Represents.cancelSessionOrders {e : MatchingEngine} {register : Register}
    (h : Represents e register) {sessionId : SessionId} {ids : List OrderId}
    (hids : MatchingEngine.Visits ids (e.ordersOf sessionId)) :
    Represents (e.cancelSessionOrders sessionId ids)
      fun i => if i ∈ ids then none else register i := by
  obtain ⟨hcancelled, horders⟩ := e.bulkCancelled sessionId ids
  have hmem : ∀ i, i ∈ ids ↔ (register i).map Prod.fst = some sessionId :=
    fun i => hids.mem_iff.trans (h.orders sessionId i)
  refine ⟨fun i => ?_, fun i => ?_, fun s i => ?_⟩
  · rw [hcancelled.session, h.session]
    split <;> rfl
  · rw [hcancelled.client, h.client]
    split <;> rfl
  · rw [horders, UnorderedMap.lookup_erase_ite]
    split
    · rename_i hs
      subst hs
      refine iff_of_false (Finset.notMem_empty i) ?_
      split
      · exact nofun
      · rename_i hi
        exact mt (hmem i).mpr hi
    · rename_i hs
      rw [h.orders]
      split
      · rename_i hi
        rw [(hmem i).mp hi]
        exact iff_of_false (fun heq => hs (Option.some.inj heq).symm) nofun
      · exact Iff.rfl

namespace MatchingEngine

variable {e : MatchingEngine} {sessionId : SessionId} {ids : List OrderId}

/-- **What a bulk cancel leaves** in the book: the orders of other sessions, as they were. -/
theorem others_cancelSessionOrders (hwf : e.orderbook.Wf)
    (howner : ∀ p ∈ e.orderbook.resting, (e.orderbook.heap.read p).orderId ∈ e.ordersOf sessionId ↔
      (e.orderbook.heap.read p).sessionId = sessionId)
    (hids : Visits ids (e.ordersOf sessionId)) :
    (∀ s, (e.cancelSessionOrders sessionId ids).orderbook.levels s =
      keepOrders (fun p => (e.orderbook.heap.read p).sessionId ≠ sessionId)
        (e.orderbook.levels s)) ∧
    ∀ p ∈ e.orderbook.resting, (e.orderbook.heap.read p).sessionId ≠ sessionId →
      (e.cancelSessionOrders sessionId ids).orderbook.heap.read p = e.orderbook.heap.read p := by
  have hbook := (e.bulkCancelled sessionId ids).1.orderbook
  refine ⟨fun s => ?_, fun p hp hne => ?_⟩
  · rw [hbook, hwf.levels_foldl_cancelOrder]
    refine keepOrders_congr fun p hp => ?_
    simp only [hids.mem_iff, howner p (Orderbook.mem_resting.mpr ⟨s, hp⟩), ne_eq]
  · rw [hbook]
    refine hwf.read_foldl_cancelOrder ?_
    rw [hids.mem_iff, howner p hp]
    exact hne

end MatchingEngine

/-- **The two ways of cancelling agree** where the maps hold a register and the orders of a session
in the book are in its set. -/
theorem Represents.bulkCancelAgrees {e : MatchingEngine} {register : Register}
    (h : Represents e register) (hwf : e.orderbook.Wf) {sessionId : SessionId}
    (howner : ∀ p ∈ e.orderbook.resting, (e.orderbook.heap.read p).orderId ∈ e.ordersOf sessionId ↔
      (e.orderbook.heap.read p).sessionId = sessionId) : e.BulkCancelAgrees sessionId := by
  have hbulk := fun ids => e.bulkCancelled sessionId ids
  refine ⟨fun ids ids' hids hids' => ⟨?_, ?_⟩, fun ids requests hids hids' => ?_,
    fun ids hids p hp => ?_,
    fun ids hids => MatchingEngine.others_cancelSessionOrders hwf howner hids,
    fun ids hids => (h.cancelSessionOrders hids).mapsAgree⟩
  · exact (hbulk ids).1.sameOrders hwf (hbulk ids').1 fun i => hids.mem_iff.trans hids'.mem_iff.symm
  · rw [(hbulk ids').2, (hbulk ids).2]
  · have hown : ∀ request ∈ requests,
        e.orderToSession.lookup request.orderId = some sessionId := by
      intro request hmem
      rw [← h.mapsAgree.sessionOrders, ← hids'.mem_iff]
      exact List.mem_map_of_mem hmem
    obtain ⟨hone, hothers, hset⟩ := MatchingEngine.cancelledOneByOne hids'.nodup hown
    refine ⟨(hbulk ids).1.sameOrders hwf hone fun i => hids.mem_iff.trans hids'.mem_iff.symm, ?_,
      ?_⟩
    · rw [(hbulk ids).2]
      refine Finmap.ext_lookup fun s => ?_
      rw [UnorderedMap.lookup_erase_ite, UnorderedMap.lookup_erase_ite]
      split
      · rfl
      · rename_i hs
        exact hothers s hs
    · rw [hset, hids'.toFinset, Finset.sdiff_self]
  · obtain ⟨hlevels, hread⟩ := MatchingEngine.others_cancelSessionOrders hwf howner hids
    obtain ⟨s, hs⟩ := Orderbook.mem_resting.mp hp
    rw [hlevels, pointers_keepOrders, List.mem_filter, decide_eq_true_iff] at hs
    rw [hread p (Orderbook.mem_resting.mpr ⟨s, hs.1⟩) hs.2]
    exact hs.2

section Runs

variable (symbol : List UInt8) (clock : ℕ → Timestamp)

/-- **The two ways of cancelling agree** after every run in which no order id is given out
twice. -/
theorem bulk_cancel_agrees (past : List InboundMessage) (h : acceptedOrders past < 2 ^ 64)
    (sessionId : SessionId) : (after symbol clock past).BulkCancelAgrees sessionId := by
  obtain ⟨register, hrep, -⟩ := represents_after symbol clock h
  refine hrep.bulkCancelAgrees (after_inv symbol clock h).book.wf fun p hp => ?_
  obtain ⟨-, -, hlookup, -⟩ := tracked_of_mem_resting symbol clock h hp
  rw [hrep.mapsAgree.sessionOrders, hlookup, Option.some.injEq]

end Runs

/-- A run after which the first client has orders on both sides, two of them around an order of the
second. -/
def aroundRun : List InboundMessage :=
  [limitOrderMessage 1 .sell 105 2, limitOrderMessage 1 .buy 100 3, limitOrderMessage 2 .buy 100 4,
    limitOrderMessage 1 .buy 100 5]

theorem bulk_cancel_agrees_aroundRun :
    (after [] (fun _ => 0) aroundRun).ordersOf 1 = {1, 3, 4} ∧
    (after [] (fun _ => 0) aroundRun).BulkCancelAgrees 1 :=
  ⟨by decide, bulk_cancel_agrees [] (fun _ => 0) aroundRun (by decide) 1⟩

/-! ### Two orders with one id -/

/-- A request for a new order leaves the orders of other sessions tracked as they are. -/
theorem lookup_sessionOrders_of_newOrder (e : MatchingEngine) {msg : InboundMessage}
    {request : NewOrderRequest} (hbody : msg.body = .newOrder request) {s : SessionId}
    (hs : s ≠ msg.sessionId) :
    (e.processInboundMessage msg).sessionOrders.lookup s = e.sessionOrders.lookup s := by
  cases e.handled msg with
  | newRejected request reason _ _ _ _ result =>
      rw [result]
      rfl
  | newAccepted request side orderType _ _ _ _ result =>
      rw [result]
      have hentered : (e.countOrder.enterOrder msg.sessionId request side
          orderType).sessionOrders.lookup s = e.sessionOrders.lookup s :=
        Finmap.lookup_insert_of_ne _ hs
      have hcore := e.countOrder.core_acceptNewOrder msg.sessionId request side orderType
      simp only at hcore
      split at hcore
      · have horders := congrArg EngineCore.sessionOrders hcore
        simp only [MatchingEngine.core, MatchingEngine.untrackOrder] at horders
        rw [horders]
        exact (Finmap.lookup_insert_of_ne _ hs).trans hentered
      · have horders := congrArg EngineCore.sessionOrders hcore
        simp only [MatchingEngine.core] at horders
        rw [horders]
        exact hentered
  | cancelRejected request body => cases hbody.symm.trans body
  | cancelled request owner body => cases hbody.symm.trans body
  | modifyRejected request reason body => cases hbody.symm.trans body
  | modified request body => cases hbody.symm.trans body

/-- After a run in which the counter has wrapped around, session 1 still has its order in its
set. -/
theorem ordersOf_wrappedRun (n : ℕ) :
    (after [] (fun _ => 0) (wrappedRun n)).ordersOf 1 = {1} := by
  have hother : ∀ k : ℕ, (after [] (fun _ => 0)
      (List.replicate k (newOrderMessage 2 .sell 3 0 1) ++
        [limitOrderMessage 1 .sell 100 5])).sessionOrders.lookup 1 = some {1} := by
    intro k
    induction k with
    | zero => decide
    | succ k ih =>
        rw [List.replicate_succ, List.cons_append, after_cons,
          lookup_sessionOrders_of_newOrder _ rfl (by decide), ih]
  rw [MatchingEngine.ordersOf, wrappedRun, after_cons,
    lookup_sessionOrders_of_newOrder _ rfl (by decide), hother, Option.getD_some]

/-- **The two ways differ** when the one order in the set of a session is tracked under another
session: a bulk cancel forgets that session, and a request to cancel the order is rejected. -/
theorem not_bulkCancelAgrees_of_other {e : MatchingEngine} {sessionId owner : SessionId}
    {orderId : OrderId} (hids : e.ordersOf sessionId = {orderId})
    (hown : e.orderToSession.lookup orderId = some owner) (hother : owner ≠ sessionId)
    (hdummy : sessionId ≠ DUMMY_SESSION_ID) : ¬ e.BulkCancelAgrees sessionId := by
  have hvisits : MatchingEngine.Visits [orderId] (e.ordersOf sessionId) :=
    ⟨List.nodup_singleton orderId, hids.symm⟩
  intro h
  obtain ⟨hsame, -, -⟩ := h.oneByOne [orderId]
    [{ header := ⟨.cancelOrderRequest, MessageType.cancelOrderRequest.size, 0⟩,
       clientOrderId := 0, orderId }] hvisits hvisits
  have hnone : e.authorize sessionId orderId = none := by
    rw [MatchingEngine.authorize, hown]
    exact if_pos ⟨hother, hdummy⟩
  have hbulk := (e.bulkCancelled sessionId [orderId]).1.session orderId
  rw [if_pos List.mem_cons_self, ← hsame.orderToSession] at hbulk
  simp only [MatchingEngine.cancelOneByOne, List.foldl_cons, List.foldl_nil,
    MatchingEngine.processInboundMessage, MatchingEngine.handleCancelOrder, hnone] at hbulk
  cases hown.symm.trans hbulk

theorem not_bulkCancelAgrees_wrappedRun :
    ¬ (after [] (fun _ => 0) (wrappedRun (2 ^ 64 - 1))).BulkCancelAgrees 1 := by
  obtain ⟨p, h⟩ := wrappedRun_spec (n := 2 ^ 64 - 1) (by decide)
  exact not_bulkCancelAgrees_of_other (ordersOf_wrappedRun _) h.owner (by decide) (by decide)

end ExchangeEngine
