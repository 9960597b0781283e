import ExchangeEngine.Ledger
import ExchangeEngine.Terminal
import ExchangeEngine.TrackingMaps
import ExchangeEngine.Unmatched

/-!
# Orders of Other Sessions

A request of one session reaches the orders of other sessions through matching only. This is
a frame condition on every handler: what a message of session `s` does to the resting orders
that other sessions entered is what the trades of the message say, and their order in the
queues stays.

## Main results

* `order_ownership`: the frame condition, and the rejection of requests for an order of another
  session, as long as no order id is given out twice.
* `not_ordersOfOthersKept_wrappedRun`: once the 64-bit counter of order ids has wrapped around,
  two resting orders can have one id, and a session that cancels its own order takes the
  other session's order out of its level.
-/

open PriceTime

namespace ExchangeEngine

namespace Orderbook

variable {b : Orderbook} {c : BookCall} {s t : Side} {o : Order}

/-- The resting orders of one side, best price first and in the order of the queue at each
price. -/
def queue (b : Orderbook) (s : Side) : List Order :=
  match s with
  | .bid => (pointers b.bids.entries).map b.heap.read
  | .ask => (pointers b.asks.entries).map b.heap.read

/-- The resting orders of one side that were entered by other sessions than `sessionId`. -/
def queueOfOthers (b : Orderbook) (sessionId : SessionId) (s : Side) : List Order :=
  (b.queue s).filter fun o => o.sessionId ≠ sessionId

theorem map_offer_queue (b : Orderbook) (s : Side) :
    (b.queue s).map Order.offer = b.view.side s := by
  cases s <;> exact List.map_map

theorem Wf.mem_queue (h : b.Wf) :
    o ∈ b.queue s ↔ ∃ p ∈ b.resting, (b.heap.read p).buySell = buySellOf s ∧
      b.heap.read p = o := by
  cases s with
  | bid =>
      refine List.mem_map.trans (exists_congr fun p => ?_)
      rw [h.mem_bids, and_assoc]
      rfl
  | ask =>
      refine List.mem_map.trans (exists_congr fun p => ?_)
      rw [h.mem_asks, and_assoc]
      rfl

end Orderbook

/-- The terms of an order, which executions leave alone: its id, its price, and who entered it
when. -/
def Order.terms (o : Order) : OrderId × Price × OrderTag :=
  o.offer.stamp

namespace Orderbook

variable {b b' : Orderbook} {c : BookCall} {order : OrderPointer} {s t : Side} {o : Order}
  {sessionId : SessionId}

theorem map_terms_queueOfOthers (b : Orderbook) (sessionId : SessionId) (s : Side) :
    (b.queueOfOthers sessionId s).map Order.terms =
      ((b.view.side s).map Offer.stamp).filter fun p => p.2.2.sessionId ≠ sessionId := by
  rw [← map_offer_queue, List.map_map, queueOfOthers, List.filter_map]
  rfl

/-- **A call keeps the order of the queues**, in which the orders of the session that makes it
are left out. -/
theorem queueOfOthers_call (h : b.Wf) (hallow : b.Allows c)
    (hown : ∀ b' order s, b.Enters c b' order s →
      (b'.heap.read order).sessionId = sessionId) (t : Side) :
    (((b.call c).queueOfOthers sessionId t).map Order.terms).Sublist
      ((b.queueOfOthers sessionId t).map Order.terms) := by
  rw [map_terms_queueOfOthers, map_terms_queueOfOthers]
  rcases call_cases h hallow with ⟨b', order, s, -, henters, hadded⟩ |
    ⟨orderId, -, -, -, hview⟩ | ⟨-, -, -, -, -, heq⟩
  · rw [hadded.view]
    have hown' : (b'.heap.read order).offer.tag.sessionId = sessionId :=
      hown b' order s henters
    refine (Book.filter_stamps_submit (by simp [Offer.stamp, hown']) t).trans ?_
    rw [henters.view]
    exact Book.filter_stamps_withdraw _ t
  · rw [hview]
    exact Book.filter_stamps_withdraw _ t
  · rw [heq]

/-- Under another id than that of the call, a call leaves no offer that was not there before, up
to quantities. -/
theorem exists_stamp_of_mem_call (h : b.Wf) (hallow : b.Allows c) {a : BookOffer}
    (ha : a ∈ (b.call c).view.side t) (hne : a.id ≠ c.orderId) :
    ∃ a' ∈ b.view.side t, a'.stamp = a.stamp := by
  rcases call_cases h hallow with ⟨b', order, s, -, henters, hadded⟩ |
    ⟨orderId, -, -, -, hview⟩ | ⟨-, -, -, -, -, heq⟩
  · rw [hadded.view] at ha
    rcases Book.mem_side_submit ha with ⟨-, -, rfl⟩ | ⟨a', ha', hstamp⟩
    · exact absurd henters.orderId hne
    · rw [henters.view, Book.side_withdraw] at ha'
      exact ⟨a', List.mem_of_mem_filter ha', hstamp⟩
  · rw [hview, Book.side_withdraw] at ha
    exact ⟨a, List.mem_of_mem_filter ha, rfl⟩
  · rw [heq] at ha
    exact ⟨a, ha, rfl⟩

/-- **What a call does to another order than its own**: it stays, under its terms and with what
is executed against it taken off its quantity, or it leaves, executed in full. -/
theorem quantity_call_of_ne (h : b.Wf) (hallow : b.Allows c) (ho : o ∈ b.queue t)
    (hne : o.orderId ≠ c.orderId) :
    (∃ o' ∈ (b.call c).queue t, o'.terms = o.terms ∧
      o'.quantity.toNat + executedIn o.orderId (b.callTrades c) = o.quantity.toNat) ∨
    ((∀ s, ∀ o' ∈ (b.call c).queue s, o'.orderId ≠ o.orderId) ∧
      executedIn o.orderId (b.callTrades c) = o.quantity.toNat) := by
  have hwf := wf_call h hallow
  have hcons := call_conserves h hallow o.orderId
  rw [if_neg hne, if_neg fun hc => hne hc.2, Nat.add_zero] at hcons
  obtain ⟨p, hp, hside, rfl⟩ := h.mem_queue.mp ho
  rw [h.held_eq hp] at hcons
  by_cases hmem : (b.heap.read p).orderId ∈ (b.call c).view.ids
  · obtain ⟨t', a, ha, hid⟩ := Book.mem_ids.mp hmem
    obtain ⟨a', ha', hstamp⟩ := exists_stamp_of_mem_call h hallow ha (hid ▸ hne)
    obtain ⟨p', hp', hside', rfl⟩ := h.mem_side.mp ha'
    obtain rfl : p' = p := h.index.inj hp' hp ((congrArg Prod.fst hstamp).trans hid)
    obtain rfl : t' = t := by
      have hboth : buySellOf t' = buySellOf t := hside'.symm.trans hside
      cases t' <;> cases t <;> first | rfl | cases hboth
    obtain ⟨q, hq, hqside, rfl⟩ := hwf.mem_side.mp ha
    refine Or.inl ⟨_, hwf.mem_queue.mpr ⟨q, hq, hqside, rfl⟩, hstamp.symm, ?_⟩
    rw [← hid, ← hwf.held_eq hq]
    rw [← hid] at hcons
    exact hcons
  · right
    rw [Book.held_eq_zero hmem, Nat.zero_add] at hcons
    refine ⟨fun s o' ho' heq => hmem ?_, hcons⟩
    obtain ⟨q, hq, hs, rfl⟩ := hwf.mem_queue.mp ho'
    exact Book.mem_ids.mpr ⟨s, _, hwf.mem_side.mpr ⟨q, hq, hs, rfl⟩, heq⟩

end Orderbook

/-! ### Messages -/

section Messages

variable {symbol : List UInt8} {clock : ℕ → Timestamp} {msg : InboundMessage}
  {past : List InboundMessage} {c : BookCall} {t : Side} {o : Order}

theorem mem_ids_of_mem_queue {b : Orderbook} (h : b.Wf) (ho : o ∈ b.queue t) :
    o.orderId ∈ b.view.ids := by
  obtain ⟨p, hp, -, rfl⟩ := h.mem_queue.mp ho
  exact Orderbook.mem_ids_of_mem_resting hp

/-- An order in a queue is tracked under its own session. -/
theorem tracked_of_mem_queue (h : acceptedOrders past < 2 ^ 64)
    (ho : o ∈ (after symbol clock past).orderbook.queue t) :
    (∃ request, entry symbol clock past o.orderId = some (o.sessionId, request)) ∧
      (after symbol clock past).orderToSession.lookup o.orderId = some o.sessionId := by
  obtain ⟨p, hp, -, rfl⟩ := (after_inv symbol clock h).book.wf.mem_queue.mp ho
  obtain ⟨request, hentry, hlookup, -⟩ :=
    tracked_of_mem_resting symbol clock h hp
  exact ⟨⟨request, hentry⟩, hlookup⟩

/-- Whoever is authorized and is not the dummy session has entered the order. -/
theorem session_of_authorize {e : MatchingEngine} {sessionId owner : SessionId}
    {orderId : OrderId} (hdummy : sessionId ≠ DUMMY_SESSION_ID)
    (hauth : e.authorize sessionId orderId = some owner) :
    e.orderToSession.lookup orderId = some sessionId := by
  obtain ⟨hlookup, hsession⟩ := MatchingEngine.authorize_eq_some hauth
  rw [hlookup, hsession.resolve_right hdummy]

/-- **A session calls for its own orders only**, unless it is the dummy session. -/
theorem session_of_call (h : acceptedOrders (msg :: past) < 2 ^ 64)
    (hdummy : msg.sessionId ≠ DUMMY_SESSION_ID)
    (hcall : (after symbol clock past).bookCall? msg = some c)
    (ho : o ∈ (after symbol clock past).orderbook.queue t) (hid : o.orderId = c.orderId) :
    o.sessionId = msg.sessionId := by
  have hpast := acceptedOrders_lt_of_cons h
  have hwf := (after_inv symbol clock hpast).book.wf
  obtain ⟨-, hlookup⟩ := tracked_of_mem_queue hpast ho
  have hown : (after symbol clock past).orderToSession.lookup c.orderId =
      some msg.sessionId → o.sessionId = msg.sessionId := by
    intro htracked
    rw [hid] at hlookup
    exact Option.some.inj (hlookup.symm.trans htracked)
  cases (after symbol clock past).handled msg with
  | newRejected request reason _ _ call => rw [call] at hcall; cases hcall
  | cancelRejected request _ _ call => rw [call] at hcall; cases hcall
  | modifyRejected request reason _ _ call => rw [call] at hcall; cases hcall
  | newAccepted request side orderType _ _ call accepted =>
      rw [call] at hcall
      obtain rfl := Option.some.inj hcall
      exact absurd hid (ne_nextOrderId h (mem_ids_of_mem_queue hwf ho) accepted)
  | cancelled request owner _ auth call =>
      rw [call] at hcall
      obtain rfl := Option.some.inj hcall
      exact hown (session_of_authorize hdummy auth)
  | modified request _ check call =>
      rw [call] at hcall
      obtain rfl := Option.some.inj hcall
      obtain ⟨⟨owner, auth⟩, -⟩ := MatchingEngine.checkModifyOrder_eq_none check
      exact hown (session_of_authorize hdummy auth)

/-- The order that a message hands to matching is one of its session. -/
theorem session_of_enters (h : acceptedOrders (msg :: past) < 2 ^ 64)
    (hdummy : msg.sessionId ≠ DUMMY_SESSION_ID)
    (hcall : (after symbol clock past).bookCall? msg = some c) {b' : Orderbook}
    {order : OrderPointer} {s : Side}
    (henters : (after symbol clock past).orderbook.Enters c b' order s) :
    (b'.heap.read order).sessionId = msg.sessionId := by
  have hpast := acceptedOrders_lt_of_cons h
  have hwf := (after_inv symbol clock hpast).book.wf
  rcases henters.origin with hc | ⟨hmem, newPrice, newQuantity, hc, hread⟩
  · rw [hc] at hcall
    obtain ⟨-, request, side, orderType, -, -, horder⟩ :=
      MatchingEngine.bookCall_addOrder hcall
    rw [horder]
    rfl
  · obtain ⟨t, hside⟩ := hwf.exists_side hmem
    have hid : ((after symbol clock past).orderbook.heap.read order).orderId = c.orderId := by
      rw [hc]
      rfl
    have hown := session_of_call h hdummy hcall
      (hwf.mem_queue.mpr ⟨order, hmem, hside, rfl⟩) hid
    rw [hread]
    exact hown

/-- A session is not authorized for an order that another session entered. -/
theorem authorize_eq_none (h : acceptedOrders past < 2 ^ 64)
    (hdummy : msg.sessionId ≠ DUMMY_SESSION_ID) {orderId : OrderId} {owner : SessionId}
    {request : NewOrderRequest}
    (hentry : entry symbol clock past orderId = some (owner, request))
    (hother : owner ≠ msg.sessionId) :
    (after symbol clock past).authorize msg.sessionId orderId = none := by
  refine Option.eq_none_iff_forall_ne_some.mpr fun owner' hauth => hother ?_
  obtain ⟨⟨request', hentry'⟩, -⟩ := entered_of_tracked h (session_of_authorize hdummy hauth)
  exact congrArg Prod.fst (Option.some.inj (hentry.symm.trans hentry'))

end Messages

/-! ### The frame condition -/

variable (symbol : List UInt8) (clock : ℕ → Timestamp)

/-- **A message leaves the orders of other sessions to matching.** They are those of the
requests that other sessions sent; they stay in their queues in the same order and under
their terms, lose what the trades of the message execute against them, and leave only when
that is all they had; they stay tracked under their session; and a request for an order that
another session entered is only rejected, with the maps as they were. -/
structure OrdersOfOthersKept (past : List InboundMessage) (msg : InboundMessage) : Prop where
  requested : ∀ t, ∀ o ∈ (after symbol clock past).orderbook.queueOfOthers msg.sessionId t,
    ∃ request, entry symbol clock past o.orderId = some (o.sessionId, request)
  queues : ∀ t,
    (((after symbol clock (msg :: past)).orderbook.queueOfOthers msg.sessionId t).map
      Order.terms).Sublist
    (((after symbol clock past).orderbook.queueOfOthers msg.sessionId t).map Order.terms)
  quantities : ∀ t, ∀ o ∈ (after symbol clock past).orderbook.queueOfOthers msg.sessionId t,
    let executed := executedIn o.orderId ((after symbol clock past).stepTrades msg)
    (∃ o' ∈ (after symbol clock (msg :: past)).orderbook.queue t,
      o'.terms = o.terms ∧ o'.quantity.toNat + executed = o.quantity.toNat) ∨
    ((∀ s, ∀ o' ∈ (after symbol clock (msg :: past)).orderbook.queue s,
      o'.orderId ≠ o.orderId) ∧ executed = o.quantity.toNat)
  owners : ∀ t, ∀ o ∈ (after symbol clock past).orderbook.queueOfOthers msg.sessionId t,
    (after symbol clock past).orderToSession.lookup o.orderId = some o.sessionId ∧
    (after symbol clock (msg :: past)).orderToSession.lookup o.orderId = some o.sessionId
  rejected : ∀ orderId owner request, msg.named? = some orderId →
    entry symbol clock past orderId = some (owner, request) → owner ≠ msg.sessionId →
    (after symbol clock past).OnlyRejects msg ∧
    (after symbol clock (msg :: past)).sessionOrders =
      (after symbol clock past).sessionOrders ∧
    (after symbol clock (msg :: past)).orderToSession =
      (after symbol clock past).orderToSession ∧
    (after symbol clock (msg :: past)).orderToClientOrderId =
      (after symbol clock past).orderToClientOrderId

variable {symbol clock} {msg : InboundMessage} {past : List InboundMessage}

/-- A request for an order of another session is only rejected. -/
theorem rejected_of_other (h : acceptedOrders past < 2 ^ 64)
    (hdummy : msg.sessionId ≠ DUMMY_SESSION_ID) {orderId : OrderId} {owner : SessionId}
    {request : NewOrderRequest} (hnamed : msg.named? = some orderId)
    (hentry : entry symbol clock past orderId = some (owner, request))
    (hother : owner ≠ msg.sessionId) :
    (after symbol clock past).OnlyRejects msg ∧
      (after symbol clock (msg :: past)).core = (after symbol clock past).core := by
  have hnone := authorize_eq_none h hdummy hentry hother
  rw [after_cons]
  cases (after symbol clock past).handled msg with
  | newRejected request reason body => simp [InboundMessage.named?, body] at hnamed
  | newAccepted request side orderType body => simp [InboundMessage.named?, body] at hnamed
  | cancelRejected request body _ _ _ result =>
      exact ⟨MatchingEngine.onlyRejects_cancelRejected body result, by rw [result]; rfl⟩
  | cancelled request tracked body auth =>
      simp only [InboundMessage.named?, body, Option.some.injEq] at hnamed
      rw [hnamed, hnone] at auth
      cases auth
  | modifyRejected request reason body _ _ _ result =>
      exact ⟨MatchingEngine.onlyRejects_modifyRejected body result, by rw [result]; rfl⟩
  | modified request body check =>
      simp only [InboundMessage.named?, body, Option.some.injEq] at hnamed
      obtain ⟨⟨tracked, auth⟩, -⟩ := MatchingEngine.checkModifyOrder_eq_none check
      rw [hnamed, hnone] at auth
      cases auth

/-- An order of another session stays tracked under it. -/
theorem tracked_of_other (h : acceptedOrders (msg :: past) < 2 ^ 64)
    (hdummy : msg.sessionId ≠ DUMMY_SESSION_ID) {t : Side} {o : Order}
    (ho : o ∈ (after symbol clock past).orderbook.queue t) (hother : o.sessionId ≠ msg.sessionId) :
    (after symbol clock (msg :: past)).orderToSession.lookup o.orderId = some o.sessionId := by
  have hpast := acceptedOrders_lt_of_cons h
  have hmem := mem_ids_of_mem_queue (after_inv symbol clock hpast).book.wf ho
  obtain ⟨-, hlookup⟩ := tracked_of_mem_queue hpast ho
  have htracks : (after symbol clock past).Tracks msg := tracks_after h
  rw [after_cons]
  cases htracks with
  | entered request body accepted lookup =>
      rw [lookup, if_neg (ne_nextOrderId h hmem accepted)]
      exact hlookup
  | dropped orderId call _ lookup =>
      have hne : o.orderId ≠ orderId :=
        fun hid => hother (session_of_call h hdummy call ho hid)
      rw [lookup, if_neg hne]
      exact hlookup
  | kept _ _ map =>
      rw [map]
      exact hlookup

variable (symbol clock)

/-- **Order ownership**: a message of a session other than the dummy session leaves the resting
orders of all other sessions to matching, in every run in which no order id is given out
twice. -/
theorem order_ownership (msg : InboundMessage) (past : List InboundMessage)
    (h : acceptedOrders (msg :: past) < 2 ^ 64) (hdummy : msg.sessionId ≠ DUMMY_SESSION_ID) :
    OrdersOfOthersKept symbol clock past msg := by
  have hpast := acceptedOrders_lt_of_cons h
  have hwf := (after_inv symbol clock hpast).book.wf
  have hothers : ∀ t, ∀ o ∈ (after symbol clock past).orderbook.queueOfOthers msg.sessionId t,
      o ∈ (after symbol clock past).orderbook.queue t ∧ o.sessionId ≠ msg.sessionId :=
    fun t o ho => ⟨List.mem_of_mem_filter ho, by simpa using List.of_mem_filter ho⟩
  refine ⟨fun t o ho => (tracked_of_mem_queue hpast (hothers t o ho).1).1, fun t => ?_,
    fun t o ho => ?_, fun t o ho => ?_, fun orderId owner request hnamed hentry hother => ?_⟩
  · rw [after_cons]
    cases hcall : (after symbol clock past).bookCall? msg with
    | none =>
        rw [MatchingEngine.orderbook_of_no_call hcall]
    | some c =>
        rw [MatchingEngine.orderbook_of_call hcall]
        exact Orderbook.queueOfOthers_call hwf (after_allows symbol clock h hcall)
          (fun b' order s henters => session_of_enters h hdummy hcall henters) t
  · obtain ⟨hmem, hne⟩ := hothers t o ho
    rw [after_cons]
    cases hcall : (after symbol clock past).bookCall? msg with
    | none =>
        rw [MatchingEngine.orderbook_of_no_call hcall]
        exact Or.inl ⟨o, hmem, rfl, by simp [MatchingEngine.stepTrades, hcall]⟩
    | some c =>
        rw [MatchingEngine.orderbook_of_call hcall, MatchingEngine.stepTrades, hcall]
        exact Orderbook.quantity_call_of_ne hwf (after_allows symbol clock h hcall) hmem
          fun hid => hne (session_of_call h hdummy hcall hmem hid)
  · obtain ⟨hmem, hne⟩ := hothers t o ho
    exact ⟨(tracked_of_mem_queue hpast hmem).2, tracked_of_other h hdummy hmem hne⟩
  · obtain ⟨hrejects, hcore⟩ := rejected_of_other hpast hdummy hnamed hentry hother
    obtain ⟨hsession, hclient, horders⟩ := MatchingEngine.maps_of_core hcore
    exact ⟨hrejects, horders, hsession, hclient⟩

/-- A run with orders of two sessions on one side, and an order of a third that trades with
one of them. -/
def sharedSideRun : List InboundMessage :=
  [limitOrderMessage 2 .sell 100 4, limitOrderMessage 1 .sell 100 5]

theorem order_ownership_sharedSideRun :
    ((after [] (fun _ => 0) (limitOrderMessage 3 .buy 100 6 :: sharedSideRun)).orderbook.queue
      .ask).map (fun o => (o.orderId, o.quantity)) = [(2, 3)] ∧
    OrdersOfOthersKept [] (fun _ => 0) sharedSideRun (limitOrderMessage 3 .buy 100 6) :=
  ⟨by decide, order_ownership [] (fun _ => 0) _ _ (by decide) (by decide)⟩

/-! ### Two orders with one id -/

section SameId

variable {e : MatchingEngine} {msg : InboundMessage} {sessionId : SessionId} {price : Price}
  {p q : OrderPointer}

/-- A SELL order that meets nobody is booked behind the one order at its price, and its id now
belongs to its session. -/
theorem enter_sameId {request : NewOrderRequest} (hbody : msg.body = .newOrder request)
    (hcheck : MatchingEngine.checkNewOrder request = .ok (.sell, .limit))
    (hbids : e.orderbook.bids.entries = [])
    (hasks : e.orderbook.asks.entries = [(request.price, [p])])
    (hp : p < e.orderbook.heap.next) :
    let e' := e.processInboundMessage msg
    e'.orderbook.bids.entries = [] ∧
    e'.orderbook.asks.entries = [(request.price, [p, e.orderbook.heap.next])] ∧
    e'.orderbook.heap.read p = e.orderbook.heap.read p ∧
    e'.orderbook.heap.read e.orderbook.heap.next =
      e.newOrder msg.sessionId request .sell .limit ∧
    e'.orderbook.orders.lookup e.nextOrderId = some e.orderbook.heap.next ∧
    e'.orderToSession.lookup e.nextOrderId = some msg.sessionId ∧
    e.orderbook.heap.next < e'.orderbook.heap.next := by
  obtain ⟨hbook, hlookup⟩ := MatchingEngine.booked_of_noContra hbody hcheck hbids
  have hread : ∀ q, (e.processInboundMessage msg).orderbook.heap.read q =
      (e.orderbook.heap.alloc (e.newOrder msg.sessionId request .sell .limit)).read q := by
    intro q
    rw [hbook, Orderbook.heap_bookOrder]
    rfl
  have hnew := hread e.orderbook.heap.next
  rw [ObjectStore.read_alloc_next] at hnew
  refine ⟨?_, ?_, ?_, hnew, ?_, hlookup, ?_⟩
  · rw [hbook, Orderbook.bookOrder]
    simp only [Orderbook.allocOrder, ObjectStore.read_alloc_next]
    exact hbids
  · rw [hbook, Orderbook.bookOrder]
    simp only [Orderbook.allocOrder, ObjectStore.read_alloc_next]
    exact (SortedMap.split_head hasks).2.1 _
  · rw [hread]
    exact ObjectStore.read_alloc_of_lt _ hp _
  · rw [hbook, Orderbook.bookOrder]
    simp only [Orderbook.allocOrder, ObjectStore.read_alloc_next]
    exact Finmap.lookup_insert _
  · rw [hbook, Orderbook.heap_bookOrder]
    exact Nat.lt_succ_self _

/-- **Taking an order out of its level takes another order with its id out**, if that one is in
front of it. -/
theorem detachOrder_sameId {b : Orderbook} (hasks : b.asks.entries = [(price, [p, q])])
    (hid : (b.heap.read p).orderId = (b.heap.read q).orderId)
    (hprice : (b.heap.read q).price = price) (hside : (b.heap.read q).buySell = .sell) :
    (b.detachOrder q).asks.entries = [(price, [q])] ∧ (b.detachOrder q).bids = b.bids := by
  obtain ⟨hfind, hupsert, -⟩ := SortedMap.split_head hasks
  rw [Orderbook.detachOrder_sell hside]
  refine ⟨?_, rfl⟩
  simp only [Orderbook.eraseFromBook, hprice, hfind, List.eraseP_cons, hid, decide_true, cond_true,
    List.cons_ne_nil, if_false]
  exact hupsert _

/-- A cancel takes out that order, and closes its own. -/
theorem cancelOrder_sameId {b : Orderbook} (hasks : b.asks.entries = [(price, [p, q])])
    (hid : (b.heap.read p).orderId = (b.heap.read q).orderId)
    (hprice : (b.heap.read q).price = price) (hside : (b.heap.read q).buySell = .sell)
    (hindex : b.orders.lookup (b.heap.read q).orderId = some q) :
    (b.cancelOrder (b.heap.read q).orderId).asks.entries = [(price, [q])] ∧
      (b.cancelOrder (b.heap.read q).orderId).bids = b.bids ∧
      (b.cancelOrder (b.heap.read q).orderId).heap.read q =
        ((b.heap.read q).setQuantity 0).setOrderStatus .cancelled := by
  obtain ⟨hasks', hbids'⟩ := detachOrder_sameId hasks hid hprice hside
  rw [Orderbook.cancelOrder, hindex]
  refine ⟨hasks', hbids', (ObjectStore.read_write_self _ _ _).trans ?_⟩
  rw [Orderbook.detachOrder_sell hside]

/-- A session that owns an order id has the order cancelled. -/
theorem orderbook_cancelMessage {orderId : OrderId}
    (hown : e.orderToSession.lookup orderId = some sessionId) :
    (e.processInboundMessage (cancelOrderMessage sessionId orderId)).orderbook =
      e.orderbook.cancelOrder orderId := by
  have hauth : e.authorize sessionId orderId = some sessionId := by
    simp [MatchingEngine.authorize, hown]
  exact MatchingEngine.orderbook_of_call (c := .cancelOrder _)
    (by simp only [MatchingEngine.bookCall?, cancelOrderMessage, hauth])

/-- The same for a request to cancel it. -/
theorem cancel_sameId (hasks : e.orderbook.asks.entries = [(price, [p, q])])
    (hid : (e.orderbook.heap.read p).orderId = (e.orderbook.heap.read q).orderId)
    (hprice : (e.orderbook.heap.read q).price = price)
    (hside : (e.orderbook.heap.read q).buySell = .sell)
    (hindex : e.orderbook.orders.lookup (e.orderbook.heap.read q).orderId = some q)
    (hown : e.orderToSession.lookup (e.orderbook.heap.read q).orderId = some sessionId) :
    let e' := e.processInboundMessage
      (cancelOrderMessage sessionId (e.orderbook.heap.read q).orderId)
    e'.orderbook.asks.entries = [(price, [q])] ∧
    (e'.orderbook.heap.read q).sessionId = (e.orderbook.heap.read q).sessionId := by
  intro e'
  have hbook : e'.orderbook = e.orderbook.cancelOrder (e.orderbook.heap.read q).orderId :=
    orderbook_cancelMessage hown
  obtain ⟨hasks', -, hread⟩ := cancelOrder_sameId hasks hid hprice hside hindex
  rw [hbook, hread]
  exact ⟨hasks', rfl⟩

end SameId

/-- Session 1 enters a SELL order (order 1); session 2 enters so many MARKET orders that meet
nobody that its next order, again a SELL order at the same price, is order 1 as well. -/
def wrappedRun (n : ℕ) : List InboundMessage :=
  limitOrderMessage 2 .sell 100 5 ::
    (List.replicate n (newOrderMessage 2 .sell 3 0 1) ++ [limitOrderMessage 1 .sell 100 5])

/-- **A book in which two orders rest at the same price, under the same id**: the order at 0, of
session 1, and behind it the order at `p`, of session 2, which is the one in the index. -/
structure SharesId (e : MatchingEngine) (p : OrderPointer) : Prop where
  bids : e.orderbook.bids.entries = []
  asks : e.orderbook.asks.entries = [(100, [0, p])]
  first : e.orderbook.heap.read 0 =
    { price := 100, quantity := 5, timestamp := 0, orderId := 1, orderType := .limit,
      buySell := .sell, orderStatus := .new, sessionId := 1, clientOrderId := 0 }
  second : { e.orderbook.heap.read p with timestamp := 0 } =
    { price := 100, quantity := 5, timestamp := 0, orderId := 1, orderType := .limit,
      buySell := .sell, orderStatus := .new, sessionId := 2, clientOrderId := 0 }
  index : e.orderbook.orders.lookup 1 = some p
  owner : e.orderToSession.lookup 1 = some 2
  allocated : p < e.orderbook.heap.next

section SharesId

variable {e : MatchingEngine} {p : OrderPointer}

theorem SharesId.orderId (h : SharesId e p) : (e.orderbook.heap.read p).orderId = 1 :=
  congrArg Order.orderId h.second

theorem SharesId.price (h : SharesId e p) : (e.orderbook.heap.read p).price = 100 :=
  congrArg Order.price h.second

theorem SharesId.buySell (h : SharesId e p) : (e.orderbook.heap.read p).buySell = .sell :=
  congrArg Order.buySell h.second

theorem SharesId.sameId (h : SharesId e p) :
    (e.orderbook.heap.read 0).orderId = (e.orderbook.heap.read p).orderId := by
  rw [h.orderId, h.first]

/-- The second order enters when its id is given out again. -/
theorem exists_sharesId (hbids : e.orderbook.bids.entries = [])
    (hasks : e.orderbook.asks.entries = [(100, [0])])
    (hfirst : e.orderbook.heap.read 0 =
      { price := 100, quantity := 5, timestamp := 0, orderId := 1, orderType := .limit,
        buySell := .sell, orderStatus := .new, sessionId := 1, clientOrderId := 0 })
    (hnext : e.nextOrderId = 1) (hlt : 0 < e.orderbook.heap.next) :
    ∃ p, SharesId (e.processInboundMessage (limitOrderMessage 2 .sell 100 5)) p := by
  obtain ⟨hbids', hasks', hold, hnew, hindex, hown, hnext'⟩ :=
    enter_sameId (show (limitOrderMessage 2 .sell 100 5).body = .newOrder _ from rfl) rfl
      hbids hasks hlt
  rw [hnext] at hindex hown
  refine ⟨_, hbids', hasks', hold.trans hfirst, ?_, hindex, hown, hnext'⟩
  rw [hnew, MatchingEngine.newOrder, hnext]
  rfl

end SharesId

/-- The book of such a run. -/
theorem wrappedRun_spec {n : ℕ} (hn : (2 : OrderId) + UInt64.ofNat n = 1) :
    ∃ p, SharesId (after [] (fun _ => 0) (wrappedRun n)) p := by
  have hunrestable : MatchingEngine.IsUnrestable (newOrderMessage 2 .sell 3 0 1) .sell :=
    ⟨_, .market, rfl, rfl, by decide⟩
  have hcontra : (after [] (fun _ => 0)
      [limitOrderMessage 1 .sell 100 5]).orderbook.NoContra .sell := rfl
  have hused := usesUpIds_replicate [] (fun _ => 0) hunrestable hcontra n
  have hnext := hused.nextOrderId.trans hn
  have hfirst : (after [] (fun _ => 0)
      [limitOrderMessage 1 .sell 100 5]).orderbook.heap.read 0 =
        { price := 100, quantity := 5, timestamp := 0, orderId := 1, orderType := .limit,
          buySell := .sell, orderStatus := .new, sessionId := 1, clientOrderId := 0 } := by
    decide
  have hlt : 0 < (after [] (fun _ => 0) (List.replicate n (newOrderMessage 2 .sell 3 0 1) ++
      [limitOrderMessage 1 .sell 100 5])).orderbook.heap.next :=
    Nat.lt_of_lt_of_le Nat.zero_lt_one hused.next
  have hlevels : (after [] (fun _ => 0)
      [limitOrderMessage 1 .sell 100 5]).orderbook.bids.entries = [] ∧
      (after [] (fun _ => 0)
        [limitOrderMessage 1 .sell 100 5]).orderbook.asks.entries = [(100, [0])] := by
    decide
  rw [← hused.bids, ← hused.asks] at hlevels
  rw [wrappedRun, after_cons]
  exact exists_sharesId hlevels.1 hlevels.2 ((hused.read 0 Nat.zero_lt_one).trans hfirst) hnext hlt

/-- **The other session's order is gone**: after a run in which the counter has wrapped around,
session 2 cancels its own order, no trade is executed, and the order of session 1 has left
the book. -/
theorem cancel_wrappedRun {n : ℕ} (hn : (2 : OrderId) + UInt64.ofNat n = 1) :
    (∃ o ∈ (after [] (fun _ => 0) (wrappedRun n)).orderbook.queueOfOthers 2 .ask,
      o.orderId = 1 ∧ o.sessionId = 1 ∧ o.quantity = 5) ∧
    (after [] (fun _ => 0) (wrappedRun n)).stepTrades (cancelOrderMessage 2 1) = [] ∧
    ∀ o ∈ (after [] (fun _ => 0) (cancelOrderMessage 2 1 :: wrappedRun n)).orderbook.queue .ask,
      o.sessionId = 2 := by
  obtain ⟨p, h⟩ := wrappedRun_spec hn
  have hid := h.orderId
  have hold := h.first
  have hcancel := cancel_sameId h.asks h.sameId h.price h.buySell (hid ▸ h.index) (hid ▸ h.owner)
  rw [hid] at hcancel
  obtain ⟨hasks', hread'⟩ := hcancel
  refine ⟨⟨(after [] (fun _ => 0) (wrappedRun n)).orderbook.heap.read 0, ?_, ?_⟩, ?_,
    fun o ho => ?_⟩
  · rw [Orderbook.queueOfOthers, Orderbook.queue, h.asks]
    exact List.mem_filter.mpr ⟨by simp, by rw [hold]; decide⟩
  · rw [hold]
    exact ⟨rfl, rfl, rfl⟩
  · have hauth : (after [] (fun _ => 0) (wrappedRun n)).authorize 2 1 = some 2 := by
      rw [MatchingEngine.authorize, h.owner]
      rfl
    simp only [MatchingEngine.stepTrades, MatchingEngine.bookCall?, cancelOrderMessage, hauth]
    rfl
  · rw [after_cons, Orderbook.queue, hasks'] at ho
    obtain rfl : o = _ := by simpa using ho
    exact hread'.trans (congrArg Order.sessionId h.second)

/-- After `2 ^ 64` accepted orders, another session's order can leave the book without any
trade. -/
theorem not_ordersOfOthersKept_wrappedRun :
    ¬ OrdersOfOthersKept [] (fun _ => 0) (wrappedRun (2 ^ 64 - 1)) (cancelOrderMessage 2 1) := by
  obtain ⟨⟨o, ho, hid, hsession, hqty⟩, htrades, hgone⟩ :=
    cancel_wrappedRun (n := 2 ^ 64 - 1) (by decide)
  intro h
  rcases h.quantities .ask o ho with ⟨o', ho', hterms, -⟩ | ⟨-, hexecuted⟩
  · have hsame : o'.sessionId = o.sessionId := congrArg (fun p => p.2.2.sessionId) hterms
    rw [hgone o' ho', hsession] at hsame
    cases hsame
  · rw [htrades, hqty] at hexecuted
    cases hexecuted

end ExchangeEngine
