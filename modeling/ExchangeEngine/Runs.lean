import ExchangeEngine.EngineSteps

/-!
# Runs of the Engine

A run starts from a fresh engine and processes inputs one after another: messages and bulk
cancels. Histories are lists of inputs, **newest first**, so that the state after a history is
a structural recursion and every prefix of a run is a tail of its history.

`EngineInv` is the invariant of runs on the book; `run_inv` is the induction over runs. As
long as fewer than `2 ^ 64` orders have been accepted, order ids are not given out twice:
after `n` accepted orders the next id is `n + 1`, and every resting order has an id from `1`
to `n`.

## Main results

* `never_crossed`: the best bid is below the best ask in every state of every run.
* `levels_and_index_agree`: the levels and the index describe the same orders in every state
  of every run.
-/

open PriceTime

namespace ExchangeEngine

/-- What a running engine is asked to do. The list of a bulk cancel is the set of ids in the
order in which the loop over it happens to visit them. -/
inductive Input
  | message (msg : InboundMessage)
  | cancelSession (sessionId : SessionId) (orderIds : List OrderId)

/-- The request of session `sessionId` for a new order of the type that `orderType` names on
the wire, as the client fills it in. -/
def newOrderMessage (sessionId : SessionId) (side : BuySell) (orderType : UInt8)
    (price : Price) (quantity : Quantity) : InboundMessage where
  sessionId
  body := .newOrder
    { header := ⟨.newOrderRequest, MessageType.newOrderRequest.size, 0⟩, clientOrderId := 0,
      side := side.toUInt8, orderType, price, quantity }

/-- A request for a LIMIT order. -/
def limitOrderMessage (sessionId : SessionId) (side : BuySell) (price : Price)
    (quantity : Quantity) : InboundMessage :=
  newOrderMessage sessionId side 1 price quantity

/-- A request to cancel an order. -/
def cancelOrderMessage (sessionId : SessionId) (orderId : OrderId) : InboundMessage where
  sessionId
  body := .cancelOrder
    { header := ⟨.cancelOrderRequest, MessageType.cancelOrderRequest.size, 0⟩,
      clientOrderId := 0, orderId }

/-- A request to modify an order. -/
def modifyOrderMessage (sessionId : SessionId) (orderId : OrderId) (newPrice : Price)
    (newQuantity : Quantity) : InboundMessage where
  sessionId
  body := .modifyOrder
    { header := ⟨.modifyOrderRequest, MessageType.modifyOrderRequest.size, 0⟩,
      clientOrderId := 0, orderId, newPrice, newQuantity }

namespace MatchingEngine

/-- The effect of an input on the engine. -/
def apply (e : MatchingEngine) : Input → MatchingEngine
  | .message msg => e.processInboundMessage msg
  | .cancelSession sessionId orderIds => e.cancelSessionOrders sessionId orderIds

end MatchingEngine

/-- Whether an input is a message that is accepted as a new order. -/
def Input.isAccepted : Input → Bool
  | .message msg => MatchingEngine.isAccepted msg
  | .cancelSession _ _ => false

/-- The number of orders accepted in a history. -/
def acceptedCount (past : List Input) : ℕ :=
  past.countP Input.isAccepted

section Run

variable (symbol : List UInt8) (clock : ℕ → Timestamp)

/-- The engine after a history of inputs. -/
def run : List Input → MatchingEngine
  | [] => .fresh symbol clock
  | input :: past => (run past).apply input

end Run

/-! ### Calls keep the view uncrossed and in priority order -/

namespace Orderbook

variable {b b' : Orderbook} {c : BookCall} {order : OrderPointer} {s : Side}

/-- A price at which a LIMIT order does not trade is worse than its limit. -/
theorem better_of_not_accepts (hlimit : (b.heap.read order).orderType = .limit) {p : Price}
    (h : (b.heap.read order).accepts (buySellOf s) p = false) :
    s.contra.better (b.heap.read order).offer.price p := by
  cases s with
  | bid =>
      simp [Order.accepts, priceCrossed, hlimit, buySellOf] at h
      exact h
  | ask =>
      simp [Order.accepts, priceCrossed, hlimit, buySellOf] at h
      exact h

/-- **A call keeps the view uncrossed.** -/
theorem uncrossed_call (h : b.Wf) (hallow : b.Allows c) {before : OrderId → OrderId → Prop}
    (hord : b.view.Ordered before) (hunc : b.view.Uncrossed) :
    (b.call c).view.Uncrossed := by
  rcases call_cases h hallow with ⟨b', order, s, -, henters, hadded⟩ |
    ⟨orderId, -, -, -, hview⟩ | ⟨-, -, -, -, -, heq⟩
  · rw [hadded.view]
    have hord' : b'.view.Ordered before := by
      rw [henters.view]
      exact hord.withdraw c.orderId
    have hunc' : b'.view.Uncrossed := by
      rw [henters.view]
      exact hunc.withdraw c.orderId
    refine Book.submit_uncrossed hord' hunc' fun hkeep p hp => ?_
    have hag : (b'.heap.read order).isAggressive = false := by simpa using hkeep
    exact better_of_not_accepts (henters.addable.limit hag).1 hp
  · rw [hview]
    exact hunc.withdraw orderId
  · rw [heq]
    exact hunc

/-- **A call keeps the view in priority order**, if what it adds comes after everything that
waits at its price. The order of arrival may be another one after the call, as long as it
agrees with the old one on the orders that the call leaves in place. -/
theorem ordered_call (h : b.Wf) (hallow : b.Allows c)
    {before before' : OrderId → OrderId → Prop} (hord : b.view.Ordered before)
    (hkeep : ∀ i ∈ b.view.ids, ∀ j ∈ b.view.ids,
      (b.entering? c ≠ none → i ≠ c.orderId ∧ j ≠ c.orderId) → before i j → before' i j)
    (hnew : b.entering? c ≠ none → ∀ i ∈ b.view.ids, i ≠ c.orderId → before' i c.orderId) :
    (b.call c).view.Ordered before' := by
  rcases call_cases h hallow with ⟨b', order, s, hent, henters, hadded⟩ |
    ⟨orderId, -, hent, -, hview⟩ | ⟨-, -, -, -, hent, heq⟩
  · have hids : ∀ i ∈ b'.view.ids, i ∈ b.view.ids ∧ i ≠ c.orderId := by
      rw [henters.view]
      exact fun i hi => Book.mem_ids_withdraw.mp hi
    have hord' : b'.view.Ordered before := by
      rw [henters.view]
      exact hord.withdraw c.orderId
    have hord'' : b'.view.Ordered before' := hord'.imp fun i hi j hj =>
      hkeep i (hids i hi).1 j (hids j hj).1 fun _ => ⟨(hids i hi).2, (hids j hj).2⟩
    rw [hadded.view]
    refine hord''.submit fun a ha _ => ?_
    obtain ⟨hmem, hne⟩ := hids a.id (Book.mem_ids.mpr ⟨s, a, ha, rfl⟩)
    rw [show (b'.heap.read order).offer.id = c.orderId from henters.orderId]
    exact hnew (by simp [hent]) a.id hmem hne
  · rw [hview]
    exact (hord.imp fun i hi j hj => hkeep i hi j hj (absurd hent)).withdraw orderId
  · rw [heq]
    exact hord.imp fun i hi j hj => hkeep i hi j hj (absurd hent)

/-- A call adds no id to the view but its own. -/
theorem mem_ids_call (h : b.Wf) (hallow : b.Allows c) {i : OrderId}
    (hi : i ∈ (b.call c).view.ids) : i ∈ b.view.ids ∨ ∃ o, c = .addOrder o ∧ i = o.orderId := by
  rcases call_cases h hallow with ⟨b', order, s, hent, henters, hadded⟩ |
    ⟨orderId, -, -, -, hview⟩ | ⟨-, -, -, -, -, heq⟩
  · rw [hadded.view] at hi
    rcases Book.mem_ids_submit hi with hid | hmem
    · have hid' : i = c.orderId := hid.trans henters.orderId
      rcases henters.origin with hc | ⟨hmem, newPrice, newQuantity, hc, -⟩
      · refine Or.inr ⟨_, hc, ?_⟩
        rw [hid', henters.orderId]
      · refine Or.inl ?_
        rw [hid', hc]
        exact Orderbook.mem_ids_of_mem_resting hmem
    · rw [henters.view] at hmem
      exact Or.inl (Book.mem_ids_withdraw.mp hmem).1
  · rw [hview] at hi
    exact Or.inl (Book.mem_ids_withdraw.mp hi).1
  · rw [heq] at hi
    exact Or.inl hi

end Orderbook

/-! ### The invariant of runs -/

/-- The invariant of the book after `n` accepted orders. -/
structure BookInv (b : Orderbook) (n : ℕ) : Prop where
  wf : b.Wf
  ordered : b.view.Ordered fun _ _ => True
  uncrossed : b.view.Uncrossed
  ids : ∀ i ∈ b.view.ids, i.toNat ≤ n

namespace BookInv

variable {b : Orderbook} {n n' : ℕ}

theorem empty : BookInv .empty 0 := by
  refine ⟨Orderbook.wf_empty, fun s => ?_, ?_, ?_⟩
  · cases s <;> exact List.Pairwise.nil
  · intro x hx
    cases hx
  · intro i hi
    cases hi

theorem mono (h : BookInv b n) (hn : n ≤ n') : BookInv b n' :=
  ⟨h.wf, h.ordered, h.uncrossed, fun i hi => Nat.le_trans (h.ids i hi) hn⟩

/-- Every call keeps the invariant, with the id of an added order accounted for. -/
theorem call (h : BookInv b n) {c : BookCall} (hallow : b.Allows c) (hn : n ≤ n')
    (hadd : ∀ o, c = .addOrder o → o.orderId.toNat ≤ n') : BookInv (b.call c) n' := by
  refine ⟨Orderbook.wf_call h.wf hallow,
    Orderbook.ordered_call h.wf hallow h.ordered (fun _ _ _ _ _ _ => trivial)
      fun _ _ _ _ => trivial,
    Orderbook.uncrossed_call h.wf hallow h.ordered h.uncrossed, fun i hi => ?_⟩
  rcases Orderbook.mem_ids_call h.wf hallow hi with hold | ⟨o, hc, rfl⟩
  · exact Nat.le_trans (h.ids i hold) hn
  · exact hadd o hc

theorem cancelOrders (h : BookInv b n) (orderIds : List OrderId) :
    BookInv (orderIds.foldl Orderbook.cancelOrder b) n := by
  induction orderIds generalizing b with
  | nil => exact h
  | cons i orderIds ih =>
      exact ih (h.call (c := .cancelOrder i) trivial (Nat.le_refl n) fun o hc => by cases hc)

end BookInv

/-- **The invariant of runs** after `n` accepted orders. -/
structure EngineInv (e : MatchingEngine) (n : ℕ) : Prop where
  book : BookInv e.orderbook n
  nextOrderId : e.nextOrderId = UInt64.ofNat (n + 1)

namespace EngineInv

variable {e : MatchingEngine} {n : ℕ}

/-- The next order id is not that of a resting order. -/
theorem nextOrderId_notMem (h : EngineInv e n) (hn : n + 1 < 2 ^ 64) :
    e.nextOrderId ∉ e.orderbook.view.ids := by
  intro hmem
  have hle := h.book.ids _ hmem
  rw [h.nextOrderId, UInt64.toNat_ofNat_of_lt' hn] at hle
  omega

/-- The call that a message makes is one that the checks allow. -/
theorem allows (h : EngineInv e n) {msg : InboundMessage} {c : BookCall}
    (hn : n + (if MatchingEngine.isAccepted msg then 1 else 0) < 2 ^ 64)
    (hcall : e.bookCall? msg = some c) : e.orderbook.Allows c := by
  refine MatchingEngine.allows_bookCall (fun hacc => ?_) hcall
  rw [hacc, if_pos rfl] at hn
  exact h.nextOrderId_notMem hn

/-- **A message keeps the invariant.** -/
theorem message (h : EngineInv e n) (msg : InboundMessage)
    (hn : n + (if MatchingEngine.isAccepted msg then 1 else 0) < 2 ^ 64) :
    EngineInv (e.processInboundMessage msg)
      (n + if MatchingEngine.isAccepted msg then 1 else 0) := by
  refine ⟨?_, ?_⟩
  · rw [e.orderbook_processInboundMessage]
    cases hcall : e.bookCall? msg with
    | none => exact h.book.mono (Nat.le_add_right _ _)
    | some c =>
        refine h.book.call (h.allows hn hcall) (Nat.le_add_right _ _) ?_
        rintro o rfl
        obtain ⟨hacc, request, side, orderType, -, -, rfl⟩ :=
          MatchingEngine.bookCall_addOrder hcall
        rw [hacc, if_pos rfl] at hn ⊢
        rw [show (e.newOrder msg.sessionId request side orderType).orderId = e.nextOrderId
          from rfl, h.nextOrderId, UInt64.toNat_ofNat_of_lt' hn]
  · rw [e.nextOrderId_processInboundMessage, h.nextOrderId]
    split
    · exact (UInt64.ofNat_add (n + 1) 1).symm
    · rfl

/-- **A bulk cancel keeps the invariant.** -/
theorem cancelSession (h : EngineInv e n) (sessionId : SessionId) (orderIds : List OrderId) :
    EngineInv (e.cancelSessionOrders sessionId orderIds) n := by
  obtain ⟨hbook, hnext⟩ := e.cancelSessionOrders_spec sessionId orderIds
  refine ⟨?_, hnext.trans h.nextOrderId⟩
  rw [hbook]
  exact h.book.cancelOrders orderIds

end EngineInv

section Run

variable (symbol : List UInt8) (clock : ℕ → Timestamp)

/-- **The invariant holds after every run** in which ids are not given out twice. -/
theorem run_inv (past : List Input) (h : acceptedCount past < 2 ^ 64) :
    EngineInv (run symbol clock past) (acceptedCount past) := by
  induction past with
  | nil => exact ⟨BookInv.empty, rfl⟩
  | cons input past ih =>
      have hcount : acceptedCount (input :: past) =
          acceptedCount past + if input.isAccepted then 1 else 0 :=
        List.countP_cons ..
      rw [hcount] at h ⊢
      have hinv := ih (by omega)
      cases input with
      | message msg => exact hinv.message msg h
      | cancelSession sessionId orderIds => exact hinv.cancelSession sessionId orderIds

end Run

/-! ### Runs of messages -/

section Messages

variable (symbol : List UInt8) (clock : ℕ → Timestamp)

/-- The engine after a history of messages. -/
def after (past : List InboundMessage) : MatchingEngine :=
  run symbol clock (past.map Input.message)

/-- The number of orders accepted in a history of messages. -/
def acceptedOrders (past : List InboundMessage) : ℕ :=
  past.countP MatchingEngine.isAccepted

theorem after_cons (msg : InboundMessage) (past : List InboundMessage) :
    after symbol clock (msg :: past) = (after symbol clock past).processInboundMessage msg :=
  rfl

theorem acceptedOrders_cons (msg : InboundMessage) (past : List InboundMessage) :
    acceptedOrders (msg :: past) =
      acceptedOrders past + if MatchingEngine.isAccepted msg then 1 else 0 :=
  List.countP_cons ..

theorem acceptedOrders_le_cons (msg : InboundMessage) (past : List InboundMessage) :
    acceptedOrders past ≤ acceptedOrders (msg :: past) := by
  rw [acceptedOrders_cons]
  exact Nat.le_add_right _ _

/-- The bound on accepted orders holds before the last message of a run. -/
theorem acceptedOrders_lt_of_cons {msg : InboundMessage} {past : List InboundMessage} {n : ℕ}
    (h : acceptedOrders (msg :: past) < n) : acceptedOrders past < n :=
  Nat.lt_of_le_of_lt (acceptedOrders_le_cons msg past) h

/-- The bound on accepted orders holds in every earlier part of a run. -/
theorem acceptedOrders_lt_of_suffix {before past : List InboundMessage} {n : ℕ}
    (hsuffix : before <:+ past) (h : acceptedOrders past < n) : acceptedOrders before < n :=
  Nat.lt_of_le_of_lt hsuffix.sublist.countP_le h

theorem after_inv {past : List InboundMessage} (h : acceptedOrders past < 2 ^ 64) :
    EngineInv (after symbol clock past) (acceptedOrders past) := by
  have hcount : acceptedCount (past.map Input.message) = acceptedOrders past :=
    List.countP_map ..
  rw [← hcount] at h ⊢
  exact run_inv symbol clock _ h

/-- The call that a message of a run makes is one that the checks allow. -/
theorem after_allows {msg : InboundMessage} {past : List InboundMessage}
    (h : acceptedOrders (msg :: past) < 2 ^ 64) {c : BookCall}
    (hcall : (after symbol clock past).bookCall? msg = some c) :
    (after symbol clock past).orderbook.Allows c := by
  rw [acceptedOrders_cons] at h
  exact (after_inv symbol clock (by omega)).allows h hcall

/-- The trades that a step of a run executes are those of its moments. -/
theorem stepTrades_eq_moments {msg : InboundMessage} {past : List InboundMessage}
    (h : acceptedOrders (msg :: past) < 2 ^ 64) :
    (after symbol clock past).stepTrades msg =
      ((after symbol clock past).stepMoments msg).map Moment.trade := by
  have hpast := acceptedOrders_lt_of_cons h
  cases hcall : (after symbol clock past).bookCall? msg with
  | none => simp only [MatchingEngine.stepTrades, MatchingEngine.stepMoments, hcall, List.map_nil]
  | some c =>
      simp only [MatchingEngine.stepTrades, MatchingEngine.stepMoments, hcall]
      exact Orderbook.callTrades_eq_moments (after_inv symbol clock hpast).book.wf
        (after_allows symbol clock h hcall)

end Messages

/-! ### What the invariant says about the levels -/

/-- The prices at which one side has a level. -/
def levelPrices {r : Price → Price → Prop} (book : LevelBook r) : List Price :=
  book.entries.map Prod.fst

/-- Every level offers something at its price. -/
theorem exists_offer_of_level {heap : Heap} {side : BuySell} {levels : Levels}
    (hwf : LevelsWf heap side levels) (hne : NoEmptyLevel levels) {k : Price}
    (hk : k ∈ levels.map Prod.fst) : ∃ o ∈ offers heap levels, o.price = k := by
  obtain ⟨l, hl, rfl⟩ := List.mem_map.mp hk
  obtain ⟨p, hp⟩ := List.exists_mem_of_ne_nil l.2 (hne l hl)
  refine ⟨(heap.read p).offer, ?_, (hwf l hl p hp).price_eq⟩
  exact mem_offersAt.mpr ⟨p, mem_pointers.mpr ⟨l, hl, hp⟩, rfl⟩

variable (symbol : List UInt8) (clock : ℕ → Timestamp)

/-- **The book is never crossed and never locked**: after every run every price with a bid
level is strictly below every price with an ask level, so no price has both. -/
theorem never_crossed (past : List Input) (h : acceptedCount past < 2 ^ 64) :
    (∀ bid ∈ levelPrices (run symbol clock past).orderbook.bids,
      ∀ ask ∈ levelPrices (run symbol clock past).orderbook.asks, bid < ask) ∧
    (∀ price ∈ levelPrices (run symbol clock past).orderbook.bids,
      price ∉ levelPrices (run symbol clock past).orderbook.asks) := by
  obtain ⟨hwf, -, hunc, -⟩ := (run_inv symbol clock past h).book
  have hlt : ∀ bid ∈ levelPrices (run symbol clock past).orderbook.bids,
      ∀ ask ∈ levelPrices (run symbol clock past).orderbook.asks, bid < ask := by
    intro bid hbid ask hask
    obtain ⟨x, hx, rfl⟩ := exists_offer_of_level hwf.bids hwf.bids_noEmpty hbid
    obtain ⟨y, hy, rfl⟩ := exists_offer_of_level hwf.asks hwf.asks_noEmpty hask
    exact hunc x hx y hy
  exact ⟨hlt, fun price hbid hask => Int32.lt_irrefl (hlt price hbid price hask)⟩

/-- A run with resting orders on both sides, a modify that trades part of one, and a bulk
cancel. -/
def twoSidedRun : List Input :=
  [.cancelSession 3 [5], .message (modifyOrderMessage 1 2 102 7),
    .message (limitOrderMessage 3 .buy 99 4), .message (limitOrderMessage 2 .sell 104 6),
    .message (limitOrderMessage 2 .sell 102 5), .message (limitOrderMessage 1 .buy 100 10),
    .message (limitOrderMessage 3 .buy 98 3)]

theorem never_crossed_twoSidedRun :
    acceptedCount twoSidedRun < 2 ^ 64 ∧
    levelPrices (run [] (fun _ => 0) twoSidedRun).orderbook.bids = [102, 98] ∧
    levelPrices (run [] (fun _ => 0) twoSidedRun).orderbook.asks = [104] ∧
    ∀ price ∈ levelPrices (run [] (fun _ => 0) twoSidedRun).orderbook.bids,
      price ∉ levelPrices (run [] (fun _ => 0) twoSidedRun).orderbook.asks :=
  ⟨by decide, by decide, by decide, (never_crossed [] (fun _ => 0) twoSidedRun (by decide)).2⟩

/-- What every level is: not empty, at a positive price, and made of LIMIT orders of its side
and price with a quantity left. -/
def LevelHolds (heap : Heap) (side : BuySell) (level : Price × OrderPointers) : Prop :=
  level.2 ≠ [] ∧ 0 < level.1 ∧
    ∀ p ∈ level.2, (heap.read p).buySell = side ∧ (heap.read p).orderType = .limit ∧
      0 < (heap.read p).quantity ∧ (heap.read p).price = level.1

theorem levelHolds {heap : Heap} {side : BuySell} {levels : Levels}
    (hwf : LevelsWf heap side levels) (hne : NoEmptyLevel levels) :
    ∀ level ∈ levels, LevelHolds heap side level := by
  intro level hlevel
  obtain ⟨p, hp⟩ := List.exists_mem_of_ne_nil level.2 (hne level hlevel)
  refine ⟨hne level hlevel, (hwf level hlevel p hp).price_pos, fun q hq => ?_⟩
  have hrest := hwf level hlevel q hq
  exact ⟨hrest.buySell, hrest.orderType, Quantity.pos_iff.mpr hrest.quantity, hrest.price_eq⟩

/-- **The levels and the index agree** after every run: the levels hold resting orders of
their own side and price, no id occurs twice in them, and the index maps exactly the ids of
the resting orders, each to its order. -/
theorem levels_and_index_agree (past : List Input) (h : acceptedCount past < 2 ^ 64) :
    let b := (run symbol clock past).orderbook
    (∀ level ∈ b.bids.entries, LevelHolds b.heap .buy level) ∧
    (∀ level ∈ b.asks.entries, LevelHolds b.heap .sell level) ∧
    (b.resting.map fun p => (b.heap.read p).orderId).Nodup ∧
    ∀ orderId p, b.orders.lookup orderId = some p ↔
      p ∈ b.resting ∧ (b.heap.read p).orderId = orderId := by
  have hwf := (run_inv symbol clock past h).book.wf
  exact ⟨levelHolds hwf.bids hwf.bids_noEmpty, levelHolds hwf.asks hwf.asks_noEmpty,
    hwf.index.nodup, hwf.index.lookup⟩

theorem levels_and_index_agree_twoSidedRun :
    acceptedCount twoSidedRun < 2 ^ 64 ∧
    ∀ orderId p, (run [] (fun _ => 0) twoSidedRun).orderbook.orders.lookup orderId = some p ↔
      p ∈ (run [] (fun _ => 0) twoSidedRun).orderbook.resting ∧
        ((run [] (fun _ => 0) twoSidedRun).orderbook.heap.read p).orderId = orderId :=
  ⟨by decide, (levels_and_index_agree [] (fun _ => 0) twoSidedRun (by decide)).2.2.2⟩

end ExchangeEngine
