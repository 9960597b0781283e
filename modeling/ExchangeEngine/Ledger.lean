import ExchangeEngine.Entries
import ExchangeEngine.Priority

/-!
# Conservation of Quantity

`account` keeps the books of an order along a history: the quantity set when it was accepted
or last changed, the quantity traded since, and the quantity that a cancel has removed since.
The three never drift apart from what the order book holds for the order
(`account_conserves`): holding, traded and cancelled quantity add up to the quantity set.

The law for one call into the book is `call_conserves`; it comes from
`PriceTime.Book.submit_conserves`, with the trades of the call read as the fills of its sweep
(`executedIn_fills`).

## Main results

* `quantity_conserved`: for every order of every run, the quantity that rests is the quantity
  set less the quantity traded, and what is gone without being traded was cancelled; every
  trade is of a positive quantity between a buy order and a different sell order, and no
  subtraction of quantities wraps.
-/

open PriceTime

namespace ExchangeEngine

/-! ### The quantity traded by an order -/

/-- The quantity that a list of trades executes for an order, as buyer or as seller. -/
def executedIn (orderId : OrderId) (trades : List Trade) : ℕ :=
  ((trades.filter fun t => t.buyOrderId = orderId ∨ t.sellOrderId = orderId).map
    fun t => t.quantity.toNat).sum

@[simp] theorem executedIn_nil (orderId : OrderId) : executedIn orderId [] = 0 :=
  rfl

theorem executedIn_cons (orderId : OrderId) (t : Trade) (trades : List Trade) :
    executedIn orderId (t :: trades) =
      (if t.buyOrderId = orderId ∨ t.sellOrderId = orderId then t.quantity.toNat else 0) +
        executedIn orderId trades := by
  by_cases h : t.buyOrderId = orderId ∨ t.sellOrderId = orderId <;> simp [executedIn, h]

/-- A recorded fill names the incoming order and the offer that it hit. -/
theorem names_tradeOf (s : Side) (orderId i : OrderId) (f : BookFill) :
    ((tradeOf (buySellOf s) orderId f).buyOrderId = i ∨
      (tradeOf (buySellOf s) orderId f).sellOrderId = i) ↔ i = orderId ∨ f.offer.id = i := by
  cases s with
  | bid => simp only [tradeOf, buySellOf, reduceCtorEq, if_true, if_false, eq_comm (b := i)]
  | ask =>
      simp only [tradeOf, buySellOf, reduceCtorEq, if_true, if_false, eq_comm (b := i)]
      exact or_comm

/-- **Trades account for fills**: the trades of a sweep execute its whole demand for the
incoming order, and for every other order what the fills execute against it. -/
theorem executedIn_fills {s : Side} {orderId : OrderId} {fs : List BookFill}
    (hqty : ∀ f ∈ fs, f.executed < 2 ^ 32) (hne : ∀ f ∈ fs, f.offer.id ≠ orderId)
    (i : OrderId) :
    executedIn i (fs.map (tradeOf (buySellOf s) orderId)) =
      if i = orderId then (fs.map Fill.executed).sum else executedFor i fs := by
  induction fs with
  | nil => simp
  | cons f fs ih =>
      have ih := ih (fun g hg => hqty g (List.mem_cons_of_mem f hg))
        fun g hg => hne g (List.mem_cons_of_mem f hg)
      have hf : (tradeOf (buySellOf s) orderId f).quantity.toNat = f.executed :=
        UInt32.toNat_ofNat_of_lt' (hqty f List.mem_cons_self)
      rw [List.map_cons, executedIn_cons, ih, hf, List.map_cons, List.sum_cons,
        executedFor_cons]
      simp only [names_tradeOf]
      by_cases hi : i = orderId
      · simp only [hi, true_or, if_true]
      · simp only [hi, false_or, if_false]

/-! ### Conservation in one call -/

namespace Orderbook

variable {b : Orderbook} {c : BookCall}

/-- The quantity that a call removes without trading it: what a cancelled order had left, or
the rest of a MARKET or IOC order. -/
def cancelledBy (b : Orderbook) : BookCall → ℕ
  | .cancelOrder orderId =>
      match b.orders.lookup orderId with
      | none => 0
      | some order => (b.heap.read order).quantity.toNat
  | c =>
      match b.entering? c with
      | none => 0
      | some (b', order) =>
          if (b'.heap.read order).isAggressive then
            ({ b' with trades := [] }.matchContra order).2.toNat
          else 0

theorem cancelledBy_of_entering {b' : Orderbook} {order : OrderPointer}
    (h : b.entering? c = some (b', order)) :
    b.cancelledBy c =
      if (b'.heap.read order).isAggressive then
        ({ b' with trades := [] }.matchContra order).2.toNat
      else 0 := by
  cases c with
  | addOrder o => rw [cancelledBy, h]; exact fun _ hc => by cases hc
  | cancelOrder orderId => cases h
  | modifyOrder orderId newPrice newQuantity =>
      rw [cancelledBy, h]; exact fun _ hc => by cases hc

/-- What a well-formed book holds under the id of a resting order is that order's quantity. -/
theorem Wf.held_eq (h : b.Wf) {p : OrderPointer} (hp : p ∈ b.resting) :
    b.view.held (b.heap.read p).orderId = (b.heap.read p).quantity.toNat := by
  obtain ⟨s, hs⟩ := h.exists_side hp
  have hnd : b.view.ids.Nodup := by
    rw [b.ids_view]
    exact h.index.nodup
  exact Book.held_of_mem hnd (h.mem_side.mpr ⟨p, hp, hs, rfl⟩)

/-- A quantity on offer fits in 32 bits. -/
theorem Wf.qty_lt (h : b.Wf) {s : Side} {a : BookOffer} (ha : a ∈ b.view.side s) :
    a.qty < 2 ^ 32 := by
  obtain ⟨p, -, -, rfl⟩ := h.mem_side.mp ha
  exact UInt32.toNat_lt _

/-- An execution fits in 32 bits. -/
theorem Enters.executed_lt {b' : Orderbook} {order : OrderPointer} {s : Side}
    (henters : b.Enters c b' order s) (h : b.Wf) {f : BookFill}
    (hf : f ∈ (b'.sweepBy order s).fills) : f.executed < 2 ^ 32 := by
  obtain ⟨hmem, -, hle, -⟩ := mem_sweep_fills hf
  rw [henters.view, Book.side_withdraw] at hmem
  exact Nat.lt_of_le_of_lt hle (h.qty_lt (List.mem_of_mem_filter hmem))

/-- The trades of a call execute the fills of its sweep: all of them for the incoming order, and
for every other order what is executed against it. -/
theorem executedIn_callTrades (h : b.Wf) {b' : Orderbook} {order : OrderPointer} {s : Side}
    (hent : b.entering? c = some (b', order)) (henters : b.Enters c b' order s)
    (hadded : b'.Added order s (b.call c)) (i : OrderId) :
    executedIn i (b.callTrades c) =
      if i = c.orderId then ((b'.sweepBy order s).fills.map Fill.executed).sum
      else executedFor i (b'.sweepBy order s).fills := by
  have hids : ∀ f ∈ (b'.sweepBy order s).fills, f.offer.id ≠ (b'.heap.read order).orderId :=
    fun f hf heq => henters.detached.id_notMem
      (Book.mem_ids.mpr ⟨s.contra, f.offer, (mem_sweep_fills hf).1, heq⟩)
  rw [callTrades_of_entering hent, hadded.trades, ← henters.orderId]
  exact executedIn_fills (fun f hf => henters.executed_lt h hf) hids i

/-- What a sweep executes and what it leaves make up the quantity that the call brings. -/
theorem sweepBy_total {b' : Orderbook} {order : OrderPointer} {s : Side}
    (henters : b.Enters c b' order s) :
    ((b'.sweepBy order s).fills.map Fill.executed).sum + (b'.sweepBy order s).left =
      c.quantity.toNat := by
  rw [← henters.quantity]
  exact sweep_total _ _ _

/-- **What an added order has left** after its call: nothing if it may not rest, else what the
call did not execute. -/
theorem quantity_addOrder (h : b.Wf) {o : Order} (hallow : b.Allows (.addOrder o)) :
    ((b.call (.addOrder o)).heap.read b.heap.next).quantity.toNat =
      if o.isAggressive then 0
      else o.quantity.toNat - executedIn o.orderId (b.callTrades (.addOrder o)) := by
  obtain ⟨s, henters⟩ := enters_addOrder h hallow
  have hadded := addToBook_spec henters.detached henters.addable
  have hexecuted :=
    (executedIn_callTrades h rfl henters hadded o.orderId).trans (if_pos rfl)
  have htotal := sweepBy_total henters
  have hread : (b.allocOrder o).heap.read b.heap.next = o := b.heap.read_alloc_next o
  have hresult := congrArg Order.quantity hadded.read
  rw [Order.quantity_settled, hread, ← hadded.remaining, UInt32.ofNat_toNat] at hresult
  rw [show (b.call (.addOrder o)).heap.read b.heap.next =
    ((b.allocOrder o).addToBook b.heap.next).heap.read b.heap.next from rfl, hresult]
  cases o.isAggressive with
  | true => rfl
  | false =>
      simp only [Bool.false_eq_true, if_false]
      rw [hadded.remaining, hexecuted]
      have hquantity : (BookCall.addOrder o).quantity.toNat = o.quantity.toNat := rfl
      omega

/-- **Conservation in a call.** Under every id, what the book holds afterwards, what the call
traded and what it cancelled make up what the book held before, or the quantity that the call
itself brings. -/
theorem call_conserves (h : b.Wf) (hallow : b.Allows c) (i : OrderId) :
    (b.call c).view.held i + executedIn i (b.callTrades c) +
        (if i = c.orderId then b.cancelledBy c else 0) =
      if (b.entering? c).isSome = true ∧ i = c.orderId then c.quantity.toNat
      else b.view.held i := by
  rcases call_cases h hallow with ⟨b', order, s, hent, henters, hadded⟩ |
    ⟨orderId, rfl, hent, -, hview⟩ | ⟨j, newPrice, newQuantity, rfl, hent, heq⟩
  · have htrades := executedIn_callTrades h hent henters hadded i
    have htotal := sweepBy_total henters
    have hcons : (b.call c).view.held i + executedFor i (b'.sweepBy order s).fills =
        (b.view.withdraw c.orderId).held i +
          if (b'.heap.read order).orderId = i ∧ (!(b'.heap.read order).isAggressive) = true then
            (b'.sweepBy order s).left
          else 0 := by
      rw [hadded.view, ← henters.view]
      exact Book.submit_conserves _ _ i
    rw [henters.orderId, Book.held_withdraw] at hcons
    rw [htrades, cancelledBy_of_entering hent, hadded.remaining, hent]
    by_cases hi : i = c.orderId
    · -- nothing is executed against the incoming order's own id
      have hnone : executedFor i (b'.sweepBy order s).fills = 0 := by
        refine executedFor_sweep_of_notMem fun hmem => henters.detached.id_notMem ?_
        obtain ⟨a, ha, hid⟩ := List.mem_map.mp hmem
        rw [henters.orderId, ← hi, ← hid]
        exact Book.mem_ids.mpr ⟨s.contra, a, ha, rfl⟩
      simp only [hi, if_true, true_and, Option.isSome_some] at hcons hnone ⊢
      cases hag : (b'.heap.read order).isAggressive with
      | true =>
          simp only [hag, Bool.not_true, Bool.false_eq_true, if_false, if_true] at hcons ⊢
          omega
      | false =>
          simp only [hag, Bool.not_false, Bool.false_eq_true, if_false, if_true] at hcons ⊢
          omega
    · have hi' : ¬ c.orderId = i := fun heq => hi heq.symm
      simp only [hi, hi', if_false, false_and, and_false] at hcons ⊢
      omega
  · rw [callTrades, hent, hview, Book.held_withdraw]
    simp only [BookCall.orderId, executedIn_nil, Option.isSome_none, Bool.false_eq_true,
      false_and, if_false]
    by_cases hi : i = orderId
    · subst hi
      simp only [if_true, cancelledBy]
      cases hlook : b.orders.lookup i with
      | none =>
          have hnot : i ∉ b.view.ids := by
            rw [h.mem_ids]
            simp [hlook]
          simp only [Book.held_eq_zero hnot]
      | some order =>
          obtain ⟨hmem, rfl⟩ := (h.index.lookup i order).mp hlook
          rw [h.held_eq hmem, Nat.add_zero, Nat.zero_add]
    · simp only [hi, if_false, Nat.add_zero]
  · have hcancelled : b.cancelledBy (.modifyOrder j newPrice newQuantity) = 0 := by
      rw [cancelledBy, hent]
      exact fun _ hc => by cases hc
    rw [callTrades, hent, heq]
    simp only [hcancelled, ite_self, executedIn_nil, Option.isSome_none, Bool.false_eq_true,
      false_and, if_false, Nat.add_zero]

/-- A call that leaves its order in the book cancels nothing. -/
theorem cancelledBy_of_mem (h : b.Wf) (hallow : b.Allows c)
    (hmem : c.orderId ∈ (b.call c).view.ids) : b.cancelledBy c = 0 := by
  rcases call_cases h hallow with ⟨b', order, s, hent, henters, hadded⟩ |
    ⟨orderId, rfl, -, -, hview⟩ | ⟨j, newPrice, newQuantity, rfl, hent, -⟩
  · rw [cancelledBy_of_entering hent]
    refine if_neg fun hag => henters.detached.id_notMem ?_
    rw [hadded.view] at hmem
    obtain ⟨t, a, ha, hid⟩ := Book.mem_ids.mp hmem
    rcases Book.mem_side_submit ha with ⟨-, hkeep, -⟩ | ⟨a', ha', hst⟩
    · simp [hag] at hkeep
    · rw [henters.orderId, ← hid, ← show a'.id = a.id from congrArg Prod.fst hst]
      exact Book.mem_ids.mpr ⟨t, a', ha', rfl⟩
  · rw [hview] at hmem
    exact absurd rfl (Book.mem_ids_withdraw.mp hmem).2
  · rw [cancelledBy, hent]
    exact fun _ hc => by cases hc

end Orderbook

/-! ### Accounts over runs -/

/-- The books of one order: the quantity set at its acceptance or at its last modify that
changed price or quantity, and since then the quantity traded and the quantity cancelled. -/
structure Account where
  quantity : ℕ
  executed : ℕ
  cancelled : ℕ
  deriving DecidableEq, Repr

/-- What one call adds to the account of an order; a call that brings a quantity opens a new
account. -/
def Account.enter (a : Account) (b : Orderbook) (c : BookCall) (orderId : OrderId) : Account :=
  let a := if (b.entering? c).isSome ∧ orderId = c.orderId then ⟨c.quantity.toNat, 0, 0⟩ else a
  { a with
    executed := a.executed + executedIn orderId (b.callTrades c)
    cancelled := a.cancelled + if orderId = c.orderId then b.cancelledBy c else 0 }

variable (symbol : List UInt8) (clock : ℕ → Timestamp)

/-- The account of an order after a history. -/
def account : List InboundMessage → OrderId → Account
  | [], _ => ⟨0, 0, 0⟩
  | msg :: past, orderId =>
      let e := after symbol clock past
      match e.bookCall? msg with
      | none => account past orderId
      | some c => (account past orderId).enter e.orderbook c orderId

section Account

variable {symbol clock} {msg : InboundMessage} {past : List InboundMessage} {c : BookCall}

theorem account_of_no_call (hcall : (after symbol clock past).bookCall? msg = none)
    (i : OrderId) : account symbol clock (msg :: past) i = account symbol clock past i := by
  simp only [account, hcall]

theorem account_of_call (hcall : (after symbol clock past).bookCall? msg = some c)
    (i : OrderId) :
    account symbol clock (msg :: past) i =
      (account symbol clock past i).enter (after symbol clock past).orderbook c i := by
  simp only [account, hcall]

/-- **Conservation over runs**: what the book holds for an order, what has been traded and
what has been cancelled make up the quantity that was set. -/
theorem account_conserves (h : acceptedOrders past < 2 ^ 64) (i : OrderId) :
    (after symbol clock past).orderbook.view.held i + (account symbol clock past i).executed +
      (account symbol clock past i).cancelled = (account symbol clock past i).quantity := by
  induction past with
  | nil => rfl
  | cons msg past ih =>
      have hpast := acceptedOrders_lt_of_cons h
      have ih := ih hpast
      rw [after_cons]
      cases hcall : (after symbol clock past).bookCall? msg with
      | none =>
          rw [MatchingEngine.orderbook_of_no_call hcall, account_of_no_call hcall]
          exact ih
      | some c =>
          have hcons := Orderbook.call_conserves (after_inv symbol clock hpast).book.wf
            (after_allows symbol clock h hcall) i
          rw [MatchingEngine.orderbook_of_call hcall, account_of_call hcall]
          by_cases hent : ((after symbol clock past).orderbook.entering? c).isSome = true ∧
              i = c.orderId
          · rw [if_pos hent] at hcons
            simp only [Account.enter, if_pos hent]
            omega
          · rw [if_neg hent] at hcons
            simp only [Account.enter, if_neg hent]
            omega

/-- Nothing has been cancelled of an order that rests. -/
theorem cancelled_of_mem (h : acceptedOrders past < 2 ^ 64) {i : OrderId}
    (hi : i ∈ (after symbol clock past).orderbook.view.ids) :
    (account symbol clock past i).cancelled = 0 := by
  induction past with
  | nil => rfl
  | cons msg past ih =>
      have hpast := acceptedOrders_lt_of_cons h
      have hwf := (after_inv symbol clock hpast).book.wf
      rw [after_cons] at hi
      cases hcall : (after symbol clock past).bookCall? msg with
      | none =>
          rw [MatchingEngine.orderbook_of_no_call hcall] at hi
          rw [account_of_no_call hcall]
          exact ih hpast hi
      | some c =>
          have hallow := after_allows symbol clock h hcall
          rw [MatchingEngine.orderbook_of_call hcall] at hi
          rw [account_of_call hcall]
          have hcancelled : (if i = c.orderId then
              (after symbol clock past).orderbook.cancelledBy c else 0) = 0 := by
            split
            · rename_i heq
              exact Orderbook.cancelledBy_of_mem hwf hallow (heq ▸ hi)
            · rfl
          simp only [Account.enter, hcancelled, Nat.add_zero]
          split
          · rfl
          · rename_i hent
            rcases Orderbook.mem_ids_call hwf hallow hi with hold | ⟨o, rfl, rfl⟩
            · exact ih hpast hold
            · exact absurd ⟨rfl, rfl⟩ hent

end Account

/-! ### Runs -/

/-- **The account of an order agrees with the book**: no more is traded than was set; a
resting order has exactly the rest left, and it is positive; the rest of an order that is gone
was cancelled. -/
structure Balanced (b : Orderbook) (orderId : OrderId) (a : Account) : Prop where
  executed_le : a.executed ≤ a.quantity
  resting : ∀ p ∈ b.resting, (b.heap.read p).orderId = orderId →
    (b.heap.read p).quantity.toNat = a.quantity - a.executed ∧ 0 < (b.heap.read p).quantity
  gone : (∀ p ∈ b.resting, (b.heap.read p).orderId ≠ orderId) →
    a.cancelled = a.quantity - a.executed

/-- **A sound execution** at the end of a history: of a positive quantity, between a buy order
and a different sell order, and of no more than either side has left. -/
structure SoundExecution (history : List InboundMessage) (m : Moment) : Prop where
  positive : 0 < m.trade.quantity
  buyer : ∃ tag, Entered symbol clock history m.trade.buyOrderId .bid tag
  seller : ∃ tag, Entered symbol clock history m.trade.sellOrderId .ask tag
  ne : m.trade.buyOrderId ≠ m.trade.sellOrderId
  le_remaining : m.trade.quantity ≤ m.remaining
  le_resting : m.trade.quantity ≤ m.resting.quantity

/-- The accounts of every order balance after every run. -/
theorem balanced_after {past : List InboundMessage} (h : acceptedOrders past < 2 ^ 64)
    (orderId : OrderId) :
    Balanced (after symbol clock past).orderbook orderId
      (account symbol clock past orderId) := by
  have hwf := (after_inv symbol clock h).book.wf
  have hcons : (after symbol clock past).orderbook.view.held orderId +
      (account symbol clock past orderId).executed +
      (account symbol clock past orderId).cancelled =
        (account symbol clock past orderId).quantity := account_conserves h orderId
  refine ⟨by omega, ?_, fun hgone => ?_⟩
  · rintro p hp rfl
    have hcancelled := cancelled_of_mem h (Orderbook.mem_ids_of_mem_resting hp)
    have hheld := hwf.held_eq hp
    obtain ⟨s, hrest⟩ := hwf.resting hp
    exact ⟨by omega, Quantity.pos_iff.mpr hrest.quantity⟩
  · have hnot : orderId ∉ (after symbol clock past).orderbook.view.ids := by
      intro hmem
      obtain ⟨p, hp, hid⟩ := Orderbook.mem_ids_view.mp hmem
      exact hgone p hp hid
    have := Book.held_eq_zero hnot
    omega

theorem soundExecution_of_mem {msg : InboundMessage} {past : List InboundMessage}
    (h : acceptedOrders (msg :: past) < 2 ^ 64) {m : Moment}
    (hm : m ∈ (after symbol clock past).stepMoments msg) :
    SoundExecution symbol clock (msg :: past) m := by
  have hpast := acceptedOrders_lt_of_cons h
  obtain ⟨hbuyer, hseller, hne⟩ := parties_of_mem_stepMoments symbol clock h hm
  cases hcall : (after symbol clock past).bookCall? msg with
  | none => simp [MatchingEngine.stepMoments, hcall] at hm
  | some c =>
      simp only [MatchingEngine.stepMoments, hcall] at hm
      obtain ⟨b', order, s, -, -, hmoment⟩ := Orderbook.exists_enters_of_mem_callMoments
        (after_inv symbol clock hpast).book.wf (after_allows symbol clock h hcall) hm
      exact ⟨hmoment.positive, hbuyer, hseller, hne, hmoment.le_remaining, hmoment.le_resting⟩

/-- The subtraction in a level's aggregate is cut off at zero and does not wrap. -/
theorem LevelData.toNat_fill (data : LevelData) (quantity : Quantity) (orderClosed : Bool) :
    (data.fill quantity orderClosed).totalQuantity.toNat =
      data.totalQuantity.toNat - quantity.toNat := by
  simp only [LevelData.fill]
  by_cases hle : data.totalQuantity ≤ quantity
  · have hzero : data.totalQuantity.toNat - quantity.toNat = 0 :=
      Nat.sub_eq_zero_of_le (UInt32.le_iff_toNat_le.mp hle)
    rw [hzero, if_pos hle]
    split <;> rfl
  · have hsub : (data.totalQuantity - quantity).toNat =
        data.totalQuantity.toNat - quantity.toNat := by
      refine Quantity.toNat_sub (Nat.le_of_lt (Nat.not_le.mp fun hle' => hle ?_))
      exact UInt32.le_iff_toNat_le.mpr hle'
    rw [← hsub, if_neg hle]
    split <;> rfl

/-- Reducing an order's quantity never takes more than there is. -/
theorem Order.toNat_reduceQuantity (o : Order) (delta : Quantity) :
    (o.reduceQuantity delta).2 ≤ o.quantity ∧
      (o.reduceQuantity delta).1.quantity.toNat =
        o.quantity.toNat - (o.reduceQuantity delta).2.toNat := by
  have hle : (min o.quantity delta).toNat ≤ o.quantity.toNat := by
    rw [Quantity.toNat_min]
    exact Nat.min_le_left _ _
  exact ⟨UInt32.le_iff_toNat_le.mpr hle, Quantity.toNat_sub hle⟩

/-- **Quantity is conserved over runs.** After every run the account of every order agrees
with the book. Every step of the run executes exactly the trades of its moments, all of them
sound; with that and the two facts about the subtractions outside the matching loop, no
subtraction of quantities wraps. -/
theorem quantity_conserved (past : List InboundMessage) (h : acceptedOrders past < 2 ^ 64) :
    (∀ orderId, Balanced (after symbol clock past).orderbook orderId
      (account symbol clock past orderId)) ∧
    (∀ msg before, (msg :: before) <:+ past →
      (after symbol clock before).stepTrades msg =
        ((after symbol clock before).stepMoments msg).map Moment.trade ∧
      ∀ m ∈ (after symbol clock before).stepMoments msg,
        SoundExecution symbol clock (msg :: before) m) ∧
    (∀ (data : LevelData) (quantity : Quantity) (orderClosed : Bool),
      (data.fill quantity orderClosed).totalQuantity.toNat =
        data.totalQuantity.toNat - quantity.toNat) ∧
    ∀ (o : Order) (delta : Quantity), (o.reduceQuantity delta).2 ≤ o.quantity ∧
      (o.reduceQuantity delta).1.quantity.toNat =
        o.quantity.toNat - (o.reduceQuantity delta).2.toNat := by
  refine ⟨balanced_after symbol clock h, fun msg before hsuffix => ?_, LevelData.toNat_fill,
    Order.toNat_reduceQuantity⟩
  have hstep := acceptedOrders_lt_of_suffix hsuffix h
  have hbefore := acceptedOrders_lt_of_cons hstep
  refine ⟨?_, fun m hm => soundExecution_of_mem symbol clock hstep hm⟩
  exact stepTrades_eq_moments symbol clock hstep

/-- A run in which order 1 is filled in part, changed, filled in part again, and cancelled. -/
def partlyFilledRun : List InboundMessage :=
  [cancelOrderMessage 1 1, newOrderMessage 2 .sell 3 0 4, modifyOrderMessage 1 1 101 6,
    limitOrderMessage 2 .sell 100 3, limitOrderMessage 1 .buy 100 10]

theorem quantity_conserved_partlyFilledRun :
    account [] (fun _ => 0) partlyFilledRun 1 = ⟨6, 4, 2⟩ ∧
    Balanced (after [] (fun _ => 0) partlyFilledRun).orderbook 1
      (account [] (fun _ => 0) partlyFilledRun 1) :=
  ⟨by decide, (quantity_conserved [] (fun _ => 0) partlyFilledRun (by decide)).1 1⟩

end ExchangeEngine
