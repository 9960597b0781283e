import ExchangeEngine.Runs

/-!
# Price–Time Priority over Runs

The queue number of an order is the step at which it was last appended to its level. The book
does not store it; `queueNumber` reads it off the history of messages. In every run, each
side of the book is in priority order with respect to queue numbers (`ordered_after`), so an
execution, which hits the first order of the opposite side, hits the order with the best price
and, at that price, the smallest queue number.

## Main results

* `executions_follow_priority`: price–time priority of every execution of every run.
-/

open PriceTime

namespace ExchangeEngine

/-- Whether a message appends the order `orderId` to a level, or would if it did not trade in
full: it adds the order, or changes its price or quantity. -/
def MatchingEngine.requeues (e : MatchingEngine) (msg : InboundMessage) (orderId : OrderId) :
    Bool :=
  match e.bookCall? msg with
  | none => false
  | some c => (e.orderbook.entering? c).isSome && decide (orderId = c.orderId)

variable (symbol : List UInt8) (clock : ℕ → Timestamp)

/-- **The queue number** of an order after a history: the number of the step, counted from
the start of the run, that appended it last. -/
def queueNumber : List InboundMessage → OrderId → ℕ
  | [], _ => 0
  | msg :: past, orderId =>
      if (after symbol clock past).requeues msg orderId then past.length
      else queueNumber past orderId

section QueueNumber

variable {symbol clock} {msg : InboundMessage} {past : List InboundMessage} {i : OrderId}
  {c : BookCall}

theorem queueNumber_cons_le (msg : InboundMessage) (past : List InboundMessage) (i : OrderId) :
    queueNumber symbol clock (msg :: past) i ≤ past.length := by
  induction past generalizing msg with
  | nil =>
      rw [queueNumber]
      split <;> exact Nat.le_refl 0
  | cons msg' past ih =>
      rw [queueNumber]
      split
      · exact Nat.le_refl _
      · exact Nat.le_succ_of_le (ih msg')

/-- The queue number of an order that a message does not append is the old one. -/
theorem queueNumber_cons_of_ne (hcall : (after symbol clock past).bookCall? msg = some c)
    (hne : (after symbol clock past).orderbook.entering? c ≠ none → i ≠ c.orderId) :
    queueNumber symbol clock (msg :: past) i = queueNumber symbol clock past i := by
  have hrequeues : (after symbol clock past).requeues msg i = false := by
    simp only [MatchingEngine.requeues, hcall]
    cases hent : (after symbol clock past).orderbook.entering? c with
    | none => rfl
    | some b => simpa using hne (by simp [hent])
  rw [queueNumber, hrequeues, if_neg Bool.false_ne_true]

/-- The queue number of the order that a message appends is that of the step. -/
theorem queueNumber_cons_self (hcall : (after symbol clock past).bookCall? msg = some c)
    (hent : (after symbol clock past).orderbook.entering? c ≠ none) :
    queueNumber symbol clock (msg :: past) c.orderId = past.length := by
  have hrequeues : (after symbol clock past).requeues msg c.orderId = true := by
    simp only [MatchingEngine.requeues, hcall, decide_true, Bool.and_true]
    exact Option.isSome_iff_ne_none.mpr hent
  rw [queueNumber, hrequeues, if_pos rfl]

/-- An order that rests has been appended by an earlier step. -/
theorem queueNumber_lt_length (hi : i ∈ (after symbol clock past).orderbook.view.ids) :
    queueNumber symbol clock past i < past.length := by
  cases past with
  | nil => cases hi
  | cons msg past => exact Nat.lt_succ_of_le (queueNumber_cons_le msg past i)

end QueueNumber

/-- **Both sides are in priority order after every run**: sorted by price and, at one price,
by queue number. -/
theorem ordered_after {past : List InboundMessage} (h : acceptedOrders past < 2 ^ 64) :
    (after symbol clock past).orderbook.view.Ordered fun i j =>
      queueNumber symbol clock past i < queueNumber symbol clock past j := by
  induction past with
  | nil =>
      intro s
      cases s <;> exact List.Pairwise.nil
  | cons msg past ih =>
      have hord := ih (acceptedOrders_lt_of_cons h)
      rw [after_cons]
      cases hcall : (after symbol clock past).bookCall? msg with
      | none =>
          have hsame : ∀ i, queueNumber symbol clock (msg :: past) i =
              queueNumber symbol clock past i := by
            intro i
            rw [queueNumber, MatchingEngine.requeues, hcall]
            exact if_neg Bool.false_ne_true
          rw [MatchingEngine.orderbook_of_no_call hcall]
          simpa only [hsame] using hord
      | some c =>
          have hwf := (after_inv symbol clock
            (acceptedOrders_lt_of_cons h)).book.wf
          rw [MatchingEngine.orderbook_of_call hcall]
          refine Orderbook.ordered_call hwf (after_allows symbol clock h hcall) hord ?_ ?_
          · intro i _ j _ hne hij
            rw [queueNumber_cons_of_ne hcall fun hent => (hne hent).1,
              queueNumber_cons_of_ne hcall fun hent => (hne hent).2]
            exact hij
          · intro hent i hi hne
            rw [queueNumber_cons_of_ne hcall fun _ => hne, queueNumber_cons_self hcall hent]
            exact queueNumber_lt_length hi

/-! ### Executions -/

/-- **Price–time priority** of an execution, for a numbering of the orders: among all orders
that rest on the counterparty's side at that moment, the counterparty has the best price and,
among those at its price, the smallest number; the trade is at its price. -/
structure FollowsPriority (number : OrderId → ℕ) (m : Moment) : Prop where
  resting : m.resting ∈ m.side
  sides : ∀ o ∈ m.side, o.buySell = m.resting.buySell
  price : m.trade.price = m.resting.price
  best :
    (m.resting.buySell = .buy ∧ m.trade.buyOrderId = m.resting.orderId ∧
      ∀ o ∈ m.side, o.price ≤ m.resting.price) ∨
    (m.resting.buySell = .sell ∧ m.trade.sellOrderId = m.resting.orderId ∧
      ∀ o ∈ m.side, m.resting.price ≤ o.price)
  first : ∀ o ∈ m.side, o.price = m.resting.price →
    o = m.resting ∨ number m.resting.orderId < number o.orderId

/-- An execution against the first order of a side in priority order follows priority. -/
theorem followsPriority_of_momentWf {o : Order} {s : Side} {L : List BookOffer} {m : Moment}
    {number : OrderId → ℕ} (hm : MomentWf o (buySellOf s) (buySellOf s.contra) L m)
    (hL : InPriority s.contra.better (fun i j => number i < number j) L) :
    FollowsPriority number m := by
  obtain ⟨rest, hside⟩ : ∃ rest, m.side = m.resting :: rest := by
    cases hms : m.side with
    | nil =>
        have hhead := hm.head
        rw [hms] at hhead
        cases hhead
    | cons a rest =>
        have hhead := hm.head
        rw [hms] at hhead
        exact ⟨rest, by rw [Option.some.inj hhead]⟩
  have hmem : m.resting ∈ m.side := by rw [hside]; exact List.mem_cons_self
  have hpri : InPriority s.contra.better (fun i j => number i < number j)
      (m.resting.offer :: rest.map Order.offer) := by
    have := hL.of_stamps_sublist hm.stamps
    rwa [hside] at this
  have hbest := hpri.head_best
  have hne : ∀ o' ∈ m.side, o' = m.resting ∨ o' ∈ rest := by
    rw [hside]
    exact fun o' ho' => List.mem_cons.mp ho'
  refine ⟨hmem, fun o' ho' => ?_, hm.price, ?_, fun o' ho' hprice => ?_⟩
  · rw [hm.sides o' ho', hm.sides m.resting hmem]
  · cases s with
    | bid =>
        refine Or.inr ⟨hm.sides m.resting hmem, hm.sellOrderId, fun o' ho' => ?_⟩
        rcases hne o' ho' with rfl | hrest
        · exact Int32.le_refl _
        · exact Int32.not_lt.mp (hbest _ (List.mem_map_of_mem hrest)).1
    | ask =>
        refine Or.inl ⟨hm.sides m.resting hmem, hm.buyOrderId, fun o' ho' => ?_⟩
        rcases hne o' ho' with rfl | hrest
        · exact Int32.le_refl _
        · exact Int32.not_lt.mp (hbest _ (List.mem_map_of_mem hrest)).1
  · rcases hne o' ho' with heq | hrest
    · exact Or.inl heq
    · exact Or.inr ((hbest _ (List.mem_map_of_mem hrest)).2 hprice)

/-- **Price–time priority over runs.** Every step of every run executes exactly the trades of
its moments, and every one of these follows priority with respect to the queue numbers before
the step. -/
theorem executions_follow_priority (msg : InboundMessage) (past : List InboundMessage)
    (h : acceptedOrders (msg :: past) < 2 ^ 64) :
    (after symbol clock past).stepTrades msg =
      ((after symbol clock past).stepMoments msg).map Moment.trade ∧
    ∀ m ∈ (after symbol clock past).stepMoments msg,
      FollowsPriority (queueNumber symbol clock past) m := by
  refine ⟨stepTrades_eq_moments symbol clock h, fun m hm => ?_⟩
  have hpast := acceptedOrders_lt_of_cons h
  cases hcall : (after symbol clock past).bookCall? msg with
  | none => simp [MatchingEngine.stepMoments, hcall] at hm
  | some c =>
      simp only [MatchingEngine.stepMoments, hcall] at hm
      obtain ⟨b', order, s, -, henters, hmoment⟩ := Orderbook.exists_enters_of_mem_callMoments
        (after_inv symbol clock hpast).book.wf (after_allows symbol clock h hcall) hm
      refine followsPriority_of_momentWf hmoment ?_
      rw [henters.view]
      exact (ordered_after symbol clock hpast).withdraw c.orderId s.contra

/-- A run in which a sell order sweeps two bids that a modify has put in the order 1, 2. -/
theorem executions_follow_priority_requeued :
    let past := [modifyOrderMessage 2 2 101 6, limitOrderMessage 2 .buy 100 5,
      limitOrderMessage 1 .buy 101 4]
    ((after [] (fun _ => 0) past).stepMoments (limitOrderMessage 3 .sell 101 9)).map
        (fun m => m.resting.orderId) = [1, 2] ∧
    ∀ m ∈ (after [] (fun _ => 0) past).stepMoments (limitOrderMessage 3 .sell 101 9),
      FollowsPriority (queueNumber [] (fun _ => 0) past) m :=
  ⟨by decide, (executions_follow_priority [] (fun _ => 0) _ _ (by decide)).2⟩

end ExchangeEngine
