import ExchangeEngine.Leaves
import ExchangeEngine.Lib.Precedence
import ExchangeEngine.Responses

/-!
# Acknowledgements Before Reports

An `OrderAck` tells the owner of an order the id that the engine has given it, and an
`ExecutionReport` names its order by that id only. The owner can attribute a report if it has been
sent the acknowledgement before. `handleNewOrder` acknowledges an order after it has reported the
trades that the order made when it entered the book.

## Main results

* `ack_precedes_iff`: the reports for an order follow its acknowledgement exactly if the order did
  not trade when it entered.
* `not_ackPrecedes_takerRun`: an order whose first report comes before its acknowledgement.
-/

open PriceTime

namespace ExchangeEngine

/-- The order that a response introduces to its owner, as its acknowledgement. -/
def OutboundMessage.introduces? (msg : OutboundMessage) : Option OrderId :=
  match msg.body with
  | .orderAck ack => some ack.orderId
  | _ => none

/-- The order that a response reports an execution of. -/
def OutboundMessage.executes? (msg : OutboundMessage) : Option OrderId :=
  match msg.body with
  | .execReport report => some report.orderId
  | _ => none

variable (symbol : List UInt8) (clock : ℕ → Timestamp)

/-- **The acknowledgement of an order precedes its reports**: before each execution report that
names the order, the outbound queue has the acknowledgement that introduces it to its owner. -/
def AckPrecedes (past : List InboundMessage) (orderId : OrderId) : Prop :=
  Precedes
    (fun msg => msg.introduces? = some orderId ∧
      owner symbol clock past orderId = some msg.sessionId)
    (fun msg => msg.executes? = some orderId)
    (after symbol clock past).outboundQueue

/-- Whether a message enters the order, and the order trades as it enters. -/
def tradesAtEntry (before : List InboundMessage) (msg : InboundMessage) (orderId : OrderId) :
    Bool :=
  MatchingEngine.isAccepted msg && decide ((after symbol clock before).nextOrderId = orderId) &&
    (after symbol clock before).crosses msg

/-- Whether an order did not trade when it entered: the request that entered it in a history, if
one did, met no opposite order at a price at which it trades. -/
def entersQuietly (past : List InboundMessage) (orderId : OrderId) : Bool :=
  everyStep (fun before msg => !tradesAtEntry symbol clock before msg orderId) past

variable {symbol clock} {msg : InboundMessage} {past : List InboundMessage} {i : OrderId}

/-! ### The reports among the responses to a message -/

section Step

/-- What an accepted message asks the book to do. -/
theorem MatchingEngine.accepted_cases (e : MatchingEngine)
    (hacc : MatchingEngine.isAccepted msg = true) :
    ∃ request side orderType, msg.body = .newOrder request ∧
      MatchingEngine.checkNewOrder request = .ok (side, orderType) ∧
      e.bookCall? msg = some (.addOrder (e.newOrder msg.sessionId request side orderType)) := by
  cases e.handled msg with
  | newAccepted request side orderType body check call =>
      exact ⟨request, side, orderType, body, check, call⟩
  | newRejected _ _ _ _ _ accepted => rw [accepted] at hacc; cases hacc
  | cancelRejected _ _ _ _ accepted => rw [accepted] at hacc; cases hacc
  | cancelled _ _ _ _ _ accepted => rw [accepted] at hacc; cases hacc
  | modifyRejected _ _ _ _ _ accepted => rw [accepted] at hacc; cases hacc
  | modified _ _ _ _ accepted => rw [accepted] at hacc; cases hacc

variable {e : MatchingEngine} {reports : List OutboundMessage} {answer : OutboundBody}

/-- The execution reports in the responses are those announced. -/
theorem MatchingEngine.Responds.report?_reports (h : e.Responds msg reports answer) :
    reports.filterMap OutboundMessage.report? =
      (e.stepAnnouncements msg).flatMap Announcement.reports := by
  have hannounced := (MatchingEngine.announced_processInboundMessage e msg).reports
  have hanswer : OutboundMessage.report? ⟨msg.sessionId, answer⟩ = none := by
    have hkind := h.answers
    cases answer with
    | execReport report => cases hkind
    | _ => rfl
  rw [MatchingEngine.reports, h.queue, MatchingEngine.reports, List.filterMap_append,
    List.filterMap_append, List.append_cancel_left_eq] at hannounced
  rw [← hannounced, List.filterMap_cons, hanswer]
  simp

/-- The orders whose executions are reported are those that the announcements name. -/
theorem MatchingEngine.Responds.executes_iff (h : e.Responds msg reports answer) :
    (∃ m ∈ reports, m.executes? = some i) ↔
      ∃ a ∈ e.stepAnnouncements msg, ∃ p ∈ a.reports, p.2.orderId = i := by
  have hiff : (∃ p ∈ reports.filterMap OutboundMessage.report?, p.2.orderId = i) ↔
      ∃ a ∈ e.stepAnnouncements msg, ∃ p ∈ a.reports, p.2.orderId = i := by
    rw [h.report?_reports]
    simp only [List.mem_flatMap]
    constructor
    · rintro ⟨p, ⟨a, ha, hp⟩, hid⟩
      exact ⟨a, ha, p, hp, hid⟩
    · rintro ⟨a, ha, p, hp, hid⟩
      exact ⟨p, ⟨a, ha, hp⟩, hid⟩
  rw [← hiff]
  simp only [List.mem_filterMap]
  constructor
  · rintro ⟨m, hm, hexec⟩
    obtain ⟨sessionId, body⟩ := m
    cases body with
    | execReport report =>
        exact ⟨(sessionId, report), ⟨_, hm, rfl⟩, Option.some.inj hexec⟩
    | _ => cases hexec
  · rintro ⟨p, ⟨m, hm, hreport⟩, hid⟩
    obtain ⟨sessionId, body⟩ := m
    cases body with
    | execReport report =>
        obtain rfl := Option.some.inj hreport
        exact ⟨_, hm, congrArg some hid⟩
    | _ => cases hreport

theorem MatchingEngine.Responds.introduces_eq_none (h : e.Responds msg reports answer)
    {m : OutboundMessage} (hm : m ∈ reports) : m.introduces? = none := by
  have hreport := h.executions m hm
  obtain ⟨sessionId, body⟩ := m
  cases body with
  | execReport report => rfl
  | _ => cases hreport

/-- **Only the answer to a message** can introduce an order. -/
theorem MatchingEngine.Responds.mem_outboundQueue_iff (h : e.Responds msg reports answer)
    {m : OutboundMessage} (hi : m.introduces? = some i) :
    m ∈ (e.processInboundMessage msg).outboundQueue ↔
      m ∈ e.outboundQueue ∨ m = ⟨msg.sessionId, answer⟩ := by
  rw [h.queue, List.mem_append, List.mem_append, List.mem_singleton]
  refine or_congr Iff.rfl (or_iff_right fun hreport => ?_)
  rw [h.introduces_eq_none hreport] at hi
  cases hi

/-- The answer to a message introduces the order that the message enters, if it does. -/
theorem MatchingEngine.Responds.answer_introduces_iff (h : e.Responds msg reports answer) :
    OutboundMessage.introduces? ⟨msg.sessionId, answer⟩ = some i ↔
      MatchingEngine.isAccepted msg = true ∧ e.nextOrderId = i := by
  cases hacc : MatchingEngine.isAccepted msg with
  | true =>
      obtain ⟨ack, rfl, hid⟩ := h.accepted hacc
      rw [← hid]
      simp [OutboundMessage.introduces?]
  | false =>
      have hack := (h.other hacc).2
      cases answer with
      | orderAck ack => exact absurd rfl (hack ack)
      | _ => simp [OutboundMessage.introduces?]

theorem MatchingEngine.Responds.answer_executes (h : e.Responds msg reports answer) :
    OutboundMessage.executes? ⟨msg.sessionId, answer⟩ ≠ some i := by
  have hanswer := h.answers
  cases answer with
  | execReport report => cases hanswer
  | _ => simp [OutboundMessage.executes?]

/-- **Among the responses to a message** the acknowledgement comes after all reports. -/
theorem MatchingEngine.Responds.precedes_iff (h : e.Responds msg reports answer) :
    Precedes (fun m : OutboundMessage => m.introduces? = some i) (fun m => m.executes? = some i)
        (reports ++ [⟨msg.sessionId, answer⟩]) ↔
      ¬ ∃ m ∈ reports, m.executes? = some i := by
  have hno : ∀ m ∈ reports, ¬ m.introduces? = some i := by
    intro m hm
    rw [h.introduces_eq_none hm]
    exact nofun
  have hanswer : Precedes (fun m : OutboundMessage => m.introduces? = some i)
      (fun m => m.executes? = some i) [⟨msg.sessionId, answer⟩] := by
    refine precedes_of_no_event fun m hm => ?_
    rw [List.mem_singleton.mp hm]
    exact h.answer_executes
  rw [precedes_append, precedes_iff_of_no_cause hno, and_iff_left (Or.inr hanswer)]
  simp only [not_exists, not_and]

/-- **The order that a message enters is reported** exactly if it crosses. -/
theorem executes_entered_iff (symbol : List UInt8) (clock : ℕ → Timestamp)
    (h : acceptedOrders (msg :: past) < 2 ^ 64)
    (hacc : MatchingEngine.isAccepted msg = true) :
    (∃ a ∈ (after symbol clock past).stepAnnouncements msg, ∃ p ∈ a.reports,
        p.2.orderId = (after symbol clock past).nextOrderId) ↔
      (after symbol clock past).crosses msg = true := by
  have hcross : (after symbol clock past).stepTrades msg = [] ↔
      (after symbol clock past).crosses msg = false := stepTrades_eq_nil_iff h
  obtain ⟨request, side, orderType, body, check, call⟩ :=
    MatchingEngine.accepted_cases (after symbol clock past) hacc
  have htrades := MatchingEngine.map_trade_of_addOrder call
  constructor
  · rintro ⟨a, ha, -⟩
    rw [← Bool.not_eq_false, ← hcross, ← htrades]
    intro hnil
    rw [List.map_eq_nil_iff.mp hnil] at ha
    cases ha
  · intro hcrosses
    cases hannounced : (after symbol clock past).stepAnnouncements msg with
    | nil =>
        rw [hannounced, List.map_nil] at htrades
        rw [hcross.mp htrades.symm] at hcrosses
        cases hcrosses
    | cons a as =>
        have ha : a ∈ (after symbol clock past).stepAnnouncements msg := by
          rw [hannounced]
          exact List.mem_cons_self
        simp only [MatchingEngine.stepAnnouncements, body, check] at ha
        obtain ⟨e', -, heq⟩ := MatchingEngine.exists_of_mem_announcements
          (MatchingEngine.announces_newOrderTrade msg.sessionId _ _ side) ha
        rw [MatchingEngine.announcement_newOrderTrade] at heq
        rw [heq]
        exact ⟨_, List.mem_cons_self, _, List.mem_cons_self, rfl⟩

/-- **Every other order that is reported** rests before the message. -/
theorem executes_entered_or_resting (symbol : List UInt8) (clock : ℕ → Timestamp)
    (h : acceptedOrders (msg :: past) < 2 ^ 64)
    (hacc : MatchingEngine.isAccepted msg = true) {a : Announcement}
    (ha : a ∈ (after symbol clock past).stepAnnouncements msg)
    {p : SessionId × ExecutionReport} (hp : p ∈ a.reports) :
    p.2.orderId = (after symbol clock past).nextOrderId ∨
      p.2.orderId ∈ (after symbol clock past).orderbook.view.ids := by
  obtain ⟨request, side, orderType, body, check, call⟩ :=
    MatchingEngine.accepted_cases (after symbol clock past) hacc
  rcases leavesQty_of_mem_stepAnnouncements body check ha hp with ⟨hid, -⟩ | ⟨hid, -⟩
  · exact Or.inl hid
  · refine Or.inr ?_
    have ht : a.trade ∈ (after symbol clock past).stepTrades msg := by
      rw [← MatchingEngine.map_trade_of_addOrder call]
      exact List.mem_map_of_mem ha
    rw [hid]
    exact (parties_of_newAccepted h call ht).1

end Step

/-! ### Who has been acknowledged -/

/-- **Every order that has been entered has been acknowledged** to its owner, and no other. -/
theorem introduced_after (h : acceptedOrders past < 2 ^ 64) :
    ((∃ m ∈ (after symbol clock past).outboundQueue, m.introduces? = some i) ↔
      (entry symbol clock past i).isSome = true) ∧
    ∀ m ∈ (after symbol clock past).outboundQueue, m.introduces? = some i →
      owner symbol clock past i = some m.sessionId := by
  induction past with
  | nil =>
      refine ⟨⟨?_, fun hentry => by cases hentry⟩, fun m hm => by cases hm⟩
      rintro ⟨m, hm, -⟩
      cases hm
  | cons msg past ih =>
      have hpast := acceptedOrders_lt_of_cons h
      obtain ⟨hintroduced, howner⟩ := ih hpast
      obtain ⟨reports, answer, hresponds⟩ := (after symbol clock past).responds msg
      by_cases hnew : MatchingEngine.isAccepted msg = true ∧
          (after symbol clock past).nextOrderId = i
      · obtain ⟨hacc, rfl⟩ := hnew
        obtain ⟨request, -, -, hbody, -, -⟩ :=
          MatchingEngine.accepted_cases (after symbol clock past) hacc
        have hentry : entry symbol clock (msg :: past) (after symbol clock past).nextOrderId =
            some (msg.sessionId, request) := entry_cons_self hbody hacc
        have hanswer := hresponds.answer_introduces_iff.mpr ⟨hacc, rfl⟩
        rw [after_cons]
        refine ⟨⟨fun _ => by rw [hentry]; rfl, fun _ =>
          ⟨_, (hresponds.mem_outboundQueue_iff hanswer).mpr (Or.inr rfl), hanswer⟩⟩,
          fun m hm hi => ?_⟩
        rcases (hresponds.mem_outboundQueue_iff hi).mp hm with hold | rfl
        · have hsome := hintroduced.mp ⟨m, hold, hi⟩
          rw [entry_nextOrderId h hacc] at hsome
          cases hsome
        · rw [owner, hentry]
          rfl
      · have hentry : entry symbol clock (msg :: past) i = entry symbol clock past i :=
          entry_cons_of_ne fun hacc heq => hnew ⟨hacc, heq.symm⟩
        have hold : ∀ m : OutboundMessage, m.introduces? = some i →
            (m ∈ (after symbol clock (msg :: past)).outboundQueue ↔
              m ∈ (after symbol clock past).outboundQueue) := by
          intro m hi
          rw [after_cons, hresponds.mem_outboundQueue_iff hi]
          refine or_iff_left ?_
          rintro rfl
          exact hnew (hresponds.answer_introduces_iff.mp hi)
        refine ⟨?_, fun m hm hi => ?_⟩
        · rw [hentry, ← hintroduced]
          exact exists_congr fun m => and_congr_left (hold m)
        · rw [owner, hentry]
          exact howner m ((hold m hi).mp hm) hi

/-! ### Precedence over a run -/

/-- A message keeps the precedence for an order unless the order trades as the message enters
it. -/
theorem precedes_cons_iff (h : acceptedOrders (msg :: past) < 2 ^ 64) :
    Precedes (fun m => m.introduces? = some i) (fun m => m.executes? = some i)
        (after symbol clock (msg :: past)).outboundQueue ↔
      Precedes (fun m => m.introduces? = some i) (fun m => m.executes? = some i)
        (after symbol clock past).outboundQueue ∧
      tradesAtEntry symbol clock past msg i = false := by
  have hpast := acceptedOrders_lt_of_cons h
  obtain ⟨reports, answer, hresponds⟩ := (after symbol clock past).responds msg
  rw [after_cons, hresponds.queue, precedes_append, hresponds.precedes_iff,
    (introduced_after hpast).1]
  refine and_congr Iff.rfl ?_
  rw [tradesAtEntry]
  cases hacc : MatchingEngine.isAccepted msg with
  | false =>
      rw [(hresponds.other hacc).1]
      simp
  | true =>
      rw [hresponds.executes_iff, Bool.true_and]
      by_cases hi : (after symbol clock past).nextOrderId = i
      · subst hi
        rw [entry_nextOrderId h hacc, executes_entered_iff symbol clock h hacc]
        simp
      · simp only [hi, decide_false, Bool.false_and, iff_true]
        by_cases hreported : ∃ a ∈ (after symbol clock past).stepAnnouncements msg,
            ∃ p ∈ a.reports, p.2.orderId = i
        · obtain ⟨a, ha, p, hp, rfl⟩ := hreported
          refine Or.inl ?_
          have hrests := (executes_entered_or_resting symbol clock h hacc ha hp).resolve_left
            (Ne.symm hi)
          obtain ⟨sessionId, request, hentry, -⟩ := tracked_of_resting hpast hrests
          rw [hentry]
          rfl
        · exact Or.inr hreported

/-- **When the acknowledgement of an order precedes its reports**: exactly if the order did not
trade when it entered. -/
theorem ack_precedes_iff (past : List InboundMessage) (h : acceptedOrders past < 2 ^ 64)
    (orderId : OrderId) :
    AckPrecedes symbol clock past orderId ↔ entersQuietly symbol clock past orderId = true := by
  have hcongr : AckPrecedes symbol clock past orderId ↔
      Precedes (fun m => m.introduces? = some orderId) (fun m => m.executes? = some orderId)
        (after symbol clock past).outboundQueue :=
    precedes_congr fun m hm => and_iff_left_of_imp fun hi => (introduced_after h).2 m hm hi
  rw [hcongr]
  clear hcongr
  induction past with
  | nil => exact ⟨fun _ => rfl, fun _ => precedes_of_no_event fun m hm => by cases hm⟩
  | cons msg past ih =>
      have hpast := acceptedOrders_lt_of_cons h
      refine (precedes_cons_iff h).trans ((and_congr (ih hpast) Iff.rfl).trans ?_)
      rw [entersQuietly, entersQuietly, everyStep, Bool.and_eq_true, Bool.not_eq_true', and_comm]

/-- An order rests, and the order of another session trades with it when it enters; newest
first. -/
def takerRun : List InboundMessage :=
  [limitOrderMessage 2 .buy 100 5, limitOrderMessage 1 .sell 100 5]

/-- The order that rests is acknowledged before its trade is reported. -/
theorem ack_precedes_iff_takerRun :
    (after [] (fun _ => 0) takerRun).outboundQueue.any
        (fun msg => decide (msg.executes? = some 1)) = true ∧
      AckPrecedes [] (fun _ => 0) takerRun 1 :=
  ⟨by decide, (ack_precedes_iff takerRun (by decide) 1).mpr (by decide)⟩

/-- **The order that trades as it enters** is reported to its owner before it is acknowledged. -/
theorem not_ackPrecedes_takerRun :
    (after [] (fun _ => 0) takerRun).outboundQueue.map
        (fun msg => (msg.sessionId, msg.introduces?, msg.executes?)) =
      [(1, some 1, none), (2, none, some 2), (1, none, some 1), (2, some 2, none)] ∧
    ¬ AckPrecedes [] (fun _ => 0) takerRun 2 := by
  refine ⟨by decide, fun h => ?_⟩
  have hqueue : (after [] (fun _ => 0) takerRun).outboundQueue =
      (after [] (fun _ => 0) takerRun).outboundQueue.take 1 ++
        (after [] (fun _ => 0) takerRun).outboundQueue.get ⟨1, by decide⟩ ::
          (after [] (fun _ => 0) takerRun).outboundQueue.drop 2 := by decide
  obtain ⟨ack, hmem, hack, -⟩ := h _ _ _ hqueue (by decide)
  have hnone : ∀ m ∈ (after [] (fun _ => 0) takerRun).outboundQueue.take 1,
      m.introduces? ≠ some 2 := by decide
  exact hnone ack hmem hack

end ExchangeEngine
