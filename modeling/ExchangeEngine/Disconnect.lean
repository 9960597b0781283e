import ExchangeEngine.Exchange
import ExchangeEngine.Ownership
import ExchangeEngine.Routing

/-!
# Disconnects

When a session is destroyed, the session manager hands the active orders of the session to the
exchange, which has the engine cancel them. The active orders are a register of their own, next
to the engine's tracking maps. It is filled by `addOrderToSession`, which nothing in the program
calls: the register of every session stays empty, and the callback is never called.

## Main results

* `matchingEngine_after`: over a run of the exchange the engine does what the messages make it
  do, and destroying sessions does nothing to it.
* `disconnect_cancels_iff`: the orders of a destroyed session are gone exactly if it never
  entered one.
-/

open PriceTime

namespace ExchangeEngine

namespace SessionManager

variable {m : SessionManager} {sessionId : SessionId}

/-- No session has active orders. -/
def NoActiveOrders (m : SessionManager) : Prop :=
  ∀ sessionId session, m.sessions.lookup sessionId = some session → session.activeOrders = ∅

/-- Without active orders the callback is not called. -/
theorem NoActiveOrders.destroySession (h : m.NoActiveOrders) (sessionId : SessionId) :
    (m.destroySession sessionId).1 = none ∧ (m.destroySession sessionId).2.NoActiveOrders := by
  rw [SessionManager.destroySession]
  cases hsession : m.sessions.lookup sessionId with
  | none => exact ⟨rfl, h⟩
  | some session =>
      refine ⟨if_pos (h sessionId session hsession), fun s other hother => ?_⟩
      rw [UnorderedMap.lookup_erase_ite] at hother
      split at hother
      · cases hother
      · exact h s other hother

theorem NoActiveOrders.destroySessions (h : m.NoActiveOrders) (sessionIds : List SessionId) :
    (m.destroySessions sessionIds).1 = [] ∧ (m.destroySessions sessionIds).2.NoActiveOrders := by
  induction sessionIds generalizing m with
  | nil => exact ⟨rfl, h⟩
  | cons sessionId sessionIds ih =>
      obtain ⟨hnone, hdestroyed⟩ := h.destroySession sessionId
      obtain ⟨hrest, hkept⟩ := ih hdestroyed
      rw [SessionManager.destroySessions, hnone, hrest]
      exact ⟨rfl, hkept⟩

/-- A new session has no active orders. -/
theorem NoActiveOrders.createSession (h : m.NoActiveOrders) (identity : Identity) :
    (m.createSession identity).2.NoActiveOrders := by
  rw [SessionManager.createSession]
  split
  · exact h
  · intro s session hsession
    simp only at hsession
    split at hsession
    · exact h s session hsession
    · rw [UnorderedMap.lookup_insert_ite] at hsession
      split at hsession
      · rw [← Option.some.inj hsession]
        rfl
      · exact h s session hsession

end SessionManager

namespace ZmqServer

variable {server : ZmqServer}

theorem noActiveOrders_connect (h : server.sessionManager.NoActiveOrders) (identity : Identity) :
    (server.connect identity).sessionManager.NoActiveOrders := by
  rw [connect]
  split
  · exact h
  · exact h.createSession identity

/-- Reading a message gives no session an active order. -/
theorem noActiveOrders_processIncoming (h : server.sessionManager.NoActiveOrders) :
    server.processIncoming.sessionManager.NoActiveOrders := by
  rw [processIncoming]
  split
  · exact h
  · rename_i identity msg socket _
    have hreceived : { server with socket }.sessionManager.NoActiveOrders := h
    have hconnected := noActiveOrders_connect hreceived identity
    rw [parseAndRouteMessage]
    split
    · exact hconnected
    · split
      · exact hconnected
      · split
        · exact hconnected
        · split <;> exact hconnected

theorem noActiveOrders_handleClientDisconnect (h : server.sessionManager.NoActiveOrders)
    (identity : Identity) :
    (server.handleClientDisconnect identity).1 = none ∧
      (server.handleClientDisconnect identity).2.sessionManager.NoActiveOrders := by
  rw [handleClientDisconnect]
  split
  · exact ⟨rfl, h⟩
  · rename_i sessionId _
    exact h.destroySession sessionId

/-- Stopping the server does not call the callback either. -/
theorem calls_stop (h : server.sessionManager.NoActiveOrders)
    (iterate : UnorderedMap Identity SessionId → List SessionId) :
    (server.stop iterate).1 = [] ∧ (server.stop iterate).2.sessionManager.NoActiveOrders :=
  h.destroySessions _

end ZmqServer

namespace Exchange

variable {iterate : Finset OrderId → List OrderId} {x : Exchange}

/-- **Destroying a session leaves the engine alone.** -/
theorem matchingEngine_destroySession (h : x.zmqServer.sessionManager.NoActiveOrders)
    (sessionId : SessionId) :
    (x.destroySession iterate sessionId).matchingEngine = x.matchingEngine := by
  rw [destroySession, (h.destroySession sessionId).1]
  rfl

/-- **The callback is never called**: no step gives a session an active order, and only the
thread of the engine changes the engine. -/
theorem step_inv (h : x.zmqServer.sessionManager.NoActiveOrders) (action : Action) :
    (x.step iterate action).zmqServer.sessionManager.NoActiveOrders ∧
      (action ≠ .processInbound →
        (x.step iterate action).matchingEngine = x.matchingEngine) := by
  cases action with
  | processIncoming => exact ⟨ZmqServer.noActiveOrders_processIncoming h, fun _ => rfl⟩
  | processOutbound => exact ⟨h, fun _ => rfl⟩
  | processInbound =>
      refine ⟨?_, fun hne => absurd rfl hne⟩
      rw [step, processInbound]
      split <;> exact h
  | generateOrder request => exact ⟨h, fun _ => rfl⟩
  | handleClientDisconnect identity =>
      obtain ⟨hnone, hempty⟩ := ZmqServer.noActiveOrders_handleClientDisconnect h identity
      rw [step, handleClientDisconnect, hnone]
      exact ⟨hempty, fun _ => rfl⟩

variable (iterate) (arrivals : ℕ → List Frame) (symbol : List UInt8) (clock : ℕ → Timestamp)

theorem noActiveOrders_after (past : List Action) :
    (after iterate arrivals symbol clock past).zmqServer.sessionManager.NoActiveOrders := by
  induction past with
  | nil =>
      intro sessionId session h
      cases h
  | cons action past ih => exact (step_inv ih action).1

/-- **The engine of a running exchange** is the engine after the messages that it has
processed. -/
theorem matchingEngine_after (past : List Action) :
    (after iterate arrivals symbol clock past).matchingEngine =
      ExchangeEngine.after symbol clock (processed iterate arrivals symbol clock past) := by
  induction past with
  | nil => rfl
  | cons action past ih =>
      have hstep : action ≠ .processInbound →
          (after iterate arrivals symbol clock (action :: past)).matchingEngine =
            (after iterate arrivals symbol clock past).matchingEngine :=
        (step_inv (noActiveOrders_after iterate arrivals symbol clock past) action).2
      cases action with
      | processInbound =>
          rw [after, step, processInbound, processed]
          split
          · exact ih
          · rw [after_cons, ← ih]
      | processIncoming => exact (hstep (by simp)).trans ih
      | processOutbound => exact (hstep (by simp)).trans ih
      | generateOrder request => exact (hstep (by simp)).trans ih
      | handleClientDisconnect identity => exact (hstep (by simp)).trans ih

end Exchange

/-! ### What remains of a session -/

section Remains

variable {symbol : List UInt8} {clock : ℕ → Timestamp} {past : List InboundMessage}
  {sessionId : SessionId}

/-- Whether the engine has a set of orders for a session, possibly an empty one. -/
def HasOrders (e : MatchingEngine) (sessionId : SessionId) : Prop :=
  (e.sessionOrders.lookup sessionId).isSome

theorem hasOrders_untrackOrder (e : MatchingEngine) (owner : SessionId) (orderId : OrderId) :
    HasOrders (e.untrackOrder owner orderId) sessionId ↔
      owner = sessionId ∨ HasOrders e sessionId := by
  rw [HasOrders, HasOrders, MatchingEngine.untrackOrder, UnorderedMap.lookup_insert_ite]
  split
  · rename_i h
    simp [h]
  · rename_i h
    simp [Ne.symm h]

theorem hasOrders_enterOrder (e : MatchingEngine) (owner : SessionId)
    (request : NewOrderRequest) (side : BuySell) (orderType : OrderType) :
    HasOrders (e.enterOrder owner request side orderType) sessionId ↔
      owner = sessionId ∨ HasOrders e sessionId := by
  rw [HasOrders, HasOrders, MatchingEngine.enterOrder, MatchingEngine.registerOrder,
    MatchingEngine.trackOrder, UnorderedMap.lookup_insert_ite]
  split
  · rename_i h
    simp [h]
  · rename_i h
    simp [Ne.symm h]

theorem HasOrders.congr {e e' : MatchingEngine} (h : e'.core = e.core) :
    HasOrders e' sessionId ↔ HasOrders e sessionId := by
  rw [HasOrders, HasOrders, (MatchingEngine.maps_of_core h).2.2]

/-- An accepted request leaves its session with a set of orders, even if the order does not
rest. -/
theorem hasOrders_acceptNewOrder (e : MatchingEngine) (owner : SessionId)
    (request : NewOrderRequest) (side : BuySell) (orderType : OrderType) :
    HasOrders (e.acceptNewOrder owner request side orderType) sessionId ↔
      owner = sessionId ∨ HasOrders e sessionId := by
  have hcore := e.core_acceptNewOrder owner request side orderType
  simp only at hcore
  split at hcore
  · rw [HasOrders.congr hcore, hasOrders_untrackOrder, hasOrders_enterOrder, or_self_left]
  · rw [HasOrders.congr hcore, hasOrders_enterOrder]

/-- The session of a tracked order has a set of orders. -/
theorem Represents.hasOrders {e : MatchingEngine} {register : Register}
    (h : Represents e register) {orderId : OrderId}
    (htracked : e.orderToSession.lookup orderId = some sessionId) : HasOrders e sessionId := by
  have hmem := (h.orders sessionId orderId).mpr ((h.session orderId).symm.trans htracked)
  rw [HasOrders, Option.isSome_iff_ne_none]
  intro hnone
  rw [hnone, Option.getD_none] at hmem
  exact Finset.notMem_empty orderId hmem

/-- **The sessions with a set of orders** after a message: those that had one before, and the
one whose request was accepted. -/
theorem hasOrders_processInboundMessage {e : MatchingEngine} {register : Register}
    (hrep : Represents e register) (msg : InboundMessage) :
    HasOrders (e.processInboundMessage msg) sessionId ↔
      (msg.sessionId = sessionId ∧ MatchingEngine.isAccepted msg = true) ∨
        HasOrders e sessionId := by
  have hkept : ∀ {e' : MatchingEngine}, MatchingEngine.isAccepted msg = false →
      e'.sessionOrders = e.sessionOrders →
      (HasOrders e' sessionId ↔
        (msg.sessionId = sessionId ∧ MatchingEngine.isAccepted msg = true) ∨
          HasOrders e sessionId) := by
    intro e' haccepted heq
    simp [HasOrders, heq, haccepted]
  cases e.handled msg with
  | newRejected request reason _ _ _ accepted result => rw [result]; exact hkept accepted rfl
  | newAccepted request side orderType _ _ _ accepted result =>
      rw [result, hasOrders_acceptNewOrder, accepted]
      simp [HasOrders, MatchingEngine.countOrder]
  | cancelRejected request _ _ _ accepted result => rw [result]; exact hkept accepted rfl
  | cancelled request owner _ auth _ accepted result =>
      have htracked : e.orderToSession.lookup request.orderId = some owner :=
        (MatchingEngine.authorize_eq_some auth).1
      have hsame : HasOrders (e.processInboundMessage msg) sessionId ↔
          HasOrders (e.cancelTracked owner request.orderId) sessionId := by
        rw [result]
        exact HasOrders.congr rfl
      rw [hsame, MatchingEngine.cancelTracked, hasOrders_untrackOrder, accepted]
      simp only [Bool.false_eq_true, and_false, false_or]
      refine ⟨fun h => h.elim ?_ id, Or.inr⟩
      rintro rfl
      exact hrep.hasOrders htracked
  | modifyRejected request reason _ _ _ accepted result => rw [result]; exact hkept accepted rfl
  | modified request _ _ _ accepted result =>
      rw [result]
      exact hkept accepted (congrArg EngineCore.sessionOrders
        (e.core_acceptModifyOrder msg.sessionId request))

/-- The sessions with a set of orders are those that have entered an order. -/
theorem hasOrders_after (h : acceptedOrders past < 2 ^ 64) :
    HasOrders (after symbol clock past) sessionId ↔
      ∃ msg ∈ past, msg.sessionId = sessionId ∧ MatchingEngine.isAccepted msg = true := by
  induction past with
  | nil =>
      constructor
      · intro hnone
        cases hnone
      · rintro ⟨msg, hmem, -⟩
        cases hmem
  | cons msg past ih =>
      have hpast := acceptedOrders_lt_of_cons h
      obtain ⟨register, hrep, -⟩ := represents_after symbol clock hpast
      rw [after_cons, hasOrders_processInboundMessage hrep, ih hpast]
      simp only [List.mem_cons, exists_eq_or_imp]

end Remains

/-! ### Disconnects -/

/-- **A disconnect cancels the session's orders**: no order that the session entered rests, the
tracking maps have nothing left of the session, and the orders of other sessions and their
tracking are as before. -/
structure CancelsOrders (sessionId : SessionId) (e e' : MatchingEngine) : Prop where
  resting : ∀ p ∈ e'.orderbook.resting, (e'.orderbook.heap.read p).sessionId ≠ sessionId
  sessionOrders : e'.sessionOrders.lookup sessionId = none
  orderToSession : ∀ i, e'.orderToSession.lookup i ≠ some sessionId
  orderToClientOrderId : ∀ i ∈ e'.orderToClientOrderId, ∃ owner ≠ sessionId,
    e'.orderToSession.lookup i = some owner
  othersQueue : ∀ s, e'.orderbook.queueOfOthers sessionId s =
    e.orderbook.queueOfOthers sessionId s
  othersSession : ∀ i, ∀ owner ≠ sessionId,
    e'.orderToSession.lookup i = some owner ↔ e.orderToSession.lookup i = some owner
  othersClient : ∀ i, ∀ owner ≠ sessionId, e.orderToSession.lookup i = some owner →
    e'.orderToClientOrderId.lookup i = e.orderToClientOrderId.lookup i
  othersOrders : ∀ owner ≠ sessionId,
    e'.sessionOrders.lookup owner = e.sessionOrders.lookup owner

section Run

variable (symbol : List UInt8) (clock : ℕ → Timestamp)

/-- An engine that is left alone has nothing of a session exactly if it has no set of orders
for it. -/
theorem cancelsOrders_self_iff {past : List InboundMessage} {sessionId : SessionId}
    (h : acceptedOrders past < 2 ^ 64) :
    CancelsOrders sessionId (after symbol clock past) (after symbol clock past) ↔
      ¬ HasOrders (after symbol clock past) sessionId := by
  obtain ⟨register, hrep, -⟩ := represents_after symbol clock h
  rw [HasOrders, Option.not_isSome_iff_eq_none]
  refine ⟨CancelsOrders.sessionOrders, fun hnone => ?_⟩
  have hmap : ∀ i, (after symbol clock past).orderToSession.lookup i ≠ some sessionId := by
    intro i hi
    have hhas := hrep.hasOrders hi
    rw [HasOrders, hnone] at hhas
    cases hhas
  refine ⟨fun p hp heq => ?_, hnone, hmap, fun i hi => ?_, fun _ => rfl, fun _ _ _ => Iff.rfl,
    fun _ _ _ _ => rfl, fun _ _ => rfl⟩
  · obtain ⟨_, -, hlookup, -⟩ := tracked_of_mem_resting symbol clock h hp
    exact hmap _ (heq ▸ hlookup)
  · rw [← Finmap.lookup_isSome, hrep.client, Option.isSome_map] at hi
    obtain ⟨p, hp⟩ := Option.isSome_iff_exists.mp hi
    have hlookup : (after symbol clock past).orderToSession.lookup i = some p.1 := by
      rw [hrep.session, hp, Option.map_some]
    refine ⟨p.1, fun heq => hmap i ?_, hlookup⟩
    rw [hlookup, heq]

variable (iterate : Finset OrderId → List OrderId) (arrivals : ℕ → List Frame)

/-- **When a disconnect cancels the session's orders**: if no request of the session for a new
order has ever been accepted. -/
theorem disconnect_cancels_iff (past : List Exchange.Action) (sessionId : SessionId)
    (h : acceptedOrders (Exchange.processed iterate arrivals symbol clock past) < 2 ^ 64) :
    let x := Exchange.after iterate arrivals symbol clock past
    CancelsOrders sessionId x.matchingEngine
        (x.destroySession iterate sessionId).matchingEngine ↔
      ∀ msg ∈ Exchange.processed iterate arrivals symbol clock past,
        msg.sessionId = sessionId → MatchingEngine.isAccepted msg = false := by
  have hempty := Exchange.noActiveOrders_after iterate arrivals symbol clock past
  simp only [Exchange.matchingEngine_destroySession hempty, Exchange.matchingEngine_after]
  rw [cancelsOrders_self_iff symbol clock h, hasOrders_after h]
  simp only [not_exists, not_and, Bool.not_eq_true]

end Run

/-- Two clients, of which the second asks for a LIMIT order without a price. -/
def disconnectArrivals : ℕ → List Frame
  | 0 => [[65], [], (limitRequest .sell 100).bytes, [66], [], (limitRequest .buy 0).bytes]
  | _ => []

/-- Both requests are processed. -/
def disconnectRun : List Exchange.Action :=
  [.processInbound, .processInbound, .processOutbound, .processIncoming, .processIncoming]

/-- The session of the client whose request was rejected has nothing to cancel. -/
theorem disconnect_cancels_iff_disconnectRun :
    let x := Exchange.after Finset.toList disconnectArrivals [] (fun _ => 0) disconnectRun
    x.zmqServer.sessionManager.isSessionActive 2 = true ∧ x.inboundQueue = [] ∧
    CancelsOrders 2 x.matchingEngine (x.destroySession Finset.toList 2).matchingEngine := by
  refine ⟨by decide, by decide, ?_⟩
  exact (disconnect_cancels_iff [] (fun _ => 0) Finset.toList disconnectArrivals disconnectRun 2
    (by decide)).mpr (by decide)

/-- The order of the other client still rests after its session has been destroyed. -/
theorem not_cancelsOrders_disconnectRun :
    let x := Exchange.after Finset.toList disconnectArrivals [] (fun _ => 0) disconnectRun
    x.zmqServer.sessionManager.isSessionActive 1 = true ∧ x.inboundQueue = [] ∧
    (x.destroySession Finset.toList 1).matchingEngine.orderbook.view.ids = [1] ∧
    ¬ CancelsOrders 1 x.matchingEngine (x.destroySession Finset.toList 1).matchingEngine := by
  refine ⟨by decide, by decide, by decide, fun h => ?_⟩
  have hnone := h.sessionOrders
  revert hnone
  decide

end ExchangeEngine
