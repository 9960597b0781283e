import ExchangeEngine.Announcements

/-!
# The Tracking Maps and the Next Order Id

Order ids are given out one after the other, so no tracking map names an order that is still to
come. This holds in every run of messages and bulk cancels, whatever ids a bulk cancel is given:
erasing entries cannot break it (`trackedBelow_run`).
-/

namespace ExchangeEngine

/-- No key of a map is the id of an order after the `n`-th. -/
def KeysBelow {α : Type*} (m : UnorderedMap OrderId α) (n : ℕ) : Prop :=
  ∀ i a, m.lookup i = some a → i.toNat ≤ n

section KeysBelow

variable {α : Type*} {m : UnorderedMap OrderId α} {i : OrderId} {n : ℕ}

theorem KeysBelow.insert (h : KeysBelow m n) (hi : i.toNat ≤ n) (a : α) :
    KeysBelow (m.insert i a) n := by
  intro j b hj
  rw [UnorderedMap.lookup_insert_ite] at hj
  split at hj
  · rename_i hji
    rw [hji]
    exact hi
  · exact h j b hj

theorem KeysBelow.erase (h : KeysBelow m n) (i : OrderId) : KeysBelow (m.erase i) n := by
  intro j b hj
  rw [UnorderedMap.lookup_erase_ite] at hj
  split at hj
  · cases hj
  · exact h j b hj

end KeysBelow

/-- **No tracking map names an order after the `n`-th.** -/
structure TrackedBelow (e : MatchingEngine) (n : ℕ) : Prop where
  session : KeysBelow e.orderToSession n
  client : KeysBelow e.orderToClientOrderId n
  orders : ∀ s, ∀ i ∈ (e.sessionOrders.lookup s).getD ∅, i.toNat ≤ n

namespace TrackedBelow

variable {e e' : MatchingEngine} {n n' : ℕ}

theorem fresh (symbol : List UInt8) (clock : ℕ → Timestamp) :
    TrackedBelow (.fresh symbol clock) 0 :=
  ⟨fun _ _ h => (by cases h), fun _ _ h => (by cases h), fun _ _ h => (by cases h)⟩

theorem mono (h : TrackedBelow e n) (hn : n ≤ n') : TrackedBelow e n' :=
  ⟨fun i a ha => (h.session i a ha).trans hn, fun i a ha => (h.client i a ha).trans hn,
    fun s i hi => (h.orders s i hi).trans hn⟩

theorem of_core (h : TrackedBelow e n) (hcore : e'.core = e.core) : TrackedBelow e' n := by
  obtain ⟨hsession, hclient, horders⟩ := MatchingEngine.maps_of_core hcore
  exact ⟨hsession ▸ h.session, hclient ▸ h.client, horders ▸ h.orders⟩

theorem setOrders (h : ∀ s, ∀ i ∈ (e.sessionOrders.lookup s).getD ∅, i.toNat ≤ n)
    {sessionId : SessionId} {ids : Finset OrderId} (hids : ∀ i ∈ ids, i.toNat ≤ n) (s : SessionId) :
    ∀ i ∈ ((e.sessionOrders.insert sessionId ids).lookup s).getD ∅, i.toNat ≤ n := by
  intro i hi
  rw [UnorderedMap.lookup_insert_ite] at hi
  split at hi
  · exact hids i hi
  · exact h s i hi

theorem trackOrder (h : TrackedBelow e n) {orderId : OrderId} (hid : orderId.toNat ≤ n)
    (sessionId : SessionId) (clientOrderId : ClientOrderId) :
    TrackedBelow (e.trackOrder sessionId orderId clientOrderId) n := by
  refine ⟨h.session.insert hid _, h.client.insert hid _, setOrders h.orders fun i hi => ?_⟩
  rcases Finset.mem_insert.mp hi with rfl | hi
  · exact hid
  · exact h.orders sessionId i hi

theorem untrackOrder (h : TrackedBelow e n) (sessionId : SessionId) (orderId : OrderId) :
    TrackedBelow (e.untrackOrder sessionId orderId) n :=
  ⟨h.session.erase _, h.client.erase _, setOrders h.orders fun i hi =>
    h.orders sessionId i (Finset.mem_of_mem_erase hi)⟩

/-- **A message keeps the bound**, with the order that it enters accounted for. -/
theorem processInboundMessage (h : TrackedBelow e n) (msg : InboundMessage)
    (hnext : MatchingEngine.isAccepted msg = true → e.nextOrderId.toNat = n + 1) :
    TrackedBelow (e.processInboundMessage msg)
      (n + if MatchingEngine.isAccepted msg then 1 else 0) := by
  have hcount : TrackedBelow e.countOrder n := ⟨h.session, h.client, h.orders⟩
  cases e.handled msg with
  | newRejected request reason _ _ _ accepted result =>
      rw [result, accepted]
      exact hcount.of_core rfl
  | newAccepted request side orderType _ _ _ accepted result =>
      rw [result, accepted, if_pos rfl]
      have hentered : TrackedBelow
          (e.countOrder.enterOrder msg.sessionId request side orderType) (n + 1) := by
        obtain ⟨hsession, hclient, horders⟩ := (hcount.mono (Nat.le_succ n)).trackOrder
          (Nat.le_of_eq (hnext accepted)) msg.sessionId request.clientOrderId
        exact ⟨hsession, hclient, horders⟩
      have hcore := e.countOrder.core_acceptNewOrder msg.sessionId request side orderType
      simp only at hcore
      split at hcore
      · exact (hentered.untrackOrder _ _).of_core hcore
      · exact hentered.of_core hcore
  | cancelRejected request _ _ _ accepted result =>
      rw [result, accepted]
      exact h.of_core rfl
  | cancelled request owner _ _ _ accepted result =>
      rw [result, accepted]
      have hcancel : TrackedBelow
          { e with orderbook := e.orderbook.cancelOrder request.orderId } n :=
        ⟨h.session, h.client, h.orders⟩
      exact (hcancel.untrackOrder owner request.orderId).of_core rfl
  | modifyRejected request reason _ _ _ accepted result =>
      rw [result, accepted]
      exact h.of_core rfl
  | modified request _ _ _ accepted result =>
      rw [result, accepted]
      have hmodify : TrackedBelow (e.callModifyOrder request) n :=
        ⟨h.session, h.client, h.orders⟩
      exact hmodify.of_core (e.core_acceptModifyOrder msg.sessionId request)

theorem cancelSession (h : TrackedBelow e n) (sessionId : SessionId)
    (orderIds : List OrderId) : TrackedBelow (e.cancelSessionOrders sessionId orderIds) n := by
  have hfold : ∀ (ids : List OrderId) (e : MatchingEngine), TrackedBelow e n →
      TrackedBelow (ids.foldl MatchingEngine.cancelForSession e) n := by
    intro ids
    induction ids with
    | nil => exact fun e h => h
    | cons i ids ih =>
        exact fun e h => ih _ ⟨h.session.erase i, h.client.erase i, h.orders⟩
  have hcancelled := hfold orderIds e h
  have herased : TrackedBelow { orderIds.foldl MatchingEngine.cancelForSession e with
      sessionOrders :=
        (orderIds.foldl MatchingEngine.cancelForSession e).sessionOrders.erase sessionId } n := by
    refine ⟨hcancelled.session, hcancelled.client, fun s i hi => ?_⟩
    rw [UnorderedMap.lookup_erase_ite] at hi
    split at hi
    · cases hi
    · exact hcancelled.orders s i hi
  rw [MatchingEngine.cancelSessionOrders]
  split
  · exact herased
  · exact herased.of_core rfl

end TrackedBelow

/-- **The bound over runs**: after `n` accepted orders the tracking maps name no order after the
`n`-th. -/
theorem trackedBelow_run (symbol : List UInt8) (clock : ℕ → Timestamp) {past : List Input}
    (h : acceptedCount past < 2 ^ 64) :
    TrackedBelow (run symbol clock past) (acceptedCount past) := by
  induction past with
  | nil => exact .fresh symbol clock
  | cons input past ih =>
      have hcount : acceptedCount (input :: past) =
          acceptedCount past + if input.isAccepted then 1 else 0 :=
        List.countP_cons ..
      rw [hcount] at h ⊢
      have htracked := ih (by omega)
      cases input with
      | message msg =>
          refine htracked.processInboundMessage msg fun hacc => ?_
          rw [show (Input.message msg).isAccepted = true from hacc, if_pos rfl] at h
          rw [(run_inv symbol clock past (by omega)).nextOrderId, UInt64.toNat_ofNat_of_lt' h]
      | cancelSession sessionId orderIds => exact htracked.cancelSession sessionId orderIds

end ExchangeEngine
