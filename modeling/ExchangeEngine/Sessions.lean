import ExchangeEngine.ZmqServer

/-!
# Sessions and Identities

The server and its session manager keep the same map from identities to sessions, and give the
sessions the numbers `1`, `2`, … in the order of their creation. `SessionInv` is this invariant,
over the list of the identities for which a session was created, newest first. It needs that
no more than `2 ^ 32` sessions are created: after that their numbers wrap around.

## Main results

* `connect_inv`: connecting a client keeps the invariant.
* `identity?_connect`: a session keeps its identity when other sessions are created.
-/

namespace ExchangeEngine

/-- The identity of the client whose session it is, if there is such a session. -/
def SessionManager.identity? (m : SessionManager) (sessionId : SessionId) : Option Identity :=
  (m.sessions.lookup sessionId).map SessionInfo.zmqIdentity

theorem SessionManager.getIdentity_eq {m : SessionManager} {sessionId : SessionId}
    {identity : Identity} (h : m.identity? sessionId = some identity) :
    m.getIdentity sessionId = identity := by
  obtain ⟨session, hsession, rfl⟩ := Option.map_eq_some_iff.mp h
  rw [getIdentity, hsession]

namespace ZmqServer

/-- **The invariant of sessions.** The identity that was created after `older` others has
session `older.length + 1`, in the maps of the server and of its session manager, and there
are no other sessions. -/
structure SessionInv (server : ZmqServer) (created : List Identity) : Prop where
  nodup : created.Nodup
  agree : server.identityToSession = server.sessionManager.identityToSession
  next : server.sessionManager.nextSessionId = UInt32.ofNat (created.length + 1)
  session : ∀ newer identity older, created = newer ++ identity :: older →
    server.identityToSession.lookup identity = some (UInt32.ofNat (older.length + 1)) ∧
    server.sessionManager.identity? (UInt32.ofNat (older.length + 1)) = some identity
  mem_created : ∀ identity sessionId,
    server.identityToSession.lookup identity = some sessionId → identity ∈ created
  numbered : ∀ sessionId identity, server.sessionManager.identity? sessionId = some identity →
    ∃ i < created.length, sessionId = UInt32.ofNat (i + 1)

theorem fresh_sessionInv (arrivals : ℕ → List Frame) : (fresh arrivals).SessionInv [] where
  nodup := List.nodup_nil
  agree := rfl
  next := rfl
  session newer identity older h := by simp at h
  mem_created identity sessionId h := by simp [fresh] at h
  numbered sessionId identity h := by
    simp [fresh, SessionManager.fresh, SessionManager.identity?] at h

/-- The invariant is about the sessions only. -/
theorem SessionInv.with_socket {server : ZmqServer} {created : List Identity}
    (h : server.SessionInv created) (socket : Socket) :
    ({ server with socket } : ZmqServer).SessionInv created :=
  ⟨h.nodup, h.agree, h.next, h.session, h.mem_created, h.numbered⟩

theorem SessionInv.with_inboundQueue {server : ZmqServer} {created : List Identity}
    (h : server.SessionInv created) (inboundQueue : List InboundMessage) :
    ({ server with sessionManager := { server.sessionManager with inboundQueue } } :
      ZmqServer).SessionInv created :=
  ⟨h.nodup, h.agree, h.next, h.session, h.mem_created, h.numbered⟩

section Connect

variable {server : ZmqServer} {created : List Identity} {identity : Identity}

/-- A client with a session is found under it, and the session under the client. -/
theorem SessionInv.lookup_of_mem (h : server.SessionInv created) (hmem : identity ∈ created) :
    ∃ sessionId, server.identityToSession.lookup identity = some sessionId ∧
      server.sessionManager.identity? sessionId = some identity := by
  obtain ⟨newer, older, hsplit⟩ := List.append_of_mem hmem
  exact ⟨_, h.session newer identity older hsplit⟩

theorem connect_of_mem (h : server.SessionInv created) (hmem : identity ∈ created) :
    server.connect identity = server := by
  obtain ⟨sessionId, hlookup, -⟩ := h.lookup_of_mem hmem
  rw [connect, hlookup]

/-- The number of the next session is not in use. -/
theorem SessionInv.next_unused (h : server.SessionInv created) (hroom : created.length < 2 ^ 32) :
    server.sessionManager.sessions.lookup (UInt32.ofNat (created.length + 1)) = none := by
  cases hused : server.sessionManager.sessions.lookup (UInt32.ofNat (created.length + 1)) with
  | none => rfl
  | some session =>
      obtain ⟨i, hi, heq⟩ := h.numbered (UInt32.ofNat (created.length + 1)) session.zmqIdentity
        (by rw [SessionManager.identity?, hused, Option.map_some])
      -- both numbers are from 1 to 2 ^ 32, so they agree only if they are equal
      have hmod := congrArg UInt32.toNat heq
      rw [UInt32.toNat_ofNat', UInt32.toNat_ofNat'] at hmod
      omega

/-- What connecting a new client does. -/
theorem connect_of_notMem (h : server.SessionInv created) (hmem : identity ∉ created)
    (hroom : created.length < 2 ^ 32) :
    server.connect identity =
      { server with
        sessionManager := { server.sessionManager with
          nextSessionId := UInt32.ofNat (created.length + 1) + 1
          sessions := server.sessionManager.sessions.insert (UInt32.ofNat (created.length + 1))
            (.new (UInt32.ofNat (created.length + 1)) identity)
          identityToSession := server.sessionManager.identityToSession.insert identity
            (UInt32.ofNat (created.length + 1)) }
        identityToSession :=
          server.identityToSession.insert identity (UInt32.ofNat (created.length + 1))
        sessionToIdentity :=
          server.sessionToIdentity.insert (UInt32.ofNat (created.length + 1)) identity } := by
  have hnone : server.identityToSession.lookup identity = none := by
    cases hlookup : server.identityToSession.lookup identity with
    | none => rfl
    | some sessionId => exact absurd (h.mem_created identity sessionId hlookup) hmem
  have hmanager : server.sessionManager.identityToSession.lookup identity = none := by
    rw [← h.agree]
    exact hnone
  have hunused : server.sessionManager.sessions.lookup server.sessionManager.nextSessionId =
      none := by
    rw [h.next]
    exact h.next_unused hroom
  simp only [connect, hnone, SessionManager.createSession, hmanager, hunused, Option.isSome_none,
    Bool.false_eq_true, if_false, h.next]

/-- **Connecting a client keeps the invariant**, as long as the session numbers last. -/
theorem connect_inv (h : server.SessionInv created)
    (hroom : (created.insert identity).length ≤ 2 ^ 32) :
    (server.connect identity).SessionInv (created.insert identity) := by
  by_cases hmem : identity ∈ created
  · rw [List.insert_of_mem hmem, connect_of_mem h hmem]
    exact h
  · rw [List.insert_of_not_mem hmem, List.length_cons] at hroom
    rw [List.insert_of_not_mem hmem, connect_of_notMem h hmem hroom]
    constructor
    · exact List.nodup_cons.mpr ⟨hmem, h.nodup⟩
    · rw [h.agree]
    · rw [List.length_cons, UInt32.ofNat_add (created.length + 1) 1]
      rfl
    · intro newer identity' older hsplit
      rcases List.cons_eq_append_iff.mp hsplit with ⟨rfl, hnew⟩ | ⟨newer', rfl, hold⟩
      · obtain ⟨rfl, rfl⟩ := List.cons.inj hnew
        constructor
        · exact Finmap.lookup_insert _
        · rw [SessionManager.identity?, Finmap.lookup_insert]
          rfl
      · obtain ⟨hlookup, hidentity⟩ := h.session newer' identity' older hold
        have hne : identity' ≠ identity := by
          rintro rfl
          exact hmem (hold ▸ List.mem_append_right _ (List.mem_cons_self ..))
        have hunused := h.next_unused hroom
        constructor
        · rw [Finmap.lookup_insert_of_ne _ hne]
          exact hlookup
        · rw [SessionManager.identity?] at hidentity ⊢
          rw [UnorderedMap.lookup_insert_ite, if_neg]
          · exact hidentity
          · intro heq
            rw [heq, hunused] at hidentity
            cases hidentity
    · intro identity' sessionId hlookup
      rw [UnorderedMap.lookup_insert_ite] at hlookup
      split at hlookup
      · rename_i heq
        rw [heq]
        exact List.mem_cons_self ..
      · exact List.mem_cons_of_mem _ (h.mem_created identity' sessionId hlookup)
    · intro sessionId identity' hidentity
      rw [SessionManager.identity?, UnorderedMap.lookup_insert_ite] at hidentity
      split at hidentity
      · rename_i heq
        exact ⟨created.length, by rw [List.length_cons]; omega, heq⟩
      · obtain ⟨i, hi, heq⟩ := h.numbered sessionId identity' hidentity
        exact ⟨i, by rw [List.length_cons]; omega, heq⟩

end Connect

/-! ### What connecting a client leaves unchanged -/

section Frame

variable (server : ZmqServer) (identity : Identity)

theorem socket_connect : (server.connect identity).socket = server.socket := by
  rw [connect]
  split <;> rfl

theorem inboundQueue_connect : (server.connect identity).sessionManager.inboundQueue =
    server.sessionManager.inboundQueue := by
  rw [connect]
  split
  · rfl
  · rw [SessionManager.createSession]
    split <;> rfl

/-- A connected client has a session. -/
theorem exists_lookup_connect :
    ∃ sessionId, (server.connect identity).identityToSession.lookup identity = some sessionId := by
  rw [connect]
  cases hlookup : server.identityToSession.lookup identity with
  | some sessionId => exact ⟨sessionId, hlookup⟩
  | none => exact ⟨_, Finmap.lookup_insert _⟩

/-- **A client keeps its session.** -/
theorem lookup_connect {other : Identity} {sessionId : SessionId}
    (h : server.identityToSession.lookup other = some sessionId) :
    (server.connect identity).identityToSession.lookup other = some sessionId := by
  rw [connect]
  cases hlookup : server.identityToSession.lookup identity with
  | some _ => exact h
  | none =>
      simp only
      rw [UnorderedMap.lookup_insert_ite, if_neg]
      · exact h
      · rintro rfl
        rw [hlookup] at h
        cases h

/-- **A session keeps its identity.** -/
theorem identity?_connect {sessionId : SessionId} {owner : Identity}
    (h : server.sessionManager.identity? sessionId = some owner) :
    (server.connect identity).sessionManager.identity? sessionId = some owner := by
  rw [connect]
  split
  · exact h
  · rw [SessionManager.createSession]
    split
    · exact h
    · simp only [SessionManager.identity?]
      split
      · exact h
      · rename_i hnew
        rw [UnorderedMap.lookup_insert_ite, if_neg]
        · exact h
        · rintro rfl
          rw [SessionManager.identity?, Option.not_isSome_iff_eq_none.mp hnew] at h
          cases h

end Frame

end ZmqServer

end ExchangeEngine
