import ExchangeEngine.Sessions

/-!
# Clients That Come and Go

A client has a session from its first message until it disconnects; if it sends another message
after that, it gets a new session. The server finds the session of a client in
`identityToSession_` and the client of a session in `sessionToIdentity_`, and its session manager
has a map of each kind of its own. `LiveSessions` is the invariant of the four maps: they say what
the sessions created and the sessions destroyed in the history say.

A history is a list of calls, newest first: of `processIncoming` on a message of three frames, of
`processOutbound` on the responses in the outbound queue, of `handleClientDisconnect`.

## Main results

* `liveSessions_after`: the invariant holds in every run in which the session ids last.
* `sessions_agree`: then the maps agree, session ids are not used twice, and a response goes to the
  client whose message created its session, or nowhere.
-/

namespace ExchangeEngine

namespace ZmqServer

/-- A call of the server. -/
inductive Call
  | processIncoming (identity : Identity) (identity_ne : identity ≠ [])
      (delimiter payload : Frame)
  | processOutbound (outbound : List OutboundMessage)
  | handleClientDisconnect (identity : Identity)

/-- What a call does to the server. -/
def call (server : ZmqServer) : Call → ZmqServer
  | .processIncoming identity _ delimiter payload =>
      (server.withFrames [identity, delimiter, payload]).processIncoming
  | .processOutbound _ => server
  | .handleClientDisconnect identity => (server.handleClientDisconnect identity).2

/-- The session that a call creates, with the identity of its client: that of a message whose
sender has no session. -/
def createdBy? (server : ZmqServer) : Call → Option (SessionId × Identity)
  | .processIncoming identity _ _ _ =>
      match server.identityToSession.lookup identity with
      | some _ => none
      | none => some ((server.sessionManager.createSession identity).1, identity)
  | _ => none

/-- The session that a call destroys: that of a client that disconnects. -/
def destroyedBy? (server : ZmqServer) : Call → Option SessionId
  | .handleClientDisconnect identity => server.identityToSession.lookup identity
  | _ => none

/-- The server after a history of calls. -/
def afterCalls : List Call → ZmqServer
  | [] => .fresh fun _ => []
  | c :: past => (afterCalls past).call c

/-- The sessions created in a history, with the clients whose messages created them, newest
first. -/
def created : List Call → List (SessionId × Identity)
  | [] => []
  | c :: past => ((afterCalls past).createdBy? c).toList ++ created past

/-- The sessions destroyed in a history, newest first. -/
def destroyed : List Call → List SessionId
  | [] => []
  | c :: past => ((afterCalls past).destroyedBy? c).toList ++ destroyed past

/-- The client whose first message created a session, if the session has been created and not been
destroyed. -/
def client? (past : List Call) (sessionId : SessionId) : Option Identity :=
  if sessionId ∈ destroyed past then none else (created past).lookup sessionId

/-- **The session maps agree**, and responses reach their clients. -/
structure SessionsAgree (past : List Call) : Prop where
  maps : (afterCalls past).identityToSession =
    (afterCalls past).sessionManager.identityToSession
  inverse : ∀ identity sessionId,
    (afterCalls past).identityToSession.lookup identity = some sessionId ↔
      (afterCalls past).sessionToIdentity.lookup sessionId = some identity
  identities : ∀ sessionId, (afterCalls past).sessionManager.identity? sessionId =
    (afterCalls past).sessionToIdentity.lookup sessionId
  clients : ∀ sessionId,
    (afterCalls past).sessionToIdentity.lookup sessionId = client? past sessionId
  active : ∀ sessionId, (afterCalls past).sessionManager.isSessionActive sessionId = true ↔
    sessionId ∈ (created past).map Prod.fst ∧ sessionId ∉ destroyed past
  distinct : ∀ identity other sessionId,
    (afterCalls past).identityToSession.lookup identity = some sessionId →
    (afterCalls past).identityToSession.lookup other = some sessionId → identity = other
  valid : ∀ sessionId ∈ (created past).map Prod.fst,
    sessionId ≠ INVALID_SESSION_ID ∧ sessionId ≠ DUMMY_SESSION_ID
  /-- An id that has been destroyed is never given out again. -/
  notReused : ∀ newer c older, past = newer ++ c :: older → ∀ sessionId ∈ destroyed older,
    ∀ identity, (afterCalls older).createdBy? c ≠ some (sessionId, identity)
  responses : ∀ outbound, (afterCalls past).processOutbound outbound =
    outbound.filterMap fun msg =>
      (client? past msg.sessionId).map fun identity => (identity, msg.body)

/-! ### The invariant -/

/-- A session has been created exactly if some client's message created it. -/
theorem mem_map_fst_iff {created : List (SessionId × Identity)} {sessionId : SessionId} :
    sessionId ∈ created.map Prod.fst ↔ (created.lookup sessionId).isSome := by
  rw [List.lookup_isSome_iff, List.mem_map]
  constructor
  · rintro ⟨c, hc, rfl⟩
    exact ⟨c, hc, beq_self_eq_true _⟩
  · rintro ⟨c, hc, heq⟩
    exact ⟨c, hc, (eq_of_beq heq).symm⟩

/-- **The invariant of the session maps**, given the sessions created and destroyed so far. The
sessions are numbered from 1 in the order of their creation. -/
structure LiveSessions (server : ZmqServer) (created : List (SessionId × Identity))
    (destroyed : List SessionId) : Prop where
  maps : server.identityToSession = server.sessionManager.identityToSession
  inverse : server.identityToSession.Inverse server.sessionToIdentity
  sessions : ∀ sessionId, server.sessionManager.sessions.lookup sessionId =
    (server.sessionToIdentity.lookup sessionId).map (SessionInfo.new sessionId)
  live : ∀ sessionId, server.sessionToIdentity.lookup sessionId =
    if sessionId ∈ destroyed then none else created.lookup sessionId
  next : server.sessionManager.nextSessionId.toNat = created.length + 1
  numbered : ∀ sessionId ∈ created.map Prod.fst,
    1 ≤ sessionId.toNat ∧ sessionId.toNat ≤ created.length
  nodup : (created.map Prod.fst).Nodup
  destroyed_created : ∀ sessionId ∈ destroyed, sessionId ∈ created.map Prod.fst

theorem liveSessions_fresh (arrivals : ℕ → List Frame) :
    (fresh arrivals).LiveSessions [] [] where
  maps := rfl
  inverse identity sessionId := by simp [fresh]
  sessions sessionId := by simp [fresh, SessionManager.fresh]
  live sessionId := by simp [fresh]
  next := rfl
  numbered sessionId h := by cases h
  nodup := List.nodup_nil
  destroyed_created sessionId h := by cases h

namespace LiveSessions

variable {server : ZmqServer} {created : List (SessionId × Identity)}
  {destroyed : List SessionId} {identity : Identity}

/-- The next session id has not been given out. -/
theorem next_notMem (h : server.LiveSessions created destroyed) :
    server.sessionManager.nextSessionId ∉ created.map Prod.fst := by
  intro hmem
  have hle := (h.numbered _ hmem).2
  rw [h.next] at hle
  omega

theorem lookup_next (h : server.LiveSessions created destroyed) :
    server.sessionToIdentity.lookup server.sessionManager.nextSessionId = none := by
  rw [h.live]
  split
  · rfl
  · exact Option.not_isSome_iff_eq_none.mp (mt mem_map_fst_iff.mpr h.next_notMem)

/-- The invariant is about the sessions only. -/
theorem of_eq (h : server.LiveSessions created destroyed) (socket : Socket)
    (inboundQueue : List InboundMessage) :
    ({ server with
        socket
        sessionManager := { server.sessionManager with inboundQueue } } :
      ZmqServer).LiveSessions created destroyed :=
  ⟨h.maps, h.inverse, h.sessions, h.live, h.next, h.numbered, h.nodup, h.destroyed_created⟩

/-- What connecting a client does that has no session. -/
theorem connect_eq (h : server.LiveSessions created destroyed)
    (hnew : server.identityToSession.lookup identity = none) :
    server.connect identity =
      { server with
        sessionManager := { server.sessionManager with
          nextSessionId := server.sessionManager.nextSessionId + 1
          sessions := server.sessionManager.sessions.insert server.sessionManager.nextSessionId
            (.new server.sessionManager.nextSessionId identity)
          identityToSession := server.sessionManager.identityToSession.insert identity
            server.sessionManager.nextSessionId }
        identityToSession :=
          server.identityToSession.insert identity server.sessionManager.nextSessionId
        sessionToIdentity :=
          server.sessionToIdentity.insert server.sessionManager.nextSessionId identity } := by
  have hmanager : server.sessionManager.identityToSession.lookup identity = none := by
    rw [← h.maps]
    exact hnew
  have hunused : server.sessionManager.sessions.lookup server.sessionManager.nextSessionId =
      none := by
    rw [h.sessions, h.lookup_next]
    rfl
  simp only [connect, hnew, SessionManager.createSession, hmanager, hunused, Option.isSome_none,
    Bool.false_eq_true, if_false]

/-- **A client that connects** gets a session that has not been created before. -/
theorem connect (h : server.LiveSessions created destroyed)
    (hnew : server.identityToSession.lookup identity = none)
    (hroom : created.length + 1 < 2 ^ 32 - 1) :
    (server.connect identity).LiveSessions
      ((server.sessionManager.nextSessionId, identity) :: created) destroyed := by
  have hnext := h.next_notMem
  have hunused := h.lookup_next
  have hlength : server.sessionManager.nextSessionId.toNat = created.length + 1 := h.next
  rw [h.connect_eq hnew]
  constructor
  · simp only [h.maps]
  · exact UnorderedMap.Inverse.insert h.inverse hnew hunused
  · intro sessionId
    simp only [UnorderedMap.lookup_insert_ite]
    split
    · rename_i hid
      rw [hid]
      rfl
    · exact h.sessions sessionId
  · intro sessionId
    simp only [UnorderedMap.lookup_insert_ite, List.lookup_cons]
    by_cases hid : sessionId = server.sessionManager.nextSessionId
    · have hlive : sessionId ∉ destroyed := fun hmem =>
        hnext (hid ▸ h.destroyed_created sessionId hmem)
      simp [hid, hid ▸ hlive]
    · simp [hid, h.live, beq_eq_false_iff_ne.mpr hid]
  · simp only [List.length_cons, UInt32.toNat_add, hlength, UInt32.toNat_one]
    omega
  · intro sessionId hmem
    rcases List.mem_cons.mp hmem with rfl | hmem
    · rw [List.length_cons, hlength]
      omega
    · have hnumbered := h.numbered sessionId hmem
      rw [List.length_cons]
      omega
  · exact List.nodup_cons.mpr ⟨hnext, h.nodup⟩
  · intro sessionId hmem
    exact List.mem_cons_of_mem _ (h.destroyed_created sessionId hmem)

/-- **A client that disconnects** has no session any more, and its session no client. -/
theorem disconnect (h : server.LiveSessions created destroyed) {sessionId : SessionId}
    (hlive : server.identityToSession.lookup identity = some sessionId) :
    (server.handleClientDisconnect identity).2.LiveSessions created (sessionId :: destroyed) := by
  have hclient := (h.inverse identity sessionId).mp hlive
  have hsession : server.sessionManager.sessions.lookup sessionId =
      some (.new sessionId identity) := by
    rw [h.sessions, hclient]
    rfl
  have herase : (server.handleClientDisconnect identity).2 =
      { server with
        sessionManager := { server.sessionManager with
          identityToSession := server.sessionManager.identityToSession.erase identity
          sessions := server.sessionManager.sessions.erase sessionId }
        sessionToIdentity := server.sessionToIdentity.erase sessionId
        identityToSession := server.identityToSession.erase identity } := by
    simp only [handleClientDisconnect, hlive, SessionManager.destroySession, hsession]
    rfl
  rw [herase]
  constructor
  · simp only [h.maps]
  · exact UnorderedMap.Inverse.erase h.inverse hlive
  · intro sessionId'
    simp only [UnorderedMap.lookup_erase_ite]
    split
    · rfl
    · exact h.sessions sessionId'
  · intro sessionId'
    simp only [UnorderedMap.lookup_erase_ite, List.mem_cons]
    by_cases hid : sessionId' = sessionId
    · simp [hid]
    · simp [hid, h.live]
  · exact h.next
  · exact h.numbered
  · exact h.nodup
  · intro sessionId' hmem
    rcases List.mem_cons.mp hmem with rfl | hmem
    · have hsome := h.live sessionId'
      rw [hclient] at hsome
      split at hsome
      · cases hsome
      · rw [mem_map_fst_iff, ← hsome]
        rfl
    · exact h.destroyed_created sessionId' hmem

/-- Routing a message changes no map. -/
theorem parseAndRouteMessage (h : server.LiveSessions created destroyed) (identity : Identity)
    (msg : Frame) :
    (server.parseAndRouteMessage identity msg).2.LiveSessions created destroyed := by
  rw [ZmqServer.parseAndRouteMessage]
  split
  · exact h
  · split
    · exact h
    · split
      · exact h
      · split
        · exact h
        · exact h.of_eq _ _

/-- The session that a message creates. -/
theorem createdBy?_processIncoming (h : server.LiveSessions created destroyed)
    (hnew : server.identityToSession.lookup identity = none) (hne : identity ≠ [])
    (delimiter payload : Frame) :
    server.createdBy? (.processIncoming identity hne delimiter payload) =
      some (server.sessionManager.nextSessionId, identity) := by
  have hmanager : server.sessionManager.identityToSession.lookup identity = none := by
    rw [← h.maps]
    exact hnew
  simp only [createdBy?, hnew, SessionManager.createSession, hmanager]

/-- **Every call keeps the invariant.** -/
theorem call (h : server.LiveSessions created destroyed) (c : Call)
    (hroom : ((server.createdBy? c).toList ++ created).length < 2 ^ 32 - 1) :
    (server.call c).LiveSessions ((server.createdBy? c).toList ++ created)
      ((server.destroyedBy? c).toList ++ destroyed) := by
  cases c with
  | processIncoming identity hne delimiter payload =>
      have hread : server.afterThree.LiveSessions created destroyed := h.of_eq _ _
      rw [ZmqServer.call, processIncoming_withFrames server hne]
      refine LiveSessions.parseAndRouteMessage ?_ identity payload
      cases hlookup : server.identityToSession.lookup identity with
      | some sessionId =>
          have hconnected : server.afterThree.connect identity = server.afterThree := by
            rw [ZmqServer.connect, show server.afterThree.identityToSession.lookup identity =
              some sessionId from hlookup]
          simp only [hconnected, createdBy?, hlookup]
          exact hread
      | none =>
          rw [h.createdBy?_processIncoming hlookup] at hroom ⊢
          exact hread.connect hlookup hroom
  | processOutbound outbound => exact h
  | handleClientDisconnect identity =>
      cases hlookup : server.identityToSession.lookup identity with
      | some sessionId =>
          simp only [destroyedBy?, hlookup]
          exact h.disconnect hlookup
      | none =>
          simp only [ZmqServer.call, ZmqServer.handleClientDisconnect, destroyedBy?, hlookup]
          exact h

/-- The live sessions are those created and not destroyed. -/
theorem isSessionActive_iff (h : server.LiveSessions created destroyed) (sessionId : SessionId) :
    server.sessionManager.isSessionActive sessionId = true ↔
      sessionId ∈ created.map Prod.fst ∧ sessionId ∉ destroyed := by
  rw [SessionManager.isSessionActive, h.sessions, h.live]
  by_cases hdestroyed : sessionId ∈ destroyed
  · simp [hdestroyed]
  · rw [if_neg hdestroyed, mem_map_fst_iff]
    cases created.lookup sessionId with
    | none => simp
    | some identity => simp [SessionInfo.new, hdestroyed]

end LiveSessions

/-! ### Runs -/

/-- **The invariant holds in every run** in which the session ids last. -/
theorem liveSessions_after (past : List Call) (hroom : (created past).length < 2 ^ 32 - 1) :
    (afterCalls past).LiveSessions (created past) (destroyed past) := by
  induction past with
  | nil => exact liveSessions_fresh _
  | cons c past ih =>
      have hpast : (created past).length < 2 ^ 32 - 1 := by
        rw [created, List.length_append] at hroom
        omega
      exact (ih hpast).call c hroom

/-- Sessions that have been created stay created. -/
theorem created_suffix (newer older : List Call) : created older <:+ created (newer ++ older) := by
  induction newer with
  | nil => exact List.suffix_refl _
  | cons c newer ih => exact ih.trans (List.suffix_append _ _)

/-- **The session maps agree and responses reach their clients**, in every run that creates fewer
sessions than there are ids. -/
theorem sessions_agree (past : List Call) (hroom : (created past).length < 2 ^ 32 - 1) :
    SessionsAgree past := by
  have h := liveSessions_after past hroom
  constructor
  · exact h.maps
  · exact h.inverse
  · intro sessionId
    rw [SessionManager.identity?, h.sessions, Option.map_map]
    exact Option.map_id'
  · exact h.live
  · exact h.isSessionActive_iff
  · intro identity other sessionId hidentity hother
    have hclient := (h.inverse identity sessionId).mp hidentity
    rw [(h.inverse other sessionId).mp hother] at hclient
    exact (Option.some.inj hclient).symm
  · intro sessionId hmem
    have hnumbered := h.numbered sessionId hmem
    constructor
    · rintro rfl
      exact absurd hnumbered.1 (by decide)
    · rintro rfl
      have hle : DUMMY_SESSION_ID.toNat ≤ (created past).length := hnumbered.2
      rw [show DUMMY_SESSION_ID.toNat = 2 ^ 32 - 1 from rfl] at hle
      omega
  · rintro newer c older rfl sessionId hdestroyed identity hcreated
    have hsuffix : created (c :: older) <:+ created (newer ++ c :: older) :=
      created_suffix newer (c :: older)
    have hsuffix' : created older <:+ created (newer ++ c :: older) :=
      (created_suffix [c] older).trans hsuffix
    have holder := liveSessions_after older (hsuffix'.length_le.trans_lt hroom)
    have hnodup : ((created (c :: older)).map Prod.fst).Nodup :=
      h.nodup.sublist (hsuffix.sublist.map Prod.fst)
    rw [created, hcreated] at hnodup
    exact (List.nodup_cons.mp hnodup).1 (holder.destroyed_created sessionId hdestroyed)
  · intro outbound
    refine List.filterMap_congr fun msg _ => ?_
    rw [recipient?, show (afterCalls past).sessionToIdentity.lookup msg.sessionId =
      client? past msg.sessionId from h.live msg.sessionId]
    cases client? past msg.sessionId <;> rfl

/-- A client sends a message, disconnects, and sends another message; newest first. -/
def reconnectRun : List Call :=
  [.processIncoming [82] (by decide) [] [1], .handleClientDisconnect [82],
    .processIncoming [82] (by decide) [] []]

/-- The client gets a new session, and the responses that are left of the old one are dropped. -/
theorem sessions_agree_reconnectRun :
    created reconnectRun = [(2, [82]), (1, [82])] ∧ destroyed reconnectRun = [1] ∧
      SessionsAgree reconnectRun :=
  ⟨by decide, by decide, sessions_agree reconnectRun (by decide)⟩

end ZmqServer

end ExchangeEngine
