import ExchangeEngine.Framing
import ExchangeEngine.Sessions

/-!
# Who Sent a Routed Request

The engine trusts the session of a request: it is the session under which the order is
tracked, and the one that may cancel it. So a request should be routed under the session of
the client that has sent it. `SenderAuthentic` says so, and that no request that comes in the
documented three frames is lost.

`processIncoming` takes three frames in each call and never asks where a message ends. A
message of another number of frames shifts the calls after it, and what they take as an
identity, a client may have written.

## Main results

* `sender_authentic`: senders are authentic in runs whose calls are all in step.
* `inStep_of_three_frames`: calls are in step if all messages have three frames.
* `not_senderAuthentic_forgedSchedule`: a client enters an order under the session of another.
-/

namespace ExchangeEngine

/-- The request of a message of three frames: identity, delimiter, and a well-formed frame. -/
def ClientMessage.request? (c : ClientMessage) : Option (Identity × InboundBody) :=
  match c.sent with
  | [_, msg] => (ZmqServer.request? msg).map fun request => (c.identity, request)
  | _ => none

/-- The queued requests with the identities of their sessions. -/
def ZmqServer.routed (server : ZmqServer) : List (Identity × InboundBody) :=
  server.sessionManager.inboundQueue.map fun m =>
    (server.sessionManager.getIdentity m.sessionId, m.body)

section Run

variable (schedule : ℕ → List ClientMessage)

/-- The server after `n` calls of `processIncoming`. -/
def served : ℕ → ZmqServer
  | 0 => .fresh fun k => framesOf (schedule k)
  | n + 1 => (served n).processIncoming

/-- The messages delivered before the end of the first `n` calls of `processIncoming`. -/
def deliveredBy (n : ℕ) : List ClientMessage :=
  delivered schedule (served schedule n).socket.recvCalls

/-- **Senders are authentic** after `n` calls: a queued request consists of bytes that the
client has sent whose identity its session has, and the requests that came in messages of
three frames are queued under the sessions of their senders, once their frames have been read.
Frames are read in time: those delivered by now, by as many more calls as there are frames
unread. -/
structure SenderAuthentic (n : ℕ) : Prop where
  sender : ∀ m ∈ (served schedule n).sessionManager.inboundQueue,
    ∃ c ∈ deliveredBy schedule n,
      (served schedule n).sessionManager.getIdentity m.sessionId = c.identity ∧
      ∃ frame ∈ c.sent, m.body.bytes <+: frame
  queued : ∀ messages rest, deliveredBy schedule n = messages ++ rest →
    (served schedule n).socket.incoming.length ≤ (framesOf rest).length →
      (messages.filterMap ClientMessage.request?).Sublist (served schedule n).routed
  reads : (served schedule n).socket.framesDelivered schedule ≤
    (served schedule (n + (served schedule n).socket.incoming.length)).socket.framesRead schedule

end Run

/-! ### Frames are read in time -/

section Reads

variable {schedule : ℕ → List ClientMessage}

theorem ZmqServer.socket_parseAndRouteMessage (server : ZmqServer) (identity : Identity)
    (msg : Frame) : (server.parseAndRouteMessage identity msg).2.socket = server.socket := by
  rw [parseAndRouteMessage]
  split
  · rfl
  · split
    · rfl
    · split
      · rfl
      · split <;> rfl

theorem ZmqServer.socket_processIncoming (server : ZmqServer) :
    server.processIncoming.socket = server.socket.receive.2 := by
  rw [processIncoming]
  split
  · rename_i socket hreceive
    rw [hreceive]
  · rename_i identity msg socket hreceive
    rw [socket_parseAndRouteMessage, socket_connect, hreceive]

theorem served_accounts (schedule : ℕ → List ClientMessage) (n : ℕ) :
    (served schedule n).socket.Accounts schedule := by
  induction n with
  | zero => exact ⟨rfl, rfl⟩
  | succ n ih =>
      rw [served, ZmqServer.socket_processIncoming]
      exact (Socket.accounts_receive ih (Nat.zero_le _)).1

/-- **Frames are read in time.** -/
theorem framesDelivered_le_framesRead (schedule : ℕ → List ClientMessage) (n : ℕ) :
    (served schedule n).socket.framesDelivered schedule ≤
      (served schedule (n + (served schedule n).socket.incoming.length)).socket.framesRead
        schedule := by
  have hrun : ∀ k, (served schedule n).socket.framesDelivered schedule ≤
        (served schedule (n + k)).socket.framesDelivered schedule ∧
      ((served schedule n).socket.framesRead schedule + k ≤
          (served schedule (n + k)).socket.framesRead schedule ∨
        (served schedule n).socket.framesDelivered schedule ≤
          (served schedule (n + k)).socket.framesRead schedule) := by
    intro k
    induction k with
    | zero => exact ⟨Nat.le_refl _, Or.inl (Nat.le_refl _)⟩
    | succ k ih =>
        obtain ⟨htarget, hread⟩ := ih
        have hstep := Socket.accounts_receive (served_accounts schedule (n + k)) htarget
        rw [← ZmqServer.socket_processIncoming] at hstep
        obtain ⟨-, htarget', hread'⟩ := hstep
        have hsucc : served schedule (n + (k + 1)) = (served schedule (n + k)).processIncoming :=
          rfl
        rw [hsucc]
        exact ⟨htarget', by omega⟩
  have hbalance := (served_accounts schedule n).balance
  rcases (hrun (served schedule n).socket.incoming.length).2 with h | h
  · omega
  · exact h

end Reads

/-! ### Requests are routed under the sessions of their senders -/

/-- **The invariant of calls in step**, over the messages that have been started and the
requests that have been routed: sessions belong to clients with such a message, a queued
request consists of bytes that the client of its session has sent, and the requests are queued
under their senders. -/
structure RoutingInv (server : ZmqServer) (done : List ClientMessage)
    (requests : List (Identity × InboundBody)) (created : List Identity) : Prop where
  sessions : server.SessionInv created
  clients : created ⊆ done.map ClientMessage.identity
  sender : ∀ m ∈ server.sessionManager.inboundQueue,
    ∃ c ∈ done, server.sessionManager.identity? m.sessionId = some c.identity ∧
      ∃ frame ∈ c.sent, m.body.bytes <+: frame
  queued : requests.Sublist server.routed

namespace RoutingInv

variable {server : ZmqServer} {done : List ClientMessage}
  {requests : List (Identity × InboundBody)} {created : List Identity}

theorem of_fresh (arrivals : ℕ → List Frame) : RoutingInv (.fresh arrivals) [] [] [] where
  sessions := ZmqServer.fresh_sessionInv arrivals
  clients := List.nil_subset _
  sender m hm := by cases hm
  queued := List.nil_sublist _

theorem with_socket (h : RoutingInv server done requests created) (socket : Socket) :
    RoutingInv { server with socket } done requests created :=
  ⟨h.sessions.with_socket socket, h.clients, h.sender, h.queued⟩

/-- Starting more messages routes nothing. -/
theorem append (h : RoutingInv server done requests created) (started : List ClientMessage) :
    RoutingInv server (done ++ started) requests created where
  sessions := h.sessions
  clients := by
    intro identity hidentity
    rw [List.map_append]
    exact List.mem_append_left _ (h.clients hidentity)
  sender := by
    intro m hm
    obtain ⟨c, hc, hsession⟩ := h.sender m hm
    exact ⟨c, List.mem_append_left _ hc, hsession⟩
  queued := h.queued

/-- Connecting a client leaves the queued requests under their clients. -/
theorem routed_connect (h : RoutingInv server done requests created) (identity : Identity) :
    (server.connect identity).routed = server.routed := by
  rw [ZmqServer.routed, ZmqServer.routed, ZmqServer.inboundQueue_connect]
  refine List.map_congr_left fun m hm => ?_
  obtain ⟨c, -, hsession, -⟩ := h.sender m hm
  rw [SessionManager.getIdentity_eq hsession,
    SessionManager.getIdentity_eq (server.identity?_connect identity hsession)]

/-- **Connecting the client of a message** keeps the invariant. -/
theorem connect (h : RoutingInv server done requests created) {identity : Identity}
    (hmem : identity ∈ done.map ClientMessage.identity)
    (hroom : (created.insert identity).length ≤ 2 ^ 32) :
    RoutingInv (server.connect identity) done requests (created.insert identity) where
  sessions := ZmqServer.connect_inv h.sessions hroom
  clients := by
    intro identity' hidentity
    rcases List.mem_insert_iff.mp hidentity with rfl | hold
    · exact hmem
    · exact h.clients hold
  sender := by
    intro m hm
    rw [ZmqServer.inboundQueue_connect] at hm
    obtain ⟨c, hc, hsession, hframe⟩ := h.sender m hm
    exact ⟨c, hc, server.identity?_connect identity hsession, hframe⟩
  queued := by
    rw [h.routed_connect]
    exact h.queued

/-- **Routing a request of a message under the session of its sender** keeps the invariant. -/
theorem route (h : RoutingInv server done requests created) {c : ClientMessage} (hc : c ∈ done)
    {sessionId : SessionId} (hsession : server.sessionManager.identity? sessionId = some c.identity)
    {request : InboundBody} (hframe : ∃ frame ∈ c.sent, request.bytes <+: frame) :
    RoutingInv { server with
        sessionManager := (server.sessionManager.routeToInbound sessionId request).2 }
      done (requests ++ [(c.identity, request)]) created where
  sessions := h.sessions.with_inboundQueue _
  clients := h.clients
  sender := by
    intro m hm
    rcases List.mem_append.mp hm with hm | hm
    · exact h.sender m hm
    · rw [List.mem_singleton.mp hm]
      exact ⟨c, hc, hsession, hframe⟩
  queued := by
    simp only [ZmqServer.routed, SessionManager.routeToInbound, List.map_append, List.map_cons,
      List.map_nil]
    refine List.Sublist.append h.queued ?_
    rw [← SessionManager.getIdentity_eq hsession]
    exact List.Sublist.refl _

/-- Fewer requests may be asked for. -/
theorem of_sublist (h : RoutingInv server done requests created)
    {requests' : List (Identity × InboundBody)} (hsub : requests'.Sublist requests) :
    RoutingInv server done requests' created :=
  ⟨h.sessions, h.clients, h.sender, hsub.trans h.queued⟩

end RoutingInv

section Run

variable {schedule : ℕ → List ClientMessage} {server : ZmqServer}
  {done todo : List ClientMessage} {left : List Frame} {created : List Identity}

/-- A message of fewer than three frames holds no request. -/
theorem ClientMessage.request?_of_short {c : ClientMessage} (h : c.sent.length < 2) :
    c.request? = none := by
  rw [request?]
  split
  · rename_i hsent
    rw [hsent] at h
    simp at h
  · rfl

/-- The request of a message of three frames or more is that of its third frame, if the
message has one. -/
theorem ClientMessage.request?_eq {c : ClientMessage} {delimiter msg : Frame} {rest : List Frame}
    (h : c.sent = delimiter :: msg :: rest) :
    c.request? = none ∨
      c.request? = (ZmqServer.request? msg).map fun request => (c.identity, request) := by
  rw [request?, h]
  cases rest with
  | nil => exact Or.inr rfl
  | cons frame rest => exact Or.inl rfl

/-- **A call in step routes the request of the message it reads**, and nothing else. -/
theorem processIncoming_inv (hcursor : FrameCursor schedule server.socket done todo left)
    (hinv : RoutingInv server done (done.filterMap ClientMessage.request?) created)
    (hstep : server.socket.inStep schedule = true)
    (hroom : ∀ ids : List Identity, ids.Nodup →
      ids ⊆ (delivered schedule server.processIncoming.socket.recvCalls).map
        ClientMessage.identity → ids.length ≤ 2 ^ 32) :
    ∃ done' todo' left' created',
      FrameCursor schedule server.processIncoming.socket done' todo' left' ∧
      RoutingInv server.processIncoming done' (done'.filterMap ClientMessage.request?)
        created' := by
  rcases receive_cases hcursor hstep with ⟨s', started, todo', left', hreceive, hcursor', hshort⟩ |
    ⟨s', c, todo', delimiter, msg, left', hreceive, hcursor', hsent⟩
  · refine ⟨done ++ started, todo', left', created, ?_, ?_⟩
    · rw [ZmqServer.socket_processIncoming, hreceive]
      exact hcursor'
    · have hnone : started.filterMap ClientMessage.request? = [] :=
        List.filterMap_eq_nil_iff.mpr fun c hc => ClientMessage.request?_of_short (hshort c hc)
      rw [ZmqServer.processIncoming, hreceive, List.filterMap_append, hnone, List.append_nil]
      exact (hinv.with_socket s').append started
  · refine ⟨done ++ [c], todo', left', created.insert c.identity, ?_, ?_⟩
    · rw [ZmqServer.socket_processIncoming, hreceive]
      exact hcursor'
    · have hmem : c.identity ∈ (done ++ [c]).map ClientMessage.identity :=
        List.mem_map_of_mem (List.mem_append_right _ (List.mem_singleton.mpr rfl))
      have hstarted := (hinv.with_socket s').append [c]
      have hroom' : (created.insert c.identity).length ≤ 2 ^ 32 := by
        refine hroom _ (hinv.sessions.nodup.insert) fun identity hidentity => ?_
        rw [ZmqServer.socket_processIncoming, hreceive, hcursor'.delivered, List.map_append]
        rcases List.mem_insert_iff.mp hidentity with rfl | hold
        · exact List.mem_append_left _ hmem
        · exact List.mem_append_left _ (hstarted.clients hold)
      have hconnected := hstarted.connect hmem hroom'
      obtain ⟨sessionId, hlookup, hsession⟩ :=
        hconnected.sessions.lookup_of_mem List.mem_insert_self
      rw [ZmqServer.processIncoming, hreceive]
      simp only [ZmqServer.parseAndRouteMessage_of_session hlookup, List.filterMap_append,
        List.filterMap_cons, List.filterMap_nil]
      cases hrequest : ZmqServer.request? msg with
      | none =>
          have hnone : c.request? = none := by
            rcases ClientMessage.request?_eq hsent with h | h
            · exact h
            · rw [h, hrequest, Option.map_none]
          rw [hnone, List.append_nil]
          exact hconnected
      | some request =>
          have hrouted := hconnected.route (List.mem_append_right _ (List.mem_singleton.mpr rfl))
            hsession ⟨msg, by rw [hsent]; simp, ZmqServer.bytes_prefix_of_request? hrequest⟩
          refine hrouted.of_sublist ((List.Sublist.refl _).append ?_)
          rcases ClientMessage.request?_eq hsent with h | h
          · rw [h]
            exact List.nil_sublist _
          · rw [h, hrequest, Option.map_some]

/-- **The run of calls in step.** -/
theorem served_inv (schedule : ℕ → List ClientMessage) (n : ℕ)
    (hstep : ∀ k < n, (served schedule k).socket.inStep schedule = true)
    (hroom : ∀ ids : List Identity, ids.Nodup →
      ids ⊆ (deliveredBy schedule n).map ClientMessage.identity → ids.length ≤ 2 ^ 32) :
    ∃ done todo left created, FrameCursor schedule (served schedule n).socket done todo left ∧
      RoutingInv (served schedule n) done (done.filterMap ClientMessage.request?) created := by
  induction n with
  | zero =>
      exact ⟨[], [], [], [], ⟨rfl, rfl, rfl, Or.inl rfl⟩, RoutingInv.of_fresh _⟩
  | succ n ih =>
      have hbefore : deliveredBy schedule n <+: deliveredBy schedule (n + 1) := by
        refine delivered_prefix schedule ?_
        rw [served, ZmqServer.socket_processIncoming]
        exact Socket.recvCalls_le_receive _
      obtain ⟨done, todo, left, created, hcursor, hinv⟩ :=
        ih (fun k hk => hstep k (Nat.lt_succ_of_lt hk)) fun ids hnodup hsub =>
          hroom ids hnodup fun identity hidentity =>
            (hbefore.map ClientMessage.identity).subset (hsub hidentity)
      exact processIncoming_inv hcursor hinv (hstep n (Nat.lt_succ_self n)) hroom

/-- Messages have been started if no more frames are unread than those of the other ones. -/
theorem started_of_read {s : Socket} (h : FrameCursor schedule s done todo left)
    {messages rest : List ClientMessage}
    (hsplit : delivered schedule s.recvCalls = messages ++ rest)
    (hread : s.incoming.length ≤ (framesOf rest).length) : messages <+: done := by
  rw [h.incoming, List.length_append] at hread
  rcases List.append_eq_append_iff.mp (h.delivered.symm.trans hsplit) with
    ⟨started, hmessages, htodo⟩ | ⟨started, hdone, -⟩
  · rw [htodo, framesOf_append, List.length_append] at hread
    have hnil : started = [] := by
      cases started with
      | nil => rfl
      | cons c started =>
          rw [framesOf_cons, List.length_cons] at hread
          omega
    rw [hmessages, hnil, List.append_nil]
  · exact ⟨started, hdone.symm⟩

end Run

/-- **Messages of three frames keep the calls in step.** -/
theorem inStep_of_three_frames {schedule : ℕ → List ClientMessage}
    (hthree : ∀ k, ∀ c ∈ schedule k, c.sent.length = 2) (n : ℕ) :
    (served schedule n).socket.inStep schedule = true := by
  have hbetween : ∃ done todo, FrameCursor schedule (served schedule n).socket done todo [] := by
    induction n with
    | zero => exact ⟨[], [], rfl, rfl, rfl, Or.inl rfl⟩
    | succ n ih =>
        obtain ⟨done, todo, hcursor⟩ := ih
        rw [served, ZmqServer.socket_processIncoming]
        exact (inStep_of_three hcursor hthree).2
  obtain ⟨done, todo, hcursor⟩ := hbetween
  exact (inStep_of_three hcursor hthree).1

/-- **When senders are authentic**: in runs whose calls are all in step with the messages, and
that have at most `2 ^ 32` clients. -/
theorem sender_authentic (schedule : ℕ → List ClientMessage) (n : ℕ)
    (hstep : ∀ k < n, (served schedule k).socket.inStep schedule = true)
    (hclients : ((deliveredBy schedule n).map ClientMessage.identity).dedup.length ≤ 2 ^ 32) :
    SenderAuthentic schedule n := by
  have hroom : ∀ ids : List Identity, ids.Nodup →
      ids ⊆ (deliveredBy schedule n).map ClientMessage.identity → ids.length ≤ 2 ^ 32 := by
    intro ids hnodup hsub
    have hdedup : ids ⊆ ((deliveredBy schedule n).map ClientMessage.identity).dedup :=
      fun identity hidentity => List.mem_dedup.mpr (hsub hidentity)
    exact (List.subperm_of_subset hnodup hdedup).length_le.trans hclients
  obtain ⟨done, todo, left, created, hcursor, hinv⟩ := served_inv schedule n hstep hroom
  refine ⟨fun m hm => ?_, fun messages rest hsplit hread => ?_,
    framesDelivered_le_framesRead schedule n⟩
  · obtain ⟨c, hc, hsession, hframe⟩ := hinv.sender m hm
    refine ⟨c, ?_, SessionManager.getIdentity_eq hsession, hframe⟩
    rw [deliveredBy, hcursor.delivered]
    exact List.mem_append_left _ hc
  · have hbegin := started_of_read hcursor hsplit hread
    exact (hbegin.sublist.filterMap _).trans hinv.queued

/-- A request for a LIMIT order of five, as the client fills it in. -/
def limitRequest (side : BuySell) (price : Price) : InboundBody :=
  .newOrder
    { header := ⟨.newOrderRequest, MessageType.newOrderRequest.size, 0⟩, clientOrderId := 0,
      side := side.toUInt8, orderType := 1, price, quantity := 5 }

/-- Two clients send requests, the first one with an empty frame after the request; later it
sends a message of two frames. -/
def mixedSchedule : ℕ → List ClientMessage
  | 0 => [
      { identity := [65], sent := [[], (limitRequest .buy 100).bytes, []]
        identity_ne := by decide, sent_ne := by decide },
      { identity := [66], sent := [[], (limitRequest .sell 101).bytes]
        identity_ne := by decide, sent_ne := by decide }]
  | 7 => [
      { identity := [65], sent := [[]], identity_ne := by decide, sent_ne := by decide }]
  | _ => []

theorem sender_authentic_mixedSchedule :
    (served mixedSchedule 4).routed =
      [([65], limitRequest .buy 100), ([66], limitRequest .sell 101)] ∧
    SenderAuthentic mixedSchedule 4 := by
  have hstep : ∀ k < 4, (served mixedSchedule k).socket.inStep mixedSchedule = true := by decide
  exact ⟨by decide, sender_authentic mixedSchedule 4 hstep (by decide)⟩

/-- One client sends a request; another sends a message of six frames, of which the last three
are what the socket would hand out for a request of the first. -/
def forgedSchedule : ℕ → List ClientMessage
  | 0 => [
      { identity := [66], sent := [[], (limitRequest .buy 100).bytes]
        identity_ne := by decide, sent_ne := by decide },
      { identity := [65], sent := [[], [0], [66], [], (limitRequest .sell 90).bytes]
        identity_ne := by decide, sent_ne := by decide }]
  | _ => []

/-- The third call routes the forged request under the session of the first client, who has
not sent it. -/
theorem not_senderAuthentic_forgedSchedule :
    (served forgedSchedule 3).sessionManager.inboundQueue =
      [⟨1, limitRequest .buy 100⟩, ⟨1, limitRequest .sell 90⟩] ∧
    ¬ SenderAuthentic forgedSchedule 3 := by
  have hqueue : (served forgedSchedule 3).sessionManager.inboundQueue =
      [⟨1, limitRequest .buy 100⟩, ⟨1, limitRequest .sell 90⟩] := by decide
  refine ⟨hqueue, fun h => ?_⟩
  have hforged := h.sender ⟨1, limitRequest .sell 90⟩ (by rw [hqueue]; simp)
  revert hforged
  decide

end ExchangeEngine
