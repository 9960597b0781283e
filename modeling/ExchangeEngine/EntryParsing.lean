import ExchangeEngine.Lib.BoundedQueue
import ExchangeEngine.MatchingEngine
import ExchangeEngine.ZmqServer

/-!
# Order Entry, Byte by Byte

`parseAndRouteMessage` casts a pointer to the bytes of a message first to its header and then to
the struct that its type byte names, and copies the struct into a union whose tag it sets itself.
Nothing in the types keeps the casts inside the message, or the tag in agreement with the member
of the union. Here both are part of the model: a read is made at the offset of a field, and is a
fault if it goes beyond the end of the message; a union remembers which member was written, and
reading another one is a fault.

* `routeBytes`: `parseAndRouteMessage` and `routeToInbound` in these terms.
* `processTagged`: `processInboundMessage` in these terms.
* `routeBytes_eq`: the parser finds the request that `ZmqServer.request?` finds, without a fault.

## Main results

* `entry_parsing_exact`: exactly the well-formed messages are queued, as the requests that their
  bytes encode, and every queued message is processed without a fault.
-/

namespace ExchangeEngine

/-! ### Messages with a tag and a union -/

/-- The type of a request. -/
def InboundBody.type : InboundBody → MessageType
  | .newOrder _ => .newOrderRequest
  | .cancelOrder _ => .cancelOrderRequest
  | .modifyOrder _ => .modifyOrderRequest

/-- The header of a request, which every struct starts with. -/
def InboundBody.header : InboundBody → MessageHeader
  | .newOrder request => request.header
  | .cancelOrder request => request.header
  | .modifyOrder request => request.header

/-- `InboundMessage` as it is in memory: a tag, and a union of which `member` was written last. -/
structure TaggedMessage where
  sessionId : SessionId
  type : MessageType
  member : InboundBody
  deriving DecidableEq, Repr

namespace TaggedMessage

/-! Reading a member of the union, a fault if another member was written. -/

def newOrder (msg : TaggedMessage) : Option NewOrderRequest :=
  match msg.member with
  | .newOrder request => some request
  | _ => none

def cancelOrder (msg : TaggedMessage) : Option CancelOrderRequest :=
  match msg.member with
  | .cancelOrder request => some request
  | _ => none

def modifyOrder (msg : TaggedMessage) : Option ModifyOrderRequest :=
  match msg.member with
  | .modifyOrder request => some request
  | _ => none

/-- The message without its tag. -/
def untagged (msg : TaggedMessage) : InboundMessage where
  sessionId := msg.sessionId
  body := msg.member

end TaggedMessage

/-- `processInboundMessage`: the tag says which member is read. -/
def MatchingEngine.processTagged (e : MatchingEngine) (msg : TaggedMessage) :
    Option MatchingEngine :=
  match msg.type with
  | .newOrderRequest => msg.newOrder.map (e.handleNewOrder msg.sessionId)
  | .cancelOrderRequest => msg.cancelOrder.map (e.handleCancelOrder msg.sessionId)
  | .modifyOrderRequest => msg.modifyOrder.map (e.handleModifyOrder msg.sessionId)
  | _ => some e

/-- **A message whose tag names its member** is processed without a fault, as the message that it
stands for. -/
theorem MatchingEngine.processTagged_eq (e : MatchingEngine) {msg : TaggedMessage}
    (h : msg.type = msg.member.type) :
    e.processTagged msg = some (e.processInboundMessage msg.untagged) := by
  obtain ⟨sessionId, type, member⟩ := msg
  cases member with
  | newOrder request =>
      obtain rfl : type = .newOrderRequest := h
      rfl
  | cancelOrder request =>
      obtain rfl : type = .cancelOrderRequest := h
      rfl
  | modifyOrder request =>
      obtain rfl : type = .modifyOrderRequest := h
      rfl

/-! ### Reading the structs -/

/-- `*static_cast<const NewOrderRequest*>(msg.data())`. -/
def newOrderRequestAt (msg : Frame) : Option NewOrderRequest := do
  let header ← headerAt msg
  let clientOrderId ← Wire.uint64.readAt msg 11
  let side ← Wire.uint8.readAt msg 19
  let orderType ← Wire.uint8.readAt msg 20
  let price ← Wire.int32.readAt msg 21
  let quantity ← Wire.uint32.readAt msg 25
  return { header, clientOrderId, side, orderType, price, quantity }

/-- `*static_cast<const CancelOrderRequest*>(msg.data())`. -/
def cancelOrderRequestAt (msg : Frame) : Option CancelOrderRequest := do
  let header ← headerAt msg
  let clientOrderId ← Wire.uint64.readAt msg 11
  let orderId ← Wire.uint64.readAt msg 19
  return { header, clientOrderId, orderId }

/-- `*static_cast<const ModifyOrderRequest*>(msg.data())`. -/
def modifyOrderRequestAt (msg : Frame) : Option ModifyOrderRequest := do
  let header ← headerAt msg
  let clientOrderId ← Wire.uint64.readAt msg 11
  let orderId ← Wire.uint64.readAt msg 19
  let newPrice ← Wire.int32.readAt msg 27
  let newQuantity ← Wire.uint32.readAt msg 31
  return { header, clientOrderId, orderId, newPrice, newQuantity }

/-- A request is what the bytes at the front of a message encode. -/
def InboundBody.DecodesFrom (msg : Frame) : InboundBody → Prop
  | .newOrder request => newOrderRequestAt msg = some request
  | .cancelOrder request => cancelOrderRequestAt msg = some request
  | .modifyOrder request => modifyOrderRequestAt msg = some request

section Read

variable {msg : Frame} {header : MessageHeader}

/-! A struct is its fields at their offsets. -/

theorem newOrderRequestAt_eq (msg : Frame) :
    newOrderRequestAt msg = Wire.newOrderRequest.read msg := by
  rw [← Layout.readAt_zero, newOrderRequestAt, headerAt_eq, Wire.newOrderRequest]
  simp only [Layout.readAt_map, Layout.readAt_prod, Option.map_eq_bind, Option.bind_eq_bind,
    Option.bind_assoc, Option.bind_some, Option.pure_def, Function.comp_def, Nat.zero_add]
  rfl

theorem cancelOrderRequestAt_eq (msg : Frame) :
    cancelOrderRequestAt msg = Wire.cancelOrderRequest.read msg := by
  rw [← Layout.readAt_zero, cancelOrderRequestAt, headerAt_eq, Wire.cancelOrderRequest]
  simp only [Layout.readAt_map, Layout.readAt_prod, Option.map_eq_bind, Option.bind_eq_bind,
    Option.bind_assoc, Option.bind_some, Option.pure_def, Function.comp_def, Nat.zero_add]
  rfl

theorem modifyOrderRequestAt_eq (msg : Frame) :
    modifyOrderRequestAt msg = Wire.modifyOrderRequest.read msg := by
  rw [← Layout.readAt_zero, modifyOrderRequestAt, headerAt_eq, Wire.modifyOrderRequest]
  simp only [Layout.readAt_map, Layout.readAt_prod, Option.map_eq_bind, Option.bind_eq_bind,
    Option.bind_assoc, Option.bind_some, Option.pure_def, Function.comp_def, Nat.zero_add]
  rfl

/-! Inside the message there is something to read. -/

theorem exists_newOrderRequest (hheader : headerAt msg = some header)
    (hsize : Wire.newOrderRequest.size ≤ msg.length) :
    ∃ request, Wire.newOrderRequest.read msg = some request :=
  exists_read_of_header
    (Wire.total_uint64.prod (Wire.total_uint8.prod (Wire.total_uint8.prod
      (Wire.total_int32.prod Wire.total_uint32))))
    (fun _ => ⟨_, rfl⟩) hheader hsize

theorem exists_cancelOrderRequest (hheader : headerAt msg = some header)
    (hsize : Wire.cancelOrderRequest.size ≤ msg.length) :
    ∃ request, Wire.cancelOrderRequest.read msg = some request :=
  exists_read_of_header (Wire.total_uint64.prod Wire.total_uint64) (fun _ => ⟨_, rfl⟩) hheader
    hsize

theorem exists_modifyOrderRequest (hheader : headerAt msg = some header)
    (hsize : Wire.modifyOrderRequest.size ≤ msg.length) :
    ∃ request, Wire.modifyOrderRequest.read msg = some request :=
  exists_read_of_header
    (Wire.total_uint64.prod (Wire.total_uint64.prod (Wire.total_int32.prod Wire.total_uint32)))
    (fun _ => ⟨_, rfl⟩) hheader hsize

end Read

/-! ### Parsing and routing -/

section Route

variable {limit : ℕ}

/-- The inbound queue of the exchange, which refuses a message when it is full. -/
abbrev InboundQueue (limit : ℕ) := BoundedQueue TaggedMessage limit

/-- The three overloads of `routeToInbound`: each sets the tag and writes the member. -/
def routeTagged (queue : InboundQueue limit) (sessionId : SessionId) :
    InboundBody → Bool × InboundQueue limit
  | .newOrder request =>
      queue.push { sessionId, type := .newOrderRequest, member := .newOrder request }
  | .cancelOrder request =>
      queue.push { sessionId, type := .cancelOrderRequest, member := .cancelOrder request }
  | .modifyOrder request =>
      queue.push { sessionId, type := .modifyOrderRequest, member := .modifyOrder request }

/-- `parseAndRouteMessage`, with every read at its offset: none if one of them is beyond the end
of the message. -/
def routeBytes (identityToSession : UnorderedMap Identity SessionId) (queue : InboundQueue limit)
    (identity : Identity) (msg : Frame) : Option (Bool × InboundQueue limit) :=
  -- sizeof(MessageHeader)
  if msg.length < 11 then some (false, queue)
  else
    match identityToSession.lookup identity with
    | none => some (false, queue)
    | some sessionId => do
        let length ← Wire.uint16.readAt msg 1
        if msg.length < length.toNat then return (false, queue)
        let type ← Wire.uint8.readAt msg 0
        match MessageType.ofUInt8 type with
        | some .newOrderRequest =>
            if MessageType.newOrderRequest.size.toNat ≤ msg.length then
              let request ← newOrderRequestAt msg
              return routeTagged queue sessionId (.newOrder request)
            else return (false, queue)
        | some .cancelOrderRequest =>
            if MessageType.cancelOrderRequest.size.toNat ≤ msg.length then
              let request ← cancelOrderRequestAt msg
              return routeTagged queue sessionId (.cancelOrder request)
            else return (false, queue)
        | some .modifyOrderRequest =>
            if MessageType.modifyOrderRequest.size.toNat ≤ msg.length then
              let request ← modifyOrderRequestAt msg
              return routeTagged queue sessionId (.modifyOrder request)
            else return (false, queue)
        | _ => return (false, queue)

variable {identityToSession : UnorderedMap Identity SessionId} {queue : InboundQueue limit}
  {identity : Identity} {sessionId : SessionId} {msg : Frame}

theorem routeTagged_eq (queue : InboundQueue limit) (sessionId : SessionId)
    (request : InboundBody) :
    routeTagged queue sessionId request =
      queue.push { sessionId, type := request.type, member := request } := by
  cases request <;> rfl

theorem routeTagged_of_room (hroom : queue.items.length < limit) (sessionId : SessionId)
    (request : InboundBody) :
    (routeTagged queue sessionId request).1 = true ∧
      (routeTagged queue sessionId request).2.items =
        queue.items ++ [{ sessionId, type := request.type, member := request }] := by
  rw [routeTagged_eq]
  exact BoundedQueue.push_of_room hroom _

/-- A struct that fits into the message is read and routed, one that does not is refused. -/
theorem routeStruct_eq {α : Type} {struct : Layout α} {found : Option α}
    (hread : found = struct.read msg)
    (hfound : struct.size ≤ msg.length → ∃ request, struct.read msg = some request)
    (member : α → InboundBody) :
    (if struct.size ≤ msg.length then
        found.bind fun request => some (routeTagged queue sessionId (member request))
      else some (false, queue)) = some
      (match (struct.read msg).map member with
      | none => (false, queue)
      | some request => routeTagged queue sessionId request) := by
  split
  · rename_i hle
    obtain ⟨request, hrequest⟩ := hfound hle
    rw [hread, hrequest]
    rfl
  · rename_i hlt
    rw [Layout.read_eq_none (Nat.lt_of_not_le hlt)]
    rfl

/-- **The parser makes no fault, and finds the request** that is in the message. -/
theorem routeBytes_eq (hsession : identityToSession.lookup identity = some sessionId) :
    routeBytes identityToSession queue identity msg = some
      (match ZmqServer.request? msg with
      | none => (false, queue)
      | some request => routeTagged queue sessionId request) := by
  rw [routeBytes, ZmqServer.request?]
  split
  · rename_i hshort
    rw [Layout.read_eq_none hshort]
  rename_i hlong
  have hsize : 11 ≤ msg.length := by omega
  obtain ⟨type, length, timestamp, hraw, hbyte, hlength, -⟩ := exists_rawHeader hsize
  have htype := (readAt_uint8_zero msg).trans hbyte
  simp only [hsession, hraw, hlength, htype, Option.bind_eq_bind, Option.bind_some]
  split
  · rfl
  rw [ZmqServer.requestOfType?]
  cases hname : MessageType.ofUInt8 type with
  | none => rfl
  | some name =>
      obtain ⟨header, hheader⟩ := exists_headerAt htype (by simp [hname]) hsize
      cases name with
      | newOrderRequest =>
          exact routeStruct_eq (newOrderRequestAt_eq msg) (exists_newOrderRequest hheader)
            InboundBody.newOrder
      | cancelOrderRequest =>
          exact routeStruct_eq (cancelOrderRequestAt_eq msg) (exists_cancelOrderRequest hheader)
            InboundBody.cancelOrder
      | modifyOrderRequest =>
          exact routeStruct_eq (modifyOrderRequestAt_eq msg) (exists_modifyOrderRequest hheader)
            InboundBody.modifyOrder
      | _ => rfl

/-! ### Well-formed messages -/

/-- **A well-formed message**: it has a header, it is as long as the header says, and it is at
least as long as the struct of the request that its type byte names. -/
def WellFormed (msg : Frame) : Prop :=
  11 ≤ msg.length ∧ Layout.littleEndian ((msg.drop 1).take 2) ≤ msg.length ∧
    (msg[0]? = some 1 ∧ 29 ≤ msg.length ∨ msg[0]? = some 2 ∧ 27 ≤ msg.length ∨
      msg[0]? = some 3 ∧ 35 ≤ msg.length)

instance (msg : Frame) : Decidable (WellFormed msg) :=
  inferInstanceAs (Decidable (_ ∧ _ ∧ _))

/-- The request in a message that names a type: what its bytes encode, if there are enough. -/
theorem exists_requestOfType_iff {type : UInt8} (htype : msg[0]? = some type)
    (hsize : 11 ≤ msg.length) :
    (∃ request, ZmqServer.requestOfType? type msg = some request) ↔
      (type = 1 ∧ 29 ≤ msg.length ∨ type = 2 ∧ 27 ≤ msg.length ∨ type = 3 ∧ 35 ≤ msg.length) := by
  constructor
  · rintro ⟨request, h⟩
    rw [ZmqServer.requestOfType?] at h
    split at h
    · rename_i hname
      obtain ⟨_, hread, -⟩ := Option.map_eq_some_iff.mp h
      exact Or.inl ⟨(MessageType.ofUInt8_eq_some_iff.mp hname).symm,
        Layout.size_le_of_read hread⟩
    · rename_i hname
      obtain ⟨_, hread, -⟩ := Option.map_eq_some_iff.mp h
      exact Or.inr (Or.inl ⟨(MessageType.ofUInt8_eq_some_iff.mp hname).symm,
        Layout.size_le_of_read hread⟩)
    · rename_i hname
      obtain ⟨_, hread, -⟩ := Option.map_eq_some_iff.mp h
      exact Or.inr (Or.inr ⟨(MessageType.ofUInt8_eq_some_iff.mp hname).symm,
        Layout.size_le_of_read hread⟩)
    · cases h
  · have hread := (readAt_uint8_zero msg).trans htype
    rintro (⟨rfl, hle⟩ | ⟨rfl, hle⟩ | ⟨rfl, hle⟩)
    · obtain ⟨header, hheader⟩ := exists_headerAt hread (by decide) hsize
      obtain ⟨request, hrequest⟩ := exists_newOrderRequest hheader hle
      exact ⟨.newOrder request, congrArg (Option.map InboundBody.newOrder) hrequest⟩
    · obtain ⟨header, hheader⟩ := exists_headerAt hread (by decide) hsize
      obtain ⟨request, hrequest⟩ := exists_cancelOrderRequest hheader hle
      exact ⟨.cancelOrder request, congrArg (Option.map InboundBody.cancelOrder) hrequest⟩
    · obtain ⟨header, hheader⟩ := exists_headerAt hread (by decide) hsize
      obtain ⟨request, hrequest⟩ := exists_modifyOrderRequest hheader hle
      exact ⟨.modifyOrder request, congrArg (Option.map InboundBody.modifyOrder) hrequest⟩

/-- **Exactly the well-formed messages have a request in them.** -/
theorem exists_request_iff (msg : Frame) :
    (∃ request, ZmqServer.request? msg = some request) ↔ WellFormed msg := by
  rw [ZmqServer.request?, WellFormed]
  by_cases hsize : 11 ≤ msg.length
  · obtain ⟨type, length, timestamp, hraw, hbyte, -, hlength⟩ := exists_rawHeader hsize
    simp only [hraw, hbyte, ← hlength, hsize, true_and, Option.some.injEq]
    by_cases hlong : length.toNat ≤ msg.length
    · rw [if_neg (Nat.not_lt.mpr hlong), exists_requestOfType_iff hbyte hsize]
      exact (and_iff_right hlong).symm
    · rw [if_pos (Nat.lt_of_not_le hlong)]
      exact iff_of_false (by simp) fun h => hlong h.1
  · rw [Layout.read_eq_none (Nat.lt_of_not_le hsize)]
    exact iff_of_false (by simp) fun h => hsize h.1

/-- The request in a message is what its bytes encode, and has the type that they name. -/
theorem decodesFrom_of_request {request : InboundBody}
    (h : ZmqServer.request? msg = some request) : request.DecodesFrom msg := by
  rw [ZmqServer.request?] at h
  split at h
  · cases h
  split at h
  · cases h
  rw [ZmqServer.requestOfType?] at h
  split at h
  · obtain ⟨r, hr, rfl⟩ := Option.map_eq_some_iff.mp h
    exact (newOrderRequestAt_eq msg).trans hr
  · obtain ⟨r, hr, rfl⟩ := Option.map_eq_some_iff.mp h
    exact (cancelOrderRequestAt_eq msg).trans hr
  · obtain ⟨r, hr, rfl⟩ := Option.map_eq_some_iff.mp h
    exact (modifyOrderRequestAt_eq msg).trans hr
  · cases h

/-- A request takes as many bytes as its struct. -/
theorem InboundBody.length_bytes (request : InboundBody) :
    request.bytes.length = request.type.size.toNat := by
  obtain ⟨-, -, hnew, hcancel, hmodify⟩ := Wire.sizes
  cases request with
  | newOrder request => exact (Wire.newOrderRequest.length_write request).trans hnew
  | cancelOrder request => exact (Wire.cancelOrderRequest.length_write request).trans hcancel
  | modifyOrder request => exact (Wire.modifyOrderRequest.length_write request).trans hmodify

/-- **A request as its constructor leaves the header**: the type is its own, and no more bytes
are declared than it has. -/
structure InboundBody.Constructed (request : InboundBody) : Prop where
  type : request.header.type = request.type
  length : request.header.length.toNat ≤ request.bytes.length

theorem InboundBody.constructed_of_size {request : InboundBody}
    (htype : request.header.type = request.type)
    (hlength : request.header.length = request.type.size) : request.Constructed :=
  ⟨htype, by rw [hlength, request.length_bytes]⟩

/-- **The round trip**: the request is found in its own bytes, whatever follows them. -/
theorem request_bytes {request : InboundBody} (h : request.Constructed) (trailing : List UInt8) :
    ZmqServer.request? (request.bytes ++ trailing) = some request := by
  obtain ⟨htype, hlength⟩ := h
  have hraw : ∀ rest, Wire.rawHeader.read (Wire.messageHeader.write request.header ++ rest) =
      some (request.header.type.toUInt8, request.header.length, request.header.timestamp) :=
    fun rest => Wire.rawHeader.read_write_append _ rest
  have hlong : ¬ (request.bytes ++ trailing).length < request.header.length.toNat := by
    rw [List.length_append]
    omega
  have hname := MessageType.ofUInt8_eq_some_iff.mpr (congrArg MessageType.toUInt8 htype).symm
  have hbytes : ∃ rest, request.bytes ++ trailing =
      Wire.messageHeader.write request.header ++ rest := by
    cases request <;> exact ⟨_, List.append_assoc _ _ _⟩
  obtain ⟨rest, hrest⟩ := hbytes
  rw [ZmqServer.request?, hrest, hraw, ← hrest]
  simp only [if_neg hlong, ZmqServer.requestOfType?, hname]
  cases request with
  | newOrder r =>
      exact congrArg (Option.map InboundBody.newOrder)
        (Wire.newOrderRequest.read_write_append r trailing)
  | cancelOrder r =>
      exact congrArg (Option.map InboundBody.cancelOrder)
        (Wire.cancelOrderRequest.read_write_append r trailing)
  | modifyOrder r =>
      exact congrArg (Option.map InboundBody.modifyOrder)
        (Wire.modifyOrderRequest.read_write_append r trailing)

/-! ### What order entry promises -/

/-- No message makes the parser read beyond its end, whoever sends it. -/
theorem routeBytes_ne_none (identityToSession : UnorderedMap Identity SessionId)
    (queue : InboundQueue limit) (identity : Identity) (msg : Frame) :
    routeBytes identityToSession queue identity msg ≠ none := by
  cases hlook : identityToSession.lookup identity with
  | none =>
      rw [routeBytes, hlook]
      split <;> exact nofun
  | some sessionId =>
      rw [routeBytes_eq hlook]
      exact nofun

/-- The inbound queues that can come about: clients send messages, the dummy generator enters
requests, and the engine takes messages out. -/
inductive Queued : InboundQueue limit → Prop
  | empty : Queued .empty
  | routed {queue queue' : InboundQueue limit} {routed : Bool}
      (identityToSession : UnorderedMap Identity SessionId) (identity : Identity) (msg : Frame)
      (before : Queued queue)
      (result : routeBytes identityToSession queue identity msg = some (routed, queue')) :
      Queued queue'
  | generated {queue : InboundQueue limit} (request : NewOrderRequest) (before : Queued queue) :
      Queued (queue.push
        { sessionId := DUMMY_SESSION_ID, type := .newOrderRequest, member := .newOrder request }).2
  | popped {queue : InboundQueue limit} (before : Queued queue) : Queued queue.pop.2

/-- **Every queued message has the tag of its member.** -/
theorem Queued.type_eq {queue : InboundQueue limit} (h : Queued queue) :
    ∀ m ∈ queue.items, m.type = m.member.type := by
  have hpush : ∀ (queue : InboundQueue limit) (item : TaggedMessage),
      (∀ m ∈ queue.items, m.type = m.member.type) → item.type = item.member.type →
      ∀ m ∈ (queue.push item).2.items, m.type = m.member.type := by
    intro queue item hqueue hitem m hm
    rw [BoundedQueue.items_push] at hm
    rcases List.mem_append.mp hm with hm | hm
    · exact hqueue m hm
    · split at hm
      · rw [List.mem_singleton.mp hm]
        exact hitem
      · cases hm
  induction h with
  | empty => exact fun m hm => absurd hm List.not_mem_nil
  | @routed queue queue' routed identityToSession identity msg before result ih =>
      cases hlook : identityToSession.lookup identity with
      | none =>
          rw [routeBytes, hlook] at result
          obtain rfl : queue = queue' := by
            split at result <;> exact (Prod.mk.inj (Option.some.inj result)).2
          exact ih
      | some sessionId =>
          rw [routeBytes_eq hlook, Option.some.injEq] at result
          obtain rfl := congrArg Prod.snd result
          cases ZmqServer.request? msg with
          | none => exact ih
          | some request =>
              simp only [routeTagged_eq]
              exact hpush _ _ ih rfl
  | generated request before ih => exact hpush _ _ ih rfl
  | popped before ih => exact fun m hm => ih m (List.mem_of_mem_tail hm)

/-- **Order entry** for a client with a session: exactly its well-formed messages are queued, once
and under its session, as the requests that their bytes encode, with the tag of the member that
was written. No read goes beyond the end of a message, a request is found in its own bytes,
and the engine reads of a queued message the member that was written. -/
structure EntryParsingExact (identityToSession : UnorderedMap Identity SessionId)
    (identity : Identity) (sessionId : SessionId) (queue : InboundQueue limit) : Prop where
  inBounds : ∀ msg, routeBytes identityToSession queue identity msg ≠ none
  accepted : ∀ msg, WellFormed msg → ∃ request queue', request.DecodesFrom msg ∧
    request.bytes <+: msg ∧
    routeBytes identityToSession queue identity msg = some (true, queue') ∧
    queue'.items = queue.items ++ [{ sessionId, type := request.type, member := request }]
  rejected : ∀ msg, ¬ WellFormed msg →
    routeBytes identityToSession queue identity msg = some (false, queue)
  roundTrip : ∀ (request : InboundBody) (trailing : List UInt8), request.Constructed →
    ∃ queue', routeBytes identityToSession queue identity (request.bytes ++ trailing) =
        some (true, queue') ∧
      queue'.items = queue.items ++ [{ sessionId, type := request.type, member := request }]
  processed : ∀ queue' : InboundQueue limit, Queued queue' → ∀ m ∈ queue'.items,
    ∀ e : MatchingEngine, e.processTagged m = some (e.processInboundMessage m.untagged)

/-- **Order entry is exact.** -/
theorem entry_parsing_exact (hsession : identityToSession.lookup identity = some sessionId)
    (hroom : queue.items.length < limit) :
    EntryParsingExact identityToSession identity sessionId queue := by
  have hroute : ∀ msg request, ZmqServer.request? msg = some request →
      ∃ queue', routeBytes identityToSession queue identity msg = some (true, queue') ∧
        queue'.items = queue.items ++ [{ sessionId, type := request.type, member := request }] := by
    intro msg request hrequest
    obtain ⟨hrouted, hitems⟩ := routeTagged_of_room hroom sessionId request
    refine ⟨_, ?_, hitems⟩
    rw [routeBytes_eq hsession, hrequest]
    exact congrArg some (Prod.ext hrouted rfl)
  refine ⟨routeBytes_ne_none identityToSession queue identity, fun msg hwf => ?_,
    fun msg hwf => ?_, fun request trailing hrequest => ?_, fun queue' hqueued m hm e => ?_⟩
  · obtain ⟨request, hrequest⟩ := (exists_request_iff msg).mpr hwf
    obtain ⟨queue', hresult, hitems⟩ := hroute msg request hrequest
    exact ⟨request, queue', decodesFrom_of_request hrequest,
      ZmqServer.bytes_prefix_of_request? hrequest, hresult, hitems⟩
  · have hnone : ZmqServer.request? msg = none :=
      Option.eq_none_iff_forall_ne_some.mpr fun request hrequest =>
        hwf ((exists_request_iff msg).mp ⟨request, hrequest⟩)
    rw [routeBytes_eq hsession, hnone]
  · exact hroute _ _ (request_bytes hrequest trailing)
  · exact e.processTagged_eq (hqueued.type_eq m hm)

end Route

/-- A message of a client with a session: a cancel request, and a byte more. -/
def cancelFrame : Frame :=
  (InboundBody.cancelOrder
    { header := ⟨.cancelOrderRequest, MessageType.cancelOrderRequest.size, 0⟩,
      clientOrderId := 5, orderId := 7 }).bytes ++ [0]

theorem entry_parsing_exact_cancelFrame :
    WellFormed cancelFrame ∧
    EntryParsingExact ((∅ : UnorderedMap Identity SessionId).insert [1] 1) [1] 1
      (BoundedQueue.empty : InboundQueue 4) :=
  ⟨by decide, entry_parsing_exact (Finmap.lookup_insert _) (by decide)⟩

end ExchangeEngine
