import ExchangeEngine.Protocol
import ExchangeEngine.Lib.Layout

/-!
# The Wire Format of Requests

The structs of `Protocol.h` are packed, so that the bytes of a message are its fields in the
order of the struct, integers little-endian. This module gives the layouts of the message
header and of the three requests. Reading a request through its layout is the cast of the
source from a pointer to the bytes: it gives nothing when there are fewer bytes than the struct
has, which is when the source does not cast. `headerAt` reads a header as compiled code does,
field by field.
-/

namespace ExchangeEngine

/-- `static_cast<uint8_t>(type)`. -/
def MessageType.toUInt8 : MessageType → UInt8
  | .newOrderRequest => 0x01
  | .cancelOrderRequest => 0x02
  | .modifyOrderRequest => 0x03
  | .orderAck => 0x10
  | .orderReject => 0x11
  | .executionReport => 0x12
  | .cancelAck => 0x13
  | .cancelReject => 0x14
  | .modifyAck => 0x15
  | .modifyReject => 0x16
  | .tickUpdate => 0x20
  | .tradeUpdate => 0x21
  | .orderbookSnapshot => 0x22

/-- The enumerators. -/
def MessageType.all : List MessageType :=
  [.newOrderRequest, .cancelOrderRequest, .modifyOrderRequest, .orderAck, .orderReject,
    .executionReport, .cancelAck, .cancelReject, .modifyAck, .modifyReject, .tickUpdate,
    .tradeUpdate, .orderbookSnapshot]

/-- `static_cast<MessageType>(byte)`. -/
def MessageType.ofUInt8 (b : UInt8) : Option MessageType :=
  all.find? fun type => type.toUInt8 = b

theorem MessageType.ofUInt8_eq_some_iff {b : UInt8} {type : MessageType} :
    ofUInt8 b = some type ↔ type.toUInt8 = b := by
  constructor
  · intro h
    rw [ofUInt8] at h
    simpa using List.find?_some h
  · rintro rfl
    cases type <;> rfl

namespace Wire

open Layout

/-! ### Integers -/

/-- The layouts of the integer types: little-endian, without padding. A signed integer has the bytes
of the unsigned one that it is congruent to. -/
def uint8 : Layout UInt8 :=
  unsigned 1 UInt8.toNat UInt8.ofNat UInt8.toNat_lt (fun _ => UInt8.ofNat_toNat)
    fun _ h => UInt8.toNat_ofNat_of_lt' h

def uint16 : Layout UInt16 :=
  unsigned 2 UInt16.toNat UInt16.ofNat UInt16.toNat_lt (fun _ => UInt16.ofNat_toNat)
    fun _ h => UInt16.toNat_ofNat_of_lt' h

def uint32 : Layout UInt32 :=
  unsigned 4 UInt32.toNat UInt32.ofNat UInt32.toNat_lt (fun _ => UInt32.ofNat_toNat)
    fun _ h => UInt32.toNat_ofNat_of_lt' h

def uint64 : Layout UInt64 :=
  unsigned 8 UInt64.toNat UInt64.ofNat UInt64.toNat_lt (fun _ => UInt64.ofNat_toNat)
    fun _ h => UInt64.toNat_ofNat_of_lt' h

def int32 : Layout Int32 :=
  uint32.map (fun v => some v.toInt32) Int32.toUInt32 (by
    intro v i
    constructor
    · intro h
      rw [← Option.some.inj h, UInt32.toUInt32_toInt32]
    · rintro rfl
      rw [Int32.toInt32_toUInt32])

/-! ### The header and the requests -/

/-- The header with its type still a byte: type, length, timestamp. -/
def rawHeader : Layout (UInt8 × UInt16 × UInt64) :=
  uint8.prod (uint16.prod uint64)

/-- The layout of a header whose byte names a type. -/
def messageHeader : Layout MessageHeader :=
  rawHeader.map
    (fun (type, length, timestamp) =>
      (MessageType.ofUInt8 type).map fun type => ⟨type, length, timestamp⟩)
    (fun header => (header.type.toUInt8, header.length, header.timestamp)) (by
      rintro ⟨b, length, timestamp⟩ ⟨type, length', timestamp'⟩
      simp only [Option.map_eq_some_iff, MessageType.ofUInt8_eq_some_iff]
      constructor
      · rintro ⟨_, rfl, h⟩
        cases h
        rfl
      · intro h
        cases h
        exact ⟨type, rfl, rfl⟩)

/-- The layouts of the three requests: packed, in the order of their fields. -/
def newOrderRequest : Layout NewOrderRequest :=
  (messageHeader.prod (uint64.prod (uint8.prod (uint8.prod (int32.prod uint32))))).map
    (fun (header, clientOrderId, side, orderType, price, quantity) =>
      some { header, clientOrderId, side, orderType, price, quantity })
    (fun r => (r.header, r.clientOrderId, r.side, r.orderType, r.price, r.quantity)) (by
      rintro ⟨h, i, s, t, p, q⟩ ⟨h', i', s', t', p', q'⟩
      simp [eq_comm])

def cancelOrderRequest : Layout CancelOrderRequest :=
  (messageHeader.prod (uint64.prod uint64)).map
    (fun (header, clientOrderId, orderId) => some { header, clientOrderId, orderId })
    (fun r => (r.header, r.clientOrderId, r.orderId)) (by
      rintro ⟨h, i, o⟩ ⟨h', i', o'⟩
      simp [eq_comm])

def modifyOrderRequest : Layout ModifyOrderRequest :=
  (messageHeader.prod (uint64.prod (uint64.prod (int32.prod uint32)))).map
    (fun (header, clientOrderId, orderId, newPrice, newQuantity) =>
      some { header, clientOrderId, orderId, newPrice, newQuantity })
    (fun r => (r.header, r.clientOrderId, r.orderId, r.newPrice, r.newQuantity)) (by
      rintro ⟨h, i, o, p, q⟩ ⟨h', i', o', p', q'⟩
      simp [eq_comm])

/-- **The layouts have the sizes of the structs.** -/
theorem sizes : rawHeader.size = 11 ∧ messageHeader.size = 11 ∧
    newOrderRequest.size = MessageType.newOrderRequest.size.toNat ∧
    cancelOrderRequest.size = MessageType.cancelOrderRequest.size.toNat ∧
    modifyOrderRequest.size = MessageType.modifyOrderRequest.size.toNat :=
  ⟨rfl, rfl, rfl, rfl, rfl⟩

end Wire

/-! ### Reading the header -/

/-- The header of a message, field by field. -/
def headerAt (msg : List UInt8) : Option MessageHeader := do
  let byte ← Wire.uint8.readAt msg 0
  let length ← Wire.uint16.readAt msg 1
  let timestamp ← Wire.uint64.readAt msg 3
  let type ← MessageType.ofUInt8 byte
  return { type, length, timestamp }

section Read

variable {msg : List UInt8}

/-- A struct is its fields at their offsets. -/
theorem headerAt_eq (msg : List UInt8) : headerAt msg = Wire.messageHeader.readAt msg 0 := by
  rw [headerAt, Wire.messageHeader, Wire.rawHeader]
  simp only [Layout.readAt_map, Layout.readAt_prod, Option.map_eq_bind, Option.bind_eq_bind,
    Option.bind_assoc, Option.bind_some, Option.pure_def, Function.comp_def, Nat.zero_add]
  rfl

/-! Inside the message there is something to read. -/

theorem Wire.total_uint8 : Wire.uint8.Total :=
  Layout.total_unsigned

theorem Wire.total_uint16 : Wire.uint16.Total :=
  Layout.total_unsigned

theorem Wire.total_uint32 : Wire.uint32.Total :=
  Layout.total_unsigned

theorem Wire.total_uint64 : Wire.uint64.Total :=
  Layout.total_unsigned

theorem Wire.total_int32 : Wire.int32.Total :=
  Wire.total_uint32.map

/-- The type byte is the first byte. -/
theorem readAt_uint8_zero (msg : List UInt8) : Wire.uint8.readAt msg 0 = msg[0]? := by
  cases msg with
  | nil => rfl
  | cons b rest =>
      obtain ⟨type, htype⟩ := Wire.total_uint8.readAt (by simp : 0 + 1 ≤ (b :: rest).length)
      have hvalue := Layout.toNat_of_readAt htype
      rw [htype, List.getElem?_cons_zero, Option.some.injEq, ← UInt8.toNat_inj, hvalue]
      exact Nat.add_zero _

/-- The header of a message that has one. -/
theorem exists_rawHeader (hsize : 11 ≤ msg.length) :
    ∃ type length timestamp, Wire.rawHeader.read msg = some (type, length, timestamp) ∧
      msg[0]? = some type ∧ Wire.uint16.readAt msg 1 = some length ∧
      length.toNat = Layout.littleEndian ((msg.drop 1).take 2) := by
  obtain ⟨type, htype⟩ := Wire.total_uint8.readAt (by omega : 0 + 1 ≤ msg.length)
  obtain ⟨length, hlength⟩ := Wire.total_uint16.readAt (by omega : 1 + 2 ≤ msg.length)
  obtain ⟨timestamp, htimestamp⟩ := Wire.total_uint64.readAt (by omega : 3 + 8 ≤ msg.length)
  refine ⟨type, length, timestamp, ?_, (readAt_uint8_zero msg).symm.trans htype, hlength,
    Layout.toNat_of_readAt hlength⟩
  have h₁ : Wire.uint8.size = 1 := rfl
  have h₂ : Wire.uint16.size = 2 := rfl
  rw [← Layout.readAt_zero, Wire.rawHeader]
  simp only [Layout.readAt_prod, h₁, h₂, Nat.zero_add, Nat.reduceAdd, htype, hlength,
    htimestamp, Option.bind_some, Option.map_some]

theorem exists_headerAt {type : UInt8} (htype : Wire.uint8.readAt msg 0 = some type)
    (hnamed : MessageType.ofUInt8 type ≠ none) (hsize : 11 ≤ msg.length) :
    ∃ header, headerAt msg = some header := by
  obtain ⟨length, hlength⟩ := Wire.total_uint16.readAt (by omega : 1 + 2 ≤ msg.length)
  obtain ⟨timestamp, htimestamp⟩ := Wire.total_uint64.readAt (by omega : 3 + 8 ≤ msg.length)
  obtain ⟨name, hname⟩ := Option.ne_none_iff_exists'.mp hnamed
  simp [headerAt, htype, hlength, htimestamp, hname]

/-- **A struct that begins with a header** is there once its type byte names a type and the
message is long enough for its other fields. -/
theorem exists_read_of_header {α β : Type} {fields : Layout α} (hfields : fields.Total)
    {f : MessageHeader × α → Option β} {g : β → MessageHeader × α}
    {h : ∀ {a b}, f a = some b ↔ g b = a} (hf : ∀ a, ∃ b, f a = some b)
    {header : MessageHeader} (hheader : headerAt msg = some header)
    (hsize : 11 + fields.size ≤ msg.length) :
    ∃ b, ((Wire.messageHeader.prod fields).map f g @h).read msg = some b := by
  have hread : Wire.messageHeader.read msg = some header := by
    rw [← Layout.readAt_zero, ← headerAt_eq, hheader]
  have hrest : (msg.drop Wire.messageHeader.size).length = msg.length - 11 := List.length_drop
  obtain ⟨values, hvalues⟩ := hfields (msg.drop Wire.messageHeader.size) (by omega)
  obtain ⟨b, hb⟩ := hf (header, values)
  refine ⟨b, ?_⟩
  simp only [Layout.map, Layout.prod, hread, hvalues, Option.bind_some, Option.map_some, hb]

end Read

/-- The bytes of the struct of a request. -/
def InboundBody.bytes : InboundBody → List UInt8
  | .newOrder request => Wire.newOrderRequest.write request
  | .cancelOrder request => Wire.cancelOrderRequest.write request
  | .modifyOrder request => Wire.modifyOrderRequest.write request

end ExchangeEngine
