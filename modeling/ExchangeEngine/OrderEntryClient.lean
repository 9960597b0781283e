import ExchangeEngine.ClientResponses
import ExchangeEngine.EntryParsing
import ExchangeEngine.Lib.TextStream

/-!
# The Order Entry Client

The client program, `main.cpp` of `cpp_client`: `printResponse` casts a pointer to the bytes of a
response to the struct that its type byte names and prints the fields; the loop of `main` reads
commands and sends requests. As on the side of the exchange, a read is made at the offset of a
field, and is a fault if it goes beyond the end of the response.

* `printResponse_bytes`: a response of the exchange is printed as its line.
* `line_inj`: a line tells which response it is.
* `constructed_of_send`: a command sends a request that the exchange finds in its bytes.

## Main results

* `commands_arrive`: what is typed is what the exchange gets.
* `responses_shown`: what the exchange has sent is what the user sees.
-/

namespace ExchangeEngine

open TextStream

/-! ### Responses on the wire -/

/-- `static_cast<uint8_t>(reason)`. -/
def RejectReason.toUInt8 : RejectReason → UInt8
  | .none => 0x00
  | .invalidPrice => 0x01
  | .invalidQuantity => 0x02
  | .invalidSide => 0x03
  | .invalidOrderType => 0x04
  | .orderNotFound => 0x05
  | .duplicateOrderId => 0x06
  | .sessionNotFound => 0x07
  | .invalidMessage => 0x08
  | .internalError => 0xFF

theorem RejectReason.toUInt8_inj {reason reason' : RejectReason}
    (h : reason.toUInt8 = reason'.toUInt8) : reason = reason' := by
  cases reason <;> cases reason' <;> first | rfl | exact absurd h (by decide)

namespace OutboundBody

/-- The type of a response. -/
def type : OutboundBody → MessageType
  | orderAck _ => .orderAck
  | orderReject _ => .orderReject
  | execReport _ => .executionReport
  | cancelAck _ => .cancelAck
  | cancelReject _ => .cancelReject
  | modifyAck _ => .modifyAck
  | modifyReject _ => .modifyReject

/-- The header, which every struct starts with. -/
def header : OutboundBody → MessageHeader
  | orderAck ack => ack.header
  | orderReject reject => reject.header
  | execReport report => report.header
  | cancelAck ack => ack.header
  | cancelReject reject => reject.header
  | modifyAck ack => ack.header
  | modifyReject reject => reject.header

end OutboundBody

namespace Wire

/-! The fields after the header, with a reject reason still a byte. -/

/-- What follows the header in each of the seven structs, in the order of the fields. -/
def orderAckFields : Layout (ClientOrderId × OrderId × UInt8) :=
  uint64.prod (uint64.prod uint8)

def orderRejectFields : Layout (ClientOrderId × UInt8) :=
  uint64.prod uint8

def executionReportFields : Layout (OrderId × TradeId × Price × Quantity × Quantity × UInt8) :=
  uint64.prod (uint64.prod (int32.prod (uint32.prod (uint32.prod uint8))))

def cancelAckFields : Layout (ClientOrderId × OrderId) :=
  uint64.prod uint64

def cancelRejectFields : Layout (ClientOrderId × OrderId × UInt8) :=
  uint64.prod (uint64.prod uint8)

def modifyAckFields : Layout (ClientOrderId × OrderId × Price × Quantity) :=
  uint64.prod (uint64.prod (int32.prod uint32))

def modifyRejectFields : Layout (ClientOrderId × OrderId × UInt8) :=
  uint64.prod (uint64.prod uint8)

end Wire

/-- The bytes of the fields after the header of a response. -/
def OutboundBody.fieldBytes : OutboundBody → List UInt8
  | orderAck m => Wire.orderAckFields.write (m.clientOrderId, m.orderId, m.status)
  | orderReject m => Wire.orderRejectFields.write (m.clientOrderId, m.reason.toUInt8)
  | execReport m => Wire.executionReportFields.write
      (m.orderId, m.tradeId, m.execPrice, m.execQty, m.leavesQty, m.side)
  | cancelAck m => Wire.cancelAckFields.write (m.clientOrderId, m.orderId)
  | cancelReject m =>
      Wire.cancelRejectFields.write (m.clientOrderId, m.orderId, m.reason.toUInt8)
  | modifyAck m =>
      Wire.modifyAckFields.write (m.clientOrderId, m.orderId, m.newPrice, m.newQuantity)
  | modifyReject m =>
      Wire.modifyRejectFields.write (m.clientOrderId, m.orderId, m.reason.toUInt8)

/-- The bytes of the struct of a response. -/
def OutboundBody.bytes (body : OutboundBody) : List UInt8 :=
  Wire.messageHeader.write body.header ++ body.fieldBytes

/-! ### Printing responses -/

/-- A number as `<<` prints it. -/
def digits (n : ℕ) : List Char :=
  Nat.toDigits 10 n

/-! The values in the line of a response. -/

/-- What `printResponse` prints of each struct: the names of the fields and their values as text. An
enumerator is printed as its number. -/
def orderAckValues : ClientOrderId × OrderId × UInt8 → List (List Char × List Char)
  | (clientOrderId, orderId, status) =>
      [("clientOrderId".toList, digits clientOrderId.toNat),
        ("orderId".toList, digits orderId.toNat), ("status".toList, digits status.toNat)]

def orderRejectValues : ClientOrderId × UInt8 → List (List Char × List Char)
  | (clientOrderId, reason) =>
      [("clientOrderId".toList, digits clientOrderId.toNat),
        ("reason".toList, digits reason.toNat)]

def executionReportValues :
    OrderId × TradeId × Price × Quantity × Quantity × UInt8 → List (List Char × List Char)
  | (orderId, tradeId, execPrice, execQty, leavesQty, side) =>
      [("orderId".toList, digits orderId.toNat), ("tradeId".toList, digits tradeId.toNat),
        ("px".toList, printInt execPrice.toInt), ("qty".toList, digits execQty.toNat),
        ("leaves".toList, digits leavesQty.toNat), ("side".toList, digits side.toNat)]

def cancelAckValues : ClientOrderId × OrderId → List (List Char × List Char)
  | (clientOrderId, orderId) =>
      [("clientOrderId".toList, digits clientOrderId.toNat),
        ("orderId".toList, digits orderId.toNat)]

def cancelRejectValues : ClientOrderId × OrderId × UInt8 → List (List Char × List Char)
  | (clientOrderId, orderId, reason) =>
      [("clientOrderId".toList, digits clientOrderId.toNat),
        ("orderId".toList, digits orderId.toNat), ("reason".toList, digits reason.toNat)]

def modifyAckValues : ClientOrderId × OrderId × Price × Quantity → List (List Char × List Char)
  | (clientOrderId, orderId, newPrice, newQuantity) =>
      [("clientOrderId".toList, digits clientOrderId.toNat),
        ("orderId".toList, digits orderId.toNat), ("px".toList, printInt newPrice.toInt),
        ("qty".toList, digits newQuantity.toNat)]

def modifyRejectValues : ClientOrderId × OrderId × UInt8 → List (List Char × List Char)
  | (clientOrderId, orderId, reason) =>
      [("clientOrderId".toList, digits clientOrderId.toNat),
        ("orderId".toList, digits orderId.toNat), ("reason".toList, digits reason.toNat)]

/-- A branch of `printResponse`: print the fields of the struct, nothing if the response is shorter
than the struct. -/
def printStruct {α : Type} (type : MessageType) (fields : Layout α) (tag : String)
    (values : α → List (List Char × List Char)) (payload : Frame) : Option (List Char) :=
  if payload.length < type.size.toNat then some []
  else (fields.readAt payload 11).map fun value => record tag.toList (values value)

/-- `printResponse`: what is printed, none if a read is beyond the end of the response. -/
def printResponse (payload : Frame) : Option (List Char) :=
  -- sizeof(MessageHeader)
  if payload.length < 11 then
    some ("[ZMQ] Response too small: ".toList ++ digits payload.length ++ " bytes\n".toList)
  else do
    let type ← Wire.uint8.readAt payload 0
    match MessageType.ofUInt8 type with
    | some .orderAck =>
        printStruct .orderAck Wire.orderAckFields "[ORDER_ACK]" orderAckValues payload
    | some .orderReject =>
        printStruct .orderReject Wire.orderRejectFields "[ORDER_REJECT]" orderRejectValues payload
    | some .executionReport =>
        printStruct .executionReport Wire.executionReportFields "[EXEC]" executionReportValues
          payload
    | some .cancelAck =>
        printStruct .cancelAck Wire.cancelAckFields "[CANCEL_ACK]" cancelAckValues payload
    | some .cancelReject =>
        printStruct .cancelReject Wire.cancelRejectFields "[CANCEL_REJECT]" cancelRejectValues
          payload
    | some .modifyAck =>
        printStruct .modifyAck Wire.modifyAckFields "[MODIFY_ACK]" modifyAckValues payload
    | some .modifyReject =>
        printStruct .modifyReject Wire.modifyRejectFields "[MODIFY_REJECT]" modifyRejectValues
          payload
    | _ =>
        let length ← Wire.uint16.readAt payload 1
        return record "[ZMQ] Unknown msg".toList
          [("type".toList, digits type.toNat), ("len".toList, digits length.toNat)]

namespace OutboundBody

/-- The tag of the line of a response. -/
def tag : OutboundBody → String
  | orderAck _ => "[ORDER_ACK]"
  | orderReject _ => "[ORDER_REJECT]"
  | execReport _ => "[EXEC]"
  | cancelAck _ => "[CANCEL_ACK]"
  | cancelReject _ => "[CANCEL_REJECT]"
  | modifyAck _ => "[MODIFY_ACK]"
  | modifyReject _ => "[MODIFY_REJECT]"

/-- The values in the line of a response. -/
def values : OutboundBody → List (List Char × List Char)
  | orderAck m => orderAckValues (m.clientOrderId, m.orderId, m.status)
  | orderReject m => orderRejectValues (m.clientOrderId, m.reason.toUInt8)
  | execReport m => executionReportValues
      (m.orderId, m.tradeId, m.execPrice, m.execQty, m.leavesQty, m.side)
  | cancelAck m => cancelAckValues (m.clientOrderId, m.orderId)
  | cancelReject m => cancelRejectValues (m.clientOrderId, m.orderId, m.reason.toUInt8)
  | modifyAck m => modifyAckValues (m.clientOrderId, m.orderId, m.newPrice, m.newQuantity)
  | modifyReject m => modifyRejectValues (m.clientOrderId, m.orderId, m.reason.toUInt8)

/-- The line of a response. -/
def line (body : OutboundBody) : List Char :=
  record body.tag.toList body.values

end OutboundBody

section Print

variable {payload : Frame} {α : Type} {type : MessageType} {fields : Layout α}

/-- A branch makes no fault: a response as long as the struct has the fields of the struct. -/
theorem printStruct_ne_none (hfields : fields.Total) (hsize : 11 + fields.size = type.size.toNat)
    (tag : String) (values : α → List (List Char × List Char)) (payload : Frame) :
    printStruct type fields tag values payload ≠ none := by
  rw [printStruct]
  split
  · exact Option.some_ne_none _
  · obtain ⟨value, hvalue⟩ := hfields.readAt (by omega : 11 + fields.size ≤ payload.length)
    rw [hvalue]
    exact Option.some_ne_none _

/-- **No payload makes the client read beyond its end.** -/
theorem printResponse_ne_none (payload : Frame) : printResponse payload ≠ none := by
  rw [printResponse]
  split
  · exact Option.some_ne_none _
  obtain ⟨type, htype⟩ := Wire.total_uint8.readAt (by omega : 0 + 1 ≤ payload.length)
  obtain ⟨length, hlength⟩ := Wire.total_uint16.readAt (by omega : 1 + 2 ≤ payload.length)
  rw [htype, Option.bind_eq_bind, Option.bind_some]
  split
  · exact printStruct_ne_none
      (Wire.total_uint64.prod (Wire.total_uint64.prod Wire.total_uint8)) rfl _ _ _
  · exact printStruct_ne_none (Wire.total_uint64.prod Wire.total_uint8) rfl _ _ _
  · exact printStruct_ne_none
      (Wire.total_uint64.prod (Wire.total_uint64.prod (Wire.total_int32.prod
        (Wire.total_uint32.prod (Wire.total_uint32.prod Wire.total_uint8))))) rfl _ _ _
  · exact printStruct_ne_none (Wire.total_uint64.prod Wire.total_uint64) rfl _ _ _
  · exact printStruct_ne_none
      (Wire.total_uint64.prod (Wire.total_uint64.prod Wire.total_uint8)) rfl _ _ _
  · exact printStruct_ne_none
      (Wire.total_uint64.prod (Wire.total_uint64.prod (Wire.total_int32.prod
        Wire.total_uint32))) rfl _ _ _
  · exact printStruct_ne_none
      (Wire.total_uint64.prod (Wire.total_uint64.prod Wire.total_uint8)) rfl _ _ _
  · rw [hlength]
    exact Option.some_ne_none _

/-- A struct that has been written is printed. -/
theorem printStruct_write (header : MessageHeader) (value : α)
    (hsize : 11 + fields.size = type.size.toNat) (tag : String)
    (values : α → List (List Char × List Char)) :
    printStruct type fields tag values (Wire.messageHeader.write header ++ fields.write value) =
      some (record tag.toList (values value)) := by
  have hheader : (Wire.messageHeader.write header).length = 11 :=
    Wire.messageHeader.length_write header
  have hlength : (Wire.messageHeader.write header ++ fields.write value).length =
      11 + fields.size := by
    rw [List.length_append, hheader, fields.length_write]
  have hread : fields.read (fields.write value) = some value :=
    fields.read_eq_some_iff.mpr (List.prefix_refl _)
  rw [printStruct, if_neg (by omega), Layout.readAt, if_pos (Nat.le_of_eq hlength.symm),
    List.drop_left' hheader, hread, Option.map_some]

/-- **A response is printed as its line** if its header names its type. -/
theorem printResponse_bytes {body : OutboundBody} (h : body.header.type = body.type) :
    printResponse body.bytes = some body.line := by
  have hlong : ¬ body.bytes.length < 11 := by
    have hheader : (Wire.messageHeader.write body.header).length = 11 :=
      Wire.messageHeader.length_write body.header
    rw [OutboundBody.bytes, List.length_append, hheader]
    omega
  have htype : Wire.uint8.readAt body.bytes 0 = some body.type.toUInt8 := by
    rw [Layout.readAt_zero, ← h]
    exact Wire.uint8.read_eq_some_iff.mpr
      ((List.prefix_append _ _).trans (List.prefix_append _ body.fieldBytes))
  have hname := MessageType.ofUInt8_eq_some_iff.mpr (rfl : body.type.toUInt8 = body.type.toUInt8)
  rw [printResponse, if_neg hlong, htype, Option.bind_eq_bind, Option.bind_some, hname]
  cases body <;> exact printStruct_write _ _ rfl _ _

end Print

/-! ### What a line tells -/

section Lines

theorem plain_tag (body : OutboundBody) : Plain body.tag.toList := by
  have htags : ∀ tag ∈ ["[ORDER_ACK]", "[ORDER_REJECT]", "[EXEC]", "[CANCEL_ACK]",
      "[CANCEL_REJECT]", "[MODIFY_ACK]", "[MODIFY_REJECT]"], Plain tag.toList := by decide
  cases body <;> exact htags _ (by simp [OutboundBody.tag])

theorem plain_digits (n : ℕ) : Plain (digits n) :=
  plain_toDigits n

/-- Names are plain, and so are numbers. -/
theorem plain_values (body : OutboundBody) : ∀ f ∈ body.values, Plain f.1 ∧ Plain f.2 := by
  cases body <;>
    simp [OutboundBody.values, orderAckValues, orderRejectValues, executionReportValues,
      cancelAckValues, cancelRejectValues, modifyAckValues, modifyRejectValues, plain_digits,
      plain_printInt] <;>
    decide

theorem digits_inj {n n' : ℕ} : digits n = digits n' ↔ n = n' :=
  ⟨toDigits_inj, congrArg digits⟩

theorem printPrice_inj {price price' : Price} :
    printInt price.toInt = printInt price'.toInt ↔ price = price' :=
  ⟨fun h => Int32.toInt_inj.mp (printInt_inj h), fun h => by rw [h]⟩

theorem type_of_tag {body body' : OutboundBody} (h : body.tag.toList = body'.tag.toList) :
    body.type = body'.type := by
  cases body <;> cases body' <;> first | rfl | simp [OutboundBody.tag] at h

/-- **A line tells which response it is**, but for the header, which is not printed. -/
theorem line_inj {body body' : OutboundBody} (hline : body.line = body'.line)
    (hheader : body.header = body'.header) : body = body' := by
  obtain ⟨htag, hvalues⟩ := record_inj (plain_tag body) (plain_tag body') (plain_values body)
    (plain_values body') hline
  have htype := type_of_tag htag
  cases body with
  | orderAck m =>
      cases body' with
      | orderAck m' =>
          simp [OutboundBody.values, orderAckValues, digits_inj, UInt64.toNat_inj,
            UInt8.toNat_inj] at hvalues
          obtain ⟨header, clientOrderId, orderId, status⟩ := m
          obtain ⟨rfl, rfl, rfl⟩ := hvalues
          obtain rfl := hheader
          rfl
      | _ => cases htype
  | orderReject m =>
      cases body' with
      | orderReject m' =>
          simp [OutboundBody.values, orderRejectValues, digits_inj, UInt64.toNat_inj,
            UInt8.toNat_inj] at hvalues
          obtain ⟨header, clientOrderId, reason⟩ := m
          obtain ⟨rfl, hreason⟩ := hvalues
          obtain rfl := RejectReason.toUInt8_inj hreason
          obtain rfl := hheader
          rfl
      | _ => cases htype
  | execReport m =>
      cases body' with
      | execReport m' =>
          simp [OutboundBody.values, executionReportValues, digits_inj, printPrice_inj,
            UInt64.toNat_inj, UInt32.toNat_inj, UInt8.toNat_inj] at hvalues
          obtain ⟨header, orderId, tradeId, execPrice, execQty, leavesQty, side⟩ := m
          obtain ⟨rfl, rfl, rfl, rfl, rfl, rfl⟩ := hvalues
          obtain rfl := hheader
          rfl
      | _ => cases htype
  | cancelAck m =>
      cases body' with
      | cancelAck m' =>
          simp [OutboundBody.values, cancelAckValues, digits_inj, UInt64.toNat_inj] at hvalues
          obtain ⟨header, clientOrderId, orderId⟩ := m
          obtain ⟨rfl, rfl⟩ := hvalues
          obtain rfl := hheader
          rfl
      | _ => cases htype
  | cancelReject m =>
      cases body' with
      | cancelReject m' =>
          simp [OutboundBody.values, cancelRejectValues, digits_inj, UInt64.toNat_inj,
            UInt8.toNat_inj] at hvalues
          obtain ⟨header, clientOrderId, orderId, reason⟩ := m
          obtain ⟨rfl, rfl, hreason⟩ := hvalues
          obtain rfl := RejectReason.toUInt8_inj hreason
          obtain rfl := hheader
          rfl
      | _ => cases htype
  | modifyAck m =>
      cases body' with
      | modifyAck m' =>
          simp [OutboundBody.values, modifyAckValues, digits_inj, printPrice_inj,
            UInt64.toNat_inj, UInt32.toNat_inj] at hvalues
          obtain ⟨header, clientOrderId, orderId, newPrice, newQuantity⟩ := m
          obtain ⟨rfl, rfl, rfl, rfl⟩ := hvalues
          obtain rfl := hheader
          rfl
      | _ => cases htype
  | modifyReject m =>
      cases body' with
      | modifyReject m' =>
          simp [OutboundBody.values, modifyRejectValues, digits_inj, UInt64.toNat_inj,
            UInt8.toNat_inj] at hvalues
          obtain ⟨header, clientOrderId, orderId, reason⟩ := m
          obtain ⟨rfl, rfl, hreason⟩ := hvalues
          obtain rfl := RejectReason.toUInt8_inj hreason
          obtain rfl := hheader
          rfl
      | _ => cases htype

end Lines

/-! ### Commands -/

/-- `parseSide`: a word that names no side gives the byte of the default, which the engine refuses.
-/
def parseSide (s : List Char) : UInt8 :=
  if s = "buy".toList then BuySell.buy.toUInt8
  else if s = "sell".toList then BuySell.sell.toUInt8
  else BuySell.default.toUInt8

/-- `parseOrderType`: a word that names no type gives the byte of the default, which the engine
refuses. -/
def parseOrderType (s : List Char) : UInt8 :=
  if s = "limit".toList then OrderType.limit.toUInt8
  else if s = "market".toList then OrderType.market.toUInt8
  else if s = "ioc".toList then OrderType.ioc.toUInt8
  else OrderType.default.toUInt8

/-- What the loop of `main` does with a line: nothing, leave the loop, print something and go on,
or send a request and read one response. -/
inductive Command
  | skip
  | quit
  | notice (text : List Char)
  | send (request : InboundBody)
  deriving DecidableEq, Repr

section Commands

-- the clock reading when the request is constructed
variable (timestamp : Timestamp)

/-- The request with the values of a `new` command. -/
def newRequest (clientOrderId : ClientOrderId) (side orderType : List Char) (price : Price)
    (quantity : Quantity) : NewOrderRequest where
  header := ⟨.newOrderRequest, MessageType.newOrderRequest.size, timestamp⟩
  clientOrderId
  side := parseSide side
  orderType := parseOrderType orderType
  price
  quantity

/-- The request with the values of a `cancel` command. -/
def cancelRequest (clientOrderId : ClientOrderId) (orderId : OrderId) : CancelOrderRequest where
  header := ⟨.cancelOrderRequest, MessageType.cancelOrderRequest.size, timestamp⟩
  clientOrderId
  orderId

/-- The request with the values of a `modify` command. -/
def modifyRequest (clientOrderId : ClientOrderId) (orderId : OrderId) (newPrice : Price)
    (newQuantity : Quantity) : ModifyOrderRequest where
  header := ⟨.modifyOrderRequest, MessageType.modifyOrderRequest.size, timestamp⟩
  clientOrderId
  orderId
  newPrice
  newQuantity

/-- What is extracted after `new`. -/
def readNew (s : List Char) : Option InboundBody := do
  let (clientOrderId, s) ← unsigned? 64 s
  let (side, s) ← word? s
  let (orderType, s) ← word? s
  let (price, s) ← signed? 32 s
  let (quantity, _) ← unsigned? 32 s
  return .newOrder (newRequest timestamp (.ofNat clientOrderId) side orderType (.ofInt price)
    (.ofNat quantity))

/-- What is extracted after `cancel`. -/
def readCancel (s : List Char) : Option InboundBody := do
  let (clientOrderId, s) ← unsigned? 64 s
  let (orderId, _) ← unsigned? 64 s
  return .cancelOrder (cancelRequest timestamp (.ofNat clientOrderId) (.ofNat orderId))

/-- What is extracted after `modify`. -/
def readModify (s : List Char) : Option InboundBody := do
  let (clientOrderId, s) ← unsigned? 64 s
  let (orderId, s) ← unsigned? 64 s
  let (newPrice, s) ← signed? 32 s
  let (newQuantity, _) ← unsigned? 32 s
  return .modifyOrder (modifyRequest timestamp (.ofNat clientOrderId) (.ofNat orderId)
    (.ofInt newPrice) (.ofNat newQuantity))

/-- Send the request, or tell how the command is used. -/
def sendOr (usage : String) : Option InboundBody → Command
  | none => .notice usage.toList
  | some request => .send request

/-- The body of the loop of `main`. -/
def readCommand (line : List Char) : Command :=
  match word? line with
  | none => .skip
  | some (cmd, s) =>
      if cmd = "quit".toList ∨ cmd = "exit".toList then .quit
      else if cmd = "new".toList then
        sendOr "Usage: new <clientOrderId> <buy|sell> <limit|market|ioc> <price> <qty>\n"
          (readNew timestamp s)
      else if cmd = "cancel".toList then
        sendOr "Usage: cancel <clientOrderId> <orderId>\n" (readCancel timestamp s)
      else if cmd = "modify".toList then
        sendOr "Usage: modify <clientOrderId> <orderId> <newPrice> <newQty>\n"
          (readModify timestamp s)
      else .notice ("Unknown command: ".toList ++ cmd ++ ['\n'])

/-- The frames that the exchange gets of a request: `zmqSendStruct` sends an empty frame and the
bytes of the struct, and the ROUTER socket puts the identity of the client in front. -/
def requestFrames (identity : Identity) (request : InboundBody) : List Frame :=
  [identity, [], request.bytes]

/-! ### Typed commands -/

/-- The text of a `new` command. -/
def newText (clientOrderId : ClientOrderId) (side orderType : List Char) (price : Price)
    (quantity : List Char) : List Char :=
  "new".toList ++ ' ' :: (digits clientOrderId.toNat ++ ' ' :: (side ++ ' ' :: (orderType ++
    ' ' :: (printInt price.toInt ++ ' ' :: quantity))))

/-- The text of a `cancel` command. -/
def cancelText (clientOrderId : ClientOrderId) (orderId : OrderId) : List Char :=
  "cancel".toList ++ ' ' :: (digits clientOrderId.toNat ++ ' ' :: digits orderId.toNat)

/-- The text of a `modify` command. -/
def modifyText (clientOrderId : ClientOrderId) (orderId : OrderId) (newPrice : Price)
    (newQuantity : Quantity) : List Char :=
  "modify".toList ++ ' ' :: (digits clientOrderId.toNat ++ ' ' :: (digits orderId.toNat ++
    ' ' :: (printInt newPrice.toInt ++ ' ' :: digits newQuantity.toNat)))

variable {timestamp : Timestamp}

theorem unsigned?_digits {bits n : ℕ} (hn : n < 2 ^ bits) (rest : List Char) :
    unsigned? bits (' ' :: (digits n ++ ' ' :: rest)) = some (n, ' ' :: rest) :=
  unsigned?_append hn (delimits_space rest)

theorem unsigned?_digits_end {bits n : ℕ} (hn : n < 2 ^ bits) :
    unsigned? bits (' ' :: digits n) = some (n, []) := by
  have hall := unsigned?_append hn delimits_nil
  rwa [List.append_nil] at hall

theorem signed?_price (price : Price) (rest : List Char) :
    signed? 32 (' ' :: (printInt price.toInt ++ ' ' :: rest)) = some (price.toInt, ' ' :: rest) :=
  signed?_append price.le_toInt price.toInt_lt (delimits_space rest)

theorem word?_word {s : List Char} (hs : IsWord s) (rest : List Char) :
    word? (s ++ ' ' :: rest) = some (s, ' ' :: rest) :=
  word?_append hs (delimits_space rest)

/-- A quantity in a `new` command, however it is written, is extracted last. -/
theorem readCommand_newText (clientOrderId : ClientOrderId) {side orderType : List Char}
    (hside : IsWord side) (htype : IsWord orderType) (price : Price) {quantity : List Char}
    {n : ℕ} (hquantity : unsigned? 32 (' ' :: quantity) = some (n, [])) :
    readCommand timestamp (newText clientOrderId side orderType price quantity) =
      .send (.newOrder
        (newRequest timestamp clientOrderId side orderType price (.ofNat n))) := by
  have hcmd := word?_word (by decide : IsWord "new".toList)
  simp only [newText, readCommand, hcmd, readNew, unsigned?_digits clientOrderId.toNat_lt,
    word?_space, word?_word hside, word?_word htype, signed?_price, hquantity,
    Option.bind_eq_bind, Option.bind_some, UInt64.ofNat_toNat, Int32.ofInt_toInt]
  rfl

theorem readCommand_cancelText (clientOrderId : ClientOrderId) (orderId : OrderId) :
    readCommand timestamp (cancelText clientOrderId orderId) =
      .send (.cancelOrder (cancelRequest timestamp clientOrderId orderId)) := by
  have hcmd := word?_word (by decide : IsWord "cancel".toList)
  simp only [cancelText, readCommand, hcmd, readCancel, unsigned?_digits clientOrderId.toNat_lt,
    unsigned?_digits_end orderId.toNat_lt, Option.bind_eq_bind, Option.bind_some,
    UInt64.ofNat_toNat]
  rfl

theorem readCommand_modifyText (clientOrderId : ClientOrderId) (orderId : OrderId)
    (newPrice : Price) (newQuantity : Quantity) :
    readCommand timestamp (modifyText clientOrderId orderId newPrice newQuantity) =
      .send (.modifyOrder
        (modifyRequest timestamp clientOrderId orderId newPrice newQuantity)) := by
  have hcmd := word?_word (by decide : IsWord "modify".toList)
  simp only [modifyText, readCommand, hcmd, readModify, unsigned?_digits clientOrderId.toNat_lt,
    unsigned?_digits orderId.toNat_lt, signed?_price, unsigned?_digits_end newQuantity.toNat_lt,
    Option.bind_eq_bind, Option.bind_some, UInt64.ofNat_toNat, Int32.ofInt_toInt,
    UInt32.ofNat_toNat]
  rfl

theorem sendOr_eq_send {usage : String} {found : Option InboundBody} {request : InboundBody}
    (h : sendOr usage found = .send request) : found = some request := by
  cases found with
  | none => cases h
  | some request' => rw [Command.send.inj h]

/-- **A command sends a request as its constructor leaves it.** -/
theorem constructed_of_send {line : List Char} {request : InboundBody}
    (h : readCommand timestamp line = .send request) : request.Constructed := by
  rw [readCommand] at h
  split at h
  · cases h
  split at h
  · cases h
  split at h
  · have hnew := sendOr_eq_send h
    simp only [readNew, Option.bind_eq_bind, Option.bind_eq_some_iff, Option.pure_def] at hnew
    obtain ⟨_, _, _, _, _, _, _, _, _, _, hrequest⟩ := hnew
    obtain rfl := Option.some.inj hrequest
    exact InboundBody.constructed_of_size rfl rfl
  split at h
  · have hcancel := sendOr_eq_send h
    simp only [readCancel, Option.bind_eq_bind, Option.bind_eq_some_iff, Option.pure_def]
      at hcancel
    obtain ⟨_, _, _, _, hrequest⟩ := hcancel
    obtain rfl := Option.some.inj hrequest
    exact InboundBody.constructed_of_size rfl rfl
  split at h
  · have hmodify := sendOr_eq_send h
    simp only [readModify, Option.bind_eq_bind, Option.bind_eq_some_iff, Option.pure_def]
      at hmodify
    obtain ⟨_, _, _, _, _, _, _, _, hrequest⟩ := hmodify
    obtain rfl := Option.some.inj hrequest
    exact InboundBody.constructed_of_size rfl rfl
  · cases h

/-- The server has a session for the client when it has taken the frames of a request. -/
theorem exists_session (server : ZmqServer) {identity : Identity} (hne : identity ≠ [])
    (request : InboundBody) :
    ∃ sessionId, (server.withFrames
      (requestFrames identity request)).processIncoming.identityToSession.lookup identity =
        some sessionId := by
  obtain ⟨sessionId, hsession⟩ := server.afterThree.exists_lookup_connect identity
  refine ⟨sessionId, ?_⟩
  rw [requestFrames, ZmqServer.processIncoming_withFrames server hne,
    ZmqServer.parseAndRouteMessage_of_session hsession]
  split <;> exact hsession

/-- The exchange finds the request in its bytes, and pushes it to the inbound queue. -/
theorem exists_routeBytes {identityToSession : UnorderedMap Identity SessionId}
    {identity : Identity} {sessionId : SessionId}
    (hsession : identityToSession.lookup identity = some sessionId) {request : InboundBody}
    (h : request.Constructed) {limit : ℕ} (queue : InboundQueue limit) :
    ∃ queue', routeBytes identityToSession queue identity request.bytes =
        some (queue.hasRoom, queue') ∧
      queue'.items = queue.items ++
        if queue.hasRoom then [{ sessionId, type := request.type, member := request }] else [] := by
  have hrequest : ZmqServer.request? request.bytes = some request := by
    have hbytes := request_bytes h []
    rwa [List.append_nil] at hbytes
  refine ⟨(routeTagged queue sessionId request).2, ?_, ?_⟩
  · have hrouted : (routeTagged queue sessionId request).1 = queue.hasRoom := by
      rw [routeTagged_eq, BoundedQueue.result_push]
    rw [routeBytes_eq hsession, hrequest, ← hrouted]
  · rw [routeTagged_eq, BoundedQueue.items_push]

/-- **The engine rejects an order** without a trace in the book or in the market data. -/
structure Rejects (e : MatchingEngine) (sessionId : SessionId) (request : NewOrderRequest)
    (reason : RejectReason) : Prop where
  response : (e.processInboundMessage ⟨sessionId, .newOrder request⟩).outboundQueue =
    e.outboundQueue ++ [⟨sessionId, .orderReject
      { header := e.header .orderReject, clientOrderId := request.clientOrderId, reason }⟩]
  orderbook : (e.processInboundMessage ⟨sessionId, .newOrder request⟩).orderbook = e.orderbook
  feedQueue : (e.processInboundMessage ⟨sessionId, .newOrder request⟩).feedQueue = e.feedQueue

theorem rejects_of_check {request : NewOrderRequest} {reason : RejectReason}
    (h : MatchingEngine.checkNewOrder request = .error reason) (e : MatchingEngine)
    (sessionId : SessionId) : Rejects e sessionId request reason := by
  have hresult : e.processInboundMessage ⟨sessionId, .newOrder request⟩ =
      e.countOrder.sendOrderReject sessionId request.clientOrderId reason := by
    simp only [MatchingEngine.processInboundMessage, MatchingEngine.handleNewOrder, h]
    rfl
  refine ⟨?_, ?_, ?_⟩ <;> rw [hresult] <;> rfl

/-- **Typed commands arrive.** The text of a command gives the request with exactly its values, a
quantity with a minus the one that is congruent to it. Whatever a command sends is found by the
exchange in its bytes and pushed to the inbound queue as that request, under the session that the
client has then: queued once if there is room, and dropped if the queue is full. The engine reads it
as that request. A side or an order type that is none of those offered makes it reject the order. -/
structure CommandsArrive (timestamp : Timestamp) : Prop where
  new : ∀ clientOrderId side orderType price (quantity : Quantity), IsWord side →
    IsWord orderType →
    readCommand timestamp (newText clientOrderId side orderType price (digits quantity.toNat)) =
      .send (.newOrder (newRequest timestamp clientOrderId side orderType price quantity))
  negative : ∀ clientOrderId side orderType price (quantity : Quantity), IsWord side →
    IsWord orderType →
    readCommand timestamp
        (newText clientOrderId side orderType price ('-' :: digits quantity.toNat)) =
      .send (.newOrder (newRequest timestamp clientOrderId side orderType price (-quantity)))
  cancel : ∀ clientOrderId orderId, readCommand timestamp (cancelText clientOrderId orderId) =
    .send (.cancelOrder (cancelRequest timestamp clientOrderId orderId))
  modify : ∀ clientOrderId orderId newPrice newQuantity,
    readCommand timestamp (modifyText clientOrderId orderId newPrice newQuantity) =
      .send (.modifyOrder (modifyRequest timestamp clientOrderId orderId newPrice newQuantity))
  arrives : ∀ line request, readCommand timestamp line = .send request →
    ∀ (server : ZmqServer) (identity : Identity), identity ≠ [] →
      ∃ server' sessionId,
        (server.withFrames (requestFrames identity request)).processIncoming = server' ∧
        server'.identityToSession.lookup identity = some sessionId ∧
        ∀ (limit : ℕ) (queue : InboundQueue limit), ∃ queue',
          routeBytes server'.identityToSession queue identity request.bytes =
            some (queue.hasRoom, queue') ∧
          queue'.items = queue.items ++
            if queue.hasRoom then [{ sessionId, type := request.type, member := request }] else []
  processed : ∀ (e : MatchingEngine) sessionId (request : InboundBody),
    e.processTagged { sessionId, type := request.type, member := request } =
      some (e.processInboundMessage ⟨sessionId, request⟩)
  unknownSide : ∀ clientOrderId side orderType price quantity,
    side ∉ ["buy".toList, "sell".toList] → ∀ e sessionId, Rejects e sessionId
      (newRequest timestamp clientOrderId side orderType price quantity) .invalidSide
  unknownType : ∀ clientOrderId side orderType price quantity,
    side ∈ ["buy".toList, "sell".toList] →
    orderType ∉ ["limit".toList, "market".toList, "ioc".toList] → ∀ e sessionId,
      Rejects e sessionId
        (newRequest timestamp clientOrderId side orderType price quantity) .invalidOrderType

end Commands

/-! ### The responses of an exchange -/

/-- **A response as its constructor leaves the header.** -/
def OutboundBody.Constructed (body : OutboundBody) : Prop :=
  body.header.type = body.type ∧ body.header.length = body.type.size

namespace MatchingEngine

/-- Every response that the engine has pushed has the header of its type. -/
def Spoken (e : MatchingEngine) : Prop :=
  ∀ m ∈ e.outboundQueue, m.body.Constructed

variable {e e' : MatchingEngine}

theorem Spoken.congr (h : e.Spoken) (hqueue : e'.outboundQueue = e.outboundQueue) : e'.Spoken := by
  intro m hm
  rw [hqueue] at hm
  exact h m hm

theorem Spoken.pushOutbound (h : e.Spoken) {body : OutboundBody} (hbody : body.Constructed)
    (sessionId : SessionId) : (e.pushOutbound sessionId body).Spoken := by
  intro m hm
  rcases List.mem_append.mp hm with hm | hm
  · exact h m hm
  · rw [List.mem_singleton.mp hm]
    exact hbody

theorem Spoken.newOrderTrade (h : e.Spoken) (sessionId : SessionId) (order : OrderPointer)
    (orderId : OrderId) (side : BuySell) (trade : Trade) :
    (newOrderTrade sessionId order orderId side e trade).Spoken := by
  have haggressor : ((e.recordTrade trade).publishTradeUpdate trade side).Spoken := h.congr rfl
  rw [MatchingEngine.newOrderTrade]
  split
  · exact (haggressor.congr rfl).pushOutbound ⟨rfl, rfl⟩ sessionId
  · exact (((haggressor.congr rfl).pushOutbound ⟨rfl, rfl⟩ sessionId).congr rfl).pushOutbound
      ⟨rfl, rfl⟩ _

/-- The trade loop of `handleNewOrder`. -/
theorem Spoken.foldl_newOrderTrade (h : e.Spoken) (sessionId : SessionId) (order : OrderPointer)
    (orderId : OrderId) (side : BuySell) (trades : List Trade) :
    (trades.foldl (MatchingEngine.newOrderTrade sessionId order orderId side) e).Spoken := by
  induction trades generalizing e with
  | nil => exact h
  | cons trade trades ih => exact ih (h.newOrderTrade sessionId order orderId side trade)

theorem Spoken.finishNewOrder (h : e.Spoken) (sessionId : SessionId)
    (clientOrderId : ClientOrderId) (order : OrderPointer) (orderId : OrderId) :
    (e.finishNewOrder sessionId clientOrderId order orderId).Spoken := by
  have hack : (e.sendOrderAck sessionId clientOrderId orderId
      (e.orderbook.heap.read order).orderStatus).Spoken := h.pushOutbound ⟨rfl, rfl⟩ sessionId
  rw [MatchingEngine.finishNewOrder]
  -- what follows the acknowledgement sends no response
  split <;> exact hack.congr rfl

theorem Spoken.acceptNewOrder (h : e.Spoken) (sessionId : SessionId) (request : NewOrderRequest)
    (side : BuySell) (orderType : OrderType) :
    (e.acceptNewOrder sessionId request side orderType).Spoken := by
  have henter : (e.enterOrder sessionId request side orderType).Spoken := h.congr rfl
  exact (henter.foldl_newOrderTrade sessionId e.orderbook.heap.next e.nextOrderId side
    _).finishNewOrder sessionId request.clientOrderId e.orderbook.heap.next e.nextOrderId

theorem Spoken.acceptModifyOrder (h : e.Spoken) (sessionId : SessionId)
    (request : ModifyOrderRequest) : (e.acceptModifyOrder sessionId request).Spoken := by
  have hloop := outboundQueue_foldl_modifyOrderTrade request.orderId
    (e.orderbook.modifyOrder request.orderId request.newPrice request.newQuantity).trades
    { e with orderbook :=
      e.orderbook.modifyOrder request.orderId request.newPrice request.newQuantity }
  rw [MatchingEngine.acceptModifyOrder]
  simp only at hloop ⊢
  generalize List.foldl (modifyOrderTrade request.orderId) _ _ = e' at hloop ⊢
  have hack : (e'.sendModifyAck sessionId request.clientOrderId request.orderId request.newPrice
      request.newQuantity).Spoken := (h.congr hloop).pushOutbound ⟨rfl, rfl⟩ sessionId
  exact hack.congr rfl

/-- **Every message is responded to in constructed structs.** -/
theorem Spoken.processInboundMessage (h : e.Spoken) (msg : InboundMessage) :
    (e.processInboundMessage msg).Spoken := by
  have hcount : e.countOrder.Spoken := h.congr rfl
  cases e.handled msg with
  | newRejected request reason _ _ _ _ result =>
      rw [result]
      exact hcount.pushOutbound ⟨rfl, rfl⟩ _
  | newAccepted request side orderType _ _ _ _ result =>
      rw [result]
      exact hcount.acceptNewOrder _ request side orderType
  | cancelRejected request _ _ _ _ result =>
      rw [result]
      exact h.pushOutbound ⟨rfl, rfl⟩ _
  | cancelled request owner _ _ _ _ result =>
      have hcancel : (e.cancelTracked owner request.orderId).Spoken := h.congr rfl
      have hack : ((e.cancelTracked owner request.orderId).sendCancelAck msg.sessionId
          request.clientOrderId request.orderId).Spoken :=
        hcancel.pushOutbound ⟨rfl, rfl⟩ msg.sessionId
      rw [result]
      exact hack.congr rfl
  | modifyRejected request reason _ _ _ _ result =>
      rw [result]
      exact h.pushOutbound ⟨rfl, rfl⟩ _
  | modified request _ _ _ _ result =>
      rw [result]
      exact h.acceptModifyOrder msg.sessionId request

theorem spoken_after (symbol : List UInt8) (clock : ℕ → Timestamp) (past : List InboundMessage) :
    (after symbol clock past).Spoken := by
  induction past with
  | nil => exact fun m hm => absurd hm List.not_mem_nil
  | cons msg past ih =>
      rw [after_cons]
      exact ih.processInboundMessage msg

end MatchingEngine

namespace Exchange

variable (iterate : Finset OrderId → List OrderId) (arrivals : ℕ → List Frame)
  (symbol : List UInt8) (clock : ℕ → Timestamp)

/-- What is sent to a client is a response of the engine. -/
theorem constructed_after (past : List Action) :
    ∀ p ∈ (after iterate arrivals symbol clock past).sent, p.2.Constructed := by
  induction past with
  | nil => exact fun p hp => absurd hp List.not_mem_nil
  | cons action past ih =>
      have hengine : (after iterate arrivals symbol clock past).matchingEngine.Spoken := by
        rw [matchingEngine_after]
        exact MatchingEngine.spoken_after symbol clock _
      rw [after]
      generalize after iterate arrivals symbol clock past = x at ih hengine ⊢
      cases action with
      | processOutbound =>
          intro p hp
          rcases List.mem_append.mp hp with hp | hp
          · exact ih p hp
          obtain ⟨msg, hmsg, hrecipient⟩ := List.mem_filterMap.mp hp
          rw [ZmqServer.recipient?] at hrecipient
          split at hrecipient
          · cases hrecipient
          · obtain rfl := Option.some.inj hrecipient
            exact hengine msg (List.mem_of_mem_drop hmsg)
      | processInbound =>
          rw [step, processInbound]
          split <;> exact ih
      | handleClientDisconnect identity =>
          obtain ⟨matchingEngine, hnotify⟩ := exists_notify iterate
            { x with zmqServer := (x.zmqServer.handleClientDisconnect identity).2 }
            (x.zmqServer.handleClientDisconnect identity).1
          rw [step, handleClientDisconnect, hnotify]
          exact ih
      | _ => exact ih

/-- **What clients are shown**: no payload is read beyond its end, what the exchange has sent is
printed as its line, and but for the clock reading a line tells which response it is. -/
structure ResponsesShown (past : List Action) : Prop where
  inBounds : ∀ payload, printResponse payload ≠ none
  shown : ∀ p ∈ (after iterate arrivals symbol clock past).sent,
    printResponse p.2.bytes = some p.2.line
  told : ∀ p ∈ (after iterate arrivals symbol clock past).sent,
    ∀ p' ∈ (after iterate arrivals symbol clock past).sent, p.2.line = p'.2.line →
      p.2.header.timestamp = p'.2.header.timestamp → p.2 = p'.2

/-- **Clients are shown what the exchange has sent.** -/
theorem responses_shown (past : List Action) :
    ResponsesShown iterate arrivals symbol clock past := by
  have hconstructed := constructed_after iterate arrivals symbol clock past
  refine ⟨printResponse_ne_none, fun p hp => printResponse_bytes (hconstructed p hp).1,
    fun p hp p' hp' hline htimestamp => line_inj hline ?_⟩
  have htype : p.2.type = p'.2.type :=
    type_of_tag (record_inj (plain_tag _) (plain_tag _) (plain_values _) (plain_values _) hline).1
  obtain ⟨hname, hlength⟩ := hconstructed p hp
  obtain ⟨hname', hlength'⟩ := hconstructed p' hp'
  generalize p.2.header = header at hname hlength htimestamp ⊢
  generalize p'.2.header = header' at hname' hlength' htimestamp ⊢
  obtain ⟨type, length, timestamp⟩ := header
  obtain ⟨type', length', timestamp'⟩ := header'
  obtain rfl : type = p.2.type := hname
  obtain rfl : length = p.2.type.size := hlength
  obtain rfl : type' = p'.2.type := hname'
  obtain rfl : length' = p'.2.type.size := hlength'
  obtain rfl : timestamp = timestamp' := htimestamp
  rw [htype]

end Exchange

end ExchangeEngine
