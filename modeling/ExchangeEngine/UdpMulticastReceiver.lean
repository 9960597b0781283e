import ExchangeEngine.MarketData
import ExchangeEngine.MatchingEngine
import Mathlib.Data.List.TakeWhile

/-!
# The Receiving End of the Feed

A client of the feed: `UdpMulticastReceiver` with `handleMarketData` as its handler. One round of
`loop` receives a datagram into a buffer that still holds what was received before, and casts a
pointer to it to the header and then to a struct. As in order entry, a read is made at the offset
of a field; it is a fault if it goes beyond what was received in this round, even if the buffer
does not end there.

* `loopBody_eq`: a round makes no fault, and shows the struct that `MarketData.received?` finds.
* `loop_eq`: so does every sequence of rounds; what is left in the buffer plays no part.

## Main results

* `market_data_roundTrip`: a struct of market data is received as the one that was sent, and any
  other datagram is shown exactly if it names a type and has room for its struct.
-/

namespace ExchangeEngine

/-! ### The handler -/

/-- `*reinterpret_cast<const TickUpdate*>(payload)`. -/
def tickUpdateAt (payload : Datagram) : Option TickUpdate.Packed := do
  let header ← headerAt payload
  let symbol ← Wire.symbol.readAt payload 11
  let lastPrice ← Wire.int32.readAt payload 19
  let lastQty ← Wire.uint32.readAt payload 23
  let bidPrice ← Wire.int32.readAt payload 27
  let askPrice ← Wire.int32.readAt payload 31
  let bidQty ← Wire.uint32.readAt payload 35
  let askQty ← Wire.uint32.readAt payload 39
  return ⟨{ header, symbol := symbol.toList, lastPrice, lastQty, bidPrice, askPrice, bidQty,
            askQty },
    symbol.toList_length⟩

/-- `*reinterpret_cast<const TradeUpdate*>(payload)`. -/
def tradeUpdateAt (payload : Datagram) : Option TradeUpdate.Packed := do
  let header ← headerAt payload
  let symbol ← Wire.symbol.readAt payload 11
  let tradeId ← Wire.uint64.readAt payload 19
  let price ← Wire.int32.readAt payload 27
  let quantity ← Wire.uint32.readAt payload 31
  let aggressorSide ← Wire.uint8.readAt payload 35
  return ⟨{ header, symbol := symbol.toList, tradeId, price, quantity, aggressorSide },
    symbol.toList_length⟩

/-- `*reinterpret_cast<const OrderbookSnapshot*>(payload)`. -/
def orderbookSnapshotAt (payload : Datagram) : Option OrderbookSnapshot := do
  let header ← headerAt payload
  let symbol ← Wire.symbol.readAt payload 11
  let bidLevels ← Wire.uint8.readAt payload 19
  let askLevels ← Wire.uint8.readAt payload 20
  let bids ← Wire.levels.readAt payload 21
  let asks ← Wire.levels.readAt payload 81
  return { header, symbol, bidLevels, askLevels, bids, asks }

/-- `handleMarketData`: the struct of the branch that is taken, if one is. The header is passed
by reference, so that its type is read from the bytes of the datagram. -/
def handleMarketData (header payload : Datagram) (len : ℕ) : Option (Option MarketData) := do
  let type ← Wire.uint8.readAt header 0
  match MessageType.ofUInt8 type with
  | some .tickUpdate =>
      if len < MessageType.tickUpdate.size.toNat then return none
      let update ← tickUpdateAt payload
      return some (.tick update)
  | some .tradeUpdate =>
      if len < MessageType.tradeUpdate.size.toNat then return none
      let update ← tradeUpdateAt payload
      return some (.trade update)
  | some .orderbookSnapshot =>
      if len < MessageType.orderbookSnapshot.size.toNat then return none
      let book ← orderbookSnapshotAt payload
      return some (.snapshot book)
  | _ => return none

/-- `printSymbol`: the characters before the first NUL. -/
def printSymbol (symbol : List UInt8) : List UInt8 :=
  match symbol.findIdx? (· = 0) with
  | none => symbol
  | some stop => symbol.take stop

/-- The characters of a text. -/
def text (s : String) : List UInt8 := s.toUTF8.toList

/-- What `handleMarketData` prints of a struct. -/
def MarketData.line : MarketData → List UInt8
  | tick update =>
      text "[TICK] " ++ printSymbol update.val.symbol ++
        text (" last=" ++ toString update.val.lastPrice ++ "@" ++ toString update.val.lastQty ++
          " bid=" ++ toString update.val.bidPrice ++ "@" ++ toString update.val.bidQty ++
          " ask=" ++ toString update.val.askPrice ++ "@" ++ toString update.val.askQty ++ "\n")
  | trade update =>
      text "[TRADE] " ++ printSymbol update.val.symbol ++
        text (" tradeId=" ++ toString update.val.tradeId ++ " px=" ++ toString update.val.price ++
          " qty=" ++ toString update.val.quantity ++
          " aggressor=" ++ toString update.val.aggressorSide ++ "\n")
  | snapshot book =>
      text "[SNAP] " ++ printSymbol book.symbol.toList ++
        text (" bids=" ++ toString book.bidLevels ++ " asks=" ++ toString book.askLevels ++ "\n")

/-! ### The receiver -/

namespace UdpMulticastReceiver

/-- The size of the buffer of the receiver. -/
def MAX_DATAGRAM : ℕ := 2048

/-- A handler gets the header, the payload and its length. -/
abbrev Handler := Datagram → Datagram → ℕ → Option (Option MarketData)

/-- `recvfrom`: the buffer and the result. A datagram is put at the front of the buffer, as much
of it as there is room for; there is none when the call fails. -/
def recvfrom (buffer : List UInt8) : Option Datagram → List UInt8 × ℤ
  | none => (buffer, -1)
  | some datagram =>
      let received := datagram.take MAX_DATAGRAM
      (received ++ buffer.drop received.length, received.length)

/-- One round of `loop`: the buffer after it, and the struct that the handler got. -/
def loopBody (handler : Option Handler) (buffer : List UInt8) (datagram : Option Datagram) :
    Option (List UInt8 × Option MarketData) :=
  let (buffer, n) := recvfrom buffer datagram
  if n ≤ 0 then some (buffer, none)
  -- sizeof(MessageHeader)
  else if n.toNat < 11 then some (buffer, none)
  else do
    -- a read beyond what was received is a fault
    let received := buffer.take n.toNat
    let declaredLen ← Wire.uint16.readAt received 1
    let actualLen := n.toNat
    let useLen :=
      if 0 < declaredLen.toNat ∧ declaredLen.toNat ≤ actualLen then declaredLen.toNat
      else actualLen
    match handler with
    | none => return (buffer, none)
    | some handler =>
        let seen ← handler received received useLen
        return (buffer, seen)

/-- Rounds of `loop`, and the structs that the handler got in them. -/
def loop (handler : Option Handler) (buffer : List UInt8) :
    List (Option Datagram) → Option (List MarketData)
  | [] => some []
  | datagram :: datagrams => do
      let (buffer, seen) ← loopBody handler buffer datagram
      let rest ← loop handler buffer datagrams
      return seen.toList ++ rest

end UdpMulticastReceiver

/-- What a client prints of the datagrams that it receives. -/
def clientOutput (buffer : List UInt8) (datagrams : List Datagram) : Option (List UInt8) :=
  (UdpMulticastReceiver.loop (some handleMarketData) buffer (datagrams.map some)).map fun msgs =>
    msgs.flatMap MarketData.line

/-! ### What a datagram is shown as -/

/-- The length that a datagram is taken to have: the declared one, if there are that many bytes. -/
def effectiveLength (datagram : Datagram) : ℕ :=
  let declared := Layout.littleEndian ((datagram.drop 1).take 2)
  if 1 ≤ declared ∧ declared ≤ datagram.length then declared else datagram.length

namespace MarketData

/-- The struct of a type at the front of a datagram. -/
def ofType? (datagram : Datagram) : MessageType → Option MarketData
  | .tickUpdate => (Wire.tickUpdate.read datagram).map tick
  | .tradeUpdate => (Wire.tradeUpdate.read datagram).map trade
  | .orderbookSnapshot => (Wire.orderbookSnapshot.read datagram).map snapshot
  | _ => none

/-- **The struct of a datagram**: the one that its type byte names, if there is a whole header
and the effective length has room for the struct. -/
def received? (datagram : Datagram) : Option MarketData :=
  if 11 ≤ datagram.length then
    (datagram[0]?.bind MessageType.ofUInt8).bind fun type =>
      if type.size.toNat ≤ effectiveLength datagram then ofType? datagram type else none
  else none

end MarketData

section Handler

variable {datagram : Datagram} {header : MessageHeader}

/-! The structs are their fields at their offsets, and inside the datagram there are fields. -/

theorem tickUpdateAt_eq (datagram : Datagram) :
    tickUpdateAt datagram = Wire.tickUpdate.read datagram := by
  rw [← Layout.readAt_zero, tickUpdateAt, headerAt_eq, Wire.tickUpdate, Wire.tickFields]
  simp only [Layout.readAt_map, Layout.readAt_prod, Option.map_eq_bind, Option.bind_eq_bind,
    Option.bind_assoc, Option.bind_some, Option.pure_def, Function.comp_def, Nat.zero_add]
  rfl

theorem tradeUpdateAt_eq (datagram : Datagram) :
    tradeUpdateAt datagram = Wire.tradeUpdate.read datagram := by
  rw [← Layout.readAt_zero, tradeUpdateAt, headerAt_eq, Wire.tradeUpdate, Wire.tradeFields]
  simp only [Layout.readAt_map, Layout.readAt_prod, Option.map_eq_bind, Option.bind_eq_bind,
    Option.bind_assoc, Option.bind_some, Option.pure_def, Function.comp_def, Nat.zero_add]
  rfl

theorem orderbookSnapshotAt_eq (datagram : Datagram) :
    orderbookSnapshotAt datagram = Wire.orderbookSnapshot.read datagram := by
  rw [← Layout.readAt_zero, orderbookSnapshotAt, headerAt_eq, Wire.orderbookSnapshot,
    Wire.snapshotFields]
  simp only [Layout.readAt_map, Layout.readAt_prod, Option.map_eq_bind, Option.bind_eq_bind,
    Option.bind_assoc, Option.bind_some, Option.pure_def, Function.comp_def, Nat.zero_add]
  rfl

theorem Wire.total_symbol : Wire.symbol.Total :=
  Wire.total_uint8.vector SYMBOL_LENGTH

theorem Wire.total_levels : Wire.levels.Total := by
  refine Layout.Total.vector ?_ MAX_DEPTH_LEVELS
  exact (Wire.total_int32.prod (Wire.total_uint32.prod Wire.total_uint32)).map

theorem exists_tickUpdate (hheader : headerAt datagram = some header)
    (hsize : Wire.tickUpdate.size ≤ datagram.length) :
    ∃ update, Wire.tickUpdate.read datagram = some update :=
  exists_read_of_header
    (Wire.total_symbol.prod (Wire.total_int32.prod (Wire.total_uint32.prod (Wire.total_int32.prod
      (Wire.total_int32.prod (Wire.total_uint32.prod Wire.total_uint32))))))
    (fun _ => ⟨_, rfl⟩) hheader hsize

theorem exists_tradeUpdate (hheader : headerAt datagram = some header)
    (hsize : Wire.tradeUpdate.size ≤ datagram.length) :
    ∃ update, Wire.tradeUpdate.read datagram = some update :=
  exists_read_of_header
    (Wire.total_symbol.prod (Wire.total_uint64.prod (Wire.total_int32.prod
      (Wire.total_uint32.prod Wire.total_uint8))))
    (fun _ => ⟨_, rfl⟩) hheader hsize

theorem exists_orderbookSnapshot (hheader : headerAt datagram = some header)
    (hsize : Wire.orderbookSnapshot.size ≤ datagram.length) :
    ∃ book, Wire.orderbookSnapshot.read datagram = some book :=
  exists_read_of_header
    (Wire.total_symbol.prod (Wire.total_uint8.prod (Wire.total_uint8.prod
      (Wire.total_levels.prod Wire.total_levels))))
    (fun _ => ⟨_, rfl⟩) hheader hsize

/-- A branch of the handler: a struct for which there is room is there. -/
theorem branch_eq {α : Type} {struct : Layout α} {found : Option α} {len : ℕ}
    (hread : found = struct.read datagram)
    (hfound : struct.size ≤ datagram.length → ∃ value, struct.read datagram = some value)
    (hlen : len ≤ datagram.length) (member : α → MarketData) :
    (if len < struct.size then some none
      else found.bind fun value => some (some (member value))) =
      some (if struct.size ≤ len then (struct.read datagram).map member else none) := by
  by_cases hroom : struct.size ≤ len
  · obtain ⟨value, hvalue⟩ := hfound (Nat.le_trans hroom hlen)
    rw [if_neg (Nat.not_lt.mpr hroom), if_pos hroom, hread, hvalue]
    rfl
  · rw [if_pos (Nat.lt_of_not_le hroom), if_neg hroom]

/-- **The handler makes no fault** when it is told of no more bytes than there are. -/
theorem handleMarketData_eq (hsize : 11 ≤ datagram.length) {byte : UInt8}
    (hbyte : datagram[0]? = some byte) {len : ℕ} (hlen : len ≤ datagram.length) :
    handleMarketData datagram datagram len =
      some ((MessageType.ofUInt8 byte).bind fun type =>
        if type.size.toNat ≤ len then MarketData.ofType? datagram type else none) := by
  have htype := (readAt_uint8_zero datagram).trans hbyte
  rw [handleMarketData, htype, Option.bind_eq_bind, Option.bind_some]
  cases hname : MessageType.ofUInt8 byte with
  | none => rfl
  | some type =>
      obtain ⟨header, hheader⟩ := exists_headerAt htype (by simp [hname]) hsize
      rw [Option.bind_some]
      cases type with
      | tickUpdate =>
          exact branch_eq (tickUpdateAt_eq datagram) (exists_tickUpdate hheader) hlen .tick
      | tradeUpdate =>
          exact branch_eq (tradeUpdateAt_eq datagram) (exists_tradeUpdate hheader) hlen .trade
      | orderbookSnapshot =>
          exact branch_eq (orderbookSnapshotAt_eq datagram) (exists_orderbookSnapshot hheader)
            hlen .snapshot
      | _ =>
          exact congrArg some (ite_self _).symm

end Handler

/-! ### Rounds of the receiver -/

namespace UdpMulticastReceiver

variable {buffer : List UInt8} {datagram : Datagram}

theorem effectiveLength_le (datagram : Datagram) :
    effectiveLength datagram ≤ datagram.length := by
  rw [effectiveLength]
  split <;> omega

/-- **One round** for a datagram that fits into the buffer: it makes no fault, and the handler gets
the struct of the datagram. -/
theorem loopBody_some (buffer : List UInt8) (hle : datagram.length ≤ MAX_DATAGRAM) :
    loopBody (some handleMarketData) buffer (some datagram) =
      some (datagram ++ buffer.drop datagram.length, MarketData.received? datagram) := by
  have htake : datagram.take MAX_DATAGRAM = datagram := List.take_of_length_le hle
  simp only [loopBody, recvfrom, htake, Int.toNat_natCast, List.take_left', MarketData.received?]
  by_cases hsize : 11 ≤ datagram.length
  · obtain ⟨byte, declaredLen, timestamp, -, hbyte, hlength, hdeclared⟩ := exists_rawHeader hsize
    rw [if_neg (by omega), if_neg (by omega), if_pos hsize, hlength, hbyte]
    have huse : (if 0 < declaredLen.toNat ∧ declaredLen.toNat ≤ datagram.length
        then declaredLen.toNat else datagram.length) = effectiveLength datagram := by
      rw [effectiveLength, hdeclared]
      rfl
    simp only [Option.bind_eq_bind, Option.bind_some, huse,
      handleMarketData_eq hsize hbyte (effectiveLength_le datagram)]
    rfl
  · rw [if_neg hsize]
    split
    · rfl
    · rw [if_pos (by omega)]

/-- Only what fits is received. -/
theorem recvfrom_take (buffer : List UInt8) (datagram : Datagram) :
    recvfrom buffer (some (datagram.take MAX_DATAGRAM)) = recvfrom buffer (some datagram) := by
  simp only [recvfrom, List.take_take, Nat.min_self]

/-- One round, whatever is received in it. -/
theorem loopBody_eq (buffer : List UInt8) (datagram : Option Datagram) :
    loopBody (some handleMarketData) buffer datagram =
      some ((recvfrom buffer datagram).1,
        datagram.bind fun datagram => MarketData.received? (datagram.take MAX_DATAGRAM)) := by
  cases datagram with
  | none => rfl
  | some datagram =>
      have hfits : loopBody (some handleMarketData) buffer (some datagram) =
          loopBody (some handleMarketData) buffer (some (datagram.take MAX_DATAGRAM)) := by
        simp only [loopBody, recvfrom_take]
      rw [hfits, loopBody_some buffer (List.length_take_le _ _)]
      rfl

/-- **Every sequence of rounds**: no round makes a fault, and what the handler gets in one does
not depend on the others. -/
theorem loop_eq (buffer : List UInt8) (datagrams : List (Option Datagram)) :
    loop (some handleMarketData) buffer datagrams =
      some (datagrams.filterMap fun datagram =>
        datagram.bind fun datagram => MarketData.received? (datagram.take MAX_DATAGRAM)) := by
  induction datagrams generalizing buffer with
  | nil => rfl
  | cons datagram datagrams ih =>
      simp only [loop, loopBody_eq, Option.bind_eq_bind, Option.bind_some, ih, Option.pure_def,
        List.filterMap_cons]
      cases datagram.bind fun datagram => MarketData.received? (datagram.take MAX_DATAGRAM) with
      | none => rfl
      | some msg => rfl

end UdpMulticastReceiver

/-! ### What is received is what was sent -/

/-- Every struct has room for its header. -/
theorem MessageType.header_le_size (type : MessageType) : 11 ≤ type.size.toNat := by
  cases type <;> decide

namespace MarketData

variable {datagram : Datagram} {msg : MarketData} {type : MessageType}

/-- A struct is read back from its own bytes. -/
theorem ofType?_bytes (msg : MarketData) : ofType? msg.bytes msg.type = some msg := by
  cases msg with
  | tick update =>
      exact congrArg (Option.map tick) (Wire.tickUpdate.read_eq_some_iff.mpr List.prefix_rfl)
  | trade update =>
      exact congrArg (Option.map trade) (Wire.tradeUpdate.read_eq_some_iff.mpr List.prefix_rfl)
  | snapshot book =>
      exact congrArg (Option.map snapshot)
        (Wire.orderbookSnapshot.read_eq_some_iff.mpr List.prefix_rfl)

/-- A struct that is read has the type that was asked for, and its bytes are in the datagram. -/
theorem of_ofType? (h : ofType? datagram type = some msg) :
    msg.type = type ∧ msg.bytes <+: datagram := by
  cases type with
  | tickUpdate =>
      obtain ⟨update, hread, rfl⟩ := Option.map_eq_some_iff.mp h
      exact ⟨rfl, Wire.tickUpdate.read_eq_some_iff.mp hread⟩
  | tradeUpdate =>
      obtain ⟨update, hread, rfl⟩ := Option.map_eq_some_iff.mp h
      exact ⟨rfl, Wire.tradeUpdate.read_eq_some_iff.mp hread⟩
  | orderbookSnapshot =>
      obtain ⟨book, hread, rfl⟩ := Option.map_eq_some_iff.mp h
      exact ⟨rfl, Wire.orderbookSnapshot.read_eq_some_iff.mp hread⟩
  | _ => cases h

/-- The bytes of a struct begin with its header. -/
theorem rawHeader_bytes (msg : MarketData) :
    Wire.rawHeader.read msg.bytes =
      some (msg.header.type.toUInt8, msg.header.length, msg.header.timestamp) := by
  have hbegin : ∃ rest, msg.bytes = Wire.messageHeader.write msg.header ++ rest := by
    cases msg <;> exact ⟨_, rfl⟩
  obtain ⟨rest, hrest⟩ := hbegin
  rw [hrest]
  exact Wire.rawHeader.read_write_append _ rest

/-- **A struct is received as it was sent.** -/
theorem received?_bytes (h : msg.Constructed) : received? msg.bytes = some msg := by
  have hlength := msg.length_bytes
  have hsize : 11 ≤ msg.bytes.length := by
    rw [hlength]
    exact msg.type.header_le_size
  obtain ⟨byte, declaredLen, timestamp, hraw, hbyte, -, hdeclared⟩ := exists_rawHeader hsize
  obtain ⟨rfl, rfl, rfl⟩ : msg.header.type.toUInt8 = byte ∧ msg.header.length = declaredLen ∧
      msg.header.timestamp = timestamp := by
    simpa [msg.rawHeader_bytes] using hraw
  have heffective : effectiveLength msg.bytes = msg.type.size.toNat := by
    rw [effectiveLength, ← hdeclared, h.length, if_pos (by omega)]
  rw [received?, if_pos hsize, hbyte, Option.bind_some,
    MessageType.ofUInt8_eq_some_iff.mpr rfl, Option.bind_some, h.type, heffective,
    if_pos (Nat.le_refl _), ofType?_bytes]

end MarketData

/-- **A datagram enters the branch of a type**: it has a whole header, the type byte names the
type, and the effective length has room for its struct. -/
structure Enters (datagram : Datagram) (type : MessageType) : Prop where
  header : 11 ≤ datagram.length
  named : datagram[0]? = some type.toUInt8
  room : type.size.toNat ≤ effectiveLength datagram

/-- The types that the handler has a branch for. -/
def marketDataTypes : List MessageType := [.tickUpdate, .tradeUpdate, .orderbookSnapshot]

/-- **Which branch is entered**, for any bytes. -/
theorem exists_received_iff {datagram : Datagram} {type : MessageType}
    (hmem : type ∈ marketDataTypes) :
    (∃ msg, MarketData.received? datagram = some msg ∧ msg.type = type) ↔
      Enters datagram type := by
  constructor
  · rintro ⟨msg, hreceived, rfl⟩
    obtain ⟨hsize, hbind⟩ := Option.ite_none_right_eq_some.mp hreceived
    obtain ⟨name, hname, hroom⟩ := Option.bind_eq_some_iff.mp hbind
    obtain ⟨byte, hbyte, hnamed⟩ := Option.bind_eq_some_iff.mp hname
    obtain ⟨hle, hread⟩ := Option.ite_none_right_eq_some.mp hroom
    obtain rfl := (MarketData.of_ofType? hread).1
    obtain rfl := MessageType.ofUInt8_eq_some_iff.mp hnamed
    exact ⟨hsize, hbyte, hle⟩
  · rintro ⟨hsize, hnamed, hroom⟩
    have hname : MessageType.ofUInt8 type.toUInt8 = some type :=
      MessageType.ofUInt8_eq_some_iff.mpr rfl
    obtain ⟨header, hheader⟩ :=
      exists_headerAt ((readAt_uint8_zero datagram).trans hnamed) (by simp [hname]) hsize
    have hlong := Nat.le_trans hroom (UdpMulticastReceiver.effectiveLength_le datagram)
    have hread : ∃ msg, MarketData.ofType? datagram type = some msg := by
      simp only [marketDataTypes, List.mem_cons, List.not_mem_nil, or_false] at hmem
      rcases hmem with rfl | rfl | rfl
      · obtain ⟨update, hupdate⟩ := exists_tickUpdate hheader hlong
        exact ⟨_, congrArg (Option.map MarketData.tick) hupdate⟩
      · obtain ⟨update, hupdate⟩ := exists_tradeUpdate hheader hlong
        exact ⟨_, congrArg (Option.map MarketData.trade) hupdate⟩
      · obtain ⟨book, hbook⟩ := exists_orderbookSnapshot hheader hlong
        exact ⟨_, congrArg (Option.map MarketData.snapshot) hbook⟩
    obtain ⟨msg, hmsg⟩ := hread
    refine ⟨msg, ?_, (MarketData.of_ofType? hmsg).1⟩
    rw [MarketData.received?, if_pos hsize, hnamed, Option.bind_some, hname, Option.bind_some,
      if_pos hroom, hmsg]

/-! ### Symbols -/

/-- The symbol before the padding. -/
theorem printSymbol_append {chars : List UInt8} (hchars : ∀ c ∈ chars, c ≠ 0) (n : ℕ) :
    printSymbol (chars ++ List.replicate (n + 1) 0) = chars := by
  have hnone : chars.findIdx? (fun c => c = 0) = none :=
    List.findIdx?_eq_none_iff.mpr fun c hc => decide_eq_false (hchars c hc)
  have hpadding : (List.replicate (n + 1) (0 : UInt8)).findIdx? (fun c => c = 0) = some 0 := rfl
  simp only [printSymbol, List.findIdx?_append, hnone, hpadding, Option.none_or, Option.map_some,
    Nat.zero_add, List.take_left']

/-- **The symbol that is recovered** is the one that was copied, without its padding. -/
theorem printSymbol_copySymbol (symbol : List UInt8) :
    printSymbol (copySymbol symbol) = (symbol.takeWhile (· ≠ 0)).take (SYMBOL_LENGTH - 1) := by
  have hchars : ∀ c ∈ (symbol.takeWhile (· ≠ 0)).take (SYMBOL_LENGTH - 1), c ≠ 0 := by
    intro c hc
    simpa using List.mem_takeWhile_imp (List.mem_of_mem_take hc)
  have hlength : ((symbol.takeWhile (· ≠ 0)).take (SYMBOL_LENGTH - 1)).length ≤ 7 :=
    List.length_take_le _ _
  have hpadding : SYMBOL_LENGTH - ((symbol.takeWhile (· ≠ 0)).take (SYMBOL_LENGTH - 1)).length =
      7 - ((symbol.takeWhile (· ≠ 0)).take (SYMBOL_LENGTH - 1)).length + 1 := by
    have height : SYMBOL_LENGTH = 8 := rfl
    omega
  rw [copySymbol, hpadding]
  exact printSymbol_append hchars _

theorem length_copySymbol (symbol : List UInt8) : (copySymbol symbol).length = SYMBOL_LENGTH := by
  have hlength : ((symbol.takeWhile (· ≠ 0)).take (SYMBOL_LENGTH - 1)).length ≤ 7 :=
    List.length_take_le _ _
  have height : SYMBOL_LENGTH = 8 := rfl
  rw [copySymbol, List.length_append, List.length_replicate]
  omega

/-- A symbol without a NUL is recovered up to the last place of the array. -/
theorem printSymbol_copySymbol_of_notMem {symbol : List UInt8} (h : 0 ∉ symbol) :
    printSymbol (copySymbol symbol) = symbol.take (SYMBOL_LENGTH - 1) := by
  have hall : symbol.takeWhile (· ≠ 0) = symbol := by
    refine List.takeWhile_eq_self_iff.mpr fun c hc => decide_eq_true ?_
    rintro rfl
    exact h hc
  rw [printSymbol_copySymbol, hall]

/-! ### From the feed handler to the client -/

/-- A struct fits into the buffer of the receiver. -/
theorem MarketData.length_bytes_le (msg : MarketData) :
    msg.bytes.length ≤ UdpMulticastReceiver.MAX_DATAGRAM := by
  rw [msg.length_bytes]
  cases msg with
  | tick update => exact (by decide : MessageType.tickUpdate.size.toNat ≤ 2048)
  | trade update => exact (by decide : MessageType.tradeUpdate.size.toNat ≤ 2048)
  | snapshot book => exact (by decide : MessageType.orderbookSnapshot.size.toNat ≤ 2048)

/-! ### The round trip -/

/-- What the client gets of one datagram. -/
def receive (buffer : List UInt8) (datagram : Datagram) : Option (Option MarketData) :=
  (UdpMulticastReceiver.loopBody (some handleMarketData) buffer (some datagram)).map Prod.snd

theorem receive_eq {buffer : List UInt8} {datagram : Datagram}
    (hle : datagram.length ≤ UdpMulticastReceiver.MAX_DATAGRAM) :
    receive buffer datagram = some (MarketData.received? datagram) := by
  rw [receive, UdpMulticastReceiver.loopBody_some buffer hle]
  rfl

theorem receive_bytes {buffer : List UInt8} {msg : MarketData} (h : msg.Constructed) :
    receive buffer msg.bytes = some (some msg) := by
  rw [receive_eq msg.length_bytes_le, MarketData.received?_bytes h]

/-- **The market-data round trip**: a struct that is sent is received as it is, the symbol of the
engine with it. Of any bytes that are received, only those are read, and a struct is found exactly
if the datagram enters the branch of its type. -/
structure MarketDataRoundTrip (buffer : List UInt8) : Prop where
  roundTrip : ∀ (feed : FeedHandler) (msg : MarketData), feed.multicast.ready = true →
    msg.Constructed → ∃ datagram,
      (feed.processMessage msg msg.type.size.toNat).multicast.network =
        feed.multicast.network ++ [datagram] ∧
      receive buffer datagram = some (some msg)
  tick : ∀ e : MatchingEngine, 0 ∉ e.symbol → ∃ update : TickUpdate.Packed,
    e.publishTickUpdate.feedQueue = e.feedQueue ++ [.tick update.val] ∧
      receive buffer (MarketData.tick update).bytes = some (some (.tick update)) ∧
      printSymbol update.val.symbol = e.symbol.take 7
  trade : ∀ (e : MatchingEngine) (trade : Trade) (aggressorSide : BuySell), 0 ∉ e.symbol →
    ∃ update : TradeUpdate.Packed,
      (e.publishTradeUpdate trade aggressorSide).feedQueue =
        e.feedQueue ++ [.trade update.val] ∧
      receive buffer (MarketData.trade update).bytes = some (some (.trade update)) ∧
      printSymbol update.val.symbol = e.symbol.take 7
  inBounds : ∀ datagram, datagram.length ≤ UdpMulticastReceiver.MAX_DATAGRAM →
    receive buffer datagram ≠ none
  entered : ∀ datagram, datagram.length ≤ UdpMulticastReceiver.MAX_DATAGRAM →
    ∀ type ∈ marketDataTypes,
      (∃ msg, receive buffer datagram = some (some msg) ∧ msg.type = type) ↔
        Enters datagram type

/-- **Market data makes the round trip**, whatever the buffer of the receiver holds. -/
theorem market_data_roundTrip (buffer : List UInt8) : MarketDataRoundTrip buffer := by
  refine ⟨?_, ?_, ?_, ?_, ?_⟩
  · intro feed msg hready hmsg
    refine ⟨msg.bytes, ?_, receive_bytes hmsg⟩
    rw [← msg.length_bytes, FeedHandler.network_processMessage hready]
  · intro e hsymbol
    exact ⟨⟨_, length_copySymbol e.symbol⟩, rfl, receive_bytes ⟨rfl, rfl⟩,
      printSymbol_copySymbol_of_notMem hsymbol⟩
  · intro e trade aggressorSide hsymbol
    exact ⟨⟨_, length_copySymbol e.symbol⟩, rfl, receive_bytes ⟨rfl, rfl⟩,
      printSymbol_copySymbol_of_notMem hsymbol⟩
  · intro datagram hle
    rw [receive_eq hle]
    exact Option.some_ne_none _
  · intro datagram hle type hmem
    rw [← exists_received_iff hmem, receive_eq hle]
    simp only [Option.some.injEq]

end ExchangeEngine
