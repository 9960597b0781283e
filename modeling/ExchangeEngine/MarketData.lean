import ExchangeEngine.Wire

/-!
# Market Data on the Wire

The three structs of market data, with the third, `OrderbookSnapshot`, that nothing builds yet
but both ends of the feed handle. The arrays of a struct have a fixed length: `TickUpdate.Packed`
and `TradeUpdate.Packed` are the updates whose symbol has it.

This module gives the layouts of the structs, and the sending end of the feed: `processMessage`
of the feed handler and `publish` of its socket.
-/

namespace ExchangeEngine

/-! ### The structs -/

/-- The number of levels of a side in a snapshot. -/
def MAX_DEPTH_LEVELS : ℕ := 5

/-- One level of a snapshot. -/
structure PriceLevel where
  price : Price
  quantity : Quantity
  orderCount : UInt32
  deriving DecidableEq, Repr

/-- The snapshot of the book, which the feed handler can send and a client can receive. The engine
makes none. -/
structure OrderbookSnapshot where
  header : MessageHeader
  symbol : List.Vector UInt8 SYMBOL_LENGTH
  bidLevels : UInt8
  askLevels : UInt8
  bids : List.Vector PriceLevel MAX_DEPTH_LEVELS
  asks : List.Vector PriceLevel MAX_DEPTH_LEVELS
  deriving DecidableEq

/-- The updates as they are packed: the symbol takes the whole of its array. -/
abbrev TickUpdate.Packed := { update : TickUpdate // update.symbol.length = SYMBOL_LENGTH }

abbrev TradeUpdate.Packed := { update : TradeUpdate // update.symbol.length = SYMBOL_LENGTH }

/-- `MarketDataMessage` with all members of its union. -/
inductive MarketData
  | tick (update : TickUpdate.Packed)
  | trade (update : TradeUpdate.Packed)
  | snapshot (book : OrderbookSnapshot)
  deriving DecidableEq

namespace MarketData

/-- The type that a struct has in its header when its constructor has built it. -/
def type : MarketData → MessageType
  | tick _ => .tickUpdate
  | trade _ => .tradeUpdate
  | snapshot _ => .orderbookSnapshot

/-- The header, which every struct starts with. -/
def header : MarketData → MessageHeader
  | tick update => update.val.header
  | trade update => update.val.header
  | snapshot book => book.header

/-- The header is as the constructor of the struct leaves it. -/
structure Constructed (msg : MarketData) : Prop where
  type : msg.header.type = msg.type
  length : msg.header.length = msg.type.size

end MarketData

/-! ### Layouts -/

namespace Wire

open Layout

/-- The array of characters of a symbol. -/
def symbol : Layout (List.Vector UInt8 SYMBOL_LENGTH) :=
  uint8.vector SYMBOL_LENGTH

/-- The layout of one level of a snapshot. -/
def priceLevel : Layout PriceLevel :=
  (int32.prod (uint32.prod uint32)).map
    (fun (price, quantity, orderCount) => some { price, quantity, orderCount })
    (fun level => (level.price, level.quantity, level.orderCount)) (by
      rintro ⟨p, q, c⟩ ⟨p', q', c'⟩
      simp [eq_comm])

/-- The levels of one side of a snapshot. -/
def levels : Layout (List.Vector PriceLevel MAX_DEPTH_LEVELS) :=
  priceLevel.vector MAX_DEPTH_LEVELS

/-! The fields of the structs after their headers. -/

/-- What follows the header of a `TickUpdate`. -/
def tickFields : Layout (List.Vector UInt8 SYMBOL_LENGTH ×
    Price × Quantity × Price × Price × Quantity × Quantity) :=
  symbol.prod (int32.prod (uint32.prod (int32.prod (int32.prod (uint32.prod uint32)))))

/-- What follows the header of a `TradeUpdate`. -/
def tradeFields : Layout (List.Vector UInt8 SYMBOL_LENGTH ×
    TradeId × Price × Quantity × UInt8) :=
  symbol.prod (uint64.prod (int32.prod (uint32.prod uint8)))

/-- What follows the header of an `OrderbookSnapshot`. -/
def snapshotFields : Layout (List.Vector UInt8 SYMBOL_LENGTH × UInt8 × UInt8 ×
    List.Vector PriceLevel MAX_DEPTH_LEVELS × List.Vector PriceLevel MAX_DEPTH_LEVELS) :=
  symbol.prod (uint8.prod (uint8.prod (levels.prod levels)))

/-- The layouts of the three structs: packed, in the order of their fields. -/
def tickUpdate : Layout TickUpdate.Packed :=
  (messageHeader.prod tickFields).map
    (fun (header, symbol, lastPrice, lastQty, bidPrice, askPrice, bidQty, askQty) =>
      some
        ⟨{ header, symbol := symbol.toList, lastPrice, lastQty, bidPrice, askPrice, bidQty,
           askQty },
          symbol.toList_length⟩)
    (fun ⟨t, h⟩ =>
      (t.header, ⟨t.symbol, h⟩, t.lastPrice, t.lastQty, t.bidPrice, t.askPrice, t.bidQty,
        t.askQty)) (by
      rintro ⟨h, ⟨s, hs⟩, p, q, b, a, c, d⟩ ⟨⟨h', s', p', q', b', a', c', d'⟩, hs'⟩
      constructor <;> intro h <;> cases h <;> rfl)

def tradeUpdate : Layout TradeUpdate.Packed :=
  (messageHeader.prod tradeFields).map
    (fun (header, symbol, tradeId, price, quantity, aggressorSide) =>
      some
        ⟨{ header, symbol := symbol.toList, tradeId, price, quantity, aggressorSide },
          symbol.toList_length⟩)
    (fun ⟨t, h⟩ =>
      (t.header, ⟨t.symbol, h⟩, t.tradeId, t.price, t.quantity, t.aggressorSide)) (by
      rintro ⟨h, ⟨s, hs⟩, i, p, q, a⟩ ⟨⟨h', s', i', p', q', a'⟩, hs'⟩
      constructor <;> intro h <;> cases h <;> rfl)

def orderbookSnapshot : Layout OrderbookSnapshot :=
  (messageHeader.prod snapshotFields).map
    (fun (header, symbol, bidLevels, askLevels, bids, asks) =>
      some { header, symbol, bidLevels, askLevels, bids, asks })
    (fun s => (s.header, s.symbol, s.bidLevels, s.askLevels, s.bids, s.asks)) (by
      rintro ⟨h, s, b, a, bs, as⟩ ⟨h', s', b', a', bs', as'⟩
      simp [eq_comm])

/-- **The layouts have the sizes of the structs.** -/
theorem marketData_sizes :
    tickUpdate.size = MessageType.tickUpdate.size.toNat ∧
      tradeUpdate.size = MessageType.tradeUpdate.size.toNat ∧
      orderbookSnapshot.size = MessageType.orderbookSnapshot.size.toNat :=
  ⟨rfl, rfl, rfl⟩

end Wire

/-- The bytes of the struct. -/
def MarketData.bytes : MarketData → List UInt8
  | tick update => Wire.tickUpdate.write update
  | trade update => Wire.tradeUpdate.write update
  | snapshot book => Wire.orderbookSnapshot.write book

theorem MarketData.length_bytes (msg : MarketData) : msg.bytes.length = msg.type.size.toNat := by
  cases msg with
  | tick update => exact (Wire.tickUpdate.length_write update).trans Wire.marketData_sizes.1
  | trade update => exact (Wire.tradeUpdate.length_write update).trans Wire.marketData_sizes.2.1
  | snapshot book =>
      exact (Wire.orderbookSnapshot.length_write book).trans Wire.marketData_sizes.2.2

/-! ### The sending end -/

/-- The payload of a datagram. -/
abbrev Datagram := List UInt8

/-- The publisher's socket, and the datagrams that the network has taken whole from it. -/
structure UdpMulticast where
  /-- `socketFd_` is a socket, and `multicastGroup_` an address. -/
  ready : Bool
  messagesSent : UInt64
  bytesSent : UInt64
  network : List Datagram

/-- `publish`, where `sent` is what `sendto` returns. -/
def UdpMulticast.publish (multicast : UdpMulticast) (data : Datagram) (sent : ℤ) :
    Bool × UdpMulticast :=
  if multicast.ready = false then (false, multicast)
  else if sent < 0 then (false, multicast)
  else if sent ≠ data.length then (false, multicast)
  else
    (true,
      { multicast with
        messagesSent := multicast.messagesSent + 1
        bytesSent := multicast.bytesSent + UInt64.ofNat data.length
        network := multicast.network ++ [data] })

/-- The feed handler: the multicast socket that it sends through, and what it has counted. -/
structure FeedHandler where
  multicast : UdpMulticast
  ticksPublished : UInt64
  tradesPublished : UInt64

namespace FeedHandler

/-- A newly started feed handler. -/
def fresh : FeedHandler where
  multicast := { ready := true, messagesSent := 0, bytesSent := 0, network := [] }
  ticksPublished := 0
  tradesPublished := 0

/-- Send one message. `sent` is what `sendto` returns; an update counts as published only if it was
sent whole, and a snapshot is not counted. -/
def processMessage (feed : FeedHandler) (msg : MarketData) (sent : ℤ) : FeedHandler :=
  match msg with
  | .tick update =>
      let (published, multicast) := feed.multicast.publish (Wire.tickUpdate.write update) sent
      let feed := { feed with multicast }
      if published then { feed with ticksPublished := feed.ticksPublished + 1 } else feed
  | .trade update =>
      let (published, multicast) := feed.multicast.publish (Wire.tradeUpdate.write update) sent
      let feed := { feed with multicast }
      if published then { feed with tradesPublished := feed.tradesPublished + 1 } else feed
  | .snapshot book =>
      { feed with multicast := (feed.multicast.publish (Wire.orderbookSnapshot.write book) sent).2 }

variable {feed : FeedHandler}

/-- The socket sends the bytes of the struct, whatever the struct is. -/
theorem multicast_processMessage (feed : FeedHandler) (msg : MarketData) (sent : ℤ) :
    (feed.processMessage msg sent).multicast = (feed.multicast.publish msg.bytes sent).2 := by
  cases msg with
  | tick update =>
      simp only [processMessage, MarketData.bytes]
      split <;> rfl
  | trade update =>
      simp only [processMessage, MarketData.bytes]
      split <;> rfl
  | snapshot book => rfl

/-- **A message that is delivered whole** is one datagram, its bytes. -/
theorem network_processMessage (hready : feed.multicast.ready = true) (msg : MarketData) :
    (feed.processMessage msg msg.bytes.length).multicast =
      { feed.multicast with
        messagesSent := feed.multicast.messagesSent + 1
        bytesSent := feed.multicast.bytesSent + UInt64.ofNat msg.bytes.length
        network := feed.multicast.network ++ [msg.bytes] } := by
  rw [multicast_processMessage, UdpMulticast.publish, if_neg (by simp [hready]),
    if_neg (Int.not_lt.mpr (Int.natCast_nonneg _)), if_neg (by simp)]

end FeedHandler

end ExchangeEngine
