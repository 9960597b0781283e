import ExchangeEngine.Lib.SortedMap
import ExchangeEngine.Lib.UnorderedMap
import ExchangeEngine.Lib.WhileLoop
import ExchangeEngine.Order

/-!
# The Order Book

The class `Orderbook` of `Orderbook.h` and `Orderbook.cpp`. Its members are two price-sorted
maps of order lists, a hash index from order id to order, the aggregate data of each price
level, and the trades of the most recent operation; `heap` holds the order objects that the
pointers in them refer to.

The two nested loops of `addToBook` are one turn function (`matchTurn`) whose states say at
which loop head control is, iterated by `WhileLoop.run`. The lambda `matchAgainst` of the
source is generic in the map it works on; so is `MatchState`, in the comparison `r` that
sorts the opposite side.
-/

namespace ExchangeEngine

/-- A trade execution. -/
structure Trade where
  timestamp : Timestamp := 0
  buyOrderId : OrderId
  sellOrderId : OrderId
  price : Price
  quantity : Quantity
  tradeType : TradeType
  deriving DecidableEq, Repr

/-- Aggregate data of a price level. -/
structure LevelData where
  price : Price := 0
  totalQuantity : Quantity := 0
  numberOfOrders : UInt64 := 0
  deriving DecidableEq, Repr

/-- The orders of each price level of one side, the best price first. -/
abbrev LevelBook (r : Price → Price → Prop) := SortedMap Price OrderPointers r

/-- The two sides, each with its best price first: the highest bid, the lowest ask. -/
abbrev BidBook := LevelBook (· > ·)
abbrev AskBook := LevelBook (· < ·)

/-- The book: the objects of the orders, the aggregates of the levels, the index of the orders by
id, the two sides, and the trades of the last `AddOrder` or effective `ModifyOrder`. -/
structure Orderbook where
  heap : Heap
  priceToLeveldata : UnorderedMap Price LevelData
  orders : UnorderedMap OrderId OrderPointer
  bids : BidBook
  asks : AskBook
  trades : List Trade

/-! ### Level aggregates -/

/-- Enter an order into the aggregate of its price, which the two sides share. -/
def updateLevelOnAdd (levels : UnorderedMap Price LevelData) (price : Price)
    (quantity : Quantity) : UnorderedMap Price LevelData :=
  if quantity = 0 then levels
  else
    let data := (levels.lookup price).getD {}
    levels.insert price
      { price
        totalQuantity := data.totalQuantity + quantity
        numberOfOrders := data.numberOfOrders + 1 }

/-- The new aggregate of a level after a fill of `quantity`; the subtraction is guarded. -/
def LevelData.fill (data : LevelData) (quantity : Quantity) (orderClosed : Bool) : LevelData :=
  let data :=
    if data.totalQuantity ≤ quantity then { data with totalQuantity := 0 }
    else { data with totalQuantity := data.totalQuantity - quantity }
  if orderClosed && decide (0 < data.numberOfOrders) then
    { data with numberOfOrders := data.numberOfOrders - 1 }
  else data

/-- Take a quantity out of the aggregate of its price, and the order too if it is closed. An
aggregate without quantity or without orders is dropped. -/
def updateLevelOnFill (levels : UnorderedMap Price LevelData) (price : Price)
    (quantity : Quantity) (orderClosed : Bool) : UnorderedMap Price LevelData :=
  if quantity = 0 then levels
  else
    match levels.lookup price with
    | none => levels
    | some data =>
        let data := data.fill quantity orderClosed
        if data.totalQuantity = 0 ∨ data.numberOfOrders = 0 then levels.erase price
        else levels.insert price data

/-! ### Matching -/

/-- Whether an incoming order may trade at a resting price. The order type is looked at
before the price: MARKET and IOC cross at any price. -/
def priceCrossed (incomingPrice restingPrice : Price) (side : BuySell) (type : OrderType) :
    Bool :=
  if type = .market ∨ type = .ioc then true
  else if side = .buy then decide (restingPrice ≤ incomingPrice)
  else if side = .sell then decide (incomingPrice ≤ restingPrice)
  else false

/-- Where control is in the loops of `matchAgainst`: at the head of the loop over the price
levels, or at the head of the loop over the orders of the level at `restingPrice`, with the
iterator at position `i` of its list. -/
inductive Cursor
  | levels
  | orders (restingPrice : Price) (i : ℕ)
  deriving DecidableEq, Repr

/-- What the loops of `matchAgainst` read and write. -/
structure MatchState (r : Price → Price → Prop) where
  heap : Heap
  contraBook : LevelBook r
  orders : UnorderedMap OrderId OrderPointer
  priceToLeveldata : UnorderedMap Price LevelData
  trades : List Trade
  remaining : Quantity
  cursor : Cursor

section Matching

variable {r : Price → Price → Prop} [DecidableRel r] [IsStrictTotalOrder Price r]
variable (order : OrderPointer) (side : BuySell)

namespace MatchState

/-- The list of the level at `restingPrice`. -/
def levelOrders (s : MatchState r) (restingPrice : Price) : OrderPointers :=
  (s.contraBook.find? restingPrice).getD []

/-- The quantity executed against a resting order. -/
def executed (s : MatchState r) (restingOrder : OrderPointer) : Quantity :=
  min s.remaining (s.heap.read restingOrder).quantity

/-- The resting order after the execution. -/
def reduced (s : MatchState r) (restingOrder : OrderPointer) : Order :=
  ((s.heap.read restingOrder).reduceQuantity (s.executed restingOrder)).1

/-- The trade of one execution. -/
def trade (s : MatchState r) (restingPrice : Price) (restingOrder : OrderPointer) : Trade where
  price := restingPrice
  quantity := s.executed restingOrder
  tradeType :=
    if (s.reduced restingOrder).isFilled = true ∧ s.remaining - s.executed restingOrder = 0
    then .full else .partial_
  buyOrderId :=
    if side = .buy then (s.heap.read order).orderId else (s.heap.read restingOrder).orderId
  sellOrderId :=
    if side = .sell then (s.heap.read order).orderId else (s.heap.read restingOrder).orderId

/-- The body of the loop over the orders of a level, at position `i`: execute, record the
trade, and either take the closed resting order out of the list and the index or step over
the order that remains. -/
def fill (s : MatchState r) (restingPrice : Price) (i : ℕ) (restingOrder : OrderPointer) :
    MatchState r :=
  let resting := s.reduced restingOrder
  let restingClosed := resting.isFilled
  let s' : MatchState r :=
    { s with
      remaining := s.remaining - s.executed restingOrder
      priceToLeveldata :=
        updateLevelOnFill s.priceToLeveldata restingPrice (s.executed restingOrder) restingClosed
      trades := s.trades ++ [s.trade order side restingPrice restingOrder] }
  if restingClosed then
    { s' with
      heap := s.heap.write restingOrder (resting.setOrderStatus .traded)
      contraBook :=
        s.contraBook.upsert restingPrice fun _ => (s.levelOrders restingPrice).eraseIdx i
      orders := s.orders.erase resting.orderId }
  else
    { s' with
      heap := s.heap.write restingOrder (resting.setOrderStatus .modify)
      cursor := .orders restingPrice (i + 1) }

/-- The end of the loop over the orders of a level: an emptied level is erased. -/
def leaveLevel (s : MatchState r) (restingPrice : Price) : MatchState r :=
  if s.levelOrders restingPrice = [] then
    { s with contraBook := s.contraBook.erase restingPrice, cursor := .levels }
  else { s with cursor := .levels }

end MatchState

/-- One turn of the loops of `matchAgainst`, from loop head to loop head; `none` when the
outer loop is left. -/
def matchTurn (s : MatchState r) : Option (MatchState r) :=
  match s.cursor with
  | .levels =>
      if s.remaining = 0 then none
      else
        match s.contraBook.begin? with
        | none => none
        | some (restingPrice, _) =>
            if priceCrossed (s.heap.read order).price restingPrice side
                (s.heap.read order).orderType then
              some { s with cursor := .orders restingPrice 0 }
            else none
  | .orders restingPrice i =>
      match (s.levelOrders restingPrice)[i]? with
      | none => some (s.leaveLevel restingPrice)
      | some restingOrder =>
          if s.remaining = 0 then some (s.leaveLevel restingPrice)
          else some (s.fill order side restingPrice i restingOrder)

/-- A number of turns within which the loops are left: one for each order, two for each
level, and one. -/
def matchBudget (s : MatchState r) : ℕ :=
  (s.contraBook.entries.map fun e => e.2.length + 2).sum + 1

/-- The loops of `matchAgainst`: turn after turn until one of the conditions ends them. -/
def matchAgainst (s : MatchState r) : MatchState r :=
  WhileLoop.run (matchTurn order side) (matchBudget s) s

end Matching

namespace Orderbook

/-- The state in which `matchAgainst` starts on one of the two sides. -/
def matchState (b : Orderbook) {r : Price → Price → Prop} (contraBook : LevelBook r)
    (remaining : Quantity) : MatchState r where
  heap := b.heap
  contraBook
  orders := b.orders
  priceToLeveldata := b.priceToLeveldata
  trades := b.trades
  remaining
  cursor := .levels

/-- The matching part of `addToBook`: the book after it, and the remaining quantity. -/
def matchContra (b : Orderbook) (order : OrderPointer) : Orderbook × Quantity :=
  let originalQuantity := (b.heap.read order).quantity
  match (b.heap.read order).buySell with
  | .buy =>
      let s := matchAgainst order .buy (b.matchState b.asks originalQuantity)
      ({ b with heap := s.heap, asks := s.contraBook, orders := s.orders,
                priceToLeveldata := s.priceToLeveldata, trades := s.trades }, s.remaining)
  | .sell =>
      let s := matchAgainst order .sell (b.matchState b.bids originalQuantity)
      ({ b with heap := s.heap, bids := s.contraBook, orders := s.orders,
                priceToLeveldata := s.priceToLeveldata, trades := s.trades }, s.remaining)
  | .default => (b, originalQuantity)

/-- Write through an order pointer. -/
def updateOrder (b : Orderbook) (order : OrderPointer) (f : Order → Order) : Orderbook :=
  { b with heap := b.heap.write order (f (b.heap.read order)) }

/-- Drop the entry of an id from the index. -/
def clearOrderRecord (b : Orderbook) (orderId : OrderId) : Orderbook :=
  { b with orders := b.orders.erase orderId }

/-- The booking part of `addToBook`: append the order to its level, creating the level if
needed, and enter it into the aggregates and the index. -/
def bookOrder (b : Orderbook) (order : OrderPointer) : Orderbook :=
  let o := b.heap.read order
  let b :=
    if o.buySell = .buy then
      { b with bids := b.bids.upsert o.price fun level => level.getD [] ++ [order] }
    else
      { b with asks := b.asks.upsert o.price fun level => level.getD [] ++ [order] }
  { b with
    priceToLeveldata := updateLevelOnAdd b.priceToLeveldata o.price o.quantity
    orders := b.orders.insert o.orderId order }

/-- What `addToBook` does after matching: close a fully executed order, cancel the rest of a
MARKET or IOC order, or book the rest of any other order. -/
def settleOrder (b : Orderbook) (order : OrderPointer) (originalQuantity remaining : Quantity) :
    Orderbook :=
  let b := b.updateOrder order (·.setQuantity remaining)
  let o := b.heap.read order
  if remaining = 0 ∧ 0 < originalQuantity then
    (b.updateOrder order (·.setOrderStatus .traded)).clearOrderRecord o.orderId
  else if o.isAggressive then
    b.updateOrder order fun o => (o.setOrderStatus .cancelled).setQuantity 0
  else
    let b :=
      if remaining < originalQuantity then b.updateOrder order (·.setOrderStatus .modify)
      else if o.orderStatus ≠ .modify then b.updateOrder order (·.setOrderStatus .new)
      else b
    if 0 < (b.heap.read order).quantity then b.bookOrder order else b

/-- Match an order against the other side, and settle what is left of it. The trades of the call
before are cleared first. -/
def addToBook (b : Orderbook) (order : OrderPointer) : Orderbook :=
  let originalQuantity := (b.heap.read order).quantity
  let (b, remaining) := matchContra { b with trades := [] } order
  b.settleOrder order originalQuantity remaining

/-- `AddOrder`. The source checks for a null pointer, which the engine never passes. -/
def addOrder (b : Orderbook) (order : OrderPointer) : Orderbook :=
  b.addToBook order

/-! ### Removing and modifying -/

/-- The lambda `eraseFromBook` of `removeOrderFromBook`: find the level by the order's price,
erase the first entry with the order's id, and erase the level if that empties it. -/
def eraseFromBook {r : Price → Price → Prop} [DecidableRel r] [IsStrictTotalOrder Price r]
    (heap : Heap) (order : OrderPointer) (book : LevelBook r) : LevelBook r :=
  let o := heap.read order
  match book.find? o.price with
  | none => book
  | some levelOrders =>
      let levelOrders := levelOrders.eraseP fun p => (heap.read p).orderId = o.orderId
      if levelOrders = [] then book.erase o.price
      else book.upsert o.price fun _ => levelOrders

/-- Take an order out of the side that it says it is on. -/
def removeOrderFromBook (b : Orderbook) (order : OrderPointer) : Orderbook :=
  if (b.heap.read order).buySell = .buy then
    { b with bids := eraseFromBook b.heap order b.bids }
  else
    { b with asks := eraseFromBook b.heap order b.asks }

/-- The common beginning of modify and cancel: take the order out of the aggregates and out
of its level. -/
def detachOrder (b : Orderbook) (order : OrderPointer) : Orderbook :=
  let o := b.heap.read order
  let b :=
    if 0 < o.quantity then
      { b with priceToLeveldata := updateLevelOnFill b.priceToLeveldata o.price o.quantity true }
    else b
  b.removeOrderFromBook order

/-- The order that `modifyOrder` modifies: none if the id is not in the index, or if price
and quantity are those the order has. -/
def modifyTarget (b : Orderbook) (orderId : OrderId) (newPrice : Price)
    (newQuantity : Quantity) : Option OrderPointer :=
  match b.orders.lookup orderId with
  | none => none
  | some order =>
      let o := b.heap.read order
      if o.price = newPrice ∧ o.quantity = newQuantity then none else some order

/-- The book as `modifyOrder` hands it to `addToBook`. -/
def prepareModify (b : Orderbook) (order : OrderPointer) (newPrice : Price)
    (newQuantity : Quantity) : Orderbook :=
  (b.detachOrder order).updateOrder order fun o =>
    ((o.setPrice newPrice).setQuantity newQuantity).setOrderStatus .modify

/-- `ModifyOrder`: take the order out and add it again, which gives up its place in the queue. A
modify without effect returns before the trades are cleared. -/
def modifyOrder (b : Orderbook) (orderId : OrderId) (newPrice : Price)
    (newQuantity : Quantity) : Orderbook :=
  match b.modifyTarget orderId newPrice newQuantity with
  | none => b
  | some order => (b.prepareModify order newPrice newQuantity).addToBook order

/-- `CancelOrder`. The object stays, cancelled and without quantity; an unknown id is ignored. -/
def cancelOrder (b : Orderbook) (orderId : OrderId) : Orderbook :=
  match b.orders.lookup orderId with
  | none => b
  | some order =>
      ((b.detachOrder order).updateOrder order fun o =>
        (o.setQuantity 0).setOrderStatus .cancelled).clearOrderRecord orderId

/-! ### Best prices -/

/-- The sum of a level's quantities, as the source accumulates it in 32 bits. -/
def levelQuantity (heap : Heap) (level : OrderPointers) : Quantity :=
  level.foldl (fun qty p => qty + (heap.read p).quantity) 0

/-- The lambda shared by `GetBestBid` and `GetBestAsk`: price and quantity of the first level,
and whether that quantity is positive. -/
def bestLevel {r : Price → Price → Prop} (heap : Heap) (book : LevelBook r) :
    Bool × Price × Quantity :=
  match book.begin? with
  | none => (false, 0, 0)
  | some (price, level) =>
      let qty := levelQuantity heap level
      (decide (0 < qty), price, qty)

/-- `GetBestBid`: the price and the quantity of the first bid level. -/
def getBestBid (b : Orderbook) : Bool × Price × Quantity :=
  bestLevel b.heap b.bids

/-- `GetBestAsk`: the price and the quantity of the first ask level. -/
def getBestAsk (b : Orderbook) : Bool × Price × Quantity :=
  bestLevel b.heap b.asks

/-- Best bid and best ask; a side without one is reported as zero. -/
structure BestBidAsk where
  found : Bool
  bidPrice : Price
  bidQty : Quantity
  askPrice : Price
  askQty : Quantity
  deriving DecidableEq, Repr

/-- `GetBestBidAsk`, which the tick updates are made from. -/
def getBestBidAsk (b : Orderbook) : BestBidAsk :=
  let (hasBid, bidPrice, bidQty) := b.getBestBid
  let (hasAsk, askPrice, askQty) := b.getBestAsk
  { found := hasBid || hasAsk
    bidPrice := if hasBid then bidPrice else 0
    bidQty := if hasBid then bidQty else 0
    askPrice := if hasAsk then askPrice else 0
    askQty := if hasAsk then askQty else 0 }

/-- The empty book. -/
def empty : Orderbook where
  heap := ObjectStore.empty
  priceToLeveldata := ∅
  orders := ∅
  bids := SortedMap.empty
  asks := SortedMap.empty
  trades := []

end Orderbook

end ExchangeEngine
