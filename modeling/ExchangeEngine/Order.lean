import ExchangeEngine.Lib.ObjectStore
import ExchangeEngine.Types

/-!
# Orders

The class `Order` of `Order.h`. The order book and the matching engine share `Order` objects
through shared pointers: an `OrderPointer` is the address of an object in a `Heap`, and a
write through one holder's pointer is seen by every other holder. A pointer of the model is
never null (the source checks for null pointers but never makes one).
-/

namespace ExchangeEngine

/-- An order: what its client has asked for, the ids under which it is known, and its state. The
quantity is what is left of it. -/
structure Order where
  price : Price
  quantity : Quantity
  timestamp : Timestamp
  orderId : OrderId
  orderType : OrderType
  buySell : BuySell
  orderStatus : OrderStatus
  sessionId : SessionId
  clientOrderId : ClientOrderId
  deriving DecidableEq, Repr, Inhabited

namespace Order

/-- The setters of `Order`. -/
def setPrice (o : Order) (price : Price) : Order :=
  { o with price }

def setQuantity (o : Order) (quantity : Quantity) : Order :=
  { o with quantity }

def setOrderStatus (o : Order) (orderStatus : OrderStatus) : Order :=
  { o with orderStatus }

/-- Reduce the quantity by `delta`, or to zero if there is less; also the amount reduced. -/
def reduceQuantity (o : Order) (delta : Quantity) : Order × Quantity :=
  let executed := min o.quantity delta
  (o.setQuantity (o.quantity - executed), executed)

/-- Whether nothing is left of the order. A cancelled order has no quantity either. -/
def isFilled (o : Order) : Bool :=
  o.quantity == 0

/-- MARKET and IOC orders never rest. -/
def isAggressive (o : Order) : Bool :=
  o.orderType == .market || o.orderType == .ioc

end Order

/-- The address of a shared `Order` object. -/
abbrev OrderPointer := ℕ

/-- The list of a level, the order that came first in front. -/
abbrev OrderPointers := List OrderPointer

/-- The `Order` objects behind the pointers. -/
abbrev Heap := ObjectStore Order

end ExchangeEngine
