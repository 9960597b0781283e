import Mathlib.Algebra.GroupWithZero.Nat
import Mathlib.Order.RelClasses
import Mathlib.Tactic.Common

/-!
# Basic Types

The type aliases of `Usings.h` and the enumerations of `define.h`. The fixed-width aliases
are Lean's fixed-width integers, so wrap-around is that of the source. An enumeration is an
inductive type; `ofUInt8` is the `static_cast` from a wire byte, which gives `none` for a
byte that names no enumerator (such a value is unequal to every enumerator in the source).
-/

namespace ExchangeEngine

/-- The aliases of `Usings.h`. A price is signed, everything else is not. -/
abbrev Price := Int32
abbrev Quantity := UInt32
abbrev OrderId := UInt64
abbrev Timestamp := UInt64
abbrev SessionId := UInt32
abbrev ClientOrderId := UInt64
abbrev TradeId := UInt64

/-- The id of no session; ids are given out from one on. -/
def INVALID_SESSION_ID : SessionId := 0

/-- The session under which the dummy generator enters its orders. -/
def DUMMY_SESSION_ID : SessionId := 0xFFFFFFFF

/-- The side of an order. -/
inductive BuySell
  | default
  | buy
  | sell
  deriving DecidableEq, Repr, Inhabited

/-- The type of an order. The engine refuses stop-loss orders, and what comes as the default. -/
inductive OrderType
  | default
  | limit
  | ioc
  | market
  | stoploss
  deriving DecidableEq, Repr, Inhabited

/-- What has become of an order. -/
inductive OrderStatus
  | default
  | new
  | modify
  | traded
  | cancelled
  deriving DecidableEq, Repr, Inhabited

/-- Whether a trade closes the order that it fills. `partial` is a keyword of Lean. -/
inductive TradeType
  | default
  | partial_
  | full
  deriving DecidableEq, Repr, Inhabited

/-- `static_cast<uint8_t>(side)`. -/
def BuySell.toUInt8 : BuySell → UInt8
  | .default => 0
  | .buy => 1
  | .sell => 2

/-- The side of the passive order, given the side of the aggressor. -/
def BuySell.opposite (side : BuySell) : BuySell :=
  if side = .buy then .sell else .buy

/-- `static_cast<BuySell>(byte)`. -/
def BuySell.ofUInt8 (b : UInt8) : Option BuySell :=
  if b = 0 then some .default
  else if b = 1 then some .buy
  else if b = 2 then some .sell
  else none

/-- `static_cast<uint8_t>(orderType)`. -/
def OrderType.toUInt8 : OrderType → UInt8
  | .default => 0
  | .limit => 1
  | .ioc => 2
  | .market => 3
  | .stoploss => 4

/-- `static_cast<OrderType>(byte)`. -/
def OrderType.ofUInt8 (b : UInt8) : Option OrderType :=
  if b = 0 then some .default
  else if b = 1 then some .limit
  else if b = 2 then some .ioc
  else if b = 3 then some .market
  else if b = 4 then some .stoploss
  else none

/-- `static_cast<uint8_t>(status)`. -/
def OrderStatus.toUInt8 : OrderStatus → UInt8
  | .default => 0
  | .new => 1
  | .modify => 2
  | .traded => 3
  | .cancelled => 4

/-! ### Order and arithmetic facts about prices and quantities -/

instance : IsStrictTotalOrder Price (· < ·) where
  irrefl _ := Int32.lt_irrefl
  trans _ _ _ := Int32.lt_trans
  trichotomous _ _ hab hba :=
    Int32.le_antisymm (Int32.not_lt.mp hba) (Int32.not_lt.mp hab)

instance : IsStrictTotalOrder Price (· > ·) :=
  inferInstanceAs (IsStrictTotalOrder Price (Function.swap (· < ·)))

theorem Quantity.pos_iff {q : Quantity} : 0 < q ↔ q ≠ 0 :=
  UInt32.pos_iff_ne_zero

theorem Quantity.toNat_pos_iff {q : Quantity} : 0 < q.toNat ↔ q ≠ 0 := by
  rw [Nat.pos_iff_ne_zero, ne_eq, ne_eq, ← UInt32.toNat_inj, UInt32.toNat_zero]

theorem Quantity.toNat_min (q p : Quantity) : (min q p).toNat = min q.toNat p.toNat := by
  rw [show min q p = if q ≤ p then q else p from rfl]
  split
  · rename_i h
    exact (Nat.min_eq_left (UInt32.le_iff_toNat_le.mp h)).symm
  · rename_i h
    exact (Nat.min_eq_right (Nat.le_of_lt (Nat.not_le.mp
      fun hle => h (UInt32.le_iff_toNat_le.mpr hle)))).symm

/-- Subtracting at most what is there does not wrap. -/
theorem Quantity.toNat_sub {q p : Quantity} (h : p.toNat ≤ q.toNat) :
    (q - p).toNat = q.toNat - p.toNat :=
  UInt32.toNat_sub_of_le q p (UInt32.le_iff_toNat_le.mpr h)

end ExchangeEngine
