import ExchangeEngine.EngineSteps

/-!
# The Dummy Generator

The class `DummyGenerator` of `DummyGenerator.h` and `DummyGenerator.cpp`: a random walk of the
price inside a range around a base price, and the orders that are generated along it. What the
random number generator decides in one call is an `OrderDraw`; the floating-point draws appear
in it as the integers that the source truncates them to. The rates and ratios of the
configuration decide only which draws are likely, and are left out.

A price is rounded down to the tick, with a fallback for prices below one tick, before the side
moves it: a BUY order may be placed up to four ticks lower. The fallback is not made again after
that, so orders are always valid exactly if the range leaves room for five ticks above zero.

## Main results

* `orders_valid_iff`: the configurations whose orders are always valid.
* `not_ordersValid_lowPriceConfig`: a configuration without that room generates an order that is
  rejected.
-/

namespace ExchangeEngine

/-- The part of the configuration that orders are made from. -/
structure DummyGeneratorConfig where
  basePrice : Price := 1000
  priceRange : Price := 100
  tickSize : Price := 1
  minQuantity : Quantity := 1
  maxQuantity : Quantity := 100
  deriving DecidableEq, Repr

/-- What a call of `generateOrder` meets: the results of `generateSide`, `generateOrderType` and
`generateQuantity`, the step of the random walk, the number of ticks by which the side moves the
price, the clock reading for the header, and whether the inbound queue takes the message. -/
structure OrderDraw where
  side : BuySell
  orderType : OrderType
  quantity : Quantity
  priceChange : Price
  ticks : Price
  timestamp : Timestamp := 0
  pushed : Bool := true
  deriving DecidableEq, Repr

/-- The draws that the distributions give. -/
structure OrderDraw.Allowed (config : DummyGeneratorConfig) (draw : OrderDraw) : Prop where
  side : draw.side = .buy ∨ draw.side = .sell
  orderType : draw.orderType = .limit ∨ draw.orderType = .market ∨ draw.orderType = .ioc
  quantity : config.minQuantity ≤ draw.quantity ∧ draw.quantity ≤ config.maxQuantity
  priceChange : -(3 * config.tickSize.toInt) ≤ draw.priceChange.toInt ∧
    draw.priceChange.toInt ≤ 3 * config.tickSize.toInt
  ticks : 0 ≤ draw.ticks.toInt ∧ draw.ticks.toInt ≤ 4

/-- The generator: its configuration, where its random walk is, the id of its next order, and the
number of orders that it has pushed. -/
structure DummyGenerator where
  config : DummyGeneratorConfig
  currentPrice : Price
  nextClientOrderId : ClientOrderId
  ordersGenerated : UInt64

namespace DummyGenerator

/-- A newly constructed generator. -/
def fresh : DummyGenerator where
  config := {}
  currentPrice := 1000
  nextClientOrderId := 1
  ordersGenerated := 0

/-- `setConfig`, which takes the walk back to the base price of the new configuration. -/
def setConfig (g : DummyGenerator) (config : DummyGeneratorConfig) : DummyGenerator :=
  { g with config, currentPrice := config.basePrice }

/-- `start`, but for the thread that it starts. -/
def start (g : DummyGenerator) : DummyGenerator :=
  { g with currentPrice := g.config.basePrice }

/-- A step of the random walk, clamped to the range, and the price rounded to the tick. -/
def generatePrice (g : DummyGenerator) (priceChange : Price) : DummyGenerator × Price :=
  let currentPrice := g.currentPrice + priceChange
  let minPrice := g.config.basePrice - g.config.priceRange
  let maxPrice := g.config.basePrice + g.config.priceRange
  let currentPrice := if currentPrice < minPrice then minPrice else currentPrice
  let currentPrice := if maxPrice < currentPrice then maxPrice else currentPrice
  let price := currentPrice / g.config.tickSize * g.config.tickSize
  let price := if price < 1 then g.config.tickSize else price
  ({ g with currentPrice }, price)

/-- The request that `generateOrder` builds. A MARKET order has price zero, and no step of the
random walk is made for it. -/
def generateRequest (g : DummyGenerator) (draw : OrderDraw) : DummyGenerator × NewOrderRequest :=
  let clientOrderId := g.nextClientOrderId
  let g := { g with nextClientOrderId := g.nextClientOrderId + 1 }
  let (g, price) : DummyGenerator × Price :=
    if draw.orderType = .market then (g, 0)
    else
      let (g, price) := g.generatePrice draw.priceChange
      if draw.side = .buy then (g, price - draw.ticks * g.config.tickSize)
      else (g, price + draw.ticks * g.config.tickSize)
  (g, { header :=
          ⟨.newOrderRequest, MessageType.newOrderRequest.size, draw.timestamp⟩
        clientOrderId, side := draw.side.toUInt8, orderType := draw.orderType.toUInt8, price,
        quantity := draw.quantity })

/-- The message that `generateOrder` pushes to the inbound queue. -/
def generateOrder (g : DummyGenerator) (draw : OrderDraw) : DummyGenerator × InboundMessage :=
  let (g, request) := g.generateRequest draw
  (if draw.pushed then { g with ordersGenerated := g.ordersGenerated + 1 } else g,
    ⟨DUMMY_SESSION_ID, .newOrder request⟩)

/-- Calls of `generateOrder` one after another, and their messages in order. -/
def generateOrders (g : DummyGenerator) : List OrderDraw → DummyGenerator × List InboundMessage
  | [] => (g, [])
  | draw :: draws =>
      let (g, msg) := g.generateOrder draw
      let (g, msgs) := g.generateOrders draws
      (g, msg :: msgs)

end DummyGenerator

/-! ### What is asked of a configuration and of its orders -/

namespace DummyGeneratorConfig

variable (config : DummyGeneratorConfig)

/-- The bounds of the range, as integers. -/
def minPrice : ℤ := config.basePrice.toInt - config.priceRange.toInt

def maxPrice : ℤ := config.basePrice.toInt + config.priceRange.toInt

/-- A configuration that makes sense: the bounds of the range and the multiples of the tick are
representable. -/
structure Sensible : Prop where
  tickSize : 1 ≤ config.tickSize.toInt
  priceRange : 0 ≤ config.priceRange.toInt ∧ config.priceRange.toInt < config.basePrice.toInt
  quantity : 1 ≤ config.minQuantity ∧ config.minQuantity ≤ config.maxQuantity
  representable : config.maxPrice < 2 ^ 31
  multiples : 4 * config.tickSize.toInt < 2 ^ 31

/-- The engine accepts the order, and a LIMIT or IOC order has a positive multiple of the tick as
its price. -/
structure ValidOrder (msg : InboundMessage) : Prop where
  accepted : MatchingEngine.isAccepted msg = true
  price : ∀ request, msg.body = .newOrder request →
    request.orderType ≠ OrderType.market.toUInt8 →
    0 < request.price.toInt ∧ config.tickSize.toInt ∣ request.price.toInt

/-- **The orders of the configuration are always valid**: whatever is drawn, the walk stays within
the range and every order is valid. -/
def OrdersValid : Prop :=
  ∀ (g : DummyGenerator) (draws : List OrderDraw), (∀ draw ∈ draws, draw.Allowed config) →
    let (g', msgs) := (g.setConfig config).start.generateOrders draws
    (config.minPrice ≤ g'.currentPrice.toInt ∧ g'.currentPrice.toInt ≤ config.maxPrice) ∧
      ∀ msg ∈ msgs, config.ValidOrder msg

/-- **The range leaves room for the side**: five ticks below it, and above it four ticks that are
representable. -/
def LeavesRoom : Prop :=
  5 * config.tickSize.toInt ≤ config.minPrice ∧
    (config.maxPrice / config.tickSize.toInt + 4) * config.tickSize.toInt < 2 ^ 31

end DummyGeneratorConfig

/-! ### The casts of the two enumerations -/

theorem BuySell.ofUInt8_toUInt8 (side : BuySell) : BuySell.ofUInt8 side.toUInt8 = some side := by
  cases side <;> rfl

theorem OrderType.ofUInt8_toUInt8 (orderType : OrderType) :
    OrderType.ofUInt8 orderType.toUInt8 = some orderType := by
  cases orderType <;> rfl

/-! ### Prices as integers -/

namespace Price

variable {p q : Price}

theorem toInt_eq_of_bounds {z : ℤ} (hlow : -2 ^ 31 ≤ z) (hhigh : z < 2 ^ 31) :
    z.bmod (2 ^ 32) = z :=
  Int.bmod_eq_of_le (by omega) (by omega)

/-- A sum that is representable does not wrap. -/
theorem toInt_add (hlow : -2 ^ 31 ≤ p.toInt + q.toInt) (hhigh : p.toInt + q.toInt < 2 ^ 31) :
    (p + q).toInt = p.toInt + q.toInt := by
  rw [Int32.toInt_add, toInt_eq_of_bounds hlow hhigh]

theorem toInt_sub (hlow : -2 ^ 31 ≤ p.toInt - q.toInt) (hhigh : p.toInt - q.toInt < 2 ^ 31) :
    (p - q).toInt = p.toInt - q.toInt := by
  rw [Int32.toInt_sub, toInt_eq_of_bounds hlow hhigh]

theorem toInt_mul (hlow : -2 ^ 31 ≤ p.toInt * q.toInt) (hhigh : p.toInt * q.toInt < 2 ^ 31) :
    (p * q).toInt = p.toInt * q.toInt := by
  rw [Int32.toInt_mul, toInt_eq_of_bounds hlow hhigh]

/-- A sum beyond what is representable wraps to a negative price. -/
theorem toInt_add_neg (h : 2 ^ 31 ≤ p.toInt + q.toInt) : (p + q).toInt < 0 := by
  have hp := p.toInt_lt
  have hq := q.toInt_lt
  have hself : (p.toInt + q.toInt) % ((2 ^ 32 : ℕ) : ℤ) = p.toInt + q.toInt :=
    Int.emod_eq_of_lt (by omega) (by omega)
  rw [Int32.toInt_add, Int.bmod_eq_emod, hself]
  split <;> omega

/-- The smaller and the larger of two prices, as the source selects them. -/
theorem toInt_raise : (if p < q then q else p).toInt = max q.toInt p.toInt := by
  simp only [Int32.lt_iff_toInt_lt]
  split <;> omega

theorem toInt_lower : (if q < p then q else p).toInt = min q.toInt p.toInt := by
  simp only [Int32.lt_iff_toInt_lt]
  split <;> omega

/-- Rounding a positive price down to a positive tick. -/
theorem toInt_round (hp : 0 < p.toInt) (hq : 0 < q.toInt) :
    (p / q * q).toInt = p.toInt / q.toInt * q.toInt := by
  have hne : q ≠ -1 := by
    rintro rfl
    revert hq
    decide
  have hdiv : (p / q).toInt = p.toInt / q.toInt := by
    rw [Int32.toInt_div_of_ne_right p q hne, Int.tdiv_eq_ediv_of_nonneg (Int.le_of_lt hp)]
  have hlow : 0 ≤ p.toInt / q.toInt * q.toInt :=
    Int.mul_nonneg (Int.ediv_nonneg (Int.le_of_lt hp) (Int.le_of_lt hq)) (Int.le_of_lt hq)
  have hhigh : p.toInt / q.toInt * q.toInt ≤ p.toInt := Int.ediv_mul_le _ (Int.ne_of_gt hq)
  have hbound := p.toInt_lt
  rw [toInt_mul, hdiv]
  · rw [hdiv]
    omega
  · rw [hdiv]
    omega

end Price

/-! ### One order -/

namespace DummyGeneratorConfig

variable (config : DummyGeneratorConfig)

/-- Where a step of the walk to `z` ends. -/
def clamp (z : ℤ) : ℤ := min config.maxPrice (max config.minPrice z)

/-- The price that is made of the current price `z`. -/
def roundToTick (z : ℤ) : ℤ :=
  max config.tickSize.toInt (z / config.tickSize.toInt * config.tickSize.toInt)

variable {config}

theorem Sensible.minPrice_pos (h : config.Sensible) :
    1 ≤ config.minPrice ∧ config.minPrice ≤ config.maxPrice := by
  obtain ⟨hnonneg, hlt⟩ := h.priceRange
  rw [minPrice, maxPrice]
  omega

theorem Sensible.clamp_bounds (h : config.Sensible) (z : ℤ) :
    config.minPrice ≤ config.clamp z ∧ config.clamp z ≤ config.maxPrice := by
  have hle := h.minPrice_pos.2
  rw [clamp]
  omega

end DummyGeneratorConfig

namespace DummyGenerator

variable {config : DummyGeneratorConfig} {g : DummyGenerator} {draw : OrderDraw}

/-- The generator walks inside the range of its configuration. -/
structure Walks (config : DummyGeneratorConfig) (g : DummyGenerator) : Prop where
  config_eq : g.config = config
  low : config.minPrice ≤ g.currentPrice.toInt
  high : g.currentPrice.toInt ≤ config.maxPrice

/-- **A step of the walk** that is representable is clamped and rounded as the integers are. -/
theorem generatePrice_spec (h : config.Sensible) (hw : g.Walks config) (priceChange : Price)
    (hlow : -2 ^ 31 ≤ g.currentPrice.toInt + priceChange.toInt)
    (hhigh : g.currentPrice.toInt + priceChange.toInt < 2 ^ 31) :
    (g.generatePrice priceChange).1.currentPrice.toInt =
        config.clamp (g.currentPrice.toInt + priceChange.toInt) ∧
      (g.generatePrice priceChange).2.toInt =
        config.roundToTick (config.clamp (g.currentPrice.toInt + priceChange.toInt)) := by
  obtain ⟨rfl, hmin, hmax⟩ := hw
  obtain ⟨hpos, hle⟩ := h.minPrice_pos
  have hbound := h.representable
  have htick := h.tickSize
  have hsum := Price.toInt_add hlow hhigh
  have hminPrice : (g.config.basePrice - g.config.priceRange).toInt = g.config.minPrice := by
    rw [DummyGeneratorConfig.minPrice] at hpos hle
    exact Price.toInt_sub (by omega) (by omega)
  have hmaxPrice : (g.config.basePrice + g.config.priceRange).toInt = g.config.maxPrice := by
    rw [DummyGeneratorConfig.maxPrice] at hbound hle
    exact Price.toInt_add (by omega) (by omega)
  have hclamp : (g.generatePrice priceChange).1.currentPrice.toInt =
      g.config.clamp (g.currentPrice.toInt + priceChange.toInt) := by
    simp only [generatePrice, DummyGeneratorConfig.clamp, Price.toInt_lower, Price.toInt_raise,
      hsum, hminPrice, hmaxPrice]
  refine ⟨hclamp, ?_⟩
  obtain ⟨hclow, -⟩ := h.clamp_bounds (g.currentPrice.toInt + priceChange.toInt)
  have hround := Price.toInt_round (p := (g.generatePrice priceChange).1.currentPrice)
    (q := g.config.tickSize) (by omega) (by omega)
  rw [hclamp] at hround
  have hprice : (g.generatePrice priceChange).2 =
      if (g.generatePrice priceChange).1.currentPrice / g.config.tickSize * g.config.tickSize < 1
      then g.config.tickSize
      else (g.generatePrice priceChange).1.currentPrice / g.config.tickSize * g.config.tickSize :=
    rfl
  rw [hprice, DummyGeneratorConfig.roundToTick]
  generalize g.config.clamp (g.currentPrice.toInt + priceChange.toInt) = z at hround hclow ⊢
  -- a positive multiple of the tick is at least one tick
  have hquotient : 0 ≤ z / g.config.tickSize.toInt := Int.ediv_nonneg (by omega) (by omega)
  split
  · rename_i hsmall
    rw [Int32.lt_iff_toInt_lt, hround] at hsmall
    have hone : (1 : Price).toInt = 1 := rfl
    omega
  · rename_i hlarge
    rw [Int32.lt_iff_toInt_lt, hround] at hlarge
    rw [hround]
    refine (max_eq_right ?_).symm
    have hpositive : 1 ≤ z / g.config.tickSize.toInt * g.config.tickSize.toInt :=
      Int.not_lt.mp hlarge
    have hone : 1 ≤ z / g.config.tickSize.toInt := by
      by_contra hzero
      have : z / g.config.tickSize.toInt = 0 := by omega
      rw [this] at hpositive
      omega
    calc g.config.tickSize.toInt = 1 * g.config.tickSize.toInt := (Int.one_mul _).symm
      _ ≤ z / g.config.tickSize.toInt * g.config.tickSize.toInt :=
          Int.mul_le_mul_of_nonneg_right hone (by omega)

/-- The current price and the price of the request, if the order is not a MARKET order. -/
theorem generateRequest_of_priced (htype : draw.orderType ≠ .market) :
    (g.generateRequest draw).1.currentPrice = (g.generatePrice draw.priceChange).1.currentPrice ∧
      (g.generateRequest draw).2.price =
        if draw.side = .buy then
          (g.generatePrice draw.priceChange).2 - draw.ticks * g.config.tickSize
        else (g.generatePrice draw.priceChange).2 + draw.ticks * g.config.tickSize := by
  simp only [generateRequest, if_neg htype]
  split <;> exact ⟨rfl, rfl⟩

theorem config_generateRequest : (g.generateRequest draw).1.config = g.config := by
  simp only [generateRequest]
  split
  · rfl
  · split <;> rfl

/-- The fields that the checks look at, apart from the price. -/
theorem fields_generateRequest :
    (g.generateRequest draw).2.side = draw.side.toUInt8 ∧
      (g.generateRequest draw).2.orderType = draw.orderType.toUInt8 ∧
      (g.generateRequest draw).2.quantity = draw.quantity :=
  ⟨rfl, rfl, rfl⟩

/-- **What the checks make of a request**: only the price of a LIMIT order can be wrong. -/
theorem accepted_iff (h : config.Sensible) (hdraw : draw.Allowed config) :
    MatchingEngine.isAccepted (g.generateOrder draw).2 = true ↔
      (draw.orderType = .limit → 0 < (g.generateRequest draw).2.price.toInt) := by
  obtain ⟨hside, htype, ⟨hlow, -⟩, -, -⟩ := hdraw
  have hquantity : draw.quantity ≠ 0 := by
    have hone := UInt32.le_trans h.quantity.1 hlow
    rintro hzero
    rw [hzero] at hone
    revert hone
    decide
  have hpositive : ¬ (g.generateRequest draw).2.price ≤ 0 ↔
      0 < (g.generateRequest draw).2.price.toInt := by
    rw [Int32.not_le, Int32.lt_iff_toInt_lt]
    rfl
  obtain ⟨hfside, hftype, hfquantity⟩ := @fields_generateRequest g draw
  simp only [generateOrder, MatchingEngine.isAccepted, MatchingEngine.checkNewOrder, hfside, hftype,
    hfquantity, BuySell.ofUInt8_toUInt8, OrderType.ofUInt8_toUInt8, if_neg hquantity]
  rw [← hpositive]
  by_cases hprice : (g.generateRequest draw).2.price ≤ 0
  · rcases hside with hside | hside <;> rcases htype with htype | htype | htype <;>
      simp [hside, htype, hprice, -Int32.not_le]
  · rcases hside with hside | hside <;> rcases htype with htype | htype | htype <;>
      simp [hside, htype, hprice, -Int32.not_le]

/-! ### Configurations that leave room -/

end DummyGenerator

namespace DummyGeneratorConfig

variable {config : DummyGeneratorConfig}

/-- With room for the side, a step of the walk is representable. -/
theorem LeavesRoom.step (h : config.Sensible) (hroom : config.LeavesRoom) :
    config.maxPrice + 3 * config.tickSize.toInt < 2 ^ 31 := by
  have htick := h.tickSize
  have hround := Int.lt_ediv_add_one_mul_self config.maxPrice
    (show 0 < config.tickSize.toInt by omega)
  have hhigh := hroom.2
  rw [Int.add_mul] at hround hhigh
  omega

/-- With room for the side, the price is at least five ticks, and a multiple of the tick. -/
theorem LeavesRoom.roundToTick (h : config.Sensible) (hroom : config.LeavesRoom) {z : ℤ}
    (hlow : config.minPrice ≤ z) (hhigh : z ≤ config.maxPrice) :
    config.roundToTick z = z / config.tickSize.toInt * config.tickSize.toInt ∧
      5 * config.tickSize.toInt ≤ z / config.tickSize.toInt * config.tickSize.toInt ∧
      z / config.tickSize.toInt * config.tickSize.toInt ≤
        config.maxPrice / config.tickSize.toInt * config.tickSize.toInt := by
  have htick : 0 < config.tickSize.toInt := h.tickSize
  have hfive : 5 ≤ z / config.tickSize.toInt :=
    (Int.le_ediv_iff_mul_le htick).mpr (hroom.1.trans hlow)
  have hlower := Int.mul_le_mul_of_nonneg_right hfive (Int.le_of_lt htick)
  refine ⟨max_eq_right (by omega), hlower, ?_⟩
  exact Int.mul_le_mul_of_nonneg_right (Int.ediv_le_ediv htick hhigh) (Int.le_of_lt htick)

end DummyGeneratorConfig

namespace DummyGenerator

variable {config : DummyGeneratorConfig} {g : DummyGenerator} {draw : OrderDraw}

/-- The number of ticks by which the side moves the price, in price units. -/
theorem toInt_ticks (h : config.Sensible) (hdraw : draw.Allowed config) :
    (draw.ticks * config.tickSize).toInt = draw.ticks.toInt * config.tickSize.toInt ∧
      0 ≤ draw.ticks.toInt * config.tickSize.toInt ∧
      draw.ticks.toInt * config.tickSize.toInt ≤ 4 * config.tickSize.toInt := by
  have htick : 0 ≤ config.tickSize.toInt := Int.le_trans (by decide) h.tickSize
  have hbound := h.multiples
  have hlow := Int.mul_nonneg hdraw.ticks.1 htick
  have hhigh := Int.mul_le_mul_of_nonneg_right hdraw.ticks.2 htick
  exact ⟨Price.toInt_mul (by omega) (by omega), hlow, hhigh⟩

/-- **One order** of a configuration that leaves room: the walk stays within the range, and the
price is a positive multiple of the tick. -/
theorem generateRequest_of_leavesRoom (h : config.Sensible) (hroom : config.LeavesRoom)
    (hw : g.Walks config) (hdraw : draw.Allowed config) (htype : draw.orderType ≠ .market) :
    (g.generateRequest draw).1.Walks config ∧ 0 < (g.generateRequest draw).2.price.toInt ∧
      config.tickSize.toInt ∣ (g.generateRequest draw).2.price.toInt := by
  have htick := h.tickSize
  have hstep := hroom.step h
  have hpos := h.minPrice_pos.1
  obtain ⟨hdlow, hdhigh⟩ := hdraw.priceChange
  obtain ⟨hticks, htlow, hthigh⟩ := toInt_ticks h hdraw
  have hmultiples := h.multiples
  have hclow := hw.low
  have hchigh := hw.high
  obtain ⟨hcurrent, hprice⟩ := generatePrice_spec h hw draw.priceChange
    (by omega) (by omega)
  obtain ⟨hzlow, hzhigh⟩ := h.clamp_bounds (g.currentPrice.toInt + draw.priceChange.toInt)
  obtain ⟨hround, hfive, htop⟩ := hroom.roundToTick h hzlow hzhigh
  have hroomAbove := hroom.2
  rw [Int.add_mul] at hroomAbove
  obtain ⟨hnext, hrequest⟩ := @generateRequest_of_priced g draw htype
  rw [hround] at hprice
  refine ⟨⟨config_generateRequest.trans hw.config_eq, ?_, ?_⟩, ?_⟩
  · rw [hnext, hcurrent]
    exact hzlow
  · rw [hnext, hcurrent]
    exact hzhigh
  rw [hrequest, hw.config_eq]
  split
  · rw [Price.toInt_sub, hprice, hticks]
    · exact ⟨by omega, Int.dvd_sub (Int.dvd_mul_left _ _) (Int.dvd_mul_left _ _)⟩
    · rw [hprice, hticks]
      omega
    · rw [hprice, hticks]
      omega
  · rw [Price.toInt_add, hprice, hticks]
    · exact ⟨by omega, Int.dvd_add (Int.dvd_mul_left _ _) (Int.dvd_mul_left _ _)⟩
    · rw [hprice, hticks]
      omega
    · rw [hprice, hticks]
      omega

/-- A MARKET order makes no step of the walk. -/
theorem currentPrice_of_market (htype : draw.orderType = .market) :
    (g.generateRequest draw).1.currentPrice = g.currentPrice := by
  simp only [generateRequest, if_pos htype]

/-- Counting an order does not move the walk. -/
theorem walks_generateOrder (hw : (g.generateRequest draw).1.Walks config) :
    (g.generateOrder draw).1.Walks config := by
  simp only [generateOrder]
  split
  · exact ⟨hw.config_eq, hw.low, hw.high⟩
  · exact hw

/-- **A call of `generateOrder`** of a configuration that leaves room. -/
theorem generateOrder_of_leavesRoom (h : config.Sensible) (hroom : config.LeavesRoom)
    (hw : g.Walks config) (hdraw : draw.Allowed config) :
    (g.generateOrder draw).1.Walks config ∧ config.ValidOrder (g.generateOrder draw).2 := by
  by_cases htype : draw.orderType = .market
  · refine ⟨walks_generateOrder ⟨config_generateRequest.trans hw.config_eq, ?_, ?_⟩, ?_, ?_⟩
    · rw [currentPrice_of_market htype]
      exact hw.low
    · rw [currentPrice_of_market htype]
      exact hw.high
    · rw [accepted_iff h hdraw, htype]
      intro hlimit
      cases hlimit
    · rintro request hbody hne
      obtain rfl := InboundBody.newOrder.inj hbody
      exact absurd (congrArg OrderType.toUInt8 htype) hne
  · obtain ⟨hwalks, hpositive, hmultiple⟩ :=
      generateRequest_of_leavesRoom h hroom hw hdraw htype
    refine ⟨walks_generateOrder hwalks, (accepted_iff h hdraw).mpr fun _ => hpositive, ?_⟩
    rintro request hbody -
    obtain rfl := InboundBody.newOrder.inj hbody
    exact ⟨hpositive, hmultiple⟩

/-- **Any number of calls**, by induction on the draws. -/
theorem generateOrders_of_leavesRoom (h : config.Sensible) (hroom : config.LeavesRoom)
    (hw : g.Walks config) {draws : List OrderDraw}
    (hdraws : ∀ draw ∈ draws, draw.Allowed config) :
    (g.generateOrders draws).1.Walks config ∧
      ∀ msg ∈ (g.generateOrders draws).2, config.ValidOrder msg := by
  induction draws generalizing g with
  | nil => exact ⟨hw, List.forall_mem_nil _⟩
  | cons draw draws ih =>
      obtain ⟨hdraw, hdraws⟩ := List.forall_mem_cons.mp hdraws
      obtain ⟨hwalks, hvalid⟩ := generateOrder_of_leavesRoom h hroom hw hdraw
      obtain ⟨hrest, hmsgs⟩ := ih hwalks hdraws
      exact ⟨hrest, List.forall_mem_cons.mpr ⟨hvalid, hmsgs⟩⟩

/-- The walk starts at the base price. -/
theorem walks_start (h : config.Sensible) (g : DummyGenerator) :
    (g.setConfig config).start.Walks config := by
  obtain ⟨hnonneg, -⟩ := h.priceRange
  refine ⟨rfl, ?_, ?_⟩
  · simp only [start, setConfig, DummyGeneratorConfig.minPrice]
    omega
  · simp only [start, setConfig, DummyGeneratorConfig.maxPrice]
    omega

/-! ### Configurations that do not -/

/-- An IOC order to sell at the current price, after a step of the walk. -/
def walkDraw (config : DummyGeneratorConfig) (priceChange : Price) : OrderDraw where
  side := .sell
  orderType := .ioc
  quantity := config.minQuantity
  priceChange
  ticks := 0

/-- A LIMIT order four ticks away from the current price, without a step of the walk. -/
def farDraw (config : DummyGeneratorConfig) (side : BuySell) : OrderDraw where
  side
  orderType := .limit
  quantity := config.minQuantity
  priceChange := 0
  ticks := 4

theorem allowed_walkDraw (h : config.Sensible) {priceChange : Price}
    (hone : -1 ≤ priceChange.toInt ∧ priceChange.toInt ≤ 1) :
    (walkDraw config priceChange).Allowed config := by
  have htick := h.tickSize
  have hzero : (walkDraw config priceChange).ticks.toInt = 0 := rfl
  refine ⟨Or.inr rfl, Or.inr (Or.inr rfl), ⟨UInt32.le_refl _, h.quantity.2⟩, ?_, by omega⟩
  simp only [walkDraw]
  omega

theorem allowed_farDraw (h : config.Sensible) {side : BuySell}
    (hside : side = .buy ∨ side = .sell) : (farDraw config side).Allowed config := by
  have htick := h.tickSize
  have hzero : (farDraw config side).priceChange.toInt = 0 := rfl
  have hfour : (farDraw config side).ticks.toInt = 4 := rfl
  exact ⟨hside, Or.inl rfl, ⟨UInt32.le_refl _, h.quantity.2⟩, by omega, by omega⟩

/-- A step by one that stays inside the range. -/
theorem generateOrder_walkDraw (h : config.Sensible) (hw : g.Walks config) (priceChange : Price)
    (hlow : config.minPrice ≤ g.currentPrice.toInt + priceChange.toInt)
    (hhigh : g.currentPrice.toInt + priceChange.toInt ≤ config.maxPrice) :
    (g.generateOrder (walkDraw config priceChange)).1.Walks config ∧
      (g.generateOrder (walkDraw config priceChange)).1.currentPrice.toInt =
        g.currentPrice.toInt + priceChange.toInt := by
  have hpos := h.minPrice_pos.1
  have hbound := h.representable
  have hcurrent := (generatePrice_spec h hw priceChange (by omega) (by omega)).1
  have hclamp : config.clamp (g.currentPrice.toInt + priceChange.toInt) =
      g.currentPrice.toInt + priceChange.toInt := by
    rw [DummyGeneratorConfig.clamp]
    omega
  have hprice : (g.generateOrder (walkDraw config priceChange)).1.currentPrice.toInt =
      g.currentPrice.toInt + priceChange.toInt := by
    rw [← hclamp, ← hcurrent]
    rfl
  have hconfig : (g.generateOrder (walkDraw config priceChange)).1.config = config :=
    (@config_generateRequest g (walkDraw config priceChange)).trans hw.config_eq
  refine ⟨⟨hconfig, ?_, ?_⟩, hprice⟩
  · rw [hprice]
    exact hlow
  · rw [hprice]
    exact hhigh

/-- **The walk reaches every price of the range**, by induction on the distance. -/
theorem exists_draws_to (h : config.Sensible) (hw : g.Walks config) {z : ℤ}
    (hlow : config.minPrice ≤ z) (hhigh : z ≤ config.maxPrice) :
    ∃ draws, (∀ draw ∈ draws, draw.Allowed config) ∧ (g.generateOrders draws).1.Walks config ∧
      (g.generateOrders draws).1.currentPrice.toInt = z := by
  induction hn : (z - g.currentPrice.toInt).natAbs generalizing g with
  | zero => exact ⟨[], List.forall_mem_nil _, hw, by simp only [generateOrders]; omega⟩
  | succ n ih =>
      obtain ⟨priceChange, hone, hnear⟩ : ∃ priceChange : Price,
          (-1 ≤ priceChange.toInt ∧ priceChange.toInt ≤ 1) ∧
          (z - (g.currentPrice.toInt + priceChange.toInt)).natAbs = n := by
        have hup : (1 : Price).toInt = 1 := rfl
        have hdown : (-1 : Price).toInt = -1 := rfl
        by_cases hbelow : z < g.currentPrice.toInt
        · exact ⟨-1, by omega, by omega⟩
        · exact ⟨1, by omega, by omega⟩
      have hclow := hw.low
      have hchigh := hw.high
      obtain ⟨hwalks, hcurrent⟩ := generateOrder_walkDraw h hw priceChange
        (by omega) (by omega)
      obtain ⟨draws, hdraws, hreached, hprice⟩ := ih hwalks (by rw [hcurrent]; exact hnear)
      exact ⟨walkDraw config priceChange :: draws,
        List.forall_mem_cons.mpr ⟨allowed_walkDraw h hone, hdraws⟩, hreached, hprice⟩

theorem generateOrders_concat (draws : List OrderDraw) (draw : OrderDraw) :
    ((g.generateOrders draws).1.generateOrder draw).2 ∈ (g.generateOrders (draws ++ [draw])).2 := by
  induction draws generalizing g with
  | nil => exact List.mem_singleton.mpr rfl
  | cons first draws ih => exact List.mem_cons_of_mem _ ih

/-- The order that is farthest from a price of the range. -/
theorem price_farDraw (h : config.Sensible) (hw : g.Walks config) (side : BuySell) :
    (g.generateRequest (farDraw config side)).2.price =
        (if side = .buy then (g.generatePrice 0).2 - 4 * config.tickSize
        else (g.generatePrice 0).2 + 4 * config.tickSize) ∧
      (g.generatePrice 0).2.toInt = config.roundToTick g.currentPrice.toInt ∧
      (4 * config.tickSize).toInt = 4 * config.tickSize.toInt := by
  have hpos := h.minPrice_pos.1
  have hbound := h.representable
  have hclow := hw.low
  have hchigh := hw.high
  have htick := h.tickSize
  have hmultiples := h.multiples
  have hzero : (0 : Price).toInt = 0 := rfl
  have hfour : (4 : Price).toInt = 4 := rfl
  have hrequest := (@generateRequest_of_priced g (farDraw config side) (by simp [farDraw])).2
  have hround := (generatePrice_spec h hw 0 (by omega) (by omega)).2
  have hclamp : config.clamp (g.currentPrice.toInt + (0 : Price).toInt) =
      g.currentPrice.toInt := by
    rw [DummyGeneratorConfig.clamp]
    omega
  rw [hclamp] at hround
  rw [hw.config_eq] at hrequest
  refine ⟨hrequest, hround, ?_⟩
  rw [Price.toInt_mul, hfour]
  · rw [hfour]
    omega
  · rw [hfour]
    omega

end DummyGenerator

/-- The farthest order from every price of the range is valid. -/
theorem DummyGeneratorConfig.OrdersValid.farDraw {config : DummyGeneratorConfig}
    (h : config.Sensible) (hvalid : config.OrdersValid) {z : ℤ} (hlow : config.minPrice ≤ z)
    (hhigh : z ≤ config.maxPrice) {side : BuySell} (hside : side = .buy ∨ side = .sell) :
    ∃ g : DummyGenerator, g.Walks config ∧ g.currentPrice.toInt = z ∧
      0 < (g.generateRequest (DummyGenerator.farDraw config side)).2.price.toInt := by
  obtain ⟨draws, hdraws, hwalks, hcurrent⟩ := DummyGenerator.exists_draws_to h
    (DummyGenerator.walks_start h ⟨config, 0, 0, 0⟩) hlow hhigh
  refine ⟨_, hwalks, hcurrent, ?_⟩
  have hall : ∀ draw ∈ draws ++ [DummyGenerator.farDraw config side], draw.Allowed config :=
    List.forall_mem_append.mpr ⟨hdraws, List.forall_mem_singleton.mpr
      (DummyGenerator.allowed_farDraw h hside)⟩
  have hlast := (hvalid ⟨config, 0, 0, 0⟩ _ hall).2 _
    (DummyGenerator.generateOrders_concat draws (DummyGenerator.farDraw config side))
  exact (DummyGenerator.accepted_iff h (DummyGenerator.allowed_farDraw h hside)).mp
    hlast.accepted rfl

/-- An order to buy four ticks below the lowest price needs the room below it. -/
theorem DummyGeneratorConfig.OrdersValid.room_below {config : DummyGeneratorConfig}
    (h : config.Sensible) (hvalid : config.OrdersValid) :
    5 * config.tickSize.toInt ≤ config.minPrice := by
  have htick : 0 < config.tickSize.toInt := h.tickSize
  have hbound := h.representable
  have hmultiples := h.multiples
  obtain ⟨g, hwalks, hcurrent, hpositive⟩ := hvalid.farDraw h (Int.le_refl _) h.minPrice_pos.2
    (Or.inl rfl)
  obtain ⟨hrequest, hround, hfour⟩ := DummyGenerator.price_farDraw h hwalks .buy
  rw [hcurrent, roundToTick] at hround
  have hdown := Int.ediv_mul_le config.minPrice (Int.ne_of_gt htick)
  have hrange := h.minPrice_pos
  rw [hrequest, if_pos rfl, Price.toInt_sub (by omega) (by omega), hround, hfour] at hpositive
  have hquotient : 4 < config.minPrice / config.tickSize.toInt := by
    by_contra hsmall
    have := Int.mul_le_mul_of_nonneg_right (Int.not_lt.mp hsmall) (Int.le_of_lt htick)
    omega
  exact (Int.le_ediv_iff_mul_le htick).mp hquotient

/-- An order to sell four ticks above the highest price needs the room above it. -/
theorem DummyGeneratorConfig.OrdersValid.room_above {config : DummyGeneratorConfig}
    (h : config.Sensible) (hvalid : config.OrdersValid) :
    (config.maxPrice / config.tickSize.toInt + 4) * config.tickSize.toInt < 2 ^ 31 := by
  obtain ⟨g, hwalks, hcurrent, hpositive⟩ := hvalid.farDraw h h.minPrice_pos.2 (Int.le_refl _)
    (Or.inr rfl)
  obtain ⟨hrequest, hround, hfour⟩ := DummyGenerator.price_farDraw h hwalks .sell
  rw [hcurrent, roundToTick] at hround
  rw [hrequest, if_neg (by decide)] at hpositive
  rw [Int.add_mul]
  by_contra hlarge
  have hwraps := Price.toInt_add_neg
    (p := (g.generatePrice 0).2) (q := 4 * config.tickSize) (by omega)
  omega

/-- **Which configurations generate valid orders**: those whose range leaves room for the side. In
every run of such a configuration the walk stays within the range, every LIMIT or IOC price is a
positive multiple of the tick, and every order passes the checks of the engine. Without that room,
a run of the walk to the end of the range and one order from there is a run that does not. -/
theorem orders_valid_iff (config : DummyGeneratorConfig) (h : config.Sensible) :
    config.OrdersValid ↔ config.LeavesRoom := by
  constructor
  · intro hvalid
    exact ⟨hvalid.room_below h, hvalid.room_above h⟩
  · rintro hroom g draws hdraws
    obtain ⟨hwalks, hmsgs⟩ := DummyGenerator.generateOrders_of_leavesRoom h hroom
      (DummyGenerator.walks_start h g) hdraws
    exact ⟨⟨hwalks.low, hwalks.high⟩, hmsgs⟩

/-- The defaults of the source leave room. -/
theorem ordersValid_default : DummyGeneratorConfig.OrdersValid {} :=
  (orders_valid_iff {} ⟨by decide, by decide, by decide, by decide, by decide⟩).mpr
    ⟨by decide, by decide⟩

/-- A base price of four ticks, and no range around it. -/
def lowPriceConfig : DummyGeneratorConfig := { basePrice := 4, priceRange := 0 }

/-- **An order of a low price is rejected**: an order to buy at four ticks below the base price has
price zero, which no LIMIT order may have. -/
theorem not_ordersValid_lowPriceConfig :
    lowPriceConfig.Sensible ∧ ¬ lowPriceConfig.OrdersValid := by
  refine ⟨⟨by decide, by decide, by decide, by decide, by decide⟩, ?_⟩
  intro hvalid
  have hallowed : (DummyGenerator.farDraw lowPriceConfig .buy).Allowed lowPriceConfig :=
    ⟨by decide, by decide, by decide, by decide, by decide⟩
  have haccepted := ((hvalid ⟨lowPriceConfig, 0, 0, 0⟩ [DummyGenerator.farDraw lowPriceConfig .buy]
    (List.forall_mem_singleton.mpr hallowed)).2 _ (List.mem_singleton.mpr rfl)).accepted
  revert haccepted
  decide

end ExchangeEngine
