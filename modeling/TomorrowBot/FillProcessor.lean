import TomorrowBot.OrderRegistry
import TomorrowBot.PortfolioEngine

/-!
# The fill processor

Executions reach the portfolio through three doors: the confirmation of a
market order, the fill events of single trades, and the cumulative quantities
of order updates. The state carries the registry, the portfolio and the
clock. The last field has no counterpart in the source: it lists the
quantities handed to the portfolio, in order, for the statements about them.
-/

set_option autoImplicit false

namespace TB.FillProcessor
open TB.CommonTypes TB.PortfolioEngine TB.OrderTypes TB.Orders

structure ExecutionCore (F : Type) where
  registry : OrderRegistry F
  portfolio : Portfolio F
  clock : Clock
  passed : List (OrderId × F)

variable {F : Type} [DoubleArith F]

def setRegistry (c : ExecutionCore F) (r : OrderRegistry F) : ExecutionCore F :=
  { c with registry := r }

def feeRateFor : CommonTypes.OrderType → F
  | .postOnly => kDefaultMakerFeePct
  | .limit | .stopLimit | .market | .stopMarket => kDefaultTakerFeePct

def computePnlAt (p : Portfolio F) (order : OrderRecord F) (qty price : F) : F :=
  match getPositionSide p order.symbol order.positionSide with
  | none => 0
  | some existing =>
    match order.positionSide with
    | .long => (price - existing.avgEntryPrice) * qty
    | .short => (existing.avgEntryPrice - price) * qty

def computeIncrementalPnl (p : Portfolio F) (order : OrderRecord F) (fillQty fillPrice : F) : F :=
  computePnlAt p order fillQty fillPrice

def computeGrossPnl (p : Portfolio F) (order : OrderRecord F) : F :=
  computePnlAt p order order.filledQuantity order.avgFillPrice

def openingPosition (now : Timestamp) (order : OrderRecord F) (qty price : F) : Position F where
  symbol := order.symbol
  side := order.side
  positionSide := order.positionSide
  size := qty
  avgEntryPrice := price
  currentPrice := price
  notional := qty * price
  unrealizedPnl := 0
  unrealizedPnlPct := 0
  accumulatedFunding := 0
  strategyId := order.strategyId
  openedAt := now
  updatedAt := now

def applyToPortfolio (p : Portfolio F) (now : Timestamp) (order : OrderRecord F)
    (qty price pnl : F) : Portfolio F :=
  match order.tradeSide with
  | .closing =>
      recordFee (reducePositionSide p now order.symbol order.positionSide qty price pnl).1
        (price * qty * feeRateFor order.orderType)
  | .opening =>
      recordFee (releaseCash (openPosition p now (openingPosition now order qty price))
        order.orderId) (qty * price * feeRateFor order.orderType)

def applyFillToPortfolio (c : ExecutionCore F) (order : OrderRecord F) : ExecutionCore F :=
  { c with
    portfolio := applyToPortfolio c.portfolio c.clock.now order order.filledQuantity
      order.avgFillPrice (computeGrossPnl c.portfolio order)
    passed := c.passed ++ [(order.orderId, order.filledQuantity)] }

def applyIncrementalFill (c : ExecutionCore F) (order : OrderRecord F) (fill : FillEvent F) :
    ExecutionCore F :=
  if fill.fillPrice ≤ 0 then c
  else
    { c with
      portfolio := applyToPortfolio c.portfolio c.clock.now order fill.fillQuantity
        fill.fillPrice (computeIncrementalPnl c.portfolio order fill.fillQuantity fill.fillPrice)
      passed := c.passed ++ [(order.orderId, fill.fillQuantity)] }

def marketFilled (order : OrderRecord F) (now : Timestamp) (filledQty fillPrice : F)
    (exchangeOrderId : OrderId) : OrderRecord F :=
  { order with
    state := .filled
    exchangeOrderId := exchangeOrderId
    filledQuantity := filledQty
    remainingQuantity := 0
    avgFillPrice := fillPrice
    lastUpdated := now }

def processMarketFill (c : ExecutionCore F) (orderId : OrderId) (filledQty fillPrice : F)
    (exchangeOrderId : OrderId) : ExecutionCore F × Bool :=
  if isFillApplied c.registry orderId then (c, false)
  else if isfinite fillPrice = false ∨ fillPrice ≤ 0 then (c, false)
  else if isfinite filledQty = false ∨ filledQty ≤ 0 then (c, false)
  else
    match getOrder c.registry orderId with
    | none => (c, false)
    | some found =>
      match transition c.registry c.clock orderId .filled "Market order filled" with
      | (_, false) => (c, false)
      | (r, true) =>
        let order := marketFilled found c.clock.now filledQty fillPrice exchangeOrderId
        let applied := applyFillToPortfolio (setRegistry c (updateOrder r order)) order
        (setRegistry applied (markFillApplied applied.registry orderId), true)

def resolveOrder (r : OrderRegistry F) (orderId : OrderId) : Option (OrderId × OrderRecord F) :=
  match getOrder r orderId with
  | some order => some (orderId, order)
  | none => (getOrderByExchangeId r orderId).map (fun order => (order.orderId, order))

def isFullFill (order : OrderRecord F) (newFilled : F) : Prop :=
  order.originalQuantity * 0.999 ≤ newFilled

instance (order : OrderRecord F) (newFilled : F) : Decidable (isFullFill order newFilled) :=
  inferInstanceAs (Decidable (_ ≤ _))

def fillTarget (order : OrderRecord F) (newFilled : F) : OrderState :=
  if isFullFill order newFilled then .filled else .partiallyFilled

def fillRecord (order : OrderRecord F) (now : Timestamp) (fill : FillEvent F) : OrderRecord F :=
  let prevCost := order.filledQuantity * order.avgFillPrice
  let fillCost := fill.fillQuantity * fill.fillPrice
  let newFilled := order.filledQuantity + fill.fillQuantity
  let avg := if 0 < newFilled then (prevCost + fillCost) / newFilled else order.avgFillPrice
  let info := order.executionInfo
  let fills := info.fills ++ [fill]
  { order with
    filledQuantity := newFilled
    remainingQuantity := stdMax 0 (order.originalQuantity - newFilled)
    avgFillPrice := avg
    state := fillTarget order newFilled
    lastUpdated := now
    executionInfo := { info with
      fills := fills
      firstFillLatencyMs :=
        if fills.length = 1 ∧ 0 < order.createdAt then
          (fill.occurredAt - order.createdAt).tdiv 1000000
        else info.firstFillLatencyMs
      realizedSlippage :=
        if 0 < info.expectedFillPrice then
          (avg - info.expectedFillPrice) / info.expectedFillPrice
        else info.realizedSlippage } }

/-- What an accepted trade does to the order it names. The answer of the
state machine is ignored. -/
def acceptFill (c : ExecutionCore F) (effectiveId : OrderId) (order : OrderRecord F)
    (fill : FillEvent F) : ExecutionCore F :=
  let updated := fillRecord order c.clock.now fill
  let reason := if isFullFill order updated.filledQuantity then "Full fill (fill event)"
    else "Partial fill (fill event)"
  let moved := (transition c.registry c.clock effectiveId updated.state reason).1
  let recorded := setRegistry c (updateOrder moved updated)
  let applied :=
    if 0 < fill.fillQuantity then applyIncrementalFill recorded updated fill else recorded
  setRegistry applied (markFillApplied applied.registry effectiveId)

def markTrade (c : ExecutionCore F) (fill : FillEvent F) : ExecutionCore F × Bool :=
  if fill.tradeId = "" then (c, false)
  else
    let marked := checkAndMarkTradeIdSeen c.registry fill.tradeId
    (setRegistry c marked.1, marked.2)

def processFillEvent (c : ExecutionCore F) (fill : FillEvent F) : ExecutionCore F × Bool :=
  match markTrade c fill with
  | (marked, true) => (marked, false)
  | (marked, false) =>
    match resolveOrder marked.registry fill.orderId with
    | none => (marked, false)
    | some (effectiveId, order) =>
      if isfinite fill.fillPrice = false ∨ fill.fillPrice ≤ 0 then (marked, false)
      else (acceptFill marked effectiveId order fill, true)

def reconciledRecord (order : OrderRecord F) (now : Timestamp) (alreadyApplied : Bool)
    (filledQty fillPrice : F) : OrderRecord F :=
  let reconciledFilled := stdMax order.filledQuantity filledQty
  { order with
    filledQuantity := reconciledFilled
    remainingQuantity := stdMax 0 (order.originalQuantity - reconciledFilled)
    avgFillPrice := if 0 < fillPrice ∧ alreadyApplied = false then fillPrice
      else order.avgFillPrice
    lastUpdated := now }

def processOrderFill (c : ExecutionCore F) (orderId : OrderId) (filledQty fillPrice : F) :
    ExecutionCore F × Bool :=
  match getOrder c.registry orderId with
  | none => (c, false)
  | some found =>
    let alreadyApplied := isFillApplied c.registry orderId
    let order := reconciledRecord found c.clock.now alreadyApplied filledQty fillPrice
    let recorded := setRegistry c (updateOrder c.registry order)
    if order.state = .filled ∧ alreadyApplied = false then
      (applyFillToPortfolio
        (setRegistry recorded (markFillApplied recorded.registry orderId)) order, true)
    else (recorded, true)

/-- The rest of a partially filled order has to be cancelled. The id returned
is the internal one. -/
def checkCancelRemaining (r : OrderRegistry F) (orderId : OrderId) : Option OrderId :=
  match getOrder r orderId with
  | none => none
  | some order =>
    if order.executionInfo.fillPolicy ≠ .cancelRemaining then none
    else if order.state ≠ .partiallyFilled then none
    else if order.remainingQuantity ≤ 0 then none
    else some order.orderId

end TB.FillProcessor
