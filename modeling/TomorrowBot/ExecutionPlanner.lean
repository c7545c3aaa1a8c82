import TomorrowBot.OrderTypes

/-!
# The execution planner

A trade intent, the decision of the risk engine and the advice on execution
become a plan: what to do, in which style, as which order, at which price.
The texts that explain a plan are left out.
-/

set_option autoImplicit false

namespace TB.ExecutionPlanner
open TB.CommonTypes

inductive SignalIntent where
  | longEntry
  | longExit
  | shortEntry
  | shortExit
  | reducePosition
  | hold
  deriving DecidableEq, Repr

inductive ExitReason where
  | none
  | takeProfit
  | stopLoss
  | trailingStop
  | trendFailure
  | rangeTopExit
  | volatilitySpikeExit
  | inventoryRiskExit
  | signalDecay
  | regimeChange
  | partialReduction
  | setupInvalidation
  | trapDetected
  | momentumExhaustion
  | orderBookDeterioration
  | emergencyExit
  deriving DecidableEq, Repr

inductive RiskVerdict where
  | approved
  | denied
  | reduceSize
  | throttled
  deriving DecidableEq, Repr

inductive ExecutionStyle where
  | passive
  | aggressive
  | hybrid
  | postOnly
  | noExecution
  deriving DecidableEq, Repr

inductive ExecutionAction where
  | noAction
  | openPosition
  | reducePosition
  | closePosition
  | emergencyFlattenSymbol
  | emergencyFlattenAll
  deriving DecidableEq, Repr

inductive PlannedExecutionStyle where
  | aggressiveMarket
  | passiveLimit
  | postOnlyLimit
  | smartFallback
  | cancelIfNotFilled
  | reduceOnly
  deriving DecidableEq, Repr

structure ExecutionConfig (F : Type) where
  entryTimeoutMs : ℤ
  exitTimeoutMs : ℤ
  cancelConfirmationTimeoutMs : ℤ
  enableMarketFallback : Bool
  dedupWindowMs : ℤ
  minNotionalUsdt : F
  spreadBpsPassiveThreshold : F
  spreadBpsAggressiveThreshold : F
  urgencyAggressiveThreshold : F
  urgencyPassiveThreshold : F
  limitPriceImprovementBps : F
  limitFallbackToMarketMs : ℤ

structure TradeIntent (F : Type) where
  strategyId : StrategyId
  symbol : Symbol
  side : Side
  positionSide : PositionSide
  tradeSide : TradeSide
  signalIntent : SignalIntent
  exitReason : ExitReason
  correlationId : CorrelationId
  limitPrice : Option F
  snapshotMidPrice : Option F
  takeProfitPrice : Option F
  stopLossPrice : Option F

structure RiskDecision (F : Type) where
  verdict : RiskVerdict
  approvedQuantity : F

structure ExecutionAlphaResult (F : Type) where
  shouldExecute : Bool
  recommendedStyle : ExecutionStyle
  urgencyScore : F
  recommendedLimitPrice : Option F
  spreadCostBps : F

structure MarketExecutionContext (F : Type) where
  bestBid : F
  bestAsk : F
  spreadBps : F
  isStale : Bool

structure ExecutionPlan (F : Type) where
  action : ExecutionAction
  style : PlannedExecutionStyle
  orderType : CommonTypes.OrderType
  tif : TimeInForce
  plannedPrice : F
  plannedQuantity : F
  reduceOnly : Bool
  timeoutMs : ℤ
  enableFallback : Bool
  fallbackAfterMs : ℤ

variable {F : Type} [DoubleArith F]

def defaultConfig : ExecutionConfig F where
  entryTimeoutMs := 5000
  exitTimeoutMs := 5000
  cancelConfirmationTimeoutMs := 5000
  enableMarketFallback := true
  dedupWindowMs := 60000
  minNotionalUsdt := 5.0
  spreadBpsPassiveThreshold := 15.0
  spreadBpsAggressiveThreshold := 30.0
  urgencyAggressiveThreshold := 0.8
  urgencyPassiveThreshold := 0.5
  limitPriceImprovementBps := 2.0
  limitFallbackToMarketMs := 3000

def classifyAction (intent : TradeIntent F) : ExecutionAction :=
  if intent.exitReason = .emergencyExit then .emergencyFlattenSymbol
  else
    match intent.signalIntent with
    | .longEntry | .shortEntry => .openPosition
    | .longExit | .shortExit => .closePosition
    | .reducePosition => .reducePosition
    | .hold => .noAction

def isExit : ExecutionAction → Bool
  | .closePosition | .reducePosition | .emergencyFlattenSymbol | .emergencyFlattenAll => true
  | .noAction | .openPosition => false

def fallbackStyle (config : ExecutionConfig F) (urgency spread : F) : PlannedExecutionStyle :=
  if config.urgencyAggressiveThreshold ≤ urgency then .aggressiveMarket
  else if spread < config.spreadBpsPassiveThreshold ∧ urgency < config.urgencyPassiveThreshold
    then .postOnlyLimit
  else if config.enableMarketFallback then .smartFallback
  else .postOnlyLimit

def chooseStyle (config : ExecutionConfig F) (alpha : ExecutionAlphaResult F)
    (market : MarketExecutionContext F) (action : ExecutionAction) : PlannedExecutionStyle :=
  if isExit action then .reduceOnly
  else
    match alpha.recommendedStyle with
    | .aggressive => .aggressiveMarket
    | .postOnly => .postOnlyLimit
    | .noExecution => .aggressiveMarket
    | .passive | .hybrid => fallbackStyle config alpha.urgencyScore market.spreadBps

def styleToOrderType : PlannedExecutionStyle → CommonTypes.OrderType
  | .aggressiveMarket => .market
  | .passiveLimit | .smartFallback | .cancelIfNotFilled => .limit
  | .reduceOnly => .market
  | .postOnlyLimit => .postOnly

def styleToTif : PlannedExecutionStyle → TimeInForce
  | .aggressiveMarket | .reduceOnly => .immediateOrCancel
  | .passiveLimit | .smartFallback => .goodTillCancel
  | .postOnlyLimit => .goodTillCancel
  | .cancelIfNotFilled => .immediateOrCancel

def hasQuotes (market : MarketExecutionContext F) : Prop :=
  0 < market.bestBid ∧ 0 < market.bestAsk

instance (market : MarketExecutionContext F) : Decidable (hasQuotes market) :=
  inferInstanceAs (Decidable (_ ∧ _))

def computeMarketPrice (intent : TradeIntent F) (alpha : ExecutionAlphaResult F)
    (market : MarketExecutionContext F) : F :=
  match alpha.recommendedLimitPrice, intent.snapshotMidPrice with
  | some price, _ => price
  | none, some mid => mid
  | none, none => if hasQuotes market then (market.bestBid + market.bestAsk) / 2.0 else 0

def computeLimitPrice (config : ExecutionConfig F) (intent : TradeIntent F)
    (alpha : ExecutionAlphaResult F) (market : MarketExecutionContext F) : F :=
  match alpha.recommendedLimitPrice, intent.limitPrice with
  | some price, _ => price
  | none, some price => price
  | none, none =>
    if hasQuotes market then
      let mid := (market.bestBid + market.bestAsk) / 2.0
      let improvement := mid * config.limitPriceImprovementBps / 10000.0
      match intent.side with
      | .buy => mid - improvement
      | .sell => mid + improvement
    else intent.snapshotMidPrice.getD 0

def computeTimeout (config : ExecutionConfig F) (action : ExecutionAction) : ℤ :=
  if isExit action then config.exitTimeoutMs else config.entryTimeoutMs

def shouldReduceOnly (intent : TradeIntent F) (action : ExecutionAction) : Bool :=
  isExit action || intent.tradeSide == .closing

def basePlan (config : ExecutionConfig F) (intent : TradeIntent F) (risk : RiskDecision F)
    (alpha : ExecutionAlphaResult F) (market : MarketExecutionContext F) : ExecutionPlan F :=
  let action := classifyAction intent
  let chosen := chooseStyle config alpha market action
  let limitPrice := computeLimitPrice config intent alpha market
  let unpriced := styleToOrderType chosen ≠ .market ∧ limitPrice ≤ 0
  let style := if unpriced then .aggressiveMarket else chosen
  { action := action
    style := style
    orderType := if unpriced then .market else styleToOrderType chosen
    tif := if unpriced then .immediateOrCancel else styleToTif chosen
    plannedPrice := if styleToOrderType chosen = .market
      then computeMarketPrice intent alpha market else limitPrice
    plannedQuantity := risk.approvedQuantity
    reduceOnly := shouldReduceOnly intent action
    timeoutMs := computeTimeout config action
    enableFallback := decide (style = .smartFallback)
    fallbackAfterMs := if style = .smartFallback then config.limitFallbackToMarketMs else 5000 }

def cancelInWideSpread (config : ExecutionConfig F) (market : MarketExecutionContext F)
    (plan : ExecutionPlan F) : ExecutionPlan F :=
  if config.spreadBpsAggressiveThreshold < market.spreadBps ∧ plan.action = .openPosition ∧
      plan.style ≠ .aggressiveMarket then
    { plan with
      style := .cancelIfNotFilled
      orderType := styleToOrderType .cancelIfNotFilled
      tif := styleToTif .cancelIfNotFilled
      timeoutMs := min plan.timeoutMs 5000 }
  else plan

def marketWhenStale (market : MarketExecutionContext F) (plan : ExecutionPlan F) :
    ExecutionPlan F :=
  if market.isStale then
    { plan with style := .aggressiveMarket, orderType := .market, tif := .immediateOrCancel }
  else plan

def plan (config : ExecutionConfig F) (intent : TradeIntent F) (risk : RiskDecision F)
    (alpha : ExecutionAlphaResult F) (market : MarketExecutionContext F) : ExecutionPlan F :=
  marketWhenStale market
    (cancelInWideSpread config market (basePlan config intent risk alpha market))

end TB.ExecutionPlanner
