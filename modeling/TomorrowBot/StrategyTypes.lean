import TomorrowBot.TradingContext

/-!
# Data of the strategy engine

The states of a symbol, its setups, its position and the context of one
evaluation. The texts that explain a decision are left out.
-/

set_option autoImplicit false

namespace TB.StrategyTypes
open TB.CommonTypes TB.TradingContext TB.ExecutionPlanner

inductive RegimeLabel where
  | trending
  | ranging
  | volatile
  | unclear
  deriving DecidableEq, Repr

inductive WorldStateLabel where
  | stable
  | transitioning
  | disrupted
  | unknown
  deriving DecidableEq, Repr

inductive SymbolState where
  | idle
  | candidate
  | setupForming
  | setupPendingConfirmation
  | entryReady
  | entrySent
  | positionOpen
  | positionManaging
  | exitPending
  | cooldown
  | blocked
  deriving DecidableEq, Repr

inductive SetupType where
  | momentumContinuation
  | retest
  | pullbackInMicrotrend
  | rejection
  deriving DecidableEq, Repr

inductive StrategySignalType where
  | skip
  | setupCreated
  | setupCancelled
  | enterLong
  | enterShort
  | hold
  | reduce
  | exitPartial
  | exitFull
  | emergencyExit
  deriving DecidableEq, Repr

inductive MarketContextQuality where
  | excellent
  | good
  | marginal
  | poor
  | invalid
  deriving DecidableEq, Repr

structure ScalpStrategyConfig (F : Type) where
  minSetupConfidence : F
  maxSpreadBpsForEntry : F
  minLiquidityRatio : F
  setupConfirmationWindowMs : ℤ
  setupTimeoutMs : ℤ
  cooldownAfterExitMs : ℤ
  cooldownAfterFailedSetupMs : ℤ
  enableMomentumContinuation : Bool
  enableRetestScenarios : Bool
  enablePullbackScenarios : Bool
  enableRejectionScenarios : Bool
  blockCounterTrend : Bool
  imbalanceThreshold : F
  buySellRatioBuy : F
  buySellRatioSell : F
  adxMin : F
  rsiUpperGuard : F
  rsiLowerGuard : F
  bbMaxBuy : F
  bbMinSell : F
  momentumMinBuy : F
  momentumMaxSell : F
  pullbackRsiBuyMax : F
  pullbackRsiSellMin : F
  baseConviction : F
  maxConviction : F
  trendBonus : F
  setupConfirmationBonus : F
  limitPriceSpreadFrac : F
  retestLevelTolerancePct : F
  rejectionBbExtreme : F
  rejectionMinReversalMomentum : F
  atrStopMultMomentum : F
  atrTargetMultMomentum : F
  atrStopMultRetest : F
  atrTargetMultRetest : F
  atrStopMultPullback : F
  atrTargetMultPullback : F
  atrStopMultRejection : F
  atrTargetMultRejection : F
  fallbackAtrFraction : F
  pnlThresholdBps : F
  cooldownAfterRejectionMs : ℤ
  maxSignalAgeNs : ℤ
  entrySentTimeoutMs : ℤ
  defaultIntentUrgency : F
  adaptiveBaselineVol : F
  imbalanceStrengthDivisor : F
  imbStrengthWeight : F
  bayesianConfidenceWeight : F
  bayesianMinConfidence : F
  pocCloseDistance : F
  pocFarDistance : F
  pocCloseBonus : F
  pocFarPenalty : F
  adxSidewaysBoost : F

def defaultScalpConfig {F : Type} [DoubleArith F] : ScalpStrategyConfig F where
  minSetupConfidence := 0.65
  maxSpreadBpsForEntry := 15.0
  minLiquidityRatio := 0.3
  setupConfirmationWindowMs := 200
  setupTimeoutMs := 3000
  cooldownAfterExitMs := 90000
  cooldownAfterFailedSetupMs := 15000
  enableMomentumContinuation := true
  enableRetestScenarios := false
  enablePullbackScenarios := false
  enableRejectionScenarios := false
  blockCounterTrend := true
  imbalanceThreshold := 0.10
  buySellRatioBuy := 1.12
  buySellRatioSell := 0.88
  adxMin := 20.0
  rsiUpperGuard := 72.0
  rsiLowerGuard := 28.0
  bbMaxBuy := 1.10
  bbMinSell := -0.10
  momentumMinBuy := 0.0012
  momentumMaxSell := -0.0012
  pullbackRsiBuyMax := 45.0
  pullbackRsiSellMin := 55.0
  baseConviction := 0.50
  maxConviction := 0.95
  trendBonus := 0.15
  setupConfirmationBonus := 0.10
  limitPriceSpreadFrac := 0.25
  retestLevelTolerancePct := 0.002
  rejectionBbExtreme := 0.85
  rejectionMinReversalMomentum := 0.002
  atrStopMultMomentum := 1.0
  atrTargetMultMomentum := 1.8
  atrStopMultRetest := 1.2
  atrTargetMultRetest := 2.2
  atrStopMultPullback := 1.0
  atrTargetMultPullback := 1.8
  atrStopMultRejection := 1.2
  atrTargetMultRejection := 2.2
  fallbackAtrFraction := 0.005
  pnlThresholdBps := 1.0
  cooldownAfterRejectionMs := 30000
  maxSignalAgeNs := 2000000000
  entrySentTimeoutMs := 5000
  defaultIntentUrgency := 0.30
  adaptiveBaselineVol := 0.003
  imbalanceStrengthDivisor := 0.5
  imbStrengthWeight := 0.20
  bayesianConfidenceWeight := 0.25
  bayesianMinConfidence := 0.55
  pocCloseDistance := 0.3
  pocFarDistance := 0.8
  pocCloseBonus := 0.03
  pocFarPenalty := 0.02
  adxSidewaysBoost := 3.0

structure Setup (F : Type) where
  id : String
  type : SetupType
  side : Side
  confidence : F
  referencePrice : F
  stopReference : F
  tpReference : F
  entryReference : F
  detectedAtNs : ℤ
  confirmedAtNs : ℤ
  lastCheckNs : ℤ
  spreadBpsAtDetect : F
  imbalanceAtDetect : F
  atrAtDetect : F
  rsiAtDetect : F

structure StrategyPositionContext (F : Type) where
  hasPosition : Bool
  side : Side
  positionSide : PositionSide
  size : F
  avgEntryPrice : F
  unrealizedPnl : F
  unrealizedPnlPct : F
  entryTimeNs : ℤ
  holdDurationNs : ℤ
  entrySetupId : String
  entrySetupType : SetupType
  entryConfidence : F
  entryAtr : F
  peakPnlPct : F
  peakFavorablePrice : F

def noPositionContext {F : Type} [DoubleArith F] : StrategyPositionContext F where
  hasPosition := false
  side := .buy
  positionSide := .long
  size := 0.0
  avgEntryPrice := 0.0
  unrealizedPnl := 0.0
  unrealizedPnlPct := 0.0
  entryTimeNs := 0
  holdDurationNs := 0
  entrySetupId := ""
  entrySetupType := .momentumContinuation
  entryConfidence := 0.0
  entryAtr := 0.0
  peakPnlPct := 0.0
  peakFavorablePrice := 0.0

structure PositionManagementResult (F : Type) where
  action : StrategySignalType
  exitReason : ExitReason
  reduceFraction : F
  confidence : F

structure PositionInfo (F : Type) where
  hasPosition : Bool
  side : Side
  positionSide : PositionSide
  size : F
  avgEntryPrice : F
  unrealizedPnl : F
  entryTimeNs : ℤ

structure RiskSummary where
  dayLocked : Bool
  symbolLocked : Bool
  emergencyHalt : Bool

structure StrategyIntent (F : Type) extends TradeIntent F where
  suggestedQuantity : F
  conviction : F
  signalName : String
  generatedAt : ℤ
  entryScore : F
  urgency : F
  setupId : String
  setupType : SetupType
  stopReference : Option F
  signalType : StrategySignalType
  signalSnapshotTsNs : ℤ
  signalSnapshotMid : F
  signalSnapshotSpreadBps : F
  signalSnapshotDepthUsd : F

def emptyIntent {F : Type} [DoubleArith F] : StrategyIntent F where
  strategyId := ""
  symbol := ""
  side := .buy
  positionSide := .long
  tradeSide := .opening
  signalIntent := .longEntry
  exitReason := .none
  correlationId := ""
  limitPrice := none
  snapshotMidPrice := none
  takeProfitPrice := none
  stopLossPrice := none
  suggestedQuantity := 0.0
  conviction := 0.0
  signalName := ""
  generatedAt := 0
  entryScore := 0.0
  urgency := 0.0
  setupId := ""
  setupType := .momentumContinuation
  stopReference := none
  signalType := .skip
  signalSnapshotTsNs := 0
  signalSnapshotMid := 0.0
  signalSnapshotSpreadBps := 0.0
  signalSnapshotDepthUsd := 0.0

structure StrategyContext (F : Type) where
  features : FeatureSnapshot F
  regime : RegimeLabel
  worldState : WorldStateLabel
  uncertainty : UncertaintyLevel
  isStrategyEnabled : Bool
  futuresEnabled : Bool
  htfTrendDirection : ℤ
  htfTrendStrength : F
  position : PositionInfo F
  risk : RiskSummary
  dataFresh : Bool
  exchangeOk : Bool

def setupTypeName : SetupType → String
  | .momentumContinuation => "MomentumContinuation"
  | .retest => "Retest"
  | .pullbackInMicrotrend => "PullbackInMicrotrend"
  | .rejection => "Rejection"

def exitReasonName : ExitReason → String
  | .none => "None"
  | .takeProfit => "TakeProfit"
  | .stopLoss => "StopLoss"
  | .trailingStop => "TrailingStop"
  | .trendFailure => "TrendFailure"
  | .rangeTopExit => "RangeTopExit"
  | .volatilitySpikeExit => "VolatilitySpikeExit"
  | .inventoryRiskExit => "InventoryRiskExit"
  | .signalDecay => "SignalDecay"
  | .regimeChange => "RegimeChange"
  | .partialReduction => "PartialReduction"
  | .setupInvalidation => "SetupInvalidation"
  | .trapDetected => "TrapDetected"
  | .momentumExhaustion => "MomentumExhaustion"
  | .orderBookDeterioration => "OrderBookDeterioration"
  | .emergencyExit => "EmergencyExit"

end TB.StrategyTypes
