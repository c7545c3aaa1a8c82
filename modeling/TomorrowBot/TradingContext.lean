import TomorrowBot.ExecutionPlanner
import TomorrowBot.PortfolioEngine
import TomorrowBot.OrderBook

/-!
# Snapshots that the decision chain reads

The features of a symbol, the assessed uncertainty, the portfolio and the
size proposed for an order. Each record holds the fields that the modelled
functions read.
-/

set_option autoImplicit false

namespace TB.TradingContext
open TB.CommonTypes TB.PortfolioEngine

structure TechnicalFeatures (F : Type) where
  ema20 : F
  ema50 : F
  emaValid : Bool
  rsi14 : F
  rsiValid : Bool
  bbMiddle : F
  bbPercentB : F
  bbValid : Bool
  atr14 : F
  atrValid : Bool
  adx : F
  adxValid : Bool
  volatility5 : F
  volatility20 : F
  volatilityValid : Bool
  momentum5 : F
  momentum20 : F
  momentumValid : Bool
  cusumRegimeChange : Bool
  cusumValid : Bool
  vpPriceVsPoc : F
  vpValid : Bool
  todAlphaScore : F
  todValid : Bool
  supertrendTrend : ℤ
  supertrendValid : Bool
  stochOverbought : Bool
  stochOversold : Bool
  stochBullCross : Bool
  stochBearCross : Bool
  stochValid : Bool
  emaPairTrend : ℤ
  emaPairValid : Bool
  avwapUpper2sigma : F
  avwapLower2sigma : F
  avwapPriceVsVwapBps : F
  avwapValid : Bool
  cvdNormalized : F
  cvdBullishDivergence : Bool
  cvdBearishDivergence : Bool
  cvdValid : Bool
  oiTrendQuadrant : ℤ
  oiValid : Bool
  liqSweepHigh : Bool
  liqSweepLow : Bool
  liqSweepValid : Bool
  liqCascadeRiskScore : F
  liqDominantSide : ℤ
  liqValid : Bool
  fundingCrowdingIntensity : F
  fundingRecommendedBias : ℤ
  fundingValid : Bool
  spoofIntensity : F
  spoofValid : Bool

structure MicrostructureFeatures (F : Type) where
  spread : F
  spreadBps : F
  spreadValid : Bool
  bookImbalance5 : F
  bookImbalanceValid : Bool
  weightedMidPrice : F
  midPrice : F
  buySellRatio : F
  aggressiveFlow : F
  tradeFlowValid : Bool
  bidDepth5Notional : F
  askDepth5Notional : F
  liquidityRatio : F
  liquidityValid : Bool
  bookInstability : F
  instabilityValid : Bool
  vpin : F
  vpinToxic : Bool
  vpinValid : Bool
  topOfBookChurn : F
  queueDepletionBid : F
  queueDepletionAsk : F
  eventFeaturesValid : Bool
  passiveFillRate : F
  executionFeedbackValid : Bool

structure ExecutionContextFeatures (F : Type) where
  estimatedSlippageBps : F
  isFeedFresh : Bool

structure FeatureSnapshot (F : Type) where
  symbol : Symbol
  marketDataAgeNs : ℤ
  midPrice : F
  technical : TechnicalFeatures F
  microstructure : MicrostructureFeatures F
  executionContext : ExecutionContextFeatures F
  bookQuality : OrderBook.BookQuality

section Defaults
variable {F : Type} [DoubleArith F]

def defaultTechnical : TechnicalFeatures F where
  ema20 := 0.0
  ema50 := 0.0
  emaValid := false
  rsi14 := 0.0
  rsiValid := false
  bbMiddle := 0.0
  bbPercentB := 0.0
  bbValid := false
  atr14 := 0.0
  atrValid := false
  adx := 0.0
  adxValid := false
  volatility5 := 0.0
  volatility20 := 0.0
  volatilityValid := false
  momentum5 := 0.0
  momentum20 := 0.0
  momentumValid := false
  cusumRegimeChange := false
  cusumValid := false
  vpPriceVsPoc := 0.0
  vpValid := false
  todAlphaScore := 0.0
  todValid := false
  supertrendTrend := 0
  supertrendValid := false
  stochOverbought := false
  stochOversold := false
  stochBullCross := false
  stochBearCross := false
  stochValid := false
  emaPairTrend := 0
  emaPairValid := false
  avwapUpper2sigma := 0.0
  avwapLower2sigma := 0.0
  avwapPriceVsVwapBps := 0.0
  avwapValid := false
  cvdNormalized := 0.0
  cvdBullishDivergence := false
  cvdBearishDivergence := false
  cvdValid := false
  oiTrendQuadrant := 0
  oiValid := false
  liqSweepHigh := false
  liqSweepLow := false
  liqSweepValid := false
  liqCascadeRiskScore := 0.0
  liqDominantSide := 0
  liqValid := false
  fundingCrowdingIntensity := 0.0
  fundingRecommendedBias := 0
  fundingValid := false
  spoofIntensity := 0.0
  spoofValid := false

def defaultMicrostructure : MicrostructureFeatures F where
  spread := 0.0
  spreadBps := 0.0
  spreadValid := false
  bookImbalance5 := 0.0
  bookImbalanceValid := false
  weightedMidPrice := 0.0
  midPrice := 0.0
  buySellRatio := 1.0
  aggressiveFlow := 0.5
  tradeFlowValid := false
  bidDepth5Notional := 0.0
  askDepth5Notional := 0.0
  liquidityRatio := 1.0
  liquidityValid := false
  bookInstability := 0.0
  instabilityValid := false
  vpin := 0.0
  vpinToxic := false
  vpinValid := false
  topOfBookChurn := 0.0
  queueDepletionBid := 0.0
  queueDepletionAsk := 0.0
  eventFeaturesValid := false
  passiveFillRate := 0.0
  executionFeedbackValid := false

def defaultFeatures (symbol : Symbol) : FeatureSnapshot F where
  symbol := symbol
  marketDataAgeNs := 0
  midPrice := 0.0
  technical := defaultTechnical
  microstructure := defaultMicrostructure
  executionContext := ⟨0.0, false⟩
  bookQuality := .uninitialized

end Defaults

inductive ExecutionModeRecommendation where
  | normal
  | conservative
  | defensiveOnly
  | haltNewEntries
  deriving DecidableEq, Repr

structure CooldownRecommendation where
  active : Bool
  triggerReason : String

structure UncertaintySnapshot (F : Type) where
  level : UncertaintyLevel
  sizeMultiplier : F
  executionMode : ExecutionModeRecommendation
  cooldown : CooldownRecommendation

structure ExposureSummary (F : Type) where
  grossExposure : F
  openPositionsCount : ℤ

structure PortfolioSnapshot (F : Type) where
  positions : List (Position F)
  exposure : ExposureSummary F
  pnl : PnlSummary F
  totalCapital : F

structure SizingResult (F : Type) where
  approvedQuantity : F
  approvedNotional : F

structure ExecutionQualityEstimate (F : Type) where
  estimatedSlippageBps : F

inductive DetailedRegime where
  | strongUptrend
  | weakUptrend
  | strongDowntrend
  | weakDowntrend
  | meanReversion
  | volatilityExpansion
  | lowVolCompression
  | liquidityStress
  | spreadInstability
  | anomalyEvent
  | toxicFlow
  | chop
  | undefined
  deriving DecidableEq, Repr

def kMinBitgetNotionalUsdt {F : Type} [DoubleArith F] : F := 5.5

end TB.TradingContext
