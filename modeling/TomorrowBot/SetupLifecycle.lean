import TomorrowBot.StrategyTypes

/-!
# Detection and validation of setups

Four detectors look for a setup in the features of a symbol. Each fuses the
advanced indicators into one probability. A setup that was found is validated
again until it is confirmed.
-/

set_option autoImplicit false

namespace TB.SetupLifecycle
open TB.CommonTypes TB.TradingContext TB.StrategyTypes

variable {F : Type} [DoubleArith F]

structure SignalLikelihood (F : Type) where
  lrBullish : F
  lrBearish : F

structure BayesianSignalScore (F : Type) where
  pBullish : F
  pBearish : F
  confidence : F

def updateOdds (odds : F) (s : SignalLikelihood F) : F :=
  if s.lrBullish ≤ 0.0 ∨ s.lrBearish ≤ 0.0 then odds
  else odds * stdClamp (s.lrBullish / s.lrBearish) 0.05 20.0

def combineSignalsBayesian (signals : List (SignalLikelihood F)) (priorBullish : F) :
    BayesianSignalScore F :=
  if signals.isEmpty then ⟨priorBullish, 1.0 - priorBullish, 0.0⟩
  else
    let prior := stdClamp priorBullish 0.01 0.99
    let odds := signals.foldl updateOdds (prior / stdMax (1.0 - prior) 1e-9)
    let pBullish := stdClamp (odds / (1.0 + odds)) 0.01 0.99
    let pBearish := 1.0 - pBullish
    ⟨pBullish, pBearish, stdClamp (1.0 - 2.0 * stdMin pBullish pBearish) 0.0 1.0⟩

def computeAdaptiveThresholds (realizedVol5 baselineVol : F) : F × F :=
  if baselineVol ≤ 0.0 then (70.0, 30.0)
  else
    let rsiOffset := 20.0 * (stdClamp (realizedVol5 / baselineVol) 0.5 2.0 - 1.0)
    (stdClamp (70.0 + rsiOffset) 65.0 85.0, stdClamp (30.0 - rsiOffset) 15.0 35.0)

def pushIf (c : Bool) (lrBullish lrBearish : F) : List (SignalLikelihood F) :=
  if c then [⟨lrBullish, lrBearish⟩] else []

def less (a b : F) : Bool := decide (a < b)

def trendSignals (valid : Bool) (trend : ℤ) (strong weak : F) : List (SignalLikelihood F) :=
  pushIf (valid && trend == 1) strong weak ++ pushIf (valid && trend == -1) weak strong

def indicatorSignals (tech : TechnicalFeatures F) (midPrice : F) : List (SignalLikelihood F) :=
  trendSignals tech.supertrendValid tech.supertrendTrend 2.0 0.5 ++
  trendSignals tech.emaPairValid tech.emaPairTrend 1.7 0.6 ++
  (if tech.stochValid then
    (if tech.stochOversold then [⟨1.5, 0.7⟩] else pushIf tech.stochOverbought 0.7 1.5) ++
    pushIf tech.stochBullCross 1.8 0.6 ++ pushIf tech.stochBearCross 0.6 1.8
  else []) ++
  (if tech.avwapValid then
    pushIf (less 0.0 tech.avwapPriceVsVwapBps) 1.4 0.7 ++
    pushIf (less tech.avwapPriceVsVwapBps 0.0) 0.7 1.4 ++
    (if tech.avwapUpper2sigma < midPrice then [⟨0.5, 1.8⟩]
    else pushIf (less midPrice tech.avwapLower2sigma) 1.8 0.5)
  else []) ++
  (if tech.cvdValid then
    pushIf (less 0.2 tech.cvdNormalized) 1.6 0.6 ++
    pushIf (less tech.cvdNormalized (-0.2)) 0.6 1.6 ++
    pushIf tech.cvdBullishDivergence 2.0 0.5 ++ pushIf tech.cvdBearishDivergence 0.5 2.0
  else []) ++
  (if tech.oiValid then
    pushIf (tech.oiTrendQuadrant == 1) 1.5 0.7 ++ pushIf (tech.oiTrendQuadrant == 2) 0.7 1.5 ++
    pushIf (tech.oiTrendQuadrant == 3) 0.9 1.2 ++ pushIf (tech.oiTrendQuadrant == 4) 1.2 0.9
  else []) ++
  (if tech.liqSweepValid then
    pushIf tech.liqSweepHigh 0.4 2.0 ++ pushIf tech.liqSweepLow 2.0 0.4
  else []) ++
  trendSignals (tech.fundingValid && less 0.5 tech.fundingCrowdingIntensity)
    tech.fundingRecommendedBias 1.4 0.7 ++
  pushIf (tech.spoofValid && less 0.7 tech.spoofIntensity) 0.85 0.85 ++
  (if tech.liqValid && less 0.7 tech.liqCascadeRiskScore then
    pushIf (tech.liqDominantSide == 1) 0.6 1.3 ++ pushIf (tech.liqDominantSide == -1) 1.3 0.6
  else [])

def runBayesianIndicatorFilter (tech : TechnicalFeatures F) (midPrice : F) :
    BayesianSignalScore F :=
  combineSignalsBayesian (indicatorSignals tech midPrice) 0.5

variable (cfg : ScalpStrategyConfig F) (ctx : StrategyContext F)

def againstTrend (buy sell : Bool) : Bool :=
  let tech := ctx.features.technical
  cfg.blockCounterTrend && tech.emaValid &&
    (buy && less tech.ema20 tech.ema50 || sell && less tech.ema50 tech.ema20)

def againstHtfTrend (buy sell : Bool) : Bool :=
  cfg.blockCounterTrend && isfinite ctx.htfTrendStrength && less 0.5 ctx.htfTrendStrength &&
    (buy && ctx.htfTrendDirection == -1 || sell && ctx.htfTrendDirection == 1)

def sidewaysAdxLow (boost : F) : Bool :=
  cfg.blockCounterTrend && ctx.htfTrendDirection == 0 &&
    less ctx.features.technical.adx (cfg.adxMin + boost)

def shortWithoutFutures (sell : Bool) : Bool :=
  sell && !ctx.futuresEnabled && !ctx.position.hasPosition

def unlikely (minConfidence : F) (buy sell : Bool) (bayes : BayesianSignalScore F) : Bool :=
  buy && less bayes.pBullish minConfidence || sell && less bayes.pBearish minConfidence

def trendAligned (buy : Bool) : Bool :=
  let tech := ctx.features.technical
  tech.emaValid && (if buy then less tech.ema50 tech.ema20 else less tech.ema20 tech.ema50)

def makeSetup (id : String) (type : SetupType) (buy : Bool) (confidence stopMult targetMult : F)
    (nowNs : ℤ) : Setup F :=
  let micro := ctx.features.microstructure
  let tech := ctx.features.technical
  let mid := micro.midPrice
  let atr := tech.atr14
  { id := id
    type := type
    side := if buy then .buy else .sell
    confidence := confidence
    referencePrice := mid
    stopReference := if buy then mid - atr * stopMult else mid + atr * stopMult
    tpReference := if buy then mid + atr * targetMult else mid - atr * targetMult
    entryReference := mid
    detectedAtNs := nowNs
    confirmedAtNs := 0
    lastCheckNs := nowNs
    spreadBpsAtDetect := micro.spreadBps
    imbalanceAtDetect := micro.bookImbalance5
    atrAtDetect := atr
    rsiAtDetect := if tech.rsiValid then tech.rsi14 else 50.0 }

def momentumBuy : Bool :=
  let micro := ctx.features.microstructure
  let strong := less cfg.imbalanceThreshold micro.bookImbalance5
  less cfg.momentumMinBuy ctx.features.technical.momentum5 &&
    (strong || less cfg.buySellRatioBuy micro.buySellRatio) &&
    (less 1.0 micro.buySellRatio || strong)

def momentumSell : Bool :=
  let micro := ctx.features.microstructure
  let strong := less micro.bookImbalance5 (-cfg.imbalanceThreshold)
  less ctx.features.technical.momentum5 cfg.momentumMaxSell &&
    (strong || less micro.buySellRatio cfg.buySellRatioSell) &&
    (less micro.buySellRatio 1.0 || strong)

def momentumConfidence (buy : Bool) (bayes : BayesianSignalScore F) : F :=
  let micro := ctx.features.microstructure
  let tech := ctx.features.technical
  let imbStrength := stdMin (stdAbs micro.bookImbalance5 / cfg.imbalanceStrengthDivisor) 1.0
  let spreadFactor := stdClamp (1.0 - micro.spreadBps / cfg.maxSpreadBpsForEntry) 0.0 1.0
  let confidence := cfg.baseConviction + imbStrength * spreadFactor * cfg.imbStrengthWeight +
    bayes.confidence * cfg.bayesianConfidenceWeight
  let confidence := if trendAligned ctx buy then confidence + cfg.trendBonus else confidence
  let pocDist := stdAbs tech.vpPriceVsPoc
  let confidence :=
    if tech.vpValid && less 0.0 micro.midPrice then
      if pocDist < cfg.pocCloseDistance then confidence + cfg.pocCloseBonus
      else if cfg.pocFarDistance < pocDist then confidence - cfg.pocFarPenalty
      else confidence
    else confidence
  stdMin confidence cfg.maxConviction

def detectMomentum (id : String) (nowNs : ℤ) : Option (Setup F) :=
  let micro := ctx.features.microstructure
  let tech := ctx.features.technical
  let buy := momentumBuy cfg ctx
  let sell := momentumSell cfg ctx
  let adapt := computeAdaptiveThresholds
    (if tech.volatilityValid then tech.volatility5 else cfg.adaptiveBaselineVol)
    cfg.adaptiveBaselineVol
  let bayes := runBayesianIndicatorFilter tech micro.midPrice
  if !tech.adxValid || less tech.adx cfg.adxMin || !tech.momentumValid then none
  else if !tech.atrValid || !isfinite tech.atr14 || decide (tech.atr14 ≤ 0.0) then none
  else if decide (micro.midPrice ≤ 0.0) || !isfinite micro.bookImbalance5 ||
      !isfinite micro.buySellRatio then none
  else if !buy && !sell then none
  else if tech.rsiValid && (buy && less adapt.1 tech.rsi14 || sell && less tech.rsi14 adapt.2)
    then none
  else if tech.bbValid &&
      (buy && less cfg.bbMaxBuy tech.bbPercentB || sell && less tech.bbPercentB cfg.bbMinSell)
    then none
  else if againstTrend cfg ctx buy sell || againstHtfTrend cfg ctx buy sell ||
      sidewaysAdxLow cfg ctx cfg.adxSidewaysBoost || shortWithoutFutures ctx sell then none
  else if unlikely cfg.bayesianMinConfidence buy sell bayes then none
  else some (makeSetup ctx id .momentumContinuation buy (momentumConfidence cfg ctx buy bayes)
    cfg.atrStopMultMomentum cfg.atrTargetMultMomentum nowNs)

def between (lo x hi : F) : Bool := less lo x && less x hi

def detectRetest (id : String) (nowNs : ℤ) : Option (Setup F) :=
  let micro := ctx.features.microstructure
  let tech := ctx.features.technical
  let mid := micro.midPrice
  let buy := between 0.30 tech.bbPercentB 0.48 && less 0.0 tech.momentum20 &&
    less 0.05 micro.bookImbalance5
  let sell := between 0.52 tech.bbPercentB 0.70 && less tech.momentum20 0.0 &&
    less micro.bookImbalance5 (-0.05)
  let confidence := cfg.baseConviction + 0.05
  let confidence := if trendAligned ctx buy then confidence + cfg.trendBonus else confidence
  if !tech.bbValid || !tech.momentumValid || !tech.atrValid then none
  else if mid ≤ 0.0 then none
  else if less 0.0 tech.bbMiddle &&
      less (mid * cfg.retestLevelTolerancePct) (stdAbs (mid - tech.bbMiddle)) then none
  else if !buy && !sell then none
  else if againstTrend cfg ctx buy sell || againstHtfTrend cfg ctx buy sell ||
      sidewaysAdxLow cfg ctx 3.0 || shortWithoutFutures ctx sell then none
  else if tech.rsiValid &&
      (buy && less cfg.rsiUpperGuard tech.rsi14 || sell && less tech.rsi14 cfg.rsiLowerGuard)
    then none
  else if unlikely 0.55 buy sell (runBayesianIndicatorFilter tech mid) then none
  else some (makeSetup ctx id .retest buy (stdMin confidence cfg.maxConviction)
    cfg.atrStopMultRetest cfg.atrTargetMultRetest nowNs)

def detectPullback (id : String) (nowNs : ℤ) : Option (Setup F) :=
  let micro := ctx.features.microstructure
  let tech := ctx.features.technical
  let mid := micro.midPrice
  let buy := less tech.ema50 tech.ema20 && less 0.0 tech.momentum20 && less tech.momentum5 0.0 &&
    less (-0.1) micro.bookImbalance5
  let sell := less tech.ema20 tech.ema50 && less tech.momentum20 0.0 &&
    less 0.0 tech.momentum5 && less micro.bookImbalance5 0.1
  let confidence := cfg.baseConviction + 0.08 + cfg.trendBonus
  if !tech.adxValid || !tech.momentumValid || !tech.emaValid || !tech.atrValid then none
  else if mid ≤ 0.0 then none
  else if tech.adx < cfg.adxMin + 5.0 then none
  else if !buy && !sell then none
  else if againstHtfTrend cfg ctx buy sell then none
  else if tech.rsiValid && (buy && less cfg.pullbackRsiBuyMax tech.rsi14 ||
      sell && less tech.rsi14 cfg.pullbackRsiSellMin) then none
  else if shortWithoutFutures ctx sell then none
  else if unlikely 0.55 buy sell (runBayesianIndicatorFilter tech mid) then none
  else some (makeSetup ctx id .pullbackInMicrotrend buy (stdMin confidence cfg.maxConviction)
    cfg.atrStopMultPullback cfg.atrTargetMultPullback nowNs)

def detectRejection (id : String) (nowNs : ℤ) : Option (Setup F) :=
  let micro := ctx.features.microstructure
  let tech := ctx.features.technical
  let mid := micro.midPrice
  let buy := less tech.bbPercentB (1.0 - cfg.rejectionBbExtreme) &&
    less cfg.rejectionMinReversalMomentum tech.momentum5 &&
    less (cfg.imbalanceThreshold * 0.5) micro.bookImbalance5
  let sell := less cfg.rejectionBbExtreme tech.bbPercentB &&
    less tech.momentum5 (-cfg.rejectionMinReversalMomentum) &&
    less micro.bookImbalance5 (-cfg.imbalanceThreshold * 0.5)
  let confidence := cfg.baseConviction - 0.02
  if !tech.bbValid || !tech.momentumValid || !tech.atrValid then none
  else if mid ≤ 0.0 then none
  else if !buy && !sell then none
  else if tech.rsiValid && (buy && less 35.0 tech.rsi14 || sell && less tech.rsi14 65.0) then none
  else if unlikely 0.55 buy sell (runBayesianIndicatorFilter tech mid) then none
  else if shortWithoutFutures ctx sell then none
  else some (makeSetup ctx id .rejection buy (stdMin (stdMax confidence 0.1) cfg.maxConviction)
    cfg.atrStopMultRejection cfg.atrTargetMultRejection nowNs)

def detect (id : String) (nowNs : ℤ) : Option (Setup F) :=
  let eager := ctx.regime != .ranging && ctx.uncertainty != .high
  if ctx.uncertainty = .extreme then none
  else if ctx.worldState = .disrupted then none
  else
    ((if cfg.enableMomentumContinuation && eager then detectMomentum cfg ctx id nowNs
      else none).orElse fun _ =>
    (if cfg.enableRetestScenarios then detectRetest cfg ctx id nowNs else none)).orElse fun _ =>
    (if cfg.enablePullbackScenarios && eager then detectPullback cfg ctx id nowNs
      else none).orElse fun _ =>
    (if cfg.enableRejectionScenarios then detectRejection cfg ctx id nowNs else none)

def ageMs (setup : Setup F) (nowNs : ℤ) : ℤ := (max 0 (nowNs - setup.detectedAtNs)).tdiv 1000000

def imbalanceReversed (setup : Setup F) : Bool :=
  let revThreshold := cfg.imbalanceThreshold * 3.0
  let imbalance := ctx.features.microstructure.bookImbalance5
  match setup.side with
  | .buy => less imbalance (-revThreshold)
  | .sell => less revThreshold imbalance

def stopBreached (setup : Setup F) : Bool :=
  let mid := ctx.features.microstructure.midPrice
  match setup.side with
  | .buy => less mid setup.stopReference
  | .sell => less setup.stopReference mid

def validate (setup : Setup F) (nowNs : ℤ) : Bool :=
  let micro := ctx.features.microstructure
  let tech := ctx.features.technical
  if cfg.setupTimeoutMs < ageMs setup nowNs then false
  else if micro.spreadValid && less (cfg.maxSpreadBpsForEntry * 1.5) micro.spreadBps then false
  else if micro.liquidityValid && less micro.liquidityRatio (cfg.minLiquidityRatio * 0.2) then false
  else if imbalanceReversed cfg ctx setup then false
  else if tech.atrValid && isfinite tech.atr14 && less 0.0 tech.atr14 &&
      less (tech.atr14 * 2.0) (stdAbs (micro.midPrice - setup.referencePrice)) then false
  else !stopBreached ctx setup

def canConfirm (setup : Setup F) (nowNs : ℤ) : Bool :=
  let micro := ctx.features.microstructure
  let imbalance := micro.bookImbalance5
  if !less 0.85 setup.confidence && decide (ageMs setup nowNs < cfg.setupConfirmationWindowMs)
    then false
  else if micro.spreadValid && less cfg.maxSpreadBpsForEntry micro.spreadBps then false
  else
    match setup.side with
    | .buy => !less imbalance 0.0
    | .sell => !less 0.0 imbalance

end TB.SetupLifecycle
