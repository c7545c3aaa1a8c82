import TomorrowBot.RiskTypes

/-!
# The policy checks of the risk engine

A decision passes through the checks one after another; each may deny it,
deny it under a lock, propose a smaller size or throttle it. The texts of the
reasons are left out, their codes and severities are kept. A check that reads
the clock takes the reading as an argument.
-/

set_option autoImplicit false

namespace TB.RiskChecks
open TB.CommonTypes TB.ExecutionPlanner TB.TradingContext TB.RiskTypes

structure ExtendedRiskConfig (F : Type) where
  maxPositionNotional : F
  maxPositionNotionalPct : F
  maxLossPerTradePct : F
  maxLeverage : F
  maxSlippageBps : F
  maxDailyLossPerSymbolPct : F
  maxConsecutiveLossesPerSymbol : ℤ
  symbolCooldownAfterStopoutsNs : ℤ
  maxStrategyDailyLossPct : F
  maxDailyLossPct : F
  maxRealizedDailyLossPct : F
  maxDrawdownPct : F
  maxIntradayDrawdownPct : F
  drawdownHardStopPct : F
  maxConcurrentPositions : ℤ
  maxSimultaneousLongPositions : ℤ
  maxSimultaneousShortPositions : ℤ
  maxGrossExposurePct : F
  maxSymbolConcentrationPct : F
  maxConsecutiveLosses : ℤ
  cooldownAfterNLosses : ℤ
  lossCooldownNs : ℤ
  haltAfterNLosses : ℤ
  maxSpreadBps : F
  minLiquidityDepth : F
  maxFeedAgeNs : ℤ
  maxOrdersPerMinute : ℤ
  maxTradesPerHour : ℤ
  minTradeIntervalNs : ℤ
  regimeAwareLimitsEnabled : Bool
  stressRegimeScale : F
  trendingRegimeScale : F
  chopRegimeScale : F
  maxAdverseExcursionPct : F
  operationalDeadmanNs : ℤ
  killSwitchPortfolioDrawdownPct : F
  maxSameDirectionPositions : ℤ
  liquidationBufferPct : F
  maxAnnualFundingCostPct : F
  utcCutoffHour : ℤ
  utcCutoffMinute : ℤ

structure VenueHealthContext (F : Type) where
  restP99LatencyMs : F
  wsReconnectCountLastHour : ℤ
  rejectRateLastMinute : F
  cancelFillRatio : F
  positionSnapshotStale : Bool
  clockDriftMs : F

structure MarginContext (F : Type) where
  markPrice : F
  maintenanceMarginRate : F
  distanceToLiquidationPct : F
  availableMargin : F
  hedgeActive : Bool
  combinedMarginUsagePct : F

structure RiskContext (F : Type) where
  intent : TradeIntent F
  sizing : SizingResult F
  portfolio : PortfolioSnapshot F
  features : FeatureSnapshot F
  quality : ExecutionQualityEstimate F
  uncertainty : UncertaintySnapshot F
  currentFundingRate : F
  venueHealth : VenueHealthContext F
  margin : MarginContext F
  reconciliationDesync : Bool
  wsDisconnected : Bool

structure RiskReasonCode (F : Type) where
  code : String
  severity : F

structure RiskDecision (F : Type) where
  verdict : RiskVerdict
  approvedQuantity : F
  riskUtilizationPct : F
  killSwitchActive : Bool
  decidedAt : ℤ
  regimeScalingFactor : F
  strategyBudgetUtilizationPct : F
  symbolConcentrationPct : F
  action : RiskAction
  allowed : Bool
  originalSize : F
  riskState : RiskStateLevel
  warnings : List String
  hardBlocks : List String
  reasons : List (RiskReasonCode F)
  currentDailyPnl : F
  currentDrawdownPct : F
  currentGrossExposure : F
  activeLocksCount : ℤ

variable {F : Type} [DoubleArith F]

def defaultRiskConfig : ExtendedRiskConfig F where
  maxPositionNotional := 10000.0
  maxPositionNotionalPct := 0.0
  maxLossPerTradePct := 1.0
  maxLeverage := 20.0
  maxSlippageBps := 30.0
  maxDailyLossPerSymbolPct := 3.0
  maxConsecutiveLossesPerSymbol := 2
  symbolCooldownAfterStopoutsNs := 120000000000
  maxStrategyDailyLossPct := 1.5
  maxDailyLossPct := 2.0
  maxRealizedDailyLossPct := 1.5
  maxDrawdownPct := 5.0
  maxIntradayDrawdownPct := 3.0
  drawdownHardStopPct := 10.0
  maxConcurrentPositions := 10
  maxSimultaneousLongPositions := 8
  maxSimultaneousShortPositions := 8
  maxGrossExposurePct := 50.0
  maxSymbolConcentrationPct := 35.0
  maxConsecutiveLosses := 5
  cooldownAfterNLosses := 3
  lossCooldownNs := 60000000000
  haltAfterNLosses := 8
  maxSpreadBps := 50.0
  minLiquidityDepth := 100.0
  maxFeedAgeNs := 5000000000
  maxOrdersPerMinute := 10
  maxTradesPerHour := 8
  minTradeIntervalNs := 30000000000
  regimeAwareLimitsEnabled := true
  stressRegimeScale := 0.5
  trendingRegimeScale := 1.2
  chopRegimeScale := 0.7
  maxAdverseExcursionPct := 3.0
  operationalDeadmanNs := 2700000000000
  killSwitchPortfolioDrawdownPct := 6.0
  maxSameDirectionPositions := 3
  liquidationBufferPct := 5.0
  maxAnnualFundingCostPct := 200.0
  utcCutoffHour := -1
  utcCutoffMinute := 0

def defaultVenueHealth : VenueHealthContext F := ⟨0.0, 0, 0.0, 0.0, false, 0.0⟩

def defaultMargin : MarginContext F := ⟨0.0, 0.005, 100.0, 0.0, false, 0.0⟩

section Helpers

def deny (d : RiskDecision F) (code : String) (severity : F) : RiskDecision F :=
  if code.isEmpty then d
  else
    { d with
      verdict := .denied
      reasons := d.reasons ++
        [⟨code, stdClamp (if isfinite severity then severity else 1.0) 0.0 1.0⟩]
      hardBlocks := d.hardBlocks ++ [code] }

def denyLock (d : RiskDecision F) (action : RiskAction) (code : String) : RiskDecision F :=
  { d with
    verdict := .denied
    action := action
    reasons := d.reasons ++ [⟨code, 1.0⟩]
    hardBlocks := d.hardBlocks ++ [code] }

def cutTo (originalSize approved ratio : F) : F :=
  let target := originalSize * stdClamp ratio 0.0 1.0
  if target < approved then target else approved

def reduce (d : RiskDecision F) (ratio : F) (code : String) : RiskDecision F :=
  { d with
    verdict := if d.verdict = .approved then .reduceSize else d.verdict
    approvedQuantity := cutTo d.originalSize d.approvedQuantity ratio
    reasons := d.reasons ++ [⟨code, 0.5⟩]
    warnings := d.warnings ++ [code] }

def throttle (d : RiskDecision F) (code : String) : RiskDecision F :=
  { d with
    verdict := if d.verdict = .denied then .denied else .throttled
    reasons := d.reasons ++ [⟨code, 0.6⟩]
    warnings := d.warnings ++ [code] }

def denyIf (c : Prop) [Decidable c] (code : String) (severity : F) (d : RiskDecision F) :
    RiskDecision F :=
  if c then deny d code severity else d

def lockIf (c : Prop) [Decidable c] (action : RiskAction) (code : String) (d : RiskDecision F) :
    RiskDecision F :=
  if c then denyLock d action code else d

def throttleIf (c : Prop) [Decidable c] (code : String) (d : RiskDecision F) : RiskDecision F :=
  if c then throttle d code else d

end Helpers

section Locks
variable (s : RiskState F) (ctx : RiskContext F) (d : RiskDecision F)

def killSwitchCheck : RiskDecision F :=
  if hasEmergencyHalt s.locks then
    { denyLock d .emergencyHalt "KILL_SWITCH" with killSwitchActive := true }
  else d

def dayLockCheck : RiskDecision F := lockIf (hasDayLock s.locks) .denyDayLock "DAY_LOCK" d

def symbolLockCheck : RiskDecision F :=
  lockIf (hasSymbolLock s.locks ctx.intent.symbol) .denySymbolLock "SYMBOL_LOCK" d

def strategyLockCheck : RiskDecision F :=
  lockIf (hasStrategyLock s.locks ctx.intent.strategyId) .denyStrategyLock "STRATEGY_LOCK" d

def symbolCooldownCheck : RiskDecision F :=
  throttleIf (hasCooldown s.locks ctx.intent.symbol) "SYMBOL_COOLDOWN" d

end Locks

section Losses
variable (cfg : ExtendedRiskConfig F) (s : RiskState F) (ctx : RiskContext F)
  (d : RiskDecision F)

def lossPct (pnl totalCapital : F) : F := stdAbs pnl / totalCapital * 100.0

def dailyLossCheck : RiskDecision F :=
  if ctx.portfolio.totalCapital ≤ 0 then d
  else
    denyIf (cfg.maxDailyLossPct ≤
        lossPct (stdMin ctx.portfolio.pnl.totalPnl 0) ctx.portfolio.totalCapital)
      "MAX_DAILY_LOSS" 1.0 { d with currentDailyPnl := ctx.portfolio.pnl.totalPnl }

def realizedDailyLossCheck : RiskDecision F :=
  if ctx.portfolio.totalCapital ≤ 0 then d
  else
    denyIf (cfg.maxRealizedDailyLossPct ≤
        lossPct (stdMin ctx.portfolio.pnl.realizedPnlToday 0) ctx.portfolio.totalCapital)
      "REALIZED_DAILY_LOSS" 1.0 d

def maxDrawdownCheck : RiskDecision F :=
  denyIf (cfg.maxDrawdownPct ≤ ctx.portfolio.pnl.currentDrawdownPct) "MAX_DRAWDOWN" 1.0
    { d with currentDrawdownPct := ctx.portfolio.pnl.currentDrawdownPct }

def intradayDrawdownCheck : RiskDecision F :=
  denyIf (cfg.maxIntradayDrawdownPct ≤ intradayDrawdownPct s.drawdown) "INTRADAY_DRAWDOWN" 0.9 d

def hardStopReached (portfolio : PortfolioSnapshot F) : Prop :=
  cfg.drawdownHardStopPct ≤ portfolio.pnl.currentDrawdownPct

instance (portfolio : PortfolioSnapshot F) : Decidable (hardStopReached cfg portfolio) :=
  DoubleArith.decLe _ _

def drawdownHardStopCheck : RiskState F × RiskDecision F :=
  if hardStopReached cfg ctx.portfolio then
    let d := denyLock d .emergencyHalt "DRAWDOWN_HARD_STOP"
    ({ s with locks := addLock s.locks .emergencyHalt "" d.decidedAt 0 }, d)
  else (s, d)

def consecutiveLossesCheck : RiskDecision F :=
  let losses : ℤ := ctx.portfolio.pnl.consecutiveLosses
  let d := denyIf (cfg.maxConsecutiveLosses ≤ losses) "CONSECUTIVE_LOSSES" 0.8 d
  lockIf (cfg.haltAfterNLosses ≤ losses) .denyAccountLock "HALT_AFTER_LOSSES" d

def maxLossPerTradeCheck : RiskDecision F :=
  if ctx.portfolio.totalCapital ≤ 0 then d
  else
    denyIf (ctx.portfolio.positions.any (fun p =>
        !decide (0 ≤ p.unrealizedPnl) &&
          decide (cfg.maxLossPerTradePct ≤ lossPct p.unrealizedPnl ctx.portfolio.totalCapital)))
      "MAX_LOSS_PER_TRADE" 0.9 d

def symbolExposure (portfolio : PortfolioSnapshot F) (symbol : Symbol) : F :=
  portfolio.positions.foldl
    (fun total p => if p.symbol = symbol then total + p.notional else total) 0

def perSymbolRiskCheck : RiskDecision F :=
  if ctx.portfolio.totalCapital ≤ 0 then d
  else
    let symbol := ctx.intent.symbol
    let projected := symbolExposure ctx.portfolio symbol + ctx.sizing.approvedNotional
    let concPct := projected / ctx.portfolio.totalCapital * 100.0
    let d := { d with symbolConcentrationPct := concPct }
    let d := denyIf (cfg.maxSymbolConcentrationPct ≤ concPct) "SYMBOL_CONCENTRATION" 0.8 d
    let d := denyIf (cfg.maxConsecutiveLossesPerSymbol ≤
        symbolConsecutiveLosses s.lossStreaks symbol) "SYMBOL_CONSECUTIVE_LOSSES" 0.8 d
    let symPnl := symbolDailyPnl s.pnl symbol
    denyIf (symPnl < 0 ∧
        cfg.maxDailyLossPerSymbolPct ≤ lossPct symPnl ctx.portfolio.totalCapital)
      "SYMBOL_DAILY_LOSS" 0.8 d

def budgetLossPct (b : StrategyRiskBudget F) (totalCapital : F) : F :=
  b.dailyLoss / totalCapital * 100.0

def perStrategyRiskCheck : RiskDecision F :=
  if ctx.portfolio.totalCapital ≤ 0 then d
  else
    match s.strategyBudgets.lookup ctx.intent.strategyId with
    | none => d
    | some budget =>
      let pct := budgetLossPct budget ctx.portfolio.totalCapital
      lockIf (cfg.maxStrategyDailyLossPct ≤ pct) .denyStrategyLock "STRATEGY_BUDGET"
        { d with strategyBudgetUtilizationPct := pct }

end Losses

section Positions
variable (cfg : ExtendedRiskConfig F) (ctx : RiskContext F) (d : RiskDecision F)

def maxPositionsCheck : RiskDecision F :=
  denyIf (cfg.maxConcurrentPositions ≤ ctx.portfolio.exposure.openPositionsCount)
    "MAX_POSITIONS" 0.8 d

def netCount (portfolio : PortfolioSnapshot F) (side : Side) : ℤ :=
  let longs := portfolio.positions.filter (fun p => p.side == .buy)
  let shorts := portfolio.positions.filter (fun p => p.side != .buy)
  let shortSymbols := shorts.map (·.symbol)
  let hedgePairs := ((longs.map (·.symbol)).dedup.filter (fun y => y ∈ shortSymbols)).length
  let count := if side = .buy then longs.length else shorts.length
  max 0 ((count : ℤ) - hedgePairs)

def sameDirectionCheck : RiskDecision F :=
  let longCount := netCount ctx.portfolio .buy
  let shortCount := netCount ctx.portfolio .sell
  let d := denyIf (ctx.intent.side = .buy ∧ cfg.maxSimultaneousLongPositions ≤ longCount)
    "MAX_LONG_POSITIONS" 0.7 d
  let d := denyIf (ctx.intent.side = .sell ∧ cfg.maxSimultaneousShortPositions ≤ shortCount)
    "MAX_SHORT_POSITIONS" 0.7 d
  let sameDir := if ctx.intent.side = .buy then longCount else shortCount
  denyIf (cfg.maxSameDirectionPositions ≤ sameDir) "SAME_DIRECTION" 0.7 d

def exposureLimitCheck : RiskDecision F :=
  if ctx.portfolio.totalCapital ≤ 0 then d
  else
    let projectedGross := ctx.portfolio.exposure.grossExposure + ctx.sizing.approvedNotional
    denyIf (cfg.maxGrossExposurePct ≤ projectedGross / ctx.portfolio.totalCapital * 100.0)
      "MAX_EXPOSURE" 0.9
      { d with currentGrossExposure := ctx.portfolio.exposure.grossExposure }

def configuredCap (portfolio : PortfolioSnapshot F) : Option F :=
  let pctCap :=
    if 0 < cfg.maxPositionNotionalPct ∧ 0 < portfolio.totalCapital then
      some (portfolio.totalCapital * cfg.maxPositionNotionalPct * stdMax 1.0 cfg.maxLeverage)
    else none
  if 0 < cfg.maxPositionNotional then
    some (pctCap.elim cfg.maxPositionNotional (fun c => stdMin c cfg.maxPositionNotional))
  else pctCap

def effectiveCap (portfolio : PortfolioSnapshot F) : F :=
  let fallback := portfolio.totalCapital * stdMax 1.0 cfg.maxLeverage
  (configuredCap cfg portfolio).elim fallback
    (fun c => if isfinite c = false ∨ c ≤ 0 then fallback else c)

def perTradeRiskCheck : RiskDecision F :=
  let notional := ctx.sizing.approvedNotional
  let cap := effectiveCap cfg ctx.portfolio
  if cap < notional then reduce d (cap / notional) "MAX_NOTIONAL" else d

def maxLeverageCheck : RiskDecision F :=
  if ctx.portfolio.totalCapital ≤ 0 then d
  else
    let projectedExposure := ctx.portfolio.exposure.grossExposure + ctx.sizing.approvedNotional
    let bufferFactor := stdMax 0 (1.0 - cfg.liquidationBufferPct / 100.0)
    denyIf (cfg.maxLeverage * bufferFactor ≤ projectedExposure / ctx.portfolio.totalCapital)
      "MAX_LEVERAGE" 0.9 d

def maxSlippageCheck : RiskDecision F :=
  denyIf (cfg.maxSlippageBps < ctx.quality.estimatedSlippageBps) "MAX_SLIPPAGE" 0.7 d

end Positions

section Rates
variable (cfg : ExtendedRiskConfig F) (now : ℤ) (s : RiskState F) (ctx : RiskContext F)
  (d : RiskDecision F)

def orderRateCheck : RiskState F × RiskDecision F :=
  ({ s with rates := purgeOrders s.rates now },
    throttleIf (cfg.maxOrdersPerMinute ≤ ordersLastMinute s.rates now) "ORDER_RATE" d)

def turnoverRateCheck : RiskState F × RiskDecision F :=
  ({ s with rates := purgeCloses s.rates now },
    throttleIf (cfg.maxTradesPerHour ≤ tradesLastHour s.rates now) "TURNOVER_RATE" d)

def tradeIntervalCheck : RiskDecision F :=
  let last := lastTradeForSymbol s.rates ctx.intent.symbol
  throttleIf (last ≠ 0 ∧ max 0 (now - last) < cfg.minTradeIntervalNs) "TRADE_INTERVAL" d

end Rates

section Market
variable (cfg : ExtendedRiskConfig F) (ctx : RiskContext F) (d : RiskDecision F)

def staleFeedCheck : RiskDecision F :=
  if ctx.features.executionContext.isFeedFresh then
    denyIf (cfg.maxFeedAgeNs < ctx.features.marketDataAgeNs) "STALE_FEED" 1.0 d
  else deny d "STALE_FEED" 1.0

def bookQualityCheck : RiskDecision F :=
  denyIf (ctx.features.bookQuality ≠ .valid) "INVALID_BOOK" 1.0 d

def spreadCheck : RiskDecision F :=
  denyIf (ctx.features.microstructure.spreadValid ∧
    cfg.maxSpreadBps < ctx.features.microstructure.spreadBps) "WIDE_SPREAD" 0.7 d

def liquidityCheck : RiskDecision F :=
  let m := ctx.features.microstructure
  denyIf (m.liquidityValid ∧ m.bidDepth5Notional + m.askDepth5Notional < cfg.minLiquidityDepth)
    "LOW_LIQUIDITY" 0.6 d

def pastCutoff (now : ℤ) : Prop :=
  let secsToday := (now.tdiv 1000000000).tmod 86400
  let hourUtc := secsToday.tdiv 3600
  let minuteUtc := (secsToday.tmod 3600).tdiv 60
  cfg.utcCutoffHour < hourUtc ∨
    hourUtc = cfg.utcCutoffHour ∧ max 0 (min cfg.utcCutoffMinute 59) ≤ minuteUtc

instance (now : ℤ) : Decidable (pastCutoff cfg now) := instDecidableOr

def utcCutoffCheck (now : ℤ) : RiskDecision F :=
  denyIf (0 ≤ cfg.utcCutoffHour ∧ pastCutoff cfg now) "UTC_CUTOFF" 1.0 d

def regimeCap (scale : F) : F :=
  stdMax (cfg.maxPositionNotional * scale) (stdMax kMinBitgetNotionalUsdt 5.0 * 1.05)

def regimeScaledLimitsCheck (scale : F) : RiskDecision F :=
  let d := { d with regimeScalingFactor := scale }
  if cfg.regimeAwareLimitsEnabled = false ∨ (1.0 : F) ≤ scale then d
  else
    let notional := ctx.sizing.approvedNotional
    if notional ≤ regimeCap cfg scale then d
    else reduce d (regimeCap cfg scale / notional) "REGIME_SCALED_LIMIT"

def uncertaintyCap (uncertainty : UncertaintySnapshot F) : F :=
  cfg.maxPositionNotional * uncertainty.sizeMultiplier

def uncertaintyLimitsCheck : RiskDecision F :=
  if ctx.uncertainty.level ≠ .high ∧ ctx.uncertainty.level ≠ .extreme then d
  else
    let notional := ctx.sizing.approvedNotional
    if notional ≤ uncertaintyCap cfg ctx.uncertainty then d
    else reduce d (uncertaintyCap cfg ctx.uncertainty / notional) "UNCERTAINTY_LIMIT"

def uncertaintyCooldownCheck : RiskDecision F :=
  throttleIf ctx.uncertainty.cooldown.active "UNCERTAINTY_COOLDOWN" d

def uncertaintyExecutionModeCheck : RiskDecision F :=
  denyIf (ctx.uncertainty.executionMode = .haltNewEntries ∧ ctx.intent.tradeSide = .opening)
    "UNCERTAINTY_HALT" 1.0 d

def fundingRateCostCheck : RiskDecision F :=
  let rate := ctx.currentFundingRate
  if stdAbs rate < 1e-9 then d
  else
    let effectiveCost := if ctx.intent.side = .buy then rate else -rate
    if effectiveCost ≤ 0 then d
    else
      denyIf (cfg.maxAnnualFundingCostPct < effectiveCost * 3.0 * 365.0 * 100.0)
        "FUNDING_COST_EXCESSIVE" 0.7 d

def venueHealthCheck : RiskDecision F :=
  let vh := ctx.venueHealth
  if 3000.0 < vh.restP99LatencyMs then deny d "VENUE_REST_DEGRADED" 0.9
  else if 3 < vh.wsReconnectCountLastHour then deny d "VENUE_WS_UNSTABLE" 0.85
  else if 0.20 < vh.rejectRateLastMinute then deny d "VENUE_REJECT_STORM" 0.9
  else if 500.0 < vh.clockDriftMs then deny d "VENUE_CLOCK_DRIFT" 0.85
  else
    let d := if vh.positionSnapshotStale then reduce d 0.5 "VENUE_STALE_POSITIONS" else d
    if 5.0 < vh.cancelFillRatio then reduce d 0.7 "VENUE_HIGH_CANCEL_RATIO" else d

def reduceIf (c : Prop) [Decidable c] (ratio : F) (code : String) (d : RiskDecision F) :
    RiskDecision F :=
  if c then reduce d ratio code else d

def liquidationWarning (m : MarginContext F) : RiskDecision F :=
  let warnThreshold := cfg.liquidationBufferPct * 2.0
  reduceIf (0 < warnThreshold ∧ m.distanceToLiquidationPct < warnThreshold)
    (stdClamp (m.distanceToLiquidationPct / warnThreshold) 0.3 0.8) "MARGIN_DISTANCE_LOW" d

def pairUsageWarning (m : MarginContext F) : RiskDecision F :=
  reduceIf (m.hedgeActive ∧ 80.0 < m.combinedMarginUsagePct) 0.5 "MARGIN_PAIR_USAGE_HIGH" d

def availableMarginWarning (m : MarginContext F) : RiskDecision F :=
  let orderNotional := d.approvedQuantity * m.markPrice
  let requiredMargin := orderNotional * m.maintenanceMarginRate * 2.0
  reduceIf (0 < m.availableMargin ∧ m.availableMargin * 0.7 < requiredMargin)
    (stdClamp (m.availableMargin * 0.7 / stdMax requiredMargin 0.01) 0.3 0.9)
    "MARGIN_AVAILABLE_LOW" d

def marginDistanceCheck : RiskDecision F :=
  let m := ctx.margin
  if (99.0 : F) ≤ m.distanceToLiquidationPct then d
  else if m.distanceToLiquidationPct < cfg.liquidationBufferPct then
    deny d "MARGIN_LIQUIDATION_CLOSE" 1.0
  else
    let d := pairUsageWarning (liquidationWarning cfg d m) m
    if m.markPrice ≤ 0 then d else availableMarginWarning d m

def reconciliationDesyncCheck : RiskDecision F :=
  denyIf (ctx.reconciliationDesync ∧
      ¬ (ctx.intent.tradeSide = .closing ∨ ctx.intent.signalIntent = .reducePosition))
    "RECONCILIATION_DESYNC" 1.0 d

def wsDisconnectedCheck : RiskDecision F := denyIf ctx.wsDisconnected "WS_DISCONNECTED" 1.0 d

end Market

structure IRiskCheck (F : Type) where
  name : String
  evaluate : RiskContext F → RiskState F → RiskDecision F → RiskState F × RiskDecision F

def initChecks (cfg : ExtendedRiskConfig F) (regimeScale : F) (now : ℤ) : List (IRiskCheck F) :=
  [⟨"kill_switch_check", fun _ s d => (s, killSwitchCheck s d)⟩,
   ⟨"day_lock_check", fun _ s d => (s, dayLockCheck s d)⟩,
   ⟨"symbol_lock_check", fun ctx s d => (s, symbolLockCheck s ctx d)⟩,
   ⟨"strategy_lock_check", fun ctx s d => (s, strategyLockCheck s ctx d)⟩,
   ⟨"symbol_cooldown_check", fun ctx s d => (s, symbolCooldownCheck s ctx d)⟩,
   ⟨"daily_loss_check", fun ctx s d => (s, dailyLossCheck cfg ctx d)⟩,
   ⟨"realized_daily_loss_check", fun ctx s d => (s, realizedDailyLossCheck cfg ctx d)⟩,
   ⟨"max_drawdown_check", fun ctx s d => (s, maxDrawdownCheck cfg ctx d)⟩,
   ⟨"intraday_drawdown_check", fun _ s d => (s, intradayDrawdownCheck cfg s d)⟩,
   ⟨"drawdown_hard_stop_check", fun ctx s d => drawdownHardStopCheck cfg s ctx d⟩,
   ⟨"max_positions_check", fun ctx s d => (s, maxPositionsCheck cfg ctx d)⟩,
   ⟨"same_direction_check", fun ctx s d => (s, sameDirectionCheck cfg ctx d)⟩,
   ⟨"exposure_limit_check", fun ctx s d => (s, exposureLimitCheck cfg ctx d)⟩,
   ⟨"per_trade_risk_check", fun ctx s d => (s, perTradeRiskCheck cfg ctx d)⟩,
   ⟨"max_leverage_check", fun ctx s d => (s, maxLeverageCheck cfg ctx d)⟩,
   ⟨"max_slippage_check", fun ctx s d => (s, maxSlippageCheck cfg ctx d)⟩,
   ⟨"consecutive_losses_check", fun ctx s d => (s, consecutiveLossesCheck cfg ctx d)⟩,
   ⟨"max_loss_per_trade_check", fun ctx s d => (s, maxLossPerTradeCheck cfg ctx d)⟩,
   ⟨"per_symbol_risk_check", fun ctx s d => (s, perSymbolRiskCheck cfg s ctx d)⟩,
   ⟨"per_strategy_risk_check", fun ctx s d => (s, perStrategyRiskCheck cfg s ctx d)⟩,
   ⟨"order_rate_check", fun _ s d => orderRateCheck cfg now s d⟩,
   ⟨"turnover_rate_check", fun _ s d => turnoverRateCheck cfg now s d⟩,
   ⟨"trade_interval_check", fun ctx s d => (s, tradeIntervalCheck cfg now s ctx d)⟩,
   ⟨"stale_feed_check", fun ctx s d => (s, staleFeedCheck cfg ctx d)⟩,
   ⟨"book_quality_check", fun ctx s d => (s, bookQualityCheck ctx d)⟩,
   ⟨"spread_check", fun ctx s d => (s, spreadCheck cfg ctx d)⟩,
   ⟨"liquidity_check", fun ctx s d => (s, liquidityCheck cfg ctx d)⟩,
   ⟨"utc_cutoff_check", fun _ s d => (s, utcCutoffCheck cfg d now)⟩,
   ⟨"regime_scaled_limits_check",
    fun ctx s d => (s, regimeScaledLimitsCheck cfg ctx d regimeScale)⟩,
   ⟨"uncertainty_limits_check", fun ctx s d => (s, uncertaintyLimitsCheck cfg ctx d)⟩,
   ⟨"uncertainty_cooldown_check", fun ctx s d => (s, uncertaintyCooldownCheck ctx d)⟩,
   ⟨"uncertainty_execution_mode_check",
    fun ctx s d => (s, uncertaintyExecutionModeCheck ctx d)⟩,
   ⟨"funding_rate_cost_check", fun ctx s d => (s, fundingRateCostCheck cfg ctx d)⟩,
   ⟨"venue_health_check", fun ctx s d => (s, venueHealthCheck ctx d)⟩,
   ⟨"margin_distance_check", fun ctx s d => (s, marginDistanceCheck cfg ctx d)⟩,
   ⟨"reconciliation_desync_check", fun ctx s d => (s, reconciliationDesyncCheck ctx d)⟩,
   ⟨"ws_disconnected_check", fun ctx s d => (s, wsDisconnectedCheck ctx d)⟩]

def runChecks (ctx : RiskContext F) :
    List (IRiskCheck F) → RiskState F → RiskDecision F → RiskState F × RiskDecision F
  | [], s, d => (s, d)
  | c::cs, s, d =>
    let r := c.evaluate ctx s d
    runChecks ctx cs r.1 r.2

end TB.RiskChecks
