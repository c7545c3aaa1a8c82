import TomorrowBot.RiskChecks

/-!
# The risk engine

One call of the engine reads the clock once. The answer of an installed
kill-switch provider is an argument of the evaluation that asks for it; the
texts that explain a halt are left out.
-/

set_option autoImplicit false

namespace TB.RiskEngine
open TB.CommonTypes TB.TradingContext TB.RiskTypes TB.RiskChecks
open TB.ExecutionPlanner hiding RiskDecision

structure ProductionRiskEngine (F : Type) where
  state : RiskState F
  killSwitchActive : Bool
  currentRegime : DetailedRegime
  regimeScaleFactor : F
  currentFundingRate : F
  minNotionalUsdt : F
  reconciliationDesync : Bool
  wsDisconnected : Bool

structure RiskRequest (F : Type) where
  intent : TradeIntent F
  sizing : SizingResult F
  portfolio : PortfolioSnapshot F
  features : FeatureSnapshot F
  quality : ExecutionQualityEstimate F
  uncertainty : UncertaintySnapshot F

structure IntraTradeAssessment (F : Type) where
  symbol : Symbol
  shouldClose : Bool
  reasons : List (RiskReasonCode F)
  assessedAt : ℤ
  isSafetyExit : Bool

variable {F : Type} [DoubleArith F]

def initialEngine : ProductionRiskEngine F where
  state := initialState
  killSwitchActive := false
  currentRegime := .undefined
  regimeScaleFactor := 1.0
  currentFundingRate := 0.0
  minNotionalUsdt := 0.0
  reconciliationDesync := false
  wsDisconnected := false

def ProductionRiskEngine.setLocks (e : ProductionRiskEngine F) (locks : LockRegistry) :
    ProductionRiskEngine F :=
  { e with state := { e.state with locks := locks } }

section KillSwitch

def activateKillSwitch (e : ProductionRiskEngine F) (now : ℤ) : ProductionRiskEngine F :=
  { e.setLocks (addLock e.state.locks .emergencyHalt "" now 0) with killSwitchActive := true }

def deactivateKillSwitch (e : ProductionRiskEngine F) : ProductionRiskEngine F :=
  { e.setLocks (removeLock e.state.locks .emergencyHalt "") with killSwitchActive := false }

def syncProvider (e : ProductionRiskEngine F) (provider : Option Bool) (now : ℤ) :
    ProductionRiskEngine F :=
  match provider with
  | none => e
  | some true =>
    if hasEmergencyHalt e.state.locks then { e with killSwitchActive := true }
    else activateKillSwitch e now
  | some false => if e.killSwitchActive then deactivateKillSwitch e else e

end KillSwitch

section Evaluation
variable (cfg : ExtendedRiskConfig F)

def prepare (e : ProductionRiskEngine F) (portfolio : PortfolioSnapshot F) (now : ℤ) :
    ProductionRiskEngine F :=
  { e with
    state :=
      { e.state with
        drawdown :=
          updateEquity e.state.drawdown (portfolio.totalCapital + portfolio.pnl.totalPnl)
        locks := clearExpired e.state.locks now } }

def invalidSize (size : F) : Prop := isfinite size = false ∨ size < 0

instance (size : F) : Decidable (invalidSize size) := instDecidableOr

def startDecision (size : F) (now : ℤ) : RiskDecision F where
  verdict := .approved
  approvedQuantity := size
  riskUtilizationPct := 0.0
  killSwitchActive := false
  decidedAt := now
  regimeScalingFactor := 1.0
  strategyBudgetUtilizationPct := 0.0
  symbolConcentrationPct := 0.0
  action := .allow
  allowed := true
  originalSize := size
  riskState := .normal
  warnings := []
  hardBlocks := []
  reasons := []
  currentDailyPnl := 0.0
  currentDrawdownPct := 0.0
  currentGrossExposure := 0.0
  activeLocksCount := 0

def rejectSize (d : RiskDecision F) : RiskDecision F :=
  { d with verdict := .denied, allowed := false, action := .deny,
           reasons := d.reasons ++ [⟨"INVALID_SIZE", 1.0⟩] }

def context (e : ProductionRiskEngine F) (request : RiskRequest F) : RiskContext F where
  intent := request.intent
  sizing := request.sizing
  portfolio := request.portfolio
  features := request.features
  quality := request.quality
  uncertainty := request.uncertainty
  currentFundingRate := e.currentFundingRate
  venueHealth := defaultVenueHealth
  margin := defaultMargin
  reconciliationDesync := e.reconciliationDesync
  wsDisconnected := e.wsDisconnected

def closeCheckNames : List String :=
  ["order_rate_check", "max_slippage_check", "stale_feed_check", "max_leverage_check",
   "max_drawdown_check"]

def closeChecks (scale : F) (now : ℤ) : List (IRiskCheck F) :=
  (initChecks cfg scale now).filter (fun c => closeCheckNames.contains c.name)

def approveClose (d : RiskDecision F) : RiskDecision F :=
  { d with verdict := .approved, action := .allow, allowed := true }

def syncAction (d : RiskDecision F) : RiskDecision F :=
  match d.verdict with
  | .denied =>
    { d with
      allowed := false
      action := if d.action = .allow ∨ d.action = .allowWithReducedSize then .deny else d.action }
  | .throttled => { d with allowed := false }
  | .reduceSize => { d with action := .allowWithReducedSize }
  | .approved => { d with allowed := true }

def minNotional (e : ProductionRiskEngine F) : F :=
  if 0.0 < e.minNotionalUsdt then e.minNotionalUsdt else kMinBitgetNotionalUsdt

def guardMinNotional (e : ProductionRiskEngine F) (sizing : SizingResult F) (d : RiskDecision F) :
    RiskDecision F :=
  let pricePerUnit := sizing.approvedNotional / sizing.approvedQuantity
  if d.verdict = .reduceSize ∧ (0.0 : F) < sizing.approvedQuantity ∧
      d.approvedQuantity * pricePerUnit < minNotional e then
    { d with verdict := .denied, allowed := false, action := .deny,
             reasons := d.reasons ++ [⟨"REDUCE_BELOW_MIN_NOTIONAL", 1.0⟩] }
  else d

def finalizeDecision (e : ProductionRiskEngine F) (request : RiskRequest F) (d : RiskDecision F) :
    RiskDecision F :=
  let d := guardMinNotional e request.sizing d
  let capital := request.portfolio.totalCapital
  let d := if (0.0 : F) < capital then
      { d with
        riskUtilizationPct := request.portfolio.exposure.grossExposure / capital
        currentGrossExposure := request.portfolio.exposure.grossExposure
        currentDrawdownPct := request.portfolio.pnl.currentDrawdownPct
        currentDailyPnl := request.portfolio.pnl.totalPnl }
    else d
  let factor := e.regimeScaleFactor
  { d with
    regimeScalingFactor :=
      if isfinite factor = false ∨ factor < 0.1 ∨ 3.0 < factor then 1.0 else factor
    riskState := computeGlobalState e.state.locks
    activeLocksCount := e.state.locks.length }

def opened (e : ProductionRiskEngine F) (now : ℤ) (provider : Option Bool)
    (request : RiskRequest F) : ProductionRiskEngine F :=
  prepare (syncProvider e provider now) request.portfolio now

def checksFor (side : TradeSide) (scale : F) (now : ℤ) : List (IRiskCheck F) :=
  match side with
  | .closing => closeChecks cfg scale now
  | .opening => initChecks cfg scale now

def settle (side : TradeSide) (d : RiskDecision F) : RiskDecision F :=
  match side with
  | .closing => approveClose d
  | .opening => syncAction d

def checked (e : ProductionRiskEngine F) (now : ℤ) (request : RiskRequest F) :
    RiskState F × RiskDecision F :=
  runChecks (context e request) (checksFor cfg request.intent.tradeSide e.regimeScaleFactor now)
    e.state (startDecision request.sizing.approvedQuantity now)

def evaluate (e : ProductionRiskEngine F) (now : ℤ) (provider : Option Bool)
    (request : RiskRequest F) : ProductionRiskEngine F × RiskDecision F :=
  let e := opened e now provider request
  if invalidSize request.sizing.approvedQuantity then
    (e, rejectSize (startDecision request.sizing.approvedQuantity now))
  else
    let r := checked cfg e now request
    let e := { e with state := r.1 }
    (e, finalizeDecision e request (settle request.intent.tradeSide r.2))

end Evaluation

section Events
variable (cfg : ExtendedRiskConfig F)

def recordOrderSent (e : ProductionRiskEngine F) (now : ℤ) : ProductionRiskEngine F :=
  { e with state := { e.state with rates := recordOrder e.state.rates now } }

def trackClose (s : RiskState F) (strategyId : StrategyId) (symbol : Symbol) (realizedPnl : F)
    (now : ℤ) : RiskState F :=
  { s with
    lossStreaks :=
      recordTradeResult s.lossStreaks symbol strategyId (decide (realizedPnl < 0)) now
    pnl := recordTradePnl s.pnl symbol strategyId realizedPnl
    rates := recordSymbolTrade (recordClose s.rates now) symbol now
    strategyBudgets := s.strategyBudgets.insert strategyId
      (chargeBudget ((s.strategyBudgets.lookup strategyId).getD (emptyBudget strategyId))
        strategyId realizedPnl now) }

def coolSymbol (s : RiskState F) (symbol : Symbol) (now : ℤ) : LockRegistry :=
  let losses := symbolConsecutiveLosses s.lossStreaks symbol
  if cfg.maxConsecutiveLossesPerSymbol ≤ losses then
    addLock s.locks .cooldown symbol now cfg.symbolCooldownAfterStopoutsNs
  else s.locks

def coolAll (t : LossStreakTracker) (locks : LockRegistry) (now : ℤ) : LockRegistry :=
  let losses := t.totalConsecutiveLosses
  if cfg.cooldownAfterNLosses ≤ losses ∧ losses < cfg.haltAfterNLosses then
    addLock locks .cooldown "" now cfg.lossCooldownNs
  else locks

def haltDay (t : LossStreakTracker) (locks : LockRegistry) (now : ℤ) : LockRegistry :=
  if cfg.haltAfterNLosses ≤ t.totalConsecutiveLosses then
    addLock locks .dayLock "" now 0
  else locks

def recordTradeClose (e : ProductionRiskEngine F) (strategyId : StrategyId) (symbol : Symbol)
    (realizedPnl : F) (now : ℤ) : ProductionRiskEngine F :=
  let s := trackClose e.state strategyId symbol realizedPnl now
  let locks := coolSymbol cfg s symbol now
  let locks := coolAll cfg s.lossStreaks locks now
  let locks := haltDay cfg s.lossStreaks locks now
  { e with state := { s with locks := locks } }

def adversePct (position : PortfolioEngine.Position F) (portfolio : PortfolioSnapshot F) : F :=
  stdAbs position.unrealizedPnl / portfolio.totalCapital * 100.0

def losing (position : PortfolioEngine.Position F) (portfolio : PortfolioSnapshot F) : Prop :=
  0.0 < portfolio.totalCapital ∧ position.unrealizedPnl < 0.0

instance (position : PortfolioEngine.Position F) (portfolio : PortfolioSnapshot F) :
    Decidable (losing position portfolio) := instDecidableAnd

def portfolioBreached (portfolio : PortfolioSnapshot F) : Prop :=
  cfg.killSwitchPortfolioDrawdownPct ≤ portfolio.pnl.currentDrawdownPct

instance (portfolio : PortfolioSnapshot F) : Decidable (portfolioBreached cfg portfolio) :=
  DoubleArith.decLe _ _

def degradationCount (position : PortfolioEngine.Position F) (portfolio : PortfolioSnapshot F)
    (features : FeatureSnapshot F) : ℕ :=
  let m := features.microstructure
  (if features.executionContext.isFeedFresh then 0 else 1) +
    (if m.spreadValid ∧ (50.0 : F) < m.spreadBps then 1 else 0) +
    (if losing position portfolio ∧
        cfg.maxAdverseExcursionPct * 0.8 < adversePct position portfolio then 1 else 0) +
    (if m.vpinValid ∧ m.vpinToxic then 1 else 0)

def deadmanFires (position : PortfolioEngine.Position F) (portfolio : PortfolioSnapshot F)
    (features : FeatureSnapshot F) (now : ℤ) : Prop :=
  0 < cfg.operationalDeadmanNs ∧ cfg.operationalDeadmanNs < max 0 (now - position.openedAt) ∧
    2 ≤ degradationCount cfg position portfolio features

instance (position : PortfolioEngine.Position F) (portfolio : PortfolioSnapshot F)
    (features : FeatureSnapshot F) (now : ℤ) :
    Decidable (deadmanFires cfg position portfolio features now) := instDecidableAnd

def assessment (position : PortfolioEngine.Position F) (portfolio : PortfolioSnapshot F)
    (features : FeatureSnapshot F) (now : ℤ) : IntraTradeAssessment F :=
  let adverse := losing position portfolio ∧
    cfg.maxAdverseExcursionPct ≤ adversePct position portfolio
  let reasons : List (RiskReasonCode F) :=
    (if adverse then [⟨"MAX_ADVERSE_EXCURSION", 1.0⟩] else []) ++
    (if portfolioBreached cfg portfolio then [⟨"LIQUIDATION_PROXIMITY", 1.0⟩] else []) ++
    (if deadmanFires cfg position portfolio features now then [⟨"DEADMAN_WATCHDOG", 0.8⟩]
      else [])
  { symbol := position.symbol
    shouldClose := !reasons.isEmpty
    reasons := reasons
    assessedAt := now
    isSafetyExit := !reasons.isEmpty }

def evaluatePosition (e : ProductionRiskEngine F) (now : ℤ)
    (position : PortfolioEngine.Position F) (portfolio : PortfolioSnapshot F)
    (features : FeatureSnapshot F) :
    ProductionRiskEngine F × IntraTradeAssessment F :=
  (if portfolioBreached cfg portfolio ∧ e.killSwitchActive = false then
      activateKillSwitch e now
    else e, assessment cfg position portfolio features now)

def regimeScale (regime : DetailedRegime) : F :=
  match regime with
  | .liquidityStress | .volatilityExpansion | .anomalyEvent | .toxicFlow | .spreadInstability =>
    cfg.stressRegimeScale
  | .strongUptrend | .strongDowntrend => cfg.trendingRegimeScale
  | .chop | .lowVolCompression => cfg.chopRegimeScale
  | .weakUptrend | .weakDowntrend | .meanReversion | .undefined => 1.0

def setCurrentRegime (e : ProductionRiskEngine F) (regime : DetailedRegime) :
    ProductionRiskEngine F :=
  { e with
    currentRegime := regime
    regimeScaleFactor := if cfg.regimeAwareLimitsEnabled then regimeScale cfg regime else 1.0 }

def ProductionRiskEngine.resetDaily (e : ProductionRiskEngine F) (now : ℤ) :
    ProductionRiskEngine F :=
  { e with state := e.state.resetDaily now, regimeScaleFactor := 1.0 }

end Events

inductive RiskOp (F : Type) where
  | evaluate (now : ℤ) (provider : Option Bool) (request : RiskRequest F)
  | evaluatePosition (now : ℤ) (position : PortfolioEngine.Position F)
      (portfolio : PortfolioSnapshot F) (features : FeatureSnapshot F)
  | recordTradeClose (now : ℤ) (strategyId : StrategyId) (symbol : Symbol) (realizedPnl : F)
  | recordOrderSent (now : ℤ)
  | resetDaily (now : ℤ)
  | setCurrentRegime (regime : DetailedRegime)
  | activateKillSwitch (now : ℤ)
  | deactivateKillSwitch
  | setFundingRate (rate : F)
  | setMinNotionalUsdt (value : F)
  | setReconciliationDesync (desync : Bool)
  | setWsDisconnected (disconnected : Bool)

def riskStep (cfg : ExtendedRiskConfig F) (e : ProductionRiskEngine F) :
    RiskOp F → ProductionRiskEngine F
  | .evaluate now provider request => (evaluate cfg e now provider request).1
  | .evaluatePosition now position portfolio features =>
    (evaluatePosition cfg e now position portfolio features).1
  | .recordTradeClose now strategyId symbol realizedPnl =>
    recordTradeClose cfg e strategyId symbol realizedPnl now
  | .recordOrderSent now => recordOrderSent e now
  | .resetDaily now => e.resetDaily now
  | .setCurrentRegime regime => setCurrentRegime cfg e regime
  | .activateKillSwitch now => activateKillSwitch e now
  | .deactivateKillSwitch => deactivateKillSwitch e
  | .setFundingRate rate => { e with currentFundingRate := rate }
  | .setMinNotionalUsdt value => { e with minNotionalUsdt := value }
  | .setReconciliationDesync desync => { e with reconciliationDesync := desync }
  | .setWsDisconnected disconnected => { e with wsDisconnected := disconnected }

end TB.RiskEngine
