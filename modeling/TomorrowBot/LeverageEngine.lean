import TomorrowBot.StrategyTypes
import TomorrowBot.DoubleFunctions

/-!
# The leverage engine

A base for the regime times six multipliers, bounded by half of the Kelly
fraction and smoothed over the calls, gives the leverage. The configuration
passes the section for futures of the validator.
-/

set_option autoImplicit false

namespace TB.Leverage
open TB.CommonTypes TB.StrategyTypes

structure LeverageEngineConfig (F : Type) where
  volLowAtr : F
  volMidAtr : F
  volHighAtr : F
  volExtremeAtr : F
  volFloor : F
  convictionMinMult : F
  convictionBreakpoint : F
  convictionMaxMult : F
  drawdownFloorMult : F
  drawdownHalfpointPct : F
  emaAlpha : F
  takerFeeRate : F

structure FuturesConfig (F : Type) where
  productType : String
  marginCoin : String
  marginMode : String
  defaultLeverage : ℤ
  maxLeverage : ℤ
  minLeverage : ℤ
  leverageTrending : ℤ
  leverageRanging : ℤ
  leverageVolatile : ℤ
  liquidationBufferPct : F
  fundingRateThreshold : F
  fundingRatePenalty : F
  maintenanceMarginRate : F
  leverageEngine : LeverageEngineConfig F

def defaultFuturesConfig {F : Type} [DoubleArith F] : FuturesConfig F where
  productType := "USDT-FUTURES"
  marginCoin := "USDT"
  marginMode := "isolated"
  defaultLeverage := 5
  maxLeverage := 20
  minLeverage := 1
  leverageTrending := 10
  leverageRanging := 5
  leverageVolatile := 3
  liquidationBufferPct := 5.0
  fundingRateThreshold := 0.0005
  fundingRatePenalty := 0.5
  maintenanceMarginRate := 0.004
  leverageEngine := {
    volLowAtr := 0.001
    volMidAtr := 0.003
    volHighAtr := 0.008
    volExtremeAtr := 0.02
    volFloor := 0.10
    convictionMinMult := 0.40
    convictionBreakpoint := 0.70
    convictionMaxMult := 1.30
    drawdownFloorMult := 0.10
    drawdownHalfpointPct := 10.0
    emaAlpha := 0.3
    takerFeeRate := 0.0006 }

section Validation
variable {F : Type} [DoubleArith F] (toText : F → String) (cfg : FuturesConfig F)

def errorIf (c : Prop) [Decidable c] (text : String) : List String := if c then [text] else []

def checkRegimeLeverage (lev : ℤ) (name : String) : List String :=
  errorIf (lev < 1 ∨ cfg.maxLeverage < lev)
    s!"futures.{name} ({lev}) вне допустимого диапазона [1, {cfg.maxLeverage}]"

def validateLeverageEngine (le : LeverageEngineConfig F) : List String :=
  errorIf (le.volLowAtr ≤ 0.0 ∨ le.volMidAtr ≤ le.volLowAtr ∨ le.volHighAtr ≤ le.volMidAtr ∨
      le.volExtremeAtr ≤ le.volHighAtr)
    ("futures.leverage_engine.vol_*: breakpoints не упорядочены: " ++ toText le.volLowAtr ++
      " < " ++ toText le.volMidAtr ++ " < " ++ toText le.volHighAtr ++ " < " ++
      toText le.volExtremeAtr ++ " требуется") ++
  errorIf (le.volFloor ≤ 0.0 ∨ 1.0 < le.volFloor)
    ("futures.leverage_engine.vol_floor " ++ toText le.volFloor ++ " вне (0, 1]") ++
  errorIf (le.convictionMinMult < 0.0 ∨ 1.0 < le.convictionMinMult)
    ("futures.leverage_engine.conviction_min_mult " ++ toText le.convictionMinMult ++
      " вне [0, 1]") ++
  errorIf (le.convictionBreakpoint ≤ 0.0 ∨ 1.0 ≤ le.convictionBreakpoint)
    ("futures.leverage_engine.conviction_breakpoint " ++ toText le.convictionBreakpoint ++
      " вне (0, 1)") ++
  errorIf (le.convictionMaxMult < 1.0 ∨ 3.0 < le.convictionMaxMult)
    ("futures.leverage_engine.conviction_max_mult " ++ toText le.convictionMaxMult ++
      " вне [1, 3]") ++
  errorIf (le.drawdownFloorMult < 0.0 ∨ 1.0 < le.drawdownFloorMult)
    ("futures.leverage_engine.drawdown_floor_mult " ++ toText le.drawdownFloorMult ++
      " вне [0, 1]") ++
  errorIf (le.drawdownHalfpointPct ≤ 0.0)
    ("futures.leverage_engine.drawdown_halfpoint_pct " ++ toText le.drawdownHalfpointPct ++
      " должен быть > 0") ++
  errorIf (le.emaAlpha ≤ 0.0 ∨ 1.0 < le.emaAlpha)
    ("futures.leverage_engine.ema_alpha " ++ toText le.emaAlpha ++ " вне (0, 1]") ++
  errorIf (le.takerFeeRate < 0.0 ∨ 0.01 < le.takerFeeRate)
    ("futures.leverage_engine.taker_fee_rate " ++ toText le.takerFeeRate ++ " вне [0, 0.01]")

def validateFutures : List String :=
  errorIf (cfg.productType ≠ "USDT-FUTURES")
    s!"futures.product_type '{cfg.productType}' недопустим; бот поддерживает только USDT-FUTURES" ++
  errorIf (cfg.marginMode ≠ "isolated" ∧ cfg.marginMode ≠ "crossed")
    s!"futures.margin_mode '{cfg.marginMode}' неизвестен; допустимые: isolated, crossed" ++
  errorIf (cfg.marginCoin = "") "futures.margin_coin не может быть пустым" ++
  errorIf (cfg.defaultLeverage < 1 ∨ 125 < cfg.defaultLeverage)
    s!"futures.default_leverage {cfg.defaultLeverage} вне допустимого диапазона [1, 125]" ++
  errorIf (cfg.maxLeverage < 1 ∨ 125 < cfg.maxLeverage)
    s!"futures.max_leverage {cfg.maxLeverage} вне допустимого диапазона [1, 125]" ++
  errorIf (cfg.maxLeverage < cfg.defaultLeverage)
    (s!"futures.default_leverage ({cfg.defaultLeverage}) не может превышать " ++
      s!"max_leverage ({cfg.maxLeverage})") ++
  errorIf (cfg.minLeverage < 1 ∨ cfg.maxLeverage < cfg.minLeverage)
    (s!"futures.min_leverage ({cfg.minLeverage}) вне допустимого диапазона " ++
      s!"[1, {cfg.maxLeverage}]") ++
  errorIf (cfg.defaultLeverage < cfg.minLeverage)
    (s!"futures.min_leverage ({cfg.minLeverage}) не может превышать " ++
      s!"default_leverage ({cfg.defaultLeverage})") ++
  checkRegimeLeverage cfg cfg.leverageTrending "leverage_trending" ++
  checkRegimeLeverage cfg cfg.leverageRanging "leverage_ranging" ++
  checkRegimeLeverage cfg cfg.leverageVolatile "leverage_volatile" ++
  errorIf (cfg.liquidationBufferPct ≤ 0.0 ∨ 50.0 < cfg.liquidationBufferPct)
    ("futures.liquidation_buffer_pct " ++ toText cfg.liquidationBufferPct ++
      " вне допустимого диапазона (0, 50]") ++
  errorIf (cfg.fundingRateThreshold ≤ 0.0 ∨ 0.1 < cfg.fundingRateThreshold)
    ("futures.funding_rate_threshold " ++ toText cfg.fundingRateThreshold ++
      " вне допустимого диапазона (0, 0.1]") ++
  errorIf (cfg.fundingRatePenalty < 0.0 ∨ 1.0 < cfg.fundingRatePenalty)
    ("futures.funding_rate_penalty " ++ toText cfg.fundingRatePenalty ++
      " вне допустимого диапазона [0, 1]") ++
  errorIf (cfg.maintenanceMarginRate ≤ 0.0 ∨ 0.1 < cfg.maintenanceMarginRate)
    ("futures.maintenance_margin_rate " ++ toText cfg.maintenanceMarginRate ++
      " вне допустимого диапазона (0, 0.1]") ++
  validateLeverageEngine toText cfg.leverageEngine

end Validation

section Multipliers
variable {F : Type} [DoubleExp F] (cfg : FuturesConfig F)

def lerp (a b t : F) : F := a + (b - a) * stdClamp t 0.0 1.0

def baseLeverageForRegime : RegimeLabel → ℤ
  | .trending => cfg.leverageTrending
  | .ranging => cfg.leverageRanging
  | .volatile => cfg.leverageVolatile
  | .unclear => cfg.defaultLeverage

def volatilityMultiplier (atrNormalized : F) : F :=
  let lc := cfg.leverageEngine
  if atrNormalized ≤ lc.volLowAtr then 1.0
  else if atrNormalized ≤ lc.volMidAtr then
    lerp 1.0 0.7 ((atrNormalized - lc.volLowAtr) / (lc.volMidAtr - lc.volLowAtr))
  else if atrNormalized ≤ lc.volHighAtr then
    lerp 0.7 0.4 ((atrNormalized - lc.volMidAtr) / (lc.volHighAtr - lc.volMidAtr))
  else if atrNormalized ≤ lc.volExtremeAtr then
    lerp 0.4 0.20 ((atrNormalized - lc.volHighAtr) / (lc.volExtremeAtr - lc.volHighAtr))
  else lerp 0.20 lc.volFloor (stdMin 1.0 ((atrNormalized - lc.volExtremeAtr) / 0.04))

def drawdownMultiplier (drawdownPct : F) : F :=
  let floor := cfg.leverageEngine.drawdownFloorMult
  let range := 1.0 - floor
  let scale := 0.5493
  if drawdownPct ≤ 0.0 then 1.0
  else
    let normalizedDd := drawdownPct / cfg.leverageEngine.drawdownHalfpointPct
    stdClamp (floor + range * (1.0 - DoubleExp.tanh (scale * normalizedDd))) floor 1.0

def convictionMultiplier (conviction : F) : F :=
  let lc := cfg.leverageEngine
  let conviction := stdClamp conviction 0.0 1.0
  if conviction ≤ lc.convictionBreakpoint then
    lerp lc.convictionMinMult 1.00 (conviction / lc.convictionBreakpoint)
  else
    lerp 1.00 lc.convictionMaxMult
      ((conviction - lc.convictionBreakpoint) / (1.0 - lc.convictionBreakpoint))

def fundingMultiplier (fundingRate : F) (side : PositionSide) : F :=
  let absRate := stdAbs fundingRate
  let paying := (side = .long ∧ 0.0 < fundingRate) ∨ (side = .short ∧ fundingRate < 0.0)
  if absRate < cfg.fundingRateThreshold then 1.0
  else if ¬ paying then 1.0
  else
    let excess := (absRate - cfg.fundingRateThreshold) / cfg.fundingRateThreshold
    let k := -DoubleExp.log (1.0 - stdClamp cfg.fundingRatePenalty 0.01 0.95)
    stdMax 0.15 (DoubleExp.exp (-k * excess))

def adversarialMultiplier (severity : F) : F :=
  if isfinite severity then lerp 1.0 0.15 (stdClamp severity 0.0 1.0) else 1.0

def uncertaintyMultiplier : UncertaintyLevel → F
  | .low | .moderate | .high => 1.0
  | .extreme => 0.6

end Multipliers

structure LeverageContext (F : Type) where
  regime : RegimeLabel
  uncertainty : UncertaintyLevel
  atrNormalized : F
  drawdownPct : F
  adversarialSeverity : F
  conviction : F
  fundingRate : F
  positionSide : PositionSide
  entryPrice : F

structure LeverageDecision (F : Type) where
  leverage : ℤ
  liquidationPrice : F
  liquidationBufferPct : F
  isSafe : Bool
  rationale : String
  baseLeverage : ℤ
  volatilityFactor : F
  drawdownFactor : F
  convictionFactor : F
  fundingFactor : F
  adversarialFactor : F
  uncertaintyFactor : F

structure LeverageEngine (F : Type) where
  config : FuturesConfig F
  winRate : F
  winLossRatio : F
  emaLeverage : F
  emaInitialized : Bool
  lastRegime : RegimeLabel

structure LiquidationParams (F : Type) where
  entryPrice : F
  positionSide : PositionSide
  leverage : ℤ
  maintenanceMarginRate : F
  takerFeeRate : F

section Engine
variable {F : Type} [DoubleExp F]

def newEngine (cfg : FuturesConfig F) : LeverageEngine F where
  config := cfg
  winRate := 0.50
  winLossRatio := 1.5
  emaLeverage := 0.0
  emaInitialized := false
  lastRegime := .unclear

def updateEdgeStats (e : LeverageEngine F) (winRate winLossRatio : F) : LeverageEngine F :=
  { e with winRate := stdClamp winRate 0.01 0.99, winLossRatio := stdMax 0.01 winLossRatio }

def kellyMaxLeverage (e : LeverageEngine F) : F :=
  let minLeverage : F := ofInt (max 1 e.config.minLeverage)
  let fullKelly := (e.winLossRatio * e.winRate - (1.0 - e.winRate)) / e.winLossRatio
  if fullKelly ≤ 0.0 then minLeverage
  else
    stdClamp (fullKelly * 0.5 * ofInt e.config.maxLeverage) minLeverage
      (ofInt e.config.maxLeverage)

def computeLiquidationPrice (p : LiquidationParams F) : F :=
  let invLev := 1.0 / ofInt p.leverage
  let longLiq := p.entryPrice * (1.0 - invLev + p.maintenanceMarginRate + p.takerFeeRate)
  let shortLiq := p.entryPrice * (1.0 + invLev - p.maintenanceMarginRate - p.takerFeeRate)
  if p.leverage ≤ 0 ∨ p.entryPrice ≤ 0.0 then 0.0
  else if p.positionSide = .long then if p.entryPrice ≤ longLiq then 0.0 else longLiq
  else if shortLiq ≤ p.entryPrice then 0.0
  else shortLiq

def isLiquidationSafe (currentPrice liquidationPrice : F) (positionSide : PositionSide)
    (bufferPct : F) : Bool :=
  let distancePct :=
    if positionSide = .long then (currentPrice - liquidationPrice) / currentPrice * 100.0
    else (liquidationPrice - currentPrice) / currentPrice * 100.0
  if currentPrice ≤ 0.0 ∨ liquidationPrice ≤ 0.0 then false else decide (bufferPct ≤ distancePct)

def clampInt (v lo hi : ℤ) : ℤ := if v < lo then lo else if hi < v then hi else v

def regimeName : RegimeLabel → String
  | .trending => "trending"
  | .ranging => "ranging"
  | .volatile => "volatile"
  | .unclear => "unclear"

def composite (d : LeverageDecision F) : F :=
  ofInt d.baseLeverage * d.volatilityFactor * d.drawdownFactor * d.convictionFactor *
    d.fundingFactor * d.adversarialFactor * d.uncertaintyFactor

def smooth (e : LeverageEngine F) (regime : RegimeLabel) (raw : F) : F :=
  let alpha := e.config.leverageEngine.emaAlpha
  if e.emaInitialized = true ∧ regime = e.lastRegime then
    alpha * raw + (1.0 - alpha) * e.emaLeverage
  else raw

def factors (cfg : FuturesConfig F) (ctx : LeverageContext F) : LeverageDecision F where
  leverage := 1
  liquidationPrice := 0.0
  liquidationBufferPct := 0.0
  isSafe := true
  rationale := ""
  baseLeverage := baseLeverageForRegime cfg ctx.regime
  volatilityFactor := volatilityMultiplier cfg ctx.atrNormalized
  drawdownFactor := drawdownMultiplier cfg ctx.drawdownPct
  convictionFactor := convictionMultiplier cfg ctx.conviction
  fundingFactor := fundingMultiplier cfg ctx.fundingRate ctx.positionSide
  adversarialFactor := adversarialMultiplier ctx.adversarialSeverity
  uncertaintyFactor := uncertaintyMultiplier ctx.uncertainty

def withLiquidation (cfg : FuturesConfig F) (ctx : LeverageContext F) (d : LeverageDecision F) :
    LeverageDecision F :=
  if 0.0 < ctx.entryPrice then
    let price := computeLiquidationPrice {
      entryPrice := ctx.entryPrice
      positionSide := ctx.positionSide
      leverage := d.leverage
      maintenanceMarginRate := cfg.maintenanceMarginRate
      takerFeeRate := cfg.leverageEngine.takerFeeRate }
    { d with
      liquidationPrice := price
      isSafe := isLiquidationSafe ctx.entryPrice price ctx.positionSide cfg.liquidationBufferPct
      liquidationBufferPct :=
        if 0.0 < price then stdAbs (ctx.entryPrice - price) / ctx.entryPrice * 100.0
        else d.liquidationBufferPct }
  else d

def rationale (fixed : ℕ → F → String) (regime : RegimeLabel) (kellyCap ema : F)
    (d : LeverageDecision F) : String :=
  s!"regime={regimeName regime} base={d.baseLeverage}" ++
  " vol×" ++ fixed 2 d.volatilityFactor ++ " dd×" ++ fixed 2 d.drawdownFactor ++
  " conv×" ++ fixed 2 d.convictionFactor ++ " fund×" ++ fixed 2 d.fundingFactor ++
  " adv×" ++ fixed 2 d.adversarialFactor ++ " unc×" ++ fixed 2 d.uncertaintyFactor ++
  " kelly_cap=" ++ fixed 1 kellyCap ++ " ema=" ++ fixed 2 ema ++ s!" → lev={d.leverage}" ++
  if d.isSafe then "" else " [UNSAFE: liq_buffer=" ++ fixed 1 d.liquidationBufferPct ++ "%]"

def computeLeverage (fixed : ℕ → F → String) (e : LeverageEngine F) (ctx : LeverageContext F) :
    LeverageEngine F × LeverageDecision F :=
  let d := factors e.config ctx
  let kellyCap := kellyMaxLeverage e
  let ema := smooth e ctx.regime (stdMin (composite d) kellyCap)
  let d := { d with
    leverage := clampInt (toInt (stdRound ema)) (max 1 e.config.minLeverage)
      e.config.maxLeverage }
  let d := withLiquidation e.config ctx d
  ({ e with emaLeverage := ema, emaInitialized := true, lastRegime := ctx.regime },
    { d with rationale := rationale fixed ctx.regime kellyCap ema d })

inductive LeverageOp (F : Type) where
  | updateEdgeStats (winRate winLossRatio : F)
  | computeLeverage (ctx : LeverageContext F)

def leverageStep (fixed : ℕ → F → String) (e : LeverageEngine F) :
    LeverageOp F → LeverageEngine F × Option (LeverageDecision F)
  | .updateEdgeStats winRate winLossRatio => (updateEdgeStats e winRate winLossRatio, none)
  | .computeLeverage ctx =>
    let r := computeLeverage fixed e ctx
    (r.1, some r.2)

end Engine

end TB.Leverage
