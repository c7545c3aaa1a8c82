import TomorrowBot.StrategyTypes
import TomorrowBot.DoubleFunctions

/-!
# Sizing by the portfolio allocator

A fixed share of the capital as margin gives the target size; limits,
multipliers and caps follow one after another, and the filters of the exchange
round what is left. A step that fails ends the sizing with its reason.
-/

set_option autoImplicit false

namespace TB.PortfolioAllocator
open TB.CommonTypes TB.TradingContext TB.StrategyTypes

structure BudgetHierarchy (F : Type) where
  globalBudget : F
  symbolBudgetPct : F

structure ExchangeFilters (F : Type) where
  minQuantity : F
  maxQuantity : F
  quantityStep : F
  minNotional : F
  takerFeePct : F

structure AllocationContext (F : Type) where
  realizedVolAnnual : F
  regime : DetailedRegime
  winRate : F
  avgWinLossRatio : F
  avgDailyVolume : F
  bookDepthNotional : F
  currentDrawdownPct : F
  maxLossPerTradePct : F
  estimatedStopDistancePct : F
  exchangeFilters : Option (ExchangeFilters F)

structure ConstraintDecision (F : Type) where
  constraintName : String
  limitValue : F
  inputValue : F
  outputValue : F
  wasBinding : Bool
  details : String

structure Allocation (F : Type) extends SizingResult F where
  sizeAsPctOfCapital : F
  wasReduced : Bool
  reductionReason : String
  approved : Bool
  constraintAudit : List (ConstraintDecision F)
  feeAdjustedNotional : F
  expectedFee : F

structure FundedSnapshot (F : Type) extends PortfolioSnapshot F where
  availableCapital : F

structure AllocatorConfig (F : Type) where
  maxConcentrationPct : F
  maxStrategyAllocationPct : F
  budget : BudgetHierarchy F
  targetAnnualVol : F
  maxLeverage : F
  kellyFraction : F
  minSizeMultiplier : F
  maxSizeMultiplier : F
  drawdownScaleStartPct : F
  drawdownScaleMaxPct : F
  drawdownMinSizeFraction : F
  maxAdvParticipationPct : F
  maxBookParticipationPct : F
  marginPerTradePct : F
  targetLeverageMultiplier : F
  targetLeverageFloor : F

def defaultAllocatorConfig {F : Type} [DoubleArith F] : AllocatorConfig F where
  maxConcentrationPct := 0.2
  maxStrategyAllocationPct := 0.3
  budget := ⟨10000.0, 0.1⟩
  targetAnnualVol := 0.15
  maxLeverage := 1.0
  kellyFraction := 0.25
  minSizeMultiplier := 0.1
  maxSizeMultiplier := 2.0
  drawdownScaleStartPct := 5.0
  drawdownScaleMaxPct := 15.0
  drawdownMinSizeFraction := 0.1
  maxAdvParticipationPct := 0.02
  maxBookParticipationPct := 0.10
  marginPerTradePct := 0.05
  targetLeverageMultiplier := 0.5
  targetLeverageFloor := 10.0

section Limits
variable {F : Type} [DoubleRounding F] (cfg : AllocatorConfig F) (intent : StrategyIntent F)
  (portfolio : FundedSnapshot F) (ctx : AllocationContext F)

def kDefaultTakerFeePct : F := 0.0006

def computeEffectiveAvailableNotional : F :=
  let capitalBase :=
    if 0.0 < portfolio.availableCapital then portfolio.availableCapital
    else portfolio.totalCapital
  capitalBase * stdMax (cfg.maxLeverage * 0.8) 1.0

def computeBudgetLimit : F :=
  let effectiveCapital :=
    if 0.0 < portfolio.totalCapital then portfolio.totalCapital * cfg.maxLeverage
    else cfg.budget.globalBudget
  effectiveCapital * cfg.budget.symbolBudgetPct

def computeConcentrationLimit : F :=
  portfolio.totalCapital * cfg.maxLeverage * cfg.maxConcentrationPct

def computeStrategyLimit : F :=
  let existing := portfolio.positions.foldl
    (fun sum pos => if pos.strategyId = intent.strategyId then sum + pos.notional else sum) 0.0
  let maxStrategyNotional :=
    portfolio.totalCapital * cfg.maxLeverage * cfg.maxStrategyAllocationPct
  stdMax (maxStrategyNotional - existing) 0.0

def computeRegimeMultiplier : DetailedRegime → F
  | .strongUptrend | .strongDowntrend => 1.0
  | .weakUptrend | .weakDowntrend => 0.8
  | .meanReversion => 0.7
  | .volatilityExpansion => 0.5
  | .lowVolCompression => 0.6
  | .chop => 0.3
  | .liquidityStress | .spreadInstability => 0.2
  | .anomalyEvent | .toxicFlow => 0.1
  | .undefined => 0.5

def computeVolatilityMultiplier : F :=
  let p := stdClamp ctx.winRate 0.0 1.0
  let b := ctx.avgWinLossRatio
  let kellyFull := if 0.0 < b then stdMax ((p * b - (1.0 - p)) / b) 0.0 else 0.0
  let kellyAdj := if 0.0 < kellyFull then cfg.kellyFraction * kellyFull else 0.0
  if ctx.realizedVolAnnual ≤ 0.0 then 1.0
  else if kellyAdj ≤ 0.0 then 0.0
  else
    let combined := cfg.targetAnnualVol / ctx.realizedVolAnnual * stdMax kellyAdj 0.1 *
      computeRegimeMultiplier ctx.regime
    stdClamp (stdMin combined cfg.maxLeverage) cfg.minSizeMultiplier cfg.maxSizeMultiplier

def computeDrawdownScale (currentDrawdownPct : F) : F :=
  let range := cfg.drawdownScaleMaxPct - cfg.drawdownScaleStartPct
  if currentDrawdownPct ≤ cfg.drawdownScaleStartPct then 1.0
  else if cfg.drawdownScaleMaxPct ≤ currentDrawdownPct then cfg.drawdownMinSizeFraction
  else if range < 1e-9 then
    if cfg.drawdownScaleStartPct < currentDrawdownPct then cfg.drawdownMinSizeFraction else 1.0
  else
    let progress := (currentDrawdownPct - cfg.drawdownScaleStartPct) / range
    1.0 - progress * (1.0 - cfg.drawdownMinSizeFraction)

def computeLiquidityCap : F :=
  let cap := maxDouble
  let cap :=
    if 0.0 < ctx.avgDailyVolume then
      stdMin cap (ctx.avgDailyVolume * cfg.maxAdvParticipationPct)
    else cap
  if 0.0 < ctx.bookDepthNotional then
    stdMin cap (ctx.bookDepthNotional * cfg.maxBookParticipationPct)
  else cap

def takerFeePct : F :=
  match ctx.exchangeFilters with
  | some filters => filters.takerFeePct
  | none => kDefaultTakerFeePct

def roundTripFeePct : F := takerFeePct ctx * 2.0 * 100.0

def estimatedTotalLossPct : F := ctx.estimatedStopDistancePct + roundTripFeePct ctx

def maxLossAbs : F := portfolio.totalCapital * (ctx.maxLossPerTradePct / 100.0)

def riskCapApplies : Bool :=
  decide (0.0 < portfolio.totalCapital) && decide (0.0 < ctx.maxLossPerTradePct) &&
    decide (0.0 < ctx.estimatedStopDistancePct)

def maxNotionalFromRisk : Option F :=
  if 0.0 < estimatedTotalLossPct ctx ∧ 0.0 < maxLossAbs portfolio ctx then
    some (maxLossAbs portfolio ctx / (estimatedTotalLossPct ctx / 100.0))
  else none

def targetQuantity (price : F) : F :=
  let marginPerTrade := portfolio.totalCapital * cfg.marginPerTradePct
  let targetLeverage := stdMax (cfg.maxLeverage * cfg.targetLeverageMultiplier)
    cfg.targetLeverageFloor
  let qty := marginPerTrade * targetLeverage / price
  if qty < intent.suggestedQuantity then intent.suggestedQuantity else qty

end Limits

structure Draft (F : Type) where
  qty : F
  result : Allocation F

section Steps
variable {F : Type} [DoubleRounding F] (toText : F → String)

def emptyAllocation : Allocation F where
  approvedQuantity := 0.0
  approvedNotional := 0.0
  sizeAsPctOfCapital := 0.0
  wasReduced := false
  reductionReason := ""
  approved := true
  constraintAudit := []
  feeAdjustedNotional := 0.0
  expectedFee := 0.0

def reject (result : Allocation F) (reason : String) : Allocation F :=
  { result with approved := false, reductionReason := reason }

def orReason (reason new : String) : String := if reason = "" then new else reason

def limitStep (name exhausted exceeded : String) (limit price : F) (d : Draft F) :
    Except (Allocation F) (Draft F) :=
  let before := d.qty * price
  let qty := if limit < before then limit / price else d.qty
  if limit ≤ 0.0 then .error (reject d.result exhausted)
  else .ok {
    qty := qty
    result := {
      d.result with
      wasReduced := d.result.wasReduced || decide (limit < before)
      reductionReason := if limit < before then exceeded else d.result.reductionReason
      constraintAudit := d.result.constraintAudit ++
        [⟨name, limit, before, qty * price, decide (limit < before), ""⟩] } }

def recapStep (limit price : F) (d : Draft F) : Draft F :=
  if limit < d.qty * price then
    { qty := limit / price, result := { d.result with wasReduced := true } }
  else d

def uncertaintyStep (uncertaintySizeMultiplier : F) (d : Draft F) : Draft F :=
  let multiplier := stdClamp uncertaintySizeMultiplier 0.0 1.0
  if multiplier < 1.0 then
    { qty := d.qty * multiplier
      result := {
        d.result with
        wasReduced := true
        reductionReason := orReason d.result.reductionReason
          "Уменьшен из-за неопределённости" } }
  else d

def volatilityStep (volMultiplier : F) (d : Draft F) : Draft F :=
  if 0.01 < stdAbs (volMultiplier - 1.0) then
    { qty := d.qty * volMultiplier
      result := {
        d.result with
        wasReduced := decide (volMultiplier < 1.0) || d.result.wasReduced
        reductionReason :=
          if volMultiplier < 1.0 then
            orReason d.result.reductionReason
              ("Volatility targeting: размер × " ++ toText volMultiplier)
          else d.result.reductionReason } }
  else d

def drawdownStep (currentDrawdownPct ddScale : F) (d : Draft F) : Draft F :=
  let qty := if ddScale < 1.0 then d.qty * ddScale else d.qty
  { qty := qty
    result := {
      d.result with
      wasReduced := d.result.wasReduced || decide (ddScale < 1.0)
      reductionReason :=
        if ddScale < 1.0 then
          orReason d.result.reductionReason ("Drawdown scaling: ×" ++ toText ddScale)
        else d.result.reductionReason
      constraintAudit := d.result.constraintAudit ++
        [⟨"drawdown_scaling", ddScale, d.qty, qty, decide (ddScale < 1.0),
          if ddScale < 1.0 then
            "drawdown=" ++ toText currentDrawdownPct ++ "% scale=" ++ toText ddScale
          else ""⟩] } }

def liquidityStep (ctx : AllocationContext F) (liqCap price : F) (d : Draft F) : Draft F :=
  let before := d.qty * price
  let binding := liqCap < maxDouble ∧ liqCap < before
  let qty := if binding then liqCap / price else d.qty
  { qty := qty
    result := {
      d.result with
      wasReduced := d.result.wasReduced || decide binding
      reductionReason :=
        if binding then orReason d.result.reductionReason "Liquidity cap"
        else d.result.reductionReason
      constraintAudit := d.result.constraintAudit ++
        [⟨"liquidity_cap", liqCap, before, qty * price, decide binding,
          if binding then
            "adv=" ++ toText ctx.avgDailyVolume ++ " book=" ++ toText ctx.bookDepthNotional
          else ""⟩] } }

def capitalStep (maxFromCapital price : F) (d : Draft F) : Except (Allocation F) (Draft F) :=
  if maxFromCapital ≤ 0.0 then .error (reject d.result "Доступный капитал исчерпан")
  else if maxFromCapital < d.qty * price then
    .ok {
      qty := maxFromCapital / price
      result := {
        d.result with
        wasReduced := true
        reductionReason := "Ограничен доступным капиталом" } }
  else .ok d

def riskStep (portfolio : FundedSnapshot F) (ctx : AllocationContext F) (price : F)
    (d : Draft F) : Draft F :=
  let before := d.qty * price
  let cap := maxNotionalFromRisk portfolio ctx
  let qty :=
    match cap with
    | some c => if c < before then c / price else d.qty
    | none => d.qty
  let binding := cap.any (fun c => decide (c < before))
  if riskCapApplies portfolio ctx then
    { qty := qty
      result := {
        d.result with
        wasReduced := d.result.wasReduced || binding
        reductionReason :=
          if binding then "Ограничен риск-бюджетом сделки" else d.result.reductionReason
        constraintAudit := d.result.constraintAudit ++
          [⟨"capital_risk_cap", maxLossAbs portfolio ctx, before, qty * price, binding,
            "stop_pct=" ++ toText ctx.estimatedStopDistancePct ++
              " fee_pct=" ++ toText (roundTripFeePct ctx) ++
              " max_loss_pct=" ++ toText ctx.maxLossPerTradePct⟩] } }
  else d

def maxAffordableNotional (cfg : AllocatorConfig F) (portfolio : FundedSnapshot F)
    (ctx : AllocationContext F) : F :=
  let maxFromCapital := computeEffectiveAvailableNotional cfg portfolio
  if riskCapApplies portfolio ctx then
    match maxNotionalFromRisk portfolio ctx with
    | some c => stdMin maxFromCapital c
    | none => maxFromCapital
  else maxFromCapital

def sizeDraft (cfg : AllocatorConfig F) (intent : StrategyIntent F) (portfolio : FundedSnapshot F)
    (ctx : AllocationContext F) (uncertaintySizeMultiplier price : F) :
    Except (Allocation F) (Draft F) := do
  let budgetLimit := computeBudgetLimit cfg portfolio
  let concentrationLimit := computeConcentrationLimit cfg portfolio
  let strategyLimit := computeStrategyLimit cfg intent portfolio
  let qty := targetQuantity cfg intent portfolio price
  if qty ≤ 0.0 then throw (reject emptyAllocation "Нулевой объём (capital=0?)")
  let d ← limitStep "budget_limit" "Бюджетный лимит исчерпан" "Превышен бюджетный лимит"
    budgetLimit price ⟨qty, emptyAllocation⟩
  let d ← limitStep "concentration_limit" "Лимит концентрации исчерпан"
    "Превышен лимит концентрации" concentrationLimit price d
  let d ← limitStep "strategy_limit" "Лимит стратегии исчерпан" "Превышен лимит стратегии"
    strategyLimit price d
  let d := uncertaintyStep uncertaintySizeMultiplier d
  let d := volatilityStep toText (computeVolatilityMultiplier cfg ctx) d
  let d := recapStep strategyLimit price (recapStep concentrationLimit price
    (recapStep budgetLimit price d))
  let d := drawdownStep toText ctx.currentDrawdownPct
    (computeDrawdownScale cfg ctx.currentDrawdownPct) d
  let d := liquidityStep toText ctx (computeLiquidityCap cfg ctx) price d
  let d ← capitalStep (computeEffectiveAvailableNotional cfg portfolio) price d
  let d := riskStep toText portfolio ctx price d
  return { d with qty := stdMax d.qty 0.0 }

def roundQuantityDown (qty : F) (filters : ExchangeFilters F) : F :=
  if filters.quantityStep ≤ 0.0 then qty
  else stdFloor (qty / filters.quantityStep) * filters.quantityStep

def minQtyForNotional (price : F) (filters : ExchangeFilters F) : F :=
  let step := stdMax filters.quantityStep 1e-15
  stdCeil (filters.minNotional / price / step) * step

def applyExchangeFilters (price : F) (filters : ExchangeFilters F) (maxAffordable : F)
    (d : Draft F) : Except (Allocation F) (Draft F) := do
  let rounded := roundQuantityDown d.qty filters
  if 0.0 < filters.maxQuantity ∧ filters.maxQuantity < filters.minQuantity then
    throw (reject d.result "Инвертированные фильтры биржи: min_qty > max_qty")
  if rounded < filters.minQuantity ∧ ¬ filters.minQuantity * price ≤ maxAffordable then
    throw (reject d.result "Минимальный объём биржи превышает допустимый риск сделки")
  let raised := if rounded < filters.minQuantity then filters.minQuantity else rounded
  let clamped :=
    if 0.0 < filters.maxQuantity ∧ filters.maxQuantity < raised then filters.maxQuantity
    else raised
  let minimal := minQtyForNotional price filters
  let fits := minimal * price ≤ maxAffordable ∧
    (filters.maxQuantity ≤ 0.0 ∨ minimal ≤ filters.maxQuantity)
  if clamped * price < filters.minNotional ∧ ¬ fits then
    throw (reject d.result "Минимальный нотионал биржи превышает допустимый риск сделки")
  let qty := if clamped * price < filters.minNotional then minimal else clamped
  return {
    qty := qty
    result := {
      d.result with
      constraintAudit := d.result.constraintAudit ++
        [⟨"exchange_filters", filters.minQuantity, d.qty, qty,
          decide (1e-15 < stdAbs (qty - d.qty)),
          "step=" ++ toText filters.quantityStep ++ " min_qty=" ++ toText filters.minQuantity ++
            " min_notional=" ++ toText filters.minNotional⟩] } }

def finish (portfolio : FundedSnapshot F) (ctx : AllocationContext F) (price : F)
    (d : Draft F) : Allocation F :=
  let notional := d.qty * price
  let fee := notional * takerFeePct ctx
  { d.result with
    expectedFee := fee
    feeAdjustedNotional := notional + fee
    approvedQuantity := d.qty
    approvedNotional := notional
    sizeAsPctOfCapital :=
      if 0.0 < portfolio.totalCapital then notional / portfolio.totalCapital * 100.0 else 0.0
    approved := decide (0.0 < d.qty) }

def filterDraft (cfg : AllocatorConfig F) (portfolio : FundedSnapshot F)
    (ctx : AllocationContext F) (price : F) (d : Draft F) : Except (Allocation F) (Draft F) :=
  match ctx.exchangeFilters with
  | some filters =>
    applyExchangeFilters toText price filters (maxAffordableNotional cfg portfolio ctx) d
  | none => .error (reject d.result "Exchange filters отсутствуют — вход заблокирован")

def computeSizeV2 (cfg : AllocatorConfig F) (intent : StrategyIntent F)
    (portfolio : FundedSnapshot F) (ctx : AllocationContext F) (uncertaintySizeMultiplier : F) :
    Allocation F :=
  let price := intent.limitPrice.getD 0.0
  if price ≤ 0.0 then reject emptyAllocation "Отсутствует цена для расчёта нотионала"
  else
    match (do
      let d ← sizeDraft toText cfg intent portfolio ctx uncertaintySizeMultiplier price
      filterDraft toText cfg portfolio ctx price d) with
    | .error result => result
    | .ok d => finish portfolio ctx price d

end Steps

end TB.PortfolioAllocator
