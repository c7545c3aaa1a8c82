import Mathlib.Analysis.SpecialFunctions.Pow.Real
import TomorrowBot.RealArithmetic

/-!
# Opportunity decisions

Ten ordered rules over the net edge of a candidate and the state of the
portfolio. The rules that suppress come first, and each of them can only be left
by a better candidate or a smaller portfolio; so can the conditions that hold a
candidate back from its execution.
-/

set_option autoImplicit false

namespace TB.OpportunityCost
open TB.CommonTypes

class DoublePow (F : Type) where
  pow : F → F → F

noncomputable instance : DoublePow ℝ where
  pow := Real.rpow

structure OpportunityCostConfig (F : Type) where
  minNetExpectedBps : F
  executeMinNetBps : F
  highExposureThreshold : F
  highExposureMinConviction : F
  maxSymbolConcentration : F
  maxStrategyConcentration : F
  capitalExhaustionThreshold : F
  weightConviction : F
  weightNetEdge : F
  weightCapitalEfficiency : F
  weightUrgency : F
  convictionToBpsScale : F
  upgradeMinEdgeAdvantageBps : F
  drawdownPenaltyScale : F
  consecutiveLossPenalty : F

structure PortfolioContext (F : Type) where
  grossExposurePct : F
  currentDrawdownPct : F
  consecutiveLosses : ℤ
  symbolExposurePct : F
  strategyExposurePct : F
  hasWorstPosition : Bool
  worstPositionNetBps : F

structure Candidate (F : Type) where
  conviction : F
  urgency : F
  totalCostBps : F
  convictionThreshold : F

structure OpportunityScore (F : Type) where
  score : F
  expectedReturnBps : F
  executionCostBps : F
  netExpectedBps : F
  capitalEfficiency : F
  convictionComponent : F
  netEdgeComponent : F
  capitalEfficiencyComponent : F
  urgencyComponent : F

inductive OpportunityAction where
  | execute
  | defer
  | suppress
  | upgrade
  deriving DecidableEq

inductive OpportunityReason where
  | none
  | negativeNetEdge
  | convictionBelowThreshold
  | highExposureLowConviction
  | insufficientNetEdge
  | capitalExhausted
  | highConcentration
  | strongEdgeAvailable
  | highConvictionOverride
  | upgradeBetterCandidate
  | defaultDefer

structure OpportunityCostFactors (F : Type) where
  inputConviction : F
  inputUrgency : F
  inputExecutionCostBps : F
  inputExposurePct : F
  inputConvictionThreshold : F
  ruleId : ℕ
  reason : OpportunityReason
  wouldBeWithoutExposure : OpportunityAction
  concentrationLimited : Bool
  capitalLimited : Bool
  drawdownPenalized : Bool

structure OpportunityCostResult (F : Type) where
  score : OpportunityScore F
  action : OpportunityAction
  reason : OpportunityReason
  rank : ℕ
  budgetUtilization : F
  reasonCodes : List String
  factors : OpportunityCostFactors F

def OpportunityAction.toString : OpportunityAction → String
  | .execute => "Execute"
  | .defer => "Defer"
  | .suppress => "Suppress"
  | .upgrade => "Upgrade"

def OpportunityReason.toString : OpportunityReason → String
  | .none => "None"
  | .negativeNetEdge => "NegativeNetEdge"
  | .convictionBelowThreshold => "ConvictionBelowThreshold"
  | .highExposureLowConviction => "HighExposureLowConviction"
  | .insufficientNetEdge => "InsufficientNetEdge"
  | .capitalExhausted => "CapitalExhausted"
  | .highConcentration => "HighConcentration"
  | .strongEdgeAvailable => "StrongEdgeAvailable"
  | .highConvictionOverride => "HighConvictionOverride"
  | .upgradeBetterCandidate => "UpgradeBetterCandidate"
  | .defaultDefer => "DefaultDefer"

section Model
variable {F : Type} [DoubleRounding F] [DoublePow F]

def defaultConfig : OpportunityCostConfig F where
  minNetExpectedBps := 1.0
  executeMinNetBps := 3.0
  highExposureThreshold := 0.70
  highExposureMinConviction := 0.60
  maxSymbolConcentration := 0.25
  maxStrategyConcentration := 0.35
  capitalExhaustionThreshold := 0.85
  weightConviction := 0.35
  weightNetEdge := 0.35
  weightCapitalEfficiency := 0.15
  weightUrgency := 0.15
  convictionToBpsScale := 100.0
  upgradeMinEdgeAdvantageBps := 5.0
  drawdownPenaltyScale := 0.05
  consecutiveLossPenalty := 0.005

def OutsideUnit (x : F) : Prop := x ≤ 0.0 ∨ 1.0 < x

instance (x : F) : Decidable (OutsideUnit x) := inferInstanceAs (Decidable (_ ∨ _))

variable (cfg : OpportunityCostConfig F)

def totalWeight : F :=
  cfg.weightConviction + cfg.weightNetEdge + cfg.weightCapitalEfficiency + cfg.weightUrgency

def validateOpportunityCost (fixed3 : F → String) : List String :=
  let check (bad : Bool) (error : String) : List String := if bad then [error] else []
  check (cfg.executeMinNetBps < cfg.minNetExpectedBps)
      "opportunity_cost.execute_min_net_bps должен быть >= min_net_expected_bps" ++
    check (OutsideUnit cfg.highExposureThreshold)
      "opportunity_cost.high_exposure_threshold должен быть в (0, 1]" ++
    check (OutsideUnit cfg.highExposureMinConviction)
      "opportunity_cost.high_exposure_min_conviction должен быть в (0, 1]" ++
    check (OutsideUnit cfg.maxSymbolConcentration)
      "opportunity_cost.max_symbol_concentration должен быть в (0, 1]" ++
    check (OutsideUnit cfg.maxStrategyConcentration)
      "opportunity_cost.max_strategy_concentration должен быть в (0, 1]" ++
    check (OutsideUnit cfg.capitalExhaustionThreshold)
      "opportunity_cost.capital_exhaustion_threshold должен быть в (0, 1]" ++
    check (0.01 < stdAbs (totalWeight cfg - 1.0))
      ("opportunity_cost weights должны давать сумму 1.0, получено: " ++
        fixed3 (totalWeight cfg)) ++
    check (cfg.weightConviction < 0.0 || cfg.weightNetEdge < 0.0 ||
        cfg.weightCapitalEfficiency < 0.0 || cfg.weightUrgency < 0.0)
      "opportunity_cost weights не могут быть отрицательными" ++
    check (cfg.convictionToBpsScale ≤ 0.0)
      "opportunity_cost.conviction_to_bps_scale должен быть > 0" ++
    check (cfg.upgradeMinEdgeAdvantageBps < 0.0)
      "opportunity_cost.upgrade_min_edge_advantage_bps должен быть >= 0" ++
    check (cfg.drawdownPenaltyScale < 0.0)
      "opportunity_cost.drawdown_penalty_scale должен быть >= 0" ++
    check (cfg.consecutiveLossPenalty < 0.0)
      "opportunity_cost.consecutive_loss_penalty должен быть >= 0"

def computeScore (c : Candidate F) (ctx : PortfolioContext F) : OpportunityScore F :=
  if isfinite c.conviction = false then ⟨0.0, 0.0, 0.0, -0.0, 0.0, 0.0, 0.0, 0.0, 0.0⟩
  else
    let convictionPow := DoublePow.pow (stdClamp c.conviction 0.0 1.0) 1.5
    let expectedReturnBps := convictionPow * cfg.convictionToBpsScale
    let netExpectedBps := expectedReturnBps - c.totalCostBps
    let exposureFloor := stdMax ctx.grossExposurePct 0.05
    let capitalEfficiency := netExpectedBps / exposureFloor
    let convictionComponent := stdClamp c.conviction 0.0 1.0
    let netEdgeComponent := stdClamp (netExpectedBps / cfg.convictionToBpsScale) 0.0 1.0
    let capitalEfficiencyComponent :=
      stdClamp (capitalEfficiency / cfg.convictionToBpsScale) 0.0 1.0
    let urgencyComponent := stdClamp c.urgency 0.0 1.0
    { score := stdClamp (cfg.weightConviction * convictionComponent +
        cfg.weightNetEdge * netEdgeComponent +
        cfg.weightCapitalEfficiency * capitalEfficiencyComponent +
        cfg.weightUrgency * urgencyComponent) 0.0 1.0
      expectedReturnBps := expectedReturnBps
      executionCostBps := c.totalCostBps
      netExpectedBps := netExpectedBps
      capitalEfficiency := capitalEfficiency
      convictionComponent := convictionComponent
      netEdgeComponent := netEdgeComponent
      capitalEfficiencyComponent := capitalEfficiencyComponent
      urgencyComponent := urgencyComponent }

def effectiveConvictionThreshold (baseThreshold : F) (ctx : PortfolioContext F) : F :=
  let drawdownAdj :=
    if isfinite ctx.currentDrawdownPct = true ∧ 0.0 < ctx.currentDrawdownPct then
      0.0 + cfg.drawdownPenaltyScale * (ctx.currentDrawdownPct / 0.05)
    else 0.0
  let thresholdAdj :=
    if 0 < ctx.consecutiveLosses then
      drawdownAdj + stdMin (cfg.consecutiveLossPenalty * ofInt ctx.consecutiveLosses) 0.20
    else drawdownAdj
  stdClamp (baseThreshold + stdMin thresholdAdj 0.20) 0.0 0.95

def determineAction (score : OpportunityScore F) (ctx : PortfolioContext F)
    (conviction convictionThreshold : F) : OpportunityAction × OpportunityReason :=
  let effThreshold := effectiveConvictionThreshold cfg convictionThreshold ctx
  if score.netExpectedBps < cfg.minNetExpectedBps then (.suppress, .negativeNetEdge)
  else if conviction < effThreshold then (.suppress, .convictionBelowThreshold)
  else if cfg.capitalExhaustionThreshold < ctx.grossExposurePct then
    (.suppress, .capitalExhausted)
  else if cfg.maxSymbolConcentration < ctx.symbolExposurePct then
    (.suppress, .highConcentration)
  else if cfg.maxStrategyConcentration < ctx.strategyExposurePct then
    (.defer, .highConcentration)
  else if cfg.highExposureThreshold < ctx.grossExposurePct ∧
      conviction < cfg.highExposureMinConviction then
    (.defer, .highExposureLowConviction)
  else if ctx.hasWorstPosition = true ∧
      ctx.worstPositionNetBps + cfg.upgradeMinEdgeAdvantageBps < score.netExpectedBps then
    (.upgrade, .upgradeBetterCandidate)
  else if cfg.executeMinNetBps < score.netExpectedBps ∧
      ctx.grossExposurePct < cfg.highExposureThreshold then
    (.execute, .strongEdgeAvailable)
  else if cfg.highExposureMinConviction ≤ conviction ∧ 0.0 < score.netExpectedBps then
    (.execute, .highConvictionOverride)
  else if 0.0 < score.netExpectedBps then (.defer, .insufficientNetEdge)
  else (.defer, .defaultDefer)

def ruleId (action : OpportunityAction) : OpportunityReason → ℕ
  | .negativeNetEdge => 1
  | .convictionBelowThreshold => 2
  | .capitalExhausted => 3
  | .highConcentration => if action = .suppress then 4 else 5
  | .highExposureLowConviction => 6
  | .upgradeBetterCandidate => 7
  | .strongEdgeAvailable => 8
  | .highConvictionOverride => 9
  | .insufficientNetEdge => 10
  | .defaultDefer => 11
  | .none => 0

def counterfactual (score : OpportunityScore F) : OpportunityAction :=
  if cfg.executeMinNetBps ≤ score.netExpectedBps then .execute
  else if cfg.minNetExpectedBps ≤ score.netExpectedBps then .defer
  else .suppress

def buildFactors (c : Candidate F) (ctx : PortfolioContext F) (score : OpportunityScore F)
    (action : OpportunityAction) (reason : OpportunityReason) : OpportunityCostFactors F where
  inputConviction := c.conviction
  inputUrgency := c.urgency
  inputExecutionCostBps := c.totalCostBps
  inputExposurePct := ctx.grossExposurePct
  inputConvictionThreshold := effectiveConvictionThreshold cfg c.convictionThreshold ctx
  ruleId := ruleId action reason
  reason := reason
  wouldBeWithoutExposure := counterfactual cfg score
  concentrationLimited := cfg.maxSymbolConcentration < ctx.symbolExposurePct ||
    cfg.maxStrategyConcentration < ctx.strategyExposurePct
  capitalLimited := cfg.capitalExhaustionThreshold < ctx.grossExposurePct
  drawdownPenalized := (0.0 : F) < ctx.currentDrawdownPct

def evaluate (c : Candidate F) (ctx : PortfolioContext F) : OpportunityCostResult F :=
  let score := computeScore cfg c ctx
  let (action, reason) := determineAction cfg score ctx c.conviction c.convictionThreshold
  let factors := buildFactors cfg c ctx score action reason
  { score := score
    action := action
    reason := reason
    rank := 1
    budgetUtilization := ctx.grossExposurePct
    reasonCodes := [action.toString, reason.toString] ++
      (if factors.concentrationLimited then ["ConcentrationLimited"] else []) ++
      (if factors.capitalLimited then ["CapitalLimited"] else []) ++
      (if factors.drawdownPenalized then ["DrawdownPenalized"] else [])
    factors := factors }

end Model

def OpportunityAction.level : OpportunityAction → ℕ
  | .suppress => 0
  | .defer => 1
  | .execute => 2
  | .upgrade => 2

theorem level_le_two (action : OpportunityAction) : action.level ≤ 2 := by
  cases action <;> decide

section Accepted

def Accepted (cfg : OpportunityCostConfig ℝ) : Prop :=
  ∀ fixed3 : ℝ → String, validateOpportunityCost cfg fixed3 = []

structure Checked (cfg : OpportunityCostConfig ℝ) : Prop where
  execute : cfg.minNetExpectedBps ≤ cfg.executeMinNetBps
  highExposure : 0 < cfg.highExposureThreshold
  symbol : 0 < cfg.maxSymbolConcentration
  strategy : 0 < cfg.maxStrategyConcentration
  exhaustion : 0 < cfg.capitalExhaustionThreshold
  scale : 0 < cfg.convictionToBpsScale
  drawdown : 0 ≤ cfg.drawdownPenaltyScale
  losses : 0 ≤ cfg.consecutiveLossPenalty

theorem checked_of_accepted {cfg : OpportunityCostConfig ℝ} (h : Accepted cfg) : Checked cfg := by
  have herrors := h fun _ => ""
  simp only [validateOpportunityCost, List.append_eq_nil_iff, ite_eq_right_iff, decide_eq_true_eq,
    List.cons_ne_nil, imp_false, OutsideUnit, zero_real, one_real] at herrors
  constructor <;> grind

theorem default_accepted : Accepted (defaultConfig : OpportunityCostConfig ℝ) := by
  intro fixed3
  simp only [validateOpportunityCost, List.append_eq_nil_iff, ite_eq_right_iff, decide_eq_true_eq,
    List.cons_ne_nil, imp_false, OutsideUnit, zero_real, one_real, totalWeight, stdAbs,
    defaultConfig]
  norm_num

end Accepted

section Order
variable {cfg : OpportunityCostConfig ℝ} {c : Candidate ℝ} {ctx : PortfolioContext ℝ}

def Suppressed (cfg : OpportunityCostConfig ℝ) (net : ℝ) (ctx : PortfolioContext ℝ)
    (conviction effThreshold : ℝ) : Prop :=
  net < cfg.minNetExpectedBps ∨ conviction < effThreshold ∨
    cfg.capitalExhaustionThreshold < ctx.grossExposurePct ∨
    cfg.maxSymbolConcentration < ctx.symbolExposurePct

def Executed (cfg : OpportunityCostConfig ℝ) (net : ℝ) (ctx : PortfolioContext ℝ)
    (conviction : ℝ) : Prop :=
  ¬ cfg.maxStrategyConcentration < ctx.strategyExposurePct ∧
    ¬ (cfg.highExposureThreshold < ctx.grossExposurePct ∧
      conviction < cfg.highExposureMinConviction) ∧
    ((ctx.hasWorstPosition = true ∧
        ctx.worstPositionNetBps + cfg.upgradeMinEdgeAdvantageBps < net) ∨
      (cfg.executeMinNetBps < net ∧ ctx.grossExposurePct < cfg.highExposureThreshold) ∨
      (cfg.highExposureMinConviction ≤ conviction ∧ 0 < net))

theorem level_determineAction (cfg : OpportunityCostConfig ℝ) (score : OpportunityScore ℝ)
    (ctx : PortfolioContext ℝ) (conviction threshold : ℝ) :
    let action := (determineAction cfg score ctx conviction threshold).1
    let eff := effectiveConvictionThreshold cfg threshold ctx
    (action.level = 0 ↔ Suppressed cfg score.netExpectedBps ctx conviction eff) ∧
      (2 ≤ action.level ↔ ¬ Suppressed cfg score.netExpectedBps ctx conviction eff ∧
        Executed cfg score.netExpectedBps ctx conviction) := by
  intro action eff
  have haction : action = (determineAction cfg score ctx conviction threshold).1 := rfl
  unfold determineAction at haction
  unfold Suppressed Executed
  rw [zero_real] at haction
  -- the rules in their order; each is left by its own condition
  by_cases h1 : score.netExpectedBps < cfg.minNetExpectedBps
  · rw [if_pos h1] at haction
    grind [OpportunityAction.level]
  rw [if_neg h1] at haction
  by_cases h2 : conviction < eff
  · rw [if_pos h2] at haction
    grind [OpportunityAction.level]
  rw [if_neg h2] at haction
  by_cases h3 : cfg.capitalExhaustionThreshold < ctx.grossExposurePct
  · rw [if_pos h3] at haction
    grind [OpportunityAction.level]
  rw [if_neg h3] at haction
  by_cases h4 : cfg.maxSymbolConcentration < ctx.symbolExposurePct
  · rw [if_pos h4] at haction
    grind [OpportunityAction.level]
  rw [if_neg h4] at haction
  by_cases h5 : cfg.maxStrategyConcentration < ctx.strategyExposurePct
  · rw [if_pos h5] at haction
    grind [OpportunityAction.level]
  rw [if_neg h5] at haction
  grind [OpportunityAction.level]

variable {ctx' : PortfolioContext ℝ}

theorem effective_eq (cfg : OpportunityCostConfig ℝ) (b : ℝ) (ctx : PortfolioContext ℝ) :
    effectiveConvictionThreshold cfg b ctx =
      max 0 (min (b + min (cfg.drawdownPenaltyScale * (max ctx.currentDrawdownPct 0 / 0.05) +
        min (cfg.consecutiveLossPenalty * max ctx.consecutiveLosses 0) 0.20) 0.20) 0.95) := by
  have hrange : (0 : ℝ) ≤ 0.95 := by norm_num
  have hdrawdown : (if isfinite ctx.currentDrawdownPct = true ∧ 0 < ctx.currentDrawdownPct then
      0 + cfg.drawdownPenaltyScale * (ctx.currentDrawdownPct / 0.05) else 0) =
        cfg.drawdownPenaltyScale * (max ctx.currentDrawdownPct 0 / 0.05) := by
    split_ifs with h
    · rw [zero_add, max_eq_left h.2.le]
    · have hneg : ctx.currentDrawdownPct ≤ 0 := not_lt.mp fun hpos => h ⟨rfl, hpos⟩
      rw [max_eq_right hneg, zero_div, mul_zero]
  rw [effectiveConvictionThreshold]
  simp only [zero_real]
  rw [stdClamp_real hrange, stdMin_real, hdrawdown, stdMin_real]
  congr 4
  split_ifs with h
  · rw [max_eq_left h.le]
    rfl
  · rw [max_eq_right (not_lt.mp h), Int.cast_zero, mul_zero, min_eq_left (by norm_num), add_zero]

theorem effective_mono (hchecked : Checked cfg)
    (hdrawdown : ctx.currentDrawdownPct ≤ ctx'.currentDrawdownPct)
    (hlosses : ctx.consecutiveLosses ≤ ctx'.consecutiveLosses) (b : ℝ) :
    effectiveConvictionThreshold cfg b ctx ≤ effectiveConvictionThreshold cfg b ctx' := by
  have hscale := hchecked.drawdown
  have hpenalty := hchecked.losses
  rw [effective_eq, effective_eq]
  gcongr

/-- The penalties only raise the threshold; above the cap it is the cap. -/
theorem base_le_effective (hchecked : Checked cfg) (b : ℝ) (ctx : PortfolioContext ℝ) :
    min b 0.95 ≤ effectiveConvictionThreshold cfg b ctx := by
  have hscale := hchecked.drawdown
  have hpenalty := hchecked.losses
  rw [effective_eq]
  have hadj : 0 ≤ min (cfg.drawdownPenaltyScale * (max ctx.currentDrawdownPct 0 / 0.05) +
      min (cfg.consecutiveLossPenalty * max ctx.consecutiveLosses 0) 0.20) 0.20 := by
    positivity
  exact (min_le_min_right _ (le_add_of_nonneg_right hadj)).trans (le_max_right _ _)

theorem net_eq (cfg : OpportunityCostConfig ℝ) (c : Candidate ℝ) (ctx : PortfolioContext ℝ) :
    (computeScore cfg c ctx).netExpectedBps =
      max 0 (min c.conviction 1) ^ (1.5 : ℝ) * cfg.convictionToBpsScale - c.totalCostBps := by
  have hfinite : ¬ isfinite c.conviction = false := nofun
  rw [computeScore, if_neg hfinite]
  simp only [zero_real, one_real]
  rw [stdClamp_real zero_le_one]
  rfl

structure Better (c c' : Candidate ℝ) (ctx ctx' : PortfolioContext ℝ) : Prop where
  conviction : c.conviction ≤ c'.conviction
  cost : c'.totalCostBps ≤ c.totalCostBps
  threshold : c'.convictionThreshold = c.convictionThreshold
  gross : ctx'.grossExposurePct ≤ ctx.grossExposurePct
  symbol : ctx'.symbolExposurePct ≤ ctx.symbolExposurePct
  strategy : ctx'.strategyExposurePct ≤ ctx.strategyExposurePct
  drawdown : ctx'.currentDrawdownPct ≤ ctx.currentDrawdownPct
  losses : ctx'.consecutiveLosses ≤ ctx.consecutiveLosses
  worst : ctx'.hasWorstPosition = ctx.hasWorstPosition
  worstNet : ctx'.worstPositionNetBps = ctx.worstPositionNetBps

variable {c' : Candidate ℝ}

theorem Better.net_le (hchecked : Checked cfg) (h : Better c c' ctx ctx') :
    (computeScore cfg c ctx).netExpectedBps ≤ (computeScore cfg c' ctx').netExpectedBps := by
  have hscale := hchecked.scale.le
  have hconviction := h.conviction
  have hcost := h.cost
  rw [net_eq, net_eq]
  gcongr

theorem Better.suppressed {net net' eff eff' : ℝ} (h : Better c c' ctx ctx') (hnet : net ≤ net')
    (heff : eff' ≤ eff) (hsuppressed : Suppressed cfg net' ctx' c'.conviction eff') :
    Suppressed cfg net ctx c.conviction eff := by
  rcases hsuppressed with hmin | hlow | hexhausted | hsymbol
  · exact Or.inl (hnet.trans_lt hmin)
  · exact Or.inr (Or.inl (h.conviction.trans_lt (hlow.trans_le heff)))
  · exact Or.inr (Or.inr (Or.inl (hexhausted.trans_le h.gross)))
  · exact Or.inr (Or.inr (Or.inr (hsymbol.trans_le h.symbol)))

theorem Better.executed {net net' : ℝ} (h : Better c c' ctx ctx') (hnet : net ≤ net')
    (hexecuted : Executed cfg net ctx c.conviction) : Executed cfg net' ctx' c'.conviction := by
  obtain ⟨hstrategy, hexposure, hrule⟩ := hexecuted
  refine ⟨fun hmore => hstrategy (hmore.trans_le h.strategy), fun hmore => hexposure
    ⟨hmore.1.trans_le h.gross, h.conviction.trans_lt hmore.2⟩, ?_⟩
  rcases hrule with hupgrade | hstrong | hoverride
  · exact Or.inl ⟨h.worst.trans hupgrade.1, by rw [h.worstNet]; exact hupgrade.2.trans_le hnet⟩
  · exact Or.inr (Or.inl ⟨hstrong.1.trans_le hnet, h.gross.trans_lt hstrong.2⟩)
  · exact Or.inr (Or.inr ⟨hoverride.1.trans h.conviction, hoverride.2.trans_le hnet⟩)

theorem Better.level_le (hchecked : Checked cfg) (h : Better c c' ctx ctx') :
    (evaluate cfg c ctx).action.level ≤ (evaluate cfg c' ctx').action.level := by
  have hnet := h.net_le hchecked
  have heff := effective_mono hchecked h.drawdown h.losses c.convictionThreshold
  have hlow := level_determineAction cfg (computeScore cfg c ctx) ctx c.conviction
    c.convictionThreshold
  have hhigh := level_determineAction cfg (computeScore cfg c' ctx') ctx' c'.conviction
    c'.convictionThreshold
  rw [h.threshold] at hhigh
  change (determineAction _ _ _ _ _).1.level ≤ (determineAction _ _ _ _ _).1.level
  rw [h.threshold]
  rcases Nat.lt_or_ge (determineAction cfg (computeScore cfg c' ctx') ctx' c'.conviction
    c.convictionThreshold).1.level 1 with hzero | hpos
  · have hsuppressed := hlow.1.mpr (h.suppressed hnet heff (hhigh.1.mp (Nat.lt_one_iff.mp hzero)))
    exact hsuppressed.le.trans (Nat.zero_le _)
  · rcases Nat.lt_or_ge 1 (determineAction cfg (computeScore cfg c ctx) ctx c.conviction
      c.convictionThreshold).1.level with htwo | hone
    · obtain ⟨hnot, hexecuted⟩ := hlow.2.mp htwo
      have hbest := hhigh.2.mpr ⟨fun hs => hnot (h.suppressed hnet heff hs),
        h.executed hnet hexecuted⟩
      exact (level_le_two _).trans hbest
    · exact hone.trans hpos

def withoutExposure (ctx : PortfolioContext ℝ) : PortfolioContext ℝ :=
  { ctx with
    grossExposurePct := 0
    symbolExposurePct := 0
    strategyExposurePct := 0
    hasWorstPosition := false }

theorem determineAction_withoutExposure (hchecked : Checked cfg) (score : OpportunityScore ℝ)
    (ctx : PortfolioContext ℝ) (conviction threshold : ℝ) :
    (determineAction cfg score (withoutExposure ctx) conviction threshold).1 =
      if score.netExpectedBps < cfg.minNetExpectedBps ∨
        conviction < effectiveConvictionThreshold cfg threshold ctx then .suppress
      else if cfg.executeMinNetBps < score.netExpectedBps ∨
        (cfg.highExposureMinConviction ≤ conviction ∧ 0 < score.netExpectedBps) then .execute
      else .defer := by
  have heff : effectiveConvictionThreshold cfg threshold (withoutExposure ctx) =
      effectiveConvictionThreshold cfg threshold ctx := rfl
  unfold determineAction
  rw [heff, zero_real]
  simp only [withoutExposure, not_lt.mpr hchecked.exhaustion.le, not_lt.mpr hchecked.symbol.le,
    not_lt.mpr hchecked.strategy.le, not_lt.mpr hchecked.highExposure.le, hchecked.highExposure,
    Bool.false_eq_true, false_and, and_true, if_false]
  grind

/-- The rules agree with what the counterfactual compares: no conviction below the threshold,
and no net edge that only one of them executes. -/
def Compared (cfg : OpportunityCostConfig ℝ) (c : Candidate ℝ) (ctx : PortfolioContext ℝ) :
    Prop :=
  let net := (computeScore cfg c ctx).netExpectedBps
  net < cfg.minNetExpectedBps ∨
    (effectiveConvictionThreshold cfg c.convictionThreshold ctx ≤ c.conviction ∧
      (cfg.executeMinNetBps ≤ net ↔ cfg.executeMinNetBps < net ∨
        (cfg.highExposureMinConviction ≤ c.conviction ∧ 0 < net)))

theorem counterfactual_eq (hchecked : Checked cfg) (h : Compared cfg c ctx) :
    (evaluate cfg c ctx).factors.wouldBeWithoutExposure =
      (evaluate cfg c (withoutExposure ctx)).action := by
  have hscore : (computeScore cfg c (withoutExposure ctx)).netExpectedBps =
      (computeScore cfg c ctx).netExpectedBps := by
    rw [net_eq, net_eq]
  have hexecute := hchecked.execute
  change counterfactual cfg (computeScore cfg c ctx) = (determineAction _ _ _ _ _).1
  rw [determineAction_withoutExposure hchecked, hscore, counterfactual]
  unfold Compared at h
  grind

/-- Better candidates and smaller portfolios never lower the action; the threshold is never
below the base threshold, up to its cap; and where the rules agree with what it compares,
the recorded counterfactual is their action without exposure. -/
theorem decisions_monotone (h : Accepted cfg) :
    (∀ c c' ctx ctx', Better c c' ctx ctx' →
      (evaluate cfg c ctx).action.level ≤ (evaluate cfg c' ctx').action.level) ∧
    (∀ b ctx, min b 0.95 ≤ effectiveConvictionThreshold cfg b ctx) ∧
    ∀ c ctx, Compared cfg c ctx →
      (evaluate cfg c ctx).factors.wouldBeWithoutExposure =
        (evaluate cfg c (withoutExposure ctx)).action :=
  ⟨fun _ _ _ _ hbetter => hbetter.level_le (checked_of_accepted h),
    base_le_effective (checked_of_accepted h),
    fun _ _ hcompared => counterfactual_eq (checked_of_accepted h) hcompared⟩

theorem default_cost_lowered (ctx : PortfolioContext ℝ) : Better
    ⟨0.5, 0, 40, 0.3⟩ ⟨0.8, 0, 5, 0.3⟩ ctx ctx where
  conviction := by norm_num
  cost := by norm_num
  threshold := rfl
  gross := le_rfl
  symbol := le_rfl
  strategy := le_rfl
  drawdown := le_rfl
  losses := le_rfl
  worst := rfl
  worstNet := rfl

theorem default_decisions_monotone :
    (evaluate (defaultConfig : OpportunityCostConfig ℝ) ⟨0.5, 0, 40, 0.3⟩
        ⟨0, 0, 0, 0, 0, false, 0⟩).action.level ≤
      (evaluate (defaultConfig : OpportunityCostConfig ℝ) ⟨0.8, 0, 5, 0.3⟩
        ⟨0, 0, 0, 0, 0, false, 0⟩).action.level :=
  (decisions_monotone default_accepted).1 _ _ _ _ (default_cost_lowered _)

theorem default_effective (b : ℝ) (h : 0 ≤ b) :
    effectiveConvictionThreshold (defaultConfig : OpportunityCostConfig ℝ) b
      ⟨0, 0, 0, 0, 0, false, 0⟩ = min b 0.95 := by
  rw [effective_eq]
  norm_num [defaultConfig]
  exact h

/-- A quarter of the conviction is worth more than the edge of an execution. -/
theorem default_net : (defaultConfig : OpportunityCostConfig ℝ).executeMinNetBps ≤
    (computeScore (defaultConfig : OpportunityCostConfig ℝ) ⟨0.25, 0, 0, 0.5⟩
      ⟨0, 0, 0, 0, 0, false, 0⟩).netExpectedBps := by
  have hpow : (0.25 : ℝ) ^ (2 : ℝ) ≤ 0.25 ^ (1.5 : ℝ) :=
    Real.rpow_le_rpow_of_exponent_ge (by norm_num) (by norm_num) (by norm_num)
  rw [net_eq, min_eq_left (by norm_num), max_eq_right (by norm_num)]
  rw [Real.rpow_two] at hpow
  simp only [defaultConfig, sub_zero]
  linarith

/-- The threshold is capped below a base threshold above the cap; and a conviction below the
threshold is suppressed without exposure too, where an execution is recorded. -/
theorem cap_and_counterfactual :
    Accepted (defaultConfig : OpportunityCostConfig ℝ) ∧
      effectiveConvictionThreshold (defaultConfig : OpportunityCostConfig ℝ) 0.96
        ⟨0, 0, 0, 0, 0, false, 0⟩ < 0.96 ∧
      (evaluate (defaultConfig : OpportunityCostConfig ℝ) ⟨0.25, 0, 0, 0.5⟩
          ⟨0, 0, 0, 0, 0, false, 0⟩).factors.wouldBeWithoutExposure = .execute ∧
      (evaluate (defaultConfig : OpportunityCostConfig ℝ) ⟨0.25, 0, 0, 0.5⟩
          (withoutExposure ⟨0, 0, 0, 0, 0, false, 0⟩)).action = .suppress := by
  refine ⟨default_accepted, ?_, if_pos default_net, ?_⟩
  · rw [default_effective _ (by norm_num)]
    norm_num
  · change (determineAction _ _ _ _ _).1 = _
    rw [determineAction_withoutExposure (checked_of_accepted default_accepted),
      default_effective _ (by norm_num), if_pos]
    right
    norm_num

end Order

end TB.OpportunityCost
