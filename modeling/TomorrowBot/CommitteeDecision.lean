import TomorrowBot.NumericUtils
import TomorrowBot.UncertaintyEngine

/-!
# The committee decision

The intents of the enabled strategies are ranked by weight times conviction. The
first of them is accepted when its conviction, after ageing and execution cost,
reaches a threshold that grows with the signs of danger up to a hard cap.
-/

set_option autoImplicit false

namespace TB.Committee
open TB.CommonTypes TB.UncertaintyEngine

inductive RejectionReason where
  | none
  | globalUncertaintyVeto
  | allStrategiesDisabled
  | aiAdvisoryVeto
  | signalConflict
  | lowConviction
  | noValidIntents
  | portfolioIncompatible
  | executionCostTooHigh
  | drawdownProtection
  deriving DecidableEq, Repr

structure AdvancedDecisionConfig (F : Type) where
  enableTimeDecay : Bool
  timeDecayHalflifeMs : F
  enablePortfolioAwareness : Bool
  drawdownReferencePct : F
  drawdownBoostScale : F
  drawdownMaxBoost : F
  consecutiveLossBoost : F
  enableExecutionCostModeling : Bool
  executionCostConvictionPenalty : F
  maxAcceptableCostBps : F
  enableTimeSkewDetection : Bool

structure DecisionConfig (F : Type) where
  convictionThreshold : F
  advanced : AdvancedDecisionConfig F

structure TradeIntent (F : Type) where
  strategyId : StrategyId
  side : Side
  conviction : F
  generatedAt : ℤ
  correlationId : String

structure StrategyAllocation (F : Type) where
  strategyId : StrategyId
  isEnabled : Bool
  weight : F

structure AllocationResult (F : Type) where
  allocations : List (StrategyAllocation F)
  enabledCount : ℕ

inductive WorldState where
  | stableTrendContinuation
  | fragileBreakout
  | compressionBeforeExpansion
  | chopNoise
  | exhaustionSpike
  | liquidityVacuum
  | toxicMicrostructure
  | postShockStabilization
  | unknown
  deriving DecidableEq, Repr

structure StateProbabilities (F : Type) where
  probability : WorldState → F
  valid : Bool

structure UncertaintyView where
  level : UncertaintyLevel
  recommendedAction : UncertaintyAction
  computedAt : ℤ

structure PortfolioView (F : Type) where
  currentDrawdownPct : F
  consecutiveLosses : ℕ

structure FeatureView (F : Type) where
  spreadBps : F
  spreadValid : Bool
  estimatedSlippageBps : F
  slippageValid : Bool

structure Inputs (F : Type) where
  decidedAt : ℤ
  intents : List (TradeIntent F)
  allocation : AllocationResult F
  regimeComputedAt : ℤ
  stateProbabilities : StateProbabilities F
  uncertainty : UncertaintyView
  portfolio : Option (PortfolioView F)
  features : Option (FeatureView F)

structure VetoReason (F : Type) where
  source : String
  reason : String
  severity : F
  reasonCode : RejectionReason

structure StrategyContribution (F : Type) where
  strategyId : StrategyId
  intent : TradeIntent F
  weight : F
  rawConviction : F
  agedConviction : F
  costAdjustedConviction : F
  executionCostPenalty : F
  wasVetoed : Bool
  vetoReasons : List (VetoReason F)

structure ExecutionCostEstimate (F : Type) where
  spreadBps : F
  estimatedSlippageBps : F
  totalCostBps : F
  convictionPenalty : F
  vetoedByCost : Bool

/-- The record without its copies of the input labels and without the rationale. -/
structure DecisionRecord (F : Type) where
  correlationId : String
  finalIntent : Option (TradeIntent F)
  tradeApproved : Bool
  finalConviction : F
  rejectionReason : RejectionReason
  approvalGap : F
  baseConvictionThreshold : F
  drawdownThresholdBoost : F
  effectiveThreshold : F
  executionCost : ExecutionCostEstimate F
  contributions : List (StrategyContribution F)
  globalVetoes : List (VetoReason F)
  maxStateSkewNs : ℤ

structure ScoredIntent (F : Type) where
  intent : TradeIntent F
  weightedScore : F
  weight : F
  agedConviction : F
  effectiveConviction : F

structure ScoreSort (F : Type) [LT F] where
  sort : List (ScoredIntent F) → List (ScoredIntent F)
  perm : ∀ l, (sort l).Perm l
  descending : ∀ l, (sort l).Pairwise (fun a b => ¬ a.weightedScore < b.weightedScore)

variable {F : Type} [DoubleExp F]

section Helpers
variable (cfg : DecisionConfig F)

def computeTimeDecay (signalAgeNs : ℤ) : F :=
  if signalAgeNs ≤ 0 then 1.0
  else
    let ageMs := ofInt signalAgeNs / 1000000.0
    let lambda := 0.693147 / cfg.advanced.timeDecayHalflifeMs
    DoubleExp.exp (-lambda * ageMs)

def noCost : ExecutionCostEstimate F := ⟨0.0, 0.0, 0.0, 0.0, false⟩

def computeExecutionCost (features : FeatureView F) : ExecutionCostEstimate F :=
  let spread := if features.spreadValid then features.spreadBps else 0.0
  let slippage := if features.slippageValid then features.estimatedSlippageBps else 0.0
  let total := spread + slippage
  { spreadBps := spread
    estimatedSlippageBps := slippage
    totalCostBps := total
    convictionPenalty := (total / 100.0) * cfg.advanced.executionCostConvictionPenalty
    vetoedByCost := decide (cfg.advanced.maxAcceptableCostBps < total) }

def computeDrawdownBoost (portfolio : PortfolioView F) : F :=
  let boost := (stdAbs portfolio.currentDrawdownPct / cfg.advanced.drawdownReferencePct) *
    cfg.advanced.drawdownBoostScale
  let lossBoost := ofInt portfolio.consecutiveLosses * cfg.advanced.consecutiveLossBoost
  stdMin (boost + lossBoost) cfg.advanced.drawdownMaxBoost

def skewOf (decidedAt computedAt : ℤ) : ℤ :=
  if 0 < computedAt then |decidedAt - computedAt| else 0

def detectTimeSkew (i : Inputs F) : ℤ :=
  max (skewOf i.decidedAt i.regimeComputedAt) (skewOf i.decidedAt i.uncertainty.computedAt)

end Helpers

section Threshold
variable (cfg : DecisionConfig F) (i : Inputs F)

def costEstimate : ExecutionCostEstimate F :=
  match i.features with
  | some features =>
    if cfg.advanced.enableExecutionCostModeling then computeExecutionCost cfg features else noCost
  | none => noCost

def levelSeverity : UncertaintyLevel → F
  | .low => 0.0
  | .moderate => 0.20
  | .high => 0.60
  | .extreme => 1.0

def dangerProb (p : StateProbabilities F) : F :=
  stdClamp (p.probability .toxicMicrostructure + p.probability .liquidityVacuum +
    p.probability .exhaustionSpike + p.probability .chopNoise) 0.0 1.0

def severity : F :=
  let byLevel := stdMax 0.0 (levelSeverity i.uncertainty.level)
  if i.stateProbabilities.valid then stdMax byLevel (dangerProb i.stateProbabilities * 0.7)
  else byLevel

def drawdownThresholdBoost : F :=
  match i.portfolio with
  | some portfolio =>
    if cfg.advanced.enablePortfolioAwareness then computeDrawdownBoost cfg portfolio else 0.0
  | none => 0.0

def costHeadroom : F :=
  let total := (costEstimate cfg i).totalCostBps
  if 0.0 < total then stdMin 0.20 (total / 200.0) else 0.0

def kSuppressionBudget : F := 0.25
def kSeverityScale : F := 0.30
def kThresholdHardCap : F := 0.80

def threshold : F :=
  let suppressionBoost := stdMin kSuppressionBudget (severity i * kSeverityScale)
  stdMin (cfg.convictionThreshold + suppressionBoost + drawdownThresholdBoost cfg i +
    costHeadroom cfg i) kThresholdHardCap

end Threshold

section Intents
variable (cfg : DecisionConfig F) (i : Inputs F)

def findAllocation (allocation : AllocationResult F) (id : StrategyId) :
    Option (StrategyAllocation F) :=
  allocation.allocations.reverse.find? (fun a => decide (a.strategyId = id))

def enabledAllocation (intent : TradeIntent F) : Option (StrategyAllocation F) :=
  (findAllocation i.allocation intent.strategyId).filter (·.isEnabled)

def agedConviction (intent : TradeIntent F) : F :=
  if cfg.advanced.enableTimeDecay then
    if 0 < intent.generatedAt then
      intent.conviction * computeTimeDecay cfg (max 0 (i.decidedAt - intent.generatedAt))
    else intent.conviction * 0.5
  else intent.conviction

def effectiveConviction (intent : TradeIntent F) : F :=
  stdMax (agedConviction cfg i intent - (costEstimate cfg i).convictionPenalty) 0.0

def scoreIntent (intent : TradeIntent F) : Option (ScoredIntent F) :=
  (enabledAllocation i intent).map fun alloc =>
    { intent := intent
      weightedScore := effectiveConviction cfg i intent * alloc.weight
      weight := alloc.weight
      agedConviction := agedConviction cfg i intent
      effectiveConviction := effectiveConviction cfg i intent }

def scored : List (ScoredIntent F) := i.intents.filterMap (scoreIntent cfg i)

def contribution (intent : TradeIntent F) : StrategyContribution F :=
  match enabledAllocation i intent with
  | none => ⟨intent.strategyId, intent, 0.0, intent.conviction, 0.0, 0.0, 0.0, true,
      [⟨"allocator", "Стратегия не включена в аллокацию", 1.0, .allStrategiesDisabled⟩]⟩
  | some alloc => ⟨intent.strategyId, intent, alloc.weight, intent.conviction,
      agedConviction cfg i intent, effectiveConviction cfg i intent,
      (costEstimate cfg i).convictionPenalty, false, []⟩

def vetoedContribution (penalty : F) (vetoes : List (VetoReason F)) (intent : TradeIntent F) :
    StrategyContribution F :=
  ⟨intent.strategyId, intent, 0.0, intent.conviction, 0.0, 0.0, penalty, true, vetoes⟩

end Intents

section Decision
variable (cfg : DecisionConfig F) (sorting : ScoreSort F) (i : Inputs F)

def emptyRecord : DecisionRecord F where
  correlationId := ""
  finalIntent := none
  tradeApproved := false
  finalConviction := 0.0
  rejectionReason := .none
  approvalGap := 0.0
  baseConvictionThreshold := 0.0
  drawdownThresholdBoost := 0.0
  effectiveThreshold := 0.0
  executionCost := noCost
  contributions := []
  globalVetoes := []
  maxStateSkewNs := if cfg.advanced.enableTimeSkewDetection then detectTimeSkew i else 0

def globalVetoes : List (VetoReason F) :=
  (if i.uncertainty.recommendedAction = .noTrade then
    [⟨"uncertainty", "Экстремальная неопределённость — торговля запрещена", 1.0,
      .globalUncertaintyVeto⟩]
  else []) ++
  (if i.allocation.enabledCount = 0 then
    [⟨"allocator", "Все стратегии отключены аллокатором", 1.0, .allStrategiesDisabled⟩]
  else [])

def costVeto : VetoReason F :=
  ⟨"execution_cost", "Стоимость исполнения слишком высока (" ++
    toString (toInt (costEstimate cfg i).totalCostBps) ++ " bps)", 0.9, .executionCostTooHigh⟩

def convictionOf (best : ScoredIntent F) : F := stdClamp best.effectiveConviction 0.0 1.0

def judge (record : DecisionRecord F) (best : ScoredIntent F) : DecisionRecord F :=
  let boost := drawdownThresholdBoost cfg i
  let bound := threshold cfg i
  let adjusted := convictionOf best
  let judged := { record with
    baseConvictionThreshold := cfg.convictionThreshold
    drawdownThresholdBoost := boost
    effectiveThreshold := bound
    approvalGap := adjusted - bound }
  if adjusted < bound then
    { judged with
      rejectionReason :=
        if 0.0 < boost ∧ bound - boost ≤ adjusted then .drawdownProtection else .lowConviction }
  else
    { judged with
      tradeApproved := true
      finalIntent := some best.intent
      finalConviction := adjusted
      correlationId := best.intent.correlationId }

def rank (record : DecisionRecord F) : DecisionRecord F :=
  match sorting.sort (scored cfg i) with
  | [] => { record with rejectionReason := .noValidIntents }
  | best :: _ => judge cfg i record best

def aggregate : DecisionRecord F :=
  let record := emptyRecord cfg i
  let cost := costEstimate cfg i
  match globalVetoes i with
  | veto :: vetoes =>
    { record with
      rejectionReason := veto.reasonCode
      contributions := i.intents.map (vetoedContribution 0.0 (veto :: vetoes))
      globalVetoes := veto :: vetoes }
  | [] =>
    if cost.vetoedByCost then
      { record with
        rejectionReason := .executionCostTooHigh
        executionCost := cost
        contributions := i.intents.map
          (vetoedContribution cost.convictionPenalty [costVeto cfg i])
        globalVetoes := [costVeto cfg i] }
    else rank cfg sorting i { record with
      executionCost := cost
      contributions := i.intents.map (contribution cfg i) }

end Decision

section Approval
variable {cfg : DecisionConfig ℝ} (sorting : ScoreSort ℝ) {i : Inputs ℝ}

theorem severity_nonneg (i : Inputs ℝ) : 0 ≤ severity i := by
  have hlevel : 0 ≤ stdMax (0.0 : ℝ) (levelSeverity i.uncertainty.level) := by
    rw [stdMax_real, zero_real]
    exact le_max_left _ _
  unfold severity
  split_ifs
  · rw [stdMax_real]
    exact hlevel.trans (le_max_left _ _)
  · exact hlevel

theorem effective_nonneg (x : TradeIntent ℝ) : 0 ≤ effectiveConviction cfg i x := by
  unfold effectiveConviction
  rw [stdMax_real, zero_real]
  exact le_max_right _ _

theorem threshold_capped (cfg : DecisionConfig ℝ) (i : Inputs ℝ) : threshold cfg i ≤ 0.80 := by
  unfold threshold
  rw [stdMin_real]
  exact min_le_right _ _

theorem mem_scored {s : ScoredIntent ℝ} : s ∈ scored cfg i ↔
    ∃ x ∈ i.intents, scoreIntent cfg i x = some s := List.mem_filterMap

theorem scoreIntent_eq_some {x : TradeIntent ℝ} {s : ScoredIntent ℝ} :
    scoreIntent cfg i x = some s ↔ ∃ alloc, enabledAllocation i x = some alloc ∧
      s = ⟨x, effectiveConviction cfg i x * alloc.weight, alloc.weight, agedConviction cfg i x,
        effectiveConviction cfg i x⟩ := by
  unfold scoreIntent
  rw [Option.map_eq_some_iff]
  constructor
  · rintro ⟨alloc, halloc, rfl⟩
    exact ⟨alloc, halloc, rfl⟩
  · rintro ⟨alloc, halloc, rfl⟩
    exact ⟨alloc, halloc, rfl⟩

/-- The cap on the conviction does not matter, since the threshold has a lower one. -/
theorem convictionOf_reaches {s : ScoredIntent ℝ} (h : s ∈ scored cfg i) :
    threshold cfg i ≤ convictionOf s ↔ threshold cfg i ≤ s.effectiveConviction := by
  have hcap := threshold_capped cfg i
  have hnonneg : 0 ≤ s.effectiveConviction := by
    obtain ⟨x, -, hx⟩ := mem_scored.mp h
    obtain ⟨alloc, -, rfl⟩ := scoreIntent_eq_some.mp hx
    exact effective_nonneg x
  have hconviction : convictionOf s = min s.effectiveConviction 1 := by
    unfold convictionOf
    rw [zero_real, one_real, stdClamp_real zero_le_one]
    exact max_eq_right (le_min hnonneg zero_le_one)
  rw [hconviction, le_min_iff]
  exact and_iff_left (hcap.trans (by norm_num))

theorem judge_approved {record : DecisionRecord ℝ} (hrecord : record.tradeApproved = false)
    (best : ScoredIntent ℝ) :
    (judge cfg i record best).tradeApproved = true ↔ threshold cfg i ≤ convictionOf best := by
  by_cases h : convictionOf best < threshold cfg i
  · have hrejected : (judge cfg i record best).tradeApproved = false := by
      unfold judge
      dsimp only
      rw [if_pos h]
      exact hrecord
    rw [hrejected]
    exact ⟨fun hf => absurd hf Bool.false_ne_true, fun hle => absurd h (not_lt.mpr hle)⟩
  · have happroved : (judge cfg i record best).tradeApproved = true := by
      unfold judge
      dsimp only
      rw [if_neg h]
    exact ⟨fun _ => not_lt.mp h, fun _ => happroved⟩

theorem judge_effective (record : DecisionRecord ℝ) (best : ScoredIntent ℝ) :
    (judge cfg i record best).effectiveThreshold = threshold cfg i := by
  unfold judge
  dsimp only
  split_ifs <;> rfl

def Unvetoed (cfg : DecisionConfig ℝ) (i : Inputs ℝ) : Prop :=
  globalVetoes i = [] ∧ (costEstimate cfg i).vetoedByCost = false

noncomputable def opened (cfg : DecisionConfig ℝ) (i : Inputs ℝ) : DecisionRecord ℝ :=
  { emptyRecord cfg i with
    executionCost := costEstimate cfg i
    contributions := i.intents.map (contribution cfg i) }

theorem aggregate_unvetoed (h : Unvetoed cfg i) :
    aggregate cfg sorting i = rank cfg sorting i (opened cfg i) := by
  unfold aggregate
  simp only [h.1, h.2]
  rfl

theorem aggregate_vetoed (h : ¬ Unvetoed cfg i) :
    (aggregate cfg sorting i).tradeApproved = false ∧
      (aggregate cfg sorting i).rejectionReason ∈
        [.globalUncertaintyVeto, .allStrategiesDisabled, .executionCostTooHigh] := by
  cases hveto : globalVetoes i with
  | cons veto vetoes =>
    have hreason : veto.reasonCode ∈
        [.globalUncertaintyVeto, .allStrategiesDisabled, .executionCostTooHigh] := by
      have hmem : veto ∈ globalVetoes i := hveto ▸ List.mem_cons_self
      unfold globalVetoes at hmem
      rcases List.mem_append.mp hmem with hmem | hmem <;> split_ifs at hmem <;> simp_all
    unfold aggregate
    simp only [hveto]
    exact ⟨rfl, hreason⟩
  | nil =>
    have hcost : (costEstimate cfg i).vetoedByCost = true :=
      Bool.eq_true_of_not_eq_false fun hc => h ⟨hveto, hc⟩
    unfold aggregate
    simp only [hveto, hcost, if_true]
    exact ⟨rfl, by decide⟩

theorem approved_iff : (aggregate cfg sorting i).tradeApproved = true ↔
    Unvetoed cfg i ∧ ∃ best rest, sorting.sort (scored cfg i) = best :: rest ∧
      threshold cfg i ≤ best.effectiveConviction := by
  by_cases h : Unvetoed cfg i
  · rw [aggregate_unvetoed sorting h]
    unfold rank
    cases hsort : sorting.sort (scored cfg i) with
    | nil => exact ⟨fun hf => absurd hf Bool.false_ne_true, fun ⟨_, _, _, hc, _⟩ => nomatch hc⟩
    | cons best rest =>
      have hbest : best ∈ scored cfg i := (sorting.perm _).subset (hsort ▸ List.mem_cons_self)
      rw [judge_approved rfl, convictionOf_reaches hbest]
      refine ⟨fun hle => ⟨h, best, rest, rfl, hle⟩, ?_⟩
      rintro ⟨-, _, _, ⟨⟩, hle⟩
      exact hle
  · rw [(aggregate_vetoed sorting h).1]
    exact ⟨fun hf => absurd hf Bool.false_ne_true, fun happ => absurd happ.1 h⟩

theorem approved_record (h : (aggregate cfg sorting i).tradeApproved = true) :
    (aggregate cfg sorting i).rejectionReason = .none ∧
      (aggregate cfg sorting i).effectiveThreshold = threshold cfg i := by
  obtain ⟨hveto, best, rest, hsort, hreach⟩ := (approved_iff sorting).mp h
  have hbest : best ∈ scored cfg i := (sorting.perm _).subset (hsort ▸ List.mem_cons_self)
  have hpass := not_lt.mpr ((convictionOf_reaches hbest).mpr hreach)
  have hrank : rank cfg sorting i (opened cfg i) = judge cfg i (opened cfg i) best := by
    unfold rank
    rw [hsort]
  rw [aggregate_unvetoed sorting hveto, hrank, judge_effective]
  refine ⟨?_, rfl⟩
  unfold judge
  dsimp only
  rw [if_neg hpass]
  rfl

variable {l : List (ScoredIntent ℝ)}

theorem first_highest {best : ScoredIntent ℝ}
    {rest : List (ScoredIntent ℝ)} (h : sorting.sort l = best :: rest) :
    best ∈ l ∧ ∀ s ∈ l, s.weightedScore ≤ best.weightedScore := by
  have hmem : ∀ s, s ∈ best :: rest ↔ s ∈ l := fun s => h ▸ (sorting.perm l).mem_iff
  refine ⟨(hmem best).mp List.mem_cons_self, fun s hs => ?_⟩
  rcases List.mem_cons.mp ((hmem s).mpr hs) with rfl | hs
  · exact le_rfl
  · exact not_lt.mp (List.rel_of_pairwise_cons (h ▸ sorting.descending l) hs)

theorem sort_cons {s : ScoredIntent ℝ} (h : s ∈ l) :
    ∃ best rest, sorting.sort l = best :: rest := by
  cases hsort : sorting.sort l with
  | nil => exact absurd ((sorting.perm l).mem_iff.mpr h) (hsort ▸ List.not_mem_nil)
  | cons best rest => exact ⟨best, rest, rfl⟩

/-- With distinct scores the first of the ranking is the one with the highest score. -/
theorem first_unique (hnodup : (l.map (·.weightedScore)).Nodup)
    {s best : ScoredIntent ℝ} {rest : List (ScoredIntent ℝ)} (h : sorting.sort l = best :: rest)
    (hs : s ∈ l) (hhighest : ∀ t ∈ l, t.weightedScore ≤ s.weightedScore) : best = s := by
  obtain ⟨hbest, hmax⟩ := first_highest sorting h
  exact List.inj_on_of_nodup_map hnodup hbest hs (le_antisymm (hhighest best hbest) (hmax s hs))

end Approval

section Runs

structure Scales (cfg : DecisionConfig ℝ) : Prop where
  halflife : 0 ≤ cfg.advanced.timeDecayHalflifeMs
  reference : 0 ≤ cfg.advanced.drawdownReferencePct
  boost : 0 ≤ cfg.advanced.drawdownBoostScale
  maxBoost : 0 ≤ cfg.advanced.drawdownMaxBoost
  lossBoost : 0 ≤ cfg.advanced.consecutiveLossBoost
  penalty : 0 ≤ cfg.advanced.executionCostConvictionPenalty

def dangers : List WorldState :=
  [.toxicMicrostructure, .liquidityVacuum, .exhaustionSpike, .chopNoise]

structure Deeper (p q : PortfolioView ℝ) : Prop where
  drawdown : |p.currentDrawdownPct| ≤ |q.currentDrawdownPct|
  losses : p.consecutiveLosses ≤ q.consecutiveLosses

structure Dearer (f g : FeatureView ℝ) : Prop where
  spreadValid : g.spreadValid = f.spreadValid
  slippageValid : g.slippageValid = f.slippageValid
  spread : f.spreadBps ≤ g.spreadBps
  slippage : f.estimatedSlippageBps ≤ g.estimatedSlippageBps

structure Older (x y : TradeIntent ℝ) : Prop where
  same : y = { x with generatedAt := y.generatedAt }
  age : y.generatedAt = x.generatedAt ∨ 0 < y.generatedAt ∧ y.generatedAt ≤ x.generatedAt

structure Raised (i j : Inputs ℝ) : Prop where
  decidedAt : j.decidedAt = i.decidedAt
  allocation : j.allocation = i.allocation
  action : j.uncertainty.recommendedAction = i.uncertainty.recommendedAction
  level : levelRank i.uncertainty.level ≤ levelRank j.uncertainty.level
  valid : j.stateProbabilities.valid = i.stateProbabilities.valid
  danger : ∀ s ∈ dangers,
    i.stateProbabilities.probability s ≤ j.stateProbabilities.probability s
  portfolio : Option.Rel Deeper i.portfolio j.portfolio
  features : Option.Rel Dearer i.features j.features
  intents : List.Forall₂ Older i.intents j.intents

variable {cfg : DecisionConfig ℝ} (hcfg : Scales cfg) {i j : Inputs ℝ}

theorem levelSeverity_mono {a b : UncertaintyLevel} (h : levelRank a ≤ levelRank b) :
    (levelSeverity a : ℝ) ≤ levelSeverity b := by
  cases a <;> cases b <;> norm_num [levelSeverity] <;> exact absurd h (by decide)

theorem dangerProb_mono {p q : StateProbabilities ℝ}
    (h : ∀ s ∈ dangers, p.probability s ≤ q.probability s) : dangerProb p ≤ dangerProb q := by
  have h1 := h .toxicMicrostructure (by decide)
  have h2 := h .liquidityVacuum (by decide)
  have h3 := h .exhaustionSpike (by decide)
  have h4 := h .chopNoise (by decide)
  unfold dangerProb
  rw [zero_real, one_real, stdClamp_real zero_le_one, stdClamp_real zero_le_one]
  gcongr

theorem severity_mono (h : Raised i j) : severity i ≤ severity j := by
  have hlevel := levelSeverity_mono h.level
  have hdanger := dangerProb_mono h.danger
  have hscale : (0 : ℝ) ≤ 0.7 := by norm_num
  unfold severity
  rw [h.valid]
  simp only [stdMax_real]
  split_ifs
  · gcongr
  · gcongr

include hcfg in
theorem computeDrawdownBoost_mono {p q : PortfolioView ℝ} (h : Deeper p q) :
    computeDrawdownBoost cfg p ≤ computeDrawdownBoost cfg q := by
  have hlosses : (ofInt (p.consecutiveLosses : ℤ) : ℝ) ≤ ofInt (q.consecutiveLosses : ℤ) := by
    show ((p.consecutiveLosses : ℤ) : ℝ) ≤ ((q.consecutiveLosses : ℤ) : ℝ)
    exact_mod_cast h.losses
  have hdrawdown := h.drawdown
  have hreference := hcfg.reference
  have hboost := hcfg.boost
  have hloss := hcfg.lossBoost
  unfold computeDrawdownBoost
  simp only [stdMin_real, Numeric.stdAbs_real]
  gcongr

include hcfg in
theorem drawdownThresholdBoost_mono (h : Raised i j) :
    drawdownThresholdBoost cfg i ≤ drawdownThresholdBoost cfg j := by
  have hrel := h.portfolio
  unfold drawdownThresholdBoost
  revert hrel
  cases i.portfolio <;> cases j.portfolio
  · exact fun _ => le_rfl
  · exact fun hrel => nomatch hrel
  · exact fun hrel => nomatch hrel
  · rintro ⟨hdeeper⟩
    dsimp only
    split_ifs
    · exact computeDrawdownBoost_mono hcfg hdeeper
    · exact le_rfl

theorem total_mono {f g : FeatureView ℝ} (h : Dearer f g) :
    (computeExecutionCost cfg f).totalCostBps ≤ (computeExecutionCost cfg g).totalCostBps := by
  have hspread := h.spread
  have hslippage := h.slippage
  unfold computeExecutionCost
  dsimp only
  rw [h.spreadValid, h.slippageValid]
  split_ifs <;> gcongr

structure CostRaised (a b : ExecutionCostEstimate ℝ) : Prop where
  total : a.totalCostBps ≤ b.totalCostBps
  penalty : a.convictionPenalty ≤ b.convictionPenalty
  veto : b.vetoedByCost = false → a.vetoedByCost = false

theorem costRaised_refl (a : ExecutionCostEstimate ℝ) : CostRaised a a := ⟨le_rfl, le_rfl, id⟩

include hcfg in
theorem computeExecutionCost_raised {f g : FeatureView ℝ} (h : Dearer f g) :
    CostRaised (computeExecutionCost cfg f) (computeExecutionCost cfg g) := by
  have htotal : (computeExecutionCost cfg f).totalCostBps ≤
      (computeExecutionCost cfg g).totalCostBps := total_mono h
  have hfactor := hcfg.penalty
  refine ⟨htotal, ?_, fun hveto => ?_⟩
  · show (computeExecutionCost cfg f).totalCostBps / 100.0 * _ ≤
      (computeExecutionCost cfg g).totalCostBps / 100.0 * _
    gcongr
  · have hle := not_lt.mp (of_decide_eq_false hveto)
    exact decide_eq_false (not_lt.mpr (htotal.trans hle))

include hcfg in
theorem costEstimate_raised (h : Raised i j) :
    CostRaised (costEstimate cfg i) (costEstimate cfg j) := by
  have hrel := h.features
  unfold costEstimate
  revert hrel
  cases i.features <;> cases j.features
  · exact fun _ => costRaised_refl _
  · exact fun hrel => nomatch hrel
  · exact fun hrel => nomatch hrel
  · rintro ⟨hdearer⟩
    dsimp only
    split_ifs
    · exact computeExecutionCost_raised hcfg hdearer
    · exact costRaised_refl _

theorem headroom_of_total {a b : ℝ} (h : a ≤ b) :
    (if 0.0 < a then stdMin 0.20 (a / 200.0) else 0.0) ≤
      (if 0.0 < b then stdMin 0.20 (b / 200.0) else 0.0) := by
  rw [zero_real]
  simp only [stdMin_real]
  split_ifs with ha hb hb
  · gcongr
  · exact absurd (ha.trans_le h) hb
  · positivity
  · exact le_rfl

include hcfg in
theorem threshold_mono (h : Raised i j) : threshold cfg i ≤ threshold cfg j := by
  have hseverity := severity_mono h
  have hboost := drawdownThresholdBoost_mono hcfg h
  have hheadroom : costHeadroom cfg i ≤ costHeadroom cfg j :=
    headroom_of_total (costEstimate_raised hcfg h).total
  have hscale : (0 : ℝ) ≤ kSeverityScale := by norm_num [kSeverityScale]
  unfold threshold
  simp only [stdMin_real]
  gcongr

include hcfg in
theorem unvetoed_of_raised (h : Raised i j) (hj : Unvetoed cfg j) : Unvetoed cfg i := by
  have hvetoes : globalVetoes i = globalVetoes j := by
    unfold globalVetoes
    rw [h.action, h.allocation]
  exact ⟨hvetoes.trans hj.1, (costEstimate_raised hcfg h).veto hj.2⟩

include hcfg in
theorem computeTimeDecay_anti {a b : ℤ} (h : a ≤ b) :
    computeTimeDecay cfg b ≤ computeTimeDecay cfg a := by
  have hlambda : 0 ≤ 0.693147 / cfg.advanced.timeDecayHalflifeMs :=
    div_nonneg (by norm_num) hcfg.halflife
  have hexp : ∀ n : ℤ, DoubleExp.exp (-(0.693147 / cfg.advanced.timeDecayHalflifeMs) *
      (ofInt n / 1000000.0)) = Real.exp (-(0.693147 / cfg.advanced.timeDecayHalflifeMs) *
        ((n : ℝ) / 1000000.0)) := fun _ => rfl
  unfold computeTimeDecay
  dsimp only
  rw [hexp, hexp, one_real]
  split_ifs with hb ha ha
  · exact le_rfl
  · exact absurd (h.trans hb) ha
  · have hage : 0 ≤ (b : ℝ) / 1000000.0 :=
      div_nonneg (by exact_mod_cast (not_le.mp hb).le) (by norm_num)
    exact Real.exp_le_one_iff.mpr (mul_nonpos_of_nonpos_of_nonneg (neg_nonpos.mpr hlambda) hage)
  · refine Real.exp_le_exp.mpr (mul_le_mul_of_nonpos_left ?_ (neg_nonpos.mpr hlambda))
    have hcast : (a : ℝ) ≤ b := by exact_mod_cast h
    gcongr

theorem computeTimeDecay_nonneg (cfg : DecisionConfig ℝ) (n : ℤ) :
    0 ≤ computeTimeDecay cfg n := by
  unfold computeTimeDecay
  split_ifs
  · norm_num
  · exact (Real.exp_pos _).le

noncomputable def decay (cfg : DecisionConfig ℝ) (i : Inputs ℝ) (x : TradeIntent ℝ) : ℝ :=
  if cfg.advanced.enableTimeDecay then
    if 0 < x.generatedAt then computeTimeDecay cfg (max 0 (i.decidedAt - x.generatedAt)) else 0.5
  else 1

theorem agedConviction_eq (x : TradeIntent ℝ) :
    agedConviction cfg i x = x.conviction * decay cfg i x := by
  unfold agedConviction decay
  split_ifs
  · rfl
  · rfl
  · exact (mul_one _).symm

theorem decay_nonneg (x : TradeIntent ℝ) : 0 ≤ decay cfg i x := by
  unfold decay
  split_ifs
  · exact computeTimeDecay_nonneg _ _
  · norm_num
  · exact zero_le_one

include hcfg in
theorem decay_anti (h : Raised i j) {x y : TradeIntent ℝ} (hxy : Older x y) :
    decay cfg j y ≤ decay cfg i x := by
  unfold decay
  rw [h.decidedAt]
  rcases hxy.age with hage | ⟨hpos, hage⟩
  · rw [hage]
  · rw [if_pos hpos, if_pos (hpos.trans_le hage)]
    split_ifs
    · exact computeTimeDecay_anti hcfg (max_le_max_left 0 (by omega))
    · exact le_rfl

include hcfg in
/-- Age and cost only lower the conviction of an intent, unless it is negative and the cost
is, too. -/
theorem effective_anti (h : Raised i j) {x y : TradeIntent ℝ} (hxy : Older x y)
    (hsign : 0 ≤ x.conviction ∨ 0 ≤ (costEstimate cfg i).convictionPenalty) :
    effectiveConviction cfg j y ≤ effectiveConviction cfg i x := by
  have hpenalty := (costEstimate_raised hcfg h).penalty
  have hconviction : y.conviction = x.conviction := by rw [hxy.same]
  have hdecay := decay_anti hcfg h hxy
  have hy : 0 ≤ decay cfg j y := decay_nonneg y
  have hx : 0 ≤ decay cfg i x := decay_nonneg x
  unfold effectiveConviction
  rw [agedConviction_eq, agedConviction_eq, hconviction, stdMax_real, stdMax_real, zero_real]
  rcases le_or_gt 0 x.conviction with hc | hc
  · gcongr
  · have hcost := hsign.resolve_left (not_le.mpr hc)
    have hyneg := mul_nonpos_of_nonpos_of_nonneg hc.le hy
    have hxneg := mul_nonpos_of_nonpos_of_nonneg hc.le hx
    rw [max_eq_right (by linarith), max_eq_right (by linarith)]

theorem mem_of_older {l m : List (TradeIntent ℝ)} (h : List.Forall₂ Older l m)
    {y : TradeIntent ℝ} (hy : y ∈ m) : ∃ x ∈ l, Older x y := by
  induction h with
  | nil => exact absurd hy List.not_mem_nil
  | cons hab _ ih =>
    rcases List.mem_cons.mp hy with rfl | hy
    · exact ⟨_, List.mem_cons_self, hab⟩
    · obtain ⟨x, hx, hxy⟩ := ih hy
      exact ⟨x, List.mem_cons_of_mem _ hx, hxy⟩

end Runs

section Laws
variable {cfg : DecisionConfig ℝ} (hcfg : Scales cfg) (sorting : ScoreSort ℝ) {i j : Inputs ℝ}

def IsJudged (r : DecisionRecord ℝ) : Prop :=
  r.rejectionReason ∈ [.none, .lowConviction, .drawdownProtection]

def Outranked (cfg : DecisionConfig ℝ) (sorting : ScoreSort ℝ) (i : Inputs ℝ) : Prop :=
  ∃ first rest, sorting.sort (scored cfg i) = first :: rest ∧
    first.effectiveConviction < threshold cfg i ∧
    ∃ s ∈ scored cfg i, threshold cfg i ≤ s.effectiveConviction ∧
      s.weightedScore ≤ first.weightedScore

include hcfg in
theorem threshold_bounded (i : Inputs ℝ) : min cfg.convictionThreshold 0.80 ≤ threshold cfg i := by
  have hseverity := severity_nonneg i
  have hsuppression : 0 ≤ min (kSuppressionBudget : ℝ) (severity i * kSeverityScale) :=
    le_min (by norm_num [kSuppressionBudget])
      (mul_nonneg hseverity (by norm_num [kSeverityScale]))
  have hboost : 0 ≤ drawdownThresholdBoost cfg i := by
    unfold drawdownThresholdBoost
    split
    · split_ifs
      · unfold computeDrawdownBoost
        simp only [stdMin_real, Numeric.stdAbs_real]
        have hlosses : (0 : ℝ) ≤ ofInt ((‹PortfolioView ℝ›.consecutiveLosses : ℕ) : ℤ) :=
          Int.cast_nonneg (Int.natCast_nonneg _)
        have hreference := hcfg.reference
        have hscale := hcfg.boost
        have hloss := hcfg.lossBoost
        exact le_min (by positivity) hcfg.maxBoost
      · exact zero_real.ge
    · exact zero_real.ge
  have hheadroom : 0 ≤ costHeadroom cfg i := by
    unfold costHeadroom
    dsimp only
    rw [zero_real, stdMin_real]
    split_ifs with hcost
    · positivity
    · exact le_rfl
  unfold threshold kThresholdHardCap
  simp only [stdMin_real]
  exact min_le_min_right _ (by linarith)

include hcfg in
theorem judged_bounded (h : IsJudged (aggregate cfg sorting i)) :
    min cfg.convictionThreshold 0.80 ≤ (aggregate cfg sorting i).effectiveThreshold := by
  by_cases hveto : Unvetoed cfg i
  · unfold IsJudged at h
    rw [aggregate_unvetoed sorting hveto] at h ⊢
    unfold rank at h ⊢
    cases hsort : sorting.sort (scored cfg i) with
    | nil => simp [hsort] at h
    | cons best rest =>
      rw [judge_effective]
      exact threshold_bounded hcfg i
  · have hreason := (aggregate_vetoed sorting hveto).2
    unfold IsJudged at h
    simp only [List.mem_cons, List.not_mem_nil, or_false] at h hreason
    rcases hreason with hr | hr | hr <;> rw [hr] at h <;> simp at h

include hcfg in
theorem threatened_approved (h : Raised i j) (hintents : j.intents = i.intents)
    (hfeatures : j.features = i.features)
    (happroved : (aggregate cfg sorting j).tradeApproved = true) :
    (aggregate cfg sorting i).tradeApproved = true := by
  obtain ⟨hj, best, rest, hsort, hreach⟩ := (approved_iff sorting).mp happroved
  have hcost : costEstimate cfg j = costEstimate cfg i := by
    unfold costEstimate
    rw [hfeatures]
  have hscore : scoreIntent cfg j = scoreIntent cfg i := by
    funext x
    unfold scoreIntent effectiveConviction agedConviction enabledAllocation
    rw [hcost, h.decidedAt, h.allocation]
  have hscored : scored cfg j = scored cfg i := by
    unfold scored
    rw [hintents, hscore]
  exact (approved_iff sorting).mpr ⟨unvetoed_of_raised hcfg h hj, best, rest, hscored ▸ hsort,
    (threshold_mono hcfg h).trans hreach⟩

include hcfg in
/-- Cost and age approve only by taking away the first rank from an intent that fails. -/
theorem raised_approved (h : Raised i j)
    (hsign : ∀ x ∈ i.intents, 0 ≤ x.conviction ∨ 0 ≤ (costEstimate cfg i).convictionPenalty)
    (happroved : (aggregate cfg sorting j).tradeApproved = true) :
    (aggregate cfg sorting i).tradeApproved = true ∨ Outranked cfg sorting i := by
  obtain ⟨hj, best, rest, hsort, hreach⟩ := (approved_iff sorting).mp happroved
  obtain ⟨y, hy, hscored⟩ := mem_scored.mp (first_highest sorting hsort).1
  obtain ⟨alloc, halloc, rfl⟩ := scoreIntent_eq_some.mp hscored
  obtain ⟨x, hx, hxy⟩ := mem_of_older h.intents hy
  have hreach' : threshold cfg i ≤ effectiveConviction cfg i x :=
    (threshold_mono hcfg h).trans (hreach.trans (effective_anti hcfg h hxy (hsign x hx)))
  have hid : y.strategyId = x.strategyId := by rw [hxy.same]
  have halloc' : enabledAllocation i x = some alloc := by
    rw [← halloc]
    unfold enabledAllocation
    rw [h.allocation, hid]
  have hmem : (⟨x, effectiveConviction cfg i x * alloc.weight, alloc.weight,
      agedConviction cfg i x, effectiveConviction cfg i x⟩ : ScoredIntent ℝ) ∈ scored cfg i :=
    mem_scored.mpr ⟨x, hx, scoreIntent_eq_some.mpr ⟨alloc, halloc', rfl⟩⟩
  obtain ⟨first, others, hfirst⟩ := sort_cons sorting hmem
  rcases le_or_gt (threshold cfg i) first.effectiveConviction with hle | hlt
  · exact Or.inl ((approved_iff sorting).mpr
      ⟨unvetoed_of_raised hcfg h hj, first, others, hfirst, hle⟩)
  · exact Or.inr ⟨first, others, hfirst, hlt, _, hmem, hreach',
      (first_highest sorting hfirst).2 _ hmem⟩

def withIntents (i : Inputs ℝ) (l : List (TradeIntent ℝ)) : Inputs ℝ := { i with intents := l }

def Distinct (cfg : DecisionConfig ℝ) (i : Inputs ℝ) : Prop :=
  ((scored cfg i).map (·.weightedScore)).Nodup

structure SameDecision (r r' : DecisionRecord ℝ) : Prop where
  decision : { r' with contributions := [] } = { r with contributions := [] }
  contributions : r'.contributions.Perm r.contributions

theorem judge_same {record record' : DecisionRecord ℝ} (h : SameDecision record record')
    (best : ScoredIntent ℝ) :
    SameDecision (judge cfg i record best) (judge cfg i record' best) := by
  obtain ⟨hdecision, hcontributions⟩ := h
  cases record
  cases record'
  simp only [DecisionRecord.mk.injEq] at hdecision
  obtain ⟨rfl, rfl, rfl, rfl, rfl, rfl, rfl, rfl, rfl, rfl, -, rfl, rfl⟩ := hdecision
  unfold judge
  dsimp only
  split_ifs
  · exact ⟨rfl, hcontributions⟩
  · exact ⟨rfl, hcontributions⟩
  · exact ⟨rfl, hcontributions⟩

theorem reordered_same {l : List (TradeIntent ℝ)} (hperm : l.Perm i.intents)
    (hdistinct : Distinct cfg i) :
    SameDecision (aggregate cfg sorting i) (aggregate cfg sorting (withIntents i l)) := by
  have hscored : (scored cfg (withIntents i l)).Perm (scored cfg i) := hperm.filterMap _
  have hrank : SameDecision (rank cfg sorting i (opened cfg i))
      (rank cfg sorting (withIntents i l) (opened cfg (withIntents i l))) := by
    have hopened : SameDecision (opened cfg i) (opened cfg (withIntents i l)) :=
      ⟨rfl, hperm.map _⟩
    unfold rank
    cases hsort : sorting.sort (scored cfg i) with
    | nil =>
      have hnil : scored cfg i = [] := (hsort ▸ sorting.perm (scored cfg i)).nil_eq.symm
      have hnil' : scored cfg (withIntents i l) = [] := (hnil ▸ hscored).eq_nil
      rw [hnil] at hsort
      have hsort' : sorting.sort (scored cfg (withIntents i l)) = [] := by rw [hnil', hsort]
      rw [hsort']
      exact ⟨rfl, hopened.contributions⟩
    | cons best rest =>
      obtain ⟨hbest, hhighest⟩ := first_highest sorting hsort
      obtain ⟨best', rest', hsort'⟩ := sort_cons sorting (hscored.mem_iff.mpr hbest)
      have hdistinct' : ((scored cfg (withIntents i l)).map (·.weightedScore)).Nodup :=
        (hscored.map _).nodup_iff.mpr hdistinct
      have hsame := first_unique sorting hdistinct' hsort' (hscored.mem_iff.mpr hbest)
        fun t ht => hhighest t (hscored.mem_iff.mp ht)
      rw [hsort', hsame]
      exact judge_same hopened best
  by_cases hveto : Unvetoed cfg i
  · rw [aggregate_unvetoed sorting hveto, aggregate_unvetoed (i := withIntents i l) sorting hveto]
    exact hrank
  · unfold Unvetoed at hveto
    unfold aggregate
    cases hglobal : globalVetoes i with
    | cons veto vetoes =>
      have hglobal' : globalVetoes (withIntents i l) = veto :: vetoes := hglobal
      simp only [hglobal']
      exact ⟨rfl, hperm.map _⟩
    | nil =>
      have hglobal' : globalVetoes (withIntents i l) = [] := hglobal
      have hcost : (costEstimate cfg i).vetoedByCost = true :=
        Bool.eq_true_of_not_eq_false fun hc => hveto ⟨hglobal, hc⟩
      have hcost' : (costEstimate cfg (withIntents i l)).vetoedByCost = true := hcost
      simp only [hglobal', hcost, hcost', if_true]
      exact ⟨rfl, hperm.map _⟩

/-- An intent that is added ends an approval exactly when it takes the first rank and fails. -/
theorem added_rejected {xs ys : List (TradeIntent ℝ)} {x : TradeIntent ℝ} {s : ScoredIntent ℝ}
    (henabled : scoreIntent cfg i x = some s)
    (hdistinct : Distinct cfg (withIntents i (xs ++ x :: ys)))
    (happroved : (aggregate cfg sorting (withIntents i (xs ++ ys))).tradeApproved = true) :
    (aggregate cfg sorting (withIntents i (xs ++ x :: ys))).tradeApproved = false ↔
      (∀ t ∈ scored cfg (withIntents i (xs ++ ys)), t.weightedScore < s.weightedScore) ∧
        s.effectiveConviction < threshold cfg i := by
  obtain ⟨hveto, best, rest, hsort, hreach⟩ := (approved_iff sorting).mp happroved
  obtain ⟨hbest, hhighest⟩ := first_highest sorting hsort
  have hperm : (scored cfg (withIntents i (xs ++ x :: ys))).Perm
      (s :: scored cfg (withIntents i (xs ++ ys))) := by
    have hmiddle : (xs ++ x :: ys).Perm (x :: (xs ++ ys)) := List.perm_middle
    have hcons := hmiddle.filterMap (scoreIntent cfg i)
    rwa [List.filterMap_cons, henabled] at hcons
  obtain ⟨first, others, hfirst⟩ := sort_cons sorting (hperm.mem_iff.mpr List.mem_cons_self)
  have hdecided : (aggregate cfg sorting (withIntents i (xs ++ x :: ys))).tradeApproved = true ↔
      threshold cfg i ≤ first.effectiveConviction := by
    rw [approved_iff]
    constructor
    · rintro ⟨-, _, _, hother, hle⟩
      rw [hfirst] at hother
      cases hother
      exact hle
    · exact fun hle => ⟨hveto, first, others, hfirst, hle⟩
  have hne : s.weightedScore ≠ best.weightedScore := by
    have hnodup : ((s :: scored cfg (withIntents i (xs ++ ys))).map (·.weightedScore)).Nodup :=
      (hperm.map _).nodup_iff.mp hdistinct
    rw [List.map_cons, List.nodup_cons] at hnodup
    exact fun heq => hnodup.1 (heq ▸ List.mem_map_of_mem hbest)
  rw [← Bool.not_eq_true, hdecided, not_le]
  rcases lt_or_gt_of_ne hne with hlt | hgt
  · -- the first rank stays where it was
    have hsame := first_unique sorting hdistinct hfirst
      (hperm.mem_iff.mpr (List.mem_cons_of_mem _ hbest)) fun t ht => by
        rcases List.mem_cons.mp (hperm.mem_iff.mp ht) with rfl | ht
        · exact hlt.le
        · exact hhighest t ht
    rw [hsame]
    exact ⟨fun hfail => absurd hfail (not_lt.mpr hreach),
      fun hfail => absurd (hfail.1 best hbest) (lt_asymm hlt)⟩
  · have hsame := first_unique sorting hdistinct hfirst (hperm.mem_iff.mpr List.mem_cons_self)
      fun t ht => by
        rcases List.mem_cons.mp (hperm.mem_iff.mp ht) with rfl | ht
        · exact le_rfl
        · exact (hhighest t ht).trans hgt.le
    rw [hsame]
    exact ⟨fun hfail => ⟨fun t ht => (hhighest t ht).trans_lt hgt, hfail⟩, And.right⟩

include hcfg in
/-- What the committee keeps: a threshold at least the configured one below the cap, a decision
without regard to order, and approvals that only the first rank can cost. -/
theorem committee_lawful :
    (∀ i, IsJudged (aggregate cfg sorting i) →
      min cfg.convictionThreshold 0.80 ≤ (aggregate cfg sorting i).effectiveThreshold) ∧
    (∀ i l, l.Perm i.intents → Distinct cfg i →
      SameDecision (aggregate cfg sorting i) (aggregate cfg sorting (withIntents i l))) ∧
    (∀ i xs ys x s, scoreIntent cfg i x = some s → Distinct cfg (withIntents i (xs ++ x :: ys)) →
      (aggregate cfg sorting (withIntents i (xs ++ ys))).tradeApproved = true →
      ((aggregate cfg sorting (withIntents i (xs ++ x :: ys))).tradeApproved = false ↔
        (∀ t ∈ scored cfg (withIntents i (xs ++ ys)), t.weightedScore < s.weightedScore) ∧
          s.effectiveConviction < threshold cfg i)) ∧
    (∀ i j, Raised i j → j.intents = i.intents → j.features = i.features →
      (aggregate cfg sorting j).tradeApproved = true →
      (aggregate cfg sorting i).tradeApproved = true) ∧
    ∀ i j, Raised i j →
      (∀ x ∈ i.intents, 0 ≤ x.conviction ∨ 0 ≤ (costEstimate cfg i).convictionPenalty) →
      (aggregate cfg sorting j).tradeApproved = true →
      (aggregate cfg sorting i).tradeApproved = true ∨ Outranked cfg sorting i :=
  ⟨fun _ h => judged_bounded hcfg sorting h,
    fun _ _ hperm hdistinct => reordered_same sorting hperm hdistinct,
    fun _ _ _ _ _ henabled hdistinct happroved =>
      added_rejected sorting henabled hdistinct happroved,
    fun _ _ h hintents hfeatures => threatened_approved hcfg sorting h hintents hfeatures,
    fun _ _ h hsign => raised_approved hcfg sorting h hsign⟩

end Laws

noncomputable section Samples

def committee (convictionThreshold : ℝ) : DecisionConfig ℝ :=
  ⟨convictionThreshold, true, 500, true, 5.0, 0.02, 0.08, 0.005, true, 0.3, 50, true⟩

theorem committee_scales (convictionThreshold : ℝ) : Scales (committee convictionThreshold) := by
  constructor <;> norm_num [committee]

def highestFirst : ScoreSort ℝ where
  sort l := l.mergeSort (fun a b => decide (b.weightedScore ≤ a.weightedScore))
  perm l := List.mergeSort_perm l _
  descending l := by
    have h : (l.mergeSort (fun a b => decide (b.weightedScore ≤ a.weightedScore))).Pairwise
        (fun a b => decide (b.weightedScore ≤ a.weightedScore) = true) := List.pairwise_mergeSort
      (by simpa using fun a b c hab hbc => le_trans hbc hab)
      (by simpa using fun a b => le_total _ _) l
    exact h.imp (fun hab => not_lt.mpr (by simpa using hab))

theorem committee_lawful_defaults :
    (∀ i, IsJudged (aggregate (committee 0.65) highestFirst i) →
      min (committee 0.65).convictionThreshold 0.80 ≤
        (aggregate (committee 0.65) highestFirst i).effectiveThreshold) ∧
    (∀ i l, l.Perm i.intents → Distinct (committee 0.65) i →
      SameDecision (aggregate (committee 0.65) highestFirst i)
        (aggregate (committee 0.65) highestFirst (withIntents i l))) ∧
    (∀ i xs ys x s, scoreIntent (committee 0.65) i x = some s →
      Distinct (committee 0.65) (withIntents i (xs ++ x :: ys)) →
      (aggregate (committee 0.65) highestFirst (withIntents i (xs ++ ys))).tradeApproved = true →
      ((aggregate (committee 0.65) highestFirst
          (withIntents i (xs ++ x :: ys))).tradeApproved = false ↔
        (∀ t ∈ scored (committee 0.65) (withIntents i (xs ++ ys)),
          t.weightedScore < s.weightedScore) ∧
          s.effectiveConviction < threshold (committee 0.65) i)) ∧
    (∀ i j, Raised i j → j.intents = i.intents → j.features = i.features →
      (aggregate (committee 0.65) highestFirst j).tradeApproved = true →
      (aggregate (committee 0.65) highestFirst i).tradeApproved = true) ∧
    ∀ i j, Raised i j →
      (∀ x ∈ i.intents, 0 ≤ x.conviction ∨
        0 ≤ (costEstimate (committee 0.65) i).convictionPenalty) →
      (aggregate (committee 0.65) highestFirst j).tradeApproved = true →
      (aggregate (committee 0.65) highestFirst i).tradeApproved = true ∨
        Outranked (committee 0.65) highestFirst i :=
  committee_lawful (committee_scales 0.65) highestFirst

def sure : TradeIntent ℝ := ⟨"sure", .buy, 0.9, 1000000000, "c1"⟩

def heavy (generatedAt : ℤ) : TradeIntent ℝ := ⟨"heavy", .buy, 0.6, generatedAt, "c2"⟩

def calm (spread : ℝ) (intents : List (TradeIntent ℝ)) : Inputs ℝ where
  decidedAt := 1000000000
  intents := intents
  allocation := ⟨[⟨"sure", true, 0.5⟩, ⟨"heavy", true, 0.752⟩], 2⟩
  regimeComputedAt := 0
  stateProbabilities := ⟨fun _ => 0, false⟩
  uncertainty := ⟨.low, .normal, 0⟩
  portfolio := none
  features := some ⟨spread, true, 0, true⟩

theorem calm_unvetoed {t spread : ℝ} (h : spread ≤ 50) (l : List (TradeIntent ℝ)) :
    Unvetoed (committee t) (calm spread l) := by
  refine ⟨rfl, ?_⟩
  show decide (50 < spread + 0) = false
  exact decide_eq_false (by linarith)

theorem calm_threshold (t spread : ℝ) (l : List (TradeIntent ℝ)) :
    threshold (committee t) (calm spread l) =
      min (t + if 0 < spread then min 0.20 (spread / 200) else 0) 0.80 := by
  norm_num [threshold, severity, levelSeverity, drawdownThresholdBoost, costHeadroom,
    costEstimate, computeExecutionCost, calm, committee, stdMin_real, stdMax_real,
    kSuppressionBudget, kSeverityScale, kThresholdHardCap]

theorem calm_effective (t spread : ℝ) (l : List (TradeIntent ℝ)) (x : TradeIntent ℝ)
    (hx : 0 < x.generatedAt) :
    effectiveConviction (committee t) (calm spread l) x =
      max (x.conviction * computeTimeDecay (committee t) (max 0 (1000000000 - x.generatedAt)) -
        spread / 100 * 0.3) 0 := by
  unfold effectiveConviction agedConviction
  rw [stdMax_real, zero_real, if_pos hx]
  norm_num [costEstimate, computeExecutionCost, calm, committee]

variable (t : ℝ)

theorem fresh_decay : computeTimeDecay (committee t) 0 = 1 := by
  norm_num [computeTimeDecay]

variable {spread : ℝ} (l : List (TradeIntent ℝ))

theorem sure_effective (h : spread ≤ 50) :
    effectiveConviction (committee t) (calm spread l) sure = 0.9 - spread / 100 * 0.3 := by
  rw [calm_effective t spread l sure (by norm_num [sure])]
  have hage : max 0 (1000000000 - sure.generatedAt) = 0 := rfl
  rw [hage, fresh_decay, mul_one]
  exact max_eq_left (by norm_num [sure]; linarith)

theorem heavy_effective (h : spread ≤ 50) :
    effectiveConviction (committee t) (calm spread l) (heavy 1000000000) =
      0.6 - spread / 100 * 0.3 := by
  rw [calm_effective t spread l _ (by norm_num [heavy])]
  have hage : max 0 (1000000000 - (heavy 1000000000).generatedAt) = 0 := rfl
  rw [hage, fresh_decay, mul_one]
  exact max_eq_left (by norm_num [heavy]; linarith)

theorem stale_effective :
    effectiveConviction (committee t) (calm 0 l) (heavy 500000000) ≤ 0.59 := by
  rw [calm_effective t 0 l _ (by norm_num [heavy])]
  have hage : max 0 (1000000000 - (heavy 500000000).generatedAt) = 500000000 := rfl
  have hdecay : computeTimeDecay (committee t) 500000000 = Real.exp (-0.693147) := by
    have hcast : (ofInt 500000000 : ℝ) = 500000000 := by
      show ((500000000 : ℤ) : ℝ) = 500000000
      norm_num
    unfold computeTimeDecay
    rw [if_neg (by norm_num), hcast]
    show Real.exp _ = _
    norm_num [committee]
  have hbound : Real.exp (-0.693147) ≤ 0.9 := by
    rw [Real.exp_neg, inv_le_comm₀ (Real.exp_pos _) (by norm_num)]
    exact le_trans (by norm_num) (Real.add_one_le_exp _)
  rw [hage, hdecay]
  refine max_le ?_ (by norm_num)
  norm_num [heavy]
  linarith

theorem approved_first {cfg : DecisionConfig ℝ} (sorting : ScoreSort ℝ) {i : Inputs ℝ}
    (hveto : Unvetoed cfg i) {s : ScoredIntent ℝ} (hs : s ∈ scored cfg i)
    (hfirst : ∀ t ∈ scored cfg i, t = s ∨ t.weightedScore < s.weightedScore) :
    (aggregate cfg sorting i).tradeApproved = true ↔ threshold cfg i ≤ s.effectiveConviction := by
  obtain ⟨best, rest, hsort⟩ := sort_cons sorting hs
  obtain ⟨hbest, hhighest⟩ := first_highest sorting hsort
  have hsame : best = s :=
    (hfirst best hbest).resolve_right (not_lt.mpr (hhighest s hs))
  rw [approved_iff]
  constructor
  · rintro ⟨-, _, _, hother, hle⟩
    rw [hsort] at hother
    cases hother
    exact hsame ▸ hle
  · exact fun hle => ⟨hveto, best, rest, hsort, hsame ▸ hle⟩

def scoreOf (t : ℝ) (i : Inputs ℝ) (x : TradeIntent ℝ) (weight : ℝ) : ScoredIntent ℝ :=
  ⟨x, effectiveConviction (committee t) i x * weight, weight, agedConviction (committee t) i x,
    effectiveConviction (committee t) i x⟩

theorem alone_approved (sorting : ScoreSort ℝ) (h : spread ≤ 50) :
    (aggregate (committee t) sorting (calm spread [sure])).tradeApproved = true ↔
      threshold (committee t) (calm spread [sure]) ≤ 0.9 - spread / 100 * 0.3 := by
  have hscored : scored (committee t) (calm spread [sure]) =
      [scoreOf t (calm spread [sure]) sure 0.5] := rfl
  rw [← sure_effective t [sure] h]
  exact approved_first sorting (calm_unvetoed h _) (hscored ▸ List.mem_singleton_self _)
    fun s hs => Or.inl (List.mem_singleton.mp (hscored ▸ hs))

theorem both_scored (t spread : ℝ) (generatedAt : ℤ) :
    scored (committee t) (calm spread [sure, heavy generatedAt]) =
      [scoreOf t (calm spread [sure, heavy generatedAt]) sure 0.5,
        scoreOf t (calm spread [sure, heavy generatedAt]) (heavy generatedAt) 0.752] := rfl

theorem sure_first (generatedAt : ℤ) (sorting : ScoreSort ℝ) (h : spread ≤ 50)
    (hfirst : effectiveConviction (committee t) (calm spread [sure, heavy generatedAt])
      (heavy generatedAt) * 0.752 < (0.9 - spread / 100 * 0.3) * 0.5) :
    (aggregate (committee t) sorting (calm spread [sure, heavy generatedAt])).tradeApproved =
      true ↔ threshold (committee t) (calm spread [sure, heavy generatedAt]) ≤
        0.9 - spread / 100 * 0.3 := by
  have hmem := both_scored t spread generatedAt ▸ List.mem_cons_self
  rw [← sure_effective t [sure, heavy generatedAt] h] at hfirst ⊢
  refine approved_first sorting (calm_unvetoed h _) hmem fun s hs => ?_
  rw [both_scored] at hs
  rcases List.mem_cons.mp hs with rfl | hs
  · exact Or.inl rfl
  · exact Or.inr (List.mem_singleton.mp hs ▸ hfirst)

theorem heavy_first (sorting : ScoreSort ℝ) :
    (aggregate (committee t) sorting (calm 0 [sure, heavy 1000000000])).tradeApproved = true ↔
      threshold (committee t) (calm 0 [sure, heavy 1000000000]) ≤ 0.6 := by
  have hsure : effectiveConviction (committee t) (calm 0 [sure, heavy 1000000000]) sure = 0.9 := by
    rw [sure_effective t _ (by norm_num)]
    norm_num
  have hheavy : effectiveConviction (committee t) (calm 0 [sure, heavy 1000000000])
      (heavy 1000000000) = 0.6 := by
    rw [heavy_effective t _ (by norm_num)]
    norm_num
  have hmem : scoreOf t (calm 0 [sure, heavy 1000000000]) (heavy 1000000000) 0.752 ∈
      scored (committee t) (calm 0 [sure, heavy 1000000000]) := by
    rw [both_scored]
    exact List.mem_cons_of_mem _ List.mem_cons_self
  have hdecided := approved_first sorting (calm_unvetoed (by norm_num) _) hmem fun s hs => by
    rw [both_scored] at hs
    rcases List.mem_cons.mp hs with rfl | hs
    · right
      show effectiveConviction _ _ _ * _ < effectiveConviction _ _ _ * _
      rw [hsure, hheavy]
      norm_num
    · exact Or.inl (List.mem_singleton.mp hs)
  rw [hdecided]
  show _ ≤ effectiveConviction _ _ _ ↔ _
  rw [hheavy]

theorem older_refl (x : TradeIntent ℝ) : Older x x := ⟨rfl, Or.inl rfl⟩

theorem calm_raised {spread spread' : ℝ} (h : spread ≤ spread') {l m : List (TradeIntent ℝ)}
    (holder : List.Forall₂ Older l m) : Raised (calm spread l) (calm spread' m) where
  decidedAt := rfl
  allocation := rfl
  action := rfl
  level := le_rfl
  valid := rfl
  danger _ _ := le_rfl
  portfolio := .none
  features := .some ⟨rfl, rfl, h, le_rfl⟩
  intents := holder

/-- A threshold above the cap is lowered; an intent of more weight and less conviction ends an
approval, and a wider spread or its age restores it. -/
theorem rank_before_threshold :
    (IsJudged (aggregate (committee 0.9) highestFirst (calm 0 [sure])) ∧
      (aggregate (committee 0.9) highestFirst (calm 0 [sure])).effectiveThreshold < 0.9) ∧
    ((aggregate (committee 0.65) highestFirst (calm 0 [sure])).tradeApproved = true ∧
      (aggregate (committee 0.65) highestFirst
        (calm 0 [sure, heavy 1000000000])).tradeApproved = false) ∧
    (Raised (calm 0 [sure, heavy 1000000000]) (calm 2 [sure, heavy 1000000000]) ∧
      (aggregate (committee 0.65) highestFirst
        (calm 2 [sure, heavy 1000000000])).tradeApproved = true) ∧
    Raised (calm 0 [sure, heavy 1000000000]) (calm 0 [sure, heavy 500000000]) ∧
      (aggregate (committee 0.65) highestFirst
        (calm 0 [sure, heavy 500000000])).tradeApproved = true := by
  have hsame : List.Forall₂ Older [sure, heavy 1000000000] [sure, heavy 1000000000] :=
    .cons (older_refl _) (.cons (older_refl _) .nil)
  have haged : List.Forall₂ Older [sure, heavy 1000000000] [sure, heavy 500000000] :=
    .cons (older_refl _) (.cons ⟨rfl, Or.inr (by decide)⟩ .nil)
  refine ⟨?_, ⟨?_, ?_⟩, ⟨calm_raised (by norm_num) hsame, ?_⟩, calm_raised le_rfl haged, ?_⟩
  · have happroved : (aggregate (committee 0.9) highestFirst (calm 0 [sure])).tradeApproved =
        true := by
      rw [alone_approved 0.9 highestFirst (by norm_num), calm_threshold]
      norm_num
    obtain ⟨hreason, heffective⟩ := approved_record highestFirst happroved
    refine ⟨?_, ?_⟩
    · unfold IsJudged
      rw [hreason]
      exact List.mem_cons_self
    · rw [heffective, calm_threshold]
      norm_num
  · rw [alone_approved 0.65 highestFirst (by norm_num), calm_threshold]
    norm_num
  · rw [← Bool.not_eq_true, heavy_first, calm_threshold]
    norm_num
  · rw [sure_first 0.65 1000000000 highestFirst (by norm_num), calm_threshold]
    · norm_num
    · rw [heavy_effective _ _ (by norm_num)]
      norm_num
  · rw [sure_first 0.65 500000000 highestFirst (by norm_num), calm_threshold]
    · norm_num
    · have hstale := stale_effective 0.65 [sure, heavy 500000000]
      norm_num at hstale ⊢
      linarith

end Samples

end TB.Committee
