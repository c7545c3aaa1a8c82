import TomorrowBot.DoubleFunctions
import TomorrowBot.StrategyTypes

/-!
# The advice on execution

The style of an order is chosen from the spread, the toxicity of the flow, the
urgency and the expected shortfall of each style; price and slices follow. The
texts that explain an advice are left out.
-/

set_option autoImplicit false

namespace TB.ExecutionAlpha
open TB.CommonTypes TB.TradingContext TB.StrategyTypes
open TB.ExecutionPlanner (ExecutionStyle ExecutionAlphaResult)

structure AlphaConfig (F : Type) where
  maxSpreadBpsPassive : F
  maxSpreadBpsAny : F
  adverseSelectionThreshold : F
  urgencyAggressiveThreshold : F
  largeOrderSliceThreshold : F
  vpinToxicThreshold : F
  vpinWeight : F
  useWeightedMidPrice : Bool
  limitPricePassiveBps : F
  urgencyCusumBoost : F
  urgencyTodWeight : F
  minFillProbabilityPassive : F
  postonlySpreadThresholdBps : F
  postonlyAdverseMax : F
  takerFeeBps : F
  makerFeeBps : F
  opportunityCostBps : F
  queueDepletionPenalty : F
  churnPenalty : F
  feedbackWeight : F

structure Quality (F : Type) where
  spreadCostBps : F
  estimatedSlippageBps : F
  fillProbability : F
  adverseSelectionRisk : F
  totalCostBps : F

structure SlicePlan (F : Type) where
  numSlices : ℤ
  sliceIntervalMs : F
  firstSlicePct : F

structure DecisionFactors (F : Type) where
  spreadToxicity : F
  flowToxicity : F
  bookInstabilityScore : F
  vpinToxicity : F
  adverseSelectionScore : F
  directionalImbalance : F
  imbalanceUsed : Bool
  urgencyBase : F
  urgencyVolAdj : F
  urgencyMomentumAdj : F
  urgencyCusumAdj : F
  urgencyTodAdj : F
  vpinUsed : Bool
  weightedMidUsed : Bool
  featuresComplete : Bool

structure AlphaResult (F : Type) where
  recommendedStyle : ExecutionStyle
  urgencyScore : F
  quality : Quality F
  recommendedLimitPrice : Option F
  slicePlan : Option (SlicePlan F)
  shouldExecute : Bool
  computedAt : Timestamp
  decisionFactors : DecisionFactors F

def AlphaResult.advice {F : Type} (r : AlphaResult F) : ExecutionAlphaResult F :=
  ⟨r.shouldExecute, r.recommendedStyle, r.urgencyScore, r.recommendedLimitPrice,
    r.quality.spreadCostBps⟩

def AlphaResult.estimate {F : Type} (r : AlphaResult F) : ExecutionQualityEstimate F :=
  ⟨r.quality.estimatedSlippageBps⟩

section Defaults
variable {F : Type} [DoubleArith F]

def defaultAlphaConfig : AlphaConfig F where
  maxSpreadBpsPassive := 15.0
  maxSpreadBpsAny := 50.0
  adverseSelectionThreshold := 0.7
  urgencyAggressiveThreshold := 0.8
  largeOrderSliceThreshold := 0.1
  vpinToxicThreshold := 0.65
  vpinWeight := 0.40
  useWeightedMidPrice := true
  limitPricePassiveBps := 3.0
  urgencyCusumBoost := 0.15
  urgencyTodWeight := 0.10
  minFillProbabilityPassive := 0.25
  postonlySpreadThresholdBps := 4.5
  postonlyAdverseMax := 0.35
  takerFeeBps := 6.0
  makerFeeBps := 2.0
  opportunityCostBps := 30.0
  queueDepletionPenalty := 0.08
  churnPenalty := 0.06
  feedbackWeight := 0.30

def newQuality : Quality F := ⟨0.0, 0.0, 0.5, 0.0, 0.0⟩

def newFactors : DecisionFactors F :=
  ⟨0.0, 0.0, 0.0, 0.0, 0.0, 0.0, false, 0.0, 0.0, 0.0, 0.0, 0.0, false, false, true⟩

def newResult (computedAt : Timestamp) : AlphaResult F :=
  ⟨.passive, 0.0, newQuality, none, none, true, computedAt, newFactors⟩

end Defaults

section Scores
variable {F : Type} [DoubleArith F] (cfg : AlphaConfig F) (intent : StrategyIntent F)
  (features : FeatureSnapshot F)

def validateFeatures : Prop :=
  ¬ (isfinite features.midPrice = false ∨ features.midPrice ≤ 0.0) ∧
    features.microstructure.spreadValid = true ∧
    ¬ (isfinite features.microstructure.spreadBps = false ∨
      features.microstructure.spreadBps < 0.0)

instance : Decidable (validateFeatures features) := inferInstanceAs (Decidable (_ ∧ _))

def momentumAdj : F :=
  let directional := features.technical.momentum5 *
    (match intent.side with
      | .buy => 1.0
      | .sell => -1.0)
  if directional < 0.0 then stdMin (stdAbs directional * 0.5) 0.15
  else -stdMin (directional * 0.25) 0.10

def computeUrgency (factors : DecisionFactors F) : F × DecisionFactors F :=
  let t := features.technical
  let vol :=
    if t.volatilityValid = true ∧ 0.0 < t.volatility5 then stdMin (t.volatility5 * 2.0) 0.20
    else 0.0
  let urgency := if t.volatilityValid = true ∧ 0.0 < t.volatility5 then intent.urgency + vol
    else intent.urgency
  let momentum := if t.momentumValid then momentumAdj intent features else 0.0
  let urgency := if t.momentumValid then urgency + momentum else urgency
  let cusum := if t.cusumValid && t.cusumRegimeChange then cfg.urgencyCusumBoost else 0.0
  let urgency := if t.cusumValid && t.cusumRegimeChange then urgency + cusum else urgency
  let tod := if t.todValid then t.todAlphaScore * cfg.urgencyTodWeight else 0.0
  let urgency := if t.todValid then urgency + tod else urgency
  (stdClamp urgency 0.0 1.0, { factors with
    urgencyBase := intent.urgency
    urgencyVolAdj := vol
    urgencyMomentumAdj := momentum
    urgencyCusumAdj := cusum
    urgencyTodAdj := tod })

def usesVpin : Prop := features.microstructure.vpinValid = true ∧ 0.0 < cfg.vpinToxicThreshold

instance : Decidable (usesVpin cfg features) := inferInstanceAs (Decidable (_ ∧ _))

def estimateAdverseSelection (factors : DecisionFactors F) : F × DecisionFactors F :=
  let m := features.microstructure
  let vpin := stdClamp (m.vpin / cfg.vpinToxicThreshold) 0.0 1.0
  let flow := stdClamp m.aggressiveFlow 0.0 1.0
  let instability := stdClamp m.bookInstability 0.0 1.0
  let spread := stdClamp (m.spreadBps / cfg.maxSpreadBpsAny) 0.0 1.0
  let (score, weight) := if usesVpin cfg features then
      (0.0 + vpin * cfg.vpinWeight, 0.0 + cfg.vpinWeight)
    else (0.0, 0.0)
  let (score, weight) := if m.tradeFlowValid then (score + flow, weight + 1.0) else (score, weight)
  let (score, weight) := if m.instabilityValid then (score + instability, weight + 1.0)
    else (score, weight)
  let (score, weight) := if m.spreadValid then (score + spread, weight + 1.0) else (score, weight)
  let result := if 0.0 < weight then score / weight else 0.0
  (result, { factors with
    vpinToxicity := if usesVpin cfg features then vpin else factors.vpinToxicity
    vpinUsed := if usesVpin cfg features then true else factors.vpinUsed
    flowToxicity := if m.tradeFlowValid then flow else factors.flowToxicity
    bookInstabilityScore := if m.instabilityValid then instability
      else factors.bookInstabilityScore
    spreadToxicity := if m.spreadValid then spread else factors.spreadToxicity
    adverseSelectionScore := result })

def directionalImbalance (side : Side) : F :=
  let m := features.microstructure
  if m.bookImbalanceValid then
    match side with
    | .buy => m.bookImbalance5
    | .sell => -m.bookImbalance5
  else 0.0

end Scores

section Fills
variable {F : Type} [DoubleRounding F] (cfg : AlphaConfig F) (intent : StrategyIntent F)
  (features : FeatureSnapshot F)

def estimateQueuePosition (ourOrder bestLevel depletionPerSec : F) (seconds : ℤ) : Option F :=
  if bestLevel ≤ 0.0 ∨ ourOrder ≤ 0.0 then none
  else
    let relative := stdClamp (ourOrder / bestLevel) 0.0 1.0
    let position := stdClamp (0.5 + 0.5 * relative) 0.0 1.0
    if 0.0 < depletionPerSec then
      let expected := depletionPerSec * ofInt seconds
      some (stdClamp (expected / (position * bestLevel + ourOrder)) 0.0 1.0)
    else some 0.0

def orderNotional : F := intent.suggestedQuantity * features.midPrice

def oppositeDepth : F :=
  match intent.side with
  | .buy => features.microstructure.askDepth5Notional
  | .sell => features.microstructure.bidDepth5Notional

def ownDepth : F :=
  match intent.side with
  | .buy => features.microstructure.bidDepth5Notional
  | .sell => features.microstructure.askDepth5Notional

def ownDepletion : F :=
  match intent.side with
  | .buy => features.microstructure.queueDepletionBid
  | .sell => features.microstructure.queueDepletionAsk

def sizePenalty (fp : F) : F :=
  if features.microstructure.liquidityValid = true ∧ 0.0 < oppositeDepth intent features then
    fp - stdClamp (orderNotional intent features / oppositeDepth intent features) 0.0 1.0 * 0.15
  else fp

def imbalanceBonus (imbalance fp : F) : F :=
  if 0.0 < imbalance then fp + stdClamp (imbalance * 0.10) 0.0 0.10
  else fp + stdClamp (imbalance * 0.10) (-0.10) 0.0

def queueAdjusted (fp : F) : F :=
  let m := features.microstructure
  if m.eventFeaturesValid then
    let depletion := ownDepletion intent features
    let fp := fp - stdClamp depletion 0.0 1.0 * cfg.queueDepletionPenalty
    let fp := fp - stdClamp m.topOfBookChurn 0.0 1.0 * cfg.churnPenalty
    if m.liquidityValid then
      let depth := ownDepth intent features
      match estimateQueuePosition (orderNotional intent features) (stdMax depth 1.0)
          (depletion * (depth / 60.0)) 30 with
      | some fill => fp * (1.0 - 0.30) + fill * 0.30
      | none => fp
    else fp
  else fp

def feedbackBlended (fp : F) : F :=
  let m := features.microstructure
  if m.executionFeedbackValid = true ∧ 0.0 < m.passiveFillRate then
    fp * (1.0 - cfg.feedbackWeight) + m.passiveFillRate * cfg.feedbackWeight
  else fp

def passiveFill (imbalance : F) : F :=
  let m := features.microstructure
  let ratio := if 1e-9 < cfg.maxSpreadBpsPassive then m.spreadBps / cfg.maxSpreadBpsPassive
    else 10.0
  let fp := 0.60 - stdClamp (ratio * 0.15) 0.0 0.20
  let fp := sizePenalty intent features fp
  let fp := imbalanceBonus imbalance fp
  let fp := queueAdjusted cfg intent features fp
  let fp := feedbackBlended cfg features fp
  stdClamp fp (stdMin cfg.minFillProbabilityPassive 0.75) 0.75

def hybridFill : F :=
  let m := features.microstructure
  let penalty := stdClamp (m.spreadBps / cfg.maxSpreadBpsAny * 0.15) 0.0 0.15
  stdClamp (if m.spreadValid then 0.80 - penalty else 0.80) 0.60 0.92

def estimateFillProbability (style : ExecutionStyle) (imbalance : F) : F :=
  match style with
  | .aggressive => 0.95
  | .noExecution => 0.0
  | .passive | .postOnly => passiveFill cfg intent features imbalance
  | .hybrid => hybridFill cfg features

def isMaker : ExecutionStyle → Bool
  | .passive | .postOnly => true
  | _ => false

def styleSlippage (style : ExecutionStyle) : F :=
  match style with
  | .aggressive => features.executionContext.estimatedSlippageBps
  | .hybrid => features.executionContext.estimatedSlippageBps * 0.4
  | _ => 0.0

def estimateQuality (style : ExecutionStyle) (adverse imbalance : F) : Quality F :=
  let spread := features.microstructure.spreadBps
  if style = .noExecution then
    { (newQuality : Quality F) with
      spreadCostBps := spread
      adverseSelectionRisk := adverse
      fillProbability := 0.0 }
  else
    let slippage := styleSlippage features style
    let half := spread / 2.0
    { spreadCostBps := spread
      estimatedSlippageBps := slippage
      fillProbability := estimateFillProbability cfg intent features style imbalance
      adverseSelectionRisk := adverse
      totalCostBps :=
        if isMaker style then spread * 0.30 + cfg.makerFeeBps + adverse * spread * 0.20
        else half + slippage + cfg.takerFeeBps + adverse * half * 0.15 }

end Fills

section Style
variable {F : Type} [DoubleRounding F] (cfg : AlphaConfig F) (intent : StrategyIntent F)
  (features : FeatureSnapshot F)

structure StyleCandidate (F : Type) where
  style : ExecutionStyle
  eis : F
  viable : Bool

def unviable (adverse : F) (style : ExecutionStyle) : Prop :=
  let spread := features.microstructure.spreadBps
  (style = .postOnly ∧
      (cfg.postonlySpreadThresholdBps ≤ spread ∨ cfg.postonlyAdverseMax ≤ adverse)) ∨
    (isMaker style = true ∧ cfg.maxSpreadBpsPassive < spread)

instance (adverse : F) (style : ExecutionStyle) : Decidable (unviable cfg features adverse style) :=
  inferInstanceAs (Decidable (_ ∨ _))

def computeEis (urgency adverse imbalance : F) (style : ExecutionStyle) : StyleCandidate F :=
  if unviable cfg features adverse style then ⟨style, 1e12, false⟩
  else
    let fp := estimateFillProbability cfg intent features style imbalance
    let q := estimateQuality cfg intent features style adverse imbalance
    ⟨style, fp * q.totalCostBps + (1.0 - fp) * (urgency * cfg.opportunityCostBps), true⟩

def better (best c : StyleCandidate F) : StyleCandidate F :=
  if c.viable = true ∧ c.eis < best.eis then c else best

def leastShortfall (urgency adverse imbalance : F) : ExecutionStyle :=
  (([.postOnly, .passive, .hybrid, .aggressive].map
    (computeEis cfg intent features urgency adverse imbalance)).foldl better
      ⟨.hybrid, 1e12, false⟩).style

def toxicVpin : Prop :=
  let m := features.microstructure
  m.vpinValid = true ∧ m.vpinToxic = true ∧ cfg.vpinToxicThreshold < m.vpin

instance : Decidable (toxicVpin cfg features) := inferInstanceAs (Decidable (_ ∧ _))

def determineStyle (urgency adverse imbalance : F) : ExecutionStyle :=
  if cfg.maxSpreadBpsAny < features.microstructure.spreadBps then .noExecution
  else if toxicVpin cfg features then .passive
  else if cfg.adverseSelectionThreshold < adverse then .noExecution
  else if cfg.urgencyAggressiveThreshold < urgency then .aggressive
  else leastShortfall cfg intent features urgency adverse imbalance

def referenceMid : F × Bool :=
  if cfg.useWeightedMidPrice = true ∧ 0.0 < features.microstructure.weightedMidPrice then
    (features.microstructure.weightedMidPrice, true)
  else (features.midPrice, false)

def limitPriceAt (style : ExecutionStyle) (mid spread : F) : F :=
  let half := spread / 2.0
  let improvement := stdMin (mid * cfg.limitPricePassiveBps / 10000.0) (half * 0.30)
  if isMaker style then
    match intent.side with
    | .buy => mid - half + improvement
    | .sell => mid + half - improvement
  else
    match intent.side with
    | .buy => mid + half * 0.4
    | .sell => mid - half * 0.4

def computeLimitPrice (style : ExecutionStyle) : Option F × Bool :=
  let spread := features.microstructure.spread
  if style = .aggressive ∨ style = .noExecution then (none, false)
  else if spread ≤ 0.0 then (none, false)
  else
    let (mid, weighted) := referenceMid cfg features
    if mid ≤ 0.0 then (none, weighted)
    else (some (limitPriceAt cfg intent style mid spread), weighted)

def slicePlanOf (ratio : F) : SlicePlan F :=
  let m := features.microstructure
  let slices := min (max 2 (toInt (ratio / cfg.largeOrderSliceThreshold))) 10
  let base := 200.0 * ofInt slices
  let interval := if m.instabilityValid = true ∧ 0.5 < m.bookInstability then base * 0.7 else base
  ⟨slices, stdClamp interval 200.0 5000.0, 1.0 / ofInt slices⟩

def computeSlicePlan : Option (SlicePlan F) :=
  let depth := oppositeDepth intent features
  let notional := orderNotional intent features
  let ratio := notional / depth
  if features.microstructure.liquidityValid = false ∨ depth ≤ 0.0 then none
  else if isfinite notional = false ∨ isfinite ratio = false then none
  else if cfg.largeOrderSliceThreshold ≤ 0.0 then none
  else if ratio < cfg.largeOrderSliceThreshold then none
  else if isfinite (ratio / cfg.largeOrderSliceThreshold) = false then none
  else some (slicePlanOf cfg features ratio)

end Style

section Evaluate
variable {F : Type} [DoubleRounding F] (cfg : AlphaConfig F) (intent : StrategyIntent F)
  (features : FeatureSnapshot F) (uncertainty : UncertaintySnapshot F)

def AlphaResult.refuse (r : AlphaResult F) : AlphaResult F :=
  { r with shouldExecute := false, recommendedStyle := .noExecution }

def haltedByUncertainty : Prop :=
  uncertainty.executionMode = .haltNewEntries ∨
    (uncertainty.executionMode = .defensiveOnly ∧ intent.tradeSide = .opening) ∨
    uncertainty.level = .extreme

instance : Decidable (haltedByUncertainty intent uncertainty) :=
  inferInstanceAs (Decidable (_ ∨ _))

def calmedStyle (style : ExecutionStyle) : ExecutionStyle :=
  if uncertainty.level = .high ∧ style = .aggressive then .passive else style

def evaluate (now : Timestamp) : AlphaResult F :=
  let r : AlphaResult F := newResult now
  if ¬ validateFeatures features then
    { r.refuse with decisionFactors := { r.decisionFactors with featuresComplete := false } }
  else if haltedByUncertainty intent uncertainty then r.refuse
  else
    let (rawUrgency, factors) := computeUrgency cfg intent features newFactors
    let urgency := rawUrgency * uncertainty.sizeMultiplier
    let (adverse, factors) := estimateAdverseSelection cfg features factors
    let imbalance := directionalImbalance features intent.side
    let factors := { factors with
      directionalImbalance := imbalance
      imbalanceUsed := features.microstructure.bookImbalanceValid }
    let style := determineStyle cfg intent features urgency adverse imbalance
    let r := { r with urgencyScore := urgency, decisionFactors := factors }
    if style = .noExecution then r.refuse
    else
      let style := calmedStyle uncertainty style
      let (price, weighted) := computeLimitPrice cfg intent features style
      { r with
        recommendedStyle := style
        quality := estimateQuality cfg intent features style adverse imbalance
        recommendedLimitPrice := price
        slicePlan := computeSlicePlan cfg intent features
        decisionFactors := { factors with weightedMidUsed := weighted }
        shouldExecute := true }

end Evaluate

section Refusals
variable {F : Type} [DoubleRounding F] (cfg : AlphaConfig F) (intent : StrategyIntent F)
  (features : FeatureSnapshot F) (uncertainty : UncertaintySnapshot F)

variable (urgency adverse imbalance : F)

theorem computeEis_style (style : ExecutionStyle) :
    (computeEis cfg intent features urgency adverse imbalance style).style = style := by
  unfold computeEis
  split_ifs <;> rfl

theorem better_style {P : ExecutionStyle → Prop} (best c : StyleCandidate F) (hb : P best.style)
    (hc : P c.style) : P (better best c).style := by
  unfold better
  split_ifs
  · exact hc
  · exact hb

theorem leastShortfall_trades :
    leastShortfall cfg intent features urgency adverse imbalance ≠ .noExecution := by
  have hfold : ∀ (styles : List ExecutionStyle) (best : StyleCandidate F),
      best.style ≠ .noExecution → (∀ s ∈ styles, s ≠ .noExecution) →
      ((styles.map (computeEis cfg intent features urgency adverse imbalance)).foldl better
        best).style ≠ .noExecution := by
    intro styles
    induction styles with
    | nil => exact fun best hb _ => hb
    | cons s styles ih =>
      intro best hb hs
      refine ih _ ?_ (fun t ht => hs t (List.mem_cons_of_mem s ht))
      apply better_style (P := (· ≠ .noExecution)) best _ hb
      rw [computeEis_style]
      exact hs s List.mem_cons_self
  have hbest : ExecutionStyle.hybrid ≠ .noExecution := by decide
  exact hfold _ _ hbest (by decide)

def hostile (adverse : F) : Prop :=
  cfg.maxSpreadBpsAny < features.microstructure.spreadBps ∨
    ¬ toxicVpin cfg features ∧ cfg.adverseSelectionThreshold < adverse

theorem determineStyle_refuses :
    determineStyle cfg intent features urgency adverse imbalance = .noExecution ↔
      hostile cfg features adverse := by
  have htrades := leastShortfall_trades cfg intent features urgency adverse imbalance
  unfold determineStyle hostile
  split_ifs with hwide htoxic hadverse hurgent <;> simp_all

def adverseScore : F := (estimateAdverseSelection cfg features newFactors).1

def urgencyScore : F :=
  (computeUrgency cfg intent features newFactors).1 * uncertainty.sizeMultiplier

def advisedStyle : ExecutionStyle :=
  calmedStyle uncertainty
    (determineStyle cfg intent features (urgencyScore cfg intent features uncertainty)
      (adverseScore cfg features) (directionalImbalance features intent.side))

def refuses : Prop :=
  ¬ validateFeatures features ∨ haltedByUncertainty intent uncertainty ∨
    hostile cfg features (adverseScore cfg features)

theorem evaluate_refused (now : Timestamp) (h : refuses cfg intent features uncertainty) :
    (evaluate cfg intent features uncertainty now).shouldExecute = false ∧
      (evaluate cfg intent features uncertainty now).advice.recommendedStyle = .noExecution := by
  unfold evaluate
  by_cases hvalid : validateFeatures features
  · rw [if_neg (not_not_intro hvalid)]
    by_cases hhalt : haltedByUncertainty intent uncertainty
    · rw [if_pos hhalt]
      exact ⟨rfl, rfl⟩
    · rw [if_neg hhalt]
      have hhostile := (h.resolve_left (not_not_intro hvalid)).resolve_left hhalt
      have hstyle := (determineStyle_refuses cfg intent features
        (urgencyScore cfg intent features uncertainty) (adverseScore cfg features)
        (directionalImbalance features intent.side)).mpr hhostile
      exact ⟨congrArg AlphaResult.shouldExecute (if_pos hstyle),
        congrArg (fun r => (AlphaResult.advice r).recommendedStyle) (if_pos hstyle)⟩
  · rw [if_pos hvalid]
    exact ⟨rfl, rfl⟩

theorem evaluate_advised (now : Timestamp) (h : ¬ refuses cfg intent features uncertainty) :
    (evaluate cfg intent features uncertainty now).advice =
      ⟨true, advisedStyle cfg intent features uncertainty,
        urgencyScore cfg intent features uncertainty,
        (computeLimitPrice cfg intent features
          (advisedStyle cfg intent features uncertainty)).1,
        features.microstructure.spreadBps⟩ := by
  obtain ⟨hvalid, hhalt, hcalm⟩ : validateFeatures features ∧
      ¬ haltedByUncertainty intent uncertainty ∧
        ¬ hostile cfg features (adverseScore cfg features) := by
    unfold refuses at h
    tauto
  have hstyle := mt (determineStyle_refuses cfg intent features
    (urgencyScore cfg intent features uncertainty) (adverseScore cfg features)
    (directionalImbalance features intent.side)).mp hcalm
  unfold evaluate
  rw [if_neg (not_not_intro hvalid), if_neg hhalt]
  refine (congrArg AlphaResult.advice (if_neg hstyle)).trans ?_
  have hspread : (estimateQuality cfg intent features
      (advisedStyle cfg intent features uncertainty) (adverseScore cfg features)
      (directionalImbalance features intent.side)).spreadCostBps =
        features.microstructure.spreadBps := by
    unfold estimateQuality
    split_ifs <;> rfl
  exact congrArg (ExecutionAlphaResult.mk true _ _ _) hspread

end Refusals

end TB.ExecutionAlpha
