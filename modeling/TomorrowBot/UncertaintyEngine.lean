import TomorrowBot.TradingContext

/-!
# The uncertainty engine

An assessment clamps each signal to a score, takes the worst of the hard
signals with the mean of the soft ones, and derives level, multipliers and a
cooldown from the sum. Of the earlier assessments of a symbol it keeps an
average, the level and counters.
-/

set_option autoImplicit false

namespace TB.UncertaintyEngine
open TB.CommonTypes TB.TradingContext

structure UncertaintyConfig (F : Type) where
  thresholdLow : F
  thresholdModerate : F
  thresholdHigh : F
  hysteresisDown : F
  emaAlpha : F
  sizeFloor : F
  thresholdCeiling : F
  consecutiveExtremeForCooldown : ℤ
  cooldownDurationNs : ℤ

structure RegimeSnapshot (F : Type) where
  confidence : F

structure FragilityScore (F : Type) where
  value : F
  valid : Bool

structure WorldModelSnapshot (F : Type) where
  fragility : FragilityScore F

structure MlSignalSnapshot (F : Type) where
  cascadeProbability : F
  correlationBreak : Bool

inductive UncertaintyAction where
  | normal
  | reducedSize
  | higherThreshold
  | noTrade
  deriving DecidableEq, Repr

structure UncertaintyDimensions (F : Type) where
  regimeUncertainty : F
  signalUncertainty : F
  dataQualityUncertainty : F
  executionUncertainty : F
  portfolioUncertainty : F
  mlUncertainty : F
  correlationUncertainty : F
  transitionUncertainty : F
  operationalUncertainty : F

structure Assessment (F : Type) extends UncertaintySnapshot F where
  aggregateScore : F
  dimensions : UncertaintyDimensions F
  recommendedAction : UncertaintyAction
  thresholdMultiplier : F
  computedAt : Timestamp
  symbol : Symbol
  cooldownRemainingNs : ℤ
  cooldownDecayFactor : F
  persistentScore : F
  spikeScore : F

structure SymbolState (F : Type) where
  emaScore : F
  prevLevel : UncertaintyLevel
  lastAssessNs : ℤ
  cooldownUntilNs : ℤ
  consecutiveExtreme : ℤ
  consecutiveHigh : ℤ

structure UncertaintyDiagnostics (F : Type) where
  totalAssessments : ℕ
  vetoCount : ℕ
  cooldownActivations : ℕ
  avgAggregateScore : F
  lastAssessment : Timestamp

structure Engine (F : Type) where
  states : Symbol → SymbolState F
  diagnostics : UncertaintyDiagnostics F

structure Call (F : Type) where
  features : FeatureSnapshot F
  regime : RegimeSnapshot F
  world : WorldModelSnapshot F
  ml : MlSignalSnapshot F
  now : Timestamp
  computedAt : Timestamp

structure SubScores (F : Type) where
  spread : F
  data : F
  vpin : F
  instability : F
  regime : F
  world : F
  ml : F

variable {F : Type} [DoubleArith F]

def initialState : SymbolState F := ⟨0.5, .moderate, 0, 0, 0, 0⟩

def initialDiagnostics : UncertaintyDiagnostics F := ⟨0, 0, 0, 0.5, 0⟩

def initialEngine : Engine F := ⟨fun _ => initialState, initialDiagnostics⟩

def neutralMl : MlSignalSnapshot F := ⟨0.0, false⟩

section Scores

def clamp01 (x : F) : F := stdClamp x 0.0 1.0

def kSpreadSatBps : F := 25.0
def kStaleFeedSeverity : F := 0.8
def kVpinToxicSeverity : F := 0.85
def kVpinNonToxicLowerThr : F := 0.4
def kVpinNonToxicRange : F := 0.4
def kCorrelationBreakSeverity : F := 0.7
def kHardSignalWeight : F := 0.7
def kSoftSignalWeight : F := 0.3

def spreadScore (m : MicrostructureFeatures F) : F :=
  if m.spreadValid && isfinite m.spreadBps then clamp01 (m.spreadBps / kSpreadSatBps) else 0.5

def vpinScore (m : MicrostructureFeatures F) : F :=
  if m.vpinValid then
    if m.vpinToxic then kVpinToxicSeverity
    else clamp01 ((m.vpin - kVpinNonToxicLowerThr) / kVpinNonToxicRange)
  else 0.0

def regimeScore (regime : RegimeSnapshot F) : F :=
  if isfinite regime.confidence then clamp01 (1.0 - regime.confidence) * 0.5 else 0.25

def worldScore (world : WorldModelSnapshot F) : F :=
  if world.fragility.valid then clamp01 world.fragility.value else 0.3

def mlScore (ml : MlSignalSnapshot F) : F :=
  let cascade := stdMax 0.0 (clamp01 ml.cascadeProbability)
  if ml.correlationBreak then stdMax cascade kCorrelationBreakSeverity else cascade

def subScores (c : Call F) : SubScores F where
  spread := spreadScore c.features.microstructure
  data := if c.features.executionContext.isFeedFresh then 0.0 else kStaleFeedSeverity
  vpin := vpinScore c.features.microstructure
  instability := clamp01 c.features.microstructure.bookInstability
  regime := regimeScore c.regime
  world := worldScore c.world
  ml := mlScore c.ml

def hardMax (u : SubScores F) : F :=
  stdMax (stdMax (stdMax u.spread u.data) u.vpin) u.instability

def softAvg (u : SubScores F) : F := (u.regime + u.world + u.ml) / 3.0

def rawScore (u : SubScores F) : F :=
  clamp01 (kHardSignalWeight * hardMax u + kSoftSignalWeight * softAvg u)

end Scores

section Levels

def levelRank : UncertaintyLevel → ℕ
  | .low => 0
  | .moderate => 1
  | .high => 2
  | .extreme => 3

def levelOf (cfg : UncertaintyConfig F) (raw : F) : UncertaintyLevel :=
  if cfg.thresholdHigh ≤ raw then .extreme
  else if cfg.thresholdModerate ≤ raw then .high
  else if cfg.thresholdLow ≤ raw then .moderate
  else .low

def levelAfter (cfg : UncertaintyConfig F) (raw : F) (prev : UncertaintyLevel) :
    UncertaintyLevel :=
  let level := levelOf cfg raw
  if levelRank level < levelRank prev then
    if prev = .extreme ∧ cfg.thresholdHigh - cfg.hysteresisDown < raw then .extreme
    else if prev = .high ∧ cfg.thresholdModerate - cfg.hysteresisDown < raw then .high
    else level
  else level

def actionOf : UncertaintyLevel → UncertaintyAction
  | .low => .normal
  | .moderate => .reducedSize
  | .high => .higherThreshold
  | .extreme => .noTrade

def sizeMultiplierOf (cfg : UncertaintyConfig F) : UncertaintyLevel → F
  | .low => 1.0
  | .moderate => 0.7
  | .high => 0.4
  | .extreme => cfg.sizeFloor

def thresholdMultiplierOf (cfg : UncertaintyConfig F) : UncertaintyLevel → F
  | .low => 1.0
  | .moderate => 1.1
  | .high => 1.5
  | .extreme => stdMin cfg.thresholdCeiling 2.0

def executionModeOf : UncertaintyLevel → ExecutionModeRecommendation
  | .low => .normal
  | .moderate => .conservative
  | .high => .defensiveOnly
  | .extreme => .haltNewEntries

end Levels

section Assess

def dimensionsOf (c : Call F) (u : SubScores F) : UncertaintyDimensions F where
  regimeUncertainty := u.regime
  signalUncertainty := u.vpin
  dataQualityUncertainty := u.data
  executionUncertainty := u.spread
  portfolioUncertainty := 0.0
  mlUncertainty := u.ml
  correlationUncertainty := if c.ml.correlationBreak then 0.7 else 0.0
  transitionUncertainty := u.regime
  operationalUncertainty := u.data

def emaAfter (cfg : UncertaintyConfig F) (ema raw : F) : F :=
  let alpha := stdClamp cfg.emaAlpha 0.01 1.0
  (1.0 - alpha) * ema + alpha * raw

def countLevel (level : UncertaintyLevel) (s : SymbolState F) : SymbolState F :=
  match level with
  | .extreme => { s with consecutiveExtreme := s.consecutiveExtreme + 1, consecutiveHigh := 0 }
  | .high => { s with consecutiveHigh := s.consecutiveHigh + 1, consecutiveExtreme := 0 }
  | _ => { s with consecutiveExtreme := 0, consecutiveHigh := 0 }

def isCooldownDue (cfg : UncertaintyConfig F) (s : SymbolState F) : Bool :=
  cfg.consecutiveExtremeForCooldown ≤ s.consecutiveExtreme

def stateAfter (cfg : UncertaintyConfig F) (c : Call F) (s : SymbolState F) : SymbolState F :=
  let raw := rawScore (subScores c)
  let level := levelAfter cfg raw s.prevLevel
  let s := countLevel level { s with emaScore := emaAfter cfg s.emaScore raw }
  { s with
    cooldownUntilNs :=
      if isCooldownDue cfg s then c.now + cfg.cooldownDurationNs else s.cooldownUntilNs
    prevLevel := level
    lastAssessNs := c.now }

def reportOf (cfg : UncertaintyConfig F) (c : Call F) (s : SymbolState F) : Assessment F :=
  let u := subScores c
  let raw := rawScore u
  let active := decide (c.now < s.cooldownUntilNs)
  { level := s.prevLevel
    sizeMultiplier := sizeMultiplierOf cfg s.prevLevel
    executionMode := if active then .haltNewEntries else executionModeOf s.prevLevel
    cooldown := ⟨active, if active then "consecutive_extreme" else ""⟩
    aggregateScore := raw
    dimensions := dimensionsOf c u
    recommendedAction := if active then .noTrade else actionOf s.prevLevel
    thresholdMultiplier := thresholdMultiplierOf cfg s.prevLevel
    computedAt := c.computedAt
    symbol := c.features.symbol
    cooldownRemainingNs := if active then s.cooldownUntilNs - c.now else 0
    cooldownDecayFactor := if active then 0.5 else 1.0
    persistentScore := s.emaScore
    spikeScore := stdMax 0.0 (raw - s.emaScore) }

def diagnose (cfg : UncertaintyConfig F) (c : Call F) (s : SymbolState F) (out : Assessment F)
    (d : UncertaintyDiagnostics F) : UncertaintyDiagnostics F where
  totalAssessments := d.totalAssessments + 1
  vetoCount := d.vetoCount + if out.recommendedAction = .noTrade then 1 else 0
  cooldownActivations := d.cooldownActivations + if isCooldownDue cfg s then 1 else 0
  avgAggregateScore := 0.95 * d.avgAggregateScore + 0.05 * out.aggregateScore
  lastAssessment := c.computedAt

def assess (cfg : UncertaintyConfig F) (e : Engine F) (c : Call F) : Engine F × Assessment F :=
  let s := stateAfter cfg c (e.states c.features.symbol)
  let out := reportOf cfg c s
  ({ states := Function.update e.states c.features.symbol s
     diagnostics := diagnose cfg c s out e.diagnostics }, out)

end Assess

end TB.UncertaintyEngine
