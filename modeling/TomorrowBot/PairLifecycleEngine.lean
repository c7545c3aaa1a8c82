import TomorrowBot.HedgePairManager

/-!
# The lifecycle engine of a pair

Every evaluation first takes the market and position input into the state of
the pair, then decides by the mode the pair is in. The mode changes only when
the engine is notified of what was executed. `fixed n` prints a number with `n`
decimals.
-/

set_option autoImplicit false

namespace TB.PairLifecycle
open TB.CommonTypes

inductive PairMode where
  | noPair
  | compressionPair
  | transitionPair
  | breakoutShield
  | asymmetricRunner

structure PairLeg (F : Type) where
  side : PositionSide
  size : F
  entryPrice : F
  unrealizedPnlBps : F
  continuationScore : F
  protectiveStop : F
  active : Bool

structure PairState (F : Type) where
  symbol : Symbol
  mode : PairMode
  longLeg : PairLeg F
  shortLeg : PairLeg F
  netPairPnlBps : F
  grossNotional : F
  netExposure : F
  fundingDragBps : F
  pairQuality : F

inductive PairAction where
  | none
  | openCompressionPair
  | openTransitionPair
  | openBreakoutShield
  | trimWeakLeg
  | promoteToRunner
  | rebalancePair
  | closeBothProfit
  | closeBothEmergency
  | reverseLeg

structure PairDecision (F : Type) where
  action : PairAction
  hedgeRatio : F
  urgency : F
  reason : String
  state : PairState F

structure PairMarketInput (F : Type) where
  symbol : Symbol
  regimeStability : F
  cusumRegimeChange : Bool
  uncertainty : F
  pContinue : F
  pReversal : F
  pShock : F
  spreadBps : F
  depthUsd : F
  vpinToxic : Bool
  toxicFlowScore : F
  trendPersistence : F
  fundingRate : F
  takerFeePct : F
  midPrice : F
  exitScorePrimary : F
  exitScoreHedge : F
  primarySide : PositionSide
  primarySize : F
  primaryPnlPct : F
  hasHedge : Bool
  hedgeSize : F
  hedgePnlPct : F

structure PairLifecycleConfig (F : Type) where
  compressionMinRegimeStability : F
  compressionMaxSpreadBps : F
  compressionMinDepthUsd : F
  transitionMinPReversal : F
  transitionMaxUncertainty : F
  breakoutMinTrendPersistence : F
  breakoutMaxShockProb : F
  pairProfitFloorBps : F
  minPairQuality : F
  emergencyLossThresholdBps : F
  hedgeTriggerLossPct : F

structure PairLifecycleEngine (F : Type) where
  mode : PairMode
  state : PairState F

variable {F : Type} [DoubleArith F]

def newLeg : PairLeg F := ⟨.long, 0, 0, 0, 0, 0, false⟩

def newState : PairState F := ⟨"", .noPair, newLeg, newLeg, 0, 0, 0, 0, 0⟩

def newEngine : PairLifecycleEngine F := ⟨.noPair, newState⟩

section Scores

def computeHedgeRatio (input : PairMarketInput F) : F :=
  let base : F := 0.70
  let base := if input.cusumRegimeChange && decide (input.regimeStability < 0.35) then 1.0 else base
  let base := if input.exitScorePrimary < -0.15 then stdMin (base + 0.20) 1.20 else base
  let base := if input.vpinToxic then stdMax base 1.0 else base
  let effectiveFunding :=
    match input.primarySide with
    | .long => input.fundingRate
    | .short => -input.fundingRate
  let base := if 0.001 < stdAbs effectiveFunding then base * 0.80 else base
  let base := if input.depthUsd < 1000.0 then stdMin base 0.80 else base
  stdClamp base 0.20 1.20

def computePairQuality (input : PairMarketInput F) : F :=
  let quality : F := 1.0
  let quality := quality - input.toxicFlowScore * 0.25
  let quality := quality - stdMax (input.spreadBps - 15.0) 0 / 100.0
  let quality := quality - if input.depthUsd < 1000.0 then 0.15 else 0
  let quality := quality - input.uncertainty * 0.15
  let quality := quality + input.regimeStability * 0.10
  let fundingDrag := stdAbs input.fundingRate * 3.0 * 365.0 * 100.0
  let quality := quality - stdMin (fundingDrag / 100.0) 0.20
  stdClamp quality 0 1.0

def computePairCloseScore (st : PairState F) (input : PairMarketInput F) : F :=
  let roundTripFeesBps := input.takerFeePct * 100.0 * 2.0
  let slippageBps := input.spreadBps * 0.5
  let score := st.netPairPnlBps - roundTripFeesBps - slippageBps - st.fundingDragBps
  let score := if input.cusumRegimeChange then score - 3.0 else score
  if input.vpinToxic then score - 5.0 else score

def selectPairMode (cfg : PairLifecycleConfig F) (input : PairMarketInput F) : PairMode :=
  let trend := stdAbs input.trendPersistence
  if input.hasHedge then .noPair
  else if input.primarySize ≤ 0 then .noPair
  else if cfg.breakoutMinTrendPersistence < trend ∧ 0.08 < input.pShock ∧
      input.pShock < cfg.breakoutMaxShockProb then .breakoutShield
  else if cfg.compressionMinRegimeStability < input.regimeStability ∧ trend < 0.20 ∧
      input.spreadBps < cfg.compressionMaxSpreadBps ∧
      cfg.compressionMinDepthUsd < input.depthUsd ∧ input.vpinToxic = false then .compressionPair
  else if cfg.transitionMinPReversal < input.pReversal ∧ 0.20 < input.pContinue ∧
      input.uncertainty < cfg.transitionMaxUncertainty ∧
      input.primaryPnlPct < -cfg.hedgeTriggerLossPct then .transitionPair
  else .noPair

end Scores

section Decisions
variable (cfg : PairLifecycleConfig F) (fixed : ℕ → F → String)

def hold (st : PairState F) : PairDecision F := ⟨.none, 1.0, 0, "", st⟩

def decision (st : PairState F) (action : PairAction) (urgency : F) (reason : String) :
    PairDecision F :=
  ⟨action, 1.0, urgency, reason, st⟩

def evaluateNoPair (st : PairState F) (input : PairMarketInput F) : PairDecision F :=
  if input.primarySize ≤ 0 then hold st
  else
    match selectPairMode cfg input with
    | .compressionPair =>
      ⟨.openCompressionPair, stdClamp (computeHedgeRatio input) 0.85 1.15, 0.4,
        "Compression regime: stability=" ++ fixed 2 input.regimeStability ++ ", spread=" ++
          fixed 1 input.spreadBps ++ "bps", st⟩
    | .transitionPair =>
      ⟨.openTransitionPair, stdClamp (computeHedgeRatio input) 0.35 0.60, 0.5,
        "Regime transition: p_reversal=" ++ fixed 2 input.pReversal ++ ", uncertainty=" ++
          fixed 2 input.uncertainty, st⟩
    | .breakoutShield =>
      ⟨.openBreakoutShield, stdClamp (0.20 + input.pShock * 0.5) 0.20 0.35, 0.6,
        "Breakout with protection: trend=" ++ fixed 2 input.trendPersistence ++ ", p_shock=" ++
          fixed 2 input.pShock, st⟩
    | _ => hold st

def emergency (st : PairState F) (input : PairMarketInput F) : Bool :=
  input.vpinToxic && decide (st.netPairPnlBps < cfg.emergencyLossThresholdBps)

def evaluateCompression (st : PairState F) (input : PairMarketInput F) : PairDecision F :=
  let closeScore := computePairCloseScore st input
  let quality := computePairQuality input
  if emergency cfg st input then
    decision st .closeBothEmergency 1.0
      ("Emergency: toxic_flow + net_pnl=" ++ fixed 1 st.netPairPnlBps ++ "bps")
  else if cfg.pairProfitFloorBps < closeScore ∧ quality < cfg.minPairQuality then
    decision st .closeBothProfit (stdClamp (closeScore / 20.0) 0.4 0.9)
      ("Profit lock: close_score=" ++ fixed 1 closeScore ++ "bps, quality=" ++ fixed 2 quality)
  else if 0.45 < stdAbs input.trendPersistence ∧ 0.60 < input.regimeStability then
    decision st .trimWeakLeg 0.6
      ("Compression→Runner: trend=" ++ fixed 2 input.trendPersistence ++ ", trim " ++
        if 0 < input.trendPersistence then "Short" else "Long")
  else if quality < cfg.minPairQuality * 0.7 ∧ 0.15 <
      stdAbs (computeHedgeRatio input - st.longLeg.size / stdMax st.shortLeg.size 1e-9) then
    ⟨.rebalancePair, computeHedgeRatio input, 0.3,
      "Quality degraded: quality=" ++ fixed 2 quality ++ ", rebalance ratio=" ++
        fixed 2 (computeHedgeRatio input), st⟩
  else hold st

def evaluateTransition (st : PairState F) (input : PairMarketInput F) : PairDecision F :=
  let closeScore := computePairCloseScore st input
  if emergency cfg st input then
    decision st .closeBothEmergency 1.0 "Emergency: toxic flow during transition pair"
  else if 0.65 < input.regimeStability ∧ 0.35 < stdAbs input.trendPersistence then
    decision st .promoteToRunner 0.5
      ("Transition resolved: trend=" ++ fixed 2 input.trendPersistence ++ ", stability=" ++
        fixed 2 input.regimeStability)
  else if 0.65 < input.regimeStability ∧ stdAbs input.trendPersistence < 0.15 then
    ⟨.openCompressionPair, computeHedgeRatio input, 0.3,
      "Transition→Compression: regime stabilized in range", st⟩
  else if cfg.pairProfitFloorBps < closeScore then
    decision st .closeBothProfit (stdClamp (closeScore / 15.0) 0.4 0.85)
      ("Transition profit: close_score=" ++ fixed 1 closeScore ++ "bps")
  else hold st

def evaluateBreakoutShield (st : PairState F) (input : PairMarketInput F) : PairDecision F :=
  let trend := stdAbs input.trendPersistence
  let closeScore := computePairCloseScore st input
  let newRatio := stdClamp (0.20 + input.pShock * 0.6) 0.25 0.50
  if emergency cfg st input then
    decision st .closeBothEmergency 1.0 "Emergency: toxic flow during breakout shield"
  else if 0.55 < trend ∧ input.pShock < 0.10 ∧ 0.55 < input.regimeStability then
    decision st .promoteToRunner 0.4
      ("Breakout confirmed: trend=" ++ fixed 2 input.trendPersistence ++ ", shock_prob=" ++
        fixed 2 input.pShock)
  else if trend < 0.10 ∧ input.regimeStability < 0.40 ∧ -5.0 < closeScore then
    decision st .closeBothProfit 0.6
      ("Breakout failed: trend=" ++ fixed 2 input.trendPersistence ++ ", close_score=" ++
        fixed 1 closeScore ++ "bps")
  else if cfg.breakoutMaxShockProb * 1.5 < input.pShock then
    ⟨.rebalancePair, newRatio, 0.5,
      "Shield strengthen: p_shock=" ++ fixed 2 input.pShock ++ "→ratio=" ++ fixed 2 newRatio, st⟩
  else hold st

def evaluateAsymmetricRunner (st : PairState F) (input : PairMarketInput F) : PairDecision F :=
  if input.cusumRegimeChange = true ∧ input.regimeStability < 0.40 then
    ⟨.openBreakoutShield, stdClamp (0.20 + input.pReversal * 0.4) 0.20 0.35, 0.7,
      "Runner→Shield: regime_change, stability=" ++ fixed 2 input.regimeStability, st⟩
  else if input.exitScorePrimary < -0.25 ∧ 0.35 < input.pReversal then
    decision st .reverseLeg 0.6
      ("Runner reversal: exit_score=" ++ fixed 2 input.exitScorePrimary ++ ", p_reversal=" ++
        fixed 2 input.pReversal)
  else hold st

end Decisions

section Update

def legOn (st : PairState F) : PositionSide → PairLeg F
  | .long => st.longLeg
  | .short => st.shortLeg

def setLeg (st : PairState F) (leg : PairLeg F) : PositionSide → PairState F
  | .long => { st with longLeg := leg }
  | .short => { st with shortLeg := leg }

def switchOn (leg : PairLeg F) (size pnlPct score : F) : PairLeg F :=
  { leg with
    active := true
    size := size
    unrealizedPnlBps := pnlPct * 100.0
    continuationScore := score }

def takePrimary (st : PairState F) (input : PairMarketInput F) : PairState F :=
  if 0 < input.primarySize then
    setLeg st (switchOn (legOn st input.primarySide) input.primarySize input.primaryPnlPct
      input.exitScorePrimary) input.primarySide
  else st

def takeHedge (st : PairState F) (input : PairMarketInput F) : PairState F :=
  let side := HedgePair.opposite input.primarySide
  if input.hasHedge = true ∧ 0 < input.hedgeSize then
    setLeg st (switchOn (legOn st side) input.hedgeSize input.hedgePnlPct input.exitScoreHedge) side
  else st

def takeSums (st : PairState F) (input : PairMarketInput F) : PairState F :=
  { st with
    netPairPnlBps := st.longLeg.unrealizedPnlBps + st.shortLeg.unrealizedPnlBps
    grossNotional := (st.longLeg.size + st.shortLeg.size) * input.midPrice
    netExposure := (st.longLeg.size - st.shortLeg.size) * input.midPrice
    fundingDragBps :=
      match input.primarySide with
      | .long => input.fundingRate * 100.0
      | .short => -input.fundingRate * 100.0
    pairQuality := computePairQuality input }

def updateState (e : PairLifecycleEngine F) (input : PairMarketInput F) :
    PairLifecycleEngine F :=
  let st := { e.state with
    symbol := input.symbol
    mode := e.mode }
  { e with state := takeSums (takeHedge (takePrimary st input) input) input }

def evaluate (cfg : PairLifecycleConfig F) (fixed : ℕ → F → String)
    (e : PairLifecycleEngine F) (input : PairMarketInput F) :
    PairLifecycleEngine F × PairDecision F :=
  let e := updateState e input
  let result :=
    match e.mode with
    | .noPair => evaluateNoPair cfg fixed e.state input
    | .compressionPair => evaluateCompression cfg fixed e.state input
    | .transitionPair => evaluateTransition cfg fixed e.state input
    | .breakoutShield => evaluateBreakoutShield cfg fixed e.state input
    | .asymmetricRunner => evaluateAsymmetricRunner fixed e.state input
  (e, result)

end Update

end TB.PairLifecycle
