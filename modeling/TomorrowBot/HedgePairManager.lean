import TomorrowBot.CommonTypes

/-!
# The manager of a hedged pair

A losing position may be hedged by a leg of the opposite side. The manager
decides when the hedge is opened and which leg is closed, and counts the hedges
of a position. The count grows when a fill is confirmed, not when an order is
sent. `fixed n` prints a number with `n` decimals.
-/

set_option autoImplicit false

namespace TB.HedgePair
open TB.CommonTypes

inductive HedgePairState where
  | primaryOnly
  | hedgeSentPending
  | primaryPlusHedge
  | profitLockPair
  | reverseTransition
  | asymmetricUnwind
  | emergencyFlatten
  deriving DecidableEq, Repr

inductive HedgeAction where
  | none
  | openHedge
  | closePrimary
  | closeHedge
  | closeBoth
  deriving DecidableEq, Repr

structure HedgePairInput (F : Type) where
  primarySide : PositionSide
  primarySize : F
  primaryPnl : F
  hasHedge : Bool
  hedgeSize : F
  hedgePnl : F
  regimeStability : F
  cusumRegimeChange : Bool
  uncertainty : F
  exitScorePrimary : F
  exitScoreHedge : F
  fundingRate : F
  spreadBps : F
  depthUsd : F
  vpinToxic : Bool
  momentum : F
  momentumValid : Bool
  totalCapital : F
  midPrice : F
  takerFeePct : F
  hedgeProfitCloseFeeMult : F
  hedgeTriggerLossPct : F
  protectiveStopImminent : Bool
  stopDistancePct : F

structure HedgePairDecision (F : Type) where
  action : HedgeAction
  hedgeRatio : F
  reason : String
  urgency : F

structure HedgePairManager where
  state : HedgePairState
  hedgeCount : ℕ

def kMaxHedgesPerPosition : ℕ := 2

def fresh : HedgePairManager := ⟨.primaryOnly, 0⟩

def canHedge (m : HedgePairManager) : Bool :=
  m.state == .primaryOnly && decide (m.hedgeCount < kMaxHedgesPerPosition)

def notifyHedgeOpened (m : HedgePairManager) : HedgePairManager :=
  { m with state := .hedgeSentPending }

def confirmHedgeFilled (m : HedgePairManager) : HedgePairManager :=
  match m.state with
  | .hedgeSentPending | .primaryOnly => ⟨.primaryPlusHedge, m.hedgeCount + 1⟩
  | _ => m

def notifyHedgeFailed (m : HedgePairManager) : HedgePairManager := { m with state := .primaryOnly }

def notifyHedgeClosed (m : HedgePairManager) : HedgePairManager := { m with state := .primaryOnly }

def notifyBothClosed (m : HedgePairManager) : HedgePairManager := { m with state := .primaryOnly }

def notifyReversed (m : HedgePairManager) : HedgePairManager := { m with state := .primaryOnly }

def boolText (b : Bool) : String := if b then "true" else "false"

def nearest (q : ℚ) : ℕ :=
  let whole := q.floor.toNat
  let rest := q - whole
  if rest < 1 / 2 then whole
  else if 1 / 2 < rest then whole + 1
  else if whole % 2 = 0 then whole
  else whole + 1

def fixedText (decimals : ℕ) (q : ℚ) : String :=
  let scaled := nearest (|q| * 10 ^ decimals)
  let digits := toString (scaled % 10 ^ decimals)
  let point := if decimals = 0 then ""
    else "." ++ String.ofList (List.replicate (decimals - digits.length) '0') ++ digits
  (if q < 0 then "-" else "") ++ toString (scaled / 10 ^ decimals) ++ point

section Decisions
variable {F : Type} [DoubleArith F]

def noDecision : HedgePairDecision F := ⟨.none, 1.0, "", 0.0⟩

def lossPct (input : HedgePairInput F) : F :=
  stdAbs input.primaryPnl / stdMax input.totalCapital 0.01 * 100.0

def momentumFor (side : PositionSide) (input : HedgePairInput F) : Bool :=
  input.momentumValid &&
    match side with
    | .long => decide (0.0005 < input.momentum)
    | .short => decide (input.momentum < -0.0005)

def opposite : PositionSide → PositionSide
  | .long => .short
  | .short => .long

def regimeBreak (input : HedgePairInput F) : Bool :=
  input.cusumRegimeChange && decide (input.regimeStability < 0.35)

def indicatorConsensus (input : HedgePairInput F) : Bool :=
  decide (input.exitScorePrimary < -0.15)

def protectiveStopPressure (input : HedgePairInput F) : Bool :=
  input.protectiveStopImminent &&
    (decide (input.exitScorePrimary < -0.05) || momentumFor (opposite input.primarySide) input)

def toxicWhileLosing (input : HedgePairInput F) : Bool :=
  input.vpinToxic && decide (0.8 < lossPct input)

def liquidityStress (input : HedgePairInput F) : Bool :=
  decide (input.depthUsd < 500.0) && decide (30.0 < input.spreadBps) &&
    decide (1.0 < lossPct input)

def shouldTriggerHedge (m : HedgePairManager) (input : HedgePairInput F) : Bool :=
  if !canHedge m then false
  else if 0.0 ≤ input.primaryPnl then false
  else if !decide (input.hedgeTriggerLossPct ≤ lossPct input) && !protectiveStopPressure input then
    false
  else if !regimeBreak input && !indicatorConsensus input && !protectiveStopPressure input &&
      !toxicWhileLosing input && !liquidityStress input then false
  else if 0.85 < input.uncertainty then false
  else true

def computeHedgeRatio (input : HedgePairInput F) : F :=
  let ratio := if input.protectiveStopImminent then stdMax 0.7 1.0 else (0.7 : F)
  let ratio := if input.cusumRegimeChange && decide (input.regimeStability < 0.25) then 1.0
    else ratio
  let ratio := if input.exitScorePrimary < -0.30 then stdMin (ratio + 0.2) 1.2 else ratio
  let ratio := if input.vpinToxic then stdMax ratio 1.0 else ratio
  let effFunding := match input.primarySide with
    | .long => input.fundingRate
    | .short => -input.fundingRate
  let ratio := if isfinite input.fundingRate && decide (0.0005 < effFunding) then ratio * 0.8
    else ratio
  let ratio := if input.depthUsd < 1000.0 then stdMin ratio 0.8 else ratio
  stdClamp ratio 0.3 1.2

def triggerReason (fixed : ℕ → F → String) (input : HedgePairInput F) : String :=
  "Hedge trigger: loss=" ++ fixed 2 (lossPct input) ++ "%, score=" ++
    fixed 2 input.exitScorePrimary ++ ", regime_stab=" ++ fixed 2 input.regimeStability ++
    ", cusum=" ++ boolText input.cusumRegimeChange ++ ", vpin=" ++ boolText input.vpinToxic ++
    ", stop_imminent=" ++ boolText input.protectiveStopImminent ++ ", stop_gap=" ++
    fixed 3 input.stopDistancePct ++ "%, ratio=" ++ fixed 2 (computeHedgeRatio input)

def evaluatePrimaryOnly (fixed : ℕ → F → String) (input : HedgePairInput F)
    (m : HedgePairManager) : HedgePairDecision F :=
  if !shouldTriggerHedge m input then noDecision
  else ⟨.openHedge, computeHedgeRatio input, triggerReason fixed input, 0.9⟩

def netPnl (input : HedgePairInput F) : F := input.primaryPnl + input.hedgePnl

def roundTripFees (input : HedgePairInput F) : F :=
  (input.primarySize + input.hedgeSize) * input.midPrice * input.takerFeePct / 100.0 * 2.0

def minProfit (input : HedgePairInput F) : F :=
  roundTripFees input * input.hedgeProfitCloseFeeMult

def addIf (c : Bool) (x acc : F) : F := if c then acc + x else acc

def regimeStabilizing (input : HedgePairInput F) : Bool :=
  decide (0.5 < input.regimeStability) && !input.cusumRegimeChange

def unwindConfidence (input : HedgePairInput F) : F :=
  addIf (regimeStabilizing input && decide (roundTripFees input * 2.0 < input.hedgePnl)) 0.35
    (addIf (regimeStabilizing input) 0.20
      (addIf (decide (0.10 < input.exitScorePrimary)) 0.35
        (addIf (momentumFor input.primarySide input) 0.45 0.0)))

def reverseConfidence (input : HedgePairInput F) : F :=
  addIf (input.cusumRegimeChange && decide (input.regimeStability < 0.40)) 0.20
    (addIf (decide (0.10 < input.exitScoreHedge)) 0.35
      (addIf (momentumFor (opposite input.primarySide) input) 0.45 0.0))

def confidenceUrgency (confidence : F) : F := stdClamp (0.55 + confidence * 0.30) 0.0 1.0

def escalationCount (input : HedgePairInput F) : ℕ :=
  let adverse := [
    decide (0.0008 < stdAbs input.fundingRate),
    decide (netPnl input < -roundTripFees input * 4.0),
    decide (input.exitScorePrimary < -0.05) && decide (input.exitScoreHedge < -0.05),
    decide (25.0 < input.spreadBps),
    input.vpinToxic]
  adverse.count true

def escalate (fixed : ℕ → F → String) (input : HedgePairInput F) (state : HedgePairState) :
    HedgePairState × HedgePairDecision F :=
  let factors := toString (escalationCount input)
  if escalationCount input < 2 then (state, noDecision)
  else if -roundTripFees input < netPnl input then
    (.profitLockPair, ⟨.closeBoth, 0.0, "Escalation close both: net_pnl=" ++
      fixed 2 (netPnl input) ++ ", factors=" ++ factors, 0.8⟩)
  else if input.primaryPnl < input.hedgePnl then
    (.asymmetricUnwind, ⟨.closeHedge, 0.0, "Escalation unwind hedge (better): hedge_pnl=" ++
      fixed 2 input.hedgePnl ++ ", primary_pnl=" ++ fixed 2 input.primaryPnl ++ ", factors=" ++
      factors, 0.75⟩)
  else
    (.reverseTransition, ⟨.closePrimary, 0.0,
      "Escalation reverse (primary better): primary_pnl=" ++ fixed 2 input.primaryPnl ++
      ", hedge_pnl=" ++ fixed 2 input.hedgePnl ++ ", factors=" ++ factors, 0.75⟩)

def managePair (fixed : ℕ → F → String) (input : HedgePairInput F) (state : HedgePairState) :
    HedgePairState × HedgePairDecision F :=
  if input.vpinToxic && decide (netPnl input < -roundTripFees input * 3.0) then
    (.emergencyFlatten, ⟨.closeBoth, 0.0,
      "Emergency: toxic flow + deep pair loss " ++ fixed 2 (netPnl input), 1.0⟩)
  else if minProfit input < netPnl input then
    (.profitLockPair, ⟨.closeBoth, 0.0, "Pair net profit " ++ fixed 2 (netPnl input) ++ " > " ++
      fixed 2 (minProfit input) ++ " fee threshold", 0.8⟩)
  else if decide (roundTripFees input < input.hedgePnl) &&
      decide (0.55 ≤ unwindConfidence input) then
    (.asymmetricUnwind, ⟨.closeHedge, 0.0, "Unwind hedge: hedge_pnl=" ++ fixed 2 input.hedgePnl ++
      ", primary_score=" ++ fixed 2 input.exitScorePrimary ++ ", regime_stab=" ++
      fixed 2 input.regimeStability ++ ", momentum_ok=" ++
      boolText (momentumFor input.primarySide input) ++ ", confidence=" ++
      fixed 2 (unwindConfidence input), confidenceUrgency (unwindConfidence input)⟩)
  else if decide (roundTripFees input < input.primaryPnl) &&
      decide (0.55 ≤ reverseConfidence input) then
    (.reverseTransition, ⟨.closePrimary, 0.0, "Reverse: primary_pnl=" ++
      fixed 2 input.primaryPnl ++ ", hedge_score=" ++ fixed 2 input.exitScoreHedge ++
      ", momentum_for_hedge=" ++ boolText (momentumFor (opposite input.primarySide) input) ++
      ", confidence=" ++ fixed 2 (reverseConfidence input),
      confidenceUrgency (reverseConfidence input)⟩)
  else escalate fixed input state

def evaluatePairActive (fixed : ℕ → F → String) (input : HedgePairInput F)
    (m : HedgePairManager) : HedgePairManager × HedgePairDecision F :=
  if !input.hasHedge then ({ m with state := .primaryOnly }, noDecision)
  else
    let managed := managePair fixed input m.state
    ({ m with state := managed.1 }, managed.2)

def evaluateHedgePending (fixed : ℕ → F → String) (input : HedgePairInput F)
    (m : HedgePairManager) : HedgePairManager × HedgePairDecision F :=
  if input.hasHedge then
    evaluatePairActive fixed input ⟨.primaryPlusHedge, m.hedgeCount + 1⟩
  else (m, noDecision)

def evaluate (fixed : ℕ → F → String) (input : HedgePairInput F) (m : HedgePairManager) :
    HedgePairManager × HedgePairDecision F :=
  match m.state with
  | .primaryOnly => (m, evaluatePrimaryOnly fixed input m)
  | .hedgeSentPending => evaluateHedgePending fixed input m
  | .primaryPlusHedge | .profitLockPair | .asymmetricUnwind => evaluatePairActive fixed input m
  | .reverseTransition => (m, noDecision)
  | .emergencyFlatten => (m, ⟨.closeBoth, 0.0, "Emergency flatten active", 1.0⟩)

end Decisions

section Pairs
variable {F : Type} [DoubleArith F]

def paired (state : HedgePairState) : Prop := state ≠ .primaryOnly ∧ state ≠ .hedgeSentPending

def Managed (state : HedgePairState) (r : HedgePairState × HedgePairDecision F) : Prop :=
  r.2.action ≠ .openHedge ∧ (paired state → paired r.1)

omit [DoubleArith F] in
theorem managed_to (state moved : HedgePairState) (d : HedgePairDecision F)
    (hd : d.action ≠ .openHedge) (hm : paired moved) : Managed state (moved, d) :=
  ⟨hd, fun _ => hm⟩

omit [DoubleArith F] in
theorem managed_ite (state : HedgePairState) (c : Prop) [Decidable c]
    (a b : HedgePairState × HedgePairDecision F) (ha : Managed state a) (hb : Managed state b) :
    Managed state (if c then a else b) := by
  split_ifs
  · exact ha
  · exact hb

variable (fixed : ℕ → F → String) (input : HedgePairInput F)

theorem escalate_managed (state : HedgePairState) : Managed state (escalate fixed input state) := by
  unfold escalate
  apply managed_ite
  · exact ⟨nofun, id⟩
  apply managed_ite
  · exact managed_to _ _ _ nofun ⟨nofun, nofun⟩
  apply managed_ite
  · exact managed_to _ _ _ nofun ⟨nofun, nofun⟩
  · exact managed_to _ _ _ nofun ⟨nofun, nofun⟩

theorem managePair_managed
    (state : HedgePairState) : Managed state (managePair fixed input state) := by
  unfold managePair
  apply managed_ite
  · exact managed_to _ _ _ nofun ⟨nofun, nofun⟩
  apply managed_ite
  · exact managed_to _ _ _ nofun ⟨nofun, nofun⟩
  apply managed_ite
  · exact managed_to _ _ _ nofun ⟨nofun, nofun⟩
  apply managed_ite
  · exact managed_to _ _ _ nofun ⟨nofun, nofun⟩
  · exact escalate_managed fixed input state

variable (m : HedgePairManager)

theorem evaluatePairActive_spec (h : m.state ≠ .primaryOnly ∧ m.state ≠ .hedgeSentPending) :
    (evaluatePairActive fixed input m).1.hedgeCount = m.hedgeCount ∧
      (evaluatePairActive fixed input m).1.state ≠ .hedgeSentPending ∧
      (evaluatePairActive fixed input m).2.action ≠ .openHedge := by
  unfold evaluatePairActive
  split_ifs
  · simp [noDecision]
  · obtain ⟨haction, hstate⟩ := managePair_managed fixed input m.state
    exact ⟨rfl, (hstate h).2, haction⟩

theorem evaluatePrimaryOnly_opens : (evaluatePrimaryOnly fixed input m).action = .openHedge ↔
      shouldTriggerHedge m input = true := by
  unfold evaluatePrimaryOnly
  rcases shouldTriggerHedge m input with _ | _ <;> simp [noDecision]

theorem canHedge_of_trigger (input : HedgePairInput F) (h : shouldTriggerHedge m input = true) :
    m.state = .primaryOnly ∧ m.hedgeCount < kMaxHedgesPerPosition := by
  have hcan : canHedge m = true := by
    by_contra hno
    unfold shouldTriggerHedge at h
    simp [hno] at h
  simpa [canHedge] using hcan

/-- Only a position without a hedge is hedged, and only when it may be. -/
theorem evaluate_opens : (evaluate fixed input m).2.action = .openHedge ↔
      m.state = .primaryOnly ∧ shouldTriggerHedge m input = true := by
  unfold evaluate
  rcases hs : m.state with _ | _ | _ | _ | _ | _ | _
  · simpa using evaluatePrimaryOnly_opens fixed input m
  · have hpair := evaluatePairActive_spec fixed input ⟨.primaryPlusHedge, m.hedgeCount + 1⟩
      (by simp)
    unfold evaluateHedgePending
    split_ifs
    · simpa using hpair.2.2
    · simp [noDecision]
  · simpa using (evaluatePairActive_spec fixed input m (by simp [hs])).2.2
  · simpa using (evaluatePairActive_spec fixed input m (by simp [hs])).2.2
  · simp [noDecision]
  · simpa using (evaluatePairActive_spec fixed input m (by simp [hs])).2.2
  · simp

/-- What an evaluation does to the manager: it counts a pending hedge that the
portfolio shows, and otherwise keeps the count. -/
theorem evaluate_counts : (m.state = .hedgeSentPending ∧ input.hasHedge = true ∧
        (evaluate fixed input m).1.hedgeCount = m.hedgeCount + 1 ∧
        (evaluate fixed input m).1.state ≠ .hedgeSentPending) ∨
      (evaluate fixed input m).1.hedgeCount = m.hedgeCount ∧
        ((evaluate fixed input m).1.state = .hedgeSentPending → m.state = .hedgeSentPending) := by
  have hpair := fun h => evaluatePairActive_spec fixed input m h
  unfold evaluate
  rcases hs : m.state with _ | _ | _ | _ | _ | _ | _
  · exact .inr ⟨rfl, fun h => absurd h (by simp [hs])⟩
  · have hcount := evaluatePairActive_spec fixed input ⟨.primaryPlusHedge, m.hedgeCount + 1⟩
      (by simp)
    unfold evaluateHedgePending
    by_cases hh : input.hasHedge = true
    · left
      simpa [hh] using ⟨hcount.1, hcount.2.1⟩
    · right
      simp [hh]
  · exact .inr ⟨(hpair (by simp [hs])).1, fun h => absurd h (hpair (by simp [hs])).2.1⟩
  · exact .inr ⟨(hpair (by simp [hs])).1, fun h => absurd h (hpair (by simp [hs])).2.1⟩
  · exact .inr ⟨rfl, fun h => absurd h (by simp [hs])⟩
  · exact .inr ⟨(hpair (by simp [hs])).1, fun h => absurd h (hpair (by simp [hs])).2.1⟩
  · exact .inr ⟨rfl, fun h => absurd h (by simp [hs])⟩

end Pairs

end TB.HedgePair
