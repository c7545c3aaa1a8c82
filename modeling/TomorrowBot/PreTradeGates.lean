import TomorrowBot.StrategyTypes

/-!
# The gates before a trade

The freshness of the signal and the net ratio of reward to risk are looked at
for entries only. A gate stops at the first reason to refuse. The texts with
the details of a refusal are left out.
-/

set_option autoImplicit false

namespace TB.PreTradeGates
open TB.CommonTypes TB.TradingContext TB.StrategyTypes

structure PreTradeGatesConfig (F : Type) where
  maxSignalAgeMs : ℤ
  maxAdversePriceDriftBps : F
  maxSpreadWidenPct : F
  minDepthRemainPct : F
  minNetRr : F
  assumedSlippageBpsPerLeg : F
  takerFeeBps : F
  makerFeeBps : F
  includeFundingCost : Bool
  assumedHoldMinutes : F
  freshnessEnabled : Bool
  netRrEnabled : Bool

structure FreshnessVerdict (F : Type) where
  passed : Bool
  reasonCode : String
  signalAgeMs : ℤ
  priceDriftBps : F
  spreadWidenPct : F
  depthRemainPct : F

structure NetRRVerdict (F : Type) where
  passed : Bool
  reasonCode : String
  grossRewardBps : F
  grossRiskBps : F
  grossRr : F
  totalCostBps : F
  netRewardBps : F
  netRr : F

variable {F : Type} [DoubleArith F]

def defaultGates : PreTradeGatesConfig F where
  maxSignalAgeMs := 500
  maxAdversePriceDriftBps := 8.0
  maxSpreadWidenPct := 50.0
  minDepthRemainPct := 50.0
  minNetRr := 0.5
  assumedSlippageBpsPerLeg := 2.0
  takerFeeBps := 6.0
  makerFeeBps := 2.0
  includeFundingCost := false
  assumedHoldMinutes := 2.0
  freshnessEnabled := true
  netRrEnabled := true

section Freshness
variable (cfg : PreTradeGatesConfig F) (intent : StrategyIntent F) (current : FeatureSnapshot F)

def newFreshness : FreshnessVerdict F := ⟨true, "", 0, 0.0, 0.0, 100.0⟩

def FreshnessVerdict.refuse (v : FreshnessVerdict F) (code : String) : FreshnessVerdict F :=
  { v with passed := false, reasonCode := code }

def FreshnessVerdict.pass (v : FreshnessVerdict F) (code : String) : FreshnessVerdict F :=
  { v with reasonCode := code }

def noSignalSnapshot : Prop :=
  intent.signalSnapshotTsNs ≤ 0 ∨ intent.signalSnapshotMid ≤ 0.0

instance : Decidable (noSignalSnapshot intent) := inferInstanceAs (Decidable (_ ∨ _))

def signalAgeMs (nowNs : ℤ) : ℤ := max 0 (nowNs - intent.signalSnapshotTsNs) / 1000000

def checkAge (nowNs : ℤ) (v : FreshnessVerdict F) :
    Except (FreshnessVerdict F) (FreshnessVerdict F) :=
  let v := { v with signalAgeMs := signalAgeMs intent nowNs }
  if cfg.maxSignalAgeMs < v.signalAgeMs then .error (v.refuse "stale") else .ok v

def adverseDriftBps : F :=
  let drift := (current.microstructure.midPrice - intent.signalSnapshotMid) /
    intent.signalSnapshotMid * 10000.0
  match intent.side with
  | .buy => drift
  | .sell => -drift

def checkDrift (v : FreshnessVerdict F) : Except (FreshnessVerdict F) (FreshnessVerdict F) :=
  let mid := current.microstructure.midPrice
  if 0.0 < mid ∧ isfinite mid = true then
    let v := { v with priceDriftBps := adverseDriftBps intent current }
    if cfg.maxAdversePriceDriftBps < v.priceDriftBps then .error (v.refuse "price_drift") else .ok v
  else .ok v

def spreadWidenPct : F :=
  (current.microstructure.spreadBps - intent.signalSnapshotSpreadBps) /
    intent.signalSnapshotSpreadBps * 100.0

def checkSpread (v : FreshnessVerdict F) : Except (FreshnessVerdict F) (FreshnessVerdict F) :=
  if current.microstructure.spreadValid = true ∧ 0.0 < intent.signalSnapshotSpreadBps then
    let v := { v with spreadWidenPct := spreadWidenPct intent current }
    if cfg.maxSpreadWidenPct < v.spreadWidenPct then .error (v.refuse "spread_widened") else .ok v
  else .ok v

def depthRemainPct : F :=
  let m := current.microstructure
  (m.bidDepth5Notional + m.askDepth5Notional) / intent.signalSnapshotDepthUsd * 100.0

def checkDepth (v : FreshnessVerdict F) : Except (FreshnessVerdict F) (FreshnessVerdict F) :=
  if current.microstructure.liquidityValid = true ∧ 0.0 < intent.signalSnapshotDepthUsd then
    let v := { v with depthRemainPct := depthRemainPct intent current }
    if v.depthRemainPct < cfg.minDepthRemainPct then .error (v.refuse "depth_thin") else .ok v
  else .ok v

def freshnessChecks (nowNs : ℤ) : Except (FreshnessVerdict F) (FreshnessVerdict F) := do
  let v ← checkAge cfg intent nowNs newFreshness
  let v ← checkDrift cfg intent current v
  let v ← checkSpread cfg intent current v
  checkDepth cfg intent current v

/-- Closing trades are not looked at: they have to be executed in any case. -/
def freshnessGate (nowNs : ℤ) : FreshnessVerdict F :=
  if cfg.freshnessEnabled = false then newFreshness.pass "disabled"
  else if intent.tradeSide ≠ .opening then newFreshness.pass "ok_close_skip"
  else if noSignalSnapshot intent then newFreshness.pass "ok_no_snapshot"
  else
    match freshnessChecks cfg intent current nowNs with
    | .error v => v
    | .ok v => v.pass "ok"

theorem freshnessGate_exempts (nowNs : ℤ) (h : intent.tradeSide = .closing) :
    (freshnessGate cfg intent current nowNs).passed = true := by
  have hside : intent.tradeSide ≠ .opening := by
    rw [h]
    decide
  unfold freshnessGate
  rw [if_pos hside]
  split_ifs <;> rfl

end Freshness

section NetRR
variable (cfg : PreTradeGatesConfig F) (intent : StrategyIntent F)

def newNetRR : NetRRVerdict F := ⟨true, "", 0.0, 0.0, 0.0, 0.0, 0.0, 0.0⟩

def NetRRVerdict.refuse (v : NetRRVerdict F) (code : String) : NetRRVerdict F :=
  { v with passed := false, reasonCode := code }

def NetRRVerdict.pass (v : NetRRVerdict F) (code : String) : NetRRVerdict F :=
  { v with reasonCode := code }

def entryPrice (currentMid : F) : Option F :=
  if currentMid ≤ 0.0 ∨ isfinite currentMid = false then
    match intent.snapshotMidPrice with
    | some mid => if 0.0 < mid then some mid else none
    | none => none
  else some currentMid

def rewardAbs (entry tp : F) : F :=
  match intent.side with
  | .buy => tp - entry
  | .sell => entry - tp

def riskAbs (entry sl : F) : F :=
  match intent.side with
  | .buy => entry - sl
  | .sell => sl - entry

def fundingBps (fundingRate8h : F) : F :=
  if cfg.includeFundingCost = true ∧ isfinite fundingRate8h = true then
    let holdFraction := stdClamp (cfg.assumedHoldMinutes / 480.0) 0.0 10.0
    let signed := fundingRate8h * holdFraction * 10000.0
    stdMax (match intent.side with
      | .buy => signed
      | .sell => -signed) 0.0
  else 0.0

def totalCostBps (fundingRate8h : F) (isTaker : Bool) : F :=
  (if isTaker then cfg.takerFeeBps else cfg.makerFeeBps) * 2.0 +
    cfg.assumedSlippageBpsPerLeg * 2.0 + fundingBps cfg intent fundingRate8h

def netRRVerdict (entry reward risk fundingRate8h : F) (isTaker : Bool) : NetRRVerdict F :=
  let grossReward := reward / entry * 10000.0
  let grossRisk := risk / entry * 10000.0
  let cost := totalCostBps cfg intent fundingRate8h isTaker
  let netReward := grossReward - cost
  let netRr := if 0.0 < grossRisk then netReward / grossRisk else 0.0
  let v : NetRRVerdict F :=
    ⟨true, "", grossReward, grossRisk, grossReward / grossRisk, cost, netReward, netRr⟩
  if netRr < cfg.minNetRr then v.refuse "insufficient_net_rr" else v.pass "ok"

def netRRGate (currentMid fundingRate8h : F) (isTaker : Bool) : NetRRVerdict F :=
  if cfg.netRrEnabled = false then newNetRR.pass "disabled"
  else if intent.tradeSide ≠ .opening then newNetRR.pass "ok_close_skip"
  else
    match intent.takeProfitPrice, intent.stopLossPrice with
    | some tp, some sl =>
      match entryPrice intent currentMid with
      | none => newNetRR.refuse "no_entry_price"
      | some entry =>
        let reward := rewardAbs intent entry tp
        let risk := riskAbs intent entry sl
        if risk ≤ 0.0 ∨ reward ≤ 0.0 then newNetRR.refuse "invalid_tp_sl"
        else netRRVerdict cfg intent entry reward risk fundingRate8h isTaker
    | _, _ => newNetRR.pass "no_tp_sl"

theorem netRRGate_exempts (currentMid fundingRate8h : F) (isTaker : Bool)
    (h : intent.tradeSide = .closing) :
    (netRRGate cfg intent currentMid fundingRate8h isTaker).passed = true := by
  have hside : intent.tradeSide ≠ .opening := by
    rw [h]
    decide
  unfold netRRGate
  rw [if_pos hside]
  split_ifs <;> rfl

end NetRR

end TB.PreTradeGates
