import TomorrowBot.StrategyTypes
import Mathlib.Data.Rat.Floor
import Mathlib.Tactic.NormNum

/-!
# The TWAP executor

A large order is split into slices that are sent one after the other. The
plan sizes the slices and spaces them; the dispatch sends the slice that is
due and spaces the later ones anew; the fills are recorded slice by slice.
Quantities and prices are exact here, and a cast to an integer is the floor.
-/

set_option autoImplicit false

namespace TB.TwapExecutor
open TB.CommonTypes TB.ExecutionPlanner TB.StrategyTypes TB.TradingContext

structure TwapConfig where
  minSlices : ℕ
  maxSlices : ℕ
  baseIntervalMs : ℤ
  spreadThresholdBps : ℚ
  urgencyAggressive : ℚ
  participationRate : ℚ
  priceImprovementBps : ℚ

def defaultTwapConfig : TwapConfig := ⟨3, 10, 500, 20, 0.8, 0.10, 2⟩

structure TwapConfig.Valid (config : TwapConfig) : Prop where
  minSlices : config.minSlices ≠ 0
  maxSlices : config.minSlices ≤ config.maxSlices
  urgency : 0 ≤ config.urgencyAggressive ∧ config.urgencyAggressive ≤ 1

theorem defaultTwapConfig_valid : defaultTwapConfig.Valid where
  minSlices := by decide
  maxSlices := by decide
  urgency := by norm_num [defaultTwapConfig]

structure SmartTwapExecutor where
  config : TwapConfig
  valid : config.Valid
  minNotionalUsdt : ℚ

structure FeatureSnapshot where
  midPrice : ℚ
  immediateLiquidity : ℚ
  spreadBps : ℚ
  vpinValid : Bool
  vpinToxic : Bool

structure TwapSlice where
  sliceIndex : ℕ
  targetQty : ℚ
  filledQty : ℚ
  limitPrice : ℚ
  scheduledAtMs : ℤ
  sent : Bool
  filled : Bool

structure TwapOrder where
  twapId : String
  symbol : Symbol
  side : Side
  positionSide : PositionSide
  tradeSide : TradeSide
  signalIntent : SignalIntent
  totalQty : ℚ
  filledQty : ℚ
  avgFillPrice : ℚ
  slices : List TwapSlice
  nextSlice : ℕ
  startedAtMs : ℤ
  completed : Bool
  cancelled : Bool

def emptyOrder : TwapOrder :=
  ⟨"", "", .buy, .long, .opening, .longEntry, 0, 0, 0, [], 0, 0, false, false⟩

section Plan
variable (e : SmartTwapExecutor)

def effectiveMinNotional : ℚ :=
  if 0 < e.minNotionalUsdt then e.minNotionalUsdt else kMinBitgetNotionalUsdt

def wantedSlices (total liquidity : ℚ) : ℕ :=
  let lo := e.config.minSlices
  let hi := e.config.maxSlices
  let numSlices :=
    if 0 < liquidity then
      ⌊stdClamp ((lo : ℚ) + total / liquidity * ((hi - lo : ℕ) : ℚ) * 10.0) lo hi⌋₊
    else lo
  if numSlices < lo then lo else if hi < numSlices then hi else numSlices

def maxByNotional (total mid : ℚ) : ℕ := max 1 ⌊total * mid / effectiveMinNotional e⌋₊

def numSlices (total liquidity mid : ℚ) : ℕ :=
  let wanted := wantedSlices e total liquidity
  if 0 < mid then
    if maxByNotional e total mid < wanted then maxByNotional e total mid else wanted
  else wanted

def frontload (n i : ℕ) : ℚ :=
  if 1 < n then 1.2 - (1.2 - 0.8) * i / (n - 1 : ℕ) else 1

def sliceQtys (n : ℕ) (total : ℚ) : List ℚ :=
  let avgQty := total / n
  let raw := (List.range n).map (fun i => avgQty * frontload n i)
  if raw.sum < 1e-15 then raw.map (fun _ => total / n)
  else raw.map (fun q => q * (total / raw.sum))

def computeAdaptiveInterval (snapshot : FeatureSnapshot) : ℤ :=
  let interval := (e.config.baseIntervalMs : ℚ) * (1 + snapshot.spreadBps / 30)
  ⌊stdClamp (if snapshot.vpinValid = true ∧ snapshot.vpinToxic = true then interval * 0.5
    else interval) 200 5000⌋

def plannedSlice (intervalMs : ℤ) (i : ℕ) (qty : ℚ) : TwapSlice :=
  ⟨i, qty, 0, 0, i * intervalMs, false, false⟩

def createTwapPlan (seq : ℕ) (intent : TradeIntent ℚ) (snapshot : FeatureSnapshot)
    (approvedQty : ℚ) : TwapOrder :=
  if approvedQty ≤ 0 then emptyOrder
  else
    { twapId := "TWAP-" ++ toString seq
      symbol := intent.symbol
      side := intent.side
      positionSide := intent.positionSide
      tradeSide := intent.tradeSide
      signalIntent := intent.signalIntent
      totalQty := approvedQty
      filledQty := 0
      avgFillPrice := 0
      slices := (sliceQtys (numSlices e approvedQty snapshot.immediateLiquidity
        snapshot.midPrice) approvedQty).mapIdx (plannedSlice (computeAdaptiveInterval e snapshot))
      nextSlice := 0
      startedAtMs := 0
      completed := false
      cancelled := false }

end Plan

section Execution
variable (e : SmartTwapExecutor)

def computeSlicePrice (side : Side) (urgency : ℚ) (snapshot : FeatureSnapshot) : ℚ :=
  let mid := snapshot.midPrice
  let improvement := e.config.priceImprovementBps * mid / 10000
  let aggressive := e.config.spreadThresholdBps < snapshot.spreadBps ∨
    e.config.urgencyAggressive < urgency
  if mid ≤ 0 then 0
  else if aggressive then mid
  else
    match side with
    | .buy => mid - improvement
    | .sell => mid + improvement

def sliceUrgency : ℚ := 0.7

def sliceIntent (t : TwapOrder) (slice : TwapSlice) (snapshot : FeatureSnapshot) :
    StrategyIntent ℚ :=
  { emptyIntent with
    strategyId := "TWAP"
    symbol := t.symbol
    side := t.side
    positionSide := t.positionSide
    tradeSide := t.tradeSide
    signalIntent := t.signalIntent
    suggestedQuantity := slice.targetQty
    conviction := 1
    urgency := sliceUrgency
    signalName := "twap_slice_" ++ toString t.nextSlice
    correlationId := t.twapId ++ "-" ++ toString t.nextSlice
    snapshotMidPrice := some snapshot.midPrice
    limitPrice := some (computeSlicePrice e t.side sliceUrgency snapshot) }

def afterDispatch (idx : ℕ) (sent : TwapSlice) (price : ℚ) (intervalMs : ℤ) (i : ℕ)
    (slice : TwapSlice) : TwapSlice :=
  if i = idx then { slice with limitPrice := price, sent := true }
  else if idx < i then
    { slice with scheduledAtMs := sent.scheduledAtMs + (i - idx : ℕ) * intervalMs }
  else slice

/-- A start of 0 counts as not started. An order without a slice to send is
taken to be completed. -/
def getNextSlice (t : TwapOrder) (snapshot : FeatureSnapshot) (currentTimeMs : ℤ) :
    TwapOrder × Option (StrategyIntent ℚ) :=
  if t.completed = true ∨ t.cancelled = true then (t, none)
  else
    let t := if t.startedAtMs = 0 then { t with startedAtMs := currentTimeMs } else t
    match t.slices[t.nextSlice]? with
    | none => ({ t with completed := true }, none)
    | some slice =>
      if currentTimeMs - t.startedAtMs < slice.scheduledAtMs then (t, none)
      else
        ({ t with
            slices := t.slices.mapIdx (afterDispatch t.nextSlice slice
              (computeSlicePrice e t.side sliceUrgency snapshot)
              (computeAdaptiveInterval e snapshot))
            nextSlice := t.nextSlice + 1 },
          some (sliceIntent e t slice snapshot))

def recordSliceFill (t : TwapOrder) (sliceIndex : ℕ) (filledQty fillPrice : ℚ) : TwapOrder :=
  match t.slices[sliceIndex]? with
  | none => t
  | some slice =>
    if slice.filled = true then t
    else if isfinite fillPrice = false ∨ fillPrice ≤ 0 then t
    else
      let slices := t.slices.set sliceIndex { slice with filledQty := filledQty, filled := true }
      let newTotalQty := t.filledQty + filledQty
      { t with
        slices := slices
        filledQty := newTotalQty
        avgFillPrice :=
          if 0 < newTotalQty then
            (t.avgFillPrice * t.filledQty + fillPrice * filledQty) / newTotalQty
          else t.avgFillPrice
        completed := t.completed || (!slices.isEmpty && slices.all (fun s => s.filled)) }

def isComplete (t : TwapOrder) : Bool := t.completed || t.cancelled

end Execution

end TB.TwapExecutor
