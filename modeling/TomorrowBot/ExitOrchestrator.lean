import TomorrowBot.CommonTypes

/-!
# The trailing stop of an open position

One tick's update of the stop level, the breakeven flag and the extremes of
the price since the entry. A stop level that is not positive stands for no
stop.
-/

set_option autoImplicit false

namespace TB.ExitOrchestrator
open TB.CommonTypes

variable {F : Type} [DoubleArith F]

structure MarketInputs (F : Type) where
  currentPrice : F
  atr14 : F
  atrValid : Bool
  depthUsd : F
  spreadBps : F
  adx : F
  bbWidth : F
  buyPressure : F
  takerFeePct : F
  atrStopMultiplier : F
  breakevenAtrThreshold : F

structure ExitContext (F : Type) extends MarketInputs F where
  positionSide : PositionSide
  entryPrice : F
  highestPriceSinceEntry : F
  lowestPriceSinceEntry : F
  currentStopLevel : F
  currentTrailMult : F
  breakevenActivated : Bool

@[ext]
structure TrailingUpdate (F : Type) where
  stopLevel : F
  trailMult : F
  breakevenActivated : Bool
  highest : F
  lowest : F

def adxFactor (adx : F) : F := if 30.0 < adx then 0.85 else if adx ≤ 20.0 then 1.15 else 1.0

def depthFactor (depthUsd : F) : F :=
  if depthUsd < 500.0 then 1.3 else if depthUsd < 2000.0 then 1.1 else 1.0

def spreadFactor (spreadBps : F) : F :=
  if 50.0 < spreadBps then 1.3 else if 20.0 < spreadBps then 1.1 else 1.0

def bbFactor (bbWidth : F) : F :=
  if 0.05 < bbWidth then 1.2 else if 0.03 < bbWidth then 1.1 else 1.0

def pressureFactor (side : PositionSide) (buyPressure : F) : F :=
  match side with
  | .long => if buyPressure < 0.3 then 0.8 else 1.0
  | .short => if 0.7 < buyPressure then 0.8 else 1.0

def profit (side : PositionSide) (entry price : F) : F :=
  match side with
  | .long => price - entry
  | .short => entry - price

def profitInAtr (ctx : ExitContext F) : F :=
  profit ctx.positionSide ctx.entryPrice ctx.currentPrice / ctx.atr14

def profitFactor (ctx : ExitContext F) : F :=
  if 0 < ctx.atr14 ∧ 0 < ctx.entryPrice then
    if 0.5 < profitInAtr ctx then stdMin 1.8 (1.0 + (profitInAtr ctx - 0.5) * 0.5) else 1.0
  else 1.0

def trailMult (ctx : ExitContext F) : F :=
  stdClamp (ctx.atrStopMultiplier * adxFactor ctx.adx * depthFactor ctx.depthUsd *
    spreadFactor ctx.spreadBps * bbFactor ctx.bbWidth *
    pressureFactor ctx.positionSide ctx.buyPressure * profitFactor ctx) 0.8 5.0

def minFeeOffset (ctx : ExitContext F) : F := ctx.entryPrice * ctx.takerFeePct / 100.0 * 3.0

def effectiveBeThreshold (ctx : ExitContext F) : F :=
  stdMax ctx.breakevenAtrThreshold
    ((if 0 < ctx.atr14 then minFeeOffset ctx / ctx.atr14 else 100.0) * 1.5)

def trailDistance (ctx : ExitContext F) : F :=
  stdMax (trailMult ctx * ctx.atr14) (ctx.entryPrice * 0.003)

def breakevenLong (ctx : ExitContext F) : F :=
  stdMin (stdMax (stdMax (ctx.entryPrice + (ctx.currentPrice - ctx.entryPrice) * 0.5)
      (ctx.entryPrice + minFeeOffset ctx)) (ctx.entryPrice + ctx.atr14 * 0.1))
    (ctx.currentPrice - ctx.atr14 * 0.1)

def breakevenShort (ctx : ExitContext F) : F :=
  stdMax (stdMin (stdMin (ctx.entryPrice - (ctx.entryPrice - ctx.currentPrice) * 0.5)
      (ctx.entryPrice - minFeeOffset ctx)) (ctx.entryPrice - ctx.atr14 * 0.1))
    (ctx.currentPrice + ctx.atr14 * 0.1)

def Skips (ctx : ExitContext F) : Prop :=
  ctx.atrValid = false ∨ ctx.atr14 ≤ 0 ∨ ctx.entryPrice ≤ 0

instance (ctx : ExitContext F) : Decidable (Skips ctx) := inferInstanceAs (Decidable (_ ∨ _))

def Activates (ctx : ExitContext F) : Prop :=
  ctx.breakevenActivated = false ∧ effectiveBeThreshold ctx ≤ profitInAtr ctx

instance (ctx : ExitContext F) : Decidable (Activates ctx) := inferInstanceAs (Decidable (_ ∧ _))

def updateLong (ctx : ExitContext F) (u : TrailingUpdate F) : TrailingUpdate F :=
  let u := { u with highest := stdMax ctx.highestPriceSinceEntry ctx.currentPrice }
  if ctx.breakevenActivated = false then
    if effectiveBeThreshold ctx ≤ profitInAtr ctx then
      { u with breakevenActivated := true, stopLevel := breakevenLong ctx }
    else if u.stopLevel ≤ 0 then
      { u with stopLevel := ctx.entryPrice - trailDistance ctx }
    else u
  else
    { u with stopLevel := stdMax ctx.currentStopLevel (u.highest - trailDistance ctx) }

def updateShort (ctx : ExitContext F) (u : TrailingUpdate F) : TrailingUpdate F :=
  let u := { u with lowest := stdMin ctx.lowestPriceSinceEntry ctx.currentPrice }
  if ctx.breakevenActivated = false then
    if effectiveBeThreshold ctx ≤ profitInAtr ctx then
      { u with breakevenActivated := true, stopLevel := breakevenShort ctx }
    else if u.stopLevel ≤ 0 then
      { u with stopLevel := ctx.entryPrice + trailDistance ctx }
    else u
  else if ctx.currentStopLevel ≤ 0 then
    { u with stopLevel := u.lowest + trailDistance ctx }
  else
    { u with stopLevel := stdMin ctx.currentStopLevel (u.lowest + trailDistance ctx) }

theorem updateLong_rest (ctx : ExitContext F) (u : TrailingUpdate F) :
    (updateLong ctx u).trailMult = u.trailMult ∧
      (updateLong ctx u).highest = stdMax ctx.highestPriceSinceEntry ctx.currentPrice ∧
      (updateLong ctx u).lowest = u.lowest := by
  unfold updateLong
  dsimp only
  split_ifs <;> exact ⟨rfl, rfl, rfl⟩

theorem updateShort_rest (ctx : ExitContext F) (u : TrailingUpdate F) :
    (updateShort ctx u).trailMult = u.trailMult ∧
      (updateShort ctx u).highest = u.highest ∧
      (updateShort ctx u).lowest = stdMin ctx.lowestPriceSinceEntry ctx.currentPrice := by
  unfold updateShort
  dsimp only
  split_ifs <;> exact ⟨rfl, rfl, rfl⟩

def updateTrailing (ctx : ExitContext F) : TrailingUpdate F :=
  let u : TrailingUpdate F :=
    { stopLevel := ctx.currentStopLevel
      trailMult := ctx.currentTrailMult
      breakevenActivated := ctx.breakevenActivated
      highest := ctx.highestPriceSinceEntry
      lowest := ctx.lowestPriceSinceEntry }
  if Skips ctx then u
  else
    let u := { u with trailMult := trailMult ctx }
    match ctx.positionSide with
    | .long => updateLong ctx u
    | .short => updateShort ctx u

structure Position (F : Type) where
  side : PositionSide
  entry : F

def start (entry mult : F) : TrailingUpdate F where
  stopLevel := 0
  trailMult := mult
  breakevenActivated := false
  highest := entry
  lowest := entry

def context (pos : Position F) (s : TrailingUpdate F) (m : MarketInputs F) : ExitContext F where
  toMarketInputs := m
  positionSide := pos.side
  entryPrice := pos.entry
  highestPriceSinceEntry := s.highest
  lowestPriceSinceEntry := s.lowest
  currentStopLevel := s.stopLevel
  currentTrailMult := s.trailMult
  breakevenActivated := s.breakevenActivated

def advance (pos : Position F) (s : TrailingUpdate F) (m : MarketInputs F) : TrailingUpdate F :=
  updateTrailing (context pos s m)

theorem advance_skips (pos : Position F) (s : TrailingUpdate F) (m : MarketInputs F)
    (h : Skips (context pos s m)) : advance pos s m = s := by
  rw [advance, updateTrailing, if_pos h]
  rfl

end TB.ExitOrchestrator
