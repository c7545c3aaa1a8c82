import TomorrowBot.SetupLifecycle

/-!
# The strategy engine

A state machine takes a symbol from a setup through an entry to a position and
a cooldown. Its table refuses moves silently; the engine goes on without asking
whether a move was made. Locks of the risk engine enter and leave the blocked
state past the table.
-/

set_option autoImplicit false

namespace TB.StrategyEngine
open TB.CommonTypes TB.StrategyTypes TB.SetupLifecycle

def validTransition : SymbolState → SymbolState → Bool
  | .idle, s =>
    s = .candidate || s = .setupForming || s = .positionOpen || s = .cooldown || s = .blocked
  | .candidate, s => s = .setupForming || s = .positionOpen || s = .idle || s = .blocked
  | .setupForming, s => s = .setupPendingConfirmation || s = .positionOpen || s = .idle ||
      s = .cooldown || s = .blocked
  | .setupPendingConfirmation, s => s = .entryReady || s = .positionOpen || s = .idle ||
      s = .cooldown || s = .blocked
  | .entryReady, s => s = .entrySent || s = .positionOpen || s = .idle || s = .cooldown ||
      s = .blocked
  | .entrySent, s => s = .positionOpen || s = .idle || s = .cooldown
  | .positionOpen, s => s = .positionManaging || s = .exitPending || s = .cooldown
  | .positionManaging, s => s = .exitPending || s = .positionOpen || s = .cooldown
  | .exitPending, s => s = .cooldown || s = .idle
  | .cooldown, s => s = .idle
  | .blocked, s => s = .idle

structure StrategyStateMachine (F : Type) where
  state : SymbolState
  activeSetup : Option (Setup F)
  position : StrategyPositionContext F
  lastTransitionNs : ℤ
  cooldownEndNs : ℤ
  setupCounter : ℕ

section Machine
variable {F : Type} [DoubleArith F]

def initialMachine : StrategyStateMachine F where
  state := .idle
  activeSetup := none
  position := noPositionContext
  lastTransitionNs := 0
  cooldownEndNs := 0
  setupCounter := 0

namespace StrategyStateMachine

omit [DoubleArith F] in
def transitionTo (m : StrategyStateMachine F) (newState : SymbolState) (nowNs : ℤ) :
    StrategyStateMachine F :=
  if validTransition m.state newState then { m with state := newState, lastTransitionNs := nowNs }
  else m

def startCooldown (m : StrategyStateMachine F) (nowNs durationMs : ℤ) : StrategyStateMachine F :=
  if nowNs ≤ 0 then m
  else { m with cooldownEndNs := nowNs + durationMs * 1000000 }.transitionTo .cooldown nowNs

def isCooldownExpired (m : StrategyStateMachine F) (nowNs : ℤ) : Bool :=
  if nowNs ≤ 0 then false else decide (m.cooldownEndNs ≤ nowNs)

def openPosition (m : StrategyStateMachine F) (setup : Setup F) (entryPrice size : F)
    (side : Side) (posSide : PositionSide) (atr : F) (nowNs : ℤ) : StrategyStateMachine F :=
  { m with
    position := {
      (noPositionContext : StrategyPositionContext F) with
      hasPosition := true
      side := side
      positionSide := posSide
      size := size
      avgEntryPrice := entryPrice
      entryTimeNs := nowNs
      entrySetupId := setup.id
      entrySetupType := setup.type
      entryConfidence := setup.confidence
      entryAtr := atr
      peakFavorablePrice := entryPrice } }

def updatePosition (m : StrategyStateMachine F) (currentPrice unrealizedPnl : F) (nowNs : ℤ) :
    StrategyStateMachine F :=
  let p := m.position
  if p.hasPosition = false then m
  else
    let pct := (currentPrice - p.avgEntryPrice) / p.avgEntryPrice
    let pct := if p.positionSide = .short then -pct else pct
    let pct := if 0.0 < p.avgEntryPrice then pct else p.unrealizedPnlPct
    { m with
      position := {
        p with
        unrealizedPnl := unrealizedPnl
        holdDurationNs := nowNs - p.entryTimeNs
        unrealizedPnlPct := pct
        peakPnlPct := stdMax p.peakPnlPct pct
        peakFavorablePrice :=
          if p.positionSide = .long then stdMax p.peakFavorablePrice currentPrice
          else stdMin p.peakFavorablePrice currentPrice } }

def closePosition (m : StrategyStateMachine F) : StrategyStateMachine F :=
  { m with position := noPositionContext }

def setSetup (m : StrategyStateMachine F) (setup : Setup F) : StrategyStateMachine F :=
  { m with activeSetup := some setup }

def clearSetup (m : StrategyStateMachine F) : StrategyStateMachine F :=
  { m with activeSetup := none }

def block (m : StrategyStateMachine F) (nowNs : ℤ) : StrategyStateMachine F :=
  { m with state := .blocked, lastTransitionNs := nowNs }

def unblock (m : StrategyStateMachine F) (nowNs : ℤ) : StrategyStateMachine F :=
  if m.state = .blocked then { m with state := .idle, lastTransitionNs := nowNs } else m

def reset (m : StrategyStateMachine F) : StrategyStateMachine F where
  state := .idle
  activeSetup := none
  position := if m.position.hasPosition then m.position else noPositionContext
  lastTransitionNs := 0
  cooldownEndNs := 0
  setupCounter := 0

def nextSetupId (m : StrategyStateMachine F) : StrategyStateMachine F × String :=
  ({ m with setupCounter := m.setupCounter + 1 }, "setup_" ++ toString (m.setupCounter + 1))

end StrategyStateMachine

end Machine

section Components
variable {F : Type} [DoubleArith F] (cfg : ScalpStrategyConfig F)

def evaluateMarketContext (ctx : StrategyContext F) : MarketContextQuality :=
  let micro := ctx.features.microstructure
  let tech := ctx.features.technical
  if !ctx.dataFresh || !ctx.features.executionContext.isFeedFresh then .invalid
  else if !micro.spreadValid || !micro.bookImbalanceValid then .invalid
  else if micro.spreadBps < 0.0 then .invalid
  else
    let spreadOk := decide (micro.spreadBps ≤ cfg.maxSpreadBpsForEntry)
    let liquidityOk :=
      if micro.liquidityValid then decide (cfg.minLiquidityRatio ≤ micro.liquidityRatio)
      else less 0.0 micro.bidDepth5Notional && less 0.0 micro.askDepth5Notional
    let vpinOk := if micro.vpinValid then !micro.vpinToxic else true
    let volRatio := if 0.0 < tech.volatility20 then tech.volatility5 / tech.volatility20 else 1.0
    let volatilityOk :=
      if tech.volatilityValid then less volRatio 3.0 && less 0.0001 tech.volatility5 else true
    let failed := [spreadOk, liquidityOk, vpinOk, volatilityOk].count false
    if failed = 0 then
      if less micro.spreadBps (cfg.maxSpreadBpsForEntry * 0.5) &&
          less (cfg.minLiquidityRatio * 2.0) micro.liquidityRatio then .excellent
      else .good
    else if failed = 1 then .marginal
    else .poor

def managePosition (pos : StrategyPositionContext F) : PositionManagementResult F where
  action := if pos.hasPosition then .hold else .skip
  exitReason := .none
  reduceFraction := 0.0
  confidence := pos.entryConfidence

end Components

structure Engine (F : Type) where
  machine : StrategyStateMachine F
  active : Bool
  exitSignalSent : Bool
  consecutiveLosses : ℤ

structure Evaluation (F : Type) where
  engine : Engine F
  intent : Option (StrategyIntent F)
  consulted : Bool

section Engine
variable {F : Type} [DoubleArith F] (cfg : ScalpStrategyConfig F)

def initialEngine : Engine F := ⟨initialMachine, true, false, 0⟩

def quiet (e : Engine F) : Evaluation F := ⟨e, none, false⟩

def buildIntent (ctx : StrategyContext F) (setup : Setup F) (signalType : StrategySignalType)
    (nowNs : ℤ) : StrategyIntent F :=
  let micro := ctx.features.microstructure
  let mid := micro.midPrice
  let offset := micro.spread * cfg.limitPriceSpreadFrac
  let intent : StrategyIntent F := {
    emptyIntent with
    strategyId := "scalp_engine"
    symbol := ctx.features.symbol
    side := setup.side
    positionSide := if setup.side = .buy then .long else .short
    signalIntent := if setup.side = .buy then .longEntry else .shortEntry
    tradeSide := .opening
    conviction := setup.confidence
    signalName := setupTypeName setup.type
    generatedAt := nowNs
    entryScore := setup.confidence
    urgency := cfg.defaultIntentUrgency
    setupId := setup.id
    setupType := setup.type
    signalType := signalType }
  if isfinite mid = false ∨ mid ≤ 0.0 then
    { intent with limitPrice := some 0.0, snapshotMidPrice := some 0.0 }
  else
    { intent with
      limitPrice := some (if setup.side = .buy then mid - offset else mid + offset)
      snapshotMidPrice := some mid
      stopReference := some setup.stopReference
      stopLossPrice :=
        if 0.0 < setup.stopReference ∧ isfinite setup.stopReference then some setup.stopReference
        else none
      takeProfitPrice :=
        if 0.0 < setup.tpReference ∧ isfinite setup.tpReference then some setup.tpReference
        else none
      signalSnapshotTsNs := nowNs
      signalSnapshotMid := mid
      signalSnapshotSpreadBps := if micro.spreadValid then micro.spreadBps else 0.0
      signalSnapshotDepthUsd :=
        if micro.liquidityValid then micro.bidDepth5Notional + micro.askDepth5Notional else 0.0 }

def buildExitIntent (pos : StrategyPositionContext F) (ctx : StrategyContext F)
    (mgmt : PositionManagementResult F) (nowNs : ℤ) : StrategyIntent F :=
  let long := pos.positionSide = .long
  let intent : StrategyIntent F := {
    emptyIntent with
    strategyId := "scalp_engine"
    symbol := ctx.features.symbol
    side := if long then .sell else .buy
    signalIntent := if long then .longExit else .shortExit
    positionSide := pos.positionSide
    tradeSide := .closing
    exitReason := mgmt.exitReason
    conviction := mgmt.confidence
    signalName := exitReasonName mgmt.exitReason
    generatedAt := nowNs
    urgency := if mgmt.action = .emergencyExit then 1.0 else 0.9
    snapshotMidPrice := some ctx.features.microstructure.midPrice
    signalType := mgmt.action }
  if mgmt.action = .reduce then
    { intent with
      signalIntent := .reducePosition
      suggestedQuantity := pos.size * mgmt.reduceFraction }
  else intent

def cancelSetup (e : Engine F) (nowNs : ℤ) : Engine F :=
  { e with machine := e.machine.clearSetup.startCooldown nowNs cfg.cooldownAfterFailedSetupMs }

def exitCooldownMs (consecutiveLosses : ℤ) : ℤ :=
  if 2 ≤ consecutiveLosses then max cfg.cooldownAfterExitMs (30 * 60 * 1000)
  else cfg.cooldownAfterExitMs

def enter (e : Engine F) (ctx : StrategyContext F) (setup : Setup F)
    (quality : MarketContextQuality) (nowNs : ℤ) : Evaluation F :=
  if setup.confidence < cfg.minSetupConfidence then quiet e
  else if quality = .marginal ∧ setup.confidence < cfg.minSetupConfidence + 0.15 then quiet e
  else if 0 < setup.detectedAtNs ∧ cfg.maxSignalAgeNs < nowNs - setup.detectedAtNs then
    quiet { e with machine := e.machine.transitionTo .idle nowNs }
  else
    { engine := { e with machine := e.machine.transitionTo .entrySent nowNs }
      intent := some (buildIntent cfg ctx setup
        (if setup.side = .buy then .enterLong else .enterShort) nowNs)
      consulted := false }

def advanceSetup (e : Engine F) (ctx : StrategyContext F) (setup : Setup F)
    (quality : MarketContextQuality) (nowNs : ℤ) : Evaluation F :=
  match e.machine.state with
  | .setupForming =>
    if canConfirm cfg ctx setup nowNs then
      let confirmed : Setup F := {
        setup with
        confirmedAtNs := nowNs
        confidence := stdMin (setup.confidence + cfg.setupConfirmationBonus) cfg.maxConviction }
      let m := (e.machine.setSetup confirmed).transitionTo .setupPendingConfirmation nowNs
      enter cfg { e with machine := m.transitionTo .entryReady nowNs } ctx confirmed quality nowNs
    else quiet e
  | .setupPendingConfirmation =>
    enter cfg { e with machine := e.machine.transitionTo .entryReady nowNs } ctx setup quality nowNs
  | .entryReady => enter cfg e ctx setup quality nowNs
  | .entrySent =>
    if cfg.entrySentTimeoutMs < (nowNs - e.machine.lastTransitionNs).tdiv 1000000 then
      quiet (cancelSetup cfg e nowNs)
    else quiet e
  | _ => quiet e

def handlePreEntry (e : Engine F) (ctx : StrategyContext F) (nowNs : ℤ) : Evaluation F :=
  let quality := evaluateMarketContext cfg ctx
  if quality = .invalid ∨ quality = .poor then
    quiet (if e.machine.activeSetup.isSome then cancelSetup cfg e nowNs else e)
  else if e.machine.state = .idle then
    let (m, id) := e.machine.nextSetupId
    match detect cfg ctx id nowNs with
    | none => quiet { e with machine := m }
    | some setup => quiet { e with machine := (m.setSetup setup).transitionTo .setupForming nowNs }
  else
    match e.machine.activeSetup with
    | none => quiet { e with machine := e.machine.transitionTo .idle nowNs }
    | some setup =>
      if validate cfg ctx setup nowNs then advanceSetup cfg e ctx setup quality nowNs
      else quiet (cancelSetup cfg e nowNs)

def handleCooldown (e : Engine F) (ctx : StrategyContext F) (nowNs : ℤ) : Evaluation F :=
  if e.machine.isCooldownExpired nowNs then
    handlePreEntry cfg { e with machine := e.machine.transitionTo .idle nowNs } ctx nowNs
  else quiet e

def handlePosition (e : Engine F) (ctx : StrategyContext F) (nowNs : ℤ) : Evaluation F :=
  let p := e.machine.position
  let p := if 0 < p.entryTimeNs then { p with holdDurationNs := nowNs - p.entryTimeNs } else p
  let m : StrategyStateMachine F := { e.machine with position := p }
  let m := if m.state = .positionOpen then m.transitionTo .positionManaging nowNs else m
  let e := { e with machine := m }
  if e.exitSignalSent then quiet e
  else
    let mgmt := managePosition p
    match mgmt.action with
    | .exitFull | .emergencyExit =>
      { engine := { e with machine := m.transitionTo .exitPending nowNs, exitSignalSent := true }
        intent := some (buildExitIntent p ctx mgmt nowNs)
        consulted := true }
    | .reduce => ⟨e, some (buildExitIntent p ctx mgmt nowNs), true⟩
    | _ => ⟨e, none, true⟩

def inPosition (s : SymbolState) : Bool := s = .positionOpen || s = .positionManaging

def recover (m : StrategyStateMachine F) (ctx : StrategyContext F) (nowNs : ℤ) :
    StrategyStateMachine F :=
  let m := m.transitionTo .positionOpen nowNs
  let p := {
    m.position with
    hasPosition := true
    side := ctx.position.side
    positionSide := ctx.position.positionSide
    size := ctx.position.size
    avgEntryPrice := ctx.position.avgEntryPrice
    entryTimeNs := ctx.position.entryTimeNs }
  let p :=
    match m.activeSetup with
    | none => p
    | some setup => {
      p with
      entrySetupId := setup.id
      entrySetupType := setup.type
      entryConfidence := setup.confidence
      entryAtr := setup.atrAtDetect }
  { m with position := p }.clearSetup

def syncPosition (m : StrategyStateMachine F) (ctx : StrategyContext F) (nowNs : ℤ) :
    StrategyStateMachine F :=
  let m := m.updatePosition ctx.features.microstructure.midPrice ctx.position.unrealizedPnl nowNs
  if inPosition m.state || m.state = .exitPending then m else recover m ctx nowNs

def closeDetected (e : Engine F) (nowNs : ℤ) : Engine F :=
  { e with
    machine := e.machine.closePosition.clearSetup.startCooldown nowNs
      (exitCooldownMs cfg e.consecutiveLosses)
    exitSignalSent := false }

def route (e : Engine F) (ctx : StrategyContext F) (nowNs : ℤ) : Evaluation F :=
  match e.machine.state with
  | .cooldown => handleCooldown cfg e ctx nowNs
  | .blocked =>
    if ctx.risk.dayLocked || ctx.risk.symbolLocked then quiet e
    else quiet { e with machine := e.machine.unblock nowNs }
  | .positionOpen | .positionManaging | .exitPending => handlePosition e ctx nowNs
  | _ => handlePreEntry cfg e ctx nowNs

def haltIntent (e : Engine F) (ctx : StrategyContext F) (nowNs : ℤ) :
    Option (StrategyIntent F) :=
  if inPosition e.machine.state then
    some (buildExitIntent e.machine.position ctx ⟨.emergencyExit, .emergencyExit, 0.0, 1.0⟩ nowNs)
  else none

def evaluate (e : Engine F) (ctx : StrategyContext F) (nowNs : ℤ) : Evaluation F :=
  if !e.active then quiet e
  else if ctx.risk.emergencyHalt then ⟨e, haltIntent e ctx nowNs, false⟩
  else if (ctx.risk.dayLocked || ctx.risk.symbolLocked) && !inPosition e.machine.state then
    quiet { e with machine := e.machine.block nowNs }
  else if !ctx.dataFresh || !ctx.exchangeOk then
    if inPosition e.machine.state then handlePosition e ctx nowNs
    else quiet (if e.machine.activeSetup.isSome then cancelSetup cfg e nowNs else e)
  else if !ctx.isStrategyEnabled then quiet e
  else if ctx.position.hasPosition then
    route cfg { e with machine := syncPosition e.machine ctx nowNs } ctx nowNs
  else if e.machine.position.hasPosition then quiet (closeDetected cfg e nowNs)
  else route cfg e ctx nowNs

def externalSetup : Setup F where
  id := "external"
  type := .momentumContinuation
  side := .buy
  confidence := 0.5
  referencePrice := 0.0
  stopReference := 0.0
  tpReference := 0.0
  entryReference := 0.0
  detectedAtNs := 0
  confirmedAtNs := 0
  lastCheckNs := 0
  spreadBpsAtDetect := 0.0
  imbalanceAtDetect := 0.0
  atrAtDetect := 0.0
  rsiAtDetect := 0.0

def notifyPositionOpened (e : Engine F) (entryPrice size : F) (side : Side)
    (posSide : PositionSide) (nowNs : ℤ) : Engine F :=
  let setup := e.machine.activeSetup.getD externalSetup
  let atr :=
    if e.machine.activeSetup.isSome then setup.atrAtDetect
    else entryPrice * cfg.fallbackAtrFraction
  { e with
    machine := (e.machine.openPosition setup entryPrice size side posSide atr nowNs).transitionTo
      .positionOpen nowNs }

def countLoss (consecutiveLosses : ℤ) (pnl : F) : ℤ :=
  let threshold := cfg.pnlThresholdBps / 10000.0
  if pnl < -threshold then consecutiveLosses + 1
  else if threshold < pnl then 0
  else consecutiveLosses

def notifyPositionClosed (e : Engine F) (pnl : F) (nowNs : ℤ) : Engine F :=
  let losses := countLoss cfg e.consecutiveLosses pnl
  { e with
    machine := e.machine.closePosition.clearSetup.startCooldown nowNs (exitCooldownMs cfg losses)
    exitSignalSent := false
    consecutiveLosses := losses }

def notifyEntryRejected (e : Engine F) (nowNs : ℤ) : Engine F :=
  let e := cancelSetup cfg e nowNs
  { e with machine := e.machine.startCooldown nowNs cfg.cooldownAfterRejectionMs }

def reset (e : Engine F) : Engine F :=
  { e with machine := e.machine.reset, exitSignalSent := false }

inductive StrategyOp (F : Type) where
  | evaluate (nowNs : ℤ) (ctx : StrategyContext F)
  | notifyPositionOpened (nowNs : ℤ) (entryPrice size : F) (side : Side) (posSide : PositionSide)
  | notifyPositionClosed (nowNs : ℤ) (pnl : F)
  | notifyEntryRejected (nowNs : ℤ)
  | reset

def engineStep (e : Engine F) : StrategyOp F → Engine F
  | .evaluate nowNs ctx => (evaluate cfg e ctx nowNs).engine
  | .notifyPositionOpened nowNs entryPrice size side posSide =>
    notifyPositionOpened cfg e entryPrice size side posSide nowNs
  | .notifyPositionClosed nowNs pnl => notifyPositionClosed cfg e pnl nowNs
  | .notifyEntryRejected nowNs => notifyEntryRejected cfg e nowNs
  | .reset => reset e

end Engine

end TB.StrategyEngine
