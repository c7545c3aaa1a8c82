import TomorrowBot.PortfolioKeys
import TomorrowBot.ProtectiveBracketManager
import TomorrowBot.ReconciliationEngine

/-!
# The periodic reconciliation of positions inside a pipeline

A pipeline trades one symbol but shares its portfolio with the pipelines of
other symbols. Every five minutes it compares all positions and the balance
with the exchange and carries out what was resolved.
-/

set_option autoImplicit false

namespace TB.PipelineReconciliation
open TB.CommonTypes TB.PortfolioEngine TB.ProtectiveBracketManager TB.ReconciliationTypes
open TB.ReconciliationEngine

structure HedgeState (F : Type) where
  active : Bool
  entryPrice : F
  size : F
  entryTimeNs : ℤ
  originalLoss : F

structure TrailingState (F : Type) where
  highestPriceSinceEntry : F
  lowestPriceSinceEntry : F
  currentStopLevel : F
  breakevenActivated : Bool
  partialTpTaken : Bool
  closeOrderPending : Bool
  initialPositionSize : F
  currentTrailMult : F
  positionEntryTimeNs : ℤ
  lastPushedTrailingSl : F

/-- `closedResults` are the results told to the strategies, `cancels` the
requests sent to the exchange. -/
structure Pipeline (F : Type) where
  portfolio : Portfolio F
  brackets : Dict (BracketState F)
  currentPositionSide : PositionSide
  hedge : HedgeState F
  trailing : TrailingState F
  reconciliationNeedsResync : Bool
  lastPosBalanceReconciliationNs : ℤ
  closedResults : List F
  cancels : List PlanCancel

structure PipelineEnv (F : Type) where
  symbol : Symbol
  atrStopMultiplier : F
  reconciliation : ReconciliationConfig F
  plans : PlanExchange F

variable {F : Type} [DoubleArith F]

def resetHedgeState (s : Pipeline F) : Pipeline F := { s with hedge := ⟨false, 0, 0, 0, 0⟩ }

def resetTrailingState (env : PipelineEnv F) (s : Pipeline F) : Pipeline F :=
  { s with trailing :=
    { highestPriceSinceEntry := 0
      lowestPriceSinceEntry := 1.7976931348623157e308
      currentStopLevel := 0
      breakevenActivated := false
      partialTpTaken := false
      closeOrderPending := false
      initialPositionSize := 0
      currentTrailMult := env.atrStopMultiplier
      positionEntryTimeNs := 0
      lastPushedTrailingSl := 0 } }

def pnlEstimate (ps : PositionSide) : Option (Position F) → F
  | none => 0
  | some pos =>
    if 0 < pos.currentPrice ∧ 0 < pos.avgEntryPrice ∧ 0 < pos.size then
      match ps with
      | .long => (pos.currentPrice - pos.avgEntryPrice) * pos.size
      | .short => (pos.avgEntryPrice - pos.currentPrice) * pos.size
    else 0

def closeLocally (env : PipelineEnv F) (m : MismatchRecord) (pnl : F) (p : Portfolio F) :
    Portfolio F :=
  match m.positionSide with
  | some side => closePositionSide p env.symbol side pnl
  | none => closePosition p env.symbol pnl

/-- The reaction to a position that exists only locally. The symbol is the
pipeline's, whatever the symbol of the mismatch is. -/
def updateLocalState (env : PipelineEnv F) (s : Pipeline F) (m : MismatchRecord) : Pipeline F :=
  let ps := m.positionSide.getD s.currentPositionSide
  let pnl := pnlEstimate ps (getPositionSide s.portfolio env.symbol ps)
  let released := release env.plans s.brackets env.symbol ps
  let next := { s with
    portfolio := closeLocally env m pnl s.portfolio
    brackets := released.brackets
    closedResults := s.closedResults ++ [pnl]
    cancels := s.cancels ++ released.cancels }
  resetTrailingState env (if next.hedge.active then resetHedgeState next else next)

def react (env : PipelineEnv F) (s : Pipeline F) (m : MismatchRecord) : Pipeline F :=
  if !m.resolved then s
  else
    match m.resolvedBy with
    | .syncFromExchange => { s with reconciliationNeedsResync := true }
    | .updateLocalState =>
      if m.type = .positionExistsOnlyLocally then updateLocalState env s m else s
    | .closeOnExchange => { s with reconciliationNeedsResync := true }
    | _ => s

def kPosBalReconcileIntervalNs : ℤ := 300000000000

def reconciliationDue (s : Pipeline F) (nowNs : ℤ) : Bool :=
  s.lastPosBalanceReconciliationNs == 0 ||
    decide (kPosBalReconcileIntervalNs ≤ nowNs - s.lastPosBalanceReconciliationNs)

def snapshotPositions (p : Portfolio F) : List (Position F) :=
  p.positions.entries.map (fun e => e.2)

def positionReport (env : PipelineEnv F) (clock : RunClock) (answers : ExchangeAnswers F)
    (s : Pipeline F) : ReconciliationResult :=
  reconcilePositionsAndBalance env.reconciliation clock answers (snapshotPositions s.portfolio)
    s.portfolio.cashLedger.totalCash

def runPositionReconciliation (env : PipelineEnv F) (nowNs : ℤ) (clock : RunClock)
    (answers : ExchangeAnswers F) (s : Pipeline F) : Pipeline F :=
  if reconciliationDue s nowNs then
    (positionReport env clock answers s).mismatches.foldl (react env)
      { s with lastPosBalanceReconciliationNs := nowNs }
  else s

end TB.PipelineReconciliation
