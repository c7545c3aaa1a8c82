import TomorrowBot.KeyedIndex
import TomorrowBot.OrderTypes
import TomorrowBot.PortfolioEngine
import TomorrowBot.ReconciliationTypes

/-!
# Comparing the local state with the exchange

Orders are joined by the exchange's id and, where that finds nothing, by the
client id. Positions are joined by symbol and side. What differs is a list of
mismatches; resolving one only marks what somebody else has to do about it.
-/

set_option autoImplicit false

namespace TB.ReconciliationEngine
open TB.CommonTypes TB.OrderTypes TB.PortfolioEngine TB.ReconciliationTypes

section Orders
variable {F : Type} [DoubleArith F]

def nonEmpty (id : OrderId) : Option OrderId := if id = "" then none else some id

def exchangeById (orders : List (ExchangeOrderInfo F)) : Dict (ExchangeOrderInfo F) :=
  Keyed.indexBy (fun eo => nonEmpty eo.orderId) orders

def exchangeByClientId (orders : List (ExchangeOrderInfo F)) : Dict (ExchangeOrderInfo F) :=
  Keyed.indexBy (fun eo => nonEmpty eo.clientOrderId) orders

def findOnExchange (byId byClientId : Dict (ExchangeOrderInfo F)) (own : OrderRecord F) :
    Option (ExchangeOrderInfo F × OrderId) :=
  match (nonEmpty own.exchangeOrderId).bind (fun id => byId.lookup id) with
  | some found => some (found, own.exchangeOrderId)
  | none =>
    match (nonEmpty own.orderId).bind (fun id => byClientId.lookup id) with
    | some found => some (found, found.orderId)
    | none => none

def activeOnExchange (eo : ExchangeOrderInfo F) : Bool :=
  eo.status == "live" || eo.status == "partially_filled" || eo.status == "new"

def activityDiffers (own : OrderRecord F) (eo : ExchangeOrderInfo F) : Bool :=
  isActive own.state != activeOnExchange eo

def filledTolerance (a b : F) : F := stdMax 1e-8 (stdMax a b * 1e-5)

def filledDiffers (own : OrderRecord F) (eo : ExchangeOrderInfo F) : Bool :=
  decide (filledTolerance own.filledQuantity eo.filledQuantity <
    stdAbs (own.filledQuantity - eo.filledQuantity))

def mismatch (now : Timestamp) (type : MismatchType) (symbol : Symbol) (orderId : OrderId)
    (positionSide : Option PositionSide) : MismatchRecord :=
  ⟨type, symbol, orderId, .noAction, false, now, positionSide⟩

def orderMismatch (now : Timestamp) (type : MismatchType) (own : OrderRecord F) :
    MismatchRecord :=
  mismatch now type own.symbol own.orderId none

def orphanOrder (now : Timestamp) (eo : ExchangeOrderInfo F) : MismatchRecord :=
  mismatch now .orderExistsOnlyOnExchange eo.symbol eo.orderId none

structure OrderPass where
  mismatches : List MismatchRecord
  matchedExchangeIds : List OrderId

def reconcileOrder (now : Timestamp) (byId byClientId : Dict (ExchangeOrderInfo F))
    (s : OrderPass) (own : OrderRecord F) : OrderPass :=
  if isTerminal own.state then s
  else
    match findOnExchange byId byClientId own with
    | none =>
      { s with mismatches := s.mismatches ++ [orderMismatch now .orderExistsOnlyLocally own] }
    | some (found, matchedId) =>
      { mismatches := s.mismatches ++
          (if activityDiffers own found then [orderMismatch now .stateMismatch own] else []) ++
          (if filledDiffers own found then [orderMismatch now .quantityMismatch own] else [])
        matchedExchangeIds := matchedId :: s.matchedExchangeIds }

def reconcileOrders (now : Timestamp) (localOrders : List (OrderRecord F))
    (exchangeOrders : List (ExchangeOrderInfo F)) : List MismatchRecord :=
  let s := localOrders.foldl
    (reconcileOrder now (exchangeById exchangeOrders) (exchangeByClientId exchangeOrders)) ⟨[], []⟩
  s.mismatches ++
    (exchangeOrders.filter (fun eo => !s.matchedExchangeIds.contains eo.orderId)).map
      (orphanOrder now)

end Orders

section Positions
variable {F : Type} [DoubleArith F]

def makeKey (symbol : Symbol) (side : Side) : String :=
  symbol ++ match side with
    | .buy => "|L"
    | .sell => "|S"

def positionMismatch (now : Timestamp) (type : MismatchType) (symbol : Symbol) (side : Side) :
    MismatchRecord :=
  mismatch now type symbol "" (some (sideToPositionSide side))

def sizeTolerance (cfg : ReconciliationConfig F) (exchangeSize : F) : F :=
  stdMax 1e-8 (stdAbs exchangeSize * stdAbs cfg.positionTolerancePct / 100.0)

structure PositionPass where
  mismatches : List MismatchRecord
  matchedKeys : List String

def reconcilePosition (cfg : ReconciliationConfig F) (now : Timestamp)
    (byKey : Dict (ExchangeOpenPositionInfo F)) (s : PositionPass) (own : Position F) :
    PositionPass :=
  if own.size < 1e-12 then s
  else
    match byKey.lookup (makeKey own.symbol own.side) with
    | none =>
      { s with mismatches := s.mismatches ++
          [positionMismatch now .positionExistsOnlyLocally own.symbol own.side] }
    | some ep =>
      { mismatches := s.mismatches ++
          (if sizeTolerance cfg ep.size < stdAbs (ep.size - own.size) then
            [positionMismatch now .quantityMismatch own.symbol own.side] else [])
        matchedKeys := makeKey own.symbol own.side :: s.matchedKeys }

def reconcilePositions (cfg : ReconciliationConfig F) (now : Timestamp)
    (localPositions : List (Position F)) (exchangePositions : List (ExchangeOpenPositionInfo F)) :
    List MismatchRecord :=
  let byKey := Keyed.indexBy (fun ep => some (makeKey ep.symbol ep.side)) exchangePositions
  let s := localPositions.foldl (reconcilePosition cfg now byKey) ⟨[], []⟩
  s.mismatches ++
    (exchangePositions.filter (fun ep =>
      !s.matchedKeys.contains (makeKey ep.symbol ep.side) && !decide (ep.size < 1e-12))).map
      (fun ep => positionMismatch now .positionExistsOnlyOnExchange ep.symbol ep.side)

def reconcileBalance (cfg : ReconciliationConfig F) (now : Timestamp) (localCash : F)
    (exchangeBalances : List (ExchangePositionInfo F)) : List MismatchRecord :=
  match exchangeBalances.find? (fun eb => eb.symbol == "USDT") with
  | none => []
  | some eb =>
    let exchangeUsdt := if 0 < eb.totalValueUsd then eb.totalValueUsd else eb.available + eb.frozen
    let diff := stdAbs (exchangeUsdt - localCash)
    let diffPct :=
      if 1e-8 < localCash then diff / localCash * 100.0
      else if 1e-8 < exchangeUsdt then 100.0 else 0
    if cfg.balanceTolerancePct < diffPct then [mismatch now .balanceMismatch "USDT" "" none] else []

end Positions

section Resolution
variable {F : Type} [DoubleArith F]

def resolveAs (m : MismatchRecord) (action : ResolutionAction) : MismatchRecord × Bool :=
  ({ m with resolvedBy := action, resolved := true }, true)

def alertOperator (m : MismatchRecord) : MismatchRecord × Bool :=
  ({ m with resolvedBy := .alertOperator }, false)

def tryAutoResolve (cfg : ReconciliationConfig F) (m : MismatchRecord) : MismatchRecord × Bool :=
  match m.type with
  | .stateMismatch | .quantityMismatch =>
    if cfg.autoResolveStateMismatches then resolveAs m .syncFromExchange else alertOperator m
  | .orderExistsOnlyOnExchange =>
    if cfg.autoCancelOrphanOrders then resolveAs m .cancelOnExchange else alertOperator m
  | .orderExistsOnlyLocally => resolveAs m .updateLocalState
  | .positionExistsOnlyOnExchange =>
    if cfg.autoCloseOrphanPositions then resolveAs m .closeOnExchange else alertOperator m
  | .positionExistsOnlyLocally => resolveAs m .updateLocalState
  | .balanceMismatch => alertOperator m

def resolveFrom (cfg : ReconciliationConfig F) (count : ℕ) :
    List MismatchRecord → List MismatchRecord × ℕ
  | [] => ([], count)
  | m :: ms =>
    if cfg.maxAutoResolutionsPerRun ≤ count then (m :: ms, count)
    else
      let next := resolveFrom cfg
        (if (tryAutoResolve cfg m).2 then count + 1 else count) ms
      ((tryAutoResolve cfg m).1 :: next.1, next.2)

def autoResolveMismatches (cfg : ReconciliationConfig F) (r : ReconciliationResult) :
    ReconciliationResult :=
  let resolved := resolveFrom cfg 0 r.mismatches
  { r with
    mismatches := resolved.1
    autoResolved := resolved.2
    operatorEscalated :=
      resolved.1.countP (fun m => !m.resolved && m.resolvedBy == .alertOperator) }

def finalizeResult (startTs endTs : Timestamp) (r : ReconciliationResult) :
    ReconciliationResult :=
  { r with durationMs := max 0 (endTs - startTs) / 1000000, completedAt := endTs }

structure RunClock where
  start : Timestamp
  positions : Timestamp
  balance : Timestamp
  finish : Timestamp

structure ExchangeAnswers (F : Type) where
  openPositions : Option (List (ExchangeOpenPositionInfo F))
  accountBalances : Option (List (ExchangePositionInfo F))

def positionsFound (cfg : ReconciliationConfig F) (now : Timestamp)
    (localPositions : List (Position F)) :
    Option (List (ExchangeOpenPositionInfo F)) → List MismatchRecord × ℕ
  | none => ([], 0)
  | some eps =>
    (reconcilePositions cfg now localPositions eps, localPositions.length + eps.length)

def balancesFound (cfg : ReconciliationConfig F) (now : Timestamp) (localCash : F) :
    Option (List (ExchangePositionInfo F)) → List MismatchRecord × ℕ
  | none => ([], 0)
  | some ebs => (reconcileBalance cfg now localCash ebs, 1)

def reconcilePositionsAndBalance (cfg : ReconciliationConfig F) (clock : RunClock)
    (answers : ExchangeAnswers F) (localPositions : List (Position F)) (localCash : F) :
    ReconciliationResult :=
  let positions := positionsFound cfg clock.positions localPositions answers.openPositions
  let balances := balancesFound cfg clock.balance localCash answers.accountBalances
  let r := autoResolveMismatches cfg
    { status := .success
      mismatches := positions.1 ++ balances.1
      ordersReconciled := 0
      positionsReconciled := positions.2
      balancesChecked := balances.2
      autoResolved := 0
      operatorEscalated := 0
      durationMs := 0
      completedAt := 0 }
  finalizeResult clock.start clock.finish
    { r with status :=
        if r.mismatches.any (fun m => !m.resolved) then .criticalMismatch else .success }

end Resolution

end TB.ReconciliationEngine
