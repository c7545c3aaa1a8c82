import TomorrowBot.CommonTypes

/-!
# What the exchange answers and what the reconciliation reports

The exchange lists open orders, margin balances and open positions. The
descriptions of mismatches are texts for the operator, which no code reads
back, and are not part of the records.
-/

set_option autoImplicit false

namespace TB.ReconciliationTypes
open TB.CommonTypes

inductive ReconciliationStatus where
  | success
  | partialMismatch
  | criticalMismatch
  | failed

inductive MismatchType where
  | orderExistsOnlyOnExchange
  | orderExistsOnlyLocally
  | stateMismatch
  | quantityMismatch
  | positionExistsOnlyOnExchange
  | positionExistsOnlyLocally
  | balanceMismatch
  deriving DecidableEq, Repr

inductive ResolutionAction where
  | syncFromExchange
  | cancelOnExchange
  | closeOnExchange
  | updateLocalState
  | alertOperator
  | noAction
  deriving DecidableEq, Repr

structure MismatchRecord where
  type : MismatchType
  symbol : Symbol
  orderId : OrderId
  resolvedBy : ResolutionAction
  resolved : Bool
  detectedAt : Timestamp
  positionSide : Option PositionSide
  deriving DecidableEq, Repr

structure ReconciliationResult where
  status : ReconciliationStatus
  mismatches : List MismatchRecord
  ordersReconciled : ℕ
  positionsReconciled : ℕ
  balancesChecked : ℕ
  autoResolved : ℕ
  operatorEscalated : ℕ
  durationMs : ℤ
  completedAt : Timestamp

structure ExchangeOrderInfo (F : Type) where
  orderId : OrderId
  clientOrderId : OrderId
  symbol : Symbol
  side : Side
  positionSide : PositionSide
  tradeSide : TradeSide
  orderType : CommonTypes.OrderType
  price : F
  originalQuantity : F
  filledQuantity : F
  status : String
  createdAt : Timestamp

structure ExchangePositionInfo (F : Type) where
  symbol : Symbol
  available : F
  frozen : F
  totalValueUsd : F
  deriving DecidableEq

structure ExchangeOpenPositionInfo (F : Type) where
  symbol : Symbol
  side : Side
  positionSide : PositionSide
  size : F
  entryPrice : F
  currentPrice : F
  notionalUsd : F
  unrealizedPnl : F

structure ReconciliationConfig (F : Type) where
  autoResolveStateMismatches : Bool
  autoCancelOrphanOrders : Bool
  autoCloseOrphanPositions : Bool
  positionTolerancePct : F
  balanceTolerancePct : F
  maxAutoResolutionsPerRun : ℤ

end TB.ReconciliationTypes
