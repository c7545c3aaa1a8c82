import TomorrowBot.CommonTypes

/-!
# Orders, their states and the transitions between them

The order record, the fill events and the answers of the exchange, with the
fields the execution layer reads or writes. The state machine keeps its own
copy of the state and the history of its transitions.
-/

set_option autoImplicit false

namespace TB.OrderTypes
open TB.CommonTypes

inductive OrderState where
  | new
  | pendingAck
  | opened
  | partiallyFilled
  | filled
  | cancelPending
  | cancelled
  | rejected
  | expired
  | unknownRecovery
  deriving DecidableEq, Repr

inductive PartialFillPolicy where
  | waitForFull
  | cancelRemaining
  | allowPartial
  deriving DecidableEq, Repr

structure FillEvent (F : Type) where
  orderId : OrderId
  fillQuantity : F
  fillPrice : F
  tradeId : String
  occurredAt : Timestamp

structure OrderExecutionInfo (F : Type) where
  fills : List (FillEvent F)
  fillPolicy : PartialFillPolicy
  clientOrderId : String
  firstFillLatencyMs : ℤ
  expectedFillPrice : F
  realizedSlippage : F

inductive TriggerType where
  | fillPrice
  | markPrice

structure AttachedTpSl (F : Type) where
  stopSurplusPrice : F
  stopLossPrice : F
  triggerType : TriggerType

structure OrderRecord (F : Type) where
  orderId : OrderId
  exchangeOrderId : OrderId
  symbol : Symbol
  side : Side
  positionSide : PositionSide
  tradeSide : TradeSide
  orderType : CommonTypes.OrderType
  tif : TimeInForce
  price : F
  originalQuantity : F
  filledQuantity : F
  remainingQuantity : F
  avgFillPrice : F
  state : OrderState
  strategyId : StrategyId
  correlationId : CorrelationId
  createdAt : Timestamp
  lastUpdated : Timestamp
  rejectionReason : String
  executionInfo : OrderExecutionInfo F
  attachedTpSl : AttachedTpSl F

structure OrderTransition where
  source : OrderState
  target : OrderState
  reason : String
  occurredAt : Timestamp

structure OrderSubmitResult (F : Type) where
  success : Bool
  exchangeOrderId : OrderId
  errorMessage : String
  submittedQuantity : F

structure OrderFillDetail (F : Type) where
  success : Bool
  fillPrice : F
  filledQty : F
  status : String

def isTerminal : OrderState → Bool
  | .filled | .cancelled | .rejected | .expired => true
  | _ => false

def isActive : OrderState → Bool
  | .opened | .partiallyFilled | .pendingAck | .cancelPending => true
  | _ => false

def isValidTransition (source target : OrderState) : Bool :=
  match source with
  | .filled | .cancelled | .rejected | .expired => false
  | .new => target == .pendingAck
  | .pendingAck =>
      target == .opened || target == .rejected || target == .filled ||
        target == .partiallyFilled || target == .cancelPending || target == .cancelled ||
        target == .unknownRecovery
  | .opened =>
      target == .partiallyFilled || target == .filled || target == .cancelPending ||
        target == .cancelled || target == .expired || target == .unknownRecovery
  | .partiallyFilled =>
      target == .filled || target == .cancelPending || target == .cancelled ||
        target == .expired || target == .unknownRecovery
  | .cancelPending =>
      target == .cancelled || target == .filled || target == .partiallyFilled ||
        target == .unknownRecovery
  | .unknownRecovery => true

def requiresMarginReserve {F : Type} (order : OrderRecord F) : Bool :=
  order.tradeSide != .closing

theorem terminal_refuses (source target : OrderState) (h : isTerminal source = true) :
    isValidTransition source target = false := by
  cases source <;> first | rfl | cases h

structure OrderFsm where
  state : OrderState
  history : List OrderTransition
  lastTransitionTp : ℤ

namespace OrderFsm

def create (clock : Clock) : OrderFsm := ⟨.new, [], clock.steady⟩

def record (fsm : OrderFsm) (clock : Clock) (target : OrderState) (reason : String) :
    OrderFsm where
  state := target
  history := fsm.history ++ [⟨fsm.state, target, reason, clock.wall⟩]
  lastTransitionTp := clock.steady

def transition (fsm : OrderFsm) (clock : Clock) (target : OrderState) (reason : String) :
    Option OrderFsm :=
  if isValidTransition fsm.state target then some (record fsm clock target reason) else none

def forceTransition (fsm : OrderFsm) (clock : Clock) (target : OrderState) (reason : String) :
    OrderFsm :=
  record fsm clock target ("[FORCED] " ++ reason)

def timeInCurrentStateMs (fsm : OrderFsm) (clock : Clock) : ℤ :=
  (clock.steady - fsm.lastTransitionTp).tdiv 1000000

end OrderFsm

end TB.OrderTypes
