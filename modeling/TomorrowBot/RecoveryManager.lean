import TomorrowBot.FillProcessor

/-!
# Reconciliation with the exchange

Orders whose fate is uncertain are marked, the exchange is asked about each
marked order, and what it confirms is forced on the registry. Cancels that
stay pending for too long are forced as well. The portfolio is not touched.
-/

set_option autoImplicit false

namespace TB.RecoveryManager
open TB.CommonTypes TB.OrderTypes TB.Orders TB.FillProcessor

structure RecoveryAnswers (F : Type) where
  fillDetail : OrderId → OrderFillDetail F
  cancelConfirmed : OrderId → Bool

structure ReconciliationResult where
  success : Bool
  ordersRecovered : ℕ
  ordersForceCancelled : ℕ
  anomalies : List (OrderId × OrderState)

variable {F : Type} [DoubleArith F]

def snapshot (r : OrderRegistry F) : List (OrderRecord F) := r.orders.entries.map Sigma.snd

def forceEach (clock : Clock) (target : OrderState) (reason : String) :
    List (OrderRecord F) → OrderRegistry F → OrderRegistry F
  | [], r => r
  | order::rest, r =>
    forceEach clock target reason rest (forceTransition r clock order.orderId target reason)

def isUncertain (order : OrderRecord F) : Bool :=
  order.state == .pendingAck || order.state == .opened

def markUncertainOrders (r : OrderRegistry F) (clock : Clock) : OrderRegistry F :=
  forceEach clock .unknownRecovery "Recovery: uncertain order detected"
    ((activeOrders r).filter isUncertain) r

def recoveredQuantity (order : OrderRecord F) (detail : OrderFillDetail F) : F :=
  stdClamp detail.filledQty 0 order.originalQuantity

def recoveredRecord (current : OrderRecord F) (now : Timestamp) (qty price : F) :
    OrderRecord F :=
  { current with
    avgFillPrice := if 0 < price then price else current.avgFillPrice
    filledQuantity := qty
    remainingQuantity := stdMax 0 (current.originalQuantity - qty)
    lastUpdated := now }

def recoverFilled (r : OrderRegistry F) (clock : Clock) (order : OrderRecord F) (qty price : F)
    (cancelConfirmed : Bool) : OrderRegistry F :=
  let forced := forceTransition r clock order.orderId (fillTarget order qty)
    "Recovery: confirmed fill by exchange"
  let updated := match getOrder forced order.orderId with
    | none => forced
    | some current => updateOrder forced (recoveredRecord current clock.now qty price)
  if isFullFill order qty then updated
  else if cancelConfirmed then
    forceTransition updated clock order.orderId .cancelled
      "Recovery: partial fill confirmed, remainder cancelled"
  else updated

def recoverOrder (r : OrderRegistry F) (clock : Clock) (answers : RecoveryAnswers F)
    (order : OrderRecord F) : OrderRegistry F :=
  let detail := answers.fillDetail order.orderId
  if detail.success = true ∧ 0 < detail.filledQty then
    recoverFilled r clock order (recoveredQuantity order detail) detail.fillPrice
      (answers.cancelConfirmed order.orderId)
  else if answers.cancelConfirmed order.orderId then
    forceTransition r clock order.orderId .cancelled "Recovery: confirmed cancelled on exchange"
  else r

def recoverEach (clock : Clock) (answers : RecoveryAnswers F) :
    List (OrderRecord F) → OrderRegistry F → OrderRegistry F
  | [], r => r
  | order::rest, r => recoverEach clock answers rest (recoverOrder r clock answers order)

def unknownOrders (r : OrderRegistry F) : List (OrderRecord F) :=
  (snapshot r).filter (fun o => o.state == .unknownRecovery)

def recoverUnknownOrders (r : OrderRegistry F) (clock : Clock) (answers : RecoveryAnswers F) :
    OrderRegistry F :=
  recoverEach clock answers (unknownOrders r) r

def staleOrders (r : OrderRegistry F) (clock : Clock) (state : OrderState) (maxMs : ℤ) :
    List (OrderRecord F) :=
  (snapshot r).filter (fun o => o.state == state &&
    (timeInStateMs r clock o.orderId).any (fun t => decide (maxMs < t)))

def forceResolveStaleCancels (r : OrderRegistry F) (clock : Clock) (maxStaleMs : ℤ) :
    OrderRegistry F × ℕ :=
  let stale := staleOrders r clock .cancelPending maxStaleMs
  (forceEach clock .cancelled "Recovery: stale CancelPending → force cancel" stale r,
    stale.length)

def heldIn (r : OrderRegistry F) (p : OrderState → Bool) (orders : List (OrderRecord F)) :
    List (OrderId × OrderState) :=
  orders.filterMap (fun o => ((getOrder r o.orderId).filter (fun after => p after.state)).map
    (fun after => (o.orderId, after.state)))

def runReconciliation (c : ExecutionCore F) (answers : RecoveryAnswers F)
    (cancelConfirmationTimeoutMs : ℤ) : ExecutionCore F × ReconciliationResult :=
  let marked := markUncertainOrders c.registry c.clock
  let before := unknownOrders marked
  let recovered := recoverUnknownOrders marked c.clock answers
  let stale := forceResolveStaleCancels recovered c.clock (cancelConfirmationTimeoutMs * 3)
  let anomalies := heldIn recovered (fun s => s != .filled && s != .cancelled) before
  (setRegistry c stale.1,
    { success := anomalies.isEmpty
      ordersRecovered := (heldIn recovered (fun s => s == .filled) before).length
      ordersForceCancelled :=
        (heldIn recovered (fun s => s == .cancelled) before).length + stale.2
      anomalies := anomalies })

end TB.RecoveryManager
