import TomorrowBot.FillProcessor

/-!
# Cancelling orders

A cancel moves the order to a pending state, asks the exchange, and either
confirms the cancel and releases the margin, or leaves the order to the next
reconciliation. The answers of the exchange are a function of the order id.
-/

set_option autoImplicit false

namespace TB.CancelManager
open TB.CommonTypes TB.PortfolioEngine TB.OrderTypes TB.Orders TB.FillProcessor

variable {F : Type} [DoubleArith F]

def releasePortfolio (c : ExecutionCore F) (orderId : OrderId) : ExecutionCore F :=
  { c with portfolio := releaseCash c.portfolio orderId }

def releaseCashIfNeeded (c : ExecutionCore F) (order : OrderRecord F) : ExecutionCore F :=
  if requiresMarginReserve order then releasePortfolio c order.orderId else c

def doCancel (c : ExecutionCore F) (confirmed : Bool) (orderId : OrderId) :
    ExecutionCore F × Bool :=
  match getOrder c.registry orderId with
  | none => (c, false)
  | some order =>
    match transition c.registry c.clock orderId .cancelPending "Cancel requested" with
    | (_, false) => (c, false)
    | (pending, true) =>
      if confirmed then
        (releaseCashIfNeeded
          (setRegistry c (transition pending c.clock orderId .cancelled "Cancel confirmed").1)
          order, true)
      else
        (setRegistry c (forceTransition pending c.clock orderId .unknownRecovery
          "Cancel rejected — awaiting reconciliation"), false)

def cancelEach (answers : OrderId → Bool) :
    List OrderId → ExecutionCore F → ExecutionCore F × List OrderId
  | [], c => (c, [])
  | id::ids, c =>
    let done := doCancel c (answers id) id
    let rest := cancelEach answers ids done.1
    (rest.1, if done.2 then id::rest.2 else rest.2)

def cancelOrder (c : ExecutionCore F) (answers : OrderId → Bool) (orderId : OrderId) :
    ExecutionCore F × Except TbError Unit :=
  let done := doCancel c (answers orderId) orderId
  (done.1, if done.2 then .ok () else .error .executionFailed)

def cancelAllForSymbol (c : ExecutionCore F) (answers : OrderId → Bool) (symbol : Symbol) :
    ExecutionCore F × List OrderId :=
  cancelEach answers
    (((ordersForSymbol c.registry symbol).filter (fun o => isActive o.state)).map
      (fun o => o.orderId)) c

def cancelAll (c : ExecutionCore F) (answers : OrderId → Bool) :
    ExecutionCore F × List OrderId :=
  cancelEach answers ((activeOrders c.registry).map (fun o => o.orderId)) c

def cancelTimedOut (answers : OrderId → Bool) :
    List OrderId → ExecutionCore F → ExecutionCore F × List OrderId
  | [], c => (c, [])
  | id::ids, c =>
    match getOrder c.registry id with
    | none => cancelTimedOut answers ids c
    | some order =>
      if isTerminal order.state then cancelTimedOut answers ids c
      else
        let done := doCancel c (answers id) id
        let rest := cancelTimedOut answers ids done.1
        (rest.1, if done.2 then id::rest.2 else rest.2)

def cancelTimedOutOrders (c : ExecutionCore F) (answers : OrderId → Bool)
    (maxOpenDurationMs : ℤ) : ExecutionCore F × List OrderId :=
  cancelTimedOut answers (getTimedOutOrders c.registry c.clock maxOpenDurationMs) c

def cancelRemaining (c : ExecutionCore F) (answers : OrderId → Bool) (orderId : OrderId) :
    ExecutionCore F × Bool :=
  match getOrder c.registry orderId with
  | none => (c, false)
  | some _ => doCancel c (answers orderId) orderId

end TB.CancelManager
