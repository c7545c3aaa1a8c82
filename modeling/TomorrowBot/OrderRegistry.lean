import TomorrowBot.OrderTypes
import Mathlib.Data.Finset.Basic

/-!
# The order registry

The only store of orders, of their state machines and of the marks that make
fills and intents idempotent. An order's state is kept twice, in its record
and in its state machine. The source iterates its hash maps in an unspecified
order; here the order is that of the entries.
-/

set_option autoImplicit false

namespace TB.Orders
open TB.CommonTypes TB.OrderTypes

structure OrderRegistry (F : Type) where
  orders : Dict (OrderRecord F)
  fsms : Dict OrderFsm
  fillApplied : Finset OrderId
  seenTradeIds : Finset String
  seenTradeIdFifo : List String
  recentIntents : Dict Timestamp
  exchangeIdIndex : Dict OrderId

def kMaxSeenTradeIds : ℕ := 200000

variable {F : Type}

def emptyRegistry : OrderRegistry F := ⟨∅, ∅, ∅, ∅, [], ∅, ∅⟩

def indexExchangeId (index : Dict OrderId) (order : OrderRecord F) : Dict OrderId :=
  if order.exchangeOrderId ≠ "" then index.insert order.exchangeOrderId order.orderId else index

def registerOrder (r : OrderRegistry F) (clock : Clock) (order : OrderRecord F) :
    OrderRegistry F :=
  { r with
    fsms := if order.orderId ∈ r.fsms then r.fsms
      else r.fsms.insert order.orderId (OrderFsm.create clock)
    exchangeIdIndex := indexExchangeId r.exchangeIdIndex order
    orders := if order.orderId ∈ r.orders then r.orders
      else r.orders.insert order.orderId order }

def getOrder (r : OrderRegistry F) (orderId : OrderId) : Option (OrderRecord F) :=
  r.orders.lookup orderId

def getOrderByExchangeId (r : OrderRegistry F) (exchangeId : OrderId) :
    Option (OrderRecord F) :=
  (r.exchangeIdIndex.lookup exchangeId).bind (fun id => r.orders.lookup id)

/-- The whole record is replaced, its state included; the state machine is not
consulted. -/
def updateOrder (r : OrderRegistry F) (order : OrderRecord F) : OrderRegistry F :=
  if order.orderId ∈ r.orders then
    { r with
      exchangeIdIndex := indexExchangeId r.exchangeIdIndex order
      orders := r.orders.insert order.orderId order }
  else r

def activeOrders (r : OrderRegistry F) : List (OrderRecord F) :=
  (r.orders.entries.map Sigma.snd).filter (fun o => isActive o.state)

def ordersForSymbol (r : OrderRegistry F) (symbol : Symbol) : List (OrderRecord F) :=
  (r.orders.entries.map Sigma.snd).filter (fun o => o.symbol == symbol)

def setState (clock : Clock) (state : OrderState) (order : OrderRecord F) : OrderRecord F :=
  { order with state := state, lastUpdated := clock.now }

def transition (r : OrderRegistry F) (clock : Clock) (orderId : OrderId) (newState : OrderState)
    (reason : String) : OrderRegistry F × Bool :=
  match r.fsms.lookup orderId with
  | none => (r, false)
  | some fsm =>
    match OrderFsm.transition fsm clock newState reason with
    | none => (r, false)
    | some fsm' =>
      ({ r with
        fsms := r.fsms.insert orderId fsm'
        orders := Keyed.modify r.orders orderId (setState clock newState) }, true)

def forceTransition (r : OrderRegistry F) (clock : Clock) (orderId : OrderId)
    (newState : OrderState) (reason : String) : OrderRegistry F :=
  match r.fsms.lookup orderId with
  | none => r
  | some fsm =>
    { r with
      fsms := r.fsms.insert orderId (OrderFsm.forceTransition fsm clock newState reason)
      orders := Keyed.modify r.orders orderId (setState clock newState)
      fillApplied := r.fillApplied.erase orderId }

def fsmState (r : OrderRegistry F) (orderId : OrderId) : Option OrderState :=
  (r.fsms.lookup orderId).map (fun fsm => fsm.state)

def timeInStateMs (r : OrderRegistry F) (clock : Clock) (orderId : OrderId) : Option ℤ :=
  (r.fsms.lookup orderId).map (fun fsm => OrderFsm.timeInCurrentStateMs fsm clock)

def isFillApplied (r : OrderRegistry F) (orderId : OrderId) : Bool :=
  decide (orderId ∈ r.fillApplied)

def markFillApplied (r : OrderRegistry F) (orderId : OrderId) : OrderRegistry F :=
  { r with fillApplied := insert orderId r.fillApplied }

def trimSeenTradeIds (seen : Finset String) : List String → Finset String × List String
  | [] => (seen, [])
  | id::rest =>
    if kMaxSeenTradeIds < rest.length + 1 then trimSeenTradeIds (seen.erase id) rest
    else (seen, id::rest)

def checkAndMarkTradeIdSeen (r : OrderRegistry F) (tradeId : String) : OrderRegistry F × Bool :=
  if tradeId ∈ r.seenTradeIds then (r, true)
  else
    let trimmed := trimSeenTradeIds (insert tradeId r.seenTradeIds)
      (r.seenTradeIdFifo ++ [tradeId])
    ({ r with seenTradeIds := trimmed.1, seenTradeIdFifo := trimmed.2 }, false)

def isDuplicateIntent (r : OrderRegistry F) (dedupKey : String) : Bool :=
  decide (dedupKey ∈ r.recentIntents)

def recordIntent (r : OrderRegistry F) (clock : Clock) (dedupKey : String) : OrderRegistry F :=
  { r with recentIntents := r.recentIntents.insert dedupKey clock.now }

def cleanupOldIntents (r : OrderRegistry F) (clock : Clock) (dedupWindowMs : ℤ) :
    OrderRegistry F :=
  { r with
    recentIntents := r.recentIntents.entries.foldl
      (fun m e => if dedupWindowMs * 1000000 < clock.now - e.2 then m.erase e.1 else m)
      r.recentIntents }

def dropOrder (r : OrderRegistry F) (id : OrderId) (order : OrderRecord F) : OrderRegistry F :=
  { r with
    exchangeIdIndex := if order.exchangeOrderId ≠ ""
      then r.exchangeIdIndex.erase order.exchangeOrderId else r.exchangeIdIndex
    fsms := r.fsms.erase id
    fillApplied := r.fillApplied.erase id
    orders := r.orders.erase id }

def cleanupTerminalOrders (r : OrderRegistry F) (clock : Clock) (maxAgeNs : ℤ) :
    OrderRegistry F :=
  r.orders.entries.foldl
    (fun r e =>
      if isTerminal e.2.state ∧ maxAgeNs < clock.now - e.2.lastUpdated then dropOrder r e.1 e.2
      else r) r

def getTimedOutOrders (r : OrderRegistry F) (clock : Clock) (maxOpenDurationMs : ℤ) :
    List OrderId :=
  (r.fsms.entries.filter (fun e => isActive e.2.state &&
    decide (maxOpenDurationMs < OrderFsm.timeInCurrentStateMs e.2 clock))).map Sigma.fst

end TB.Orders
