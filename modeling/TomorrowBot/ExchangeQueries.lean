import TomorrowBot.BitgetNormalizer
import TomorrowBot.OrderSubmitter

/-!
# What the exchange is asked for at a reconciliation

Open orders, plan orders and positions are read from the answers to signed
requests. A field that is missing or cannot be read as a number counts as
zero, and positions without a size or a mark price are left out. The two
requests for plan orders are read apart, and one that fails adds nothing.
-/

set_option autoImplicit false

namespace TB.ExchangeQueries
open TB.CommonTypes TB.DoubleValues TB.OrderSubmitter TB.RestClient JsonText
open TB.BitgetNormalizer (fromChars toInt64 digitsValue)

inductive QueryError where
  | exchangeConnectionFailed
  | reconciliationFailed
  deriving DecidableEq

abbrev Object := Members Double

structure QueryAdapter where
  nearest : ℚ → Option ℚ
  futuresConfig : FuturesConfig
  retryMax : ℤ
  arrivals : String → String → ℕ → Except String (HttpAnswer Double)

def restGet (q : QueryAdapter) (path query : String) : RestResponse Double :=
  (execute (fun (_ : Unit) i => ((), executeOnce (q.arrivals path query i))) q.retryMax ()).2

def jsonStr (obj : Object) (key : String) : String :=
  match find obj key with
  | some (.string s) => s
  | _ => ""

def jsonDbl (nearest : ℚ → Option ℚ) (obj : Object) (key : String) : Double :=
  match find obj key with
  | some (.double x) => x
  | some (.int n) => if Signed n then .finite n else 0.0
  | some (.string s) => (fromChars nearest s.toList).getD 0.0
  | _ => 0.0

structure ExchangeOrderInfo where
  orderId : OrderId
  clientOrderId : OrderId
  symbol : Symbol
  side : Side
  positionSide : PositionSide
  tradeSide : TradeSide
  orderType : CommonTypes.OrderType
  price : Double
  originalQuantity : Double
  filledQuantity : Double
  status : String
  createdAt : Timestamp

def parseOrder (nearest : ℚ → Option ℚ) (obj : Object) : ExchangeOrderInfo where
  orderId := jsonStr obj "orderId"
  clientOrderId := jsonStr obj "clientOid"
  symbol := jsonStr obj "symbol"
  side := if jsonStr obj "side" = "sell" then .sell else .buy
  positionSide := if jsonStr obj "posSide" = "short" then .short else .long
  tradeSide := if jsonStr obj "tradeSide" = "close" then .closing else .opening
  orderType := if jsonStr obj "orderType" = "market" then .market else .limit
  price := jsonDbl nearest obj "price"
  originalQuantity := jsonDbl nearest obj "size"
  filledQuantity := jsonDbl nearest obj "baseVolume"
  status := jsonStr obj "status"
  createdAt := toInt64 (jsonStr obj "cTime") * 1000000

structure FuturesPositionInfo where
  symbol : Symbol
  positionSide : PositionSide
  total : Double
  entryPrice : Double
  markPrice : Double
  unrealizedPnl : Double

def parseFuturesPosition (nearest : ℚ → Option ℚ) (obj : Object) : FuturesPositionInfo where
  symbol := jsonStr obj "symbol"
  positionSide := if jsonStr obj "holdSide" = "short" then .short else .long
  total := jsonDbl nearest obj "total"
  entryPrice := jsonDbl nearest obj "openPriceAvg"
  markPrice := jsonDbl nearest obj "markPrice"
  unrealizedPnl := jsonDbl nearest obj "unrealizedPL"

structure ExchangeOpenPositionInfo where
  symbol : Symbol
  side : Side
  positionSide : PositionSide
  size : Double
  entryPrice : Double
  currentPrice : Double
  notionalUsd : Double
  unrealizedPnl : Double

inductive PlanOrderKind where
  | unknown
  | profitPlan
  | lossPlan
  | normalPlan
  | posTpsl

structure PlanOrderInfo where
  orderId : OrderId
  clientOrderId : OrderId
  symbol : Symbol
  positionSide : PositionSide
  kind : PlanOrderKind
  triggerPrice : Double
  executePrice : Double
  size : Double
  triggerType : String
  planType : String
  createdAtMs : ℤ

def planPositionSide (obj : Object) : PositionSide :=
  if jsonStr obj "posSide" = "short" then .short
  else if jsonStr obj "posSide" = "long" then .long
  else if jsonStr obj "side" = "sell" then .short
  else .long

def planOrderKind (planType : String) : PlanOrderKind :=
  if planType = "profit_plan" then .profitPlan
  else if planType = "loss_plan" then .lossPlan
  else if planType = "pos_profit" ∨ planType = "pos_loss" then .posTpsl
  else if planType = "normal_plan" then .normalPlan
  else .unknown

def stoll (s : String) : ℤ :=
  let rest := s.toList.dropWhile Char.isWhitespace
  let negative := rest.head? = some '-'
  let digits := (if negative ∨ rest.head? = some '+' then rest.tail else rest).takeWhile Char.isDigit
  let value : ℤ := if negative then -(digitsValue digits : ℤ) else digitsValue digits
  if digits ≠ [] ∧ -2 ^ 63 ≤ value ∧ value < 2 ^ 63 then value else 0

def parsePlanOrder (nearest : ℚ → Option ℚ) (obj : Object) : PlanOrderInfo where
  orderId := jsonStr obj "orderId"
  clientOrderId := jsonStr obj "clientOid"
  symbol := jsonStr obj "symbol"
  positionSide := planPositionSide obj
  kind := planOrderKind (jsonStr obj "planType")
  triggerPrice := jsonDbl nearest obj "triggerPrice"
  executePrice := jsonDbl nearest obj "executePrice"
  size := jsonDbl nearest obj "size"
  triggerType := jsonStr obj "triggerType"
  planType := jsonStr obj "planType"
  createdAtMs := stoll (jsonStr obj "cTime")

def orThrow {α : Type} (x : Option α) : Except QueryError α :=
  x.elim (.error .reconciliationFailed) .ok

def answerData (r : RestResponse Double) : Except QueryError (Value Double) := do
  if r.success = false then .error .exchangeConnectionFailed
  else
    let root ← orThrow (r.body.bind Value.asObject)
    if jsonStr root "code" ≠ "00000" then .error .exchangeConnectionFailed
    else orThrow (find root "data")

def entries (items : List (Value Double)) : Option (List Object) := items.mapM Value.asObject

def ordersQuery (q : QueryAdapter) (symbol : Symbol) : String :=
  "productType=" ++ q.futuresConfig.productType ++
    if symbol = "" then "" else "&symbol=" ++ symbol

def ordersAnswer (q : QueryAdapter) (symbol : Symbol) : RestResponse Double :=
  restGet q "/api/v2/mix/order/orders-pending" (ordersQuery q symbol)

def getOpenOrders (q : QueryAdapter) (symbol : Symbol) :
    Except QueryError (List ExchangeOrderInfo) := do
  let data ← answerData (ordersAnswer q symbol)
  let obj ← orThrow data.asObject
  match (find obj "entrustedList").bind Value.asArray with
  | none => .ok []
  | some items =>
    let orders ← orThrow (entries items)
    .ok (orders.map (parseOrder q.nearest))

def positionsAnswer (q : QueryAdapter) (symbol : Symbol) : RestResponse Double :=
  if symbol = "" then
    restGet q "/api/v2/mix/position/all-position"
      ("productType=" ++ q.futuresConfig.productType ++
        "&marginCoin=" ++ q.futuresConfig.marginCoin)
  else
    restGet q "/api/v2/mix/position/single-position"
      ("symbol=" ++ symbol ++ "&productType=" ++ q.futuresConfig.productType ++
        "&marginCoin=" ++ q.futuresConfig.marginCoin)

def getPositions (q : QueryAdapter) (symbol : Symbol) :
    Except QueryError (List FuturesPositionInfo) := do
  let data ← answerData (positionsAnswer q symbol)
  let items ← orThrow data.asArray
  let positions ← orThrow (entries items)
  .ok ((positions.map (parseFuturesPosition q.nearest)).filter (fun pos => 0.0 < pos.total))

def openPosition (pos : FuturesPositionInfo) : ExchangeOpenPositionInfo where
  symbol := pos.symbol
  side := if pos.positionSide = .short then .sell else .buy
  positionSide := pos.positionSide
  size := pos.total
  entryPrice := pos.entryPrice
  currentPrice := pos.markPrice
  notionalUsd := pos.markPrice * pos.total
  unrealizedPnl := pos.unrealizedPnl

/-- A position without a mark price has no notional value and is left out. -/
def getOpenPositions (q : QueryAdapter) (symbol : Symbol) :
    Except QueryError (List ExchangeOpenPositionInfo) := do
  let positions ← getPositions q symbol
  .ok ((positions.filter (fun pos => ¬(pos.markPrice ≤ 0.0 ∨ pos.total ≤ 0.0))).map openPosition)

def plansAnswer (q : QueryAdapter) (symbol : Symbol) (planType : String) : RestResponse Double :=
  restGet q "/api/v2/mix/order/orders-plan-pending"
    ("productType=" ++ q.futuresConfig.productType ++ "&planType=" ++ planType ++
      if symbol = "" then "" else "&symbol=" ++ symbol)

def planItems : Value Double → Option (List (Value Double))
  | .object data =>
    ((find data "entrustedList").bind Value.asArray).or ((find data "list").bind Value.asArray)
  | .array items => some items
  | _ => none

def fetchPlans (q : QueryAdapter) (symbol : Symbol) (planType : String) : List PlanOrderInfo :=
  match answerData (plansAnswer q symbol planType) with
  | .error _ => []
  | .ok data =>
    (((planItems data).getD []).filterMap Value.asObject).map (parsePlanOrder q.nearest)

def getOpenPlanOrders (q : QueryAdapter) (symbol : Symbol) :
    Except QueryError (List PlanOrderInfo) :=
  .ok (fetchPlans q symbol "normal_plan" ++ fetchPlans q symbol "profit_loss")

end TB.ExchangeQueries
