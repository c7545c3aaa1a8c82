import TomorrowBot.BracketVerification
import TomorrowBot.DoubleFunctions
import TomorrowBot.RestClient

/-!
# Submission of futures orders

The request that an order becomes, and what its answer is taken for. Prices
and quantities stand in the request as the numbers that are printed there;
printing and reading them back does not change them.
-/

set_option autoImplicit false

namespace TB.OrderSubmitter
open TB.CommonTypes TB.OrderTypes TB.ProtectiveBracketManager TB.RestClient JsonText

variable {F : Type} [DoubleRounding F]

structure FuturesConfig where
  productType : String := "USDT-FUTURES"
  marginCoin : String := "USDT"
  marginMode : String := "isolated"

structure ExchangeSymbolRules (F : Type) where
  quantityPrecision : ℤ
  pricePrecision : ℤ
  minQuantity : F
  maxQuantity : F

def kMaxPrecisionDigits : ℤ := 18

def powerOfTen : ℕ → F
  | 0 => 1.0
  | n+1 => powerOfTen n * 10.0

def scale (precision : ℤ) : F := powerOfTen (max 0 (min precision kMaxPrecisionDigits)).toNat

def floorQuantity (rules : ExchangeSymbolRules F) (qty : F) : F :=
  if qty ≤ 0.0 then 0.0
  else stdFloor (qty * scale rules.quantityPrecision) / scale rules.quantityPrecision

def roundPrice (rules : ExchangeSymbolRules F) (price : F) : F :=
  if price ≤ 0.0 then 0.0
  else stdRound (price * scale rules.pricePrecision) / scale rules.pricePrecision

def isQuantityValid (rules : ExchangeSymbolRules F) (qty : F) : Bool :=
  if qty ≤ 0.0 then false
  else if 0.0 < rules.minQuantity ∧ qty < rules.minQuantity then false
  else if 0.0 < rules.maxQuantity ∧ rules.maxQuantity < qty then false
  else true

structure PlaceOrderRequest (F : Type) where
  symbol : Symbol
  productType : String
  marginMode : String
  marginCoin : String
  clientOid : String
  side : String
  tradeSide : String
  orderType : String
  force : Option String
  size : F
  price : Option F
  presetStopSurplus : Option (F × String)
  presetStopLoss : Option (F × String)
  stpMode : String

structure PlacePlanRequest (F : Type) where
  symbol : Symbol
  productType : String
  marginMode : String
  marginCoin : String
  clientOid : String
  side : String
  tradeSide : String
  triggerPrice : F
  triggerType : String
  size : F
  orderType : String
  executePrice : Option F
  planType : String

def apiSide : PositionSide → String
  | .long => "buy"
  | .short => "sell"

def apiTradeSide : TradeSide → String
  | .opening => "open"
  | .closing => "close"

def apiTriggerType : TriggerType → String
  | .markPrice => "mark_price"
  | .fillPrice => "fill_price"

def limitForce : TimeInForce → String
  | .goodTillCancel => "gtc"
  | .immediateOrCancel => "ioc"
  | .fillOrKill => "fok"
  | .goodTillDate => "gtc"

def placeType (order : OrderRecord F) : Option (String × Option String) :=
  match order.orderType with
  | .market => some ("market", none)
  | .postOnly => some ("limit", some "post_only")
  | .limit => some ("limit", some (limitForce order.tif))
  | .stopMarket => none
  | .stopLimit => none

def presetTrigger (rules : ExchangeSymbolRules F) (kind : TriggerType) (price : F) :
    Option (F × String) :=
  if 0.0 < price then some (roundPrice rules price, apiTriggerType kind) else none

def buildPlaceOrderJson (config : FuturesConfig) (rules : ExchangeSymbolRules F)
    (order : OrderRecord F) : Option (PlaceOrderRequest F) := do
  let kind ← placeType order
  let size := floorQuantity rules order.originalQuantity
  if isQuantityValid rules size = false then none
  else if order.orderType ≠ .market ∧ order.price ≤ 0.0 then none
  else
    some
      { symbol := order.symbol
        productType := config.productType
        marginMode := config.marginMode
        marginCoin := config.marginCoin
        clientOid := order.executionInfo.clientOrderId
        side := apiSide order.positionSide
        tradeSide := apiTradeSide order.tradeSide
        orderType := kind.1
        force := kind.2
        size := size
        price := if order.orderType = .market then none else some (roundPrice rules order.price)
        presetStopSurplus := presetTrigger rules order.attachedTpSl.triggerType
          order.attachedTpSl.stopSurplusPrice
        presetStopLoss := presetTrigger rules order.attachedTpSl.triggerType
          order.attachedTpSl.stopLossPrice
        stpMode := "cancel_taker" }

def planExecutePrice (order : PlanOrder F) : Option F :=
  let given := order.planParams.executePrice
  let price := if given ≤ 0.0 ∧ 0.0 < order.record.price then order.record.price else given
  if price ≤ 0.0 then none
  else if order.record.side = .sell ∧ order.planParams.triggerPrice < price then none
  else if order.record.side = .buy ∧ price < order.planParams.triggerPrice then none
  else some price

def planType (order : PlanOrder F) : Option (String × Option F) :=
  match order.record.orderType with
  | .stopMarket => some ("market", none)
  | .stopLimit => (planExecutePrice order).map (fun price => ("limit", some price))
  | _ => none

def buildPlanOrderJson (config : FuturesConfig) (rules : ExchangeSymbolRules F)
    (order : PlanOrder F) : Option (PlacePlanRequest F) :=
  let size := floorQuantity rules order.record.originalQuantity
  if order.planParams.triggerPrice ≤ 0.0 then none
  else if isQuantityValid rules size = false then none
  else
    (planType order).map (fun kind =>
      { symbol := order.record.symbol
        productType := config.productType
        marginMode := config.marginMode
        marginCoin := config.marginCoin
        clientOid := order.record.executionInfo.clientOrderId
        side := apiSide order.record.positionSide
        tradeSide := apiTradeSide order.record.tradeSide
        triggerPrice := roundPrice rules order.planParams.triggerPrice
        triggerType := apiTriggerType order.planParams.triggerType
        size := size
        orderType := kind.1
        executePrice := kind.2.map (roundPrice rules)
        planType := "normal_plan" })

def failed (message : String) (submitted : F) : OrderSubmitResult F where
  success := false
  exchangeOrderId := ""
  errorMessage := message
  submittedQuantity := submitted

def acceptedOrderId (obj : Members F) : Option OrderId := do
  let data ← (find obj "data").bind Value.asObject
  (find data "orderId").bind Value.asString

def answerCode (obj : Members F) : Option (String × String) := do
  let code ← (find obj "code").bind Value.asString
  match find obj "msg" with
  | none => some (code, "")
  | some v => (Value.asString v).map (fun msg => (code, msg))

def readAnswer (response : RestResponse F) (submitted : F) : OrderSubmitResult F :=
  if response.success = false then failed ("HTTP ошибка: " ++ response.errorMessage) submitted
  else
    match response.body.bind Value.asObject with
    | none => failed "Исключение: " submitted
    | some obj =>
      match answerCode obj with
      | none => failed "Исключение: " submitted
      | some (code, msg) =>
        if code = "00000" then
          match acceptedOrderId obj with
          | none => failed "Исключение: " submitted
          | some orderId => { failed "" submitted with success := true, exchangeOrderId := orderId }
        else failed ("Bitget Futures API: [" ++ code ++ "] " ++ msg) submitted

inductive Request (F : Type) where
  | place (request : PlaceOrderRequest F)
  | plan (request : PlacePlanRequest F)

def Request.clientOid : Request F → String
  | .place request => request.clientOid
  | .plan request => request.clientOid

def isStop (order : PlanOrder F) : Bool :=
  order.record.orderType = .stopMarket || order.record.orderType = .stopLimit

def buildRequest (config : FuturesConfig) (rules : ExchangeSymbolRules F) (order : PlanOrder F) :
    Option (Request F) :=
  if isStop order then (buildPlanOrderJson config rules order).map .plan
  else (buildPlaceOrderJson config rules order.record).map .place

def submitOrder {σ : Type} (config : FuturesConfig) (rules : ExchangeSymbolRules F)
    (post : Request F → σ → σ × RestResponse F) (s : σ) (order : PlanOrder F) :
    σ × OrderSubmitResult F :=
  match buildRequest config rules order with
  | none =>
    (s, failed (if isStop order then "Ошибка формирования JSON plan ордера"
      else "Ошибка формирования JSON фьючерсного ордера") 0)
  | some request =>
    let sent := post request s
    (sent.1, readAnswer sent.2 (floorQuantity rules order.record.originalQuantity))

end TB.OrderSubmitter
