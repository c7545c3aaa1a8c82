import TomorrowBot.CancelManager
import TomorrowBot.RecoveryManager
import TomorrowBot.ExecutionPlanner

/-!
# The execution engine

The engine turns intents into orders and feeds the exchange's events to the
fill processor. A market order gives up the engine's lock while it waits for
its confirmation, so its execution is two operations: the submission and the
confirmation. The answers of the exchange are arguments of the operations. A
confirmation that never comes is a query that threw.
-/

set_option autoImplicit false

namespace TB.ExecutionEngine
open TB.CommonTypes TB.PortfolioEngine TB.OrderTypes TB.Orders TB.FillProcessor
open TB.CancelManager TB.RecoveryManager TB.ExecutionPlanner

structure AwaitingFill (F : Type) where
  order : OrderRecord F
  marketFillPrice : F
  submittedQuantity : F

structure Engine (F : Type) where
  core : ExecutionCore F
  config : ExecutionConfig F
  leverage : F
  defaultFillPolicy : PartialFillPolicy
  sessionPrefix : String
  nextSeq : ℕ
  awaiting : List (AwaitingFill F)

inductive SubmitAnswer (F : Type) where
  | threw
  | returned (result : OrderSubmitResult F) (clock : Clock)

inductive ExecuteOutcome where
  | refused (error : TbError)
  | submitThrew (orderId : OrderId)
  | submitFailed (orderId : OrderId)
  | submitted (orderId : OrderId)
  deriving DecidableEq, Repr

def reachedSubmit : ExecuteOutcome → Bool
  | .refused _ => false
  | .submitThrew _ | .submitFailed _ | .submitted _ => true

variable {F : Type} [DoubleArith F]

def initEngine (portfolio : Portfolio F) (clock : Clock) (config : ExecutionConfig F)
    (sessionPrefix : String) : Engine F where
  core := ⟨emptyRegistry, portfolio, clock, []⟩
  config := config
  leverage := 1.0
  defaultFillPolicy := .waitForFull
  sessionPrefix := sessionPrefix
  nextSeq := 1
  awaiting := []

def setCore (e : Engine F) (c : ExecutionCore F) : Engine F := { e with core := c }

def clientOrderId (sessionPrefix : String) (seq : ℕ) : OrderId :=
  "TB" ++ sessionPrefix ++ "-" ++ toString seq

def validateInputs (risk : RiskDecision F) (alpha : ExecutionAlphaResult F)
    (uncertainty : UncertaintyLevel) : Except TbError Unit :=
  if risk.verdict = .denied ∨ risk.verdict = .throttled then .error .riskDenied
  else if alpha.shouldExecute = false ∨ alpha.recommendedStyle = .noExecution then
    .error .executionFailed
  else if uncertainty = .extreme then .error .executionFailed
  else .ok ()

def intentDedupKey (intent : TradeIntent F) : String :=
  intent.correlationId ++ ":" ++ intent.symbol

def marketContext (intent : TradeIntent F) (alpha : ExecutionAlphaResult F) :
    MarketExecutionContext F where
  bestBid := match intent.snapshotMidPrice with
    | some mid => mid * 0.9999
    | none => 0
  bestAsk := match intent.snapshotMidPrice with
    | some mid => mid * 1.0001
    | none => 0
  spreadBps := if 0 < alpha.spreadCostBps then alpha.spreadCostBps
    else if intent.snapshotMidPrice.isSome then 2.0 else 0
  isStale := false

def attachedPrice (price : Option F) : F :=
  match price with
  | some p => if 0 < p ∧ isfinite p = true then p else 0
  | none => 0

def attachedBracket (intent : TradeIntent F) : AttachedTpSl F :=
  match intent.tradeSide with
  | .opening => ⟨attachedPrice intent.takeProfitPrice, attachedPrice intent.stopLossPrice,
      .markPrice⟩
  | .closing => ⟨0, 0, .markPrice⟩

def createOrderRecord (e : Engine F) (intent : TradeIntent F) (risk : RiskDecision F)
    (plan : ExecutionPlan F) : OrderRecord F where
  orderId := clientOrderId e.sessionPrefix e.nextSeq
  exchangeOrderId := ""
  symbol := intent.symbol
  side := intent.side
  positionSide := intent.positionSide
  tradeSide := intent.tradeSide
  orderType := plan.orderType
  tif := plan.tif
  price := plan.plannedPrice
  originalQuantity := risk.approvedQuantity
  filledQuantity := 0
  remainingQuantity := risk.approvedQuantity
  avgFillPrice := 0
  state := .new
  strategyId := intent.strategyId
  correlationId := intent.correlationId
  createdAt := e.core.clock.now
  lastUpdated := e.core.clock.now
  rejectionReason := ""
  executionInfo :=
    { fills := []
      fillPolicy := e.defaultFillPolicy
      clientOrderId := clientOrderId e.sessionPrefix e.nextSeq
      firstFillLatencyMs := 0
      expectedFillPrice := plan.plannedPrice
      realizedSlippage := 0 }
  attachedTpSl := attachedBracket intent

/-- The margin of an opening order is reserved, with its size cut to the
available cash when the full size does not fit. The remaining quantity of the
record keeps the size asked for. -/
def tryReserveMargin (e : Engine F) (order : OrderRecord F) :
    Portfolio F × OrderRecord F × Bool :=
  let p := e.core.portfolio
  let price := if 0 < order.price then order.price else 0
  let notional := order.originalQuantity * price
  if requiresMarginReserve order = false then (p, order, true)
  else if notional ≤ 0 then (p, order, true)
  else if notional < e.config.minNotionalUsdt then (p, order, false)
  else
    match reserveCash p e.core.clock.now order.orderId order.symbol order.side
      (notional / e.leverage) (notional * kDefaultTakerFeePct) order.strategyId with
    | (reserved, true) => (reserved, order, true)
    | (_, false) =>
      let available := p.cashLedger.availableCash
      let maxNotional := available * e.leverage * 0.95
      if available ≤ 0 ∨ price ≤ 0 then (p, order, false)
      else if maxNotional < e.config.minNotionalUsdt then (p, order, false)
      else
        let newQty := maxNotional / price
        let newNotional := newQty * price
        let smaller := { order with originalQuantity := newQty }
        let again := reserveCash p e.core.clock.now order.orderId order.symbol order.side
          (newNotional / e.leverage) (newNotional * kDefaultTakerFeePct) order.strategyId
        (again.1, smaller, again.2)

def rejectOrder (c : ExecutionCore F) (order : OrderRecord F) (why reason : String) :
    ExecutionCore F :=
  setRegistry c (updateOrder (transition c.registry c.clock order.orderId .rejected why).1
    { order with state := .rejected, rejectionReason := reason })

def closePhantom (p : Portfolio F) (order : OrderRecord F) (errorMessage : String) :
    Portfolio F :=
  if order.tradeSide = .closing ∧ "22002".toList <:+: errorMessage.toList then
    match getPositionSide p order.symbol order.positionSide with
    | none => p
    | some pos =>
      if 0 < pos.size then
        let mark := if 0 < order.price then order.price else pos.avgEntryPrice
        closePositionSide p order.symbol order.positionSide
          (match order.positionSide with
            | .long => (mark - pos.avgEntryPrice) * pos.size
            | .short => (pos.avgEntryPrice - mark) * pos.size)
      else p
  else p

def releaseGuard (c : ExecutionCore F) (order : OrderRecord F) : ExecutionCore F :=
  if requiresMarginReserve order then releasePortfolio c order.orderId else c

def submitOrder (e : Engine F) (order : OrderRecord F) (dedupKey : String)
    (answer : SubmitAnswer F) : Engine F × ExecuteOutcome :=
  let sent := setRegistry e.core (updateOrder e.core.registry order)
  match answer with
  | .threw => (setCore e (releaseGuard sent order), .submitThrew order.orderId)
  | .returned result clock =>
    let back := { sent with clock := clock }
    if result.success = false then
      let rejected := rejectOrder back order result.errorMessage result.errorMessage
      let synced := { rejected with
        portfolio := closePhantom rejected.portfolio order result.errorMessage }
      (setCore e (releaseGuard synced order), .submitFailed order.orderId)
    else
      let accepted := { order with exchangeOrderId := result.exchangeOrderId }
      let recorded := setRegistry back
        (recordIntent (updateOrder back.registry accepted) clock dedupKey)
      ({ e with
          core := recorded
          awaiting := if order.orderType = .market
            then e.awaiting ++ [⟨accepted, order.price, result.submittedQuantity⟩]
            else e.awaiting }, .submitted order.orderId)

def placeOrder (e : Engine F) (order : OrderRecord F) (dedupKey : String)
    (answer : SubmitAnswer F) : Engine F × ExecuteOutcome :=
  let registered := registerOrder e.core.registry e.core.clock order
  match transition registered e.core.clock order.orderId .pendingAck "Submitting to exchange" with
  | (_, false) => (setCore e (setRegistry e.core registered), .refused .executionFailed)
  | (r, true) =>
    let pending := { order with state := .pendingAck }
    let c := setRegistry e.core r
    if pending.orderType = .market ∧ pending.price ≤ 0 then
      (setCore e (rejectOrder c pending "Fill price = 0" ""), .refused .executionFailed)
    else if pending.originalQuantity ≤ 0 then
      (setCore e (rejectOrder c pending "Zero quantity" "Zero quantity after sizing"),
        .refused .executionFailed)
    else
      match tryReserveMargin (setCore e c) pending with
      | (p, sized, false) =>
        (setCore e (rejectOrder { c with portfolio := p } sized "Insufficient cash"
          "Insufficient cash for reserve"), .refused .executionFailed)
      | (p, sized, true) =>
        submitOrder (setCore e { c with portfolio := p }) sized dedupKey answer

def execute (e : Engine F) (intent : TradeIntent F) (risk : RiskDecision F)
    (alpha : ExecutionAlphaResult F) (uncertainty : UncertaintyLevel) (answer : SubmitAnswer F) :
    Engine F × ExecuteOutcome :=
  match validateInputs risk alpha uncertainty with
  | .error err => (e, .refused err)
  | .ok () =>
    let dedupKey := intentDedupKey intent
    let cleaned := setCore e (setRegistry e.core
      (cleanupOldIntents e.core.registry e.core.clock e.config.dedupWindowMs))
    if isDuplicateIntent cleaned.core.registry dedupKey then
      (cleaned, .refused .idempotencyDuplicate)
    else
      let planned := plan e.config intent risk alpha (marketContext intent alpha)
      if planned.action = .noAction then (cleaned, .refused .noActionRequired)
      else
        placeOrder { cleaned with nextSeq := e.nextSeq + 1 }
          (createOrderRecord e intent risk planned) dedupKey answer

structure FillAnswer (F : Type) where
  detail : OrderFillDetail F
  retried : Bool

/-- The confirmation of a market order. Without any successful answer the order
is left in the book for the next reconciliation. The two query loops treat an
unreadable quantity differently: only the retry releases the margin. -/
def confirmFill (c : ExecutionCore F) (a : AwaitingFill F) (answer : FillAnswer F) :
    ExecutionCore F :=
  let order := a.order
  let detail := answer.detail
  let move := fun (target : OrderState) (reason : String) =>
    setRegistry c (transition c.registry c.clock order.orderId target reason).1
  if detail.success = false then move .opened "Fill confirmation failed — awaiting reconciliation"
  else if isfinite detail.filledQty = false then
    if answer.retried then
      releaseGuard (move .unknownRecovery "NaN filled_qty from exchange on retry") order
    else move .unknownRecovery "NaN filled_qty from exchange"
  else if detail.filledQty ≤ 0 then
    releaseGuard (move .cancelled
      ((if answer.retried then "Exchange reported no fill on retry: "
        else "Exchange reported no fill: ") ++ detail.status)) order
  else
    let sentQty := if 0 < a.submittedQuantity then a.submittedQuantity else order.originalQuantity
    (processMarketFill c order.orderId
      (if 0 < detail.filledQty then detail.filledQty else sentQty)
      (if 0 < detail.fillPrice then detail.fillPrice else a.marketFillPrice)
      order.exchangeOrderId).1

def awaits (orderId : OrderId) (a : AwaitingFill F) : Bool := a.order.orderId == orderId

def confirm (e : Engine F) (orderId : OrderId) (answer : FillAnswer F) : Engine F :=
  match e.awaiting.find? (awaits orderId) with
  | none => e
  | some a =>
    { e with
      core := confirmFill e.core a answer
      awaiting := e.awaiting.eraseP (awaits orderId) }

def endsUnfilled : OrderState → Bool
  | .cancelled | .rejected | .expired => true
  | _ => false

def releaseUnfilled (c : ExecutionCore F) (effectiveId : OrderId) (order : OrderRecord F)
    (newState : OrderState) : ExecutionCore F :=
  if endsUnfilled newState = true ∧ requiresMarginReserve order = true then
    releasePortfolio c effectiveId
  else c

def enforceCancelRemaining (c : ExecutionCore F) (answers : OrderId → Bool) (orderId : OrderId) :
    ExecutionCore F :=
  match checkCancelRemaining c.registry orderId with
  | none => c
  | some id => (cancelRemaining c answers id).1

def onOrderUpdate (c : ExecutionCore F) (orderId : OrderId) (newState : OrderState)
    (filledQty fillPrice : F) (answers : OrderId → Bool) : ExecutionCore F :=
  match resolveOrder c.registry orderId with
  | none => c
  | some (effectiveId, order) =>
    match transition c.registry c.clock effectiveId newState "Exchange update" with
    | (_, false) => c
    | (r, true) =>
      let released := releaseUnfilled (setRegistry c r) effectiveId order newState
      if 0 < filledQty then
        enforceCancelRemaining (processOrderFill released effectiveId filledQty fillPrice).1
          answers orderId
      else released

def onFillEvent (c : ExecutionCore F) (fill : FillEvent F) (answers : OrderId → Bool) :
    ExecutionCore F :=
  let processed := (processFillEvent c fill).1
  match resolveOrder processed.registry fill.orderId with
  | none => processed
  | some (effectiveId, _) => enforceCancelRemaining processed answers effectiveId

inductive EngineOp (F : Type) where
  | execute (intent : TradeIntent F) (risk : RiskDecision F) (alpha : ExecutionAlphaResult F)
      (uncertainty : UncertaintyLevel) (answer : SubmitAnswer F)
  | confirm (orderId : OrderId) (answer : FillAnswer F)
  | onOrderUpdate (orderId : OrderId) (newState : OrderState) (filledQty fillPrice : F)
      (answers : OrderId → Bool)
  | onFillEvent (fill : FillEvent F) (answers : OrderId → Bool)
  | cancel (orderId : OrderId) (answers : OrderId → Bool)
  | cancelAllForSymbol (symbol : Symbol) (answers : OrderId → Bool)
  | cancelAll (answers : OrderId → Bool)
  | cancelTimedOutOrders (maxOpenDurationMs : ℤ) (answers : OrderId → Bool)
  | cleanupTerminalOrders (maxAgeNs : ℤ)
  | runReconciliation (answers : RecoveryAnswers F)
  | isDuplicate (intent : TradeIntent F)
  | setLeverage (leverage : F)
  | setMinNotionalUsdt (minUsdt : F)
  | setDefaultFillPolicy (policy : PartialFillPolicy)
  | advanceClock (clock : Clock)

def isDuplicate (e : Engine F) (intent : TradeIntent F) : Engine F × Bool :=
  let cleaned := cleanupOldIntents e.core.registry e.core.clock e.config.dedupWindowMs
  (setCore e (setRegistry e.core cleaned), isDuplicateIntent cleaned (intentDedupKey intent))

def engineStep (e : Engine F) : EngineOp F → Engine F
  | .execute intent risk alpha uncertainty answer =>
      (execute e intent risk alpha uncertainty answer).1
  | .confirm orderId answer => confirm e orderId answer
  | .onOrderUpdate orderId newState filledQty fillPrice answers =>
      setCore e (onOrderUpdate e.core orderId newState filledQty fillPrice answers)
  | .onFillEvent fill answers => setCore e (onFillEvent e.core fill answers)
  | .cancel orderId answers => setCore e (cancelOrder e.core answers orderId).1
  | .cancelAllForSymbol symbol answers =>
      setCore e (cancelAllForSymbol e.core answers symbol).1
  | .cancelAll answers => setCore e (cancelAll e.core answers).1
  | .cancelTimedOutOrders maxMs answers =>
      setCore e (cancelTimedOutOrders e.core answers maxMs).1
  | .cleanupTerminalOrders maxAge =>
      setCore e (setRegistry e.core
        (cleanupTerminalOrders e.core.registry e.core.clock maxAge))
  | .runReconciliation answers =>
      setCore e (runReconciliation e.core answers e.config.cancelConfirmationTimeoutMs).1
  | .isDuplicate intent => (isDuplicate e intent).1
  | .setLeverage leverage => { e with leverage := stdMax leverage 1.0 }
  | .setMinNotionalUsdt minUsdt =>
      { e with config := { e.config with
          minNotionalUsdt := if 0 < minUsdt then minUsdt else e.config.minNotionalUsdt } }
  | .setDefaultFillPolicy policy => { e with defaultFillPolicy := policy }
  | .advanceClock clock => setCore e { e.core with clock := clock }

end TB.ExecutionEngine
