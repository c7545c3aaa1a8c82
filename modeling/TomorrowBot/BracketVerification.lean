import TomorrowBot.OrderTypes
import TomorrowBot.ProtectiveBracketManager

/-!
# Registration and verification of brackets

A bracket is registered when its position opens and verified later: its plan
orders are looked up on the exchange, and after enough attempts the missing ones
are placed. Every access to the brackets is a section of its own; the exchange
is called between two sections, with a copy of the bracket.
-/

set_option autoImplicit false

namespace TB.ProtectiveBracketManager
open TB.CommonTypes TB.OrderTypes

structure ProtectiveBracketConfig where
  verifyGraceMs : ℤ
  maxVerifyAttempts : ℤ
  maxConsecutiveFallbackFailures : ℤ
  failedBackoffMs : ℤ

structure PlanOrderParams (F : Type) where
  triggerPrice : F
  triggerType : TriggerType
  executePrice : F

structure PlanOrder (F : Type) where
  record : OrderRecord F
  planParams : PlanOrderParams F

structure BracketExchange (F : Type) extends PlanExchange F where
  submitPlanOrder : PlanOrder F → OrderSubmitResult F

structure StaleOrders where
  tpId : OrderId
  slId : OrderId
  tpPlanType : String
  slPlanType : String

structure FoundOrders where
  tpId : OrderId
  slId : OrderId
  tpPlanType : String
  slPlanType : String
  deriving DecidableEq, Repr

structure NeedFallback where
  sl : Bool
  tp : Bool

structure Placing where
  clientOrderId : OrderId
  builtAt : Timestamp

section Sections
variable {F : Type} [DoubleArith F]

def pricesMatch (a b : F) : Bool :=
  if a ≤ 0.0 ∨ b ≤ 0.0 then false else decide (stdAbs (a - b) / stdMax a b * 100.0 < 1.0)

def usablePrice (price : F) : F :=
  if 0.0 < price ∧ isfinite price = true then price else 0.0

def presetSource (price : F) : BracketSource := if 0.0 < price then .presetAttached else .none

def newBracket (symbol : Symbol) (ps : PositionSide) (entryPrice size tpPrice slPrice : F)
    (now : Timestamp) : BracketState F where
  symbol := symbol
  positionSide := ps
  positionSize := size
  entryPrice := entryPrice
  tpPrice := usablePrice tpPrice
  slPrice := usablePrice slPrice
  tpOrderId := ""
  slOrderId := ""
  tpSource := presetSource (usablePrice tpPrice)
  slSource := presetSource (usablePrice slPrice)
  tpPlanType := "normal_plan"
  slPlanType := "normal_plan"
  openedAtNs := now
  lastVerifiedAtNs := 0
  verifyAttempts := 0
  verified := false
  released := false
  consecutiveFallbackFailures := 0
  throttleUntilNs := 0

omit [DoubleArith F] in
def activeBracket (brackets : Dict (BracketState F)) (key : String) : Option (BracketState F) :=
  (brackets.lookup key).filter (fun b => !b.released)

def staleOrders (brackets : Dict (BracketState F)) (key : String) : StaleOrders :=
  match activeBracket brackets key with
  | some old => ⟨old.tpOrderId, old.slOrderId, old.tpPlanType, old.slPlanType⟩
  | none => ⟨"", "", "", ""⟩

def staleCancels (symbol : Symbol) (stale : StaleOrders) : List PlanCancel :=
  cancelPlan symbol stale.tpId stale.tpPlanType ++ cancelPlan symbol stale.slId stale.slPlanType

structure Registered (F : Type) where
  brackets : Dict (BracketState F)
  cancels : List PlanCancel

def onPositionOpened (symbol : Symbol) (ps : PositionSide)
    (entryPrice size tpPrice slPrice : F) (now : Timestamp) (brackets : Dict (BracketState F)) :
    Registered F :=
  let key := makeKey symbol ps
  ⟨brackets.insert key (newBracket symbol ps entryPrice size tpPrice slPrice now),
    staleCancels symbol (staleOrders brackets key)⟩

omit [DoubleArith F] in
def mayVerify (cfg : ProtectiveBracketConfig) (now : Timestamp) (b : BracketState F) : Bool :=
  !(decide (0 < b.throttleUntilNs) && decide (now < b.throttleUntilNs)) &&
    !(decide (b.verifyAttempts = 0) &&
      decide ((now - b.openedAtNs).tdiv 1000000 < cfg.verifyGraceMs))

def isTpOrder (b : BracketState F) (p : PlanOrderInfo F) : Bool :=
  (p.kind == .profitPlan || p.kind == .posTpsl) && decide (0.0 < b.tpPrice) &&
    pricesMatch p.triggerPrice b.tpPrice

def isSlOrder (b : BracketState F) (p : PlanOrderInfo F) : Bool :=
  (p.kind == .lossPlan || p.kind == .posTpsl) && decide (0.0 < b.slPrice) &&
    pricesMatch p.triggerPrice b.slPrice

omit [DoubleArith F] in
def isLegOrder (symbol : Symbol) (ps : PositionSide) (p : PlanOrderInfo F) : Bool :=
  p.symbol == symbol && p.positionSide == ps

def findStep (symbol : Symbol) (ps : PositionSide) (b : BracketState F) (found : FoundOrders)
    (p : PlanOrderInfo F) : FoundOrders :=
  if !isLegOrder symbol ps p then found
  else
    let found := if isTpOrder b p ∧ found.tpId = "" then
      { found with tpId := p.orderId, tpPlanType := p.planType } else found
    if isSlOrder b p ∧ found.slId = "" then
      { found with slId := p.orderId, slPlanType := p.planType } else found

def findOrders (symbol : Symbol) (ps : PositionSide) (b : BracketState F)
    (plans : List (PlanOrderInfo F)) : FoundOrders :=
  plans.foldl (findStep symbol ps b) ⟨"", "", "", ""⟩

def isZero (x : F) : Bool := decide (x ≤ 0.0) && decide (0.0 ≤ x)

def tpCovered (b : BracketState F) : Bool := isZero b.tpPrice || b.tpOrderId != ""

def slCovered (b : BracketState F) : Bool := isZero b.slPrice || b.slOrderId != ""

omit [DoubleArith F] in
def adoptTp (found : FoundOrders) (b : BracketState F) : BracketState F :=
  if found.tpId ≠ "" ∧ b.tpOrderId = "" then
    { b with
      tpOrderId := found.tpId
      tpSource := .presetAttached
      tpPlanType := if found.tpPlanType = "" then b.tpPlanType else found.tpPlanType }
  else b

omit [DoubleArith F] in
def adoptSl (found : FoundOrders) (b : BracketState F) : BracketState F :=
  if found.slId ≠ "" ∧ b.slOrderId = "" then
    { b with
      slOrderId := found.slId
      slSource := .presetAttached
      slPlanType := if found.slPlanType = "" then b.slPlanType else found.slPlanType }
  else b

def writeBack (now : Timestamp) (found : FoundOrders) (b : BracketState F) : BracketState F :=
  let b := adoptSl found (adoptTp found
    { b with verifyAttempts := b.verifyAttempts + 1, lastVerifiedAtNs := now })
  { b with verified := tpCovered b && slCovered b }

def needFallback (cfg : ProtectiveBracketConfig) (b : BracketState F) : NeedFallback :=
  if !b.verified && decide (cfg.maxVerifyAttempts ≤ b.verifyAttempts) then
    ⟨!slCovered b && decide (0.0 < b.slPrice), !tpCovered b && decide (0.0 < b.tpPrice)⟩
  else ⟨false, false⟩

def standalonePlan (placing : Placing) (b : BracketState F) (triggerPrice : F) : PlanOrder F where
  record := {
    orderId := placing.clientOrderId
    exchangeOrderId := ""
    symbol := b.symbol
    side := if b.positionSide = .long then .sell else .buy
    positionSide := b.positionSide
    tradeSide := .closing
    orderType := .stopMarket
    tif := .immediateOrCancel
    price := 0
    originalQuantity := b.positionSize
    filledQuantity := 0
    remainingQuantity := b.positionSize
    avgFillPrice := 0
    state := .new
    strategyId := ""
    correlationId := ""
    createdAt := placing.builtAt
    lastUpdated := placing.builtAt
    rejectionReason := ""
    executionInfo := ⟨[], .waitForFull, placing.clientOrderId, 0, 0, 0⟩
    attachedTpSl := ⟨0, 0, .markPrice⟩ }
  planParams := ⟨triggerPrice, .markPrice, 0.0⟩

def placeStandalonePlan (ex : BracketExchange F) (placing : Placing) (b : BracketState F)
    (triggerPrice : F) : OrderId :=
  if ¬ 0.0 < triggerPrice ∨ isfinite triggerPrice = false then ""
  else
    let result := ex.submitPlanOrder (standalonePlan placing b triggerPrice)
    if result.success then result.exchangeOrderId else ""

omit [DoubleArith F] in
def recordSl (id : OrderId) (b : BracketState F) : BracketState F :=
  { b with slOrderId := id, slSource := .standalonePlan, slPlanType := "normal_plan" }

omit [DoubleArith F] in
def recordTp (id : OrderId) (b : BracketState F) : BracketState F :=
  { b with tpOrderId := id, tpSource := .standalonePlan, tpPlanType := "normal_plan" }

omit [DoubleArith F] in
def noteFallback (cfg : ProtectiveBracketConfig) (now : Timestamp) (succeeded : Bool)
    (b : BracketState F) : BracketState F :=
  if succeeded then { b with consecutiveFallbackFailures := 0, throttleUntilNs := 0 }
  else
    let failures := b.consecutiveFallbackFailures + 1
    { b with
      consecutiveFallbackFailures := failures
      throttleUntilNs := if cfg.maxConsecutiveFallbackFailures ≤ failures then
        now + cfg.failedBackoffMs * 1000000 else b.throttleUntilNs }

def conclude (b : BracketState F) : BracketState F :=
  { b with verified := tpCovered b && slCovered b }

end Sections

section Verification
variable {F : Type} [DoubleArith F]

structure Placed (F : Type) where
  kind : PlanOrderKind
  order : PlanOrder F
  id : OrderId

structure Verified (F : Type) where
  brackets : Dict (BracketState F)
  result : Bool
  placed : List (Placed F)

structure Placings where
  sl : Placing
  tp : Placing

def fallback (kind : PlanOrderKind) (needed : Bool) (placing : Placing) (ex : BracketExchange F)
    (copy : BracketState F) (price : F) : List (Placed F) :=
  let id := placeStandalonePlan ex placing copy price
  if needed && id != "" then [⟨kind, standalonePlan placing copy price, id⟩] else []

omit [DoubleArith F] in
def recordPlaced (key : String) (brackets : Dict (BracketState F)) (p : Placed F) :
    Dict (BracketState F) :=
  Keyed.modify brackets key (if p.kind = .lossPlan then recordSl p.id else recordTp p.id)

def completeVerification (cfg : ProtectiveBracketConfig) (ex : BracketExchange F)
    (now : Timestamp) (placings : Placings) (key : String) (copy : BracketState F)
    (found : FoundOrders) (brackets : Dict (BracketState F)) : Verified F :=
  match activeBracket brackets key with
  | none => ⟨brackets, false, []⟩
  | some current =>
    let written := writeBack now found current
    let need := needFallback cfg written
    let placed := fallback .lossPlan need.sl placings.sl ex copy copy.slPrice ++
      fallback .profitPlan need.tp placings.tp ex copy copy.tpPrice
    let recorded := placed.foldl (recordPlaced key) (Keyed.modify brackets key (fun _ => written))
    let noted := if need.sl || need.tp then
      Keyed.modify recorded key (noteFallback cfg now (!placed.isEmpty)) else recorded
    let concluded := Keyed.modify noted key conclude
    ⟨concluded, (concluded.lookup key).any (fun b => b.verified), placed⟩

def verifyBrackets (cfg : ProtectiveBracketConfig) (ex : BracketExchange F) (now : Timestamp)
    (placings : Placings) (symbol : Symbol) (ps : PositionSide)
    (brackets : Dict (BracketState F)) : Verified F :=
  let key := makeKey symbol ps
  match activeBracket brackets key with
  | none => ⟨brackets, false, []⟩
  | some copy =>
    if !mayVerify cfg now copy then ⟨brackets, false, []⟩
    else
      match ex.getOpenPlanOrders symbol with
      | none =>
        ⟨Keyed.modify brackets key (fun b => { b with verifyAttempts := b.verifyAttempts + 1 }),
          false, []⟩
      | some plans =>
        completeVerification cfg ex now placings key copy (findOrders symbol ps copy plans) brackets

end Verification

section Recovery
variable {F : Type} [DoubleArith F]

omit [DoubleArith F] in
def isProfitOrder (p : PlanOrderInfo F) : Bool :=
  p.kind == .profitPlan ||
    p.kind == .posTpsl && (p.planType == "pos_profit" || p.planType == "profit_plan")

omit [DoubleArith F] in
def isLossOrder (p : PlanOrderInfo F) : Bool :=
  p.kind == .lossPlan ||
    p.kind == .posTpsl && (p.planType == "pos_loss" || p.planType == "loss_plan")

omit [DoubleArith F] in
def newer (best : Option (PlanOrderInfo F)) (p : PlanOrderInfo F) : Option (PlanOrderInfo F) :=
  match best with
  | none => some p
  | some q => if q.createdAtMs < p.createdAtMs then some p else some q

omit [DoubleArith F] in
def newest (select : PlanOrderInfo F → Bool) (symbol : Symbol) (ps : PositionSide)
    (plans : List (PlanOrderInfo F)) : Option (PlanOrderInfo F) :=
  (plans.filter (fun p => isLegOrder symbol ps p && select p)).foldl newer none

def blankBracket (symbol : Symbol) (ps : PositionSide) (now : Timestamp) : BracketState F where
  symbol := symbol
  positionSide := ps
  positionSize := 0.0
  entryPrice := 0.0
  tpPrice := 0.0
  slPrice := 0.0
  tpOrderId := ""
  slOrderId := ""
  tpSource := .none
  slSource := .none
  tpPlanType := "normal_plan"
  slPlanType := "normal_plan"
  openedAtNs := now
  lastVerifiedAtNs := now
  verifyAttempts := 0
  verified := false
  released := false
  consecutiveFallbackFailures := 0
  throttleUntilNs := 0

omit [DoubleArith F] in
def attachTp (best : Option (PlanOrderInfo F)) (b : BracketState F) : BracketState F :=
  match best with
  | none => b
  | some p => { b with
      tpOrderId := p.orderId
      tpPrice := p.triggerPrice
      tpSource := .presetAttached
      tpPlanType := if p.planType = "" then b.tpPlanType else p.planType }

omit [DoubleArith F] in
def attachSl (best : Option (PlanOrderInfo F)) (b : BracketState F) : BracketState F :=
  match best with
  | none => b
  | some p => { b with
      slOrderId := p.orderId
      slPrice := p.triggerPrice
      slSource := .presetAttached
      slPlanType := if p.planType = "" then b.slPlanType else p.planType }

def recoveredBracket (symbol : Symbol) (ps : PositionSide) (now : Timestamp)
    (plans : List (PlanOrderInfo F)) : BracketState F :=
  attachSl (newest isLossOrder symbol ps plans)
    (attachTp (newest isProfitOrder symbol ps plans) (blankBracket symbol ps now))

def recoverOne (ex : PlanExchange F) (now : Timestamp) (brackets : Dict (BracketState F))
    (position : Symbol × PositionSide) : Dict (BracketState F) :=
  let key := makeKey position.1 position.2
  if (brackets.lookup key).isSome then brackets
  else
    match ex.getOpenPlanOrders position.1 with
    | none => brackets
    | some plans =>
      let b := recoveredBracket position.1 position.2 now plans
      if b.tpOrderId ≠ "" ∨ b.slOrderId ≠ "" then brackets.insert key { b with verified := true }
      else brackets

def recoverFromExchange (ex : PlanExchange F) (now : Timestamp)
    (openPositions : List (Symbol × PositionSide)) (brackets : Dict (BracketState F)) :
    Dict (BracketState F) :=
  openPositions.foldl (recoverOne ex now) brackets

end Recovery

end TB.ProtectiveBracketManager
