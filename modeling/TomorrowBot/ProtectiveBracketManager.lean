import TomorrowBot.PortfolioEngine

/-!
# Brackets around positions

A bracket remembers the plan orders on the exchange that take the profit or
stop the loss of one leg. Releasing it cancels these orders. The answers of the
exchange are arguments; the requests sent to it are part of the result.
-/

set_option autoImplicit false

namespace TB.ProtectiveBracketManager
open TB.CommonTypes TB.PortfolioEngine

inductive BracketSource where
  | none
  | presetAttached
  | standalonePlan
  deriving DecidableEq, Repr

structure BracketState (F : Type) where
  symbol : Symbol
  positionSide : PositionSide
  positionSize : F
  entryPrice : F
  tpPrice : F
  slPrice : F
  tpOrderId : OrderId
  slOrderId : OrderId
  tpSource : BracketSource
  slSource : BracketSource
  tpPlanType : String
  slPlanType : String
  openedAtNs : ℤ
  lastVerifiedAtNs : ℤ
  verifyAttempts : ℤ
  verified : Bool
  released : Bool
  consecutiveFallbackFailures : ℤ
  throttleUntilNs : ℤ
  deriving DecidableEq

inductive PlanOrderKind where
  | unknown
  | profitPlan
  | lossPlan
  | normalPlan
  | posTpsl
  deriving DecidableEq, Repr

structure PlanOrderInfo (F : Type) where
  orderId : OrderId
  clientOrderId : OrderId
  symbol : Symbol
  positionSide : PositionSide
  kind : PlanOrderKind
  triggerPrice : F
  executePrice : F
  size : F
  triggerType : String
  planType : String
  createdAtMs : ℤ
  deriving DecidableEq

structure PlanCancel where
  orderId : OrderId
  symbol : Symbol
  planType : String
  deriving DecidableEq, Repr

structure PlanExchange (F : Type) where
  getOpenPlanOrders : Symbol → Option (List (PlanOrderInfo F))
  cancelPlanOrder : PlanCancel → Bool

section Release
variable {F : Type}

def sideText : PositionSide → String
  | .long => "long"
  | .short => "short"

def makeKey (symbol : Symbol) (ps : PositionSide) : String := symbol ++ ":" ++ sideText ps

def planTypeOrNormal (planType : String) : String :=
  if planType = "" then "normal_plan" else planType

def isPresetOf (symbol : Symbol) (ps : PositionSide) (p : PlanOrderInfo F) : Bool :=
  p.symbol == symbol && p.positionSide == ps &&
    (p.kind == .posTpsl || p.kind == .profitPlan || p.kind == .lossPlan)

def presetCancels (ex : PlanExchange F) (symbol : Symbol) (ps : PositionSide)
    (b : BracketState F) : List PlanCancel :=
  if b.tpOrderId = "" ∧ b.slOrderId = "" then
    match ex.getOpenPlanOrders symbol with
    | none => []
    | some plans =>
      (plans.filter (isPresetOf symbol ps)).map
        (fun p => ⟨p.orderId, symbol, planTypeOrNormal p.planType⟩)
  else []

def cancelPlan (symbol : Symbol) (orderId : OrderId) (planType : String) : List PlanCancel :=
  if orderId = "" then [] else [⟨orderId, symbol, planTypeOrNormal planType⟩]

def releaseCancels (ex : PlanExchange F) (symbol : Symbol) (ps : PositionSide)
    (b : BracketState F) : List PlanCancel :=
  presetCancels ex symbol ps b ++ cancelPlan symbol b.tpOrderId b.tpPlanType ++
    cancelPlan symbol b.slOrderId b.slPlanType

structure Released (F : Type) where
  brackets : Dict (BracketState F)
  cancels : List PlanCancel
  anyCancelled : Bool

def release (ex : PlanExchange F) (brackets : Dict (BracketState F)) (symbol : Symbol)
    (ps : PositionSide) : Released F :=
  match brackets.lookup (makeKey symbol ps) with
  | none => ⟨brackets, [], false⟩
  | some b =>
    if b.released then ⟨brackets, [], true⟩
    else
      let cancels := releaseCancels ex symbol ps b
      ⟨brackets.erase (makeKey symbol ps), cancels, cancels.any ex.cancelPlanOrder⟩

theorem makeKey_eq (symbol : Symbol) (ps : PositionSide) :
    makeKey symbol ps = makePosKey symbol ps := by
  cases ps <;> simp [makeKey, makePosKey, sideText, String.append_assoc]

theorem makeKey_injective (s s' : Symbol) (ps ps' : PositionSide)
    (h : makeKey s ps = makeKey s' ps') : s = s' ∧ ps = ps' := by
  rw [makeKey_eq, makeKey_eq] at h
  exact makePosKey_injective s s' ps ps' h

def releasable (brackets : Dict (BracketState F)) (symbol : Symbol) (ps : PositionSide) : Bool :=
  (brackets.lookup (makeKey symbol ps)).any (fun b => !b.released)

theorem release_lookup (ex : PlanExchange F) (brackets : Dict (BracketState F))
    (symbol : Symbol) (ps : PositionSide) :
    (release ex brackets symbol ps).brackets.lookup (makeKey symbol ps) =
      if releasable brackets symbol ps then none else brackets.lookup (makeKey symbol ps) := by
  unfold release releasable
  rcases h : brackets.lookup (makeKey symbol ps) with _ | b
  · simp [h]
  · rcases hr : b.released with _ | _
    · simp [hr, AList.lookup_erase]
    · simp [hr, h]

theorem release_lookup_ne (ex : PlanExchange F) (brackets : Dict (BracketState F))
    (symbol : Symbol) (ps : PositionSide) (key : String) (h : key ≠ makeKey symbol ps) :
    (release ex brackets symbol ps).brackets.lookup key = brackets.lookup key := by
  unfold release
  rcases brackets.lookup (makeKey symbol ps) with _ | b
  · rfl
  · dsimp only
    split_ifs
    · rfl
    · exact AList.lookup_erase_ne h

end Release

end TB.ProtectiveBracketManager
