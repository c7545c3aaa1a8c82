import Mathlib.Data.Rat.Init
import Mathlib.Algebra.Order.Field.Rat
import TomorrowBot.KeyedSums

/-!
# Domain types and the arithmetic of `double`

Prices, quantities and cash are `double` in the source. The model is written
over any type with the operations and comparisons the source applies to a
`double`; no law of arithmetic is assumed there. Exact arithmetic is the
instance at the rationals.
-/

set_option autoImplicit false

namespace TB.CommonTypes

/-- The operations the source applies to a `double`. A comparison with a
value that is not a number may be false both ways. -/
class DoubleArith (F : Type) extends Add F, Sub F, Mul F, Div F, Neg F, Zero F,
    LT F, LE F, OfScientific F where
  decLt : ∀ a b : F, Decidable (a < b)
  decLe : ∀ a b : F, Decidable (a ≤ b)
  isfinite : F → Bool

attribute [reducible] DoubleArith.decLt DoubleArith.decLe
attribute [instance] DoubleArith.decLt DoubleArith.decLe

export DoubleArith (isfinite)

instance : DoubleArith ℚ where
  decLt := inferInstance
  decLe := inferInstance
  isfinite _ := true

section Arithmetic
variable {F : Type} [DoubleArith F]

def stdMin (a b : F) : F := if b < a then b else a

def stdMax (a b : F) : F := if a < b then b else a

def stdClamp (v lo hi : F) : F := if v < lo then lo else if hi < v then hi else v

def stdAbs (a : F) : F := if a < 0 then -a else a

end Arithmetic

theorem isfinite_rat (q : ℚ) : isfinite q = true := rfl

theorem stdMin_rat (a b : ℚ) : stdMin a b = min a b := by
  unfold stdMin
  split_ifs with h
  · exact (min_eq_right (le_of_lt h)).symm
  · exact (min_eq_left (not_lt.mp h)).symm

theorem stdMax_rat (a b : ℚ) : stdMax a b = max a b := by
  unfold stdMax
  split_ifs with h
  · exact (max_eq_right (le_of_lt h)).symm
  · exact (max_eq_left (not_lt.mp h)).symm

theorem stdAbs_rat (a : ℚ) : stdAbs a = |a| := by
  unfold stdAbs
  split_ifs with h
  · exact (abs_of_neg h).symm
  · exact (abs_of_nonneg (not_lt.mp h)).symm

abbrev Symbol := String
abbrev OrderId := String
abbrev StrategyId := String
abbrev CorrelationId := String
abbrev Timestamp := ℤ

abbrev Dict (V : Type) := Keyed.Map String V

inductive Side where
  | buy
  | sell
  deriving DecidableEq, Repr

inductive PositionSide where
  | long
  | short
  deriving DecidableEq, Repr

inductive TradeSide where
  | opening
  | closing
  deriving DecidableEq, Repr

inductive OrderType where
  | limit
  | market
  | postOnly
  | stopMarket
  | stopLimit
  deriving DecidableEq, Repr

inductive TimeInForce where
  | goodTillCancel
  | immediateOrCancel
  | fillOrKill
  | goodTillDate

inductive UncertaintyLevel where
  | low
  | moderate
  | high
  | extreme
  deriving DecidableEq, Repr

inductive TbError where
  | riskDenied
  | executionFailed
  | idempotencyDuplicate
  | noActionRequired
  | walWriteFailed
  | persistenceError
  deriving DecidableEq, Repr

structure Clock where
  now : Timestamp
  wall : Timestamp
  steady : ℤ

section Constants
variable {F : Type} [DoubleArith F]

def kPercentScaler : F := 100.0
def kDefaultTakerFeePct : F := 0.0006
def kDefaultMakerFeePct : F := 0.0002
def kMinValidPrice : F := 1e-10

end Constants

end TB.CommonTypes
