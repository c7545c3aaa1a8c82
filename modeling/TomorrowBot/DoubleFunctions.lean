import TomorrowBot.CommonTypes
import Mathlib.Data.Rat.Floor

/-!
# Conversions and functions of a `double`

The rounding functions and the conversions from and to `int`, which exact
arithmetic has on the rational numbers, and the functions that it has on the
real numbers only.
-/

set_option autoImplicit false

namespace TB.CommonTypes

class DoubleRounding (F : Type) extends DoubleArith F where
  ofInt : ℤ → F
  floor : F → ℤ
  ceil : F → ℤ

export DoubleRounding (ofInt)

class DoubleExp (F : Type) extends DoubleRounding F where
  exp : F → F
  log : F → F
  tanh : F → F

class DoubleSqrt (F : Type) extends DoubleExp F where
  sqrt : F → F

instance : DoubleRounding ℚ where
  ofInt n := n
  floor := Int.floor
  ceil := Int.ceil

section Rounding
variable {F : Type} [DoubleRounding F]

def stdFloor (x : F) : F := ofInt (DoubleRounding.floor x)

def stdCeil (x : F) : F := ofInt (DoubleRounding.ceil x)

def stdRound (x : F) : F :=
  if x < 0.0 then ofInt (-DoubleRounding.floor (-x + 0.5))
  else ofInt (DoubleRounding.floor (x + 0.5))

def toInt (x : F) : ℤ := if x < 0.0 then DoubleRounding.ceil x else DoubleRounding.floor x

def maxDouble : F := ofInt ((2 ^ 53 - 1) * 2 ^ 971)

end Rounding

end TB.CommonTypes
