import Mathlib.Tactic.NormNum
import TomorrowBot.CommonTypes

/-!
# The special values of a `double`

Where infinities and values that are not a number matter, exact arithmetic is
extended by them. A comparison with a value that is not a number is false.
Rounding, overflow and the sign of zero are not modelled.
-/

set_option autoImplicit false

namespace TB.DoubleValues
open TB.CommonTypes

inductive Double where
  | nan
  | negInf
  | finite (q : ℚ)
  | posInf
  deriving DecidableEq

namespace Double

def isNumber : Double → Bool
  | nan => false
  | _ => true

def le : Double → Double → Bool
  | nan, _ => false
  | _, nan => false
  | negInf, _ => true
  | _, negInf => false
  | _, posInf => true
  | posInf, _ => false
  | finite a, finite b => decide (a ≤ b)

def neg : Double → Double
  | nan => nan
  | negInf => posInf
  | finite q => finite (-q)
  | posInf => negInf

def add : Double → Double → Double
  | nan, _ => nan
  | _, nan => nan
  | finite a, finite b => finite (a + b)
  | finite _, b => b
  | a, finite _ => a
  | posInf, posInf => posInf
  | negInf, negInf => negInf
  | _, _ => nan

def infSigned (q : ℚ) : Double := if 0 < q then posInf else if q < 0 then negInf else nan

def mul : Double → Double → Double
  | nan, _ => nan
  | _, nan => nan
  | finite a, finite b => finite (a * b)
  | finite a, posInf => infSigned a
  | posInf, finite b => infSigned b
  | finite a, negInf => infSigned (-a)
  | negInf, finite b => infSigned (-b)
  | posInf, posInf => posInf
  | negInf, negInf => posInf
  | _, _ => negInf

def inv : Double → Double
  | nan => nan
  | negInf => finite 0
  | posInf => finite 0
  | finite q => if q = 0 then posInf else finite q⁻¹

def isFinite : Double → Bool
  | finite _ => true
  | _ => false

instance : LE Double := ⟨fun a b => le a b = true⟩

instance : LT Double := ⟨fun a b => le a b = true ∧ le b a = false⟩

instance : DoubleArith Double where
  add := add
  sub a b := add a (neg b)
  mul := mul
  div a b := mul a (inv b)
  neg := neg
  zero := finite 0
  ofScientific m s e := finite (OfScientific.ofScientific m s e)
  decLt a b := inferInstanceAs (Decidable (le a b = true ∧ le b a = false))
  decLe a b := inferInstanceAs (Decidable (le a b = true))
  isfinite := isFinite

attribute [local simp] le isNumber

theorem le_iff (a b : Double) : a ≤ b ↔ le a b = true := Iff.rfl

theorem lt_iff (a b : Double) : a < b ↔ a ≤ b ∧ ¬ b ≤ a := by
  rw [le_iff, le_iff, Bool.not_eq_true]
  rfl

theorem le_self_iff (a : Double) : a ≤ a ↔ isNumber a = true := by
  rw [le_iff]
  cases a <;> simp

theorem le_trans {a b c : Double} (h : a ≤ b) (k : b ≤ c) : a ≤ c := by
  rw [le_iff] at *
  cases a <;> cases b <;> cases c <;> simp at *
  exact Rat.le_trans h k

theorem le_antisymm {a b : Double} (h : a ≤ b) (k : b ≤ a) : a = b := by
  rw [le_iff] at *
  cases a <;> cases b <;> simp at *
  exact Rat.le_antisymm h k

theorem le_total {a b : Double} (ha : isNumber a = true) (hb : isNumber b = true) :
    a ≤ b ∨ b ≤ a := by
  rw [le_iff, le_iff]
  cases a <;> cases b <;> simp at *
  exact Rat.le_total

theorem number_of_le {a b : Double} (h : a ≤ b) : isNumber a = true ∧ isNumber b = true := by
  rw [le_iff] at h
  cases a <;> cases b <;> simp at *

theorem lt_of_not_le {a b : Double} (ha : isNumber a = true) (hb : isNumber b = true)
    (h : ¬ b ≤ a) : a < b :=
  (lt_iff a b).mpr ⟨(le_total ha hb).resolve_right h, h⟩

theorem lt_irrefl (a : Double) : ¬ a < a := by
  intro h
  exact ((lt_iff a a).mp h).2 ((lt_iff a a).mp h).1

theorem lt_trans {a b c : Double} (h : a < b) (k : b < c) : a < c := by
  rw [lt_iff] at *
  exact ⟨le_trans h.1 k.1, fun hc => k.2 (le_trans hc h.1)⟩

theorem number_of_lt {a b : Double} (h : a < b) : isNumber a = true ∧ isNumber b = true :=
  number_of_le ((lt_iff a b).mp h).1

theorem lt_of_le_of_lt {a b c : Double} (h : a ≤ b) (k : b < c) : a < c := by
  rw [lt_iff] at *
  exact ⟨le_trans h k.1, fun hc => k.2 (le_trans hc h)⟩

theorem lit_zero : (0.0 : Double) = finite 0 := by
  show finite _ = finite 0
  norm_num

theorem lit_one : (1.0 : Double) = finite 1 := by
  show finite _ = finite 1
  norm_num

variable (a b : ℚ)

theorem finite_add : finite a + finite b = finite (a + b) := rfl

theorem finite_mul : finite a * finite b = finite (a * b) := rfl

theorem finite_sub : finite a - finite b = finite (a - b) := by
  rw [sub_eq_add_neg]
  rfl

theorem finite_div (h : b ≠ 0) : finite a / finite b = finite (a / b) := by
  show mul (finite a) (inv (finite b)) = _
  rw [inv, if_neg h, div_eq_mul_inv]
  rfl

theorem finite_lt : finite a < finite b ↔ a < b := by
  rw [lt_iff, le_iff, le_iff]
  simp only [le, decide_eq_true_eq]
  exact ⟨fun h => lt_of_not_ge h.2, fun h => ⟨h.le, not_le.mpr h⟩⟩

theorem stdMin_finite : stdMin (finite a) (finite b) = finite (min a b) := by
  unfold stdMin
  simp only [finite_lt]
  split_ifs with h
  · rw [min_eq_right h.le]
  · rw [min_eq_left (not_lt.mp h)]

theorem stdMax_finite : stdMax (finite a) (finite b) = finite (max a b) := by
  unfold stdMax
  simp only [finite_lt]
  split_ifs with h
  · rw [max_eq_right h.le]
  · rw [max_eq_left (not_lt.mp h)]

theorem finite_le : finite a ≤ finite b ↔ a ≤ b := by
  rw [le_iff]
  simp only [le, decide_eq_true_eq]

theorem isfinite_iff (x : Double) : isfinite x = true ↔ ∃ q, x = finite q := by
  cases x <;> simp [isfinite, isFinite]

end Double

end TB.DoubleValues
