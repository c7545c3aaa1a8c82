import TomorrowBot.DoubleFunctions
import TomorrowBot.Interpolation
import Mathlib.Analysis.SpecialFunctions.Artanh

/-!
# Exact arithmetic on the real numbers

The functions of the standard library are the real ones; every value is finite.
-/

set_option autoImplicit false

namespace TB.CommonTypes

noncomputable instance : DoubleArith ℝ where
  decLt := inferInstance
  decLe := inferInstance
  isfinite _ := true

noncomputable instance : DoubleExp ℝ where
  ofInt n := n
  floor := Int.floor
  ceil := Int.ceil
  exp := Real.exp
  log := Real.log
  tanh := Real.tanh

noncomputable instance : DoubleSqrt ℝ where
  sqrt := Real.sqrt

theorem stdMin_real (a b : ℝ) : stdMin a b = min a b := by
  unfold stdMin
  split_ifs with h
  · exact (min_eq_right h.le).symm
  · exact (min_eq_left (not_lt.mp h)).symm

theorem stdMax_real (a b : ℝ) : stdMax a b = max a b := by
  unfold stdMax
  split_ifs with h
  · exact (max_eq_right h.le).symm
  · exact (max_eq_left (not_lt.mp h)).symm

theorem stdClamp_real {lo hi : ℝ} (h : lo ≤ hi) (v : ℝ) :
    stdClamp v lo hi = max lo (min v hi) := by
  unfold stdClamp
  split_ifs with h1 h2
  · exact (max_eq_left ((min_le_left _ _).trans h1.le)).symm
  · rw [min_eq_right h2.le, max_eq_right h]
  · rw [min_eq_left (not_lt.mp h2), max_eq_right (not_lt.mp h1)]

theorem zero_real : (0.0 : ℝ) = 0 := by norm_num

theorem one_real : (1.0 : ℝ) = 1 := by norm_num

theorem stdClamp_unit (t : ℝ) : stdClamp t 0 1 = Interpolation.unit t := by
  rw [stdClamp_real zero_le_one, Interpolation.unit]

theorem toInt_stdRound {x : ℝ} (h : 0 ≤ x) : toInt (stdRound x) = ⌊x + 0.5⌋ := by
  have hx : ¬ x < 0.0 := by
    rw [zero_real]
    exact not_lt.mpr h
  have hround : stdRound x = ((⌊x + 0.5⌋ : ℤ) : ℝ) := by
    rw [stdRound, if_neg hx]
    rfl
  have hnonneg : ¬ ((⌊x + 0.5⌋ : ℤ) : ℝ) < 0.0 := by
    rw [zero_real, not_lt]
    exact_mod_cast Int.floor_nonneg.mpr (by linarith)
  rw [hround, toInt, if_neg hnonneg]
  exact Int.floor_intCast _

theorem tanh_monotone : Monotone Real.tanh := by
  intro x y h
  have hx : Real.tanh x ∈ Set.Ioo (-1 : ℝ) 1 := ⟨Real.neg_one_lt_tanh x, Real.tanh_lt_one x⟩
  have hy : Real.tanh y ∈ Set.Ioo (-1 : ℝ) 1 := ⟨Real.neg_one_lt_tanh y, Real.tanh_lt_one y⟩
  rw [← Real.artanh_le_artanh_iff hx hy, Real.artanh_tanh, Real.artanh_tanh]
  exact h

end TB.CommonTypes
