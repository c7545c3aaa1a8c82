import Mathlib.Algebra.Order.Floor.Ring
import Mathlib.Tactic.Linarith

/-!
# Rounding to a number of steps

A value is rounded down or up to a number of steps. A step that is not positive
leaves a value that is rounded down as it is.
-/

set_option autoImplicit false

namespace TB.StepGrid

variable {K : Type*} [Field K] [LinearOrder K] [FloorRing K]

def below (step q : K) : K := if step ≤ 0 then q else ⌊q / step⌋ * step

def above (step q : K) : K := ⌈q / step⌉ * step

variable {step q q' y : K}

theorem below_fine (hs : step ≤ 0) : below step q = q := if_pos hs

theorem below_steps (hs : 0 < step) : below step q = ⌊q / step⌋ * step := if_neg (not_le.mpr hs)

variable [IsStrictOrderedRing K]

theorem below_le (step q : K) : below step q ≤ q := by
  rcases le_or_gt step 0 with hs | hs
  · exact (below_fine hs).le
  · rw [below_steps hs]
    exact (le_div_iff₀ hs).mp (Int.floor_le _)

theorem below_mono (step : K) (h : q' ≤ q) : below step q' ≤ below step q := by
  rcases le_or_gt step 0 with hs | hs
  · rwa [below_fine hs, below_fine hs]
  · rw [below_steps hs, below_steps hs]
    have hfloor := Int.floor_mono (div_le_div_of_nonneg_right h hs.le)
    exact mul_le_mul_of_nonneg_right (Int.cast_le.mpr hfloor) hs.le

theorem below_nonneg (step : K) (h : 0 ≤ q) : 0 ≤ below step q := by
  rcases le_or_gt step 0 with hs | hs
  · rwa [below_fine hs]
  · rw [below_steps hs]
    exact mul_nonneg (Int.cast_nonneg (Int.floor_nonneg.mpr (div_nonneg h hs.le))) hs.le

/-- Between the rounded value and the value itself nothing rounds differently. -/
theorem below_between (h : below step q < q') (hq : q' ≤ q) : below step q' = below step q := by
  refine le_antisymm (below_mono step hq) ?_
  rcases le_or_gt step 0 with hs | hs
  · rw [below_fine hs] at h
    exact absurd hq (not_le.mpr h)
  · rw [below_steps hs] at h ⊢
    rw [below_steps hs]
    have hfloor : ⌊q / step⌋ ≤ ⌊q' / step⌋ := Int.le_floor.mpr ((le_div_iff₀ hs).mpr h.le)
    exact mul_le_mul_of_nonneg_right (Int.cast_le.mpr hfloor) hs.le

/-- Two values a step apart do not round alike. -/
theorem below_lt (hlt : q' < q) (h : q' + step ≤ q) : below step q' < below step q := by
  rcases le_or_gt step 0 with hs | hs
  · rwa [below_fine hs, below_fine hs]
  · rw [below_steps hs, below_steps hs]
    have hdiv : q' / step + 1 ≤ q / step := by
      rw [← div_self hs.ne', ← add_div]
      exact div_le_div_of_nonneg_right h hs.le
    have hfloor : ⌊q' / step⌋ + 1 ≤ ⌊q / step⌋ := by
      rw [← Int.floor_add_one]
      exact Int.floor_mono hdiv
    exact mul_lt_mul_of_pos_right (Int.cast_lt.mpr (Int.lt_of_add_one_le hfloor)) hs

theorem below_one_step (hs : 0 < step) : below step step = step := by
  rw [below_steps hs, div_self hs.ne', Int.floor_one, Int.cast_one, one_mul]

theorem le_above (hs : 0 < step) (y : K) : y ≤ above step y :=
  (div_le_iff₀ hs).mp (Int.le_ceil _)

theorem above_le_below (hs : 0 < step) (h : y ≤ below step q) : above step y ≤ below step q := by
  rw [below_steps hs] at h ⊢
  have hceil : ⌈y / step⌉ ≤ ⌊q / step⌋ := Int.ceil_le.mpr ((div_le_iff₀ hs).mpr h)
  exact mul_le_mul_of_nonneg_right (Int.cast_le.mpr hceil) hs.le

theorem above_first_step (hy : 0 < y) (h : y ≤ step) : above step y = step := by
  have hs : 0 < step := hy.trans_le h
  have hceil : ⌈y / step⌉ = 1 := by
    rw [Int.ceil_eq_iff]
    push_cast
    exact ⟨by rw [sub_self]; exact div_pos hy hs, (div_le_one hs).mpr h⟩
  rw [above, hceil, Int.cast_one, one_mul]

end TB.StepGrid
