import Mathlib.Algebra.Order.Field.Basic
import Mathlib.Tactic.Ring

/-!
# Curves in pieces

A curve between two values, curves that are joined at a breakpoint, and the
weighted mean of a new and an old value: each is monotone in its argument.
-/

set_option autoImplicit false

namespace Interpolation

section Linear
variable {K : Type*} [Field K] [LinearOrder K] [IsStrictOrderedRing K]

def unit (t : K) : K := max 0 (min t 1)

def lerp (a b t : K) : K := a + (b - a) * unit t

omit [IsStrictOrderedRing K] in
theorem unit_nonneg (t : K) : 0 ≤ unit t := le_max_left _ _

theorem unit_le_one (t : K) : unit t ≤ 1 := max_le zero_le_one (min_le_right _ _)

omit [IsStrictOrderedRing K] in
theorem unit_mono : Monotone (unit : K → K) :=
  fun _ _ h => max_le_max_left _ (min_le_min_right _ h)

theorem unit_zero : unit (0 : K) = 0 := by
  rw [unit, min_eq_left zero_le_one, max_self]

theorem lerp_antitone {a b : K} (h : b ≤ a) : Antitone (lerp a b) := by
  intro s t hst
  have hmul := mul_le_mul_of_nonpos_left (unit_mono hst) (sub_nonpos.mpr h)
  exact add_le_add_right hmul a

theorem lerp_monotone {a b : K} (h : a ≤ b) : Monotone (lerp a b) := by
  intro s t hst
  have hmul := mul_le_mul_of_nonneg_left (unit_mono hst) (sub_nonneg.mpr h)
  exact add_le_add_right hmul a

theorem le_lerp {a b c : K} (ha : c ≤ a) (hb : c ≤ b) (t : K) : c ≤ lerp a b t := by
  have h0 := unit_nonneg t
  have h1 := unit_le_one t
  have hsplit : lerp a b t = (1 - unit t) * a + unit t * b := by
    rw [lerp]
    ring
  rw [hsplit]
  calc c = (1 - unit t) * c + unit t * c := by ring
    _ ≤ (1 - unit t) * a + unit t * b :=
      add_le_add (mul_le_mul_of_nonneg_left ha (sub_nonneg.mpr h1))
        (mul_le_mul_of_nonneg_left hb h0)

theorem lerp_le {a b c : K} (ha : a ≤ c) (hb : b ≤ c) (t : K) : lerp a b t ≤ c := by
  have h := le_lerp (neg_le_neg ha) (neg_le_neg hb) t
  have hneg : lerp (-a) (-b) t = -lerp a b t := by
    rw [lerp, lerp]
    ring
  rw [hneg] at h
  exact neg_le_neg_iff.mp h

theorem mean_le_mean {α x x' y y' : K} (h0 : 0 ≤ α) (h1 : α ≤ 1) (hx : x ≤ x') (hy : y ≤ y') :
    α * x + (1 - α) * y ≤ α * x' + (1 - α) * y' :=
  add_le_add (mul_le_mul_of_nonneg_left hx h0)
    (mul_le_mul_of_nonneg_left hy (sub_nonneg.mpr h1))

end Linear

section Joined
variable {α β : Type*} [LinearOrder α] [Preorder β] {f g : α → β}

/-- Two falling curves joined at a breakpoint where no value of the second exceeds a
value of the first. -/
theorem antitone_joined (c : α) (v : β) (hf : Antitone f) (hg : Antitone g)
    (hfv : ∀ x ≤ c, v ≤ f x) (hgv : ∀ x, c < x → g x ≤ v) :
    Antitone (fun x => if x ≤ c then f x else g x) := by
  intro x y hxy
  by_cases hy : y ≤ c
  · have hx : x ≤ c := hxy.trans hy
    simpa only [if_pos hx, if_pos hy] using hf hxy
  by_cases hx : x ≤ c
  · simpa only [if_pos hx, if_neg hy] using (hgv y (not_le.mp hy)).trans (hfv x hx)
  · simpa only [if_neg hx, if_neg hy] using hg hxy

theorem monotone_joined (c : α) (v : β) (hf : Monotone f) (hg : Monotone g)
    (hfv : ∀ x ≤ c, f x ≤ v) (hgv : ∀ x, c < x → v ≤ g x) :
    Monotone (fun x => if x ≤ c then f x else g x) :=
  (antitone_joined c (OrderDual.toDual v) hf.dual_right hg.dual_right hfv hgv).dual_right

end Joined

end Interpolation
