import TomorrowBot.RealArithmetic
import Mathlib.Tactic.NormNum.OfScientific

/-!
# Guarded arithmetic

The helpers that the indicators and the learning modules share: a division with
a value to fall back on near zero, guarded clamping and square root, and the
check of a series of prices. The bound near zero is an absolute one.
-/

set_option autoImplicit false

namespace TB.Numeric
open TB.CommonTypes

section Helpers
variable {F : Type} [DoubleArith F]

def kEpsilon : F := 1e-9
def kMaxReasonablePrice : F := 1e12

def quotient (num den : F) : Option F :=
  if stdAbs den < kEpsilon then none
  else if isfinite (num / den) then some (num / den) else none

def safeDiv (num den fallback : F) : F := (quotient num den).getD fallback

def safeClamp (v lo hi fallback : F) : F :=
  if isfinite v then stdClamp v lo hi else fallback

def IsValidPrice (p : F) : Prop :=
  isfinite p = true ∧ kMinValidPrice < p ∧ p < kMaxReasonablePrice

instance : DecidablePred (IsValidPrice (F := F)) := fun _ => inferInstanceAs (Decidable (_ ∧ _))

def isStale (computedAtNs nowNs thresholdNs : ℤ) : Bool :=
  decide (computedAtNs ≤ 0 ∨ nowNs ≤ 0) || decide (thresholdNs < nowNs - computedAtNs)

end Helpers

section Roots
variable {F : Type} [DoubleSqrt F]

def safeLog (v : F) : F := if isfinite v = false ∨ v ≤ 0.0 then 0.0 else DoubleExp.log v

def safeSqrt (v : F) : F :=
  if isfinite v = false ∨ v < 0.0 then 0.0 else DoubleSqrt.sqrt v

end Roots

section Exact

theorem stdAbs_real (x : ℝ) : stdAbs x = |x| := by
  unfold stdAbs
  split_ifs with h
  · exact (abs_of_neg h).symm
  · exact (abs_of_nonneg (not_lt.mp h)).symm

theorem kEpsilon_pos : (0 : ℝ) < kEpsilon := by
  unfold kEpsilon
  norm_num

theorem safeDiv_real (num den fallback : ℝ) :
    safeDiv num den fallback = if |den| < kEpsilon then fallback else num / den := by
  unfold safeDiv quotient
  rw [stdAbs_real]
  split_ifs with hsmall hfinite
  · rfl
  · rfl
  · exact absurd rfl hfinite

theorem safeDiv_far {den : ℝ} (h : kEpsilon ≤ |den|) (num fallback : ℝ) :
    safeDiv num den fallback = num / den := by
  rw [safeDiv_real, if_neg (not_lt.mpr h)]

theorem safeDiv_near {den : ℝ} (h : |den| < kEpsilon) (num fallback : ℝ) :
    safeDiv num den fallback = fallback := by
  rw [safeDiv_real, if_pos h]

theorem stdClamp_mem {lo hi : ℝ} (h : lo ≤ hi) (v : ℝ) : stdClamp v lo hi ∈ Set.Icc lo hi := by
  rw [stdClamp_real h]
  exact ⟨le_max_left _ _, max_le h (min_le_right _ _)⟩

theorem safeSqrt_real {v : ℝ} (h : 0 ≤ v) : safeSqrt v = Real.sqrt v := by
  have hv : ¬ (isfinite v = false ∨ v < 0.0) := by
    rw [zero_real]
    exact fun hbad => hbad.elim (fun hfin => Bool.noConfusion hfin) (not_lt.mpr h)
  exact if_neg hv

end Exact

end TB.Numeric
