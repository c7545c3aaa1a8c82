import TomorrowBot.PortfolioAllocator
import TomorrowBot.StepGrid
import Mathlib.Tactic.NormNum

/-!
# What the filters of the exchange let through

The outcome of the filters in closed form, for all filters. A smaller quantity
with less to spend is not let through in a larger size, unless it is raised to
the minimal notional past a quantity that already reaches it.
-/

set_option autoImplicit false

namespace TB.FilterOutcomes
open TB.CommonTypes TB.PortfolioAllocator TB.StepGrid

theorem zero_literal : (0.0 : ℚ) = 0 := by norm_num

theorem one_literal : (1.0 : ℚ) = 1 := by norm_num

section Outcomes
variable (f : ExchangeFilters ℚ) (price : ℚ)

def clampedQuantity (q : ℚ) : ℚ :=
  let raised := max (roundQuantityDown q f) f.minQuantity
  if 0 < f.maxQuantity then min raised f.maxQuantity else raised

def Admitted (affordable q : ℚ) : Prop :=
  ¬ (0 < f.maxQuantity ∧ f.maxQuantity < f.minQuantity) ∧
    (roundQuantityDown q f < f.minQuantity → f.minQuantity * price ≤ affordable) ∧
    (clampedQuantity f q * price < f.minNotional →
      minQtyForNotional price f * price ≤ affordable ∧
        (f.maxQuantity ≤ 0 ∨ minQtyForNotional price f ≤ f.maxQuantity))

def passedQuantity (q : ℚ) : ℚ :=
  if clampedQuantity f q * price < f.minNotional then minQtyForNotional price f
  else clampedQuantity f q

theorem roundQuantityDown_grid (q : ℚ) : roundQuantityDown q f = below f.quantityStep q := by
  unfold roundQuantityDown
  rw [zero_literal]
  rfl

theorem minQtyForNotional_grid :
    minQtyForNotional price f = above (max f.quantityStep 1e-15) (f.minNotional / price) := by
  simp only [minQtyForNotional, stdMax_rat]
  rfl

theorem clamped_source (q : ℚ) :
    (if 0 < f.maxQuantity ∧ f.maxQuantity <
        (if roundQuantityDown q f < f.minQuantity then f.minQuantity else roundQuantityDown q f)
      then f.maxQuantity
      else if roundQuantityDown q f < f.minQuantity then f.minQuantity
      else roundQuantityDown q f) = clampedQuantity f q := by
  have hraised : (if roundQuantityDown q f < f.minQuantity then f.minQuantity
      else roundQuantityDown q f) = max (roundQuantityDown q f) f.minQuantity := by
    split_ifs with h
    · exact (max_eq_right h.le).symm
    · exact (max_eq_left (not_lt.mp h)).symm
  rw [hraised]
  unfold clampedQuantity
  by_cases hmax : 0 < f.maxQuantity
  · rw [if_pos hmax]
    split_ifs with h
    · exact (min_eq_right h.2.le).symm
    · exact (min_eq_left (not_lt.mp (fun hlt => h ⟨hmax, hlt⟩))).symm
  · rw [if_neg hmax, if_neg (fun h => hmax h.1)]

variable {f price}

theorem filters_admit (toText : ℚ → String) {affordable : ℚ} {d : Draft ℚ}
    (h : Admitted f price affordable d.qty) :
    ∃ d', applyExchangeFilters toText price f affordable d = .ok d' ∧
      d'.qty = passedQuantity f price d.qty := by
  obtain ⟨hordered, hminimum, hnotional⟩ := h
  simp only [applyExchangeFilters, clamped_source, zero_literal]
  rw [if_neg hordered, if_neg (fun hn => hn.2 (hminimum hn.1)),
    if_neg (fun hn => hn.2 (hnotional hn.1))]
  exact ⟨_, rfl, rfl⟩

theorem filters_refuse (toText : ℚ → String) {affordable : ℚ} {d : Draft ℚ}
    (h : ¬ Admitted f price affordable d.qty) :
    ∃ r, applyExchangeFilters toText price f affordable d = .error r ∧ r.approved = false := by
  simp only [applyExchangeFilters, clamped_source, zero_literal]
  by_cases hinverted : 0 < f.maxQuantity ∧ f.maxQuantity < f.minQuantity
  · rw [if_pos hinverted]
    exact ⟨_, rfl, rfl⟩
  rw [if_neg hinverted]
  by_cases hraise : roundQuantityDown d.qty f < f.minQuantity ∧
      ¬ f.minQuantity * price ≤ affordable
  · rw [if_pos hraise]
    exact ⟨_, rfl, rfl⟩
  rw [if_neg hraise]
  by_cases hnotional : clampedQuantity f d.qty * price < f.minNotional ∧
      ¬ (minQtyForNotional price f * price ≤ affordable ∧
        (f.maxQuantity ≤ 0 ∨ minQtyForNotional price f ≤ f.maxQuantity))
  · rw [if_pos hnotional]
    exact ⟨_, rfl, rfl⟩
  · refine absurd ⟨hinverted, fun hlow => ?_, fun hlow => ?_⟩ h
    · exact not_not.mp (fun hn => hraise ⟨hlow, hn⟩)
    · exact not_not.mp (fun hn => hnotional ⟨hlow, hn⟩)

end Outcomes

section Monotone
variable {f : ExchangeFilters ℚ} {price affordable affordable' q q' : ℚ}

theorem clamped_mono (h : roundQuantityDown q' f ≤ roundQuantityDown q f) :
    clampedQuantity f q' ≤ clampedQuantity f q := by
  have hraised := max_le_max_right f.minQuantity h
  unfold clampedQuantity
  split_ifs
  · exact min_le_min_right _ hraised
  · exact hraised

theorem rounded_mono (h : q' ≤ q) : roundQuantityDown q' f ≤ roundQuantityDown q f := by
  rw [roundQuantityDown_grid, roundQuantityDown_grid]
  exact below_mono _ h

theorem le_minQtyForNotional (hp : 0 < price) :
    f.minNotional ≤ minQtyForNotional price f * price := by
  rw [minQtyForNotional_grid, ← div_le_iff₀ hp]
  exact le_above (lt_max_of_lt_right (by norm_num)) _

theorem admitted_mono (hp : 0 < price) (hq : q' ≤ q) (ha : affordable' ≤ affordable)
    (h : Admitted f price affordable' q') : Admitted f price affordable q := by
  have hclamped := clamped_mono (rounded_mono (f := f) hq)
  obtain ⟨hordered, hminimum, hnotional⟩ := h
  refine ⟨hordered, fun hlow => ?_, fun hlow => ?_⟩
  · exact (hminimum ((rounded_mono hq).trans_lt hlow)).trans ha
  · obtain ⟨hafford, hfits⟩ :=
      hnotional ((mul_le_mul_of_nonneg_right hclamped hp.le).trans_lt hlow)
    exact ⟨hafford.trans ha, hfits⟩

/-- A lot below the raised quantity that a larger lot leaves behind is the rounded quantity. -/
theorem clamped_eq_rounded (hq : q' ≤ q) (hlt : clampedQuantity f q' < clampedQuantity f q)
    (hfits : f.maxQuantity ≤ 0 ∨ minQtyForNotional price f ≤ f.maxQuantity)
    (hshort : clampedQuantity f q < minQtyForNotional price f) :
    clampedQuantity f q = roundQuantityDown q f := by
  have hround := rounded_mono (f := f) hq
  -- a raised quantity would be raised in both
  have hraised : max (roundQuantityDown q f) f.minQuantity = roundQuantityDown q f := by
    refine max_eq_left (not_lt.mp (fun hlow => ?_))
    have hsame : clampedQuantity f q' = clampedQuantity f q := by
      simp only [clampedQuantity, max_eq_right hlow.le, max_eq_right (hround.trans_lt hlow).le]
    exact absurd hsame hlt.ne
  simp only [clampedQuantity, hraised] at hshort ⊢
  by_cases hmax : 0 < f.maxQuantity
  · rw [if_pos hmax] at hshort ⊢
    refine min_eq_left (not_lt.mp (fun hover => ?_))
    rw [min_eq_right hover.le] at hshort
    exact absurd (hfits.resolve_left (not_le.mpr hmax)) (not_le.mpr hshort)
  · rw [if_neg hmax]

/-- The raised quantity is below the larger lot on the common steps, and where it was still
below the smaller quantity. -/
theorem minimal_le_clamped (hp : 0 < price) (hq : q' ≤ q)
    (hgrid : 1e-15 ≤ f.quantityStep ∨ q' = q ∨ minQtyForNotional price f ≤ q')
    (hfits : f.maxQuantity ≤ 0 ∨ minQtyForNotional price f ≤ f.maxQuantity)
    (hlow : clampedQuantity f q' * price < f.minNotional)
    (hhigh : f.minNotional ≤ clampedQuantity f q * price) :
    minQtyForNotional price f ≤ clampedQuantity f q := by
  by_contra hshort
  have hlt : clampedQuantity f q' < clampedQuantity f q :=
    lt_of_mul_lt_mul_right (hlow.trans_le hhigh) hp.le
  have hround := clamped_eq_rounded hq hlt hfits (not_le.mp hshort)
  rw [hround, roundQuantityDown_grid] at hhigh
  rw [hround, roundQuantityDown_grid, not_le] at hshort
  rcases hgrid with hstep | hsame | hbelow
  · have hpos : 0 < f.quantityStep := lt_of_lt_of_le (by norm_num) hstep
    rw [minQtyForNotional_grid, max_eq_left hstep] at hshort
    exact absurd (above_le_below hpos ((div_le_iff₀ hp).mpr hhigh)) (not_le.mpr hshort)
  · rw [hsame] at hlt
    exact absurd hlt (lt_irrefl _)
  · have hbetween := below_between (hshort.trans_le hbelow) hq
    rw [← roundQuantityDown_grid, ← roundQuantityDown_grid] at hbetween
    exact absurd (clamped_mono hbetween.ge) (not_le.mpr hlt)

theorem passed_mono (hp : 0 < price) (hq : q' ≤ q) (h : Admitted f price affordable' q')
    (hgrid : 1e-15 ≤ f.quantityStep ∨ q' = q ∨
      (minQtyForNotional price f * price ≤ affordable' → minQtyForNotional price f ≤ q')) :
    passedQuantity f price q' ≤ passedQuantity f price q := by
  have hclamped := clamped_mono (rounded_mono (f := f) hq)
  obtain ⟨-, -, hnotional⟩ := h
  unfold passedQuantity
  split_ifs with hlow hlow' hlow'
  · exact le_rfl
  · obtain ⟨hafford, hfits⟩ := hnotional hlow
    exact minimal_le_clamped hp hq (hgrid.imp_right (Or.imp_right (· hafford))) hfits hlow
      (not_lt.mp hlow')
  · have hshort := hlow'.trans_le (le_minQtyForNotional (f := f) hp)
    exact hclamped.trans (lt_of_mul_lt_mul_right hshort hp.le).le
  · exact hclamped

end Monotone

end TB.FilterOutcomes
