import Mathlib.Tactic.Linarith
import TomorrowBot.DoubleValues
import TomorrowBot.PairedRuns
import TomorrowBot.UncertaintyEngine

/-!
# The uncertainty engine and inputs that are not finite

A clamp lets a value through that is not a number, a maximum drops it where it
comes second, and no comparison with it holds. So it matters where the value
enters: most signals are judged before or after the clamp, two are not.
-/

set_option autoImplicit false

namespace TB.GarbageInputs
open TB.CommonTypes TB.TradingContext TB.UncertaintyEngine TB.DoubleValues Double

section Specification

inductive Field where
  | spreadBps
  | vpin
  | bookInstability
  | regimeConfidence
  | fragility
  | cascadeProbability

def valueAt (c : Call Double) : Field → Double
  | .spreadBps => c.features.microstructure.spreadBps
  | .vpin => c.features.microstructure.vpin
  | .bookInstability => c.features.microstructure.bookInstability
  | .regimeConfidence => c.regime.confidence
  | .fragility => c.world.fragility.value
  | .cascadeProbability => c.ml.cascadeProbability

def withMicrostructure (c : Call Double) (m : MicrostructureFeatures Double) : Call Double :=
  { c with features := { c.features with microstructure := m } }

def setField (c : Call Double) (x : Double) : Field → Call Double
  | .spreadBps => withMicrostructure c { c.features.microstructure with spreadBps := x }
  | .vpin => withMicrostructure c { c.features.microstructure with vpin := x }
  | .bookInstability =>
    withMicrostructure c { c.features.microstructure with bookInstability := x }
  | .regimeConfidence => { c with regime := ⟨x⟩ }
  | .fragility => { c with world := ⟨{ c.world.fragility with value := x }⟩ }
  | .cascadeProbability => { c with ml := { c.ml with cascadeProbability := x } }

def InUnit (x : Double) : Prop := (0.0 : Double) ≤ x ∧ x ≤ 1.0

def DimensionsInUnit (d : UncertaintyDimensions Double) : Prop :=
  InUnit d.regimeUncertainty ∧ InUnit d.signalUncertainty ∧ InUnit d.dataQualityUncertainty ∧
    InUnit d.executionUncertainty ∧ InUnit d.portfolioUncertainty ∧ InUnit d.mlUncertainty ∧
    InUnit d.correlationUncertainty ∧ InUnit d.transitionUncertainty ∧
    InUnit d.operationalUncertainty

def NoSafer (out safe : Assessment Double) : Prop :=
  levelRank safe.level ≤ levelRank out.level ∧ ¬ safe.sizeMultiplier < out.sizeMultiplier

structure Guarded (cfg : UncertaintyConfig Double) (e : Engine Double) (c : Call Double)
    (after : List (Call Double)) : Prop where
  dimensions : DimensionsInUnit (assess cfg e c).2.dimensions
  aggregate : InUnit (assess cfg e c).2.aggregateScore
  persistent : InUnit (assess cfg e c).2.persistentScore
  noSafer : ∀ f, isfinite (valueAt c f) = false →
    ∃ q : ℚ, NoSafer (assess cfg e c).2 (assess cfg e (setField c (.finite q) f)).2
  finiteScores : (∀ f, isfinite (valueAt c f) = true) →
    isfinite (assess cfg e c).2.aggregateScore = true ∧
      isfinite (assess cfg e c).2.persistentScore = true ∧
      isfinite (assess cfg e c).2.spikeScore = true
  apart : (PairedRuns.outputs (assess cfg) (assess cfg e c).1 after).filter
      (fun out => out.symbol ≠ c.features.symbol) =
    (PairedRuns.outputs (assess cfg) e after).filter (fun out => out.symbol ≠ c.features.symbol)

def GuardedRun (cfg : UncertaintyConfig Double) : Engine Double → List (Call Double) → Prop
  | _, [] => True
  | e, c::after => Guarded cfg e c after ∧ GuardedRun cfg (assess cfg e c).1 after

def Clean (cfg : UncertaintyConfig Double) (c : Call Double) : Prop :=
  cfg.emaAlpha ≠ nan ∧
    ¬ (c.features.microstructure.vpinValid = true ∧ c.features.microstructure.vpinToxic = false ∧
      c.features.microstructure.vpin = nan) ∧
    ¬ (c.world.fragility.valid = true ∧ c.world.fragility.value = nan)

end Specification

section Arithmetic

variable (x : Double)

theorem inUnit_iff : InUnit x ↔ ∃ q : ℚ, x = finite q ∧ 0 ≤ q ∧ q ≤ 1 := by
  rw [InUnit, lit_zero, lit_one, le_iff, le_iff]
  cases x <;> simp [le]

theorem inUnit_finite (q : ℚ) (h0 : 0 ≤ q) (h1 : q ≤ 1) : InUnit (finite q) :=
  (inUnit_iff _).mpr ⟨q, rfl, h0, h1⟩

theorem not_inUnit_nan : ¬ InUnit nan := by
  rintro ⟨h, -⟩
  exact absurd (number_of_le h).2 (by simp [isNumber])

theorem clamp01_nan : clamp01 (nan : Double) = nan := rfl

theorem clamp01_posInf : clamp01 (posInf : Double) = finite 1 := by
  rw [← lit_one]
  rfl

theorem clamp01_negInf : clamp01 (negInf : Double) = finite 0 := by
  rw [← lit_zero]
  rfl

theorem clamp01_finite (q : ℚ) : clamp01 (finite q) = finite (max 0 (min q 1)) := by
  rw [clamp01, stdClamp, lit_zero, lit_one]
  simp only [finite_lt]
  split_ifs with h0 h1
  · rw [max_eq_left ((min_le_left q 1).trans h0.le)]
  · rw [min_eq_right h1.le, max_eq_right zero_le_one]
  · rw [min_eq_left (not_lt.mp h1), max_eq_right (not_lt.mp h0)]

theorem clamp01_self (q : ℚ) (h0 : 0 ≤ q) (h1 : q ≤ 1) : clamp01 (finite q) = finite q := by
  rw [clamp01_finite, min_eq_left h1, max_eq_right h0]

theorem clamp01_inUnit (h : x ≠ nan) : InUnit (clamp01 x) := by
  cases x with
  | nan => exact absurd rfl h
  | negInf => rw [clamp01_negInf]; exact inUnit_finite 0 le_rfl zero_le_one
  | finite q =>
    rw [clamp01_finite]
    exact inUnit_finite _ (le_max_left _ _) (max_le zero_le_one (min_le_right _ _))
  | posInf => rw [clamp01_posInf]; exact inUnit_finite 1 zero_le_one le_rfl

theorem stdMax_nan : stdMax x nan = x := by
  rw [stdMax, if_neg]
  intro h
  exact absurd (number_of_lt h).2 (by simp [isNumber])

theorem stdMax_zero (h : InUnit x) : stdMax x (finite 0) = x := by
  obtain ⟨q, rfl, h0, -⟩ := (inUnit_iff x).mp h
  rw [stdMax, if_neg (by rw [finite_lt]; exact not_lt.mpr h0)]

theorem stdMax_inUnit (x y : Double) (hx : InUnit x) (hy : InUnit y ∨ y = nan) :
    InUnit (stdMax x y) := by
  rcases hy with hy | rfl
  · rw [stdMax]
    split_ifs
    · exact hy
    · exact hx
  · rwa [stdMax_nan]

theorem clamp01_cases : InUnit (clamp01 x) ∨ clamp01 x = nan := by
  by_cases h : x = nan
  · exact Or.inr (by rw [h, clamp01_nan])
  · exact Or.inl (clamp01_inUnit x h)

end Arithmetic

section Scores

theorem lit_inUnit (m : ℕ) (s : Bool) (e : ℕ) (h0 : (0 : ℚ) ≤ OfScientific.ofScientific m s e)
    (h1 : (OfScientific.ofScientific m s e : ℚ) ≤ 1) :
    InUnit (OfScientific.ofScientific m s e : Double) := inUnit_finite _ h0 h1

variable (m : MicrostructureFeatures Double)

theorem spreadScore_finite (q : ℚ) (h : m.spreadValid = true)
    (hx : m.spreadBps = finite q) : spreadScore m = clamp01 (finite (q / 25)) := by
  have h25 : (25.0 : ℚ) = 25 := by norm_num
  rw [spreadScore, h, hx]
  show clamp01 (finite q / finite 25.0) = _
  rw [h25, finite_div _ _ (by norm_num)]

theorem spreadScore_inUnit : InUnit (spreadScore m) := by
  by_cases h : m.spreadValid = true ∧ isfinite m.spreadBps = true
  · obtain ⟨q, hx⟩ := (isfinite_iff _).mp h.2
    rw [spreadScore_finite m q h.1 hx]
    exact clamp01_inUnit _ (by simp)
  · rw [spreadScore, if_neg (by simpa using h)]
    exact lit_inUnit 5 true 1 (by norm_num) (by norm_num)

theorem vpin_linear_finite (q : ℚ) :
    (finite q - kVpinNonToxicLowerThr) / kVpinNonToxicRange = finite ((q - 0.4) / 0.4) := by
  show (finite q - finite 0.4) / finite 0.4 = _
  rw [finite_sub, finite_div _ _ (by norm_num)]

theorem vpin_linear (x : Double) : x ≠ nan →
    (x - kVpinNonToxicLowerThr) / kVpinNonToxicRange ≠ nan := by
  have h04 : (0.4 : ℚ) ≠ 0 := by norm_num
  have hpos : (0 : ℚ) < 0.4⁻¹ := by norm_num
  cases x with
  | nan => exact fun h => absurd rfl h
  | finite q =>
    intro _
    rw [vpin_linear_finite]
    simp
  | posInf =>
    intro _
    show mul posInf (inv (finite 0.4)) ≠ nan
    simp [inv, h04, mul, infSigned, hpos]
  | negInf =>
    intro _
    show mul negInf (inv (finite 0.4)) ≠ nan
    simp [inv, h04, mul, infSigned, hpos, not_lt.mpr hpos.le]

theorem vpinScore_inUnit_iff : InUnit (vpinScore m) ↔
    ¬ (m.vpinValid = true ∧ m.vpinToxic = false ∧ m.vpin = nan) := by
  rw [vpinScore]
  cases hv : m.vpinValid with
  | false => exact iff_of_true (lit_inUnit 0 true 1 (by norm_num) (by norm_num)) (by simp)
  | true =>
    cases ht : m.vpinToxic with
    | true =>
      exact iff_of_true (lit_inUnit 85 true 2 (by norm_num) (by norm_num)) (by simp)
    | false =>
      simp only [if_true, Bool.false_eq_true, if_false, true_and]
      constructor
      · intro h hx
        rw [hx] at h
        exact not_inUnit_nan h
      · exact fun h => clamp01_inUnit _ (vpin_linear m.vpin h)

theorem vpinScore_cases : InUnit (vpinScore m) ∨ vpinScore m = nan := by
  by_cases h : m.vpinValid = true ∧ m.vpinToxic = false ∧ m.vpin = nan
  · refine Or.inr ?_
    rw [vpinScore, if_pos h.1, if_neg (by simp [h.2.1]), h.2.2]
    rfl
  · exact Or.inl ((vpinScore_inUnit_iff m).mpr h)

theorem regimeScore_inUnit (regime : RegimeSnapshot Double) : InUnit (regimeScore regime) := by
  rw [regimeScore]
  split_ifs with h
  · obtain ⟨q, hq⟩ := (isfinite_iff _).mp h
    have hsub : (1.0 : Double) - regime.confidence = finite (1 - q) := by
      rw [hq, lit_one, finite_sub]
    obtain ⟨p, hp, h0, h1⟩ := (inUnit_iff _).mp (clamp01_inUnit (finite (1 - q)) (by simp))
    rw [hsub, hp]
    show InUnit (finite (p * 0.5))
    exact inUnit_finite _ (by linarith) (by linarith)
  · exact lit_inUnit 25 true 2 (by norm_num) (by norm_num)

theorem worldScore_inUnit_iff (world : WorldModelSnapshot Double) : InUnit (worldScore world) ↔
    ¬ (world.fragility.valid = true ∧ world.fragility.value = nan) := by
  rw [worldScore]
  cases hv : world.fragility.valid with
  | false => exact iff_of_true (lit_inUnit 3 true 1 (by norm_num) (by norm_num)) (by simp)
  | true =>
    simp only [if_true, true_and]
    constructor
    · intro h hx
      rw [hx, clamp01_nan] at h
      exact not_inUnit_nan h
    · exact fun h => clamp01_inUnit _ h

theorem worldScore_nan (world : WorldModelSnapshot Double) (hv : world.fragility.valid = true)
    (hx : world.fragility.value = nan) : worldScore world = nan := by
  rw [worldScore, if_pos hv, hx, clamp01_nan]

theorem mlScore_inUnit (ml : MlSignalSnapshot Double) : InUnit (mlScore ml) := by
  have hcascade : InUnit (stdMax 0.0 (clamp01 ml.cascadeProbability)) :=
    stdMax_inUnit _ _ (lit_inUnit 0 true 1 (by norm_num) (by norm_num)) (clamp01_cases _)
  unfold mlScore
  simp only
  split_ifs
  · exact stdMax_inUnit _ _ hcascade
      (Or.inl (lit_inUnit 7 true 1 (by norm_num) (by norm_num)))
  · exact hcascade

variable (c : Call Double)

theorem dataScore_inUnit : InUnit (subScores c).data := by
  show InUnit (if c.features.executionContext.isFeedFresh then 0.0 else kStaleFeedSeverity)
  split_ifs
  · exact lit_inUnit 0 true 1 (by norm_num) (by norm_num)
  · exact lit_inUnit 8 true 1 (by norm_num) (by norm_num)

theorem hardMax_inUnit : InUnit (hardMax (subScores c)) :=
  stdMax_inUnit _ _ (stdMax_inUnit _ _ (stdMax_inUnit _ _ (spreadScore_inUnit _)
    (Or.inl (dataScore_inUnit c))) (vpinScore_cases _)) (clamp01_cases _)

theorem rawScore_inUnit_iff : InUnit (rawScore (subScores c)) ↔
    ¬ (c.world.fragility.valid = true ∧ c.world.fragility.value = nan) := by
  obtain ⟨h, hh, -, -⟩ := (inUnit_iff _).mp (hardMax_inUnit c)
  obtain ⟨r, hr, -, -⟩ := (inUnit_iff _).mp (regimeScore_inUnit c.regime)
  obtain ⟨m, hm, -, -⟩ := (inUnit_iff _).mp (mlScore_inUnit c.ml)
  have hsoft : softAvg (subScores c) = (finite r + worldScore c.world + finite m) / 3.0 := by
    rw [← hr, ← hm]
    rfl
  constructor
  · rintro hraw ⟨hv, hx⟩
    rw [rawScore, hsoft, worldScore_nan c.world hv hx, hh] at hraw
    exact not_inUnit_nan hraw
  · intro hclean
    obtain ⟨w, hw, -, -⟩ := (inUnit_iff _).mp ((worldScore_inUnit_iff c.world).mpr hclean)
    rw [rawScore, hsoft, hw, hh]
    apply clamp01_inUnit
    have h3 : (3.0 : ℚ) ≠ 0 := by norm_num
    show finite 0.7 * finite h + finite 0.3 * (finite (r + w + m) / finite 3.0) ≠ nan
    rw [finite_div _ _ h3]
    exact fun hn => nomatch hn

end Scores

section Average

theorem alpha_cases (x : Double) : (x = nan ∧ stdClamp x 0.01 1.0 = nan) ∨
    x ≠ nan ∧ ∃ a : ℚ, stdClamp x 0.01 1.0 = finite a ∧ 0 ≤ a ∧ a ≤ 1 := by
  have h001 : (0.01 : Double) = finite (1 / 100) := by
    show finite _ = _
    norm_num
  cases x with
  | nan => exact Or.inl ⟨rfl, rfl⟩
  | negInf =>
    refine Or.inr ⟨by simp, 1 / 100, ?_, by norm_num, by norm_num⟩
    rw [← h001]
    rfl
  | posInf =>
    refine Or.inr ⟨by simp, 1, ?_, by norm_num, by norm_num⟩
    rw [← lit_one]
    rfl
  | finite q =>
    refine Or.inr ⟨by simp, ?_⟩
    rw [stdClamp, h001, lit_one]
    simp only [finite_lt]
    split_ifs with hlow hhigh
    · exact ⟨1 / 100, rfl, by norm_num, by norm_num⟩
    · exact ⟨1, rfl, by norm_num, by norm_num⟩
    · exact ⟨q, rfl, by linarith [not_lt.mp hlow], not_lt.mp hhigh⟩

variable (cfg : UncertaintyConfig Double)

theorem emaAfter_nan (ema raw : Double) (h : cfg.emaAlpha = nan) : emaAfter cfg ema raw = nan := by
  unfold emaAfter
  rw [h]
  rfl

theorem emaAfter_inUnit (ema raw : Double)
    (h : cfg.emaAlpha ≠ nan) (hema : InUnit ema) (hraw : InUnit raw) :
    InUnit (emaAfter cfg ema raw) := by
  obtain ⟨hn, -⟩ | ⟨-, a, ha, ha0, ha1⟩ := alpha_cases cfg.emaAlpha
  · exact absurd hn h
  obtain ⟨s, rfl, hs0, hs1⟩ := (inUnit_iff ema).mp hema
  obtain ⟨r, rfl, hr0, hr1⟩ := (inUnit_iff raw).mp hraw
  unfold emaAfter
  simp only [ha]
  rw [lit_one, finite_sub, finite_mul, finite_mul, finite_add]
  have hone : (1 - a) * s ≤ 1 - a := mul_le_of_le_one_right (by linarith) hs1
  have htwo : a * r ≤ a := mul_le_of_le_one_right ha0 hr1
  have h1 : 0 ≤ (1 - a) * s := mul_nonneg (by linarith) hs0
  have h2 : 0 ≤ a * r := mul_nonneg ha0 hr0
  exact inUnit_finite _ (by linarith) (by linarith)

theorem stateAfter_ema (c : Call Double) (s : SymbolState Double) :
    (stateAfter cfg c s).emaScore = emaAfter cfg s.emaScore (rawScore (subScores c)) := by
  unfold stateAfter
  simp only
  cases levelAfter cfg (rawScore (subScores c)) s.prevLevel <;> rfl

end Average

section Reports

theorem dimensions_inUnit_iff (cfg : UncertaintyConfig Double) (e : Engine Double)
    (c : Call Double) : DimensionsInUnit (assess cfg e c).2.dimensions ↔
      InUnit (vpinScore c.features.microstructure) := by
  have hregime := regimeScore_inUnit c.regime
  have hdata := dataScore_inUnit c
  have hbreak : InUnit (if c.ml.correlationBreak then 0.7 else 0.0) := by
    split_ifs
    · exact lit_inUnit 7 true 1 (by norm_num) (by norm_num)
    · exact lit_inUnit 0 true 1 (by norm_num) (by norm_num)
  constructor
  · exact fun h => h.2.1
  · exact fun h => ⟨hregime, h, hdata, spreadScore_inUnit _,
      lit_inUnit 0 true 1 (by norm_num) (by norm_num), mlScore_inUnit _, hbreak, hregime, hdata⟩

/-- Level and multiplier see the inputs through the raw score alone. -/
theorem noSafer_of_raw (cfg : UncertaintyConfig Double) (e : Engine Double) (c d : Call Double)
    (hsymbol : d.features.symbol = c.features.symbol)
    (hraw : rawScore (subScores d) = rawScore (subScores c)) :
    NoSafer (assess cfg e c).2 (assess cfg e d).2 := by
  have hlevel : (assess cfg e d).2.level = (assess cfg e c).2.level := by
    show levelAfter cfg _ (e.states d.features.symbol).prevLevel =
      levelAfter cfg _ (e.states c.features.symbol).prevLevel
    rw [hsymbol, hraw]
  have hsize : ∀ x : Call Double, (assess cfg e x).2.sizeMultiplier =
      sizeMultiplierOf cfg (assess cfg e x).2.level := fun _ => rfl
  refine ⟨le_of_eq (by rw [hlevel]), ?_⟩
  rw [hsize, hsize, hlevel]
  exact lt_irrefl _

theorem rawScore_congr (c d : Call Double) (hhard : hardMax (subScores d) = hardMax (subScores c))
    (hsoft : softAvg (subScores d) = softAvg (subScores c)) :
    rawScore (subScores d) = rawScore (subScores c) := by
  rw [rawScore, rawScore, hhard, hsoft]

variable (c : Call Double)

theorem spread_replaced (h : isfinite c.features.microstructure.spreadBps = false) :
    rawScore (subScores (setField c (finite (25 / 2)) .spreadBps)) = rawScore (subScores c) := by
  have hhalf : (0.5 : Double) = finite (1 / 2) := by
    show finite _ = _
    norm_num
  have hold : spreadScore c.features.microstructure = 0.5 := by
    rw [spreadScore, h, Bool.and_false, if_neg Bool.false_ne_true]
  have hnew : ∀ m : MicrostructureFeatures Double, m.spreadBps = finite (25 / 2) →
      spreadScore m = 0.5 := by
    intro m hm
    by_cases hv : m.spreadValid = true
    · rw [spreadScore_finite m (25 / 2) hv hm, clamp01_self _ (by norm_num) (by norm_num), hhalf]
      norm_num
    · rw [spreadScore, if_neg (by simp [hv])]
  apply rawScore_congr
  · show stdMax (stdMax (stdMax (spreadScore { c.features.microstructure with
      spreadBps := finite (25 / 2) }) _) _) _ = _
    rw [hnew _ rfl, ← hold]
    rfl
  · rfl

theorem regime_replaced (h : isfinite c.regime.confidence = false) :
    rawScore (subScores (setField c (finite (1 / 2)) .regimeConfidence)) =
      rawScore (subScores c) := by
  have hold : regimeScore c.regime = 0.25 := by
    rw [regimeScore, h, if_neg Bool.false_ne_true]
  have hnew : regimeScore (⟨finite (1 / 2)⟩ : RegimeSnapshot Double) = 0.25 := by
    show clamp01 ((1.0 : Double) - finite (1 / 2)) * 0.5 = 0.25
    rw [lit_one, finite_sub, clamp01_self _ (by norm_num) (by norm_num)]
    show finite _ = finite _
    norm_num
  apply rawScore_congr
  · rfl
  · show (regimeScore (⟨finite (1 / 2)⟩ : RegimeSnapshot Double) + _ + _) / 3.0 = _
    rw [hnew, ← hold]
    rfl

/-- What a clamp makes of a value that is not finite, a finite value gives too. -/
theorem clamp01_replaced (x : Double) (hx : x ≠ nan) : ∃ q : ℚ, clamp01 (finite q) = clamp01 x := by
  cases x with
  | nan => exact absurd rfl hx
  | negInf => exact ⟨0, by rw [clamp01_negInf, clamp01_self 0 le_rfl zero_le_one]⟩
  | finite q => exact ⟨q, rfl⟩
  | posInf => exact ⟨1, by rw [clamp01_posInf, clamp01_self 1 zero_le_one le_rfl]⟩

theorem fragility_replaced
    (hclean : ¬ (c.world.fragility.valid = true ∧ c.world.fragility.value = nan)) :
    ∃ q : ℚ, rawScore (subScores (setField c (finite q) .fragility)) = rawScore (subScores c) := by
  have hscore : ∃ q : ℚ, worldScore ⟨{ c.world.fragility with value := finite q }⟩ =
      worldScore c.world := by
    by_cases hv : c.world.fragility.valid = true
    · obtain ⟨q, hq⟩ := clamp01_replaced c.world.fragility.value (fun hx => hclean ⟨hv, hx⟩)
      exact ⟨q, by rw [worldScore, worldScore, if_pos hv, if_pos hv, hq]⟩
    · exact ⟨0, by rw [worldScore, worldScore, if_neg hv, if_neg hv]⟩
  obtain ⟨q, hq⟩ := hscore
  refine ⟨q, rawScore_congr _ _ rfl ?_⟩
  show (_ + worldScore ⟨{ c.world.fragility with value := finite q }⟩ + _) / 3.0 = _
  rw [hq]
  rfl

theorem cascade_replaced :
    ∃ q : ℚ, rawScore (subScores (setField c (finite q) .cascadeProbability)) =
      rawScore (subScores c) := by
  have hzero : InUnit (0.0 : Double) := lit_inUnit 0 true 1 (by norm_num) (by norm_num)
  have hscore : ∃ q : ℚ, stdMax 0.0 (clamp01 (finite q)) =
      stdMax 0.0 (clamp01 c.ml.cascadeProbability) := by
    by_cases hx : c.ml.cascadeProbability = nan
    · refine ⟨0, ?_⟩
      rw [hx, clamp01_nan, stdMax_nan, clamp01_self 0 le_rfl zero_le_one, stdMax_zero _ hzero]
    · obtain ⟨q, hq⟩ := clamp01_replaced _ hx
      exact ⟨q, by rw [hq]⟩
  obtain ⟨q, hq⟩ := hscore
  have hml : mlScore { c.ml with cascadeProbability := finite q } = mlScore c.ml := by
    unfold mlScore
    simp only [hq]
  refine ⟨q, rawScore_congr _ _ rfl ?_⟩
  show (_ + _ + mlScore { c.ml with cascadeProbability := finite q }) / 3.0 = _
  rw [hml]
  rfl

theorem instability_replaced :
    ∃ q : ℚ, rawScore (subScores (setField c (finite q) .bookInstability)) =
      rawScore (subScores c) := by
  have hworst : InUnit (stdMax (stdMax (subScores c).spread (subScores c).data)
      (subScores c).vpin) :=
    stdMax_inUnit _ _ (stdMax_inUnit _ _ (spreadScore_inUnit _) (Or.inl (dataScore_inUnit c)))
      (vpinScore_cases _)
  have hscore : ∃ q : ℚ, stdMax (stdMax (stdMax (subScores c).spread (subScores c).data)
      (subScores c).vpin) (clamp01 (finite q)) = hardMax (subScores c) := by
    by_cases hx : c.features.microstructure.bookInstability = nan
    · refine ⟨0, ?_⟩
      have hnan : (subScores c).instability = nan := by
        show clamp01 c.features.microstructure.bookInstability = nan
        rw [hx, clamp01_nan]
      rw [hardMax, hnan, stdMax_nan, clamp01_self 0 le_rfl zero_le_one, stdMax_zero _ hworst]
    · obtain ⟨q, hq⟩ := clamp01_replaced _ hx
      exact ⟨q, by rw [hq]; rfl⟩
  obtain ⟨q, hq⟩ := hscore
  exact ⟨q, rawScore_congr _ _ hq rfl⟩

theorem vpin_replaced (hclean : ¬ (c.features.microstructure.vpinValid = true ∧
      c.features.microstructure.vpinToxic = false ∧ c.features.microstructure.vpin = nan)) :
    ∃ q : ℚ, rawScore (subScores (setField c (finite q) .vpin)) = rawScore (subScores c) := by
  have hscore : ∃ q : ℚ, vpinScore { c.features.microstructure with vpin := finite q } =
      vpinScore c.features.microstructure := by
    cases hv : c.features.microstructure.vpinValid with
    | false => exact ⟨0, by simp [vpinScore, hv]⟩
    | true =>
      cases ht : c.features.microstructure.vpinToxic with
      | true => exact ⟨0, by simp [vpinScore, hv, ht]⟩
      | false =>
        obtain ⟨p, hp⟩ := clamp01_replaced _
          (vpin_linear c.features.microstructure.vpin (fun hx => hclean ⟨hv, ht, hx⟩))
        have hback : (p * 0.4 + 0.4 - 0.4) / 0.4 = p := by
          rw [add_sub_cancel_right]
          exact mul_div_cancel_right₀ p (by norm_num)
        refine ⟨p * 0.4 + 0.4, ?_⟩
        simp only [vpinScore, hv, ht, if_true, Bool.false_eq_true, if_false]
        rw [vpin_linear_finite, hback, hp]
  obtain ⟨q, hq⟩ := hscore
  refine ⟨q, rawScore_congr _ _ ?_ rfl⟩
  show stdMax (stdMax _ (vpinScore { c.features.microstructure with vpin := finite q })) _ = _
  rw [hq]
  rfl

end Reports

section Runs

def Good (e : Engine Double) : Prop := ∀ symbol, InUnit (e.states symbol).emaScore

theorem good_initial : Good (initialEngine : Engine Double) :=
  fun _ => lit_inUnit 5 true 1 (by norm_num) (by norm_num)

variable (cfg : UncertaintyConfig Double) (e : Engine Double) (c : Call Double)

theorem good_assess (he : Good e) (hc : Clean cfg c) : Good (assess cfg e c).1 := by
  intro symbol
  show InUnit (Function.update e.states c.features.symbol _ symbol).emaScore
  by_cases hs : symbol = c.features.symbol
  · rw [hs, Function.update_self, stateAfter_ema]
    exact emaAfter_inUnit cfg _ _ hc.1 (he _) ((rawScore_inUnit_iff c).mpr hc.2.2)
  · rw [Function.update_of_ne hs]
    exact he symbol

/-- Assessments of other symbols do not look at the state of this one. -/
theorem outputs_apart (symbol : Symbol) (e d : Engine Double)
    (h : ∀ s, s ≠ symbol → e.states s = d.states s) (calls : List (Call Double)) :
    (PairedRuns.outputs (assess cfg) e calls).filter (fun out => out.symbol ≠ symbol) =
      (PairedRuns.outputs (assess cfg) d calls).filter (fun out => out.symbol ≠ symbol) := by
  induction calls generalizing e d with
  | nil => rfl
  | cons c calls ih =>
    have hnext : ∀ s, s ≠ symbol →
        (assess cfg e c).1.states s = (assess cfg d c).1.states s := by
      intro s hs
      show Function.update e.states _ _ s = Function.update d.states _ _ s
      by_cases hc : s = c.features.symbol
      · rw [hc, Function.update_self, Function.update_self, h _ (hc ▸ hs)]
      · rw [Function.update_of_ne hc, Function.update_of_ne hc, h s hs]
    have hout : c.features.symbol ≠ symbol → (assess cfg e c).2 = (assess cfg d c).2 := by
      intro hs
      show reportOf cfg c (stateAfter cfg c (e.states c.features.symbol)) =
        reportOf cfg c (stateAfter cfg c (d.states c.features.symbol))
      rw [h _ hs]
    have hname : ∀ x : Engine Double, (assess cfg x c).2.symbol = c.features.symbol := fun _ => rfl
    rw [PairedRuns.outputs, PairedRuns.outputs, List.filter_cons, List.filter_cons, hname, hname,
      ih _ _ hnext]
    by_cases hs : c.features.symbol = symbol
    · simp [hs]
    · simp [hs, hout hs]

theorem guarded_of_clean
    (after : List (Call Double)) (he : Good e) (hc : Clean cfg c) : Guarded cfg e c after := by
  have hraw := (rawScore_inUnit_iff c).mpr hc.2.2
  have hpersistent : InUnit (assess cfg e c).2.persistentScore := by
    show InUnit (stateAfter cfg c (e.states c.features.symbol)).emaScore
    rw [stateAfter_ema]
    exact emaAfter_inUnit cfg _ _ hc.1 (he _) hraw
  obtain ⟨r, hr, -, -⟩ := (inUnit_iff _).mp hraw
  obtain ⟨p, hp, -, -⟩ := (inUnit_iff _).mp hpersistent
  exact
    { dimensions := (dimensions_inUnit_iff cfg e c).mpr ((vpinScore_inUnit_iff _).mpr hc.2.1)
      aggregate := hraw
      persistent := hpersistent
      noSafer := by
        intro f hf
        have hraise := fun q : ℚ => noSafer_of_raw cfg e c (setField c (finite q) f)
          (by cases f <;> rfl)
        cases f with
        | spreadBps => exact ⟨_, hraise _ (spread_replaced c hf)⟩
        | vpin => exact (vpin_replaced c hc.2.1).imp hraise
        | bookInstability => exact (instability_replaced c).imp hraise
        | regimeConfidence => exact ⟨_, hraise _ (regime_replaced c hf)⟩
        | fragility => exact (fragility_replaced c hc.2.2).imp hraise
        | cascadeProbability => exact (cascade_replaced c).imp hraise
      finiteScores := by
        intro _
        have hspike : (assess cfg e c).2.spikeScore =
            stdMax 0.0 ((assess cfg e c).2.aggregateScore - (assess cfg e c).2.persistentScore) :=
          rfl
        have hagg : (assess cfg e c).2.aggregateScore = finite r := hr
        rw [hspike, hagg, hp, finite_sub, stdMax]
        refine ⟨rfl, rfl, ?_⟩
        split_ifs <;> rfl
      apart := outputs_apart cfg _ _ _ (fun s hs => Function.update_of_ne hs _ _) after }

theorem clean_of_guarded
    (after : List (Call Double)) (h : Guarded cfg e c after) : Clean cfg c := by
  refine ⟨fun hn => ?_, ?_, ?_⟩
  · have hp : InUnit (stateAfter cfg c (e.states c.features.symbol)).emaScore := h.persistent
    rw [stateAfter_ema, emaAfter_nan cfg _ _ hn] at hp
    exact not_inUnit_nan hp
  · exact (vpinScore_inUnit_iff _).mp ((dimensions_inUnit_iff cfg e c).mp h.dimensions)
  · exact (rawScore_inUnit_iff c).mp h.aggregate

theorem guardedRun_iff (he : Good e)
    (calls : List (Call Double)) : GuardedRun cfg e calls ↔ ∀ c ∈ calls, Clean cfg c := by
  induction calls generalizing e with
  | nil => simp [GuardedRun]
  | cons c calls ih =>
    rw [GuardedRun, List.forall_mem_cons]
    constructor
    · rintro ⟨hc, hrest⟩
      have hclean := clean_of_guarded cfg e c calls hc
      exact ⟨hclean, (ih _ (good_assess cfg e c he hclean)).mp hrest⟩
    · rintro ⟨hclean, hrest⟩
      exact ⟨guarded_of_clean cfg e c calls he hclean,
        (ih _ (good_assess cfg e c he hclean)).mpr hrest⟩

/-- A run is as it should be exactly if none of its values that are not numbers is one
that the clamps let through. -/
theorem garbage_guarded_iff (cfg : UncertaintyConfig Double) (calls : List (Call Double)) :
    GuardedRun cfg initialEngine calls ↔ ∀ c ∈ calls, Clean cfg c :=
  guardedRun_iff cfg initialEngine good_initial calls

/-- A fragility that is not a number looks like the safest state there is, whatever the
other signals and the level before. -/
theorem fragility_nan_low
    (hv : c.world.fragility.valid = true) (hx : c.world.fragility.value = nan) :
    (assess cfg e c).2.level = .low ∧ (assess cfg e c).2.sizeMultiplier = 1.0 := by
  obtain ⟨h, hh, -, -⟩ := (inUnit_iff _).mp (hardMax_inUnit c)
  have hraw : rawScore (subScores c) = nan := by
    have hsoft : softAvg (subScores c) = nan := by
      obtain ⟨r, hr, -, -⟩ := (inUnit_iff _).mp (regimeScore_inUnit c.regime)
      show (regimeScore c.regime + worldScore c.world + mlScore c.ml) / 3.0 = nan
      rw [worldScore_nan c.world hv hx, hr]
      rfl
    rw [rawScore, hsoft, hh]
    rfl
  have hle : ∀ x : Double, ¬ x ≤ nan := fun x h =>
    absurd (number_of_le h).2 (by simp [isNumber])
  have hlt : ∀ x : Double, ¬ x < nan := fun x h =>
    absurd (number_of_lt h).2 (by simp [isNumber])
  have hlevel : (assess cfg e c).2.level = .low := by
    show levelAfter cfg (rawScore (subScores c)) _ = .low
    simp [hraw, levelAfter, levelOf, hle, hlt]
  refine ⟨hlevel, ?_⟩
  show sizeMultiplierOf cfg (assess cfg e c).2.level = 1.0
  rw [hlevel]
  rfl

end Runs

section Counterexample

def defaults : UncertaintyConfig Double :=
  ⟨0.25, 0.50, 0.75, 0.05, 0.15, 0.10, 2.5, 3, 60000000000⟩

def worstFeatures : FeatureSnapshot Double :=
  { defaultFeatures "BTCUSDT" with
    microstructure := { defaultMicrostructure with
      spreadBps := 25.0
      spreadValid := true
      vpinToxic := true
      vpinValid := true } }

def worstCall (fragility : Double) : Call Double :=
  ⟨worstFeatures, ⟨0.0⟩, ⟨⟨fragility, true⟩⟩, neutralMl, 1, 1⟩

def afterNan : Engine Double := (assess defaults initialEngine (worstCall nan)).1

/-- The worst signals with a fragility that is not a number are rated as the safest
state, and the average of the symbol is lost. -/
theorem fragility_nan_unsafe : ¬ GuardedRun defaults initialEngine [worstCall nan, worstCall 0.0] ∧
    (assess defaults initialEngine (worstCall nan)).2.level = .low ∧
    (assess defaults initialEngine (worstCall nan)).2.sizeMultiplier = 1.0 ∧
    (assess defaults initialEngine (worstCall 0.0)).2.level = .extreme ∧
    (assess defaults afterNan (worstCall 0.0)).2.persistentScore = nan := by
  refine ⟨fun h => (rawScore_inUnit_iff _).mp h.1.aggregate ⟨rfl, rfl⟩, ?_, ?_, ?_, ?_⟩ <;>
    decide +kernel

end Counterexample

end TB.GarbageInputs
