import TomorrowBot.DoubleValues
import TomorrowBot.SetupLifecycle
import Mathlib.Tactic.Linarith
import Mathlib.Tactic.SplitIfs

/-!
# Which setups are well formed

The four detectors end in the same arithmetic for the stop and the target. One
of them asks whether the range is finite and positive, none whether the prices
that follow from it are.
-/

set_option autoImplicit false

namespace TB.SetupLifecycle
open TB.CommonTypes TB.TradingContext TB.StrategyTypes TB.DoubleValues Double

def stopMult {F : Type} (cfg : ScalpStrategyConfig F) : SetupType → F
  | .momentumContinuation => cfg.atrStopMultMomentum
  | .retest => cfg.atrStopMultRetest
  | .pullbackInMicrotrend => cfg.atrStopMultPullback
  | .rejection => cfg.atrStopMultRejection

def targetMult {F : Type} (cfg : ScalpStrategyConfig F) : SetupType → F
  | .momentumContinuation => cfg.atrTargetMultMomentum
  | .retest => cfg.atrTargetMultRetest
  | .pullbackInMicrotrend => cfg.atrTargetMultPullback
  | .rejection => cfg.atrTargetMultRejection

structure Numeric (cfg : ScalpStrategyConfig Double) : Prop where
  stops : ∀ type, ∃ a : ℚ, stopMult cfg type = finite a ∧ 0 < a
  targets : ∀ type, ∃ b : ℚ, targetMult cfg type = finite b ∧ 0 < b
  base : ∃ q : ℚ, cfg.baseConviction = finite q ∧ 0 < q
  cap : ∃ q : ℚ, cfg.maxConviction = finite q ∧ 0 < q
  trendBonus : ∃ q, cfg.trendBonus = finite q
  imbalanceWeight : ∃ q, cfg.imbStrengthWeight = finite q
  bayesianWeight : ∃ q, cfg.bayesianConfidenceWeight = finite q
  pocBonus : ∃ q, cfg.pocCloseBonus = finite q
  pocPenalty : ∃ q, cfg.pocFarPenalty = finite q

def LevelsInOrder (side : Side) (stop entry target : Double) : Prop :=
  (isfinite stop = true ∧ isfinite entry = true ∧ isfinite target = true) ∧ 0 < entry ∧
    match side with
    | .buy => 0 < stop ∧ stop < entry ∧ entry < target
    | .sell => 0 < target ∧ target < entry ∧ entry < stop

def Capped (cfg : ScalpStrategyConfig Double) (confidence : Double) : Prop :=
  isfinite confidence = true ∧ confidence ≤ cfg.maxConviction

structure WellFormed (cfg : ScalpStrategyConfig Double) (ctx : StrategyContext Double)
    (s : Setup Double) : Prop where
  levels : LevelsInOrder s.side s.stopReference s.entryReference s.tpReference
  confidence : Capped cfg s.confidence
  calm : ctx.uncertainty ≠ .extreme ∧ ctx.worldState ≠ .disrupted
  eager : s.type = .momentumContinuation ∨ s.type = .pullbackInMicrotrend →
    ctx.uncertainty ≠ .high ∧ ctx.regime ≠ .ranging

def RatiosDefined (cfg : ScalpStrategyConfig Double) (ctx : StrategyContext Double) : Prop :=
  stdAbs ctx.features.microstructure.bookImbalance5 / cfg.imbalanceStrengthDivisor ≠ nan ∧
    ctx.features.microstructure.spreadBps / cfg.maxSpreadBpsForEntry ≠ nan

structure Usable (cfg : ScalpStrategyConfig Double) (ctx : StrategyContext Double)
    (type : SetupType) (side : Side) : Prop where
  mid : isfinite ctx.features.microstructure.midPrice = true
  range : isfinite ctx.features.technical.atr14 = true ∧ 0 < ctx.features.technical.atr14
  reach : ctx.features.technical.atr14 *
      (match side with
        | .buy => stopMult cfg type
        | .sell => targetMult cfg type) < ctx.features.microstructure.midPrice
  ratios : type = .momentumContinuation → RatiosDefined cfg ctx

section Values

theorem lit_finite (m : ℕ) (s : Bool) (e : ℕ) :
    (OfScientific.ofScientific m s e : Double) = finite (OfScientific.ofScientific m s e) := rfl

variable (x : Double)

theorem nan_add : nan + x = nan := rfl

theorem add_nan : x + nan = nan := by
  cases x <;> rfl

theorem sub_nan : x - nan = nan := by
  cases x <;> rfl

theorem nan_mul : nan * x = nan := rfl

theorem mul_nan : x * nan = nan := by
  cases x <;> rfl

theorem not_lt_nan : ¬ x < nan := by
  intro h
  have hnumber := (number_of_lt h).2
  cases hnumber

theorem not_nan_lt : ¬ nan < x := by
  intro h
  have hnumber := (number_of_lt h).1
  cases hnumber

theorem stdMin_nan : stdMin nan x = nan := if_neg (not_lt_nan x)

theorem stdClamp_nan (lo hi : Double) : stdClamp nan lo hi = nan := by
  unfold stdClamp
  rw [if_neg (not_nan_lt lo), if_neg (not_lt_nan hi)]

theorem stdAbs_finite (q : ℚ) : stdAbs (finite q) = finite |q| := by
  have hzero : (0 : Double) = finite 0 := rfl
  unfold stdAbs
  rw [hzero]
  simp only [finite_lt]
  split_ifs with h
  · rw [abs_of_neg h]
    rfl
  · rw [abs_of_nonneg (not_lt.mp h)]

theorem stdClamp_number {x : Double} (hx : x ≠ nan) (lo hi : ℚ) :
    ∃ q, stdClamp x (finite lo) (finite hi) = finite q := by
  unfold stdClamp
  cases x with
  | nan => exact absurd rfl hx
  | negInf => exact ⟨lo, if_pos ⟨rfl, rfl⟩⟩
  | finite q =>
    split_ifs
    · exact ⟨lo, rfl⟩
    · exact ⟨hi, rfl⟩
    · exact ⟨q, rfl⟩
  | posInf =>
    have hlow : ¬ posInf < finite lo := fun h => Bool.noConfusion h.1
    rw [if_neg hlow]
    exact ⟨hi, if_pos ⟨rfl, rfl⟩⟩

theorem stdClamp_finite (x lo hi : ℚ) :
    stdClamp (finite x) (finite lo) (finite hi) =
      finite (if x < lo then lo else if hi < x then hi else x) := by
  unfold stdClamp
  simp only [finite_lt]
  split_ifs <;> rfl

end Values

section Levels
variable {mid atr : Double} {a b : ℚ}

theorem zero_finite : (0 : Double) = finite 0 := rfl

/-- Stop and target at multiples of the range are in order where the lower one is positive. -/
theorem levels_buy_iff (ha : 0 < a) (hb : 0 < b) (hmid : ¬ mid ≤ 0) :
    LevelsInOrder .buy (mid - atr * finite a) mid (mid + atr * finite b) ↔
      isfinite mid = true ∧ (isfinite atr = true ∧ 0 < atr) ∧ atr * finite a < mid := by
  unfold LevelsInOrder
  cases mid with
  | finite m =>
    rw [zero_finite, finite_le, not_le] at hmid
    cases atr with
    | finite r =>
      rw [finite_mul, finite_mul, finite_sub, finite_add, zero_finite]
      simp only [isfinite, isFinite, finite_lt, true_and, and_self]
      constructor
      · rintro ⟨-, hstop, hbelow, -⟩
        have hr : 0 < r := (mul_pos_iff_of_pos_right ha).mp (by linarith)
        exact ⟨hr, by linarith⟩
      · rintro ⟨hr, hreach⟩
        have hra := mul_pos hr ha
        have hrb := mul_pos hr hb
        exact ⟨hmid, by linarith, by linarith, by linarith⟩
    | nan => simp [isfinite, isFinite, nan_mul, sub_nan]
    | negInf =>
      refine iff_of_false ?_ fun h => Bool.noConfusion h.2.1.1
      rintro ⟨⟨hstop, -⟩, -⟩
      have hmul : negInf * finite a = negInf := by
        show infSigned (-a) = negInf
        simp [infSigned, ha, ha.le]
      rw [hmul] at hstop
      cases hstop
    | posInf =>
      refine iff_of_false ?_ fun h => Bool.noConfusion h.2.1.1
      rintro ⟨⟨hstop, -⟩, -⟩
      have hmul : posInf * finite a = posInf := if_pos ha
      rw [hmul] at hstop
      cases hstop
  | nan | negInf | posInf =>
    exact iff_of_false (fun h => Bool.noConfusion h.1.2.1) fun h => Bool.noConfusion h.1

theorem levels_swap (stop target : Double) :
    LevelsInOrder .sell stop mid target ↔ LevelsInOrder .buy target mid stop := by
  unfold LevelsInOrder
  constructor
  · rintro ⟨⟨hstop, hmid, htarget⟩, hrest⟩
    exact ⟨⟨htarget, hmid, hstop⟩, hrest⟩
  · rintro ⟨⟨htarget, hmid, hstop⟩, hrest⟩
    exact ⟨⟨hstop, hmid, htarget⟩, hrest⟩

theorem levels_sell_iff (ha : 0 < a) (hb : 0 < b) (hmid : ¬ mid ≤ 0) :
    LevelsInOrder .sell (mid + atr * finite a) mid (mid - atr * finite b) ↔
      isfinite mid = true ∧ (isfinite atr = true ∧ 0 < atr) ∧ atr * finite b < mid := by
  rw [levels_swap]
  exact levels_buy_iff hb ha hmid

end Levels

section Fusion

def Likely (s : SignalLikelihood Double) : Prop :=
  ∃ a b : ℚ, s.lrBullish = finite a ∧ s.lrBearish = finite b ∧ 0 < a ∧ 0 < b

def AllLikely (signals : List (SignalLikelihood Double)) : Prop := ∀ s ∈ signals, Likely s

theorem likely_lit (m n : ℕ) (s t : Bool) (e f : ℕ)
    (ha : (0 : ℚ) < OfScientific.ofScientific m s e)
    (hb : (0 : ℚ) < OfScientific.ofScientific n t f) :
    Likely ⟨OfScientific.ofScientific m s e, OfScientific.ofScientific n t f⟩ :=
  ⟨_, _, rfl, rfl, ha, hb⟩

theorem allLikely_nil : AllLikely [] := fun _ h => absurd h List.not_mem_nil

theorem allLikely_append {xs ys : List (SignalLikelihood Double)} (hx : AllLikely xs)
    (hy : AllLikely ys) : AllLikely (xs ++ ys) :=
  fun s h => (List.mem_append.mp h).elim (hx s) (hy s)

theorem allLikely_one {s : SignalLikelihood Double} (h : Likely s) : AllLikely [s] := by
  intro t ht
  rwa [List.mem_singleton.mp ht]

theorem allLikely_ite {c : Prop} [Decidable c] {xs ys : List (SignalLikelihood Double)}
    (hx : AllLikely xs) (hy : AllLikely ys) : AllLikely (if c then xs else ys) := by
  split_ifs
  · exact hx
  · exact hy

theorem allLikely_pushIf (c : Bool) {x y : Double} (h : Likely ⟨x, y⟩) :
    AllLikely (pushIf c x y) :=
  allLikely_ite (allLikely_one h) allLikely_nil

theorem allLikely_trend (valid : Bool) (trend : ℤ) {x y : Double} (h : Likely ⟨x, y⟩)
    (hback : Likely ⟨y, x⟩) : AllLikely (trendSignals valid trend x y) :=
  allLikely_append (allLikely_pushIf _ h) (allLikely_pushIf _ hback)

variable (tech : TechnicalFeatures Double)

theorem stochastic_likely : AllLikely (if tech.stochValid then
      (if tech.stochOversold then [⟨1.5, 0.7⟩] else pushIf tech.stochOverbought 0.7 1.5) ++
      pushIf tech.stochBullCross 1.8 0.6 ++ pushIf tech.stochBearCross 0.6 1.8
    else []) := by
  refine allLikely_ite (allLikely_append (allLikely_append (allLikely_ite (allLikely_one ?_)
    (allLikely_pushIf _ ?_)) (allLikely_pushIf _ ?_)) (allLikely_pushIf _ ?_)) allLikely_nil
  all_goals refine likely_lit _ _ _ _ _ _ ?_ ?_ <;> norm_num

variable (mid : Double)

theorem vwap_likely : AllLikely (if tech.avwapValid then
      pushIf (less 0.0 tech.avwapPriceVsVwapBps) 1.4 0.7 ++
      pushIf (less tech.avwapPriceVsVwapBps 0.0) 0.7 1.4 ++
      (if tech.avwapUpper2sigma < mid then [⟨0.5, 1.8⟩]
      else pushIf (less mid tech.avwapLower2sigma) 1.8 0.5)
    else []) := by
  refine allLikely_ite (allLikely_append (allLikely_append (allLikely_pushIf _ ?_)
    (allLikely_pushIf _ ?_)) (allLikely_ite (allLikely_one ?_) (allLikely_pushIf _ ?_)))
    allLikely_nil
  all_goals refine likely_lit _ _ _ _ _ _ ?_ ?_ <;> norm_num

theorem allLikely_two {valid a b : Bool} {x y z w : Double} (h : Likely ⟨x, y⟩)
    (k : Likely ⟨z, w⟩) : AllLikely (if valid then pushIf a x y ++ pushIf b z w else []) :=
  allLikely_ite (allLikely_append (allLikely_pushIf a h) (allLikely_pushIf b k)) allLikely_nil

theorem indicatorSignals_likely : AllLikely (indicatorSignals tech mid) := by
  unfold indicatorSignals
  refine allLikely_append (allLikely_append (allLikely_append (allLikely_append (allLikely_append
    (allLikely_append (allLikely_append (allLikely_append (allLikely_append
      (allLikely_trend _ _ ?_ ?_) (allLikely_trend _ _ ?_ ?_)) (stochastic_likely tech))
      (vwap_likely tech mid)) ?_) ?_) (allLikely_two ?_ ?_)) (allLikely_trend _ _ ?_ ?_))
      (allLikely_pushIf _ ?_)) (allLikely_two ?_ ?_)
  case refine_5 | refine_6 =>
    refine allLikely_ite (allLikely_append (allLikely_append (allLikely_append
      (allLikely_pushIf _ ?_) (allLikely_pushIf _ ?_)) (allLikely_pushIf _ ?_))
      (allLikely_pushIf _ ?_)) allLikely_nil
    all_goals refine likely_lit _ _ _ _ _ _ ?_ ?_ <;> norm_num
  all_goals refine likely_lit _ _ _ _ _ _ ?_ ?_ <;> norm_num

theorem finite_pos_div {a b : ℚ} (hb : 0 < b) : finite a / finite b = finite (a / b) :=
  finite_div a b hb.ne'

theorem updateOdds_pos {q : ℚ} (hq : 0 < q) {s : SignalLikelihood Double} (hs : Likely s) :
    ∃ r : ℚ, updateOdds (finite q) s = finite r ∧ 0 < r := by
  obtain ⟨a, b, ha, hb, hapos, hbpos⟩ := hs
  have hzero : ((0.0 : Double)) = finite 0 := lit_zero
  have hguard : ¬ (s.lrBullish ≤ 0.0 ∨ s.lrBearish ≤ 0.0) := by
    rw [ha, hb, hzero, finite_le, finite_le]
    exact not_or.mpr ⟨not_le.mpr hapos, not_le.mpr hbpos⟩
  unfold updateOdds
  rw [if_neg hguard, ha, hb, finite_pos_div hbpos, lit_finite, lit_finite, stdClamp_finite,
    finite_mul]
  refine ⟨_, rfl, mul_pos hq ?_⟩
  split_ifs
  · norm_num
  · norm_num
  · exact div_pos hapos hbpos

theorem odds_pos {signals : List (SignalLikelihood Double)} (h : AllLikely signals) {q : ℚ}
    (hq : 0 < q) : ∃ r : ℚ, signals.foldl updateOdds (finite q) = finite r ∧ 0 < r := by
  induction signals generalizing q with
  | nil => exact ⟨q, rfl, hq⟩
  | cons s signals ih =>
    obtain ⟨r, hr, hpos⟩ := updateOdds_pos hq (h s List.mem_cons_self)
    rw [List.foldl_cons, hr]
    exact ih (fun t ht => h t (List.mem_cons_of_mem s ht)) hpos

theorem filter_confidence : ∃ c, (runBayesianIndicatorFilter tech mid).confidence = finite c := by
  unfold runBayesianIndicatorFilter combineSignalsBayesian
  split_ifs with hempty
  · exact ⟨_, rfl⟩
  · have hprior : stdClamp (0.5 : Double) 0.01 0.99 /
        stdMax (1.0 - stdClamp (0.5 : Double) 0.01 0.99) 1e-9 = finite 1 := by
      rw [lit_finite, lit_finite, lit_finite, stdClamp_finite, lit_finite, finite_sub, lit_finite,
        stdMax_finite, finite_div _ _ (by norm_num)]
      norm_num
    obtain ⟨r, hr, hpos⟩ := odds_pos (indicatorSignals_likely tech mid) one_pos
    have hden : (1.0 : ℚ) + r ≠ 0 := by
      norm_num
      linarith
    simp only [hprior, hr]
    simp only [lit_finite, finite_add, finite_div _ _ hden, stdClamp_finite, finite_sub,
      stdMin_finite, finite_mul, finite.injEq, exists_eq']

end Fusion

section Confidence
variable {cfg : ScalpStrategyConfig Double} {ctx : StrategyContext Double}

theorem capped_finite (hcfg : Numeric cfg) (q : ℚ) : Capped cfg (stdMin (finite q) cfg.maxConviction) := by
  obtain ⟨cap, hcap, -⟩ := hcfg.cap
  unfold Capped
  rw [hcap, stdMin_finite, finite_le]
  exact ⟨rfl, min_le_right _ _⟩

theorem not_capped_nan (cfg : ScalpStrategyConfig Double) :
    ¬ Capped cfg (stdMin nan cfg.maxConviction) := by
  rw [stdMin_nan]
  exact fun h => Bool.noConfusion h.1

theorem strength_cases (q : ℚ) (divisor : Double) :
    (stdAbs (finite q) / divisor = nan ∧ stdMin (stdAbs (finite q) / divisor) 1.0 = nan) ∨
      (stdAbs (finite q) / divisor ≠ nan ∧
        ∃ r, stdMin (stdAbs (finite q) / divisor) 1.0 = finite r) := by
  have hone : (1.0 : Double) = finite 1 := lit_one
  have hinf : stdMin posInf (1.0 : Double) = finite 1 := by
    rw [hone]
    exact if_pos ⟨rfl, rfl⟩
  rw [stdAbs_finite]
  cases divisor with
  | nan => exact Or.inl ⟨rfl, stdMin_nan _⟩
  | negInf | posInf =>
    right
    refine ⟨Double.noConfusion, |q| * 0 ⊓ 1, ?_⟩
    rw [hone]
    exact stdMin_finite (|q| * 0) 1
  | finite d =>
    by_cases hd : d = 0
    · have hdiv : finite |q| / finite d = infSigned |q| := by
        show mul (finite |q|) (inv (finite d)) = _
        rw [inv, if_pos hd]
        rfl
      rw [hdiv]
      by_cases hq : 0 < |q|
      · right
        rw [infSigned, if_pos hq]
        exact ⟨Double.noConfusion, 1, hinf⟩
      · left
        have hzero : infSigned |q| = nan := by
          rw [infSigned, if_neg hq, if_neg (not_lt.mpr (abs_nonneg q))]
        rw [hzero]
        exact ⟨rfl, stdMin_nan _⟩
    · right
      rw [finite_div _ _ hd, hone, stdMin_finite]
      exact ⟨Double.noConfusion, _, rfl⟩

theorem factor_cases (ratio : Double) :
    (ratio = nan ∧ stdClamp (1.0 - ratio) 0.0 1.0 = nan) ∨
      (ratio ≠ nan ∧ ∃ r, stdClamp (1.0 - ratio) 0.0 1.0 = finite r) := by
  have hone : (1.0 : Double) = finite 1 := lit_one
  have hzero : (0.0 : Double) = finite 0 := lit_zero
  rw [hone, hzero]
  cases ratio with
  | nan => exact Or.inl ⟨rfl, stdClamp_nan _ _⟩
  | negInf => exact Or.inr ⟨Double.noConfusion, stdClamp_number (x := posInf) Double.noConfusion _ _⟩
  | posInf => exact Or.inr ⟨Double.noConfusion, stdClamp_number (x := negInf) Double.noConfusion _ _⟩
  | finite q =>
    rw [finite_sub]
    exact Or.inr ⟨Double.noConfusion, stdClamp_number (x := finite (1 - q)) Double.noConfusion _ _⟩

def withBonuses (cfg : ScalpStrategyConfig Double) (ctx : StrategyContext Double) (buy : Bool)
    (confidence : Double) : Double :=
  let confidence := if trendAligned ctx buy then confidence + cfg.trendBonus else confidence
  let pocDist := stdAbs ctx.features.technical.vpPriceVsPoc
  if ctx.features.technical.vpValid && less 0.0 ctx.features.microstructure.midPrice then
    if pocDist < cfg.pocCloseDistance then confidence + cfg.pocCloseBonus
    else if cfg.pocFarDistance < pocDist then confidence - cfg.pocFarPenalty
    else confidence
  else confidence

theorem bonuses_nan (cfg : ScalpStrategyConfig Double) (ctx : StrategyContext Double) (buy : Bool) :
    withBonuses cfg ctx buy nan = nan := by
  unfold withBonuses
  dsimp only
  split_ifs <;> rfl

theorem bonuses_finite (hcfg : Numeric cfg) (ctx : StrategyContext Double) (buy : Bool) (q : ℚ) :
    ∃ r, withBonuses cfg ctx buy (finite q) = finite r := by
  obtain ⟨t, ht⟩ := hcfg.trendBonus
  obtain ⟨c, hc⟩ := hcfg.pocBonus
  obtain ⟨f, hf⟩ := hcfg.pocPenalty
  unfold withBonuses
  simp only [ht, hc, hf, finite_add]
  split_ifs <;> exact ⟨_, rfl⟩

theorem momentumConfidence_eq (buy : Bool) (bayes : BayesianSignalScore Double) :
    momentumConfidence cfg ctx buy bayes =
      stdMin (withBonuses cfg ctx buy (cfg.baseConviction +
        stdMin (stdAbs ctx.features.microstructure.bookImbalance5 / cfg.imbalanceStrengthDivisor)
            1.0 *
          stdClamp (1.0 - ctx.features.microstructure.spreadBps / cfg.maxSpreadBpsForEntry) 0.0
            1.0 * cfg.imbStrengthWeight +
        bayes.confidence * cfg.bayesianConfidenceWeight)) cfg.maxConviction := rfl

/-- The confidence of a momentum setup is a number exactly when both ratios are. -/
theorem momentum_capped_iff (hcfg : Numeric cfg) (buy : Bool) {bayes : BayesianSignalScore Double}
    (hbayes : ∃ c, bayes.confidence = finite c)
    (himb : isfinite ctx.features.microstructure.bookImbalance5 = true) :
    Capped cfg (momentumConfidence cfg ctx buy bayes) ↔ RatiosDefined cfg ctx := by
  obtain ⟨c, hc⟩ := hbayes
  obtain ⟨q, hq⟩ := (isfinite_iff _).mp himb
  obtain ⟨base, hbase, -⟩ := hcfg.base
  obtain ⟨w, hw⟩ := hcfg.imbalanceWeight
  obtain ⟨v, hv⟩ := hcfg.bayesianWeight
  rw [momentumConfidence_eq, hbase, hw, hv, hc, hq]
  unfold RatiosDefined
  rw [hq]
  rcases strength_cases q cfg.imbalanceStrengthDivisor with ⟨hnan, hs⟩ | ⟨hnum, r, hs⟩
  · rw [hs, nan_mul, nan_mul, add_nan, nan_add, bonuses_nan]
    exact iff_of_false (not_capped_nan cfg) fun h => h.1 hnan
  · rcases factor_cases (ctx.features.microstructure.spreadBps / cfg.maxSpreadBpsForEntry) with
      ⟨hnan, hf⟩ | ⟨hfnum, t, hf⟩
    · rw [hf, mul_nan, nan_mul, add_nan, nan_add, bonuses_nan]
      exact iff_of_false (not_capped_nan cfg) fun h => h.2 hnan
    · rw [hs, hf]
      simp only [finite_mul, finite_add]
      obtain ⟨u, hu⟩ := bonuses_finite hcfg ctx buy (base + r * t * w + c * v)
      rw [hu]
      exact iff_of_true (capped_finite hcfg u) ⟨hnum, hfnum⟩

end Confidence

section Detection

def Yields (P : Setup Double → Prop) (o : Option (Setup Double)) : Prop := ∀ s, o = some s → P s

variable {P Q : Setup Double → Prop} {o : Option (Setup Double)}

theorem yields_none : Yields P none := fun _ h => nomatch h

theorem yields_some {s : Setup Double} (h : P s) : Yields P (some s) := by
  rintro t ⟨⟩
  exact h

theorem yields_guard {c : Prop} [Decidable c] (h : ¬ c → Yields P o) :
    Yields P (if c then none else o) := by
  split_ifs with hc
  · exact yields_none
  · exact h hc

theorem yields_switch {c : Prop} [Decidable c] (h : c → Yields P o) :
    Yields P (if c then o else none) := by
  split_ifs with hc
  · exact h hc
  · exact yields_none

theorem yields_orElse {f : Unit → Option (Setup Double)} (ho : Yields P o) (hf : Yields P (f ())) :
    Yields P (o.orElse f) := by
  cases o with
  | none => exact hf
  | some s => exact ho

theorem yields_mono (h : ∀ s, P s → Q s) (ho : Yields P o) : Yields Q o :=
  fun s hs => h s (ho s hs)

variable {cfg : ScalpStrategyConfig Double} (hcfg : Numeric cfg) (ctx : StrategyContext Double)
  (id : String) (nowNs : ℤ)

structure Judged (cfg : ScalpStrategyConfig Double) (ctx : StrategyContext Double)
    (s : Setup Double) : Prop where
  levels : LevelsInOrder s.side s.stopReference s.entryReference s.tpReference ↔
    isfinite ctx.features.microstructure.midPrice = true ∧
      (isfinite ctx.features.technical.atr14 = true ∧ 0 < ctx.features.technical.atr14) ∧
      ctx.features.technical.atr14 *
        (match s.side with
          | .buy => stopMult cfg s.type
          | .sell => targetMult cfg s.type) < ctx.features.microstructure.midPrice
  confidence : Capped cfg s.confidence ↔
    (s.type = .momentumContinuation → RatiosDefined cfg ctx)

include hcfg in
theorem makeSetup_judged (type : SetupType) (buy : Bool) (confidence : Double)
    (hmid : ¬ ctx.features.microstructure.midPrice ≤ 0)
    (hconf : Capped cfg confidence ↔ (type = .momentumContinuation → RatiosDefined cfg ctx)) :
    Judged cfg ctx (makeSetup ctx id type buy confidence (stopMult cfg type) (targetMult cfg type)
      nowNs) := by
  obtain ⟨a, hstop, ha⟩ := hcfg.stops type
  obtain ⟨b, htarget, hb⟩ := hcfg.targets type
  refine ⟨?_, hconf⟩
  unfold makeSetup
  rw [hstop, htarget]
  cases buy with
  | true => exact levels_buy_iff ha hb hmid
  | false => exact levels_sell_iff ha hb hmid

include hcfg in
/-- A confidence that is a sum of configured numbers is a number. -/
theorem makeSetup_calm (type : SetupType) (htype : type ≠ .momentumContinuation) (buy : Bool)
    {confidence : Double} (hconf : ∃ q, confidence = finite q)
    (hmid : ¬ ctx.features.microstructure.midPrice ≤ 0) :
    Judged cfg ctx (makeSetup ctx id type buy (stdMin confidence cfg.maxConviction)
      (stopMult cfg type) (targetMult cfg type) nowNs) := by
  obtain ⟨q, rfl⟩ := hconf
  exact makeSetup_judged hcfg ctx id nowNs type buy _ hmid
    (iff_of_true (capped_finite hcfg q) fun h => absurd h htype)

theorem not_le_lit {x : Double} (h : ¬ x ≤ 0.0) : ¬ x ≤ 0 := by
  rwa [lit_zero, ← zero_finite] at h

include hcfg in
theorem detectMomentum_judged : Yields (fun s => Judged cfg ctx s ∧ s.type = .momentumContinuation)
    (detectMomentum cfg ctx id nowNs) := by
  unfold detectMomentum
  dsimp only
  refine yields_guard fun _ => yields_guard fun _ => yields_guard fun hprice =>
    yields_guard fun _ => yields_guard fun _ => yields_guard fun _ => yields_guard fun _ =>
    yields_guard fun _ => yields_some ⟨?_, rfl⟩
  simp only [Bool.or_eq_true, decide_eq_true_eq, Bool.not_eq_true', not_or, Bool.not_eq_false]
    at hprice
  exact makeSetup_judged hcfg ctx id nowNs .momentumContinuation _ _ (not_le_lit hprice.1.1)
    ((momentum_capped_iff hcfg _ (filter_confidence _ _) hprice.1.2).trans
      ⟨fun h _ => h, fun h => h rfl⟩)

include hcfg in
theorem detectRetest_judged : Yields (fun s => Judged cfg ctx s ∧ s.type = .retest)
    (detectRetest cfg ctx id nowNs) := by
  obtain ⟨base, hbase, -⟩ := hcfg.base
  obtain ⟨t, ht⟩ := hcfg.trendBonus
  unfold detectRetest
  dsimp only
  refine yields_guard fun _ => yields_guard fun hprice => yields_guard fun _ =>
    yields_guard fun _ => yields_guard fun _ => yields_guard fun _ => yields_guard fun _ =>
    yields_some ⟨?_, rfl⟩
  refine makeSetup_calm hcfg ctx id nowNs .retest (by decide) _ ?_ (not_le_lit hprice)
  rw [hbase, ht]
  split_ifs <;> exact ⟨_, rfl⟩

include hcfg in
theorem detectPullback_judged : Yields (fun s => Judged cfg ctx s ∧ s.type = .pullbackInMicrotrend)
    (detectPullback cfg ctx id nowNs) := by
  obtain ⟨base, hbase, -⟩ := hcfg.base
  obtain ⟨t, ht⟩ := hcfg.trendBonus
  unfold detectPullback
  dsimp only
  refine yields_guard fun _ => yields_guard fun hprice => yields_guard fun _ =>
    yields_guard fun _ => yields_guard fun _ => yields_guard fun _ => yields_guard fun _ =>
    yields_guard fun _ => yields_some ⟨?_, rfl⟩
  refine makeSetup_calm hcfg ctx id nowNs .pullbackInMicrotrend (by decide) _ ?_
    (not_le_lit hprice)
  rw [hbase, ht]
  exact ⟨_, rfl⟩

include hcfg in
theorem detectRejection_judged : Yields (fun s => Judged cfg ctx s ∧ s.type = .rejection)
    (detectRejection cfg ctx id nowNs) := by
  obtain ⟨base, hbase, -⟩ := hcfg.base
  unfold detectRejection
  dsimp only
  refine yields_guard fun _ => yields_guard fun hprice => yields_guard fun _ =>
    yields_guard fun _ => yields_guard fun _ => yields_guard fun _ => yields_some ⟨?_, rfl⟩
  refine makeSetup_calm hcfg ctx id nowNs .rejection (by decide) _ ?_ (not_le_lit hprice)
  rw [hbase, lit_finite, finite_sub, lit_finite, stdMax_finite]
  exact ⟨_, rfl⟩

include hcfg in
theorem detect_judged : Yields (fun s => Judged cfg ctx s ∧
      (ctx.uncertainty ≠ .extreme ∧ ctx.worldState ≠ .disrupted) ∧
      (s.type = .momentumContinuation ∨ s.type = .pullbackInMicrotrend →
        ctx.uncertainty ≠ .high ∧ ctx.regime ≠ .ranging))
    (detect cfg ctx id nowNs) := by
  unfold detect
  dsimp only
  refine yields_guard fun hextreme => yields_guard fun hdisrupted => ?_
  have heager : ∀ b : Bool, (b && (ctx.regime != .ranging && ctx.uncertainty != .high)) = true →
      ctx.uncertainty ≠ .high ∧ ctx.regime ≠ .ranging := by
    intro b hb
    simp only [Bool.and_eq_true, bne_iff_ne] at hb
    exact ⟨hb.2.2, hb.2.1⟩
  have hpatient : ∀ {type : SetupType} {s : Setup Double}, s.type = type →
      type ≠ .momentumContinuation → type ≠ .pullbackInMicrotrend →
      (s.type = .momentumContinuation ∨ s.type = .pullbackInMicrotrend →
        ctx.uncertainty ≠ .high ∧ ctx.regime ≠ .ranging) := by
    rintro type s rfl hmomentum hpullback (h | h)
    · exact absurd h hmomentum
    · exact absurd h hpullback
  apply yields_orElse
  · apply yields_orElse
    · exact yields_switch fun hb => yields_mono
        (fun s hs => ⟨hs.1, ⟨hextreme, hdisrupted⟩, fun _ => heager _ hb⟩)
        (detectMomentum_judged hcfg ctx id nowNs)
    · exact yields_switch fun _ => yields_mono
        (fun s hs => ⟨hs.1, ⟨hextreme, hdisrupted⟩, hpatient hs.2 (by decide) (by decide)⟩)
        (detectRetest_judged hcfg ctx id nowNs)
  · apply yields_orElse
    · exact yields_switch fun hb => yields_mono
        (fun s hs => ⟨hs.1, ⟨hextreme, hdisrupted⟩, fun _ => heager _ hb⟩)
        (detectPullback_judged hcfg ctx id nowNs)
    · exact yields_switch fun _ => yields_mono
        (fun s hs => ⟨hs.1, ⟨hextreme, hdisrupted⟩, hpatient hs.2 (by decide) (by decide)⟩)
        (detectRejection_judged hcfg ctx id nowNs)

/-- A detected setup is well formed exactly when the price and the range it was computed
from are usable. -/
theorem detected_wellFormed_iff {cfg : ScalpStrategyConfig Double} (hcfg : Numeric cfg)
    (ctx : StrategyContext Double) (id : String) (nowNs : ℤ) {s : Setup Double}
    (hfound : detect cfg ctx id nowNs = some s) :
    WellFormed cfg ctx s ↔ Usable cfg ctx s.type s.side := by
  obtain ⟨hjudged, hcalm, heager⟩ := detect_judged hcfg ctx id nowNs s hfound
  constructor
  · intro h
    obtain ⟨hmid, hrange, hreach⟩ := hjudged.levels.mp h.levels
    exact ⟨hmid, hrange, hreach, hjudged.confidence.mp h.confidence⟩
  · intro h
    exact ⟨hjudged.levels.mpr ⟨h.mid, h.range, h.reach⟩, hjudged.confidence.mpr h.ratios, hcalm,
      heager⟩

end Detection

section Samples

def retestConfig : ScalpStrategyConfig Double :=
  { (defaultScalpConfig : ScalpStrategyConfig Double) with enableRetestScenarios := true }

theorem retestConfig_numeric : Numeric retestConfig where
  stops := by
    intro type
    cases type <;> exact ⟨_, rfl, by norm_num⟩
  targets := by
    intro type
    cases type <;> exact ⟨_, rfl, by norm_num⟩
  base := ⟨_, rfl, by norm_num⟩
  cap := ⟨_, rfl, by norm_num⟩
  trendBonus := ⟨_, rfl⟩
  imbalanceWeight := ⟨_, rfl⟩
  bayesianWeight := ⟨_, rfl⟩
  pocBonus := ⟨_, rfl⟩
  pocPenalty := ⟨_, rfl⟩

def retestContext (atr : Double) : StrategyContext Double where
  features := {
    symbol := "BTCUSDT"
    marketDataAgeNs := 0
    midPrice := finite 100
    technical := { (defaultTechnical : TechnicalFeatures Double) with
      bbMiddle := finite 100
      bbPercentB := finite (4 / 10)
      bbValid := true
      momentum20 := finite (1 / 100)
      momentumValid := true
      atr14 := atr
      atrValid := true
      supertrendTrend := 1
      supertrendValid := true }
    microstructure := { (defaultMicrostructure : MicrostructureFeatures Double) with
      midPrice := finite 100
      bookImbalance5 := finite (1 / 10) }
    executionContext := ⟨finite 0, true⟩
    bookQuality := .valid }
  regime := .trending
  worldState := .stable
  uncertainty := .low
  isStrategyEnabled := true
  futuresEnabled := true
  htfTrendDirection := 1
  htfTrendStrength := finite 0
  position := ⟨false, .buy, .long, finite 0, finite 0, finite 0, 0⟩
  risk := ⟨false, false, false⟩
  dataFresh := true
  exchangeOk := true

theorem retest_found (atr : Double) (h : atr = nan ∨ atr = finite 1) :
    (detect retestConfig (retestContext atr) "s1" 0).isSome = true := by
  rcases h with rfl | rfl <;> decide +kernel

/-- A retest with a range that is not a number has a stop that is none. -/
theorem unchecked_range : ¬ ∀ (cfg : ScalpStrategyConfig Double) (ctx : StrategyContext Double)
    (id : String) (nowNs : ℤ) (s : Setup Double), Numeric cfg → detect cfg ctx id nowNs = some s →
      WellFormed cfg ctx s := by
  intro h
  have hlevels := (h retestConfig (retestContext nan) "s1" 0 _ retestConfig_numeric
    (Option.some_get (retest_found nan (Or.inl rfl))).symm).levels
  exact absurd hlevels.1.1 (by decide +kernel)

theorem detected_wellFormed_retest :
    WellFormed retestConfig (retestContext (finite 1))
        ((detect retestConfig (retestContext (finite 1)) "s1" 0).get
          (retest_found (finite 1) (Or.inr rfl))) ↔
      Usable retestConfig (retestContext (finite 1))
        ((detect retestConfig (retestContext (finite 1)) "s1" 0).get
          (retest_found (finite 1) (Or.inr rfl))).type
        ((detect retestConfig (retestContext (finite 1)) "s1" 0).get
          (retest_found (finite 1) (Or.inr rfl))).side :=
  detected_wellFormed_iff retestConfig_numeric (retestContext (finite 1)) "s1" 0
    (Option.some_get (retest_found (finite 1) (Or.inr rfl))).symm

end Samples

end TB.SetupLifecycle
