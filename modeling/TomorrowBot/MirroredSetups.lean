import TomorrowBot.SetupLifecycle
import Mathlib.Algebra.Order.Field.Basic
import Mathlib.Tactic.FieldSimp
import Mathlib.Tactic.Linarith
import Mathlib.Tactic.Ring

/-!
# Setups on the two sides are mirror images

In the mirror every sign of direction is turned around. The evidence for the
other side is then the reciprocal, and each detector finds the setup of the other
side, with its levels reflected about the price. Where two indications exclude
each other by an `else`, they must not both be given.
-/

set_option autoImplicit false

namespace TB.MirroredSetups
open TB.CommonTypes TB.TradingContext TB.StrategyTypes TB.SetupLifecycle

def mirrorQuadrant (q : ℤ) : ℤ :=
  if q = 1 then 2 else if q = 2 then 1 else if q = 3 then 4 else if q = 4 then 3 else q

def mirrorTechnical (mid : ℚ) (t : TechnicalFeatures ℚ) : TechnicalFeatures ℚ :=
  { t with
    ema20 := t.ema50
    ema50 := t.ema20
    rsi14 := 100 - t.rsi14
    bbPercentB := 1 - t.bbPercentB
    momentum5 := -t.momentum5
    momentum20 := -t.momentum20
    supertrendTrend := -t.supertrendTrend
    stochOverbought := t.stochOversold
    stochOversold := t.stochOverbought
    stochBullCross := t.stochBearCross
    stochBearCross := t.stochBullCross
    emaPairTrend := -t.emaPairTrend
    avwapUpper2sigma := 2 * mid - t.avwapLower2sigma
    avwapLower2sigma := 2 * mid - t.avwapUpper2sigma
    avwapPriceVsVwapBps := -t.avwapPriceVsVwapBps
    cvdNormalized := -t.cvdNormalized
    cvdBullishDivergence := t.cvdBearishDivergence
    cvdBearishDivergence := t.cvdBullishDivergence
    oiTrendQuadrant := mirrorQuadrant t.oiTrendQuadrant
    liqSweepHigh := t.liqSweepLow
    liqSweepLow := t.liqSweepHigh
    liqDominantSide := -t.liqDominantSide
    fundingRecommendedBias := -t.fundingRecommendedBias }

def mirrorMicrostructure (m : MicrostructureFeatures ℚ) : MicrostructureFeatures ℚ :=
  { m with
    bookImbalance5 := -m.bookImbalance5
    buySellRatio := 1 / m.buySellRatio }

def mirror (ctx : StrategyContext ℚ) : StrategyContext ℚ :=
  { ctx with
    features := { ctx.features with
      technical := mirrorTechnical ctx.features.microstructure.midPrice ctx.features.technical
      microstructure := mirrorMicrostructure ctx.features.microstructure }
    htfTrendDirection := -ctx.htfTrendDirection }

def otherSide : Side → Side
  | .buy => .sell
  | .sell => .buy

def mirrorSetup (mid : ℚ) (s : Setup ℚ) : Setup ℚ :=
  { s with
    side := otherSide s.side
    referencePrice := 2 * mid - s.referencePrice
    stopReference := 2 * mid - s.stopReference
    tpReference := 2 * mid - s.tpReference
    entryReference := 2 * mid - s.entryReference
    imbalanceAtDetect := -s.imbalanceAtDetect
    rsiAtDetect := 100 - s.rsiAtDetect }

structure MirroredConfig (cfg : ScalpStrategyConfig ℚ) : Prop where
  momentum : cfg.momentumMaxSell = -cfg.momentumMinBuy
  momentumSign : cfg.momentumMaxSell ≤ 0
  ratio : cfg.buySellRatioSell = 1 / cfg.buySellRatioBuy
  bands : cfg.bbMinSell = 1 - cfg.bbMaxBuy
  rsiGuards : cfg.rsiLowerGuard + cfg.rsiUpperGuard = 100
  pullbackRsi : cfg.pullbackRsiBuyMax + cfg.pullbackRsiSellMin = 100

/-- The stochastic is not at both extremes, and the price is not beyond both bands. -/
structure Consistent (tech : TechnicalFeatures ℚ) (mid : ℚ) : Prop where
  stochastic : tech.stochValid = true → ¬ (tech.stochOversold = true ∧ tech.stochOverbought = true)
  bands : tech.avwapValid = true → ¬ (tech.avwapUpper2sigma < mid ∧ mid < tech.avwapLower2sigma)

theorem less_congr {a b c d : ℚ} (h : a < b ↔ c < d) : less a b = less c d := by
  unfold less
  exact decide_eq_decide.mpr h

section Evidence

def ratio (s : SignalLikelihood ℚ) : ℚ :=
  if s.lrBullish ≤ 0.0 ∨ s.lrBearish ≤ 0.0 then 1
  else stdClamp (s.lrBullish / s.lrBearish) 0.05 20.0

def evidence (signals : List (SignalLikelihood ℚ)) : ℚ := (signals.map ratio).prod

theorem updateOdds_eq (odds : ℚ) (s : SignalLikelihood ℚ) : updateOdds odds s = odds * ratio s := by
  unfold updateOdds ratio
  split_ifs
  · rw [mul_one]
  · rfl

theorem odds_eq (signals : List (SignalLikelihood ℚ)) (odds : ℚ) :
    signals.foldl updateOdds odds = odds * evidence signals := by
  induction signals generalizing odds with
  | nil => exact (mul_one odds).symm
  | cons s signals ih =>
    rw [List.foldl_cons, ih, updateOdds_eq, mul_assoc]
    rfl

theorem ratio_pos (s : SignalLikelihood ℚ) : 0 < ratio s := by
  unfold ratio stdClamp
  split_ifs with hguard hlow hhigh
  · exact one_pos
  · norm_num
  · norm_num
  · have hlit : (0 : ℚ) < 0.05 := by norm_num
    exact hlit.trans_le (not_lt.mp hlow)

theorem evidence_pos (signals : List (SignalLikelihood ℚ)) : 0 < evidence signals := by
  induction signals with
  | nil => exact one_pos
  | cons s signals ih => exact mul_pos (ratio_pos s) ih

theorem evidence_append (xs ys : List (SignalLikelihood ℚ)) :
    evidence (xs ++ ys) = evidence xs * evidence ys := by
  unfold evidence
  rw [List.map_append, List.prod_append]

theorem ratio_swap {a b : ℚ} (ha : 0 < a) (hb : 0 < b) : ratio ⟨b, a⟩ = (ratio ⟨a, b⟩)⁻¹ := by
  have hzero : (0.0 : ℚ) = 0 := by norm_num
  have hguard : ¬ (a ≤ 0.0 ∨ b ≤ 0.0) := by
    rw [hzero]
    exact not_or.mpr ⟨not_le.mpr ha, not_le.mpr hb⟩
  have hguard' : ¬ (b ≤ 0.0 ∨ a ≤ 0.0) := fun h => hguard h.symm
  have hlow : (0.05 : ℚ) = 20⁻¹ := by norm_num
  have hhigh : (20.0 : ℚ) = 20 := by norm_num
  have hab : 0 < a / b := div_pos ha hb
  unfold ratio
  rw [if_neg hguard, if_neg hguard', ← inv_div a b, hlow, hhigh]
  unfold stdClamp
  have hinv : (a / b)⁻¹ < 20⁻¹ ↔ 20 < a / b := inv_lt_inv₀ hab (by norm_num)
  have hinv' : 20 < (a / b)⁻¹ ↔ a / b < 20⁻¹ := lt_inv_comm₀ (by norm_num) hab
  simp only [hinv, hinv']
  split_ifs with h1 h2 h2
  · exact absurd (h1.trans h2) (by norm_num)
  · rfl
  · rw [inv_inv]
  · rfl

theorem evidence_nil : evidence [] = 1 := rfl

theorem evidence_pushIf (c : Bool) (a b : ℚ) :
    evidence (pushIf c a b) = if c then ratio ⟨a, b⟩ else 1 := by
  unfold pushIf
  split_ifs
  · exact mul_one _
  · rfl

theorem evidence_one (s : SignalLikelihood ℚ) : evidence [s] = ratio s := mul_one _

theorem pushIf_swap (c : Bool) {a b : ℚ} (ha : 0 < a) (hb : 0 < b) :
    evidence (pushIf c b a) = (evidence (pushIf c a b))⁻¹ := by
  rw [evidence_pushIf, evidence_pushIf, ratio_swap ha hb]
  split_ifs
  · rfl
  · exact inv_one.symm

theorem neg_beq_one (n : ℤ) : (-n == 1) = (n == -1) := by
  rw [Bool.eq_iff_iff, beq_iff_eq, beq_iff_eq]
  omega

theorem neg_beq_neg_one (n : ℤ) : (-n == -1) = (n == 1) := by
  rw [Bool.eq_iff_iff, beq_iff_eq, beq_iff_eq]
  omega

variable (valid : Bool)

theorem trend_swap (trend : ℤ) {a b : ℚ} (ha : 0 < a) (hb : 0 < b) :
    evidence (trendSignals valid (-trend) a b) = (evidence (trendSignals valid trend a b))⁻¹ := by
  unfold trendSignals
  rw [neg_beq_one, neg_beq_neg_one, evidence_append, evidence_append, pushIf_swap _ ha hb,
    pushIf_swap _ hb ha, mul_inv, mul_comm]

theorem two_swap (valid c d : Bool) {a b : ℚ} (ha : 0 < a) (hb : 0 < b) :
    evidence (if valid then pushIf d a b ++ pushIf c b a else []) =
      (evidence (if valid then pushIf c a b ++ pushIf d b a else []))⁻¹ := by
  cases valid with
  | false => exact inv_one.symm
  | true =>
    simp only [if_true, evidence_append]
    rw [pushIf_swap c ha hb, pushIf_swap d ha hb, mul_inv, inv_inv, mul_comm]

theorem stochastic_swap (valid oversold overbought bull bear : Bool)
    (h : valid = true → ¬ (oversold = true ∧ overbought = true)) :
    evidence (if valid then
        (if overbought then [⟨1.5, 0.7⟩] else pushIf oversold 0.7 1.5) ++
        pushIf bear 1.8 0.6 ++ pushIf bull 0.6 1.8
      else []) =
    (evidence (if valid then
        (if oversold then [⟨1.5, 0.7⟩] else pushIf overbought 0.7 1.5) ++
        pushIf bull 1.8 0.6 ++ pushIf bear 0.6 1.8
      else []))⁻¹ := by
  cases valid with
  | false => exact inv_one.symm
  | true =>
    have hextreme : evidence (if overbought then [⟨1.5, 0.7⟩] else pushIf oversold 0.7 1.5) =
        (evidence (if oversold then [⟨1.5, 0.7⟩] else pushIf overbought 0.7 1.5))⁻¹ := by
      have hswap : ratio ⟨0.7, 1.5⟩ = (ratio ⟨1.5, 0.7⟩)⁻¹ :=
        ratio_swap (by norm_num) (by norm_num)
      cases oversold with
      | true =>
        cases overbought with
        | true => exact absurd ⟨rfl, rfl⟩ (h rfl)
        | false => simp [evidence_pushIf, evidence_one, hswap]
      | false =>
        cases overbought with
        | true => simp [evidence_pushIf, evidence_one, hswap]
        | false => simp [evidence_pushIf]
    simp only [if_true, evidence_append]
    rw [hextreme, pushIf_swap bull (by norm_num) (by norm_num),
      pushIf_swap bear (by norm_num) (by norm_num), mul_inv, mul_inv]
    ring

theorem vwap_swap (bias mid upper lower : ℚ) (h : valid = true → ¬ (upper < mid ∧ mid < lower)) :
    evidence (if valid then
        pushIf (less 0.0 (-bias)) 1.4 0.7 ++ pushIf (less (-bias) 0.0) 0.7 1.4 ++
        (if 2 * mid - lower < mid then [⟨0.5, 1.8⟩]
        else pushIf (less mid (2 * mid - upper)) 1.8 0.5)
      else []) =
    (evidence (if valid then
        pushIf (less 0.0 bias) 1.4 0.7 ++ pushIf (less bias 0.0) 0.7 1.4 ++
        (if upper < mid then [⟨0.5, 1.8⟩] else pushIf (less mid lower) 1.8 0.5)
      else []))⁻¹ := by
  cases valid with
  | false => exact inv_one.symm
  | true =>
    have hzero : (0.0 : ℚ) = 0 := by norm_num
    have hpos : less 0.0 (-bias) = less bias 0.0 :=
      less_congr (by rw [hzero]; constructor <;> intro hlt <;> linarith)
    have hneg : less (-bias) 0.0 = less 0.0 bias :=
      less_congr (by rw [hzero]; constructor <;> intro hlt <;> linarith)
    have hlow : less mid (2 * mid - upper) = less upper mid :=
      less_congr (by constructor <;> intro hlt <;> linarith)
    have hhigh : 2 * mid - lower < mid ↔ mid < lower := by
      constructor <;> intro hlt <;> linarith
    have hbands : evidence (if mid < lower then [⟨0.5, 1.8⟩] else pushIf (less upper mid) 1.8 0.5) =
        (evidence (if upper < mid then [⟨0.5, 1.8⟩] else pushIf (less mid lower) 1.8 0.5))⁻¹ := by
      have hswap : ratio ⟨1.8, 0.5⟩ = (ratio ⟨0.5, 1.8⟩)⁻¹ :=
        ratio_swap (by norm_num) (by norm_num)
      by_cases hu : upper < mid
      · have hl : ¬ mid < lower := fun hl => h rfl ⟨hu, hl⟩
        simp [evidence_pushIf, evidence_one, hswap, less, hu, hl]
      · by_cases hl : mid < lower
        · simp [evidence_pushIf, evidence_one, hswap, less, hu, hl]
        · simp [evidence_pushIf, less, hu, hl]
    simp only [if_true, evidence_append, hpos, hneg, hlow, hhigh]
    rw [hbands, mul_inv, mul_inv, ← pushIf_swap (less 0.0 bias) (by norm_num) (by norm_num),
      ← pushIf_swap (less bias 0.0) (by norm_num) (by norm_num),
      mul_comm (evidence (pushIf (less bias 0.0) 1.4 0.7))]

theorem cvd_swap (valid bull bear : Bool) (cvd : ℚ) :
    evidence (if valid then
        pushIf (less 0.2 (-cvd)) 1.6 0.6 ++ pushIf (less (-cvd) (-0.2)) 0.6 1.6 ++
        pushIf bear 2.0 0.5 ++ pushIf bull 0.5 2.0
      else []) =
    (evidence (if valid then
        pushIf (less 0.2 cvd) 1.6 0.6 ++ pushIf (less cvd (-0.2)) 0.6 1.6 ++
        pushIf bull 2.0 0.5 ++ pushIf bear 0.5 2.0
      else []))⁻¹ := by
  cases valid with
  | false => exact inv_one.symm
  | true =>
    have hpos : less 0.2 (-cvd) = less cvd (-0.2) := less_congr lt_neg
    have hneg : less (-cvd) (-0.2) = less 0.2 cvd := less_congr neg_lt_neg_iff
    simp only [if_true, evidence_append, hpos, hneg, mul_inv]
    rw [← pushIf_swap (less 0.2 cvd) (by norm_num) (by norm_num),
      ← pushIf_swap (less cvd (-0.2)) (by norm_num) (by norm_num),
      ← pushIf_swap bull (by norm_num) (by norm_num),
      ← pushIf_swap bear (by norm_num) (by norm_num)]
    ring

theorem quadrant_swap (q : ℤ) : evidence (if valid then
        pushIf (mirrorQuadrant q == 1) 1.5 0.7 ++ pushIf (mirrorQuadrant q == 2) 0.7 1.5 ++
        pushIf (mirrorQuadrant q == 3) 0.9 1.2 ++ pushIf (mirrorQuadrant q == 4) 1.2 0.9
      else []) =
    (evidence (if valid then
        pushIf (q == 1) 1.5 0.7 ++ pushIf (q == 2) 0.7 1.5 ++ pushIf (q == 3) 0.9 1.2 ++
        pushIf (q == 4) 1.2 0.9
      else []))⁻¹ := by
  have h1 : (mirrorQuadrant q == 1) = (q == 2) := by
    unfold mirrorQuadrant
    rw [Bool.eq_iff_iff, beq_iff_eq, beq_iff_eq]
    split_ifs <;> omega
  have h2 : (mirrorQuadrant q == 2) = (q == 1) := by
    unfold mirrorQuadrant
    rw [Bool.eq_iff_iff, beq_iff_eq, beq_iff_eq]
    split_ifs <;> omega
  have h3 : (mirrorQuadrant q == 3) = (q == 4) := by
    unfold mirrorQuadrant
    rw [Bool.eq_iff_iff, beq_iff_eq, beq_iff_eq]
    split_ifs <;> omega
  have h4 : (mirrorQuadrant q == 4) = (q == 3) := by
    unfold mirrorQuadrant
    rw [Bool.eq_iff_iff, beq_iff_eq, beq_iff_eq]
    split_ifs <;> omega
  cases valid with
  | false => exact inv_one.symm
  | true =>
    simp only [if_true, evidence_append, h1, h2, h3, h4, mul_inv]
    rw [← pushIf_swap (q == 1) (by norm_num) (by norm_num),
      ← pushIf_swap (q == 2) (by norm_num) (by norm_num),
      ← pushIf_swap (q == 3) (by norm_num) (by norm_num),
      ← pushIf_swap (q == 4) (by norm_num) (by norm_num)]
    ring

theorem spoof_neutral (c : Bool) : evidence (pushIf c 0.85 0.85) = 1 := by
  have hratio : ratio ⟨0.85, 0.85⟩ = 1 := by
    unfold ratio stdClamp
    norm_num
  rw [evidence_pushIf, hratio, ite_self]

theorem indicators_swap (tech : TechnicalFeatures ℚ) (mid : ℚ) (h : Consistent tech mid) :
    evidence (indicatorSignals (mirrorTechnical mid tech) mid) =
      (evidence (indicatorSignals tech mid))⁻¹ := by
  have hup := neg_beq_neg_one tech.liqDominantSide
  have hdown := neg_beq_one tech.liqDominantSide
  unfold indicatorSignals mirrorTechnical
  simp only [evidence_append, spoof_neutral, mul_inv, inv_one]
  rw [trend_swap tech.supertrendValid tech.supertrendTrend (by norm_num) (by norm_num),
    trend_swap tech.emaPairValid tech.emaPairTrend (by norm_num) (by norm_num),
    stochastic_swap tech.stochValid tech.stochOversold tech.stochOverbought tech.stochBullCross
      tech.stochBearCross h.stochastic,
    vwap_swap tech.avwapValid tech.avwapPriceVsVwapBps mid tech.avwapUpper2sigma
      tech.avwapLower2sigma h.bands,
    cvd_swap tech.cvdValid tech.cvdBullishDivergence tech.cvdBearishDivergence tech.cvdNormalized,
    quadrant_swap tech.oiValid tech.oiTrendQuadrant,
    two_swap tech.liqSweepValid tech.liqSweepHigh tech.liqSweepLow (by norm_num) (by norm_num),
    trend_swap _ tech.fundingRecommendedBias (by norm_num) (by norm_num), hdown, hup,
    two_swap (tech.liqValid && less 0.7 tech.liqCascadeRiskScore) (tech.liqDominantSide == 1)
      (tech.liqDominantSide == -1) (by norm_num) (by norm_num)]

end Evidence

section Fusion

def scoreOf (odds : ℚ) : BayesianSignalScore ℚ :=
  let pBullish := stdClamp (odds / (1 + odds)) 0.01 0.99
  ⟨pBullish, 1 - pBullish, stdClamp (1 - 2 * stdMin pBullish (1 - pBullish)) 0 1⟩

def swapScore (s : BayesianSignalScore ℚ) : BayesianSignalScore ℚ :=
  ⟨s.pBearish, s.pBullish, s.confidence⟩

theorem combine_eq (signals : List (SignalLikelihood ℚ)) :
    combineSignalsBayesian signals 0.5 = scoreOf (evidence signals) := by
  have hprior : stdClamp (0.5 : ℚ) 0.01 0.99 / stdMax (1.0 - stdClamp 0.5 0.01 0.99) 1e-9 = 1 := by
    norm_num [stdClamp, stdMax]
  have hone : (1.0 : ℚ) = 1 := by norm_num
  have htwo : (2.0 : ℚ) = 2 := by norm_num
  have hzero : (0.0 : ℚ) = 0 := by norm_num
  unfold combineSignalsBayesian
  split_ifs with hempty
  · rw [List.isEmpty_iff.mp hempty, evidence_nil]
    norm_num [scoreOf, stdClamp, stdMin]
  · simp only [hprior]
    simp only [odds_eq, one_mul, hone, htwo, hzero]
    rfl

theorem clamp_reflect (x : ℚ) : stdClamp (1 - x) (0.01 : ℚ) 0.99 = 1 - stdClamp x 0.01 0.99 := by
  have hlow : (0.01 : ℚ) = 1 / 100 := by norm_num
  have hhigh : (0.99 : ℚ) = 99 / 100 := by norm_num
  unfold stdClamp
  rw [hlow, hhigh]
  split_ifs <;> linarith

theorem scoreOf_inv {odds : ℚ} (h : 0 < odds) : scoreOf odds⁻¹ = swapScore (scoreOf odds) := by
  have hshare : odds⁻¹ / (1 + odds⁻¹) = 1 - odds / (1 + odds) := by
    have hsum : 1 + odds ≠ 0 := by linarith
    field_simp
    ring
  unfold scoreOf swapScore
  simp only [hshare, clamp_reflect, sub_sub_cancel, stdMin_rat, min_comm]

theorem filter_swap (tech : TechnicalFeatures ℚ) (mid : ℚ) (h : Consistent tech mid) :
    runBayesianIndicatorFilter (mirrorTechnical mid tech) mid =
      swapScore (runBayesianIndicatorFilter tech mid) := by
  unfold runBayesianIndicatorFilter
  rw [combine_eq, combine_eq, indicators_swap tech mid h, scoreOf_inv (evidence_pos _)]

/-- A market that looks like a rejection both ways is unlikely on one of them. -/
theorem unlikely_both (tech : TechnicalFeatures ℚ) (mid : ℚ) :
    unlikely 0.55 true true (runBayesianIndicatorFilter tech mid) = true := by
  have hsum : (runBayesianIndicatorFilter tech mid).pBearish =
      1 - (runBayesianIndicatorFilter tech mid).pBullish := by
    unfold runBayesianIndicatorFilter
    rw [combine_eq]
    rfl
  unfold unlikely less
  rw [hsum]
  by_cases hbull : (runBayesianIndicatorFilter tech mid).pBullish < 0.55
  · simp [hbull]
  · have hbear : 1 - (runBayesianIndicatorFilter tech mid).pBullish < 0.55 := by
      norm_num at hbull ⊢
      linarith
    simp [hbear]

theorem adaptive_sum (vol baseline : ℚ) :
    (computeAdaptiveThresholds vol baseline).1 + (computeAdaptiveThresholds vol baseline).2 =
      100 := by
  unfold computeAdaptiveThresholds stdClamp
  norm_num
  split_ifs <;> norm_num <;> linarith

end Fusion

section Guards
variable (cfg : ScalpStrategyConfig ℚ) (ctx : StrategyContext ℚ)

theorem stdAbs_neg (x : ℚ) : stdAbs (-x) = stdAbs x := by
  unfold stdAbs
  split_ifs <;> linarith

theorem againstTrend_mirror (buy sell : Bool) :
    againstTrend cfg (mirror ctx) sell buy = againstTrend cfg ctx buy sell := by
  unfold againstTrend
  dsimp only
  rw [Bool.or_comm (buy && _)]
  rfl

theorem againstHtfTrend_mirror (buy sell : Bool) :
    againstHtfTrend cfg (mirror ctx) sell buy = againstHtfTrend cfg ctx buy sell := by
  have hdown := neg_beq_neg_one ctx.htfTrendDirection
  have hup := neg_beq_one ctx.htfTrendDirection
  unfold againstHtfTrend
  rw [Bool.or_comm (buy && _), ← hdown, ← hup]
  rfl

theorem sidewaysAdxLow_mirror (boost : ℚ) :
    sidewaysAdxLow cfg (mirror ctx) boost = sidewaysAdxLow cfg ctx boost := by
  have hflat : (-ctx.htfTrendDirection == 0) = (ctx.htfTrendDirection == 0) := by
    rw [Bool.eq_iff_iff, beq_iff_eq, beq_iff_eq]
    omega
  unfold sidewaysAdxLow
  rw [← hflat]
  rfl

theorem shortWithoutFutures_false {c : StrategyContext ℚ} (h : c.futuresEnabled = true)
    (sell : Bool) : shortWithoutFutures c sell = false := by
  unfold shortWithoutFutures
  rw [h, Bool.not_true, Bool.and_false, Bool.false_and]

theorem unlikely_swap (minConfidence : ℚ) (buy sell : Bool) (score : BayesianSignalScore ℚ) :
    unlikely minConfidence sell buy (swapScore score) = unlikely minConfidence buy sell score := by
  unfold unlikely
  rw [Bool.or_comm]
  rfl

theorem trendAligned_mirror (buy : Bool) :
    trendAligned (mirror ctx) (!buy) = trendAligned ctx buy := by
  cases buy <;> rfl

theorem momentumConfidence_mirror (buy : Bool) (score : BayesianSignalScore ℚ) :
    momentumConfidence cfg (mirror ctx) (!buy) (swapScore score) =
      momentumConfidence cfg ctx buy score := by
  have himb : stdAbs (mirror ctx).features.microstructure.bookImbalance5 =
      stdAbs ctx.features.microstructure.bookImbalance5 := stdAbs_neg _
  unfold momentumConfidence
  rw [trendAligned_mirror]
  simp only [himb]
  rfl

theorem makeSetup_mirror (id : String) (type : SetupType) (buy : Bool)
    (confidence stopMult targetMult : ℚ) (nowNs : ℤ) :
    makeSetup (mirror ctx) id type (!buy) confidence stopMult targetMult nowNs =
      mirrorSetup ctx.features.microstructure.midPrice
        (makeSetup ctx id type buy confidence stopMult targetMult nowNs) := by
  have hmid : ctx.features.microstructure.midPrice =
      2 * ctx.features.microstructure.midPrice - ctx.features.microstructure.midPrice := by
    ring
  have hrsi : (if ctx.features.technical.rsiValid then 100 - ctx.features.technical.rsi14
      else (50.0 : ℚ)) =
        100 - (if ctx.features.technical.rsiValid then ctx.features.technical.rsi14
          else (50.0 : ℚ)) := by
    split_ifs
    · rfl
    · norm_num
  have hhigh : ∀ x : ℚ, ctx.features.microstructure.midPrice + x =
      2 * ctx.features.microstructure.midPrice - (ctx.features.microstructure.midPrice - x) := by
    intro x
    ring
  have hlow : ∀ x : ℚ, ctx.features.microstructure.midPrice - x =
      2 * ctx.features.microstructure.midPrice - (ctx.features.microstructure.midPrice + x) := by
    intro x
    ring
  cases buy with
  | true =>
    exact Setup.mk.injEq .. ▸ ⟨rfl, rfl, rfl, rfl, hmid, hhigh _, hlow _, hmid, rfl, rfl, rfl, rfl,
      rfl, rfl, hrsi⟩
  | false =>
    exact Setup.mk.injEq .. ▸ ⟨rfl, rfl, rfl, rfl, hmid, hlow _, hhigh _, hmid, rfl, rfl, rfl, rfl,
      rfl, rfl, hrsi⟩

theorem guard_mirror {c c' : Prop} [Decidable c] [Decidable c'] {o o' : Option (Setup ℚ)}
    {f : Setup ℚ → Setup ℚ} (hc : c' ↔ c) (ho : ¬ c → o' = o.map f) :
    (if c' then none else o') = (if c then none else o).map f := by
  by_cases h : c
  · rw [if_pos h, if_pos (hc.mpr h)]
    rfl
  · rw [if_neg h, if_neg (mt hc.mp h)]
    exact ho h

theorem one_side {buy sell : Bool} (hone : ¬ (!buy && !sell) = true)
    (hboth : ¬ (buy = true ∧ sell = true)) : sell = !buy := by
  cases buy <;> cases sell <;> simp_all

end Guards

section Detection
variable {cfg : ScalpStrategyConfig ℚ} (hcfg : MirroredConfig cfg)
  (hratio : 0 < cfg.buySellRatioBuy)
  {ctx : StrategyContext ℚ} (hfutures : ctx.futuresEnabled = true)
  (hflow : 0 < ctx.features.microstructure.buySellRatio)
  (hcons : Consistent ctx.features.technical ctx.features.microstructure.midPrice)
  (id : String) (nowNs : ℤ)

theorem less_zero_neg (x : ℚ) : less 0.0 (-x) = less x 0.0 :=
  less_congr (by norm_num)

theorem less_neg_zero (x : ℚ) : less (-x) 0.0 = less 0.0 x :=
  less_congr (by norm_num)

theorem less_neg_right (c x : ℚ) : less c (-x) = less x (-c) := less_congr lt_neg

theorem less_neg_left (c x : ℚ) : less (-x) (-c) = less c x := less_congr neg_lt_neg_iff

theorem less_neg_comm (c x : ℚ) : less (-x) c = less (-c) x := less_congr neg_lt

theorem less_reflect {a b c : ℚ} (h : a + b = c) (x : ℚ) :
    less a (c - x) = less x b ∧ less (c - x) b = less a x :=
  ⟨less_congr (by constructor <;> intro hlt <;> linarith),
    less_congr (by constructor <;> intro hlt <;> linarith)⟩

theorem level_mirror {a b c : ℚ} (h : a + b = c) (valid buy : Bool) (x : ℚ) :
    (valid && (!buy && less a (c - x) || buy && less (c - x) b)) = true ↔
      (valid && (buy && less a x || !buy && less x b)) = true := by
  rw [(less_reflect h x).1, (less_reflect h x).2, Bool.or_comm]

include hcfg hratio hflow in
theorem momentumBuy_mirror : momentumBuy cfg (mirror ctx) = momentumSell cfg ctx := by
  have hratio : less cfg.buySellRatioBuy (1 / ctx.features.microstructure.buySellRatio) =
      less ctx.features.microstructure.buySellRatio cfg.buySellRatioSell := by
    rw [hcfg.ratio]
    exact less_congr (lt_one_div hratio hflow)
  have hone : less 1.0 (1 / ctx.features.microstructure.buySellRatio) =
      less ctx.features.microstructure.buySellRatio 1.0 := by
    have hlit : (1.0 : ℚ) = 1 := by norm_num
    rw [hlit]
    exact less_congr ((lt_one_div one_pos hflow).trans (by rw [div_one]))
  have hmomentum : less cfg.momentumMinBuy (-ctx.features.technical.momentum5) =
      less ctx.features.technical.momentum5 cfg.momentumMaxSell := by
    rw [hcfg.momentum]
    exact less_neg_right _ _
  have hstrong := less_neg_right cfg.imbalanceThreshold ctx.features.microstructure.bookImbalance5
  unfold momentumBuy momentumSell mirror mirrorTechnical mirrorMicrostructure
  simp only [hratio, hone, hmomentum, hstrong]

include hcfg hratio hflow in
theorem momentumSell_mirror : momentumSell cfg (mirror ctx) = momentumBuy cfg ctx := by
  have hratio : less (1 / ctx.features.microstructure.buySellRatio) cfg.buySellRatioSell =
      less cfg.buySellRatioBuy ctx.features.microstructure.buySellRatio := by
    rw [hcfg.ratio]
    exact less_congr (one_div_lt_one_div hflow hratio)
  have hone : less (1 / ctx.features.microstructure.buySellRatio) 1.0 =
      less 1.0 ctx.features.microstructure.buySellRatio := by
    have hlit : (1.0 : ℚ) = 1 := by norm_num
    rw [hlit]
    exact less_congr ((one_div_lt hflow one_pos).trans (by rw [div_one]))
  have hmomentum : less (-ctx.features.technical.momentum5) cfg.momentumMaxSell =
      less cfg.momentumMinBuy ctx.features.technical.momentum5 := by
    rw [hcfg.momentum]
    exact less_neg_left _ _
  have hstrong := less_neg_left cfg.imbalanceThreshold ctx.features.microstructure.bookImbalance5
  unfold momentumBuy momentumSell mirror mirrorTechnical mirrorMicrostructure
  simp only [hratio, hone, hmomentum, hstrong]

include hcfg in
theorem momentum_exclusive (ctx : StrategyContext ℚ) :
    ¬ (momentumBuy cfg ctx = true ∧ momentumSell cfg ctx = true) := by
  unfold momentumBuy momentumSell less
  simp only [Bool.and_eq_true, decide_eq_true_eq]
  rintro ⟨⟨⟨hbuy, -⟩, -⟩, ⟨hsell, -⟩, -⟩
  have hsign := hcfg.momentumSign
  have hmirror := hcfg.momentum
  linarith

include hcons in
theorem bayes_mirror :
    runBayesianIndicatorFilter (mirror ctx).features.technical
        ctx.features.microstructure.midPrice =
      swapScore (runBayesianIndicatorFilter ctx.features.technical
        ctx.features.microstructure.midPrice) := filter_swap _ _ hcons

include hcons in
theorem unlikely_mirror (minConfidence : ℚ) (buy : Bool) :
    unlikely minConfidence (!buy) buy (runBayesianIndicatorFilter (mirror ctx).features.technical
        ctx.features.microstructure.midPrice) = true ↔
      unlikely minConfidence buy (!buy) (runBayesianIndicatorFilter ctx.features.technical
        ctx.features.microstructure.midPrice) = true := by
  rw [bayes_mirror hcons, unlikely_swap]

include hfutures in
theorem trend_mirror (buy : Bool) (boost : ℚ) :
    (againstTrend cfg (mirror ctx) (!buy) buy || againstHtfTrend cfg (mirror ctx) (!buy) buy ||
        sidewaysAdxLow cfg (mirror ctx) boost || shortWithoutFutures (mirror ctx) buy) = true ↔
      (againstTrend cfg ctx buy (!buy) || againstHtfTrend cfg ctx buy (!buy) ||
        sidewaysAdxLow cfg ctx boost || shortWithoutFutures ctx (!buy)) = true := by
  rw [againstTrend_mirror, againstHtfTrend_mirror, sidewaysAdxLow_mirror,
    shortWithoutFutures_false (c := mirror ctx) hfutures, shortWithoutFutures_false hfutures]

include hcfg hratio hfutures hflow hcons in
theorem detectMomentum_mirror : detectMomentum cfg (mirror ctx) id nowNs =
    (detectMomentum cfg ctx id nowNs).map
      (mirrorSetup ctx.features.microstructure.midPrice) := by
  have hbands : cfg.bbMaxBuy + cfg.bbMinSell = 1 := by
    rw [hcfg.bands]
    ring
  unfold detectMomentum
  dsimp only
  rw [momentumBuy_mirror hcfg hratio hflow, momentumSell_mirror hcfg hratio hflow]
  refine guard_mirror Iff.rfl fun _ => guard_mirror Iff.rfl fun _ => guard_mirror Iff.rfl fun _ =>
    guard_mirror (by rw [Bool.and_comm]) fun hone => ?_
  rw [one_side hone (momentum_exclusive hcfg ctx)]
  refine guard_mirror (level_mirror (adaptive_sum _ _) _ _ _) fun _ =>
    guard_mirror (level_mirror hbands _ _ _) fun _ =>
    guard_mirror (trend_mirror hfutures _ _) fun _ =>
    guard_mirror (unlikely_mirror hcons _ _) fun _ => ?_
  show some (makeSetup (mirror ctx) id _ _ (momentumConfidence cfg (mirror ctx) _
    (runBayesianIndicatorFilter (mirror ctx).features.technical
      ctx.features.microstructure.midPrice)) _ _ nowNs) = _
  rw [bayes_mirror hcons, momentumConfidence_mirror, makeSetup_mirror]
  rfl

theorem between_reflect {a b c d e : ℚ} (had : a + d = e) (hbc : b + c = e) (x : ℚ) :
    between a (e - x) b = between c x d := by
  unfold between
  rw [(less_reflect had x).1, (less_reflect (add_comm b c ▸ hbc) x).2, Bool.and_comm]

include hcfg hfutures hcons in
theorem detectRetest_mirror : detectRetest cfg (mirror ctx) id nowNs =
    (detectRetest cfg ctx id nowNs).map (mirrorSetup ctx.features.microstructure.midPrice) := by
  have hlow := between_reflect (a := 0.30) (b := 0.48) (c := 0.52) (d := 0.70) (e := 1)
    (by norm_num) (by norm_num) ctx.features.technical.bbPercentB
  have hhigh := between_reflect (a := 0.52) (b := 0.70) (c := 0.30) (d := 0.48) (e := 1)
    (by norm_num) (by norm_num) ctx.features.technical.bbPercentB
  have hbuy : (between 0.30 (mirror ctx).features.technical.bbPercentB 0.48 &&
      less 0.0 (mirror ctx).features.technical.momentum20 &&
      less 0.05 (mirror ctx).features.microstructure.bookImbalance5) =
        (between 0.52 ctx.features.technical.bbPercentB 0.70 &&
          less ctx.features.technical.momentum20 0.0 &&
          less ctx.features.microstructure.bookImbalance5 (-0.05)) := by
    simp only [mirror, mirrorTechnical, mirrorMicrostructure, hlow, less_zero_neg,
      less_neg_right 0.05]
  have hsell : (between 0.52 (mirror ctx).features.technical.bbPercentB 0.70 &&
      less (mirror ctx).features.technical.momentum20 0.0 &&
      less (mirror ctx).features.microstructure.bookImbalance5 (-0.05)) =
        (between 0.30 ctx.features.technical.bbPercentB 0.48 &&
          less 0.0 ctx.features.technical.momentum20 &&
          less 0.05 ctx.features.microstructure.bookImbalance5) := by
    simp only [mirror, mirrorTechnical, mirrorMicrostructure, hhigh, less_neg_zero, less_neg_left]
  have hboth : ¬ ((between 0.30 ctx.features.technical.bbPercentB 0.48 &&
      less 0.0 ctx.features.technical.momentum20 &&
      less 0.05 ctx.features.microstructure.bookImbalance5) = true ∧
        (between 0.52 ctx.features.technical.bbPercentB 0.70 &&
          less ctx.features.technical.momentum20 0.0 &&
          less ctx.features.microstructure.bookImbalance5 (-0.05)) = true) := by
    simp only [less, Bool.and_eq_true, decide_eq_true_eq]
    rintro ⟨⟨⟨-, hup⟩, -⟩, ⟨-, hdown⟩, -⟩
    exact lt_asymm hup hdown
  unfold detectRetest
  dsimp only
  rw [hbuy, hsell]
  refine guard_mirror Iff.rfl fun _ => guard_mirror Iff.rfl fun _ => guard_mirror Iff.rfl fun _ =>
    guard_mirror (by rw [Bool.and_comm]) fun hone => ?_
  rw [one_side hone hboth]
  refine guard_mirror (trend_mirror hfutures _ _) fun _ =>
    guard_mirror (level_mirror (add_comm cfg.rsiLowerGuard _ ▸ hcfg.rsiGuards) _ _ _) fun _ =>
    guard_mirror (unlikely_mirror hcons _ _) fun _ => ?_
  rw [trendAligned_mirror, makeSetup_mirror]
  rfl

include hcfg hfutures hcons in
theorem detectPullback_mirror : detectPullback cfg (mirror ctx) id nowNs =
    (detectPullback cfg ctx id nowNs).map (mirrorSetup ctx.features.microstructure.midPrice) := by
  have hbuy : (less (mirror ctx).features.technical.ema50 (mirror ctx).features.technical.ema20 &&
      less 0.0 (mirror ctx).features.technical.momentum20 &&
      less (mirror ctx).features.technical.momentum5 0.0 &&
      less (-0.1) (mirror ctx).features.microstructure.bookImbalance5) =
        (less ctx.features.technical.ema20 ctx.features.technical.ema50 &&
          less ctx.features.technical.momentum20 0.0 && less 0.0 ctx.features.technical.momentum5 &&
          less ctx.features.microstructure.bookImbalance5 0.1) := by
    simp only [mirror, mirrorTechnical, mirrorMicrostructure, less_zero_neg, less_neg_zero,
      less_neg_left]
  have hsell : (less (mirror ctx).features.technical.ema20 (mirror ctx).features.technical.ema50 &&
      less (mirror ctx).features.technical.momentum20 0.0 &&
      less 0.0 (mirror ctx).features.technical.momentum5 &&
      less (mirror ctx).features.microstructure.bookImbalance5 0.1) =
        (less ctx.features.technical.ema50 ctx.features.technical.ema20 &&
          less 0.0 ctx.features.technical.momentum20 && less ctx.features.technical.momentum5 0.0 &&
          less (-0.1) ctx.features.microstructure.bookImbalance5) := by
    simp only [mirror, mirrorTechnical, mirrorMicrostructure, less_zero_neg, less_neg_zero,
      less_neg_comm 0.1]
  have hboth : ¬ ((less ctx.features.technical.ema50 ctx.features.technical.ema20 &&
      less 0.0 ctx.features.technical.momentum20 && less ctx.features.technical.momentum5 0.0 &&
      less (-0.1) ctx.features.microstructure.bookImbalance5) = true ∧
        (less ctx.features.technical.ema20 ctx.features.technical.ema50 &&
          less ctx.features.technical.momentum20 0.0 && less 0.0 ctx.features.technical.momentum5 &&
          less ctx.features.microstructure.bookImbalance5 0.1) = true) := by
    simp only [less, Bool.and_eq_true, decide_eq_true_eq]
    rintro ⟨⟨⟨⟨hup, -⟩, -⟩, -⟩, ⟨⟨hdown, -⟩, -⟩, -⟩
    exact lt_asymm hup hdown
  unfold detectPullback
  dsimp only
  rw [hbuy, hsell]
  refine guard_mirror Iff.rfl fun _ => guard_mirror Iff.rfl fun _ => guard_mirror Iff.rfl fun _ =>
    guard_mirror (by rw [Bool.and_comm]) fun hone => ?_
  rw [one_side hone hboth]
  refine guard_mirror (by rw [againstHtfTrend_mirror]) fun _ =>
    guard_mirror (level_mirror hcfg.pullbackRsi _ _ _) fun _ =>
    guard_mirror ?_ fun _ => guard_mirror (unlikely_mirror hcons _ _) fun _ => ?_
  · rw [shortWithoutFutures_false (c := mirror ctx) hfutures, shortWithoutFutures_false hfutures]
  · rw [makeSetup_mirror]
    rfl

include hfutures hcons in
theorem detectRejection_mirror : detectRejection cfg (mirror ctx) id nowNs =
    (detectRejection cfg ctx id nowNs).map
      (mirrorSetup ctx.features.microstructure.midPrice) := by
  have hone : (1.0 : ℚ) = 1 := by norm_num
  have hbands := less_reflect (sub_add_cancel 1 cfg.rejectionBbExtreme)
    ctx.features.technical.bbPercentB
  have hhalf : -cfg.imbalanceThreshold * 0.5 = -(cfg.imbalanceThreshold * 0.5) := by ring
  have hbuy : (less (mirror ctx).features.technical.bbPercentB (1.0 - cfg.rejectionBbExtreme) &&
      less cfg.rejectionMinReversalMomentum (mirror ctx).features.technical.momentum5 &&
      less (cfg.imbalanceThreshold * 0.5)
        (mirror ctx).features.microstructure.bookImbalance5) =
        (less cfg.rejectionBbExtreme ctx.features.technical.bbPercentB &&
          less ctx.features.technical.momentum5 (-cfg.rejectionMinReversalMomentum) &&
          less ctx.features.microstructure.bookImbalance5 (-cfg.imbalanceThreshold * 0.5)) := by
    simp only [mirror, mirrorTechnical, mirrorMicrostructure, hone, hhalf, less_neg_right]
    rw [less_congr (show 1 - ctx.features.technical.bbPercentB < 1 - cfg.rejectionBbExtreme ↔ _ from
      sub_lt_sub_iff_left 1)]
  have hsell : (less cfg.rejectionBbExtreme (mirror ctx).features.technical.bbPercentB &&
      less (mirror ctx).features.technical.momentum5 (-cfg.rejectionMinReversalMomentum) &&
      less (mirror ctx).features.microstructure.bookImbalance5 (-cfg.imbalanceThreshold * 0.5)) =
        (less ctx.features.technical.bbPercentB (1.0 - cfg.rejectionBbExtreme) &&
          less cfg.rejectionMinReversalMomentum ctx.features.technical.momentum5 &&
          less (cfg.imbalanceThreshold * 0.5) ctx.features.microstructure.bookImbalance5) := by
    simp only [mirror, mirrorTechnical, mirrorMicrostructure, hone, hhalf, less_neg_left]
    rw [less_congr (show cfg.rejectionBbExtreme < 1 - ctx.features.technical.bbPercentB ↔ _ from
      lt_sub_comm)]
  have hrsi : (35.0 : ℚ) + 65.0 = 100 := by norm_num
  unfold detectRejection
  dsimp only
  rw [hbuy, hsell]
  refine guard_mirror Iff.rfl fun _ => guard_mirror Iff.rfl fun _ =>
    guard_mirror (by rw [Bool.and_comm]) fun hside => ?_
  by_cases hboth : (less ctx.features.technical.bbPercentB (1.0 - cfg.rejectionBbExtreme) &&
      less cfg.rejectionMinReversalMomentum ctx.features.technical.momentum5 &&
      less (cfg.imbalanceThreshold * 0.5) ctx.features.microstructure.bookImbalance5) = true ∧
        (less cfg.rejectionBbExtreme ctx.features.technical.bbPercentB &&
          less ctx.features.technical.momentum5 (-cfg.rejectionMinReversalMomentum) &&
          less ctx.features.microstructure.bookImbalance5 (-cfg.imbalanceThreshold * 0.5)) = true
  · -- The evidence cannot be for both sides, so neither market finds a setup.
    rw [hboth.1, hboth.2, if_pos (unlikely_both _ _), if_pos (unlikely_both _ _), ite_self,
      ite_self]
    rfl
  rw [one_side hside hboth]
  refine guard_mirror (level_mirror hrsi _ _ _) fun _ =>
    guard_mirror (unlikely_mirror hcons _ _) fun _ => guard_mirror ?_ fun _ => ?_
  · rw [shortWithoutFutures_false (c := mirror ctx) hfutures, shortWithoutFutures_false hfutures]
  · rw [makeSetup_mirror]
    rfl

theorem enabled_mirror {c : Bool} {o o' : Option (Setup ℚ)} {f : Setup ℚ → Setup ℚ}
    (h : o' = o.map f) : (if c then o' else none) = (if c then o else none).map f := by
  cases c with
  | false => rfl
  | true => exact h

theorem orElse_mirror {a b a' b' : Option (Setup ℚ)} {f : Setup ℚ → Setup ℚ}
    (ha : a' = a.map f) (hb : b' = b.map f) :
    (a'.orElse fun _ => b') = (a.orElse fun _ => b).map f := by
  rw [ha, hb]
  cases a <;> rfl

include hcfg hratio hfutures hflow hcons in
theorem detect_mirror : detect cfg (mirror ctx) id nowNs =
    (detect cfg ctx id nowNs).map (mirrorSetup ctx.features.microstructure.midPrice) := by
  unfold detect
  refine guard_mirror Iff.rfl fun _ => guard_mirror Iff.rfl fun _ => ?_
  exact orElse_mirror
    (orElse_mirror (enabled_mirror (detectMomentum_mirror hcfg hratio hfutures hflow hcons id nowNs))
      (enabled_mirror (detectRetest_mirror hcfg hfutures hcons id nowNs)))
    (orElse_mirror (enabled_mirror (detectPullback_mirror hcfg hfutures hcons id nowNs))
      (enabled_mirror (detectRejection_mirror hfutures hcons id nowNs)))

end Detection

section Validation
variable (cfg : ScalpStrategyConfig ℚ) (ctx : StrategyContext ℚ) (setup : Setup ℚ) (nowNs : ℤ)

theorem imbalanceReversed_mirror (mid : ℚ) :
    imbalanceReversed cfg (mirror ctx) (mirrorSetup mid setup) =
      imbalanceReversed cfg ctx setup := by
  unfold imbalanceReversed mirrorSetup
  cases setup.side with
  | buy => exact less_neg_right _ _
  | sell => exact less_neg_left _ _

theorem stopBreached_mirror :
    stopBreached (mirror ctx) (mirrorSetup ctx.features.microstructure.midPrice setup) =
      stopBreached ctx setup := by
  have habove : 2 * ctx.features.microstructure.midPrice - setup.stopReference <
      ctx.features.microstructure.midPrice ↔
        ctx.features.microstructure.midPrice < setup.stopReference := by
    constructor <;> intro h <;> linarith
  have hbelow : ctx.features.microstructure.midPrice <
      2 * ctx.features.microstructure.midPrice - setup.stopReference ↔
        setup.stopReference < ctx.features.microstructure.midPrice := by
    constructor <;> intro h <;> linarith
  unfold stopBreached mirrorSetup
  cases setup.side with
  | buy => exact less_congr habove
  | sell => exact less_congr hbelow

theorem validate_mirror :
    validate cfg (mirror ctx) (mirrorSetup ctx.features.microstructure.midPrice setup) nowNs =
      validate cfg ctx setup nowNs := by
  have hdrift : stdAbs (ctx.features.microstructure.midPrice -
      (2 * ctx.features.microstructure.midPrice - setup.referencePrice)) =
        stdAbs (ctx.features.microstructure.midPrice - setup.referencePrice) := by
    rw [← stdAbs_neg]
    congr 1
    ring
  unfold validate
  rw [imbalanceReversed_mirror, stopBreached_mirror]
  dsimp only [mirrorSetup, mirror, mirrorMicrostructure, mirrorTechnical]
  simp only [hdrift]
  rfl

theorem canConfirm_mirror (mid : ℚ) :
    canConfirm cfg (mirror ctx) (mirrorSetup mid setup) nowNs = canConfirm cfg ctx setup nowNs := by
  unfold canConfirm
  dsimp only [mirrorSetup, mirror, mirrorMicrostructure]
  cases setup.side with
  | buy =>
    simp only [otherSide, less_zero_neg]
    rfl
  | sell =>
    simp only [otherSide, less_neg_zero]
    rfl

end Validation

theorem sides_mirror {cfg : ScalpStrategyConfig ℚ} (hcfg : MirroredConfig cfg)
    (hratio : 0 < cfg.buySellRatioBuy) {ctx : StrategyContext ℚ} (hfutures : ctx.futuresEnabled = true)
    (hflow : 0 < ctx.features.microstructure.buySellRatio)
    (hcons : Consistent ctx.features.technical ctx.features.microstructure.midPrice) :
    (∀ id nowNs, detect cfg (mirror ctx) id nowNs =
      (detect cfg ctx id nowNs).map (mirrorSetup ctx.features.microstructure.midPrice)) ∧
    ∀ (setup : Setup ℚ) (nowNs : ℤ),
      validate cfg (mirror ctx) (mirrorSetup ctx.features.microstructure.midPrice setup) nowNs =
          validate cfg ctx setup nowNs ∧
        canConfirm cfg (mirror ctx) (mirrorSetup ctx.features.microstructure.midPrice setup)
            nowNs = canConfirm cfg ctx setup nowNs :=
  ⟨fun id nowNs => detect_mirror hcfg hratio hfutures hflow hcons id nowNs, fun setup nowNs =>
    ⟨validate_mirror cfg ctx setup nowNs, canConfirm_mirror cfg ctx setup nowNs _⟩⟩

section Samples

def evenConfig : ScalpStrategyConfig ℚ :=
  { (defaultScalpConfig : ScalpStrategyConfig ℚ) with
    enableRetestScenarios := true
    buySellRatioSell := 1 / 1.12 }

theorem evenConfig_mirrored : MirroredConfig evenConfig where
  momentum := by decide +kernel
  momentumSign := by decide +kernel
  ratio := rfl
  bands := by decide +kernel
  rsiGuards := by decide +kernel
  pullbackRsi := by decide +kernel

theorem evenConfig_ratio : 0 < evenConfig.buySellRatioBuy := by decide +kernel

def retestMarket (overbought : Bool) : StrategyContext ℚ where
  features := {
    symbol := "BTCUSDT"
    marketDataAgeNs := 0
    midPrice := 100
    technical := { (defaultTechnical : TechnicalFeatures ℚ) with
      bbMiddle := 100
      bbPercentB := 4 / 10
      bbValid := true
      momentum20 := 1 / 100
      momentumValid := true
      atr14 := 1
      atrValid := true
      stochOversold := true
      stochOverbought := overbought
      stochValid := true }
    microstructure := { (defaultMicrostructure : MicrostructureFeatures ℚ) with
      midPrice := 100
      bookImbalance5 := 1 / 10 }
    executionContext := ⟨0, true⟩
    bookQuality := .valid }
  regime := .trending
  worldState := .stable
  uncertainty := .low
  isStrategyEnabled := true
  futuresEnabled := true
  htfTrendDirection := 1
  htfTrendStrength := 0
  position := ⟨false, .buy, .long, 0, 0, 0, 0⟩
  risk := ⟨false, false, false⟩
  dataFresh := true
  exchangeOk := true

theorem retestMarket_flow (overbought : Bool) :
    0 < (retestMarket overbought).features.microstructure.buySellRatio := by
  cases overbought <;> decide +kernel

def withTechnical (ctx : StrategyContext ℚ) (tech : TechnicalFeatures ℚ) : StrategyContext ℚ :=
  { ctx with features := { ctx.features with technical := tech } }

def beyondBands : StrategyContext ℚ :=
  withTechnical (retestMarket false) { (retestMarket false).features.technical with
    stochValid := false
    avwapUpper2sigma := 90
    avwapLower2sigma := 110
    avwapValid := true }

def OneSided (cfg : ScalpStrategyConfig ℚ) (ctx : StrategyContext ℚ) : Prop :=
  ∃ id nowNs, detect cfg (mirror ctx) id nowNs ≠
    (detect cfg ctx id nowNs).map (mirrorSetup ctx.features.microstructure.midPrice)

theorem oneSided_of_isSome {cfg : ScalpStrategyConfig ℚ} {ctx : StrategyContext ℚ}
    (h : (detect cfg (mirror ctx) "s1" 0).isSome ≠ (detect cfg ctx "s1" 0).isSome) :
    OneSided cfg ctx := by
  refine ⟨"s1", 0, fun hsame => h ?_⟩
  rw [hsame, Option.isSome_map]

/-- A stochastic at both extremes counts as oversold, in the mirror as well; and a price beyond
both bands counts as above the upper one. -/
theorem first_flag_decides :
    OneSided evenConfig (retestMarket true) ∧ OneSided evenConfig beyondBands :=
  ⟨oneSided_of_isSome (by decide +kernel), oneSided_of_isSome (by decide +kernel)⟩

def negativeRatio : ScalpStrategyConfig ℚ :=
  { evenConfig with
    buySellRatioBuy := -1
    buySellRatioSell := -1 }

theorem negativeRatio_mirrored : MirroredConfig negativeRatio where
  momentum := by decide +kernel
  momentumSign := by decide +kernel
  ratio := by decide +kernel
  bands := by decide +kernel
  rsiGuards := by decide +kernel
  pullbackRsi := by decide +kernel

def risingMarket : StrategyContext ℚ :=
  { retestMarket false with
    features := { (retestMarket false).features with
      technical := { (defaultTechnical : TechnicalFeatures ℚ) with
        adx := 50
        adxValid := true
        momentum5 := 1 / 100
        momentumValid := true
        atr14 := 1
        atrValid := true
        supertrendTrend := 1
        supertrendValid := true }
      microstructure := { (defaultMicrostructure : MicrostructureFeatures ℚ) with
        midPrice := 100
        buySellRatio := 2 } } }

/-- Below a negative ratio there is no flow, so the mirror of the rise is no sale. -/
theorem rise_has_no_mirror : ¬ ∀ (cfg : ScalpStrategyConfig ℚ) (ctx : StrategyContext ℚ)
    (id : String) (nowNs : ℤ), MirroredConfig cfg → ctx.futuresEnabled = true →
      0 < ctx.features.microstructure.buySellRatio → detect cfg (mirror ctx) id nowNs =
        (detect cfg ctx id nowNs).map (mirrorSetup ctx.features.microstructure.midPrice) := by
  intro h
  have hsame := congrArg Option.isSome
    (h negativeRatio risingMarket "s1" 0 negativeRatio_mirrored rfl (by decide +kernel))
  exact absurd hsame (by decide +kernel)

theorem sides_mirror_retest :
    (∀ id nowNs, detect evenConfig (mirror (retestMarket false)) id nowNs =
      (detect evenConfig (retestMarket false) id nowNs).map (mirrorSetup 100)) ∧
    ∀ (setup : Setup ℚ) (nowNs : ℤ),
      validate evenConfig (mirror (retestMarket false)) (mirrorSetup 100 setup) nowNs =
          validate evenConfig (retestMarket false) setup nowNs ∧
        canConfirm evenConfig (mirror (retestMarket false)) (mirrorSetup 100 setup) nowNs =
          canConfirm evenConfig (retestMarket false) setup nowNs :=
  sides_mirror evenConfig_mirrored evenConfig_ratio rfl (retestMarket_flow false)
    ⟨fun _ h => absurd h.2 Bool.false_ne_true, fun h => absurd h Bool.false_ne_true⟩

end Samples

end TB.MirroredSetups
