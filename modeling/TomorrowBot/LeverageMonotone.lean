import TomorrowBot.LeverageEngine
import TomorrowBot.RealArithmetic
import TomorrowBot.PairedRuns

/-!
# Leverage and risk

Of two runs the one with the riskier contexts has at every call at most the
leverage of the other, where the multiplier of the volatility does not rise.
It rises only above the extreme volatility, to a floor over a fifth that the
validator accepts.
-/

set_option autoImplicit false

namespace TB.LeverageMonotone
open TB.CommonTypes TB.Leverage

structure Sane (cfg : FuturesConfig ℝ) : Prop where
  minLeverage : 1 ≤ cfg.minLeverage
  maxLeverage : cfg.minLeverage ≤ cfg.maxLeverage
  base : ∀ regime, 1 ≤ baseLeverageForRegime cfg regime
  low : cfg.leverageEngine.volLowAtr < cfg.leverageEngine.volMidAtr
  mid : cfg.leverageEngine.volMidAtr < cfg.leverageEngine.volHighAtr
  high : cfg.leverageEngine.volHighAtr < cfg.leverageEngine.volExtremeAtr
  floor : 0 < cfg.leverageEngine.volFloor
  convictionMin : 0 ≤ cfg.leverageEngine.convictionMinMult
  convictionMinLe : cfg.leverageEngine.convictionMinMult ≤ 1
  breakpoint : 0 < cfg.leverageEngine.convictionBreakpoint
  breakpointLt : cfg.leverageEngine.convictionBreakpoint < 1
  convictionMax : 1 ≤ cfg.leverageEngine.convictionMaxMult
  drawdownFloor : 0 ≤ cfg.leverageEngine.drawdownFloorMult
  drawdownFloorLe : cfg.leverageEngine.drawdownFloorMult ≤ 1
  halfpoint : 0 < cfg.leverageEngine.drawdownHalfpointPct
  alpha : 0 < cfg.leverageEngine.emaAlpha
  alphaLe : cfg.leverageEngine.emaAlpha ≤ 1

theorem errorIf_nil {c : Prop} [Decidable c] {text : String} : errorIf c text = [] ↔ ¬ c := by
  unfold errorIf
  split_ifs with h
  · simp [h]
  · simp [h]

theorem sane_of_valid {toText : ℝ → String} {cfg : FuturesConfig ℝ}
    (h : validateFutures toText cfg = []) : Sane cfg := by
  unfold validateFutures validateLeverageEngine checkRegimeLeverage at h
  simp only [List.append_eq_nil_iff, errorIf_nil, not_or, not_lt, not_le, zero_real, one_real] at h
  obtain ⟨⟨⟨⟨⟨⟨⟨⟨⟨⟨⟨⟨⟨⟨⟨-, -⟩, -⟩, hdefault⟩, -⟩, -⟩, hmin⟩, -⟩, htrending⟩, hranging⟩,
    hvolatile⟩, -⟩, -⟩, -⟩, -⟩, ⟨⟨⟨⟨⟨⟨⟨hvol, hfloor⟩, hconviction⟩, hbreak⟩, hmax⟩, hdrawdown⟩,
    hhalf⟩, halpha⟩, -⟩ := h
  exact {
    minLeverage := hmin.1
    maxLeverage := hmin.2
    base := fun regime => by
      cases regime with
      | trending => exact htrending.1
      | ranging => exact hranging.1
      | volatile => exact hvolatile.1
      | unclear => exact hdefault.1
    low := hvol.2.1
    mid := hvol.2.2.1
    high := hvol.2.2.2
    floor := hfloor.1
    convictionMin := hconviction.1
    convictionMinLe := hconviction.2
    breakpoint := hbreak.1
    breakpointLt := hbreak.2
    convictionMax := hmax.1
    drawdownFloor := hdrawdown.1
    drawdownFloorLe := hdrawdown.2
    halfpoint := hhalf
    alpha := halpha.1
    alphaLe := halpha.2 }

section Curves
variable {cfg : FuturesConfig ℝ}

theorem lerp_real (a b t : ℝ) : Leverage.lerp a b t = Interpolation.lerp a b t := by
  rw [Leverage.lerp, zero_real, one_real, stdClamp_unit, Interpolation.lerp]

noncomputable def calmCurve (lc : LeverageEngineConfig ℝ) (x : ℝ) : ℝ :=
  if x ≤ lc.volLowAtr then 1
  else if x ≤ lc.volMidAtr then
    Interpolation.lerp 1 0.7 ((x - lc.volLowAtr) / (lc.volMidAtr - lc.volLowAtr))
  else if x ≤ lc.volHighAtr then
    Interpolation.lerp 0.7 0.4 ((x - lc.volMidAtr) / (lc.volHighAtr - lc.volMidAtr))
  else Interpolation.lerp 0.4 0.20 ((x - lc.volHighAtr) / (lc.volExtremeAtr - lc.volHighAtr))

noncomputable def extremeCurve (lc : LeverageEngineConfig ℝ) (x : ℝ) : ℝ :=
  Interpolation.lerp 0.20 lc.volFloor (min 1 ((x - lc.volExtremeAtr) / 0.04))

theorem volatilityMultiplier_eq (hs : Sane cfg) (x : ℝ) :
    volatilityMultiplier cfg x =
      if x ≤ cfg.leverageEngine.volExtremeAtr then calmCurve cfg.leverageEngine x
      else extremeCurve cfg.leverageEngine x := by
  have h1 := hs.low
  have h2 := hs.mid
  have h3 := hs.high
  simp only [volatilityMultiplier, calmCurve, extremeCurve, lerp_real, one_real, stdMin_real]
  split_ifs <;> first | rfl | (exfalso; linarith)

theorem segment_antitone {a b lo hi : ℝ} (hab : b ≤ a) (h : lo < hi) :
    Antitone (fun x => Interpolation.lerp a b ((x - lo) / (hi - lo))) := by
  intro x y hxy
  refine Interpolation.lerp_antitone hab ?_
  exact div_le_div_of_nonneg_right (sub_le_sub_right hxy lo) (sub_pos.mpr h).le

theorem calmCurve_antitone (hs : Sane cfg) : Antitone (calmCurve cfg.leverageEngine) := by
  have h3 := segment_antitone (a := 0.4) (b := 0.20) (by norm_num) hs.high
  have h2 := segment_antitone (a := 0.7) (b := 0.4) (by norm_num) hs.mid
  have h1 := segment_antitone (a := 1) (b := 0.7) (by norm_num) hs.low
  have hlate := Interpolation.antitone_joined cfg.leverageEngine.volHighAtr 0.4 h2 h3
    (fun x _ => Interpolation.le_lerp (by norm_num) le_rfl _)
    (fun x _ => Interpolation.lerp_le le_rfl (by norm_num) _)
  have hmiddle := Interpolation.antitone_joined cfg.leverageEngine.volMidAtr 0.7 h1 hlate
    (fun x _ => Interpolation.le_lerp (by norm_num) le_rfl _) (fun x _ => by
      split_ifs
      · exact Interpolation.lerp_le le_rfl (by norm_num) _
      · exact Interpolation.lerp_le (by norm_num) (by norm_num) _)
  exact Interpolation.antitone_joined cfg.leverageEngine.volLowAtr 1 antitone_const hmiddle
    (fun _ _ => le_rfl) (fun x _ => by
      split_ifs
      · exact Interpolation.lerp_le le_rfl (by norm_num) _
      · exact Interpolation.lerp_le (by norm_num) (by norm_num) _
      · exact Interpolation.lerp_le (by norm_num) (by norm_num) _)

theorem le_calmCurve (x : ℝ) : 0.20 ≤ calmCurve cfg.leverageEngine x := by
  unfold calmCurve
  split_ifs
  · norm_num
  · exact Interpolation.le_lerp (by norm_num) (by norm_num) _
  · exact Interpolation.le_lerp (by norm_num) (by norm_num) _
  · exact Interpolation.le_lerp (by norm_num) le_rfl _

/-- The multiplier falls where it does not go beyond the extreme, or the floor is at most
what the curve reaches there. -/
theorem volatility_falls (hs : Sane cfg) {x y : ℝ} (hxy : x ≤ y)
    (h : cfg.leverageEngine.volFloor ≤ 0.20 ∨ y ≤ cfg.leverageEngine.volExtremeAtr) :
    volatilityMultiplier cfg y ≤ volatilityMultiplier cfg x := by
  rw [volatilityMultiplier_eq hs, volatilityMultiplier_eq hs]
  rcases h with hfloor | hy
  · have hextreme : Antitone (extremeCurve cfg.leverageEngine) := by
      intro u v huv
      refine Interpolation.lerp_antitone hfloor (min_le_min_left _ ?_)
      exact div_le_div_of_nonneg_right (sub_le_sub_right huv _) (by norm_num)
    exact Interpolation.antitone_joined cfg.leverageEngine.volExtremeAtr 0.20
      (calmCurve_antitone hs) hextreme (fun u _ => le_calmCurve u)
      (fun u _ => Interpolation.lerp_le le_rfl hfloor _) hxy
  · rw [if_pos hy, if_pos (hxy.trans hy)]
    exact calmCurve_antitone hs hxy

theorem volatility_nonneg (hs : Sane cfg) (x : ℝ) : 0 ≤ volatilityMultiplier cfg x := by
  rw [volatilityMultiplier_eq hs]
  split_ifs
  · exact le_trans (by norm_num) (le_calmCurve x)
  · exact Interpolation.le_lerp (by norm_num) hs.floor.le _

theorem drawdown_falls (hs : Sane cfg) :
    Antitone (drawdownMultiplier cfg) ∧ ∀ x, 0 ≤ drawdownMultiplier cfg x := by
  have hfloor := hs.drawdownFloorLe
  set floor := cfg.leverageEngine.drawdownFloorMult with hf
  have hcurve : drawdownMultiplier cfg = fun x => if x ≤ 0 then (1 : ℝ) else
      max floor (min (floor + (1 - floor) *
        (1 - Real.tanh (0.5493 * (x / cfg.leverageEngine.drawdownHalfpointPct)))) 1) := by
    funext x
    simp only [drawdownMultiplier, zero_real, one_real, ← hf, stdClamp_real hfloor]
    rfl
  rw [hcurve]
  constructor
  · refine Interpolation.antitone_joined 0 1 antitone_const ?_ (fun _ _ => le_rfl)
      (fun x _ => max_le hfloor (min_le_right _ _))
    intro x y hxy
    have harg : 0.5493 * (x / cfg.leverageEngine.drawdownHalfpointPct) ≤
        0.5493 * (y / cfg.leverageEngine.drawdownHalfpointPct) :=
      mul_le_mul_of_nonneg_left (div_le_div_of_nonneg_right hxy hs.halfpoint.le) (by norm_num)
    have htanh := tanh_monotone harg
    have hmul := mul_le_mul_of_nonneg_left (sub_le_sub_left htanh 1) (sub_nonneg.mpr hfloor)
    exact max_le_max_left _ (min_le_min_right _ (add_le_add_right hmul floor))
  · intro x
    dsimp only
    split_ifs
    · exact zero_le_one
    · exact hs.drawdownFloor.trans (le_max_left _ _)

theorem conviction_rises (hs : Sane cfg) :
    Monotone (convictionMultiplier cfg) ∧ ∀ x, 0 ≤ convictionMultiplier cfg x := by
  set lc := cfg.leverageEngine with hlc
  have hcurve : convictionMultiplier cfg = (fun x => if x ≤ lc.convictionBreakpoint then
      Interpolation.lerp lc.convictionMinMult 1 (x / lc.convictionBreakpoint) else
      Interpolation.lerp 1 lc.convictionMaxMult
        ((x - lc.convictionBreakpoint) / (1 - lc.convictionBreakpoint))) ∘
      Interpolation.unit := by
    funext x
    simp only [convictionMultiplier, zero_real, ← hlc, lerp_real]
    norm_num [stdClamp_unit]
  have hmax : 0 ≤ lc.convictionMaxMult := zero_le_one.trans hs.convictionMax
  rw [hcurve]
  constructor
  · refine Monotone.comp ?_ Interpolation.unit_mono
    refine Interpolation.monotone_joined _ 1 ?_ ?_
      (fun x _ => Interpolation.lerp_le hs.convictionMinLe le_rfl _)
      (fun x _ => Interpolation.le_lerp le_rfl hs.convictionMax _)
    · intro x y hxy
      exact Interpolation.lerp_monotone hs.convictionMinLe
        (div_le_div_of_nonneg_right hxy hs.breakpoint.le)
    · intro x y hxy
      exact Interpolation.lerp_monotone hs.convictionMax
        (div_le_div_of_nonneg_right (sub_le_sub_right hxy _)
          (sub_pos.mpr hs.breakpointLt).le)
  · intro x
    simp only [Function.comp_apply]
    split_ifs
    · exact Interpolation.le_lerp hs.convictionMin zero_le_one _
    · exact Interpolation.le_lerp zero_le_one hmax _

theorem adversarial_falls : Antitone (adversarialMultiplier : ℝ → ℝ) ∧
    ∀ x : ℝ, 0 ≤ adversarialMultiplier x := by
  have hcurve : (adversarialMultiplier : ℝ → ℝ) =
      Interpolation.lerp 1 0.15 ∘ Interpolation.unit := by
    funext x
    have hfinite : isfinite x = true := rfl
    simp only [adversarialMultiplier, hfinite, if_true, lerp_real, zero_real, one_real,
      stdClamp_unit, Function.comp_apply]
  rw [hcurve]
  exact ⟨(Interpolation.lerp_antitone (by norm_num)).comp_monotone Interpolation.unit_mono,
    fun x => Interpolation.le_lerp zero_le_one (by norm_num) _⟩

theorem funding_nonneg (rate : ℝ) (side : PositionSide) : 0 ≤ fundingMultiplier cfg rate side := by
  simp only [fundingMultiplier, stdMax_real]
  split_ifs
  · norm_num
  · exact (by norm_num : (0 : ℝ) ≤ 0.15).trans (le_max_left _ _)
  · norm_num

def rank : UncertaintyLevel → ℕ
  | .low => 0
  | .moderate => 1
  | .high => 2
  | .extreme => 3

theorem uncertainty_falls {a b : UncertaintyLevel} (h : rank a ≤ rank b) :
    0 ≤ (uncertaintyMultiplier b : ℝ) ∧
      (uncertaintyMultiplier b : ℝ) ≤ uncertaintyMultiplier a := by
  cases a <;> cases b <;> first
    | exact absurd h (by decide)
    | (simp only [uncertaintyMultiplier]; norm_num)

end Curves

structure ContextRiskier (a b : LeverageContext ℝ) : Prop where
  regime : b.regime = a.regime
  funding : b.fundingRate = a.fundingRate
  side : b.positionSide = a.positionSide
  atr : a.atrNormalized ≤ b.atrNormalized
  drawdown : a.drawdownPct ≤ b.drawdownPct
  severity : a.adversarialSeverity ≤ b.adversarialSeverity
  conviction : b.conviction ≤ a.conviction
  uncertainty : rank a.uncertainty ≤ rank b.uncertainty

inductive Riskier : LeverageOp ℝ → LeverageOp ℝ → Prop where
  | stats (winRate winLossRatio : ℝ) :
    Riskier (.updateEdgeStats winRate winLossRatio) (.updateEdgeStats winRate winLossRatio)
  | context {a b : LeverageContext ℝ} (h : ContextRiskier a b) :
    Riskier (.computeLeverage a) (.computeLeverage b)

def VolatilityFalls (cfg : FuturesConfig ℝ) : LeverageOp ℝ → LeverageOp ℝ → Prop
  | .computeLeverage a, .computeLeverage b =>
    cfg.leverageEngine.volFloor ≤ 0.20 ∨
      b.atrNormalized ≤ cfg.leverageEngine.volExtremeAtr ∨
      volatilityMultiplier cfg b.atrNormalized ≤ volatilityMultiplier cfg a.atrNormalized
  | _, _ => True

def Dominates (cfg : FuturesConfig ℝ) (o o' : Option (LeverageDecision ℝ)) : Prop :=
  ∀ d ∈ o, ∀ d' ∈ o', d'.leverage ≤ d.leverage ∧
    (max 1 cfg.minLeverage ≤ d.leverage ∧ d.leverage ≤ cfg.maxLeverage) ∧
    (max 1 cfg.minLeverage ≤ d'.leverage ∧ d'.leverage ≤ cfg.maxLeverage)

structure Under (cfg : FuturesConfig ℝ) (e e' : LeverageEngine ℝ) : Prop where
  config : e.config = cfg
  config' : e'.config = cfg
  winRate : e'.winRate = e.winRate
  winLossRatio : e'.winLossRatio = e.winLossRatio
  initialized : e'.emaInitialized = e.emaInitialized
  regime : e'.lastRegime = e.lastRegime
  nonneg : 0 ≤ e'.emaLeverage
  le : e'.emaLeverage ≤ e.emaLeverage

section Steps
variable {cfg : FuturesConfig ℝ}

theorem product_le {x x' y y' : ℝ} (hx : 0 ≤ x' ∧ x' ≤ x) (hy : 0 ≤ y' ∧ y' ≤ y) :
    0 ≤ x' * y' ∧ x' * y' ≤ x * y :=
  ⟨mul_nonneg hx.1 hy.1, mul_le_mul hx.2 hy.2 hy.1 (hx.1.trans hx.2)⟩

theorem composite_le (hs : Sane cfg) {a b : LeverageContext ℝ} (h : ContextRiskier a b)
    (hv : VolatilityFalls cfg (.computeLeverage a) (.computeLeverage b)) :
    0 ≤ composite (factors cfg b) ∧ composite (factors cfg b) ≤ composite (factors cfg a) := by
  have hbase : (0 : ℝ) ≤ ofInt (baseLeverageForRegime cfg b.regime) ∧
      (ofInt (baseLeverageForRegime cfg b.regime) : ℝ) ≤
        ofInt (baseLeverageForRegime cfg a.regime) := by
    rw [h.regime]
    exact ⟨Int.cast_nonneg (zero_le_one.trans (hs.base a.regime)), le_rfl⟩
  have hvol : volatilityMultiplier cfg b.atrNormalized ≤
      volatilityMultiplier cfg a.atrNormalized := by
    rcases hv with hfloor | hextreme | hle
    · exact volatility_falls hs h.atr (Or.inl hfloor)
    · exact volatility_falls hs h.atr (Or.inr hextreme)
    · exact hle
  have hfunding : 0 ≤ fundingMultiplier cfg b.fundingRate b.positionSide ∧
      fundingMultiplier cfg b.fundingRate b.positionSide ≤
        fundingMultiplier cfg a.fundingRate a.positionSide := by
    rw [h.funding, h.side]
    exact ⟨funding_nonneg _ _, le_rfl⟩
  have h1 := product_le hbase ⟨volatility_nonneg hs b.atrNormalized, hvol⟩
  have h2 := product_le h1 ⟨(drawdown_falls hs).2 _, (drawdown_falls hs).1 h.drawdown⟩
  have h3 := product_le h2 ⟨(conviction_rises hs).2 _, (conviction_rises hs).1 h.conviction⟩
  have h4 := product_le h3 hfunding
  have h5 := product_le h4 ⟨adversarial_falls.2 _, adversarial_falls.1 h.severity⟩
  exact product_le h5 (uncertainty_falls h.uncertainty)

theorem kelly_nonneg (hs : Sane cfg) {e : LeverageEngine ℝ} (he : e.config = cfg) :
    0 ≤ kellyMaxLeverage e := by
  have hmin : (0 : ℝ) ≤ ofInt (max 1 cfg.minLeverage) :=
    Int.cast_nonneg (zero_le_one.trans (le_max_left _ _))
  have hle : (ofInt (max 1 cfg.minLeverage) : ℝ) ≤ ofInt cfg.maxLeverage :=
    Int.cast_le.mpr (max_le (hs.minLeverage.trans hs.maxLeverage) hs.maxLeverage)
  simp only [kellyMaxLeverage, he]
  split_ifs
  · exact hmin
  · rw [stdClamp_real hle]
    exact hmin.trans (le_max_left _ _)

/-- The bounded product and the mean of the second run stay under those of the first. -/
theorem smooth_le (hs : Sane cfg) {e e' : LeverageEngine ℝ} (hu : Under cfg e e')
    {a b : LeverageContext ℝ} (h : ContextRiskier a b)
    (hv : VolatilityFalls cfg (.computeLeverage a) (.computeLeverage b)) :
    let raw := stdMin (composite (factors cfg a)) (kellyMaxLeverage e)
    let raw' := stdMin (composite (factors cfg b)) (kellyMaxLeverage e')
    0 ≤ smooth e' b.regime raw' ∧ smooth e' b.regime raw' ≤ smooth e a.regime raw := by
  obtain ⟨hpos, hle⟩ := composite_le hs h hv
  have hkelly : kellyMaxLeverage e' = kellyMaxLeverage e := by
    simp only [kellyMaxLeverage, hu.config, hu.config', hu.winRate, hu.winLossRatio]
  have hraw : 0 ≤ stdMin (composite (factors cfg b)) (kellyMaxLeverage e') := by
    rw [stdMin_real]
    exact le_min hpos (kelly_nonneg hs hu.config')
  have hraws : stdMin (composite (factors cfg b)) (kellyMaxLeverage e') ≤
      stdMin (composite (factors cfg a)) (kellyMaxLeverage e) := by
    rw [stdMin_real, stdMin_real, hkelly]
    exact min_le_min_right _ hle
  simp only [smooth, hu.config, hu.config', hu.initialized, hu.regime, h.regime, one_real]
  split_ifs
  · refine ⟨?_, Interpolation.mean_le_mean hs.alpha.le hs.alphaLe hraws hu.le⟩
    exact add_nonneg (mul_nonneg hs.alpha.le hraw)
      (mul_nonneg (sub_nonneg.mpr hs.alphaLe) hu.nonneg)
  · exact ⟨hraw, hraws⟩

theorem clampInt_mono {v w lo hi : ℤ} (h : v ≤ w) (hlo : lo ≤ hi) :
    clampInt v lo hi ≤ clampInt w lo hi := by
  unfold clampInt
  split_ifs <;> omega

theorem clampInt_mem {v lo hi : ℤ} (hlo : lo ≤ hi) :
    lo ≤ clampInt v lo hi ∧ clampInt v lo hi ≤ hi := by
  unfold clampInt
  split_ifs <;> omega

theorem withLiquidation_leverage (ctx : LeverageContext ℝ) (d : LeverageDecision ℝ) :
    (withLiquidation cfg ctx d).leverage = d.leverage := by
  unfold withLiquidation
  split_ifs <;> rfl

theorem computeLeverage_leverage (fixed : ℕ → ℝ → String) {e : LeverageEngine ℝ}
    (he : e.config = cfg) (ctx : LeverageContext ℝ) :
    (computeLeverage fixed e ctx).2.leverage =
      clampInt (toInt (stdRound (smooth e ctx.regime
        (stdMin (composite (factors cfg ctx)) (kellyMaxLeverage e)))))
        (max 1 cfg.minLeverage) cfg.maxLeverage := by
  simp only [computeLeverage, he]
  rw [withLiquidation_leverage]

/-- A pair of related steps keeps the second run under the first. -/
theorem leverageStep_under (fixed : ℕ → ℝ → String) (hs : Sane cfg) (e e' : LeverageEngine ℝ)
    (op op' : LeverageOp ℝ) (hu : Under cfg e e')
    (h : Riskier op op' ∧ VolatilityFalls cfg op op') :
    Under cfg (leverageStep fixed e op).1 (leverageStep fixed e' op').1 ∧
      Dominates cfg (leverageStep fixed e op).2 (leverageStep fixed e' op').2 := by
  obtain ⟨hrisk, hv⟩ := h
  cases hrisk with
  | stats winRate winLossRatio =>
    refine ⟨?_, fun d hd => absurd hd (Option.not_mem_none d)⟩
    exact ⟨hu.config, hu.config', rfl, rfl, hu.initialized, hu.regime, hu.nonneg, hu.le⟩
  | @context a b hctx =>
    obtain ⟨hpos, hle⟩ := smooth_le hs hu hctx hv
    have hrange : max 1 cfg.minLeverage ≤ cfg.maxLeverage :=
      max_le (hs.minLeverage.trans hs.maxLeverage) hs.maxLeverage
    constructor
    · refine ⟨hu.config, hu.config', hu.winRate, hu.winLossRatio, rfl, hctx.regime, ?_, ?_⟩
      · simpa only [leverageStep, computeLeverage, hu.config'] using hpos
      · simpa only [leverageStep, computeLeverage, hu.config, hu.config'] using hle
    · intro d hd d' hd'
      rw [← Option.mem_some.mp hd, ← Option.mem_some.mp hd',
        computeLeverage_leverage fixed hu.config, computeLeverage_leverage fixed hu.config',
        toInt_stdRound hpos, toInt_stdRound (hpos.trans hle)]
      exact ⟨clampInt_mono (Int.floor_le_floor (add_le_add_left hle _)) hrange,
        clampInt_mem hrange, clampInt_mem hrange⟩

end Steps

/-- At every call the run with the riskier contexts has at most the leverage of the other,
and both leverages are in the interval of the configuration. -/
theorem leverage_monotone (toText : ℝ → String) (fixed : ℕ → ℝ → String)
    (cfg : FuturesConfig ℝ) (ops ops' : List (LeverageOp ℝ))
    (hvalid : validateFutures toText cfg = [])
    (h : List.Forall₂ (fun op op' => Riskier op op' ∧ VolatilityFalls cfg op op') ops ops') :
    List.Forall₂ (Dominates cfg)
      (PairedRuns.outputs (leverageStep fixed) (newEngine cfg) ops)
      (PairedRuns.outputs (leverageStep fixed) (newEngine cfg) ops') := by
  have hzero : (newEngine cfg).emaLeverage = 0 := zero_real
  exact PairedRuns.outputs_related (leverageStep fixed)
    (leverageStep_under fixed (sane_of_valid hvalid))
    ⟨rfl, rfl, rfl, rfl, rfl, rfl, hzero.ge, le_rfl⟩ h

noncomputable def trendContext (atr drawdown : ℝ) : LeverageContext ℝ where
  regime := .trending
  uncertainty := .low
  atrNormalized := atr
  drawdownPct := drawdown
  adversarialSeverity := 0
  conviction := 0.7
  fundingRate := 0
  positionSide := .long
  entryPrice := 0

noncomputable def flooredConfig (maxLeverage : ℤ) (volFloor : ℝ) : FuturesConfig ℝ :=
  { defaultFuturesConfig with
    maxLeverage := maxLeverage
    leverageEngine := { defaultFuturesConfig.leverageEngine with volFloor := volFloor } }

theorem flooredConfig_valid {maxLeverage : ℤ} {volFloor : ℝ} (hlo : 10 ≤ maxLeverage)
    (hhi : maxLeverage ≤ 125) (hfloor : 0 < volFloor ∧ volFloor ≤ 1) (toText : ℝ → String) :
    validateFutures toText (flooredConfig maxLeverage volFloor) = [] := by
  unfold validateFutures validateLeverageEngine checkRegimeLeverage
  simp only [List.append_eq_nil_iff, errorIf_nil]
  simp only [flooredConfig, defaultFuturesConfig]
  norm_num
  have husdt : ¬ "USDT" = "" := by decide
  refine ⟨⟨⟨⟨⟨⟨⟨husdt, ?_, hhi⟩, ?_⟩, ?_⟩, hlo⟩, ?_⟩, ?_⟩, hfloor⟩
  all_goals omega

theorem leverage_monotone_drawdown :
    List.Forall₂ (Dominates (flooredConfig 20 0.1))
      (PairedRuns.outputs (leverageStep (fun _ _ => "")) (newEngine (flooredConfig 20 0.1))
        [.computeLeverage (trendContext 0.001 0), .computeLeverage (trendContext 0.001 0)])
      (PairedRuns.outputs (leverageStep (fun _ _ => "")) (newEngine (flooredConfig 20 0.1))
        [.computeLeverage (trendContext 0.001 0), .computeLeverage (trendContext 0.004 10)]) := by
  refine leverage_monotone (fun _ => "") _ _ _ _
    (flooredConfig_valid (by norm_num) (by norm_num) (by norm_num) _) ?_
  have hfloor : (flooredConfig 20 0.1).leverageEngine.volFloor ≤ 0.20 := by
    norm_num [flooredConfig]
  refine .cons ⟨.context ⟨rfl, rfl, rfl, le_rfl, le_rfl, le_rfl, le_rfl, le_rfl⟩, Or.inl hfloor⟩
    (.cons ⟨.context ⟨rfl, rfl, rfl, ?_, ?_, le_rfl, le_rfl, le_rfl⟩, Or.inl hfloor⟩ .nil)
  · norm_num [trendContext]
  · norm_num [trendContext]

/-- The leverage of a first call is the product, where it is whole and within the bounds. -/
theorem first_leverage (fixed : ℕ → ℝ → String) {cfg : FuturesConfig ℝ} (ctx : LeverageContext ℝ)
    {n : ℤ} (hcomposite : composite (factors cfg ctx) = n)
    (hkelly : (n : ℝ) ≤ kellyMaxLeverage (newEngine cfg)) (hn : 0 ≤ n)
    (hlo : max 1 cfg.minLeverage ≤ n) (hhi : n ≤ cfg.maxLeverage) :
    (computeLeverage fixed (newEngine cfg) ctx).2.leverage = n := by
  have hraw : stdMin (composite (factors cfg ctx)) (kellyMaxLeverage (newEngine cfg)) = n := by
    rw [stdMin_real, hcomposite, min_eq_left hkelly]
  have hsmooth : smooth (newEngine cfg) ctx.regime (n : ℝ) = n := by
    simp [smooth, newEngine]
  have hround : ⌊(n : ℝ) + 0.5⌋ = n := by
    rw [Int.floor_eq_iff]
    constructor <;> norm_num
  have hconfig : (newEngine cfg).config = cfg := rfl
  rw [computeLeverage_leverage fixed hconfig, hraw, hsmooth,
    toInt_stdRound (Int.cast_nonneg hn), hround, clampInt]
  split_ifs <;> omega

theorem flooredKelly (volFloor : ℝ) :
    5 ≤ kellyMaxLeverage (newEngine (flooredConfig 100 volFloor)) := by
  have hone : (ofInt (max 1 1) : ℝ) = 1 := by
    rw [max_self]
    exact Int.cast_one
  have hhundred : (ofInt 100 : ℝ) = 100 := Int.cast_ofNat 100
  simp only [kellyMaxLeverage, newEngine, flooredConfig, defaultFuturesConfig, hone, hhundred]
  rw [stdClamp_real (by norm_num)]
  norm_num

theorem trend_composite (volFloor atr : ℝ) :
    composite (factors (flooredConfig 100 volFloor) (trendContext atr 0)) =
      10 * volatilityMultiplier (flooredConfig 100 volFloor) atr := by
  have hbase : (ofInt (baseLeverageForRegime (flooredConfig 100 volFloor) .trending) : ℝ) = 10 :=
    Int.cast_ofNat 10
  have hdrawdown : drawdownMultiplier (flooredConfig 100 volFloor) 0 = 1 := by
    simp [drawdownMultiplier]
    norm_num
  have hconviction : convictionMultiplier (flooredConfig 100 volFloor) 0.7 = 1 := by
    simp only [convictionMultiplier, zero_real, one_real, stdClamp_unit, lerp_real]
    norm_num [flooredConfig, defaultFuturesConfig, Interpolation.unit, Interpolation.lerp]
  have hfunding : fundingMultiplier (flooredConfig 100 volFloor) 0 .long = 1 := by
    norm_num [fundingMultiplier, stdAbs, flooredConfig, defaultFuturesConfig]
  have hadversarial : adversarialMultiplier (0 : ℝ) = 1 := by
    have hfinite : isfinite (0 : ℝ) = true := rfl
    simp only [adversarialMultiplier, hfinite, if_true, lerp_real, zero_real, one_real,
      stdClamp_unit, Interpolation.unit_zero, Interpolation.lerp]
    norm_num
  have huncertainty : (uncertaintyMultiplier .low : ℝ) = 1 := one_real
  simp only [composite, factors, trendContext, hbase, hdrawdown, hconviction, hfunding,
    hadversarial, huncertainty, mul_one]

/-- With a floor of a half the leverage rises from two to five between the extreme
volatility and three times as much. -/
theorem floor_raises_leverage :
    ¬ ∀ (cfg : FuturesConfig ℝ) (ops ops' : List (LeverageOp ℝ)),
      validateFutures (fun _ => "") cfg = [] → List.Forall₂ Riskier ops ops' →
      List.Forall₂ (Dominates cfg)
        (PairedRuns.outputs (leverageStep (fun _ _ => "")) (newEngine cfg) ops)
        (PairedRuns.outputs (leverageStep (fun _ _ => "")) (newEngine cfg) ops') := by
  intro h
  have hrisk : List.Forall₂ Riskier [.computeLeverage (trendContext 0.02 0)]
      [.computeLeverage (trendContext 0.06 0)] :=
    .cons (.context ⟨rfl, rfl, rfl, by norm_num [trendContext], le_rfl, le_rfl, le_rfl,
      le_rfl⟩) .nil
  have hrun := h (flooredConfig 100 0.5) _ _
    (flooredConfig_valid (by norm_num) (by norm_num) (by norm_num) _) hrisk
  obtain ⟨hdominates, -⟩ := List.forall₂_cons.mp hrun
  have hsane : Sane (flooredConfig 100 0.5) := sane_of_valid
    (flooredConfig_valid (by norm_num) (by norm_num) (by norm_num) (fun _ => ""))
  have hextreme : (flooredConfig 100 0.5).leverageEngine.volExtremeAtr = 0.02 := rfl
  have hcalm : composite (factors (flooredConfig 100 0.5) (trendContext 0.02 0)) =
      ((2 : ℤ) : ℝ) := by
    rw [trend_composite, volatilityMultiplier_eq hsane, hextreme, if_pos le_rfl]
    norm_num [calmCurve, flooredConfig, defaultFuturesConfig, Interpolation.unit,
      Interpolation.lerp]
  have hwild : composite (factors (flooredConfig 100 0.5) (trendContext 0.06 0)) =
      ((5 : ℤ) : ℝ) := by
    rw [trend_composite, volatilityMultiplier_eq hsane, hextreme, if_neg (by norm_num)]
    norm_num [extremeCurve, flooredConfig, defaultFuturesConfig, Interpolation.unit,
      Interpolation.lerp]
  have h2 := first_leverage (fun _ _ => "") _ hcalm
    (le_trans (by norm_num) (flooredKelly 0.5)) (by norm_num) (by decide) (by decide)
  have h5 := first_leverage (fun _ _ => "") _ hwild
    (le_trans (by norm_num) (flooredKelly 0.5)) (by norm_num) (by decide) (by decide)
  have hle := (hdominates _ rfl _ rfl).1
  rw [h2, h5] at hle
  exact absurd hle (by decide)

end TB.LeverageMonotone
