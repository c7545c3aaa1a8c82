import TomorrowBot.SizeUnderRisk

/-!
# Riskier inputs that enlarge a size

For inputs that are not safe there is a call whose size they enlarge: a minimum
that the capital affords and the cash does not, a raise to the minimal notional
past the size before, and a negative size that the drawdown turns around.
-/

set_option autoImplicit false

namespace TB.EnlargedSizes
open TB.CommonTypes TB.StrategyTypes TB.PortfolioAllocator TB.AllocationCaps
open TB.FilterOutcomes TB.StepGrid TB.SizeUnderRisk

section Probe
variable (cfg : AllocatorConfig ℚ) (intent : StrategyIntent ℚ) (portfolio : FundedSnapshot ℚ)
  (ctx : AllocationContext ℚ) (f : ExchangeFilters ℚ) (price cash u : ℚ)

def probe : SizingCall where
  intent := {
    intent with
    limitPrice := some price
    suggestedQuantity := notionalLimit cfg intent portfolio / price }
  portfolio := withCash portfolio cash
  context := {
    ctx with
    avgDailyVolume := 0
    bookDepthNotional := 0
    maxLossPerTradePct := 0
    exchangeFilters := some f }
  uncertaintySizeMultiplier := u

def cashLeverage : ℚ := stdMax (cfg.maxLeverage * 0.8) 1.0

theorem one_le_cashLeverage : 1 ≤ cashLeverage cfg := by
  rw [cashLeverage, stdMax_rat, one_literal]
  exact le_max_right _ _

theorem effective_some {cash : ℚ} (hcash : 0 < cash) :
    computeEffectiveAvailableNotional cfg (withCash portfolio cash) = cash * cashLeverage cfg := by
  rw [computeEffectiveAvailableNotional, zero_literal]
  exact congrArg (· * cashLeverage cfg) (if_pos hcash)

theorem effective_none {cash : ℚ} (hcash : cash ≤ 0) :
    computeEffectiveAvailableNotional cfg (withCash portfolio cash) =
      portfolio.totalCapital * cashLeverage cfg := by
  rw [computeEffectiveAvailableNotional, zero_literal]
  exact congrArg (· * cashLeverage cfg) (if_neg (not_lt.mpr hcash))

def probedQuantity : ℚ :=
  let limit := notionalLimit cfg intent portfolio / price
  min (limit * stdClamp u 0 1 * appliedVolatility cfg ctx) limit *
    min (computeDrawdownScale cfg ctx.currentDrawdownPct) 1

variable {cfg intent portfolio ctx f price cash u}

theorem probe_affordable :
    maxAffordableNotional cfg (probe cfg intent portfolio ctx f price cash u).portfolio
      (probe cfg intent portfolio ctx f price cash u).context =
      computeEffectiveAvailableNotional cfg (withCash portfolio cash) := by
  have happlies : ¬ riskCapApplies (probe cfg intent portfolio ctx f price cash u).portfolio
      (probe cfg intent portfolio ctx f price cash u).context = true := by
    intro h
    rw [riskCapApplies, Bool.and_eq_true, Bool.and_eq_true, zero_literal] at h
    exact absurd (of_decide_eq_true h.1.2) (lt_irrefl 0)
  rw [maxAffordableNotional, if_neg happlies]
  rfl

theorem probe_target :
    notionalLimit cfg intent portfolio / price ≤
      targetQuantity cfg (probe cfg intent portfolio ctx f price cash u).intent
        (probe cfg intent portfolio ctx f price cash u).portfolio price := by
  simp only [targetQuantity]
  split_ifs with h
  · exact le_rfl
  · exact not_lt.mp h

theorem probe_sizable {price₀ : ℚ} (hz : Sizable cfg intent portfolio price₀) (hp : 0 < price)
    (hcash : 0 < computeEffectiveAvailableNotional cfg (withCash portfolio cash)) :
    Sizable cfg (probe cfg intent portfolio ctx f price cash u).intent
      (probe cfg intent portfolio ctx f price cash u).portfolio price := by
  have hlimit : 0 < notionalLimit cfg intent portfolio / price :=
    div_pos (lt_min (lt_min hz.2.1 hz.2.2.1) hz.2.2.2.1) hp
  exact ⟨hlimit.trans_le probe_target, hz.2.1, hz.2.2.1, hz.2.2.2.1, hcash⟩

theorem probe_capped :
    cappedQuantity cfg (probe cfg intent portfolio ctx f price cash u).intent
      (probe cfg intent portfolio ctx f price cash u).portfolio
      (probe cfg intent portfolio ctx f price cash u).context u price =
      spentQuantity price (probedQuantity cfg intent portfolio ctx price u)
        (computeEffectiveAvailableNotional cfg (withCash portfolio cash)) := by
  rw [capped_eq_spent, probe_affordable]
  have hliquid (q : ℚ) : liquidQuantity cfg (probe cfg intent portfolio ctx f price cash u).context
      price q = q := by
    have hcap : computeLiquidityCap cfg (probe cfg intent portfolio ctx f price cash u).context =
        maxDouble := by
      simp only [computeLiquidityCap, probe, zero_literal, lt_irrefl, if_false]
    rw [liquidQuantity, hcap, if_neg (lt_irrefl _)]
  rw [hliquid, wantedQuantity]
  have hlimit : notionalLimit cfg (probe cfg intent portfolio ctx f price cash u).intent
      (probe cfg intent portfolio ctx f price cash u).portfolio =
      notionalLimit cfg intent portfolio := rfl
  rw [hlimit, min_eq_right probe_target]
  rfl

theorem probe_size {toText : ℚ → String} {price₀ q : ℚ}
    (hz : Sizable cfg intent portfolio price₀) (hp : 0 < price)
    (hcash : 0 < computeEffectiveAvailableNotional cfg (withCash portfolio cash))
    (hq : spentQuantity price (probedQuantity cfg intent portfolio ctx price u)
      (computeEffectiveAvailableNotional cfg (withCash portfolio cash)) = q)
    (ha : Admitted f price (computeEffectiveAvailableNotional cfg (withCash portfolio cash)) q) :
    size toText cfg (probe cfg intent portfolio ctx f price cash u) =
      max (passedQuantity f price q) 0 := by
  have hcapped := (probe_capped (f := f)).trans hq
  have hadmitted := ha
  rw [← hcapped, ← @probe_affordable cfg intent portfolio ctx f price cash u] at hadmitted
  rw [← hcapped]
  exact size_of_admitted rfl rfl hp (probe_sizable hz hp hcash) hadmitted

theorem probe_refused {toText : ℚ → String} {q : ℚ} (hp : 0 < price)
    (hq : spentQuantity price (probedQuantity cfg intent portfolio ctx price u)
      (computeEffectiveAvailableNotional cfg (withCash portfolio cash)) = q)
    (ha : ¬ Admitted f price (computeEffectiveAvailableNotional cfg (withCash portfolio cash)) q) :
    size toText cfg (probe cfg intent portfolio ctx f price cash u) = 0 := by
  have hcapped := (probe_capped (f := f)).trans hq
  rw [← hcapped, ← @probe_affordable cfg intent portfolio ctx f price cash u] at ha
  exact size_of_refused rfl rfl hp (fun h => ha h.2)

end Probe

section Filters
variable {f : ExchangeFilters ℚ} {price affordable q : ℚ}

def openFilters (step : ℚ) : ExchangeFilters ℚ := ⟨0, 0, step, 0, 0⟩

theorem unbounded_clamped (hmin : f.minQuantity = 0) (hmax : f.maxQuantity = 0) (hq : 0 ≤ q) :
    clampedQuantity f q = below f.quantityStep q := by
  rw [clampedQuantity, roundQuantityDown_grid, hmin, hmax, if_neg (lt_irrefl 0)]
  exact max_eq_left (below_nonneg _ hq)

theorem unbounded_admitted (hmin : f.minQuantity = 0) (hmax : f.maxQuantity = 0) (hq : 0 ≤ q)
    (h : clampedQuantity f q * price < f.minNotional →
      minQtyForNotional price f * price ≤ affordable) :
    Admitted f price affordable q := by
  refine ⟨fun hinverted => absurd hinverted.1 hmax.not_gt, fun hlow => ?_,
    fun hlow => ⟨h hlow, Or.inl hmax.le⟩⟩
  rw [roundQuantityDown_grid, hmin] at hlow
  exact absurd hlow (not_lt.mpr (below_nonneg _ hq))

variable (step : ℚ)

theorem open_passes (hp : 0 < price) (hq : 0 ≤ q) : Admitted (openFilters step) price affordable q ∧
      passedQuantity (openFilters step) price q = below step q := by
  have hclamped : clampedQuantity (openFilters step) q = below step q :=
    unbounded_clamped rfl rfl hq
  have hnotional : ¬ clampedQuantity (openFilters step) q * price <
      (openFilters step).minNotional := by
    rw [hclamped]
    exact not_lt.mpr (mul_nonneg (below_nonneg _ hq) hp.le)
  refine ⟨unbounded_admitted rfl rfl hq (fun h => absurd h hnotional), ?_⟩
  rw [passedQuantity, if_neg hnotional, hclamped]

def fineQuantity (step : ℚ) : ℚ := if 0 < step then step else 1e-15 / 2

def fineFilters (step price : ℚ) : ExchangeFilters ℚ := ⟨0, 0, step, fineQuantity step * price, 0⟩

theorem fine_pos : 0 < fineQuantity step := by
  unfold fineQuantity
  split_ifs with h
  · exact h
  · norm_num

theorem fine_lt {step : ℚ} (h : step < 1e-15) : fineQuantity step < 1e-15 := by
  unfold fineQuantity
  split_ifs
  · exact h
  · norm_num

theorem fine_rounds : below step (fineQuantity step) = fineQuantity step := by
  unfold fineQuantity
  split_ifs with h
  · exact below_one_step h
  · exact below_fine (not_lt.mp h)

theorem fine_passes : Admitted (fineFilters step price) price affordable (fineQuantity step) ∧
      passedQuantity (fineFilters step price) price (fineQuantity step) = fineQuantity step := by
  have hclamped : clampedQuantity (fineFilters step price) (fineQuantity step) =
      fineQuantity step := (unbounded_clamped rfl rfl (fine_pos step).le).trans (fine_rounds step)
  have hnotional : ¬ clampedQuantity (fineFilters step price) (fineQuantity step) * price <
      (fineFilters step price).minNotional := by
    rw [hclamped]
    exact lt_irrefl _
  refine ⟨unbounded_admitted rfl rfl (fine_pos step).le (fun h => absurd h hnotional), ?_⟩
  rw [passedQuantity, if_neg hnotional, hclamped]

theorem fine_raises {step : ℚ} (hp : 0 < price) (hs : step < 1e-15) (hq : 0 ≤ q)
    (hlt : q < fineQuantity step) (ha : 1e-15 * price ≤ affordable) :
    Admitted (fineFilters step price) price affordable q ∧
      passedQuantity (fineFilters step price) price q = 1e-15 := by
  have hminimal : minQtyForNotional price (fineFilters step price) = 1e-15 := by
    have hnotional : (fineFilters step price).minNotional / price = fineQuantity step :=
      mul_div_cancel_right₀ _ hp.ne'
    have hstep : max (fineFilters step price).quantityStep 1e-15 = 1e-15 := max_eq_right hs.le
    rw [minQtyForNotional_grid, hnotional, hstep]
    exact above_first_step (fine_pos step) (fine_lt hs).le
  have hclamped : clampedQuantity (fineFilters step price) q < fineQuantity step := by
    rw [unbounded_clamped rfl rfl hq]
    exact (below_le _ q).trans_lt hlt
  have hnotional : clampedQuantity (fineFilters step price) q * price <
      (fineFilters step price).minNotional := mul_lt_mul_of_pos_right hclamped hp
  refine ⟨unbounded_admitted rfl rfl hq (fun _ => ?_), ?_⟩
  · rw [hminimal]
    exact ha
  · rw [passedQuantity, if_pos hnotional, hminimal]

end Filters

section Calls
variable {toText : ℚ → String} {cfg : AllocatorConfig ℚ} {intent : StrategyIntent ℚ}
  {portfolio : FundedSnapshot ℚ} {ctx : AllocationContext ℚ} {step price₀ : ℚ}

def unitFilters (step : ℚ) : ExchangeFilters ℚ := ⟨1, 0, step, 0, 0⟩

theorem exhausted_enlarges {a a' u : ℚ} (hz : Sizable cfg intent portfolio price₀)
    (hcash : 0 < a) (hnone : a' ≤ 0) (hless : a < portfolio.totalCapital) :
    ∃ price : ℚ,
      size toText cfg (probe cfg intent portfolio ctx (unitFilters step) price a u) <
      size toText cfg (probe cfg intent portfolio ctx (unitFilters step) price a' u) := by
  have hleverage : 0 < cashLeverage cfg := leverage_pos
  have hprice : 0 < portfolio.totalCapital * cashLeverage cfg :=
    mul_pos (hcash.trans hless) hleverage
  refine ⟨portfolio.totalCapital * cashLeverage cfg, ?_⟩
  set price := portfolio.totalCapital * cashLeverage cfg
  have hspent : spentQuantity price (probedQuantity cfg intent portfolio ctx price u)
      (computeEffectiveAvailableNotional cfg (withCash portfolio a)) < 1 := by
    rw [effective_some cfg portfolio hcash]
    refine max_lt (lt_of_le_of_lt (min_le_right _ _) ?_) zero_lt_one
    exact (div_lt_one hprice).mpr (mul_lt_mul_of_pos_right hless hleverage)
  rw [probe_refused hprice rfl (fun h => ?_)]
  swap
  · obtain ⟨-, hminimum, -⟩ := h
    rw [roundQuantityDown_grid] at hminimum
    have hafford : 1 * price ≤ computeEffectiveAvailableNotional cfg (withCash portfolio a) :=
      hminimum ((below_le _ _).trans_lt hspent)
    rw [effective_some cfg portfolio hcash, one_mul] at hafford
    exact absurd (mul_lt_mul_of_pos_right hless hleverage) (not_lt.mpr hafford)
  have heffective := effective_none cfg portfolio hnone
  have hclamped (q : ℚ) : 1 ≤ clampedQuantity (unitFilters step) q := by
    have hunbounded : ¬ 0 < (unitFilters step).maxQuantity := lt_irrefl 0
    rw [clampedQuantity, if_neg hunbounded]
    exact le_max_right _ _
  have hnotional (q : ℚ) : ¬ clampedQuantity (unitFilters step) q * price <
      (unitFilters step).minNotional :=
    not_lt.mpr (mul_nonneg (zero_le_one.trans (hclamped q)) hprice.le)
  rw [probe_size hz hprice (by rw [heffective]; exact hprice) rfl
    ⟨fun h => absurd h.1 (lt_irrefl 0), fun _ => ?_, fun h => absurd h (hnotional _)⟩]
  · rw [passedQuantity, if_neg (hnotional _)]
    exact lt_max_of_lt_left (zero_lt_one.trans_le (hclamped _))
  · rw [heffective]
    exact (one_mul price).le

theorem calm_probed {price u d : ℚ} (hp : 0 < price) (hz : Sizable cfg intent portfolio price₀)
    (hcalm : ctx.realizedVolAnnual = 0) :
    probedQuantity cfg intent portfolio (atDrawdown ctx d) price u =
      notionalLimit cfg intent portfolio / price *
        (stdClamp u 0 1 * min (computeDrawdownScale cfg d) 1) := by
  have hvol : appliedVolatility cfg (atDrawdown ctx d) = 1 := by
    have hmultiplier : computeVolatilityMultiplier cfg (atDrawdown ctx d) = 1 := by
      simp only [computeVolatilityMultiplier, atDrawdown, hcalm, zero_literal, one_literal,
        le_refl, if_true]
    rw [appliedVolatility, hmultiplier, if_neg (by norm_num)]
  have hlimit : 0 ≤ notionalLimit cfg intent portfolio / price :=
    (div_pos (lt_min (lt_min hz.2.1 hz.2.2.1) hz.2.2.2.1) hp).le
  simp only [probedQuantity, hvol, mul_one]
  rw [min_eq_left (mul_le_of_le_one_right hlimit (clamp_le_one u)), mul_assoc]
  rfl

theorem clamp_one : stdClamp (1 : ℚ) 0 1 = 1 := by decide +kernel

/-- A call with a step finer than the raise, in which the smaller multiplier is raised. -/
theorem fine_enlarges {u u' d d' : ℚ} (hz : Sizable cfg intent portfolio price₀)
    (hs : step < 1e-15) (hcalm : ctx.realizedVolAnnual = 0)
    (hpos : 0 < stdClamp u 0 1 * min (computeDrawdownScale cfg d) 1)
    (hlt : stdClamp u' 0 1 * min (computeDrawdownScale cfg d') 1 <
      stdClamp u 0 1 * min (computeDrawdownScale cfg d) 1) :
    ∃ price cash : ℚ,
      size toText cfg (probe cfg intent portfolio (atDrawdown ctx d) (fineFilters step price) price
        cash u) <
      size toText cfg (probe cfg intent portfolio (atDrawdown ctx d') (fineFilters step price)
        price cash u') := by
  set multiplier := stdClamp u 0 1 * min (computeDrawdownScale cfg d) 1
  have hlimit : 0 < notionalLimit cfg intent portfolio :=
    lt_min (lt_min hz.2.1 hz.2.2.1) hz.2.2.2.1
  have hfine := fine_pos step
  -- the price at which the larger multiplier leaves the fine quantity
  set price := notionalLimit cfg intent portfolio * multiplier / fineQuantity step with hprice
  have hp : 0 < price := div_pos (mul_pos hlimit hpos) hfine
  have hunit : notionalLimit cfg intent portfolio / price * multiplier = fineQuantity step := by
    rw [hprice]
    field_simp
  have hcash : (0 : ℚ) < 1e-15 * price := mul_pos (by norm_num) hp
  have heffective := effective_some cfg portfolio hcash
  have hpositive : 0 < computeEffectiveAvailableNotional cfg
      (withCash portfolio (1e-15 * price)) := by
    rw [heffective]
    exact mul_pos hcash leverage_pos
  have hafford : 1e-15 * price ≤ computeEffectiveAvailableNotional cfg
      (withCash portfolio (1e-15 * price)) := by
    rw [heffective]
    exact le_mul_of_one_le_right hcash.le (one_le_cashLeverage cfg)
  have hspent : spentQuantity price (probedQuantity cfg intent portfolio (atDrawdown ctx d) price u)
      (computeEffectiveAvailableNotional cfg (withCash portfolio (1e-15 * price))) =
      fineQuantity step := by
    rw [calm_probed hp hz hcalm]
    rw [hunit, spentQuantity, min_eq_left, max_eq_left hfine.le]
    exact (fine_lt hs).le.trans ((le_div_iff₀ hp).mpr hafford)
  have hless : spentQuantity price
      (probedQuantity cfg intent portfolio (atDrawdown ctx d') price u')
      (computeEffectiveAvailableNotional cfg (withCash portfolio (1e-15 * price))) <
      fineQuantity step := by
    rw [calm_probed hp hz hcalm]
    refine max_lt ((min_le_left _ _).trans_lt ?_) hfine
    rw [← hunit]
    exact mul_lt_mul_of_pos_left hlt (div_pos hlimit hp)
  obtain ⟨hadmitted, hpassed⟩ := fine_passes step
  obtain ⟨hadmitted', hraised⟩ := fine_raises hp hs (spent_nonneg _ _) hless hafford
  refine ⟨price, 1e-15 * price, ?_⟩
  rw [probe_size hz hp hpositive hspent hadmitted, probe_size hz hp hpositive rfl hadmitted',
    hpassed, hraised, max_eq_left hfine.le]
  exact lt_max_of_lt_left (fine_lt hs)

/-- A negative multiplier of the volatility and a negative scale make a size. -/
theorem turned_enlarges {d d' : ℚ} (hz : Sizable cfg intent portfolio price₀)
    (hv : computeVolatilityMultiplier cfg ctx < 0) (hdown : computeDrawdownScale cfg d' < 0)
    (hlt : min (computeDrawdownScale cfg d') 1 < min (computeDrawdownScale cfg d) 1) :
    ∃ price cash : ℚ,
      size toText cfg (probe cfg intent portfolio (atDrawdown ctx d) (openFilters step) price
        cash 1) <
      size toText cfg (probe cfg intent portfolio (atDrawdown ctx d') (openFilters step) price
        cash 1) := by
  set v := computeVolatilityMultiplier cfg ctx with hmultiplier
  have hlimit : 0 < notionalLimit cfg intent portfolio :=
    lt_min (lt_min hz.2.1 hz.2.2.1) hz.2.2.2.1
  set wanted := notionalLimit cfg intent portfolio * v with hwanted
  have hneg : wanted < 0 := mul_neg_of_pos_of_neg hlimit hv
  have hvol : appliedVolatility cfg ctx = v := by
    have hfar : (0.01 : ℚ) < |computeVolatilityMultiplier cfg ctx - 1| := by
      rw [abs_of_neg (by linarith)]
      linarith
    rw [appliedVolatility, if_pos hfar]
  have hprobed (pct price : ℚ) (hp : 0 < price) :
      probedQuantity cfg intent portfolio (atDrawdown ctx pct) price 1 =
        wanted * min (computeDrawdownScale cfg pct) 1 / price := by
    have happlied : appliedVolatility cfg (atDrawdown ctx pct) = v := hvol
    have hbelow : notionalLimit cfg intent portfolio / price * v ≤
        notionalLimit cfg intent portfolio / price :=
      mul_le_of_le_one_right (div_pos hlimit hp).le (hv.le.trans zero_le_one)
    simp only [probedQuantity, happlied, clamp_one, mul_one, min_eq_left hbelow]
    change _ * min (computeDrawdownScale cfg pct) 1 = _
    rw [hwanted]
    ring
  set before := wanted * min (computeDrawdownScale cfg d) 1
  set after := wanted * min (computeDrawdownScale cfg d') 1
  have hafter : 0 < after :=
    mul_pos_of_neg_of_neg hneg ((min_le_left _ _).trans_lt hdown)
  have hgap : 0 < after - max before 0 :=
    sub_pos.mpr (max_lt (mul_lt_mul_of_neg_left hlt hneg) hafter)
  -- the price at which the two quantities are a step apart
  set price := (after - max before 0) / max step 1 with hprice
  have hstep : 0 < max step 1 := lt_max_of_lt_right zero_lt_one
  have hp : 0 < price := div_pos hgap hstep
  have heffective := effective_some cfg portfolio hafter
  have hafford : after ≤ computeEffectiveAvailableNotional cfg (withCash portfolio after) := by
    rw [heffective]
    exact le_mul_of_one_le_right hafter.le (one_le_cashLeverage cfg)
  have hspent (x : ℚ) (hx : x ≤ after) : spentQuantity price (x / price)
      (computeEffectiveAvailableNotional cfg (withCash portfolio after)) = max x 0 / price := by
    have hdiv : x / price ≤
        computeEffectiveAvailableNotional cfg (withCash portfolio after) / price :=
      div_le_div_of_nonneg_right (hx.trans hafford) hp.le
    rw [spentQuantity, min_eq_left hdiv, ← max_div_div_right hp.le, zero_div]
  have hapart : max before 0 / price + max step 1 = max after 0 / price := by
    rw [max_eq_left hafter.le, hprice]
    field_simp
    ring
  have hround : below step (max before 0 / price) < below step (max after 0 / price) := by
    refine below_lt ?_ ?_
    · rw [← hapart]
      exact lt_add_of_pos_right _ hstep
    · rw [← hapart]
      exact add_le_add_right (le_max_left _ _) _
  have hbefore : before ≤ after := (mul_lt_mul_of_neg_left hlt hneg).le
  have hnonneg (x : ℚ) : 0 ≤ max x 0 / price := div_nonneg (le_max_right _ _) hp.le
  obtain ⟨hadmitted, hpassed⟩ := open_passes step hp (hnonneg before)
  obtain ⟨hadmitted', hpassed'⟩ := open_passes step hp (hnonneg after)
  refine ⟨price, after, ?_⟩
  rw [probe_size hz hp (hafter.trans_le hafford)
      (by rw [hprobed d price hp]; exact hspent before hbefore) hadmitted,
    probe_size hz hp (hafter.trans_le hafford)
      (by rw [hprobed d' price hp]; exact hspent after le_rfl) hadmitted', hpassed, hpassed',
    max_eq_left (below_nonneg step (hnonneg before)),
    max_eq_left (below_nonneg step (hnonneg after))]
  exact hround

end Calls

section Settling
variable {toText : ℚ → String} {cfg : AllocatorConfig ℚ} {capital step : ℚ} {i i' : RiskInput}

theorem never_larger_of_safe (hw : Worse i i') (hsafe : Safe cfg capital step i i') :
    NeverLarger toText cfg capital step i i' := by
  intro call hcapital hstep
  have hgrid (h : 1e-15 ≤ step) : ∀ f ∈ call.context.exchangeFilters, 1e-15 ≤ f.quantityStep :=
    fun f hf => (hstep f hf).symm ▸ h
  cases hw with
  | drawdown h =>
    refine drawdown_safe h (hsafe.imp_right (fun hmoved => ⟨?_, ?_⟩))
    · exact hmoved.1.imp_left hgrid
    · exact hmoved.2.imp_right (fun hv => hv _)
  | stopDistance h => exact stop_safe h
  | uncertainty h => exact uncertainty_safe h (hsafe.imp_left hgrid)
  | cash h =>
    refine cash_safe h ?_
    rw [hcapital]
    exact hsafe

theorem never_larger_of_inactive (hinactive : ¬ Active cfg capital) :
    NeverLarger toText cfg capital step i i' := by
  intro call hcapital _
  have hnone : size toText cfg (call.set i') = 0 := by
    refine size_of_inactive (fun price hp hz => hinactive ⟨_, _, price, ?_, hp, hz⟩)
    cases i' <;> exact hcapital
  rw [hnone]
  exact size_nonneg

def calmContext : AllocationContext ℚ := ⟨0, .undefined, 0, 0, 0, 0, 0, 0, 0, none⟩

theorem safe_of_never_larger (hw : Worse i i') (hactive : Active cfg capital)
    (h : NeverLarger toText cfg capital step i i') : Safe cfg capital step i i' := by
  obtain ⟨intent, portfolio, price₀, hcapital, -, hz⟩ := hactive
  have hcall (ctx : AllocationContext ℚ) (f : ExchangeFilters ℚ) (price cash u : ℚ)
      (hstep : f.quantityStep = step) :
      size toText cfg ((probe cfg intent portfolio ctx f price cash u).set i') ≤
        size toText cfg ((probe cfg intent portfolio ctx f price cash u).set i) := by
    refine h _ hcapital (fun f' hf' => ?_)
    rw [← Option.mem_some.mp hf']
    exact hstep
  cases hw with
  | @drawdown d d' hle =>
    have hscale := drawdown_scale_mono cfg hle
    by_contra hunsafe
    obtain ⟨hmoved, hbad⟩ := not_or.mp hunsafe
    have hlt := lt_of_le_of_ne hscale hmoved
    rcases not_and_or.mp hbad with hfine | hturned
    · obtain ⟨hs, hpositive⟩ := not_or.mp hfine
      have hpos := lt_min (not_le.mp hpositive) zero_lt_one
      have henlarged := @fine_enlarges toText cfg intent portfolio calmContext step price₀ 1 1 d d'
        hz (not_le.mp hs) rfl (by rwa [clamp_one, one_mul])
        (by rwa [clamp_one, one_mul, one_mul])
      obtain ⟨price, cash, hlarger⟩ := henlarged
      exact absurd (hcall calmContext (fineFilters step price) price cash 1 rfl)
        (not_le.mpr hlarger)
    · obtain ⟨hdown, hsome⟩ := not_or.mp hturned
      obtain ⟨ctx, hv⟩ := not_forall.mp hsome
      have henlarged := @turned_enlarges toText cfg intent portfolio ctx step price₀ d d' hz
        (not_le.mp hv) (not_le.mp hdown) hlt
      obtain ⟨price, cash, hlarger⟩ := henlarged
      exact absurd (hcall ctx (openFilters step) price cash 1 rfl) (not_le.mpr hlarger)
  | stopDistance _ => trivial
  | @uncertainty u u' hle =>
    by_contra hunsafe
    obtain ⟨hs, hmoved⟩ := not_or.mp hunsafe
    have hlt := lt_of_le_of_ne (clamp_mono hle) hmoved
    have hscale : min (computeDrawdownScale cfg cfg.drawdownScaleStartPct) 1 = 1 := by
      simp only [computeDrawdownScale, le_refl, if_true, one_literal, min_self]
    have henlarged := @fine_enlarges toText cfg intent portfolio calmContext step price₀ u u'
      cfg.drawdownScaleStartPct cfg.drawdownScaleStartPct hz (not_le.mp hs) rfl
      (by rw [hscale, mul_one]; exact (stdClamp_nonneg u').trans_lt hlt)
      (by rwa [hscale, mul_one, mul_one])
    obtain ⟨price, cash, hlarger⟩ := henlarged
    exact absurd (hcall (atDrawdown calmContext cfg.drawdownScaleStartPct)
      (fineFilters step price) price cash u rfl) (not_le.mpr hlarger)
  | @cash a a' hle =>
    by_contra hunsafe
    obtain ⟨hnone, hrest⟩ := not_or.mp hunsafe
    obtain ⟨hsome, hless⟩ := not_or.mp hrest
    rw [← hcapital] at hless
    have henlarged := @exhausted_enlarges toText cfg intent portfolio calmContext step price₀ a a' 1
      hz (not_le.mp hsome) (not_lt.mp hnone) (not_le.mp hless)
    obtain ⟨price, hlarger⟩ := henlarged
    exact absurd (hcall calmContext (unitFilters step) price a 1 rfl) (not_le.mpr hlarger)

/-- Of an account with a capital and an exchange with a step, the riskier input never
enlarges a size exactly where it is safe or nothing is sized at all. -/
theorem never_larger_iff (hw : Worse i i') :
    NeverLarger toText cfg capital step i i' ↔
      (Active cfg capital → Safe cfg capital step i i') := by
  refine ⟨fun h hactive => safe_of_never_larger hw hactive h, fun h => ?_⟩
  by_cases hactive : Active cfg capital
  · exact never_larger_of_safe hw (h hactive)
  · exact never_larger_of_inactive hactive

theorem never_larger_drawdown :
    NeverLarger (fun _ => "") defaultAllocatorConfig 100 (1 / 10) (.drawdown 6) (.drawdown 10) :=
  (never_larger_iff (.drawdown (by norm_num))).mpr
    (fun _ => Or.inr ⟨Or.inl (by norm_num), Or.inl (by decide +kernel)⟩)

/-- With one unit of cash left the minimal notional is refused, and with none it is not. -/
theorem no_cash_enlarges :
    ¬ ∀ (cfg : AllocatorConfig ℚ) (i i' : RiskInput), Worse i i' → ∀ call : SizingCall,
      size (fun _ => "") cfg (call.set i') ≤ size (fun _ => "") cfg (call.set i) := by
  intro h
  have hle := h defaultAllocatorConfig (.cash 1) (.cash 0) (.cash (by norm_num))
    ⟨sampleIntent, samplePortfolio, sampleContext (1 / 10), 1⟩
  exact absurd hle (by decide +kernel)

end Settling

end TB.EnlargedSizes
