import TomorrowBot.AllocationCaps
import Mathlib.Tactic.FieldSimp

/-!
# The size under more risk

Two sizings that differ in one risk input. A farther stop never enlarges the
size. A worse uncertainty or drawdown does not on the common steps of the
exchange, and less cash does not as long as some is left: without any the
allocator sizes from the whole capital.
-/

set_option autoImplicit false

namespace TB.SizeUnderRisk
open TB.CommonTypes TB.StrategyTypes TB.PortfolioAllocator TB.AllocationCaps
open TB.FilterOutcomes TB.StepGrid

structure SizingCall where
  intent : StrategyIntent ℚ
  portfolio : FundedSnapshot ℚ
  context : AllocationContext ℚ
  uncertaintySizeMultiplier : ℚ

def approvedSize (r : Allocation ℚ) : ℚ := if r.approved then r.approvedQuantity else 0

def size (toText : ℚ → String) (cfg : AllocatorConfig ℚ) (call : SizingCall) : ℚ :=
  approvedSize (computeSizeV2 toText cfg call.intent call.portfolio call.context
    call.uncertaintySizeMultiplier)

inductive RiskInput where
  | drawdown (pct : ℚ)
  | stopDistance (pct : ℚ)
  | uncertainty (multiplier : ℚ)
  | cash (available : ℚ)

def SizingCall.set (call : SizingCall) : RiskInput → SizingCall
  | .drawdown pct => { call with context := { call.context with currentDrawdownPct := pct } }
  | .stopDistance pct =>
    { call with context := { call.context with estimatedStopDistancePct := pct } }
  | .uncertainty multiplier => { call with uncertaintySizeMultiplier := multiplier }
  | .cash available =>
    { call with portfolio := { call.portfolio with availableCapital := available } }

inductive Worse : RiskInput → RiskInput → Prop
  | drawdown {d d' : ℚ} (h : d ≤ d') : Worse (.drawdown d) (.drawdown d')
  | stopDistance {s s' : ℚ} (h : s ≤ s') : Worse (.stopDistance s) (.stopDistance s')
  | uncertainty {u u' : ℚ} (h : u' ≤ u) : Worse (.uncertainty u) (.uncertainty u')
  | cash {a a' : ℚ} (h : a' ≤ a) : Worse (.cash a) (.cash a')

def NeverLarger (toText : ℚ → String) (cfg : AllocatorConfig ℚ) (capital step : ℚ)
    (i i' : RiskInput) : Prop :=
  ∀ call : SizingCall, call.portfolio.totalCapital = capital →
    (∀ f ∈ call.context.exchangeFilters, f.quantityStep = step) →
    size toText cfg (call.set i') ≤ size toText cfg (call.set i)

def Active (cfg : AllocatorConfig ℚ) (capital : ℚ) : Prop :=
  ∃ (intent : StrategyIntent ℚ) (portfolio : FundedSnapshot ℚ) (price : ℚ),
    portfolio.totalCapital = capital ∧ 0 < price ∧ Sizable cfg intent portfolio price

/-- The cash does not run out below the capital, and multipliers that differ neither meet a
step finer than the raise to the minimal notional nor turn a negative size around. -/
def Safe (cfg : AllocatorConfig ℚ) (capital step : ℚ) : RiskInput → RiskInput → Prop
  | .cash a, .cash a' => 0 < a' ∨ a ≤ 0 ∨ capital ≤ a
  | .uncertainty u, .uncertainty u' => 1e-15 ≤ step ∨ stdClamp u' 0 1 = stdClamp u 0 1
  | .drawdown d, .drawdown d' =>
    min (computeDrawdownScale cfg d') 1 = min (computeDrawdownScale cfg d) 1 ∨
      (1e-15 ≤ step ∨ computeDrawdownScale cfg d ≤ 0) ∧
        (0 ≤ computeDrawdownScale cfg d' ∨
          ∀ ctx : AllocationContext ℚ, 0 ≤ computeVolatilityMultiplier cfg ctx)
  | _, _ => True

section Approved
variable {toText : ℚ → String} {cfg : AllocatorConfig ℚ} {intent : StrategyIntent ℚ}
  {portfolio : FundedSnapshot ℚ} {ctx : AllocationContext ℚ} {u price : ℚ}
  {f : ExchangeFilters ℚ}

theorem size_of_rejected {r : Allocation ℚ} (h : r.approved = false) : approvedSize r = 0 := by
  rw [approvedSize, h]
  rfl

theorem finish_size (d : Draft ℚ) : approvedSize (finish portfolio ctx price d) = max d.qty 0 := by
  simp only [approvedSize, finish, zero_literal, decide_eq_true_eq]
  split_ifs with h
  · exact (max_eq_left h.le).symm
  · exact (max_eq_right (not_lt.mp h)).symm

theorem size_of_admitted (hprice : intent.limitPrice = some price)
    (hfilters : ctx.exchangeFilters = some f) (hp : 0 < price)
    (hz : Sizable cfg intent portfolio price)
    (ha : Admitted f price (maxAffordableNotional cfg portfolio ctx)
      (cappedQuantity cfg intent portfolio ctx u price)) :
    approvedSize (computeSizeV2 toText cfg intent portfolio ctx u) =
      max (passedQuantity f price (cappedQuantity cfg intent portfolio ctx u price)) 0 := by
  obtain ⟨d, hr, hqty⟩ := computeSizeV2_admitted hprice hfilters hp hz ha
  rw [hr, finish_size, hqty]

theorem size_of_refused (hprice : intent.limitPrice = some price)
    (hfilters : ctx.exchangeFilters = some f) (hp : 0 < price)
    (h : ¬ (Sizable cfg intent portfolio price ∧
      Admitted f price (maxAffordableNotional cfg portfolio ctx)
        (cappedQuantity cfg intent portfolio ctx u price))) :
    approvedSize (computeSizeV2 toText cfg intent portfolio ctx u) = 0 :=
  size_of_rejected (computeSizeV2_refused hprice hfilters hp h)

theorem size_nonneg : 0 ≤ approvedSize (computeSizeV2 toText cfg intent portfolio ctx u) := by
  by_cases h : (computeSizeV2 toText cfg intent portfolio ctx u).approved = true
  · obtain ⟨price, hprice, hp, f, hfilters⟩ := approved_inputs _ _ _ _ _ _ h
    by_cases ha : Sizable cfg intent portfolio price ∧
        Admitted f price (maxAffordableNotional cfg portfolio ctx)
          (cappedQuantity cfg intent portfolio ctx u price)
    · rw [size_of_admitted hprice hfilters hp ha.1 ha.2]
      exact le_max_right _ _
    · rw [size_of_refused hprice hfilters hp ha]
  · rw [size_of_rejected (Bool.not_eq_true _ ▸ h)]

end Approved

section Draft
variable (cfg : AllocatorConfig ℚ) (intent : StrategyIntent ℚ) (portfolio : FundedSnapshot ℚ)
  (ctx : AllocationContext ℚ) (u price : ℚ)

def wantedQuantity : ℚ :=
  let limit := notionalLimit cfg intent portfolio / price
  min (min (targetQuantity cfg intent portfolio price) limit * stdClamp u 0 1 *
    appliedVolatility cfg ctx) limit

def liquidQuantity (q : ℚ) : ℚ :=
  if computeLiquidityCap cfg ctx < maxDouble then min q (computeLiquidityCap cfg ctx / price)
  else q

def spentQuantity (q affordable : ℚ) : ℚ := max (min q (affordable / price)) 0

theorem capped_eq_spent :
    cappedQuantity cfg intent portfolio ctx u price =
      spentQuantity price (liquidQuantity cfg ctx price (wantedQuantity cfg intent portfolio ctx u
        price * min (computeDrawdownScale cfg ctx.currentDrawdownPct) 1))
        (maxAffordableNotional cfg portfolio ctx) :=
  rfl

variable {cfg intent portfolio ctx u price}

theorem liquid_mono {q q' : ℚ} (h : q' ≤ q) :
    liquidQuantity cfg ctx price q' ≤ liquidQuantity cfg ctx price q := by
  unfold liquidQuantity
  split_ifs
  · exact min_le_min_right _ h
  · exact h

theorem liquid_le (q : ℚ) : liquidQuantity cfg ctx price q ≤ q := by
  unfold liquidQuantity
  split_ifs
  · exact min_le_left _ _
  · exact le_rfl

theorem spent_nonneg (q affordable : ℚ) : 0 ≤ spentQuantity price q affordable := le_max_right _ _

theorem spent_mono {q q' affordable affordable' : ℚ} (hp : 0 < price) (hq : q' ≤ q)
    (ha : affordable' ≤ affordable) :
    spentQuantity price q' affordable' ≤ spentQuantity price q affordable :=
  max_le_max_right _ (min_le_min hq (div_le_div_of_nonneg_right ha hp.le))

theorem spent_of_nonpos {q : ℚ} (hq : q ≤ 0) (affordable : ℚ) :
    spentQuantity price q affordable = 0 :=
  max_eq_right ((min_le_left _ _).trans hq)

/-- Less to spend leaves the quantity as it is, or leaves all that there is to spend. -/
theorem spent_between {q affordable affordable' minimal : ℚ} (hp : 0 < price)
    (ha : affordable' ≤ affordable) :
    spentQuantity price q affordable' = spentQuantity price q affordable ∨
      (minimal * price ≤ affordable' → minimal ≤ spentQuantity price q affordable') := by
  have hdiv := div_le_div_of_nonneg_right ha hp.le
  rcases le_or_gt q (affordable' / price) with hq | hq
  · refine Or.inl ?_
    unfold spentQuantity
    rw [min_eq_left hq, min_eq_left (hq.trans hdiv)]
  · refine Or.inr (fun h => ?_)
    unfold spentQuantity
    rw [min_eq_right hq.le]
    exact le_max_of_le_left ((le_div_iff₀ hp).mpr h)

theorem limit_pos (hp : 0 < price) (hz : Sizable cfg intent portfolio price) :
    0 < notionalLimit cfg intent portfolio / price :=
  div_pos (lt_min (lt_min hz.2.1 hz.2.2.1) hz.2.2.2.1) hp

theorem wanted_nonneg (hp : 0 < price) (hz : Sizable cfg intent portfolio price)
    (hv : 0 ≤ appliedVolatility cfg ctx) : 0 ≤ wantedQuantity cfg intent portfolio ctx u price := by
  have hlimit := limit_pos hp hz
  exact le_min (mul_nonneg (mul_nonneg (le_min hz.1.le hlimit.le) (stdClamp_nonneg u)) hv)
    hlimit.le

theorem applied_nonneg (h : 0 ≤ computeVolatilityMultiplier cfg ctx) :
    0 ≤ appliedVolatility cfg ctx := by
  unfold appliedVolatility
  split_ifs
  · exact h
  · exact zero_le_one

end Draft

section Inputs
variable {cfg : AllocatorConfig ℚ} {intent : StrategyIntent ℚ} {portfolio : FundedSnapshot ℚ}
  {ctx : AllocationContext ℚ} {u u' price : ℚ}

theorem clamp_mono (h : u' ≤ u) : stdClamp u' 0 1 ≤ stdClamp u 0 1 := by
  unfold stdClamp
  split_ifs <;> linarith

theorem clamp_le_one (u : ℚ) : stdClamp u 0 1 ≤ 1 := by
  unfold stdClamp
  split_ifs <;> linarith

/-- With a negative multiplier of the volatility the size is turned around twice or not at
all. -/
theorem uncertainty_mono (hp : 0 < price) (hz : Sizable cfg intent portfolio price)
    (h : u' ≤ u) :
    cappedQuantity cfg intent portfolio ctx u' price ≤
      cappedQuantity cfg intent portfolio ctx u price := by
  have hlimit := limit_pos hp hz
  have hbase : 0 ≤ min (targetQuantity cfg intent portfolio price)
      (notionalLimit cfg intent portfolio / price) := le_min hz.1.le hlimit.le
  have hclamp := mul_le_mul_of_nonneg_left (clamp_mono h) hbase
  rw [capped_eq_spent, capped_eq_spent]
  set scale := min (computeDrawdownScale cfg ctx.currentDrawdownPct) 1
  have hzero : wantedQuantity cfg intent portfolio ctx u' price * scale ≤ 0 →
      spentQuantity price (liquidQuantity cfg ctx price
        (wantedQuantity cfg intent portfolio ctx u' price * scale))
        (maxAffordableNotional cfg portfolio ctx) ≤
      spentQuantity price (liquidQuantity cfg ctx price
        (wantedQuantity cfg intent portfolio ctx u price * scale))
        (maxAffordableNotional cfg portfolio ctx) := by
    intro hle
    rw [spent_of_nonpos ((liquid_le _).trans hle)]
    exact spent_nonneg _ _
  rcases le_or_gt 0 (appliedVolatility cfg ctx) with hv | hv <;>
    rcases le_or_gt 0 scale with hs | hs
  · have hwanted := min_le_min_right (notionalLimit cfg intent portfolio / price)
      (mul_le_mul_of_nonneg_right hclamp hv)
    exact spent_mono hp (liquid_mono (mul_le_mul_of_nonneg_right hwanted hs)) le_rfl
  · exact hzero (mul_nonpos_of_nonneg_of_nonpos (wanted_nonneg hp hz hv) hs.le)
  · have hwanted : wantedQuantity cfg intent portfolio ctx u' price ≤ 0 :=
      (min_le_left _ _).trans (mul_nonpos_of_nonneg_of_nonpos
        (mul_nonneg hbase (stdClamp_nonneg u')) hv.le)
    exact hzero (mul_nonpos_of_nonpos_of_nonneg hwanted hs)
  · have hwanted := min_le_min_right (notionalLimit cfg intent portfolio / price)
      (mul_le_mul_of_nonpos_right hclamp hv.le)
    exact spent_mono hp (liquid_mono (mul_le_mul_of_nonpos_right hwanted hs.le)) le_rfl

/-- The scale falls from one to the fraction; a fraction above one is not applied. -/
theorem drawdown_scale_mono (cfg : AllocatorConfig ℚ) {d d' : ℚ} (h : d ≤ d') :
    min (computeDrawdownScale cfg d') 1 ≤ min (computeDrawdownScale cfg d) 1 := by
  by_cases hstart : d ≤ cfg.drawdownScaleStartPct
  · have hone : computeDrawdownScale cfg d = 1 := by
      simp only [computeDrawdownScale, if_pos hstart, one_literal]
    rw [hone, min_self]
    exact min_le_right _ _
  have hstart' : ¬ d' ≤ cfg.drawdownScaleStartPct := fun h' => hstart (h.trans h')
  simp only [computeDrawdownScale, if_neg hstart, if_neg hstart', one_literal]
  by_cases hmax : cfg.drawdownScaleMaxPct ≤ d
  · rw [if_pos hmax, if_pos (hmax.trans h)]
  rw [if_neg hmax]
  by_cases hrange : cfg.drawdownScaleMaxPct - cfg.drawdownScaleStartPct < 1e-9
  · rw [if_pos hrange, if_pos hrange, if_pos (not_le.mp hstart), if_pos (not_le.mp hstart')]
    split_ifs <;> exact le_rfl
  rw [if_neg hrange, if_neg hrange]
  set range := cfg.drawdownScaleMaxPct - cfg.drawdownScaleStartPct with hr
  have hpos : 0 < range := lt_of_lt_of_le (by norm_num) (not_lt.mp hrange)
  have hprogress : 0 ≤ (d - cfg.drawdownScaleStartPct) / range :=
    div_nonneg (sub_nonneg.mpr (not_le.mp hstart).le) hpos.le
  have hbelow : (d - cfg.drawdownScaleStartPct) / range ≤ 1 := by
    rw [div_le_one hpos, hr]
    exact sub_le_sub_right (not_le.mp hmax).le _
  have hahead : (d - cfg.drawdownScaleStartPct) / range ≤
      (d' - cfg.drawdownScaleStartPct) / range :=
    div_le_div_of_nonneg_right (sub_le_sub_right h _) hpos.le
  rcases le_or_gt cfg.drawdownMinSizeFraction 1 with hfraction | hfraction
  · have hdrop : 0 ≤ 1 - cfg.drawdownMinSizeFraction := sub_nonneg.mpr hfraction
    refine min_le_min_right _ ?_
    split_ifs
    · have hleft := mul_le_mul_of_nonneg_right hbelow hdrop
      linarith
    · exact sub_le_sub_left (mul_le_mul_of_nonneg_right hahead hdrop) 1
  · have hrise := mul_nonpos_of_nonneg_of_nonpos hprogress (sub_nonpos.mpr hfraction.le)
    rw [min_eq_right (a := 1 - _) (by linarith)]
    exact min_le_right _ _

def atDrawdown (ctx : AllocationContext ℚ) (d : ℚ) : AllocationContext ℚ :=
  { ctx with currentDrawdownPct := d }

theorem drawdown_mono {d d' : ℚ} (hp : 0 < price) (hz : Sizable cfg intent portfolio price)
    (h : d ≤ d')
    (hsign : 0 ≤ computeDrawdownScale cfg d' ∨ 0 ≤ computeVolatilityMultiplier cfg ctx) :
    cappedQuantity cfg intent portfolio (atDrawdown ctx d') u price ≤
      cappedQuantity cfg intent portfolio (atDrawdown ctx d) u price := by
  have hscale := drawdown_scale_mono cfg h
  rw [capped_eq_spent, capped_eq_spent]
  change spentQuantity price (liquidQuantity cfg ctx price (wantedQuantity cfg intent portfolio ctx
      u price * min (computeDrawdownScale cfg d') 1)) (maxAffordableNotional cfg portfolio ctx) ≤
    spentQuantity price (liquidQuantity cfg ctx price (wantedQuantity cfg intent portfolio ctx
      u price * min (computeDrawdownScale cfg d) 1)) (maxAffordableNotional cfg portfolio ctx)
  rcases le_or_gt 0 (wantedQuantity cfg intent portfolio ctx u price) with hw | hw
  · exact spent_mono hp (liquid_mono (mul_le_mul_of_nonneg_left hscale hw)) le_rfl
  · have hdown : 0 ≤ computeDrawdownScale cfg d' := hsign.resolve_right
      (fun hv => absurd (wanted_nonneg hp hz (applied_nonneg hv)) (not_le.mpr hw))
    have hle := mul_nonpos_of_nonpos_of_nonneg hw.le (le_min hdown zero_le_one)
    rw [spent_of_nonpos ((liquid_le _).trans hle)]
    exact spent_nonneg _ _

def atStop (ctx : AllocationContext ℚ) (s : ℚ) : AllocationContext ℚ :=
  { ctx with estimatedStopDistancePct := s }

theorem affordable_le_effective (cfg : AllocatorConfig ℚ) (portfolio : FundedSnapshot ℚ)
    (ctx : AllocationContext ℚ) :
    maxAffordableNotional cfg portfolio ctx ≤ computeEffectiveAvailableNotional cfg portfolio := by
  unfold maxAffordableNotional
  split_ifs
  · cases maxNotionalFromRisk portfolio ctx with
    | none => exact le_rfl
    | some cap =>
      dsimp only
      rw [stdMin_rat]
      exact min_le_left _ _
  · exact le_rfl

theorem risk_notional_mono {s s' cap : ℚ} (h : s ≤ s')
    (hcap : maxNotionalFromRisk portfolio (atStop ctx s) = some cap) :
    ∃ cap', maxNotionalFromRisk portfolio (atStop ctx s') = some cap' ∧ cap' ≤ cap := by
  unfold maxNotionalFromRisk at hcap ⊢
  rw [zero_literal] at hcap ⊢
  have hloss : estimatedTotalLossPct (atStop ctx s) ≤ estimatedTotalLossPct (atStop ctx s') :=
    add_le_add_left h _
  have habs : maxLossAbs portfolio (atStop ctx s') = maxLossAbs portfolio (atStop ctx s) := rfl
  split_ifs at hcap with hpos
  rw [habs, if_pos ⟨hpos.1.trans_le hloss, hpos.2⟩]
  refine ⟨_, rfl, ?_⟩
  rw [← Option.some.inj hcap]
  have hhundred : (0 : ℚ) < 100.0 := by norm_num
  exact div_le_div_of_nonneg_left hpos.2.le (div_pos hpos.1 hhundred)
    (div_le_div_of_nonneg_right hloss hhundred.le)

theorem affordable_stop {s s' : ℚ} (h : s ≤ s') :
    maxAffordableNotional cfg portfolio (atStop ctx s') ≤
      maxAffordableNotional cfg portfolio (atStop ctx s) := by
  by_cases happlies : riskCapApplies portfolio (atStop ctx s) = true
  · have hfarther : riskCapApplies portfolio (atStop ctx s') = true := by
      rw [riskCapApplies, Bool.and_eq_true] at happlies ⊢
      exact ⟨happlies.1, decide_eq_true ((of_decide_eq_true happlies.2).trans_le h)⟩
    cases hcap : maxNotionalFromRisk portfolio (atStop ctx s) with
    | none =>
      have heffective : maxAffordableNotional cfg portfolio (atStop ctx s) =
          computeEffectiveAvailableNotional cfg portfolio := by
        simp only [maxAffordableNotional, if_pos happlies, hcap]
      rw [heffective]
      exact affordable_le_effective cfg portfolio _
    | some cap =>
      obtain ⟨cap', hcap', hle⟩ := risk_notional_mono h hcap
      simp only [maxAffordableNotional, if_pos happlies, if_pos hfarther, hcap, hcap', stdMin_rat]
      exact min_le_min_left _ hle
  · have heffective : maxAffordableNotional cfg portfolio (atStop ctx s) =
        computeEffectiveAvailableNotional cfg portfolio := by
      simp only [maxAffordableNotional, if_neg happlies]
    rw [heffective]
    exact affordable_le_effective cfg portfolio _

theorem leverage_pos : 0 < stdMax (cfg.maxLeverage * 0.8) 1.0 := by
  rw [stdMax_rat, one_literal]
  exact lt_max_of_lt_right zero_lt_one

theorem effective_cash (cfg : AllocatorConfig ℚ) {portfolio : FundedSnapshot ℚ} {a a' : ℚ}
    (h : a' ≤ a)
    (hsafe : 0 < a' ∨ a ≤ 0 ∨ portfolio.totalCapital ≤ a) :
    computeEffectiveAvailableNotional cfg { portfolio with availableCapital := a' } ≤
      computeEffectiveAvailableNotional cfg { portfolio with availableCapital := a } := by
  simp only [computeEffectiveAvailableNotional, zero_literal]
  refine mul_le_mul_of_nonneg_right ?_ leverage_pos.le
  rcases lt_or_ge 0 a' with hpos | hnone
  · rw [if_pos hpos, if_pos (hpos.trans_le h)]
    exact h
  rw [if_neg (not_lt.mpr hnone)]
  split_ifs with hfirst
  · rcases hsafe with hcash | hcash | hcash
    · exact absurd hcash (not_lt.mpr hnone)
    · exact absurd hfirst (not_lt.mpr hcash)
    · exact hcash
  · exact le_rfl

end Inputs

section Sizes
variable {toText : ℚ → String} {cfg : AllocatorConfig ℚ} {intent : StrategyIntent ℚ}
  {portfolio portfolio' : FundedSnapshot ℚ} {ctx ctx' : AllocationContext ℚ} {u u' : ℚ}

/-- A smaller quantity with less to spend is not approved in a larger size. -/
theorem size_mono (hfilters : ctx'.exchangeFilters = ctx.exchangeFilters)
    (h : ∀ price, 0 < price → Sizable cfg intent portfolio' price →
      Sizable cfg intent portfolio price ∧
      maxAffordableNotional cfg portfolio' ctx' ≤ maxAffordableNotional cfg portfolio ctx ∧
      cappedQuantity cfg intent portfolio' ctx' u' price ≤
        cappedQuantity cfg intent portfolio ctx u price ∧
      ∀ f ∈ ctx.exchangeFilters, 1e-15 ≤ f.quantityStep ∨
        cappedQuantity cfg intent portfolio' ctx' u' price =
          cappedQuantity cfg intent portfolio ctx u price ∨
        (minQtyForNotional price f * price ≤ maxAffordableNotional cfg portfolio' ctx' →
          minQtyForNotional price f ≤ cappedQuantity cfg intent portfolio' ctx' u' price)) :
    approvedSize (computeSizeV2 toText cfg intent portfolio' ctx' u') ≤
      approvedSize (computeSizeV2 toText cfg intent portfolio ctx u) := by
  by_cases happroved : (computeSizeV2 toText cfg intent portfolio' ctx' u').approved = true
  · obtain ⟨price, hprice, hp, f, hf'⟩ := approved_inputs _ _ _ _ _ _ happroved
    have hf : ctx.exchangeFilters = some f := hfilters ▸ hf'
    by_cases ha' : Sizable cfg intent portfolio' price ∧
        Admitted f price (maxAffordableNotional cfg portfolio' ctx')
          (cappedQuantity cfg intent portfolio' ctx' u' price)
    · obtain ⟨hz, hafford, hq, hgrid⟩ := h price hp ha'.1
      rw [size_of_admitted hprice hf' hp ha'.1 ha'.2,
        size_of_admitted hprice hf hp hz (admitted_mono hp hq hafford ha'.2)]
      exact max_le_max_right _ (passed_mono hp hq ha'.2 (hgrid f hf))
    · rw [size_of_refused hprice hf' hp ha']
      exact size_nonneg
  · rw [size_of_rejected (Bool.not_eq_true _ ▸ happroved)]
    exact size_nonneg

/-- Where the limits size nothing, nothing is approved. -/
theorem size_of_inactive (h : ∀ price, 0 < price → ¬ Sizable cfg intent portfolio price) :
    approvedSize (computeSizeV2 toText cfg intent portfolio ctx u) = 0 := by
  by_cases happroved : (computeSizeV2 toText cfg intent portfolio ctx u).approved = true
  · obtain ⟨price, hprice, hp, f, hf⟩ := approved_inputs _ _ _ _ _ _ happroved
    exact size_of_refused hprice hf hp (fun ha => h price hp ha.1)
  · exact size_of_rejected (Bool.not_eq_true _ ▸ happroved)

theorem stop_safe {s s' : ℚ} (h : s ≤ s') :
    approvedSize (computeSizeV2 toText cfg intent portfolio (atStop ctx s') u) ≤
      approvedSize (computeSizeV2 toText cfg intent portfolio (atStop ctx s) u) := by
  refine size_mono rfl (fun price hp hz => ⟨hz, affordable_stop h, ?_, fun f _ => Or.inr ?_⟩)
  · rw [capped_eq_spent, capped_eq_spent]
    exact spent_mono hp le_rfl (affordable_stop h)
  · rw [capped_eq_spent, capped_eq_spent]
    exact spent_between hp (affordable_stop h)

def withCash (portfolio : FundedSnapshot ℚ) (available : ℚ) : FundedSnapshot ℚ :=
  { portfolio with availableCapital := available }

theorem affordable_cash (ctx : AllocationContext ℚ) {a a' : ℚ}
    (h : computeEffectiveAvailableNotional cfg (withCash portfolio a') ≤
      computeEffectiveAvailableNotional cfg (withCash portfolio a)) :
    maxAffordableNotional cfg (withCash portfolio a') ctx ≤
      maxAffordableNotional cfg (withCash portfolio a) ctx := by
  have hrisk : maxNotionalFromRisk (withCash portfolio a') ctx =
      maxNotionalFromRisk (withCash portfolio a) ctx := rfl
  have happlies : riskCapApplies (withCash portfolio a') ctx =
      riskCapApplies (withCash portfolio a) ctx := rfl
  simp only [maxAffordableNotional, hrisk, happlies]
  split_ifs
  · cases maxNotionalFromRisk (withCash portfolio a) ctx with
    | none => exact h
    | some cap =>
      dsimp only
      rw [stdMin_rat, stdMin_rat]
      exact min_le_min_right _ h
  · exact h

theorem cash_safe {a a' : ℚ} (h : a' ≤ a)
    (hsafe : 0 < a' ∨ a ≤ 0 ∨ portfolio.totalCapital ≤ a) :
    approvedSize (computeSizeV2 toText cfg intent (withCash portfolio a') ctx u) ≤
      approvedSize (computeSizeV2 toText cfg intent (withCash portfolio a) ctx u) := by
  have heffective := effective_cash cfg h hsafe
  have hafford := affordable_cash ctx heffective
  refine size_mono rfl (fun price hp hz => ⟨?_, hafford, ?_, fun f _ => Or.inr ?_⟩)
  · exact ⟨hz.1, hz.2.1, hz.2.2.1, hz.2.2.2.1, hz.2.2.2.2.trans_le heffective⟩
  · rw [capped_eq_spent, capped_eq_spent]
    exact spent_mono hp le_rfl hafford
  · rw [capped_eq_spent, capped_eq_spent]
    exact spent_between hp hafford

theorem uncertainty_safe (h : u' ≤ u)
    (hsafe : (∀ f ∈ ctx.exchangeFilters, 1e-15 ≤ f.quantityStep) ∨
      stdClamp u' 0 1 = stdClamp u 0 1) :
    approvedSize (computeSizeV2 toText cfg intent portfolio ctx u') ≤
      approvedSize (computeSizeV2 toText cfg intent portfolio ctx u) := by
  refine size_mono rfl (fun price hp hz => ⟨hz, le_rfl, uncertainty_mono hp hz h, fun f hf => ?_⟩)
  rcases hsafe with hstep | hclamp
  · exact Or.inl (hstep f hf)
  · refine Or.inr (Or.inl ?_)
    simp only [cappedQuantity, hclamp]

theorem drawdown_safe {d d' : ℚ} (h : d ≤ d')
    (hsafe : min (computeDrawdownScale cfg d') 1 = min (computeDrawdownScale cfg d) 1 ∨
      ((∀ f ∈ ctx.exchangeFilters, 1e-15 ≤ f.quantityStep) ∨ computeDrawdownScale cfg d ≤ 0) ∧
        (0 ≤ computeDrawdownScale cfg d' ∨ 0 ≤ computeVolatilityMultiplier cfg ctx)) :
    approvedSize (computeSizeV2 toText cfg intent portfolio (atDrawdown ctx d') u) ≤
      approvedSize (computeSizeV2 toText cfg intent portfolio (atDrawdown ctx d) u) := by
  have hcapped (pct price : ℚ) : cappedQuantity cfg intent portfolio (atDrawdown ctx pct) u price =
      spentQuantity price (liquidQuantity cfg ctx price (wantedQuantity cfg intent portfolio ctx u
        price * min (computeDrawdownScale cfg pct) 1)) (maxAffordableNotional cfg portfolio ctx) :=
    rfl
  rcases hsafe with hsame | ⟨hstep, hsign⟩
  · have heq (price : ℚ) : cappedQuantity cfg intent portfolio (atDrawdown ctx d') u price =
        cappedQuantity cfg intent portfolio (atDrawdown ctx d) u price := by
      rw [hcapped, hcapped, hsame]
    exact size_mono rfl (fun price _ hz =>
      ⟨hz, le_rfl, (heq price).le, fun f _ => Or.inr (Or.inl (heq price))⟩)
  · refine size_mono rfl (fun price hp hz =>
      ⟨hz, le_rfl, drawdown_mono hp hz h hsign, fun f hf => ?_⟩)
    rcases hstep with hstep | hnone
    · exact Or.inl (hstep f hf)
    · -- the scale before is not positive, so neither scale leaves any of the quantity
      have hscale := drawdown_scale_mono cfg h
      have hbefore : min (computeDrawdownScale cfg d) 1 ≤ 0 := (min_le_left _ _).trans hnone
      refine Or.inr (Or.inl ?_)
      rw [hcapped, hcapped]
      rcases hsign with hdown | hv
      · rw [le_antisymm hscale (hbefore.trans (le_min hdown zero_le_one))]
      · have hwanted := wanted_nonneg (u := u) hp hz (applied_nonneg hv)
        rw [spent_of_nonpos ((liquid_le _).trans
            (mul_nonpos_of_nonneg_of_nonpos hwanted (hscale.trans hbefore))),
          spent_of_nonpos ((liquid_le _).trans
            (mul_nonpos_of_nonneg_of_nonpos hwanted hbefore))]

end Sizes

end TB.SizeUnderRisk
