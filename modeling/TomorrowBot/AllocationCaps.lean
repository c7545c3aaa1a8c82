import TomorrowBot.FilterOutcomes

/-!
# The caps that an approved size respects

The steps before the filters leave a quantity in closed form. The filters keep
every cap where they only round down. A quantity raised to a minimum may break
the limits that its costs are not compared with, and a minimum or a maximum
need not be a number of steps.
-/

set_option autoImplicit false

namespace TB.AllocationCaps
open TB.CommonTypes TB.StrategyTypes TB.PortfolioAllocator TB.FilterOutcomes
open TB.StepGrid

section Quantities
variable (cfg : AllocatorConfig ℚ) (intent : StrategyIntent ℚ) (portfolio : FundedSnapshot ℚ)
  (ctx : AllocationContext ℚ) (u price : ℚ)

def Sizable : Prop :=
  0 < targetQuantity cfg intent portfolio price ∧ 0 < computeBudgetLimit cfg portfolio ∧
    0 < computeConcentrationLimit cfg portfolio ∧ 0 < computeStrategyLimit cfg intent portfolio ∧
    0 < computeEffectiveAvailableNotional cfg portfolio

def notionalLimit : ℚ :=
  min (min (computeBudgetLimit cfg portfolio) (computeConcentrationLimit cfg portfolio))
    (computeStrategyLimit cfg intent portfolio)

def appliedVolatility : ℚ :=
  if 0.01 < |computeVolatilityMultiplier cfg ctx - 1| then computeVolatilityMultiplier cfg ctx
  else 1

def cappedQuantity : ℚ :=
  let limit := notionalLimit cfg intent portfolio / price
  let wanted := min (targetQuantity cfg intent portfolio price) limit * stdClamp u 0 1 *
    appliedVolatility cfg ctx
  let scaled := min wanted limit * min (computeDrawdownScale cfg ctx.currentDrawdownPct) 1
  let liquidityCap := computeLiquidityCap cfg ctx
  let liquid := if liquidityCap < maxDouble then min scaled (liquidityCap / price) else scaled
  max (min liquid (maxAffordableNotional cfg portfolio ctx / price)) 0

def WithinLimits (q : ℚ) : Prop :=
  q * price ≤ computeBudgetLimit cfg portfolio ∧
    q * price ≤ computeConcentrationLimit cfg portfolio ∧
    q * price ≤ computeStrategyLimit cfg intent portfolio

def WithinLiquidity (q : ℚ) : Prop :=
  computeLiquidityCap cfg ctx < maxDouble → q * price ≤ computeLiquidityCap cfg ctx

def WithinCosts (q : ℚ) : Prop :=
  q * price ≤ computeEffectiveAvailableNotional cfg portfolio ∧
    (riskCapApplies portfolio ctx = true → ∀ c ∈ maxNotionalFromRisk portfolio ctx,
      q * price ≤ c)

end Quantities

def IsMultiple (step q : ℚ) : Prop := ∃ k : ℤ, q = k * step

def PassesFilters (f : ExchangeFilters ℚ) (price q : ℚ) : Prop :=
  f.minQuantity ≤ q ∧ q ≤ f.maxQuantity ∧ IsMultiple f.quantityStep q ∧
    f.minNotional ≤ q * price

def Positive (f : ExchangeFilters ℚ) : Prop :=
  0 < f.quantityStep ∧ 0 < f.minQuantity ∧ 0 < f.maxQuantity

section Sizing
variable (toText : ℚ → String) (cfg : AllocatorConfig ℚ) (intent : StrategyIntent ℚ)
  (portfolio : FundedSnapshot ℚ) (ctx : AllocationContext ℚ) (u price : ℚ)

theorem capped_eq_min {limit price : ℚ} (hp : 0 < price) (q : ℚ) :
    (if limit < q * price then limit / price else q) = min q (limit / price) := by
  split_ifs with h
  · exact (min_eq_right ((div_le_iff₀ hp).mpr h.le)).symm
  · exact (min_eq_left ((le_div_iff₀ hp).mpr (not_lt.mp h))).symm

theorem limitStep_ok {name exhausted exceeded : String} {limit : ℚ} {d d' : Draft ℚ}
    (hp : 0 < price) (h : limitStep name exhausted exceeded limit price d = .ok d') :
    0 < limit ∧ d'.qty = min d.qty (limit / price) := by
  unfold limitStep at h
  split_ifs at h with hlimit
  rw [zero_literal] at hlimit
  refine ⟨not_le.mp hlimit, ?_⟩
  rw [← Except.ok.inj h]
  exact capped_eq_min hp d.qty

theorem limitStep_error {name exhausted exceeded : String} {limit : ℚ} {d : Draft ℚ}
    {r : Allocation ℚ} (h : limitStep name exhausted exceeded limit price d = .error r) :
    r.approved = false ∧ limit ≤ 0 := by
  unfold limitStep at h
  split_ifs at h with hlimit
  rw [zero_literal] at hlimit
  exact ⟨by rw [← Except.error.inj h]; rfl, hlimit⟩

theorem recapStep_qty {limit : ℚ} (hp : 0 < price) (d : Draft ℚ) :
    (recapStep limit price d).qty = min d.qty (limit / price) := by
  rw [← capped_eq_min hp]
  unfold recapStep
  split_ifs <;> rfl

theorem limited_eq (hp : 0 < price) (q : ℚ) :
    min (min (min q (computeBudgetLimit cfg portfolio / price))
        (computeConcentrationLimit cfg portfolio / price))
      (computeStrategyLimit cfg intent portfolio / price) =
      min q (notionalLimit cfg intent portfolio / price) := by
  rw [notionalLimit, ← min_div_div_right hp.le, ← min_div_div_right hp.le, min_assoc, min_assoc,
    min_assoc]

theorem uncertaintyStep_qty (d : Draft ℚ) :
    (uncertaintyStep u d).qty = d.qty * stdClamp u 0 1 := by
  have hle : stdClamp u 0 1 ≤ 1 := by
    unfold stdClamp
    split_ifs <;> linarith
  simp only [uncertaintyStep, zero_literal, one_literal]
  split_ifs with h
  · rfl
  · rw [le_antisymm hle (not_lt.mp h), mul_one]

theorem volatilityStep_qty (d : Draft ℚ) :
    (volatilityStep toText (computeVolatilityMultiplier cfg ctx) d).qty =
      d.qty * appliedVolatility cfg ctx := by
  simp only [volatilityStep, appliedVolatility, stdAbs_rat, one_literal]
  by_cases h : 0.01 < |computeVolatilityMultiplier cfg ctx - 1|
  · rw [if_pos h, if_pos h]
  · rw [if_neg h, if_neg h, mul_one]

theorem drawdownStep_qty (scale : ℚ) (d : Draft ℚ) :
    (drawdownStep toText ctx.currentDrawdownPct scale d).qty = d.qty * min scale 1 := by
  simp only [drawdownStep, one_literal]
  split_ifs with h
  · rw [min_eq_left h.le]
  · rw [min_eq_right (not_lt.mp h), mul_one]

theorem liquidityStep_qty {cap : ℚ} (hp : 0 < price) (d : Draft ℚ) :
    (liquidityStep toText ctx cap price d).qty =
      if cap < maxDouble then min d.qty (cap / price) else d.qty := by
  rw [← capped_eq_min hp]
  simp only [liquidityStep]
  split_ifs <;> tauto

theorem capitalStep_ok {cap : ℚ} {d d' : Draft ℚ} (hp : 0 < price)
    (h : capitalStep cap price d = .ok d') : 0 < cap ∧ d'.qty = min d.qty (cap / price) := by
  rw [← capped_eq_min hp]
  unfold capitalStep at h
  rw [zero_literal] at h
  split_ifs at h with hcap hlt
  · rw [← Except.ok.inj h, if_pos hlt]
    exact ⟨not_le.mp hcap, rfl⟩
  · rw [← Except.ok.inj h, if_neg hlt]
    exact ⟨not_le.mp hcap, rfl⟩

theorem capitalStep_error {cap : ℚ} {d : Draft ℚ} {r : Allocation ℚ}
    (h : capitalStep cap price d = .error r) : r.approved = false ∧ cap ≤ 0 := by
  unfold capitalStep at h
  rw [zero_literal] at h
  split_ifs at h with hcap
  exact ⟨by rw [← Except.error.inj h]; rfl, hcap⟩

/-- The caps of the capital and of the risk together bound the costs. -/
theorem riskStep_qty (hp : 0 < price) (q : ℚ) (d : Draft ℚ)
    (h : d.qty = min q (computeEffectiveAvailableNotional cfg portfolio / price)) :
    (riskStep toText portfolio ctx price d).qty =
      min q (maxAffordableNotional cfg portfolio ctx / price) := by
  unfold riskStep maxAffordableNotional
  by_cases happlies : riskCapApplies portfolio ctx = true
  · rw [if_pos happlies, if_pos happlies]
    cases maxNotionalFromRisk portfolio ctx with
    | none => exact h
    | some c =>
      simp only [capped_eq_min hp]
      rw [h, stdMin_rat, ← min_div_div_right hp.le, min_assoc]
  · rw [if_neg happlies, if_neg happlies]
    exact h

theorem sizeDraft_ok {d : Draft ℚ} (hp : 0 < price)
    (h : sizeDraft toText cfg intent portfolio ctx u price = .ok d) :
    Sizable cfg intent portfolio price ∧
      d.qty = cappedQuantity cfg intent portfolio ctx u price := by
  unfold sizeDraft at h
  by_cases htarget : targetQuantity cfg intent portfolio price ≤ 0.0
  · rw [if_pos htarget] at h
    cases h
  rw [if_neg htarget] at h
  simp only [bind, Except.bind, pure, Except.pure] at h
  split at h
  · cases h
  rename_i d1 h1
  split at h
  · cases h
  rename_i d2 h2
  split at h
  · cases h
  rename_i d3 h3
  split at h
  · cases h
  rename_i d4 h4
  obtain ⟨hb, hq1⟩ := limitStep_ok price hp h1
  obtain ⟨hc, hq2⟩ := limitStep_ok price hp h2
  obtain ⟨hs, hq3⟩ := limitStep_ok price hp h3
  obtain ⟨ha, hq4⟩ := capitalStep_ok price hp h4
  rw [zero_literal] at htarget
  refine ⟨⟨not_le.mp htarget, hb, hc, hs, ha⟩, ?_⟩
  rw [← Except.ok.inj h]
  simp only [stdMax_rat, zero_literal]
  rw [riskStep_qty toText cfg portfolio ctx price hp _ _ hq4, liquidityStep_qty _ _ _ hp,
    drawdownStep_qty, recapStep_qty _ hp, recapStep_qty _ hp, recapStep_qty _ hp,
    limited_eq _ _ _ _ hp, volatilityStep_qty, uncertaintyStep_qty, hq3, hq2, hq1,
    limited_eq _ _ _ _ hp]
  rfl

theorem sizeDraft_error {r : Allocation ℚ}
    (h : sizeDraft toText cfg intent portfolio ctx u price = .error r) :
    r.approved = false ∧ ¬ Sizable cfg intent portfolio price := by
  unfold sizeDraft at h
  by_cases htarget : targetQuantity cfg intent portfolio price ≤ 0.0
  · rw [if_pos htarget] at h
    refine ⟨by rw [← Except.error.inj h]; rfl, fun hz => ?_⟩
    rw [zero_literal] at htarget
    exact absurd hz.1 (not_lt.mpr htarget)
  rw [if_neg htarget] at h
  simp only [bind, Except.bind, pure, Except.pure] at h
  split at h
  · rename_i h1
    obtain ⟨hr, hle⟩ := limitStep_error price h1
    exact ⟨by rw [← Except.error.inj h]; exact hr, fun hz => absurd hz.2.1 (not_lt.mpr hle)⟩
  split at h
  · rename_i h2
    obtain ⟨hr, hle⟩ := limitStep_error price h2
    exact ⟨by rw [← Except.error.inj h]; exact hr, fun hz => absurd hz.2.2.1 (not_lt.mpr hle)⟩
  split at h
  · rename_i h3
    obtain ⟨hr, hle⟩ := limitStep_error price h3
    exact ⟨by rw [← Except.error.inj h]; exact hr, fun hz => absurd hz.2.2.2.1 (not_lt.mpr hle)⟩
  split at h
  · rename_i h4
    obtain ⟨hr, hle⟩ := capitalStep_error price h4
    exact ⟨by rw [← Except.error.inj h]; exact hr, fun hz => absurd hz.2.2.2.2 (not_lt.mpr hle)⟩
  · cases h

end Sizing

section Filters
variable {f : ExchangeFilters ℚ} {price q : ℚ}

def lot (f : ExchangeFilters ℚ) (q : ℚ) : ℚ :=
  min (max (roundQuantityDown q f) f.minQuantity) f.maxQuantity

def filtered (f : ExchangeFilters ℚ) (price q : ℚ) : ℚ :=
  if lot f q * price < f.minNotional then minQtyForNotional price f else lot f q

def Accepted (f : ExchangeFilters ℚ) (price affordable q : ℚ) : Prop :=
  f.minQuantity ≤ f.maxQuantity ∧
    (roundQuantityDown q f < f.minQuantity → f.minQuantity * price ≤ affordable) ∧
    (lot f q * price < f.minNotional →
      minQtyForNotional price f * price ≤ affordable ∧
        minQtyForNotional price f ≤ f.maxQuantity)

theorem lot_eq_clamped (hf : Positive f) : lot f q = clampedQuantity f q :=
  (if_pos hf.2.2).symm

theorem filtered_eq_passed (hf : Positive f) : filtered f price q = passedQuantity f price q := by
  rw [filtered, passedQuantity, lot_eq_clamped hf]

/-- With a positive maximum the general outcome of the filters is that of the lot. -/
theorem accepted_iff_admitted (hf : Positive f) {affordable : ℚ} :
    Accepted f price affordable q ↔ Admitted f price affordable q := by
  have hmax : ¬ f.maxQuantity ≤ 0 := not_le.mpr hf.2.2
  rw [Accepted, Admitted, lot_eq_clamped hf, not_and, not_lt]
  constructor
  · rintro ⟨hordered, hminimum, hnotional⟩
    exact ⟨fun _ => hordered, hminimum, fun h => (hnotional h).imp_right Or.inr⟩
  · rintro ⟨hordered, hminimum, hnotional⟩
    exact ⟨hordered hf.2.2, hminimum,
      fun h => (hnotional h).imp_right (fun hfits => hfits.resolve_left hmax)⟩

theorem roundQuantityDown_le : roundQuantityDown q f ≤ q := by
  rw [roundQuantityDown_grid]
  exact below_le _ _

theorem lot_le (h : f.minQuantity ≤ roundQuantityDown q f) : lot f q ≤ roundQuantityDown q f := by
  rw [lot, max_eq_left h]
  exact min_le_left _ _

end Filters

section Caps
variable (toText : ℚ → String) (cfg : AllocatorConfig ℚ) (intent : StrategyIntent ℚ)
  (portfolio : FundedSnapshot ℚ) (ctx : AllocationContext ℚ) (u : ℚ)

def RespectsAll (f : ExchangeFilters ℚ) (price q : ℚ) : Prop :=
  WithinLimits cfg intent portfolio price q ∧ WithinLiquidity cfg ctx price q ∧
    WithinCosts cfg portfolio ctx price q ∧ PassesFilters f price q

def Respects : Prop :=
  let r := computeSizeV2 toText cfg intent portfolio ctx u
  r.approved = true → ∃ price ∈ intent.limitPrice, ∃ f ∈ ctx.exchangeFilters,
    RespectsAll cfg intent portfolio ctx f price r.approvedQuantity ∧
      r.approvedNotional = r.approvedQuantity * price

/-- A quantity that may be raised to is in steps and within the limits that its costs are
not compared with. -/
def RaisedSafely (f : ExchangeFilters ℚ) (price q : ℚ) : Prop :=
  IsMultiple f.quantityStep q ∧ WithinLimits cfg intent portfolio price q ∧
    WithinLiquidity cfg ctx price q

def ScaledSafely (price q : ℚ) : Prop :=
  0 ≤ appliedVolatility cfg ctx ∨ 0 ≤ computeDrawdownScale cfg ctx.currentDrawdownPct ∨
    WithinLimits cfg intent portfolio price q

def FilteredSafely (f : ExchangeFilters ℚ) (price q : ℚ) : Prop :=
  if lot f q * price < f.minNotional then
    RaisedSafely cfg intent portfolio ctx f price (minQtyForNotional price f)
  else
    (roundQuantityDown q f < f.minQuantity →
      RaisedSafely cfg intent portfolio ctx f price f.minQuantity) ∧
    (f.maxQuantity < roundQuantityDown q f → IsMultiple f.quantityStep f.maxQuantity) ∧
    (f.minQuantity ≤ roundQuantityDown q f →
      ScaledSafely cfg intent portfolio ctx price (lot f q))

def Safe : Prop :=
  ∀ price ∈ intent.limitPrice, ∀ f ∈ ctx.exchangeFilters, 0 < price →
    Sizable cfg intent portfolio price →
    Accepted f price (maxAffordableNotional cfg portfolio ctx)
      (cappedQuantity cfg intent portfolio ctx u price) →
    FilteredSafely cfg intent portfolio ctx f price
      (cappedQuantity cfg intent portfolio ctx u price)

section Bounds
variable {cfg} {intent} {portfolio} {ctx} {u}
variable {price q q' : ℚ}

theorem withinLimits_mono (hp : 0 < price) (h : q' ≤ q)
    (hq : WithinLimits cfg intent portfolio price q) :
    WithinLimits cfg intent portfolio price q' := by
  have hle : q' * price ≤ q * price := mul_le_mul_of_nonneg_right h hp.le
  exact ⟨hle.trans hq.1, hle.trans hq.2.1, hle.trans hq.2.2⟩

theorem withinLimits_of_le (hp : 0 < price)
    (h : q ≤ notionalLimit cfg intent portfolio / price) :
    WithinLimits cfg intent portfolio price q := by
  rw [le_div_iff₀ hp, notionalLimit, le_min_iff, le_min_iff] at h
  exact ⟨h.1.1, h.1.2, h.2⟩

theorem withinCosts_of_le (h : q * price ≤ maxAffordableNotional cfg portfolio ctx) :
    WithinCosts cfg portfolio ctx price q := by
  unfold maxAffordableNotional at h
  by_cases happlies : riskCapApplies portfolio ctx = true
  · rw [if_pos happlies] at h
    unfold WithinCosts
    cases hcap : maxNotionalFromRisk portfolio ctx with
    | none =>
      rw [hcap] at h
      exact ⟨h, fun _ c hc => absurd hc (Option.not_mem_none c)⟩
    | some cap =>
      rw [hcap] at h
      dsimp only at h
      rw [stdMin_rat, le_min_iff] at h
      refine ⟨h.1, fun _ c hc => ?_⟩
      rw [← Option.mem_some.mp hc]
      exact h.2
  · rw [if_neg happlies] at h
    exact ⟨h, fun ha => absurd ha happlies⟩

theorem cappedQuantity_affordable (hp : 0 < price)
    (hq : 0 < cappedQuantity cfg intent portfolio ctx u price) :
    cappedQuantity cfg intent portfolio ctx u price * price ≤
      maxAffordableNotional cfg portfolio ctx := by
  rw [← le_div_iff₀ hp]
  simp only [cappedQuantity] at hq ⊢
  rcases lt_max_iff.mp hq with hpos | habs
  · exact max_le (min_le_right _ _) (hpos.le.trans (min_le_right _ _))
  · exact absurd habs (lt_irrefl 0)

theorem cappedQuantity_liquid (hp : 0 < price)
    (hq : 0 < cappedQuantity cfg intent portfolio ctx u price) :
    WithinLiquidity cfg ctx price (cappedQuantity cfg intent portfolio ctx u price) := by
  intro hcap
  rw [← le_div_iff₀ hp]
  simp only [cappedQuantity, if_pos hcap] at hq ⊢
  rcases lt_max_iff.mp hq with hpos | habs
  · have hbound := (lt_min_iff.mp (lt_min_iff.mp hpos).1).2
    exact max_le ((min_le_left _ _).trans (min_le_right _ _)) hbound.le
  · exact absurd habs (lt_irrefl 0)

theorem stdClamp_nonneg (u : ℚ) : 0 ≤ stdClamp u 0 1 := by
  unfold stdClamp
  split_ifs <;> linarith

/-- The limits hold after the multipliers unless both of them change the sign. -/
theorem cappedQuantity_limited (hp : 0 < price) (hz : Sizable cfg intent portfolio price)
    (h : 0 ≤ appliedVolatility cfg ctx ∨ 0 ≤ computeDrawdownScale cfg ctx.currentDrawdownPct) :
    WithinLimits cfg intent portfolio price
      (cappedQuantity cfg intent portfolio ctx u price) := by
  obtain ⟨htarget, hb, hc, hs, -⟩ := hz
  have hlimit : 0 < notionalLimit cfg intent portfolio / price :=
    div_pos (lt_min (lt_min hb hc) hs) hp
  apply withinLimits_of_le hp
  simp only [cappedQuantity]
  set limit := notionalLimit cfg intent portfolio / price with hl
  set wanted := min (targetQuantity cfg intent portfolio price) limit * stdClamp u 0 1 *
    appliedVolatility cfg ctx with hw
  set scale := computeDrawdownScale cfg ctx.currentDrawdownPct with hscale
  have hscaled : min wanted limit * min scale 1 ≤ limit := by
    by_cases hsign : 0 ≤ min wanted limit
    · calc min wanted limit * min scale 1 ≤ min wanted limit * 1 :=
          mul_le_mul_of_nonneg_left (min_le_right _ _) hsign
        _ ≤ limit := by rw [mul_one]; exact min_le_right _ _
    · have hneg : wanted < 0 := by
        rcases min_lt_iff.mp (not_le.mp hsign) with hlt | hlt
        · exact hlt
        · exact absurd hlt (not_lt.mpr hlimit.le)
      have hdown : 0 ≤ scale := by
        refine h.resolve_left (fun hv => absurd hneg (not_lt.mpr ?_))
        exact mul_nonneg (mul_nonneg (le_min htarget.le hlimit.le) (stdClamp_nonneg u)) hv
      have hmin : 0 ≤ min scale 1 := le_min hdown zero_le_one
      exact (mul_nonpos_of_nonpos_of_nonneg (not_le.mp hsign).le hmin).trans hlimit.le
  refine max_le ((min_le_left _ _).trans ?_) hlimit.le
  split_ifs
  · exact (min_le_left _ _).trans hscaled
  · exact hscaled

/-- Of an accepted quantity every cap and every filter holds exactly where the filters
raise and clamp it safely. -/
theorem respectsAll_iff {f : ExchangeFilters ℚ} (hp : 0 < price) (hf : Positive f)
    (hz : Sizable cfg intent portfolio price)
    (ha : Accepted f price (maxAffordableNotional cfg portfolio ctx)
      (cappedQuantity cfg intent portfolio ctx u price)) :
    RespectsAll cfg intent portfolio ctx f price
        (filtered f price (cappedQuantity cfg intent portfolio ctx u price)) ↔
      FilteredSafely cfg intent portfolio ctx f price
        (cappedQuantity cfg intent portfolio ctx u price) := by
  set q := cappedQuantity cfg intent portfolio ctx u price with hq
  obtain ⟨hordered, hminimum, hnotional⟩ := ha
  have hmin_lot : f.minQuantity ≤ lot f q := le_min (le_max_right _ _) hordered
  have hlot_max : lot f q ≤ f.maxQuantity := min_le_right _ _
  by_cases hraise : lot f q * price < f.minNotional
  · -- the quantity is raised to the minimal notional
    obtain ⟨hafford, hbelow⟩ := hnotional hraise
    have hreach := le_minQtyForNotional (f := f) hp
    have habove : f.minQuantity ≤ minQtyForNotional price f :=
      hmin_lot.trans (lt_of_mul_lt_mul_right (hraise.trans_le hreach) hp.le).le
    rw [filtered, if_pos hraise, FilteredSafely, if_pos hraise]
    constructor
    · rintro ⟨hlimits, hliquid, -, -, -, hmultiple, -⟩
      exact ⟨hmultiple, hlimits, hliquid⟩
    · rintro ⟨hmultiple, hlimits, hliquid⟩
      exact ⟨hlimits, hliquid, withinCosts_of_le hafford, habove, hbelow, hmultiple, hreach⟩
  rw [filtered, if_neg hraise, FilteredSafely, if_neg hraise]
  by_cases hbump : roundQuantityDown q f < f.minQuantity
  · -- the quantity is raised to the minimal quantity
    have hlot : lot f q = f.minQuantity := by
      rw [lot, max_eq_right hbump.le, min_eq_left hordered]
    rw [hlot] at hraise ⊢
    constructor
    · rintro ⟨hlimits, hliquid, -, -, -, hmultiple, -⟩
      exact ⟨fun _ => ⟨hmultiple, hlimits, hliquid⟩,
        fun h => absurd (h.trans hbump) (not_lt.mpr hordered),
        fun h => absurd hbump (not_lt.mpr h)⟩
    · rintro ⟨hsafe, -, -⟩
      obtain ⟨hmultiple, hlimits, hliquid⟩ := hsafe hbump
      exact ⟨hlimits, hliquid, withinCosts_of_le (hminimum hbump), le_rfl, hordered, hmultiple,
        not_lt.mp hraise⟩
  · -- the quantity is rounded down and clamped
    have hbelow : lot f q ≤ q :=
      (lot_le (not_lt.mp hbump)).trans roundQuantityDown_le
    have hpos : 0 < q := hf.2.1.trans_le (hmin_lot.trans hbelow)
    have hnotional_le : lot f q * price ≤ q * price := mul_le_mul_of_nonneg_right hbelow hp.le
    constructor
    · rintro ⟨hlimits, -, -, -, -, hmultiple, -⟩
      refine ⟨fun h => absurd h hbump, fun h => ?_, fun _ => Or.inr (Or.inr hlimits)⟩
      rw [lot, max_eq_left (not_lt.mp hbump), min_eq_right h.le] at hmultiple
      exact hmultiple
    · rintro ⟨-, hclamp, hscaled⟩
      refine ⟨?_, fun hcap => hnotional_le.trans (cappedQuantity_liquid hp hpos hcap),
        withinCosts_of_le (hnotional_le.trans (cappedQuantity_affordable hp hpos)), hmin_lot,
        hlot_max, ?_, not_lt.mp hraise⟩
      · rcases hscaled (not_lt.mp hbump) with hv | hd | hlimits
        · exact withinLimits_mono hp hbelow (cappedQuantity_limited hp hz (Or.inl hv))
        · exact withinLimits_mono hp hbelow (cappedQuantity_limited hp hz (Or.inr hd))
        · exact hlimits
      · by_cases hover : f.maxQuantity < roundQuantityDown q f
        · rw [lot, max_eq_left (not_lt.mp hbump), min_eq_right hover.le]
          exact hclamp hover
        · rw [lot, max_eq_left (not_lt.mp hbump), min_eq_left (not_lt.mp hover),
            roundQuantityDown_grid, below_steps hf.1]
          exact ⟨_, rfl⟩

theorem filtered_pos {f : ExchangeFilters ℚ} {affordable : ℚ} (hp : 0 < price)
    (hf : Positive f) (ha : Accepted f price affordable q) : 0 < filtered f price q := by
  have hlot : 0 < lot f q := hf.2.1.trans_le (le_min (le_max_right _ _) ha.1)
  unfold filtered
  split_ifs with h
  · have hreach := le_minQtyForNotional (f := f) hp
    exact hlot.trans (lt_of_mul_lt_mul_right (h.trans_le hreach) hp.le)
  · exact hlot

end Bounds

section Outcomes
variable {toText cfg intent portfolio ctx u} {price : ℚ} {f : ExchangeFilters ℚ}

/-- A sizing with a price and filters that admit its quantity runs to its end. -/
theorem computeSizeV2_admitted (hprice : intent.limitPrice = some price)
    (hfilters : ctx.exchangeFilters = some f) (hp : 0 < price)
    (hz : Sizable cfg intent portfolio price)
    (ha : Admitted f price (maxAffordableNotional cfg portfolio ctx)
      (cappedQuantity cfg intent portfolio ctx u price)) :
    ∃ d : Draft ℚ, computeSizeV2 toText cfg intent portfolio ctx u = finish portfolio ctx price d ∧
      d.qty = passedQuantity f price (cappedQuantity cfg intent portfolio ctx u price) := by
  have hpositive : ¬ price ≤ 0.0 := by
    rw [zero_literal]
    exact not_le.mpr hp
  simp only [computeSizeV2, hprice, Option.getD_some, if_neg hpositive, filterDraft, hfilters]
  cases hdraft : sizeDraft toText cfg intent portfolio ctx u price with
  | error r => exact absurd hz (sizeDraft_error _ _ _ _ _ _ _ hdraft).2
  | ok d =>
    obtain ⟨-, hqty⟩ := sizeDraft_ok _ _ _ _ _ _ _ hp hdraft
    rw [← hqty] at ha ⊢
    obtain ⟨d', hd', hqty'⟩ := filters_admit toText ha
    refine ⟨d', ?_, hqty'⟩
    simp only [bind, Except.bind, hd']

theorem computeSizeV2_refused (hprice : intent.limitPrice = some price)
    (hfilters : ctx.exchangeFilters = some f) (hp : 0 < price)
    (h : ¬ (Sizable cfg intent portfolio price ∧
      Admitted f price (maxAffordableNotional cfg portfolio ctx)
        (cappedQuantity cfg intent portfolio ctx u price))) :
    (computeSizeV2 toText cfg intent portfolio ctx u).approved = false := by
  have hpositive : ¬ price ≤ 0.0 := by
    rw [zero_literal]
    exact not_le.mpr hp
  simp only [computeSizeV2, hprice, Option.getD_some, if_neg hpositive, filterDraft, hfilters]
  cases hdraft : sizeDraft toText cfg intent portfolio ctx u price with
  | error r => exact (sizeDraft_error _ _ _ _ _ _ _ hdraft).1
  | ok d =>
    obtain ⟨hz, hqty⟩ := sizeDraft_ok _ _ _ _ _ _ _ hp hdraft
    rw [← hqty] at h
    obtain ⟨r, hr, happroved⟩ := filters_refuse toText (fun ha => h ⟨hz, ha⟩)
    simp only [bind, Except.bind, hr]
    exact happroved

end Outcomes

theorem computeSizeV2_cases {price : ℚ} {f : ExchangeFilters ℚ}
    (hprice : intent.limitPrice = some price) (hfilters : ctx.exchangeFilters = some f)
    (hp : 0 < price) (hf : Positive f) :
    let q := cappedQuantity cfg intent portfolio ctx u price
    let accepted := Sizable cfg intent portfolio price ∧
      Accepted f price (maxAffordableNotional cfg portfolio ctx) q
    let r := computeSizeV2 toText cfg intent portfolio ctx u
    accepted ∧ r.approved = true ∧ r.approvedQuantity = filtered f price q ∧
        r.approvedNotional = filtered f price q * price ∨
      ¬ accepted ∧ r.approved = false := by
  intro q accepted r
  by_cases haccepted : accepted
  · obtain ⟨hz, ha⟩ := haccepted
    obtain ⟨d, hr, hqty⟩ := computeSizeV2_admitted hprice hfilters hp hz
      ((accepted_iff_admitted hf).mp ha)
    rw [← filtered_eq_passed hf] at hqty
    have hpos : (0.0 : ℚ) < d.qty := by
      rw [hqty, zero_literal]
      exact filtered_pos hp hf ha
    have hfinished : r = finish portfolio ctx price d := hr
    rw [hfinished]
    exact Or.inl ⟨⟨hz, ha⟩, decide_eq_true hpos, hqty, congrArg (· * price) hqty⟩
  · refine Or.inr ⟨haccepted, computeSizeV2_refused hprice hfilters hp (fun h => haccepted ?_)⟩
    exact ⟨h.1, (accepted_iff_admitted hf).mpr h.2⟩

theorem approved_inputs (h : (computeSizeV2 toText cfg intent portfolio ctx u).approved = true) :
    ∃ price, intent.limitPrice = some price ∧ 0 < price ∧
      ∃ f, ctx.exchangeFilters = some f := by
  cases hprice : intent.limitPrice with
  | none =>
    have hzero : (0.0 : ℚ) ≤ 0.0 := le_rfl
    simp only [computeSizeV2, hprice, Option.getD_none, if_pos hzero] at h
    exact absurd h Bool.false_ne_true
  | some price =>
    by_cases hp : price ≤ 0.0
    · simp only [computeSizeV2, hprice, Option.getD_some, if_pos hp] at h
      exact absurd h Bool.false_ne_true
    refine ⟨price, rfl, by rw [zero_literal] at hp; exact not_le.mp hp, ?_⟩
    cases hfilters : ctx.exchangeFilters with
    | some f => exact ⟨f, rfl⟩
    | none =>
      simp only [computeSizeV2, hprice, Option.getD_some, if_neg hp, filterDraft, hfilters] at h
      cases hdraft : sizeDraft toText cfg intent portfolio ctx u price with
      | error r =>
        rw [hdraft] at h
        exact absurd (h.symm.trans (sizeDraft_error _ _ _ _ _ _ _ hdraft).1) Bool.noConfusion
      | ok d =>
        rw [hdraft] at h
        exact absurd h Bool.false_ne_true

/-- An approved size respects every cap and every filter exactly where the filters raise
it to minima within the limits, and to minima and maxima in whole steps. -/
theorem size_respects_caps (hf : ∀ f ∈ ctx.exchangeFilters, Positive f) :
    Respects toText cfg intent portfolio ctx u ↔ Safe cfg intent portfolio ctx u := by
  constructor
  · intro hrespects price hprice f hfilters hp hz ha
    rcases computeSizeV2_cases toText cfg intent portfolio ctx u hprice hfilters hp
      (hf f hfilters) with ⟨-, happroved, hqty, -⟩ | ⟨hno, -⟩
    · obtain ⟨price', hprice', f', hfilters', hall, -⟩ := hrespects happroved
      obtain rfl : price = price' := Option.some.inj (hprice.symm.trans hprice')
      obtain rfl : f = f' := Option.some.inj (hfilters.symm.trans hfilters')
      rw [hqty] at hall
      exact (respectsAll_iff hp (hf f hfilters) hz ha).mp hall
    · exact absurd ⟨hz, ha⟩ hno
  · intro hsafe happroved
    obtain ⟨price, hprice, hp, f, hfilters⟩ := approved_inputs _ _ _ _ _ _ happroved
    rcases computeSizeV2_cases toText cfg intent portfolio ctx u hprice hfilters hp
      (hf f hfilters) with ⟨⟨hz, ha⟩, -, hqty, hnotional⟩ | ⟨-, hno⟩
    · refine ⟨price, hprice, f, hfilters, ?_, by rw [hnotional, hqty]⟩
      rw [hqty]
      exact (respectsAll_iff hp (hf f hfilters) hz ha).mpr
        (hsafe price hprice f hfilters hp hz ha)
    · exact absurd (happroved.symm.trans hno) Bool.noConfusion

end Caps

section Cases

def sampleIntent : StrategyIntent ℚ :=
  { (emptyIntent : StrategyIntent ℚ) with symbol := "BTCUSDT", limitPrice := some 10 }

def samplePortfolio : FundedSnapshot ℚ where
  positions := []
  exposure := ⟨0, 0⟩
  pnl := ⟨0, 0, 0, 0, 0, 0, 0⟩
  totalCapital := 100
  availableCapital := 100

def sampleContext (minQuantity : ℚ) : AllocationContext ℚ where
  realizedVolAnnual := 0
  regime := .undefined
  winRate := 1 / 2
  avgWinLossRatio := 3 / 2
  avgDailyVolume := 0
  bookDepthNotional := 0
  currentDrawdownPct := 0
  maxLossPerTradePct := 0
  estimatedStopDistancePct := 0
  exchangeFilters := some ⟨minQuantity, 1000, 1 / 10, 5, 6 / 10000⟩

theorem sampleQuantity (minQuantity : ℚ) :
    cappedQuantity defaultAllocatorConfig sampleIntent samplePortfolio (sampleContext minQuantity)
      1 10 = 1 := by
  show cappedQuantity defaultAllocatorConfig sampleIntent samplePortfolio (sampleContext 0) 1 10 = 1
  decide +kernel

theorem size_respects_caps_sample :
    Respects (fun _ => "") defaultAllocatorConfig sampleIntent samplePortfolio
      (sampleContext (1 / 10)) 1 := by
  refine (size_respects_caps _ _ _ _ _ _ ?_).mpr ?_
  · rintro f hf
    rw [← Option.mem_some.mp hf]
    exact ⟨by norm_num, by norm_num, by norm_num⟩
  · rintro price hprice f hf hp - -
    rw [← Option.mem_some.mp hprice, ← Option.mem_some.mp hf, sampleQuantity, FilteredSafely,
      if_neg (by decide +kernel)]
    exact ⟨fun h => absurd h (by decide +kernel), fun h => absurd h (by decide +kernel),
      fun _ => Or.inl (by decide +kernel)⟩

/-- A minimum of two units is twice the budget of the symbol, and is approved. -/
theorem minimum_over_budget :
    ¬ ∀ (cfg : AllocatorConfig ℚ) (intent : StrategyIntent ℚ) (portfolio : FundedSnapshot ℚ)
      (ctx : AllocationContext ℚ) (u : ℚ), (∀ f ∈ ctx.exchangeFilters, Positive f) →
      Respects (fun _ => "") cfg intent portfolio ctx u := by
  intro h
  have hpositive : ∀ f ∈ (sampleContext 2).exchangeFilters, Positive f := by
    rintro f hf
    rw [← Option.mem_some.mp hf]
    exact ⟨by norm_num, by norm_num, by norm_num⟩
  obtain ⟨price, hprice, f, -, ⟨⟨hbudget, -⟩, -⟩, -⟩ := h defaultAllocatorConfig sampleIntent
    samplePortfolio (sampleContext 2) 1 hpositive (by decide +kernel)
  rw [← Option.mem_some.mp hprice] at hbudget
  exact absurd hbudget (by decide +kernel)

end Cases

end TB.AllocationCaps
