import TomorrowBot.ExecutionEngine
import TomorrowBot.ExecutionAlpha
import TomorrowBot.OrderSubmitter
import TomorrowBot.PlanCoherence
import Mathlib.Tactic.Linarith
import Mathlib.Tactic.FieldSimp

/-!
# Prices of orders that may only rest

An order that may only rest in the book has to stay behind the other side of it.
Its price was chosen from a reference price inside the spread, perhaps for
another style, and is rounded to the tick.
-/

set_option autoImplicit false

namespace TB.MakerPrices
open TB.CommonTypes TB.TradingContext TB.StrategyTypes TB.ExecutionAlpha
open TB.ExecutionPlanner (ExecutionConfig RiskDecision ExecutionAlphaResult ExecutionStyle
  ExecutionPlan MarketExecutionContext)
open TB.OrderSubmitter (ExchangeSymbolRules roundPrice scale powerOfTen)

structure Quotes (rules : ExchangeSymbolRules ℚ) (bid ask : ℚ) : Prop where
  positive : 0 < bid
  ordered : bid < ask
  bidOnGrid : ∃ m : ℤ, bid * scale rules.pricePrecision = m
  askOnGrid : ∃ n : ℤ, ask * scale rules.pricePrecision = n

structure OnBook (features : FeatureSnapshot ℚ) (bid ask : ℚ) : Prop where
  mid : features.midPrice = (bid + ask) / 2
  spread : features.microstructure.spread = ask - bid
  weightedBid : bid ≤ features.microstructure.weightedMidPrice
  weightedAsk : features.microstructure.weightedMidPrice ≤ ask

def Rests (side : Side) (bid ask price : ℚ) : Prop :=
  0 < price ∧
    match side with
    | .buy => price < ask
    | .sell => bid < price

def tick (rules : ExchangeSymbolRules ℚ) : ℚ := 1 / scale rules.pricePrecision

def skew (cfg : AlphaConfig ℚ) (features : FeatureSnapshot ℚ) (bid ask : ℚ) : ℚ :=
  (referenceMid cfg features).1 - (bid + ask) / 2

def improvement (cfg : AlphaConfig ℚ) (features : FeatureSnapshot ℚ) (bid ask : ℚ) : ℚ :=
  min ((referenceMid cfg features).1 * cfg.limitPricePassiveBps / 10000) ((ask - bid) / 2 * 0.3)

def Room (cfg : AlphaConfig ℚ) (features : FeatureSnapshot ℚ) (style : ExecutionStyle)
    (side : Side) (bid ask t : ℚ) : Prop :=
  let s := skew cfg features bid ask
  let i := improvement cfg features bid ask
  match isMaker style, side with
  | true, .buy => s + i + t / 2 < ask - bid ∧ t / 2 ≤ bid + s + i
  | true, .sell => i + t / 2 ≤ ask - bid + s
  | false, .buy => s + t / 2 < 3 / 10 * (ask - bid)
  | false, .sell => t / 2 ≤ 3 / 10 * (ask - bid) + s

section Rounding
variable (rules : ExchangeSymbolRules ℚ)

theorem powerOfTen_pos (n : ℕ) : (0 : ℚ) < powerOfTen n := by
  induction n with
  | zero =>
    unfold powerOfTen
    norm_num
  | succ n ih =>
    unfold powerOfTen
    exact mul_pos ih (by norm_num)

theorem scale_pos : (0 : ℚ) < scale rules.pricePrecision := powerOfTen_pos _

theorem tick_pos : 0 < tick rules := one_div_pos.mpr (scale_pos rules)

theorem tick_scale : tick rules * scale rules.pricePrecision = 1 :=
  one_div_mul_cancel (scale_pos rules).ne'

theorem roundPrice_pos {price : ℚ} (h : 0 < price) :
    roundPrice rules price * scale rules.pricePrecision =
      (⌊price * scale rules.pricePrecision + 1 / 2⌋ : ℤ) := by
  have hzero : (0.0 : ℚ) = 0 := by norm_num
  have hhalf : (0.5 : ℚ) = 1 / 2 := by norm_num
  have hscaled : ¬ price * scale rules.pricePrecision < 0.0 := by
    rw [hzero]
    exact not_lt.mpr (mul_pos h (scale_pos rules)).le
  have hround : stdRound (price * scale rules.pricePrecision) =
      ((⌊price * scale rules.pricePrecision + 1 / 2⌋ : ℤ) : ℚ) := by
    rw [stdRound, if_neg hscaled, hhalf]
    rfl
  rw [roundPrice, if_neg (by rw [hzero]; exact not_le.mpr h), hround,
    div_mul_cancel₀ _ (scale_pos rules).ne']

/-- A rounded price is below a value on the grid when the price is by more than half a tick. -/
theorem round_lt_iff {price y : ℚ} (h : 0 < price) {n : ℤ}
    (hy : y * scale rules.pricePrecision = n) :
    roundPrice rules price < y ↔ price + tick rules / 2 < y := by
  have hs := scale_pos rules
  have hhalf : (price + tick rules / 2) * scale rules.pricePrecision =
      price * scale rules.pricePrecision + 1 / 2 := by
    rw [add_mul, div_mul_eq_mul_div, tick_scale]
  rw [← mul_lt_mul_iff_left₀ hs, roundPrice_pos rules h, hy, Int.cast_lt, Int.floor_lt, ← hy,
    ← hhalf, mul_lt_mul_iff_left₀ hs]

theorem lt_round_iff {price y : ℚ} (h : 0 < price) {m : ℤ}
    (hy : y * scale rules.pricePrecision = m) :
    y < roundPrice rules price ↔ y + tick rules / 2 ≤ price := by
  have hs := scale_pos rules
  have hhalf : (y + tick rules / 2) * scale rules.pricePrecision = m + 1 / 2 := by
    rw [add_mul, div_mul_eq_mul_div, tick_scale, hy]
  rw [← mul_lt_mul_iff_left₀ hs, roundPrice_pos rules h, hy, Int.cast_lt, ← Int.add_one_le_iff,
    Int.le_floor, ← mul_le_mul_iff_left₀ hs (b := y + tick rules / 2), hhalf]
  push_cast
  constructor <;> intro hle <;> linarith

theorem round_pos_iff {price : ℚ} (h : 0 < price) :
    0 < roundPrice rules price ↔ tick rules / 2 ≤ price := by
  have hzero : (0 : ℚ) * scale rules.pricePrecision = ((0 : ℤ) : ℚ) := by norm_num
  rw [lt_round_iff rules h hzero, zero_add]

theorem tick_le {y : ℚ} (h : 0 < y) {m : ℤ} (hy : y * scale rules.pricePrecision = m) :
    tick rules ≤ y := by
  have hs := scale_pos rules
  have hm : 0 < m := by
    have hscaled := mul_pos h hs
    rw [hy] at hscaled
    exact_mod_cast hscaled
  rw [← mul_le_mul_iff_left₀ hs, tick_scale, hy]
  exact_mod_cast hm

end Rounding

section Prices
variable (rules : ExchangeSymbolRules ℚ) (cfg : AlphaConfig ℚ) (intent : StrategyIntent ℚ)
  (features : FeatureSnapshot ℚ) {bid ask : ℚ}

theorem referenceMid_pos (hquotes : Quotes rules bid ask) (hbook : OnBook features bid ask) :
    0 < (referenceMid cfg features).1 ∧ bid ≤ (referenceMid cfg features).1 ∧
      (referenceMid cfg features).1 ≤ ask := by
  have hpos := hquotes.positive
  have hlt := hquotes.ordered
  unfold referenceMid
  split_ifs
  · exact ⟨hpos.trans_le hbook.weightedBid, hbook.weightedBid, hbook.weightedAsk⟩
  · rw [hbook.mid]
    constructor
    · linarith
    · constructor <;> linarith

theorem computeLimitPrice_book (hquotes : Quotes rules bid ask)
    (hbook : OnBook features bid ask) {style : ExecutionStyle} (haggressive : style ≠ .aggressive)
    (hrefused : style ≠ .noExecution) :
    (computeLimitPrice cfg intent features style).1 =
      some (limitPriceAt cfg intent style (referenceMid cfg features).1 (ask - bid)) := by
  have hzero : (0.0 : ℚ) = 0 := by norm_num
  have hspread : ¬ features.microstructure.spread ≤ 0.0 := by
    rw [hbook.spread, hzero]
    exact not_le.mpr (sub_pos.mpr hquotes.ordered)
  have hmid : ¬ (referenceMid cfg features).1 ≤ 0.0 := by
    rw [hzero]
    exact not_le.mpr (referenceMid_pos rules cfg features hquotes hbook).1
  unfold computeLimitPrice
  simp only [haggressive, hrefused, or_self, if_false, hspread, hmid]
  rw [hbook.spread]

theorem limitPriceAt_eq (style : ExecutionStyle) :
    limitPriceAt cfg intent style (referenceMid cfg features).1 (ask - bid) =
      match isMaker style, intent.side with
      | true, .buy => bid + skew cfg features bid ask + improvement cfg features bid ask
      | true, .sell => ask + skew cfg features bid ask - improvement cfg features bid ask
      | false, .buy => (bid + ask) / 2 + skew cfg features bid ask + (ask - bid) / 5
      | false, .sell => (bid + ask) / 2 + skew cfg features bid ask - (ask - bid) / 5 := by
  unfold limitPriceAt skew improvement
  simp only [stdMin_rat]
  cases isMaker style with
  | true => cases intent.side <;> norm_num <;> ring_nf
  | false => cases intent.side <;> norm_num <;> ring_nf

theorem rests_iff (hquotes : Quotes rules bid ask) (hbook : OnBook features bid ask)
    (style : ExecutionStyle)
    (hprice : 0 < limitPriceAt cfg intent style (referenceMid cfg features).1 (ask - bid)) :
    Rests intent.side bid ask (roundPrice rules
        (limitPriceAt cfg intent style (referenceMid cfg features).1 (ask - bid))) ↔
      Room cfg features style intent.side bid ask (tick rules) := by
  obtain ⟨m, hm⟩ := hquotes.bidOnGrid
  obtain ⟨n, hn⟩ := hquotes.askOnGrid
  have hpos := hquotes.positive
  have htick := tick_le rules hpos hm
  obtain ⟨-, hlow, hhigh⟩ := referenceMid_pos rules cfg features hquotes hbook
  have hskew : bid ≤ (bid + ask) / 2 + skew cfg features bid ask := by
    unfold skew
    linarith
  unfold Rests Room
  rw [round_pos_iff rules hprice]
  cases hside : intent.side with
  | buy =>
    simp only
    rw [round_lt_iff rules hprice hn, limitPriceAt_eq, hside]
    cases isMaker style with
    | true =>
      simp only
      constructor
      · rintro ⟨hlow, hcross⟩
        exact ⟨by linarith, hlow⟩
      · rintro ⟨hcross, hlow⟩
        exact ⟨hlow, by linarith⟩
    | false =>
      simp only
      have hspread := hquotes.ordered
      have ht := tick_pos rules
      constructor
      · rintro ⟨-, hcross⟩
        linarith
      · intro hroom
        constructor <;> linarith
  | sell =>
    simp only
    rw [lt_round_iff rules hprice hm, limitPriceAt_eq, hside]
    have ht := tick_pos rules
    cases isMaker style with
    | true =>
      simp only
      constructor
      · rintro ⟨-, hcross⟩
        linarith
      · intro hroom
        constructor <;> linarith
    | false =>
      simp only
      constructor
      · rintro ⟨-, hcross⟩
        linarith
      · intro hroom
        constructor <;> linarith

end Prices

section Plans
variable (rules : ExchangeSymbolRules ℚ) (cfg : AlphaConfig ℚ) (config : ExecutionConfig ℚ)
  (intent : StrategyIntent ℚ) (risk : RiskDecision ℚ) (features : FeatureSnapshot ℚ)
  (uncertainty : UncertaintySnapshot ℚ) (now : Timestamp)

def planOn : ExecutionPlan ℚ :=
  let alpha := (evaluate cfg intent features uncertainty now).advice
  ExecutionPlanner.plan config intent.toTradeIntent risk alpha
    (ExecutionEngine.marketContext intent.toTradeIntent alpha)

theorem planOn_price {bid ask : ℚ} (hquotes : Quotes rules bid ask) (hbook : OnBook features bid ask)
    (hpost : (planOn cfg config intent risk features uncertainty now).orderType = .postOnly) :
    (planOn cfg config intent risk features uncertainty now).plannedPrice =
        limitPriceAt cfg intent (advisedStyle cfg intent features uncertainty)
          (referenceMid cfg features).1 (ask - bid) ∧
      0 < limitPriceAt cfg intent (advisedStyle cfg intent features uncertainty)
          (referenceMid cfg features).1 (ask - bid) := by
  obtain ⟨haggressive, hrefused, hprice, hpositive⟩ :=
    ExecutionPlanner.postOnly_plan config intent.toTradeIntent risk _ _ hpost
  have hadvised := evaluate_advised cfg intent features uncertainty now fun hrefuses =>
    hrefused (evaluate_refused cfg intent features uncertainty now hrefuses).2
  rw [hadvised] at haggressive hrefused
  have hlimit := computeLimitPrice_book rules cfg intent features hquotes hbook haggressive hrefused
  have hplanner : ∀ market, ExecutionPlanner.computeLimitPrice config intent.toTradeIntent
      (evaluate cfg intent features uncertainty now).advice market =
        limitPriceAt cfg intent (advisedStyle cfg intent features uncertainty)
          (referenceMid cfg features).1 (ask - bid) := by
    intro market
    unfold ExecutionPlanner.computeLimitPrice
    rw [hadvised, hlimit]
  rw [hplanner] at hprice hpositive
  exact ⟨hprice, not_le.mp hpositive⟩

/-- An order that may only rest does so exactly when the spread leaves room for its style. -/
theorem maker_rests_iff {bid ask : ℚ} (hquotes : Quotes rules bid ask)
    (hbook : OnBook features bid ask)
    (hpost : (planOn cfg config intent risk features uncertainty now).orderType = .postOnly) :
    Rests intent.side bid ask
        (roundPrice rules (planOn cfg config intent risk features uncertainty now).plannedPrice) ↔
      Room cfg features (advisedStyle cfg intent features uncertainty) intent.side bid ask
        (tick rules) := by
  obtain ⟨hprice, hpositive⟩ :=
    planOn_price rules cfg config intent risk features uncertainty now hquotes hbook hpost
  rw [hprice]
  exact rests_iff rules cfg intent features hquotes hbook _ hpositive

end Plans

def tenthRules : ExchangeSymbolRules ℚ := ⟨3, 1, 0, 0⟩

def waitingBuy : StrategyIntent ℚ := { (emptyIntent : StrategyIntent ℚ) with symbol := "BTCUSDT" }

def skewedBook (weightedMid : ℚ) : FeatureSnapshot ℚ where
  symbol := "BTCUSDT"
  marketDataAgeNs := 0
  midPrice := 2001 / 20
  technical := defaultTechnical
  microstructure := { (defaultMicrostructure : MicrostructureFeatures ℚ) with
    spread := 1 / 10
    spreadBps := 20000 / 2001
    spreadValid := true
    weightedMidPrice := weightedMid
    vpin := 9 / 10
    vpinToxic := true
    vpinValid := true }
  executionContext := ⟨0, true⟩
  bookQuality := .valid

def calmMarket : UncertaintySnapshot ℚ := ⟨.low, 1, .normal, ⟨false, ""⟩⟩

theorem tenth_quotes : Quotes tenthRules 100 (1001 / 10) where
  positive := by norm_num
  ordered := by norm_num
  bidOnGrid := ⟨1000, by decide +kernel⟩
  askOnGrid := ⟨1001, by decide +kernel⟩

theorem skewed_onBook {weightedMid : ℚ} (hlow : 100 ≤ weightedMid)
    (hhigh : weightedMid ≤ 1001 / 10) : OnBook (skewedBook weightedMid) 100 (1001 / 10) where
  mid := by
    show (2001 / 20 : ℚ) = _
    norm_num
  spread := by
    show (1 / 10 : ℚ) = _
    norm_num
  weightedBid := hlow
  weightedAsk := hhigh

theorem skewed_postOnly (weightedMid : ℚ) (h : weightedMid = 10009 / 100 ∨ weightedMid = 2001 / 20) :
    (planOn defaultAlphaConfig ExecutionPlanner.defaultConfig waitingBuy ⟨.approved, 1⟩
      (skewedBook weightedMid) calmMarket 0).orderType = .postOnly := by
  rcases h with rfl | rfl <;> decide +kernel

/-- The price of 100.055 becomes that of the ask. -/
theorem skewed_book_crosses : ¬ ∀ (rules : ExchangeSymbolRules ℚ) (cfg : AlphaConfig ℚ)
    (config : ExecutionConfig ℚ) (intent : StrategyIntent ℚ) (risk : RiskDecision ℚ)
    (features : FeatureSnapshot ℚ) (uncertainty : UncertaintySnapshot ℚ) (now : Timestamp)
    (bid ask : ℚ), Quotes rules bid ask → OnBook features bid ask →
      ExecutionPlanner.classifyAction intent.toTradeIntent = .openPosition →
      (planOn cfg config intent risk features uncertainty now).orderType = .postOnly →
      Rests intent.side bid ask
        (roundPrice rules (planOn cfg config intent risk features uncertainty now).plannedPrice) := by
  intro h
  have hrests := h tenthRules defaultAlphaConfig ExecutionPlanner.defaultConfig waitingBuy
    ⟨.approved, 1⟩ (skewedBook (10009 / 100)) calmMarket 0 100 (1001 / 10) tenth_quotes
    (skewed_onBook (by norm_num) (by norm_num)) (by decide) (skewed_postOnly _ (Or.inl rfl))
  have hcross : ¬ roundPrice tenthRules (planOn defaultAlphaConfig ExecutionPlanner.defaultConfig
      waitingBuy ⟨.approved, 1⟩ (skewedBook (10009 / 100)) calmMarket 0).plannedPrice <
        1001 / 10 := by
    decide +kernel
  exact hcross hrests.2

theorem maker_rests_balanced :
    Rests .buy 100 (1001 / 10) (roundPrice tenthRules (planOn defaultAlphaConfig
        ExecutionPlanner.defaultConfig waitingBuy ⟨.approved, 1⟩ (skewedBook (2001 / 20)) calmMarket
        0).plannedPrice) ↔
      Room defaultAlphaConfig (skewedBook (2001 / 20))
        (advisedStyle defaultAlphaConfig waitingBuy (skewedBook (2001 / 20)) calmMarket) .buy 100
        (1001 / 10) (tick tenthRules) :=
  maker_rests_iff tenthRules defaultAlphaConfig ExecutionPlanner.defaultConfig waitingBuy
    ⟨.approved, 1⟩ (skewedBook (2001 / 20)) calmMarket 0 tenth_quotes
    (skewed_onBook (by norm_num) (by norm_num)) (skewed_postOnly _ (Or.inr rfl))

end TB.MakerPrices
