import TomorrowBot.ExecutionPlanner
import TomorrowBot.DoubleValues
import Mathlib.Tactic.SplitIfs

/-!
# Which plans are coherent

The style of a plan is chosen once and then overridden: without a usable price,
in a wide spread, and on stale data. Each rule rewrites the order type and the
time in force with the style; none of them takes back the permission to fall
back on a market order.
-/

set_option autoImplicit false

namespace TB.ExecutionPlanner
open TB.CommonTypes TB.DoubleValues

section Plan
variable {F : Type} [DoubleArith F] (config : ExecutionConfig F) (intent : TradeIntent F)
  (risk : RiskDecision F) (alpha : ExecutionAlphaResult F) (market : MarketExecutionContext F)

def WideEntry : Prop :=
  config.spreadBpsAggressiveThreshold < market.spreadBps ∧ classifyAction intent = .openPosition

def Unpriced : Prop :=
  styleToOrderType (chooseStyle config alpha market (classifyAction intent)) ≠ .market ∧
    computeLimitPrice config intent alpha market ≤ 0

theorem chooseStyle_exit (action : ExecutionAction) (h : isExit action = true) :
    chooseStyle config alpha market action = .reduceOnly := if_pos h

theorem chooseStyle_market {action : ExecutionAction} (hexit : isExit action = false)
    (h : styleToOrderType (chooseStyle config alpha market action) = .market) :
    alpha.recommendedStyle = .aggressive ∨ alpha.recommendedStyle = .noExecution ∨
      config.urgencyAggressiveThreshold ≤ alpha.urgencyScore := by
  unfold chooseStyle fallbackStyle at h
  rw [hexit] at h
  cases hstyle : alpha.recommendedStyle with
  | aggressive => exact Or.inl rfl
  | noExecution => exact Or.inr (Or.inl rfl)
  | postOnly =>
    rw [hstyle] at h
    cases h
  | passive | hybrid =>
    rw [hstyle] at h
    right; right
    by_contra hurgent
    simp only [hurgent, if_false, Bool.false_eq_true] at h
    split_ifs at h <;> cases h

theorem basePlan_unpriced (h : Unpriced config intent alpha market) :
    (basePlan config intent risk alpha market).style = .aggressiveMarket := if_pos h

theorem basePlan_kept (h : ¬ Unpriced config intent alpha market) :
    (basePlan config intent risk alpha market).style =
      chooseStyle config alpha market (classifyAction intent) := if_neg h

theorem basePlan_limit
    (h : styleToOrderType (basePlan config intent risk alpha market).style ≠ .market) :
    ¬ Unpriced config intent alpha market ∧
      styleToOrderType (chooseStyle config alpha market (classifyAction intent)) ≠ .market := by
  by_cases hun : Unpriced config intent alpha market
  · rw [basePlan_unpriced config intent risk alpha market hun] at h
    exact absurd rfl h
  · rw [basePlan_kept config intent risk alpha market hun] at h
    exact ⟨hun, h⟩

theorem basePlan_price
    (h : styleToOrderType (chooseStyle config alpha market (classifyAction intent)) ≠ .market) :
    (basePlan config intent risk alpha market).plannedPrice =
      computeLimitPrice config intent alpha market := if_neg h

theorem basePlan_styled :
    (basePlan config intent risk alpha market).orderType =
        styleToOrderType (basePlan config intent risk alpha market).style ∧
      (basePlan config intent risk alpha market).tif =
        styleToTif (basePlan config intent risk alpha market).style := by
  unfold basePlan
  dsimp only
  split_ifs <;> exact ⟨rfl, rfl⟩

theorem plan_action : (plan config intent risk alpha market).action = classifyAction intent := by
  unfold plan marketWhenStale cancelInWideSpread
  split_ifs <;> rfl

theorem plan_reduceOnly : (plan config intent risk alpha market).reduceOnly =
    shouldReduceOnly intent (classifyAction intent) := by
  unfold plan marketWhenStale cancelInWideSpread
  split_ifs <;> rfl

theorem plan_price : (plan config intent risk alpha market).plannedPrice =
    (basePlan config intent risk alpha market).plannedPrice := by
  unfold plan marketWhenStale cancelInWideSpread
  split_ifs <;> rfl

theorem plan_fallback : (plan config intent risk alpha market).enableFallback =
    decide ((basePlan config intent risk alpha market).style = .smartFallback) := by
  unfold plan marketWhenStale cancelInWideSpread
  split_ifs <;> rfl

theorem plan_styled :
    (plan config intent risk alpha market).orderType =
        styleToOrderType (plan config intent risk alpha market).style ∧
      (plan config intent risk alpha market).tif =
        styleToTif (plan config intent risk alpha market).style := by
  unfold plan marketWhenStale cancelInWideSpread
  split_ifs
  · exact ⟨rfl, rfl⟩
  · exact ⟨rfl, rfl⟩
  · exact ⟨rfl, rfl⟩
  · exact basePlan_styled config intent risk alpha market

theorem plan_stale (h : market.isStale = true) :
    (plan config intent risk alpha market).style = .aggressiveMarket := by
  unfold plan marketWhenStale
  rw [if_pos h]

theorem plan_fresh (h : market.isStale = false) :
    (plan config intent risk alpha market).style =
      (cancelInWideSpread config market (basePlan config intent risk alpha market)).style := by
  unfold plan marketWhenStale
  rw [h, if_neg Bool.false_ne_true]

theorem cancel_wide (hwide : WideEntry config intent market)
    (hstyle : (basePlan config intent risk alpha market).style ≠ .aggressiveMarket) :
    (cancelInWideSpread config market (basePlan config intent risk alpha market)).style =
      .cancelIfNotFilled := by
  unfold cancelInWideSpread
  exact congrArg ExecutionPlan.style (if_pos ⟨hwide.1, hwide.2, hstyle⟩)

theorem cancel_narrow (h : ¬ WideEntry config intent market ∨
    (basePlan config intent risk alpha market).style = .aggressiveMarket) :
    (cancelInWideSpread config market (basePlan config intent risk alpha market)).style =
      (basePlan config intent risk alpha market).style := by
  unfold cancelInWideSpread
  refine congrArg ExecutionPlan.style (if_neg ?_)
  rintro ⟨hwide, hopen, hstyle⟩
  exact h.elim (fun hnarrow => hnarrow ⟨hwide, hopen⟩) hstyle

theorem chooseStyle_entry {action : ExecutionAction} (h : isExit action = false) :
    chooseStyle config alpha market action ≠ .reduceOnly := by
  unfold chooseStyle fallbackStyle
  rw [h, if_neg Bool.false_ne_true]
  cases alpha.recommendedStyle with
  | aggressive | postOnly | noExecution => exact PlannedExecutionStyle.noConfusion
  | passive | hybrid =>
    dsimp only
    split_ifs <;> exact PlannedExecutionStyle.noConfusion

theorem market_style {style : PlannedExecutionStyle} (h : styleToOrderType style = .market) :
    style = .aggressiveMarket ∨ style = .reduceOnly := by
  cases style with
  | aggressiveMarket => exact Or.inl rfl
  | reduceOnly => exact Or.inr rfl
  | passiveLimit | postOnlyLimit | smartFallback | cancelIfNotFilled => cases h

theorem limit_types (style : PlannedExecutionStyle) :
    styleToOrderType style = .limit ∨ styleToOrderType style = .postOnly ↔
      styleToOrderType style ≠ .market := by
  cases style <;> decide

theorem wide_entry (h : WideEntry config intent market) :
    isExit (classifyAction intent) = false := by
  rw [h.2]
  rfl

/-- The override of a wide spread keeps the kind of the order. -/
theorem cancel_market_iff :
    styleToOrderType
        (cancelInWideSpread config market (basePlan config intent risk alpha market)).style =
          .market ↔
      styleToOrderType (basePlan config intent risk alpha market).style = .market := by
  by_cases hnarrow : ¬ WideEntry config intent market ∨
      (basePlan config intent risk alpha market).style = .aggressiveMarket
  · rw [cancel_narrow config intent risk alpha market hnarrow]
  · obtain ⟨hwide, hstyle⟩ := not_or.mp hnarrow
    rw [cancel_wide config intent risk alpha market (not_not.mp hwide) hstyle]
    refine iff_of_false (by decide) fun hmarket => ?_
    have hreduce := (market_style hmarket).resolve_left hstyle
    by_cases hun : Unpriced config intent alpha market
    · exact hstyle (basePlan_unpriced config intent risk alpha market hun)
    · rw [basePlan_kept config intent risk alpha market hun] at hreduce
      exact chooseStyle_entry config alpha market
        (wide_entry config intent market (not_not.mp hwide)) hreduce

theorem plan_market_iff : (plan config intent risk alpha market).orderType = .market ↔
    market.isStale = true ∨
      styleToOrderType (basePlan config intent risk alpha market).style = .market := by
  rw [(plan_styled config intent risk alpha market).1]
  cases hstale : market.isStale with
  | true =>
    rw [plan_stale config intent risk alpha market hstale]
    exact iff_of_true rfl (Or.inl rfl)
  | false =>
    rw [plan_fresh config intent risk alpha market hstale, cancel_market_iff]
    simp only [Bool.false_eq_true, false_or]

theorem plan_exits (h : isExit (plan config intent risk alpha market).action = true) :
    (plan config intent risk alpha market).reduceOnly = true ∧
      (plan config intent risk alpha market).orderType = .market := by
  rw [plan_action] at h
  constructor
  · rw [plan_reduceOnly, shouldReduceOnly, h, Bool.true_or]
  · have hchosen := chooseStyle_exit config alpha market (classifyAction intent) h
    have hpriced : ¬ Unpriced config intent alpha market := by
      rintro ⟨hlimit, -⟩
      rw [hchosen] at hlimit
      exact hlimit rfl
    rw [plan_market_iff, basePlan_kept config intent risk alpha market hpriced, hchosen]
    exact Or.inr rfl

theorem base_fallback_iff : (basePlan config intent risk alpha market).style = .smartFallback ↔
    chooseStyle config alpha market (classifyAction intent) = .smartFallback ∧
      ¬ computeLimitPrice config intent alpha market ≤ 0 := by
  by_cases hun : Unpriced config intent alpha market
  · rw [basePlan_unpriced config intent risk alpha market hun]
    exact iff_of_false PlannedExecutionStyle.noConfusion fun h => h.2 hun.2
  · rw [basePlan_kept config intent risk alpha market hun]
    refine ⟨fun h => ⟨h, fun hle => hun ⟨?_, hle⟩⟩, And.left⟩
    rw [h]
    decide

theorem plan_fallback_iff :
    ((plan config intent risk alpha market).enableFallback = true →
      (plan config intent risk alpha market).style = .smartFallback) ↔
    (chooseStyle config alpha market (classifyAction intent) = .smartFallback →
      ¬ computeLimitPrice config intent alpha market ≤ 0 →
      market.isStale = false ∧ ¬ WideEntry config intent market) := by
  rw [plan_fallback, decide_eq_true_eq, base_fallback_iff, and_imp]
  refine forall₂_congr fun hchosen hpositive => ?_
  have hbase := (base_fallback_iff config intent risk alpha market).mpr ⟨hchosen, hpositive⟩
  cases hstale : market.isStale with
  | true =>
    rw [plan_stale config intent risk alpha market hstale]
    exact iff_of_false PlannedExecutionStyle.noConfusion fun h => Bool.noConfusion h.1
  | false =>
    rw [plan_fresh config intent risk alpha market hstale]
    by_cases hwide : WideEntry config intent market
    · rw [cancel_wide config intent risk alpha market hwide (by rw [hbase]; decide)]
      exact iff_of_false PlannedExecutionStyle.noConfusion fun h => h.2 hwide
    · rw [cancel_narrow config intent risk alpha market (Or.inl hwide)]
      exact iff_of_true hbase ⟨rfl, hwide⟩

/-- An order that may only rest carries the limit price, which was advised a style. -/
theorem postOnly_plan (h : (plan config intent risk alpha market).orderType = .postOnly) :
    alpha.recommendedStyle ≠ .aggressive ∧ alpha.recommendedStyle ≠ .noExecution ∧
      (plan config intent risk alpha market).plannedPrice =
        computeLimitPrice config intent alpha market ∧
      ¬ computeLimitPrice config intent alpha market ≤ 0 := by
  have hlimit : (plan config intent risk alpha market).orderType ≠ .market := by
    rw [h]
    decide
  rw [Ne, plan_market_iff, not_or] at hlimit
  obtain ⟨hun, hchosen⟩ := basePlan_limit config intent risk alpha market hlimit.2
  have hexit : isExit (classifyAction intent) = false := by
    rw [← Bool.not_eq_true]
    intro hexit
    rw [chooseStyle_exit config alpha market _ hexit] at hchosen
    exact hchosen rfl
  unfold chooseStyle at hchosen
  rw [hexit, if_neg Bool.false_ne_true] at hchosen
  refine ⟨?_, ?_, ?_, fun hle => hun ⟨?_, hle⟩⟩
  · intro haggressive
    rw [haggressive] at hchosen
    exact hchosen rfl
  · intro hrefused
    rw [hrefused] at hchosen
    exact hchosen rfl
  · rw [plan_price]
    exact basePlan_price config intent risk alpha market (basePlan_limit config intent risk alpha
      market hlimit.2).2
  · exact (basePlan_limit config intent risk alpha market hlimit.2).2

end Plan

section Coherence

def Usable (price : Double) : Prop := isfinite price = true ∧ 0 < price

structure Coherent (config : ExecutionConfig Double) (intent : TradeIntent Double)
    (alpha : ExecutionAlphaResult Double) (market : MarketExecutionContext Double)
    (p : ExecutionPlan Double) : Prop where
  styled : p.orderType = styleToOrderType p.style ∧ p.tif = styleToTif p.style
  priced : p.orderType = .limit ∨ p.orderType = .postOnly → Usable p.plannedPrice
  fallback : p.enableFallback = true → p.style = .smartFallback
  exits : isExit p.action = true → p.reduceOnly = true ∧ p.orderType = .market
  entries : p.action = .openPosition → market.isStale = false → p.orderType = .market →
    alpha.recommendedStyle = .aggressive ∨ config.urgencyAggressiveThreshold ≤ alpha.urgencyScore ∨
      ¬ Usable (computeLimitPrice config intent alpha market)

variable (config : ExecutionConfig Double) (intent : TradeIntent Double)
  (risk : RiskDecision Double) (alpha : ExecutionAlphaResult Double)
  (market : MarketExecutionContext Double)

structure InOrder : Prop where
  fallbackKept : chooseStyle config alpha market (classifyAction intent) = .smartFallback →
    ¬ computeLimitPrice config intent alpha market ≤ 0 →
    market.isStale = false ∧ ¬ WideEntry config intent market
  numberedPrice : market.isStale = false →
    styleToOrderType (chooseStyle config alpha market (classifyAction intent)) ≠ .market →
    computeLimitPrice config intent alpha market ≠ .nan ∧
      computeLimitPrice config intent alpha market ≠ .posInf
  executed : classifyAction intent = .openPosition → market.isStale = false →
    alpha.recommendedStyle = .noExecution →
    config.urgencyAggressiveThreshold ≤ alpha.urgencyScore ∨
      ¬ Usable (computeLimitPrice config intent alpha market)

theorem usable_iff (price : Double) : Usable price ↔
    ¬ price ≤ 0 ∧ price ≠ .nan ∧ price ≠ .posInf := by
  have hzero : (0 : Double) = .finite 0 := rfl
  unfold Usable
  rw [hzero]
  cases price with
  | nan => simp [isfinite, Double.isFinite]
  | negInf => simp [isfinite, Double.isFinite, Double.le_iff, Double.le]
  | finite q => simp [isfinite, Double.isFinite, Double.finite_le, Double.finite_lt]
  | posInf => simp [isfinite, Double.isFinite]

theorem plan_priced_iff :
    ((plan config intent risk alpha market).orderType = .limit ∨
        (plan config intent risk alpha market).orderType = .postOnly →
      Usable (plan config intent risk alpha market).plannedPrice) ↔
    (market.isStale = false →
      styleToOrderType (chooseStyle config alpha market (classifyAction intent)) ≠ .market →
      computeLimitPrice config intent alpha market ≠ .nan ∧
        computeLimitPrice config intent alpha market ≠ .posInf) := by
  have htype := limit_types (plan config intent risk alpha market).style
  rw [← (plan_styled config intent risk alpha market).1, Ne, plan_market_iff, not_or,
    Bool.not_eq_true] at htype
  rw [htype, plan_price]
  constructor
  · intro hpriced hfresh hlimit
    by_cases hle : computeLimitPrice config intent alpha market ≤ 0
    · constructor
      · intro hnan
        rw [hnan] at hle
        cases hle
      · intro hinf
        rw [hinf] at hle
        cases hle
    · have hun : ¬ Unpriced config intent alpha market := fun hun => hle hun.2
      rw [basePlan_kept config intent risk alpha market hun,
        basePlan_price config intent risk alpha market hlimit] at hpriced
      exact ((usable_iff _).mp (hpriced ⟨hfresh, hlimit⟩)).2
  · rintro hnumber ⟨hfresh, hbase⟩
    obtain ⟨hun, hlimit⟩ := basePlan_limit config intent risk alpha market hbase
    rw [basePlan_price config intent risk alpha market hlimit, usable_iff]
    exact ⟨fun hle => hun ⟨hlimit, hle⟩, hnumber hfresh hlimit⟩

theorem plan_entries_iff :
    ((plan config intent risk alpha market).action = .openPosition → market.isStale = false →
      (plan config intent risk alpha market).orderType = .market →
      alpha.recommendedStyle = .aggressive ∨
        config.urgencyAggressiveThreshold ≤ alpha.urgencyScore ∨
        ¬ Usable (computeLimitPrice config intent alpha market)) ↔
    (classifyAction intent = .openPosition → market.isStale = false →
      alpha.recommendedStyle = .noExecution →
      config.urgencyAggressiveThreshold ≤ alpha.urgencyScore ∨
        ¬ Usable (computeLimitPrice config intent alpha market)) := by
  rw [plan_action, plan_market_iff]
  refine forall₂_congr fun hopen hfresh => ?_
  have hentry : isExit (classifyAction intent) = false := by
    rw [hopen]
    rfl
  constructor
  · intro hentries hrefused
    have hchosen : chooseStyle config alpha market (classifyAction intent) = .aggressiveMarket := by
      unfold chooseStyle
      rw [hentry, hrefused]
      rfl
    have hun : ¬ Unpriced config intent alpha market := by
      rintro ⟨hlimit, -⟩
      rw [hchosen] at hlimit
      exact hlimit rfl
    rw [basePlan_kept config intent risk alpha market hun, hchosen] at hentries
    refine (hentries (Or.inr rfl)).resolve_left fun haggressive => ?_
    rw [hrefused] at haggressive
    cases haggressive
  · intro hrefused hmarket
    rw [hfresh] at hmarket
    have hbase := hmarket.resolve_left Bool.false_ne_true
    by_cases hun : Unpriced config intent alpha market
    · exact Or.inr (Or.inr fun husable => ((usable_iff _).mp husable).1 hun.2)
    · rw [basePlan_kept config intent risk alpha market hun] at hbase
      rcases chooseStyle_market config alpha market hentry hbase with h | h | h
      · exact Or.inl h
      · exact Or.inr (hrefused h)
      · exact Or.inr (Or.inl h)

/-- The plan is coherent exactly when the inputs are in order. -/
theorem plan_coherent_iff :
    Coherent config intent alpha market (plan config intent risk alpha market) ↔
      InOrder config intent alpha market := by
  constructor
  · intro h
    exact ⟨(plan_fallback_iff config intent risk alpha market).mp h.fallback,
      (plan_priced_iff config intent risk alpha market).mp h.priced,
      (plan_entries_iff config intent risk alpha market).mp h.entries⟩
  · intro h
    exact ⟨plan_styled config intent risk alpha market,
      (plan_priced_iff config intent risk alpha market).mpr h.numberedPrice,
      (plan_fallback_iff config intent risk alpha market).mpr h.fallbackKept,
      plan_exits config intent risk alpha market,
      (plan_entries_iff config intent risk alpha market).mpr h.executed⟩

end Coherence

def patientEntry : TradeIntent Double :=
  ⟨"momentum", "BTCUSDT", .buy, .long, .opening, .longEntry, .none, "c1", some (.finite 100), none,
    none, none⟩

def patientAdvice : ExecutionAlphaResult Double :=
  ⟨true, .passive, .finite (6 / 10), none, .finite 20⟩

def wideMarket : MarketExecutionContext Double :=
  ⟨.finite (998 / 10), .finite (1002 / 10), .finite 40, false⟩

/-- The order is cancelled unless it fills at once, and may still fall back on a market order. -/
theorem fallback_left_on : ¬ ∀ (config : ExecutionConfig Double) (intent : TradeIntent Double)
    (risk : RiskDecision Double) (alpha : ExecutionAlphaResult Double)
    (market : MarketExecutionContext Double),
    Coherent config intent alpha market (plan config intent risk alpha market) := by
  intro h
  have hplan := h defaultConfig patientEntry ⟨.approved, .finite 1⟩ patientAdvice wideMarket
  exact absurd (hplan.fallback (by decide +kernel)) (by decide +kernel)

end TB.ExecutionPlanner
