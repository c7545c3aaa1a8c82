import TomorrowBot.RiskChecks
import TomorrowBot.Extremes
import Mathlib.Data.List.DropRight

/-!
# What the policy checks report

A check changes the standing of a decision through findings alone: a denial,
a lock, a smaller size, a throttle. Verdicts are ordered by severity, and a
finding raises the verdict to its own severity. The state changes only by an
emergency halt that is added and by order times that are dropped.
-/

set_option autoImplicit false

namespace TB.RiskFindings
open TB.CommonTypes TB.TradingContext TB.RiskTypes TB.RiskChecks Extremes
open TB.ExecutionPlanner hiding RiskDecision

def severity : RiskVerdict → ℕ
  | .approved => 0
  | .reduceSize => 1
  | .throttled => 2
  | .denied => 3

theorem severity_injective : Function.Injective severity := by
  intro v w h
  cases v <;> cases w <;> first | rfl | exact absurd h (by decide)

instance : LinearOrder RiskVerdict := LinearOrder.lift' severity severity_injective

theorem approved_le (v : RiskVerdict) : RiskVerdict.approved ≤ v := by
  cases v <;> decide

theorem le_denied (v : RiskVerdict) : v ≤ RiskVerdict.denied := by
  cases v <;> decide

theorem eq_denied {v : RiskVerdict} (h : RiskVerdict.denied ≤ v) : v = .denied :=
  le_antisymm (le_denied v) h

variable {F : Type} [DoubleArith F]

structure Standing (F : Type) where
  verdict : RiskVerdict
  action : RiskAction
  approvedQuantity : F
  originalSize : F
  allowed : Bool
  killSwitchActive : Bool

omit [DoubleArith F] in
def standing (d : RiskDecision F) : Standing F :=
  ⟨d.verdict, d.action, d.approvedQuantity, d.originalSize, d.allowed, d.killSwitchActive⟩

inductive Finding (F : Type) where
  | deny
  | lock (action : RiskAction)
  | kill
  | reduce (ratio : F)
  | throttle

def Finding.verdict : Finding F → RiskVerdict
  | .deny => .denied
  | .lock _ => .denied
  | .kill => .denied
  | .reduce _ => .reduceSize
  | .throttle => .throttled

def Standing.take (c : Standing F) : Finding F → Standing F
  | .deny => { c with verdict := .denied }
  | .lock action => { c with verdict := .denied, action := action }
  | .kill =>
    { c with verdict := .denied, action := .emergencyHalt, killSwitchActive := true }
  | .reduce ratio =>
    { c with verdict := max c.verdict .reduceSize
             approvedQuantity := cutTo c.originalSize c.approvedQuantity ratio }
  | .throttle => { c with verdict := max c.verdict .throttled }

def Reports (f : RiskDecision F → RiskDecision F) (fs : List (Finding F)) : Prop :=
  ∀ d, standing (f d) = fs.foldl Standing.take (standing d)

section Combinators
variable {f g : RiskDecision F → RiskDecision F} {fs gs : List (Finding F)}

theorem reports_note (h : ∀ d, standing (f d) = standing d) : Reports f [] := h

theorem reports_id : Reports (F := F) (fun d => d) [] := fun _ => rfl

theorem Reports.ite (c : Prop) [Decidable c] (hf : Reports f fs) (hg : Reports g gs) :
    Reports (fun d => if c then f d else g d) (if c then fs else gs) := by
  intro d
  by_cases h : c
  · simpa [h] using hf d
  · simpa [h] using hg d

theorem Reports.after (hf : Reports f fs) (hg : Reports g gs) :
    Reports (fun d => g (f d)) (fs ++ gs) := by
  intro d
  rw [List.foldl_append, ← hf d]
  exact hg (f d)

theorem reports_deny (code : String) (sev : F) (h : ¬ code.isEmpty) :
    Reports (fun d => deny d code sev) [.deny] := by
  intro d
  show standing (deny d code sev) = _
  rw [deny, if_neg h]
  rfl

theorem reports_denyLock (action : RiskAction) (code : String) :
    Reports (F := F) (fun d => denyLock d action code) [.lock action] := fun _ => rfl

theorem reports_throttle (code : String) :
    Reports (F := F) (fun d => throttle d code) [.throttle] := by
  intro d
  cases h : d.verdict <;> simp [throttle, standing, Standing.take, h] <;> decide

theorem reports_reduce (ratio : F) (code : String) :
    Reports (fun d => reduce d ratio code) [.reduce ratio] := by
  intro d
  cases h : d.verdict <;> simp [reduce, standing, Standing.take, h] <;> decide

theorem Reports.lockIf (hf : Reports f fs) {c : Prop} [Decidable c] {action : RiskAction}
    {code : String} :
    Reports (fun d => RiskChecks.lockIf c action code (f d))
      (fs ++ if c then [.lock action] else []) :=
  hf.after (Reports.ite c (reports_denyLock action code) reports_id)

theorem reports_denyIf (c : Prop) [Decidable c] (code : String) (sev : F)
    (h : ¬ code.isEmpty) :
    Reports (denyIf c code sev) (if c then [.deny] else []) :=
  Reports.ite c (reports_deny code sev h) reports_id

theorem reports_lockIf (c : Prop) [Decidable c] (action : RiskAction) (code : String) :
    Reports (F := F) (lockIf c action code) (if c then [.lock action] else []) :=
  Reports.ite c (reports_denyLock action code) reports_id

theorem Reports.verdict (hf : Reports f fs) (d : RiskDecision F) :
    (f d).verdict = greatest d.verdict (fs.map Finding.verdict) := by
  have htake : ∀ (c : Standing F) (x : Finding F),
      (c.take x).verdict = max c.verdict x.verdict := by
    intro c x
    cases x <;> simp only [Standing.take, Finding.verdict]
    all_goals exact (max_eq_right (le_denied _)).symm
  have hfold : ∀ (fs : List (Finding F)) (c : Standing F),
      (fs.foldl Standing.take c).verdict = greatest c.verdict (fs.map Finding.verdict) := by
    intro fs
    induction fs with
    | nil => exact fun c => rfl
    | cons x fs ih =>
      intro c
      rw [List.foldl_cons, ih, htake, greatest_max]
      rfl
  exact (congrArg Standing.verdict (hf d)).trans (hfold fs _)

end Combinators

def Finding.mild : Finding F → Bool
  | .lock _ => false
  | .kill => false
  | _ => true

def Plain (f : RiskDecision F → RiskDecision F) : Prop :=
  ∃ fs : List (Finding F), (∀ x ∈ fs, x.mild = true) ∧ Reports f fs

section PlainChecks
variable {f g : RiskDecision F → RiskDecision F}

theorem plain_note (h : ∀ d, standing (f d) = standing d) : Plain f :=
  ⟨[], by simp, h⟩

theorem plain_id : Plain (F := F) (fun d => d) := plain_note (fun _ => rfl)

theorem Plain.ite {c : Prop} [Decidable c] (hf : Plain f) (hg : Plain g) :
    Plain (fun d => if c then f d else g d) := by
  by_cases h : c
  · simpa [h] using hf
  · simpa [h] using hg

theorem Plain.after (hf : Plain f) {x : Finding F} (hx : x.mild = true)
    (hg : Reports g [x]) : Plain (fun d => g (f d)) := by
  obtain ⟨fs, hmild, hr⟩ := hf
  refine ⟨fs ++ [x], ?_, hr.after hg⟩
  intro y hy
  rcases List.mem_append.mp hy with h | h
  · exact hmild y h
  · rw [List.mem_singleton.mp h]
    exact hx

theorem Plain.deny (hf : Plain f) {code : String} {sev : F} :
    Plain (fun d => RiskChecks.deny (f d) code sev) := by
  by_cases h : code.isEmpty
  · simpa only [RiskChecks.deny, if_pos h] using hf
  · exact hf.after rfl (reports_deny code sev h)

theorem Plain.denyIf (hf : Plain f) {c : Prop} [Decidable c] {code : String} {sev : F} :
    Plain (fun d => RiskChecks.denyIf c code sev (f d)) :=
  Plain.ite hf.deny hf

theorem Plain.throttleIf (hf : Plain f) {c : Prop} [Decidable c] {code : String} :
    Plain (fun d => RiskChecks.throttleIf c code (f d)) :=
  Plain.ite (hf.after rfl (reports_throttle code)) hf

theorem Plain.reduce (hf : Plain f) {ratio : F} {code : String} :
    Plain (fun d => RiskChecks.reduce (f d) ratio code) :=
  hf.after rfl (reports_reduce ratio code)

variable (cfg : ExtendedRiskConfig F) (s : RiskState F) (ctx : RiskContext F) (now : ℤ)

theorem plain_dailyLoss : Plain (dailyLossCheck cfg ctx) := by
  apply plain_id.ite
  apply Plain.denyIf
  exact plain_note (fun _ => rfl)

theorem plain_realizedDailyLoss : Plain (realizedDailyLossCheck cfg ctx) :=
  plain_id.ite plain_id.denyIf

theorem plain_maxDrawdown : Plain (maxDrawdownCheck cfg ctx) := by
  apply Plain.denyIf
  exact plain_note (fun _ => rfl)

theorem plain_intradayDrawdown : Plain (intradayDrawdownCheck cfg s) := plain_id.denyIf

theorem plain_maxPositions : Plain (maxPositionsCheck cfg ctx) := plain_id.denyIf

theorem plain_sameDirection : Plain (sameDirectionCheck cfg ctx) :=
  plain_id.denyIf.denyIf.denyIf

theorem plain_exposureLimit : Plain (exposureLimitCheck cfg ctx) := by
  apply plain_id.ite
  apply Plain.denyIf
  exact plain_note (fun _ => rfl)

theorem plain_perTradeRisk : Plain (perTradeRiskCheck cfg ctx) := plain_id.reduce.ite plain_id

theorem plain_maxLeverage : Plain (maxLeverageCheck cfg ctx) := plain_id.ite plain_id.denyIf

theorem plain_maxSlippage : Plain (maxSlippageCheck cfg ctx) := plain_id.denyIf

theorem plain_maxLossPerTrade : Plain (maxLossPerTradeCheck cfg ctx) :=
  plain_id.ite plain_id.denyIf

theorem plain_perSymbolRisk : Plain (perSymbolRiskCheck cfg s ctx) := by
  apply plain_id.ite
  apply Plain.denyIf
  apply Plain.denyIf
  apply Plain.denyIf
  exact plain_note (fun _ => rfl)

theorem plain_orderRate : Plain (fun d => (orderRateCheck cfg now s d).2) := plain_id.throttleIf

theorem plain_turnoverRate : Plain (fun d => (turnoverRateCheck cfg now s d).2) :=
  plain_id.throttleIf

theorem plain_tradeInterval : Plain (tradeIntervalCheck cfg now s ctx) := plain_id.throttleIf

theorem plain_staleFeed : Plain (staleFeedCheck cfg ctx) := plain_id.denyIf.ite plain_id.deny

theorem plain_bookQuality : Plain (bookQualityCheck ctx) := plain_id.denyIf

theorem plain_spread : Plain (spreadCheck cfg ctx) := plain_id.denyIf

theorem plain_liquidity : Plain (liquidityCheck cfg ctx) := plain_id.denyIf

theorem plain_utcCutoff : Plain (fun d => utcCutoffCheck cfg d now) := plain_id.denyIf

theorem plain_regimeScaledLimits (scale : F) :
    Plain (fun d => regimeScaledLimitsCheck cfg ctx d scale) := by
  apply Plain.ite
  · exact plain_note (fun _ => rfl)
  · apply Plain.ite
    · exact plain_note (fun _ => rfl)
    · apply Plain.reduce
      exact plain_note (fun _ => rfl)

theorem plain_uncertaintyLimits : Plain (uncertaintyLimitsCheck cfg ctx) :=
  plain_id.ite (plain_id.ite plain_id.reduce)

theorem plain_uncertaintyCooldown : Plain (uncertaintyCooldownCheck ctx) := plain_id.throttleIf

theorem plain_uncertaintyExecutionMode : Plain (uncertaintyExecutionModeCheck ctx) :=
  plain_id.denyIf

theorem plain_fundingRateCost : Plain (fundingRateCostCheck cfg ctx) :=
  plain_id.ite (plain_id.ite plain_id.denyIf)

theorem plain_venueHealth : Plain (venueHealthCheck ctx) :=
  plain_id.deny.ite (plain_id.deny.ite (plain_id.deny.ite (plain_id.deny.ite
    (Plain.ite (Plain.reduce (plain_id.reduce.ite plain_id)) (plain_id.reduce.ite plain_id)))))

theorem plain_reconciliationDesync : Plain (reconciliationDesyncCheck ctx) := plain_id.denyIf

theorem plain_wsDisconnected : Plain (wsDisconnectedCheck ctx) := plain_id.denyIf

theorem plain_marginDistance (h : (99.0 : F) ≤ ctx.margin.distanceToLiquidationPct) :
    Plain (marginDistanceCheck cfg ctx) := by
  have hid : marginDistanceCheck cfg ctx = fun d => d := by
    funext d
    exact if_pos h
  rw [hid]
  exact plain_id

end PlainChecks

section Raising
variable (cfg : ExtendedRiskConfig F) (s : RiskState F) (ctx : RiskContext F) (now : ℤ)
  (d : RiskDecision F)

theorem Reports.raises {f : RiskDecision F → RiskDecision F} {fs : List (Finding F)}
    (hf : Reports f fs) : d.verdict ≤ (f d).verdict := by
  rw [hf.verdict d]
  exact le_greatest _ _

theorem Plain.raises {f : RiskDecision F → RiskDecision F} (hf : Plain f) :
    d.verdict ≤ (f d).verdict := by
  obtain ⟨fs, -, hr⟩ := hf
  exact hr.raises d

theorem reports_hardStop :
    Reports (fun d => (drawdownHardStopCheck cfg s ctx d).2)
      (if hardStopReached cfg ctx.portfolio then [.lock .emergencyHalt] else []) := by
  intro d
  by_cases h : hardStopReached cfg ctx.portfolio
  · simp only [drawdownHardStopCheck, if_pos h]
    rfl
  · simp only [drawdownHardStopCheck, if_neg h]
    rfl

theorem reduceIf_raises (c : Prop) [Decidable c] (ratio : F) (code : String) :
    d.verdict ≤ (reduceIf c ratio code d).verdict :=
  (Reports.ite c (reports_reduce ratio code) reports_id).raises d

def haltedByLosses (portfolio : PortfolioSnapshot F) : Prop :=
  cfg.haltAfterNLosses ≤ (portfolio.pnl.consecutiveLosses : ℤ)

instance (portfolio : PortfolioSnapshot F) : Decidable (haltedByLosses cfg portfolio) :=
  Int.decLe _ _

def budgetSpent : Bool :=
  !decide (ctx.portfolio.totalCapital ≤ 0) &&
    (s.strategyBudgets.lookup ctx.intent.strategyId).any (fun b =>
      decide (cfg.maxStrategyDailyLossPct ≤ budgetLossPct b ctx.portfolio.totalCapital))

theorem reports_consecutiveLosses :
    Reports (consecutiveLossesCheck cfg ctx)
      ((if cfg.maxConsecutiveLosses ≤ (ctx.portfolio.pnl.consecutiveLosses : ℤ) then [.deny]
        else []) ++
      (if haltedByLosses cfg ctx.portfolio then [.lock .denyAccountLock] else [])) :=
  Reports.lockIf (reports_denyIf _ "CONSECUTIVE_LOSSES" 0.8 (by decide))

theorem reports_perStrategyRisk :
    Reports (perStrategyRiskCheck cfg s ctx)
      (if budgetSpent cfg s ctx then [.lock .denyStrategyLock] else []) := by
  unfold perStrategyRiskCheck budgetSpent
  by_cases hc : ctx.portfolio.totalCapital ≤ 0
  · simpa [hc] using reports_id
  · cases hb : s.strategyBudgets.lookup ctx.intent.strategyId with
    | none => simpa [hc, hb] using reports_id
    | some b =>
      simp only [hc, if_false, decide_false, Bool.not_false, Bool.true_and, Option.any_some,
        decide_eq_true_eq]
      refine Reports.lockIf (?_ : Reports (F := F) _ [])
      exact reports_note (fun _ => rfl)

theorem marginDistance_raises : d.verdict ≤ (marginDistanceCheck cfg ctx d).verdict := by
  have hwarned : d.verdict ≤
      (pairUsageWarning (liquidationWarning cfg d ctx.margin) ctx.margin).verdict :=
    (reduceIf_raises _ _ _ _).trans (reduceIf_raises _ _ _ _)
  simp only [marginDistanceCheck]
  split_ifs
  · exact le_rfl
  · exact Plain.raises d plain_id.deny
  · exact hwarned
  · exact hwarned.trans (reduceIf_raises _ _ _ _)

end Raising

structure Drift (now : ℤ) (s s' : RiskState F) : Prop where
  lossStreaks : s'.lossStreaks = s.lossStreaks
  pnl : s'.pnl = s.pnl
  drawdown : s'.drawdown = s.drawdown
  strategyBudgets : s'.strategyBudgets = s.strategyBudgets
  lastTrade : s'.rates.lastTradePerSymbol = s.rates.lastTradePerSymbol
  orders : (purgeOrders s'.rates now).orderTimestamps = (purgeOrders s.rates now).orderTimestamps
  closes : (purgeCloses s'.rates now).tradeCloseTimestamps =
    (purgeCloses s.rates now).tradeCloseTimestamps
  locks : s'.locks = s.locks ∨ ∃ t, s'.locks = addLock s.locks .emergencyHalt "" t 0

section Drifting
variable (now : ℤ) (s : RiskState F)

omit [DoubleArith F] in
theorem drift_refl : Drift now s s := ⟨rfl, rfl, rfl, rfl, rfl, rfl, rfl, Or.inl rfl⟩

theorem purgeOld_idem (q : List ℤ) (cutoff : ℤ) :
    purgeOld (purgeOld q cutoff) cutoff = purgeOld q cutoff := by
  unfold purgeOld
  exact List.dropWhile_idempotent _ q

theorem addLock_twice (locks : LockRegistry) (type : LockType) (target : String) (t u dur : ℤ) :
    addLock (addLock locks type target t dur) type target u dur =
      addLock locks type target t dur := by
  rw [addLock, if_pos (isLocked_addLock locks type target t dur)]

omit [DoubleArith F] in
theorem Drift.trans {s s' s'' : RiskState F} (h : Drift now s s') (h' : Drift now s' s'') :
    Drift now s s'' where
  lossStreaks := h'.lossStreaks.trans h.lossStreaks
  pnl := h'.pnl.trans h.pnl
  drawdown := h'.drawdown.trans h.drawdown
  strategyBudgets := h'.strategyBudgets.trans h.strategyBudgets
  lastTrade := h'.lastTrade.trans h.lastTrade
  orders := h'.orders.trans h.orders
  closes := h'.closes.trans h.closes
  locks := by
    rcases h'.locks with h2 | ⟨u, h2⟩
    · rw [h2]
      exact h.locks
    · rcases h.locks with h1 | ⟨t, h1⟩
      · exact Or.inr ⟨u, by rw [h2, h1]⟩
      · exact Or.inr ⟨t, by rw [h2, h1, addLock_twice]⟩

variable (cfg : ExtendedRiskConfig F) (ctx : RiskContext F)

theorem hardStop_same (s' : RiskState F) (d : RiskDecision F) :
    (drawdownHardStopCheck cfg s' ctx d).2 = (drawdownHardStopCheck cfg s ctx d).2 := by
  simp only [drawdownHardStopCheck]
  split_ifs <;> rfl

theorem hardStop_drifts (d : RiskDecision F) :
    Drift now s (drawdownHardStopCheck cfg s ctx d).1 := by
  unfold drawdownHardStopCheck
  split_ifs
  · exact ⟨rfl, rfl, rfl, rfl, rfl, rfl, rfl, Or.inr ⟨_, rfl⟩⟩
  · exact drift_refl now s

theorem hardStop_denies (d : RiskDecision F)
    (hne : (drawdownHardStopCheck cfg s ctx d).1.locks ≠ s.locks) :
    (drawdownHardStopCheck cfg s ctx d).2.verdict = .denied := by
  by_cases h : hardStopReached cfg ctx.portfolio
  · simp only [drawdownHardStopCheck, if_pos h]
    rfl
  · refine absurd ?_ hne
    simp only [drawdownHardStopCheck, if_neg h]

variable {now} {s} {s' : RiskState F}

theorem orderRate_same (cfg : ExtendedRiskConfig F) (d : RiskDecision F) (hd : Drift now s s') :
    (orderRateCheck cfg now s' d).2 = (orderRateCheck cfg now s d).2 := by
  have hcount : ordersLastMinute s'.rates now = ordersLastMinute s.rates now := by
    simp only [ordersLastMinute, hd.orders]
  simp only [orderRateCheck]
  rw [hcount]

theorem turnoverRate_same (cfg : ExtendedRiskConfig F) (d : RiskDecision F)
    (hd : Drift now s s') :
    (turnoverRateCheck cfg now s' d).2 = (turnoverRateCheck cfg now s d).2 := by
  have hcount : tradesLastHour s'.rates now = tradesLastHour s.rates now := by
    simp only [tradesLastHour, hd.closes]
  simp only [turnoverRateCheck]
  rw [hcount]

theorem tradeInterval_same (cfg : ExtendedRiskConfig F) (ctx : RiskContext F)
    (d : RiskDecision F) (hd : Drift now s s') :
    tradeIntervalCheck cfg now s' ctx d = tradeIntervalCheck cfg now s ctx d := by
  have hlast : lastTradeForSymbol s'.rates ctx.intent.symbol =
      lastTradeForSymbol s.rates ctx.intent.symbol := by
    simp only [lastTradeForSymbol, hd.lastTrade]
  simp only [tradeIntervalCheck]
  rw [hlast]

end Drifting

def lockingChecks : List String :=
  ["kill_switch_check", "day_lock_check", "symbol_lock_check", "strategy_lock_check",
   "drawdown_hard_stop_check", "consecutive_losses_check", "per_strategy_risk_check"]

def NoMarginData (ctx : RiskContext F) : Prop :=
  (99.0 : F) ≤ ctx.margin.distanceToLiquidationPct

/-- What holds of every check. The drift of the state changes its report only where the
decision has been denied, and without margin data it reports the same for every decision. -/
structure CheckSpec (now : ℤ) (ctx : RiskContext F) (c : IRiskCheck F) : Prop where
  raises : ∀ s d, d.verdict ≤ (c.evaluate ctx s d).2.verdict
  drifts : ∀ s d, Drift now s (c.evaluate ctx s d).1
  denies : ∀ s d, (c.evaluate ctx s d).1.locks ≠ s.locks →
    (c.evaluate ctx s d).2.verdict = .denied
  same : ∀ s s' d, Drift now s s' → s'.locks = s.locks →
    (c.evaluate ctx s' d).2 = (c.evaluate ctx s d).2
  size : ∀ s s' d, Drift now s s' →
    (c.evaluate ctx s' d).2.approvedQuantity = (c.evaluate ctx s d).2.approvedQuantity
  reports : NoMarginData ctx → ∀ s, ∃ fs, Reports (fun d => (c.evaluate ctx s d).2) fs
  mild : NoMarginData ctx → c.name ∉ lockingChecks →
    ∀ s, Plain (fun d => (c.evaluate ctx s d).2)

section Specs
variable (now : ℤ) (ctx : RiskContext F)

theorem uniform_of_plain {f : RiskDecision F → RiskDecision F} (h : Plain f) :
    ∃ fs, Reports f fs := by
  obtain ⟨fs, -, hr⟩ := h
  exact ⟨fs, hr⟩

variable (name : String)

theorem spec_plain {f : RiskContext F → RiskState F → RiskDecision F → RiskDecision F}
    (h : ∀ s, Plain (f ctx s)) (hsame : ∀ s s' d, Drift now s s' → f ctx s' d = f ctx s d) :
    CheckSpec now ctx ⟨name, fun ctx s d => (s, f ctx s d)⟩ where
  raises := fun s d => (h s).raises d
  drifts := fun s _ => drift_refl now s
  denies := fun _ _ hne => absurd rfl hne
  same := fun s s' d hd _ => hsame s s' d hd
  size := fun s s' d hd => congrArg RiskChecks.RiskDecision.approvedQuantity (hsame s s' d hd)
  reports := fun _ s => uniform_of_plain (h s)
  mild := fun _ _ => h

/-- A check that locks nothing and reads nothing of the state. -/
theorem spec_free {f : RiskContext F → RiskDecision F → RiskDecision F}
    (h : Plain (f ctx)) : CheckSpec now ctx ⟨name, fun ctx s d => (s, f ctx d)⟩ :=
  spec_plain now ctx name (fun _ => h) (fun _ _ _ _ => rfl)

theorem spec_locking (hname : name ∈ lockingChecks)
    {f : RiskContext F → RiskState F → RiskDecision F → RiskDecision F}
    (h : ∀ s, ∃ fs, Reports (f ctx s) fs)
    (hsame : ∀ s s' d, Drift now s s' → f ctx s' d = f ctx s d) :
    CheckSpec now ctx ⟨name, fun ctx s d => (s, f ctx s d)⟩ where
  raises := fun s d => by
    obtain ⟨fs, hr⟩ := h s
    exact hr.raises d
  drifts := fun s _ => drift_refl now s
  denies := fun _ _ hne => absurd rfl hne
  same := fun s s' d hd _ => hsame s s' d hd
  size := fun s s' d hd => congrArg RiskChecks.RiskDecision.approvedQuantity (hsame s s' d hd)
  reports := fun _ => h
  mild := fun _ hn => absurd hname hn

theorem spec_locks {f : RiskContext F → LockRegistry → RiskDecision F → RiskDecision F}
    (h : ∀ locks, ∃ fs, Reports (f ctx locks) fs)
    (hsize : ∀ locks d, (f ctx locks d).approvedQuantity = d.approvedQuantity)
    (hmild : name ∉ lockingChecks → ∀ locks, Plain (f ctx locks)) :
    CheckSpec now ctx ⟨name, fun ctx s d => (s, f ctx s.locks d)⟩ where
  raises := fun s d => by
    obtain ⟨fs, hr⟩ := h s.locks
    exact hr.raises d
  drifts := fun s _ => drift_refl now s
  denies := fun _ _ hne => absurd rfl hne
  same := fun s s' d _ hl => by
    show f ctx s'.locks d = f ctx s.locks d
    rw [hl]
  size := fun s s' d _ => (hsize s'.locks d).trans (hsize s.locks d).symm
  reports := fun _ s => h s.locks
  mild := fun _ hn s => hmild hn s.locks

theorem lockIf_size (c : Prop) [Decidable c] (action : RiskAction) (code : String)
    (d : RiskDecision F) : (lockIf c action code d).approvedQuantity = d.approvedQuantity := by
  unfold lockIf
  split_ifs <;> rfl

theorem throttleIf_size (c : Prop) [Decidable c] (code : String) (d : RiskDecision F) :
    (throttleIf c code d).approvedQuantity = d.approvedQuantity := by
  unfold throttleIf
  split_ifs <;> rfl

theorem spec_lockIf (hname : name ∈ lockingChecks)
    (present : RiskContext F → LockRegistry → Bool) (action : RiskAction) (code : String) :
    CheckSpec now ctx ⟨name, fun ctx s d => (s, lockIf (present ctx s.locks) action code d)⟩ :=
  spec_locks now ctx name (f := fun ctx locks d => lockIf (present ctx locks) action code d)
    (fun _ => ⟨_, reports_lockIf _ _ _⟩) (fun _ _ => lockIf_size _ _ _ _)
    (fun hn => absurd hname hn)

variable (cfg : ExtendedRiskConfig F)

theorem spec_killSwitch :
    CheckSpec now ctx ⟨"kill_switch_check", fun _ s d => (s, killSwitchCheck s d)⟩ :=
  spec_locks now ctx _ (f := fun _ locks d => if hasEmergencyHalt locks then
      { denyLock d .emergencyHalt "KILL_SWITCH" with killSwitchActive := true } else d)
    (fun _ => ⟨_, Reports.ite _ (fun _ => rfl : Reports _ [.kill]) reports_id⟩)
    (fun _ _ => by split_ifs <;> rfl) (fun hn => absurd (by decide) hn)

theorem spec_symbolCooldown :
    CheckSpec now ctx
      ⟨"symbol_cooldown_check", fun ctx s d => (s, symbolCooldownCheck s ctx d)⟩ :=
  spec_locks now ctx _
    (f := fun ctx locks d => throttleIf (hasCooldown locks ctx.intent.symbol) "SYMBOL_COOLDOWN" d)
    (fun _ => uniform_of_plain plain_id.throttleIf) (fun _ _ => throttleIf_size _ _ _)
    (fun _ _ => plain_id.throttleIf)

theorem spec_hardStop :
    CheckSpec now ctx
      ⟨"drawdown_hard_stop_check", fun ctx s d => drawdownHardStopCheck cfg s ctx d⟩ where
  raises := fun s d => (reports_hardStop cfg s ctx).raises d
  drifts := fun s d => hardStop_drifts now s cfg ctx d
  denies := fun s d => hardStop_denies s cfg ctx d
  same := fun s s' d _ _ => hardStop_same s cfg ctx s' d
  size := fun s s' d _ =>
    congrArg RiskChecks.RiskDecision.approvedQuantity (hardStop_same s cfg ctx s' d)
  reports := fun _ s => ⟨_, reports_hardStop cfg s ctx⟩
  mild := fun _ hn => absurd (show "drawdown_hard_stop_check" ∈ lockingChecks by decide) hn

theorem spec_orderRate :
    CheckSpec now ctx ⟨"order_rate_check", fun _ s d => orderRateCheck cfg now s d⟩ where
  raises := fun s d => (plain_orderRate cfg s now).raises d
  drifts := fun _ _ => ⟨rfl, rfl, rfl, rfl, rfl, purgeOld_idem _ _, rfl, Or.inl rfl⟩
  denies := fun _ _ hne => absurd rfl hne
  same := fun _ _ d hd _ => orderRate_same cfg d hd
  size := fun _ _ d hd =>
    congrArg RiskChecks.RiskDecision.approvedQuantity (orderRate_same cfg d hd)
  reports := fun _ s => uniform_of_plain (plain_orderRate cfg s now)
  mild := fun _ _ s => plain_orderRate cfg s now

theorem spec_turnoverRate :
    CheckSpec now ctx ⟨"turnover_rate_check", fun _ s d => turnoverRateCheck cfg now s d⟩ where
  raises := fun s d => (plain_turnoverRate cfg s now).raises d
  drifts := fun _ _ => ⟨rfl, rfl, rfl, rfl, rfl, rfl, purgeOld_idem _ _, Or.inl rfl⟩
  denies := fun _ _ hne => absurd rfl hne
  same := fun _ _ d hd _ => turnoverRate_same cfg d hd
  size := fun _ _ d hd =>
    congrArg RiskChecks.RiskDecision.approvedQuantity (turnoverRate_same cfg d hd)
  reports := fun _ s => uniform_of_plain (plain_turnoverRate cfg s now)
  mild := fun _ _ s => plain_turnoverRate cfg s now

theorem spec_marginDistance :
    CheckSpec now ctx
      ⟨"margin_distance_check", fun ctx s d => (s, marginDistanceCheck cfg ctx d)⟩ where
  raises := fun _ d => marginDistance_raises cfg ctx d
  drifts := fun s _ => drift_refl now s
  denies := fun _ _ hne => absurd rfl hne
  same := fun _ _ _ _ _ => rfl
  size := fun _ _ _ _ => rfl
  reports := fun h _ => uniform_of_plain (plain_marginDistance cfg ctx h)
  mild := fun h _ _ => plain_marginDistance cfg ctx h

theorem initChecks_spec (scale : F) : ∀ c ∈ initChecks cfg scale now, CheckSpec now ctx c :=
  List.forall_iff_forall_mem.mp
    ⟨spec_killSwitch now ctx,
      spec_lockIf now ctx _ (by decide) (fun _ locks => hasDayLock locks) _ _,
      spec_lockIf now ctx _ (by decide) (fun ctx locks => hasSymbolLock locks ctx.intent.symbol) _ _,
      spec_lockIf now ctx _ (by decide)
        (fun ctx locks => hasStrategyLock locks ctx.intent.strategyId) _ _,
      spec_symbolCooldown now ctx,
      spec_free now ctx _ (plain_dailyLoss cfg ctx),
      spec_free now ctx _ (plain_realizedDailyLoss cfg ctx),
      spec_free now ctx _ (plain_maxDrawdown cfg ctx),
      spec_plain now ctx _ (fun s => plain_intradayDrawdown cfg s)
        (fun s s' d hd => by simp only [intradayDrawdownCheck, hd.drawdown]),
      spec_hardStop now ctx cfg,
      spec_free now ctx _ (plain_maxPositions cfg ctx),
      spec_free now ctx _ (plain_sameDirection cfg ctx),
      spec_free now ctx _ (plain_exposureLimit cfg ctx),
      spec_free now ctx _ (plain_perTradeRisk cfg ctx),
      spec_free now ctx _ (plain_maxLeverage cfg ctx),
      spec_free now ctx _ (plain_maxSlippage cfg ctx),
      spec_locking now ctx _ (by decide) (fun _ => ⟨_, reports_consecutiveLosses cfg ctx⟩)
        (fun _ _ _ _ => rfl),
      spec_free now ctx _ (plain_maxLossPerTrade cfg ctx),
      spec_plain now ctx _ (fun s => plain_perSymbolRisk cfg s ctx)
        (fun s s' d hd => by simp only [perSymbolRiskCheck, hd.lossStreaks, hd.pnl]),
      spec_locking now ctx _ (by decide) (fun s => ⟨_, reports_perStrategyRisk cfg s ctx⟩)
        (fun s s' d hd => by simp only [perStrategyRiskCheck, hd.strategyBudgets]),
      spec_orderRate now ctx cfg,
      spec_turnoverRate now ctx cfg,
      spec_plain now ctx _ (fun s => plain_tradeInterval cfg s ctx now)
        (fun s s' d hd => tradeInterval_same cfg ctx d hd),
      spec_free now ctx _ (plain_staleFeed cfg ctx),
      spec_free now ctx _ (plain_bookQuality ctx),
      spec_free now ctx _ (plain_spread cfg ctx),
      spec_free now ctx _ (plain_liquidity cfg ctx),
      spec_free now ctx _ (plain_utcCutoff cfg now),
      spec_free now ctx _ (plain_regimeScaledLimits cfg ctx scale),
      spec_free now ctx _ (plain_uncertaintyLimits cfg ctx),
      spec_free now ctx _ (plain_uncertaintyCooldown ctx),
      spec_free now ctx _ (plain_uncertaintyExecutionMode ctx),
      spec_free now ctx _ (plain_fundingRateCost cfg ctx),
      spec_free now ctx _ (plain_venueHealth ctx),
      spec_marginDistance now ctx cfg,
      spec_free now ctx _ (plain_reconciliationDesync ctx),
      spec_free now ctx _ (plain_wsDisconnected ctx)⟩

end Specs

section Running
variable {now : ℤ} {ctx : RiskContext F}

theorem runChecks_raises (cs : List (IRiskCheck F)) (h : ∀ c ∈ cs, CheckSpec now ctx c)
    (s : RiskState F) (d : RiskDecision F) : d.verdict ≤ (runChecks ctx cs s d).2.verdict := by
  induction cs generalizing s d with
  | nil => exact le_rfl
  | cons c cs ih =>
    have hc := h c List.mem_cons_self
    exact (hc.raises s d).trans (ih (fun x hx => h x (List.mem_cons_of_mem c hx)) _ _)

theorem runChecks_drifts (cs : List (IRiskCheck F)) (h : ∀ c ∈ cs, CheckSpec now ctx c)
    (s : RiskState F) (d : RiskDecision F) : Drift now s (runChecks ctx cs s d).1 := by
  induction cs generalizing s d with
  | nil => exact drift_refl now s
  | cons c cs ih =>
    have hc := h c List.mem_cons_self
    exact (hc.drifts s d).trans now (ih (fun x hx => h x (List.mem_cons_of_mem c hx)) _ _)

omit [DoubleArith F] in
theorem runChecks_append (cs rest : List (IRiskCheck F)) (s : RiskState F) (d : RiskDecision F) :
    runChecks ctx (cs ++ rest) s d =
      runChecks ctx rest (runChecks ctx cs s d).1 (runChecks ctx cs s d).2 := by
  induction cs generalizing s d with
  | nil => rfl
  | cons c cs ih => exact ih _ _

end Running

end TB.RiskFindings
