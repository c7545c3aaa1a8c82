import TomorrowBot.RiskEngine
import TomorrowBot.RiskFindings

/-!
# What one evaluation decides

The checks run on the state that the evaluation opens. A verdict of throttled
or denied survives to the end and is not allowed; a halt found at the start
denies, a cooldown of the symbol throttles.
-/

set_option autoImplicit false

namespace TB.RiskEvaluation
open TB.CommonTypes TB.TradingContext TB.RiskTypes TB.RiskChecks TB.RiskEngine TB.RiskFindings
open Extremes
open TB.ExecutionPlanner hiding RiskDecision

variable {F : Type} [DoubleArith F] (cfg : ExtendedRiskConfig F) (e : ProductionRiskEngine F)

theorem finalize_standing (request : RiskRequest F) (d : RiskDecision F) :
    standing (finalizeDecision e request d) = standing (guardMinNotional e request.sizing d) := by
  simp only [finalizeDecision, standing]
  split_ifs <;> rfl

theorem guard_of_ne (sizing : SizingResult F) (d : RiskDecision F)
    (h : d.verdict ≠ .reduceSize) : guardMinNotional e sizing d = d :=
  if_neg (fun hc => h hc.1)

omit [DoubleArith F] in
theorem syncAction_verdict (d : RiskDecision F) : (syncAction d).verdict = d.verdict := by
  cases h : d.verdict <;> simp only [syncAction, h]

theorem refused_of_throttled (request : RiskRequest F)
    (d : RiskDecision F) (h : RiskVerdict.throttled ≤ d.verdict) :
    (finalizeDecision e request (syncAction d)).verdict = d.verdict ∧
      (finalizeDecision e request (syncAction d)).allowed = false := by
  have hne : (syncAction d).verdict ≠ .reduceSize := by
    rw [syncAction_verdict]
    intro hr
    exact absurd (hr ▸ h) (by decide)
  have hs := finalize_standing e request (syncAction d)
  rw [guard_of_ne e _ _ hne] at hs
  have hv := congrArg Standing.verdict hs
  have ha := congrArg Standing.allowed hs
  refine ⟨hv.trans (syncAction_verdict d), ha.trans ?_⟩
  show (syncAction d).allowed = false
  cases hd : d.verdict with
  | approved | reduceSize => exact absurd (hd ▸ h) (by decide)
  | throttled | denied => simp only [syncAction, hd]

section Evaluate
variable (e : ProductionRiskEngine F) (now : ℤ) (provider : Option Bool)
  (request : RiskRequest F)

theorem evaluate_invalid (h : invalidSize request.sizing.approvedQuantity) :
    evaluate cfg e now provider request =
      (opened e now provider request,
        rejectSize (startDecision request.sizing.approvedQuantity now)) :=
  if_pos h

def settled : ProductionRiskEngine F :=
  { opened e now provider request with
    state := (checked cfg (opened e now provider request) now request).1 }

theorem evaluate_valid (h : ¬ invalidSize request.sizing.approvedQuantity) :
    evaluate cfg e now provider request =
      (settled cfg e now provider request,
        finalizeDecision (settled cfg e now provider request) request
          (settle request.intent.tradeSide
            (checked cfg (opened e now provider request) now request).2)) :=
  if_neg h

theorem checksFor_spec (ctx : RiskContext F) (side : TradeSide) (scale : F) :
    ∀ c ∈ checksFor cfg side scale now, CheckSpec now ctx c := by
  intro c hc
  cases side with
  | opening => exact initChecks_spec now ctx cfg scale c hc
  | closing =>
    have hmem : c ∈ closeChecks cfg scale now := hc
    exact initChecks_spec now ctx cfg scale c (List.mem_of_mem_filter hmem)

theorem checked_drifts : Drift now e.state (checked cfg e now request).1 :=
  runChecks_drifts _ (checksFor_spec cfg now _ _ _) _ _

/-- The flag and the state after an evaluation, up to the drift of the checks. -/
theorem evaluate_drifts :
    Drift now (opened e now provider request).state (evaluate cfg e now provider request).1.state ∧
      (evaluate cfg e now provider request).1.killSwitchActive =
        (opened e now provider request).killSwitchActive := by
  by_cases h : invalidSize request.sizing.approvedQuantity
  · rw [evaluate_invalid cfg e now provider request h]
    exact ⟨drift_refl now _, rfl⟩
  · rw [evaluate_valid cfg e now provider request h]
    exact ⟨checked_drifts cfg _ now request, rfl⟩

/-- A finding of severity throttled or denied in the run refuses an opening request. -/
theorem refused_of_checked (ho : request.intent.tradeSide = .opening)
    (h : RiskVerdict.throttled ≤
      (checked cfg (opened e now provider request) now request).2.verdict) :
    (evaluate cfg e now provider request).2.allowed = false := by
  by_cases hv : invalidSize request.sizing.approvedQuantity
  · rw [evaluate_invalid cfg e now provider request hv]
    rfl
  · rw [evaluate_valid cfg e now provider request hv, ho]
    exact (refused_of_throttled _ request _ h).2

/-- What a check of an opening request reports is never taken back, and its state
only drifts. -/
theorem checked_after (ho : request.intent.tradeSide = .opening) (before : List (IRiskCheck F))
    (c : IRiskCheck F) (after : List (IRiskCheck F))
    (hsplit : initChecks cfg e.regimeScaleFactor now = before ++ c :: after) :
    let r := runChecks (context e request) before e.state
      (startDecision request.sizing.approvedQuantity now)
    (c.evaluate (context e request) r.1 r.2).2.verdict ≤ (checked cfg e now request).2.verdict ∧
      Drift now (c.evaluate (context e request) r.1 r.2).1 (checked cfg e now request).1 := by
  intro r
  have hb := initChecks_spec now (context e request) cfg e.regimeScaleFactor
  rw [hsplit] at hb
  have hafter : ∀ x ∈ after, CheckSpec now (context e request) x := fun x hx => hb x (by simp [hx])
  rw [checked, ho, checksFor, hsplit, runChecks_append]
  exact ⟨runChecks_raises after hafter _ _, runChecks_drifts after hafter _ _⟩

theorem denied_of_halt (ho : request.intent.tradeSide = .opening)
    (hh : hasEmergencyHalt (opened e now provider request).state.locks = true) :
    (evaluate cfg e now provider request).2.verdict = .denied ∧
      (evaluate cfg e now provider request).2.allowed = false := by
  by_cases hv : invalidSize request.sizing.approvedQuantity
  · rw [evaluate_invalid cfg e now provider request hv]
    exact ⟨rfl, rfl⟩
  · have hle : (killSwitchCheck (opened e now provider request).state
        (startDecision request.sizing.approvedQuantity now)).verdict ≤
        (checked cfg (opened e now provider request) now request).2.verdict :=
      (checked_after cfg (opened e now provider request) now request ho [] _ _ rfl).1
    rw [killSwitchCheck, if_pos hh] at hle
    have hden := eq_denied hle
    rw [evaluate_valid cfg e now provider request hv, ho, settle]
    have hr := refused_of_throttled (settled cfg e now provider request) request
      (checked cfg (opened e now provider request) now request).2 (by rw [hden]; decide)
    exact ⟨hr.1.trans hden, hr.2⟩

theorem throttled_le (c : Prop) [Decidable c] (code : String) (d : RiskDecision F) (hc : c) :
    RiskVerdict.throttled ≤ (throttleIf c code d).verdict := by
  rw [throttleIf, if_pos hc, (reports_throttle code).verdict d]
  exact le_greatest_of_mem (List.mem_singleton.mpr rfl)

theorem refused_of_cooldown (ho : request.intent.tradeSide = .opening)
    (hc : hasCooldown (opened e now provider request).state.locks request.intent.symbol = true) :
    (evaluate cfg e now provider request).2.allowed = false := by
  apply refused_of_checked cfg e now provider request ho
  have hafter := checked_after cfg (opened e now provider request) now request ho
    ((initChecks cfg (opened e now provider request).regimeScaleFactor now).take 4) _ _ rfl
  exact le_trans (throttled_le _ _ _ hc) hafter.1

end Evaluate

omit [DoubleArith F] in
theorem sync_locks (provider : Option Bool) (now : ℤ) :
    (syncProvider e provider now).state.locks = e.state.locks ∨
      (syncProvider e provider now).state.locks = addLock e.state.locks .emergencyHalt "" now 0 ∨
      (syncProvider e provider now).state.locks = removeLock e.state.locks .emergencyHalt "" := by
  match provider with
  | none => exact Or.inl rfl
  | some true =>
    by_cases h : hasEmergencyHalt e.state.locks = true
    · rw [show syncProvider e (some true) now = { e with killSwitchActive := true } from if_pos h]
      exact Or.inl rfl
    · rw [show syncProvider e (some true) now = activateKillSwitch e now from if_neg h]
      exact Or.inr (Or.inl rfl)
  | some false =>
    by_cases h : e.killSwitchActive = true
    · rw [show syncProvider e (some false) now = deactivateKillSwitch e from if_pos h]
      exact Or.inr (Or.inr rfl)
    · rw [show syncProvider e (some false) now = e from if_neg h]
      exact Or.inl rfl

section Closes
variable (e : ProductionRiskEngine F) (now : ℤ) (provider : Option Bool)
  (request : RiskRequest F)

theorem closeChecks_eq (scale : F) : closeChecks cfg scale now =
    [⟨"max_drawdown_check", fun ctx s d => (s, maxDrawdownCheck cfg ctx d)⟩,
     ⟨"max_leverage_check", fun ctx s d => (s, maxLeverageCheck cfg ctx d)⟩,
     ⟨"max_slippage_check", fun ctx s d => (s, maxSlippageCheck cfg ctx d)⟩,
     ⟨"order_rate_check", fun _ s d => orderRateCheck cfg now s d⟩,
     ⟨"stale_feed_check", fun ctx s d => (s, staleFeedCheck cfg ctx d)⟩] := rfl

theorem deny_size (d : RiskDecision F) (code : String) (severity : F) :
    (deny d code severity).approvedQuantity = d.approvedQuantity := by
  unfold deny
  split_ifs <;> rfl

theorem denyIf_size (c : Prop) [Decidable c] (code : String) (severity : F) (d : RiskDecision F) :
    (denyIf c code severity d).approvedQuantity = d.approvedQuantity := by
  unfold denyIf
  split_ifs
  · exact deny_size d code severity
  · rfl

theorem throttleIf_size (c : Prop) [Decidable c] (code : String) (d : RiskDecision F) :
    (throttleIf c code d).approvedQuantity = d.approvedQuantity := by
  unfold throttleIf
  split_ifs <;> rfl

theorem closeChecks_size (scale : F) (ctx : RiskContext F) (s : RiskState F) (d : RiskDecision F) :
    ∀ c ∈ closeChecks cfg scale now,
      (c.evaluate ctx s d).2.approvedQuantity = d.approvedQuantity := by
  intro c hc
  rw [closeChecks_eq] at hc
  simp only [List.mem_cons, List.not_mem_nil, or_false] at hc
  rcases hc with rfl | rfl | rfl | rfl | rfl
  · exact denyIf_size _ _ _ _
  · show (maxLeverageCheck cfg ctx d).approvedQuantity = d.approvedQuantity
    unfold maxLeverageCheck
    split_ifs
    · rfl
    · exact denyIf_size _ _ _ _
  · exact denyIf_size _ _ _ _
  · exact throttleIf_size _ _ _
  · show (staleFeedCheck cfg ctx d).approvedQuantity = d.approvedQuantity
    unfold staleFeedCheck
    split_ifs
    · exact denyIf_size _ _ _ _
    · exact deny_size _ _ _

omit [DoubleArith F] in
theorem runChecks_size (ctx : RiskContext F) (checks : List (IRiskCheck F))
    (h : ∀ c ∈ checks, ∀ s d, (c.evaluate ctx s d).2.approvedQuantity = d.approvedQuantity)
    (s : RiskState F) (d : RiskDecision F) :
    (runChecks ctx checks s d).2.approvedQuantity = d.approvedQuantity := by
  induction checks generalizing s d with
  | nil => rfl
  | cons c cs ih =>
    have hrest := ih (fun x hx => h x (List.mem_cons_of_mem c hx))
      (c.evaluate ctx s d).1 (c.evaluate ctx s d).2
    exact hrest.trans (h c List.mem_cons_self s d)

/-- A close is approved in full, whatever the checks found. -/
theorem evaluate_close (hc : request.intent.tradeSide = .closing)
    (h : ¬ invalidSize request.sizing.approvedQuantity) :
    (evaluate cfg e now provider request).2.verdict = .approved ∧
      (evaluate cfg e now provider request).2.approvedQuantity =
        request.sizing.approvedQuantity := by
  have hsize := runChecks_size (context (opened e now provider request) request)
    (closeChecks cfg (opened e now provider request).regimeScaleFactor now)
    (fun c hm s d => closeChecks_size cfg now _ _ s d c hm)
    (opened e now provider request).state (startDecision request.sizing.approvedQuantity now)
  rw [evaluate_valid cfg e now provider request h, hc, settle]
  have hs := finalize_standing (settled cfg e now provider request) request
    (approveClose (checked cfg (opened e now provider request) now request).2)
  rw [guard_of_ne _ _ _ (by simp [approveClose])] at hs
  refine ⟨congrArg Standing.verdict hs, (congrArg Standing.approvedQuantity hs).trans ?_⟩
  show (checked cfg (opened e now provider request) now request).2.approvedQuantity = _
  rw [checked, hc]
  exact hsize

end Closes

section Calm

def openingIntent (symbol : Symbol) : TradeIntent F where
  strategyId := "scalp"
  symbol := symbol
  side := .buy
  positionSide := .long
  tradeSide := .opening
  signalIntent := .longEntry
  exitReason := .none
  correlationId := ""
  limitPrice := none
  snapshotMidPrice := none
  takeProfitPrice := none
  stopLossPrice := none

def calmRequest (symbol : Symbol) : RiskRequest F where
  intent := openingIntent symbol
  sizing := ⟨1.0, 100.0⟩
  portfolio := ⟨[], ⟨0.0, 0⟩, ⟨0.0, 0.0, 0.0, 0.0, 0.0, 0, 0⟩, 10000.0⟩
  features := {
    defaultFeatures symbol with
    microstructure := {
      (defaultMicrostructure : MicrostructureFeatures F) with
      spreadBps := 2.0
      spreadValid := true
      bidDepth5Notional := 1000.0
      askDepth5Notional := 1000.0
      liquidityValid := true
      vpinValid := true }
    executionContext := ⟨0.0, true⟩
    bookQuality := .valid }
  quality := ⟨1.0⟩
  uncertainty := ⟨.low, 1.0, .normal, ⟨false, ""⟩⟩

example : (evaluate defaultRiskConfig initialEngine 1 none
    (calmRequest "BTCUSDT" : RiskRequest ℚ)).2.verdict = .approved := by
  decide +kernel

end Calm

end TB.RiskEvaluation
