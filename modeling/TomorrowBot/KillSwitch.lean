import TomorrowBot.RiskEvaluation
import TomorrowBot.Runs

/-!
# The kill switch over whole runs

An emergency halt is raised inside the engine, or taken over from the
provider. Both set one lock and one flag, and an evaluation that finds the
provider inactive clears both whoever set them. A run in which that never
meets a halt of the engine keeps the halt until it is deactivated.
-/

set_option autoImplicit false

namespace TB.KillSwitch
open TB.CommonTypes TB.TradingContext TB.RiskTypes TB.RiskChecks TB.RiskEngine TB.RiskFindings
open TB.RiskEvaluation Runs
open TB.ExecutionPlanner hiding RiskDecision

section Registries

def Permanent (locks : LockRegistry) : Prop :=
  ∀ l ∈ locks, l.type = .emergencyHalt → l.durationNs = 0

variable {locks : LockRegistry}

theorem permanent_filter (p : LockRecord → Bool) (h : Permanent locks) :
    Permanent (locks.filter p) :=
  fun l hl => h l (List.mem_of_mem_filter hl)

variable (type : LockType) (target : String)

theorem permanent_addLock
    (now durationNs : ℤ) (h : Permanent locks) (hd : type = .emergencyHalt → durationNs = 0) :
    Permanent (addLock locks type target now durationNs) := by
  intro l hl ht
  rcases mem_addLock hl with hl | hl
  · exact h l hl ht
  · subst hl
    exact hd ht

theorem halt_addLock (now durationNs : ℤ) (h : hasEmergencyHalt locks = true) :
    hasEmergencyHalt (addLock locks type target now durationNs) = true := by
  rw [hasEmergencyHalt_iff] at h ⊢
  obtain ⟨l, hl, ht⟩ := h
  exact ⟨l, mem_addLock_of_mem type target now durationNs hl, ht⟩

theorem halt_added (locks : LockRegistry) (now durationNs : ℤ) :
    hasEmergencyHalt (addLock locks .emergencyHalt "" now durationNs) = true := by
  obtain ⟨l, hl, ht, -⟩ :=
    (isLocked_iff _ _ _).mp (isLocked_addLock locks .emergencyHalt "" now durationNs)
  exact (hasEmergencyHalt_iff _).mpr ⟨l, hl, ht⟩

theorem halt_removeLock (hne : type ≠ .emergencyHalt) (h : hasEmergencyHalt locks = true) :
    hasEmergencyHalt (removeLock locks type target) = true := by
  rw [hasEmergencyHalt_iff] at h ⊢
  obtain ⟨l, hl, ht⟩ := h
  exact ⟨l, mem_removeLock.mpr ⟨hl, fun hc => hne (hc.1 ▸ ht)⟩, ht⟩

theorem halt_clearExpired (now : ℤ) (hp : Permanent locks)
    (h : hasEmergencyHalt locks = true) : hasEmergencyHalt (clearExpired locks now) = true := by
  rw [hasEmergencyHalt_iff] at h ⊢
  obtain ⟨l, hl, ht⟩ := h
  have hd := hp l hl ht
  exact ⟨l, mem_clearExpired.mpr ⟨hl, by omega⟩, ht⟩

structure Spares (locks locks' : LockRegistry) : Prop where
  permanent : Permanent locks → Permanent locks'
  halt : hasEmergencyHalt locks = true → hasEmergencyHalt locks' = true

theorem spares_refl (locks : LockRegistry) : Spares locks locks := ⟨id, id⟩

theorem Spares.trans {a b c : LockRegistry} (h : Spares a b) (h' : Spares b c) : Spares a c :=
  ⟨fun hp => h'.permanent (h.permanent hp), fun hh => h'.halt (h.halt hh)⟩

theorem spares_addLock (locks : LockRegistry) (type : LockType) (target : String)
    (now durationNs : ℤ) (hne : type ≠ .emergencyHalt) :
    Spares locks (addLock locks type target now durationNs) where
  permanent := fun hp => permanent_addLock type target now durationNs hp (fun h => absurd h hne)
  halt := halt_addLock type target now durationNs

end Registries

variable {F : Type} [DoubleArith F] (cfg : ExtendedRiskConfig F)

structure Watched (F : Type) where
  engine : ProductionRiskEngine F
  raised : Bool

def raisesHalt : RiskOp F → Bool
  | .activateKillSwitch _ => true
  | .evaluatePosition _ _ portfolio _ => decide (portfolioBreached cfg portfolio)
  | .evaluate _ _ request =>
    decide (request.intent.tradeSide = .opening ∧
      ¬ invalidSize request.sizing.approvedQuantity ∧ hardStopReached cfg request.portfolio)
  | _ => false

def isDeactivate : RiskOp F → Bool
  | .deactivateKillSwitch => true
  | _ => false

def watchedStep (w : Watched F) (op : RiskOp F) : Watched F where
  engine := riskStep cfg w.engine op
  raised := !isDeactivate op && (w.raised || raisesHalt cfg op)

def watchedStart : Watched F := ⟨initialEngine, false⟩

def DeniesWhileRaised (w : Watched F) : RiskOp F → Prop
  | .evaluate now provider request =>
    w.raised = true → request.intent.tradeSide = .opening →
      (evaluate cfg w.engine now provider request).2.verdict = .denied ∧
        (evaluate cfg w.engine now provider request).2.allowed = false
  | _ => True

def ProviderSpares (w : Watched F) : RiskOp F → Prop
  | .evaluate _ provider _ =>
    provider = some false → w.raised = true → w.engine.killSwitchActive = false
  | _ => True

structure Latched (w : Watched F) : Prop where
  permanent : Permanent w.engine.state.locks
  flag : w.engine.killSwitchActive = true → hasEmergencyHalt w.engine.state.locks = true
  raised : w.raised = true → hasEmergencyHalt w.engine.state.locks = true

theorem latched_start : Latched (watchedStart : Watched F) where
  permanent := fun l hl => absurd hl (by simp [watchedStart, initialEngine, initialState])
  flag := fun h => absurd h (by simp [watchedStart, initialEngine])
  raised := fun h => absurd h (by simp [watchedStart])

section Steps
variable {cfg}

omit [DoubleArith F] in
theorem latched_frame {w v : Watched F} (hw : Latched w)
    (hl : v.engine.state.locks = w.engine.state.locks)
    (hf : v.engine.killSwitchActive = w.engine.killSwitchActive)
    (hr : v.raised = true → w.raised = true) : Latched v where
  permanent := hl ▸ hw.permanent
  flag := fun h => hl ▸ hw.flag (hf ▸ h)
  raised := fun h => hl ▸ hw.raised (hr h)

omit [DoubleArith F] in
theorem latched_activate {w v : Watched F} (hw : Latched w) (now : ℤ)
    (he : v.engine = activateKillSwitch w.engine now) : Latched v := by
  have hl : v.engine.state.locks = addLock w.engine.state.locks .emergencyHalt "" now 0 := by
    rw [he]
    rfl
  have hh : hasEmergencyHalt v.engine.state.locks = true := by
    rw [hl]
    exact halt_added _ _ _
  refine ⟨?_, fun _ => hh, fun _ => hh⟩
  rw [hl]
  exact permanent_addLock _ _ _ _ hw.permanent (fun _ => rfl)

omit [DoubleArith F] in
theorem latched_deactivate {w v : Watched F} (hw : Latched w)
    (he : v.engine = deactivateKillSwitch w.engine) (hr : v.raised = false) : Latched v where
  permanent := by
    rw [he]
    exact permanent_filter _ hw.permanent
  flag := fun h => absurd h (by rw [he]; simp [deactivateKillSwitch])
  raised := fun h => absurd h (by simp [hr])

omit [DoubleArith F] in
/-- The synchronisation keeps the latch when it spares a halt of the engine. -/
theorem latched_sync {w : Watched F} (hw : Latched w) (provider : Option Bool) (now : ℤ)
    (hspare : provider = some false → w.raised = true → w.engine.killSwitchActive = false) :
    Latched ⟨syncProvider w.engine provider now, w.raised⟩ := by
  match provider with
  | none => exact hw
  | some true =>
    by_cases hh : hasEmergencyHalt w.engine.state.locks = true
    · simp only [syncProvider, if_pos hh]
      exact ⟨hw.permanent, fun _ => hh, fun _ => hh⟩
    · simp only [syncProvider, if_neg hh]
      exact latched_activate hw now rfl
  | some false =>
    by_cases hf : w.engine.killSwitchActive = true
    · simp only [syncProvider, if_pos hf]
      apply latched_deactivate hw rfl
      by_contra hr
      have hr' : w.raised = true := by simpa using hr
      exact absurd hf (by simp [hspare rfl hr'])
    · simp only [syncProvider, if_neg hf]
      exact hw

theorem latched_opened {w : Watched F} (hw : Latched w) (now : ℤ) (provider : Option Bool)
    (request : RiskRequest F)
    (hspare : provider = some false → w.raised = true → w.engine.killSwitchActive = false) :
    Latched ⟨opened w.engine now provider request, w.raised⟩ := by
  have hs := latched_sync hw provider now hspare
  exact ⟨permanent_filter _ hs.permanent,
    fun h => halt_clearExpired now hs.permanent (hs.flag h),
    fun h => halt_clearExpired now hs.permanent (hs.raised h)⟩

omit [DoubleArith F] in
theorem latched_drift {e e' : ProductionRiskEngine F} {raised : Bool} (now : ℤ)
    (hw : Latched ⟨e, raised⟩) (hd : Drift now e.state e'.state)
    (hf : e'.killSwitchActive = e.killSwitchActive) : Latched ⟨e', raised⟩ := by
  rcases hd.locks with hl | ⟨t, hl⟩
  · exact latched_frame hw hl hf id
  · refine ⟨?_, fun h => ?_, fun h => ?_⟩
    · show Permanent e'.state.locks
      rw [hl]
      exact permanent_addLock _ _ _ _ hw.permanent (fun _ => rfl)
    · show hasEmergencyHalt e'.state.locks = true
      rw [hl]
      exact halt_added _ _ _
    · show hasEmergencyHalt e'.state.locks = true
      rw [hl]
      exact halt_added _ _ _

variable (cfg)

theorem halt_of_hardStop (e : ProductionRiskEngine F) (now : ℤ) (provider : Option Bool)
    (request : RiskRequest F) (ho : request.intent.tradeSide = .opening)
    (hv : ¬ invalidSize request.sizing.approvedQuantity)
    (hs : hardStopReached cfg request.portfolio) :
    hasEmergencyHalt (evaluate cfg e now provider request).1.state.locks = true := by
  rw [evaluate_valid cfg e now provider request hv]
  have hafter := checked_after cfg (opened e now provider request) now request ho
    ((initChecks cfg (opened e now provider request).regimeScaleFactor now).take 9) _ _ rfl
  have hstop : ∀ (s : RiskState F) (d : RiskDecision F), hasEmergencyHalt
      (drawdownHardStopCheck cfg s (context (opened e now provider request) request) d).1.locks =
        true := by
    intro s d
    have hs' : hardStopReached cfg
        (context (opened e now provider request) request).portfolio := hs
    rw [drawdownHardStopCheck, if_pos hs']
    exact halt_added _ _ _
  rcases hafter.2.locks with hl | ⟨t, hl⟩
  · show hasEmergencyHalt (checked cfg _ now request).1.locks = true
    rw [hl]
    exact hstop _ _
  · show hasEmergencyHalt (checked cfg _ now request).1.locks = true
    rw [hl]
    exact halt_added _ _ _

variable {w : Watched F}

theorem latched_evaluate (hw : Latched w) (now : ℤ) (provider : Option Bool)
    (request : RiskRequest F)
    (hspare : provider = some false → w.raised = true → w.engine.killSwitchActive = false) :
    Latched (watchedStep cfg w (.evaluate now provider request)) := by
  have hd := evaluate_drifts cfg w.engine now provider request
  have hkeep := latched_drift now (latched_opened hw now provider request hspare) hd.1 hd.2
  refine ⟨hkeep.permanent, hkeep.flag, fun h => ?_⟩
  have hor : w.raised = true ∨ raisesHalt cfg (.evaluate now provider request) = true := by
    simpa [watchedStep, isDeactivate] using h
  rcases hor with hr | hr
  · exact hkeep.raised hr
  · have hc := of_decide_eq_true hr
    exact halt_of_hardStop cfg w.engine now provider request hc.1 hc.2.1 hc.2.2

theorem latched_position (hw : Latched w) (now : ℤ)
    (position : PortfolioEngine.Position F) (portfolio : PortfolioSnapshot F)
    (features : FeatureSnapshot F) :
    Latched (watchedStep cfg w (.evaluatePosition now position portfolio features)) := by
  by_cases hb : portfolioBreached cfg portfolio
  · by_cases hf : w.engine.killSwitchActive = false
    · apply latched_activate hw now
      exact if_pos ⟨hb, hf⟩
    · have he : (watchedStep cfg w (.evaluatePosition now position portfolio features)).engine =
          w.engine := if_neg (fun h => hf h.2)
      have hh := hw.flag (by simpa using hf)
      exact ⟨he ▸ hw.permanent, fun _ => he ▸ hh, fun _ => he ▸ hh⟩
  · have he : (watchedStep cfg w (.evaluatePosition now position portfolio features)).engine =
        w.engine := if_neg (fun h => hb h.1)
    refine latched_frame hw (by rw [he]) (by rw [he]) ?_
    simp [watchedStep, isDeactivate, raisesHalt, hb]

theorem latched_tradeClose (hw : Latched w) (now : ℤ) (strategyId : StrategyId)
    (symbol : Symbol) (realizedPnl : F) :
    Latched (watchedStep cfg w (.recordTradeClose now strategyId symbol realizedPnl)) := by
  have hs : ∀ s : RiskState F, Spares s.locks (coolSymbol cfg s symbol now) := by
    intro s
    simp only [coolSymbol]
    split_ifs
    · exact spares_addLock _ _ _ _ _ (by decide)
    · exact spares_refl _
  have ha : ∀ t locks, Spares locks (coolAll cfg t locks now) := by
    intro t locks
    simp only [coolAll]
    split_ifs
    · exact spares_addLock _ _ _ _ _ (by decide)
    · exact spares_refl _
  have hd : ∀ t locks, Spares locks (haltDay cfg t locks now) := by
    intro t locks
    unfold haltDay
    split_ifs
    · exact spares_addLock _ _ _ _ _ (by decide)
    · exact spares_refl _
  have hall : Spares w.engine.state.locks
      (recordTradeClose cfg w.engine strategyId symbol realizedPnl now).state.locks :=
    ((hs (trackClose w.engine.state strategyId symbol realizedPnl now)).trans (ha _ _)).trans
      (hd _ _)
  refine ⟨hall.permanent hw.permanent, fun h => hall.halt (hw.flag h),
    fun h => hall.halt (hw.raised ?_)⟩
  simpa [watchedStep, isDeactivate, raisesHalt] using h

theorem latched_reset (hw : Latched w) (now : ℤ) :
    Latched (watchedStep cfg w (.resetDaily now)) := by
  have hp : Permanent (removeLock w.engine.state.locks .dayLock "") :=
    permanent_filter _ hw.permanent
  have hkeep : hasEmergencyHalt w.engine.state.locks = true →
      hasEmergencyHalt (clearExpired (removeLock w.engine.state.locks .dayLock "") now) = true :=
    fun h => halt_clearExpired now hp (halt_removeLock .dayLock "" (by decide) h)
  refine ⟨permanent_filter _ hp, fun h => hkeep (hw.flag h), fun h => hkeep (hw.raised ?_)⟩
  simpa [watchedStep, isDeactivate, raisesHalt] using h

theorem latched_step (w : Watched F) (op : RiskOp F) (hw : Latched w) (hs : ProviderSpares w op) :
    Latched (watchedStep cfg w op) := by
  cases op with
  | evaluate now provider request => exact latched_evaluate cfg hw now provider request hs
  | evaluatePosition now position portfolio features =>
    exact latched_position cfg hw now position portfolio features
  | recordTradeClose now strategyId symbol realizedPnl =>
    exact latched_tradeClose cfg hw now strategyId symbol realizedPnl
  | resetDaily now => exact latched_reset cfg hw now
  | activateKillSwitch now => exact latched_activate hw now rfl
  | deactivateKillSwitch => exact latched_deactivate hw rfl rfl
  | recordOrderSent | setCurrentRegime | setFundingRate | setMinNotionalUsdt |
      setReconciliationDesync | setWsDisconnected =>
    exact latched_frame hw rfl rfl (by simp [watchedStep, isDeactivate, raisesHalt])

theorem denies_of_latched (w : Watched F) (op : RiskOp F) (hw : Latched w)
    (hs : ProviderSpares w op) : DeniesWhileRaised cfg w op := by
  cases op with
  | evaluate now provider request =>
    intro hr ho
    have hopen := latched_opened hw now provider request hs
    exact denied_of_halt cfg w.engine now provider request ho (hopen.raised hr)
  | _ => exact trivial

end Steps

/-- A run in which no inactive provider meets a halt of the engine denies every
opening request until the halt is deactivated. -/
theorem kill_switch_sticky (ops : List (RiskOp F))
    (h : Meets (watchedStep cfg) ProviderSpares watchedStart ops) :
    Meets (watchedStep cfg) (DeniesWhileRaised cfg) watchedStart ops :=
  meets_of_invariant (watchedStep cfg) (latched_step cfg) (denies_of_latched cfg) watchedStart ops
    latched_start h

theorem kill_switch_sticky_run :
    (evaluate (F := ℚ) defaultRiskConfig (activateKillSwitch initialEngine 0) 1 none
      (calmRequest "BTCUSDT")).2.verdict = .denied :=
  ((kill_switch_sticky (F := ℚ) defaultRiskConfig
    [.activateKillSwitch 0, .evaluate 1 none (calmRequest "BTCUSDT")]
    ⟨trivial, fun h => absurd h (by decide), trivial⟩).2.1 rfl rfl).1

def Undisturbed : RiskOp F → Prop
  | .evaluate _ provider _ => provider ≠ some true
  | .deactivateKillSwitch => False
  | _ => True

/-- A provider that has been inactive throughout lifts the halt. -/
theorem inactive_provider_lifts :
    ¬ ∀ (cfg : ExtendedRiskConfig ℚ) (ops : List (RiskOp ℚ)), (∀ op ∈ ops, Undisturbed op) →
      Meets (watchedStep cfg) (DeniesWhileRaised cfg) watchedStart ops := by
  intro h
  have hrun := h defaultRiskConfig
    [.activateKillSwitch 0, .evaluate 1 (some false) (calmRequest "BTCUSDT")]
    (by simp [Undisturbed])
  have hdenied := (hrun.2.1 rfl rfl).1
  exact absurd hdenied (by decide +kernel)

end TB.KillSwitch
