import TomorrowBot.RiskEvaluation
import TomorrowBot.Runs

/-!
# Cooldowns after losses

A trade that leaves a losing streak long enough owes a cooldown, beside the
engine each owed cooldown is recorded with its end. The lock of a symbol keeps
what is owed as long as no expired lock of the symbol stands in the way of a
new one. The lock of the global cooldown has the empty target, and the check
looks up the symbol of the intent.
-/

set_option autoImplicit false

namespace TB.LossCooldown
open TB.CommonTypes TB.RiskTypes TB.RiskChecks TB.RiskEngine TB.RiskFindings
open TB.RiskEvaluation Runs
open TB.ExecutionPlanner hiding RiskDecision

def IsCooldown (l : LockRecord) (target : String) : Prop :=
  l.type = .cooldown ∧ l.target = target

instance (l : LockRecord) (target : String) : Decidable (IsCooldown l target) :=
  instDecidableAnd

def endsAt (l : LockRecord) : ℤ := l.activatedAt + l.durationNs

def owedUntil (locks : LockRegistry) (target : String) (now durationNs : ℤ) : ℤ :=
  ((locks.find? (fun l => decide (IsCooldown l target ∧ now < endsAt l))).map endsAt).getD
    (now + durationNs)

variable {F : Type} [DoubleArith F] (cfg : ExtendedRiskConfig F)

structure Cooling (F : Type) where
  engine : ProductionRiskEngine F
  clock : ℤ
  symbolOwed : List (Symbol × ℤ)
  globalOwed : List ℤ

def streaksAfter (e : ProductionRiskEngine F) (strategyId : StrategyId) (symbol : Symbol)
    (realizedPnl : F) (now : ℤ) : LossStreakTracker :=
  (trackClose e.state strategyId symbol realizedPnl now).lossStreaks

def symbolTriggered (t : LossStreakTracker) (symbol : Symbol) : Prop :=
  cfg.maxConsecutiveLossesPerSymbol ≤ symbolConsecutiveLosses t symbol

instance (t : LossStreakTracker) (symbol : Symbol) : Decidable (symbolTriggered cfg t symbol) :=
  Int.decLe _ _

def globalTriggered (t : LossStreakTracker) : Prop :=
  cfg.cooldownAfterNLosses ≤ t.totalConsecutiveLosses ∧
    t.totalConsecutiveLosses < cfg.haltAfterNLosses

instance (t : LossStreakTracker) : Decidable (globalTriggered cfg t) := instDecidableAnd

def coolingStep (w : Cooling F) (op : RiskOp F) : Cooling F :=
  let engine := riskStep cfg w.engine op
  match op with
  | .evaluate now _ _ => { w with engine := engine, clock := now }
  | .resetDaily now => { w with engine := engine, clock := now }
  | .recordTradeClose now strategyId symbol realizedPnl =>
    let t := streaksAfter w.engine strategyId symbol realizedPnl now
    { engine := engine
      clock := now
      symbolOwed :=
        if symbolTriggered cfg t symbol then
          (symbol, owedUntil w.engine.state.locks symbol now
            cfg.symbolCooldownAfterStopoutsNs) :: w.symbolOwed
        else w.symbolOwed
      globalOwed :=
        if globalTriggered cfg t then
          owedUntil w.engine.state.locks "" now cfg.lossCooldownNs :: w.globalOwed
        else w.globalOwed }
  | _ => { w with engine := engine }

def coolingStart (t0 : ℤ) : Cooling F := ⟨initialEngine, t0, [], []⟩

def InOrder (w : Cooling F) : RiskOp F → Prop
  | .evaluate now _ _ => w.clock ≤ now
  | .recordTradeClose now _ _ _ => w.clock ≤ now
  | .resetDaily now => w.clock ≤ now
  | _ => False

def owesSymbol (w : Cooling F) (symbol : Symbol) (now : ℤ) : Prop :=
  ∃ u, (symbol, u) ∈ w.symbolOwed ∧ now < u

def owesAll (w : Cooling F) (now : ℤ) : Prop := ∃ u ∈ w.globalOwed, now < u

def HonoursCooldown (w : Cooling F) : RiskOp F → Prop
  | .evaluate now provider request =>
    request.intent.tradeSide = .opening →
      owesSymbol w request.intent.symbol now ∨ owesAll w now →
        (evaluate cfg w.engine now provider request).2.allowed = false
  | _ => True

/-- A trade that triggers the cooldown of its symbol finds no expired lock of it, and
a request evaluated while a global cooldown is owed is for a symbol whose own
cooldown runs. -/
def Enforced (w : Cooling F) : RiskOp F → Prop
  | .evaluate now _ request =>
    request.intent.tradeSide = .opening → owesAll w now →
      ∃ l ∈ w.engine.state.locks, IsCooldown l request.intent.symbol ∧ now < endsAt l
  | .recordTradeClose now strategyId symbol realizedPnl =>
    symbolTriggered cfg (streaksAfter w.engine strategyId symbol realizedPnl now) symbol →
      ∀ l ∈ w.engine.state.locks, IsCooldown l symbol → now < endsAt l
  | _ => True

instance (w : Cooling F) (now : ℤ) : Decidable (owesAll w now) :=
  inferInstanceAs (Decidable (∃ u ∈ w.globalOwed, now < u))

instance decidableInOrder (w : Cooling F) : ∀ op : RiskOp F, Decidable (InOrder w op)
  | .evaluate now _ _ => inferInstanceAs (Decidable (w.clock ≤ now))
  | .recordTradeClose now _ _ _ => inferInstanceAs (Decidable (w.clock ≤ now))
  | .resetDaily now => inferInstanceAs (Decidable (w.clock ≤ now))
  | .evaluatePosition _ _ _ _ | .recordOrderSent _ | .setCurrentRegime _
  | .activateKillSwitch _ | .deactivateKillSwitch | .setFundingRate _ | .setMinNotionalUsdt _
  | .setReconciliationDesync _ | .setWsDisconnected _ => inferInstanceAs (Decidable False)

instance decidableEnforced (w : Cooling F) : ∀ op : RiskOp F, Decidable (Enforced cfg w op)
  | .evaluate now _ request =>
    inferInstanceAs (Decidable (request.intent.tradeSide = .opening → owesAll w now →
      ∃ l ∈ w.engine.state.locks, IsCooldown l request.intent.symbol ∧ now < endsAt l))
  | .recordTradeClose now strategyId symbol realizedPnl =>
    inferInstanceAs (Decidable
      (symbolTriggered cfg (streaksAfter w.engine strategyId symbol realizedPnl now) symbol →
        ∀ l ∈ w.engine.state.locks, IsCooldown l symbol → now < endsAt l))
  | .evaluatePosition _ _ _ _ | .recordOrderSent _ | .resetDaily _ | .setCurrentRegime _
  | .activateKillSwitch _ | .deactivateKillSwitch | .setFundingRate _ | .setMinNotionalUsdt _
  | .setReconciliationDesync _ | .setWsDisconnected _ => inferInstanceAs (Decidable True)

def Kept (w : Cooling F) : Prop :=
  ∀ symbol u, (symbol, u) ∈ w.symbolOwed → u ≤ w.clock ∨
    ∃ l ∈ w.engine.state.locks, IsCooldown l symbol ∧ u ≤ endsAt l

section Locks

theorem running_cleared {locks : LockRegistry} {l : LockRecord} {now : ℤ} (hl : l ∈ locks)
    (hr : now < endsAt l) : l ∈ clearExpired locks now := by
  apply mem_clearExpired.mpr
  refine ⟨hl, fun h => ?_⟩
  unfold endsAt at hr
  omega

theorem cooldown_unremoved {locks : LockRegistry} {l : LockRecord} {target : String}
    (type : LockType) (removed : String) (hl : l ∈ locks) (hc : IsCooldown l target)
    (hne : type ≠ .cooldown) : l ∈ removeLock locks type removed :=
  mem_removeLock.mpr ⟨hl, fun h => hne (h.1.symm.trans hc.1)⟩

omit [DoubleArith F] in
theorem cooldown_synced {e : ProductionRiskEngine F} {l : LockRecord} {target : String}
    (provider : Option Bool) (now : ℤ) (hl : l ∈ e.state.locks) (hc : IsCooldown l target) :
    l ∈ (syncProvider e provider now).state.locks := by
  rcases sync_locks e provider now with h | h | h
  · rw [h]
    exact hl
  · rw [h]
    exact mem_addLock_of_mem _ _ _ _ hl
  · rw [h]
    exact cooldown_unremoved .emergencyHalt "" hl hc (by decide)

theorem running_opened {e : ProductionRiskEngine F} {l : LockRecord} {target : String} (now : ℤ)
    (provider : Option Bool) (request : RiskRequest F) (hl : l ∈ e.state.locks)
    (hc : IsCooldown l target) (hr : now < endsAt l) :
    l ∈ (opened e now provider request).state.locks :=
  running_cleared (cooldown_synced provider now hl hc) hr

omit [DoubleArith F] in
theorem mem_of_drift {now : ℤ} {s s' : RiskState F} {l : LockRecord} (hd : Drift now s s')
    (hl : l ∈ s.locks) : l ∈ s'.locks := by
  rcases hd.locks with h | ⟨t, h⟩
  · rw [h]
    exact hl
  · rw [h]
    exact mem_addLock_of_mem _ _ _ _ hl

theorem mem_tradeClose (e : ProductionRiskEngine F) (strategyId : StrategyId) (symbol : Symbol)
    (realizedPnl : F) (now : ℤ) {l : LockRecord}
    (hl : l ∈ coolSymbol cfg (trackClose e.state strategyId symbol realizedPnl now) symbol now) :
    l ∈ (recordTradeClose cfg e strategyId symbol realizedPnl now).state.locks := by
  have ha : ∀ (t : LossStreakTracker) (locks : LockRegistry),
      l ∈ locks → l ∈ coolAll cfg t locks now := by
    intro t locks h
    simp only [coolAll]
    split_ifs
    · exact mem_addLock_of_mem _ _ _ _ h
    · exact h
  have hd : ∀ (t : LossStreakTracker) (locks : LockRegistry),
      l ∈ locks → l ∈ haltDay cfg t locks now := by
    intro t locks h
    unfold haltDay
    split_ifs
    · exact mem_addLock_of_mem _ _ _ _ h
    · exact h
  exact hd _ _ (ha _ _ hl)

omit [DoubleArith F] in
theorem mem_coolSymbol (s : RiskState F) (symbol : Symbol) (now : ℤ) {l : LockRecord}
    (hl : l ∈ s.locks) : l ∈ coolSymbol cfg s symbol now := by
  simp only [coolSymbol]
  split_ifs
  · exact mem_addLock_of_mem _ _ _ _ hl
  · exact hl

omit [DoubleArith F] in
/-- A triggered cooldown is kept by the running lock or by a new one. -/
theorem owed_kept (s : RiskState F) (symbol : Symbol) (now : ℤ)
    (ht : symbolTriggered cfg s.lossStreaks symbol)
    (hfresh : ∀ l ∈ s.locks, IsCooldown l symbol → now < endsAt l) :
    ∃ l ∈ coolSymbol cfg s symbol now, IsCooldown l symbol ∧
      owedUntil s.locks symbol now cfg.symbolCooldownAfterStopoutsNs ≤ endsAt l := by
  unfold owedUntil
  cases hfind : s.locks.find? (fun l => decide (IsCooldown l symbol ∧ now < endsAt l)) with
  | some l =>
    have hp := List.find?_some hfind
    have hl := List.mem_of_find?_eq_some hfind
    exact ⟨l, mem_coolSymbol cfg s symbol now hl, (of_decide_eq_true hp).1, le_rfl⟩
  | none =>
    have hnone : isLocked s.locks .cooldown symbol = false := by
      by_contra h
      obtain ⟨l, hl, hc⟩ := (isLocked_iff _ _ _).mp (by simpa using h)
      have := List.find?_eq_none.mp hfind l hl
      exact this (decide_eq_true ⟨hc, hfresh l hl hc⟩)
    refine ⟨⟨.cooldown, symbol, now, cfg.symbolCooldownAfterStopoutsNs⟩, ?_, ⟨rfl, rfl⟩, le_rfl⟩
    have heq : coolSymbol cfg s symbol now =
        addLock s.locks .cooldown symbol now cfg.symbolCooldownAfterStopoutsNs := if_pos ht
    rw [heq, addLock, hnone]
    exact List.mem_append_right _ List.mem_cons_self

end Locks

section Steps

theorem kept_start (t0 : ℤ) : Kept (coolingStart t0 : Cooling F) :=
  fun _ _ h => absurd h (by simp [coolingStart])

omit [DoubleArith F] in
/-- The engine and the clock move on, nothing new is owed. -/
theorem kept_frame {w v : Cooling F} (hw : Kept w) (howed : v.symbolOwed = w.symbolOwed)
    (hclock : w.clock ≤ v.clock)
    (hlocks : ∀ l ∈ w.engine.state.locks, ∀ symbol, IsCooldown l symbol → v.clock < endsAt l →
      l ∈ v.engine.state.locks) : Kept v := by
  intro symbol u hu
  rcases hw symbol u (howed ▸ hu) with h | ⟨l, hl, hc, hle⟩
  · exact Or.inl (h.trans hclock)
  · by_cases hr : v.clock < endsAt l
    · exact Or.inr ⟨l, hlocks l hl symbol hc hr, hc, hle⟩
    · exact Or.inl (hle.trans (not_lt.mp hr))

variable {w : Cooling F}

theorem kept_evaluate (hw : Kept w) (now : ℤ) (provider : Option Bool)
    (request : RiskRequest F) (ht : w.clock ≤ now) :
    Kept (coolingStep cfg w (.evaluate now provider request)) := by
  apply kept_frame (v := coolingStep cfg w (.evaluate now provider request)) hw rfl ht
  intro l hl symbol hc hr
  exact mem_of_drift (evaluate_drifts cfg w.engine now provider request).1
    (running_opened now provider request hl hc hr)

theorem kept_reset (hw : Kept w) (now : ℤ) (ht : w.clock ≤ now) :
    Kept (coolingStep cfg w (.resetDaily now)) := by
  apply kept_frame (v := coolingStep cfg w (.resetDaily now)) hw rfl ht
  intro l hl symbol hc hr
  exact running_cleared (cooldown_unremoved .dayLock "" hl hc (by decide)) hr

theorem kept_tradeClose (hw : Kept w) (now : ℤ) (strategyId : StrategyId)
    (symbol : Symbol) (realizedPnl : F) (ht : w.clock ≤ now)
    (hfresh : Enforced cfg w (.recordTradeClose now strategyId symbol realizedPnl)) :
    Kept (coolingStep cfg w (.recordTradeClose now strategyId symbol realizedPnl)) := by
  intro x u hu
  have hold : (x, u) ∈ w.symbolOwed → u ≤ now ∨
      ∃ l ∈ (recordTradeClose cfg w.engine strategyId symbol realizedPnl now).state.locks,
        IsCooldown l x ∧ u ≤ endsAt l := by
    intro h
    rcases hw x u h with h | ⟨l, hl, hc, hle⟩
    · exact Or.inl (h.trans ht)
    · exact Or.inr ⟨l, mem_tradeClose cfg _ _ _ _ _ (mem_coolSymbol cfg _ _ _ hl), hc, hle⟩
  by_cases htr : symbolTriggered cfg (streaksAfter w.engine strategyId symbol realizedPnl now) symbol
  · have hmem : (x, u) ∈ (symbol, owedUntil w.engine.state.locks symbol now
        cfg.symbolCooldownAfterStopoutsNs) :: w.symbolOwed := by
      simpa [coolingStep, htr] using hu
    rcases List.mem_cons.mp hmem with heq | h
    · obtain ⟨rfl, rfl⟩ := Prod.mk.inj heq
      obtain ⟨l, hl, hc, hle⟩ := owed_kept cfg
        (trackClose w.engine.state strategyId x realizedPnl now) x now htr (hfresh htr)
      exact Or.inr ⟨l, mem_tradeClose cfg _ _ _ _ _ hl, hc, hle⟩
    · exact hold h
  · exact hold (by simpa [coolingStep, htr] using hu)

theorem kept_step (w : Cooling F) (op : RiskOp F) (hw : Kept w)
    (h : InOrder w op ∧ Enforced cfg w op) : Kept (coolingStep cfg w op) := by
  cases op with
  | evaluate now provider request => exact kept_evaluate cfg hw now provider request h.1
  | recordTradeClose now strategyId symbol realizedPnl =>
    exact kept_tradeClose cfg hw now strategyId symbol realizedPnl h.1 h.2
  | resetDaily now => exact kept_reset cfg hw now h.1
  | _ => exact absurd h.1 id

theorem honours_of_kept (w : Cooling F) (op : RiskOp F) (hw : Kept w)
    (h : InOrder w op ∧ Enforced cfg w op) : HonoursCooldown cfg w op := by
  cases op with
  | evaluate now provider request =>
    intro ho howes
    have hrun : ∃ l ∈ w.engine.state.locks, IsCooldown l request.intent.symbol ∧
        now < endsAt l := by
      rcases howes with ⟨u, hu, hlt⟩ | hall
      · rcases hw _ u hu with hle | ⟨l, hl, hc, hle⟩
        · exact absurd (hle.trans h.1) (not_le.mpr hlt)
        · exact ⟨l, hl, hc, lt_of_lt_of_le hlt hle⟩
      · exact h.2 ho hall
    obtain ⟨l, hl, hc, hr⟩ := hrun
    apply refused_of_cooldown cfg w.engine now provider request ho
    exact (isLocked_iff _ _ _).mpr ⟨l, running_opened now provider request hl hc hr, hc⟩
  | _ => exact trivial

end Steps

/-- Where every triggered cooldown finds its lock free and a global one meets only
symbols that are cooling down, cooldowns last as long as they are owed. -/
theorem cooldowns_last (t0 : ℤ) (ops : List (RiskOp F))
    (horder : Meets (coolingStep cfg) InOrder (coolingStart t0) ops)
    (henforced : Meets (coolingStep cfg) (Enforced cfg) (coolingStart t0) ops) :
    Meets (coolingStep cfg) (HonoursCooldown cfg) (coolingStart t0) ops :=
  meets_of_invariant (coolingStep cfg) (kept_step cfg) (honours_of_kept cfg) (coolingStart t0) ops
    (kept_start t0) (meets_and (coolingStep cfg) (coolingStart t0) ops horder henforced)

def symbolLosses : List (RiskOp ℚ) :=
  [.recordTradeClose 1 "scalp" "BTCUSDT" (-1), .recordTradeClose 2 "scalp" "BTCUSDT" (-1),
   .evaluate 3 none (calmRequest "BTCUSDT")]

theorem cooldowns_last_symbol :
    Meets (coolingStep defaultRiskConfig) (HonoursCooldown defaultRiskConfig) (coolingStart 0)
      symbolLosses :=
  cooldowns_last defaultRiskConfig 0 symbolLosses (by decide +kernel) (by decide +kernel)

def scatteredLosses : List (RiskOp ℚ) :=
  [.recordTradeClose 1 "scalp" "BTCUSDT" (-1), .recordTradeClose 2 "scalp" "ETHUSDT" (-1),
   .recordTradeClose 3 "scalp" "XRPUSDT" (-1), .evaluate 4 none (calmRequest "SOLUSDT")]

/-- The global cooldown stops no symbol without a lock of its own. -/
theorem global_cooldown_ignored :
    ¬ ∀ (cfg : ExtendedRiskConfig ℚ) (t0 : ℤ) (ops : List (RiskOp ℚ)),
      0 < cfg.symbolCooldownAfterStopoutsNs → 0 < cfg.lossCooldownNs →
      Meets (coolingStep cfg) InOrder (coolingStart t0) ops →
        Meets (coolingStep cfg) (HonoursCooldown cfg) (coolingStart t0) ops := by
  intro h
  have hrun := h defaultRiskConfig 0 scatteredLosses (by decide) (by decide) (by decide +kernel)
  have hrefused := hrun.2.2.2.1 rfl (Or.inr (by decide +kernel))
  exact absurd hrefused (by decide +kernel)

end TB.LossCooldown
