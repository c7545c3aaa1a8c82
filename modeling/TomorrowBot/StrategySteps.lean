import TomorrowBot.StrategyEngine

/-!
# What the phases of an evaluation can do

One inversion lemma for the phase before an entry and one for the phase with a
position; every invariant of the engine is derived from these.
-/

set_option autoImplicit false

namespace TB.StrategySteps
open TB.CommonTypes TB.StrategyTypes TB.SetupLifecycle TB.StrategyEngine

variable {F : Type} [DoubleArith F] (cfg : ScalpStrategyConfig F)

def held (s : SymbolState) : Bool := inPosition s || s = .exitPending

def early (s : SymbolState) : Bool := validTransition s .positionOpen && !held s

section Machine
variable (m : StrategyStateMachine F) (nowNs : ℤ)

omit [DoubleArith F] in
theorem transitionTo_state (s : SymbolState) :
    (m.transitionTo s nowNs).state = if validTransition m.state s then s else m.state := by
  unfold StrategyStateMachine.transitionTo
  split_ifs <;> rfl

omit [DoubleArith F] in
/-- A move changes the state and its time only. -/
theorem transitionTo_rest (s : SymbolState) :
    (m.transitionTo s nowNs).activeSetup = m.activeSetup ∧
      (m.transitionTo s nowNs).position = m.position ∧
      (m.transitionTo s nowNs).cooldownEndNs = m.cooldownEndNs ∧
      (m.transitionTo s nowNs).setupCounter = m.setupCounter := by
  unfold StrategyStateMachine.transitionTo
  split_ifs <;> exact ⟨rfl, rfl, rfl, rfl⟩

variable (durationMs : ℤ)

omit [DoubleArith F] in
theorem startCooldown_state (h : 0 < nowNs) : (m.startCooldown nowNs durationMs).state =
      if validTransition m.state .cooldown then .cooldown else m.state := by
  rw [StrategyStateMachine.startCooldown, if_neg (not_le.mpr h)]
  exact transitionTo_state _ _ _

omit [DoubleArith F] in
theorem startCooldown_end (h : 0 < nowNs) :
    (m.startCooldown nowNs durationMs).cooldownEndNs = nowNs + durationMs * 1000000 := by
  rw [StrategyStateMachine.startCooldown, if_neg (not_le.mpr h)]
  exact (transitionTo_rest _ _ _).2.2.1

omit [DoubleArith F] in
theorem startCooldown_rest : (m.startCooldown nowNs durationMs).activeSetup = m.activeSetup ∧
      (m.startCooldown nowNs durationMs).position = m.position ∧
      (m.startCooldown nowNs durationMs).setupCounter = m.setupCounter := by
  unfold StrategyStateMachine.startCooldown
  split_ifs
  · exact ⟨rfl, rfl, rfl⟩
  · have h := transitionTo_rest
      { m with cooldownEndNs := nowNs + durationMs * 1000000 } nowNs .cooldown
    exact ⟨h.1, h.2.1, h.2.2.2⟩

omit [DoubleArith F] in
theorem startCooldown_or : (m.startCooldown nowNs durationMs).state = .cooldown ∨
      (m.startCooldown nowNs durationMs).state = m.state := by
  by_cases h : nowNs ≤ 0
  · rw [StrategyStateMachine.startCooldown, if_pos h]
    exact Or.inr rfl
  · rw [startCooldown_state m nowNs durationMs (not_le.mp h)]
    split_ifs
    · exact Or.inl rfl
    · exact Or.inr rfl

theorem updatePosition_rest (price pnl : F) :
    (m.updatePosition price pnl nowNs).state = m.state ∧
      (m.updatePosition price pnl nowNs).activeSetup = m.activeSetup ∧
      (m.updatePosition price pnl nowNs).lastTransitionNs = m.lastTransitionNs ∧
      (m.updatePosition price pnl nowNs).cooldownEndNs = m.cooldownEndNs ∧
      (m.updatePosition price pnl nowNs).setupCounter = m.setupCounter := by
  simp only [StrategyStateMachine.updatePosition]
  split_ifs <;> exact ⟨rfl, rfl, rfl, rfl, rfl⟩

theorem updatePosition_record (price pnl : F) :
    (m.updatePosition price pnl nowNs).position.hasPosition = m.position.hasPosition ∧
      (m.updatePosition price pnl nowNs).position.side = m.position.side ∧
      (m.updatePosition price pnl nowNs).position.avgEntryPrice = m.position.avgEntryPrice := by
  simp only [StrategyStateMachine.updatePosition]
  split_ifs <;> exact ⟨rfl, rfl, rfl⟩

end Machine

def Carries (id : String) (o : Option (Setup F)) : Prop := ∀ s, o = some s → s.id = id

section Carried
variable {id : String}

omit [DoubleArith F] in
theorem carries_none : Carries id (none : Option (Setup F)) := by
  intro s h
  exact absurd h (by simp)

omit [DoubleArith F] in
theorem carries_some (s : Setup F) (h : s.id = id) : Carries id (some s) := by
  intro t ht
  rw [← Option.some.inj ht]
  exact h

omit [DoubleArith F] in
theorem carries_guard {c : Prop} [Decidable c] {o : Option (Setup F)} (h : Carries id o) :
    Carries id (if c then none else o) := by
  split_ifs
  · exact carries_none
  · exact h

omit [DoubleArith F] in
theorem carries_switch {c : Prop} [Decidable c] {o : Option (Setup F)} (h : Carries id o) :
    Carries id (if c then o else none) := by
  split_ifs
  · exact h
  · exact carries_none

omit [DoubleArith F] in
theorem carries_orElse {o : Option (Setup F)} {f : Unit → Option (Setup F)} (ho : Carries id o)
    (hf : Carries id (f ())) : Carries id (o.orElse f) := by
  cases o with
  | none => exact hf
  | some x => exact ho

variable (ctx : StrategyContext F) (nowNs : ℤ)

theorem detectMomentum_id : Carries id (detectMomentum cfg ctx id nowNs) := by
  unfold detectMomentum
  dsimp only
  repeat apply carries_guard
  exact carries_some _ rfl

theorem detectRetest_id : Carries id (detectRetest cfg ctx id nowNs) := by
  unfold detectRetest
  dsimp only
  repeat apply carries_guard
  exact carries_some _ rfl

theorem detectPullback_id : Carries id (detectPullback cfg ctx id nowNs) := by
  unfold detectPullback
  dsimp only
  repeat apply carries_guard
  exact carries_some _ rfl

theorem detectRejection_id : Carries id (detectRejection cfg ctx id nowNs) := by
  unfold detectRejection
  dsimp only
  repeat apply carries_guard
  exact carries_some _ rfl

theorem detect_id : Carries id (detect cfg ctx id nowNs) := by
  unfold detect
  dsimp only
  apply carries_guard
  apply carries_guard
  apply carries_orElse
  · apply carries_orElse
    · exact carries_switch (detectMomentum_id cfg ctx nowNs)
    · exact carries_switch (detectRetest_id cfg ctx nowNs)
  · apply carries_orElse
    · exact carries_switch (detectPullback_id cfg ctx nowNs)
    · exact carries_switch (detectRejection_id cfg ctx nowNs)

end Carried

def forming (s : SymbolState) : Bool :=
  s = .setupForming || s = .setupPendingConfirmation || s = .entryReady

inductive PreEntry (e : Engine F) (nowNs : ℤ) : Evaluation F → Prop where
  | kept : PreEntry e nowNs (quiet e)
  | cancelled : e.machine.activeSetup.isSome → PreEntry e nowNs (quiet (cancelSetup cfg e nowNs))
  | searched : e.machine.state = .idle →
      PreEntry e nowNs (quiet { e with machine := e.machine.nextSetupId.1 })
  | found (setup : Setup F) : e.machine.state = .idle → setup.id = e.machine.nextSetupId.2 →
      PreEntry e nowNs (quiet { e with
        machine := {
          e.machine.nextSetupId.1 with
          state := .setupForming
          lastTransitionNs := nowNs
          activeSetup := some setup } })
  | lost : e.machine.state ≠ .idle → e.machine.activeSetup = none →
      PreEntry e nowNs (quiet { e with machine := e.machine.transitionTo .idle nowNs })
  | readied (old setup : Setup F) (t : ℤ) : forming e.machine.state →
      e.machine.activeSetup = some old → setup.id = old.id →
      PreEntry e nowNs (quiet { e with
        machine := {
          e.machine with
          state := .entryReady
          lastTransitionNs := t
          activeSetup := some setup } })
  | staled (old setup : Setup F) : forming e.machine.state →
      e.machine.activeSetup = some old → setup.id = old.id →
      PreEntry e nowNs (quiet { e with
        machine := {
          e.machine with
          state := .idle
          lastTransitionNs := nowNs
          activeSetup := some setup } })
  | entered (old setup : Setup F) (intent : StrategyIntent F) : forming e.machine.state →
      e.machine.activeSetup = some old → setup.id = old.id → intent.setupId = setup.id →
      intent.tradeSide = .opening →
      PreEntry e nowNs {
        engine := { e with
          machine := {
            e.machine with
            state := .entrySent
            lastTransitionNs := nowNs
            activeSetup := some setup } }
        intent := some intent
        consulted := false }

theorem buildIntent_id (ctx : StrategyContext F) (setup : Setup F)
    (signalType : StrategySignalType) (nowNs : ℤ) :
    (buildIntent cfg ctx setup signalType nowNs).setupId = setup.id ∧
      (buildIntent cfg ctx setup signalType nowNs).tradeSide = .opening := by
  simp only [buildIntent]
  split_ifs <;> exact ⟨rfl, rfl⟩

/-- The last check before an entry, for a setup that replaces the active one. -/
theorem enter_preEntry (e : Engine F) (ctx : StrategyContext F) (old setup : Setup F)
    (quality : MarketContextQuality) (nowNs t : ℤ) (hstate : forming e.machine.state)
    (hold : e.machine.activeSetup = some old) (hid : setup.id = old.id) :
    PreEntry cfg e nowNs (enter cfg { e with
      machine := {
        e.machine with
        state := .entryReady
        lastTransitionNs := t
        activeSetup := some setup } } ctx setup quality nowNs) := by
  unfold enter
  split_ifs
  · exact .readied old setup t hstate hold hid
  · exact .readied old setup t hstate hold hid
  · exact .staled old setup hstate hold hid
  all_goals
    obtain ⟨hsetup, hside⟩ := buildIntent_id cfg ctx setup _ nowNs
    exact .entered old setup _ hstate hold hid hsetup hside

theorem advanceSetup_preEntry (e : Engine F) (ctx : StrategyContext F) (setup : Setup F)
    (quality : MarketContextQuality) (nowNs : ℤ) (hs : e.machine.activeSetup = some setup) :
    PreEntry cfg e nowNs (advanceSetup cfg e ctx setup quality nowNs) := by
  have hready : forming e.machine.state → ∀ t, ∀ s : Setup F, s.id = setup.id →
      PreEntry cfg e nowNs (enter cfg { e with
        machine := {
          e.machine with
          state := .entryReady
          lastTransitionNs := t
          activeSetup := some s } } ctx s quality nowNs) :=
    fun hf t s hid => enter_preEntry cfg e ctx setup s quality nowNs t hf hs hid
  cases h : e.machine.state with
  | setupForming =>
    simp only [advanceSetup, h]
    split_ifs with hc
    · simpa [StrategyStateMachine.transitionTo, StrategyStateMachine.setSetup, h, validTransition]
        using hready (by rw [h]; rfl) nowNs { setup with
          confirmedAtNs := nowNs
          confidence := stdMin (setup.confidence + cfg.setupConfirmationBonus)
            cfg.maxConviction } rfl
    · exact .kept
  | setupPendingConfirmation =>
    simpa [advanceSetup, h, StrategyStateMachine.transitionTo, validTransition, hs]
      using hready (by rw [h]; rfl) nowNs setup rfl
  | entryReady =>
    have hsame : e = { e with
        machine := {
          e.machine with
          state := .entryReady
          lastTransitionNs := e.machine.lastTransitionNs
          activeSetup := some setup } } := by
      rw [← h, ← hs]
    simp only [advanceSetup, h]
    exact hsame ▸ hready (by rw [h]; rfl) e.machine.lastTransitionNs setup rfl
  | entrySent =>
    simp only [advanceSetup, h]
    split_ifs
    · exact .cancelled (by rw [hs]; rfl)
    · exact .kept
  | idle | candidate | positionOpen | positionManaging | exitPending | cooldown | blocked =>
    simp only [advanceSetup, h]
    exact .kept

theorem handlePreEntry_preEntry (e : Engine F) (ctx : StrategyContext F) (nowNs : ℤ) :
    PreEntry cfg e nowNs (handlePreEntry cfg e ctx nowNs) := by
  unfold handlePreEntry
  dsimp only
  split_ifs with hquality hsetup hidle
  · exact .cancelled hsetup
  · exact .kept
  · cases hd : detect cfg ctx e.machine.nextSetupId.2 nowNs with
    | none => exact .searched hidle
    | some setup =>
      have hmove : (e.machine.nextSetupId.1.setSetup setup).transitionTo .setupForming nowNs = {
          e.machine.nextSetupId.1 with
          state := .setupForming
          lastTransitionNs := nowNs
          activeSetup := some setup } := by
        simp [StrategyStateMachine.transitionTo, StrategyStateMachine.setSetup,
          StrategyStateMachine.nextSetupId, hidle, validTransition]
      simp only [hmove]
      exact .found setup hidle (detect_id cfg ctx nowNs setup hd)
  · cases hs : e.machine.activeSetup with
    | none => exact .lost hidle hs
    | some setup =>
      dsimp only
      split_ifs
      · exact advanceSetup_preEntry cfg e ctx setup _ nowNs hs
      · exact .cancelled (by rw [hs]; rfl)

/-- The position manager is asked and holds; of the position only the time changes. -/
theorem handlePosition_managed (e : Engine F) (ctx : StrategyContext F) (nowNs : ℤ)
    (hstate : inPosition e.machine.state) (hexit : e.exitSignalSent = false) :
    ∃ hold t : ℤ, handlePosition e ctx nowNs = {
      engine := { e with
        machine := {
          e.machine with
          state := .positionManaging
          lastTransitionNs := t
          position := { e.machine.position with holdDurationNs := hold } } }
      intent := none
      consulted := true } := by
  have hs : e.machine.state = .positionOpen ∨ e.machine.state = .positionManaging := by
    simpa [inPosition] using hstate
  refine ⟨if 0 < e.machine.position.entryTimeNs then nowNs - e.machine.position.entryTimeNs
    else e.machine.position.holdDurationNs,
    if e.machine.state = .positionOpen then nowNs else e.machine.lastTransitionNs, ?_⟩
  -- the manager returns hold, or skip where no position is recorded
  rcases hs with hs | hs <;> by_cases ht : 0 < e.machine.position.entryTimeNs <;>
    cases hp : e.machine.position.hasPosition <;>
    simp [handlePosition, managePosition, StrategyStateMachine.transitionTo, validTransition, hs,
      hexit, ht, hp]
  all_goals rw [← hp]

variable (m : StrategyStateMachine F) (ctx : StrategyContext F) (nowNs : ℤ)

omit [DoubleArith F] in
theorem recover_early (h : validTransition m.state .positionOpen) : let r := recover m ctx nowNs
    r.state = .positionOpen ∧ r.position.hasPosition = true ∧
      r.position.side = ctx.position.side ∧
      r.position.avgEntryPrice = ctx.position.avgEntryPrice := by
  have hs : (m.transitionTo .positionOpen nowNs).state = .positionOpen := by
    rw [transitionTo_state, if_pos h]
  cases hsetup : (m.transitionTo .positionOpen nowNs).activeSetup with
  | none => simp [recover, hsetup, StrategyStateMachine.clearSetup, hs]
  | some setup => simp [recover, hsetup, StrategyStateMachine.clearSetup, hs]

omit [DoubleArith F] in
theorem recover_state : (recover m ctx nowNs).state =
      if validTransition m.state .positionOpen then .positionOpen else m.state := by
  rw [← transitionTo_state m nowNs .positionOpen]
  rfl

theorem syncPosition_held (h : held m.state) :
    syncPosition m ctx nowNs = m.updatePosition ctx.features.microstructure.midPrice
      ctx.position.unrealizedPnl nowNs := by
  unfold syncPosition
  simp only [(updatePosition_rest m nowNs _ _).1]
  exact if_pos h

theorem syncPosition_free (h : held m.state = false) :
    syncPosition m ctx nowNs = recover (m.updatePosition ctx.features.microstructure.midPrice
      ctx.position.unrealizedPnl nowNs) ctx nowNs := by
  unfold syncPosition
  simp only [(updatePosition_rest m nowNs _ _).1]
  exact if_neg (ne_true_of_eq_false h)

structure Steady (e : Engine F) : Prop where
  active : e.active = true
  exit : e.exitSignalSent = false
  state : e.machine.state ≠ .exitPending

theorem steady_start : Steady (initialEngine : Engine F) :=
  ⟨rfl, rfl, SymbolState.noConfusion⟩

variable {e : Engine F}

omit [DoubleArith F] in
/-- The phase before an entry keeps the engine steady and opens no position. -/
theorem preEntry_steady {nowNs : ℤ} {r : Evaluation F}
    (h : PreEntry cfg e nowNs r) (hs : Steady e) (hf : held e.machine.state = false) :
    Steady r.engine ∧ held r.engine.machine.state = false := by
  have hof : ∀ m : StrategyStateMachine F, held m.state = false →
      Steady { e with machine := m } ∧ held m.state = false := by
    intro m hm
    refine ⟨⟨hs.active, hs.exit, ?_⟩, hm⟩
    intro hexit
    rw [hexit] at hm
    exact absurd hm (by decide)
  cases h with
  | kept => exact ⟨hs, hf⟩
  | cancelled =>
    apply hof
    rcases startCooldown_or e.machine.clearSetup nowNs cfg.cooldownAfterFailedSetupMs with h | h
    · rw [h]
      rfl
    · rw [h]
      exact hf
  | searched => exact hof _ hf
  | lost =>
    apply hof
    rw [transitionTo_state]
    split_ifs
    · rfl
    · exact hf
  | found | readied | staled | entered => exact hof _ rfl

omit [DoubleArith F] in
theorem steady_machine (hs : Steady e) {m : StrategyStateMachine F}
    (hm : m.state ≠ .exitPending) : Steady { e with machine := m } := ⟨hs.active, hs.exit, hm⟩

omit [DoubleArith F] in
theorem startCooldown_steady (hs : Steady e) (m : StrategyStateMachine F)
    (nowNs durationMs : ℤ) (hm : m.state = e.machine.state) :
    (m.startCooldown nowNs durationMs).state ≠ .exitPending := by
  rcases startCooldown_or m nowNs durationMs with h | h
  · rw [h]
    decide
  · rw [h, hm]
    exact hs.state

theorem route_steady (ctx : StrategyContext F) (nowNs : ℤ) (hs : Steady e) :
    Steady (route cfg e ctx nowNs).engine ∧
      (held e.machine.state = false →
        held (route cfg e ctx nowNs).engine.machine.state = false) := by
  have hpre : ∀ e' : Engine F, Steady e' → held e'.machine.state = false →
      Steady (handlePreEntry cfg e' ctx nowNs).engine ∧
        held (handlePreEntry cfg e' ctx nowNs).engine.machine.state = false :=
    fun e' hs' hf' => preEntry_steady cfg (handlePreEntry_preEntry cfg e' ctx nowNs) hs' hf'
  have hopen : inPosition e.machine.state → Steady (handlePosition e ctx nowNs).engine := by
    intro hp
    obtain ⟨hold, t, hr⟩ := handlePosition_managed e ctx nowNs hp hs.exit
    rw [hr]
    exact steady_machine hs SymbolState.noConfusion
  cases hstate : e.machine.state with
  | cooldown =>
    simp only [route, hstate, handleCooldown]
    split_ifs
    · have hidle : (e.machine.transitionTo .idle nowNs).state = .idle := by
        rw [transitionTo_state, hstate]
        rfl
      have h := hpre { e with machine := e.machine.transitionTo .idle nowNs }
        (steady_machine hs (by rw [hidle]; decide)) (by rw [hidle]; rfl)
      exact ⟨h.1, fun _ => h.2⟩
    · exact ⟨hs, fun hf => hstate ▸ hf⟩
  | blocked =>
    simp only [route, hstate]
    split_ifs
    · exact ⟨hs, fun hf => hstate ▸ hf⟩
    · have hidle : (e.machine.unblock nowNs).state = .idle := by
        simp [StrategyStateMachine.unblock, hstate]
      exact ⟨steady_machine hs (by rw [hidle]; decide), fun _ => by
        show held (e.machine.unblock nowNs).state = false
        rw [hidle]
        rfl⟩
  | positionOpen | positionManaging =>
    simp only [route, hstate]
    exact ⟨hopen (by rw [hstate]; rfl), fun hf => absurd hf (by decide)⟩
  | exitPending => exact absurd hstate hs.state
  | idle | candidate | setupForming | setupPendingConfirmation | entryReady | entrySent =>
    have h := hpre e hs (by rw [hstate]; rfl)
    simp only [route, hstate]
    exact ⟨h.1, fun _ => h.2⟩

theorem syncPosition_steady (ctx : StrategyContext F) (nowNs : ℤ)
    (hs : Steady e) : Steady { e with machine := syncPosition e.machine ctx nowNs } := by
  apply steady_machine hs
  cases hf : held e.machine.state with
  | true =>
    rw [syncPosition_held _ _ _ hf, (updatePosition_rest _ _ _ _).1]
    exact hs.state
  | false =>
    rw [syncPosition_free _ _ _ hf, recover_state, (updatePosition_rest _ _ _ _).1]
    split_ifs
    · decide
    · exact hs.state

omit [DoubleArith F] in
theorem steady_ite {c : Prop} [Decidable c] {a b : Evaluation F} (ha : c → Steady a.engine)
    (hb : ¬ c → Steady b.engine) : Steady (if c then a else b).engine := by
  by_cases hc : c
  · rw [if_pos hc]
    exact ha hc
  · rw [if_neg hc]
    exact hb hc

theorem evaluate_steady (ctx : StrategyContext F) (nowNs : ℤ) (hs : Steady e) :
    Steady (evaluate cfg e ctx nowNs).engine := by
  have hcancel : Steady (cancelSetup cfg e nowNs) :=
    steady_machine hs (startCooldown_steady hs _ nowNs _ rfl)
  unfold evaluate
  refine steady_ite (fun _ => hs) fun _ => ?_
  refine steady_ite (fun _ => hs) fun _ => ?_
  refine steady_ite (fun _ => steady_machine hs SymbolState.noConfusion) fun _ => ?_
  refine steady_ite (fun _ => ?_) fun _ => ?_
  · refine steady_ite (fun hpos => ?_) fun _ => ?_
    · obtain ⟨hold, t, hr⟩ := handlePosition_managed e ctx nowNs hpos hs.exit
      rw [hr]
      exact steady_machine hs SymbolState.noConfusion
    · by_cases hsetup : e.machine.activeSetup.isSome = true
      · rw [if_pos hsetup]
        exact hcancel
      · rw [if_neg hsetup]
        exact hs
  refine steady_ite (fun _ => hs) fun _ => ?_
  refine steady_ite (fun _ => ?_) fun _ => ?_
  · exact (route_steady cfg ctx nowNs (syncPosition_steady ctx nowNs hs)).1
  refine steady_ite (fun _ => ?_) fun _ => ?_
  · exact ⟨hs.active, rfl, startCooldown_steady hs _ nowNs _ rfl⟩
  · exact (route_steady cfg ctx nowNs hs).1

theorem steady_step (e : Engine F) (op : StrategyOp F) (hs : Steady e) :
    Steady (engineStep cfg e op) := by
  cases op with
  | evaluate nowNs ctx => exact evaluate_steady cfg ctx nowNs hs
  | notifyPositionOpened nowNs entryPrice size side posSide =>
    apply steady_machine hs
    rw [transitionTo_state]
    cases validTransition _ .positionOpen with
    | true => exact SymbolState.noConfusion
    | false => exact hs.state
  | notifyPositionClosed nowNs pnl =>
    exact ⟨hs.active, rfl, startCooldown_steady hs _ nowNs _ rfl⟩
  | notifyEntryRejected nowNs =>
    have hcancel : Steady (cancelSetup cfg e nowNs) :=
      steady_machine hs (startCooldown_steady hs _ nowNs _ rfl)
    exact steady_machine hcancel (startCooldown_steady hcancel _ nowNs _ rfl)
  | reset => exact ⟨hs.active, rfl, SymbolState.noConfusion⟩

end TB.StrategySteps
