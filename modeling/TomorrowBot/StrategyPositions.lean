import TomorrowBot.StrategySteps
import TomorrowBot.Runs

/-!
# An open position and the strategy

An evaluation manages the position of its context exactly where the machine is
in a position with the same side and entry price, or in a state before a
position with no lock and the exchange available. In a cooldown, in the blocked
state and under a lock the position stays unmanaged.
-/

set_option autoImplicit false

namespace TB.StrategyPositions
open TB.CommonTypes TB.TradingContext TB.StrategyTypes TB.StrategyEngine TB.StrategySteps Runs

variable {F : Type} [DoubleArith F] (cfg : ScalpStrategyConfig F)

structure Watched (F : Type) where
  engine : Engine F
  exits : List (PositionInfo F)

def watchedStart : Watched F := ⟨initialEngine, []⟩

def exitsAfter (w : Watched F) : StrategyOp F → List (PositionInfo F)
  | .evaluate nowNs ctx =>
    w.exits ++ if ∃ i ∈ (evaluate cfg w.engine ctx nowNs).intent, i.tradeSide = .closing
      then [ctx.position] else []
  | _ => w.exits

def watchedStep (w : Watched F) (op : StrategyOp F) : Watched F :=
  ⟨engineStep cfg w.engine op, exitsAfter cfg w op⟩

def Recorded (m : StrategyStateMachine F) (ctx : StrategyContext F) : Prop :=
  m.position.side = ctx.position.side ∧ m.position.avgEntryPrice = ctx.position.avgEntryPrice

def Manageable (ctx : StrategyContext F) : Prop :=
  ctx.risk.emergencyHalt = false ∧ ctx.dataFresh = true ∧ ctx.isStrategyEnabled = true ∧
    ctx.position.hasPosition = true

instance (ctx : StrategyContext F) : Decidable (Manageable ctx) := by
  unfold Manageable
  infer_instance

def Manages (w : Watched F) : StrategyOp F → Prop
  | .evaluate nowNs ctx =>
    let r := evaluate cfg w.engine ctx nowNs
    Manageable ctx →
      (r.engine.machine.state = .positionOpen ∨ r.engine.machine.state = .positionManaging ∨
        r.engine.machine.state = .exitPending) ∧
      (r.consulted = true ∨ ∃ p ∈ w.exits, p.side = ctx.position.side ∧
        p.avgEntryPrice = ctx.position.avgEntryPrice) ∧
      Recorded r.engine.machine ctx
  | _ => True

def Openable (w : Watched F) : StrategyOp F → Prop
  | .evaluate _ ctx =>
    Manageable ctx →
      inPosition w.engine.machine.state ∧ Recorded w.engine.machine ctx ∨
      early w.engine.machine.state ∧ ctx.risk.dayLocked = false ∧
        ctx.risk.symbolLocked = false ∧ ctx.exchangeOk = true
  | _ => True

section Steps

variable {e : Engine F} (ctx : StrategyContext F)

theorem managed_of_inPosition (nowNs : ℤ)
    (hs : Steady e) (hc : Manageable ctx) (hp : inPosition e.machine.state) :
    let r := evaluate cfg e ctx nowNs
    r.engine.machine.state = .positionManaging ∧ r.consulted = true ∧
      (Recorded r.engine.machine ctx ↔ Recorded e.machine ctx) := by
  obtain ⟨hhalt, hfresh, henabled, hposition⟩ := hc
  have hmanaged : ∀ e' : Engine F, inPosition e'.machine.state → e'.exitSignalSent = false →
      (Recorded e'.machine ctx ↔ Recorded e.machine ctx) →
      let r := handlePosition e' ctx nowNs
      r.engine.machine.state = .positionManaging ∧ r.consulted = true ∧
        (Recorded r.engine.machine ctx ↔ Recorded e.machine ctx) := by
    intro e' hp' hexit' hrec
    obtain ⟨hold, t, hr⟩ := handlePosition_managed e' ctx nowNs hp' hexit'
    rw [hr]
    exact ⟨rfl, rfl, hrec⟩
  have hheld : held e.machine.state = true := by
    rw [held, hp]
    rfl
  have hupdate := updatePosition_rest e.machine nowNs ctx.features.microstructure.midPrice
    ctx.position.unrealizedPnl
  have hrecord := updatePosition_record e.machine nowNs ctx.features.microstructure.midPrice
    ctx.position.unrealizedPnl
  have hroute : ∀ e' : Engine F, inPosition e'.machine.state →
      route cfg e' ctx nowNs = handlePosition e' ctx nowNs := by
    intro e' hp'
    cases hstate : e'.machine.state with
    | positionOpen | positionManaging => simp only [route, hstate]
    | idle | candidate | setupForming | setupPendingConfirmation | entryReady | entrySent
    | exitPending | cooldown | blocked =>
      rw [hstate] at hp'
      exact absurd hp' (by decide)
  cases hexchange : ctx.exchangeOk with
  | false =>
    have heval : evaluate cfg e ctx nowNs = handlePosition e ctx nowNs := by
      simp [evaluate, hs.active, hhalt, hp, hfresh, hexchange]
    rw [heval]
    exact hmanaged e hp hs.exit Iff.rfl
  | true =>
    have hp' : inPosition (syncPosition e.machine ctx nowNs).state := by
      rw [syncPosition_held _ _ _ hheld, hupdate.1]
      exact hp
    have heval : evaluate cfg e ctx nowNs =
        handlePosition { e with machine := syncPosition e.machine ctx nowNs } ctx nowNs := by
      rw [← hroute _ hp']
      simp [evaluate, hs.active, hhalt, hp, hfresh, hexchange, henabled, hposition]
    rw [heval]
    refine hmanaged _ hp' hs.exit ?_
    rw [syncPosition_held _ _ _ hheld, Recorded, hrecord.2.1, hrecord.2.2]
    rfl

/-- A position that the machine may open is opened and managed. -/
theorem managed_of_early (nowNs : ℤ)
    (hs : Steady e) (hc : Manageable ctx) (hearly : early e.machine.state)
    (hday : ctx.risk.dayLocked = false) (hsymbol : ctx.risk.symbolLocked = false)
    (hexchange : ctx.exchangeOk = true) :
    let r := evaluate cfg e ctx nowNs
    r.engine.machine.state = .positionManaging ∧ r.consulted = true ∧
      Recorded r.engine.machine ctx := by
  obtain ⟨hhalt, hfresh, henabled, hposition⟩ := hc
  rw [early, Bool.and_eq_true, Bool.not_eq_true'] at hearly
  have hopened := recover_early (e.machine.updatePosition ctx.features.microstructure.midPrice
    ctx.position.unrealizedPnl nowNs) ctx nowNs (by
      rw [(updatePosition_rest _ _ _ _).1]
      exact hearly.1)
  rw [← syncPosition_free _ _ _ hearly.2] at hopened
  obtain ⟨hstate, -, hside, hprice⟩ := hopened
  have heval : evaluate cfg e ctx nowNs =
      handlePosition { e with machine := syncPosition e.machine ctx nowNs } ctx nowNs := by
    simp [evaluate, hs.active, hhalt, hday, hsymbol, hfresh, hexchange, henabled, hposition, route,
      hstate]
  obtain ⟨hold, t, hr⟩ := handlePosition_managed
    { e with machine := syncPosition e.machine ctx nowNs } ctx nowNs
    (by show inPosition (syncPosition e.machine ctx nowNs).state = true; rw [hstate]; rfl) hs.exit
  rw [heval, hr]
  exact ⟨rfl, rfl, hside, hprice⟩

theorem unmanaged (nowNs : ℤ) (hs : Steady e)
    (hc : Manageable ctx) (hp : inPosition e.machine.state = false)
    (hn : ¬ (early e.machine.state ∧ ctx.risk.dayLocked = false ∧
      ctx.risk.symbolLocked = false ∧ ctx.exchangeOk = true)) :
    held (evaluate cfg e ctx nowNs).engine.machine.state = false := by
  obtain ⟨hhalt, hfresh, henabled, hposition⟩ := hc
  have hheld : held e.machine.state = false := by
    simp [held, hp, hs.state]
  by_cases hlock : ctx.risk.dayLocked = false ∧ ctx.risk.symbolLocked = false
  · cases hexchange : ctx.exchangeOk with
    | false =>
      have hcancel : held (cancelSetup cfg e nowNs).machine.state = false := by
        rcases startCooldown_or e.machine.clearSetup nowNs cfg.cooldownAfterFailedSetupMs
          with h | h
        · exact (congrArg held h).trans rfl
        · exact (congrArg held h).trans hheld
      cases hsetup : e.machine.activeSetup with
      | none =>
        simp [evaluate, hs.active, hhalt, hlock, hfresh, hexchange, hp, hsetup, quiet, hheld]
      | some setup =>
        simp [evaluate, hs.active, hhalt, hlock, hfresh, hexchange, hp, hsetup, quiet, hcancel]
    | true =>
      have hrefused : validTransition e.machine.state .positionOpen = false := by
        by_contra hvalid
        apply hn
        refine ⟨?_, hlock.1, hlock.2, hexchange⟩
        rw [early, Bool.of_not_eq_false hvalid, hheld]
        rfl
      have hstate : (syncPosition e.machine ctx nowNs).state = e.machine.state := by
        rw [syncPosition_free _ _ _ hheld, recover_state, (updatePosition_rest _ _ _ _).1]
        exact if_neg (ne_true_of_eq_false hrefused)
      have hroute := (route_steady cfg ctx nowNs (syncPosition_steady ctx nowNs hs)).2
        ((congrArg held hstate).trans hheld)
      simpa [evaluate, hs.active, hhalt, hlock, hfresh, hexchange, henabled, hposition]
        using hroute
  · have hlocked : (ctx.risk.dayLocked || ctx.risk.symbolLocked) = true := by
      by_contra hfree
      exact hlock (by simpa using hfree)
    simp only [evaluate, hs.active, hhalt, hlocked, hp]
    rfl

theorem manages_iff (w : Watched F) (op : StrategyOp F) (hs : Steady w.engine) :
    Manages cfg w op ↔ Openable w op := by
  cases op with
  | evaluate nowNs ctx =>
    constructor
    · intro hm hc
      obtain ⟨hstate, -, hrec⟩ := hm hc
      cases hp : inPosition w.engine.machine.state with
      | true =>
        exact Or.inl ⟨rfl, (managed_of_inPosition cfg ctx nowNs hs hc hp).2.2.mp hrec⟩
      | false =>
        right
        by_contra hn
        have hfree := unmanaged cfg ctx nowNs hs hc hp hn
        rcases hstate with h | h | h <;> rw [h] at hfree <;> exact absurd hfree (by decide)
    · intro ho hc
      rcases ho hc with ⟨hp, hrec⟩ | ⟨hearly, hday, hsymbol, hexchange⟩
      · obtain ⟨hstate, hconsulted, hiff⟩ := managed_of_inPosition cfg ctx nowNs hs hc hp
        exact ⟨Or.inr (Or.inl hstate), Or.inl hconsulted, hiff.mpr hrec⟩
      · obtain ⟨hstate, hconsulted, hrec⟩ :=
          managed_of_early cfg ctx nowNs hs hc hearly hday hsymbol hexchange
        exact ⟨Or.inr (Or.inl hstate), Or.inl hconsulted, hrec⟩
  | notifyPositionOpened | notifyPositionClosed | notifyEntryRejected | reset =>
    exact Iff.rfl

end Steps

/-- Every evaluation of a run manages its open position exactly where every one finds
it recorded or may open it. -/
theorem positions_managed (ops : List (StrategyOp F)) :
    Meets (watchedStep cfg) (Manages cfg) watchedStart ops ↔
      Meets (watchedStep cfg) Openable watchedStart ops := by
  have hstep : ∀ C : Watched F → StrategyOp F → Prop, ∀ w op, Steady w.engine → C w op →
      Steady (watchedStep cfg w op).engine :=
    fun _ w op hs _ => steady_step cfg w.engine op hs
  constructor
  · exact meets_of_invariant (watchedStep cfg) (hstep _)
      (fun w op hs => (manages_iff cfg w op hs).mp) watchedStart ops steady_start
  · exact meets_of_invariant (watchedStep cfg) (hstep _)
      (fun w op hs => (manages_iff cfg w op hs).mpr) watchedStart ops steady_start

def positionedContext : StrategyContext F where
  features := defaultFeatures "BTCUSDT"
  regime := .unclear
  worldState := .unknown
  uncertainty := .moderate
  isStrategyEnabled := true
  futuresEnabled := true
  htfTrendDirection := 0
  htfTrendStrength := 0.0
  position := ⟨true, .buy, .long, 1.0, 100.0, 0.0, 1⟩
  risk := ⟨false, false, false⟩
  dataFresh := true
  exchangeOk := true

/-- A position that appears in the cooldown after a rejection is not managed. -/
theorem cooldown_unmanaged :
    ¬ ∀ (cfg : ScalpStrategyConfig ℚ) (ops : List (StrategyOp ℚ)),
      Meets (watchedStep cfg) (Manages cfg) watchedStart ops := by
  intro h
  have hrun := h defaultScalpConfig [.notifyEntryRejected 1, .evaluate 2 positionedContext]
  have hmanaged := hrun.2.1 (by decide +kernel)
  exact absurd hmanaged.1 (by decide +kernel)

end TB.StrategyPositions
