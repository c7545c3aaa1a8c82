import TomorrowBot.StrategySteps
import TomorrowBot.Runs

/-!
# One entry for a setup

No two entries carry one setup, and none is made while the context shows a
position. Between two entries the first is resolved and the cooldown of a
rejection or of a close runs out, where no lock comes while an entry waits or
such a cooldown runs, and none is started in the blocked state or shortened.
-/

set_option autoImplicit false

namespace TB.StrategyEntries
open TB.CommonTypes TB.TradingContext TB.StrategyTypes TB.StrategyEngine TB.StrategySteps Runs

variable {F : Type} [DoubleArith F] (cfg : ScalpStrategyConfig F)

structure Ledger where
  entered : List String
  pending : Option ℤ
  owedUntil : ℤ

structure World (F : Type) where
  engine : Engine F
  clock : ℤ
  ledger : Ledger

def start : World F := ⟨initialEngine, 0, ⟨[], none, 0⟩⟩

def entries (r : Evaluation F) : List (StrategyIntent F) :=
  r.intent.toList.filter (fun i => i.tradeSide = .opening)

def owe (l : Ledger) (nowNs durationMs : ℤ) : Ledger :=
  { l with pending := none, owedUntil := max l.owedUntil (nowNs + durationMs * 1000000) }

def note (l : Ledger) (r : Evaluation F) (reported : Bool) (nowNs : ℤ) : Ledger :=
  { l with
    entered := l.entered ++ (entries r).map (·.setupId)
    pending :=
      if entries r ≠ [] then some nowNs
      else if reported || r.engine.machine.activeSetup.isNone then none
      else l.pending }

def afterEvaluation (e : Engine F) (ctx : StrategyContext F) (nowNs : ℤ) (l : Ledger) : Ledger :=
  let r := evaluate cfg e ctx nowNs
  let l := note l r ctx.position.hasPosition nowNs
  if e.machine.position.hasPosition && !r.engine.machine.position.hasPosition then
    owe l nowNs (exitCooldownMs cfg e.consecutiveLosses)
  else l

def opTime : StrategyOp F → ℤ
  | .evaluate nowNs _ => nowNs
  | .notifyPositionOpened nowNs .. => nowNs
  | .notifyPositionClosed nowNs _ => nowNs
  | .notifyEntryRejected nowNs => nowNs
  | .reset => 0

def record (w : World F) : StrategyOp F → Ledger
  | .evaluate nowNs ctx => afterEvaluation cfg w.engine ctx nowNs w.ledger
  | .notifyPositionOpened .. => { w.ledger with pending := none }
  | .notifyPositionClosed nowNs pnl =>
    owe w.ledger nowNs (exitCooldownMs cfg (countLoss cfg w.engine.consecutiveLosses pnl))
  | .notifyEntryRejected nowNs => owe w.ledger nowNs cfg.cooldownAfterRejectionMs
  | .reset => w.ledger

def worldStep (w : World F) (op : StrategyOp F) : World F :=
  ⟨engineStep cfg w.engine op, opTime op, record cfg w op⟩

def InOrder (w : World F) (op : StrategyOp F) : Prop := w.clock ≤ opTime op ∧ 0 < opTime op

instance (w : World F) (op : StrategyOp F) : Decidable (InOrder w op) := instDecidableAnd

def timedOut (since nowNs : ℤ) : Prop := cfg.entrySentTimeoutMs * 1000000 ≤ nowNs - since

instance (since nowNs : ℤ) : Decidable (timedOut cfg since nowNs) := Int.decLe _ _

/-- An entry is for a new setup, without a position, after the last entry was resolved
and every owed cooldown has run out. -/
def Orderly (w : World F) : StrategyOp F → Prop
  | .evaluate nowNs ctx =>
    ∀ i ∈ entries (evaluate cfg w.engine ctx nowNs),
      i.setupId ∉ w.ledger.entered ∧ ctx.position.hasPosition = false ∧
        (∀ t ∈ w.ledger.pending, timedOut cfg t nowNs) ∧ w.ledger.owedUntil ≤ nowNs
  | _ => True

instance (w : World F) : (op : StrategyOp F) → Decidable (Orderly cfg w op)
  | .evaluate nowNs ctx => by unfold Orderly; infer_instance
  | .notifyPositionOpened .. | .notifyPositionClosed .. | .notifyEntryRejected _ | .reset =>
    inferInstanceAs (Decidable True)

def Effective (w : World F) (nowNs durationMs : ℤ) : Prop :=
  w.engine.machine.state ≠ .blocked ∧
    (w.engine.machine.state = .cooldown →
      w.ledger.owedUntil ≤ max nowNs (nowNs + durationMs * 1000000))

def LockHarmless (w : World F) (ctx : StrategyContext F) (nowNs : ℤ) : Prop :=
  (w.engine.machine.state = .entrySent → ctx.position.hasPosition = true ∨
      timedOut cfg w.engine.machine.lastTransitionNs nowNs) ∧
    (w.engine.machine.state = .cooldown → w.ledger.owedUntil ≤ nowNs)

def SeesClose (w : World F) (ctx : StrategyContext F) : Prop :=
  ctx.dataFresh = true ∧ ctx.exchangeOk = true ∧ ctx.isStrategyEnabled = true ∧
    w.engine.machine.position.hasPosition = true ∧ ctx.position.hasPosition = false

def Undisturbed (w : World F) : StrategyOp F → Prop
  | .evaluate nowNs ctx =>
    ctx.risk.emergencyHalt = false →
      if ctx.risk.dayLocked || ctx.risk.symbolLocked then LockHarmless cfg w ctx nowNs
      else SeesClose w ctx → Effective w nowNs (exitCooldownMs cfg w.engine.consecutiveLosses)
  | .notifyPositionOpened .. => True
  | .notifyPositionClosed nowNs pnl =>
    Effective w nowNs (exitCooldownMs cfg (countLoss cfg w.engine.consecutiveLosses pnl))
  | .notifyEntryRejected nowNs => Effective w nowNs cfg.cooldownAfterRejectionMs
  | .reset => False

instance (w : World F) (nowNs durationMs : ℤ) : Decidable (Effective w nowNs durationMs) :=
  instDecidableAnd

instance (w : World F) (ctx : StrategyContext F) (nowNs : ℤ) :
    Decidable (LockHarmless cfg w ctx nowNs) :=
  instDecidableAnd

instance (w : World F) (ctx : StrategyContext F) : Decidable (SeesClose w ctx) := instDecidableAnd

instance (w : World F) : (op : StrategyOp F) → Decidable (Undisturbed cfg w op)
  | .evaluate nowNs ctx => by unfold Undisturbed; infer_instance
  | .notifyPositionOpened .. => inferInstanceAs (Decidable True)
  | .notifyPositionClosed .. | .notifyEntryRejected _ => instDecidableEffective _ _ _
  | .reset => inferInstanceAs (Decidable False)

def setupId (k : ℕ) : String := "setup_" ++ toString k

theorem setupId_injective {j k : ℕ} (h : setupId j = setupId k) : j = k := by
  have hchars := congrArg String.toList h
  simp only [setupId, String.toList_append] at hchars
  have hdigits : Nat.toDigits 10 j = Nat.toDigits 10 k := by
    simpa using hchars
  have hvalue := congrArg (fun ds => Nat.ofDigitChars 10 ds 0) hdigits
  simpa only [Nat.ofDigitChars_toDigits (b := 10) (by omega) (by omega)] using hvalue

structure Sound (m : StrategyStateMachine F) (nowNs : ℤ) (l : Ledger) : Prop where
  known : m.state ≠ .candidate
  waits : m.state ≠ .cooldown → l.owedUntil ≤ nowNs
  cools : m.state = .cooldown → l.owedUntil ≤ max m.cooldownEndNs nowNs ∧ m.activeSetup = none
  sent : ∀ t ∈ l.pending,
    m.state = .entrySent ∧ m.lastTransitionNs = t ∨ timedOut cfg t nowNs
  numbered : ∀ id ∈ l.entered, ∃ k ≤ m.setupCounter, id = setupId k
  unused : forming m.state → ∃ s, m.activeSetup = some s ∧ s.id ∉ l.entered ∧
    ∃ k ≤ m.setupCounter, s.id = setupId k

section Ledgers
variable {cfg} {m : StrategyStateMachine F} {l : Ledger} {r : Evaluation F} {nowNs : ℤ}

omit [DoubleArith F] in
theorem timedOut_later {since t : ℤ} (h : timedOut cfg since t) (ht : t ≤ nowNs) :
    timedOut cfg since nowNs := by
  unfold timedOut at *
  omega

omit [DoubleArith F] in
theorem sound_later {t : ℤ} (hs : Sound cfg m t l) (ht : t ≤ nowNs) : Sound cfg m nowNs l where
  known := hs.known
  waits h := (hs.waits h).trans ht
  cools h := ⟨(hs.cools h).1.trans (max_le_max_left _ ht), (hs.cools h).2⟩
  sent u hu := (hs.sent u hu).imp id (fun h => timedOut_later h ht)
  numbered := hs.numbered
  unused := hs.unused

omit [DoubleArith F] in
theorem sound_resolved (hs : Sound cfg m nowNs l) :
    Sound cfg m nowNs { l with pending := none } where
  known := hs.known
  waits := hs.waits
  cools := hs.cools
  sent u hu := absurd hu (Option.not_mem_none u)
  numbered := hs.numbered
  unused := hs.unused

omit [DoubleArith F] in
theorem note_quiet (reported : Bool) (h : entries r = []) :
    note l r reported nowNs =
      if reported || r.engine.machine.activeSetup.isNone then { l with pending := none }
      else l := by
  simp only [note, h, List.map_nil, List.append_nil, ne_eq, not_true_eq_false, if_false]
  split_ifs <;> rfl

omit [DoubleArith F] in
theorem sound_note (reported : Bool) (h : entries r = []) (hs : Sound cfg m nowNs l) :
    Sound cfg m nowNs (note l r reported nowNs) := by
  rw [note_quiet reported h]
  split_ifs
  · exact sound_resolved hs
  · exact hs

omit [DoubleArith F] in
/-- A cooldown that starts without a setup keeps what is owed, unless the machine is
blocked. -/
theorem sound_cooldown (durationMs : ℤ) (hn : 0 < nowNs) (hknown : m.state ≠ .candidate)
    (hsetup : m.activeSetup = none) (hpending : l.pending = none)
    (hnumbered : ∀ id ∈ l.entered, ∃ k ≤ m.setupCounter, id = setupId k)
    (hblocked : m.state = .blocked → l.owedUntil ≤ nowNs)
    (howed : m.state ≠ .blocked → l.owedUntil ≤ max (nowNs + durationMs * 1000000) nowNs) :
    Sound cfg (m.startCooldown nowNs durationMs) nowNs l := by
  have hstate := startCooldown_state m nowNs durationMs hn
  have hend := startCooldown_end m nowNs durationMs hn
  have hrest := startCooldown_rest m nowNs durationMs
  have hcases : m.state = .blocked ∧ (m.startCooldown nowNs durationMs).state = .blocked ∨
      m.state ≠ .blocked ∧ (m.startCooldown nowNs durationMs).state = .cooldown := by
    cases h : m.state with
    | candidate => exact absurd h hknown
    | idle | setupForming | setupPendingConfirmation | entryReady | entrySent | positionOpen
    | positionManaging | exitPending | cooldown | blocked =>
      rw [hstate, h]
      decide
  have hpend : ∀ t ∈ l.pending, (m.startCooldown nowNs durationMs).state = .entrySent ∧
      (m.startCooldown nowNs durationMs).lastTransitionNs = t ∨ timedOut cfg t nowNs := by
    rw [hpending]
    exact fun t ht => absurd ht (Option.not_mem_none t)
  rcases hcases with ⟨hb, hs⟩ | ⟨hb, hs⟩
  · exact {
      known := by rw [hs]; decide
      waits := fun _ => hblocked hb
      cools := by rw [hs]; exact fun h => absurd h (by decide)
      sent := hpend
      numbered := by rw [hrest.2.2]; exact hnumbered
      unused := by rw [hs]; exact fun h => absurd h (by decide) }
  · exact {
      known := by rw [hs]; decide
      waits := fun h => absurd hs h
      cools := fun _ => ⟨by rw [hend]; exact howed hb, by rw [hrest.1]; exact hsetup⟩
      sent := hpend
      numbered := by rw [hrest.2.2]; exact hnumbered
      unused := by rw [hs]; exact fun h => absurd h (by decide) }

omit [DoubleArith F] in
theorem sound_free (hknown : m.state ≠ .candidate) (hcool : m.state ≠ .cooldown)
    (hforming : forming m.state = false) (howed : l.owedUntil ≤ nowNs)
    (hsent : ∀ t ∈ l.pending, timedOut cfg t nowNs)
    (hnumbered : ∀ id ∈ l.entered, ∃ k ≤ m.setupCounter, id = setupId k) :
    Sound cfg m nowNs l where
  known := hknown
  waits _ := howed
  cools h := absurd h hcool
  sent t ht := Or.inr (hsent t ht)
  numbered := hnumbered
  unused h := absurd h (ne_true_of_eq_false hforming)

end Ledgers

section Steps
variable {l : Ledger} {nowNs : ℤ}

structure Evaluated (l : Ledger) (nowNs : ℤ) (reported : Bool) (e : Engine F)
    (r : Evaluation F) : Prop where
  entitled : ∀ i ∈ entries r, i.setupId ∉ l.entered ∧
    (∀ t ∈ l.pending, timedOut cfg t nowNs) ∧ l.owedUntil ≤ nowNs
  sound : Sound cfg r.engine.machine nowNs (note l r reported nowNs)
  position : r.engine.machine.position.hasPosition = e.machine.position.hasPosition
  quiet : forming e.machine.state = false → entries r = []

variable {e : Engine F}

omit [DoubleArith F] in
theorem evaluated_empty {r : Evaluation F} {reported : Bool} (hr : entries r = [])
    (hs : Sound cfg r.engine.machine nowNs (note l r reported nowNs))
    (hpos : r.engine.machine.position.hasPosition = e.machine.position.hasPosition) :
    Evaluated cfg l nowNs reported e r where
  entitled _ hi := absurd (hr ▸ hi) List.not_mem_nil
  sound := hs
  position := hpos
  quiet _ := hr

omit [DoubleArith F] in
theorem evaluated_quiet {e e' : Engine F} (reported : Bool) (hs : Sound cfg e'.machine nowNs l)
    (hpos : e'.machine.position = e.machine.position) :
    Evaluated cfg l nowNs reported e (quiet e') :=
  evaluated_empty cfg rfl (sound_note reported rfl hs) (congrArg _ hpos)

omit [DoubleArith F] in
theorem preEntry_sound {r : Evaluation F} (h : PreEntry cfg e nowNs r)
    (hn : 0 < nowNs) (hs : Sound cfg e.machine nowNs l) (hcool : e.machine.state ≠ .cooldown)
    (reported : Bool) : Evaluated cfg l nowNs reported e r := by
  have howed := hs.waits hcool
  have hout : forming e.machine.state → ∀ t ∈ l.pending, timedOut cfg t nowNs := by
    intro hf t ht
    refine (hs.sent t ht).resolve_left ?_
    rintro ⟨hsent, -⟩
    rw [hsent] at hf
    exact absurd hf (by decide)
  cases h with
  | kept => exact evaluated_quiet cfg reported hs rfl
  | cancelled =>
    have hrest := startCooldown_rest e.machine.clearSetup nowNs cfg.cooldownAfterFailedSetupMs
    refine evaluated_empty cfg rfl ?_ (congrArg _ hrest.2.1)
    have hnone : (cancelSetup cfg e nowNs).machine.activeSetup.isNone = true := by
      show (e.machine.clearSetup.startCooldown nowNs
        cfg.cooldownAfterFailedSetupMs).activeSetup.isNone = true
      rw [hrest.1]
      rfl
    rw [note_quiet reported rfl, show (quiet (cancelSetup cfg e nowNs)).engine.machine.activeSetup
      = (cancelSetup cfg e nowNs).machine.activeSetup from rfl, hnone, Bool.or_true, if_pos rfl]
    exact sound_cooldown _ hn hs.known rfl rfl hs.numbered (fun _ => howed)
      (fun _ => howed.trans (le_max_right _ _))
  | searched hidle =>
    refine evaluated_quiet cfg reported ?_ rfl
    refine sound_free hs.known hcool ((congrArg forming hidle).trans rfl) howed ?_ ?_
    · intro t ht
      exact (hs.sent t ht).resolve_left (fun hc => absurd (hidle.symm.trans hc.1) (by decide))
    · intro id hid
      obtain ⟨k, hk, hkid⟩ := hs.numbered id hid
      exact ⟨k, hk.trans (Nat.le_succ _), hkid⟩
  | found setup hidle hid =>
    refine evaluated_quiet cfg reported ?_ rfl
    exact {
      known := SymbolState.noConfusion
      waits := fun _ => howed
      cools := SymbolState.noConfusion
      sent := fun t ht => Or.inr
        ((hs.sent t ht).resolve_left (fun hc => absurd (hidle.symm.trans hc.1) (by decide)))
      numbered := fun id hid' => by
        obtain ⟨k, hk, hkid⟩ := hs.numbered id hid'
        exact ⟨k, hk.trans (Nat.le_succ _), hkid⟩
      unused := fun _ => ⟨setup, rfl, by
        intro hmem
        obtain ⟨k, hk, hkid⟩ := hs.numbered _ hmem
        have heq : e.machine.setupCounter + 1 = k := setupId_injective (hid.symm.trans hkid)
        omega, e.machine.setupCounter + 1, le_rfl, hid⟩ }
  | lost hidle hnone =>
    have hrest := transitionTo_rest e.machine nowNs .idle
    refine evaluated_empty cfg rfl ?_ (congrArg _ hrest.2.1)
    have hisNone : (quiet { e with
        machine := e.machine.transitionTo .idle nowNs }).engine.machine.activeSetup.isNone =
          true := by
      show (e.machine.transitionTo .idle nowNs).activeSetup.isNone = true
      rw [hrest.1, hnone]
      rfl
    rw [note_quiet reported rfl, hisNone, Bool.or_true, if_pos rfl]
    show Sound cfg (e.machine.transitionTo .idle nowNs) nowNs _
    unfold StrategyStateMachine.transitionTo
    split_ifs
    · exact sound_free SymbolState.noConfusion SymbolState.noConfusion rfl howed
        (fun t ht => absurd ht (Option.not_mem_none t)) hs.numbered
    · exact sound_resolved hs
  | readied old setup t hforming hold hid =>
    refine evaluated_quiet cfg reported ?_ rfl
    obtain ⟨s, hs', hfresh, k, hk, hkid⟩ := hs.unused hforming
    obtain rfl : s = old := Option.some.inj (hs'.symm.trans hold)
    exact {
      known := SymbolState.noConfusion
      waits := fun _ => howed
      cools := SymbolState.noConfusion
      sent := fun t ht => Or.inr (hout hforming t ht)
      numbered := hs.numbered
      unused := fun _ => ⟨setup, rfl, hid ▸ hfresh, k, hk, hid.trans hkid⟩ }
  | staled old setup hforming hold hid =>
    refine evaluated_quiet cfg reported ?_ rfl
    exact sound_free SymbolState.noConfusion SymbolState.noConfusion rfl (howed)
      (hout hforming) hs.numbered
  | entered old setup intent hforming hold hid hintent hside =>
    obtain ⟨s, hs', hfresh, k, hk, hkid⟩ := hs.unused hforming
    obtain rfl : s = old := Option.some.inj (hs'.symm.trans hold)
    have hone : ∀ e' : Engine F, entries (⟨e', some intent, false⟩ : Evaluation F) = [intent] := by
      intro e'
      simp [entries, hside]
    refine ⟨?_, ?_, rfl, fun hf => absurd hforming (ne_true_of_eq_false hf)⟩
    · intro i hi
      rw [hone] at hi
      rw [List.mem_singleton.mp hi, hintent, hid]
      exact ⟨hfresh, hout hforming, howed⟩
    · exact {
        known := SymbolState.noConfusion
        waits := fun _ => howed
        cools := SymbolState.noConfusion
        sent := by
          intro t ht
          simp only [note, hone] at ht
          exact Or.inl ⟨rfl, Option.some.inj ht⟩
        numbered := by
          intro id hmem
          simp only [note, hone, List.map_cons, List.map_nil] at hmem
          rcases List.mem_append.mp hmem with hold' | hnew
          · exact hs.numbered id hold'
          · rw [List.mem_singleton.mp hnew, hintent, hid]
            exact ⟨k, hk, hkid⟩
        unused := fun hf => absurd hf Bool.false_ne_true }

variable (ctx : StrategyContext F)

theorem handlePosition_sound (hst : Steady e)
    (hp : inPosition e.machine.state) (hs : Sound cfg e.machine nowNs l) (reported : Bool) :
    entries (handlePosition e ctx nowNs) = [] ∧
      Sound cfg (handlePosition e ctx nowNs).engine.machine nowNs
        (note l (handlePosition e ctx nowNs) reported nowNs) ∧
      (handlePosition e ctx nowNs).engine.machine.position.hasPosition =
        e.machine.position.hasPosition := by
  have hne : ∀ s, inPosition s = false → e.machine.state ≠ s := by
    rintro s hs rfl
    exact absurd hp (ne_true_of_eq_false hs)
  obtain ⟨hold, t, hr⟩ := handlePosition_managed e ctx nowNs hp hst.exit
  rw [hr]
  refine ⟨rfl, sound_note reported rfl ?_, rfl⟩
  refine sound_free SymbolState.noConfusion SymbolState.noConfusion rfl
    (hs.waits (hne _ rfl)) ?_ hs.numbered
  exact fun u hu => (hs.sent u hu).resolve_left (fun hc => hne _ rfl hc.1)

theorem route_sound (hst : Steady e) (hn : 0 < nowNs)
    (hs : Sound cfg e.machine nowNs l) (reported : Bool) :
    Evaluated cfg l nowNs reported e (route cfg e ctx nowNs) := by
  have hpre : ∀ e' : Engine F, Sound cfg e'.machine nowNs l → e'.machine.state ≠ .cooldown →
      e'.machine.position = e.machine.position →
      (forming e.machine.state = false → forming e'.machine.state = false) →
      Evaluated cfg l nowNs reported e (handlePreEntry cfg e' ctx nowNs) := by
    intro e' hs' hcool' hpos' hforming'
    have h := preEntry_sound cfg (handlePreEntry_preEntry cfg e' ctx nowNs) hn hs' hcool' reported
    exact ⟨h.entitled, h.sound, by rw [h.position, hpos'], fun hf => h.quiet (hforming' hf)⟩
  have hidle : ∀ m : StrategyStateMachine F, m.state = .idle → m.setupCounter =
      e.machine.setupCounter → e.machine.state ≠ .entrySent → l.owedUntil ≤ nowNs →
      Sound cfg m nowNs l := by
    intro m hm hcounter hsent howed
    refine sound_free (by rw [hm]; decide) (by rw [hm]; decide) (by rw [hm]; rfl) howed ?_
      (by rw [hcounter]; exact hs.numbered)
    exact fun t ht => (hs.sent t ht).resolve_left (fun hc => hsent hc.1)
  cases hstate : e.machine.state with
  | candidate => exact absurd hstate hs.known
  | exitPending => exact absurd hstate hst.state
  | cooldown =>
    simp only [route, hstate, handleCooldown]
    split_ifs with hexpired
    · have hend : e.machine.cooldownEndNs ≤ nowNs := by
        rw [StrategyStateMachine.isCooldownExpired, if_neg (not_le.mpr hn)] at hexpired
        exact of_decide_eq_true hexpired
      have hmove : (e.machine.transitionTo .idle nowNs).state = .idle := by
        rw [transitionTo_state, hstate]
        rfl
      have hrest := transitionTo_rest e.machine nowNs .idle
      refine hpre _ (hidle _ hmove hrest.2.2.2 (by rw [hstate]; decide) ?_)
        (by rw [hmove]; decide) hrest.2.1 (fun _ => by rw [hmove]; rfl)
      exact ((hs.cools hstate).1).trans (max_le hend le_rfl)
    · exact evaluated_quiet cfg reported hs rfl
  | blocked =>
    simp only [route, hstate]
    split_ifs
    · exact evaluated_quiet cfg reported hs rfl
    · have hmove : e.machine.unblock nowNs =
          { e.machine with state := .idle, lastTransitionNs := nowNs } := if_pos hstate
      rw [hmove]
      exact evaluated_quiet cfg reported (hidle _ rfl rfl (by rw [hstate]; decide)
        (hs.waits (by rw [hstate]; decide))) rfl
  | positionOpen | positionManaging =>
    simp only [route, hstate]
    obtain ⟨h1, h2, h3⟩ := handlePosition_sound cfg ctx hst (by rw [hstate]; rfl) hs reported
    exact evaluated_empty cfg h1 h2 h3
  | idle | setupForming | setupPendingConfirmation | entryReady | entrySent =>
    simp only [route, hstate]
    exact hpre e hs (by rw [hstate]; decide) rfl id

omit [DoubleArith F] in
theorem recover_rest (m : StrategyStateMachine F) (ctx : StrategyContext F) :
    (recover m ctx nowNs).activeSetup = none ∧
      (recover m ctx nowNs).cooldownEndNs = m.cooldownEndNs ∧
      (recover m ctx nowNs).setupCounter = m.setupCounter ∧
      (recover m ctx nowNs).position.hasPosition = true := by
  have hrest := transitionTo_rest m nowNs .positionOpen
  refine ⟨rfl, hrest.2.2.1, hrest.2.2.2, ?_⟩
  cases hsetup : (m.transitionTo .positionOpen nowNs).activeSetup with
  | none => simp [recover, hsetup, StrategyStateMachine.clearSetup]
  | some setup => simp [recover, hsetup, StrategyStateMachine.clearSetup]

theorem syncPosition_sound (hs : Sound cfg e.machine nowNs l) :
    Sound cfg (syncPosition e.machine ctx nowNs) nowNs { l with pending := none } ∧
      forming (syncPosition e.machine ctx nowNs).state = false ∧
      ((syncPosition e.machine ctx nowNs).position.hasPosition = e.machine.position.hasPosition ∨
        (syncPosition e.machine ctx nowNs).position.hasPosition = true) := by
  have hupdate := updatePosition_rest e.machine nowNs ctx.features.microstructure.midPrice
    ctx.position.unrealizedPnl
  have hrecord := updatePosition_record e.machine nowNs ctx.features.microstructure.midPrice
    ctx.position.unrealizedPnl
  have hnone : ∀ t ∈ ({ l with pending := none } : Ledger).pending, timedOut cfg t nowNs :=
    fun t ht => absurd ht (Option.not_mem_none t)
  cases hf : held e.machine.state with
  | true =>
    have hne : ∀ s, held s = false → e.machine.state ≠ s := by
      rintro s hs' rfl
      exact absurd hf (ne_true_of_eq_false hs')
    rw [syncPosition_held _ _ _ hf]
    have hforming : forming e.machine.state = false := by
      cases h : e.machine.state with
      | setupForming | setupPendingConfirmation | entryReady => exact absurd h (hne _ rfl)
      | idle | candidate | entrySent | positionOpen | positionManaging | exitPending | cooldown
      | blocked => rfl
    refine ⟨?_, by rw [hupdate.1]; exact hforming, Or.inl hrecord.1⟩
    exact sound_free (by rw [hupdate.1]; exact hs.known) (by rw [hupdate.1]; exact hne _ rfl)
      (by rw [hupdate.1]; exact hforming) (hs.waits (hne _ rfl)) hnone
      (by rw [hupdate.2.2.2.2]; exact hs.numbered)
  | false =>
    rw [syncPosition_free _ _ _ hf]
    have hrest := @recover_rest F nowNs (e.machine.updatePosition
      ctx.features.microstructure.midPrice ctx.position.unrealizedPnl nowNs) ctx
    have hstate := recover_state (e.machine.updatePosition ctx.features.microstructure.midPrice
      ctx.position.unrealizedPnl nowNs) ctx nowNs
    rw [hupdate.1] at hstate
    rw [hupdate.2.2.2.1, hupdate.2.2.2.2] at hrest
    cases hvalid : validTransition e.machine.state .positionOpen with
    | true =>
      rw [hvalid, if_pos rfl] at hstate
      have hcool : e.machine.state ≠ .cooldown := by
        intro hc
        rw [hc] at hvalid
        exact absurd hvalid (by decide)
      exact ⟨sound_free (by rw [hstate]; decide) (by rw [hstate]; decide) (by rw [hstate]; rfl)
        (hs.waits hcool) hnone (by rw [hrest.2.2.1]; exact hs.numbered), by rw [hstate]; rfl,
        Or.inr hrest.2.2.2⟩
    | false =>
      rw [hvalid, if_neg Bool.false_ne_true] at hstate
      have hforming : forming e.machine.state = false := by
        cases h : e.machine.state with
        | setupForming | setupPendingConfirmation | entryReady =>
          rw [h] at hvalid
          exact absurd hvalid (by decide)
        | idle | candidate | entrySent | positionOpen | positionManaging | exitPending | cooldown
        | blocked => rfl
      refine ⟨?_, by rw [hstate]; exact hforming, Or.inr hrest.2.2.2⟩
      exact {
        known := by rw [hstate]; exact hs.known
        waits := by rw [hstate]; exact hs.waits
        cools := by
          rw [hstate, hrest.2.1]
          exact fun h => ⟨(hs.cools h).1, hrest.1⟩
        sent := fun t ht => Or.inr (hnone t ht)
        numbered := by rw [hrest.2.2.1]; exact hs.numbered
        unused := by rw [hstate, hforming]; exact fun h => absurd h Bool.false_ne_true }

omit [DoubleArith F] in
theorem block_sound (clock : ℤ) (ctx : StrategyContext F)
    (hs : Sound cfg e.machine nowNs l) (hu : LockHarmless cfg ⟨e, clock, l⟩ ctx nowNs) :
    Sound cfg (e.machine.block nowNs) nowNs
      (note l (quiet { e with machine := e.machine.block nowNs }) ctx.position.hasPosition
        nowNs) := by
  have howed : l.owedUntil ≤ nowNs := by
    by_cases hc : e.machine.state = .cooldown
    · exact hu.2 hc
    · exact hs.waits hc
  rw [note_quiet _ rfl]
  split_ifs with hresolved
  · exact sound_free SymbolState.noConfusion SymbolState.noConfusion rfl howed
      (fun t ht => absurd ht (Option.not_mem_none t)) hs.numbered
  · refine sound_free SymbolState.noConfusion SymbolState.noConfusion rfl howed ?_ hs.numbered
    intro t ht
    rcases hs.sent t ht with ⟨hsent, hlast⟩ | hout
    · rcases hu.1 hsent with hreported | hout
      · exact absurd (by rw [hreported]; rfl) hresolved
      · exact hlast ▸ hout
    · exact hout

omit [DoubleArith F] in
theorem close_sound (m : StrategyStateMachine F) (e : Engine F) (clock durationMs : ℤ)
    (hn : 0 < nowNs) (hs : Sound cfg e.machine nowNs l)
    (hu : Effective ⟨e, clock, l⟩ nowNs durationMs)
    (hstate : m.state = .cooldown ∨ m.state = e.machine.state)
    (hsetup : m.activeSetup = none) (hcounter : m.setupCounter = e.machine.setupCounter) :
    Sound cfg (m.startCooldown nowNs durationMs) nowNs (owe l nowNs durationMs) := by
  have hne : ∀ s, s ≠ .cooldown → e.machine.state ≠ s → m.state ≠ s := by
    rintro s hs' hes rfl
    exact hstate.elim hs' (fun h => hes h.symm)
  refine sound_cooldown durationMs hn (hne _ SymbolState.noConfusion hs.known) hsetup rfl
    (by rw [hcounter]; exact hs.numbered)
    (fun hb => absurd hb (hne _ SymbolState.noConfusion hu.1)) (fun _ => ?_)
  refine max_le ?_ (le_max_left _ _)
  by_cases hc : e.machine.state = .cooldown
  · exact (hu.2 hc).trans (max_comm _ _).le
  · exact (hs.waits hc).trans (le_max_right _ _)

omit [DoubleArith F] in
theorem cancel_sound (hn : 0 < nowNs) (hs : Sound cfg e.machine nowNs l)
    (hsetup : e.machine.activeSetup.isSome) (reported : Bool) :
    Sound cfg (cancelSetup cfg e nowNs).machine nowNs
        (note l (quiet (cancelSetup cfg e nowNs)) reported nowNs) ∧
      (cancelSetup cfg e nowNs).machine.position.hasPosition =
        e.machine.position.hasPosition := by
  have hcool : e.machine.state ≠ .cooldown := by
    intro hc
    rw [(hs.cools hc).2] at hsetup
    exact absurd hsetup Bool.false_ne_true
  have h := preEntry_sound cfg (.cancelled hsetup) hn hs hcool reported
  exact ⟨h.sound, h.position⟩

/-- What an evaluation enters is new and made without a position; the ledger stays sound. -/
theorem evaluate_sound (clock : ℤ) (ctx : StrategyContext F) (hst : Steady e)
    (hn : 0 < nowNs) (hs : Sound cfg e.machine nowNs l)
    (hu : Undisturbed cfg ⟨e, clock, l⟩ (.evaluate nowNs ctx)) :
    Orderly cfg ⟨e, clock, l⟩ (.evaluate nowNs ctx) ∧
      Sound cfg (evaluate cfg e ctx nowNs).engine.machine nowNs
        (afterEvaluation cfg e ctx nowNs l) := by
  -- an evaluation that clears no record of a position leaves what `note` leaves
  have hkept : ∀ r, evaluate cfg e ctx nowNs = r →
      (r.engine.machine.position.hasPosition = e.machine.position.hasPosition ∨
        r.engine.machine.position.hasPosition = true) →
      (∀ i ∈ entries r, i.setupId ∉ l.entered ∧ ctx.position.hasPosition = false ∧
        (∀ t ∈ l.pending, timedOut cfg t nowNs) ∧ l.owedUntil ≤ nowNs) →
      Sound cfg r.engine.machine nowNs (note l r ctx.position.hasPosition nowNs) →
      Orderly cfg ⟨e, clock, l⟩ (.evaluate nowNs ctx) ∧
        Sound cfg (evaluate cfg e ctx nowNs).engine.machine nowNs
          (afterEvaluation cfg e ctx nowNs l) := by
    rintro r rfl hposition hentries hsound
    refine ⟨hentries, ?_⟩
    have hno : (e.machine.position.hasPosition &&
        !(evaluate cfg e ctx nowNs).engine.machine.position.hasPosition) = false := by
      rcases hposition with h | h
      · rw [h, Bool.and_not_self]
      · rw [h, Bool.not_true, Bool.and_false]
    simp only [afterEvaluation, hno]
    exact hsound
  have hnone : ∀ i ∈ ([] : List (StrategyIntent F)), i.setupId ∉ l.entered ∧
      ctx.position.hasPosition = false ∧ (∀ t ∈ l.pending, timedOut cfg t nowNs) ∧
      l.owedUntil ≤ nowNs := fun i hi => absurd hi List.not_mem_nil
  have hsame : ∀ i, entries (⟨e, i, false⟩ : Evaluation F) = [] →
      evaluate cfg e ctx nowNs = ⟨e, i, false⟩ → _ :=
    fun i hi hr => hkept _ hr (Or.inl rfl) (hi ▸ hnone) (sound_note _ hi hs)
  cases hhalt : ctx.risk.emergencyHalt with
  | true =>
    refine hsame (haltIntent e ctx nowNs) ?_ (by simp [evaluate, hst.active, hhalt])
    unfold haltIntent
    split_ifs
    · rfl
    · rfl
  | false =>
    by_cases hlock : ((ctx.risk.dayLocked || ctx.risk.symbolLocked) &&
        !inPosition e.machine.state) = true
    · have hlocked := (Bool.and_eq_true _ _ ▸ hlock).1
      have hharmless := hu hhalt
      rw [if_pos hlocked] at hharmless
      refine hkept (quiet { e with machine := e.machine.block nowNs })
        (by simp only [evaluate, hst.active, hhalt, hlock]; rfl) (Or.inl rfl) hnone ?_
      exact block_sound cfg clock ctx hs hharmless
    by_cases hstale : (!ctx.dataFresh || !ctx.exchangeOk) = true
    · cases hp : inPosition e.machine.state with
      | true =>
        obtain ⟨h1, h2, h3⟩ := handlePosition_sound cfg ctx hst hp hs ctx.position.hasPosition
        exact hkept _ (by simp only [evaluate, hst.active, hhalt, hstale, hp]; simp) (Or.inl h3)
          (h1 ▸ hnone) h2
      | false =>
        rw [hp] at hlock
        cases hsetup : e.machine.activeSetup.isSome with
        | true =>
          obtain ⟨h1, h2⟩ := cancel_sound cfg hn hs hsetup ctx.position.hasPosition
          exact hkept (quiet (cancelSetup cfg e nowNs))
            (by simp only [evaluate, hst.active, hhalt, hlock, hstale, hp, hsetup]; simp)
            (Or.inl h2) hnone h1
        | false =>
          exact hsame none rfl
            (by simp only [evaluate, hst.active, hhalt, hlock, hstale, hp, hsetup]; simp [quiet])
    by_cases henabled : ctx.isStrategyEnabled = true
    swap
    · refine hsame none rfl ?_
      simp only [evaluate, hst.active, hhalt, hlock, hstale]
      simp [henabled, quiet]
    -- past the gates
    cases hposition : ctx.position.hasPosition with
    | true =>
      have hroute : evaluate cfg e ctx nowNs =
          route cfg { e with machine := syncPosition e.machine ctx nowNs } ctx nowNs := by
        simp only [evaluate, hst.active, hhalt, hlock, hstale, henabled, hposition]
        simp
      obtain ⟨h1, h2, h3⟩ := syncPosition_sound cfg ctx hs
      have h4 := route_sound cfg ctx (syncPosition_steady ctx nowNs hst) hn h1 true
      have hempty := h4.quiet h2
      have h5 := h4.sound
      rw [note_quiet _ hempty, Bool.true_or, if_pos rfl] at h5
      refine hkept _ hroute (h4.position ▸ h3) (hempty ▸ hposition ▸ hnone) ?_
      rw [note_quiet _ hempty, hposition, Bool.true_or, if_pos rfl]
      exact h5
    | false =>
      cases hrecord : e.machine.position.hasPosition with
      | true =>
        have hclose : evaluate cfg e ctx nowNs = quiet (closeDetected cfg e nowNs) := by
          simp only [evaluate, hst.active, hhalt, hlock, hstale, henabled, hposition, hrecord]
          simp
        have hrest := startCooldown_rest e.machine.closePosition.clearSetup nowNs
          (exitCooldownMs cfg e.consecutiveLosses)
        have hcleared : (e.machine.position.hasPosition &&
            !(evaluate cfg e ctx nowNs).engine.machine.position.hasPosition) = true := by
          rw [hclose, hrecord, show (quiet (closeDetected cfg e nowNs)).engine.machine.position =
            noPositionContext from hrest.2.1]
          rfl
        have howe : afterEvaluation cfg e ctx nowNs l =
            owe l nowNs (exitCooldownMs cfg e.consecutiveLosses) := by
          simp only [afterEvaluation, hcleared, if_true]
          rw [hclose, note_quiet _ rfl]
          split_ifs <;> rfl
        have heffective : Effective ⟨e, clock, l⟩ nowNs
            (exitCooldownMs cfg e.consecutiveLosses) := by
          by_cases hlocked : (ctx.risk.dayLocked || ctx.risk.symbolLocked) = true
          · rw [hlocked, Bool.true_and] at hlock
            have hp : inPosition e.machine.state = true := by simpa using hlock
            refine ⟨fun h => ?_, fun h => ?_⟩
            · rw [show e.machine.state = .blocked from h] at hp
              exact absurd hp (by decide)
            · rw [show e.machine.state = .cooldown from h] at hp
              exact absurd hp (by decide)
          · have h := hu hhalt
            rw [if_neg hlocked] at h
            simp only [Bool.or_eq_true, Bool.not_eq_true', not_or, Bool.not_eq_false] at hstale
            exact h ⟨hstale.1, hstale.2, henabled, hrecord, hposition⟩
        refine ⟨by simp only [Orderly, hclose]; exact fun i hi => absurd hi List.not_mem_nil, ?_⟩
        rw [hclose, howe]
        exact close_sound cfg _ e clock _ hn hs heffective (Or.inr rfl) rfl rfl
      | false =>
        have hroute : evaluate cfg e ctx nowNs = route cfg e ctx nowNs := by
          simp only [evaluate, hst.active, hhalt, hlock, hstale, henabled, hposition, hrecord]
          simp
        have h := route_sound cfg ctx hst hn hs false
        exact hkept _ hroute (Or.inl h.position)
          (fun i hi => ⟨(h.entitled i hi).1, hposition, (h.entitled i hi).2⟩) (hposition ▸ h.sound)

theorem opened_sound (entryPrice size : F) (side : Side) (posSide : PositionSide)
    (hs : Sound cfg e.machine nowNs l) :
    Sound cfg (notifyPositionOpened cfg e entryPrice size side posSide nowNs).machine nowNs
      { l with pending := none } := by
  obtain ⟨m, hm, hstate, hsetup, hend, hcounter⟩ : ∃ m : StrategyStateMachine F,
      (notifyPositionOpened cfg e entryPrice size side posSide nowNs).machine =
        m.transitionTo .positionOpen nowNs ∧ m.state = e.machine.state ∧
      m.activeSetup = e.machine.activeSetup ∧ m.cooldownEndNs = e.machine.cooldownEndNs ∧
      m.setupCounter = e.machine.setupCounter := ⟨_, rfl, rfl, rfl, rfl, rfl⟩
  have hrest := transitionTo_rest m nowNs .positionOpen
  have hmove := transitionTo_state m nowNs .positionOpen
  have hnone : ∀ t ∈ ({ l with pending := none } : Ledger).pending, timedOut cfg t nowNs :=
    fun t ht => absurd ht (Option.not_mem_none t)
  have hnumbered : ∀ id ∈ l.entered,
      ∃ k ≤ (m.transitionTo .positionOpen nowNs).setupCounter, id = setupId k := by
    rw [hrest.2.2.2, hcounter]
    exact hs.numbered
  rw [hm]
  cases hvalid : validTransition m.state .positionOpen with
  | true =>
    rw [hvalid, if_pos rfl] at hmove
    have hcool : e.machine.state ≠ .cooldown := by
      intro hc
      rw [hstate, hc] at hvalid
      exact absurd hvalid (by decide)
    exact sound_free (by rw [hmove]; decide) (by rw [hmove]; decide) (by rw [hmove]; rfl)
      (hs.waits hcool) hnone hnumbered
  | false =>
    rw [hvalid, if_neg Bool.false_ne_true, hstate] at hmove
    exact {
      known := by rw [hmove]; exact hs.known
      waits := by rw [hmove]; exact hs.waits
      cools := by rw [hmove, hrest.2.2.1, hend, hrest.1, hsetup]; exact hs.cools
      sent := fun t ht => Or.inr (hnone t ht)
      numbered := hnumbered
      unused := by rw [hmove, hrest.1, hsetup, hrest.2.2.2, hcounter]; exact hs.unused }

def Invariant (w : World F) : Prop :=
  Steady w.engine ∧ Sound cfg w.engine.machine w.clock w.ledger

theorem invariant_start : Invariant cfg (start : World F) :=
  ⟨steady_start, sound_free SymbolState.noConfusion SymbolState.noConfusion rfl le_rfl
    (fun t ht => absurd ht (Option.not_mem_none t)) (fun _ hid => absurd hid List.not_mem_nil)⟩

theorem invariant_step (w : World F) (op : StrategyOp F) (h : Invariant cfg w)
    (hc : InOrder w op ∧ Undisturbed cfg w op) :
    Invariant cfg (worldStep cfg w op) ∧ Orderly cfg w op := by
  obtain ⟨hst, hs⟩ := h
  obtain ⟨⟨hclock, hn⟩, hu⟩ := hc
  replace hs := sound_later hs hclock
  have hsteady : Steady (worldStep cfg w op).engine := steady_step cfg w.engine op hst
  cases op with
  | evaluate nowNs ctx =>
    obtain ⟨horderly, hsound⟩ := evaluate_sound cfg w.clock ctx hst hn hs hu
    exact ⟨⟨hsteady, hsound⟩, horderly⟩
  | notifyPositionOpened nowNs entryPrice size side posSide =>
    exact ⟨⟨hsteady, opened_sound cfg entryPrice size side posSide hs⟩, trivial⟩
  | notifyPositionClosed nowNs pnl =>
    exact ⟨⟨hsteady, close_sound cfg w.engine.machine.closePosition.clearSetup w.engine w.clock _
      hn hs hu (Or.inr rfl) rfl rfl⟩, trivial⟩
  | notifyEntryRejected nowNs =>
    -- the cooldown of the cancelled setup gives way to that of the rejection
    have hrest := startCooldown_rest w.engine.machine.clearSetup nowNs
      cfg.cooldownAfterFailedSetupMs
    have hor := startCooldown_or w.engine.machine.clearSetup nowNs cfg.cooldownAfterFailedSetupMs
    exact ⟨⟨hsteady, close_sound cfg (cancelSetup cfg w.engine nowNs).machine w.engine w.clock _
      hn hs hu hor hrest.1 hrest.2.2⟩, trivial⟩
  | reset => exact absurd hu id

end Steps

/-- In every run without a reset and with a clock that does not go back, where no lock
comes while an entry waits or an owed cooldown runs, and every cooldown that starts takes
effect, the entries are orderly. -/
theorem entries_orderly (ops : List (StrategyOp F))
    (hclock : Meets (worldStep cfg) InOrder start ops)
    (hundisturbed : Meets (worldStep cfg) (Undisturbed cfg) start ops) :
    Meets (worldStep cfg) (Orderly cfg) start ops :=
  meets_of_invariant (worldStep cfg) (fun w op h hc => (invariant_step cfg w op h hc).1)
    (fun w op h hc => (invariant_step cfg w op h hc).2) start ops (invariant_start cfg)
    (meets_and (worldStep cfg) start ops hclock hundisturbed)

def risingContext (dayLocked : Bool) : StrategyContext F where
  features := {
    defaultFeatures "BTCUSDT" with
    technical := {
      defaultTechnical with
      adx := 30.0
      adxValid := true
      momentum5 := 0.005
      momentumValid := true
      atr14 := 1.0
      atrValid := true
      supertrendTrend := 1
      supertrendValid := true }
    microstructure := {
      defaultMicrostructure with
      spread := 0.02
      spreadBps := 2.0
      spreadValid := true
      bookImbalance5 := 0.4
      bookImbalanceValid := true
      midPrice := 100.0
      buySellRatio := 1.5
      bidDepth5Notional := 10000.0
      askDepth5Notional := 10000.0 }
    executionContext := ⟨0.0, true⟩ }
  regime := .trending
  worldState := .stable
  uncertainty := .low
  isStrategyEnabled := true
  futuresEnabled := true
  htfTrendDirection := 1
  htfTrendStrength := 0.3
  position := ⟨false, .buy, .long, 0.0, 0.0, 0.0, 0⟩
  risk := ⟨dayLocked, false, false⟩
  dataFresh := true
  exchangeOk := true

/-- After a rejection and its cooldown a second setup is entered. -/
theorem entries_orderly_rejected :
    Meets (worldStep (defaultScalpConfig (F := ℚ))) (Orderly defaultScalpConfig) start
      [.evaluate 1000000000 (risingContext false), .evaluate 1300000000 (risingContext false),
        .notifyEntryRejected 1400000000, .evaluate 40000000000 (risingContext false),
        .evaluate 40300000000 (risingContext false)] ∧
      (run (worldStep (defaultScalpConfig (F := ℚ))) start
        [.evaluate 1000000000 (risingContext false), .evaluate 1300000000 (risingContext false),
          .notifyEntryRejected 1400000000, .evaluate 40000000000 (risingContext false),
          .evaluate 40300000000 (risingContext false)]).ledger.entered =
            ["setup_1", "setup_2"] :=
  ⟨entries_orderly _ _ (by decide +kernel) (by decide +kernel), by decide +kernel⟩

/-- A lock of a tenth of a second after an entry is enough for a second entry, half a
second later. -/
theorem lock_forgets_entry :
    ¬ ∀ (cfg : ScalpStrategyConfig ℚ) (ops : List (StrategyOp ℚ)),
      Meets (worldStep cfg) InOrder start ops → Meets (worldStep cfg) (Orderly cfg) start ops := by
  intro h
  have hrun := h defaultScalpConfig
    [.evaluate 1000000000 (risingContext false), .evaluate 1300000000 (risingContext false),
      .evaluate 1400000000 (risingContext true), .evaluate 1500000000 (risingContext false),
      .evaluate 1600000000 (risingContext false), .evaluate 1900000000 (risingContext false)]
    (by decide +kernel)
  exact absurd hrun (by decide +kernel)

end TB.StrategyEntries
