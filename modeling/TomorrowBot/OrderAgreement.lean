import TomorrowBot.EngineBirths

/-!
# Record and state machine agree

An order's state is stored in its record and in its state machine. Every
operation writes both alike, except the application of a trade, which ignores
the answer of the state machine. The two agree throughout a run exactly when
the machine can follow every trade the run applies.
-/

set_option autoImplicit false

namespace TB.OrderAgreement
open TB.CommonTypes TB.PortfolioEngine TB.OrderTypes TB.Orders TB.FillProcessor
open TB.ExecutionPlanner TB.ExecutionEngine TB.OrderLife
open TB.LifeSteps
open TB.EngineSimulation TB.EngineBirths

section Histories

def isForced (t : OrderTransition) : Prop := "[FORCED] ".toList <+: t.reason.toList

inductive Path : OrderState → List OrderTransition → OrderState → Prop where
  | stay (s : OrderState) : Path s [] s
  | step (t : OrderTransition) (rest : List OrderTransition) (last : OrderState) :
      isValidTransition t.source t.target = true ∨ isForced t → Path t.target rest last →
      Path t.source (t::rest) last

theorem path_append {a b c : OrderState} {ts us : List OrderTransition} (h : Path a ts b)
    (k : Path b us c) : Path a (ts ++ us) c := by
  induction h with
  | stay s => exact k
  | step t rest last hok _ ih => exact .step t (rest ++ us) c hok (ih k)

theorem path_terminal {a b : OrderState} {ts : List OrderTransition} (h : Path a ts b)
    (ha : isTerminal a = true) (hne : b ≠ a) :
    ∃ t rest, ts = t::rest ∧ t.source = a ∧ isForced t := by
  cases h with
  | stay => exact absurd rfl hne
  | step t rest last hok _ =>
    refine ⟨t, rest, rfl, rfl, ?_⟩
    rcases hok with hvalid | hforced
    · rw [terminal_refuses _ _ ha] at hvalid
      exact absurd hvalid (by simp)
    · exact hforced

end Histories

variable {F : Type}

def Agree (l : Life F) : Prop :=
  ∀ order, l.record = some order → l.fsm.map (fun fsm => fsm.state) = some order.state

def Continues (l m : Life F) : Prop :=
  ∀ fsm', m.fsm = some fsm' → ∃ fsm more, l.fsm = some fsm ∧
    fsm'.history = fsm.history ++ more ∧ Path fsm.state more fsm'.state

structure Lawful (l m : Life F) : Prop where
  agree : Agree l → Agree m
  history : Continues l m

theorem lawful_refl (l : Life F) : Lawful l l where
  agree h := h
  history fsm h := ⟨fsm, [], h, (List.append_nil _).symm, .stay _⟩

theorem continues_trans {l m n : Life F} (h : Continues l m) (k : Continues m n) :
    Continues l n := by
  intro fsm'' hf''
  obtain ⟨fsm', more', hf', hh', hp'⟩ := k fsm'' hf''
  obtain ⟨fsm, more, hf, hh, hp⟩ := h fsm' hf'
  refine ⟨fsm, more ++ more', hf, ?_, path_append hp hp'⟩
  rw [hh', hh, List.append_assoc]

theorem lawful_trans {l m n : Life F} (h : Lawful l m) (k : Lawful m n) : Lawful l n where
  agree := k.agree ∘ h.agree
  history := continues_trans h.history k.history

variable (l m : Life F)

/-- A step that leaves the machine alone and gives the record no other state. -/
theorem lawful_kept (hf : m.fsm = l.fsm)
    (hr : ∀ order', m.record = some order' → ∃ order, l.record = some order ∧
      order'.state = order.state) : Lawful l m where
  agree h := by
    intro order' ho'
    obtain ⟨order, ho, hs⟩ := hr order' ho'
    rw [hf, hs]
    exact h order ho
  history := by
    intro fsm h
    exact ⟨fsm, [], hf ▸ h, (List.append_nil _).symm, .stay _⟩

theorem lawful_same (hf : m.fsm = l.fsm) (hr : m.record = l.record) : Lawful l m :=
  lawful_kept l m hf (fun order h => ⟨order, hr ▸ h, rfl⟩)

theorem lawful_recorded (fsm : OrderFsm) (clock : Clock) (target : OrderState)
    (reason : String) (hf : l.fsm = some fsm)
    (hok : isValidTransition fsm.state target = true ∨ "[FORCED] ".toList <+: reason.toList)
    (hm : m.fsm = some (OrderFsm.record fsm clock target reason))
    (hr : m.record = l.record.map (setState clock target)) : Lawful l m where
  agree _ := by
    intro order' ho'
    rw [hr] at ho'
    obtain ⟨order, -, rfl⟩ := Option.map_eq_some_iff.mp ho'
    rw [hm]
    rfl
  history := by
    intro fsm' hf'
    rw [hm, Option.some.injEq] at hf'
    subst hf'
    exact ⟨fsm, [⟨fsm.state, target, reason, clock.wall⟩], hf, rfl,
      .step ⟨fsm.state, target, reason, clock.wall⟩ [] target hok (.stay target)⟩

theorem lawful_force (clock : Clock) (target : OrderState) (reason : String) (l : Life F) :
    Lawful l (force clock target reason l) := by
  unfold force
  cases hf : l.fsm with
  | none => exact lawful_refl l
  | some fsm =>
    apply lawful_recorded l _ fsm clock target ("[FORCED] " ++ reason) hf _ rfl rfl
    right
    rw [String.toList_append]
    exact List.prefix_append _ _

theorem lawful_steps : KeptBySteps (@Lawful F) where
  refl := lawful_refl
  trans := lawful_trans
  move := by
    intro clock target reason l m h
    obtain ⟨fsm, hf, hvalid, rfl⟩ := move_some h
    exact lawful_recorded l _ fsm clock target reason hf (.inl hvalid) rfl rfl
  force := lawful_force
  releaseFor := by
    intro order l
    unfold releaseFor
    split_ifs
    · exact lawful_same l _ rfl rfl
    · exact lawful_refl l
  same := lawful_same
  put := by
    intro l order halike
    apply lawful_kept l (put order l) rfl
    intro order' ho'
    obtain ⟨x, hx, rfl⟩ := Option.map_eq_some_iff.mp ho'
    exact ⟨x, hx, (halike x hx).state⟩
  cleared := by
    intro l m hr hf
    constructor
    · intro _ order' ho'
      rw [hr] at ho'
      exact absurd ho' (by simp)
    · intro fsm' hf'
      rw [hf] at hf'
      exact absurd hf' (by simp)

section Trades
variable [DoubleArith F]

def tradeTarget (order : OrderRecord F) (fill : FillEvent F) : OrderState :=
  fillTarget order (order.filledQuantity + fill.fillQuantity)

def CanFollow (fill : FillEvent F) (l : Life F) : Prop :=
  ∀ order fsm, l.record = some order → l.fsm = some fsm →
    fsm.state = tradeTarget order fill ∨ isValidTransition fsm.state (tradeTarget order fill) = true

variable (clock : Clock) (order : OrderRecord F) (fill : FillEvent F)

/-- The machine takes the state of the trade only if it is valid. -/
theorem trade_fsm (l : Life F) :
    (trade clock order fill l).fsm = (tryMove clock (tradeTarget order fill)
      (fillReason order (order.filledQuantity + fill.fillQuantity)) l).fsm := by
  unfold trade
  dsimp only
  split_ifs
  all_goals rfl

theorem continues_trade (l : Life F) : Continues l (trade clock order fill l) := by
  intro fsm' hf'
  rw [trade_fsm] at hf'
  exact (lawful_steps.tryMove clock _ _ l).history fsm' hf'

theorem stuck_uncancellable (s : OrderState) (hne : s ≠ .partiallyFilled)
    (h : isValidTransition s .partiallyFilled = false) :
    isValidTransition s .cancelPending = false := by
  cases s <;> first | rfl | exact absurd rfl hne | exact absurd h (by decide)

theorem trade_agree_iff (l : Life F) (hrec : l.record = some order) (h : Agree l) :
    Agree (trade clock order fill l) ↔ CanFollow fill l := by
  have hrecord := trade_record clock order fill l hrec
  have hfsm := trade_fsm clock order fill l
  obtain ⟨fsm, hf, hs⟩ := Option.map_eq_some_iff.mp (h order hrec)
  have hagree : Agree (trade clock order fill l) ↔ (tryMove clock (tradeTarget order fill)
      (fillReason order (order.filledQuantity + fill.fillQuantity)) l).fsm.map
        (fun fsm => fsm.state) = some (tradeTarget order fill) := by
    unfold Agree
    rw [hrecord, hfsm]
    simp only [Option.some.injEq, forall_eq']
    rfl
  have hfollow : CanFollow fill l ↔ fsm.state = tradeTarget order fill ∨
      isValidTransition fsm.state (tradeTarget order fill) = true := by
    constructor
    · intro hc
      exact hc order fsm hrec hf
    · intro hc o g ho hg
      rw [hrec, Option.some.injEq] at ho
      rw [hf, Option.some.injEq] at hg
      rw [← ho, ← hg]
      exact hc
  rw [hagree, hfollow]
  by_cases hvalid : isValidTransition fsm.state (tradeTarget order fill) = true
  · simp [tryMove, move, hf, OrderFsm.transition, hvalid, OrderFsm.record]
  · simp [tryMove, move, hf, OrderFsm.transition, hvalid]

theorem stuck_remainder (confirmed : Bool) (l : Life F) (order : OrderRecord F)
    (fsm : OrderFsm) (hrec : l.record = some order) (hf : l.fsm = some fsm)
    (hne : fsm.state ≠ order.state) (h : isValidTransition fsm.state order.state = false) :
    remainder clock confirmed l = l := by
  unfold remainder
  rw [hrec]
  dsimp only
  split_ifs with hwants
  · rw [hwants.2.1] at hne h
    have hmove : move clock .cancelPending "Cancel requested" l = none := by
      simp [move, hf, OrderFsm.transition, stuck_uncancellable fsm.state hne h]
    unfold cancel
    rw [hrec, hmove]
  · rfl

theorem event_agree_iff (accepted confirmed : Bool) (l : Life F) (h : Agree l) :
    Agree (event clock fill accepted confirmed l) ↔ (accepted = true → CanFollow fill l) := by
  unfold event
  cases hrec : l.record with
  | none =>
    refine iff_of_true h (fun _ order fsm ho => ?_)
    rw [hrec] at ho
    exact absurd ho (by simp)
  | some order =>
    cases accepted with
    | false =>
      exact iff_of_true ((lawful_steps.remainder clock confirmed l).agree h)
        (fun h => absurd h (by simp))
    | true =>
      simp only [if_true, true_implies]
      constructor
      · intro hafter o fsm ho hf
        rw [hrec, Option.some.injEq] at ho
        subst ho
        by_contra hstuck
        rw [not_or, Bool.not_eq_true] at hstuck
        -- A machine that cannot follow stays where it is, and the policy does nothing.
        have hrecord := trade_record clock order fill l hrec
        have hkept : (trade clock order fill l).fsm = some fsm := by
          rw [trade_fsm]
          simp [tryMove, move, hf, OrderFsm.transition, hstuck.2]
        rw [stuck_remainder clock confirmed _ _ fsm hrecord hkept hstuck.1 hstuck.2] at hafter
        rcases (trade_agree_iff clock order fill l hrec h).mp hafter order fsm hrec hf with he | hv
        · exact hstuck.1 he
        · rw [hstuck.2] at hv
          exact absurd hv (by simp)
      · intro hfollow
        exact (lawful_steps.remainder clock confirmed _).agree
          ((trade_agree_iff clock order fill l hrec h).mpr hfollow)

end Trades

section Engine
variable [DoubleArith F]

def Followed (l : Life F) : LifeOp F → Prop
  | .traded fill accepted _ => accepted = true → CanFollow fill l
  | _ => True

theorem lifeStep_agree_iff (clock : Clock) (l : Life F) (op : LifeOp F) (h : Agree l) :
    Agree (lifeStep clock l op) ↔ Followed l op := by
  cases op with
  | traded fill accepted confirmed => exact event_agree_iff clock fill accepted confirmed l h
  | skip => exact iff_of_true h trivial
  | confirmed a answer =>
    exact iff_of_true ((lawful_steps.confirmation clock a answer l).agree h) trivial
  | updated newState qty price direct confirmed =>
    exact iff_of_true
      ((lawful_steps.update clock newState qty price direct confirmed l).agree h) trivial
  | cancel confirmed => exact iff_of_true ((lawful_steps.cancel clock confirmed l).agree h) trivial
  | expire maxAge => exact iff_of_true ((lawful_steps.expire clock maxAge l).agree h) trivial
  | reconcile timeoutMs detail confirmed =>
    exact iff_of_true ((lawful_steps.toKeptByRecovery.reconcile clock timeoutMs detail confirmed l).agree h) trivial

theorem lifeStep_continues (clock : Clock) (l : Life F) (op : LifeOp F) :
    Continues l (lifeStep clock l op) := by
  cases op with
  | skip => exact (lawful_steps.refl l).history
  | confirmed a answer => exact (lawful_steps.confirmation clock a answer l).history
  | updated newState qty price direct confirmed =>
    exact (lawful_steps.update clock newState qty price direct confirmed l).history
  | cancel confirmed => exact (lawful_steps.cancel clock confirmed l).history
  | expire maxAge => exact (lawful_steps.expire clock maxAge l).history
  | reconcile timeoutMs detail confirmed =>
    exact (lawful_steps.toKeptByRecovery.reconcile clock timeoutMs detail confirmed l).history
  | traded fill accepted confirmed =>
    simp only [lifeStep, event]
    cases hrec : l.record with
    | none => exact (lawful_steps.refl l).history
    | some order =>
      dsimp only
      split_ifs
      · exact continues_trans (continues_trade clock order fill l)
          (lawful_steps.remainder clock confirmed _).history
      · exact (lawful_steps.remainder clock confirmed l).history

def Agreement (e : Engine F) : Prop :=
  ∀ id order, getOrder e.core.registry id = some order →
    fsmState e.core.registry id = some order.state

def LeftByForce (e e' : Engine F) : Prop :=
  ∀ id order order', getOrder e.core.registry id = some order →
    getOrder e'.core.registry id = some order' → isTerminal order.state = true →
    order'.state ≠ order.state →
    ∃ fsm fsm' t rest, e.core.registry.fsms.lookup id = some fsm ∧
      e'.core.registry.fsms.lookup id = some fsm' ∧ fsm'.history = fsm.history ++ t::rest ∧
      t.source = order.state ∧ isForced t

def TradeFollowed (e : Engine F) : EngineOp F → Prop
  | .onFillEvent fill _ =>
      tradeAccepted e.core.registry fill = true → ∀ id order,
        resolveOrder e.core.registry fill.orderId = some (id, order) →
        CanFollow fill (life e.core id)
  | _ => True

variable (e : Engine F) (op : EngineOp F)

theorem followed_iff : (∀ id, Followed (life e.core id) (opOn e op id)) ↔ TradeFollowed e op := by
  constructor
  · intro h
    cases op with
    | onFillEvent fill answers =>
      intro haccepted id order hres
      have hid := h id
      simp only [opOn, (names_iff e.core fill.orderId id).mpr ⟨order, hres⟩, if_true] at hid
      exact hid haccepted
    | _ => trivial
  · intro h id
    have hsource := opOn_source e op id
    generalize opOn e op id = step at hsource ⊢
    cases hsource with
    | traded fill answers hnames =>
      intro haccepted
      obtain ⟨order, hres⟩ := (names_iff e.core fill.orderId id).mp hnames
      exact h haccepted id order hres
    | _ => trivial

theorem born_agree (id : OrderId) (side : TradeSide) (l : Life F) (h : Born id side l) :
    Agree l := by
  obtain ⟨order, fsm, hrec, hfsm, -, hstate, -⟩ := h.placed
  intro o ho
  rw [hrec, Option.some.injEq] at ho
  rw [hfsm, ← ho, hstate]
  rfl

/-- One operation keeps the agreement exactly when the machines can follow the
trade it applies. -/
theorem step_agreement_iff (hs : Sound e) (h : Agreement e) :
    Agreement (engineStep e op) ↔ TradeFollowed e op := by
  rw [← followed_iff]
  have hlives : ∀ id, Agree (life e.core id) := h
  constructor
  · intro hafter id
    rcases step_life e op hs id with hstep | ⟨hunborn, side, hborn⟩
    · rw [← lifeStep_agree_iff e.core.clock _ _ (hlives id), ← hstep]
      exact hafter id
    · rw [hunborn]
      cases opOn e op id with
      | traded fill accepted confirmed => exact fun _ order fsm ho => absurd ho (by simp [unborn])
      | _ => trivial
  · intro hfollowed id
    rcases step_life e op hs id with hstep | ⟨-, side, hborn⟩
    · have hagree := (lifeStep_agree_iff e.core.clock _ _ (hlives id)).mpr (hfollowed id)
      rw [← hstep] at hagree
      exact hagree
    · exact born_agree id side _ hborn

theorem step_leftByForce (hs : Sound e) (h : Agreement e)
    (hafter : Agreement (engineStep e op)) : LeftByForce e (engineStep e op) := by
  intro id order order' hrec hrec' hend hne
  rcases step_life e op hs id with hstep | ⟨hunborn, -⟩
  · obtain ⟨fsm', hfsm', hstate'⟩ := Option.map_eq_some_iff.mp (hafter id order' hrec')
    have hcontinues := lifeStep_continues e.core.clock (life e.core id) (opOn e op id)
    rw [← hstep] at hcontinues
    obtain ⟨fsm, more, hfsm, hhistory, hpath⟩ := hcontinues fsm' hfsm'
    have hstate : fsm.state = order.state := by
      have := h id order hrec
      rw [fsmState, show e.core.registry.fsms.lookup id = some fsm from hfsm] at this
      exact Option.some.inj this
    rw [hstate, hstate'] at hpath
    obtain ⟨t, rest, rfl, hsource, hforced⟩ := path_terminal hpath hend hne
    exact ⟨fsm, fsm', t, rest, hfsm, hfsm', hhistory, hsource, hforced⟩
  · have hnone : (life e.core id).record = none := by
      rw [hunborn]
      rfl
    exact absurd (hrec.symm.trans hnone) (by simp)

theorem init_agreement (p : Portfolio F) (clock : Clock) (config : ExecutionConfig F)
    (sessionPrefix : String) : Agreement (initEngine p clock config sessionPrefix) := by
  intro id order h
  exact absurd h (by simp [getOrder, initEngine, emptyRegistry])

/-- Record and state machine agree in every state of a run, and terminal states
are left by force alone, exactly when the machines can follow every trade the
run applies. -/
theorem always_agreement_iff (p : Portfolio F) (clock : Clock) (config : ExecutionConfig F)
    (sessionPrefix : String) (hp : p.pendingOrders = ∅) (ops : List (EngineOp F)) :
    (Runs.Always engineStep Agreement (initEngine p clock config sessionPrefix) ops ∧
      Runs.Meets engineStep (fun e op => LeftByForce e (engineStep e op))
        (initEngine p clock config sessionPrefix) ops) ↔
    Runs.Meets engineStep TradeFollowed (initEngine p clock config sessionPrefix) ops := by
  have hsound := init_sound p clock config sessionPrefix hp
  have hexact := Runs.always_iff_meets engineStep step_sound step_agreement_iff
    (initEngine p clock config sessionPrefix) ops hsound
    (init_agreement p clock config sessionPrefix)
  constructor
  · rintro ⟨halways, -⟩
    exact hexact.mp halways
  · intro hmeets
    have halways := hexact.mpr hmeets
    exact ⟨halways,
      Runs.meets_of_always engineStep step_sound step_leftByForce _ ops hsound halways⟩

def lateTrade : List (EngineOp ℚ) :=
  [enter .postOnly, .cancel "TB1-1" (fun _ => true),
    .onFillEvent ⟨"TB1-1", 1 / 2, 100, "t1", 0⟩ (fun _ => true)]

def filledInParts : List (EngineOp ℚ) :=
  [enter .postOnly, .onFillEvent ⟨"TB1-1", 1 / 4, 100, "t1", 0⟩ (fun _ => true),
    .onFillEvent ⟨"TB1-1", 3 / 4, 100, "t2", 0⟩ (fun _ => true), .cancel "TB1-1" (fun _ => true)]

theorem always_agreement_filled :
    (Runs.Always engineStep Agreement startEngine filledInParts ∧
      Runs.Meets engineStep (fun e op => LeftByForce e (engineStep e op)) startEngine
        filledInParts) ↔
    Runs.Meets engineStep TradeFollowed startEngine filledInParts :=
  always_agreement_iff (initPortfolio (1000 : ℚ)) ⟨0, 0, 0⟩ defaultConfig "1" rfl _

/-- The record is partially filled while the state machine stays cancelled. -/
theorem late_trade_disagrees : ¬ Runs.Always engineStep Agreement startEngine lateTrade := by
  intro h
  have hend := Runs.always_last engineStep h
  have hstates : ∀ id, (getOrder (Runs.run engineStep startEngine lateTrade).core.registry
      id).all (fun order => fsmState (Runs.run engineStep startEngine lateTrade).core.registry id ==
        some order.state) = true := by
    intro id
    rw [Option.all_eq_true]
    intro order horder
    rw [beq_iff_eq]
    exact hend id order horder
  have hlate := hstates "TB1-1"
  revert hlate
  decide +kernel

end Engine

end TB.OrderAgreement
