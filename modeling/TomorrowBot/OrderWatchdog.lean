import TomorrowBot.EngineBirths

/-!
# The order watchdog

At intervals the watchdog goes through the active orders, compares their age
with the limit of their state, and cancels the ones past it. Its callbacks log.
An order past its limit is reported and, when the exchange confirms the cancel,
ends, exactly when it is not waiting for a recovery, its age exceeds the limit
in whole milliseconds, and its state machine can start a cancel.
-/

set_option autoImplicit false

namespace TB.OrderWatchdog
open TB.CommonTypes TB.PortfolioEngine TB.OrderTypes TB.Orders TB.FillProcessor
open TB.CancelManager TB.RecoveryManager TB.ExecutionPlanner TB.ExecutionEngine TB.OrderLife
open TB.EngineLives TB.EngineSimulation TB.LifeSteps TB.EngineBirths

inductive WatchdogOrderAction where
  | ok
  | cancel
  | recoverState
  | forceClose
  deriving DecidableEq, Repr

structure WatchdogReport where
  orderId : OrderId
  action : WatchdogOrderAction
  reason : String
  ageMs : ℤ

structure OrderWatchdogConfig where
  maxPendingAckMs : ℤ
  maxOpenOrderMs : ℤ
  maxPartialFillMs : ℤ
  maxUnknownRecoveryMs : ℤ
  checkIntervalMs : ℤ

def defaultWatchdogConfig : OrderWatchdogConfig := ⟨5000, 15000, 30000, 10000, 3000⟩

structure Watchdog where
  config : OrderWatchdogConfig
  lastCheckNs : ℤ

def stateText : OrderState → String
  | .new => "New"
  | .pendingAck => "PendingAck"
  | .opened => "Open"
  | .partiallyFilled => "PartiallyFilled"
  | .filled => "Filled"
  | .cancelPending => "CancelPending"
  | .cancelled => "Cancelled"
  | .rejected => "Rejected"
  | .expired => "Expired"
  | .unknownRecovery => "UnknownRecovery"

def ageMs (nowNs base : ℤ) : ℤ := (max 0 (nowNs - base)).tdiv 1000000

variable {F : Type}

def ageBase (order : OrderRecord F) : ℤ :=
  if 0 < order.createdAt then order.createdAt else order.lastUpdated

def classifyOrder (config : OrderWatchdogConfig) (order : OrderRecord F) (nowNs : ℤ) :
    WatchdogOrderAction :=
  if ageBase order ≤ 0 then .ok
  else
    let age := ageMs nowNs (ageBase order)
    match order.state with
    | .pendingAck => if config.maxPendingAckMs < age then .cancel else .ok
    | .unknownRecovery => if config.maxUnknownRecoveryMs < age then .recoverState else .ok
    | .partiallyFilled => if config.maxPartialFillMs < age then .forceClose else .ok
    | .opened | .cancelPending => if config.maxOpenOrderMs < age then .cancel else .ok
    | _ => .ok

def reportOf (order : OrderRecord F) (action : WatchdogOrderAction) (nowNs : ℤ) :
    WatchdogReport :=
  let age := ageMs nowNs order.lastUpdated
  { orderId := order.orderId
    action := action
    reason := match action with
      | .cancel => "timeout: state=" ++ stateText order.state ++ " age=" ++ toString age ++ "ms"
      | .recoverState => "UnknownRecovery: age=" ++ toString age ++ "ms"
      | .forceClose => "force_close: critical partial fill age=" ++ toString age ++ "ms"
      | .ok => ""
    ageMs := age }

def capInterval (config : OrderWatchdogConfig) : OrderWatchdogConfig :=
  { config with
    checkIntervalMs := if 60000 < config.checkIntervalMs then 60000 else config.checkIntervalMs }

def rateLimited (w : Watchdog) (nowNs : ℤ) : Bool :=
  decide (0 < w.lastCheckNs) &&
    decide (nowNs - w.lastCheckNs < (capInterval w.config).checkIntervalMs * 1000000)

variable [DoubleArith F]

def checkEach (config : OrderWatchdogConfig) (nowNs : ℤ) (answers : OrderId → Bool) :
    List (OrderRecord F) → ExecutionCore F → ExecutionCore F × List WatchdogReport
  | [], c => (c, [])
  | order::rest, c =>
    match classifyOrder config order nowNs with
    | .ok => checkEach config nowNs answers rest c
    | .recoverState =>
      let checked := checkEach config nowNs answers rest c
      (checked.1, reportOf order .recoverState nowNs::checked.2)
    | .cancel =>
      let checked := checkEach config nowNs answers rest (cancelOrder c answers order.orderId).1
      (checked.1, reportOf order .cancel nowNs::checked.2)
    | .forceClose =>
      let checked := checkEach config nowNs answers rest (cancelOrder c answers order.orderId).1
      (checked.1, reportOf order .forceClose nowNs::checked.2)

def runCheck (w : Watchdog) (nowNs : ℤ) (answers : OrderId → Bool) (e : Engine F) :
    Watchdog × Engine F × List WatchdogReport :=
  if rateLimited w nowNs then (⟨capInterval w.config, w.lastCheckNs⟩, e, [])
  else
    let checked := checkEach (capInterval w.config) nowNs answers (activeOrders e.core.registry)
      e.core
    (⟨capInterval w.config, nowNs⟩, setCore e checked.1, checked.2)

section Checks

def isCancelling : WatchdogOrderAction → Bool
  | .cancel | .forceClose => true
  | .ok | .recoverState => false

theorem checkEach_core (config : OrderWatchdogConfig) (nowNs : ℤ) (answers : OrderId → Bool)
    (orders : List (OrderRecord F)) (c : ExecutionCore F) :
    (checkEach config nowNs answers orders c).1 = (cancelEach answers
      ((orders.filter (fun o => isCancelling (classifyOrder config o nowNs))).map
        (fun o => o.orderId)) c).1 := by
  induction orders generalizing c with
  | nil => rfl
  | cons order rest ih =>
    unfold checkEach
    cases hclass : classifyOrder config order nowNs with
    | ok | recoverState =>
      rw [List.filter_cons_of_neg (by simp [hclass, isCancelling])]
      exact ih c
    | cancel | forceClose =>
      rw [List.filter_cons_of_pos (by simp [hclass, isCancelling])]
      exact ih _

theorem checkEach_reports (config : OrderWatchdogConfig) (nowNs : ℤ) (answers : OrderId → Bool)
    (orders : List (OrderRecord F)) (c : ExecutionCore F) :
    (checkEach config nowNs answers orders c).2 =
      (orders.filter (fun o => classifyOrder config o nowNs ≠ .ok)).map
        (fun o => reportOf o (classifyOrder config o nowNs) nowNs) := by
  induction orders generalizing c with
  | nil => rfl
  | cons order rest ih =>
    unfold checkEach
    cases hclass : classifyOrder config order nowNs with
    | ok =>
      rw [List.filter_cons_of_neg (by simp [hclass])]
      exact ih c
    | recoverState | cancel | forceClose =>
      rw [List.filter_cons_of_pos (by simp [hclass]), List.map_cons, hclass]
      show _::_ = _::_
      rw [ih]

end Checks

section Stuck

def limitMs (config : OrderWatchdogConfig) : OrderState → Option ℤ
  | .pendingAck => some config.maxPendingAckMs
  | .opened | .cancelPending => some config.maxOpenOrderMs
  | .partiallyFilled => some config.maxPartialFillMs
  | .unknownRecovery => some config.maxUnknownRecoveryMs
  | _ => none

def Overdue (config : OrderWatchdogConfig) (nowNs : ℤ) (order : OrderRecord F) : Prop :=
  ∃ limit, limitMs config order.state = some limit ∧
    limit * 1000000 < nowNs - order.createdAt

def Handled (w : Watchdog) (nowNs : ℤ) (answers : OrderId → Bool) (e : Engine F)
    (id : OrderId) : Prop :=
  ∃ report ∈ (runCheck w nowNs answers e).2.2, report.orderId = id ∧
    (answers id = true → report.action ≠ .recoverState →
      ∃ order, getOrder (runCheck w nowNs answers e).2.1.core.registry id = some order ∧
        isTerminal order.state = true)

def canCancel (r : OrderRegistry F) (id : OrderId) : Bool :=
  (fsmState r id).any (fun state => isValidTransition state .cancelPending)

/-- What the watchdog has to find: an order that is not waiting for a recovery, past
its limit by a whole millisecond, whose cancel can start. -/
structure Catchable (w : Watchdog) (nowNs : ℤ) (answers : OrderId → Bool) (e : Engine F)
    (id : OrderId) (order : OrderRecord F) : Prop where
  state : order.state ≠ .unknownRecovery
  dated : 0 < ageBase order
  late : ∃ limit, limitMs w.config order.state = some limit ∧ limit < ageMs nowNs (ageBase order)
  cancellable : answers id = true → canCancel e.core.registry id = true

variable (config : OrderWatchdogConfig)

omit [DoubleArith F] in
theorem limitMs_cap (state : OrderState) :
    limitMs (capInterval config) state = limitMs config state := by
  cases state <;> rfl

omit [DoubleArith F] in
theorem classify_iff (order : OrderRecord F) (nowNs : ℤ) :
    classifyOrder config order nowNs ≠ .ok ↔ 0 < ageBase order ∧
      ∃ limit, limitMs config order.state = some limit ∧
        limit < ageMs nowNs (ageBase order) := by
  unfold classifyOrder
  by_cases hdated : ageBase order ≤ 0
  · rw [if_pos hdated]
    constructor
    · intro h
      exact absurd rfl h
    · intro h
      omega
  · rw [if_neg hdated]
    have hpos : 0 < ageBase order := by omega
    cases order.state <;> simp [limitMs, hpos]

omit [DoubleArith F] in
theorem classify_recover (order : OrderRecord F) (nowNs : ℤ)
    (hstate : order.state ≠ .unknownRecovery) :
    classifyOrder config order nowNs ≠ .ok ↔
      isCancelling (classifyOrder config order nowNs) = true := by
  unfold classifyOrder
  split_ifs with hdated
  · simp [isCancelling]
  · cases hs : order.state
    case unknownRecovery => exact absurd hs hstate
    all_goals
      dsimp only
      try split_ifs
    all_goals simp [isCancelling]

omit [DoubleArith F] in
theorem limit_active (state : OrderState) (limit : ℤ)
    (h : limitMs config state = some limit) (hstate : state ≠ .unknownRecovery) :
    isActive state = true ∧ isTerminal state = false := by
  cases state
  case unknownRecovery => exact absurd rfl hstate
  all_goals first
    | exact ⟨rfl, rfl⟩
    | exact absurd h (by simp [limitMs])

omit [DoubleArith F] in
/-- A confirmed cancel ends the order exactly when it can start. -/
theorem cancel_ends_iff (clock : Clock) (l : Life F) (order : OrderRecord F)
    (hrec : l.record = some order) (hopen : isTerminal order.state = false) :
    (∃ after, (cancel clock true l).record = some after ∧ isTerminal after.state = true) ↔
      (l.fsm.map (fun fsm => fsm.state)).any
        (fun state => isValidTransition state .cancelPending) = true := by
  unfold cancel
  rw [hrec]
  cases hmove : move clock .cancelPending "Cancel requested" l with
  | none =>
    constructor
    · rintro ⟨after, hafter, hend⟩
      dsimp only at hafter
      rw [hrec, Option.some.injEq] at hafter
      rw [hafter, hend] at hopen
      exact absurd hopen (by simp)
    · intro hcan
      cases hf : l.fsm with
      | none => simp [hf] at hcan
      | some fsm =>
        rw [hf, Option.map_some, Option.any_some] at hcan
        simp [move, hf, OrderFsm.transition, hcan] at hmove
  | some pending =>
    obtain ⟨fsm, hf, hvalid, hpending⟩ := move_some hmove
    constructor
    · intro _
      simp [hf, hvalid]
    · intro _
      have hended : (tryMove clock .cancelled "Cancel confirmed" pending).record =
          some (setState clock .cancelled (setState clock .cancelPending order)) := by
        rw [hpending]
        simp [tryMove, move, OrderFsm.transition, OrderFsm.record, isValidTransition, hrec]
      have hreleased : (releaseFor order (tryMove clock .cancelled "Cancel confirmed"
          pending)).record = (tryMove clock .cancelled "Cancel confirmed" pending).record := by
        unfold releaseFor
        split_ifs <;> rfl
      exact ⟨_, hreleased.trans hended, rfl⟩

variable (w : Watchdog)

theorem runCheck_life (nowNs : ℤ) (answers : OrderId → Bool) (e : Engine F)
    (hown : AllOwn e.core) (hdue : rateLimited w nowNs = false) (id : OrderId)
    (order : OrderRecord F) (hget : getOrder e.core.registry id = some order) :
    life (runCheck w nowNs answers e).2.1.core id =
      if isActive order.state &&
          isCancelling (classifyOrder (capInterval w.config) order nowNs) then
        cancel e.core.clock (answers id) (life e.core id)
      else life e.core id := by
  have hselect : (activeOrders e.core.registry).filter
      (fun o => isCancelling (classifyOrder (capInterval w.config) o nowNs)) =
      recordsWhere e.core.registry (fun o => isActive o.state &&
        isCancelling (classifyOrder (capInterval w.config) o nowNs)) := by
    unfold activeOrders recordsWhere snapshot
    rw [List.filter_filter]
    apply List.filter_congr
    intro o _
    exact Bool.and_comm _ _
  have hrec : (life e.core id).record = some order := hget
  unfold runCheck
  rw [if_neg (by simp [hdue])]
  show life (checkEach (capInterval w.config) nowNs answers _ e.core).1 id = _
  rw [checkEach_core, hselect, cancelEach_lives e.core hown answers _ id]
  unfold cancelWhen
  rw [hrec, Option.any_some]
  split_ifs <;> rfl

theorem runCheck_report (nowNs : ℤ) (answers : OrderId → Bool) (e : Engine F)
    (hown : AllOwn e.core) (hdue : rateLimited w nowNs = false) (id : OrderId)
    (order : OrderRecord F) (hget : getOrder e.core.registry id = some order)
    (report : WatchdogReport) :
    report ∈ (runCheck w nowNs answers e).2.2 ∧ report.orderId = id ↔
      isActive order.state = true ∧ classifyOrder (capInterval w.config) order nowNs ≠ .ok ∧
        report = reportOf order (classifyOrder (capInterval w.config) order nowNs) nowNs := by
  have hrec : (life e.core id).record = some order := hget
  have hid : order.orderId = id := hown id order hrec
  have hreports : (runCheck w nowNs answers e).2.2 = ((activeOrders e.core.registry).filter
      (fun o => classifyOrder (capInterval w.config) o nowNs ≠ .ok)).map
        (fun o => reportOf o (classifyOrder (capInterval w.config) o nowNs) nowNs) := by
    unfold runCheck
    rw [if_neg (by simp [hdue])]
    exact checkEach_reports _ nowNs answers _ e.core
  have hactive : ∀ o, o ∈ activeOrders e.core.registry ↔
      (life e.core o.orderId).record = some o ∧ isActive o.state = true := by
    intro o
    show o ∈ (snapshot e.core.registry).filter (fun o => isActive o.state) ↔ _
    rw [List.mem_filter, snapshot_mem e.core hown]
  rw [hreports, List.mem_map]
  constructor
  · rintro ⟨⟨o, ho, rfl⟩, hreport⟩
    rw [List.mem_filter, hactive, decide_eq_true_eq] at ho
    obtain ⟨⟨hfound, hstate⟩, hclass⟩ := ho
    have ho : o.orderId = id := hreport
    rw [ho, hrec, Option.some.injEq] at hfound
    subst hfound
    exact ⟨hstate, hclass, rfl⟩
  · rintro ⟨hstate, hclass, rfl⟩
    refine ⟨⟨order, ?_, rfl⟩, hid⟩
    rw [List.mem_filter, hactive, hid, decide_eq_true_eq]
    exact ⟨⟨hrec, hstate⟩, hclass⟩

theorem handled_iff (nowNs : ℤ) (answers : OrderId → Bool) (e : Engine F)
    (hown : AllOwn e.core) (hdue : rateLimited w nowNs = false) (id : OrderId)
    (order : OrderRecord F) (hget : getOrder e.core.registry id = some order) :
    Handled w nowNs answers e id ↔ Catchable w nowNs answers e id order := by
  have hrec : (life e.core id).record = some order := hget
  have hlife := runCheck_life w nowNs answers e hown hdue id order hget
  have hreport := runCheck_report w nowNs answers e hown hdue id order hget
  constructor
  · rintro ⟨report, hmem, hid, hends⟩
    obtain ⟨hactive, hclass, rfl⟩ := (hreport report).mp ⟨hmem, hid⟩
    have hstate : order.state ≠ .unknownRecovery := by
      intro hunknown
      rw [hunknown] at hactive
      exact absurd hactive (by decide)
    have hcancelling := (classify_recover (capInterval w.config) order nowNs hstate).mp hclass
    obtain ⟨hdated, limit, hlimit, hlate⟩ :=
      (classify_iff (capInterval w.config) order nowNs).mp hclass
    rw [limitMs_cap] at hlimit
    refine ⟨hstate, hdated, ⟨limit, hlimit, hlate⟩, ?_⟩
    intro hconfirmed
    rw [if_pos (by simp [hactive, hcancelling]), hconfirmed] at hlife
    have hopen := (limit_active w.config order.state limit hlimit hstate).2
    apply (cancel_ends_iff e.core.clock (life e.core id) order hrec hopen).mp
    rw [← hlife]
    apply hends hconfirmed
    show classifyOrder (capInterval w.config) order nowNs ≠ .recoverState
    intro hrecover
    rw [hrecover] at hcancelling
    exact absurd hcancelling (by decide)
  · rintro ⟨hstate, hdated, ⟨limit, hlimit, hlate⟩, hcancellable⟩
    obtain ⟨hactive, hopen⟩ := limit_active w.config order.state limit hlimit hstate
    have hclass : classifyOrder (capInterval w.config) order nowNs ≠ .ok := by
      rw [classify_iff, limitMs_cap]
      exact ⟨hdated, limit, hlimit, hlate⟩
    obtain ⟨hmem, hid⟩ := (hreport _).mpr ⟨hactive, hclass, rfl⟩
    refine ⟨_, hmem, hid, ?_⟩
    intro hconfirmed _
    have hcancelling := (classify_recover (capInterval w.config) order nowNs hstate).mp hclass
    rw [if_pos (by simp [hactive, hcancelling]), hconfirmed] at hlife
    have hends := (cancel_ends_iff e.core.clock (life e.core id) order hrec hopen).mpr
      (hcancellable hconfirmed)
    rw [← hlife] at hends
    exact hends

/-- In every engine that a run leads to, and for every order in it: a check that is
due handles the order, if it is overdue, exactly when it can be caught. -/
theorem overdue_handled_iff (p : Portfolio F) (clock : Clock) (config : ExecutionConfig F)
    (sessionPrefix : String) (hp : p.pendingOrders = ∅) (ops : List (EngineOp F)) (w : Watchdog)
    (nowNs : ℤ) (hdue : rateLimited w nowNs = false) (answers : OrderId → Bool) (id : OrderId)
    (order : OrderRecord F)
    (hget : getOrder (Runs.run engineStep (initEngine p clock config sessionPrefix)
      ops).core.registry id = some order) :
    (Overdue w.config nowNs order → Handled w nowNs answers
      (Runs.run engineStep (initEngine p clock config sessionPrefix) ops) id) ↔
    (Overdue w.config nowNs order → Catchable w nowNs answers
      (Runs.run engineStep (initEngine p clock config sessionPrefix) ops) id order) := by
  have hsound := Runs.invariant_run engineStep (C := fun _ _ => True)
    (fun e op hs _ => step_sound e op hs) _ ops (init_sound p clock config sessionPrefix hp)
    (Runs.meets_true engineStep _ ops)
  exact imp_congr_right (fun _ => handled_iff w nowNs answers _ hsound.own hdue id order hget)

end Stuck

section Session

def datedEntry : EngineOp ℚ :=
  .execute entryIntent ⟨.approved, 1⟩ ⟨true, .postOnly, 0, none, 1⟩ .low
    (.returned ⟨true, "9001", "", 1⟩ ⟨1000000000, 0, 0⟩)

def datedEngine : Engine ℚ :=
  initEngine (initPortfolio 1000) ⟨1000000000, 0, 0⟩ defaultConfig "1"

def minuteLater : ℤ := 61000000000

theorem overdue_handled_iff_entry : ∃ order,
    getOrder (Runs.run engineStep datedEngine [datedEntry]).core.registry "TB1-1" = some order ∧
    Overdue defaultWatchdogConfig minuteLater order ∧
    Handled ⟨defaultWatchdogConfig, 0⟩ minuteLater (fun _ => true)
      (Runs.run engineStep datedEngine [datedEntry]) "TB1-1" := by
  obtain ⟨order, hget, hchecks⟩ : ∃ order,
      getOrder (Runs.run engineStep datedEngine [datedEntry]).core.registry "TB1-1" = some order ∧
      (order.state == .pendingAck && decide (order.createdAt = 1000000000)) = true := by
    have h : (getOrder (Runs.run engineStep datedEngine [datedEntry]).core.registry "TB1-1").any
        (fun order => order.state == .pendingAck && decide (order.createdAt = 1000000000)) =
        true := by
      decide +kernel
    rwa [Option.any_eq_true] at h
  rw [Bool.and_eq_true, beq_iff_eq, decide_eq_true_eq] at hchecks
  obtain ⟨hstate, hcreated⟩ := hchecks
  have hoverdue : Overdue defaultWatchdogConfig minuteLater order := by
    refine ⟨5000, by rw [hstate]; rfl, ?_⟩
    rw [hcreated]
    decide
  refine ⟨order, hget, hoverdue, ?_⟩
  apply (overdue_handled_iff (initPortfolio 1000) ⟨1000000000, 0, 0⟩ defaultConfig "1" rfl
    [datedEntry] ⟨defaultWatchdogConfig, 0⟩ minuteLater (by decide) (fun _ => true) "TB1-1" order
    hget).mpr
  · intro _
    have hbase : ageBase order = 1000000000 := by
      rw [ageBase, hcreated, if_pos (by decide)]
    refine ⟨by rw [hstate]; decide, by rw [hbase]; decide, ⟨5000, by rw [hstate]; rfl, ?_⟩, ?_⟩
    · rw [hbase]
      decide
    · intro _
      show canCancel (Runs.run engineStep datedEngine [datedEntry]).core.registry "TB1-1" = true
      decide +kernel
  · exact hoverdue

/-- An order whose cancel was refused waits for a recovery; no check reports it. -/
theorem unknown_never_reported : ∃ order,
    getOrder (Runs.run engineStep datedEngine
      [datedEntry, .cancel "TB1-1" (fun _ => false)]).core.registry "TB1-1" = some order ∧
    Overdue defaultWatchdogConfig minuteLater order ∧
    rateLimited ⟨defaultWatchdogConfig, 0⟩ minuteLater = false ∧
    ¬ Handled ⟨defaultWatchdogConfig, 0⟩ minuteLater (fun _ => true)
      (Runs.run engineStep datedEngine [datedEntry, .cancel "TB1-1" (fun _ => false)])
        "TB1-1" := by
  obtain ⟨order, hget, hchecks⟩ : ∃ order,
      getOrder (Runs.run engineStep datedEngine
        [datedEntry, .cancel "TB1-1" (fun _ => false)]).core.registry "TB1-1" = some order ∧
      (order.state == .unknownRecovery && decide (order.createdAt = 1000000000)) = true := by
    have h : (getOrder (Runs.run engineStep datedEngine
        [datedEntry, .cancel "TB1-1" (fun _ => false)]).core.registry "TB1-1").any
        (fun order => order.state == .unknownRecovery && decide (order.createdAt = 1000000000)) =
        true := by
      decide +kernel
    rwa [Option.any_eq_true] at h
  rw [Bool.and_eq_true, beq_iff_eq, decide_eq_true_eq] at hchecks
  obtain ⟨hstate, hcreated⟩ := hchecks
  refine ⟨order, hget, ⟨10000, by rw [hstate]; rfl, ?_⟩, by decide, ?_⟩
  · rw [hcreated]
    decide
  · rintro ⟨report, hmem, -, -⟩
    have hnone : (runCheck ⟨defaultWatchdogConfig, 0⟩ minuteLater (fun _ => true)
        (Runs.run engineStep datedEngine
          [datedEntry, .cancel "TB1-1" (fun _ => false)])).2.2.isEmpty = true := by
      decide +kernel
    rw [List.isEmpty_iff.mp hnone] at hmem
    exact absurd hmem (by simp)

end Session

end TB.OrderWatchdog
