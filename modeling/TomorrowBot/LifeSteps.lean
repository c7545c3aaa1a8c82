import TomorrowBot.EngineSimulation

/-!
# Operations as one order sees them

For each operation of the engine but an execution, the life of every order
after it is the life before it after one step of the order's own machine.
-/

set_option autoImplicit false

namespace TB.LifeSteps
open TB.CommonTypes TB.PortfolioEngine TB.OrderTypes TB.Orders TB.FillProcessor
open TB.CancelManager TB.RecoveryManager TB.ExecutionEngine
open TB.OrderLife TB.EngineLives TB.EngineSimulation

inductive LifeOp (F : Type) where
  | skip
  | confirmed (a : AwaitingFill F) (answer : FillAnswer F)
  | updated (newState : OrderState) (filledQty fillPrice : F) (direct confirmed : Bool)
  | traded (fill : FillEvent F) (accepted confirmed : Bool)
  | cancel (confirmed : Bool)
  | expire (maxAgeNs : ℤ)
  | reconcile (timeoutMs : ℤ) (detail : OrderFillDetail F) (confirmed : Bool)

variable {F : Type} [DoubleArith F]

def lifeStep (clock : Clock) (l : Life F) : LifeOp F → Life F
  | .skip => l
  | .confirmed a answer => confirmation clock a answer l
  | .updated newState qty price direct confirmed =>
      update clock newState qty price direct confirmed l
  | .traded fill accepted confirmed => event clock fill accepted confirmed l
  | .cancel confirmed => cancel clock confirmed l
  | .expire maxAge => expire clock maxAge l
  | .reconcile timeoutMs detail confirmed => reconcile clock timeoutMs detail confirmed l

def names (c : ExecutionCore F) (x id : OrderId) : Bool :=
  (resolveOrder c.registry x).any (fun found => found.1 == id)

def cancelWhen (p : OrderRecord F → Bool) (confirmed : Bool) (l : Life F) : LifeOp F :=
  if l.record.any p then .cancel confirmed else .skip

def isLate (clock : Clock) (maxMs : ℤ) (l : Life F) : Bool :=
  l.fsm.any (fun fsm => isActive fsm.state &&
    decide (maxMs < OrderFsm.timeInCurrentStateMs fsm clock))

def opOn (e : Engine F) (op : EngineOp F) (id : OrderId) : LifeOp F :=
  match op with
  | .confirm x answer =>
      match e.awaiting.find? (awaits x) with
      | none => .skip
      | some a => if x = id then .confirmed a answer else .skip
  | .onOrderUpdate x newState qty price answers =>
      if names e.core x id then .updated newState qty price (decide (x = id)) (answers id)
      else .skip
  | .onFillEvent fill answers =>
      if names e.core fill.orderId id then
        .traded fill (tradeAccepted e.core.registry fill) (answers id)
      else .skip
  | .cancel x answers => if x = id then .cancel (answers id) else .skip
  | .cancelAllForSymbol symbol answers =>
      cancelWhen (fun o => isActive o.state && o.symbol == symbol) (answers id) (life e.core id)
  | .cancelAll answers =>
      cancelWhen (fun o => isActive o.state) (answers id) (life e.core id)
  | .cancelTimedOutOrders maxMs answers =>
      if isLate e.core.clock maxMs (life e.core id) then
        cancelWhen (fun o => !isTerminal o.state) (answers id) (life e.core id)
      else .skip
  | .cleanupTerminalOrders maxAge => .expire maxAge
  | .runReconciliation answers =>
      .reconcile e.config.cancelConfirmationTimeoutMs (answers.fillDetail id)
        (answers.cancelConfirmed id)
  | .execute _ _ _ _ _ | .isDuplicate _ | .setLeverage _ | .setMinNotionalUsdt _
  | .setDefaultFillPolicy _ | .advanceClock _ => .skip

theorem whenRecord_cancel (clock : Clock) (p : OrderRecord F → Bool) (confirmed : Bool)
    (l : Life F) : whenRecord p (fun _ => cancel clock confirmed) l =
      lifeStep clock l (cancelWhen p confirmed l) := by
  unfold whenRecord cancelWhen
  cases l.record with
  | none => rfl
  | some order =>
    simp only [Option.any_some]
    split_ifs <;> rfl

variable (c : ExecutionCore F)

theorem cancelEach_lives (hown : AllOwn c) (answers : OrderId → Bool)
    (p : OrderRecord F → Bool) (id : OrderId) :
    life (cancelEach answers ((recordsWhere c.registry p).map (fun o => o.orderId)) c).1 id =
      lifeStep c.clock (life c id) (cancelWhen p (answers id) (life c id)) := by
  rw [cancelRecords_lives c hown, ← whenRecord_cancel]
  unfold whenRecord
  cases hrec : (life c id).record with
  | none => rfl
  | some order =>
    have hid : order.orderId = id := hown id order hrec
    simp only [hid]

theorem timedOut_step (clock : Clock) (maxMs : ℤ) (confirmed : Bool) (l : Life F) :
    timedOut clock maxMs confirmed l =
      lifeStep clock l (if isLate clock maxMs l then
        cancelWhen (fun o => !isTerminal o.state) confirmed l else .skip) := by
  unfold timedOut isLate cancelWhen
  split_ifs with hlate hany
  · cases hrec : l.record with
    | none => simp [hrec] at hany
    | some order =>
      have hopen : isTerminal order.state = false := by simpa [hrec] using hany
      simp only [hopen, Bool.false_eq_true, if_false]
      rfl
  · cases hrec : l.record with
    | none => rfl
    | some order =>
      have hend : isTerminal order.state = true := by simpa [hrec] using hany
      simp only [hend, if_true]
      rfl
  · rfl

omit [DoubleArith F] in
theorem moves_at {c d : ExecutionCore F} {x : OrderId} {l : Life F} (h : Moves c d x l)
    (id : OrderId) : life d id = if x = id then l else life c id := by
  rw [h.lives]
  by_cases hx : x = id
  · subst hx
    rw [Function.update_self, if_pos rfl]
  · rw [Function.update_of_ne (Ne.symm hx), if_neg hx]

theorem onOrderUpdate_lives (hown : AllOwn c) (x id : OrderId)
    (newState : OrderState) (qty price : F) (answers : OrderId → Bool) :
    life (onOrderUpdate c x newState qty price answers) id =
      lifeStep c.clock (life c id) (if names c x id then
        .updated newState qty price (decide (x = id)) (answers id) else .skip) := by
  unfold names
  cases hres : resolveOrder c.registry x with
  | none =>
    rw [onOrderUpdate_unknown c x newState qty price answers hres]
    rfl
  | some found =>
    obtain ⟨eff, order⟩ := found
    rw [moves_at (onOrderUpdate_moves c hown x eff order newState qty price answers hres) id]
    simp only [Option.any_some, beq_iff_eq]
    split_ifs with heff
    · subst heff
      rfl
    · rfl

theorem onFillEvent_lives (hown : AllOwn c) (fill : FillEvent F)
    (id : OrderId) (answers : OrderId → Bool) :
    life (onFillEvent c fill answers) id =
      lifeStep c.clock (life c id) (if names c fill.orderId id then
        .traded fill (tradeAccepted c.registry fill) (answers id) else .skip) := by
  unfold names
  cases hres : resolveOrder c.registry fill.orderId with
  | none =>
    rw [onFillEvent_unknown c fill answers hres, (markTrade_lives c fill).2.1]
    rfl
  | some found =>
    obtain ⟨eff, order⟩ := found
    rw [moves_at (onFillEvent_moves c hown fill eff order answers hres) id,
      processFillEvent_accepted c fill _ hres]
    simp only [Option.any_some, beq_iff_eq]
    split_ifs with heff
    · subst heff
      rfl
    · rfl

def isExecution : EngineOp F → Bool
  | .execute _ _ _ _ _ => true
  | _ => false

variable (e : Engine F) (op : EngineOp F) (id : OrderId)

/-- Every operation but an execution acts on the life of each order by the
operation as that order sees it. -/
theorem engineStep_lives (hown : AllOwn e.core) (hop : isExecution op = false) :
    life (engineStep e op).core id = lifeStep e.core.clock (life e.core id) (opOn e op id) := by
  cases op with
  | execute => exact absurd hop (by simp [isExecution])
  | confirm x answer =>
    simp only [engineStep, confirm, opOn]
    cases hfind : e.awaiting.find? (awaits x) with
    | none => rfl
    | some a =>
      have hx : a.order.orderId = x := by
        have := List.find?_some hfind
        simpa [awaits] using this
      rw [moves_at (confirmFill_moves e.core a answer x hx (hown x)) id]
      split_ifs with hid
      · subst hid
        rfl
      · rfl
  | onOrderUpdate x newState qty price answers =>
    exact onOrderUpdate_lives e.core hown x id newState qty price answers
  | onFillEvent fill answers => exact onFillEvent_lives e.core hown fill id answers
  | cancel x answers =>
    simp only [engineStep, cancelOrder, opOn]
    rw [setCore, moves_at (doCancel_moves e.core (answers x) x (hown x)) id]
    split_ifs with hid
    · subst hid
      rfl
    · rfl
  | cancelAllForSymbol symbol answers =>
    have hsel : (ordersForSymbol e.core.registry symbol).filter (fun o => isActive o.state) =
        recordsWhere e.core.registry (fun o => isActive o.state && o.symbol == symbol) := by
      unfold ordersForSymbol recordsWhere snapshot
      rw [List.filter_filter]
    simp only [engineStep, cancelAllForSymbol, hsel]
    exact cancelEach_lives e.core hown answers _ id
  | cancelAll answers => exact cancelEach_lives e.core hown answers (fun o => isActive o.state) id
  | cancelTimedOutOrders maxMs answers =>
    have h := cancelTimedOut_lives e.core hown answers maxMs id
    rw [timedOut_step] at h
    exact h
  | cleanupTerminalOrders maxAge => exact cleanup_lives e.core hown maxAge id
  | runReconciliation answers => exact reconciliation_lives e.core hown answers _ id
  | isDuplicate | setLeverage | setMinNotionalUsdt | setDefaultFillPolicy | advanceClock => rfl

omit [DoubleArith F] in
theorem names_iff (x id : OrderId) :
    names c x id = true ↔ ∃ order, resolveOrder c.registry x = some (id, order) := by
  unfold names
  rw [Option.any_eq_true]
  constructor
  · rintro ⟨⟨eff, order⟩, hres, heff⟩
    rw [beq_iff_eq] at heff
    exact ⟨order, heff ▸ hres⟩
  · rintro ⟨order, hres⟩
    exact ⟨(id, order), hres, beq_self_eq_true id⟩

inductive Source (e : Engine F) (id : OrderId) : EngineOp F → LifeOp F → Prop where
  | skip (op : EngineOp F) : Source e id op .skip
  | confirmed (a : AwaitingFill F) (answer : FillAnswer F)
      (hfind : e.awaiting.find? (awaits id) = some a) :
      Source e id (.confirm id answer) (.confirmed a answer)
  | updated (x : OrderId) (newState : OrderState) (qty price : F) (answers : OrderId → Bool)
      (hnames : names e.core x id = true) :
      Source e id (.onOrderUpdate x newState qty price answers)
        (.updated newState qty price (decide (x = id)) (answers id))
  | traded (fill : FillEvent F) (answers : OrderId → Bool)
      (hnames : names e.core fill.orderId id = true) :
      Source e id (.onFillEvent fill answers)
        (.traded fill (tradeAccepted e.core.registry fill) (answers id))
  | cancel (op : EngineOp F) (confirmed : Bool) : Source e id op (.cancel confirmed)
  | expire (maxAge : ℤ) : Source e id (.cleanupTerminalOrders maxAge) (.expire maxAge)
  | reconcile (answers : RecoveryAnswers F) :
      Source e id (.runReconciliation answers)
        (.reconcile e.config.cancelConfirmationTimeoutMs (answers.fillDetail id)
          (answers.cancelConfirmed id))

theorem cancelWhen_source (p : OrderRecord F → Bool) (confirmed : Bool) (l : Life F) :
    Source e id op (cancelWhen p confirmed l) := by
  unfold cancelWhen
  split_ifs
  · exact .cancel op confirmed
  · exact .skip op

theorem opOn_source : Source e id op (opOn e op id) := by
  cases op with
  | confirm x answer =>
    simp only [opOn]
    cases hfind : e.awaiting.find? (awaits x) with
    | none => exact .skip _
    | some a =>
      by_cases hx : x = id
      · subst hx
        simp only [if_true]
        exact .confirmed a answer hfind
      · simp only [if_neg hx]
        exact .skip _
  | onOrderUpdate x newState qty price answers =>
    simp only [opOn]
    split_ifs with hnames
    · exact .updated x newState qty price answers hnames
    · exact .skip _
  | onFillEvent fill answers =>
    simp only [opOn]
    split_ifs with hnames
    · exact .traded fill answers hnames
    · exact .skip _
  | cancel x answers =>
    simp only [opOn]
    split_ifs
    · exact .cancel _ _
    · exact .skip _
  | cancelAllForSymbol | cancelAll => exact cancelWhen_source e _ id _ _ _
  | cancelTimedOutOrders maxMs answers =>
    simp only [opOn]
    split_ifs
    · exact cancelWhen_source e _ id _ _ _
    · exact .skip _
  | cleanupTerminalOrders maxAge => exact .expire maxAge
  | runReconciliation answers => exact .reconcile answers
  | execute | isDuplicate | setLeverage | setMinNotionalUsdt | setDefaultFillPolicy
  | advanceClock => exact .skip _

theorem same_lifeStep (clock : Clock) (l : Life F) (op : LifeOp F) :
    SameOrder l (lifeStep clock l op) := by
  cases op with
  | skip => exact same_refl l
  | confirmed a answer => exact same_steps.confirmation clock a answer l
  | updated newState qty price direct confirmed =>
    exact same_steps.update clock newState qty price direct confirmed l
  | traded fill accepted confirmed => exact same_event clock fill accepted confirmed l
  | cancel confirmed => exact same_moves.cancel clock confirmed l
  | expire maxAge => exact same_steps.expire clock maxAge l
  | reconcile timeoutMs detail confirmed =>
    exact same_steps.toKeptByRecovery.reconcile clock timeoutMs detail confirmed l

end TB.LifeSteps
