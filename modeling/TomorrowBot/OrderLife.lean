import TomorrowBot.ExecutionEngine

/-!
# The life of one order

Everything the engine keeps under one order id: the record, the state
machine, the mark of applied fills, the reservation and the quantities handed
to the portfolio. Each operation of the engine is a function on this life, a
machine that knows nothing of the other orders.
-/

set_option autoImplicit false

namespace TB.OrderLife
open TB.CommonTypes TB.PortfolioEngine TB.OrderTypes TB.Orders TB.FillProcessor
open TB.RecoveryManager TB.ExecutionEngine

structure Life (F : Type) where
  record : Option (OrderRecord F)
  fsm : Option OrderFsm
  applied : Bool
  reserved : Option (PendingOrderInfo F)
  passed : List F

def life {F : Type} (c : ExecutionCore F) (id : OrderId) : Life F where
  record := c.registry.orders.lookup id
  fsm := c.registry.fsms.lookup id
  applied := isFillApplied c.registry id
  reserved := c.portfolio.pendingOrders.lookup id
  passed := (c.passed.filter (fun e => e.1 == id)).map Prod.snd

theorem life_record {F : Type} (c : ExecutionCore F) (id : OrderId) :
    (life c id).record = getOrder c.registry id :=
  rfl

def unborn {F : Type} : Life F := ⟨none, none, false, none, []⟩

variable {F : Type} [DoubleArith F]

def move (clock : Clock) (target : OrderState) (reason : String) (l : Life F) :
    Option (Life F) :=
  l.fsm.bind (fun fsm => (OrderFsm.transition fsm clock target reason).map (fun fsm' =>
    { l with record := l.record.map (setState clock target), fsm := some fsm' }))

def tryMove (clock : Clock) (target : OrderState) (reason : String) (l : Life F) :
    Life F :=
  (move clock target reason l).getD l

def force (clock : Clock) (target : OrderState) (reason : String) (l : Life F) :
    Life F :=
  match l.fsm with
  | none => l
  | some fsm =>
    { l with
      record := l.record.map (setState clock target)
      fsm := some (OrderFsm.forceTransition fsm clock target reason)
      applied := false }

def put (order : OrderRecord F) (l : Life F) : Life F :=
  { l with record := l.record.map (fun _ => order) }

def mark (l : Life F) : Life F := { l with applied := true }

def release (l : Life F) : Life F := { l with reserved := none }

def releaseFor (order : OrderRecord F) (l : Life F) : Life F :=
  if requiresMarginReserve order then release l else l

def hand (order : OrderRecord F) (qty : F) (l : Life F) : Life F :=
  { l with
    reserved := match order.tradeSide with
      | .opening => none
      | .closing => l.reserved
    passed := l.passed ++ [qty] }

def marketFill (clock : Clock) (qty price : F) (exchangeOrderId : OrderId) (l : Life F) :
    Life F :=
  if l.applied then l
  else if isfinite price = false ∨ price ≤ 0 then l
  else if isfinite qty = false ∨ qty ≤ 0 then l
  else
    match l.record, move clock .filled "Market order filled" l with
    | some found, some moved =>
      let order := marketFilled found clock.now qty price exchangeOrderId
      mark (hand order qty (put order moved))
    | _, _ => l

def fillReason (order : OrderRecord F) (newFilled : F) : String :=
  if isFullFill order newFilled then "Full fill (fill event)" else "Partial fill (fill event)"

def trade (clock : Clock) (order : OrderRecord F) (fill : FillEvent F) (l : Life F) :
    Life F :=
  let updated := fillRecord order clock.now fill
  let recorded := put updated
    (tryMove clock updated.state (fillReason order updated.filledQuantity) l)
  mark (if 0 < fill.fillQuantity then
      if fill.fillPrice ≤ 0 then recorded else hand updated fill.fillQuantity recorded
    else recorded)

def report (clock : Clock) (qty price : F) (l : Life F) : Life F :=
  match l.record with
  | none => l
  | some found =>
    let order := reconciledRecord found clock.now l.applied qty price
    if order.state = .filled ∧ l.applied = false then
      hand order order.filledQuantity (mark (put order l))
    else put order l

def cancel (clock : Clock) (confirmed : Bool) (l : Life F) : Life F :=
  match l.record, move clock .cancelPending "Cancel requested" l with
  | some order, some pending =>
    if confirmed then releaseFor order (tryMove clock .cancelled "Cancel confirmed" pending)
    else force clock .unknownRecovery "Cancel rejected — awaiting reconciliation" pending
  | _, _ => l

def wantsRemainderCancelled (order : OrderRecord F) : Prop :=
  order.executionInfo.fillPolicy = .cancelRemaining ∧ order.state = .partiallyFilled ∧
    ¬ order.remainingQuantity ≤ 0

instance (order : OrderRecord F) : Decidable (wantsRemainderCancelled order) :=
  inferInstanceAs (Decidable (_ ∧ _))

def remainder (clock : Clock) (confirmed : Bool) (l : Life F) : Life F :=
  match l.record with
  | none => l
  | some order => if wantsRemainderCancelled order then cancel clock confirmed l else l

/-- An order update, once the id is resolved. Only an update by the internal id
reaches the policy. -/
def update (clock : Clock) (newState : OrderState) (qty price : F) (direct confirmed : Bool)
    (l : Life F) : Life F :=
  match l.record, move clock newState "Exchange update" l with
  | some order, some moved =>
    let released := if endsUnfilled newState then releaseFor order moved else moved
    if 0 < qty then
      if direct then remainder clock confirmed (report clock qty price released)
      else report clock qty price released
    else released
  | _, _ => l

def event (clock : Clock) (fill : FillEvent F) (accepted confirmed : Bool) (l : Life F) :
    Life F :=
  match l.record with
  | none => l
  | some order =>
    remainder clock confirmed (if accepted then trade clock order fill l else l)

def confirmation (clock : Clock) (a : AwaitingFill F) (answer : FillAnswer F) (l : Life F) :
    Life F :=
  let detail := answer.detail
  if detail.success = false then
    tryMove clock .opened "Fill confirmation failed — awaiting reconciliation" l
  else if isfinite detail.filledQty = false then
    if answer.retried then
      releaseFor a.order (tryMove clock .unknownRecovery "NaN filled_qty from exchange on retry" l)
    else tryMove clock .unknownRecovery "NaN filled_qty from exchange" l
  else if detail.filledQty ≤ 0 then
    releaseFor a.order (tryMove clock .cancelled
      ((if answer.retried then "Exchange reported no fill on retry: "
        else "Exchange reported no fill: ") ++ detail.status) l)
  else
    let sentQty :=
      if 0 < a.submittedQuantity then a.submittedQuantity else a.order.originalQuantity
    marketFill clock (if 0 < detail.filledQty then detail.filledQty else sentQty)
      (if 0 < detail.fillPrice then detail.fillPrice else a.marketFillPrice)
      a.order.exchangeOrderId l

def expire (clock : Clock) (maxAgeNs : ℤ) (l : Life F) : Life F :=
  match l.record with
  | none => l
  | some order =>
    if isTerminal order.state ∧ maxAgeNs < clock.now - order.lastUpdated then
      { l with record := none, fsm := none, applied := false }
    else l

def whenRecord (p : OrderRecord F → Bool) (g : OrderRecord F → Life F → Life F)
    (l : Life F) : Life F :=
  match l.record with
  | none => l
  | some order => if p order then g order l else l

def recoveredFill (clock : Clock) (order : OrderRecord F) (qty price : F) (confirmed : Bool)
    (l : Life F) : Life F :=
  let forced := force clock (fillTarget order qty) "Recovery: confirmed fill by exchange" l
  let updated := match forced.record with
    | none => forced
    | some current => put (recoveredRecord current clock.now qty price) forced
  if isFullFill order qty then updated
  else if confirmed then
    force clock .cancelled "Recovery: partial fill confirmed, remainder cancelled" updated
  else updated

def recover (clock : Clock) (detail : OrderFillDetail F) (confirmed : Bool)
    (order : OrderRecord F) (l : Life F) : Life F :=
  if detail.success = true ∧ 0 < detail.filledQty then
    recoveredFill clock order (recoveredQuantity order detail) detail.fillPrice confirmed l
  else if confirmed then
    force clock .cancelled "Recovery: confirmed cancelled on exchange" l
  else l

def isStale (clock : Clock) (state : OrderState) (maxMs : ℤ) (l : Life F) : Bool :=
  l.record.any (fun o => o.state == state) &&
    l.fsm.any (fun fsm => decide (maxMs < OrderFsm.timeInCurrentStateMs fsm clock))

def reconcile (clock : Clock) (timeoutMs : ℤ) (detail : OrderFillDetail F) (confirmed : Bool)
    (l : Life F) : Life F :=
  let marked := whenRecord (fun o => isActive o.state && isUncertain o)
    (fun _ => force clock .unknownRecovery "Recovery: uncertain order detected") l
  let recovered := whenRecord (fun o => o.state == .unknownRecovery)
    (recover clock detail confirmed) marked
  if isStale clock .cancelPending (timeoutMs * 3) recovered then
    force clock .cancelled "Recovery: stale CancelPending → force cancel" recovered
  else recovered

section Identity

section Primitives
omit [DoubleArith F]

def SameOrder (l m : Life F) : Prop :=
  ∀ order', m.record = some order' → ∃ order, l.record = some order ∧
    order'.orderId = order.orderId ∧ order'.tradeSide = order.tradeSide

theorem same_record (l m : Life F) (h : m.record = l.record) : SameOrder l m := by
  intro order' ho
  exact ⟨order', h ▸ ho, rfl, rfl⟩

theorem same_refl (l : Life F) : SameOrder l l := same_record l l rfl

theorem same_trans {l m n : Life F} (h : SameOrder l m) (k : SameOrder m n) : SameOrder l n := by
  intro o'' ho''
  obtain ⟨o', ho', hid', hside'⟩ := k o'' ho''
  obtain ⟨o, ho, hid, hside⟩ := h o' ho'
  exact ⟨o, ho, hid'.trans hid, hside'.trans hside⟩

variable (clock : Clock) (target : OrderState)

theorem same_setState (l m : Life F)
    (h : m.record = l.record.map (setState clock target)) : SameOrder l m := by
  intro order' ho
  rw [h] at ho
  obtain ⟨order, hl, rfl⟩ := Option.map_eq_some_iff.mp ho
  exact ⟨order, hl, rfl, rfl⟩

theorem move_some {clock : Clock} {target : OrderState} {reason : String} {l m : Life F}
    (h : move clock target reason l = some m) :
    ∃ fsm, l.fsm = some fsm ∧ isValidTransition fsm.state target = true ∧
      m = { l with
        record := l.record.map (setState clock target)
        fsm := some (OrderFsm.record fsm clock target reason) } := by
  unfold move at h
  obtain ⟨fsm, hfsm, hmap⟩ := Option.bind_eq_some_iff.mp h
  obtain ⟨fsm', hfsm', rfl⟩ := Option.map_eq_some_iff.mp hmap
  unfold OrderFsm.transition at hfsm'
  split_ifs at hfsm' with hvalid
  rw [Option.some.injEq] at hfsm'
  subst hfsm'
  exact ⟨fsm, hfsm, hvalid, rfl⟩

theorem move_record {clock : Clock} {target : OrderState} {reason : String} {l m : Life F}
    (h : move clock target reason l = some m) :
    m.record = l.record.map (setState clock target) := by
  obtain ⟨fsm, -, -, rfl⟩ := move_some h
  rfl

structure Kept (l m : Life F) : Prop where
  applied : m.applied = l.applied
  reserved : m.reserved = l.reserved
  passed : m.passed = l.passed

theorem move_kept {clock : Clock} {target : OrderState} {reason : String} {l m : Life F}
    (h : move clock target reason l = some m) : Kept l m := by
  obtain ⟨fsm, -, -, rfl⟩ := move_some h
  exact ⟨rfl, rfl, rfl⟩

theorem tryMove_kept (reason : String) (l : Life F) : Kept l (tryMove clock target reason l) := by
  unfold tryMove
  cases h : move clock target reason l with
  | none => exact ⟨rfl, rfl, rfl⟩
  | some m => exact move_kept h

theorem tryMove_record (reason : String) (l : Life F)
    (order : OrderRecord F) (h : l.record = some order) :
    (tryMove clock target reason l).record = some order ∨
      (tryMove clock target reason l).record = some (setState clock target order) := by
  unfold tryMove
  cases hmove : move clock target reason l with
  | none => exact .inl h
  | some m => exact .inr (by simp [move_record hmove, h])

theorem put_record (order found : OrderRecord F) (l : Life F) (h : l.record = some found) :
    (put order l).record = some order := by
  rw [put, h]
  rfl

def InState (l : Life F) (s : OrderState) : Prop := l.fsm.map OrderFsm.state = some s

theorem move_refused (target s : OrderState) (reason : String) (l : Life F)
    (hs : InState l s) (h : isValidTransition s target = false) :
    move clock target reason l = none := by
  obtain ⟨fsm, hfsm, rfl⟩ := Option.map_eq_some_iff.mp hs
  simp [move, hfsm, OrderFsm.transition, h]

theorem move_accepted (target s : OrderState) (reason : String) (l : Life F)
    (hs : InState l s) (h : isValidTransition s target = true) :
    ∃ m, move clock target reason l = some m ∧ InState m target ∧
      m.record = l.record.map (setState clock target) ∧ m.applied = l.applied := by
  obtain ⟨fsm, hfsm, rfl⟩ := Option.map_eq_some_iff.mp hs
  refine ⟨{ l with record := l.record.map (setState clock target),
                   fsm := some (OrderFsm.record fsm clock target reason) }, ?_, rfl, rfl, rfl⟩
  simp [move, hfsm, OrderFsm.transition, h]

structure Alike (order found : OrderRecord F) : Prop where
  orderId : order.orderId = found.orderId
  tradeSide : order.tradeSide = found.tradeSide
  state : order.state = found.state

structure KeptByMoves (R : Life F → Life F → Prop) : Prop where
  refl : ∀ l, R l l
  trans : ∀ {l m n}, R l m → R m n → R l n
  move : ∀ {clock target reason l m}, move clock target reason l = some m → R l m
  force : ∀ clock target reason l, R l (force clock target reason l)
  releaseFor : ∀ order l, R l (releaseFor order l)

structure KeptByRecovery (R : Life F → Life F → Prop) : Prop where
  refl : ∀ l, R l l
  trans : ∀ {l m n}, R l m → R m n → R l n
  force : ∀ clock target reason l, R l (force clock target reason l)
  put : ∀ (l : Life F) (order : OrderRecord F),
    (∀ found, l.record = some found → Alike order found) → R l (put order l)

structure KeptBySteps (R : Life F → Life F → Prop) : Prop
    extends KeptByMoves R, KeptByRecovery R where
  same : ∀ l m : Life F, m.fsm = l.fsm → m.record = l.record → R l m
  cleared : ∀ l m : Life F, m.record = none → m.fsm = none → R l m

namespace KeptByMoves
variable {R : Life F → Life F → Prop} (h : KeptByMoves R)
include h

theorem tryMove (clock : Clock) (target : OrderState) (reason : String) (l : Life F) :
    R l (tryMove clock target reason l) := by
  unfold OrderLife.tryMove
  cases hmove : OrderLife.move clock target reason l with
  | none => exact h.refl l
  | some m => exact h.move hmove

theorem cancel (clock : Clock) (confirmed : Bool) (l : Life F) :
    R l (cancel clock confirmed l) := by
  unfold OrderLife.cancel
  cases l.record with
  | none => exact h.refl l
  | some order =>
    cases hmove : OrderLife.move clock .cancelPending "Cancel requested" l with
    | none => exact h.refl l
    | some pending =>
      dsimp only
      split_ifs
      · exact h.trans (h.move hmove)
          (h.trans (h.tryMove clock .cancelled _ pending) (h.releaseFor order _))
      · exact h.trans (h.move hmove) (h.force clock .unknownRecovery _ pending)

end KeptByMoves

theorem same_moves : KeptByMoves (@SameOrder F) where
  refl := same_refl
  trans := same_trans
  move := by
    intro clock target reason l m h
    obtain ⟨fsm, -, -, rfl⟩ := move_some h
    exact same_setState clock target l _ rfl
  force := by
    intro clock target reason l
    unfold force
    cases l.fsm with
    | none => exact same_refl l
    | some fsm => exact same_setState clock target l _ rfl
  releaseFor := by
    intro order l
    unfold releaseFor
    split_ifs
    · exact same_record l _ rfl
    · exact same_refl l

theorem same_put (l m : Life F) (order found : OrderRecord F) (hl : l.record = some found)
    (hid : order.orderId = found.orderId) (hside : order.tradeSide = found.tradeSide) :
    SameOrder l (put order m) := by
  intro order' ho
  obtain ⟨x, hx, rfl⟩ := Option.map_eq_some_iff.mp ho
  exact ⟨found, hl, hid, hside⟩

end Primitives

variable (clock : Clock)

theorem same_trade (order : OrderRecord F) (fill : FillEvent F) (l : Life F)
    (hrec : l.record = some order) : SameOrder l (trade clock order fill l) := by
  have h := same_put l (tryMove clock (fillRecord order clock.now fill).state
      (fillReason order (fillRecord order clock.now fill).filledQuantity) l)
    (fillRecord order clock.now fill) order hrec rfl rfl
  unfold trade
  dsimp only
  split_ifs
  · exact h
  · exact h
  · exact h

theorem trade_record (order : OrderRecord F) (fill : FillEvent F) (l : Life F)
    (hrec : l.record = some order) :
    (trade clock order fill l).record = some (fillRecord order clock.now fill) := by
  have hput : (put (fillRecord order clock.now fill)
      (tryMove clock (fillRecord order clock.now fill).state
        (fillReason order (fillRecord order clock.now fill).filledQuantity) l)).record =
      some (fillRecord order clock.now fill) := by
    rcases tryMove_record clock (fillRecord order clock.now fill).state
      (fillReason order (fillRecord order clock.now fill).filledQuantity) l order hrec with h | h
    · exact put_record _ _ _ h
    · exact put_record _ _ _ h
  unfold trade
  dsimp only
  split_ifs
  all_goals exact hput

/-- A report puts the larger quantity into the record of an order that is not
filled. -/
theorem report_outcome (qty price : F) (l : Life F) (order : OrderRecord F)
    (hrec : l.record = some order) (hstate : order.state ≠ .filled) :
    (report clock qty price l).record =
        some (reconciledRecord order clock.now l.applied qty price) ∧
      (report clock qty price l).fsm = l.fsm := by
  unfold report
  simp only [hrec]
  rw [if_neg (fun h => hstate h.1)]
  exact ⟨put_record _ order l hrec, rfl⟩

namespace KeptByMoves
variable {R : Life F → Life F → Prop} (h : KeptByMoves R)
include h

theorem remainder (clock : Clock) (confirmed : Bool) (l : Life F) :
    R l (remainder clock confirmed l) := by
  unfold OrderLife.remainder
  cases l.record with
  | none => exact h.refl l
  | some order =>
    dsimp only
    split_ifs
    · exact h.cancel clock confirmed l
    · exact h.refl l

end KeptByMoves

namespace KeptByRecovery
variable {R : Life F → Life F → Prop} (h : KeptByRecovery R)
include h

omit [DoubleArith F] in
theorem whenRecord (p : OrderRecord F → Bool) (g : OrderRecord F → Life F → Life F)
    (l : Life F) (hg : ∀ order, l.record = some order → R l (g order l)) :
    R l (whenRecord p g l) := by
  unfold OrderLife.whenRecord
  cases hrec : l.record with
  | none => exact h.refl l
  | some order =>
    dsimp only
    split_ifs
    · exact hg order hrec
    · exact h.refl l

theorem recoveredFill (clock : Clock) (order : OrderRecord F) (qty price : F)
    (confirmed : Bool) (l : Life F) : R l (recoveredFill clock order qty price confirmed l) := by
  have hforced := h.force clock (fillTarget order qty) "Recovery: confirmed fill by exchange" l
  unfold OrderLife.recoveredFill
  dsimp only
  generalize OrderLife.force clock (fillTarget order qty) "Recovery: confirmed fill by exchange" l =
    forced at hforced ⊢
  have hrest : ∀ m, R l m → R l (if isFullFill order qty then m
      else if confirmed then
        OrderLife.force clock .cancelled "Recovery: partial fill confirmed, remainder cancelled" m
      else m) := by
    intro m hm
    split_ifs
    · exact hm
    · exact h.trans hm (h.force clock .cancelled _ m)
    · exact hm
  cases hrec : forced.record with
  | none => exact hrest _ hforced
  | some current =>
    apply hrest
    apply h.trans hforced
    apply h.put forced
    intro x hx
    rw [hrec, Option.some.injEq] at hx
    rw [← hx]
    exact ⟨rfl, rfl, rfl⟩

theorem recover (clock : Clock) (detail : OrderFillDetail F) (confirmed : Bool)
    (order : OrderRecord F) (l : Life F) : R l (recover clock detail confirmed order l) := by
  unfold OrderLife.recover
  split_ifs
  · exact h.recoveredFill clock order _ _ confirmed l
  · exact h.force clock _ _ l
  · exact h.refl l

theorem reconcile (clock : Clock) (timeoutMs : ℤ) (detail : OrderFillDetail F)
    (confirmed : Bool) (l : Life F) : R l (reconcile clock timeoutMs detail confirmed l) := by
  have hrecovered := h.trans
    (h.whenRecord (fun o => isActive o.state && isUncertain o)
      (fun _ => OrderLife.force clock .unknownRecovery "Recovery: uncertain order detected") l
      (fun _ _ => h.force clock _ _ l))
    (h.whenRecord (fun o => o.state == .unknownRecovery)
      (OrderLife.recover clock detail confirmed) _
      (fun order _ => h.recover clock detail confirmed order _))
  unfold OrderLife.reconcile
  dsimp only
  split_ifs
  · exact h.trans hrecovered (h.force clock _ _ _)
  · exact hrecovered

end KeptByRecovery

namespace KeptBySteps
variable {R : Life F → Life F → Prop} (h : KeptBySteps R)
include h

variable (clock : Clock)

omit [DoubleArith F] in
theorem expire (maxAgeNs : ℤ) (l : Life F) : R l (expire clock maxAgeNs l) := by
  unfold OrderLife.expire
  cases l.record with
  | none => exact h.refl l
  | some order =>
    dsimp only
    split_ifs
    · exact h.cleared l _ rfl rfl
    · exact h.refl l

theorem marketFill (qty price : F) (ex : OrderId) (l : Life F) :
    R l (marketFill clock qty price ex l) := by
  unfold OrderLife.marketFill
  split_ifs
  · exact h.refl l
  · exact h.refl l
  · exact h.refl l
  · cases hrec : l.record with
    | none => exact h.refl l
    | some found =>
      cases hmove : move clock .filled "Market order filled" l with
      | none => exact h.refl l
      | some moved =>
        have hput := h.put moved (marketFilled found clock.now qty price ex) (by
          intro x hx
          rw [move_record hmove, hrec, Option.map_some, Option.some.injEq] at hx
          rw [← hx]
          exact ⟨rfl, rfl, rfl⟩)
        exact h.trans (h.move hmove) (h.trans hput (h.same _ _ rfl rfl))

theorem report (qty price : F) (l : Life F) : R l (report clock qty price l) := by
  unfold OrderLife.report
  cases hrec : l.record with
  | none => exact h.refl l
  | some found =>
    have hput := h.put l (reconciledRecord found clock.now l.applied qty price) (by
      intro x hx
      rw [hrec, Option.some.injEq] at hx
      rw [← hx]
      exact ⟨rfl, rfl, rfl⟩)
    dsimp only
    split_ifs
    · exact h.trans hput (h.same _ _ rfl rfl)
    · exact hput

theorem update (newState : OrderState) (qty price : F) (direct confirmed : Bool) (l : Life F) :
    R l (update clock newState qty price direct confirmed l) := by
  unfold OrderLife.update
  cases l.record with
  | none => exact h.refl l
  | some order =>
    cases hmove : move clock newState "Exchange update" l with
    | none => exact h.refl l
    | some moved =>
      have hreleased : R l (if endsUnfilled newState then releaseFor order moved else moved) := by
        split_ifs
        · exact h.trans (h.move hmove) (h.releaseFor order moved)
        · exact h.move hmove
      dsimp only
      generalize (if endsUnfilled newState then releaseFor order moved else moved) = released
        at hreleased ⊢
      have hreported := h.trans hreleased (h.report clock qty price released)
      split_ifs
      · exact h.trans hreported (h.remainder clock confirmed _)
      · exact hreported
      · exact hreleased

theorem confirmation (a : AwaitingFill F) (answer : FillAnswer F)
    (l : Life F) : R l (confirmation clock a answer l) := by
  have hreleased : ∀ target reason, R l (releaseFor a.order (tryMove clock target reason l)) :=
    fun target reason => h.trans (h.tryMove clock target reason l) (h.releaseFor a.order _)
  unfold OrderLife.confirmation
  dsimp only
  split_ifs
  · exact h.tryMove clock _ _ l
  · exact hreleased _ _
  · exact h.tryMove clock _ _ l
  · exact hreleased _ _
  · exact hreleased _ _
  all_goals exact h.marketFill clock _ _ _ l

end KeptBySteps

omit [DoubleArith F] in
theorem same_steps : KeptBySteps (@SameOrder F) where
  toKeptByMoves := same_moves
  same l m _ := same_record l m
  put := by
    intro l order halike order' ho
    obtain ⟨x, hx, rfl⟩ := Option.map_eq_some_iff.mp ho
    exact ⟨x, hx, (halike x hx).orderId, (halike x hx).tradeSide⟩
  cleared := by
    intro l m hm _ order' ho
    rw [hm] at ho
    exact absurd ho (by simp)

theorem same_event (fill : FillEvent F) (accepted confirmed : Bool)
    (l : Life F) : SameOrder l (event clock fill accepted confirmed l) := by
  unfold event
  cases hrec : l.record with
  | none => exact same_refl l
  | some order =>
    dsimp only
    split_ifs
    · exact same_trans (same_trade clock order fill l hrec)
        (same_moves.remainder clock confirmed _)
    · exact same_moves.remainder clock confirmed l

end Identity

end TB.OrderLife
