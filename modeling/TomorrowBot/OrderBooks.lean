import TomorrowBot.OrderAgreement
import TomorrowBot.OrderLedger

/-!
# The books of one order

Trades are entered in the ledger of their order and handed to the portfolio;
cumulative quantities raise the filled quantity of the record and are handed
over once, when the order is filled and nothing was applied before. An order
that ends is accounted for when its ledger covers its filled quantity, or when
the whole quantity is handed over with an empty ledger.
-/

set_option autoImplicit false

namespace TB.OrderBooks
open TB.CommonTypes TB.OrderTypes TB.Orders TB.FillProcessor
open TB.RecoveryManager TB.ExecutionEngine TB.OrderLife
open TB.LifeSteps TB.EngineBirths TB.OrderAgreement TB.OrderLedger

section Books

def machineState (l : Life ℚ) : Option OrderState := l.fsm.map (fun fsm => fsm.state)

inductive Booked (l : Life ℚ) : Prop where
  | gone (hrec : l.record = none)
  | running (hfsm : machineState l ≠ some .filled) (hpassed : l.passed.sum = total (fills l))
  | done (order : OrderRecord ℚ) (hrec : l.record = some order)
      (hfsm : machineState l = some .filled)
      (hstate : order.state = .filled ∨ order.state = .partiallyFilled)
      (hpassed : l.passed.sum = order.filledQuantity ∨
        (order.state = .filled ∧ isFullFill order order.filledQuantity))

inductive Quiet (l m : Life ℚ) : Prop where
  | same (hrec : m.record = l.record) (hfsm : m.fsm = l.fsm) (hpassed : m.passed = l.passed)
  | moved (hfills : fills m = fills l) (hpassed : m.passed = l.passed)
      (hl : machineState l ≠ some .filled) (hm : machineState m ≠ some .filled)

theorem quiet_refl (l : Life ℚ) : Quiet l l := .same rfl rfl rfl

theorem quiet_trans {l m n : Life ℚ} (h : Quiet l m) (k : Quiet m n) : Quiet l n := by
  cases h with
  | same hrec hfsm hpassed =>
    cases k with
    | same hrec' hfsm' hpassed' =>
      exact .same (hrec'.trans hrec) (hfsm'.trans hfsm) (hpassed'.trans hpassed)
    | moved hfills' hpassed' hl' hm' =>
      refine .moved (hfills'.trans ?_) (hpassed'.trans hpassed) ?_ hm'
      · rw [fills, fills, hrec]
      · rw [machineState, ← hfsm]
        exact hl'
  | moved hfills hpassed hl hm =>
    cases k with
    | same hrec' hfsm' hpassed' =>
      refine .moved ?_ (hpassed'.trans hpassed) hl ?_
      · rw [← hfills, fills, fills, hrec']
      · rw [machineState, hfsm']
        exact hm
    | moved hfills' hpassed' _ hm' =>
      exact .moved (hfills'.trans hfills) (hpassed'.trans hpassed) hl hm'

theorem booked_quiet {l m : Life ℚ} (h : Quiet l m) (hsame : SameOrder l m) (hb : Booked l) :
    Booked m := by
  cases h with
  | same hrec hfsm hpassed =>
    cases hb with
    | gone hnone => exact .gone (hrec.trans hnone)
    | running hm hp =>
      refine .running ?_ ?_
      · rw [machineState, hfsm]
        exact hm
      · rw [hpassed, hp, fills, fills, hrec]
    | done order hrec' hm hstate hp =>
      refine .done order (hrec.trans hrec') ?_ hstate ?_
      · rw [machineState, hfsm]
        exact hm
      · rw [hpassed]
        exact hp
  | moved hfills hpassed hl hm =>
    cases hb with
    | gone hnone =>
      apply Booked.gone
      cases hrec : m.record with
      | none => rfl
      | some order' =>
        obtain ⟨order, ho, -⟩ := hsame order' hrec
        rw [hnone] at ho
        exact absurd ho (by simp)
    | running _ hp => exact .running hm (by rw [hpassed, hp, hfills])
    | done _ _ hfilled _ _ => exact absurd hfilled hl

/-- The machine of a valid move was not filled, and holds the target after it. -/
theorem move_machine {clock : Clock} {target : OrderState} {reason : String} {l m : Life ℚ}
    (h : move clock target reason l = some m) :
    machineState l ≠ some .filled ∧ machineState m = some target := by
  constructor
  · intro hfilled
    rw [filled_stuck clock target reason l hfilled] at h
    exact absurd h (by simp)
  · obtain ⟨fsm, -, -, rfl⟩ := move_some h
    rfl

theorem quiet_move {clock : Clock} {target : OrderState} {reason : String} {l m : Life ℚ}
    (ht : target ≠ .filled) (h : move clock target reason l = some m) : Quiet l m := by
  obtain ⟨hl, hm⟩ := move_machine h
  refine .moved (sameFills_move h).fills (move_kept h).passed hl ?_
  rw [hm]
  simpa using ht

variable (clock : Clock)

theorem quiet_tryMove (target : OrderState) (reason : String) (l : Life ℚ)
    (ht : target ≠ .filled) : Quiet l (tryMove clock target reason l) := by
  unfold tryMove
  cases h : move clock target reason l with
  | none => exact quiet_refl l
  | some m => exact quiet_move ht h

theorem quiet_force (target : OrderState) (reason : String) (l : Life ℚ)
    (ht : target ≠ .filled) (hl : machineState l ≠ some .filled) :
    Quiet l (force clock target reason l) := by
  have hsame := sameFills_moves.force clock target reason l
  refine .moved hsame.fills hsame.passed hl ?_
  unfold force
  cases hf : l.fsm with
  | none =>
    simp only [machineState, hf]
    simp
  | some fsm =>
    simp only [machineState, OrderFsm.forceTransition, OrderFsm.record, Option.map_some]
    simpa using ht

theorem quiet_releaseFor (order : OrderRecord ℚ) (l : Life ℚ) : Quiet l (releaseFor order l) := by
  unfold releaseFor
  split_ifs
  · exact .same rfl rfl rfl
  · exact quiet_refl l

theorem quiet_cancel (confirmed : Bool) (l : Life ℚ) : Quiet l (cancel clock confirmed l) := by
  unfold cancel
  cases l.record with
  | none => exact quiet_refl l
  | some order =>
    cases hmove : move clock .cancelPending "Cancel requested" l with
    | none => exact quiet_refl l
    | some pending =>
      have h := quiet_move (by decide) hmove
      have hpending : machineState pending ≠ some .filled := by
        rw [(move_machine hmove).2]
        decide
      cases confirmed with
      | true =>
        exact quiet_trans h (quiet_trans (quiet_tryMove clock _ _ pending (by decide))
          (quiet_releaseFor order _))
      | false => exact quiet_trans h (quiet_force clock _ _ pending (by decide) hpending)

theorem quiet_remainder (confirmed : Bool) (l : Life ℚ) :
    Quiet l (remainder clock confirmed l) := by
  unfold remainder
  cases l.record with
  | none => exact quiet_refl l
  | some order =>
    dsimp only
    split_ifs
    · exact quiet_cancel clock confirmed l
    · exact quiet_refl l

/-- The machine of an order whose record is in neither of the states of a fill is
not filled. -/
theorem booked_open (l : Life ℚ) (hb : Booked l) (order : OrderRecord ℚ)
    (hrec : l.record = some order) (hf : order.state ≠ .filled)
    (hp : order.state ≠ .partiallyFilled) : machineState l ≠ some .filled := by
  cases hb with
  | gone hnone =>
    rw [hrec] at hnone
    exact absurd hnone (by simp)
  | running hfsm _ => exact hfsm
  | done found hfound _ hstate _ =>
    rw [hrec, Option.some.injEq] at hfound
    subst hfound
    rcases hstate with h | h
    · exact absurd h hf
    · exact absurd h hp

/-- Until its machine is filled, the trades of a live order are all that was
handed over. -/
theorem booked_running (l : Life ℚ) (hb : Booked l) (order : OrderRecord ℚ)
    (hrec : l.record = some order) (hfsm : machineState l ≠ some .filled) :
    l.passed.sum = total (fills l) := by
  cases hb with
  | gone hnone =>
    rw [hrec] at hnone
    exact absurd hnone (by simp)
  | running _ hpassed => exact hpassed
  | done _ _ hfilled _ _ => exact absurd hfilled hfsm

end Books

section Ends

def ended : OrderState → Bool
  | .filled | .cancelled | .expired => true
  | _ => false

def Accounted (l m : Life ℚ) : Prop :=
  ∀ order order', l.record = some order → m.record = some order' →
    order'.state ≠ order.state → ended order'.state = true →
    m.passed.sum = order'.filledQuantity

theorem accounted_refl (l : Life ℚ) : Accounted l l := by
  intro order order' ho ho' hne
  rw [ho, Option.some.injEq] at ho'
  exact absurd (by rw [ho']) hne

theorem filled_record (l : Life ℚ) (order : OrderRecord ℚ) (h : l.record = some order) :
    filled l = order.filledQuantity := by
  rw [filled, h]
  rfl

variable (clock : Clock)

theorem booked_marketFill (qty price : ℚ) (ex : OrderId) (l : Life ℚ) (hb : Booked l)
    (hno : l.applied = false → 0 < price → canMoveTo .filled l = true → total (fills l) = 0) :
    Booked (marketFill clock qty price ex l) ∧ Accounted l (marketFill clock qty price ex l) := by
  have hsame : Booked l ∧ Accounted l l := ⟨hb, accounted_refl l⟩
  unfold marketFill
  by_cases happlied : l.applied = true
  · rw [if_pos happlied]
    exact hsame
  rw [if_neg happlied]
  by_cases hprice : isfinite price = false ∨ price ≤ 0
  · rw [if_pos hprice]
    exact hsame
  rw [if_neg hprice]
  by_cases hqty : isfinite qty = false ∨ qty ≤ 0
  · rw [if_pos hqty]
    exact hsame
  rw [if_neg hqty]
  cases hrec : l.record with
  | none => exact hsame
  | some found =>
    cases hmove : move clock .filled "Market order filled" l with
    | none => exact hsame
    | some moved =>
      rw [not_or, not_le] at hprice
      rw [Bool.not_eq_true] at happlied
      have hempty := hno happlied hprice.2 (canMove_of_move hmove)
      obtain ⟨hl, hm⟩ := move_machine hmove
      have hpassed : (hand (marketFilled found clock.now qty price ex) qty
          (put (marketFilled found clock.now qty price ex) moved)).passed.sum = qty := by
        rw [hand, put, List.sum_append, (move_kept hmove).passed,
          booked_running l hb found hrec hl, hempty]
        simp
      have hrecord : (put (marketFilled found clock.now qty price ex) moved).record =
          some (marketFilled found clock.now qty price ex) := by
        rw [put, move_record hmove, hrec]
        rfl
      constructor
      · exact .done _ hrecord hm (.inl rfl) (.inl hpassed)
      · intro order order' _ ho' _ _
        have hrecord' := hrecord.symm.trans ho'
        rw [Option.some.injEq] at hrecord'
        rw [← hrecord']
        exact hpassed

variable (confirmed : Bool)

/-- What the policy can do to an order that ends: nothing, or it was confirmed to
cancel the rest of it. -/
theorem remainder_ended (l : Life ℚ) (order order' : OrderRecord ℚ) (hrec : l.record = some order)
    (hrec' : (remainder clock confirmed l).record = some order')
    (hended : ended order'.state = true) :
    remainder clock confirmed l = l ∨
      (confirmed = true ∧ wantsRemainderCancelled order ∧ canMoveTo .cancelPending l = true) := by
  revert hrec'
  unfold remainder
  rw [hrec]
  dsimp only
  split_ifs with hwants
  · unfold cancel
    rw [hrec]
    cases hmove : move clock .cancelPending "Cancel requested" l with
    | none => exact fun _ => .inl rfl
    | some pending =>
      obtain ⟨fsm, hfsm, -, hpending⟩ := move_some hmove
      cases confirmed with
      | true => exact fun _ => .inr ⟨rfl, hwants, canMove_of_move hmove⟩
      | false =>
        intro hrec'
        -- A refused cancel leaves the order in the state for recovery.
        subst hpending
        simp only [force, hrec, Bool.false_eq_true, if_false, Option.map_some,
          Option.some.injEq] at hrec'
        rw [← hrec'] at hended
        exact absurd hended (by simp [setState, ended])
  · exact fun _ => .inl rfl

theorem remainder_filled (l : Life ℚ) (order order' : OrderRecord ℚ) (hrec : l.record = some order)
    (hrec' : (remainder clock confirmed l).record = some order') :
    (remainder clock confirmed l).passed = l.passed ∧
      order'.filledQuantity = order.filledQuantity := by
  have hsame := sameFills_moves.remainder clock confirmed l
  refine ⟨hsame.passed, ?_⟩
  have hfilled := hsame.filled
  rw [filled_record _ order' hrec', filled_record _ order hrec] at hfilled
  exact hfilled

def reportedQuantity (order : OrderRecord ℚ) (qty : ℚ) : ℚ :=
  if 0 < qty then max order.filledQuantity qty else order.filledQuantity

def UpdateEnds (order : OrderRecord ℚ) (newState : OrderState) (qty : ℚ)
    (direct confirmed : Bool) : Prop :=
  ended newState = true ∨
    (newState = .partiallyFilled ∧ 0 < qty ∧ direct = true ∧ confirmed = true ∧
      order.executionInfo.fillPolicy = .cancelRemaining ∧
      reportedQuantity order qty < order.originalQuantity)

/-- A quantity is handed over whole only to an order without trades; any other
update that ends the order finds its trades covering the quantity. -/
def UpdateCovered (l : Life ℚ) (newState : OrderState) (qty : ℚ) (direct confirmed : Bool) :
    Prop :=
  ∀ order, l.record = some order → canMoveTo newState l = true →
    if newState = .filled ∧ 0 < qty ∧ l.applied = false then total (fills l) = 0
    else UpdateEnds order newState qty direct confirmed →
      total (fills l) = reportedQuantity order qty

/-- The report of an update that fills the order and finds nothing applied. -/
theorem report_whole (qty price : ℚ) (l : Life ℚ) (order : OrderRecord ℚ)
    (hrec : l.record = some order) (hstate : order.state = .filled) (happlied : l.applied = false)
    (hpassed : l.passed.sum = 0) :
    (report clock qty price l).fsm = l.fsm ∧ ∃ order', (report clock qty price l).record =
      some order' ∧ order'.state = .filled ∧
      (report clock qty price l).passed.sum = order'.filledQuantity := by
  have happly : (reconciledRecord order clock.now l.applied qty price).state = .filled ∧
      l.applied = false := ⟨hstate, happlied⟩
  unfold report
  rw [hrec]
  dsimp only
  rw [if_pos happly]
  refine ⟨rfl, reconciledRecord order clock.now l.applied qty price, ?_, hstate, ?_⟩
  · exact put_record _ order l hrec
  · rw [hand, mark, put, List.sum_append, hpassed]
    simp

theorem report_kept (qty price : ℚ) (l : Life ℚ) (order : OrderRecord ℚ)
    (hrec : l.record = some order) (h : ¬ (order.state = .filled ∧ l.applied = false)) :
    (report clock qty price l).fsm = l.fsm ∧ (report clock qty price l).passed = l.passed ∧
      fills (report clock qty price l) = fills l ∧
      ∃ order', (report clock qty price l).record = some order' ∧ order'.state = order.state ∧
        order'.filledQuantity = max order.filledQuantity qty ∧
        order'.remainingQuantity =
          max 0 (order.originalQuantity - max order.filledQuantity qty) ∧
        order'.executionInfo = order.executionInfo := by
  have happly : ¬ ((reconciledRecord order clock.now l.applied qty price).state = .filled ∧
      l.applied = false) := h
  have hreport : report clock qty price l =
      put (reconciledRecord order clock.now l.applied qty price) l := by
    unfold report
    rw [hrec]
    exact if_neg happly
  rw [hreport]
  refine ⟨rfl, rfl, (reported_fills order clock.now l.applied qty price l hrec).1,
    reconciledRecord order clock.now l.applied qty price, put_record _ order l hrec, rfl, ?_, ?_,
    rfl⟩
  · exact stdMax_rat order.filledQuantity qty
  · simp only [reconciledRecord, stdMax_rat]

/-- An order that was accounted for before the policy acts, or that the policy
ends with everything handed over, is accounted for afterwards. -/
theorem accounted_remainder (l m : Life ℚ)
    (order found : OrderRecord ℚ) (hl : l.record = some order) (hm : m.record = some found)
    (hended : found.state ≠ order.state → ended found.state = true →
      m.passed.sum = found.filledQuantity)
    (hcancel : confirmed = true → wantsRemainderCancelled found →
      canMoveTo .cancelPending m = true → m.passed.sum = found.filledQuantity) :
    Accounted l (remainder clock confirmed m) := by
  intro before after hbefore hafter hne hend
  rw [hl, Option.some.injEq] at hbefore
  subst hbefore
  obtain ⟨hpassed, hfilled⟩ := remainder_filled clock confirmed m found after hm hafter
  rw [hpassed, hfilled]
  rcases remainder_ended clock confirmed m found after hm hafter hend with
    hsame | ⟨hconfirmed, hwants, hmove⟩
  · rw [hsame, hm, Option.some.injEq] at hafter
    subst hafter
    exact hended hne hend
  · exact hcancel hconfirmed hwants hmove

theorem booked_remainder (l : Life ℚ) (hb : Booked l) : Booked (remainder clock confirmed l) :=
  booked_quiet (quiet_remainder clock confirmed l) (same_moves.remainder clock confirmed l) hb

theorem accounted_of (l m : Life ℚ) (order found : OrderRecord ℚ) (hl : l.record = some order)
    (hm : m.record = some found)
    (hended : found.state ≠ order.state → ended found.state = true →
      m.passed.sum = found.filledQuantity) : Accounted l m := by
  intro before after hbefore hafter hne hend
  rw [hl, Option.some.injEq] at hbefore
  rw [hm, Option.some.injEq] at hafter
  subst hbefore hafter
  exact hended hne hend

structure Released (clock : Clock) (newState : OrderState) (l m : Life ℚ)
    (order : OrderRecord ℚ) : Prop where
  record : m.record = some (setState clock newState order)
  machine : machineState m = some newState
  passed : m.passed.sum = total (fills l)
  fills : fills m = fills l
  applied : m.applied = l.applied

section Updates
variable (clock : Clock) (newState : OrderState) (qty price : ℚ) (direct confirmed : Bool)
  (l m : Life ℚ) (order : OrderRecord ℚ)

theorem update_silent (hrec : l.record = some order) (h : Released clock newState l m order)
    (hcovered : ended newState = true → total (fills l) = order.filledQuantity) :
    Booked m ∧ Accounted l m := by
  have hended : ended newState = true → m.passed.sum = order.filledQuantity := by
    intro he
    rw [h.passed, hcovered he]
  constructor
  · by_cases hfill : newState = .filled
    · refine .done _ h.record (h.machine.trans (by rw [hfill])) (.inl hfill) (.inl ?_)
      exact hended (by rw [hfill]; rfl)
    · refine .running ?_ (h.passed.trans (by rw [h.fills]))
      rw [h.machine]
      simpa using hfill
  · exact accounted_of l m order _ hrec h.record (fun _ he => hended he)

theorem update_whole (hrec : l.record = some order) (h : Released clock .filled l m order)
    (happlied : l.applied = false) (hempty : total (fills l) = 0) :
    Booked (report clock qty price m) ∧ Accounted l (report clock qty price m) ∧
      Accounted l (remainder clock confirmed (report clock qty price m)) := by
  obtain ⟨hfsm, found, hfound, hstate, hsum⟩ := report_whole clock qty price m _ h.record rfl
    (h.applied.trans happlied) (h.passed.trans hempty)
  refine ⟨.done found hfound ?_ (.inl hstate) (.inl hsum), ?_, ?_⟩
  · rw [machineState, hfsm]
    exact h.machine
  · exact accounted_of l _ order found hrec hfound (fun _ _ => hsum)
  · exact accounted_remainder clock confirmed l _ order found hrec hfound
      (fun _ _ => hsum) (fun _ _ _ => hsum)

/-- The update only raises the quantity of the record. -/
theorem update_raised (hrec : l.record = some order) (h : Released clock newState l m order)
    (hqty : 0 < qty) (hkept : ¬ (newState = .filled ∧ l.applied = false))
    (hcovered : UpdateEnds order newState qty direct confirmed →
      total (fills l) = reportedQuantity order qty) :
    Booked (report clock qty price m) ∧ Accounted l (report clock qty price m) ∧
      (direct = true → Accounted l (remainder clock confirmed (report clock qty price m))) := by
  obtain ⟨hfsm, hpassed, hfills, found, hfound, hstate, hfilled, hremaining, hinfo⟩ :=
    report_kept clock qty price m _ h.record (by
      rw [h.applied]
      exact hkept)
  have hnew : found.state = newState := hstate
  have hreported : found.filledQuantity = reportedQuantity order qty := by
    rw [hfilled, reportedQuantity, if_pos hqty]
    rfl
  have hsum : UpdateEnds order newState qty direct confirmed →
      (report clock qty price m).passed.sum = found.filledQuantity := by
    intro hends
    rw [hpassed, h.passed, hcovered hends, hreported]
  have hended : ended found.state = true →
      (report clock qty price m).passed.sum = found.filledQuantity := by
    intro he
    exact hsum (.inl (hnew ▸ he))
  refine ⟨?_, accounted_of l _ order found hrec hfound (fun _ he => hended he), ?_⟩
  · by_cases hfill : newState = .filled
    · refine .done found hfound ?_ (.inl (hnew.trans hfill)) (.inl (hended ?_))
      · rw [machineState, hfsm, ← machineState, h.machine, hfill]
      · rw [hnew, hfill]
        rfl
    · refine .running ?_ ?_
      · rw [machineState, hfsm, ← machineState, h.machine]
        simpa using hfill
      · rw [hpassed, hfills, h.fills, h.passed]
  · intro hdirect
    apply accounted_remainder clock confirmed l _ order found hrec hfound (fun _ he => hended he)
    rintro hconfirmed ⟨hpolicy, hpartial, hrest⟩ -
    refine hsum (.inr ⟨hnew.symm.trans hpartial, hqty, hdirect, hconfirmed, ?_, ?_⟩)
    · rw [hinfo] at hpolicy
      exact hpolicy
    · rw [hremaining, not_le] at hrest
      rw [reportedQuantity, if_pos hqty]
      rcases lt_max_iff.mp hrest with hz | hlt
      · exact absurd hz (lt_irrefl 0)
      · exact sub_pos.mp hlt

end Updates

theorem booked_update (newState : OrderState) (qty price : ℚ)
    (direct confirmed : Bool) (l : Life ℚ) (hb : Booked l)
    (hc : UpdateCovered l newState qty direct confirmed) :
    Booked (update clock newState qty price direct confirmed l) ∧
      Accounted l (update clock newState qty price direct confirmed l) := by
  by_cases hrefused : l.record = none ∨ move clock newState "Exchange update" l = none
  · rw [update_refused clock newState qty price direct confirmed l hrefused]
    exact ⟨hb, accounted_refl l⟩
  rw [not_or] at hrefused
  obtain ⟨order, hrec⟩ := Option.ne_none_iff_exists'.mp hrefused.1
  obtain ⟨moved, hmove⟩ := Option.ne_none_iff_exists'.mp hrefused.2
  obtain ⟨released, hsame, happlied, hrecord, hfsm, hupdate⟩ :=
    update_moved clock newState qty price direct confirmed l moved order hrec hmove
  obtain ⟨hl, hm⟩ := move_machine hmove
  have hreleased : Released clock newState l released order := by
    refine ⟨hrecord, ?_, ?_, hsame.fills, happlied⟩
    · rw [machineState, hfsm]
      exact hm
    · rw [hsame.passed]
      exact booked_running l hb order hrec hl
  have hcovered := hc order hrec (canMove_of_move hmove)
  rw [hupdate]
  by_cases hqty : 0 < qty
  · rw [if_pos hqty]
    by_cases hwhole : newState = .filled ∧ l.applied = false
    · rw [if_pos ⟨hwhole.1, hqty, hwhole.2⟩] at hcovered
      obtain ⟨rfl, hnot⟩ := hwhole
      obtain ⟨hbooked, hplain, hrest⟩ := update_whole clock qty price confirmed l released order
        hrec hreleased hnot hcovered
      split_ifs
      · exact ⟨booked_remainder clock confirmed _ hbooked, hrest⟩
      · exact ⟨hbooked, hplain⟩
    · rw [if_neg (fun h => hwhole ⟨h.1, h.2.2⟩)] at hcovered
      obtain ⟨hbooked, hplain, hrest⟩ := update_raised clock newState qty price direct confirmed
        l released order hrec hreleased hqty hwhole hcovered
      split_ifs with hdirect
      · exact ⟨booked_remainder clock confirmed _ hbooked, hrest hdirect⟩
      · exact ⟨hbooked, hplain⟩
  · rw [if_neg hqty]
    rw [if_neg (fun h => hqty h.2.1), reportedQuantity, if_neg hqty] at hcovered
    exact update_silent clock newState l released order hrec hreleased
      (fun he => hcovered (.inl he))

def TradeEnds (l : Life ℚ) (order : OrderRecord ℚ) (fill : FillEvent ℚ) (confirmed : Bool) :
    Prop :=
  if isFullFill order (order.filledQuantity + fill.fillQuantity) then
    order.state ≠ .filled ∧ machineState l ≠ some .filled
  else confirmed = true ∧ order.executionInfo.fillPolicy = .cancelRemaining ∧
    (canMoveTo .partiallyFilled l = true ∨ canMoveTo .cancelPending l = true)

def TradeCovered (l : Life ℚ) (fill : FillEvent ℚ) (accepted confirmed : Bool) : Prop :=
  ∀ order, l.record = some order →
    if accepted then 0 ≤ fill.fillQuantity ∧
      (TradeEnds l order fill confirmed → total (fills l) = order.filledQuantity)
    else confirmed = true → wantsRemainderCancelled order → canMoveTo .cancelPending l = true →
      total (fills l) = order.filledQuantity

theorem canMove_open (target : OrderState) (l : Life ℚ) (h : canMoveTo target l = true) :
    machineState l ≠ some .filled := by
  intro hfilled
  rw [canMoveTo, Option.any_eq_true] at h
  obtain ⟨fsm, hfsm, hvalid⟩ := h
  rw [machineState, hfsm, Option.map_some, Option.some.injEq] at hfilled
  rw [hfilled, terminal_refuses .filled target rfl] at hvalid
  exact absurd hvalid (by simp)

variable (order : OrderRecord ℚ) (fill : FillEvent ℚ)

theorem trade_machine (l : Life ℚ) : (trade clock order fill l).fsm = l.fsm ∨
      (canMoveTo (tradeTarget order fill) l = true ∧
        machineState (trade clock order fill l) = some (tradeTarget order fill)) := by
  rw [machineState, trade_fsm]
  unfold tryMove
  cases hmove : move clock (tradeTarget order fill)
    (fillReason order (order.filledQuantity + fill.fillQuantity)) l with
  | none => exact .inl rfl
  | some m => exact .inr ⟨canMove_of_move hmove, (move_machine hmove).2⟩

theorem trade_sum (l : Life ℚ) (hq : 0 ≤ fill.fillQuantity) (hp : 0 < fill.fillPrice) :
    (trade clock order fill l).passed.sum = l.passed.sum + fill.fillQuantity := by
  rw [trade_passed clock order fill l hp]
  split_ifs with hpos
  · simp
  · rw [le_antisymm (not_lt.mp hpos) hq, add_zero]

theorem booked_lateTrade
    (confirmed : Bool) (l : Life ℚ) (hrec : l.record = some order) (hp : 0 < fill.fillPrice)
    (hq : 0 ≤ fill.fillQuantity) (hb : Booked l) (hl : machineState l = some .filled) :
    Booked (trade clock order fill l) ∧
      Accounted l (remainder clock confirmed (trade clock order fill l)) := by
  have hrecord := trade_record clock order fill l hrec
  have hsum := trade_sum clock order fill l hq hp
  have hm : machineState (trade clock order fill l) = some .filled := by
    rcases trade_machine clock order fill l with hsame | ⟨hmove, -⟩
    · rw [machineState, hsame]
      exact hl
    · exact absurd hl (canMove_open _ l hmove)
  have hstuck : canMoveTo .cancelPending (trade clock order fill l) = true →
      (trade clock order fill l).passed.sum = (fillRecord order clock.now fill).filledQuantity :=
    fun hmove => absurd hm (canMove_open _ _ hmove)
  cases hb with
  | gone hnone =>
    rw [hrec] at hnone
    exact absurd hnone (by simp)
  | running hopen _ => exact absurd hl hopen
  | done found hfound _ _ hpassed =>
    rw [hrec, Option.some.injEq] at hfound
    subst hfound
    have htarget : (fillRecord order clock.now fill).state = .filled ∨
        (fillRecord order clock.now fill).state = .partiallyFilled := by
      simp only [fillRecord, fillTarget]
      split_ifs
      · exact .inl rfl
      · exact .inr rfl
    rcases hpassed with hwhole | ⟨hstate, hfull⟩
    · have hsum' : (trade clock order fill l).passed.sum =
          (fillRecord order clock.now fill).filledQuantity := by
        rw [hsum, hwhole]
        rfl
      exact ⟨.done _ hrecord hm htarget (.inl hsum'),
        accounted_remainder clock confirmed l _ order _ hrec hrecord (fun _ _ => hsum')
          (fun _ _ => hstuck)⟩
    · -- The order was past its full size and stays there.
      have hfull' : isFullFill order (order.filledQuantity + fill.fillQuantity) :=
        le_trans hfull (le_add_of_nonneg_right hq)
      have hstate' : (fillRecord order clock.now fill).state = .filled := if_pos hfull'
      refine ⟨.done _ hrecord hm htarget (.inr ⟨hstate', hfull'⟩), ?_⟩
      exact accounted_remainder clock confirmed l _ order _ hrec hrecord
        (fun hne _ => absurd (hstate'.trans hstate.symm) hne) (fun _ _ => hstuck)

theorem booked_earlyTrade
    (confirmed : Bool) (l : Life ℚ) (hrec : l.record = some order) (hp : 0 < fill.fillPrice)
    (hq : 0 ≤ fill.fillQuantity) (hb : Booked l) (hl : machineState l ≠ some .filled)
    (hcovered : TradeEnds l order fill confirmed → total (fills l) = order.filledQuantity) :
    Booked (trade clock order fill l) ∧
      Accounted l (remainder clock confirmed (trade clock order fill l)) := by
  have hrecord := trade_record clock order fill l hrec
  have hmachine := trade_machine clock order fill l
  have hsum : (trade clock order fill l).passed.sum = total (fills l) + fill.fillQuantity := by
    rw [trade_sum clock order fill l hq hp, booked_running l hb order hrec hl]
  have hends : TradeEnds l order fill confirmed → (trade clock order fill l).passed.sum =
      (fillRecord order clock.now fill).filledQuantity := by
    intro h
    rw [hsum, hcovered h]
    rfl
  have hrunning : machineState (trade clock order fill l) ≠ some .filled →
      Booked (trade clock order fill l) := by
    intro hm
    refine .running hm ?_
    rw [hsum, trade_fills clock order fill l hrec, total_append]
  by_cases hfull : isFullFill order (order.filledQuantity + fill.fillQuantity)
  · have hstate : (fillRecord order clock.now fill).state = .filled := if_pos hfull
    constructor
    · by_cases hm : machineState (trade clock order fill l) = some .filled
      · exact .done _ hrecord hm (.inl hstate) (.inr ⟨hstate, hfull⟩)
      · exact hrunning hm
    · apply accounted_remainder clock confirmed l _ order _ hrec hrecord
      · intro hne _
        apply hends
        rw [TradeEnds, if_pos hfull]
        exact ⟨fun h => hne (hstate.trans h.symm), hl⟩
      · rintro _ ⟨-, hpartial, -⟩ _
        exact absurd (hstate.symm.trans hpartial) (by decide)
  · have hstate : (fillRecord order clock.now fill).state = .partiallyFilled := if_neg hfull
    have htarget : tradeTarget order fill = .partiallyFilled := if_neg hfull
    rw [htarget] at hmachine
    constructor
    · apply hrunning
      rcases hmachine with hsame | ⟨-, hm⟩
      · rw [machineState, hsame]
        exact hl
      · rw [hm]
        decide
    · apply accounted_remainder clock confirmed l _ order _ hrec hrecord
      · intro _ hended
        rw [hstate] at hended
        exact absurd hended (by decide)
      · rintro hconfirmed ⟨hpolicy, -, -⟩ hmove
        apply hends
        rw [TradeEnds, if_neg hfull]
        refine ⟨hconfirmed, hpolicy, ?_⟩
        rcases hmachine with hsame | ⟨hcan, -⟩
        · right
          rw [canMoveTo, ← hsame]
          exact hmove
        · exact .inl hcan

theorem booked_event (accepted confirmed : Bool)
    (l : Life ℚ) (hp : accepted = true → 0 < fill.fillPrice) (hb : Booked l)
    (hc : TradeCovered l fill accepted confirmed) :
    Booked (event clock fill accepted confirmed l) ∧
      Accounted l (event clock fill accepted confirmed l) := by
  unfold event
  cases hrec : l.record with
  | none => exact ⟨hb, accounted_refl l⟩
  | some order =>
    have hcovered := hc order hrec
    dsimp only
    cases accepted with
    | false =>
      rw [if_neg Bool.false_ne_true] at hcovered ⊢
      refine ⟨booked_remainder clock confirmed l hb, ?_⟩
      apply accounted_remainder clock confirmed l l order order hrec hrec
      · intro hne
        exact absurd rfl hne
      · intro hconfirmed hwants hmove
        rw [booked_running l hb order hrec (canMove_open _ l hmove)]
        exact hcovered hconfirmed hwants hmove
    | true =>
      rw [if_pos rfl] at hcovered ⊢
      have htrade : Booked (trade clock order fill l) ∧
          Accounted l (remainder clock confirmed (trade clock order fill l)) := by
        by_cases hl : machineState l = some .filled
        · exact booked_lateTrade clock order fill confirmed l hrec (hp rfl) hcovered.1 hb hl
        · exact booked_earlyTrade clock order fill confirmed l hrec (hp rfl) hcovered.1 hb hl
            hcovered.2
      exact ⟨booked_remainder clock confirmed _ htrade.1, htrade.2⟩

end Ends

section Recovery

variable (clock : Clock)

theorem booked_force (target : OrderState) (reason : String) (l : Life ℚ)
    (ht : target ≠ .filled) (hl : machineState l ≠ some .filled) (hb : Booked l) :
    Booked (force clock target reason l) :=
  booked_quiet (quiet_force clock target reason l ht hl) (same_moves.force clock target reason l) hb

/-- A fill that the exchange confirms is written into the record and the machine;
the trades stay all that was handed over, or the order is past its full size. -/
theorem booked_recoveredFill (order : OrderRecord ℚ) (qty price : ℚ)
    (confirmed : Bool) (l : Life ℚ) (hrec : l.record = some order)
    (hl : machineState l ≠ some .filled) (hb : Booked l) :
    Booked (recoveredFill clock order qty price confirmed l) := by
  have hpassed := booked_running l hb order hrec hl
  have hforced := sameFills_moves.force clock (fillTarget order qty)
    "Recovery: confirmed fill by exchange" l
  obtain ⟨current, hcurrent, horiginal, hmachine⟩ : ∃ current,
      (force clock (fillTarget order qty) "Recovery: confirmed fill by exchange" l).record =
        some current ∧ current.originalQuantity = order.originalQuantity ∧
      (machineState (force clock (fillTarget order qty)
        "Recovery: confirmed fill by exchange" l) = some .filled →
          fillTarget order qty = .filled ∧ current.state = .filled) := by
    unfold force
    cases hf : l.fsm with
    | none => exact ⟨order, hrec, rfl, fun h => absurd h hl⟩
    | some fsm =>
      refine ⟨setState clock (fillTarget order qty) order, by rw [hrec]; rfl, rfl, ?_⟩
      intro h
      simp only [machineState, OrderFsm.forceTransition, OrderFsm.record, Option.map_some,
        Option.some.injEq] at h
      exact ⟨h, h⟩
  unfold recoveredFill
  dsimp only
  rw [hcurrent]
  dsimp only
  generalize force clock (fillTarget order qty) "Recovery: confirmed fill by exchange" l = forced
    at hforced hcurrent hmachine ⊢
  have hrecord : (put (recoveredRecord current clock.now qty price) forced).record =
      some (recoveredRecord current clock.now qty price) := put_record _ current forced hcurrent
  have hput : Booked (put (recoveredRecord current clock.now qty price) forced) := by
    by_cases hm : machineState forced = some .filled
    · obtain ⟨htarget, hstate⟩ := hmachine hm
      have hfull : isFullFill order qty := by
        by_contra hnot
        rw [fillTarget, if_neg hnot] at htarget
        exact absurd htarget (by decide)
      refine .done _ hrecord hm (.inl hstate) (.inr ⟨hstate, ?_⟩)
      rw [isFullFill, recoveredRecord, horiginal]
      exact hfull
    · refine .running hm ?_
      have hfills : fills (put (recoveredRecord current clock.now qty price) forced) =
          fills forced := by
        rw [fills, hrecord, fills, hcurrent]
        rfl
      rw [hfills, hforced.fills, put, hforced.passed, hpassed]
  split_ifs with hfull hconfirmed
  · exact hput
  · apply booked_force clock .cancelled _ _ (by decide) _ hput
    intro hm
    have htarget := (hmachine hm).1
    rw [fillTarget, if_neg hfull] at htarget
    exact absurd htarget (by decide)
  · exact hput

theorem booked_reconcile (timeoutMs : ℤ) (detail : OrderFillDetail ℚ)
    (confirmed : Bool) (l : Life ℚ) (hb : Booked l) :
    Booked (reconcile clock timeoutMs detail confirmed l) := by
  -- Each pass acts on states in which the machine cannot be filled.
  have hmarked : Booked (whenRecord (fun o => isActive o.state && isUncertain o)
      (fun _ => force clock .unknownRecovery "Recovery: uncertain order detected") l) := by
    unfold whenRecord
    cases hrec : l.record with
    | none => exact hb
    | some order =>
      dsimp only
      split_ifs with huncertain
      · apply booked_force clock _ _ l (by decide) _ hb
        apply booked_open l hb order hrec
        · intro h
          simp [h, isActive] at huncertain
        · intro h
          simp [h, isUncertain] at huncertain
      · exact hb
  unfold reconcile
  dsimp only
  generalize whenRecord (fun o => isActive o.state && isUncertain o)
    (fun _ => force clock .unknownRecovery "Recovery: uncertain order detected") l = marked
    at hmarked ⊢
  have hrecovered : Booked (whenRecord (fun o => o.state == .unknownRecovery)
      (recover clock detail confirmed) marked) := by
    unfold whenRecord
    cases hrec : marked.record with
    | none => exact hmarked
    | some order =>
      dsimp only
      split_ifs with hunknown
      · rw [beq_iff_eq] at hunknown
        have hl := booked_open marked hmarked order hrec (by simp [hunknown]) (by simp [hunknown])
        unfold recover
        split_ifs
        · exact booked_recoveredFill clock order _ _ confirmed marked hrec hl hmarked
        · exact booked_force clock _ _ marked (by decide) hl hmarked
        · exact hmarked
      · exact hmarked
  generalize whenRecord (fun o => o.state == .unknownRecovery) (recover clock detail confirmed)
    marked = recovered at hrecovered ⊢
  split_ifs with hstale
  · apply booked_force clock _ _ recovered (by decide) _ hrecovered
    unfold isStale at hstale
    rw [Bool.and_eq_true, Option.any_eq_true] at hstale
    obtain ⟨⟨order, hrec, hpending⟩, -⟩ := hstale
    rw [beq_iff_eq] at hpending
    exact booked_open recovered hrecovered order hrec (by simp [hpending]) (by simp [hpending])
  · exact hrecovered

end Recovery

section Steps

def confirmsFill (answer : FillAnswer ℚ) : Bool :=
  answer.detail.success && decide (0 < answer.detail.filledQty)

def confirmedPrice (a : AwaitingFill ℚ) (answer : FillAnswer ℚ) : ℚ :=
  if 0 < answer.detail.fillPrice then answer.detail.fillPrice else a.marketFillPrice

def ConfirmationCovered (l : Life ℚ) (a : AwaitingFill ℚ) (answer : FillAnswer ℚ) : Prop :=
  confirmsFill answer = true → 0 < confirmedPrice a answer → l.applied = false →
    canMoveTo .filled l = true → total (fills l) = 0

theorem booked_confirmation (clock : Clock) (a : AwaitingFill ℚ) (answer : FillAnswer ℚ)
    (l : Life ℚ) (hb : Booked l) (hc : ConfirmationCovered l a answer) :
    Booked (confirmation clock a answer l) ∧
      (confirmsFill answer = true → Accounted l (confirmation clock a answer l)) := by
  have hquiet : ∀ target reason, target ≠ OrderState.filled →
      Booked (tryMove clock target reason l) := fun target reason ht =>
    booked_quiet (quiet_tryMove clock target reason l ht)
      (same_moves.tryMove clock target reason l) hb
  have hreleased : ∀ target reason, target ≠ OrderState.filled →
      Booked (releaseFor a.order (tryMove clock target reason l)) := fun target reason ht =>
    booked_quiet (quiet_releaseFor a.order _) (same_moves.releaseFor a.order _)
      (hquiet target reason ht)
  unfold confirmation
  dsimp only
  by_cases hsuccess : answer.detail.success = false
  · rw [if_pos hsuccess]
    exact ⟨hquiet _ _ (by decide), fun h => absurd h (by simp [confirmsFill, hsuccess])⟩
  rw [if_neg hsuccess, if_neg (by simp [isfinite_rat])]
  by_cases hqty : answer.detail.filledQty ≤ 0
  · rw [if_pos hqty]
    exact ⟨hreleased _ _ (by decide), fun h => absurd h (by simp [confirmsFill, hqty])⟩
  rw [if_neg hqty]
  have hfill : confirmsFill answer = true := by
    rw [Bool.not_eq_false] at hsuccess
    simp [confirmsFill, hsuccess, not_le.mp hqty]
  have hmarket := booked_marketFill clock (if 0 < answer.detail.filledQty
      then answer.detail.filledQty else if 0 < a.submittedQuantity then a.submittedQuantity
        else a.order.originalQuantity) (confirmedPrice a answer) a.order.exchangeOrderId l hb
    (fun happlied hprice hmove => hc hfill hprice happlied hmove)
  exact ⟨hmarket.1, fun _ => hmarket.2⟩

def Covered (l : Life ℚ) : LifeOp ℚ → Prop
  | .confirmed a answer => ConfirmationCovered l a answer
  | .updated newState qty _ direct confirmed => UpdateCovered l newState qty direct confirmed
  | .traded fill accepted confirmed => TradeCovered l fill accepted confirmed
  | _ => True

def reportsFill : LifeOp ℚ → Bool
  | .confirmed _ answer => confirmsFill answer
  | .updated _ _ _ _ _ => true
  | .traded _ _ _ => true
  | _ => false

theorem booked_lifeStep (clock : Clock) (l : Life ℚ) (op : LifeOp ℚ)
    (hp : ∀ fill confirmed, op = .traded fill true confirmed → 0 < fill.fillPrice)
    (hb : Booked l) (hc : Covered l op) :
    Booked (lifeStep clock l op) ∧ (reportsFill op = true → Accounted l (lifeStep clock l op)) := by
  cases op with
  | skip => exact ⟨hb, fun h => absurd h (by simp [reportsFill])⟩
  | confirmed a answer => exact booked_confirmation clock a answer l hb hc
  | updated newState qty price direct confirmed =>
    have h := booked_update clock newState qty price direct confirmed l hb hc
    exact ⟨h.1, fun _ => h.2⟩
  | traded fill accepted confirmed =>
    have h := booked_event clock fill accepted confirmed l
      (fun ha => hp fill confirmed (by rw [ha])) hb hc
    exact ⟨h.1, fun _ => h.2⟩
  | cancel confirmed =>
    exact ⟨booked_quiet (quiet_cancel clock confirmed l) (same_moves.cancel clock confirmed l) hb,
      fun h => absurd h (by simp [reportsFill])⟩
  | expire maxAge =>
    refine ⟨?_, fun h => absurd h (by simp [reportsFill])⟩
    simp only [lifeStep, expire]
    cases hrec : l.record with
    | none => exact hb
    | some order =>
      dsimp only
      split_ifs
      · exact .gone rfl
      · exact hb
  | reconcile timeoutMs detail confirmed =>
    exact ⟨booked_reconcile clock timeoutMs detail confirmed l hb,
      fun h => absurd h (by simp [reportsFill])⟩

end Steps

end TB.OrderBooks
