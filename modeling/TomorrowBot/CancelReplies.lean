import TomorrowBot.OrderLedger
import TomorrowBot.EngineBirths

/-!
# Cancels of orders that the exchange has executed

The order submitter takes the answers that an order is already filled or not
found for a successful cancel. An order that the exchange executed before the
cancel then ends as cancelled, and what was executed of it is missing in its
record, unless the record had it before the answer.
-/

set_option autoImplicit false

namespace TB.CancelReplies
open TB.CommonTypes TB.PortfolioEngine TB.OrderTypes TB.Orders TB.FillProcessor
open TB.CancelManager TB.RecoveryManager TB.ExecutionPlanner TB.ExecutionEngine
open TB.OrderLife TB.LifeSteps TB.EngineBirths
open TB.OrderLedger

section Submitter

inductive CancelReply where
  | httpFailed
  | unreadable
  | code (code : String)

def cancelOrder : CancelReply → Bool
  | .httpFailed | .unreadable => false
  | .code code => code == "00000" || (code == "43011" || code == "43012")

abbrev Replies := OrderId → CancelReply

def confirms (replies : Replies) : OrderId → Bool := fun id => cancelOrder (replies id)

def withReplies {F : Type} (replies : Replies) : EngineOp F → EngineOp F
  | .onOrderUpdate id newState qty price _ =>
      .onOrderUpdate id newState qty price (confirms replies)
  | .onFillEvent fill _ => .onFillEvent fill (confirms replies)
  | .cancel id _ => .cancel id (confirms replies)
  | .cancelAllForSymbol symbol _ => .cancelAllForSymbol symbol (confirms replies)
  | .cancelAll _ => .cancelAll (confirms replies)
  | .cancelTimedOutOrders maxMs _ => .cancelTimedOutOrders maxMs (confirms replies)
  | .runReconciliation answers => .runReconciliation ⟨answers.fillDetail, confirms replies⟩
  | op => op

def replyStep {F : Type} [DoubleArith F] (e : Engine F) (op : EngineOp F × Replies) : Engine F :=
  engineStep e (withReplies op.2 op.1)

end Submitter

section Lost
variable (x : ℚ)

def Missing (l : Life ℚ) : Prop := ∃ order, l.record = some order ∧ order.filledQuantity < x

def Lost (l : Life ℚ) : Prop :=
  ∃ order, l.record = some order ∧ order.state = .cancelled ∧ order.filledQuantity < x

theorem lost_iff {l : Life ℚ} {order : OrderRecord ℚ} (h : l.record = some order) :
    Lost x l ↔ order.state = .cancelled ∧ order.filledQuantity < x := by
  simp [Lost, h]

theorem missing_iff {l : Life ℚ} {order : OrderRecord ℚ} (h : l.record = some order) :
    Missing x l ↔ order.filledQuantity < x := by
  simp [Missing, h]

theorem not_lost_of_none {l : Life ℚ} (h : l.record = none) : ¬ Lost x l := by
  simp [Lost, h]

theorem lost_congr {l m : Life ℚ} (h : m.record = l.record) : Lost x m ↔ Lost x l := by
  rw [Lost, Lost, h]

theorem releaseFor_record (order : OrderRecord ℚ) (l : Life ℚ) :
    (releaseFor order l).record = l.record := by
  unfold releaseFor
  split_ifs <;> rfl

variable (clock : Clock) (target : OrderState) (reason : String) (l : Life ℚ)

theorem force_record (h : l.fsm ≠ none) :
    (force clock target reason l).record = l.record.map (setState clock target) := by
  obtain ⟨fsm, hfsm⟩ := Option.ne_none_iff_exists'.mp h
  simp [force, hfsm]

theorem force_none (h : l.fsm = none) : force clock target reason l = l := by
  simp [force, h]

theorem not_lost_tryMove
    (ht : target ≠ .cancelled) (h : ¬ Lost x l) : ¬ Lost x (tryMove clock target reason l) := by
  cases hrec : l.record with
  | none =>
    unfold tryMove
    cases hmove : move clock target reason l with
    | none => exact h
    | some m => exact not_lost_of_none x (by rw [Option.getD_some, move_record hmove, hrec]; rfl)
  | some order =>
    rcases tryMove_record clock target reason l order hrec with hsame | hset
    · rwa [lost_congr x (hsame.trans hrec.symm)]
    · rw [lost_iff x hset]
      exact fun hlost => ht hlost.1

theorem canMove_iff : canMoveTo target l = true ↔ ∃ m, move clock target reason l = some m := by
  constructor
  · intro h
    obtain ⟨fsm, hfsm, hvalid⟩ := (Option.any_eq_true _ _).mp h
    rw [move, hfsm, Option.bind_some, OrderFsm.transition, if_pos hvalid, Option.map_some]
    exact ⟨_, rfl⟩
  · rintro ⟨m, hm⟩
    exact canMove_of_move hm

theorem tryMove_allowed (h : canMoveTo target l = true) :
    (tryMove clock target reason l).record = l.record.map (setState clock target) := by
  obtain ⟨m, hm⟩ := (canMove_iff clock target reason l).mp h
  rw [tryMove, hm, Option.getD_some, move_record hm]

def Short (l : Life ℚ) : Prop := Missing x l ∧ canMoveTo .cancelPending l = true

/-- A cancel loses what was executed when it is confirmed and the record falls short. -/
theorem cancel_lost_iff (confirmed : Bool) (l : Life ℚ) (h : ¬ Lost x l) :
    Lost x (cancel clock confirmed l) ↔ confirmed = true ∧ Short x l := by
  unfold cancel
  cases hrec : l.record with
  | none =>
    refine iff_of_false h ?_
    rintro ⟨-, ⟨order, horder, -⟩, -⟩
    exact absurd (horder.symm.trans hrec) (by simp)
  | some order =>
    cases hmove : move clock .cancelPending "Cancel requested" l with
    | none =>
      refine iff_of_false h ?_
      rintro ⟨-, -, hcan⟩
      obtain ⟨m, hm⟩ := (canMove_iff clock _ "Cancel requested" l).mp hcan
      rw [hmove] at hm
      exact absurd hm (by simp)
    | some pending =>
      have hpending : pending.record = some (setState clock .cancelPending order) := by
        rw [move_record hmove, hrec]
        rfl
      have hshort : Short x l ↔ order.filledQuantity < x := by
        rw [Short, missing_iff x hrec, canMove_of_move hmove, eq_self_iff_true, and_true]
      obtain ⟨fsm, hfsm, hstate⟩ : ∃ fsm, pending.fsm = some fsm ∧ fsm.state = .cancelPending := by
        obtain ⟨fsm, -, -, rfl⟩ := move_some hmove
        exact ⟨_, rfl, rfl⟩
      dsimp only
      cases confirmed with
      | false =>
        have hforced := force_record clock .unknownRecovery
          "Cancel rejected — awaiting reconciliation" pending (by simp [hfsm])
        rw [hpending, Option.map_some] at hforced
        rw [if_neg Bool.false_ne_true, lost_iff x hforced]
        exact iff_of_false (fun hlost => OrderState.noConfusion hlost.1)
          (fun hc => Bool.false_ne_true hc.1)
      | true =>
        have hdone := tryMove_allowed clock .cancelled "Cancel confirmed" pending
          (by simp [canMoveTo, hfsm, hstate, isValidTransition])
        rw [hpending, Option.map_some] at hdone
        rw [if_pos rfl, lost_congr x (releaseFor_record order _), hshort, lost_iff x hdone]
        exact ⟨fun hlost => ⟨rfl, hlost.2⟩, fun hmissing => ⟨rfl, hmissing.2⟩⟩

def AsksRemainder (l : Life ℚ) : Prop := ∃ order, l.record = some order ∧
  wantsRemainderCancelled order

theorem remainder_lost_iff (confirmed : Bool) (l : Life ℚ) (h : ¬ Lost x l) :
    Lost x (remainder clock confirmed l) ↔ AsksRemainder l ∧ confirmed = true ∧ Short x l := by
  unfold remainder
  cases hrec : l.record with
  | none =>
    refine iff_of_false h ?_
    rintro ⟨⟨order, horder, -⟩, -⟩
    exact absurd (horder.symm.trans hrec) (by simp)
  | some order =>
    have hasks : AsksRemainder l ↔ wantsRemainderCancelled order := by
      simp [AsksRemainder, hrec]
    rw [hasks]
    dsimp only
    by_cases hwants : wantsRemainderCancelled order
    · rw [if_pos hwants, cancel_lost_iff x clock confirmed l h]
      exact ⟨fun hc => ⟨hwants, hc⟩, fun hc => hc.2⟩
    · rw [if_neg hwants]
      exact iff_of_false h (fun hc => hwants hc.1)

end Lost

section Steps

def reported (clock : Clock) (newState : OrderState) (qty price : ℚ) (l : Life ℚ) :
    Option (Life ℚ) :=
  match l.record, move clock newState "Exchange update" l with
  | some order, some moved =>
    if 0 < qty then
      some (report clock qty price (if endsUnfilled newState then releaseFor order moved else moved))
    else none
  | _, _ => none

def traded (clock : Clock) (fill : FillEvent ℚ) (accepted : Bool) (l : Life ℚ) : Option (Life ℚ) :=
  l.record.map (fun order => if accepted then trade clock order fill l else l)

def marked (clock : Clock) (l : Life ℚ) : Life ℚ :=
  whenRecord (fun o => isActive o.state && isUncertain o)
    (fun _ => force clock .unknownRecovery "Recovery: uncertain order detected") l

variable (x : ℚ)

/-- The recovery of an unknown order ends it as cancelled with too little: the
query fails and the cancel succeeds, or the query reports a part of it that is
less than was executed and the cancel of the rest succeeds. -/
def RecoveryLoses (detail : OrderFillDetail ℚ) (confirmed : Bool) (order : OrderRecord ℚ) : Prop :=
  confirmed = true ∧
    (detail.success = false ∧ order.filledQuantity < x ∨
      detail.success = true ∧ ¬ isFullFill order (recoveredQuantity order detail) ∧
        recoveredQuantity order detail < x)

/-- Whenever the operation ends the order as cancelled, its record has what the
exchange executed: at a confirmed cancel, at one that the policy asks for, in the
recovery, and where a cancel has been pending for too long. -/
def Held (clock : Clock) (l : Life ℚ) : LifeOp ℚ → Prop
  | .skip | .confirmed _ _ | .expire _ => True
  | .cancel confirmed => confirmed = true → ¬ Short x l
  | .traded fill accepted confirmed => confirmed = true →
      ∀ m, traded clock fill accepted l = some m → AsksRemainder m → ¬ Short x m
  | .updated newState qty price direct confirmed => direct = true → confirmed = true →
      ∀ m, reported clock newState qty price l = some m → AsksRemainder m → ¬ Short x m
  | .reconcile timeoutMs detail confirmed =>
      (∀ order, (marked clock l).record = some order → order.state = .unknownRecovery →
        l.fsm ≠ none → ¬ RecoveryLoses x detail confirmed order) ∧
      (isStale clock .cancelPending (timeoutMs * 3) l = true → ¬ Missing x l)

def Truthful : LifeOp ℚ → Prop
  | .updated newState qty _ _ _ => newState = .cancelled → qty = x
  | .confirmed _ answer => answer.detail.success = true → answer.detail.filledQty = x
  | .reconcile _ detail _ => detail.success = true → detail.filledQty = x
  | _ => True

variable (clock : Clock)

theorem update_lost_iff (newState : OrderState) (qty price : ℚ)
    (direct confirmed : Bool) (l : Life ℚ) (hx : 0 < x) (htrue : newState = .cancelled → qty = x)
    (h : ¬ Lost x l) :
    Lost x (update clock newState qty price direct confirmed l) ↔ direct = true ∧
      confirmed = true ∧ ∃ m, reported clock newState qty price l = some m ∧ AsksRemainder m ∧
        Short x m := by
  unfold update reported
  cases hrec : l.record with
  | none => simpa using h
  | some order =>
    cases hmove : move clock newState "Exchange update" l with
    | none => simpa using h
    | some moved =>
      dsimp only
      have hreleased : (if endsUnfilled newState then releaseFor order moved else moved).record =
          some (setState clock newState order) := by
        split_ifs
        · rw [releaseFor_record, move_record hmove, hrec]
          rfl
        · rw [move_record hmove, hrec]
          rfl
      generalize (if endsUnfilled newState then releaseFor order moved else moved) = released
        at hreleased
      by_cases hqty : 0 < qty
      · have hreport : ¬ Lost x (report clock qty price released) := by
          obtain ⟨applied, hafter⟩ : ∃ applied, (report clock qty price released).record =
              some (reconciledRecord (setState clock newState order) clock.now applied qty
                price) := by
            refine ⟨released.applied, ?_⟩
            unfold report
            rw [hreleased]
            dsimp only
            split_ifs
            · exact put_record _ _ _ hreleased
            · exact put_record _ _ _ hreleased
          rw [lost_iff x hafter]
          rintro ⟨hstate, hless⟩
          have hmax : max order.filledQuantity qty < x := by
            rw [← stdMax_rat]
            exact hless
          rw [htrue hstate] at hmax
          exact absurd (le_max_right order.filledQuantity x) (not_le.mpr hmax)
        simp only [if_pos hqty, Option.some.injEq, exists_eq_left']
        cases direct with
        | false => simpa using hreport
        | true =>
          rw [if_pos rfl, remainder_lost_iff x clock confirmed _ hreport]
          tauto
      · simp only [if_neg hqty]
        refine iff_of_false ?_ (by simp)
        rw [lost_iff x hreleased]
        rintro ⟨hstate, -⟩
        exact hqty (htrue hstate ▸ hx)

theorem event_lost_iff (fill : FillEvent ℚ) (accepted confirmed : Bool)
    (l : Life ℚ) (h : ¬ Lost x l) :
    Lost x (event clock fill accepted confirmed l) ↔ confirmed = true ∧
      ∃ m, traded clock fill accepted l = some m ∧ AsksRemainder m ∧ Short x m := by
  unfold event traded
  cases hrec : l.record with
  | none => simpa using h
  | some order =>
    simp only [Option.map_some, Option.some.injEq, exists_eq_left']
    have hm : ¬ Lost x (if accepted then trade clock order fill l else l) := by
      split_ifs
      · rw [lost_iff x (trade_record clock order fill l hrec)]
        rintro ⟨hstate, -⟩
        have htarget : fillTarget order (order.filledQuantity + fill.fillQuantity) = .cancelled :=
          hstate
        unfold fillTarget at htarget
        split_ifs at htarget
      · exact h
    rw [remainder_lost_iff x clock confirmed _ hm]
    tauto

theorem confirmation_not_lost (a : AwaitingFill ℚ) (answer : FillAnswer ℚ) (l : Life ℚ) (hx : 0 < x)
    (htrue : answer.detail.success = true → answer.detail.filledQty = x) (h : ¬ Lost x l) :
    ¬ Lost x (confirmation clock a answer l) := by
  have hfill : ∀ qty price ex, ¬ Lost x (marketFill clock qty price ex l) := by
    intro qty price ex
    unfold marketFill
    split_ifs
    · exact h
    · exact h
    · exact h
    · cases hrec : l.record with
      | none => exact h
      | some found =>
        cases hmove : move clock .filled "Market order filled" l with
        | none => exact h
        | some moved =>
          have hmoved : moved.record = some (setState clock .filled found) := by
            rw [move_record hmove, hrec]
            rfl
          have hfilled : (mark (hand (marketFilled found clock.now qty price ex) qty
              (put (marketFilled found clock.now qty price ex) moved))).record =
                some (marketFilled found clock.now qty price ex) := put_record _ _ _ hmoved
          dsimp only
          rw [lost_iff x hfilled]
          exact fun hlost => OrderState.noConfusion hlost.1
  unfold confirmation
  dsimp only
  by_cases hfail : answer.detail.success = false
  · rw [if_pos hfail]
    exact not_lost_tryMove x clock .opened _ l (by simp) h
  · rw [if_neg hfail]
    rw [Bool.not_eq_false] at hfail
    have hpos : ¬ answer.detail.filledQty ≤ 0 := by
      rw [htrue hfail]
      exact not_le.mpr hx
    rw [if_neg (by simp [isfinite_rat]), if_neg hpos]
    exact hfill _ _ _

theorem recover_record (detail : OrderFillDetail ℚ) (confirmed : Bool)
    (order : OrderRecord ℚ) (m : Life ℚ) (hx : 0 < x)
    (htrue : detail.success = true → detail.filledQty = x) (hrec : m.record = some order)
    (hstate : order.state = .unknownRecovery) (hfsm : m.fsm ≠ none) :
    ∃ after, (recover clock detail confirmed order m).record = some after ∧
      after.state ≠ .cancelPending ∧
      (after.state = .cancelled ∧ after.filledQuantity < x ↔
        RecoveryLoses x detail confirmed order) := by
  obtain ⟨fsm, hfsm⟩ := Option.ne_none_iff_exists'.mp hfsm
  have hforce : ∀ target reason, force clock target reason m =
      { m with record := some (setState clock target order)
               fsm := some (OrderFsm.forceTransition fsm clock target reason)
               applied := false } := by
    intro target reason
    simp [force, hfsm, hrec]
  unfold recover RecoveryLoses
  cases hsuccess : detail.success with
  | true =>
    rw [if_pos ⟨rfl, htrue hsuccess ▸ hx⟩]
    simp only [recoveredFill, hforce, put, Option.map_some]
    by_cases hfull : isFullFill order (recoveredQuantity order detail)
    · rw [if_pos hfull]
      simp [recoveredRecord, setState, fillTarget, hfull]
    · cases confirmed with
      | false => simp [hfull, recoveredRecord, setState, fillTarget]
      | true => simp [hfull, recoveredRecord, setState, force]
  | false =>
    rw [if_neg (fun hc => Bool.false_ne_true hc.1)]
    cases confirmed with
    | false => simp [hrec, hstate]
    | true => simp [hforce, setState]

theorem recover_unforced (detail : OrderFillDetail ℚ) (confirmed : Bool)
    (order : OrderRecord ℚ) (m : Life ℚ) (hrec : m.record = some order)
    (hstate : order.state = .unknownRecovery) (hfsm : m.fsm = none) :
    ¬ Lost x (recover clock detail confirmed order m) ∧
      (recover clock detail confirmed order m).fsm = none := by
  have hforce : ∀ target reason, force clock target reason m = m := fun target reason =>
    force_none clock target reason m hfsm
  unfold recover
  split_ifs
  · simp only [recoveredFill, hforce, hrec, put, Option.map_some]
    split_ifs
    · simp [Lost, recoveredRecord, hstate, hfsm]
    · simp [force, Lost, recoveredRecord, hstate, hfsm]
    · simp [Lost, recoveredRecord, hstate, hfsm]
  · rw [hforce]
    exact ⟨by simp [Lost, hrec, hstate], hfsm⟩
  · exact ⟨by simp [Lost, hrec, hstate], hfsm⟩

theorem stale_state (maxMs : ℤ) (l : Life ℚ) (order : OrderRecord ℚ)
    (hrec : l.record = some order) (h : isStale clock .cancelPending maxMs l = true) :
    order.state = .cancelPending ∧ l.fsm ≠ none := by
  unfold isStale at h
  rw [hrec, Option.any_some, Bool.and_eq_true, beq_iff_eq] at h
  refine ⟨h.1, ?_⟩
  intro hnone
  rw [hnone] at h
  exact Bool.false_ne_true h.2

theorem forced_lost_iff (maxMs : ℤ) (reason : String) (l : Life ℚ) (h : ¬ Lost x l) :
    Lost x (if isStale clock .cancelPending maxMs l then force clock .cancelled reason l else l) ↔
      isStale clock .cancelPending maxMs l = true ∧ Missing x l := by
  by_cases hstale : isStale clock .cancelPending maxMs l = true
  · rw [if_pos hstale]
    cases hrec : l.record with
    | none => simp [isStale, hrec] at hstale
    | some order =>
      obtain ⟨-, hfsm⟩ := stale_state clock maxMs l order hrec hstale
      have hforced := force_record clock .cancelled reason l hfsm
      rw [hrec, Option.map_some] at hforced
      rw [lost_iff x hforced, missing_iff x hrec]
      exact ⟨fun hlost => ⟨hstale, hlost.2⟩, fun hmissing => ⟨rfl, hmissing.2⟩⟩
  · rw [if_neg hstale]
    exact iff_of_false h (fun hc => hstale hc.1)

theorem marked_cases (l : Life ℚ) (order : OrderRecord ℚ) (hrec : l.record = some order) :
    ∃ found, (marked clock l).record = some found ∧
      found.filledQuantity = order.filledQuantity ∧
      ((marked clock l).fsm = none ↔ l.fsm = none) ∧
      (found.state = .unknownRecovery ∨ marked clock l = l) := by
  unfold marked whenRecord
  rw [hrec]
  dsimp only
  split_ifs
  · cases hfsm : l.fsm with
    | none =>
      rw [force_none clock _ _ l hfsm]
      exact ⟨order, hrec, rfl, by simp [hfsm], Or.inr rfl⟩
    | some fsm =>
      have hforced := force_record clock .unknownRecovery
        "Recovery: uncertain order detected" l (by simp [hfsm])
      rw [hrec, Option.map_some] at hforced
      exact ⟨_, hforced, rfl, by simp [force, hfsm], Or.inl rfl⟩
  · exact ⟨order, hrec, rfl, Iff.rfl, Or.inr rfl⟩

theorem reconcile_lost_iff (timeoutMs : ℤ) (detail : OrderFillDetail ℚ)
    (confirmed : Bool) (l : Life ℚ) (hx : 0 < x)
    (htrue : detail.success = true → detail.filledQty = x) (h : ¬ Lost x l) :
    Lost x (reconcile clock timeoutMs detail confirmed l) ↔
      (∃ order, (marked clock l).record = some order ∧ order.state = .unknownRecovery ∧
        l.fsm ≠ none ∧ RecoveryLoses x detail confirmed order) ∨
      isStale clock .cancelPending (timeoutMs * 3) l = true ∧ Missing x l := by
  have hreconcile : reconcile clock timeoutMs detail confirmed l =
      if isStale clock .cancelPending (timeoutMs * 3) (whenRecord
          (fun o => o.state == .unknownRecovery) (recover clock detail confirmed) (marked clock l))
      then force clock .cancelled "Recovery: stale CancelPending → force cancel" (whenRecord
        (fun o => o.state == .unknownRecovery) (recover clock detail confirmed) (marked clock l))
      else whenRecord (fun o => o.state == .unknownRecovery) (recover clock detail confirmed)
        (marked clock l) := rfl
  rw [hreconcile]
  cases hrec : l.record with
  | none =>
    have hmarked : marked clock l = l := by rw [marked, whenRecord, hrec]
    have hsame : whenRecord (fun o => o.state == .unknownRecovery)
        (recover clock detail confirmed) l = l := by rw [whenRecord, hrec]
    rw [hmarked, hsame, forced_lost_iff x clock _ _ l h, hrec]
    simp
  | some order =>
    obtain ⟨found, hfound, hfilled, hfsm, hcase⟩ := marked_cases clock l order hrec
    by_cases hunknown : found.state = .unknownRecovery
    · have hnotStale : ¬ isStale clock .cancelPending (timeoutMs * 3) l = true := by
        intro hstale
        obtain ⟨hpending, -⟩ := stale_state clock _ l order hrec hstale
        have hsame : marked clock l = l := by
          simp [marked, whenRecord, hrec, hpending, isActive, isUncertain]
        rw [hsame, hrec, Option.some.injEq] at hfound
        rw [← hfound, hpending] at hunknown
        exact OrderState.noConfusion hunknown
      have hrecover : whenRecord (fun o => o.state == .unknownRecovery)
          (recover clock detail confirmed) (marked clock l) =
            recover clock detail confirmed found (marked clock l) := by
        simp [whenRecord, hfound, hunknown]
      rw [hrecover]
      by_cases hnone : l.fsm = none
      · obtain ⟨hkept, hmachine⟩ := recover_unforced x clock detail confirmed found
          (marked clock l) hfound hunknown (hfsm.mpr hnone)
        rw [forced_lost_iff x clock _ _ _ hkept]
        simp [isStale, hmachine, hnone]
      · obtain ⟨after, hafter, hpending, hloses⟩ := recover_record x clock detail confirmed found
          (marked clock l) hx htrue hfound hunknown (fun hc => hnone (hfsm.mp hc))
        have hstill : isStale clock .cancelPending (timeoutMs * 3)
            (recover clock detail confirmed found (marked clock l)) = false := by
          simp [isStale, hafter, hpending]
        rw [hstill, if_neg Bool.false_ne_true, lost_iff x hafter, hloses]
        simp [hfound, hunknown, hnone, hnotStale]
    · have hsame := hcase.resolve_left hunknown
      have hskip : whenRecord (fun o => o.state == .unknownRecovery)
          (recover clock detail confirmed) (marked clock l) = l := by
        rw [whenRecord, hfound]
        dsimp only
        rw [if_neg (by simpa using hunknown), hsame]
      rw [hskip, forced_lost_iff x clock _ _ l h]
      simp [hfound, hunknown]

/-- One step of the order's machine loses what was executed exactly when it is not held. -/
theorem lifeStep_held_iff (l : Life ℚ) (op : LifeOp ℚ) (hx : 0 < x)
    (htrue : Truthful x op) (h : ¬ Lost x l) :
    ¬ Lost x (lifeStep clock l op) ↔ Held x clock l op := by
  cases op with
  | skip => exact iff_of_true h trivial
  | confirmed a answer =>
    exact iff_of_true (confirmation_not_lost x clock a answer l hx htrue h) trivial
  | updated newState qty price direct confirmed =>
    rw [lifeStep, update_lost_iff x clock newState qty price direct confirmed l hx htrue h]
    simp only [Held]
    grind
  | traded fill accepted confirmed =>
    rw [lifeStep, event_lost_iff x clock fill accepted confirmed l h]
    simp only [Held]
    grind
  | cancel confirmed =>
    rw [lifeStep, cancel_lost_iff x clock confirmed l h, not_and]
    rfl
  | expire maxAge =>
    refine iff_of_true ?_ trivial
    rw [lifeStep, expire]
    cases hrec : l.record with
    | none => exact h
    | some order =>
      dsimp only
      split_ifs
      · exact not_lost_of_none x rfl
      · exact h
  | reconcile timeoutMs detail confirmed =>
    rw [lifeStep, reconcile_lost_iff x clock timeoutMs detail confirmed l hx htrue h]
    simp only [Held]
    grind

end Steps

section Engines
variable {F : Type} [DoubleArith F]

def Issued (id : OrderId) (e : Engine F) : Prop :=
  ∀ k, e.nextSeq ≤ k → clientOrderId e.sessionPrefix k ≠ id

omit [DoubleArith F] in
theorem issued_of_record (e : Engine F) (h : Sound e) (id : OrderId)
    (hrec : (life e.core id).record ≠ none) : Issued id e := by
  rintro k hk rfl
  rw [h.fresh k hk] at hrec
  exact hrec rfl

/-- An issued order only takes steps of its machine. -/
theorem step_issued (e : Engine F) (op : EngineOp F) (h : Sound e) (id : OrderId)
    (hid : Issued id e) :
    Issued id (engineStep e op) ∧
      life (engineStep e op).core id = lifeStep e.core.clock (life e.core id) (opOn e op id) := by
  obtain ⟨hsession, hseq⟩ := step_ids e op h
  refine ⟨fun k hk => ?_, (step_life_at e op h id).resolve_right fun hnew => ?_⟩
  · rw [hsession]
    exact hid k (hseq.trans hk)
  · exact hid e.nextSeq le_rfl hnew.1.symm

end Engines

section Runs
variable (x : ℚ) (id : OrderId)

def Closed (e : Engine ℚ) (op : EngineOp ℚ × Replies) : Prop :=
  op.2 id ≠ .code "00000" ∧ Truthful x (opOn e (withReplies op.2 op.1) id)

def HeldBy (e : Engine ℚ) (op : EngineOp ℚ × Replies) : Prop :=
  Held x e.core.clock (life e.core id) (opOn e (withReplies op.2 op.1) id)

/-- Along every run of an engine after the exchange executed its quantity of an
order, nothing of it is lost exactly when the record holds it at every positive
answer to a cancel. -/
theorem executed_not_cancelled (capital : ℚ) (clock : Clock) (config : ExecutionConfig ℚ)
    (sessionPrefix : String) (before : List (EngineOp ℚ)) (e : Engine ℚ)
    (he : e = Runs.run engineStep
      (initEngine (initPortfolio capital) clock config sessionPrefix) before)
    (hplaced : (life e.core id).record ≠ none) (hx : 0 < x) (hstart : ¬ Lost x (life e.core id))
    (ops : List (EngineOp ℚ × Replies)) (hclosed : Runs.Meets replyStep (Closed x id) e ops) :
    Runs.Always replyStep (fun e => ¬ Lost x (life e.core id)) e ops ↔
      Runs.Meets replyStep (HeldBy x id) e ops := by
  have hsound : Sound e := by
    rw [he]
    exact Runs.always_last engineStep (Runs.always_of_meets engineStep (C := fun _ _ => True)
      (fun d op hd _ => step_sound d op hd) _ _ (init_sound _ _ _ _ rfl)
      (Runs.meets_true engineStep _ _))
  apply Runs.always_iff_meets_given replyStep (J := fun e => Sound e ∧ Issued id e)
    (D := Closed x id)
  · rintro d op ⟨hd, hid⟩ -
    exact ⟨step_sound d _ hd, (step_issued d _ hd id hid).1⟩
  · rintro d op ⟨hd, hid⟩ hc hl
    rw [replyStep, (step_issued d _ hd id hid).2]
    exact lifeStep_held_iff x d.core.clock _ _ hx hc.2 hl
  · exact ⟨hsound, issued_of_record e hsound id hplaced⟩
  · exact hstart
  · exact hclosed

def filledEntry : Engine ℚ := Runs.run engineStep startEngine [enter .postOnly]

theorem filledEntry_pending : ¬ Lost 1 (life filledEntry.core "TB1-1") := by
  rintro ⟨order, horder, hstate, -⟩
  have hopen : (life filledEntry.core "TB1-1").record.all
      (fun order => order.state == .pendingAck) = true := by
    decide +kernel
  rw [horder, Option.all_some, beq_iff_eq, hstate] at hopen
  exact OrderState.noConfusion hopen

def unreachable : Replies := fun _ => .httpFailed

def alreadyFilled : Replies := fun _ => .code "43011"

def tradeThenCancel : List (EngineOp ℚ × Replies) :=
  [(.onFillEvent ⟨"TB1-1", 1, 100, "t1", 0⟩ (fun _ => false), unreachable),
    (.cancel "TB1-1" (fun _ => false), alreadyFilled)]

theorem executed_not_cancelled_traded :
    Runs.Always replyStep (fun e => ¬ Lost 1 (life e.core "TB1-1")) filledEntry
      tradeThenCancel := by
  refine (executed_not_cancelled 1 "TB1-1" 1000 ⟨0, 0, 0⟩ defaultConfig "1" [enter .postOnly]
    filledEntry rfl ?_ (by decide) ?_ tradeThenCancel ?_).mpr ?_
  · rw [← Option.isSome_iff_ne_none]
    decide +kernel
  · exact filledEntry_pending
  · refine ⟨⟨by simp [unreachable], ?_⟩, ⟨by simp [alreadyFilled], ?_⟩, trivial⟩
    · simp only [withReplies, opOn]
      split_ifs
      · trivial
      · trivial
    · trivial
  · refine ⟨?_, ?_, trivial⟩
    · simp only [HeldBy, withReplies, opOn]
      split_ifs
      · exact fun hconfirmed => absurd hconfirmed (by decide)
      · trivial
    · rintro - ⟨-, hcan⟩
      revert hcan
      decide +kernel

/-- The cancel comes first: the exchange answers that the order is filled, and the
order ends as cancelled, its margin given back and nothing handed to the portfolio. -/
theorem filled_entry_cancelled :
    Closed 1 "TB1-1" filledEntry (.cancel "TB1-1" (fun _ => false), alreadyFilled) ∧
    ¬ Lost 1 (life filledEntry.core "TB1-1") ∧
    (life filledEntry.core "TB1-1").reserved ≠ none ∧
    let after := life (replyStep filledEntry
      (.cancel "TB1-1" (fun _ => false), alreadyFilled)).core "TB1-1"
    Lost 1 after ∧ after.reserved = none ∧ after.passed = [] := by
  refine ⟨⟨by simp [alreadyFilled], trivial⟩, ?_, ?_, ?_, ?_, ?_⟩
  · exact filledEntry_pending
  · rw [← Option.isSome_iff_ne_none]
    decide +kernel
  · have hend : (life (replyStep filledEntry
        (.cancel "TB1-1" (fun _ => false), alreadyFilled)).core "TB1-1").record.any
          (fun order => order.state == .cancelled && decide (order.filledQuantity < 1)) = true := by
      decide +kernel
    obtain ⟨order, horder, hlost⟩ := (Option.any_eq_true _ _).mp hend
    rw [Bool.and_eq_true, beq_iff_eq, decide_eq_true_eq] at hlost
    exact ⟨order, horder, hlost⟩
  · rw [← Option.isNone_iff_eq_none]
    decide +kernel
  · rw [← List.isEmpty_iff]
    decide +kernel

end Runs

end TB.CancelReplies
