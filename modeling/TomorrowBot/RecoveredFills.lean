import TomorrowBot.FillComplete
import TomorrowBot.FillOnce

/-!
# Fills that a reconciliation recovers

A reconciliation writes what the exchange says into the record and the machine
of an order, forgets that fills were applied to it, and hands nothing to the
portfolio. The trades of the order are what the portfolio was given before,
and they are all it is given afterwards.
-/

set_option autoImplicit false

namespace TB.RecoveredFills
open TB.CommonTypes TB.PortfolioEngine TB.OrderTypes TB.Orders TB.FillProcessor
open TB.RecoveryManager TB.ExecutionPlanner TB.ExecutionEngine TB.OrderLife TB.EngineLives
open TB.EngineSimulation TB.LifeSteps TB.EngineBirths TB.OrderAgreement TB.OrderLedger
open TB.FillOnce TB.OrderBooks

section Outcomes

def hasFills (state : OrderState) : Prop := state = .filled ∨ state = .partiallyFilled

def FilledRecord (l : Life ℚ) : Prop :=
  machineState l = some .filled → ∃ order, l.record = some order ∧ hasFills order.state

inductive Outcome (accepted : Option (FillEvent ℚ)) (l m : Life ℚ) : Prop where
  | quiet (h : Quiet l m)
  | entered (fill : FillEvent ℚ) (hfill : accepted = some fill)
      (hfills : fills m = fills l ++ [fill]) (hpassed : m.passed = l.passed ++ [fill.fillQuantity]) (hrecord : FilledRecord m)
      (hmachine : machineState l = some .filled → machineState m = some .filled)
  | closed (hfills : fills m = fills l) (hpassed : l.passed <+: m.passed)
      (hmachine : machineState m = some .filled) (hrecord : FilledRecord m)
  | gone (hrec : m.record = none) (hpassed : m.passed = l.passed)

variable {accepted : Option (FillEvent ℚ)}

theorem outcome_refl (l : Life ℚ) : Outcome accepted l l := .quiet (quiet_refl l)

variable {l m : Life ℚ}

theorem filledRecord_quiet (h : Quiet l m) (hl : FilledRecord l) : FilledRecord m := by
  intro hm
  cases h with
  | same hrec hfsm _ =>
    rw [hrec]
    apply hl
    rw [machineState, ← hfsm]
    exact hm
  | moved _ _ _ hm' => exact absurd hm hm'

theorem quiet_fills (h : Quiet l m) : fills m = fills l := by
  cases h with
  | same hrec _ _ => rw [fills, fills, hrec]
  | moved hfills _ _ _ => exact hfills

theorem quiet_passed (h : Quiet l m) : m.passed = l.passed := by
  cases h with
  | same _ _ hpassed => exact hpassed
  | moved _ hpassed _ _ => exact hpassed

theorem quiet_machine (h : Quiet l m) (hl : machineState l = some .filled) :
    machineState m = some .filled := by
  cases h with
  | same _ hfsm _ =>
    rw [machineState, hfsm]
    exact hl
  | moved _ _ hne _ => exact absurd hl hne

/-- A record that is gone does not come back. -/
theorem same_gone (h : SameOrder l m) (hrec : l.record = none) : m.record = none := by
  cases hm : m.record with
  | none => rfl
  | some order' =>
    obtain ⟨order, ho, -⟩ := h order' hm
    rw [hrec] at ho
    exact absurd ho (by simp)

theorem outcome_then_quiet {l m n : Life ℚ} (h : Outcome accepted l m) (k : Quiet m n)
    (hsame : SameOrder m n) : Outcome accepted l n := by
  cases h with
  | quiet h => exact .quiet (quiet_trans h k)
  | entered fill hfill hfills hpassed hrecord hmachine =>
    exact .entered fill hfill ((quiet_fills k).trans hfills) ((quiet_passed k).trans hpassed)
      (filledRecord_quiet k hrecord) (fun hl => quiet_machine k (hmachine hl))
  | closed hfills hpassed hmachine hrecord =>
    refine .closed ((quiet_fills k).trans hfills) ?_ (quiet_machine k hmachine)
      (filledRecord_quiet k hrecord)
    rw [quiet_passed k]
    exact hpassed
  | gone hrec hpassed =>
    exact .gone (same_gone hsame hrec) ((quiet_passed k).trans hpassed)

variable (clock : Clock)

theorem outcome_remainder (confirmed : Bool) {l m : Life ℚ}
    (h : Outcome accepted l m) : Outcome accepted l (remainder clock confirmed m) :=
  outcome_then_quiet h (quiet_remainder clock confirmed m) (same_moves.remainder clock confirmed m)

/-- An accepted trade is entered and handed over, whatever the machine does. -/
theorem outcome_trade (order : OrderRecord ℚ) (fill : FillEvent ℚ) (l : Life ℚ)
    (hrec : l.record = some order) (hp : 0 < fill.fillPrice) (hq : 0 < fill.fillQuantity) :
    Outcome (some fill) l (trade clock order fill l) := by
  have hpassed := trade_passed clock order fill l hp
  rw [if_pos hq] at hpassed
  apply Outcome.entered fill rfl (trade_fills clock order fill l hrec) hpassed
  · intro _
    refine ⟨_, trade_record clock order fill l hrec, ?_⟩
    show hasFills (fillTarget order (order.filledQuantity + fill.fillQuantity))
    unfold fillTarget
    split_ifs
    · exact .inl rfl
    · exact .inr rfl
  · intro hl
    rw [machineState, trade_fsm, tryMove, filled_stuck clock _ _ l hl]
    exact hl

theorem outcome_marketFill (qty price : ℚ) (ex : OrderId) (l : Life ℚ) :
    Outcome accepted l (marketFill clock qty price ex l) := by
  unfold marketFill
  split_ifs
  · exact outcome_refl l
  · exact outcome_refl l
  · exact outcome_refl l
  · cases hrec : l.record with
    | none => exact outcome_refl l
    | some found =>
      cases hmove : move clock .filled "Market order filled" l with
      | none => exact outcome_refl l
      | some moved =>
        have hrecord : (put (marketFilled found clock.now qty price ex) moved).record =
            some (marketFilled found clock.now qty price ex) := by
          rw [put, move_record hmove, hrec]
          rfl
        apply Outcome.closed
        · show fills (put (marketFilled found clock.now qty price ex) moved) = fills l
          rw [fills, hrecord, fills, hrec]
          rfl
        · show l.passed <+: moved.passed ++ [qty]
          rw [(move_kept hmove).passed]
          exact List.prefix_append _ _
        · exact (move_machine hmove).2
        · intro _
          exact ⟨_, hrecord, .inl rfl⟩

/-- A report leaves the trades, the machine and the record's state alone, and
hands over only what is filled. -/
theorem report_frame (qty price : ℚ) (l : Life ℚ) (order : OrderRecord ℚ)
    (hrec : l.record = some order) :
    fills (report clock qty price l) = fills l ∧
      (report clock qty price l).fsm = l.fsm ∧
      (∃ order', (report clock qty price l).record = some order' ∧ order'.state = order.state) ∧
      l.passed <+: (report clock qty price l).passed ∧
      (order.state ≠ .filled → (report clock qty price l).passed = l.passed) := by
  obtain ⟨hfills, -⟩ := reported_fills order clock.now l.applied qty price l hrec
  have hrecord := put_record (reconciledRecord order clock.now l.applied qty price) order l hrec
  unfold report
  rw [hrec]
  dsimp only
  split_ifs with hwhole
  · exact ⟨hfills, rfl, ⟨_, hrecord, rfl⟩, List.prefix_append _ _,
      fun hne => absurd hwhole.1 hne⟩
  · exact ⟨hfills, rfl, ⟨_, hrecord, rfl⟩, List.prefix_refl _, fun _ => rfl⟩

theorem outcome_update (newState : OrderState) (qty price : ℚ)
    (direct confirmed : Bool) (l : Life ℚ) :
    Outcome accepted l (update clock newState qty price direct confirmed l) := by
  cases hrec : l.record with
  | none =>
    rw [update_refused clock newState qty price direct confirmed l (.inl hrec)]
    exact outcome_refl l
  | some order =>
    cases hmove : move clock newState "Exchange update" l with
    | none =>
      rw [update_refused clock newState qty price direct confirmed l (.inr hmove)]
      exact outcome_refl l
    | some moved =>
      obtain ⟨released, hsame, -, hrecord, hfsm, hupdate⟩ :=
        update_moved clock newState qty price direct confirmed l moved order hrec hmove
      obtain ⟨hl, hmoved⟩ := move_machine hmove
      -- An update to another state than filled hands nothing over.
      have houtcome : ∀ m : Life ℚ, fills m = fills released → m.fsm = released.fsm →
          (∃ order', m.record = some order' ∧ order'.state = newState) →
          released.passed <+: m.passed → (newState ≠ .filled → m.passed = released.passed) →
          Outcome accepted l m := by
        rintro m hfills hm ⟨order', hrec', hstate⟩ hgrows hpassed
        have hmachine : machineState m = some newState := by
          rw [machineState, hm, hfsm]
          exact hmoved
        by_cases hnew : newState = .filled
        · rw [hnew] at hmachine hstate
          rw [hsame.passed] at hgrows
          exact .closed (hfills.trans hsame.fills) hgrows hmachine (fun _ => ⟨order', hrec', .inl hstate⟩)
        · refine .quiet (.moved (hfills.trans hsame.fills)
            ((hpassed hnew).trans hsame.passed) hl ?_)
          rw [hmachine]
          simpa using hnew
      have hreleased : Outcome accepted l released :=
        houtcome released rfl rfl ⟨_, hrecord, rfl⟩ (List.prefix_refl _) (fun _ => rfl)
      have hreported : Outcome accepted l (report clock qty price released) := by
        obtain ⟨hfills, hm, hrec', hgrows, hpassed⟩ :=
          report_frame clock qty price released _ hrecord
        exact houtcome _ hfills hm hrec' hgrows hpassed
      rw [hupdate]
      split_ifs
      · exact outcome_remainder clock confirmed hreported
      · exact hreported
      · exact hreleased

theorem outcome_event (fill : FillEvent ℚ) (taken confirmed : Bool) (l : Life ℚ)
    (h : taken = true → 0 < fill.fillPrice ∧ 0 < fill.fillQuantity) :
    Outcome (if taken then some fill else none) l (event clock fill taken confirmed l) := by
  unfold event
  cases hrec : l.record with
  | none => exact outcome_refl l
  | some order =>
    dsimp only
    split_ifs with htaken
    · obtain ⟨hp, hq⟩ := h htaken
      exact outcome_remainder clock confirmed (outcome_trade clock order fill l hrec hp hq)
    · exact outcome_remainder clock confirmed (outcome_refl l)

theorem outcome_confirmation (a : AwaitingFill ℚ) (answer : FillAnswer ℚ)
    (l : Life ℚ) : Outcome accepted l (confirmation clock a answer l) := by
  have hmoved : ∀ target reason, target ≠ OrderState.filled →
      Outcome accepted l (tryMove clock target reason l) := fun target reason ht =>
    .quiet (quiet_tryMove clock target reason l ht)
  have hreleased : ∀ target reason, target ≠ OrderState.filled →
      Outcome accepted l (releaseFor a.order (tryMove clock target reason l)) :=
    fun target reason ht => outcome_then_quiet (hmoved target reason ht)
      (quiet_releaseFor a.order _) (same_moves.releaseFor a.order _)
  unfold confirmation
  dsimp only
  split_ifs
  · exact hmoved _ _ (by decide)
  · exact hreleased _ _ (by decide)
  · exact hmoved _ _ (by decide)
  · exact hreleased _ _ (by decide)
  · exact hreleased _ _ (by decide)
  all_goals exact outcome_marketFill clock _ _ _ l

theorem outcome_expire (maxAge : ℤ) (l : Life ℚ) : Outcome accepted l (expire clock maxAge l) := by
  unfold expire
  cases hrec : l.record with
  | none => exact outcome_refl l
  | some order =>
    dsimp only
    split_ifs
    · exact .gone rfl rfl
    · exact outcome_refl l

/-- An order that a reconciliation acts on has a machine that is not filled. -/
theorem open_machine {l : Life ℚ} (hl : FilledRecord l) (order : OrderRecord ℚ)
    (hrec : l.record = some order) (hstate : ¬ hasFills order.state) :
    machineState l ≠ some .filled := by
  intro hm
  obtain ⟨found, hfound, hfills⟩ := hl hm
  rw [hrec, Option.some.injEq] at hfound
  rw [hfound] at hstate
  exact hstate hfills

end Outcomes

section Recovery

def isAsked (order : OrderRecord ℚ) : Bool :=
  order.state == .unknownRecovery || isUncertain order

def written (order : OrderRecord ℚ) (detail : OrderFillDetail ℚ) : ℚ :=
  if detail.success = true ∧ 0 < detail.filledQty then recoveredQuantity order detail
  else order.filledQuantity

structure Forced (found : OrderRecord ℚ) (l m : Life ℚ) : Prop where
  record : m.record = some found
  machine : machineState m = some found.state
  applied : m.applied = false
  fills : fills m = fills l
  passed : m.passed = l.passed

variable (clock : Clock)

theorem force_forced (target : OrderState) (reason : String) (l : Life ℚ)
    (order : OrderRecord ℚ) (hrec : l.record = some order) (hm : machineState l ≠ none) :
    Forced (setState clock target order) l (force clock target reason l) := by
  have hsame := sameFills_moves.force clock target reason l
  obtain ⟨fsm, hf⟩ : ∃ fsm, l.fsm = some fsm := by
    cases hf : l.fsm with
    | none => exact absurd (by rw [machineState, hf]; rfl) hm
    | some fsm => exact ⟨fsm, rfl⟩
  have hforce : force clock target reason l = { l with
      record := l.record.map (setState clock target)
      fsm := some (OrderFsm.forceTransition fsm clock target reason)
      applied := false } := by
    simp only [force, hf]
  constructor
  · rw [hforce, hrec]
    rfl
  · rw [hforce]
    rfl
  · rw [hforce]
  · exact hsame.fills
  · exact hsame.passed

theorem forced_trans {found next : OrderRecord ℚ} {l m n : Life ℚ} (h : Forced found l m)
    (k : Forced next m n) : Forced next l n where
  record := k.record
  machine := k.machine
  applied := k.applied
  fills := k.fills.trans h.fills
  passed := k.passed.trans h.passed

theorem forced_put {found : OrderRecord ℚ} {l m : Life ℚ} (h : Forced found l m)
    (order : OrderRecord ℚ) (hstate : order.state = found.state)
    (hinfo : order.executionInfo = found.executionInfo) : Forced order l (put order m) := by
  have hrecord := put_record order found m h.record
  constructor
  · exact hrecord
  · rw [hstate]
    exact h.machine
  · exact h.applied
  · rw [← h.fills, OrderLedger.fills, hrecord, OrderLedger.fills, h.record]
    exact congrArg (fun info => info.fills) hinfo
  · exact h.passed

structure Recovered (order : OrderRecord ℚ) (detail : OrderFillDetail ℚ) (l m : Life ℚ)
    (found : OrderRecord ℚ) : Prop extends Forced found l m where
  state : found.state = .filled ∨ found.state = .partiallyFilled ∨ found.state = .cancelled
  quantity : found.filledQuantity = written order detail

theorem recover_cases (detail : OrderFillDetail ℚ) (confirmed : Bool)
    (order : OrderRecord ℚ) (l : Life ℚ) (hrec : l.record = some order)
    (hm : machineState l ≠ none) : recover clock detail confirmed order l = l ∨
      ∃ found, Recovered order detail l (recover clock detail confirmed order l) found := by
  by_cases hconfirmed : detail.success = true ∧ 0 < detail.filledQty
  · right
    have hwritten : written order detail = recoveredQuantity order detail := if_pos hconfirmed
    have hrecover : recover clock detail confirmed order l = recoveredFill clock order
        (recoveredQuantity order detail) detail.fillPrice confirmed l := if_pos hconfirmed
    have hforced := force_forced clock (fillTarget order (recoveredQuantity order detail))
      "Recovery: confirmed fill by exchange" l order hrec hm
    rw [hrecover]
    unfold recoveredFill
    dsimp only
    rw [hforced.record]
    dsimp only
    have hput := forced_put hforced (recoveredRecord (setState clock (fillTarget order
      (recoveredQuantity order detail)) order) clock.now (recoveredQuantity order detail)
      detail.fillPrice) rfl rfl
    have htarget : fillTarget order (recoveredQuantity order detail) = .filled ∨
        fillTarget order (recoveredQuantity order detail) = .partiallyFilled := by
      unfold fillTarget
      split_ifs
      · exact .inl rfl
      · exact .inr rfl
    split_ifs
    · exact ⟨_, hput, htarget.imp id .inl, hwritten.symm⟩
    · have hcancelled := force_forced clock .cancelled
        "Recovery: partial fill confirmed, remainder cancelled" _ _ hput.record (by
          rw [hput.machine]
          simp)
      exact ⟨_, forced_trans hput hcancelled, .inr (.inr rfl), hwritten.symm⟩
    · exact ⟨_, hput, htarget.imp id .inl, hwritten.symm⟩
  · have hwritten : written order detail = order.filledQuantity := if_neg hconfirmed
    unfold recover
    rw [if_neg hconfirmed]
    split_ifs
    · right
      exact ⟨_, force_forced clock .cancelled "Recovery: confirmed cancelled on exchange" l order
        hrec hm, .inr (.inr rfl), hwritten.symm⟩
    · left
      rfl

theorem marked_asked (l : Life ℚ) (order : OrderRecord ℚ)
    (hrec : l.record = some order) (hasked : isAsked order = true) (hm : machineState l ≠ none)
    (hl : machineState l ≠ some .filled) :
    ∃ marked asked, whenRecord (fun o => isActive o.state && isUncertain o)
        (fun _ => force clock .unknownRecovery "Recovery: uncertain order detected") l = marked ∧
      marked.record = some asked ∧ asked.state = .unknownRecovery ∧
      (∀ detail, written asked detail = written order detail) ∧
      machineState marked ≠ none ∧ Quiet l marked := by
  by_cases huncertain : isUncertain order = true
  · have hactive : (isActive order.state && isUncertain order) = true := by
      rw [Bool.and_eq_true]
      refine ⟨?_, huncertain⟩
      unfold isUncertain at huncertain
      cases hstate : order.state <;> simp [hstate] at huncertain ⊢ <;> rfl
    have hforced := force_forced clock .unknownRecovery "Recovery: uncertain order detected" l
      order hrec hm
    have hmarked : whenRecord (fun o => isActive o.state && isUncertain o)
        (fun _ => force clock .unknownRecovery "Recovery: uncertain order detected") l =
        force clock .unknownRecovery "Recovery: uncertain order detected" l := by
      simp only [whenRecord, hrec, hactive, if_true]
    refine ⟨_, setState clock .unknownRecovery order, hmarked, hforced.record, rfl,
      fun detail => rfl, ?_, quiet_force clock _ _ l (by decide) hl⟩
    rw [hforced.machine]
    simp
  · have hunknown : order.state = .unknownRecovery := by
      simpa [isAsked, huncertain] using hasked
    have hmarked : whenRecord (fun o => isActive o.state && isUncertain o)
        (fun _ => force clock .unknownRecovery "Recovery: uncertain order detected") l = l := by
      simp only [whenRecord, hrec, huncertain, Bool.and_false, Bool.false_eq_true, if_false]
    exact ⟨l, order, hmarked, hrec, hunknown, fun detail => rfl, hm, quiet_refl l⟩

theorem not_stale (maxMs : ℤ) (l : Life ℚ) (order : OrderRecord ℚ)
    (hrec : l.record = some order) (hstate : order.state ≠ .cancelPending) :
    isStale clock .cancelPending maxMs l = false := by
  simp [isStale, hrec, hstate]

variable (timeoutMs : ℤ) (detail : OrderFillDetail ℚ) (confirmed : Bool)

theorem reconcile_asked (l : Life ℚ) (order : OrderRecord ℚ) (hrec : l.record = some order)
    (hasked : isAsked order = true) (hm : machineState l ≠ none)
    (hl : machineState l ≠ some .filled) :
    (Quiet l (reconcile clock timeoutMs detail confirmed l) ∧
      ∃ found, (reconcile clock timeoutMs detail confirmed l).record = some found ∧
        found.state = .unknownRecovery) ∨
    ∃ found, Recovered order detail l (reconcile clock timeoutMs detail confirmed l) found := by
  obtain ⟨marked, asked, hmarked, hrec', hunknown, hwritten, hm', hquiet⟩ :=
    marked_asked clock l order hrec hasked hm hl
  have hrecovered : whenRecord (fun o => o.state == .unknownRecovery)
      (recover clock detail confirmed) marked = recover clock detail confirmed asked marked := by
    simp [whenRecord, hrec', hunknown]
  unfold reconcile
  dsimp only
  rw [hmarked, hrecovered]
  rcases recover_cases clock detail confirmed asked marked hrec' hm' with hsame | ⟨found, h⟩
  · left
    rw [hsame, not_stale clock _ marked asked hrec' (by rw [hunknown]; decide)]
    exact ⟨hquiet, asked, hrec', hunknown⟩
  · right
    have hstate : found.state ≠ .cancelPending := by
      rcases h.state with hs | hs | hs
      all_goals
        rw [hs]
        decide
    rw [not_stale clock _ _ found h.record hstate]
    refine ⟨found, ⟨h.record, h.machine, h.applied, ?_, ?_⟩, h.state, ?_⟩
    · rw [if_neg (by simp), h.fills, quiet_fills hquiet]
    · rw [if_neg (by simp), h.passed, quiet_passed hquiet]
    · rw [h.quantity, hwritten]

/-- An order the exchange is not asked about is at most cancelled, if its cancel
stays pending for too long. -/
theorem reconcile_other (l : Life ℚ) (order : OrderRecord ℚ) (hrec : l.record = some order)
    (hasked : isAsked order = false) (hl : FilledRecord l) :
    Quiet l (reconcile clock timeoutMs detail confirmed l) := by
  unfold isAsked at hasked
  rw [Bool.or_eq_false_iff] at hasked
  unfold reconcile whenRecord
  simp only [hrec, hasked.1, hasked.2, Bool.and_false, Bool.false_eq_true, if_false]
  split_ifs with hstale
  · unfold isStale at hstale
    rw [Bool.and_eq_true, hrec, Option.any_some, beq_iff_eq] at hstale
    apply quiet_force clock _ _ l (by decide)
    apply open_machine hl order hrec
    rw [hstale.1]
    simp [hasFills]
  · exact quiet_refl l

/-- Without a machine nothing is forced. -/
theorem reconcile_unmachined (l : Life ℚ) (order : OrderRecord ℚ) (hrec : l.record = some order)
    (hm : machineState l = none) :
    Quiet l (reconcile clock timeoutMs detail confirmed l) ∧
      ∃ found, (reconcile clock timeoutMs detail confirmed l).record = some found ∧
        found.state = order.state := by
  have hf : l.fsm = none := by
    cases hf : l.fsm with
    | none => rfl
    | some fsm =>
      rw [machineState, hf] at hm
      exact absurd hm (by simp)
  have hforce : ∀ (m : Life ℚ) (target : OrderState) (reason : String), m.fsm = none →
      force clock target reason m = m := by
    intro m target reason h
    unfold force
    rw [h]
  have hne : machineState l ≠ some .filled := by
    rw [hm]
    simp
  have hmarked : whenRecord (fun o => isActive o.state && isUncertain o)
      (fun _ => force clock .unknownRecovery "Recovery: uncertain order detected") l = l := by
    simp [whenRecord, hrec, hforce l _ _ hf]
  have hself : put order l = l := by
    cases l
    simp only [put] at hrec ⊢
    rw [hrec]
    rfl
  obtain ⟨found, hput, hinfo, hstate⟩ : ∃ found, whenRecord (fun o => o.state == .unknownRecovery)
      (recover clock detail confirmed) l = put found l ∧
      found.executionInfo = order.executionInfo ∧ found.state = order.state := by
    by_cases hunknown : order.state = .unknownRecovery ∧ detail.success = true ∧
        0 < detail.filledQty
    · refine ⟨recoveredRecord order clock.now (recoveredQuantity order detail) detail.fillPrice,
        ?_, rfl, rfl⟩
      have hputf : (put (recoveredRecord order clock.now (recoveredQuantity order detail)
          detail.fillPrice) l).fsm = none := hf
      simp [whenRecord, hrec, hunknown, recover, recoveredFill, hforce l _ _ hf,
        hforce _ _ _ hputf]
    · refine ⟨order, ?_, rfl, rfl⟩
      rw [hself]
      by_cases hs : order.state = .unknownRecovery
      · have hdetail : ¬ (detail.success = true ∧ 0 < detail.filledQty) :=
          fun h => hunknown ⟨hs, h⟩
        simp [whenRecord, hrec, recover, hdetail, hforce l _ _ hf]
      · simp [whenRecord, hrec, hs]
  have hstale : isStale clock .cancelPending (timeoutMs * 3) (put found l) = false := by
    simp [isStale, put, hf]
  have hrecord := put_record found order l hrec
  unfold reconcile
  dsimp only
  rw [hmarked, hput, hstale, if_neg (by simp)]
  refine ⟨.moved ?_ rfl hne hne, found, hrecord, hstate⟩
  rw [fills, hrecord, fills, hrec]
  exact congrArg (fun info => info.fills) hinfo

theorem outcome_reconcile {accepted : Option (FillEvent ℚ)} (clock : Clock) (timeoutMs : ℤ)
    (detail : OrderFillDetail ℚ) (confirmed : Bool) (l : Life ℚ)
    (hl : l.record = none ∨ FilledRecord l) :
    Outcome accepted l (reconcile clock timeoutMs detail confirmed l) := by
  cases hrec : l.record with
  | none =>
    have hnone : reconcile clock timeoutMs detail confirmed l = l := by
      simp [reconcile, whenRecord, isStale, hrec]
    rw [hnone]
    exact outcome_refl l
  | some order =>
    replace hl : FilledRecord l := by
      rcases hl with hnone | hl
      · rw [hrec] at hnone
        exact absurd hnone (by simp)
      · exact hl
    by_cases hm : machineState l = none
    · exact .quiet (reconcile_unmachined clock timeoutMs detail confirmed l order hrec hm).1
    by_cases hasked : isAsked order = true
    · have hopen : machineState l ≠ some .filled := by
        apply open_machine hl order hrec
        rintro (h | h)
        all_goals simp [isAsked, isUncertain, h] at hasked
      rcases reconcile_asked clock timeoutMs detail confirmed l order hrec hasked hm hopen with
        h | ⟨found, h⟩
      · exact .quiet h.1
      · by_cases hfilled : found.state = .filled
        · apply Outcome.closed h.fills
          · rw [h.passed]
          · rw [h.machine, hfilled]
          · exact fun _ => ⟨found, h.record, .inl hfilled⟩
        · refine .quiet (.moved h.fills h.passed hopen ?_)
          rw [h.machine]
          simpa using hfilled
    · rw [Bool.not_eq_true] at hasked
      exact .quiet (reconcile_other clock timeoutMs detail confirmed l order hrec hasked hl)

end Recovery

section Histories

def acceptedTrade : LifeOp ℚ → Option (FillEvent ℚ)
  | .traded fill accepted _ => if accepted then some fill else none
  | _ => none

theorem lifeStep_outcome (clock : Clock) (l : Life ℚ) (op : LifeOp ℚ)
    (hl : l.record = none ∨ FilledRecord l)
    (hop : ∀ fill, acceptedTrade op = some fill → 0 < fill.fillPrice ∧ 0 < fill.fillQuantity) :
    Outcome (acceptedTrade op) l (lifeStep clock l op) := by
  cases op with
  | skip => exact outcome_refl l
  | confirmed a answer => exact outcome_confirmation clock a answer l
  | updated newState qty price direct confirmed =>
    exact outcome_update clock newState qty price direct confirmed l
  | traded fill accepted confirmed =>
    apply outcome_event
    intro haccepted
    apply hop
    rw [acceptedTrade, if_pos haccepted]
  | cancel confirmed => exact .quiet (quiet_cancel clock confirmed l)
  | expire maxAge => exact outcome_expire clock maxAge l
  | reconcile timeoutMs detail confirmed =>
    exact outcome_reconcile clock timeoutMs detail confirmed l hl

structure ByTrade (trades : List (FillEvent ℚ)) (l : Life ℚ) : Prop where
  passed : l.passed = (fills l).map (fun t => t.fillQuantity)
  distinct : ((fills l).map (fun t => t.tradeId)).Nodup
  known : ∀ f ∈ fills l, entry f ∈ trades.map entry

def NewOf (trades : List (FillEvent ℚ)) (l : Life ℚ) (fill : FillEvent ℚ) : Prop :=
  entry fill ∈ trades.map entry ∧ fill.tradeId ∉ (fills l).map (fun t => t.tradeId)

variable (trades : List (FillEvent ℚ))

theorem byTrade_same {l m : Life ℚ} (hfills : fills m = fills l)
    (hpassed : m.passed = l.passed) (h : ByTrade trades l) : ByTrade trades m := by
  constructor
  · rw [hpassed, hfills]
    exact h.passed
  · rw [hfills]
    exact h.distinct
  · rw [hfills]
    exact h.known

theorem byTrade_entered {l m : Life ℚ} (fill : FillEvent ℚ)
    (hfills : fills m = fills l ++ [fill]) (hpassed : m.passed = l.passed ++ [fill.fillQuantity])
    (hnew : NewOf trades l fill) (h : ByTrade trades l) : ByTrade trades m := by
  constructor
  · rw [hpassed, hfills, List.map_append, h.passed]
    rfl
  · rw [hfills, List.map_append, List.map_singleton]
    apply List.Nodup.append h.distinct (List.nodup_singleton _)
    intro a ha hb
    rw [List.mem_singleton] at hb
    exact hnew.2 (hb ▸ ha)
  · intro f hf
    rw [hfills] at hf
    rcases List.mem_append.mp hf with hf | hf
    · exact h.known f hf
    · rw [List.mem_singleton.mp hf]
      exact hnew.1

structure Kept (trades : List (FillEvent ℚ)) (l : Life ℚ) : Prop where
  record : FilledRecord l
  books : machineState l = some .filled ∨ ByTrade trades l

theorem kept_outcome {accepted : Option (FillEvent ℚ)} {l m : Life ℚ} (h : Outcome accepted l m)
    (hnew : ∀ fill, accepted = some fill → NewOf trades l fill) (hl : Kept trades l) :
    m.record = none ∨ Kept trades m := by
  cases h with
  | quiet h =>
    refine .inr ⟨filledRecord_quiet h hl.record, ?_⟩
    rcases hl.books with hmachine | hbooks
    · exact .inl (quiet_machine h hmachine)
    · exact .inr (byTrade_same trades (quiet_fills h) (quiet_passed h) hbooks)
  | entered fill hfill hfills hpassed hrecord hmachine =>
    refine .inr ⟨hrecord, ?_⟩
    rcases hl.books with hfilled | hbooks
    · exact .inl (hmachine hfilled)
    · exact .inr (byTrade_entered trades fill hfills hpassed (hnew fill hfill) hbooks)
  | closed hfills hpassed hmachine hrecord => exact .inr ⟨hrecord, .inl hmachine⟩
  | gone hnone _ => exact .inl hnone

def Listed (t : FillEvent ℚ) (l : Life ℚ) : Prop :=
  l.passed ≠ [] ∧ (l.record = none ∨ entry t ∈ (fills l).map entry)

theorem listed_outcome (t : FillEvent ℚ) {accepted : Option (FillEvent ℚ)} {l m : Life ℚ}
    (h : Outcome accepted l m) (hsame : SameOrder l m) (hl : Listed t l) : Listed t m := by
  obtain ⟨hpassed, hlisted⟩ := hl
  have hlater : m.record = none ∨ (fills l).map entry ⊆ (fills m).map entry := by
    cases h with
    | quiet h => exact .inr (by rw [quiet_fills h]; exact List.Subset.refl _)
    | entered fill _ hfills _ _ _ =>
      right
      rw [hfills, List.map_append]
      exact List.subset_append_left _ _
    | closed hfills _ _ _ => exact .inr (by rw [hfills]; exact List.Subset.refl _)
    | gone hrec _ => exact .inl hrec
  constructor
  · have hgrows : l.passed <+: m.passed := by
      cases h with
      | quiet h => rw [quiet_passed h]
      | entered fill _ _ hp _ _ =>
        rw [hp]
        exact List.prefix_append _ _
      | closed _ hp _ _ => exact hp
      | gone _ hp => rw [hp]
    intro hnil
    rw [hnil, List.prefix_nil] at hgrows
    exact hpassed hgrows
  · rcases hlisted with hnone | hmem
    · exact .inl (same_gone hsame hnone)
    · exact hlater.imp id (fun hsub => hsub hmem)

end Histories

section Engines

/-- Every fill event that is applied to the order is a new trade of it, and no fill
event about one of its trades is dropped before that trade is listed. -/
def Heard (id : OrderId) (trades : List (FillEvent ℚ)) (e : Engine ℚ) : EngineOp ℚ → Prop
  | .onFillEvent fill _ =>
      (names e.core fill.orderId id = true → tradeAccepted e.core.registry fill = true →
        NewOf trades (life e.core id) fill) ∧
      (entry fill ∈ trades.map entry →
        (names e.core fill.orderId id = true ∧ tradeAccepted e.core.registry fill = true) ∨
          Listed fill (life e.core id))
  | _ => True

theorem accepted_source (e : Engine ℚ) (op : EngineOp ℚ) (id : OrderId) (fill : FillEvent ℚ)
    (h : acceptedTrade (opOn e op id) = some fill) :
    ∃ answers, op = .onFillEvent fill answers ∧ names e.core fill.orderId id = true ∧
      tradeAccepted e.core.registry fill = true := by
  have hsource := opOn_source e op id
  generalize opOn e op id = step at hsource h
  cases hsource with
  | traded found answers hnames =>
    rw [acceptedTrade] at h
    split_ifs at h with haccepted
    rw [Option.some.injEq] at h
    subst h
    exact ⟨answers, rfl, hnames, haccepted⟩
  | _ => exact absurd h (by simp [acceptedTrade])

/-- The trades of an order have positive quantities, whatever names the order. -/
theorem entry_positive (trades : List (FillEvent ℚ)) (hex : Executed trades) (fill : FillEvent ℚ)
    (h : entry fill ∈ trades.map entry) : 0 < fill.fillQuantity := by
  obtain ⟨t, ht, heq⟩ := List.mem_map.mp h
  have hqty : t.fillQuantity = fill.fillQuantity := congrArg Prod.snd heq
  rw [← hqty]
  exact (hex.positive t ht).2

def InBooks (id : OrderId) (trades : List (FillEvent ℚ)) (e : Engine ℚ) : Prop :=
  Sound e ∧ ((life e.core id).record = none ∨ Kept trades (life e.core id))

variable (id : OrderId) (trades : List (FillEvent ℚ))

theorem inBooks_outcome (hex : Executed trades)
    (e : Engine ℚ) (op : EngineOp ℚ) (h : InBooks id trades e) (hc : Heard id trades e op) :
    Outcome (acceptedTrade (opOn e op id)) (life e.core id)
        (lifeStep e.core.clock (life e.core id) (opOn e op id)) ∧
      ∀ fill, acceptedTrade (opOn e op id) = some fill → NewOf trades (life e.core id) fill := by
  have hnew : ∀ fill, acceptedTrade (opOn e op id) = some fill →
      NewOf trades (life e.core id) fill := by
    intro fill hfill
    obtain ⟨answers, rfl, hnames, haccepted⟩ := accepted_source e op id fill hfill
    exact hc.1 hnames haccepted
  refine ⟨?_, hnew⟩
  apply lifeStep_outcome e.core.clock _ _ (h.2.imp (fun hnone => hnone) Kept.record)
  intro fill hfill
  obtain ⟨answers, -, -, haccepted⟩ := accepted_source e op id fill hfill
  exact ⟨not_le.mp (accepted_price e.core.registry fill haccepted),
    entry_positive trades hex fill (hnew fill hfill).1⟩

theorem born_kept (id : OrderId) (side : TradeSide) (l : Life ℚ)
    (h : Born id side l) : Kept trades l := by
  obtain ⟨order, fsm, hrec, hfsm, hnew, hstate, -⟩ := h.placed
  have hnone : fills l = [] := by
    rw [fills, hrec]
    exact hnew.fills
  constructor
  · intro hm
    refine ⟨order, hrec, .inl ?_⟩
    rw [machineState, hfsm, Option.map_some, Option.some.injEq] at hm
    rw [hstate, hm]
  · right
    constructor
    · rw [h.passed, hnone]
      rfl
    · rw [hnone]
      exact List.nodup_nil
    · rw [hnone]
      intro f hf
      exact absurd hf (by simp)

theorem inBooks_step (hex : Executed trades)
    (e : Engine ℚ) (op : EngineOp ℚ) (h : InBooks id trades e) (hc : Heard id trades e op) :
    InBooks id trades (engineStep e op) := by
  refine ⟨step_sound e op h.1, ?_⟩
  obtain ⟨houtcome, hnew⟩ := inBooks_outcome id trades hex e op h hc
  rcases step_life e op h.1 id with hstep | ⟨-, side, hborn⟩
  · rw [hstep]
    rcases h.2 with hnone | hkept
    · exact .inl (same_gone (same_lifeStep _ _ _) hnone)
    · exact kept_outcome trades houtcome hnew hkept
  · exact .inr (born_kept trades id side _ hborn)

theorem listed_step (hex : Executed trades)
    (t : FillEvent ℚ) (e : Engine ℚ) (op : EngineOp ℚ) (h : InBooks id trades e)
    (hc : Heard id trades e op) (ht : Listed t (life e.core id)) :
    Listed t (life (engineStep e op).core id) := by
  rcases step_life e op h.1 id with hstep | ⟨hunborn, -⟩
  · rw [hstep]
    exact listed_outcome t (inBooks_outcome id trades hex e op h hc).1 (same_lifeStep _ _ _) ht
  · rw [hunborn] at ht
    exact absurd rfl ht.1

theorem fillEvent_listed (hex : Executed trades)
    (fill : FillEvent ℚ) (answers : OrderId → Bool) (hmem : entry fill ∈ trades.map entry)
    (e : Engine ℚ) (h : InBooks id trades e) (hc : Heard id trades e (.onFillEvent fill answers)) :
    Listed fill (life (engineStep e (.onFillEvent fill answers)).core id) := by
  rcases hc.2 hmem with ⟨hnames, haccepted⟩ | hlisted
  · obtain ⟨order, hres⟩ := (names_iff e.core fill.orderId id).mp hnames
    obtain ⟨hrec, -⟩ := resolve_some e.core h.1.own fill.orderId id order hres
    have hop : opOn e (.onFillEvent fill answers) id = .traded fill true (answers id) := by
      rw [opOn, if_pos hnames, haccepted]
    rw [engineStep_lives e (.onFillEvent fill answers) id h.1.own rfl, hop]
    have hevent : lifeStep e.core.clock (life e.core id) (.traded fill true (answers id)) =
        remainder e.core.clock (answers id) (trade e.core.clock order fill (life e.core id)) := by
      simp only [lifeStep, event, hrec, if_true]
    have hsame := sameFills_moves.remainder e.core.clock (answers id)
      (trade e.core.clock order fill (life e.core id))
    have hpassed := trade_passed e.core.clock order fill (life e.core id)
      (not_le.mp (accepted_price e.core.registry fill haccepted))
    rw [if_pos (entry_positive trades hex fill hmem)] at hpassed
    rw [hevent]
    constructor
    · rw [hsame.passed, hpassed]
      simp
    · right
      rw [hsame.fills, trade_fills e.core.clock order fill _ hrec, List.map_append]
      simp
  · exact listed_step id trades hex fill e _ h hc hlisted

end Engines

section Late

def Stuck (l : Life ℚ) : Prop := ∀ clock target reason, move clock target reason l = none

theorem stuck_of_terminal (l : Life ℚ) (state : OrderState) (hm : machineState l = some state)
    (hstate : isTerminal state = true) : Stuck l := by
  intro clock target reason
  cases hmove : move clock target reason l with
  | none => rfl
  | some moved =>
    obtain ⟨fsm, hfsm, hvalid, -⟩ := move_some hmove
    rw [machineState, hfsm, Option.map_some, Option.some.injEq] at hm
    rw [hm, terminal_refuses state target hstate] at hvalid
    exact absurd hvalid (by simp)

theorem stuck_fsm {l m : Life ℚ} (hfsm : m.fsm = l.fsm) (h : Stuck l) : Stuck m := by
  intro clock target reason
  have hl := h clock target reason
  rw [move, Option.bind_eq_none_iff] at hl
  rw [move, Option.bind_eq_none_iff, hfsm]
  intro fsm hf
  have hnone := hl fsm hf
  rw [Option.map_eq_none_iff] at hnone ⊢
  exact hnone

inductive After (trades : List (FillEvent ℚ)) (w : ℚ) (l : Life ℚ) : Prop where
  | byTrade (hbooks : ByTrade trades l)
      (hfresh : fills l = [] → l.applied = false ∧ w ≤ filled l ∧ filled l ≤ total trades)
  | whole (hfills : fills l = []) (happlied : l.applied = true) (hw : w ≤ l.passed.sum)
      (htotal : l.passed.sum ≤ total trades)

variable (trades : List (FillEvent ℚ))

theorem after_passed (hex : Executed trades) (w : ℚ) (l : Life ℚ)
    (h : After trades w l) : l.passed.sum ≤ total trades := by
  cases h with
  | byTrade hbooks _ =>
    rw [hbooks.passed]
    exact total_ledger (fills l) trades hex hbooks.distinct hbooks.known
  | whole _ _ _ htotal => exact htotal

def Included (t : FillEvent ℚ) (l : Life ℚ) : Prop :=
  entry t ∈ (fills l).map entry ∨ (fills l = [] ∧ l.applied = true)

theorem late_trade (w : ℚ) (clock : Clock)
    (order : OrderRecord ℚ) (fill : FillEvent ℚ) (l : Life ℚ) (hrec : l.record = some order)
    (hp : 0 < fill.fillPrice) (hq : 0 < fill.fillQuantity)
    (hmem : entry fill ∈ trades.map entry) (hnew : NewTrade fill l) (h : After trades w l) :
    After trades w (trade clock order fill l) := by
  have hfills := trade_fills clock order fill l hrec
  have hpassed := trade_passed clock order fill l hp
  rw [if_pos hq] at hpassed
  cases h with
  | byTrade hbooks _ =>
    refine .byTrade (byTrade_entered trades fill hfills hpassed ⟨hmem, hnew.2⟩ hbooks) ?_
    intro hnil
    rw [hfills] at hnil
    exact absurd hnil (by simp)
  | whole hnil happlied _ _ => exact absurd hnil (hnew.1 happlied)

theorem late_report (w : ℚ) (clock : Clock) (qty price : ℚ) (l : Life ℚ) (hq : qty ≤ total trades)
    (hno : ∀ order, l.record = some order → order.state = .filled → NoTrades l)
    (h : After trades w l) : After trades w (report clock qty price l) := by
  unfold report
  cases hrec : l.record with
  | none => exact h
  | some found =>
    obtain ⟨hfills, hfilled⟩ := reported_fills found clock.now l.applied qty price l hrec
    have hquantity := filled_record l found hrec
    dsimp only
    by_cases hwhole : (reconciledRecord found clock.now l.applied qty price).state = .filled ∧
        l.applied = false
    · rw [if_pos hwhole]
      have hnil := hno found hrec hwhole.1 hwhole.2
      cases h with
      | byTrade hbooks hfresh =>
        obtain ⟨-, hw, htotal⟩ := hfresh hnil
        rw [hquantity] at hw htotal
        have hone : (hand (reconciledRecord found clock.now l.applied qty price)
            (reconciledRecord found clock.now l.applied qty price).filledQuantity
            (mark (put (reconciledRecord found clock.now l.applied qty price) l))).passed.sum =
            max found.filledQuantity qty := by
          have hmax : (reconciledRecord found clock.now l.applied qty price).filledQuantity =
              max found.filledQuantity qty := stdMax_rat found.filledQuantity qty
          simp [hand, mark, put, hbooks.passed, hnil, hmax]
        apply After.whole
        · exact hfills.trans hnil
        · rfl
        · rw [hone]
          exact le_max_of_le_left hw
        · rw [hone]
          exact max_le htotal hq
      | whole _ happlied _ _ =>
        rw [happlied] at hwhole
        exact absurd hwhole.2 (by simp)
    · rw [if_neg hwhole]
      cases h with
      | byTrade hbooks hfresh =>
        refine .byTrade (byTrade_same trades hfills rfl hbooks) ?_
        intro hnil
        rw [hfills] at hnil
        obtain ⟨happlied, hw, htotal⟩ := hfresh hnil
        rw [hquantity] at hw htotal
        refine ⟨happlied, ?_, ?_⟩
        · rw [hfilled]
          exact le_max_of_le_left hw
        · rw [hfilled]
          exact max_le htotal hq
      | whole hnil happlied hw htotal => exact .whole (hfills.trans hnil) happlied hw htotal

def LateHeard (id : OrderId) (c : ExecutionCore ℚ) (d : Delivery) : Prop :=
  OneDoor id c d ∧ ∀ t x, d = .processFillEvent t x →
    (names c x id = true ∧ tradeAccepted c.registry (under x t) = true) ∨ Included t (life c id)

theorem stuck_marketFill (clock : Clock) (qty price : ℚ) (ex : OrderId) (l : Life ℚ)
    (h : Stuck l) : marketFill clock qty price ex l = l := by
  unfold marketFill
  rw [h]
  split_ifs
  · rfl
  · rfl
  · rfl
  · cases l.record <;> rfl

variable (id : OrderId)

theorem late_cases (trades : List (FillEvent ℚ)) (c : ExecutionCore ℚ)
    (d : Delivery) (hstuck : Stuck (life c id)) :
    deliverLife id trades c (life c id) d = life c id ∨
      (∃ t x order, d = .processFillEvent t x ∧ names c x id = true ∧
        tradeAccepted c.registry (under x t) = true ∧ (life c id).record = some order ∧
        deliverLife id trades c (life c id) d = trade c.clock order (under x t) (life c id)) ∨
      ∃ reported price, d = .processOrderFill reported price ∧
        deliverLife id trades c (life c id) d =
          report c.clock (total reported) price (life c id) := by
  cases d with
  | processFillEvent t x =>
    simp only [deliverLife]
    by_cases heff : names c x id = true ∧ tradeAccepted c.registry (under x t) = true
    · rw [if_pos heff]
      cases hrec : (life c id).record with
      | none =>
        left
        simp [whenRecord, hrec]
      | some order =>
        right
        left
        refine ⟨t, x, order, rfl, heff.1, heff.2, rfl, ?_⟩
        simp [whenRecord, hrec]
    · rw [if_neg heff]
      exact .inl rfl
  | processMarketFill price ex => exact .inl (stuck_marketFill c.clock _ price ex _ hstuck)
  | processOrderFill reported price => exact .inr (.inr ⟨reported, price, rfl, rfl⟩)
  | onOrderUpdate x newState reported price answers =>
    left
    simp only [deliverLife]
    split_ifs
    · exact update_refused c.clock newState _ price _ _ _ (.inr (hstuck _ _ _))
    · rfl

structure InLate (id : OrderId) (trades : List (FillEvent ℚ)) (w : ℚ) (c : ExecutionCore ℚ) :
    Prop where
  own : AllOwn c
  stuck : Stuck (life c id)
  after : After trades w (life c id)

theorem late_step (trades : List (FillEvent ℚ)) (hex : Executed trades) (w : ℚ)
    (c : ExecutionCore ℚ) (d : Delivery) (h : InLate id trades w c)
    (hd : LateHeard id c d ∧ About trades d) : InLate id trades w (deliver id trades c d) := by
  obtain ⟨hown, hlife⟩ := deliver_life id trades c h.own d
  refine ⟨hown, ?_, ?_⟩
  · rw [hlife]
    rcases late_cases id trades c d h.stuck with hsame | ⟨t, x, order, -, -, -, hrec, htrade⟩ |
      ⟨reported, price, -, hreport⟩
    · rw [hsame]
      exact h.stuck
    · rw [htrade]
      refine stuck_fsm ?_ h.stuck
      rw [trade_fsm, tryMove, h.stuck]
      rfl
    · rw [hreport]
      refine stuck_fsm ?_ h.stuck
      cases hrec : (life c id).record with
      | none => simp [report, hrec]
      | some order => exact (report_frame c.clock _ price _ order hrec).2.1
  · rw [hlife]
    rcases late_cases id trades c d h.stuck with hsame |
      ⟨t, x, order, rfl, hnames, haccepted, hrec, htrade⟩ | ⟨reported, price, rfl, hreport⟩
    · rw [hsame]
      exact h.after
    · obtain ⟨hp, hq⟩ := hex.positive t hd.2
      have hentry : entry t ∈ trades.map entry := List.mem_map_of_mem hd.2
      rw [htrade]
      exact late_trade trades w c.clock order (under x t) _ hrec hp hq hentry
        (hd.1.1 hnames haccepted) h.after
    · rw [hreport]
      exact late_report trades w c.clock _ price _ (total_sublist reported trades hex hd.2)
        hd.1.1 h.after

theorem included_step (trades : List (FillEvent ℚ)) (w : ℚ) (t : FillEvent ℚ)
    (c : ExecutionCore ℚ) (d : Delivery) (h : InLate id trades w c)
    (hd : LateHeard id c d ∧ About trades d) (ht : Included t (life c id)) :
    Included t (life (deliver id trades c d) id) := by
  rw [(deliver_life id trades c h.own d).2]
  rcases late_cases id trades c d h.stuck with hsame |
    ⟨s, x, order, rfl, hnames, haccepted, hrec, htrade⟩ | ⟨reported, price, rfl, hreport⟩
  · rw [hsame]
    exact ht
  · rw [htrade]
    rcases ht with hmem | ⟨hnil, happlied⟩
    · left
      rw [trade_fills c.clock order (under x s) _ hrec, List.map_append]
      exact List.mem_append_left _ hmem
    · exact absurd hnil ((hd.1.1 hnames haccepted).1 happlied)
  · rw [hreport]
    cases hrec : (life c id).record with
    | none =>
      have hsame : report c.clock (total reported) price (life c id) = life c id := by
        simp [report, hrec]
      rw [hsame]
      exact ht
    | some order =>
      obtain ⟨hfills, -⟩ := report_frame c.clock (total reported) price _ order hrec
      rw [Included, hfills]
      refine ht.imp (fun hmem => hmem) (fun hwhole => ⟨hwhole.1, ?_⟩)
      unfold report
      rw [hrec]
      dsimp only
      split_ifs
      · rfl
      · exact hwhole.2

theorem trade_included (trades : List (FillEvent ℚ)) (w : ℚ) (t : FillEvent ℚ)
    (x : OrderId) (c : ExecutionCore ℚ) (h : InLate id trades w c)
    (hd : LateHeard id c (.processFillEvent t x) ∧ About trades (.processFillEvent t x)) :
    Included t (life (deliver id trades c (.processFillEvent t x)) id) := by
  rcases hd.1.2 t x rfl with ⟨hnames, haccepted⟩ | hincluded
  · obtain ⟨order, hres⟩ := (names_iff c x id).mp hnames
    obtain ⟨hrec, -⟩ := resolve_some c h.own x id order hres
    have htrade : deliverLife id trades c (life c id) (.processFillEvent t x) =
        trade c.clock order (under x t) (life c id) := by
      simp [deliverLife, hnames, haccepted, whenRecord, hrec]
    rw [(deliver_life id trades c h.own _).2, htrade]
    left
    rw [trade_fills c.clock order (under x t) _ hrec, List.map_append]
    exact List.mem_append_right _ (List.mem_singleton_self _)
  · exact included_step id trades w t c _ h hd hincluded

theorem all_included (hex : Executed trades) (w : ℚ) (l : Life ℚ)
    (h : After trades w l) (hw : w = total trades) (hall : ∀ t ∈ trades, Included t l) :
    l.passed.sum = total trades := by
  cases h with
  | whole _ _ hlow htotal => exact le_antisymm htotal (hw ▸ hlow)
  | byTrade hbooks hfresh =>
    have hlisted : ∀ t ∈ trades, entry t ∈ (fills l).map entry := by
      intro t ht
      rcases hall t ht with hmem | ⟨hnil, happlied⟩
      · exact hmem
      · rw [(hfresh hnil).1] at happlied
        exact absurd happlied (by simp)
    have hnodup : ∀ ts : List (FillEvent ℚ), (ts.map (fun t => t.tradeId)).Nodup →
        (ts.map entry).Nodup := by
      intro ts hts
      apply List.Nodup.of_map Prod.fst
      rw [List.map_map]
      exact hts
    have hperm : ((fills l).map entry).Perm (trades.map entry) := by
      rw [List.perm_ext_iff_of_nodup (hnodup _ hbooks.distinct) (hnodup _ hex.distinct)]
      intro e
      constructor
      · intro he
        obtain ⟨f, hf, rfl⟩ := List.mem_map.mp he
        exact hbooks.known f hf
      · intro he
        obtain ⟨t, ht, rfl⟩ := List.mem_map.mp he
        exact hlisted t ht
    have hsum := (hperm.map Prod.snd).sum_eq
    rw [List.map_map, List.map_map] at hsum
    rw [hbooks.passed]
    exact hsum

end Late

section Recoveries

def historyOf (p : Portfolio ℚ) (clock : Clock) (config : ExecutionConfig ℚ)
    (sessionPrefix : String) (before : List (EngineOp ℚ)) : Engine ℚ :=
  Runs.run engineStep (initEngine p clock config sessionPrefix) before

def recoveredCore (e : Engine ℚ) (answers : RecoveryAnswers ℚ) : ExecutionCore ℚ :=
  (engineStep e (.runReconciliation answers)).core

def AllDelivered (trades : List (FillEvent ℚ)) (before : List (EngineOp ℚ))
    (late : List Delivery) : Prop :=
  ∀ t ∈ trades, (∃ fill answers, .onFillEvent fill answers ∈ before ∧ entry fill = entry t) ∨
    ∃ x, .processFillEvent t x ∈ late

/-- No more is handed over than was executed, and once every trade is delivered it
is what recovery wrote into the record. -/
def RecoveredOnce (id : OrderId) (trades : List (FillEvent ℚ)) (before : List (EngineOp ℚ))
    (recovered : ExecutionCore ℚ) (found : OrderRecord ℚ) (late : List Delivery) : Prop :=
  Runs.Always (deliver id trades) (fun c => (life c id).passed.sum ≤ total trades)
      recovered late ∧
    (AllDelivered trades before late →
      (life (Runs.run (deliver id trades) recovered late) id).passed.sum = found.filledQuantity)

structure Ends (id : OrderId) (e : Engine ℚ) (answers : RecoveryAnswers ℚ)
    (order found : OrderRecord ℚ) : Prop where
  before : getOrder e.core.registry id = some order
  asked : isAsked order = true
  after : getOrder (recoveredCore e answers).registry id = some found
  ended : found.state = .filled ∨ found.state = .cancelled

variable (id : OrderId) (trades : List (FillEvent ℚ))

theorem recovered_life (e : Engine ℚ)
    (answers : RecoveryAnswers ℚ) (order found : OrderRecord ℚ) (hbooks : InBooks id trades e)
    (h : Ends id e answers order found) : ByTrade trades (life e.core id) ∧
      Recovered order (answers.fillDetail id) (life e.core id)
        (life (recoveredCore e answers) id) found := by
  have hrec : (life e.core id).record = some order := h.before
  have hfound : (life (recoveredCore e answers) id).record = some found :=
    (life_record _ _).trans h.after
  have hlife : life (recoveredCore e answers) id = reconcile e.core.clock
      e.config.cancelConfirmationTimeoutMs (answers.fillDetail id) (answers.cancelConfirmed id)
      (life e.core id) :=
    engineStep_lives e (.runReconciliation answers) id hbooks.1.own rfl
  have hkept : Kept trades (life e.core id) := by
    rcases hbooks.2 with hnone | hkept
    · rw [hrec] at hnone
      exact absurd hnone (by simp)
    · exact hkept
  have hopen : machineState (life e.core id) ≠ some .filled := by
    apply open_machine hkept.record order hrec
    rintro (hs | hs)
    all_goals
      have hasked := h.asked
      simp [isAsked, isUncertain, hs] at hasked
  refine ⟨hkept.books.resolve_left hopen, ?_⟩
  rw [hlife] at hfound ⊢
  by_cases hm : machineState (life e.core id) = none
  · obtain ⟨-, same, hsame, hstate⟩ := reconcile_unmachined e.core.clock
      e.config.cancelConfirmationTimeoutMs (answers.fillDetail id) (answers.cancelConfirmed id)
      _ order hrec hm
    rw [hfound, Option.some.injEq] at hsame
    subst hsame
    have hasked := h.asked
    rcases h.ended with hs | hs
    all_goals
      rw [hs] at hstate
      simp [isAsked, isUncertain, ← hstate] at hasked
  · rcases reconcile_asked e.core.clock e.config.cancelConfirmationTimeoutMs
      (answers.fillDetail id) (answers.cancelConfirmed id) _ order hrec h.asked hm hopen with
      ⟨-, same, hsame, hstate⟩ | ⟨same, hrecovered⟩
    · rw [hfound, Option.some.injEq] at hsame
      subst hsame
      rcases h.ended with hs | hs
      all_goals
        rw [hs] at hstate
        exact absurd hstate (by decide)
    · have hsame := hrecovered.record
      rw [hfound, Option.some.injEq] at hsame
      subst hsame
      exact hrecovered

theorem recovered_inLate (e : Engine ℚ)
    (answers : RecoveryAnswers ℚ) (order found : OrderRecord ℚ) (hbooks : InBooks id trades e)
    (hends : Ends id e answers order found)
    (hwritten : written order (answers.fillDetail id) ≤ total trades) :
    InLate id trades (written order (answers.fillDetail id)) (recoveredCore e answers) := by
  obtain ⟨hbyTrade, hrecovered⟩ := recovered_life id trades e answers order found hbooks hends
  have hfilled : filled (life (recoveredCore e answers) id) =
      written order (answers.fillDetail id) := by
    rw [filled_record _ found hrecovered.record, hrecovered.quantity]
  refine ⟨(step_sound _ (.runReconciliation answers) hbooks.1).own, ?_, ?_⟩
  · apply stuck_of_terminal _ found.state hrecovered.machine
    rcases hends.ended with hs | hs
    all_goals
      rw [hs]
      rfl
  · refine .byTrade (byTrade_same trades hrecovered.fills hrecovered.passed hbyTrade) ?_
    intro _
    rw [hfilled]
    exact ⟨hrecovered.applied, le_refl _, hwritten⟩

/-- A trade delivered before the recovery is still in the list of fills after it. -/
theorem earlier_included (hex : Executed trades)
    (e : Engine ℚ) (before : List (EngineOp ℚ)) (hstart : InBooks id trades e)
    (hbefore : Runs.Meets engineStep (Heard id trades) e before) (answers : RecoveryAnswers ℚ)
    (order found : OrderRecord ℚ)
    (hends : Ends id (Runs.run engineStep e before) answers order found) (t : FillEvent ℚ)
    (ht : t ∈ trades) (fill : FillEvent ℚ) (cancels : OrderId → Bool)
    (hmem : .onFillEvent fill cancels ∈ before) (hentry : entry fill = entry t) :
    Included t (life (recoveredCore (Runs.run engineStep e before) answers) id) := by
  have hbooks := Runs.invariant_run engineStep (inBooks_step id trades hex) e before hstart hbefore
  obtain ⟨-, hrecovered⟩ := recovered_life id trades _ answers order found hbooks hends
  have hlisted := Runs.run_established engineStep
    (Q := fun e => Listed fill (life e.core id)) (inBooks_step id trades hex)
    (listed_step id trades hex fill) (.onFillEvent fill cancels)
    (fillEvent_listed id trades hex fill cancels
      (hentry ▸ List.mem_map_of_mem ht)) e before hstart hbefore hmem
  have hrec : (life (Runs.run engineStep e before).core id).record = some order := hends.before
  left
  rw [hrecovered.fills, ← hentry]
  rcases hlisted.2 with hnone | hfill
  · rw [hrec] at hnone
    exact absurd hnone (by simp)
  · exact hfill

/-- After any history in which the fill events of the order are its trades, each
accepted once, and any reconciliation that ends the order: the order's fills reach
the portfolio once, while late deliveries keep to one door and drop no trade that
is not handed over, and the recovered quantity is not more than was executed, and
all of it when every trade gets delivered. -/
theorem recovered_fills_once (p : Portfolio ℚ) (clock : Clock) (config : ExecutionConfig ℚ)
    (sessionPrefix : String) (hp : p.pendingOrders = ∅) (before : List (EngineOp ℚ))
    (id : OrderId) (trades : List (FillEvent ℚ)) (hex : Executed trades)
    (hbefore : Runs.Meets engineStep (Heard id trades)
      (initEngine p clock config sessionPrefix) before)
    (answers : RecoveryAnswers ℚ) (order found : OrderRecord ℚ)
    (hends : Ends id (historyOf p clock config sessionPrefix before) answers order found)
    (late : List Delivery) (habout : ∀ d ∈ late, About trades d)
    (hlate : Runs.Meets (deliver id trades) (LateHeard id)
      (recoveredCore (historyOf p clock config sessionPrefix before) answers) late)
    (hwritten : written order (answers.fillDetail id) ≤ total trades)
    (hall : AllDelivered trades before late →
      written order (answers.fillDetail id) = total trades) :
    RecoveredOnce id trades before
      (recoveredCore (historyOf p clock config sessionPrefix before) answers) found late := by
  have hstart : InBooks id trades (initEngine p clock config sessionPrefix) := by
    refine ⟨init_sound p clock config sessionPrefix hp, .inl ?_⟩
    rw [init_life p clock config sessionPrefix hp]
    rfl
  have hbooks : InBooks id trades (historyOf p clock config sessionPrefix before) :=
    Runs.invariant_run engineStep (inBooks_step id trades hex) _ before hstart hbefore
  obtain ⟨-, hrecovered⟩ := recovered_life id trades _ answers order found hbooks hends
  have hlater := recovered_inLate id trades _ answers order found hbooks hends hwritten
  have hmeets := Runs.meets_and_forall (deliver id trades) _ late hlate habout
  constructor
  · exact Runs.always_mono (deliver id trades) (fun c hc => after_passed trades hex _ _ hc.after)
      _ late (Runs.always_of_meets (deliver id trades) (late_step id trades hex _) _ late
        hlater hmeets)
  · intro hdelivered
    have hend := Runs.invariant_run (deliver id trades) (late_step id trades hex _) _ late
      hlater hmeets
    have hincluded : ∀ t ∈ trades, Included t (life (Runs.run (deliver id trades)
        (recoveredCore (historyOf p clock config sessionPrefix before) answers) late) id) := by
      intro t ht
      rcases hdelivered t ht with ⟨fill, cancels, hmem, hentry⟩ | ⟨x, hmem⟩
      · have hstays := Runs.invariant_run (deliver id trades)
          (I := fun c => InLate id trades (written order (answers.fillDetail id)) c ∧
            Included t (life c id))
          (fun c d hc hd => ⟨late_step id trades hex _ c d hc.1 hd,
            included_step id trades _ t c d hc.1 hd hc.2⟩) _ late
          ⟨hlater, earlier_included id trades hex _ before hstart hbefore answers order found
            hends t ht fill cancels hmem hentry⟩ hmeets
        exact hstays.2
      · exact Runs.run_established (deliver id trades) (Q := fun c => Included t (life c id))
          (late_step id trades hex _) (fun c d hc hd => included_step id trades _ t c d hc hd)
          (.processFillEvent t x) (fun c hc hd => trade_included id trades _ t x c hc hd) _ late
          hlater hmeets hmem
    have hexact := hall hdelivered
    rw [all_included trades hex _ _ hend.after hexact hincluded, hrecovered.quantity, hexact]

end Recoveries

section Session

def halves : List (FillEvent ℚ) :=
  [⟨"TB1-1", 1 / 2, 100, "t1", 0⟩, ⟨"TB1-1", 1 / 2, 100, "t2", 0⟩]

def uncertainEntry : List (EngineOp ℚ) :=
  [enter .postOnly, .onFillEvent ⟨"TB1-1", 1 / 2, 100, "t1", 0⟩ (fun _ => true),
    .cancel "TB1-1" (fun _ => false)]

def earlyTrade : List (EngineOp ℚ) :=
  [.onFillEvent ⟨"9001", 1, 100, "t1", 0⟩ (fun _ => true), enter .postOnly]

def wholeAnswers : RecoveryAnswers ℚ := ⟨fun _ => ⟨true, 100, 1, "filled"⟩, fun _ => true⟩

def uncertainHistory : Engine ℚ :=
  historyOf (initPortfolio 1000) ⟨0, 0, 0⟩ defaultConfig "1" uncertainEntry

def earlyHistory : Engine ℚ :=
  historyOf (initPortfolio 1000) ⟨0, 0, 0⟩ defaultConfig "1" earlyTrade

theorem halves_executed : Executed halves := by
  constructor
  · decide
  · decide
  · intro t ht
    simp only [halves, List.mem_cons, List.not_mem_nil, or_false] at ht
    rcases ht with rfl | rfl
    all_goals
      constructor
      all_goals decide +kernel

theorem ends_of_reads (id : OrderId) (e : Engine ℚ) (answers : RecoveryAnswers ℚ)
    (check : OrderRecord ℚ → OrderRecord ℚ → Bool)
    (h : ((getOrder e.core.registry id).bind fun order =>
      (getOrder (recoveredCore e answers).registry id).map fun found =>
        isAsked order && (found.state == .filled || found.state == .cancelled) &&
          check order found) = some true) :
    ∃ order found, Ends id e answers order found ∧ check order found = true := by
  rw [Option.bind_eq_some_iff] at h
  obtain ⟨order, horder, h⟩ := h
  rw [Option.map_eq_some_iff] at h
  obtain ⟨found, hfound, h⟩ := h
  rw [Bool.and_eq_true, Bool.and_eq_true, Bool.or_eq_true, beq_iff_eq, beq_iff_eq] at h
  exact ⟨order, found, ⟨horder, h.1.1, hfound, h.1.2⟩, h.2⟩

theorem recovered_fills_once_secondHalf : ∃ order found,
    Ends "TB1-1" uncertainHistory wholeAnswers order found ∧
    RecoveredOnce "TB1-1" halves uncertainEntry (recoveredCore uncertainHistory wholeAnswers) found
      [.processFillEvent ⟨"TB1-1", 1 / 2, 100, "t2", 0⟩ "9001"] := by
  obtain ⟨order, found, hends, hcheck⟩ := ends_of_reads "TB1-1" uncertainHistory wholeAnswers
    (fun order _ => decide (written order ⟨true, 100, 1, "filled"⟩ = total halves))
    (by decide +kernel)
  have hwritten := of_decide_eq_true hcheck
  refine ⟨order, found, hends, ?_⟩
  apply recovered_fills_once (initPortfolio 1000) ⟨0, 0, 0⟩ defaultConfig "1" rfl uncertainEntry
    "TB1-1" halves halves_executed _ wholeAnswers order found hends
  · intro d hd
    rw [List.mem_singleton.mp hd]
    exact List.mem_cons_of_mem _ (List.mem_singleton_self _)
  · refine ⟨⟨?_, ?_⟩, trivial⟩
    · intro _ _
      constructor
      · decide +kernel
      · decide +kernel
    · intro t x hd
      rw [Delivery.processFillEvent.injEq] at hd
      obtain ⟨rfl, rfl⟩ := hd
      left
      decide +kernel
  · exact le_of_eq hwritten
  · exact fun _ => hwritten
  · refine ⟨trivial, ⟨?_, ?_⟩, trivial, trivial⟩
    · intro _ _
      constructor
      · decide +kernel
      · decide +kernel
    · intro _
      left
      decide +kernel

/-- A cumulative quantity after the recovery hands the first trade over once more;
a trade that came too early is never handed over. -/
theorem recovered_twice_or_never :
    (∃ order found, Ends "TB1-1" uncertainHistory wholeAnswers order found ∧
      ¬ RecoveredOnce "TB1-1" halves uncertainEntry (recoveredCore uncertainHistory wholeAnswers)
        found [.processOrderFill halves 100]) ∧
    ∃ order found, Ends "TB1-1" earlyHistory wholeAnswers order found ∧
      ¬ RecoveredOnce "TB1-1" [entryTrade] earlyTrade (recoveredCore earlyHistory wholeAnswers)
        found [.processFillEvent entryTrade "9001",
          .onOrderUpdate "9001" .filled [entryTrade] 100 (fun _ => true),
          .processMarketFill 100 "9001"] := by
  constructor
  · obtain ⟨order, found, hends, -⟩ := ends_of_reads "TB1-1" uncertainHistory wholeAnswers
      (fun _ _ => true) (by decide +kernel)
    refine ⟨order, found, hends, ?_⟩
    rintro ⟨halways, -⟩
    have hend := Runs.always_last (deliver "TB1-1" halves) halways
    revert hend
    decide +kernel
  · obtain ⟨order, found, hends, hcheck⟩ := ends_of_reads "TB1-1" earlyHistory wholeAnswers
      (fun _ found => decide (found.filledQuantity = 1)) (by decide +kernel)
    refine ⟨order, found, hends, ?_⟩
    rintro ⟨-, hexact⟩
    have hsum := hexact (by
      intro t ht
      rw [List.mem_singleton.mp ht]
      exact .inr ⟨"9001", List.mem_cons_self⟩)
    rw [of_decide_eq_true hcheck] at hsum
    revert hsum
    decide +kernel

end Session

end TB.RecoveredFills
