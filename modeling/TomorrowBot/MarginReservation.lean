import TomorrowBot.EngineFrames

/-!
# Margin reservations follow the orders

The margin of an opening order is reserved before its submission and released
at the end of its life. Cancels, unfilled ends and applied fills release it.
Three routes to a terminal state do not: a reconciliation, an update to filled
that applies nothing, and a trade without a quantity that completes an order.
-/

set_option autoImplicit false

namespace TB.MarginReservation
open TB.CommonTypes TB.PortfolioEngine TB.OrderTypes TB.Orders TB.FillProcessor
open TB.RecoveryManager TB.ExecutionPlanner TB.ExecutionEngine TB.OrderLife TB.EngineLives
open TB.EngineSimulation TB.LifeSteps TB.EngineBirths TB.PortfolioLedger

variable {F : Type}

def Backed (l : Life F) : Prop :=
  l.reserved ≠ none → ∃ order, l.record = some order ∧ isTerminal order.state = false ∧
    requiresMarginReserve order = true

section Primitives

theorem backed_margin (l : Life F) (order : OrderRecord F) (h : Backed l)
    (hrec : l.record = some order) (hne : l.reserved ≠ none) :
    requiresMarginReserve order = true := by
  obtain ⟨x, hx, -, hmargin⟩ := h hne
  rw [hrec, Option.some.injEq] at hx
  rw [hx]
  exact hmargin

theorem backed_released (l : Life F) (h : l.reserved = none) : Backed l :=
  fun hne => absurd h hne

theorem backed_kept (l m : Life F) (h : Backed l) (hres : m.reserved = l.reserved)
    (hrec : ∀ order, l.record = some order → isTerminal order.state = false →
      ∃ order', m.record = some order' ∧ isTerminal order'.state = false ∧
        order'.tradeSide = order.tradeSide) : Backed m := by
  intro hne
  rw [hres] at hne
  obtain ⟨order, horder, hopen, hmargin⟩ := h hne
  obtain ⟨order', horder', hopen', hside⟩ := hrec order horder hopen
  refine ⟨order', horder', hopen', ?_⟩
  rw [requiresMarginReserve, hside]
  exact hmargin

theorem backed_setState (l m : Life F) (clock : Clock) (target : OrderState) (h : Backed l)
    (hopen : isTerminal target = false) (hres : m.reserved = l.reserved)
    (hrec : m.record = l.record.map (setState clock target)) : Backed m := by
  apply backed_kept l m h hres
  intro order horder _
  exact ⟨setState clock target order, by rw [hrec, horder]; rfl, hopen, rfl⟩

theorem backed_move {clock : Clock} {target : OrderState} {reason : String} {l m : Life F}
    (h : Backed l) (hmove : move clock target reason l = some m)
    (hopen : isTerminal target = false) : Backed m :=
  backed_setState l m clock target h hopen (move_kept hmove).reserved (move_record hmove)

variable (clock : Clock) (target : OrderState) (reason : String) (l : Life F)

theorem backed_tryMove (h : Backed l) (hopen : isTerminal target = false) :
    Backed (tryMove clock target reason l) := by
  unfold tryMove
  cases hmove : move clock target reason l with
  | none => exact h
  | some m => exact backed_move h hmove hopen

theorem backed_force
    (h : Backed l) (hopen : isTerminal target = false) : Backed (force clock target reason l) := by
  unfold force
  cases l.fsm with
  | none => exact h
  | some fsm => exact backed_setState l _ clock target h hopen rfl rfl

theorem force_reserved : (force clock target reason l).reserved = l.reserved := by
  unfold force
  cases l.fsm <;> rfl

theorem backed_put (order : OrderRecord F) (h : Backed l)
    (hsame : ∀ x, l.record = some x → order.state = x.state ∧ order.tradeSide = x.tradeSide) :
    Backed (put order l) := by
  apply backed_kept l (put order l) h rfl
  intro x hx hopen
  obtain ⟨hstate, hside⟩ := hsame x hx
  refine ⟨order, ?_, ?_, hside⟩
  · exact put_record order x l hx
  · rw [hstate]
    exact hopen

theorem backed_releaseFor (order : OrderRecord F) (l m : Life F) (h : Backed l)
    (hres : m.reserved = l.reserved)
    (hside : ∀ x, l.record = some x → x.tradeSide = order.tradeSide) :
    Backed (releaseFor order m) := by
  apply backed_released
  apply releaseFor_reserved
  intro hne
  rw [hres] at hne
  obtain ⟨x, hx, -, hmargin⟩ := h hne
  rw [requiresMarginReserve, ← hside x hx]
  exact hmargin

theorem backed_cancel (confirmed : Bool) (l : Life F) (h : Backed l) :
    Backed (cancel clock confirmed l) := by
  unfold cancel
  cases hrec : l.record with
  | none => exact h
  | some order =>
    cases hmove : move clock .cancelPending "Cancel requested" l with
    | none => exact h
    | some pending =>
      have hpending : Backed pending := backed_move h hmove rfl
      dsimp only
      split_ifs
      · apply backed_releaseFor order pending _ hpending
        · exact (tryMove_kept clock .cancelled _ pending).reserved
        · intro x hx
          rw [move_record hmove, hrec, Option.map_some, Option.some.injEq] at hx
          rw [← hx]
          rfl
      · exact backed_force clock .unknownRecovery _ pending hpending rfl

theorem backed_expire (maxAge : ℤ) (l : Life F) (h : Backed l) :
    Backed (expire clock maxAge l) := by
  unfold expire
  cases hrec : l.record with
  | none => exact h
  | some order =>
    dsimp only
    split_ifs with hold
    · apply backed_released
      by_contra hne
      obtain ⟨x, hx, hopen, -⟩ := h hne
      rw [hrec, Option.some.injEq] at hx
      rw [← hx, hold.1] at hopen
      exact absurd hopen (by simp)
    · exact h

end Primitives

section Operations
variable [DoubleArith F] (clock : Clock)

theorem backed_remainder (confirmed : Bool) (l : Life F) (h : Backed l) :
    Backed (remainder clock confirmed l) := by
  unfold remainder
  cases l.record with
  | none => exact h
  | some order =>
    dsimp only
    split_ifs
    · exact backed_cancel clock confirmed l h
    · exact h

omit [DoubleArith F] in
/-- A quantity handed to the portfolio takes the reservation of an opening
order with it; a closing order has none. -/
theorem hand_reserved (order : OrderRecord F) (qty : F) (l : Life F)
    (hside : l.reserved ≠ none → requiresMarginReserve order = true) :
    (hand order qty l).reserved = none := by
  unfold hand
  cases hkind : order.tradeSide with
  | opening => rfl
  | closing =>
    by_contra hne
    have hmargin := hside hne
    simp [requiresMarginReserve, hkind] at hmargin

variable (qty price : F)

theorem backed_marketFill (ex : OrderId) (l : Life F)
    (h : Backed l) : Backed (marketFill clock qty price ex l) := by
  unfold marketFill
  split_ifs
  · exact h
  · exact h
  · exact h
  · cases hrec : l.record with
    | none => exact h
    | some found =>
      cases hmove : move clock .filled "Market order filled" l with
      | none => exact h
      | some moved =>
        have hmargin : moved.reserved ≠ none → requiresMarginReserve found = true := by
          intro hne
          rw [(move_kept hmove).reserved] at hne
          exact backed_margin l found h hrec hne
        apply backed_released
        exact hand_reserved (marketFilled found clock.now qty price ex) qty
          (put (marketFilled found clock.now qty price ex) moved) hmargin

theorem backed_confirmation (a : AwaitingFill F) (answer : FillAnswer F)
    (l : Life F) (hside : ∀ x, l.record = some x → x.tradeSide = a.order.tradeSide)
    (h : Backed l) : Backed (confirmation clock a answer l) := by
  have hreleased : ∀ target reason,
      Backed (releaseFor a.order (tryMove clock target reason l)) := fun target reason =>
    backed_releaseFor a.order l _ h (tryMove_kept clock target reason l).reserved hside
  unfold confirmation
  dsimp only
  split_ifs
  · exact backed_tryMove clock .opened _ l h rfl
  · exact hreleased _ _
  · exact backed_tryMove clock .unknownRecovery _ l h rfl
  · exact hreleased _ _
  · exact hreleased _ _
  all_goals exact backed_marketFill clock _ _ _ l h

/-- A cumulative report of an order that is not filled, or that hands its
quantity to the portfolio. -/
theorem backed_report (l : Life F) (hside : l.reserved ≠ none → ∃ order, l.record = some order ∧
      requiresMarginReserve order = true)
    (hopen : l.reserved ≠ none → ∀ order, l.record = some order →
      isTerminal order.state = false ∨ (order.state = .filled ∧ l.applied = false)) :
    Backed (report clock qty price l) := by
  by_cases hres : l.reserved = none
  · apply backed_released
    unfold report
    cases l.record with
    | none => exact hres
    | some found =>
      dsimp only
      split_ifs
      · exact hand_reserved _ _ (mark (put _ l)) (fun hne => absurd hres hne)
      · exact hres
  · obtain ⟨found, hrec, hmargin⟩ := hside hres
    unfold report
    simp only [hrec]
    rcases hopen hres found hrec with hstate | ⟨hfilled, happlied⟩
    · rw [if_neg (by
        rintro ⟨hfilled, -⟩
        have hfound : found.state = .filled := hfilled
        rw [hfound] at hstate
        exact absurd hstate (by decide))]
      intro _
      exact ⟨_, put_record _ found l hrec, hstate, hmargin⟩
    · have hboth : (reconciledRecord found clock.now l.applied qty price).state = .filled ∧
          l.applied = false := ⟨hfilled, happlied⟩
      rw [if_pos hboth]
      apply backed_released
      exact hand_reserved _ _ (mark (put _ l)) (fun _ => hmargin)

def reported (clock : Clock) (qty price : F) (direct confirmed : Bool) (l : Life F) : Life F :=
  if 0 < qty then
    if direct then remainder clock confirmed (report clock qty price l)
    else report clock qty price l
  else l

theorem backed_reported (direct confirmed : Bool) (l : Life F)
    (hreport : 0 < qty → Backed (report clock qty price l)) (hnone : ¬ 0 < qty → Backed l) :
    Backed (reported clock qty price direct confirmed l) := by
  unfold reported
  by_cases hqty : 0 < qty
  · rw [if_pos hqty]
    cases direct with
    | true => exact backed_remainder clock confirmed _ (hreport hqty)
    | false => exact hreport hqty
  · rw [if_neg hqty]
    exact hnone hqty

/-- An update that ends in filled has to apply the fill while a reservation is
held. -/
theorem backed_update (newState : OrderState) (qty price : F)
    (direct confirmed : Bool) (l : Life F) (h : Backed l)
    (hfill : newState = .filled → l.reserved ≠ none → 0 < qty ∧ l.applied = false) :
    Backed (update clock newState qty price direct confirmed l) := by
  unfold update
  cases hrec : l.record with
  | none => exact h
  | some order =>
    cases hmove : move clock newState "Exchange update" l with
    | none => exact h
    | some moved =>
      obtain ⟨hmapplied, hmres, -⟩ := move_kept hmove
      have hmrec' : moved.record = some (setState clock newState order) := by
        rw [move_record hmove, hrec]
        rfl
      have hside : l.reserved ≠ none → requiresMarginReserve order = true :=
        backed_margin l order h hrec
      show Backed (reported clock qty price direct confirmed
        (if endsUnfilled newState then releaseFor order moved else moved))
      by_cases hend : endsUnfilled newState = true
      · -- Nothing is reserved any more, whatever is reported on top.
        rw [if_pos hend]
        have hnone : (releaseFor order moved).reserved = none := by
          apply releaseFor_reserved
          rw [hmres]
          exact hside
        apply backed_reported
        · intro _
          exact backed_report clock qty price _ (fun hne => absurd hnone hne)
            (fun hne => absurd hnone hne)
        · intro _
          exact backed_released _ hnone
      · rw [if_neg hend]
        have hstate : newState = .filled ∨ isTerminal newState = false := by
          cases newState <;> first | exact .inl rfl | exact .inr rfl | exact absurd rfl hend
        apply backed_reported
        · intro _
          apply backed_report
          · intro hne
            rw [hmres] at hne
            exact ⟨_, hmrec', hside hne⟩
          · intro hne x hx
            rw [hmres] at hne
            rw [hmrec', Option.some.injEq] at hx
            subst hx
            rcases hstate with hfilled | hopen
            · right
              exact ⟨hfilled, hmapplied.trans (hfill hfilled hne).2⟩
            · exact .inl hopen
        · intro hqty
          rcases hstate with hfilled | hopen
          · apply backed_released
            rw [hmres]
            by_contra hne
            exact hqty (hfill hfilled hne).1
          · exact backed_move h hmove hopen

theorem backed_trade (order : OrderRecord F) (fill : FillEvent F) (l : Life F)
    (hrec : l.record = some order) (hprice : ¬ fill.fillPrice ≤ 0) (h : Backed l)
    (hfill : l.reserved ≠ none → 0 < fill.fillQuantity ∨
      ¬ isFullFill order (order.filledQuantity + fill.fillQuantity)) :
    Backed (trade clock order fill l) := by
  have hmargin : l.reserved ≠ none → requiresMarginReserve order = true :=
    backed_margin l order h hrec
  have hrecord := trade_record clock order fill l hrec
  unfold trade at hrecord ⊢
  dsimp only at hrecord ⊢
  generalize htried : tryMove clock (fillRecord order clock.now fill).state
    (fillReason order (fillRecord order clock.now fill).filledQuantity) l = tried at hrecord ⊢
  have hres : tried.reserved = l.reserved := by
    rw [← htried]
    exact (tryMove_kept _ _ _ _).reserved
  by_cases hqty : 0 < fill.fillQuantity
  · rw [if_pos hqty, if_neg hprice]
    apply backed_released
    apply hand_reserved (fillRecord order clock.now fill) fill.fillQuantity
      (put (fillRecord order clock.now fill) tried)
    intro hne
    exact hmargin (hres ▸ hne)
  · rw [if_neg hqty] at hrecord ⊢
    intro hne
    have hne' : l.reserved ≠ none := hres ▸ hne
    refine ⟨fillRecord order clock.now fill, hrecord, ?_, hmargin hne'⟩
    have hpartial := (hfill hne').resolve_left hqty
    show isTerminal (fillTarget order (order.filledQuantity + fill.fillQuantity)) = false
    rw [fillTarget, if_neg hpartial]
    rfl

end Operations

section Reconciliation
variable [DoubleArith F]

def NotFinished (order : OrderRecord F) (detail : OrderFillDetail F) (confirmed : Bool) : Prop :=
  confirmed = false ∧ ¬ (detail.success = true ∧ 0 < detail.filledQty ∧
    isFullFill order (recoveredQuantity order detail))

def StaysOpen (clock : Clock) (timeoutMs : ℤ) (detail : OrderFillDetail F) (confirmed : Bool)
    (l : Life F) : Prop :=
  ∀ order, l.record = some order →
    (isUncertain order = true ∨ order.state = .unknownRecovery →
      NotFinished order detail confirmed) ∧
    isStale clock .cancelPending (timeoutMs * 3) l = false

omit [DoubleArith F] in
theorem reserved_recovery : KeptByRecovery fun l m : Life F => m.reserved = l.reserved where
  refl _ := rfl
  trans h k := k.trans h
  force := force_reserved
  put _ _ _ := rfl

variable (clock : Clock)

theorem recover_open (detail : OrderFillDetail F) (confirmed : Bool)
    (order : OrderRecord F) (l : Life F) (hrec : l.record = some order) (h : Backed l)
    (hopen : NotFinished order detail confirmed) :
    Backed (recover clock detail confirmed order l) ∧
      ∀ o, (recover clock detail confirmed order l).record = some o →
        o.state = order.state ∨ o.state = .partiallyFilled := by
  obtain ⟨rfl, hfull⟩ := hopen
  unfold recover
  by_cases hfound : detail.success = true ∧ 0 < detail.filledQty
  · rw [if_pos hfound]
    have hpartial : ¬ isFullFill order (recoveredQuantity order detail) :=
      fun hf => hfull ⟨hfound.1, hfound.2, hf⟩
    unfold recoveredFill
    simp only [fillTarget, if_neg hpartial, Bool.false_eq_true, if_false]
    have hforced : Backed (force clock .partiallyFilled "Recovery: confirmed fill by exchange" l) :=
      backed_force clock .partiallyFilled _ l h rfl
    have hstate : ∀ o, (force clock .partiallyFilled "Recovery: confirmed fill by exchange"
        l).record = some o → o.state = order.state ∨ o.state = .partiallyFilled := by
      intro o ho
      unfold force at ho
      cases hf : l.fsm with
      | none =>
        rw [hf, hrec, Option.some.injEq] at ho
        exact .inl (by rw [ho])
      | some fsm =>
        simp only [hf, hrec, Option.map_some, Option.some.injEq] at ho
        exact .inr (by rw [← ho]; rfl)
    generalize force clock .partiallyFilled "Recovery: confirmed fill by exchange" l = forced
      at hforced hstate ⊢
    cases hcur : forced.record with
    | none => exact ⟨hforced, fun o ho => absurd (hcur.symm.trans ho) (by simp)⟩
    | some current =>
      constructor
      · apply backed_put forced _ hforced
        intro x hx
        rw [hcur, Option.some.injEq] at hx
        rw [← hx]
        exact ⟨rfl, rfl⟩
      · intro o ho
        rw [put_record _ current forced hcur, Option.some.injEq] at ho
        rw [← ho]
        exact hstate current hcur
  · rw [if_neg hfound]
    simp only [Bool.false_eq_true, if_false]
    refine ⟨h, fun o ho => .inl ?_⟩
    rw [hrec, Option.some.injEq] at ho
    rw [ho]

omit [DoubleArith F] in
theorem whenRecord_some (p : OrderRecord F → Bool) (g : OrderRecord F → Life F → Life F)
    (l : Life F) (order : OrderRecord F) (hrec : l.record = some order) :
    whenRecord p g l = if p order then g order l else l := by
  simp only [whenRecord, hrec]

omit [DoubleArith F] in
theorem isStale_other (state : OrderState) (maxMs : ℤ) (l : Life F)
    (h : ∀ order, l.record = some order → order.state ≠ state) :
    isStale clock state maxMs l = false := by
  unfold isStale
  cases hrec : l.record with
  | none => rfl
  | some order => simp [h order hrec]

variable (timeoutMs : ℤ) (detail : OrderFillDetail F) (confirmed : Bool) (l : Life F)

variable (order : OrderRecord F)

theorem backed_recovery (hrec : l.record = some order)
    (hstate : order.state = .unknownRecovery) (h : Backed l)
    (hopen : NotFinished order detail confirmed) :
    Backed (recover clock detail confirmed order l) ∧
      isStale clock .cancelPending (timeoutMs * 3) (recover clock detail confirmed order l) =
        false := by
  obtain ⟨hbacked, hafter⟩ := recover_open clock detail confirmed order l hrec h hopen
  refine ⟨hbacked, isStale_other clock _ _ _ (fun o ho => ?_)⟩
  rcases hafter o ho with hs | hs
  · rw [hs, hstate]
    decide
  · rw [hs]
    decide

def recoveryPass (clock : Clock) (timeoutMs : ℤ) (detail : OrderFillDetail F) (confirmed : Bool)
    (l : Life F) : Life F :=
  let l' := whenRecord (fun o => o.state == .unknownRecovery) (recover clock detail confirmed) l
  if isStale clock .cancelPending (timeoutMs * 3) l' then
    force clock .cancelled "Recovery: stale CancelPending → force cancel" l'
  else l'

theorem backed_known (hrec : l.record = some order)
    (hknown : order.state ≠ .unknownRecovery) (h : Backed l)
    (hfresh : isStale clock .cancelPending (timeoutMs * 3) l = false) :
    Backed (recoveryPass clock timeoutMs detail confirmed l) := by
  unfold recoveryPass
  rw [whenRecord_some _ _ l order hrec]
  simp only [beq_iff_eq, hknown, if_false, hfresh, Bool.false_eq_true]
  exact h

theorem backed_asked (hrec : l.record = some order)
    (hstate : order.state = .unknownRecovery) (h : Backed l)
    (hopen : NotFinished order detail confirmed) :
    Backed (recoveryPass clock timeoutMs detail confirmed l) := by
  obtain ⟨hbacked, hstale⟩ := backed_recovery clock timeoutMs detail confirmed l order hrec
    hstate h hopen
  unfold recoveryPass
  rw [whenRecord_some _ _ l order hrec, if_pos (beq_iff_eq.mpr hstate)]
  dsimp only
  rw [hstale]
  exact hbacked

theorem backed_reconcile (h : Backed l)
    (hopen : l.reserved ≠ none → StaysOpen clock timeoutMs detail confirmed l) :
    Backed (reconcile clock timeoutMs detail confirmed l) := by
  by_cases hres : l.reserved = none
  · exact backed_released _
      ((reserved_recovery.reconcile clock timeoutMs detail confirmed l).trans hres)
  obtain ⟨order, hrec, -, -⟩ := h hres
  obtain ⟨hanswer, hfresh⟩ := hopen hres order hrec
  show Backed (recoveryPass clock timeoutMs detail confirmed
    (whenRecord (fun o => isActive o.state && isUncertain o)
      (fun _ => force clock .unknownRecovery "Recovery: uncertain order detected") l))
  rw [whenRecord_some _ _ l order hrec]
  by_cases hmark : (isActive order.state && isUncertain order) = true
  · rw [if_pos hmark]
    have huncertain : isUncertain order = true := by
      rw [Bool.and_eq_true] at hmark
      exact hmark.2
    cases hfsm : l.fsm with
    | none =>
      have hstay : force clock .unknownRecovery "Recovery: uncertain order detected" l = l := by
        simp only [force, hfsm]
      rw [hstay]
      apply backed_known clock timeoutMs detail confirmed l order hrec _ h hfresh
      intro hunknown
      rw [isUncertain, hunknown] at huncertain
      exact absurd huncertain (by decide)
    | some fsm =>
      have hmarked := backed_force clock .unknownRecovery "Recovery: uncertain order detected" l
        h rfl
      have hmrec : (force clock .unknownRecovery "Recovery: uncertain order detected" l).record =
          some (setState clock .unknownRecovery order) := by
        simp only [force, hfsm, hrec, Option.map_some]
      exact backed_asked clock timeoutMs detail confirmed _ _ hmrec rfl hmarked
        (hanswer (.inl huncertain))
  · rw [if_neg hmark]
    by_cases hunknown : order.state = .unknownRecovery
    · exact backed_asked clock timeoutMs detail confirmed l order hrec hunknown h
        (hanswer (.inr hunknown))
    · exact backed_known clock timeoutMs detail confirmed l order hrec hunknown h hfresh

end Reconciliation

section Engine
variable [DoubleArith F]

def MarginFollowsOrders (e : Engine F) : Prop :=
  ∀ id info, e.core.portfolio.pendingOrders.lookup id = some info →
    ∃ order, getOrder e.core.registry id = some order ∧ isTerminal order.state = false

def holdsMargin (e : Engine F) (id : OrderId) : Prop :=
  id ∈ e.core.portfolio.pendingOrders

def MarginReleased (e : Engine F) : EngineOp F → Prop
  | .onOrderUpdate x newState qty _ _ =>
      newState = .filled → ∀ id order, resolveOrder e.core.registry x = some (id, order) →
        holdsMargin e id → 0 < qty ∧ isFillApplied e.core.registry id = false
  | .onFillEvent fill _ =>
      tradeAccepted e.core.registry fill = true → ∀ id order,
        resolveOrder e.core.registry fill.orderId = some (id, order) → holdsMargin e id →
        0 < fill.fillQuantity ∨ ¬ isFullFill order (order.filledQuantity + fill.fillQuantity)
  | .runReconciliation answers => ∀ id, holdsMargin e id →
      StaysOpen e.core.clock e.config.cancelConfirmationTimeoutMs (answers.fillDetail id)
        (answers.cancelConfirmed id) (life e.core id)
  | _ => True

omit [DoubleArith F] in
theorem holdsMargin_iff (e : Engine F) (id : OrderId) :
    holdsMargin e id ↔ (life e.core id).reserved ≠ none := by
  unfold holdsMargin
  rw [Keyed.mem_iff_lookup, ← Option.isSome_iff_exists, ← Option.ne_none_iff_isSome]
  exact Iff.rfl

theorem step_backed (e : Engine F) (op : EngineOp F) (id : OrderId) (hs : Sound e)
    (hc : MarginReleased e op) (h : Backed (life e.core id)) :
    Backed (lifeStep e.core.clock (life e.core id) (opOn e op id)) := by
  have hsource := opOn_source e op id
  generalize opOn e op id = step at hsource ⊢
  cases hsource with
  | skip => exact h
  | confirmed a answer hfind =>
    exact backed_confirmation e.core.clock a answer _ (confirmed_side e hs id a hfind) h
  | updated x newState qty price answers hnames =>
    apply backed_update _ _ _ _ _ _ _ h
    intro hfilled hne
    obtain ⟨order, hres⟩ := (names_iff e.core x id).mp hnames
    exact hc hfilled id order hres ((holdsMargin_iff e id).mpr hne)
  | traded fill answers hnames =>
    obtain ⟨order, hres⟩ := (names_iff e.core fill.orderId id).mp hnames
    obtain ⟨hrec, -⟩ := resolve_some e.core hs.own fill.orderId id order hres
    simp only [lifeStep, event, hrec]
    by_cases haccepted : tradeAccepted e.core.registry fill = true
    · rw [if_pos haccepted]
      apply backed_remainder
      apply backed_trade _ order fill _ hrec (accepted_price _ fill haccepted) h
      intro hne
      exact hc haccepted id order hres ((holdsMargin_iff e id).mpr hne)
    · rw [if_neg haccepted]
      exact backed_remainder _ _ _ h
  | cancel _ confirmed => exact backed_cancel _ confirmed _ h
  | expire maxAge => exact backed_expire _ maxAge _ h
  | reconcile answers =>
    apply backed_reconcile _ _ _ _ _ h
    intro hne
    exact hc id ((holdsMargin_iff e id).mpr hne)

theorem born_backed (id : OrderId) (side : TradeSide) (l : Life F) (h : Born id side l) :
    Backed l := by
  obtain ⟨order, fsm, hrec, -, -, hstate, hheld⟩ := h.placed
  intro hne
  obtain ⟨hopen, hmargin⟩ := hheld hne
  exact ⟨order, hrec, hstate ▸ hopen, hmargin⟩

/-- In every run whose operations stay off the three routes, every reservation
follows its order. -/
theorem margin_follows_orders (p : Portfolio F) (clock : Clock) (config : ExecutionConfig F)
    (sessionPrefix : String) (hp : p.pendingOrders = ∅) (ops : List (EngineOp F))
    (hops : Runs.Meets engineStep MarginReleased (initEngine p clock config sessionPrefix) ops) :
    Runs.Always engineStep MarginFollowsOrders (initEngine p clock config sessionPrefix) ops := by
  have hstart : ∀ id, Backed (life (initEngine p clock config sessionPrefix).core id) := by
    intro id
    rw [init_life p clock config sessionPrefix hp]
    exact backed_released _ rfl
  have halways := always_lives born_backed step_backed _ ops
    (init_sound p clock config sessionPrefix hp) hstart hops
  apply Runs.always_mono engineStep _ _ ops halways
  rintro e ⟨-, hbacked⟩ id info hinfo
  obtain ⟨order, hrec, hopen, -⟩ := hbacked id (by
    rw [show (life e.core id).reserved = some info from hinfo]
    simp)
  exact ⟨order, hrec, hopen⟩

/-- Exact arithmetic: with the ledger balanced as well, the cash reserved for an
order that has ended is back in the available cash, and once. -/
theorem margin_returned_once (p : Portfolio ℚ) (clock : Clock) (config : ExecutionConfig ℚ)
    (sessionPrefix : String) (hp : p.pendingOrders = ∅) (hb : Balanced p)
    (ops : List (EngineOp ℚ))
    (hops : Runs.Meets engineStep MarginReleased (initEngine p clock config sessionPrefix) ops) :
    Runs.Always engineStep (fun e => MarginFollowsOrders e ∧ Balanced e.core.portfolio)
      (initEngine p clock config sessionPrefix) ops := by
  have hfollows := margin_follows_orders p clock config sessionPrefix hp ops hops
  have hbalanced := EngineFrames.always_balanced _ ops
    (init_sound p clock config sessionPrefix hp) hb
  exact Runs.always_and engineStep _ ops hfollows hbalanced

def filledEntry : List (EngineOp ℚ) :=
  [enter .postOnly, .onFillEvent ⟨"TB1-1", 1, 100, "t1", 0⟩ (fun _ => true)]

theorem margin_returned_filledEntry :
    Runs.Always engineStep (fun e => MarginFollowsOrders e ∧ Balanced e.core.portfolio)
      startEngine filledEntry := by
  apply margin_returned_once (initPortfolio 1000) ⟨0, 0, 0⟩ defaultConfig "1" rfl
    (init_balanced 1000)
  refine ⟨trivial, ?_, trivial⟩
  intro _ id order _ _
  left
  decide +kernel

def recoveredEntry : List (EngineOp ℚ) :=
  [enter .postOnly, .runReconciliation ⟨fun _ => ⟨false, 0, 0, ""⟩, fun _ => true⟩]

/-- The cancelled order keeps its reservation. -/
theorem recovered_entry_keeps_margin :
    ¬ Runs.Always engineStep (fun e => MarginFollowsOrders e ∧ Balanced e.core.portfolio)
      startEngine recoveredEntry := by
  intro h
  have hend := (Runs.always_last engineStep h).1
  obtain ⟨info, hinfo⟩ : ∃ info, (Runs.run engineStep startEngine
      recoveredEntry).core.portfolio.pendingOrders.lookup "TB1-1" = some info := by
    rw [← Option.isSome_iff_exists]
    decide +kernel
  obtain ⟨order, horder, hopen⟩ := hend "TB1-1" info hinfo
  have hstates : (getOrder (Runs.run engineStep startEngine recoveredEntry).core.registry
      "TB1-1").all (fun order => isTerminal order.state) = true := by
    decide +kernel
  rw [horder, Option.all_some, hopen] at hstates
  exact absurd hstates (by simp)

end Engine

end TB.MarginReservation
