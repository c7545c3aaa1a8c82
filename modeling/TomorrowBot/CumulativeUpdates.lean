import TomorrowBot.EngineBirths

/-!
# Cumulative updates of an open order

The exchange reports a partial fill by the quantity filled so far, again and
again. The engine takes a report only when the state machine moves to the
partially filled state, which it refuses to do a second time: the later
reports are dropped unless a refused cancel has put the order into recovery.
-/

set_option autoImplicit false

namespace TB.CumulativeUpdates
open TB.CommonTypes TB.OrderTypes TB.Orders TB.FillProcessor TB.CancelManager
open TB.ExecutionEngine TB.OrderLife TB.EngineLives

structure Update where
  qty : ℚ
  price : ℚ
  clock : Clock
  answers : OrderId → Bool

def deliver (x : OrderId) (c : ExecutionCore ℚ) (u : Update) : ExecutionCore ℚ :=
  onOrderUpdate { c with clock := u.clock } x .partiallyFilled u.qty u.price u.answers

structure Cumulative (original : ℚ) (us : List Update) : Prop where
  positive : ∀ u ∈ us, 0 < u.qty
  sorted : us.Pairwise (fun u v => u.qty ≤ v.qty)
  bounded : ∀ u ∈ us, u.qty ≤ original

def Shows (record : Option (OrderRecord ℚ)) (filled : ℚ) : Prop :=
  ∃ order, record = some order ∧ order.filledQuantity = filled ∧
    order.remainingQuantity = order.originalQuantity - filled

def Shown (x id : OrderId) : ExecutionCore ℚ → ℚ → List Update → Prop
  | _, _, [] => True
  | c, largest, u::us =>
    Shows (getOrder (deliver x c u).registry id) (max largest u.qty) ∧
      Shown x id (deliver x c u) (max largest u.qty) us

def CancelRefused (original : ℚ) (policy : PartialFillPolicy) (direct : Bool) (id : OrderId)
    (u : Update) : Prop :=
  direct = true ∧ policy = .cancelRemaining ∧ u.qty < original ∧ u.answers id = false

instance (original : ℚ) (policy : PartialFillPolicy) (direct : Bool) (id : OrderId)
    (u : Update) : Decidable (CancelRefused original policy direct id u) :=
  inferInstanceAs (Decidable (_ ∧ _))

def Heeded (original : ℚ) (policy : PartialFillPolicy) (direct : Bool) (id : OrderId) :
    List Update → Prop
  | [] => True
  | u::us =>
    if CancelRefused original policy direct id u then Heeded original policy direct id us
    else ∀ v ∈ us, v.qty = u.qty

section Order

structure SameFill (order order' : OrderRecord ℚ) : Prop where
  original : order'.originalQuantity = order.originalQuantity
  info : order'.executionInfo = order.executionInfo
  filled : order'.filledQuantity = order.filledQuantity
  remaining : order'.remainingQuantity = order.remainingQuantity

theorem record_releaseFor (order : OrderRecord ℚ) (l : Life ℚ) :
    (releaseFor order l).record = l.record ∧ (releaseFor order l).fsm = l.fsm := by
  unfold releaseFor
  split_ifs <;> exact ⟨rfl, rfl⟩

variable (clock : Clock)

theorem cancel_outcome (confirmed : Bool) (l : Life ℚ) (order : OrderRecord ℚ)
    (hrec : l.record = some order) (hs : InState l .partiallyFilled) :
    ∃ order', (cancel clock confirmed l).record = some order' ∧ SameFill order order' ∧
      InState (cancel clock confirmed l) (if confirmed then .cancelled else .unknownRecovery) := by
  obtain ⟨pending, hmove, hpending, hprec, -⟩ := move_accepted clock .cancelPending
    .partiallyFilled "Cancel requested" l hs rfl
  rw [hrec, Option.map_some] at hprec
  simp only [cancel, hrec, hmove]
  cases confirmed with
  | true =>
    obtain ⟨done, hdone, hstate, hdrec, -⟩ := move_accepted clock .cancelled .cancelPending
      "Cancel confirmed" pending hpending rfl
    rw [hprec, Option.map_some] at hdrec
    have htried : tryMove clock .cancelled "Cancel confirmed" pending = done := by
      rw [tryMove, hdone, Option.getD_some]
    have hreleased := record_releaseFor order done
    rw [if_pos rfl, if_pos rfl, htried]
    refine ⟨_, hreleased.1.trans hdrec, ⟨rfl, rfl, rfl, rfl⟩, ?_⟩
    rw [InState, hreleased.2]
    exact hstate
  | false =>
    obtain ⟨fsm, hfsm, -⟩ := Option.map_eq_some_iff.mp hpending
    refine ⟨setState clock .unknownRecovery (setState clock .cancelPending order), ?_,
      ⟨rfl, rfl, rfl, rfl⟩, ?_⟩
    · simp [force, hfsm, hprec]
    · simp [InState, force, hfsm, OrderFsm.forceTransition, OrderFsm.record]

def stateAfter (order : OrderRecord ℚ) (direct confirmed : Bool) : OrderState :=
  if direct = true ∧ order.executionInfo.fillPolicy = .cancelRemaining ∧
      0 < order.remainingQuantity then
    if confirmed then .cancelled else .unknownRecovery
  else .partiallyFilled

/-- The policy is asked after a report under the id of the order. -/
theorem policy_outcome (direct confirmed : Bool) (l : Life ℚ)
    (order : OrderRecord ℚ) (hrec : l.record = some order)
    (hstate : order.state = .partiallyFilled) (hs : InState l .partiallyFilled) :
    ∃ order', (if direct then remainder clock confirmed l else l).record = some order' ∧
      SameFill order order' ∧ InState (if direct then remainder clock confirmed l else l)
        (stateAfter order direct confirmed) := by
  have hkept : SameFill order order := ⟨rfl, rfl, rfl, rfl⟩
  unfold stateAfter
  cases direct with
  | false =>
    rw [if_neg Bool.false_ne_true, if_neg (fun h => Bool.false_ne_true h.1)]
    exact ⟨order, hrec, hkept, hs⟩
  | true =>
    rw [if_pos rfl]
    simp only [remainder, hrec, wantsRemainderCancelled, hstate, true_and, not_le]
    by_cases hwants : order.executionInfo.fillPolicy = .cancelRemaining ∧
        0 < order.remainingQuantity
    · rw [if_pos hwants, if_pos hwants]
      exact cancel_outcome clock confirmed l order hrec hs
    · rw [if_neg hwants, if_neg hwants]
      exact ⟨order, hrec, hkept, hs⟩

structure Taken (order order' : OrderRecord ℚ) (qty : ℚ) : Prop where
  original : order'.originalQuantity = order.originalQuantity
  policy : order'.executionInfo.fillPolicy = order.executionInfo.fillPolicy
  filled : order'.filledQuantity = max order.filledQuantity qty
  remaining : order'.remainingQuantity =
    max 0 (order.originalQuantity - max order.filledQuantity qty)

theorem update_taken (qty price : ℚ) (direct confirmed : Bool) (l : Life ℚ)
    (order : OrderRecord ℚ) (s : OrderState) (hrec : l.record = some order) (hs : InState l s)
    (hvalid : isValidTransition s .partiallyFilled = true) (hq : 0 < qty) :
    ∃ order', (update clock .partiallyFilled qty price direct confirmed l).record =
        some order' ∧ Taken order order' qty ∧
      InState (update clock .partiallyFilled qty price direct confirmed l)
        (stateAfter order' direct confirmed) := by
  obtain ⟨moved, hmove, hstate, hmrec, -⟩ := move_accepted clock .partiallyFilled s
    "Exchange update" l hs hvalid
  rw [hrec, Option.map_some] at hmrec
  obtain ⟨hreported, hfsm⟩ := report_outcome clock qty price moved _ hmrec (by simp [setState])
  obtain ⟨order', hrec', hsame, hafter⟩ := policy_outcome clock direct confirmed _ _ hreported rfl
    (by rw [InState, hfsm]; exact hstate)
  have hupdate : update clock .partiallyFilled qty price direct confirmed l =
      if direct then remainder clock confirmed (report clock qty price moved)
      else report clock qty price moved := by
    simp only [update, hrec, hmove, endsUnfilled, if_pos hq]
    rfl
  refine ⟨order', hupdate ▸ hrec', ?_, ?_⟩
  · constructor
    · exact hsame.original
    · exact congrArg OrderExecutionInfo.fillPolicy hsame.info
    · rw [hsame.filled, ← stdMax_rat]
      rfl
    · rw [hsame.remaining, ← stdMax_rat, ← stdMax_rat]
      rfl
  · have hpolicy : order'.executionInfo = _ := hsame.info
    rw [hupdate, stateAfter, hsame.remaining, hpolicy]
    exact hafter

theorem update_dropped (qty price : ℚ) (direct confirmed : Bool) (l : Life ℚ)
    (s : OrderState) (hs : InState l s)
    (hrefused : isValidTransition s .partiallyFilled = false) :
    update clock .partiallyFilled qty price direct confirmed l = l := by
  unfold update
  rw [move_refused clock .partiallyFilled s "Exchange update" l hs hrefused]
  cases l.record <;> rfl

section Sequence

variable (direct : Bool) (id : OrderId)

def updateLife (l : Life ℚ) (u : Update) : Life ℚ :=
  update u.clock .partiallyFilled u.qty u.price direct (u.answers id) l

def LifeShown : Life ℚ → ℚ → List Update → Prop
  | _, _, [] => True
  | l, largest, u::us =>
    Shows (updateLife direct id l u).record (max largest u.qty) ∧
      LifeShown (updateLife direct id l u) (max largest u.qty) us

/-- Once the machine refuses the updates, they are followed if they repeat what
the record shows. -/
theorem shown_refused (l : Life ℚ) (filled : ℚ) (s : OrderState) (us : List Update)
    (hshows : Shows l.record filled) (hs : InState l s)
    (hrefused : isValidTransition s .partiallyFilled = false)
    (hlarger : ∀ u ∈ us, filled ≤ u.qty) :
    LifeShown direct id l filled us ↔ ∀ u ∈ us, u.qty = filled := by
  obtain ⟨order, hrec, hfilled, hremaining⟩ := hshows
  induction us with
  | nil => exact ⟨fun _ u hu => absurd hu List.not_mem_nil, fun _ => trivial⟩
  | cons u us ih =>
    obtain ⟨hu, hus⟩ := List.forall_mem_cons.mp hlarger
    have hdropped : updateLife direct id l u = l :=
      update_dropped u.clock u.qty u.price direct (u.answers id) l s hs hrefused
    rw [LifeShown, hdropped, max_eq_right hu, List.forall_mem_cons]
    constructor
    · rintro ⟨⟨order', hrec', hfilled', -⟩, hrest⟩
      obtain rfl : order = order' := Option.some.inj (hrec.symm.trans hrec')
      have hsame : u.qty = filled := hfilled'.symm.trans hfilled
      rw [hsame] at hrest
      exact ⟨hsame, (ih hus).mp hrest⟩
    · rintro ⟨hsame, hrest⟩
      rw [hsame]
      exact ⟨⟨order, hrec, hfilled, hremaining⟩, (ih hus).mpr hrest⟩

theorem stateAfter_refused (order order' : OrderRecord ℚ) (u : Update)
    (htaken : Taken order order' u.qty) (hbounded : u.qty ≤ order.originalQuantity)
    (hlarger : order.filledQuantity ≤ u.qty) :
    stateAfter order' direct (u.answers id) = .unknownRecovery ↔
      CancelRefused order.originalQuantity order.executionInfo.fillPolicy direct id u := by
  have hrest : 0 < order'.remainingQuantity ↔ u.qty < order.originalQuantity := by
    rw [htaken.remaining, max_eq_right hlarger, max_eq_right (sub_nonneg.mpr hbounded), sub_pos]
  unfold stateAfter CancelRefused
  simp only [htaken.policy, hrest]
  cases u.answers id
  · simp
  · simp only [Bool.true_eq_false, and_false, iff_false, if_true]
    split_ifs <;> decide

theorem stateAfter_valid (order : OrderRecord ℚ) (confirmed : Bool) :
    isValidTransition (stateAfter order direct confirmed) .partiallyFilled = true ↔
      stateAfter order direct confirmed = .unknownRecovery := by
  unfold stateAfter
  cases confirmed <;> split_ifs <;> decide

/-- The updates of an order whose machine takes the first one are followed
exactly when the first one is not behind the record and the later ones are
heeded. -/
theorem life_shown_iff (l : Life ℚ) (largest : ℚ) (order : OrderRecord ℚ) (s : OrderState)
    (us : List Update) (hrec : l.record = some order) (hs : InState l s)
    (hvalid : isValidTransition s .partiallyFilled = true)
    (hus : Cumulative order.originalQuantity us) (hlargest : ∀ u ∈ us, largest ≤ u.qty) :
    LifeShown direct id l largest us ↔
      (∀ u ∈ us.head?, order.filledQuantity ≤ u.qty) ∧
        Heeded order.originalQuantity order.executionInfo.fillPolicy direct id us := by
  induction us generalizing l largest order s with
  | nil => exact ⟨fun _ => ⟨fun u hu => absurd hu (by simp), trivial⟩, fun _ => trivial⟩
  | cons u us ih =>
    obtain ⟨hpos, -⟩ := List.forall_mem_cons.mp hus.positive
    obtain ⟨hfit, -⟩ := List.forall_mem_cons.mp hus.bounded
    obtain ⟨hlater, hsorted⟩ := List.pairwise_cons.mp hus.sorted
    obtain ⟨order', hrec', htaken, hafter⟩ := update_taken u.clock u.qty u.price direct
      (u.answers id) l order s hrec hs hvalid hpos
    change (updateLife direct id l u).record = some order' at hrec'
    change InState (updateLife direct id l u) _ at hafter
    rw [LifeShown, max_eq_right (hlargest u List.mem_cons_self), List.head?_cons]
    simp only [Option.mem_some_iff, forall_eq']
    by_cases hlarger : order.filledQuantity ≤ u.qty
    · have hfilled : order'.filledQuantity = u.qty := by
        rw [htaken.filled, max_eq_right hlarger]
      have hshows : Shows (updateLife direct id l u).record u.qty := by
        refine ⟨order', hrec', hfilled, ?_⟩
        rw [htaken.remaining, htaken.original, max_eq_right hlarger,
          max_eq_right (sub_nonneg.mpr hfit)]
      have hrest : Cumulative order'.originalQuantity us := by
        rw [htaken.original]
        exact ⟨fun v hv => hus.positive v (List.mem_cons_of_mem u hv), hsorted,
          fun v hv => hus.bounded v (List.mem_cons_of_mem u hv)⟩
      have hrefused := stateAfter_refused direct id order order' u htaken hfit hlarger
      rw [Heeded]
      by_cases hcancel : CancelRefused order.originalQuantity order.executionInfo.fillPolicy
          direct id u
      · -- The order waits for recovery, where its machine takes the next update.
        rw [hrefused.mpr hcancel] at hafter
        have hnext := ih _ u.qty order' .unknownRecovery hrec' hafter rfl hrest hlater
        have hahead : ∀ v ∈ us.head?, order'.filledQuantity ≤ v.qty := by
          intro v hv
          rw [hfilled]
          exact hlater v (List.mem_of_mem_head? hv)
        rw [if_pos hcancel, hnext, htaken.original, htaken.policy]
        exact ⟨fun h => ⟨hlarger, h.2.2⟩, fun h => ⟨hshows, hahead, h.2⟩⟩
      · have hnot : isValidTransition (stateAfter order' direct (u.answers id))
            .partiallyFilled = false := by
          rw [Bool.eq_false_iff, ne_eq, stateAfter_valid, hrefused]
          exact hcancel
        rw [if_neg hcancel,
          shown_refused direct id _ u.qty _ us hshows hafter hnot hlater]
        exact ⟨fun h => ⟨hlarger, h.2⟩, fun h => ⟨hshows, h.2⟩⟩
    · refine ⟨fun h => ?_, fun h => absurd h.1 hlarger⟩
      obtain ⟨found, hfound, hfilled, -⟩ := h.1
      obtain rfl : order' = found := Option.some.inj (hrec'.symm.trans hfound)
      have hkept : order'.filledQuantity = order.filledQuantity := by
        rw [htaken.filled, max_eq_left (not_le.mp hlarger).le]
      exact absurd (hkept.symm.trans hfilled).le hlarger

end Sequence

end Order

section Engine

theorem forceTransition_index (r : OrderRegistry ℚ) (clock : Clock) (id : OrderId)
    (target : OrderState) (reason : String) :
    (forceTransition r clock id target reason).exchangeIdIndex = r.exchangeIdIndex := by
  unfold forceTransition
  cases r.fsms.lookup id <;> rfl

variable (c : ExecutionCore ℚ)

theorem doCancel_index (confirmed : Bool) (id : OrderId) :
    (doCancel c confirmed id).1.registry.exchangeIdIndex = c.registry.exchangeIdIndex := by
  have hpending := transition_index c.registry c.clock id .cancelPending "Cancel requested"
  unfold doCancel
  cases getOrder c.registry id with
  | none => rfl
  | some order =>
    cases ht : transition c.registry c.clock id .cancelPending "Cancel requested" with
    | mk r ok =>
      rw [ht] at hpending
      cases ok with
      | false => rfl
      | true =>
        cases confirmed with
        | true =>
          have hdone := transition_index r c.clock id .cancelled "Cancel confirmed"
          simp only [if_true, releaseCashIfNeeded]
          split_ifs <;> exact hdone.trans hpending
        | false => exact (forceTransition_index r c.clock id .unknownRecovery _).trans hpending

theorem enforceCancelRemaining_index (answers : OrderId → Bool) (x : OrderId) :
    (enforceCancelRemaining c answers x).registry.exchangeIdIndex =
      c.registry.exchangeIdIndex := by
  unfold enforceCancelRemaining
  cases checkCancelRemaining c.registry x with
  | none => rfl
  | some id =>
    simp only [cancelRemaining]
    cases getOrder c.registry id with
    | none => rfl
    | some order => exact doCancel_index c (answers id) id

theorem processOrderFill_index (x id : OrderId) (qty price : ℚ)
    (hown : OwnId id (life c id)) (h : c.registry.exchangeIdIndex.lookup x = some id) :
    (processOrderFill c id qty price).1.registry.exchangeIdIndex.lookup x = some id := by
  unfold processOrderFill
  cases hget : getOrder c.registry id with
  | none => exact h
  | some found =>
    have hid : found.orderId = id := hown found hget
    dsimp only
    rw [← hid] at h ⊢
    split_ifs <;> exact updateOrder_index c.registry _ x h

/-- An update leaves the index entry that its id resolved through. -/
theorem onOrderUpdate_index (hown : AllOwn c) (x id : OrderId)
    (order : OrderRecord ℚ) (newState : OrderState) (qty price : ℚ) (answers : OrderId → Bool)
    (hres : resolveOrder c.registry x = some (id, order))
    (h : c.registry.exchangeIdIndex.lookup x = some id) :
    (onOrderUpdate c x newState qty price answers).registry.exchangeIdIndex.lookup x =
      some id := by
  unfold onOrderUpdate
  simp only [hres]
  cases hmove : move c.clock newState "Exchange update" (life c id) with
  | none =>
    simp only [transition_refused c id _ _ hmove]
    exact h
  | some moved =>
    obtain ⟨r, hr, hm⟩ := transition_moved c id _ _ moved hmove
    have hindex : r.exchangeIdIndex = c.registry.exchangeIdIndex := by
      have hmoved := transition_index c.registry c.clock id newState "Exchange update"
      rwa [hr] at hmoved
    have hkept : r.exchangeIdIndex.lookup x = some id := by
      rw [hindex]
      exact h
    have hrown : OwnId id (life (setRegistry c r) id) :=
      allOwn_moves hm hown (same_moves.move hmove) id
    have hreleased : (releaseUnfilled (setRegistry c r) id order newState).registry = r := by
      unfold releaseUnfilled
      split_ifs <;> rfl
    simp only [hr]
    by_cases hq : 0 < qty
    · rw [if_pos hq, enforceCancelRemaining_index]
      refine processOrderFill_index _ x id qty price ?_ (hreleased.symm ▸ hkept)
      intro found hfound
      apply hrown found
      rw [← hfound]
      exact congrArg (fun registry => registry.orders.lookup id) hreleased.symm
    · rw [if_neg hq, hreleased]
      exact hkept

theorem update_standing (clock : Clock) (qty price : ℚ) (direct confirmed : Bool) (l : Life ℚ)
    (order : OrderRecord ℚ) (s : OrderState) (hrec : l.record = some order) (hs : InState l s)
    (hq : 0 < qty) :
    ∃ order' s', (update clock .partiallyFilled qty price direct confirmed l).record =
      some order' ∧ InState (update clock .partiallyFilled qty price direct confirmed l) s' := by
  cases hvalid : isValidTransition s .partiallyFilled with
  | true =>
    obtain ⟨order', hrec', -, hs'⟩ := update_taken clock qty price direct confirmed l order s hrec
      hs hvalid hq
    exact ⟨order', _, hrec', hs'⟩
  | false =>
    rw [update_dropped clock qty price direct confirmed l s hs hvalid]
    exact ⟨order, s, hrec, hs⟩

theorem deliver_life (hown : AllOwn c) (x id : OrderId)
    (order : OrderRecord ℚ) (s : OrderState) (u : Update)
    (hres : resolveOrder c.registry x = some (id, order)) (hs : InState (life c id) s)
    (hq : 0 < u.qty) :
    AllOwn (deliver x c u) ∧
      life (deliver x c u) id = updateLife (decide (x = id)) id (life c id) u ∧
      ∃ order' s', resolveOrder (deliver x c u).registry x = some (id, order') ∧
        InState (life (deliver x c u) id) s' := by
  have hmoves := onOrderUpdate_moves { c with clock := u.clock } hown x id order .partiallyFilled
    u.qty u.price u.answers hres
  have hsame := same_steps.update u.clock .partiallyFilled u.qty u.price (decide (x = id))
    (u.answers id) (life c id)
  have hown' : AllOwn (deliver x c u) := allOwn_moves hmoves hown hsame
  have hlife : life (deliver x c u) id = updateLife (decide (x = id)) id (life c id) u :=
    hmoves.at_id
  have hrec : (life c id).record = some order := (resolve_some c hown x id order hres).1
  obtain ⟨order', s', hrec', hs'⟩ := update_standing u.clock u.qty u.price (decide (x = id))
    (u.answers id) (life c id) order s hrec hs hq
  have hid : order'.orderId = id := hown' id order' (by rw [hlife]; exact hrec')
  refine ⟨hown', hlife, order', s', ?_, hlife ▸ hs'⟩
  exact resolves_moves { c with clock := u.clock } _ hown x id _ order order' hres hmoves hrec' hid
    (onOrderUpdate_index { c with clock := u.clock } hown x id order .partiallyFilled u.qty u.price
      u.answers hres)

theorem shown_life (hown : AllOwn c) (x id : OrderId)
    (order : OrderRecord ℚ) (s : OrderState) (largest : ℚ) (us : List Update)
    (hres : resolveOrder c.registry x = some (id, order)) (hs : InState (life c id) s)
    (hpos : ∀ u ∈ us, 0 < u.qty) :
    Shown x id c largest us ↔ LifeShown (decide (x = id)) id (life c id) largest us := by
  induction us generalizing c order s largest with
  | nil => exact Iff.rfl
  | cons u us ih =>
    obtain ⟨hq, hrest⟩ := List.forall_mem_cons.mp hpos
    obtain ⟨hown', hlife, order', s', hres', hs'⟩ := deliver_life c hown x id order s u hres hs hq
    have hrecord : getOrder (deliver x c u).registry id =
        (updateLife (decide (x = id)) id (life c id) u).record := congrArg Life.record hlife
    rw [Shown, LifeShown, hrecord, ih _ hown' order' s' _ hres' hs' hrest, hlife]

/-- The updates of an open order, under its own or its exchange id, are followed
if and only if the first is not behind the record and the later ones are heeded. -/
theorem shown_iff (c : ExecutionCore ℚ) (hown : AllOwn c) (x id : OrderId)
    (order : OrderRecord ℚ) (us : List Update)
    (hres : resolveOrder c.registry x = some (id, order)) (hopen : InState (life c id) .opened)
    (hus : Cumulative order.originalQuantity us) :
    Shown x id c 0 us ↔
      (∀ u ∈ us.head?, order.filledQuantity ≤ u.qty) ∧
        Heeded order.originalQuantity order.executionInfo.fillPolicy (decide (x = id)) id us := by
  rw [shown_life c hown x id order .opened 0 us hres hopen hus.positive]
  exact life_shown_iff (decide (x = id)) id (life c id) 0 order .opened us
    (resolve_some c hown x id order hres).1 hopen rfl hus (fun u hu => (hus.positive u hu).le)

end Engine

section Resting
open EngineBirths

def openCore : ExecutionCore ℚ :=
  (Runs.run engineStep startEngine
    [enter .postOnly, .onOrderUpdate "TB1-1" .opened 0 0 (fun _ => true)]).core

theorem openCore_own : AllOwn openCore :=
  (Runs.invariant_run engineStep (fun e op h _ => step_sound e op h) startEngine _
    (init_sound _ _ _ _ rfl) (Runs.meets_true engineStep _ _)).own

def openOrder : OrderRecord ℚ := (getOrder openCore.registry "TB1-1").get (by decide +kernel)

theorem openCore_resolves : resolveOrder openCore.registry "TB1-1" = some ("TB1-1", openOrder) :=
  resolve_self openCore "TB1-1" openOrder (Option.some_get _).symm

theorem openCore_open : InState (life openCore "TB1-1") .opened := by
  unfold InState
  decide +kernel

def quarters : List Update :=
  [⟨1 / 4, 100, ⟨1, 1, 0⟩, fun _ => true⟩, ⟨1 / 2, 100, ⟨2, 2, 0⟩, fun _ => true⟩]

theorem quarters_cumulative : Cumulative openOrder.originalQuantity quarters := by
  constructor <;> decide +kernel

/-- The record stays at the first quarter. -/
theorem second_update_dropped : ¬ ∀ (c : ExecutionCore ℚ) (id : OrderId) (order : OrderRecord ℚ)
    (us : List Update), AllOwn c → resolveOrder c.registry id = some (id, order) →
    InState (life c id) .opened → order.filledQuantity = 0 →
    Cumulative order.originalQuantity us → Shown id id c 0 us := by
  intro h
  obtain ⟨-, ⟨order, hrec, hfilled, -⟩, -⟩ := h openCore "TB1-1" openOrder quarters openCore_own
    openCore_resolves openCore_open (by decide +kernel) quarters_cumulative
  have hquarter : (getOrder (Runs.run (deliver "TB1-1") openCore quarters).registry "TB1-1").map
      (fun o => o.filledQuantity) = some (1 / 4) := by decide +kernel
  have hhalf : (getOrder (Runs.run (deliver "TB1-1") openCore quarters).registry "TB1-1").map
      (fun o => o.filledQuantity) = some (1 / 2) :=
    (congrArg (Option.map (fun o => o.filledQuantity)) hrec).trans
      (congrArg some (hfilled.trans (by decide +kernel)))
  rw [hquarter] at hhalf
  exact absurd hhalf (by decide +kernel)

theorem shown_iff_quarters : Shown "TB1-1" "TB1-1" openCore 0 quarters ↔
    (∀ u ∈ quarters.head?, openOrder.filledQuantity ≤ u.qty) ∧
      Heeded openOrder.originalQuantity openOrder.executionInfo.fillPolicy
        (decide ("TB1-1" = "TB1-1")) "TB1-1" quarters :=
  shown_iff openCore openCore_own "TB1-1" "TB1-1" openOrder quarters openCore_resolves
    openCore_open quarters_cumulative

end Resting

end TB.CumulativeUpdates
