import TomorrowBot.EngineBirths

/-!
# The policy for the rest of an order, under either id

A partial fill reaches the engine under the internal or under the exchange id
of its order. Both event paths resolve the id for the order itself; an order
update asks the policy for the rest of the order under the id it came with,
and finds no order under the exchange id.
-/

set_option autoImplicit false

namespace TB.RemainderPolicy
open TB.CommonTypes TB.OrderTypes TB.Orders TB.FillProcessor
open TB.CancelManager TB.ExecutionEngine TB.OrderLife TB.EngineLives

section Calls
variable {F : Type} [DoubleArith F]

def cancelCalls (c : ExecutionCore F) (orderId : OrderId) : List (OrderId × Symbol) :=
  match getOrder c.registry orderId with
  | none => []
  | some order =>
    if (transition c.registry c.clock orderId .cancelPending "Cancel requested").2 then
      [(order.exchangeOrderId, order.symbol)]
    else []

def policyCalls (c : ExecutionCore F) (orderId : OrderId) : List (OrderId × Symbol) :=
  match checkCancelRemaining c.registry orderId with
  | none => []
  | some id => cancelCalls c id

def orderUpdateCalls (c : ExecutionCore F) (orderId : OrderId) (newState : OrderState)
    (filledQty fillPrice : F) : List (OrderId × Symbol) :=
  match resolveOrder c.registry orderId with
  | none => []
  | some (effectiveId, order) =>
    match transition c.registry c.clock effectiveId newState "Exchange update" with
    | (_, false) => []
    | (r, true) =>
      let released := releaseUnfilled (setRegistry c r) effectiveId order newState
      if 0 < filledQty then
        policyCalls (processOrderFill released effectiveId filledQty fillPrice).1 orderId
      else []

def fillEventCalls (c : ExecutionCore F) (fill : FillEvent F) : List (OrderId × Symbol) :=
  let processed := (processFillEvent c fill).1
  match resolveOrder processed.registry fill.orderId with
  | none => []
  | some (effectiveId, _) => policyCalls processed effectiveId

theorem doCancel_silent (c : ExecutionCore F) (confirmed : Bool) (id : OrderId)
    (h : cancelCalls c id = []) : doCancel c confirmed id = (c, false) := by
  unfold cancelCalls at h
  unfold doCancel
  cases hget : getOrder c.registry id with
  | none => rfl
  | some order =>
    cases ht : transition c.registry c.clock id .cancelPending "Cancel requested" with
    | mk r ok =>
      cases ok with
      | false => rfl
      | true => simp [hget, ht] at h

theorem enforceCancelRemaining_silent (c : ExecutionCore F) (answers : OrderId → Bool)
    (id : OrderId) (h : policyCalls c id = []) : enforceCancelRemaining c answers id = c := by
  unfold policyCalls at h
  unfold enforceCancelRemaining
  cases hcheck : checkCancelRemaining c.registry id with
  | none => rfl
  | some target =>
    simp only [hcheck] at h
    simp only [cancelRemaining]
    cases hget : getOrder c.registry target with
    | none => rfl
    | some order => exact congrArg Prod.fst (doCancel_silent c (answers target) target h)

end Calls

section Events
variable {F : Type}

inductive PartialFill (F : Type) where
  | update (qty price : F)
  | trade (fill : FillEvent F)

def under (x : OrderId) (fill : FillEvent F) : FillEvent F := { fill with orderId := x }

def relabelRecord (x : OrderId) (order : OrderRecord F) : OrderRecord F :=
  { order with executionInfo := { order.executionInfo with
      fills := order.executionInfo.fills.dropLast ++
        (order.executionInfo.fills.getLast?.map (under x)).toList } }

def relabelRegistry (x id : OrderId) (r : OrderRegistry F) : OrderRegistry F :=
  { r with orders := Keyed.modify r.orders id (relabelRecord x) }

def relabel (x id : OrderId) (c : ExecutionCore F) : ExecutionCore F :=
  setRegistry c (relabelRegistry x id c.registry)

def PartialFill.kept (x id : OrderId) (e : PartialFill F) (c : ExecutionCore F) :
    ExecutionCore F :=
  match e with
  | .update _ _ => c
  | .trade _ => relabel x id c

variable [DoubleArith F]

namespace PartialFill

def run (e : PartialFill F) (c : ExecutionCore F) (x : OrderId) (answers : OrderId → Bool) :
    ExecutionCore F :=
  match e with
  | .update qty price => onOrderUpdate c x .partiallyFilled qty price answers
  | .trade fill => onFillEvent c (under x fill) answers

def calls (e : PartialFill F) (c : ExecutionCore F) (x : OrderId) : List (OrderId × Symbol) :=
  match e with
  | .update qty price => orderUpdateCalls c x .partiallyFilled qty price
  | .trade fill => fillEventCalls c (under x fill)

def leftAfter (e : PartialFill F) (order : OrderRecord F) : F :=
  match e with
  | .update qty _ => stdMax 0 (order.originalQuantity - stdMax order.filledQuantity qty)
  | .trade fill => stdMax 0 (order.originalQuantity - (order.filledQuantity + fill.fillQuantity))

def Accepted (e : PartialFill F) (c : ExecutionCore F) (id : OrderId) (order : OrderRecord F) :
    Prop :=
  match e with
  | .update qty _ => 0 < qty ∧ ∃ fsm, c.registry.fsms.lookup id = some fsm ∧
      isValidTransition fsm.state .partiallyFilled = true
  | .trade fill => (fill.tradeId = "" ∨ fill.tradeId ∉ c.registry.seenTradeIds) ∧
      isfinite fill.fillPrice = true ∧ ¬ fill.fillPrice ≤ 0 ∧
      ¬ isFullFill order (order.filledQuantity + fill.fillQuantity)

def Wanted (e : PartialFill F) (order : OrderRecord F) : Prop :=
  order.executionInfo.fillPolicy = .cancelRemaining ∧ ¬ e.leftAfter order ≤ 0

end PartialFill

/-- The id makes no difference to registry, portfolio and calls, and under both
ids the cancel of the rest is requested when the policy wants it. -/
structure Indifferent (c : ExecutionCore F) (x id : OrderId) (order : OrderRecord F)
    (e : PartialFill F) (answers : OrderId → Bool) : Prop where
  core : e.run c x answers = e.kept x id (e.run c id answers)
  calls : e.calls c x = e.calls c id
  requested : e.Wanted order → ∀ y, y = x ∨ y = id →
    e.calls c y = [(order.exchangeOrderId, order.symbol)]

/-- An update comes under the internal id or leaves the policy nothing to do; a
trade that leaves it something finds a state machine that has been submitted
and has not ended. -/
def Routed (c : ExecutionCore F) (x id : OrderId) (order : OrderRecord F) (e : PartialFill F) :
    Prop :=
  match e with
  | .update _ _ => x = id ∨ ¬ e.Wanted order
  | .trade _ => e.Wanted order → ∃ fsm, c.registry.fsms.lookup id = some fsm ∧
      isTerminal fsm.state = false ∧ fsm.state ≠ .new

end Events

section Relabelled
variable {F : Type}

theorem relabel_order (x id : OrderId) (r : OrderRegistry F) :
    getOrder (relabelRegistry x id r) id = (getOrder r id).map (relabelRecord x) :=
  Keyed.lookup_modify_self _ _ _

theorem transition_relabel (x id : OrderId) (r : OrderRegistry F) (clock : Clock)
    (target : OrderState) (reason : String) :
    transition (relabelRegistry x id r) clock id target reason =
      (relabelRegistry x id (transition r clock id target reason).1,
        (transition r clock id target reason).2) := by
  unfold transition relabelRegistry
  cases r.fsms.lookup id with
  | none => rfl
  | some fsm =>
    dsimp only
    cases OrderFsm.transition fsm clock target reason with
    | none => rfl
    | some fsm' =>
      simp only [Keyed.modify_modify]
      rfl

theorem forceTransition_relabel (x id : OrderId) (r : OrderRegistry F) (clock : Clock)
    (target : OrderState) (reason : String) :
    forceTransition (relabelRegistry x id r) clock id target reason =
      relabelRegistry x id (forceTransition r clock id target reason) := by
  unfold forceTransition relabelRegistry
  cases r.fsms.lookup id with
  | none => rfl
  | some fsm =>
    simp only [Keyed.modify_modify]
    rfl

variable [DoubleArith F] (x id : OrderId)

variable (c : ExecutionCore F)

omit [DoubleArith F] in
theorem order_relabel : getOrder (relabel x id c).registry id =
    (getOrder c.registry id).map (relabelRecord x) := relabel_order x id c.registry

theorem check_relabel : checkCancelRemaining (relabel x id c).registry id =
    checkCancelRemaining c.registry id := by
  unfold checkCancelRemaining
  rw [order_relabel]
  cases getOrder c.registry id <;> rfl

theorem doCancel_relabel (confirmed : Bool) : doCancel (relabel x id c) confirmed id =
      (relabel x id (doCancel c confirmed id).1, (doCancel c confirmed id).2) := by
  unfold doCancel
  have hget : getOrder (relabel x id c).registry id =
      (getOrder c.registry id).map (relabelRecord x) := relabel_order x id c.registry
  have hpending : transition (relabel x id c).registry (relabel x id c).clock id .cancelPending
      "Cancel requested" = _ := transition_relabel x id c.registry c.clock .cancelPending _
  rw [hget, hpending]
  cases getOrder c.registry id with
  | none => rfl
  | some order =>
    cases transition c.registry c.clock id .cancelPending "Cancel requested" with
    | mk r ok =>
      cases ok with
      | false => rfl
      | true =>
        cases confirmed with
        | true =>
          have hdone : transition (relabelRegistry x id r) (relabel x id c).clock id .cancelled
              "Cancel confirmed" = _ := transition_relabel x id r c.clock .cancelled _
          simp only [Option.map_some, if_true, hdone, releaseCashIfNeeded]
          split_ifs <;> first | rfl | contradiction
        | false =>
          have hforced : forceTransition (relabelRegistry x id r) (relabel x id c).clock id
              .unknownRecovery "Cancel rejected — awaiting reconciliation" = _ :=
            forceTransition_relabel x id r c.clock .unknownRecovery _
          simp only [Option.map_some, hforced, Bool.false_eq_true, if_false]
          rfl

theorem check_target (id target : OrderId) (hown : OwnId id (life c id))
    (h : checkCancelRemaining c.registry id = some target) : target = id := by
  unfold checkCancelRemaining at h
  cases hget : getOrder c.registry id with
  | none => simp [hget] at h
  | some order =>
    simp only [hget] at h
    split_ifs at h
    exact (Option.some.inj h).symm.trans (hown order hget)

theorem enforce_relabel (answers : OrderId → Bool) (hown : OwnId id (life c id)) :
    enforceCancelRemaining (relabel x id c) answers id =
      relabel x id (enforceCancelRemaining c answers id) := by
  unfold enforceCancelRemaining
  rw [check_relabel]
  cases ht : checkCancelRemaining c.registry id with
  | none => rfl
  | some target =>
    obtain rfl := check_target c id target hown ht
    simp only [cancelRemaining, order_relabel]
    cases getOrder c.registry target with
    | none => rfl
    | some order => exact congrArg Prod.fst (doCancel_relabel x target c (answers target))

theorem policyCalls_relabel
    (hown : OwnId id (life c id)) : policyCalls (relabel x id c) id = policyCalls c id := by
  unfold policyCalls
  rw [check_relabel]
  cases ht : checkCancelRemaining c.registry id with
  | none => rfl
  | some target =>
    obtain rfl := check_target c id target hown ht
    have hpending : transition (relabel x target c).registry (relabel x target c).clock target
        .cancelPending "Cancel requested" = _ :=
      transition_relabel x target c.registry c.clock .cancelPending _
    simp only [cancelCalls, order_relabel, hpending]
    cases getOrder c.registry target <;> rfl

variable (order : OrderRecord F)

theorem relabel_fillRecord (now : Timestamp) (fill : FillEvent F) :
    relabelRecord x (fillRecord order now (under id fill)) =
      fillRecord order now (under x fill) := by
  simp only [relabelRecord, fillRecord, under, List.dropLast_concat, List.getLast?_concat,
    Option.map_some, Option.toList_some, List.length_append, List.length_singleton]
  rfl

variable (fill : FillEvent F)

theorem applyIncrementalFill_relabel :
    applyIncrementalFill (relabel x id c) (relabelRecord x order) (under x fill) =
      relabel x id (applyIncrementalFill c order (under id fill)) := by
  unfold applyIncrementalFill
  by_cases hprice : fill.fillPrice ≤ 0
  · rw [if_pos (show (under x fill).fillPrice ≤ 0 from hprice),
      if_pos (show (under id fill).fillPrice ≤ 0 from hprice)]
  · rw [if_neg (show ¬ (under x fill).fillPrice ≤ 0 from hprice),
      if_neg (show ¬ (under id fill).fillPrice ≤ 0 from hprice)]
    rfl

omit [DoubleArith F] in
theorem updateOrder_stored (r : OrderRegistry F) (order : OrderRecord F) (id : OrderId)
    (hid : order.orderId = id) (hmem : id ∈ r.orders) :
    updateOrder r order = { r with
      exchangeIdIndex := indexExchangeId r.exchangeIdIndex order
      orders := r.orders.insert id order } := by
  subst hid
  exact if_pos hmem

omit [DoubleArith F] in
theorem transition_mem (r : OrderRegistry F) (clock : Clock) (id : OrderId)
    (target : OrderState) (reason : String) (hmem : id ∈ r.orders) :
    id ∈ (transition r clock id target reason).1.orders := by
  unfold transition
  cases r.fsms.lookup id with
  | none => exact hmem
  | some fsm =>
    dsimp only
    cases OrderFsm.transition fsm clock target reason with
    | none => exact hmem
    | some fsm' =>
      rw [Keyed.mem_iff_lookup] at hmem ⊢
      obtain ⟨order, ho⟩ := hmem
      exact ⟨setState clock target order, by
        simp only [Keyed.lookup_modify_self, ho, Option.map_some]⟩

def book (c : ExecutionCore F) (id : OrderId) (order : OrderRecord F) (fill : FillEvent F) :
    ExecutionCore F :=
  let applied := if 0 < fill.fillQuantity then applyIncrementalFill c order fill else c
  setRegistry applied (markFillApplied applied.registry id)

theorem book_relabel : book (relabel x id c) id (relabelRecord x order) (under x fill) =
      relabel x id (book c id order (under id fill)) := by
  have happlied : (if 0 < (under x fill).fillQuantity then
        applyIncrementalFill (relabel x id c) (relabelRecord x order) (under x fill)
      else relabel x id c) =
      relabel x id (if 0 < (under id fill).fillQuantity then
        applyIncrementalFill c order (under id fill) else c) := by
    by_cases hq : 0 < fill.fillQuantity
    · rw [if_pos (show 0 < (under x fill).fillQuantity from hq),
        if_pos (show 0 < (under id fill).fillQuantity from hq)]
      exact applyIncrementalFill_relabel x id c order fill
    · rw [if_neg (show ¬ 0 < (under x fill).fillQuantity from hq),
        if_neg (show ¬ 0 < (under id fill).fillQuantity from hq)]
  unfold book
  dsimp only
  rw [happlied]
  rfl

theorem acceptFill_relabel (hid : order.orderId = id) (hmem : id ∈ c.registry.orders) :
    acceptFill c id order (under x fill) =
      relabel x id (acceptFill c id order (under id fill)) := by
  let stored := fillRecord order c.clock.now (under id fill)
  let moved := (transition c.registry c.clock id stored.state
    (if isFullFill order stored.filledQuantity then "Full fill (fill event)"
      else "Partial fill (fill event)")).1
  have hcopy : fillRecord order c.clock.now (under x fill) = relabelRecord x stored :=
    (relabel_fillRecord x id order c.clock.now fill).symm
  have hin : id ∈ moved.orders := transition_mem c.registry c.clock id _ _ hmem
  have hrecorded : setRegistry c (updateOrder moved (relabelRecord x stored)) =
      relabel x id (setRegistry c (updateOrder moved stored)) := by
    rw [updateOrder_stored moved (relabelRecord x stored) id hid hin,
      updateOrder_stored moved stored id hid hin]
    simp only [relabel, relabelRegistry, setRegistry, Keyed.modify_insert]
    rfl
  calc acceptFill c id order (under x fill)
      = book (setRegistry c (updateOrder moved (fillRecord order c.clock.now (under x fill)))) id
          (fillRecord order c.clock.now (under x fill)) (under x fill) := rfl
    _ = book (relabel x id (setRegistry c (updateOrder moved stored))) id
          (relabelRecord x stored) (under x fill) := by rw [hcopy, hrecorded]
    _ = relabel x id (book (setRegistry c (updateOrder moved stored)) id stored (under id fill)) :=
        book_relabel x id _ stored fill

end Relabelled

section Outcome
variable {F : Type} [DoubleArith F]

omit [DoubleArith F] in
def canMove (l : Life F) (target : OrderState) : Bool :=
  l.fsm.any (fun fsm => isValidTransition fsm.state target)

variable (c : ExecutionCore F) (id : OrderId)

omit [DoubleArith F] in
theorem transition_ok (target : OrderState) (reason : String) :
    (transition c.registry c.clock id target reason).2 = canMove (life c id) target := by
  unfold transition canMove life
  cases c.registry.fsms.lookup id with
  | none => rfl
  | some fsm =>
    simp only [OrderFsm.transition, Option.any_some]
    cases isValidTransition fsm.state target <;> rfl

theorem policyCalls_at (order : OrderRecord F)
    (hrec : (life c id).record = some order) (hid : order.orderId = id) :
    policyCalls c id =
      if wantsRemainderCancelled order ∧ canMove (life c id) .cancelPending = true then
        [(order.exchangeOrderId, order.symbol)]
      else [] := by
  have hget : getOrder c.registry id = some order := hrec
  unfold policyCalls checkCancelRemaining wantsRemainderCancelled
  simp only [hget]
  by_cases hpolicy : order.executionInfo.fillPolicy = .cancelRemaining
  · by_cases hstate : order.state = .partiallyFilled
    · by_cases hrest : order.remainingQuantity ≤ 0
      · simp [hpolicy, hstate, hrest]
      · simp [hpolicy, hstate, hrest, hid, cancelCalls, hget, transition_ok]
    · simp [hpolicy, hstate]
  · simp [hpolicy]

theorem policyCalls_unknown (x : OrderId)
    (h : getOrder c.registry x = none) : policyCalls c x = [] := by
  simp only [policyCalls, checkCancelRemaining, h]

structure Left (id : OrderId) (order order' : OrderRecord F) (e : PartialFill F) : Prop where
  own : order'.orderId = id
  exchangeOrderId : order'.exchangeOrderId = order.exchangeOrderId
  symbol : order'.symbol = order.symbol
  wanted : wantsRemainderCancelled order' ↔ e.Wanted order

theorem policyCalls_left (order order' : OrderRecord F)
    (e : PartialFill F) (hrec : (life c id).record = some order') (h : Left id order order' e) :
    (canMove (life c id) .cancelPending = true ∧ e.Wanted order →
      policyCalls c id = [(order.exchangeOrderId, order.symbol)]) ∧
    (¬ (canMove (life c id) .cancelPending = true ∧ e.Wanted order) → policyCalls c id = []) := by
  rw [policyCalls_at c id order' hrec h.own, ← h.wanted, ← h.exchangeOrderId, ← h.symbol]
  exact ⟨fun hboth => if_pos hboth.symm, fun hnot => if_neg (fun hboth => hnot hboth.symm)⟩

/-- An update whose transition is taken hands the order to the policy, under the
id it came with. -/
theorem update_enforced (hown : AllOwn c) (id : OrderId)
    (order : OrderRecord F) (qty price : F) (hrec : (life c id).record = some order)
    (hacc : (PartialFill.update qty price).Accepted c id order) :
    ∃ d, (∃ order', (life d id).record = some order' ∧
        Left id order order' (.update qty price)) ∧
      InState (life d id) .partiallyFilled ∧
      (∀ y, y ≠ id → (life d y).record = (life c y).record) ∧
      ∀ y, resolveOrder c.registry y = some (id, order) →
        (∀ answers, onOrderUpdate c y .partiallyFilled qty price answers =
          enforceCancelRemaining d answers y) ∧
        orderUpdateCalls c y .partiallyFilled qty price = policyCalls d y := by
  obtain ⟨hq, fsm, hfsm, hvalid⟩ := hacc
  have hs : InState (life c id) fsm.state := by
    rw [InState, show (life c id).fsm = some fsm from hfsm]
    rfl
  obtain ⟨moved, hmove, hstate, hmrec, -⟩ := move_accepted c.clock .partiallyFilled fsm.state
    "Exchange update" (life c id) hs hvalid
  obtain ⟨r, hr, hm⟩ := transition_moved c id .partiallyFilled "Exchange update" moved hmove
  rw [hrec, Option.map_some] at hmrec
  have hrown : OwnId id (life (setRegistry c r) id) :=
    allOwn_moves hm hown (same_moves.move hmove) id
  have hreport := hm.next (report c.clock qty price)
    (processOrderFill_moves (setRegistry c r) id qty price hrown)
  obtain ⟨hreported, hrfsm⟩ := report_outcome c.clock qty price moved _ hmrec (by simp [setState])
  refine ⟨(processOrderFill (setRegistry c r) id qty price).1,
    ⟨_, (congrArg Life.record hreport.at_id).trans hreported, hown id order hrec, rfl, rfl, ?_⟩,
    ?_, ?_, ?_⟩
  · simp only [wantsRemainderCancelled, PartialFill.Wanted, PartialFill.leftAfter,
      reconciledRecord, setState, true_and]
  · rw [hreport.at_id, InState, hrfsm]
    exact hstate
  · intro y hy
    rw [hreport.lives, Function.update_of_ne hy]
  · intro y hres
    simp only [onOrderUpdate, orderUpdateCalls, hres, hr, releaseUnfilled, endsUnfilled,
      Bool.false_eq_true, false_and, if_false, if_pos hq]
    exact ⟨fun _ => trivial, trivial⟩

theorem trade_fsm (clock : Clock) (order : OrderRecord F) (fill : FillEvent F) (l : Life F) :
    (trade clock order fill l).fsm =
      (tryMove clock (fillRecord order clock.now fill).state
        (fillReason order (fillRecord order clock.now fill).filledQuantity) l).fsm := by
  unfold trade
  dsimp only
  split_ifs <;> rfl

omit [DoubleArith F] in
/-- After a partial fill an order can be cancelled if its machine had been
submitted and had not ended. -/
theorem canMove_tried (clock : Clock) (reason : String) (l : Life F) :
    canMove (tryMove clock .partiallyFilled reason l) .cancelPending = true ↔
      ∃ fsm, l.fsm = some fsm ∧ isTerminal fsm.state = false ∧ fsm.state ≠ .new := by
  cases hfsm : l.fsm with
  | none => simp [tryMove, move, hfsm, canMove]
  | some fsm =>
    have hs : InState l fsm.state := by
      rw [InState, hfsm]
      rfl
    simp only [Option.some.injEq, exists_eq_left']
    cases hvalid : isValidTransition fsm.state .partiallyFilled with
    | true =>
      obtain ⟨moved, hmove, hstate, -⟩ := move_accepted clock .partiallyFilled fsm.state reason l
        hs hvalid
      obtain ⟨fsm', hfsm', hs'⟩ := Option.map_eq_some_iff.mp hstate
      have hgoes : canMove (tryMove clock .partiallyFilled reason l) .cancelPending = true := by
        simp only [tryMove, hmove, Option.getD_some, canMove, hfsm', Option.any_some, hs']
        rfl
      refine iff_of_true hgoes ?_
      revert hvalid
      cases fsm.state <;> decide
    | false =>
      simp only [tryMove, move_refused clock .partiallyFilled fsm.state reason l hs hvalid,
        Option.getD_none, canMove, hfsm, Option.any_some]
      revert hvalid
      cases fsm.state <;> decide

omit [DoubleArith F] in
theorem markTrade_new (fill : FillEvent F)
    (h : fill.tradeId = "" ∨ fill.tradeId ∉ c.registry.seenTradeIds) :
    (markTrade c fill).2 = false := by
  unfold markTrade
  split_ifs with hempty
  · rfl
  · simp [checkAndMarkTradeIdSeen, h.resolve_left hempty]

/-- An accepted trade hands the order to the policy under its own id. -/
theorem trade_enforced (hown : AllOwn c) (id : OrderId) (order : OrderRecord F) (fill : FillEvent F)
    (hacc : (PartialFill.trade fill).Accepted c id order) (y : OrderId)
    (hres : resolveOrder c.registry y = some (id, order)) :
    (∀ answers, onFillEvent c (under y fill) answers =
      enforceCancelRemaining (acceptFill (markTrade c fill).1 id order (under y fill)) answers id) ∧
    fillEventCalls c (under y fill) =
      policyCalls (acceptFill (markTrade c fill).1 id order (under y fill)) id := by
  obtain ⟨hnew, hfinite, hprice, -⟩ := hacc
  obtain ⟨-, hlives, hresolve⟩ := markTrade_lives c fill
  have hmarked : markTrade c (under y fill) = ((markTrade c fill).1, false) :=
    Prod.ext rfl (markTrade_new c fill hnew)
  have hmown : AllOwn (markTrade c fill).1 := by
    intro j
    rw [hlives]
    exact hown j
  have hstill : resolveOrder (markTrade c fill).1.registry (under y fill).orderId =
      some (id, order) := (hresolve y).trans hres
  have hpriced : ¬ (isfinite (under y fill).fillPrice = false ∨ (under y fill).fillPrice ≤ 0) := by
    rintro (hnan | hle)
    · exact Bool.noConfusion (hfinite.symm.trans hnan)
    · exact hprice hle
  have hprocessed : processFillEvent c (under y fill) =
      (acceptFill (markTrade c fill).1 id order (under y fill), true) := by
    simp only [processFillEvent, hmarked, hstill, if_neg hpriced]
  obtain ⟨order', hafter⟩ := acceptFill_resolves (markTrade c fill).1 hmown y id order
    (under y fill) hstill
  have hafter' : resolveOrder (acceptFill (markTrade c fill).1 id order
      (under y fill)).registry (under y fill).orderId = some (id, order') := hafter
  simp only [onFillEvent, fillEventCalls, hprocessed, hafter']
  exact ⟨fun _ => trivial, trivial⟩

theorem trade_left (hown : AllOwn c) (id : OrderId)
    (order : OrderRecord F) (fill : FillEvent F) (hrec : (life c id).record = some order)
    (hacc : (PartialFill.trade fill).Accepted c id order) :
    let d := acceptFill (markTrade c fill).1 id order (under id fill)
    (∃ order', (life d id).record = some order' ∧ Left id order order' (.trade fill)) ∧
      (canMove (life d id) .cancelPending = true ↔ ∃ fsm, c.registry.fsms.lookup id = some fsm ∧
        isTerminal fsm.state = false ∧ fsm.state ≠ .new) := by
  obtain ⟨-, -, -, hpartial⟩ := hacc
  obtain ⟨hclock, hlives, -⟩ := markTrade_lives c fill
  have hid : order.orderId = id := hown id order hrec
  have hmoves := acceptFill_moves (markTrade c fill).1 id order (under id fill) hid
  have hlife := hmoves.at_id
  rw [hlives, hclock] at hlife
  have hstate : (fillRecord order c.clock.now (under id fill)).state = .partiallyFilled :=
    if_neg hpartial
  dsimp only
  rw [hlife]
  constructor
  · refine ⟨_, trade_record c.clock order (under id fill) _ hrec, hid, rfl, rfl, ?_⟩
    simp only [wantsRemainderCancelled, PartialFill.Wanted, PartialFill.leftAfter, hstate,
      true_and]
    rfl
  · have hfsm := trade_fsm c.clock order (under id fill) (life c id)
    rw [hstate] at hfsm
    rw [canMove, hfsm]
    exact canMove_tried c.clock _ (life c id)

end Outcome

section Routing
variable {F : Type} [DoubleArith F]

theorem update_routed_iff (c : ExecutionCore F) (hown : AllOwn c) (x id : OrderId)
    (order : OrderRecord F) (qty price : F) (answers : OrderId → Bool)
    (hres : resolveOrder c.registry x = some (id, order))
    (hacc : (PartialFill.update qty price).Accepted c id order) :
    Indifferent c x id order (.update qty price) answers ↔
      Routed c x id order (.update qty price) := by
  obtain ⟨hrec, hother⟩ := resolve_some c hown x id order hres
  obtain ⟨d, ⟨order', hrec', hleft⟩, hstate, hothers, hrun⟩ :=
    update_enforced c hown id order qty price hrec hacc
  obtain ⟨hrunx, hcallsx⟩ := hrun x hres
  obtain ⟨hrunid, hcallsid⟩ := hrun id (resolve_self c id order hrec)
  obtain ⟨hwanted, hunwanted⟩ := policyCalls_left d id order order' _ hrec' hleft
  have hcan : canMove (life d id) .cancelPending = true := by
    obtain ⟨fsm, hfsm, hs⟩ := Option.map_eq_some_iff.mp hstate
    simp only [canMove, hfsm, Option.any_some, hs]
    rfl
  have hnone : x ≠ id → getOrder d.registry x = none := fun hx => (hothers x hx).trans (hother hx)
  constructor
  · intro h
    by_contra hrouted
    obtain ⟨hx, hw⟩ := not_or.mp hrouted
    have hcall := h.requested (not_not.mp hw) x (.inl rfl)
    have hempty : orderUpdateCalls c x .partiallyFilled qty price = [] :=
      hcallsx.trans (policyCalls_unknown d x (hnone hx))
    exact absurd (hempty.symm.trans hcall) (by simp)
  · intro h
    by_cases hx : x = id
    · subst hx
      refine ⟨rfl, rfl, fun hw y hy => ?_⟩
      obtain rfl : y = x := hy.elim (fun h => h) (fun h => h)
      exact hcallsid.trans (hwanted ⟨hcan, hw⟩)
    · have hw := h.resolve_left hx
      have hsilent : policyCalls d id = [] := hunwanted (fun hboth => hw hboth.2)
      refine ⟨?_, ?_, fun hwanted => absurd hwanted hw⟩
      · calc onOrderUpdate c x .partiallyFilled qty price answers
            = enforceCancelRemaining d answers x := hrunx answers
          _ = d := enforce_unknown d answers x (hnone hx)
          _ = enforceCancelRemaining d answers id :=
              (enforceCancelRemaining_silent d answers id hsilent).symm
          _ = onOrderUpdate c id .partiallyFilled qty price answers := (hrunid answers).symm
      · exact (hcallsx.trans (policyCalls_unknown d x (hnone hx))).trans
          (hcallsid.trans hsilent).symm

theorem trade_routed_iff (c : ExecutionCore F) (hown : AllOwn c) (x id : OrderId)
    (order : OrderRecord F) (fill : FillEvent F) (answers : OrderId → Bool)
    (hres : resolveOrder c.registry x = some (id, order))
    (hacc : (PartialFill.trade fill).Accepted c id order) :
    Indifferent c x id order (.trade fill) answers ↔ Routed c x id order (.trade fill) := by
  obtain ⟨hrec, -⟩ := resolve_some c hown x id order hres
  obtain ⟨hrunx, hcallsx⟩ := trade_enforced c hown id order fill hacc x hres
  obtain ⟨hrunid, hcallsid⟩ := trade_enforced c hown id order fill hacc id
    (resolve_self c id order hrec)
  obtain ⟨⟨order', hrec', hleft⟩, hcan⟩ := trade_left c hown id order fill hrec hacc
  obtain ⟨hwanted, hunwanted⟩ := policyCalls_left _ id order order' _ hrec' hleft
  have hmem : id ∈ (markTrade c fill).1.registry.orders := by
    obtain ⟨-, hlives, -⟩ := markTrade_lives c fill
    refine (Keyed.mem_iff_lookup _ _).mpr ⟨order, ?_⟩
    change (life (markTrade c fill).1 id).record = some order
    rw [hlives]
    exact hrec
  have hdown : OwnId id (life (acceptFill (markTrade c fill).1 id order (under id fill)) id) := by
    intro found hfound
    obtain rfl := Option.some.inj (hrec'.symm.trans hfound)
    exact hleft.own
  have hcopy := acceptFill_relabel x id (markTrade c fill).1 order fill (hown id order hrec) hmem
  have hsame : fillEventCalls c (under x fill) = fillEventCalls c (under id fill) := by
    rw [hcallsx, hcallsid, hcopy, policyCalls_relabel x id _ hdown]
  constructor
  · intro h hw
    by_contra hnot
    have hcall := h.requested hw id (.inr rfl)
    have hempty : fillEventCalls c (under id fill) = [] :=
      hcallsid.trans (hunwanted (fun hboth => hnot (hcan.mp hboth.1)))
    exact absurd (hempty.symm.trans hcall) (by simp)
  · intro h
    refine ⟨?_, hsame, fun hw y hy => ?_⟩
    · calc onFillEvent c (under x fill) answers
          = enforceCancelRemaining (relabel x id (acceptFill (markTrade c fill).1 id order
              (under id fill))) answers id := by rw [hrunx, hcopy]
        _ = relabel x id (enforceCancelRemaining (acceptFill (markTrade c fill).1 id order
              (under id fill)) answers id) := enforce_relabel x id _ answers hdown
        _ = relabel x id (onFillEvent c (under id fill) answers) := by rw [hrunid]
    · have hid : fillEventCalls c (under id fill) = [(order.exchangeOrderId, order.symbol)] :=
        hcallsid.trans (hwanted ⟨hcan.mpr (h hw), hw⟩)
      rcases hy with rfl | rfl
      · exact hsame.trans hid
      · exact hid

/-- The id a partial fill comes with makes no difference, and the wanted cancel
is requested, if and only if the event is routed to the policy: an update by its
id, a trade by the state of the order. -/
theorem indifferent_iff (c : ExecutionCore F) (hown : AllOwn c) (x id : OrderId)
    (order : OrderRecord F) (e : PartialFill F) (answers : OrderId → Bool)
    (hres : resolveOrder c.registry x = some (id, order)) (hacc : e.Accepted c id order) :
    Indifferent c x id order e answers ↔ Routed c x id order e := by
  cases e with
  | update qty price => exact update_routed_iff c hown x id order qty price answers hres hacc
  | trade fill => exact trade_routed_iff c hown x id order fill answers hres hacc

end Routing

section Resting
open EngineBirths

def openCore : ExecutionCore ℚ :=
  (Runs.run engineStep startEngine [.setDefaultFillPolicy .cancelRemaining, enter .postOnly,
    .onOrderUpdate "TB1-1" .opened 0 0 (fun _ => true)]).core

theorem openCore_own : AllOwn openCore :=
  (Runs.invariant_run engineStep (fun e op h _ => step_sound e op h) startEngine _
    (init_sound _ _ _ _ rfl) (Runs.meets_true engineStep _ _)).own

def openOrder : OrderRecord ℚ := (getOrder openCore.registry "TB1-1").get (by decide +kernel)

theorem openCore_resolves :
    resolveOrder openCore.registry "9001" = some ("TB1-1", openOrder) := by
  have hnone : getOrder openCore.registry "9001" = none := Option.isNone_iff_eq_none.mp (by decide +kernel)
  have hindex : openCore.registry.exchangeIdIndex.lookup "9001" = some "TB1-1" := by
    decide +kernel
  have hget : openCore.registry.orders.lookup "TB1-1" = some openOrder := (Option.some_get _).symm
  have hid : openOrder.orderId = "TB1-1" := openCore_own "TB1-1" openOrder hget
  simp only [resolveOrder, hnone, getOrderByExchangeId, hindex, Option.bind_some, hget,
    Option.map_some, hid]

def quarter : PartialFill ℚ := .update (1 / 4) 100

theorem quarter_accepted : quarter.Accepted openCore "TB1-1" openOrder := by
  refine ⟨by decide +kernel, (openCore.registry.fsms.lookup "TB1-1").get (by decide +kernel),
    (Option.some_get _).symm, by decide +kernel⟩

/-- Under the exchange id nothing is cancelled. -/
theorem exchange_id_skips_policy : ¬ ∀ (c : ExecutionCore ℚ) (x id : OrderId)
    (order : OrderRecord ℚ) (e : PartialFill ℚ) (answers : OrderId → Bool), AllOwn c →
    resolveOrder c.registry x = some (id, order) → e.Accepted c id order →
    Indifferent c x id order e answers := by
  intro h
  have hcalls := (h openCore "9001" "TB1-1" openOrder quarter (fun _ => true) openCore_own
    openCore_resolves quarter_accepted).calls
  exact absurd hcalls (by decide +kernel)

theorem indifferent_iff_quarter :
    Indifferent openCore "9001" "TB1-1" openOrder quarter (fun _ => true) ↔
      Routed openCore "9001" "TB1-1" openOrder quarter :=
  indifferent_iff openCore openCore_own "9001" "TB1-1" openOrder quarter (fun _ => true)
    openCore_resolves quarter_accepted

end Resting

end TB.RemainderPolicy
