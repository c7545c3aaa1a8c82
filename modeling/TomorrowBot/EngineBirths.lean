import TomorrowBot.LifeSteps

/-!
# The birth of an order

An execution that is not refused early keeps one new life, under an id no
life was kept under before. In a sound engine the ids to come are unborn, and
an order waiting for its confirmation is one the engine has issued.
-/

set_option autoImplicit false

namespace TB.EngineBirths
open TB.CommonTypes TB.PortfolioEngine TB.PortfolioLedger TB.OrderTypes TB.Orders
open TB.FillProcessor TB.CancelManager TB.ExecutionPlanner TB.ExecutionEngine
open TB.OrderLife TB.EngineLives TB.EngineSimulation TB.LifeSteps

variable {F : Type} [DoubleArith F]

structure Unfilled (id : OrderId) (side : TradeSide) (order : OrderRecord F) : Prop where
  orderId : order.orderId = id
  tradeSide : order.tradeSide = side
  filled : order.filledQuantity = 0
  fills : order.executionInfo.fills = []

structure Born (id : OrderId) (side : TradeSide) (l : Life F) : Prop where
  placed : ∃ order fsm, l.record = some order ∧ l.fsm = some fsm ∧ Unfilled id side order ∧
    order.state = fsm.state ∧
    (l.reserved ≠ none → isTerminal fsm.state = false ∧ requiresMarginReserve order = true)
  applied : l.applied = false
  passed : l.passed = []

structure Acked (order : OrderRecord F) (l : Life F) : Prop where
  record : ∃ found, l.record = some found
  fsm : ∃ fsm, l.fsm = some fsm ∧ fsm.state = .pendingAck
  state : order.state = .pendingAck
  reserved : l.reserved ≠ none → requiresMarginReserve order = true
  applied : l.applied = false
  passed : l.passed = []

section Submission

def reject (clock : Clock) (order : OrderRecord F) (why reason : String) (l : Life F) : Life F :=
  put { order with state := .rejected, rejectionReason := reason } (tryMove clock .rejected why l)

def submission (order : OrderRecord F) (answer : SubmitAnswer F) (l : Life F) : Life F :=
  match answer with
  | .threw => releaseFor order (put order l)
  | .returned result clock =>
    if result.success = false then
      releaseFor order (reject clock order result.errorMessage result.errorMessage (put order l))
    else put { order with exchangeOrderId := result.exchangeOrderId } (put order l)

omit [DoubleArith F] in
theorem reject_moves (c : ExecutionCore F) (order : OrderRecord F) (why reason : String)
    (id : OrderId) (hid : order.orderId = id) :
    Moves c (rejectOrder c order why reason) id
      (reject c.clock order why reason (life c id)) := by
  subst hid
  have hmove := transition_tried c order.orderId .rejected why
  exact hmove.next (put { order with state := .rejected, rejectionReason := reason })
    (update_moves _ { order with state := .rejected, rejectionReason := reason } order.orderId rfl)

theorem closePhantom_pending (p : Portfolio F) (order : OrderRecord F) (message : String) :
    (closePhantom p order message).pendingOrders = p.pendingOrders := by
  unfold closePhantom
  by_cases hphantom : order.tradeSide = .closing ∧ "22002".toList <:+: message.toList
  · rw [if_pos hphantom]
    cases getPositionSide p order.symbol order.positionSide with
    | none => rfl
    | some pos =>
      by_cases hsize : 0 < pos.size
      · simp only [if_pos hsize, closePositionSide]
        split_ifs
        all_goals first | exact closeLeg_pending _ _ _ | rfl
      · simp only [if_neg hsize]
  · rw [if_neg hphantom]

omit [DoubleArith F] in
theorem life_of_portfolio (c : ExecutionCore F) (p : Portfolio F)
    (h : p.pendingOrders = c.portfolio.pendingOrders) :
    life { c with portfolio := p } = life c := by
  funext j
  simp only [life, h]

/-- Whatever the submitter does, only the life of the order changes. -/
theorem submitOrder_lives (e : Engine F) (order : OrderRecord F) (key : String)
    (answer : SubmitAnswer F) (id : OrderId) (hid : order.orderId = id) :
    life (submitOrder e order key answer).1.core =
      Function.update (life e.core) id (submission order answer (life e.core id)) := by
  have hsent : Moves e.core (setRegistry e.core (updateOrder e.core.registry order)) id
      (put order (life e.core id)) := update_moves e.core order id hid
  unfold submitOrder submission
  cases answer with
  | threw => exact (hsent.next (releaseFor order) (releaseGuard_moves _ order id hid)).lives
  | returned result clock =>
    dsimp only
    -- The clock moves while the submitter works; no life reads it.
    obtain ⟨back, hback⟩ : ∃ back : ExecutionCore F, back =
      { setRegistry e.core (updateOrder e.core.registry order) with clock := clock } := ⟨_, rfl⟩
    have hlives : life back = Function.update (life e.core) id (put order (life e.core id)) := by
      rw [hback]
      exact hsent.lives
    have hclock : back.clock = clock := by rw [hback]
    have hat : life back id = put order (life e.core id) := by
      rw [hlives, Function.update_self]
    by_cases hfail : result.success = false
    · rw [if_pos hfail, if_pos hfail]
      have hreject := reject_moves back order result.errorMessage result.errorMessage id hid
      rw [hclock, hat] at hreject
      have hsynced : Moves back { rejectOrder back order result.errorMessage
            result.errorMessage with
          portfolio := closePhantom (rejectOrder back order result.errorMessage
            result.errorMessage).portfolio order result.errorMessage } id
          (reject clock order result.errorMessage result.errorMessage
            (put order (life e.core id))) := by
        refine ⟨hreject.clock, ?_⟩
        rw [life_of_portfolio _ _ (closePhantom_pending _ order result.errorMessage)]
        exact hreject.lives
      have hdone := (hsynced.next (releaseFor order) (releaseGuard_moves _ order id hid)).lives
      rw [hlives, Function.update_idem, hback] at hdone
      exact hdone
    · rw [if_neg hfail, if_neg hfail]
      have hput := (update_moves back { order with exchangeOrderId := result.exchangeOrderId }
        id hid).lives
      rw [hat, hlives, Function.update_idem, hback] at hput
      exact hput

omit [DoubleArith F] in
theorem releaseFor_reserved (order : OrderRecord F) (l : Life F)
    (h : l.reserved ≠ none → requiresMarginReserve order = true) :
    (releaseFor order l).reserved = none := by
  unfold releaseFor
  split_ifs with hmargin
  · rfl
  · by_contra hne
    exact hmargin (h hne)

omit [DoubleArith F] in
theorem reject_eq (clock : Clock) (order : OrderRecord F) (why reason : String) (l : Life F)
    (h : Acked order l) : ∃ fsm, fsm.state = .rejected ∧ reject clock order why reason l = { l with
      record := some { order with state := .rejected, rejectionReason := reason }
      fsm := some fsm } := by
  obtain ⟨found, hfound⟩ := h.record
  obtain ⟨fsm, hfsm, hstate⟩ := h.fsm
  refine ⟨OrderFsm.record fsm clock .rejected why, rfl, ?_⟩
  have hmove : tryMove clock .rejected why l = { l with
      record := l.record.map (setState clock .rejected)
      fsm := some (OrderFsm.record fsm clock .rejected why) } := by
    simp [tryMove, move, hfsm, OrderFsm.transition, hstate, isValidTransition]
  rw [reject, hmove]
  simp [put, hfound]

theorem reject_born (clock : Clock) (order : OrderRecord F) (why reason : String) (l : Life F)
    (id : OrderId) (side : TradeSide) (hnew : Unfilled id side order) (h : Acked order l) :
    Born id side { reject clock order why reason l with reserved := none } := by
  obtain ⟨fsm, hstate, heq⟩ := reject_eq clock order why reason l h
  rw [heq]
  exact ⟨⟨_, fsm, rfl, rfl, ⟨hnew.orderId, hnew.tradeSide, hnew.filled, hnew.fills⟩, hstate.symm,
    fun hne => absurd rfl hne⟩, h.applied, h.passed⟩

theorem released_born (id : OrderId) (side : TradeSide) (order : OrderRecord F) (l : Life F)
    (h : Born id side { l with reserved := none }) (hres : (releaseFor order l).reserved = none) :
    Born id side (releaseFor order l) := by
  have heq : releaseFor order l = { l with reserved := none } := by
    unfold releaseFor at hres ⊢
    split_ifs at hres ⊢
    · rfl
    · rw [← hres]
  rw [heq]
  exact h

theorem put_born (order accepted : OrderRecord F) (l : Life F) (id : OrderId) (side : TradeSide)
    (hnew : Unfilled id side accepted) (hstate : accepted.state = .pendingAck)
    (hmargin : requiresMarginReserve accepted = requiresMarginReserve order)
    (h : Acked order l) : Born id side (put accepted l) := by
  obtain ⟨found, hfound⟩ := h.record
  obtain ⟨fsm, hfsm, hack⟩ := h.fsm
  refine ⟨⟨accepted, fsm, ?_, hfsm, hnew, hstate.trans hack.symm, ?_⟩, h.applied, h.passed⟩
  · simp [put, hfound]
  · intro hne
    rw [hack, hmargin]
    exact ⟨rfl, h.reserved hne⟩

omit [DoubleArith F] in
theorem put_acked (order accepted : OrderRecord F) (l : Life F) (h : Acked order l) :
    Acked order (put accepted l) := by
  obtain ⟨found, hfound⟩ := h.record
  exact ⟨⟨accepted, by simp [put, hfound]⟩, h.fsm, h.state, h.reserved, h.applied, h.passed⟩

theorem submission_born (order : OrderRecord F) (answer : SubmitAnswer F) (l : Life F)
    (id : OrderId) (side : TradeSide) (hnew : Unfilled id side order) (h : Acked order l) :
    Born id side (submission order answer l) := by
  have hput := put_acked order order l h
  unfold submission
  cases answer with
  | threw =>
    have hbare : Acked order { l with reserved := none } :=
      ⟨h.record, h.fsm, h.state, fun hne => absurd rfl hne, h.applied, h.passed⟩
    exact released_born id side order _ (put_born order order _ id side hnew h.state rfl hbare)
      (releaseFor_reserved order _ hput.reserved)
  | returned result clock =>
    dsimp only
    split_ifs
    · have hborn := reject_born clock order result.errorMessage result.errorMessage _ id side
        hnew hput
      apply released_born id side order _ hborn
      apply releaseFor_reserved
      obtain ⟨fsm, -, heq⟩ := reject_eq clock order result.errorMessage result.errorMessage _ hput
      rw [heq]
      exact h.reserved
    · exact put_born order _ _ id side
        ⟨hnew.orderId, hnew.tradeSide, hnew.filled, hnew.fills⟩ h.state rfl hput

end Submission

section Placement

variable (p : Portfolio F)

theorem reserveCash_refused (now : Timestamp) (id : OrderId) (s : Symbol)
    (side : Side) (n fee : F) (strategy : StrategyId)
    (h : (reserveCash p now id s side n fee strategy).2 = false) :
    (reserveCash p now id s side n fee strategy).1 = p := by
  unfold reserveCash at h ⊢
  dsimp only at h ⊢
  split_ifs at h ⊢
  rfl

theorem reserveCash_lookup_ne (now : Timestamp) (j id : OrderId) (s : Symbol)
    (side : Side) (n fee : F) (strategy : StrategyId) (hj : j ≠ id) :
    (reserveCash p now id s side n fee strategy).1.pendingOrders.lookup j =
      p.pendingOrders.lookup j := by
  unfold reserveCash
  dsimp only
  split_ifs
  · rfl
  · exact AList.lookup_insert_ne hj

structure Sizing (p : Portfolio F) (order : OrderRecord F)
    (out : Portfolio F × OrderRecord F × Bool) : Prop where
  others : ∀ j, j ≠ order.orderId → out.1.pendingOrders.lookup j = p.pendingOrders.lookup j
  refused : out.2.2 = false → out.1 = p
  exempt : requiresMarginReserve order = false → out.1 = p
  sized : ∃ qty, out.2.1 = { order with originalQuantity := qty }

omit [DoubleArith F] in
theorem sizing_kept (order : OrderRecord F) (ok : Bool) : Sizing p order (p, order, ok) :=
  ⟨fun _ _ => rfl, fun _ => rfl, fun _ => rfl, ⟨order.originalQuantity, rfl⟩⟩

variable (e : Engine F) (order : OrderRecord F)

theorem tryReserveMargin_sizing : Sizing e.core.portfolio order (tryReserveMargin e order) := by
  unfold tryReserveMargin
  dsimp only
  generalize (if 0 < order.price then order.price else 0) = price
  by_cases hexempt : requiresMarginReserve order = false
  · rw [if_pos hexempt]
    exact sizing_kept _ _ _
  rw [if_neg hexempt]
  by_cases hzero : order.originalQuantity * price ≤ 0
  · rw [if_pos hzero]
    exact sizing_kept _ _ _
  rw [if_neg hzero]
  by_cases hmin : order.originalQuantity * price < e.config.minNotionalUsdt
  · rw [if_pos hmin]
    exact sizing_kept _ _ _
  rw [if_neg hmin]
  generalize hfirst : reserveCash e.core.portfolio e.core.clock.now order.orderId order.symbol
    order.side (order.originalQuantity * price / e.leverage)
    (order.originalQuantity * price * kDefaultTakerFeePct) order.strategyId = first
  obtain ⟨reserved, ok⟩ := first
  cases ok with
  | true =>
    refine ⟨fun j hj => ?_, fun h => absurd h (by simp), fun h => absurd h hexempt,
      ⟨order.originalQuantity, rfl⟩⟩
    have hother := reserveCash_lookup_ne e.core.portfolio e.core.clock.now j order.orderId
      order.symbol order.side (order.originalQuantity * price / e.leverage)
      (order.originalQuantity * price * kDefaultTakerFeePct) order.strategyId hj
    rw [hfirst] at hother
    exact hother
  | false =>
    dsimp only
    split_ifs
    · exact sizing_kept _ _ _
    · exact sizing_kept _ _ _
    · exact ⟨fun j hj => reserveCash_lookup_ne _ _ j _ _ _ _ _ _ hj,
        fun h => reserveCash_refused _ _ _ _ _ _ _ _ h, fun h => absurd h hexempt, ⟨_, rfl⟩⟩

variable (c : ExecutionCore F)

omit [DoubleArith F] in
theorem register_moves (order : OrderRecord F) (id : OrderId)
    (hid : order.orderId = id) (hnew : life c id = unborn) :
    Moves c (setRegistry c (registerOrder c.registry c.clock order)) id
      { unborn with record := some order, fsm := some (OrderFsm.create c.clock) } := by
  subst hid
  have hrec : c.registry.orders.lookup order.orderId = none := congrArg Life.record hnew
  have hfsm : c.registry.fsms.lookup order.orderId = none := congrArg Life.fsm hnew
  have hkeep : (life c order.orderId).applied = false ∧
      (life c order.orderId).reserved = none ∧ (life c order.orderId).passed = [] := by
    rw [hnew]
    exact ⟨rfl, rfl, rfl⟩
  obtain ⟨happlied, hreserved, hpassed⟩ := hkeep
  have hrec' : order.orderId ∉ c.registry.orders := AList.lookup_eq_none.mp hrec
  have hfsm' : order.orderId ∉ c.registry.fsms := AList.lookup_eq_none.mp hfsm
  apply moves_of_lives
  · rfl
  · unfold life at happlied hreserved hpassed
    simp only [life, setRegistry, registerOrder, if_neg hrec', if_neg hfsm', AList.lookup_insert]
    dsimp only at happlied hreserved hpassed
    rw [hreserved, hpassed]
    simp only [unborn, Life.mk.injEq, and_true, true_and]
    exact happlied
  · intro j hj
    simp only [life, setRegistry, registerOrder, if_neg hrec', if_neg hfsm',
      AList.lookup_insert_ne hj]
    rfl

def ackedLife (clock : Clock) (order : OrderRecord F) : Life F :=
  { unborn with
    record := some (setState clock .pendingAck order)
    fsm := some (OrderFsm.record (OrderFsm.create clock) clock .pendingAck
      "Submitting to exchange") }

omit [DoubleArith F] in
theorem ackedLife_acked (clock : Clock) (order : OrderRecord F)
    (reserved : Option (PendingOrderInfo F)) (sized : OrderRecord F) (hstate : sized.state = .pendingAck)
    (hres : reserved ≠ none → requiresMarginReserve sized = true) :
    Acked sized { ackedLife clock order with reserved := reserved } :=
  ⟨⟨_, rfl⟩, ⟨_, rfl, rfl⟩, hstate, hres, rfl, rfl⟩

variable (key : String) (answer : SubmitAnswer F)

theorem submitOrder_awaiting : (submitOrder e order key answer).1.awaiting = e.awaiting ∨
      ∃ a, (submitOrder e order key answer).1.awaiting = e.awaiting ++ [a] ∧
        a.order.orderId = order.orderId ∧ a.order.tradeSide = order.tradeSide := by
  unfold submitOrder
  cases answer with
  | threw => exact .inl rfl
  | returned result clock =>
    dsimp only
    split_ifs
    · exact .inl rfl
    · exact .inr ⟨_, rfl, rfl, rfl⟩
    · exact .inl rfl

theorem submitOrder_ids : (submitOrder e order key answer).1.nextSeq = e.nextSeq ∧
      (submitOrder e order key answer).1.sessionPrefix = e.sessionPrefix := by
  unfold submitOrder
  cases answer with
  | threw => exact ⟨rfl, rfl⟩
  | returned result clock =>
    dsimp only
    split_ifs <;> exact ⟨rfl, rfl⟩

omit [DoubleArith F] in
theorem reserved_moves (p : Portfolio F) (id : OrderId)
    (h : ∀ j, j ≠ id → p.pendingOrders.lookup j = c.portfolio.pendingOrders.lookup j) :
    Moves c { c with portfolio := p } id
      { life c id with reserved := p.pendingOrders.lookup id } := by
  apply moves_of_lives
  · rfl
  · rfl
  · intro j hj
    simp only [life, h j hj]

structure Placed (e e' : Engine F) (order : OrderRecord F) : Prop where
  nextSeq : e'.nextSeq = e.nextSeq
  sessionPrefix : e'.sessionPrefix = e.sessionPrefix
  lives : ∃ l, life e'.core = Function.update (life e.core) order.orderId l ∧
    Born order.orderId order.tradeSide l
  awaiting : e'.awaiting = e.awaiting ∨ ∃ a, e'.awaiting = e.awaiting ++ [a] ∧
    a.order.orderId = order.orderId ∧ a.order.tradeSide = order.tradeSide

theorem rejected_placed (order sized : OrderRecord F)
    (clock : Clock) (why reason : String) (hnew : Unfilled order.orderId order.tradeSide sized)
    (hstate : sized.state = .pendingAck)
    (hc : Moves e.core c order.orderId (ackedLife clock order)) :
    Placed e (setCore e (rejectOrder c sized why reason)) order := by
  have hacked : Acked sized (ackedLife clock order) :=
    ackedLife_acked clock order none sized hstate (fun h => absurd rfl h)
  have hreject := hc.next (reject c.clock sized why reason)
    (reject_moves c sized why reason order.orderId hnew.orderId)
  refine ⟨rfl, rfl, ⟨_, hreject.lives, ?_⟩, .inl rfl⟩
  have hborn := reject_born c.clock sized why reason _ _ _ hnew hacked
  obtain ⟨fsm, -, heq⟩ := reject_eq c.clock sized why reason _ hacked
  rw [heq] at hborn ⊢
  exact hborn

omit [DoubleArith F] in
theorem acked_moves (hunborn : life e.core order.orderId = unborn) :
    ∃ r, transition (registerOrder e.core.registry e.core.clock order) e.core.clock order.orderId
        .pendingAck "Submitting to exchange" = (r, true) ∧
      Moves e.core (setRegistry e.core r) order.orderId (ackedLife e.core.clock order) := by
  have hregister := register_moves e.core order order.orderId rfl hunborn
  have hmove : move (setRegistry e.core (registerOrder e.core.registry e.core.clock order)).clock
      .pendingAck "Submitting to exchange"
      (life (setRegistry e.core (registerOrder e.core.registry e.core.clock order))
        order.orderId) = some (ackedLife e.core.clock order) := by
    rw [hregister.at_id, hregister.clock]
    rfl
  obtain ⟨r, hr, hmoved⟩ := transition_moved _ order.orderId _ _ _ hmove
  exact ⟨r, hr, hregister.then hmoved⟩

theorem submitted_placed (r : OrderRegistry F) (p : Portfolio F)
    (order sized : OrderRecord F) (key : String) (answer : SubmitAnswer F)
    (hsized : Unfilled order.orderId order.tradeSide sized) (hstate : sized.state = .pendingAck)
    (hacked : Moves e.core (setRegistry e.core r) order.orderId (ackedLife e.core.clock order))
    (hothers : ∀ j, j ≠ order.orderId →
      p.pendingOrders.lookup j = e.core.portfolio.pendingOrders.lookup j)
    (hres : p.pendingOrders.lookup order.orderId ≠ none → requiresMarginReserve sized = true) :
    Placed e (submitOrder (setCore e { setRegistry e.core r with portfolio := p }) sized key
      answer).1 order := by
  have hreserved := hacked.next (fun l => { l with
    reserved := p.pendingOrders.lookup order.orderId })
    (reserved_moves (setRegistry e.core r) p order.orderId hothers)
  have hlives := submitOrder_lives (setCore e { setRegistry e.core r with portfolio := p })
    sized key answer order.orderId hsized.orderId
  have hborn := submission_born sized answer _ _ _ hsized
    (ackedLife_acked e.core.clock order (p.pendingOrders.lookup order.orderId) sized hstate hres)
  have hids := submitOrder_ids (setCore e { setRegistry e.core r with portfolio := p })
    sized key answer
  have hawait := submitOrder_awaiting (setCore e { setRegistry e.core r with portfolio := p })
    sized key answer
  rw [hsized.orderId, hsized.tradeSide] at hawait
  refine ⟨hids.1, hids.2, ⟨_, ?_, hborn⟩, hawait⟩
  rw [hlives]
  have hat := hreserved.at_id
  have hl := hreserved.lives
  simp only [setCore]
  rw [hat, hl, Function.update_idem]

theorem placeOrder_placed (hnew : Unfilled order.orderId order.tradeSide order)
    (hunborn : life e.core order.orderId = unborn) :
    Placed e (placeOrder e order key answer).1 order := by
  obtain ⟨r, hr, hacked⟩ := acked_moves e order hunborn
  have hpending : Unfilled order.orderId order.tradeSide
      { order with state := OrderState.pendingAck } :=
    ⟨rfl, rfl, hnew.filled, hnew.fills⟩
  unfold placeOrder
  simp only [hr]
  by_cases hprice : order.orderType = .market ∧ order.price ≤ 0
  · rw [if_pos hprice]
    exact rejected_placed e _ order _ _ _ _ hpending rfl hacked
  rw [if_neg hprice]
  by_cases hzero : order.originalQuantity ≤ 0
  · rw [if_pos hzero]
    exact rejected_placed e _ order _ _ _ _ hpending rfl hacked
  rw [if_neg hzero]
  have hsizing := tryReserveMargin_sizing (setCore e (setRegistry e.core r))
    { order with state := OrderState.pendingAck }
  generalize tryReserveMargin (setCore e (setRegistry e.core r))
    { order with state := OrderState.pendingAck } = out at hsizing ⊢
  obtain ⟨p, sized, ok⟩ := out
  obtain ⟨qty, hqty⟩ := hsizing.sized
  have hsized : Unfilled order.orderId order.tradeSide sized := by
    rw [show sized = _ from hqty]
    exact ⟨rfl, rfl, hnew.filled, hnew.fills⟩
  have hstate : sized.state = .pendingAck := by rw [show sized = _ from hqty]
  cases ok with
  | false =>
    have hp : p = e.core.portfolio := hsizing.refused rfl
    subst hp
    exact rejected_placed e _ order sized _ _ _ hsized hstate hacked
  | true =>
    have hres : p.pendingOrders.lookup order.orderId ≠ none →
        requiresMarginReserve sized = true := by
      intro hne
      by_contra hexempt
      rw [Bool.not_eq_true] at hexempt
      have hp : p = e.core.portfolio := hsizing.exempt (by
        rw [show sized = _ from hqty] at hexempt
        exact hexempt)
      have hnone : (life e.core order.orderId).reserved = none := by rw [hunborn]; rfl
      rw [hp] at hne
      exact hne hnone
    exact submitted_placed e r p order sized key answer hsized hstate hacked hsizing.others hres

def newId (e : Engine F) : OrderId := clientOrderId e.sessionPrefix e.nextSeq

/-- An execution ends early, and no life changes, or it places an order under
the next id. -/
theorem execute_cases (intent : TradeIntent F) (risk : RiskDecision F)
    (alpha : ExecutionAlphaResult F) (uncertainty : UncertaintyLevel) (answer : SubmitAnswer F)
    (hunborn : life e.core (newId e) = unborn) :
    (∃ c, (execute e intent risk alpha uncertainty answer).1 = setCore e c ∧
      life c = life e.core) ∨
    ∃ c order, life c = life e.core ∧ order.orderId = newId e ∧
      Placed { setCore e c with nextSeq := e.nextSeq + 1 }
        (execute e intent risk alpha uncertainty answer).1 order := by
  unfold execute
  cases validateInputs risk alpha uncertainty with
  | error err => exact .inl ⟨e.core, rfl, rfl⟩
  | ok _ =>
    dsimp only
    by_cases hdup : isDuplicateIntent (cleanupOldIntents e.core.registry e.core.clock
        e.config.dedupWindowMs) (intentDedupKey intent) = true
    · simp only [setCore, setRegistry, hdup, if_true]
      exact .inl ⟨_, rfl, rfl⟩
    · simp only [setCore, setRegistry, hdup, Bool.false_eq_true, if_false]
      by_cases hplan : (plan e.config intent risk alpha (marketContext intent alpha)).action =
          .noAction
      · rw [if_pos hplan]
        exact .inl ⟨_, rfl, rfl⟩
      · rw [if_neg hplan]
        refine .inr ⟨setRegistry e.core (cleanupOldIntents e.core.registry e.core.clock
          e.config.dedupWindowMs), createOrderRecord e intent risk
          (plan e.config intent risk alpha (marketContext intent alpha)), rfl, rfl, ?_⟩
        exact placeOrder_placed _ _ _ _ ⟨rfl, rfl, rfl, rfl⟩ hunborn

end Placement

section Soundness

omit [DoubleArith F] in
theorem clientOrderId_injective (sessionPrefix : String) (j k : ℕ)
    (h : clientOrderId sessionPrefix j = clientOrderId sessionPrefix k) : j = k := by
  unfold clientOrderId at h
  have hdigits : j.repr.toList = k.repr.toList :=
    congrArg String.toList ((String.append_right_inj _).mp h)
  rw [Nat.toList_repr, Nat.toList_repr] at hdigits
  have hvalue := congrArg (fun ds => Nat.ofDigitChars 10 ds 0) hdigits
  simpa only [Nat.ofDigitChars_toDigits (b := 10) (by omega) (by omega)] using hvalue

structure Sound (e : Engine F) : Prop where
  own : AllOwn e.core
  fresh : ∀ k, e.nextSeq ≤ k → life e.core (clientOrderId e.sessionPrefix k) = unborn
  issued : ∀ a ∈ e.awaiting, ∃ k < e.nextSeq, a.order.orderId = clientOrderId e.sessionPrefix k
  side : ∀ a ∈ e.awaiting, ∀ order, (life e.core a.order.orderId).record = some order →
    order.tradeSide = a.order.tradeSide

theorem init_life (p : Portfolio F) (clock : Clock) (config : ExecutionConfig F)
    (sessionPrefix : String) (hp : p.pendingOrders = ∅) (id : OrderId) :
    life (initEngine p clock config sessionPrefix).core id = unborn := by
  simp [life, initEngine, emptyRegistry, hp, unborn, isFillApplied]

theorem init_sound (p : Portfolio F) (clock : Clock) (config : ExecutionConfig F)
    (sessionPrefix : String) (hp : p.pendingOrders = ∅) :
    Sound (initEngine p clock config sessionPrefix) := by
  have hunborn := init_life p clock config sessionPrefix hp
  refine ⟨?_, fun k _ => hunborn _, fun a ha => absurd ha (by simp [initEngine]),
    fun a ha => absurd ha (by simp [initEngine])⟩
  intro id order h
  rw [hunborn] at h
  exact absurd h (by simp [unborn])

variable (clock : Clock)

omit [DoubleArith F] in
theorem tryMove_unborn (target : OrderState) (reason : String) :
    tryMove clock target reason (unborn : Life F) = unborn := rfl

omit [DoubleArith F] in
theorem releaseFor_unborn (order : OrderRecord F) :
    releaseFor order (unborn : Life F) = unborn := by
  unfold releaseFor
  split_ifs <;> rfl

theorem marketFill_unborn (qty price : F) (ex : OrderId) :
    marketFill clock qty price ex (unborn : Life F) = unborn := by
  unfold marketFill
  split_ifs <;> rfl

theorem lifeStep_unborn (op : LifeOp F) : lifeStep clock (unborn : Life F) op = unborn := by
  cases op with
  | confirmed a answer =>
    simp only [lifeStep, confirmation, tryMove_unborn, releaseFor_unborn, marketFill_unborn]
    split_ifs <;> rfl
  | skip | updated | traded | cancel | expire | reconcile => rfl

variable (e : Engine F)

omit [DoubleArith F] in
theorem setCore_ids (c : ExecutionCore F) :
    (setCore e c).nextSeq = e.nextSeq ∧ (setCore e c).sessionPrefix = e.sessionPrefix ∧
      ∀ a ∈ (setCore e c).awaiting, a ∈ e.awaiting :=
  ⟨rfl, rfl, fun _ ha => ha⟩

variable (op : EngineOp F)

theorem engineStep_ids (hop : isExecution op = false) : (engineStep e op).nextSeq = e.nextSeq ∧
      (engineStep e op).sessionPrefix = e.sessionPrefix ∧
      ∀ a ∈ (engineStep e op).awaiting, a ∈ e.awaiting := by
  cases op with
  | execute => exact absurd hop (by simp [isExecution])
  | confirm x answer =>
    simp only [engineStep, confirm]
    cases e.awaiting.find? (awaits x) with
    | none => exact ⟨rfl, rfl, fun a ha => ha⟩
    | some a => exact ⟨rfl, rfl, fun b hb => List.mem_of_mem_eraseP hb⟩
  | onOrderUpdate | onFillEvent | cancel | cancelAllForSymbol | cancelAll | cancelTimedOutOrders
  | cleanupTerminalOrders | runReconciliation | advanceClock => exact setCore_ids e _
  | isDuplicate | setLeverage | setMinNotionalUsdt | setDefaultFillPolicy =>
    exact ⟨rfl, rfl, fun a ha => ha⟩

omit [DoubleArith F] in
theorem setCore_sound (c : ExecutionCore F) (h : Sound e)
    (hlives : life c = life e.core) : Sound (setCore e c) := by
  constructor
  · intro id
    show OwnId id (life c id)
    rw [hlives]
    exact h.own id
  · intro k hk
    show life c _ = unborn
    rw [hlives]
    exact h.fresh k hk
  · exact h.issued
  · intro a ha order hrec
    have hrec' : (life c a.order.orderId).record = some order := hrec
    rw [hlives] at hrec'
    exact h.side a ha order hrec'

theorem placed_sound (e e' : Engine F) (order : OrderRecord F) (h : Sound e)
    (hid : order.orderId = newId e)
    (hplaced : Placed { e with nextSeq := e.nextSeq + 1 } e' order) : Sound e' := by
  obtain ⟨l, hlives, hborn⟩ := hplaced.lives
  obtain ⟨born, fsm, hrec, -, hunfilled, -, -⟩ := hborn.placed
  have hseq : e'.nextSeq = e.nextSeq + 1 := hplaced.nextSeq
  have hsession : e'.sessionPrefix = e.sessionPrefix := hplaced.sessionPrefix
  have hlives' : life e'.core = Function.update (life e.core) order.orderId l := hlives
  have hother : ∀ k, k ≠ e.nextSeq → clientOrderId e.sessionPrefix k ≠ order.orderId := by
    intro k hk heq
    rw [hid] at heq
    exact hk (clientOrderId_injective _ _ _ heq)
  have hold : ∀ a ∈ e.awaiting, a.order.orderId ≠ order.orderId := by
    intro a ha
    obtain ⟨k, hk, hak⟩ := h.issued a ha
    rw [hak]
    exact hother k (by omega)
  have hmem : ∀ a ∈ e'.awaiting, a ∈ e.awaiting ∨
      (a.order.orderId = order.orderId ∧ a.order.tradeSide = order.tradeSide) := by
    intro a ha
    rcases hplaced.awaiting with hsame | ⟨b, happ, hb⟩
    · rw [hsame] at ha
      exact .inl ha
    · rw [happ, List.mem_append, List.mem_singleton] at ha
      rcases ha with ha | rfl
      · exact .inl ha
      · exact .inr hb
  constructor
  · intro id
    by_cases hi : id = order.orderId
    · subst hi
      rw [hlives', Function.update_self]
      intro o ho
      rw [hrec, Option.some.injEq] at ho
      rw [← ho]
      exact hunfilled.orderId
    · rw [hlives', Function.update_of_ne hi]
      exact h.own id
  · intro k hk
    rw [hsession, hlives', Function.update_of_ne (hother k (by omega))]
    exact h.fresh k (by omega)
  · intro a ha
    rw [hseq, hsession]
    rcases hmem a ha with ha | ⟨ha, -⟩
    · obtain ⟨k, hk, hak⟩ := h.issued a ha
      exact ⟨k, by omega, hak⟩
    · exact ⟨e.nextSeq, by omega, ha.trans hid⟩
  · intro a ha o ho
    rcases hmem a ha with ha | ⟨haid, haside⟩
    · rw [hlives', Function.update_of_ne (hold a ha)] at ho
      exact h.side a ha o ho
    · rw [hlives', haid, Function.update_self, hrec, Option.some.injEq] at ho
      rw [← ho, haside]
      exact hunfilled.tradeSide

theorem step_cases (h : Sound e) : isExecution op = false ∨ (opOn e op = fun _ => .skip) ∧
    ((∃ c, engineStep e op = setCore e c ∧ life c = life e.core) ∨
      ∃ c order, life c = life e.core ∧ order.orderId = newId e ∧
        Placed { setCore e c with nextSeq := e.nextSeq + 1 } (engineStep e op) order) := by
  cases op with
  | execute intent risk alpha uncertainty answer =>
    exact .inr ⟨rfl, execute_cases e intent risk alpha uncertainty answer (h.fresh _ le_rfl)⟩
  | _ => exact .inl rfl

theorem step_sound (h : Sound e) : Sound (engineStep e op) := by
  rcases step_cases e op h with hop | ⟨-, ⟨c, hc, hlives⟩ | ⟨c, order, hlives, hid, hplaced⟩⟩
  · obtain ⟨hseq, hsession, hawait⟩ := engineStep_ids e op hop
    have hlives := fun id => engineStep_lives e op id h.own hop
    have hsame : ∀ id, SameOrder (life e.core id) (life (engineStep e op).core id) := by
      intro id
      rw [hlives id]
      exact same_lifeStep _ _ _
    constructor
    · exact own_of_lives _ _ h.own hsame
    · intro k hk
      rw [hseq] at hk
      rw [hsession, hlives, h.fresh k hk, lifeStep_unborn]
    · intro a ha
      rw [hseq, hsession]
      exact h.issued a (hawait a ha)
    · intro a ha order' hrec'
      obtain ⟨order, hrec, -, hside⟩ := hsame a.order.orderId order' hrec'
      exact hside.trans (h.side a (hawait a ha) order hrec)
  · rw [hc]
    exact setCore_sound e c h hlives
  · exact placed_sound (setCore e c) _ order (setCore_sound e c h hlives) hid hplaced

/-- What any operation does to any life of a sound engine: a step of the
order's machine, or a birth under the next id. -/
theorem step_life_at (h : Sound e) (id : OrderId) :
    life (engineStep e op).core id = lifeStep e.core.clock (life e.core id) (opOn e op id) ∨
      id = newId e ∧ life e.core id = unborn ∧
        ∃ side, Born id side (life (engineStep e op).core id) := by
  rcases step_cases e op h with hop | ⟨hskip, ⟨c, hc, hlives⟩ | ⟨c, order, hlives, hid, hplaced⟩⟩
  · exact .inl (engineStep_lives e op id h.own hop)
  · left
    rw [hc, hskip]
    exact congrFun hlives id
  · obtain ⟨l, hl, hborn⟩ := hplaced.lives
    have hl' : life (engineStep e op).core = Function.update (life c) order.orderId l := hl
    by_cases hi : id = order.orderId
    · subst hi
      right
      rw [hl', Function.update_self]
      exact ⟨hid, hid ▸ h.fresh _ le_rfl, _, hborn⟩
    · left
      rw [hl', Function.update_of_ne hi, hlives, hskip]
      rfl

theorem step_life (h : Sound e) (id : OrderId) :
    life (engineStep e op).core id = lifeStep e.core.clock (life e.core id) (opOn e op id) ∨
      life e.core id = unborn ∧ ∃ side, Born id side (life (engineStep e op).core id) :=
  (step_life_at e op h id).imp_right And.right

theorem step_ids (h : Sound e) :
    (engineStep e op).sessionPrefix = e.sessionPrefix ∧ e.nextSeq ≤ (engineStep e op).nextSeq := by
  rcases step_cases e op h with hop | ⟨-, ⟨c, hc, -⟩ | ⟨c, order, -, -, hplaced⟩⟩
  · obtain ⟨hseq, hsession, -⟩ := engineStep_ids e op hop
    exact ⟨hsession, hseq.ge⟩
  · rw [hc]
    exact ⟨rfl, le_rfl⟩
  · exact ⟨hplaced.sessionPrefix, (Nat.le_succ _).trans_eq hplaced.nextSeq.symm⟩

def seen (id : OrderId) : Engine F → List (EngineOp F) → List (Clock × LifeOp F)
  | _, [] => []
  | e, op :: ops => (e.core.clock, opOn e op id) :: seen id (engineStep e op) ops

/-- A run of the engine is, for each order it has issued, a run of the order's own machine
over the steps that the order sees; the other orders do not matter. -/
theorem run_lives (p : Portfolio F) (clock : Clock) (config : ExecutionConfig F)
    (sessionPrefix : String) (hp : p.pendingOrders = ∅) (before ops : List (EngineOp F)) (k : ℕ) :
    let e := Runs.run engineStep (initEngine p clock config sessionPrefix) before
    let id := clientOrderId e.sessionPrefix k
    k < e.nextSeq → life (Runs.run engineStep e ops).core id =
      (seen id e ops).foldl (fun l x => lifeStep x.1 l x.2) (life e.core id) := by
  have h : Sound (Runs.run engineStep (initEngine p clock config sessionPrefix) before) :=
    Runs.invariant_run engineStep (fun d op hd _ => step_sound d op hd) _ _
      (init_sound p clock config sessionPrefix hp) (Runs.meets_true _ _ _)
  generalize Runs.run engineStep (initEngine p clock config sessionPrefix) before = e at h ⊢
  dsimp only
  intro hk
  induction ops generalizing e with
  | nil => rfl
  | cons op ops ih =>
    obtain ⟨hsession, hseq⟩ := step_ids e op h
    have hrest := ih (engineStep e op) (step_sound e op h) (hk.trans_le hseq)
    rw [hsession] at hrest
    rw [Runs.run, hrest, seen, List.foldl_cons]
    congr 1
    rcases step_life_at e op h (clientOrderId e.sessionPrefix k) with hstep | ⟨hid, -⟩
    · exact hstep
    · exact absurd (clientOrderId_injective _ _ _ hid) hk.ne

omit [DoubleArith F] in
/-- The confirmation of an order is about the side its record has. -/
theorem confirmed_side (h : Sound e) (id : OrderId) (a : AwaitingFill F)
    (hfind : e.awaiting.find? (awaits id) = some a) (order : OrderRecord F)
    (hrec : (life e.core id).record = some order) : order.tradeSide = a.order.tradeSide := by
  have hid : a.order.orderId = id := by
    simpa [awaits] using List.find?_some hfind
  apply h.side a (List.mem_of_find?_eq_some hfind) order
  rw [hid]
  exact hrec

section Induction
variable {P : Life F → Prop} {C : Engine F → EngineOp F → Prop}

/-- A property of lives that births have and steps keep is kept by every
operation. -/
theorem lives_step (hborn : ∀ id side l, Born id side l → P l)
    (hstep : ∀ e op id, Sound e → C e op → P (life e.core id) →
      P (lifeStep e.core.clock (life e.core id) (opOn e op id)))
    (e : Engine F) (op : EngineOp F) (h : Sound e ∧ ∀ id, P (life e.core id)) (hc : C e op) :
    Sound (engineStep e op) ∧ ∀ id, P (life (engineStep e op).core id) := by
  refine ⟨step_sound e op h.1, fun id => ?_⟩
  rcases step_life e op h.1 id with hstep' | ⟨-, side, hb⟩
  · rw [hstep']
    exact hstep e op id h.1 hc (h.2 id)
  · exact hborn id side _ hb

theorem always_lives (hborn : ∀ id side l, Born id side l → P l)
    (hstep : ∀ e op id, Sound e → C e op → P (life e.core id) →
      P (lifeStep e.core.clock (life e.core id) (opOn e op id)))
    (e : Engine F) (ops : List (EngineOp F)) (hsound : Sound e) (h0 : ∀ id, P (life e.core id))
    (hc : Runs.Meets engineStep C e ops) :
    Runs.Always engineStep (fun e => Sound e ∧ ∀ id, P (life e.core id)) e ops :=
  Runs.always_of_meets engineStep (fun d op => lives_step hborn hstep d op) e ops ⟨hsound, h0⟩ hc

end Induction

end Soundness

section Session

def startEngine : Engine ℚ := initEngine (initPortfolio 1000) ⟨0, 0, 0⟩ defaultConfig "1"

def entryIntent : TradeIntent ℚ where
  strategyId := "s"
  symbol := "BTCUSDT"
  side := .buy
  positionSide := .long
  tradeSide := .opening
  signalIntent := .longEntry
  exitReason := .none
  correlationId := "c"
  limitPrice := none
  snapshotMidPrice := some 100
  takeProfitPrice := none
  stopLossPrice := none

def enter (style : ExecutionStyle) : EngineOp ℚ :=
  .execute entryIntent ⟨.approved, 1⟩ ⟨true, style, 0, none, 1⟩ .low
    (.returned ⟨true, "9001", "", 1⟩ ⟨0, 0, 0⟩)

def entered : Engine ℚ := engineStep startEngine (enter .passive)

theorem run_lives_entered :
    life (Runs.run engineStep entered [enter .passive]).core
        (clientOrderId entered.sessionPrefix 1) =
      (seen (clientOrderId entered.sessionPrefix 1) entered [enter .passive]).foldl
        (fun l x => lifeStep x.1 l x.2) (life entered.core (clientOrderId entered.sessionPrefix 1)) :=
  run_lives (initPortfolio 1000) ⟨0, 0, 0⟩ defaultConfig "1" rfl [enter .passive] [enter .passive] 1
    (by decide +kernel)

end Session

end TB.EngineBirths
