import TomorrowBot.OrderLife
import TomorrowBot.PortfolioLedger
import Mathlib.Logic.Function.Basic

/-!
# The engine as a family of lives

Each operation of the engine moves the life of the order it names by the
machine of that order and leaves every other life as it was. The lemmas go
from the registry's primitives to the operations.
-/

set_option autoImplicit false

namespace TB.EngineLives
open TB.CommonTypes TB.PortfolioEngine TB.PortfolioLedger TB.OrderTypes TB.Orders
open TB.FillProcessor TB.CancelManager TB.ExecutionEngine TB.OrderLife

variable {F : Type}

def OwnId (id : OrderId) (l : Life F) : Prop := ∀ order, l.record = some order → order.orderId = id

theorem own_same {id : OrderId} {l m : Life F} (hl : OwnId id l) (h : SameOrder l m) :
    OwnId id m := by
  intro order' ho
  obtain ⟨order, hrec, hid, -⟩ := h order' ho
  exact hid.trans (hl order hrec)

structure Moves (c d : ExecutionCore F) (id : OrderId) (l : Life F) : Prop where
  clock : d.clock = c.clock
  lives : life d = Function.update (life c) id l

theorem Moves.at_id {c d : ExecutionCore F} {id : OrderId} {l : Life F} (h : Moves c d id l) :
    life d id = l := by
  rw [h.lives, Function.update_self]

theorem Moves.then {c d e : ExecutionCore F} {id : OrderId} {l m : Life F} (h : Moves c d id l)
    (k : Moves d e id m) : Moves c e id m where
  clock := k.clock.trans h.clock
  lives := by rw [k.lives, h.lives, Function.update_idem]

theorem Moves.next {c d e : ExecutionCore F} {id : OrderId} {l : Life F}
    (g : Life F → Life F) (h : Moves c d id l) (k : Moves d e id (g (life d id))) :
    Moves c e id (g l) := by
  rw [h.at_id] at k
  exact h.then k

theorem moves_refl (c : ExecutionCore F) (id : OrderId) : Moves c c id (life c id) where
  clock := rfl
  lives := (Function.update_eq_self id (life c)).symm

theorem moves_of_lives (c d : ExecutionCore F) (id : OrderId) (l : Life F)
    (hc : d.clock = c.clock) (hat : life d id = l) (hne : ∀ j, j ≠ id → life d j = life c j) :
    Moves c d id l where
  clock := hc
  lives := by
    funext j
    by_cases h : j = id
    · subst h
      rw [hat, Function.update_self]
    · rw [hne j h, Function.update_of_ne h]

theorem transition_refused (c : ExecutionCore F) (id : OrderId) (target : OrderState)
    (reason : String) (h : move c.clock target reason (life c id) = none) :
    transition c.registry c.clock id target reason = (c.registry, false) := by
  unfold transition
  cases hf : c.registry.fsms.lookup id with
  | none => rfl
  | some fsm =>
    simp only [move, life, hf, Option.bind_some, Option.map_eq_none_iff] at h
    simp only [h]

theorem transition_moved (c : ExecutionCore F) (id : OrderId) (target : OrderState)
    (reason : String) (l : Life F) (h : move c.clock target reason (life c id) = some l) :
    ∃ r, transition c.registry c.clock id target reason = (r, true) ∧
      Moves c (setRegistry c r) id l := by
  unfold transition
  cases hf : c.registry.fsms.lookup id with
  | none =>
    simp only [move, life, hf, Option.bind_none] at h
    exact absurd h (by simp)
  | some fsm =>
    simp only [move, life, hf, Option.bind_some, Option.map_eq_some_iff] at h
    obtain ⟨fsm', hfsm, rfl⟩ := h
    simp only [hfsm]
    refine ⟨_, rfl, ?_⟩
    apply moves_of_lives
    · rfl
    · simp only [life, setRegistry, Keyed.lookup_modify_self, AList.lookup_insert]
      rfl
    · intro j hj
      simp only [life, setRegistry, Keyed.lookup_modify_ne _ _ _ _ hj, AList.lookup_insert_ne hj]
      rfl

theorem transition_tried (c : ExecutionCore F) (id : OrderId) (target : OrderState)
    (reason : String) :
    Moves c (setRegistry c (transition c.registry c.clock id target reason).1) id
      (tryMove c.clock target reason (life c id)) := by
  unfold tryMove
  cases h : move c.clock target reason (life c id) with
  | none =>
    rw [transition_refused c id target reason h]
    exact moves_refl c id
  | some l =>
    obtain ⟨r, hr, hm⟩ := transition_moved c id target reason l h
    rw [hr]
    exact hm

theorem force_moves (c : ExecutionCore F) (id : OrderId) (target : OrderState)
    (reason : String) :
    Moves c (setRegistry c (forceTransition c.registry c.clock id target reason)) id
      (force c.clock target reason (life c id)) := by
  unfold forceTransition
  cases hf : c.registry.fsms.lookup id with
  | none =>
    have hl : force c.clock target reason (life c id) = life c id := by
      simp [force, life, hf]
    rw [hl]
    exact moves_refl c id
  | some fsm =>
    apply moves_of_lives
    · rfl
    · simp [life, setRegistry, Keyed.lookup_modify_self, force, hf, isFillApplied]
    · intro j hj
      simp [life, setRegistry, Keyed.lookup_modify_ne _ _ _ _ hj, AList.lookup_insert_ne hj, hj,
        isFillApplied]

theorem update_moves (c : ExecutionCore F) (order : OrderRecord F) (id : OrderId)
    (hid : order.orderId = id) :
    Moves c (setRegistry c (updateOrder c.registry order)) id (put order (life c id)) := by
  subst hid
  unfold updateOrder
  by_cases h : order.orderId ∈ c.registry.orders
  · rw [if_pos h]
    obtain ⟨found, hfound⟩ := (Keyed.mem_iff_lookup _ _).mp h
    apply moves_of_lives
    · rfl
    · simp only [life, setRegistry, put, hfound, AList.lookup_insert, Option.map_some]
      rfl
    · intro j hj
      simp only [life, setRegistry, AList.lookup_insert_ne hj]
      rfl
  · rw [if_neg h]
    have hnone : c.registry.orders.lookup order.orderId = none := AList.lookup_eq_none.mpr h
    have hput : put order (life c order.orderId) = life c order.orderId := by
      simp [put, life, hnone]
    rw [hput]
    exact moves_refl c order.orderId

theorem mark_moves (c : ExecutionCore F) (id : OrderId) :
    Moves c (setRegistry c (markFillApplied c.registry id)) id (mark (life c id)) := by
  apply moves_of_lives
  · rfl
  · simp [life, setRegistry, markFillApplied, mark, isFillApplied]
  · intro j hj
    simp [life, setRegistry, markFillApplied, hj, isFillApplied]

def AllOwn (c : ExecutionCore F) : Prop := ∀ id, OwnId id (life c id)

theorem allOwn_moves {c d : ExecutionCore F} {id : OrderId} {l : Life F} (h : Moves c d id l)
    (hown : AllOwn c) (hsame : SameOrder (life c id) l) : AllOwn d := by
  intro j
  rw [h.lives]
  by_cases hj : j = id
  · subst hj
    rw [Function.update_self]
    exact own_same (hown j) hsame
  · rw [Function.update_of_ne hj]
    exact hown j

/-- An id that resolves names a record stored under the effective id; an
exchange id is not the id of a record. -/
theorem resolve_some (c : ExecutionCore F) (hown : AllOwn c) (x id : OrderId)
    (order : OrderRecord F) (h : resolveOrder c.registry x = some (id, order)) :
    (life c id).record = some order ∧ (x ≠ id → (life c x).record = none) := by
  unfold resolveOrder at h
  cases hget : getOrder c.registry x with
  | some found =>
    simp only [hget, Option.some.injEq, Prod.mk.injEq] at h
    obtain ⟨rfl, rfl⟩ := h
    exact ⟨hget, fun hne => absurd rfl hne⟩
  | none =>
    simp only [hget, Option.map_eq_some_iff, Prod.mk.injEq] at h
    obtain ⟨found, hfound, rfl, rfl⟩ := h
    unfold getOrderByExchangeId at hfound
    obtain ⟨inner, -, hinner⟩ := Option.bind_eq_some_iff.mp hfound
    have hid : found.orderId = inner := hown inner found hinner
    rw [hid]
    exact ⟨hinner, fun _ => hget⟩

theorem resolve_self (c : ExecutionCore F) (id : OrderId) (order : OrderRecord F)
    (h : (life c id).record = some order) : resolveOrder c.registry id = some (id, order) := by
  have hget : getOrder c.registry id = some order := h
  simp only [resolveOrder, hget]

variable [DoubleArith F]

theorem releaseCash_lookup_self (p : Portfolio F) (id : OrderId) :
    (releaseCash p id).pendingOrders.lookup id = none := by
  unfold releaseCash
  cases h : p.pendingOrders.lookup id with
  | none => exact h
  | some info => exact AList.lookup_erase _ _

theorem releaseCash_lookup_ne (p : Portfolio F) (j id : OrderId) (h : j ≠ id) :
    (releaseCash p id).pendingOrders.lookup j = p.pendingOrders.lookup j := by
  unfold releaseCash
  cases p.pendingOrders.lookup id with
  | none => rfl
  | some info => exact AList.lookup_erase_ne h

variable (c : ExecutionCore F) (id : OrderId)

theorem release_moves : Moves c (releasePortfolio c id) id (release (life c id)) := by
  apply moves_of_lives
  · rfl
  · simp [life, releasePortfolio, release, releaseCash_lookup_self]
  · intro j hj
    simp [life, releasePortfolio, releaseCash_lookup_ne _ _ _ hj]

variable (order : OrderRecord F)

theorem releaseGuard_moves (id : OrderId) (hid : order.orderId = id) :
    Moves c (releaseGuard c order) id (releaseFor order (life c id)) := by
  subst hid
  unfold releaseGuard releaseFor
  split_ifs
  · exact release_moves c order.orderId
  · exact moves_refl c order.orderId

theorem applyToPortfolio_pending (p : Portfolio F) (now : Timestamp) (order : OrderRecord F)
    (qty price pnl : F) :
    (applyToPortfolio p now order qty price pnl).pendingOrders =
      match order.tradeSide with
      | .closing => p.pendingOrders
      | .opening => (releaseCash (openPosition p now (openingPosition now order qty price))
          order.orderId).pendingOrders := by
  unfold applyToPortfolio
  cases order.tradeSide with
  | opening => rfl
  | closing =>
    simp only [recordFee, reducePositionSide]
    cases p.positions.lookup (makePosKey order.symbol order.positionSide) with
    | none => rfl
    | some pos => exact reduceLeg_pending p now _ pos qty price pnl

/-- Handing a quantity to the portfolio, whatever result it books. -/
theorem hand_moves (id : OrderId) (hid : order.orderId = id) (qty price pnl : F) :
    Moves c { c with
        portfolio := applyToPortfolio c.portfolio c.clock.now order qty price pnl
        passed := c.passed ++ [(order.orderId, qty)] } id (hand order qty (life c id)) := by
  subst hid
  apply moves_of_lives
  · rfl
  · simp only [life, hand, applyToPortfolio_pending]
    cases order.tradeSide with
    | opening => simp [releaseCash_lookup_self]
    | closing => simp
  · intro j hj
    have hj' : (order.orderId == j) = false := by
      simp [Ne.symm hj]
    simp only [life, applyToPortfolio_pending]
    cases order.tradeSide with
    | opening => simp [releaseCash_lookup_ne _ _ _ hj, hj']
    | closing => simp [hj']

theorem applyFill_moves (id : OrderId) (hid : order.orderId = id) :
    Moves c (applyFillToPortfolio c order) id (hand order order.filledQuantity (life c id)) :=
  hand_moves c order id hid order.filledQuantity order.avgFillPrice
    (computeGrossPnl c.portfolio order)

theorem processMarketFill_moves (qty price : F) (ex : OrderId) (hown : OwnId id (life c id)) :
    Moves c (processMarketFill c id qty price ex).1 id
      (marketFill c.clock qty price ex (life c id)) := by
  have happlied : (life c id).applied = isFillApplied c.registry id := rfl
  unfold processMarketFill marketFill
  rw [happlied]
  split_ifs
  · exact moves_refl c id
  · exact moves_refl c id
  · exact moves_refl c id
  · cases hrec : (life c id).record with
    | none =>
      have hget : getOrder c.registry id = none := hrec
      rw [hget]
      exact moves_refl c id
    | some found =>
      have hget : getOrder c.registry id = some found := hrec
      rw [hget]
      cases hmove : move c.clock .filled "Market order filled" (life c id) with
      | none =>
        simp only [transition_refused c id _ _ hmove]
        exact moves_refl c id
      | some moved =>
        obtain ⟨r, hr, hm⟩ := transition_moved c id _ _ moved hmove
        have hid : (marketFilled found c.clock.now qty price ex).orderId = id := hown found hrec
        simp only [hr]
        have hput := hm.next (put _) (update_moves _ (marketFilled found c.clock.now qty price ex)
          id hid)
        have hhand := hput.next (hand (marketFilled found c.clock.now qty price ex) qty)
          (applyFill_moves _ (marketFilled found c.clock.now qty price ex) id hid)
        exact hhand.next mark (mark_moves _ id)

variable (fill : FillEvent F)

theorem acceptFill_moves (hid : order.orderId = id) :
    Moves c (acceptFill c id order fill) id (trade c.clock order fill (life c id)) := by
  have hupd : (fillRecord order c.clock.now fill).orderId = id := hid
  have hmove := transition_tried c id (fillRecord order c.clock.now fill).state
    (fillReason order (fillRecord order c.clock.now fill).filledQuantity)
  have hput := hmove.next (put (fillRecord order c.clock.now fill)) (update_moves _ _ id hupd)
  have hhand : Moves c (if 0 < fill.fillQuantity then
      applyIncrementalFill (setRegistry c (updateOrder (transition c.registry c.clock id
        (fillRecord order c.clock.now fill).state
        (fillReason order (fillRecord order c.clock.now fill).filledQuantity)).1
        (fillRecord order c.clock.now fill))) (fillRecord order c.clock.now fill) fill
      else setRegistry c (updateOrder (transition c.registry c.clock id
        (fillRecord order c.clock.now fill).state
        (fillReason order (fillRecord order c.clock.now fill).filledQuantity)).1
        (fillRecord order c.clock.now fill))) id
      (if 0 < fill.fillQuantity then
        if fill.fillPrice ≤ 0 then put (fillRecord order c.clock.now fill)
            (tryMove c.clock (fillRecord order c.clock.now fill).state
              (fillReason order (fillRecord order c.clock.now fill).filledQuantity) (life c id))
        else hand (fillRecord order c.clock.now fill) fill.fillQuantity
          (put (fillRecord order c.clock.now fill)
            (tryMove c.clock (fillRecord order c.clock.now fill).state
              (fillReason order (fillRecord order c.clock.now fill).filledQuantity) (life c id)))
      else put (fillRecord order c.clock.now fill)
            (tryMove c.clock (fillRecord order c.clock.now fill).state
              (fillReason order (fillRecord order c.clock.now fill).filledQuantity)
              (life c id))) := by
    unfold applyIncrementalFill
    split_ifs
    · exact hput
    · exact hput.next (hand _ _) (hand_moves _ _ id hupd _ _ _)
    · exact hput
  exact hhand.next mark (mark_moves _ id)

theorem processOrderFill_moves (qty price : F) (hown : OwnId id (life c id)) :
    Moves c (processOrderFill c id qty price).1 id (report c.clock qty price (life c id)) := by
  unfold processOrderFill report
  cases hrec : (life c id).record with
  | none =>
    have hget : getOrder c.registry id = none := hrec
    rw [hget]
    exact moves_refl c id
  | some found =>
    have hget : getOrder c.registry id = some found := hrec
    have happlied : (life c id).applied = isFillApplied c.registry id := rfl
    rw [hget, happlied]
    dsimp only
    have hid : (reconciledRecord found c.clock.now (isFillApplied c.registry id) qty
        price).orderId = id := hown found hrec
    have hput := update_moves c _ id hid
    split_ifs
    · have hmark := hput.next mark (mark_moves _ id)
      exact hmark.next (hand _ _) (applyFill_moves _ _ id hid)
    · exact hput

theorem doCancel_moves (confirmed : Bool) (id : OrderId) (hown : OwnId id (life c id)) :
    Moves c (doCancel c confirmed id).1 id (cancel c.clock confirmed (life c id)) := by
  unfold doCancel cancel
  cases hrec : (life c id).record with
  | none =>
    have hget : getOrder c.registry id = none := hrec
    rw [hget]
    exact moves_refl c id
  | some order =>
    have hget : getOrder c.registry id = some order := hrec
    rw [hget]
    cases hmove : move c.clock .cancelPending "Cancel requested" (life c id) with
    | none =>
      simp only [transition_refused c id _ _ hmove]
      exact moves_refl c id
    | some pending =>
      obtain ⟨r, hr, hm⟩ := transition_moved c id _ _ pending hmove
      simp only [hr]
      cases confirmed with
      | true =>
        have htry := hm.next (tryMove c.clock .cancelled "Cancel confirmed")
          (transition_tried (setRegistry c r) id .cancelled "Cancel confirmed")
        exact htry.next (releaseFor order) (releaseGuard_moves _ order id (hown order hrec))
      | false =>
        exact hm.next (force c.clock .unknownRecovery _)
          (force_moves (setRegistry c r) id .unknownRecovery _)

variable (answers : OrderId → Bool)

theorem enforceCancelRemaining_moves (id : OrderId) (hown : OwnId id (life c id)) :
    Moves c (enforceCancelRemaining c answers id) id
      (remainder c.clock (answers id) (life c id)) := by
  unfold enforceCancelRemaining checkCancelRemaining remainder
  cases hrec : (life c id).record with
  | none =>
    have hget : getOrder c.registry id = none := hrec
    rw [hget]
    exact moves_refl c id
  | some order =>
    have hget : getOrder c.registry id = some order := hrec
    have hid : order.orderId = id := hown order hrec
    rw [hget]
    dsimp only
    unfold wantsRemainderCancelled
    by_cases hpolicy : order.executionInfo.fillPolicy = .cancelRemaining
    · by_cases hstate : order.state = .partiallyFilled
      · by_cases hrest : order.remainingQuantity ≤ 0
        · simp only [hpolicy, hstate, hrest, not_true, ne_eq, if_true, if_false, and_false]
          exact moves_refl c id
        · simp only [hpolicy, hstate, hrest, not_true, ne_eq, if_true, if_false,
            not_false_iff, and_self, hid, cancelRemaining, hget]
          exact doCancel_moves c (answers id) id hown
      · simp only [hpolicy, hstate, not_true, not_false_iff, ne_eq, if_true, if_false,
          false_and, and_false]
        exact moves_refl c id
    · simp only [hpolicy, not_false_iff, ne_eq, if_true, if_false, false_and]
      exact moves_refl c id

theorem releaseUnfilled_moves (newState : OrderState) :
    Moves c (releaseUnfilled c id order newState) id
      (if endsUnfilled newState then releaseFor order (life c id) else life c id) := by
  unfold releaseUnfilled releaseFor
  by_cases hend : endsUnfilled newState = true
  · by_cases hmargin : requiresMarginReserve order = true
    · rw [if_pos ⟨hend, hmargin⟩, if_pos hend, if_pos hmargin]
      exact release_moves c id
    · rw [if_neg (fun h => hmargin h.2), if_pos hend, if_neg hmargin]
      exact moves_refl c id
  · rw [if_neg (fun h => hend h.1), if_neg hend]
    exact moves_refl c id

/-- The policy looks for the order under the id the update came with. -/
theorem enforce_unknown (x : OrderId)
    (h : (life c x).record = none) : enforceCancelRemaining c answers x = c := by
  have hget : getOrder c.registry x = none := h
  simp only [enforceCancelRemaining, checkCancelRemaining, hget]

theorem onOrderUpdate_moves (hown : AllOwn c) (x id : OrderId)
    (order : OrderRecord F) (newState : OrderState) (qty price : F) (answers : OrderId → Bool)
    (h : resolveOrder c.registry x = some (id, order)) :
    Moves c (onOrderUpdate c x newState qty price answers) id
      (update c.clock newState qty price (decide (x = id)) (answers id) (life c id)) := by
  obtain ⟨hrec, hother⟩ := resolve_some c hown x id order h
  unfold onOrderUpdate update
  simp only [h, hrec]
  cases hmove : move c.clock newState "Exchange update" (life c id) with
  | none =>
    simp only [transition_refused c id _ _ hmove]
    exact moves_refl c id
  | some moved =>
    obtain ⟨r, hr, hm⟩ := transition_moved c id _ _ moved hmove
    simp only [hr]
    have hrel := hm.next (fun l => if endsUnfilled newState then releaseFor order l else l)
      (releaseUnfilled_moves (setRegistry c r) id order newState)
    have hsame : SameOrder (life c id)
        (if endsUnfilled newState then releaseFor order moved else moved) := by
      split_ifs
      · exact same_trans (same_moves.move hmove) (same_moves.releaseFor order moved)
      · exact same_moves.move hmove
    generalize releaseUnfilled (setRegistry c r) id order newState = d at hrel ⊢
    generalize (if endsUnfilled newState then releaseFor order moved else moved) = m
      at hrel hsame ⊢
    have hmown : OwnId id m := own_same (hown id) hsame
    by_cases hq : 0 < qty
    · simp only [if_pos hq]
      have hreport := hrel.next (report d.clock qty price)
        (processOrderFill_moves d id qty price (hrel.at_id ▸ hmown))
      rw [hrel.clock] at hreport
      by_cases hx : x = id
      · subst hx
        simp only [decide_true, if_true]
        have hrown : OwnId x (report c.clock qty price m) :=
          own_same hmown (same_steps.report _ _ _ _)
        have hrest := hreport.next (remainder _ (answers x))
          (enforceCancelRemaining_moves _ answers x (hreport.at_id ▸ hrown))
        rw [hreport.clock] at hrest
        exact hrest
      · simp only [hx, decide_false, Bool.false_eq_true, if_false]
        have hnone : (life (processOrderFill d id qty price).1 x).record = none := by
          rw [hreport.lives, Function.update_of_ne hx]
          exact hother hx
        rw [enforce_unknown _ answers x hnone]
        exact hreport
    · simp only [if_neg hq]
      exact hrel

theorem onOrderUpdate_unknown (x : OrderId) (newState : OrderState)
    (qty price : F) (answers : OrderId → Bool) (h : resolveOrder c.registry x = none) :
    onOrderUpdate c x newState qty price answers = c := by
  simp only [onOrderUpdate, h]

variable (r : OrderRegistry F)

omit [DoubleArith F] in
theorem checkAndMark_orders (tradeId : String) :
    (checkAndMarkTradeIdSeen r tradeId).1.orders = r.orders ∧
      (checkAndMarkTradeIdSeen r tradeId).1.fsms = r.fsms ∧
      (checkAndMarkTradeIdSeen r tradeId).1.fillApplied = r.fillApplied ∧
      (checkAndMarkTradeIdSeen r tradeId).1.exchangeIdIndex = r.exchangeIdIndex := by
  unfold checkAndMarkTradeIdSeen
  split_ifs
  · exact ⟨rfl, rfl, rfl, rfl⟩
  · exact ⟨rfl, rfl, rfl, rfl⟩

omit [DoubleArith F] in
theorem markTrade_lives :
    (markTrade c fill).1.clock = c.clock ∧ life (markTrade c fill).1 = life c ∧
      ∀ x, resolveOrder (markTrade c fill).1.registry x = resolveOrder c.registry x := by
  unfold markTrade
  split_ifs
  · exact ⟨rfl, rfl, fun _ => rfl⟩
  · obtain ⟨ho, hf, ha, hi⟩ := checkAndMark_orders c.registry fill.tradeId
    refine ⟨rfl, ?_, ?_⟩
    · funext j
      simp only [life, setRegistry, ho, hf, isFillApplied, ha]
    · intro x
      simp only [resolveOrder, getOrder, getOrderByExchangeId, setRegistry, ho, hi]

omit [DoubleArith F] in
theorem indexExchangeId_keeps (index : Dict OrderId) (order : OrderRecord F) (x : OrderId)
    (h : index.lookup x = some order.orderId) :
    (indexExchangeId index order).lookup x = some order.orderId := by
  unfold indexExchangeId
  split_ifs
  · by_cases hx : x = order.exchangeOrderId
    · subst hx
      exact AList.lookup_insert _
    · rw [AList.lookup_insert_ne hx]
      exact h
  · exact h

omit [DoubleArith F] in
theorem transition_index (clock : Clock) (id : OrderId) (target : OrderState) (reason : String) :
    (transition r clock id target reason).1.exchangeIdIndex = r.exchangeIdIndex := by
  unfold transition
  cases r.fsms.lookup id with
  | none => rfl
  | some fsm =>
    dsimp only
    cases OrderFsm.transition fsm clock target reason <;> rfl

omit [DoubleArith F] in
theorem updateOrder_index (order : OrderRecord F) (x : OrderId)
    (h : r.exchangeIdIndex.lookup x = some order.orderId) :
    (updateOrder r order).exchangeIdIndex.lookup x = some order.orderId := by
  unfold updateOrder
  split_ifs
  · exact indexExchangeId_keeps _ order x h
  · exact h

theorem acceptFill_index (id x : OrderId) (order : OrderRecord F)
    (fill : FillEvent F) (hid : order.orderId = id)
    (h : c.registry.exchangeIdIndex.lookup x = some id) :
    (acceptFill c id order fill).registry.exchangeIdIndex.lookup x = some id := by
  subst hid
  unfold acceptFill applyIncrementalFill
  dsimp only
  split_ifs
  all_goals
    refine updateOrder_index _ (fillRecord order c.clock.now fill) x ?_
    rw [transition_index]
    exact h

omit [DoubleArith F] in
theorem index_of_resolve (hown : AllOwn c) (x id : OrderId)
    (order : OrderRecord F) (h : resolveOrder c.registry x = some (id, order)) (hx : x ≠ id) :
    c.registry.exchangeIdIndex.lookup x = some id := by
  have hget : getOrder c.registry x = none := (resolve_some c hown x id order h).2 hx
  unfold resolveOrder at h
  simp only [hget, Option.map_eq_some_iff, Prod.mk.injEq] at h
  obtain ⟨found, hfound, hfid, -⟩ := h
  unfold getOrderByExchangeId at hfound
  obtain ⟨inner, hinner, hlook⟩ := Option.bind_eq_some_iff.mp hfound
  have hinid : found.orderId = inner := hown inner found hlook
  rw [hinner, ← hinid, hfid]

omit [DoubleArith F] in
/-- A move of an order that keeps its index entry leaves the id it came with
resolving to it. -/
theorem resolves_moves (c d : ExecutionCore F) (hown : AllOwn c) (x id : OrderId) (l : Life F)
    (order order' : OrderRecord F) (h : resolveOrder c.registry x = some (id, order))
    (hmoves : Moves c d id l) (hrec : l.record = some order') (hid : order'.orderId = id)
    (hindex : c.registry.exchangeIdIndex.lookup x = some id →
      d.registry.exchangeIdIndex.lookup x = some id) :
    resolveOrder d.registry x = some (id, order') := by
  have hrec' : (life d id).record = some order' := hmoves.at_id ▸ hrec
  by_cases hx : x = id
  · subst hx
    exact resolve_self d x order' hrec'
  · have hnone : getOrder d.registry x = none := by
      have hl := congrFun hmoves.lives x
      rw [Function.update_of_ne hx] at hl
      exact (congrArg Life.record hl).trans ((resolve_some c hown x id order h).2 hx)
    have hlook : d.registry.orders.lookup id = some order' := hrec'
    simp only [resolveOrder, hnone, getOrderByExchangeId,
      hindex (index_of_resolve c hown x id order h hx), Option.bind_some, hlook, Option.map_some,
      hid]

/-- An accepted trade leaves the id it came with resolving to the same order. -/
theorem acceptFill_resolves (hown : AllOwn c) (x id : OrderId)
    (order : OrderRecord F) (fill : FillEvent F)
    (h : resolveOrder c.registry x = some (id, order)) :
    ∃ order', resolveOrder (acceptFill c id order fill).registry x = some (id, order') := by
  obtain ⟨hrec, -⟩ := resolve_some c hown x id order h
  have hid : order.orderId = id := hown id order hrec
  have hfilled : (trade c.clock order fill (life c id)).record =
      some (fillRecord order c.clock.now fill) := trade_record c.clock order fill _ hrec
  exact ⟨_, resolves_moves c _ hown x id _ order _ h (acceptFill_moves c id order fill hid) hfilled
    hid (acceptFill_index c id x order fill hid)⟩

/-- The trade of a fill event, if it is accepted, and the order it still names
afterwards. -/
theorem processFillEvent_moves (hown : AllOwn c) (fill : FillEvent F)
    (id : OrderId) (order : OrderRecord F)
    (h : resolveOrder c.registry fill.orderId = some (id, order)) :
    Moves c (processFillEvent c fill).1 id
        (if (processFillEvent c fill).2 then trade c.clock order fill (life c id)
          else life c id) ∧
      ∃ order', resolveOrder (processFillEvent c fill).1.registry fill.orderId =
        some (id, order') := by
  obtain ⟨hclock, hlives, hresolve⟩ := markTrade_lives c fill
  obtain ⟨hrec, -⟩ := resolve_some c hown fill.orderId id order h
  have hmarked : Moves c (markTrade c fill).1 id (life c id) := ⟨hclock, by
    rw [hlives, Function.update_eq_self]⟩
  have hstill := (hresolve fill.orderId).trans h
  cases hm : markTrade c fill with
  | mk marked seen =>
    rw [hm] at hclock hlives hmarked hstill
    dsimp only at hclock hlives hmarked hstill
    cases seen with
    | true =>
      simp only [processFillEvent, hm, Bool.false_eq_true, if_false]
      exact ⟨hmarked, order, hstill⟩
    | false =>
      by_cases hprice : isfinite fill.fillPrice = false ∨ fill.fillPrice ≤ 0
      · simp only [processFillEvent, hm, hstill, if_pos hprice, Bool.false_eq_true, if_false]
        exact ⟨hmarked, order, rfl⟩
      · have hmown : AllOwn marked := by
          intro j
          rw [hlives]
          exact hown j
        have haccept := hmarked.next (trade marked.clock order fill)
          (acceptFill_moves marked id order fill (hown id order hrec))
        rw [hclock] at haccept
        simp only [processFillEvent, hm, hstill, if_neg hprice, if_true]
        exact ⟨haccept, acceptFill_resolves marked hmown fill.orderId id order fill hstill⟩

theorem onFillEvent_moves (hown : AllOwn c) (fill : FillEvent F)
    (id : OrderId) (order : OrderRecord F) (answers : OrderId → Bool)
    (h : resolveOrder c.registry fill.orderId = some (id, order)) :
    Moves c (onFillEvent c fill answers) id
      (event c.clock fill (processFillEvent c fill).2 (answers id) (life c id)) := by
  obtain ⟨hmoves, order', hres⟩ := processFillEvent_moves c hown fill id order h
  obtain ⟨hrec, -⟩ := resolve_some c hown fill.orderId id order h
  have hsame : SameOrder (life c id) (if (processFillEvent c fill).2 then
      trade c.clock order fill (life c id) else life c id) := by
    split_ifs
    · exact same_trade c.clock order fill _ hrec
    · exact same_refl _
  have hrest := hmoves.next (remainder _ (answers id)) (enforceCancelRemaining_moves _ answers id
    (by
      rw [hmoves.at_id]
      exact own_same (hown id) hsame))
  rw [hmoves.clock] at hrest
  simp only [onFillEvent, hres, event, hrec]
  exact hrest

theorem processFillEvent_unknown (h : resolveOrder c.registry fill.orderId = none) :
    (processFillEvent c fill).1 = (markTrade c fill).1 := by
  obtain ⟨-, -, hresolve⟩ := markTrade_lives c fill
  unfold processFillEvent
  cases hm : markTrade c fill with
  | mk marked seen =>
    rw [hm] at hresolve
    cases seen with
    | true => rfl
    | false => simp only [(hresolve fill.orderId).trans h]

theorem onFillEvent_unknown (h : resolveOrder c.registry fill.orderId = none) :
    onFillEvent c fill answers = (markTrade c fill).1 := by
  obtain ⟨-, -, hresolve⟩ := markTrade_lives c fill
  simp only [onFillEvent, processFillEvent_unknown c fill h, hresolve, h]

end TB.EngineLives
