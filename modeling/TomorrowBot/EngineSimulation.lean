import TomorrowBot.EngineLives

/-!
# Passes over many orders, one life at a time

The passes over many orders visit each order once, so they too act on every
life separately: the passes of cancels, the cleanup of old orders and the
three passes of a reconciliation.
-/

set_option autoImplicit false

namespace TB.EngineSimulation
open TB.CommonTypes TB.OrderTypes TB.Orders TB.FillProcessor
open TB.CancelManager TB.RecoveryManager TB.ExecutionEngine
open TB.OrderLife TB.EngineLives

variable {F : Type}

theorem fold_lives {ι : Type} (f : ι → ExecutionCore F → ExecutionCore F) (key : ι → OrderId)
    (g : ι → Life F → Life F) (clock : Clock)
    (hf : ∀ i c, c.clock = clock → OwnId (key i) (life c (key i)) →
      Moves c (f i c) (key i) (g i (life c (key i))))
    (items : List ι) (c : ExecutionCore F) (hclock : c.clock = clock)
    (hnodup : (items.map key).Nodup) (hown : ∀ i ∈ items, OwnId (key i) (life c (key i))) :
    (items.foldl (fun c i => f i c) c).clock = clock ∧
      (∀ i ∈ items, life (items.foldl (fun c i => f i c) c) (key i) = g i (life c (key i))) ∧
      ∀ j, j ∉ items.map key → life (items.foldl (fun c i => f i c) c) j = life c j := by
  induction items generalizing c with
  | nil => exact ⟨hclock, fun i hi => absurd hi List.not_mem_nil, fun _ _ => rfl⟩
  | cons i items ih =>
    rw [List.map_cons, List.nodup_cons] at hnodup
    have hstep := hf i c hclock (hown i List.mem_cons_self)
    have hother : ∀ j, j ≠ key i → life (f i c) j = life c j := by
      intro j hj
      rw [hstep.lives, Function.update_of_ne hj]
    have hne : ∀ k ∈ items, key k ≠ key i := by
      intro k hk heq
      exact hnodup.1 (heq ▸ List.mem_map_of_mem hk)
    have hownrest : ∀ k ∈ items, OwnId (key k) (life (f i c) (key k)) := by
      intro k hk
      rw [hother (key k) (hne k hk)]
      exact hown k (List.mem_cons_of_mem i hk)
    obtain ⟨h₁, h₂, h₃⟩ := ih (f i c) (hstep.clock.trans hclock) hnodup.2 hownrest
    rw [List.foldl_cons]
    refine ⟨h₁, ?_, ?_⟩
    · intro k hk
      rcases List.mem_cons.mp hk with rfl | hk
      · rw [h₃ (key k) hnodup.1, hstep.at_id]
      · rw [h₂ k hk, hother (key k) (hne k hk)]
    · intro j hj
      rw [List.map_cons, List.mem_cons, not_or] at hj
      rw [h₃ j hj.2, hother j hj.1]

section Records

def recordsWhere (r : OrderRegistry F) (p : OrderRecord F → Bool) : List (OrderRecord F) :=
  (snapshot r).filter p

variable (c : ExecutionCore F)

theorem snapshot_mem (hown : AllOwn c) (order : OrderRecord F) :
    order ∈ snapshot c.registry ↔ (life c order.orderId).record = some order := by
  unfold snapshot
  rw [List.mem_map]
  constructor
  · rintro ⟨e, he, rfl⟩
    have hlook : c.registry.orders.lookup e.1 = some e.2 := AList.mem_lookup_iff.mpr he
    have hid : e.2.orderId = e.1 := hown e.1 e.2 hlook
    rw [hid]
    exact hlook
  · intro h
    exact ⟨⟨order.orderId, order⟩, AList.mem_lookup_iff.mp h, rfl⟩

theorem snapshot_ids (hown : AllOwn c) :
    (snapshot c.registry).map (fun o => o.orderId) = c.registry.orders.keys := by
  unfold snapshot AList.keys List.keys
  rw [List.map_map]
  apply List.map_congr_left
  intro e he
  exact hown e.1 e.2 (AList.mem_lookup_iff.mpr he)

theorem recordsWhere_nodup (hown : AllOwn c) (p : OrderRecord F → Bool) :
    ((recordsWhere c.registry p).map (fun o => o.orderId)).Nodup := by
  have h : ((snapshot c.registry).map (fun o => o.orderId)).Nodup := by
    rw [snapshot_ids c hown]
    exact c.registry.orders.keys_nodup
  exact h.sublist (List.filter_sublist.map _)

theorem fold_records (f : OrderRecord F → ExecutionCore F → ExecutionCore F)
    (p : OrderRecord F → Bool) (g : OrderRecord F → Life F → Life F) (c : ExecutionCore F)
    (hown : AllOwn c)
    (hf : ∀ o d, d.clock = c.clock → OwnId o.orderId (life d o.orderId) →
      Moves d (f o d) o.orderId (g o (life d o.orderId))) :
    ((recordsWhere c.registry p).foldl (fun c o => f o c) c).clock = c.clock ∧
      ∀ id, life ((recordsWhere c.registry p).foldl (fun c o => f o c) c) id =
        whenRecord p g (life c id) := by
  obtain ⟨h₁, h₂, h₃⟩ := fold_lives f (fun o => o.orderId) g c.clock hf
    (recordsWhere c.registry p) c rfl (recordsWhere_nodup c hown p)
    (fun o _ => hown o.orderId)
  refine ⟨h₁, fun id => ?_⟩
  unfold whenRecord
  by_cases hin : id ∈ (recordsWhere c.registry p).map (fun o => o.orderId)
  · obtain ⟨order, horder, rfl⟩ := List.mem_map.mp hin
    obtain ⟨hmem, hp⟩ := List.mem_filter.mp horder
    rw [h₂ order horder, (snapshot_mem c hown order).mp hmem]
    simp only [hp, if_true]
  · rw [h₃ id hin]
    cases hrec : (life c id).record with
    | none => rfl
    | some order =>
      have hid : order.orderId = id := hown id order hrec
      have hp : ¬ p order = true := by
        intro hp
        apply hin
        refine List.mem_map.mpr ⟨order, List.mem_filter.mpr ⟨?_, hp⟩, hid⟩
        rw [snapshot_mem c hown order, hid]
        exact hrec
      simp only [hp, Bool.false_eq_true, if_false]

theorem forceEach_fold (target : OrderState) (reason : String) (orders : List (OrderRecord F)) :
    setRegistry c (forceEach c.clock target reason orders c.registry) =
      orders.foldl (fun d o => setRegistry d
        (forceTransition d.registry d.clock o.orderId target reason)) c := by
  induction orders generalizing c with
  | nil => rfl
  | cons o orders ih =>
    exact ih (setRegistry c (forceTransition c.registry c.clock o.orderId target reason))

theorem forceEach_lives (hown : AllOwn c) (target : OrderState)
    (reason : String) (p : OrderRecord F → Bool) :
    ∀ id, life (setRegistry c (forceEach c.clock target reason (recordsWhere c.registry p)
        c.registry)) id =
      whenRecord p (fun _ => force c.clock target reason) (life c id) := by
  rw [forceEach_fold]
  refine (fold_records _ p _ c hown (fun o d hd _ => ?_)).2
  rw [← hd]
  exact force_moves d o.orderId target reason

theorem dropOrder_moves (id : OrderId) (order : OrderRecord F) :
    Moves c (setRegistry c (dropOrder c.registry id order)) id
      { life c id with record := none, fsm := none, applied := false } := by
  apply moves_of_lives
  · rfl
  · simp [life, setRegistry, dropOrder, isFillApplied]
  · intro j hj
    simp [life, setRegistry, dropOrder, AList.lookup_erase_ne hj, isFillApplied, hj]

theorem cleanup_fold (maxAge : ℤ) (entries : List (Sigma fun _ : OrderId => OrderRecord F)) :
    setRegistry c (entries.foldl (fun r e =>
        if isTerminal e.2.state ∧ maxAge < c.clock.now - e.2.lastUpdated then dropOrder r e.1 e.2
        else r) c.registry) =
      entries.foldl (fun d e =>
        if isTerminal e.2.state ∧ maxAge < d.clock.now - e.2.lastUpdated then
          setRegistry d (dropOrder d.registry e.1 e.2) else d) c := by
  induction entries generalizing c with
  | nil => rfl
  | cons e entries ih =>
    rw [List.foldl_cons, List.foldl_cons]
    split_ifs
    · exact ih (setRegistry c (dropOrder c.registry e.1 e.2))
    · exact ih c

theorem cleanup_lives (hown : AllOwn c) (maxAge : ℤ) (id : OrderId) :
    life (setRegistry c (cleanupTerminalOrders c.registry c.clock maxAge)) id =
      expire c.clock maxAge (life c id) := by
  unfold cleanupTerminalOrders
  rw [cleanup_fold]
  obtain ⟨-, h₂, h₃⟩ := fold_lives
    (fun (e : Sigma fun _ : OrderId => OrderRecord F) (d : ExecutionCore F) =>
      if isTerminal e.2.state ∧ maxAge < d.clock.now - e.2.lastUpdated then
        setRegistry d (dropOrder d.registry e.1 e.2) else d)
    (fun e => e.1)
    (fun e l => if isTerminal e.2.state ∧ maxAge < c.clock.now - e.2.lastUpdated then
      { l with record := none, fsm := none, applied := false } else l)
    c.clock (by
      intro e d hd _
      rw [hd]
      split_ifs
      · exact dropOrder_moves d e.1 e.2
      · exact moves_refl d e.1)
    c.registry.orders.entries c rfl c.registry.orders.nodupKeys (fun e _ => hown e.1)
  unfold expire
  cases hrec : (life c id).record with
  | some order =>
    have hmem : (⟨id, order⟩ : Sigma fun _ : OrderId => OrderRecord F) ∈
        c.registry.orders.entries := AList.mem_lookup_iff.mp hrec
    exact h₂ ⟨id, order⟩ hmem
  | none =>
    apply h₃ id
    intro hin
    obtain ⟨e, he, rfl⟩ := List.mem_map.mp hin
    have hlook : c.registry.orders.lookup e.1 = some e.2 := AList.mem_lookup_iff.mpr he
    exact absurd (hlook.symm.trans hrec) (by simp)

end Records

section Operations
variable [DoubleArith F]

theorem cancelEach_fold (answers : OrderId → Bool) (ids : List OrderId) (c : ExecutionCore F) :
    (cancelEach answers ids c).1 = ids.foldl (fun d id => (doCancel d (answers id) id).1) c := by
  induction ids generalizing c with
  | nil => rfl
  | cons id ids ih => exact ih (doCancel c (answers id) id).1

variable (c : ExecutionCore F)

theorem cancelRecords_lives (hown : AllOwn c) (answers : OrderId → Bool)
    (p : OrderRecord F → Bool) (id : OrderId) :
    life (cancelEach answers ((recordsWhere c.registry p).map (fun o => o.orderId)) c).1 id =
      whenRecord p (fun o => cancel c.clock (answers o.orderId)) (life c id) := by
  rw [cancelEach_fold, List.foldl_map]
  refine (fold_records (fun o d => (doCancel d (answers o.orderId) o.orderId).1) p _ c hown
    (fun o d hd ho => ?_)).2 id
  rw [← hd]
  exact doCancel_moves d (answers o.orderId) o.orderId ho

def timedOut (clock : Clock) (maxMs : ℤ) (confirmed : Bool) (l : Life F) : Life F :=
  if l.fsm.any (fun fsm => isActive fsm.state &&
      decide (maxMs < OrderFsm.timeInCurrentStateMs fsm clock)) then
    match l.record with
    | none => l
    | some order => if isTerminal order.state then l else cancel clock confirmed l
  else l

def cancelLate (answers : OrderId → Bool) (c : ExecutionCore F) (id : OrderId) :
    ExecutionCore F :=
  match getOrder c.registry id with
  | none => c
  | some order => if isTerminal order.state then c else (doCancel c (answers id) id).1

theorem cancelTimedOut_fold (answers : OrderId → Bool) (ids : List OrderId)
    (c : ExecutionCore F) :
    (cancelTimedOut answers ids c).1 = ids.foldl (cancelLate answers) c := by
  induction ids generalizing c with
  | nil => rfl
  | cons id ids ih =>
    rw [List.foldl_cons, ← ih]
    unfold cancelLate
    conv_lhs => unfold cancelTimedOut
    cases getOrder c.registry id with
    | none => rfl
    | some order =>
      dsimp only
      split_ifs <;> rfl

theorem cancelLate_moves (answers : OrderId → Bool) (c : ExecutionCore F) (id : OrderId)
    (hown : OwnId id (life c id)) :
    Moves c (cancelLate answers c id) id
      (match (life c id).record with
        | none => life c id
        | some order => if isTerminal order.state then life c id
            else cancel c.clock (answers id) (life c id)) := by
  unfold cancelLate
  cases hrec : (life c id).record with
  | none =>
    have hget : getOrder c.registry id = none := hrec
    rw [hget]
    exact moves_refl c id
  | some order =>
    have hget : getOrder c.registry id = some order := hrec
    rw [hget]
    dsimp only
    split_ifs
    · exact moves_refl c id
    · exact doCancel_moves c (answers id) id hown

theorem cancelTimedOut_lives (hown : AllOwn c) (answers : OrderId → Bool)
    (maxMs : ℤ) (id : OrderId) :
    life (cancelTimedOutOrders c answers maxMs).1 id =
      timedOut c.clock maxMs (answers id) (life c id) := by
  unfold cancelTimedOutOrders
  rw [cancelTimedOut_fold]
  have hnodup : ((getTimedOutOrders c.registry c.clock maxMs).map (fun id => id)).Nodup := by
    rw [List.map_id']
    exact c.registry.fsms.keys_nodup.sublist (List.filter_sublist.map _)
  obtain ⟨-, h₂, h₃⟩ := fold_lives (fun id d => cancelLate answers d id) (fun id => id)
    (fun id l => match l.record with
      | none => l
      | some order => if isTerminal order.state then l else cancel c.clock (answers id) l)
    c.clock (by
      intro i d hd hi
      rw [← hd]
      exact cancelLate_moves answers d i hi)
    (getTimedOutOrders c.registry c.clock maxMs) c rfl hnodup (fun i _ => hown i)
  have hmem : id ∈ getTimedOutOrders c.registry c.clock maxMs ↔
      ((life c id).fsm.any (fun fsm => isActive fsm.state &&
        decide (maxMs < OrderFsm.timeInCurrentStateMs fsm c.clock))) = true := by
    unfold getTimedOutOrders
    rw [List.mem_map, Option.any_eq_true]
    constructor
    · rintro ⟨e, he, rfl⟩
      obtain ⟨hin, hlate⟩ := List.mem_filter.mp he
      exact ⟨e.2, AList.mem_lookup_iff.mpr hin, hlate⟩
    · rintro ⟨fsm, hfsm, hlate⟩
      exact ⟨⟨id, fsm⟩, List.mem_filter.mpr ⟨AList.mem_lookup_iff.mp hfsm, hlate⟩, rfl⟩
  unfold timedOut
  split_ifs with hlate
  · exact h₂ id (hmem.mpr hlate)
  · apply h₃ id
    rw [List.map_id', hmem]
    exact hlate

def recoverStep (answers : RecoveryAnswers F) (c : ExecutionCore F) (order : OrderRecord F) :
    ExecutionCore F :=
  setRegistry c (recoverOrder c.registry c.clock answers order)

theorem recoverEach_fold (answers : RecoveryAnswers F) (orders : List (OrderRecord F)) :
    setRegistry c (recoverEach c.clock answers orders c.registry) =
      orders.foldl (fun d o => recoverStep answers d o) c := by
  induction orders generalizing c with
  | nil => rfl
  | cons o orders ih => exact ih (recoverStep answers c o)

theorem recoverFilled_moves (order : OrderRecord F) (qty price : F)
    (confirmed : Bool) (hown : OwnId order.orderId (life c order.orderId)) :
    Moves c (setRegistry c (recoverFilled c.registry c.clock order qty price confirmed))
      order.orderId (recoveredFill c.clock order qty price confirmed (life c order.orderId)) := by
  have hforce := force_moves c order.orderId (fillTarget order qty)
    "Recovery: confirmed fill by exchange"
  unfold recoverFilled recoveredFill
  dsimp only
  generalize forceTransition c.registry c.clock order.orderId (fillTarget order qty)
    "Recovery: confirmed fill by exchange" = r at hforce ⊢
  have hsame := same_moves.force c.clock (fillTarget order qty)
    "Recovery: confirmed fill by exchange" (life c order.orderId)
  generalize force c.clock (fillTarget order qty) "Recovery: confirmed fill by exchange"
    (life c order.orderId) = l at hforce hsame ⊢
  have hrec : getOrder r order.orderId = l.record := congrArg Life.record hforce.at_id
  have hupdated : Moves c (setRegistry c (match getOrder r order.orderId with
        | none => r
        | some current => updateOrder r (recoveredRecord current c.clock.now qty price)))
      order.orderId (match l.record with
        | none => l
        | some current => put (recoveredRecord current c.clock.now qty price) l) := by
    rw [hrec]
    cases hl : l.record with
    | none => exact hforce
    | some current =>
      have hid : (recoveredRecord current c.clock.now qty price).orderId = order.orderId :=
        own_same hown hsame current hl
      exact hforce.next (put _) (update_moves (setRegistry c r) _ order.orderId hid)
  split_ifs
  · exact hupdated
  · exact hupdated.next (force c.clock .cancelled _) (force_moves (setRegistry c _) _ _ _)
  · exact hupdated

theorem recoverStep_moves (answers : RecoveryAnswers F)
    (order : OrderRecord F) (hown : OwnId order.orderId (life c order.orderId)) :
    Moves c (recoverStep answers c order) order.orderId
      (recover c.clock (answers.fillDetail order.orderId)
        (answers.cancelConfirmed order.orderId) order (life c order.orderId)) := by
  unfold recoverStep recoverOrder recover
  dsimp only
  split_ifs
  · exact recoverFilled_moves c order _ _ _ hown
  · exact force_moves c order.orderId .cancelled _
  · exact moves_refl c order.orderId

omit [DoubleArith F] in
theorem own_of_lives (c d : ExecutionCore F) (hown : AllOwn c)
    (h : ∀ id, SameOrder (life c id) (life d id)) : AllOwn d :=
  fun id => own_same (hown id) (h id)

omit [DoubleArith F] in
/-- The first pass goes over active orders in an uncertain state. -/
theorem markUncertain_lives (hown : AllOwn c) (id : OrderId) :
    life (setRegistry c (markUncertainOrders c.registry c.clock)) id =
      whenRecord (fun o => isActive o.state && isUncertain o)
        (fun _ => force c.clock .unknownRecovery "Recovery: uncertain order detected")
        (life c id) := by
  have hsel : (activeOrders c.registry).filter isUncertain =
      recordsWhere c.registry (fun o => isActive o.state && isUncertain o) := by
    unfold activeOrders recordsWhere snapshot
    rw [List.filter_filter]
    apply List.filter_congr
    intro o _
    exact Bool.and_comm _ _
  unfold markUncertainOrders
  rw [hsel]
  exact forceEach_lives c hown .unknownRecovery _ _ id

/-- The second pass asks about the orders in an unknown state. -/
theorem recoverUnknown_lives (hown : AllOwn c) (answers : RecoveryAnswers F) (id : OrderId) :
    life (setRegistry c (recoverUnknownOrders c.registry c.clock answers)) id =
      whenRecord (fun o => o.state == .unknownRecovery)
        (recover c.clock (answers.fillDetail id) (answers.cancelConfirmed id)) (life c id) := by
  have hpass : life (setRegistry c (recoverUnknownOrders c.registry c.clock answers)) id =
      whenRecord (fun o => o.state == .unknownRecovery)
        (fun o => recover c.clock (answers.fillDetail o.orderId)
          (answers.cancelConfirmed o.orderId) o) (life c id) := by
    unfold recoverUnknownOrders
    rw [recoverEach_fold]
    refine (fold_records (fun o d => recoverStep answers d o)
      (fun o => o.state == .unknownRecovery) _ c hown (fun o d hd ho => ?_)).2 id
    rw [← hd]
    exact recoverStep_moves d answers o ho
  rw [hpass]
  unfold whenRecord
  cases hrec : (life c id).record with
  | none => rfl
  | some order =>
    have hid : order.orderId = id := hown id order hrec
    simp only [hid]

omit [DoubleArith F] in
theorem staleCancels_lives (hown : AllOwn c) (maxMs : ℤ) (id : OrderId) :
    life (setRegistry c (forceResolveStaleCancels c.registry c.clock maxMs).1) id =
      if isStale c.clock .cancelPending maxMs (life c id) then
        force c.clock .cancelled "Recovery: stale CancelPending → force cancel" (life c id)
      else life c id := by
  have hpass := forceEach_lives c hown .cancelled
    "Recovery: stale CancelPending → force cancel"
    (fun o => o.state == .cancelPending && (timeInStateMs c.registry c.clock o.orderId).any
      (fun t => decide (maxMs < t))) id
  refine hpass.trans ?_
  unfold whenRecord isStale
  cases hrec : (life c id).record with
  | none => simp
  | some order =>
    have hid : order.orderId = id := hown id order hrec
    have htime : (timeInStateMs c.registry c.clock order.orderId).any
        (fun t => decide (maxMs < t)) = (life c id).fsm.any
        (fun fsm => decide (maxMs < OrderFsm.timeInCurrentStateMs fsm c.clock)) := by
      rw [hid]
      simp only [timeInStateMs, life, Option.any_map]
    simp only [htime, Option.any_some]

theorem reconciliation_lives (hown : AllOwn c)
    (answers : RecoveryAnswers F) (timeoutMs : ℤ) (id : OrderId) :
    life (runReconciliation c answers timeoutMs).1 id =
      reconcile c.clock timeoutMs (answers.fillDetail id) (answers.cancelConfirmed id)
        (life c id) := by
  have hmark := markUncertain_lives c hown
  generalize hm : setRegistry c (markUncertainOrders c.registry c.clock) = m at hmark
  have hmclock : m.clock = c.clock := by rw [← hm]; rfl
  have hmown : AllOwn m := own_of_lives c m hown (fun j => by
    rw [hmark j]
    exact same_steps.toKeptByRecovery.whenRecord _ _ _ (fun _ _ => same_moves.force _ _ _ _))
  have hrecover := recoverUnknown_lives m hmown answers
  generalize hr : setRegistry m (recoverUnknownOrders m.registry m.clock answers) = r at hrecover
  have hrclock : r.clock = c.clock := by rw [← hr]; exact hmclock
  have hrown : AllOwn r := own_of_lives m r hmown (fun j => by
    rw [hrecover j]
    exact same_steps.toKeptByRecovery.whenRecord _ _ _ (fun _ _ => same_steps.toKeptByRecovery.recover _ _ _ _ _))
  have hfinal : life (runReconciliation c answers timeoutMs).1 id =
      life (setRegistry r (forceResolveStaleCancels r.registry r.clock (timeoutMs * 3)).1) id := by
    rw [← hr, ← hm]
    rfl
  rw [hfinal, staleCancels_lives r hrown, hrecover, hrclock, hmclock, hmark]
  rfl

theorem triedRelease_moves (id : OrderId) (target : OrderState)
    (reason : String) (order : OrderRecord F) (hid : order.orderId = id) :
    Moves c (releaseGuard (setRegistry c (transition c.registry c.clock id target reason).1) order)
      id (releaseFor order (tryMove c.clock target reason (life c id))) :=
  (transition_tried c id target reason).next (releaseFor order) (releaseGuard_moves _ order id hid)

theorem confirmFill_moves (a : AwaitingFill F) (answer : FillAnswer F)
    (id : OrderId) (hid : a.order.orderId = id) (hown : OwnId id (life c id)) :
    Moves c (confirmFill c a answer) id (confirmation c.clock a answer (life c id)) := by
  subst hid
  unfold confirmFill confirmation
  dsimp only
  by_cases hfail : answer.detail.success = false
  · rw [if_pos hfail, if_pos hfail]
    exact transition_tried c _ _ _
  rw [if_neg hfail, if_neg hfail]
  by_cases hnan : isfinite answer.detail.filledQty = false
  · rw [if_pos hnan, if_pos hnan]
    split_ifs
    · exact triedRelease_moves c _ _ _ a.order rfl
    · exact transition_tried c _ _ _
  rw [if_neg hnan, if_neg hnan]
  by_cases hnone : answer.detail.filledQty ≤ 0
  · rw [if_pos hnone, if_pos hnone]
    exact triedRelease_moves c _ _ _ a.order rfl
  rw [if_neg hnone, if_neg hnone]
  exact processMarketFill_moves c _ _ _ _ hown

def tradeAccepted (r : OrderRegistry F) (fill : FillEvent F) : Bool :=
  decide (fill.tradeId = "" ∨ fill.tradeId ∉ r.seenTradeIds) &&
    !decide (isfinite fill.fillPrice = false ∨ fill.fillPrice ≤ 0)

theorem accepted_price (r : OrderRegistry F) (fill : FillEvent F)
    (h : tradeAccepted r fill = true) : ¬ fill.fillPrice ≤ 0 := by
  unfold tradeAccepted at h
  rw [Bool.and_eq_true, Bool.not_eq_true', decide_eq_false_iff_not, not_or] at h
  exact h.2.2

omit [DoubleArith F] in
theorem markTrade_seen (fill : FillEvent F) : (markTrade c fill).2 =
      !decide (fill.tradeId = "" ∨ fill.tradeId ∉ c.registry.seenTradeIds) := by
  unfold markTrade checkAndMarkTradeIdSeen
  by_cases hempty : fill.tradeId = ""
  · simp [hempty]
  · by_cases hseen : fill.tradeId ∈ c.registry.seenTradeIds
    · simp [hempty, hseen]
    · simp [hempty, hseen]

theorem processFillEvent_accepted (fill : FillEvent F)
    (found : OrderId × OrderRecord F) (h : resolveOrder c.registry fill.orderId = some found) :
    (processFillEvent c fill).2 = tradeAccepted c.registry fill := by
  have hseen := markTrade_seen c fill
  have hres := (markTrade_lives c fill).2.2 fill.orderId
  unfold processFillEvent tradeAccepted
  rw [← Bool.not_not (decide (fill.tradeId = "" ∨ _)), ← hseen]
  cases hm : markTrade c fill with
  | mk marked seen =>
    rw [hm, h] at hres
    cases seen with
    | true => rfl
    | false =>
      simp only [hres, Bool.not_false, Bool.true_and]
      split_ifs with hprice
      · simp [hprice]
      · simp [hprice]

end Operations

end TB.EngineSimulation
