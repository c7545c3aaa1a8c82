import TomorrowBot.RecentEntries
import TomorrowBot.IntentDedup

/-!
# Trade ids and the trades they stand for

The registry remembers the last trade ids it was asked about. An id is
remembered before the trade is applied, so a trade that is refused is not
applied when it comes again, until so many new ids were remembered after it
that its own is forgotten.
-/

set_option autoImplicit false

namespace TB.SeenTrades
open TB.CommonTypes TB.PortfolioEngine TB.OrderTypes TB.Orders TB.FillProcessor
open TB.ExecutionPlanner TB.ExecutionEngine TB.EngineLives TB.EngineSimulation TB.EngineBirths
open TB.EngineFrames TB.OrderLife RecentEntries

section Queue
variable {F : Type}

structure Queued (r : OrderRegistry F) : Prop where
  same : r.seenTradeIds = r.seenTradeIdFifo.toFinset
  distinct : r.seenTradeIdFifo.Nodup
  bounded : r.seenTradeIdFifo.length ≤ kMaxSeenTradeIds

theorem trim_queue (queue : List String) (h : queue.Nodup) :
    trimSeenTradeIds queue.toFinset queue =
      ((queue.rtake kMaxSeenTradeIds).toFinset, queue.rtake kMaxSeenTradeIds) := by
  induction queue with
  | nil => rfl
  | cons id rest ih =>
    obtain ⟨hid, hrest⟩ := List.nodup_cons.mp h
    rw [trimSeenTradeIds]
    split_ifs with hlong
    · rw [List.toFinset_cons, Finset.erase_insert (by rwa [List.mem_toFinset]), ih hrest]
      have hcut : (id :: rest).rtake kMaxSeenTradeIds = rest.rtake kMaxSeenTradeIds := by
        rw [List.rtake, List.rtake, List.length_cons,
          show rest.length + 1 - kMaxSeenTradeIds = rest.length - kMaxSeenTradeIds + 1 by omega,
          List.drop_succ_cons]
      rw [hcut]
    · rw [rtake_of_length_le (by rw [List.length_cons]; omega)]

theorem mark_queue (r : OrderRegistry F) (h : Queued r) (tradeId : String)
    (hnew : tradeId ∉ r.seenTradeIds) :
    Queued (checkAndMarkTradeIdSeen r tradeId).1 ∧
      (checkAndMarkTradeIdSeen r tradeId).1.seenTradeIdFifo =
        (r.seenTradeIdFifo ++ [tradeId]).rtake kMaxSeenTradeIds := by
  have hset : insert tradeId r.seenTradeIds = (r.seenTradeIdFifo ++ [tradeId]).toFinset := by
    ext x
    rw [Finset.mem_insert, h.same, List.mem_toFinset, List.mem_toFinset, List.mem_append,
      List.mem_singleton]
    exact or_comm
  have hdistinct : (r.seenTradeIdFifo ++ [tradeId]).Nodup := by
    rw [List.nodup_append_comm, List.singleton_append, List.nodup_cons]
    exact ⟨by rwa [h.same, List.mem_toFinset] at hnew, h.distinct⟩
  have hbounded := length_rtake_le kMaxSeenTradeIds (r.seenTradeIdFifo ++ [tradeId])
  have hkept := hdistinct.sublist (rtake_sublist kMaxSeenTradeIds _)
  rw [checkAndMarkTradeIdSeen, if_neg hnew, hset, trim_queue _ hdistinct]
  generalize (r.seenTradeIdFifo ++ [tradeId]).rtake kMaxSeenTradeIds = queue at hbounded hkept ⊢
  exact ⟨⟨rfl, hkept, hbounded⟩, rfl⟩

end Queue

variable {F : Type} [DoubleArith F]

def seen (r : OrderRegistry F) : Finset String × List String :=
  ((kept r).1, (kept r).2.1)

omit [DoubleArith F] in
theorem queued_of_seen {r s : OrderRegistry F} (h : seen s = seen r) (hr : Queued r) :
    Queued s := by
  have hset : s.seenTradeIds = r.seenTradeIds := congrArg Prod.fst h
  have hfifo : s.seenTradeIdFifo = r.seenTradeIdFifo := congrArg Prod.snd h
  constructor
  · rw [hset, hfifo]
    exact hr.same
  · rw [hfifo]
    exact hr.distinct
  · rw [hfifo]
    exact hr.bounded

theorem seen_of_edits {c d : ExecutionCore F} (h : Edits c d) :
    seen d.registry = seen c.registry :=
  congrArg (fun k => (k.1, k.2.1)) h.kept

omit [DoubleArith F] in
theorem updateOrder_seen (r : OrderRegistry F) (order : OrderRecord F) :
    seen (updateOrder r order) = seen r :=
  congrArg (fun k => (k.1, k.2.1)) (updateOrder_kept r order)

omit [DoubleArith F] in
theorem transition_seen (r : OrderRegistry F) (clock : Clock) (id : OrderId)
    (target : OrderState) (reason : String) :
    seen (transition r clock id target reason).1 = seen r :=
  congrArg (fun k => (k.1, k.2.1)) (transition_kept r clock id target reason)

omit [DoubleArith F] in
theorem rejectOrder_seen (c : ExecutionCore F) (order : OrderRecord F) (why reason : String) :
    seen (rejectOrder c order why reason).registry = seen c.registry :=
  (updateOrder_seen _ _).trans (transition_seen ..)

section Executions

variable (e : Engine F)

theorem submitOrder_seen (order : OrderRecord F) (key : String) (answer : SubmitAnswer F) :
    seen (submitOrder e order key answer).1.core.registry = seen e.core.registry := by
  unfold submitOrder
  cases answer with
  | threw => exact (seen_of_edits (releaseGuard_edits _ order)).trans (updateOrder_seen _ _)
  | returned result clock =>
    dsimp only
    split_ifs
    · exact (seen_of_edits (releaseGuard_edits _ order)).trans
        ((rejectOrder_seen ..).trans (updateOrder_seen _ _))
    · exact (updateOrder_seen _ _).trans (updateOrder_seen _ _)
    · exact (updateOrder_seen _ _).trans (updateOrder_seen _ _)

theorem placeOrder_seen (order : OrderRecord F) (key : String) (answer : SubmitAnswer F) :
    seen (placeOrder e order key answer).1.core.registry = seen e.core.registry := by
  have hmove := transition_seen (registerOrder e.core.registry e.core.clock order)
    e.core.clock order.orderId .pendingAck "Submitting to exchange"
  unfold placeOrder
  dsimp only
  cases ht : transition (registerOrder e.core.registry e.core.clock order) e.core.clock
    order.orderId .pendingAck "Submitting to exchange" with
  | mk r ok =>
    rw [ht] at hmove
    cases ok with
    | false => rfl
    | true =>
      dsimp only
      split_ifs
      · exact (rejectOrder_seen ..).trans hmove
      · exact (rejectOrder_seen ..).trans hmove
      generalize tryReserveMargin (setCore e (setRegistry e.core r))
        { order with state := OrderState.pendingAck } = out
      obtain ⟨p, sized, ok⟩ := out
      cases ok with
      | false => exact (rejectOrder_seen ..).trans hmove
      | true => exact (submitOrder_seen ..).trans hmove

theorem execute_seen (intent : TradeIntent F) (risk : RiskDecision F)
    (alpha : ExecutionAlphaResult F) (uncertainty : UncertaintyLevel) (answer : SubmitAnswer F) :
    seen (execute e intent risk alpha uncertainty answer).1.core.registry =
      seen e.core.registry := by
  unfold execute
  cases validateInputs risk alpha uncertainty with
  | error err => rfl
  | ok _ =>
    dsimp only
    split_ifs
    · rfl
    · rfl
    · exact placeOrder_seen ..

end Executions

section Events

def newIds (e : Engine F) : EngineOp F → List String
  | .onFillEvent fill _ =>
      if fill.tradeId = "" ∨ fill.tradeId ∈ e.core.registry.seenTradeIds then []
      else [fill.tradeId]
  | _ => []

def markedIds : Engine F → List (EngineOp F) → List String
  | _, [] => []
  | e, op::ops => newIds e op ++ markedIds (engineStep e op) ops

theorem processFillEvent_seen (c : ExecutionCore F) (fill : FillEvent F) :
    seen (processFillEvent c fill).1.registry = seen (markTrade c fill).1.registry := by
  unfold processFillEvent
  cases markTrade c fill with
  | mk marked was =>
    cases was with
    | true => rfl
    | false =>
      dsimp only
      cases resolveOrder marked.registry fill.orderId with
      | none => rfl
      | some found =>
        dsimp only
        split_ifs
        · rfl
        · exact seen_of_edits (acceptFill_edits marked found.1 found.2 fill)

theorem onFillEvent_seen (c : ExecutionCore F) (fill : FillEvent F) (answers : OrderId → Bool) :
    seen (onFillEvent c fill answers).registry = seen (markTrade c fill).1.registry := by
  have hprocessed := processFillEvent_seen c fill
  unfold onFillEvent
  dsimp only
  cases resolveOrder (processFillEvent c fill).1.registry fill.orderId with
  | none => exact hprocessed
  | some found =>
    exact (seen_of_edits (enforceCancelRemaining_edits _ answers found.1)).trans hprocessed

theorem step_queue (e : Engine F) (op : EngineOp F) (h : Queued e.core.registry) :
    Queued (engineStep e op).core.registry ∧
      (engineStep e op).core.registry.seenTradeIdFifo =
        (e.core.registry.seenTradeIdFifo ++ newIds e op).rtake kMaxSeenTradeIds := by
  have hsame : ∀ r : OrderRegistry F, seen r = seen e.core.registry → Queued r ∧
      r.seenTradeIdFifo = (e.core.registry.seenTradeIdFifo ++ []).rtake kMaxSeenTradeIds := by
    intro r hr
    refine ⟨queued_of_seen hr h, ?_⟩
    rw [List.append_nil, rtake_of_length_le h.bounded]
    exact congrArg Prod.snd hr
  have hedits := engineStep_edits e op
  cases op with
  | execute intent risk alpha uncertainty answer => exact hsame _ (execute_seen ..)
  | isDuplicate intent => exact hsame _ rfl
  | advanceClock clock => exact hsame _ rfl
  | onFillEvent fill answers =>
    have hseen := onFillEvent_seen e.core fill answers
    rw [newIds]
    by_cases hempty : fill.tradeId = ""
    · rw [if_pos (Or.inl hempty)]
      apply hsame
      rw [markTrade, if_pos hempty] at hseen
      exact hseen
    rw [markTrade, if_neg hempty] at hseen
    by_cases hold : fill.tradeId ∈ e.core.registry.seenTradeIds
    · rw [if_pos (Or.inr hold)]
      apply hsame
      rw [checkAndMarkTradeIdSeen, if_pos hold] at hseen
      exact hseen
    · rw [if_neg (not_or.mpr ⟨hempty, hold⟩)]
      obtain ⟨hqueued, hfifo⟩ := mark_queue e.core.registry h fill.tradeId hold
      refine ⟨queued_of_seen hseen hqueued, ?_⟩
      rw [← hfifo]
      exact congrArg Prod.snd hseen
  | _ => exact hsame _ (seen_of_edits hedits)

/-- After a run the queue holds the last of the ids it had and those it was given. -/
theorem run_queue (e : Engine F) (ops : List (EngineOp F)) (h : Queued e.core.registry) :
    Queued (Runs.run engineStep e ops).core.registry ∧
      (Runs.run engineStep e ops).core.registry.seenTradeIdFifo =
        (e.core.registry.seenTradeIdFifo ++ markedIds e ops).rtake kMaxSeenTradeIds := by
  induction ops generalizing e with
  | nil =>
    refine ⟨h, ?_⟩
    rw [markedIds, List.append_nil, rtake_of_length_le h.bounded]
    rfl
  | cons op ops ih =>
    obtain ⟨hstep, hfifo⟩ := step_queue e op h
    obtain ⟨hrun, hrest⟩ := ih (engineStep e op) hstep
    refine ⟨hrun, ?_⟩
    rw [Runs.run, hrest, hfifo, rtake_append_rtake, markedIds, List.append_assoc]

end Events

section Redelivery

def Refused (c : ExecutionCore F) (fill : FillEvent F) : Prop :=
  (processFillEvent c fill).2 = false ∧ (markTrade c fill).2 = false

def usable (price : F) : Prop := isfinite price = true ∧ ¬ price ≤ 0

def delivers (op : EngineOp F) (tradeId : String) : Bool :=
  match op with
  | .onFillEvent fill _ => fill.tradeId == tradeId
  | _ => false

structure Applied (c : ExecutionCore F) (fill : FillEvent F) (id : OrderId)
    (order : OrderRecord F) : Prop where
  accepted : (processFillEvent c fill).2 = true
  record : getOrder (processFillEvent c fill).1.registry id =
    some (fillRecord order c.clock.now fill)
  portfolio : (processFillEvent c fill).1.portfolio =
    if 0 < fill.fillQuantity then
      applyToPortfolio c.portfolio c.clock.now (fillRecord order c.clock.now fill)
        fill.fillQuantity fill.fillPrice (computeIncrementalPnl c.portfolio
          (fillRecord order c.clock.now fill) fill.fillQuantity fill.fillPrice)
    else c.portfolio
  passed : (processFillEvent c fill).1.passed =
    c.passed ++ if 0 < fill.fillQuantity then [(id, fill.fillQuantity)] else []

omit [DoubleArith F] in
theorem markTrade_rest (c : ExecutionCore F) (fill : FillEvent F) :
    (markTrade c fill).1.portfolio = c.portfolio ∧ (markTrade c fill).1.passed = c.passed := by
  unfold markTrade
  split_ifs
  · exact ⟨rfl, rfl⟩
  · exact ⟨rfl, rfl⟩

theorem applied_of_accepted (c : ExecutionCore F) (hown : AllOwn c) (fill : FillEvent F)
    (id : OrderId) (order : OrderRecord F)
    (h : resolveOrder c.registry fill.orderId = some (id, order))
    (haccepted : (processFillEvent c fill).2 = true) : Applied c fill id order := by
  obtain ⟨hmoves, -⟩ := processFillEvent_moves c hown fill id order h
  obtain ⟨hrec, -⟩ := resolve_some c hown fill.orderId id order h
  rw [haccepted, if_pos rfl] at hmoves
  obtain ⟨hclock, -, hresolve⟩ := markTrade_lives c fill
  obtain ⟨hportfolio, hpassed⟩ := markTrade_rest c fill
  have hid : order.orderId = id := hown id order hrec
  have hstill := (hresolve fill.orderId).trans h
  have hprice : ¬ fill.fillPrice ≤ 0 := by
    rw [processFillEvent_accepted c fill _ h] at haccepted
    exact accepted_price _ fill haccepted
  have hrecord : getOrder (processFillEvent c fill).1.registry id =
      some (fillRecord order c.clock.now fill) := by
    have hlife := congrArg Life.record hmoves.at_id
    rw [trade_record c.clock order fill _ hrec] at hlife
    exact hlife
  refine ⟨haccepted, hrecord, ?_, ?_⟩
  all_goals
    unfold processFillEvent at haccepted ⊢
    cases hm : markTrade c fill with
    | mk marked was =>
      rw [hm] at hclock hportfolio hpassed hstill haccepted
      dsimp only at hclock hportfolio hpassed hstill haccepted ⊢
      cases was with
      | true => exact absurd haccepted Bool.false_ne_true
      | false =>
        dsimp only at haccepted ⊢
        rw [hstill] at haccepted ⊢
        dsimp only at haccepted ⊢
        split_ifs at haccepted ⊢ with hbad hqty
        all_goals
          simp [acceptFill, applyIncrementalFill, hqty, hprice, setRegistry, hclock, hportfolio,
            hpassed, hid, fillRecord]

theorem init_queued (p : Portfolio F) (clock : Clock) (config : ExecutionConfig F)
    (sessionPrefix : String) :
    Queued (initEngine p clock config sessionPrefix).core.registry :=
  ⟨rfl, List.nodup_nil, Nat.zero_le _⟩

variable (e : Engine F)

omit [DoubleArith F] in
theorem newIds_delivered (op : EngineOp F) (tradeId : String)
    (h : tradeId ∈ newIds e op) : delivers op tradeId = true := by
  cases op with
  | onFillEvent fill answers =>
    rw [newIds] at h
    split_ifs at h with hold
    · exact absurd h List.not_mem_nil
    · rw [delivers, beq_iff_eq]
      exact (List.mem_singleton.mp h).symm
  | _ => exact absurd h List.not_mem_nil

theorem markedIds_delivered (ops : List (EngineOp F)) (tradeId : String)
    (h : ∀ op ∈ ops, delivers op tradeId = false) : tradeId ∉ markedIds e ops := by
  induction ops generalizing e with
  | nil => exact List.not_mem_nil
  | cons op ops ih =>
    intro hmem
    rcases List.mem_append.mp hmem with hnew | hrest
    · have hdelivered := newIds_delivered e op tradeId hnew
      rw [h op List.mem_cons_self] at hdelivered
      exact absurd hdelivered Bool.false_ne_true
    · exact ih _ (fun o ho => h o (List.mem_cons_of_mem op ho)) hrest

/-- The id of a refused trade is remembered until as many new ids followed it as
the queue holds. -/
theorem remembered_iff (h : Queued e.core.registry) (refused : FillEvent F)
    (answers : OrderId → Bool) (between : List (EngineOp F)) (hnamed : refused.tradeId ≠ "")
    (hnew : refused.tradeId ∉ e.core.registry.seenTradeIds)
    (hfirst : ∀ op ∈ between, delivers op refused.tradeId = false) :
    refused.tradeId ∈ (Runs.run engineStep e
        (.onFillEvent refused answers :: between)).core.registry.seenTradeIds ↔
      (markedIds (engineStep e (.onFillEvent refused answers)) between).length <
        kMaxSeenTradeIds := by
  obtain ⟨hqueued, hfifo⟩ := run_queue e (.onFillEvent refused answers :: between) h
  have hother := markedIds_delivered (engineStep e (.onFillEvent refused answers)) between
    refused.tradeId hfirst
  rw [hqueued.same, List.mem_toFinset, hfifo, markedIds, newIds,
    if_neg (not_or.mpr ⟨hnamed, hnew⟩), List.singleton_append, mem_rtake_iff hother]

/-- After a refusal for an order that was not known or a price that was not
usable, the next event with the trade id is applied exactly when the id is empty
or was forgotten in between. -/
theorem redelivery_applied (capital : F) (clock : Clock) (config : ExecutionConfig F)
    (sessionPrefix : String) (before : List (EngineOp F)) (refused again : FillEvent F)
    (answers : OrderId → Bool) (between : List (EngineOp F)) (e later : Engine F)
    (he : e = Runs.run engineStep
      (initEngine (initPortfolio capital) clock config sessionPrefix) before)
    (hlater : later = Runs.run engineStep e (.onFillEvent refused answers :: between))
    (hrefused : Refused e.core refused)
    (hfirst : refused.tradeId ≠ "" → ∀ op ∈ between, delivers op refused.tradeId = false)
    (hsame : again.tradeId = refused.tradeId)
    (hknown : resolveOrder later.core.registry again.orderId ≠ none)
    (hprice : usable again.fillPrice) :
    (∃ id order, resolveOrder later.core.registry again.orderId = some (id, order) ∧
        Applied later.core again id order) ↔
      refused.tradeId = "" ∨ kMaxSeenTradeIds ≤
        (markedIds (engineStep e (.onFillEvent refused answers)) between).length := by
  have hinit : Sound (initEngine (initPortfolio capital) clock config sessionPrefix) :=
    init_sound (initPortfolio capital) clock config sessionPrefix rfl
  have hqueued : Queued e.core.registry := by
    rw [he]
    exact (run_queue _ before (init_queued _ _ _ _)).1
  have hown : AllOwn later.core := by
    rw [hlater, he, ← Runs.run_append]
    exact (Runs.always_last engineStep (Runs.always_of_meets engineStep (C := fun _ _ => True)
      (fun d op hd _ => step_sound d op hd) _ _ hinit (Runs.meets_true engineStep _ _))).own
  obtain ⟨⟨id, order⟩, hresolve⟩ := Option.ne_none_iff_exists'.mp hknown
  have haccepted : (processFillEvent later.core again).2 = true ↔
      refused.tradeId = "" ∨ refused.tradeId ∉ later.core.registry.seenTradeIds := by
    have hbad : ¬ (isfinite again.fillPrice = false ∨ again.fillPrice ≤ 0) := by
      rw [not_or, Bool.not_eq_false]
      exact hprice
    rw [processFillEvent_accepted _ _ _ hresolve, tradeAccepted, hsame]
    simp [hbad]
  have hforgotten : refused.tradeId ≠ "" → (refused.tradeId ∉ later.core.registry.seenTradeIds ↔
      kMaxSeenTradeIds ≤
        (markedIds (engineStep e (.onFillEvent refused answers)) between).length) := by
    intro hnamed
    have hnew := hrefused.2
    rw [markTrade_seen, Bool.not_eq_false', decide_eq_true_eq] at hnew
    rw [hlater, remembered_iff e hqueued refused answers between hnamed
      (hnew.resolve_left hnamed) (hfirst hnamed), not_lt]
  constructor
  · rintro ⟨i, o, -, happlied⟩
    rcases haccepted.mp happlied.accepted with hempty | hnew
    · exact Or.inl hempty
    · by_cases hnamed : refused.tradeId = ""
      · exact Or.inl hnamed
      · exact Or.inr ((hforgotten hnamed).mp hnew)
  · intro hcondition
    refine ⟨id, order, hresolve, applied_of_accepted later.core hown again id order hresolve ?_⟩
    rw [haccepted]
    by_cases hnamed : refused.tradeId = ""
    · exact Or.inl hnamed
    · exact Or.inr ((hforgotten hnamed).mpr (hcondition.resolve_left hnamed))

def earlyTrade (tradeId : String) : FillEvent ℚ := ⟨"9001", 1, 100, tradeId, 0⟩

/-- An anonymous trade is applied when it comes again after the entry. -/
theorem redelivery_applied_anonymous :
    ∃ id order, resolveOrder (Runs.run engineStep startEngine
        [.onFillEvent (earlyTrade "") (fun _ => false), enter .aggressive]).core.registry "9001" =
          some (id, order) ∧
      Applied (Runs.run engineStep startEngine
        [.onFillEvent (earlyTrade "") (fun _ => false), enter .aggressive]).core
        (earlyTrade "") id order := by
  refine (redelivery_applied 1000 ⟨0, 0, 0⟩ defaultConfig "1" [] (earlyTrade "") (earlyTrade "")
    (fun _ => false) [enter .aggressive] startEngine _ rfl rfl ⟨?_, ?_⟩ ?_ rfl ?_ ⟨rfl, ?_⟩).mpr
    (Or.inl rfl)
  · decide +kernel
  · decide +kernel
  · intro hnamed
    exact absurd rfl hnamed
  · rw [← Option.isSome_iff_ne_none]
    decide +kernel
  · decide +kernel

/-- A trade that was refused for its unknown order is not applied once the order
is known. -/
theorem refused_trade_lost :
    Refused startEngine.core (earlyTrade "t1") ∧
      resolveOrder (Runs.run engineStep startEngine
        [.onFillEvent (earlyTrade "t1") (fun _ => false),
          enter .aggressive]).core.registry "9001" ≠ none ∧
      usable (earlyTrade "t1").fillPrice ∧
      ¬ ∃ id order, Applied (Runs.run engineStep startEngine
        [.onFillEvent (earlyTrade "t1") (fun _ => false), enter .aggressive]).core
        (earlyTrade "t1") id order := by
  refine ⟨⟨?_, ?_⟩, ?_, ⟨rfl, ?_⟩, ?_⟩
  · decide +kernel
  · decide +kernel
  · rw [← Option.isSome_iff_ne_none]
    decide +kernel
  · decide +kernel
  · rintro ⟨id, order, happlied⟩
    have haccepted := happlied.accepted
    revert haccepted
    decide +kernel

end Redelivery

end TB.SeenTrades
