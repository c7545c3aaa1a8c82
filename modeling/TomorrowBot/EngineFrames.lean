import TomorrowBot.EngineBirths

/-!
# What the operations of the engine leave alone

Whatever the engine does to its portfolio is a run of portfolio operations. A
reservation in it is made under an id that holds none, so the laws of the
portfolio's own runs are laws of the engine's runs as well. Only an execution
moves the clock or writes the recorded intents.
-/

set_option autoImplicit false

namespace TB.EngineFrames
open TB.CommonTypes TB.PortfolioEngine TB.PortfolioLedger TB.OrderTypes TB.Orders
open TB.FillProcessor TB.CancelManager TB.RecoveryManager TB.ExecutionPlanner
open TB.ExecutionEngine TB.OrderLife TB.EngineBirths

variable {F : Type} [DoubleArith F]

def FreshReserve (p : Portfolio F) : PortfolioOp F → Prop
  | .reserveCash _ id _ _ _ _ _ => p.pendingOrders.lookup id = none
  | _ => True

def Trades (p q : Portfolio F) : Prop := Runs.Reaches portfolioStep FreshReserve p q

variable (p : Portfolio F)

theorem trades_refl : Trades p p := Runs.reaches_refl portfolioStep _ p

theorem trades_trans {p q r : Portfolio F} (h : Trades p q) (k : Trades q r) : Trades p r :=
  Runs.reaches_trans portfolioStep h k

theorem trades_step (op : PortfolioOp F) (h : FreshReserve p op) :
    Trades p (portfolioStep p op) := Runs.reaches_step portfolioStep h

theorem trades_release (id : OrderId) : Trades p (releaseCash p id) :=
  trades_step _ (.releaseCash id) trivial

theorem trades_fee (fee : F) : Trades p (recordFee p fee) :=
  trades_step _ (.recordFee fee) trivial

structure Works (c d : ExecutionCore F) : Prop where
  clock : d.clock = c.clock
  intents : d.registry.recentIntents = c.registry.recentIntents
  trades : Trades c.portfolio d.portfolio

def kept (r : OrderRegistry F) : Finset String × List String × Dict Timestamp :=
  (r.seenTradeIds, r.seenTradeIdFifo, r.recentIntents)

structure Edits (c d : ExecutionCore F) : Prop where
  clock : d.clock = c.clock
  kept : kept d.registry = kept c.registry
  trades : Trades c.portfolio d.portfolio

theorem Edits.works {c d : ExecutionCore F} (h : Edits c d) : Works c d :=
  ⟨h.clock, congrArg (fun k => k.2.2) h.kept, h.trades⟩

theorem works_trans {c d e : ExecutionCore F} (h : Works c d) (k : Works d e) : Works c e :=
  ⟨k.clock.trans h.clock, k.intents.trans h.intents, trades_trans h.trades k.trades⟩

variable (c : ExecutionCore F)

theorem edits_refl : Edits c c := ⟨rfl, rfl, trades_refl _⟩

theorem edits_trans {c d e : ExecutionCore F} (h : Edits c d) (k : Edits d e) : Edits c e :=
  ⟨k.clock.trans h.clock, k.kept.trans h.kept, trades_trans h.trades k.trades⟩

variable (r : OrderRegistry F)

theorem edits_registry (h : kept r = kept c.registry) : Edits c (setRegistry c r) :=
  ⟨rfl, h, trades_refl _⟩

theorem edits_portfolio (p : Portfolio F) (passed : List (OrderId × F))
    (h : Trades c.portfolio p) : Edits c { c with portfolio := p, passed := passed } :=
  ⟨rfl, rfl, h⟩

theorem edits_release (id : OrderId) : Edits c (releasePortfolio c id) :=
  edits_portfolio c _ c.passed (trades_release _ _)

section Registry
omit [DoubleArith F]

variable (r : OrderRegistry F) (clock : Clock) (id : OrderId) (target : OrderState)

variable (reason : String)

theorem transition_kept : kept (transition r clock id target reason).1 = kept r := by
  unfold transition
  cases r.fsms.lookup id with
  | none => rfl
  | some fsm =>
    dsimp only
    cases OrderFsm.transition fsm clock target reason <;> rfl

theorem forceTransition_kept : kept (forceTransition r clock id target reason) = kept r := by
  unfold forceTransition
  cases r.fsms.lookup id <;> rfl

theorem updateOrder_kept (order : OrderRecord F) : kept (updateOrder r order) = kept r := by
  unfold updateOrder
  split_ifs <;> rfl

theorem transition_intents :
    (transition r clock id target reason).1.recentIntents = r.recentIntents :=
  congrArg (fun k => k.2.2) (transition_kept r clock id target reason)

theorem updateOrder_intents (order : OrderRecord F) :
    (updateOrder r order).recentIntents = r.recentIntents :=
  congrArg (fun k => k.2.2) (updateOrder_kept r order)

theorem checkAndMark_intents (tradeId : String) :
    (checkAndMarkTradeIdSeen r tradeId).1.recentIntents = r.recentIntents := by
  unfold checkAndMarkTradeIdSeen
  split_ifs <;> rfl

theorem forceEach_kept (orders : List (OrderRecord F)) (r : OrderRegistry F) :
    kept (forceEach clock target reason orders r) = kept r := by
  induction orders generalizing r with
  | nil => rfl
  | cons order orders ih => exact (ih _).trans (forceTransition_kept r clock _ target reason)

theorem cleanupTerminal_kept (maxAge : ℤ) :
    kept (cleanupTerminalOrders r clock maxAge) = kept r := by
  unfold cleanupTerminalOrders
  generalize r.orders.entries = entries
  induction entries generalizing r with
  | nil => rfl
  | cons e entries ih =>
    rw [List.foldl_cons, ih]
    split_ifs <;> rfl

end Registry

variable (clock : Clock)

theorem recoverFilled_kept (order : OrderRecord F) (qty price : F) (confirmed : Bool) :
    kept (recoverFilled r clock order qty price confirmed) = kept r := by
  have hforced := forceTransition_kept r clock order.orderId (fillTarget order qty)
    "Recovery: confirmed fill by exchange"
  unfold recoverFilled
  dsimp only
  generalize forceTransition r clock order.orderId (fillTarget order qty)
    "Recovery: confirmed fill by exchange" = forced at hforced ⊢
  have hrest : ∀ s : OrderRegistry F, kept s = kept r →
      kept (if isFullFill order qty then s else if confirmed then
        forceTransition s clock order.orderId .cancelled
          "Recovery: partial fill confirmed, remainder cancelled"
      else s) = kept r := by
    intro s hs
    split_ifs
    · exact hs
    · exact (forceTransition_kept ..).trans hs
    · exact hs
  cases getOrder forced order.orderId with
  | none => exact hrest _ hforced
  | some current => exact hrest _ ((updateOrder_kept forced _).trans hforced)

variable (answers : RecoveryAnswers F)

theorem recoverOrder_kept
    (order : OrderRecord F) : kept (recoverOrder r clock answers order) = kept r := by
  unfold recoverOrder
  dsimp only
  split_ifs
  · exact recoverFilled_kept r clock order _ _ _
  · exact forceTransition_kept ..
  · rfl

theorem recoverEach_kept (orders : List (OrderRecord F)) (r : OrderRegistry F) :
    kept (recoverEach clock answers orders r) = kept r := by
  induction orders generalizing r with
  | nil => rfl
  | cons order orders ih => exact (ih _).trans (recoverOrder_kept r clock answers order)

theorem runReconciliation_edits
    (timeoutMs : ℤ) : Edits c (runReconciliation c answers timeoutMs).1 := by
  apply edits_registry
  exact (forceEach_kept ..).trans ((recoverEach_kept ..).trans (forceEach_kept ..))

section Fills

theorem applyToPortfolio_trades (p : Portfolio F) (now : Timestamp) (order : OrderRecord F)
    (qty price pnl : F) : Trades p (applyToPortfolio p now order qty price pnl) := by
  unfold applyToPortfolio
  cases order.tradeSide with
  | closing =>
    apply trades_trans _ (trades_fee _ _)
    exact trades_step _ (.reducePositionSide now order.symbol order.positionSide qty price pnl)
      trivial
  | opening =>
    apply trades_trans _ (trades_fee _ _)
    apply trades_trans _ (trades_release _ _)
    exact trades_step _ (.openPosition now (openingPosition now order qty price)) trivial

variable (c : ExecutionCore F)

theorem applyFill_edits (order : OrderRecord F) : Edits c (applyFillToPortfolio c order) :=
  edits_portfolio c _ _ (applyToPortfolio_trades _ _ _ _ _ _)

theorem applyIncrementalFill_edits (order : OrderRecord F)
    (fill : FillEvent F) : Edits c (applyIncrementalFill c order fill) := by
  unfold applyIncrementalFill
  split_ifs
  · exact edits_refl c
  · exact edits_portfolio c _ _ (applyToPortfolio_trades _ _ _ _ _ _)

variable (id : OrderId)

theorem processMarketFill_edits (qty price : F)
    (ex : OrderId) : Edits c (processMarketFill c id qty price ex).1 := by
  unfold processMarketFill
  split_ifs
  · exact edits_refl c
  · exact edits_refl c
  · exact edits_refl c
  · cases getOrder c.registry id with
    | none => exact edits_refl c
    | some found =>
      have hmove := transition_kept c.registry c.clock id .filled "Market order filled"
      dsimp only
      cases ht : transition c.registry c.clock id .filled "Market order filled" with
      | mk r ok =>
        rw [ht] at hmove
        cases ok with
        | false => exact edits_refl c
        | true =>
          have hrecorded := edits_registry c (updateOrder r
            (marketFilled found c.clock.now qty price ex))
            ((updateOrder_kept r _).trans hmove)
          have happlied := edits_trans hrecorded
            (applyFill_edits _ (marketFilled found c.clock.now qty price ex))
          exact edits_trans happlied (edits_registry _ _ rfl)

theorem acceptFill_edits (order : OrderRecord F)
    (fill : FillEvent F) : Edits c (acceptFill c id order fill) := by
  unfold acceptFill
  dsimp only
  have hrecorded := edits_registry c (updateOrder (transition c.registry c.clock id
    (fillRecord order c.clock.now fill).state
    (if isFullFill order (fillRecord order c.clock.now fill).filledQuantity then
      "Full fill (fill event)" else "Partial fill (fill event)")).1
    (fillRecord order c.clock.now fill))
    ((updateOrder_kept _ _).trans (transition_kept ..))
  by_cases hqty : 0 < fill.fillQuantity
  · rw [if_pos hqty]
    have happlied := edits_trans hrecorded
      (applyIncrementalFill_edits _ (fillRecord order c.clock.now fill) fill)
    exact edits_trans happlied (edits_registry _ _ rfl)
  · rw [if_neg hqty]
    exact edits_trans hrecorded (edits_registry _ _ rfl)

theorem markTrade_works (fill : FillEvent F) : Works c (markTrade c fill).1 := by
  unfold markTrade
  split_ifs
  · exact (edits_refl c).works
  · exact ⟨rfl, checkAndMark_intents .., trades_refl _⟩

theorem processFillEvent_works (fill : FillEvent F) : Works c (processFillEvent c fill).1 := by
  have hmark := markTrade_works c fill
  unfold processFillEvent
  cases hm : markTrade c fill with
  | mk marked seen =>
    rw [hm] at hmark
    cases seen with
    | true => exact hmark
    | false =>
      dsimp only
      cases resolveOrder marked.registry fill.orderId with
      | none => exact hmark
      | some found =>
        dsimp only
        split_ifs
        · exact hmark
        · exact works_trans hmark (acceptFill_edits marked found.1 found.2 fill).works

theorem processOrderFill_edits (qty price : F) : Edits c (processOrderFill c id qty price).1 := by
  unfold processOrderFill
  cases getOrder c.registry id with
  | none => exact edits_refl c
  | some found =>
    dsimp only
    have hrecorded := edits_registry c (updateOrder c.registry
      (reconciledRecord found c.clock.now (isFillApplied c.registry id) qty price))
      (updateOrder_kept _ _)
    split_ifs
    · have hmarked := edits_trans hrecorded (edits_registry _ (markFillApplied _ id) rfl)
      exact edits_trans hmarked (applyFill_edits _ _)
    · exact hrecorded

end Fills

section Cancels

theorem doCancel_edits (c : ExecutionCore F) (confirmed : Bool) (id : OrderId) :
    Edits c (doCancel c confirmed id).1 := by
  unfold doCancel
  cases getOrder c.registry id with
  | none => exact edits_refl c
  | some order =>
    have hmove := transition_kept c.registry c.clock id .cancelPending "Cancel requested"
    dsimp only
    cases ht : transition c.registry c.clock id .cancelPending "Cancel requested" with
    | mk pending ok =>
      rw [ht] at hmove
      cases ok with
      | false => exact edits_refl c
      | true =>
        dsimp only
        by_cases hconfirmed : confirmed = true
        · rw [if_pos hconfirmed]
          have hcancelled := edits_registry c
            (transition pending c.clock id .cancelled "Cancel confirmed").1
            ((transition_kept ..).trans hmove)
          unfold releaseCashIfNeeded
          split_ifs
          · exact edits_trans hcancelled (edits_release _ _)
          · exact hcancelled
        · rw [if_neg hconfirmed]
          exact edits_registry c _ ((forceTransition_kept ..).trans hmove)

theorem cancelEach_edits (answers : OrderId → Bool) (ids : List OrderId) (c : ExecutionCore F) :
    Edits c (cancelEach answers ids c).1 := by
  induction ids generalizing c with
  | nil => exact edits_refl c
  | cons id ids ih => exact edits_trans (doCancel_edits c (answers id) id) (ih _)

theorem cancelTimedOut_edits (answers : OrderId → Bool) (ids : List OrderId)
    (c : ExecutionCore F) : Edits c (cancelTimedOut answers ids c).1 := by
  induction ids generalizing c with
  | nil => exact edits_refl c
  | cons id ids ih =>
    unfold cancelTimedOut
    cases getOrder c.registry id with
    | none => exact ih c
    | some order =>
      dsimp only
      split_ifs
      · exact ih c
      · exact edits_trans (doCancel_edits c (answers id) id) (ih _)
      · exact edits_trans (doCancel_edits c (answers id) id) (ih _)

theorem enforceCancelRemaining_edits (c : ExecutionCore F) (answers : OrderId → Bool)
    (id : OrderId) : Edits c (enforceCancelRemaining c answers id) := by
  unfold enforceCancelRemaining cancelRemaining
  cases checkCancelRemaining c.registry id with
  | none => exact edits_refl c
  | some other =>
    dsimp only
    cases getOrder c.registry other with
    | none => exact edits_refl c
    | some order => exact doCancel_edits c (answers other) other

end Cancels

section Events

theorem onOrderUpdate_edits (c : ExecutionCore F) (x : OrderId) (newState : OrderState)
    (qty price : F) (answers : OrderId → Bool) :
    Edits c (onOrderUpdate c x newState qty price answers) := by
  unfold onOrderUpdate
  cases resolveOrder c.registry x with
  | none => exact edits_refl c
  | some found =>
    obtain ⟨id, order⟩ := found
    have hmove := transition_kept c.registry c.clock id newState "Exchange update"
    dsimp only
    cases ht : transition c.registry c.clock id newState "Exchange update" with
    | mk r ok =>
      rw [ht] at hmove
      cases ok with
      | false => exact edits_refl c
      | true =>
        have hmoved := edits_registry c r hmove
        have hreleased : Edits c (releaseUnfilled (setRegistry c r) id order newState) := by
          unfold releaseUnfilled
          split_ifs
          · exact edits_trans hmoved (edits_release _ _)
          · exact hmoved
        dsimp only
        split_ifs
        · exact edits_trans hreleased (edits_trans (processOrderFill_edits _ id qty price)
            (enforceCancelRemaining_edits _ answers x))
        · exact hreleased

theorem onFillEvent_works (c : ExecutionCore F) (fill : FillEvent F) (answers : OrderId → Bool) :
    Works c (onFillEvent c fill answers) := by
  have hprocessed := processFillEvent_works c fill
  unfold onFillEvent
  dsimp only
  cases resolveOrder (processFillEvent c fill).1.registry fill.orderId with
  | none => exact hprocessed
  | some found =>
    exact works_trans hprocessed (enforceCancelRemaining_edits _ answers found.1).works

theorem releaseGuard_edits (c : ExecutionCore F) (order : OrderRecord F) :
    Edits c (releaseGuard c order) := by
  unfold releaseGuard
  split_ifs
  · exact edits_release c _
  · exact edits_refl c

theorem confirmFill_edits (c : ExecutionCore F) (a : AwaitingFill F) (answer : FillAnswer F) :
    Edits c (confirmFill c a answer) := by
  have hmoved : ∀ target reason, Edits c (setRegistry c
      (transition c.registry c.clock a.order.orderId target reason).1) :=
    fun target reason => edits_registry c _ (transition_kept ..)
  unfold confirmFill
  dsimp only
  split_ifs
  · exact hmoved _ _
  · exact edits_trans (hmoved _ _) (releaseGuard_edits _ _)
  · exact hmoved _ _
  · exact edits_trans (hmoved _ _) (releaseGuard_edits _ _)
  · exact edits_trans (hmoved _ _) (releaseGuard_edits _ _)
  all_goals exact processMarketFill_edits c _ _ _ _

/-- Every operation but an execution, a trade, the question for a duplicate and the
clock itself edits orders and the portfolio only. -/
theorem engineStep_edits (e : Engine F) (op : EngineOp F) :
    match op with
    | .execute _ _ _ _ _ | .onFillEvent _ _ | .isDuplicate _ | .advanceClock _ => True
    | _ => Edits e.core (engineStep e op).core := by
  cases op with
  | execute | onFillEvent | isDuplicate | advanceClock => trivial
  | confirm x answer =>
    simp only [engineStep, confirm]
    cases e.awaiting.find? (awaits x) with
    | none => exact edits_refl _
    | some a => exact confirmFill_edits e.core a answer
  | onOrderUpdate x newState qty price answers =>
    exact onOrderUpdate_edits e.core x newState qty price answers
  | cancel x answers => exact doCancel_edits e.core (answers x) x
  | cancelAllForSymbol symbol answers => exact cancelEach_edits answers _ e.core
  | cancelAll answers => exact cancelEach_edits answers _ e.core
  | cancelTimedOutOrders maxMs answers => exact cancelTimedOut_edits answers _ e.core
  | cleanupTerminalOrders maxAge =>
    exact edits_registry e.core _ (cleanupTerminal_kept e.core.registry e.core.clock maxAge)
  | runReconciliation answers => exact runReconciliation_edits e.core answers _
  | setLeverage | setMinNotionalUsdt | setDefaultFillPolicy => exact edits_refl _

/-- Every operation but an execution, the question for a duplicate and the clock
itself is work on the core. -/
theorem engineStep_works (e : Engine F) (op : EngineOp F) :
    match op with
    | .execute _ _ _ _ _ | .isDuplicate _ | .advanceClock _ => True
    | _ => Works e.core (engineStep e op).core := by
  have hedits := engineStep_edits e op
  cases op with
  | execute | isDuplicate | advanceClock => trivial
  | onFillEvent fill answers => exact onFillEvent_works e.core fill answers
  | _ => exact hedits.works

end Events

section Executions

theorem closePhantom_trades (p : Portfolio F) (order : OrderRecord F) (message : String) :
    Trades p (closePhantom p order message) := by
  unfold closePhantom
  by_cases hphantom : order.tradeSide = .closing ∧ "22002".toList <:+: message.toList
  · rw [if_pos hphantom]
    cases getPositionSide p order.symbol order.positionSide with
    | none => exact trades_refl _
    | some pos =>
      by_cases hsize : 0 < pos.size
      · simp only [if_pos hsize]
        exact trades_step _ (.closePositionSide order.symbol order.positionSide _) trivial
      · simp only [if_neg hsize]
        exact trades_refl _
  · rw [if_neg hphantom]
    exact trades_refl _

variable (e : Engine F) (order : OrderRecord F)

theorem tryReserveMargin_trades
    (hnew : e.core.portfolio.pendingOrders.lookup order.orderId = none) :
    Trades e.core.portfolio (tryReserveMargin e order).1 := by
  have hreserve : ∀ notional fee, Trades e.core.portfolio (reserveCash e.core.portfolio
      e.core.clock.now order.orderId order.symbol order.side notional fee order.strategyId).1 :=
    fun notional fee => trades_step _ (.reserveCash e.core.clock.now order.orderId order.symbol
      order.side notional fee order.strategyId) hnew
  unfold tryReserveMargin
  dsimp only
  generalize (if 0 < order.price then order.price else 0) = price
  by_cases hexempt : requiresMarginReserve order = false
  · rw [if_pos hexempt]
    exact trades_refl _
  rw [if_neg hexempt]
  by_cases hzero : order.originalQuantity * price ≤ 0
  · rw [if_pos hzero]
    exact trades_refl _
  rw [if_neg hzero]
  by_cases hmin : order.originalQuantity * price < e.config.minNotionalUsdt
  · rw [if_pos hmin]
    exact trades_refl _
  rw [if_neg hmin]
  have hfirst := hreserve (order.originalQuantity * price / e.leverage)
    (order.originalQuantity * price * kDefaultTakerFeePct)
  generalize reserveCash e.core.portfolio e.core.clock.now order.orderId order.symbol
    order.side (order.originalQuantity * price / e.leverage)
    (order.originalQuantity * price * kDefaultTakerFeePct) order.strategyId = first at hfirst ⊢
  obtain ⟨reserved, ok⟩ := first
  cases ok with
  | true => exact hfirst
  | false =>
    dsimp only
    split_ifs
    · exact trades_refl _
    · exact trades_refl _
    · exact hreserve _ _

theorem releaseGuard_trades (c : ExecutionCore F) (p : Portfolio F) (hp : c.portfolio = p)
    (order : OrderRecord F) : Trades p (releaseGuard c order).portfolio := by
  subst hp
  exact (releaseGuard_edits c order).trades

theorem submitOrder_trades (key : String) (answer : SubmitAnswer F) :
    Trades e.core.portfolio (submitOrder e order key answer).1.core.portfolio := by
  unfold submitOrder
  cases answer with
  | threw =>
    apply releaseGuard_trades
    rfl
  | returned result clock =>
    dsimp only
    by_cases hfail : result.success = false
    · rw [if_pos hfail]
      apply trades_trans (closePhantom_trades e.core.portfolio order result.errorMessage)
      apply releaseGuard_trades
      rfl
    · rw [if_neg hfail]
      exact trades_refl _

theorem placeOrder_trades (key : String) (answer : SubmitAnswer F)
    (hnew : e.core.portfolio.pendingOrders.lookup order.orderId = none) :
    Trades e.core.portfolio (placeOrder e order key answer).1.core.portfolio := by
  unfold placeOrder
  dsimp only
  cases transition (registerOrder e.core.registry e.core.clock order) e.core.clock order.orderId
    .pendingAck "Submitting to exchange" with
  | mk r ok =>
    cases ok with
    | false => exact trades_refl _
    | true =>
      dsimp only
      split_ifs
      · exact trades_refl _
      · exact trades_refl _
      have hreserve := tryReserveMargin_trades (setCore e (setRegistry e.core r))
        { order with state := OrderState.pendingAck } hnew
      generalize tryReserveMargin (setCore e (setRegistry e.core r))
        { order with state := OrderState.pendingAck } = out at hreserve ⊢
      obtain ⟨p, sized, ok⟩ := out
      cases ok with
      | false => exact hreserve
      | true =>
        apply trades_trans hreserve
        exact submitOrder_trades (setCore e { setRegistry e.core r with portfolio := p }) sized
          key answer

theorem execute_trades (intent : TradeIntent F) (risk : RiskDecision F)
    (alpha : ExecutionAlphaResult F) (uncertainty : UncertaintyLevel) (answer : SubmitAnswer F)
    (hnew : e.core.portfolio.pendingOrders.lookup (newId e) = none) :
    Trades e.core.portfolio (execute e intent risk alpha uncertainty answer).1.core.portfolio := by
  unfold execute
  cases validateInputs risk alpha uncertainty with
  | error err => exact trades_refl _
  | ok _ =>
    dsimp only
    split_ifs
    · exact trades_refl _
    · exact trades_refl _
    · exact placeOrder_trades { setCore e (setRegistry e.core (cleanupOldIntents e.core.registry
        e.core.clock e.config.dedupWindowMs)) with nextSeq := e.nextSeq + 1 }
        (createOrderRecord e intent risk _) (intentDedupKey intent) answer hnew

theorem engineStep_trades (op : EngineOp F) (hs : Sound e) :
    Trades e.core.portfolio (engineStep e op).core.portfolio := by
  have hworks := engineStep_works e op
  cases op with
  | execute intent risk alpha uncertainty answer =>
    apply execute_trades
    exact congrArg Life.reserved (hs.fresh e.nextSeq (le_refl _))
  | isDuplicate | advanceClock => exact trades_refl _
  | _ => exact hworks.trades

theorem always_portfolio {I : Portfolio F → Prop}
    (hstep : ∀ p op, I p → FreshReserve p op → I (portfolioStep p op)) (e : Engine F)
    (ops : List (EngineOp F)) (hs : Sound e) (hi : I e.core.portfolio) :
    Runs.Always engineStep (fun e => Sound e ∧ I e.core.portfolio) e ops := by
  apply Runs.always_of_meets engineStep (C := fun _ _ => True) _ e ops ⟨hs, hi⟩
    (Runs.meets_true engineStep e ops)
  rintro d op ⟨hd, hp⟩ -
  exact ⟨step_sound d op hd,
    Runs.reaches_invariant portfolioStep hstep (engineStep_trades d op hd) hp⟩

end Executions

theorem always_balanced (e : Engine ℚ) (ops : List (EngineOp ℚ)) (hs : Sound e)
    (hb : Balanced e.core.portfolio) :
    Runs.Always engineStep (fun e => Balanced e.core.portfolio) e ops := by
  have h := always_portfolio (I := Balanced) (by
    intro p op hp hfresh
    rw [step_balanced_iff p op hp]
    cases op with
    | reserveCash now id s side notional fee strategy =>
      right
      intro info hinfo
      have hnone : p.pendingOrders.lookup id = none := hfresh
      rw [hnone] at hinfo
      exact absurd hinfo (by simp)
    | _ => trivial) e ops hs hb
  exact Runs.always_mono engineStep (fun _ h => h.2) e ops h

/-- Under the engine the check of the portfolio is one of its free cash. -/
theorem engine_check (c : ℚ) (clock : Clock) (config : ExecutionConfig ℚ) (sessionPrefix : String)
    (ops : List (EngineOp ℚ)) :
    Runs.Always engineStep (fun e => checkInvariants e.core.portfolio = true ↔
        -0.01 ≤ e.core.portfolio.cashLedger.availableCash)
      (initEngine (initPortfolio c) clock config sessionPrefix) ops := by
  have hb := always_balanced _ ops (init_sound _ clock config sessionPrefix rfl) (init_balanced c)
  refine Runs.always_mono engineStep (fun e he => ?_) _ ops hb
  obtain ⟨hreserved, hcash⟩ := (balanced_iff_gaps _).mp he
  rw [checkInvariants_iff, hreserved, hcash, abs_zero]
  exact ⟨fun h => h.1, fun h => ⟨h, by norm_num, by norm_num⟩⟩

end TB.EngineFrames
