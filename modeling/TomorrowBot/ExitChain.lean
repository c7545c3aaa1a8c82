import TomorrowBot.DoubleValues
import TomorrowBot.EngineBirths
import TomorrowBot.ExecutionAlpha
import TomorrowBot.PreTradeGates
import TomorrowBot.RiskEvaluation

/-!
# The way of an exit to the exchange

An order passes the advice on execution, the risk engine, the gates before a
trade and the execution engine, and each may stop it. The gates and the risk
engine let every exit pass. The advice stops exits as it stops entries, and a
market order without a price is rejected before it is sent.
-/

set_option autoImplicit false

namespace TB.ExitChain
open TB.CommonTypes TB.PortfolioEngine TB.OrderTypes TB.Orders TB.TradingContext
open TB.StrategyTypes TB.PreTradeGates
open TB.ExecutionPlanner TB.ExecutionEngine TB.FillProcessor TB.OrderLife
open TB.EngineBirths
open TB.RiskEngine (ProductionRiskEngine invalidSize)
open TB.RiskChecks (ExtendedRiskConfig)
open TB.ExecutionAlpha (AlphaConfig AlphaResult advisedStyle urgencyScore adverseScore)

section Planning
variable {F : Type} [DoubleArith F] (config : ExecutionConfig F) (intent : TradeIntent F)
  (risk : RiskDecision F) (alpha : ExecutionAlphaResult F) (market : MarketExecutionContext F)

def TakesMarket (action : ExecutionAction) (style : ExecutionStyle) (urgency : F) : Prop :=
  isExit action = true ∨ style = .aggressive ∨ style = .noExecution ∨
    (style = .passive ∨ style = .hybrid) ∧ config.urgencyAggressiveThreshold ≤ urgency

theorem fallbackStyle_market (urgency spread : F) :
    styleToOrderType (fallbackStyle config urgency spread) = .market ↔
      config.urgencyAggressiveThreshold ≤ urgency := by
  unfold fallbackStyle
  split_ifs with hurgent hcalm hfallback <;> simp [styleToOrderType, hurgent]

theorem chooseStyle_market (action : ExecutionAction) :
    styleToOrderType (chooseStyle config alpha market action) = .market ↔
      TakesMarket config action alpha.recommendedStyle alpha.urgencyScore := by
  unfold chooseStyle TakesMarket
  by_cases hexit : isExit action = true
  · simp [hexit, styleToOrderType]
  · rw [if_neg hexit]
    have hfallback := fallbackStyle_market config alpha.urgencyScore market.spreadBps
    cases alpha.recommendedStyle with
    | aggressive | noExecution | postOnly => simp [hexit, styleToOrderType]
    | passive | hybrid => simp [hexit, hfallback]

theorem fallbackStyle_entry (urgency spread : F) :
    fallbackStyle config urgency spread ≠ .reduceOnly := by
  unfold fallbackStyle
  split_ifs <;> decide

theorem chooseStyle_entry (action : ExecutionAction) (hexit : isExit action = false)
    (h : styleToOrderType (chooseStyle config alpha market action) = .market) :
    chooseStyle config alpha market action = .aggressiveMarket := by
  generalize hs : chooseStyle config alpha market action = s at h ⊢
  cases s with
  | aggressiveMarket => rfl
  | reduceOnly =>
    unfold chooseStyle at hs
    rw [hexit] at hs
    have hfallback := fallbackStyle_entry config alpha.urgencyScore market.spreadBps
    cases hstyle : alpha.recommendedStyle <;> simp [hstyle, hfallback] at hs
  | passiveLimit | postOnlyLimit | smartFallback | cancelIfNotFilled => exact absurd h (by decide)

theorem plan_action :
    (plan config intent risk alpha market).action = classifyAction intent := by
  unfold plan marketWhenStale cancelInWideSpread
  split_ifs <;> rfl

/-- A plan sends a priced market order exactly when the advice leads to the
market and the market price is positive; a limit order without a price ends as
a market order without a price. -/
theorem plan_market (hfresh : market.isStale = false) :
    (plan config intent risk alpha market).orderType = .market ∧
        ¬ (plan config intent risk alpha market).plannedPrice ≤ 0 ↔
      TakesMarket config (classifyAction intent) alpha.recommendedStyle alpha.urgencyScore ∧
        ¬ computeMarketPrice intent alpha market ≤ 0 := by
  rw [← chooseStyle_market config alpha market]
  have hplan : plan config intent risk alpha market =
      cancelInWideSpread config market (basePlan config intent risk alpha market) :=
    if_neg (by simp [hfresh])
  rw [hplan]
  by_cases hm : styleToOrderType (chooseStyle config alpha market (classifyAction intent)) = .market
  · have hkept : cancelInWideSpread config market (basePlan config intent risk alpha market) =
        basePlan config intent risk alpha market := by
      apply if_neg
      rintro ⟨-, hopen, hstyle⟩
      have haction : classifyAction intent = .openPosition := hopen
      have haggressive := chooseStyle_entry config alpha market _ (by rw [haction]; rfl) hm
      apply hstyle
      simp [basePlan, haggressive, styleToOrderType]
    rw [hkept]
    simp [basePlan, hm]
  · unfold cancelInWideSpread
    by_cases hprice : computeLimitPrice config intent alpha market ≤ 0
    · split_ifs <;> simp [basePlan, hm, hprice]
    · split_ifs
      · simp [show styleToOrderType .cancelIfNotFilled = .limit from rfl, hm]
      · simp [basePlan, hm, hprice]

end Planning

section Placing
variable {F : Type} [DoubleArith F]

omit [DoubleArith F] in
theorem submission_sent (order : OrderRecord F) (answer : SubmitAnswer F) (l : Life F)
    (found : OrderRecord F) (h : l.record = some found) :
    ∃ sent, (submission order answer l).record = some sent ∧
      sent.orderType = order.orderType ∧ sent.originalQuantity = order.originalQuantity := by
  have hrelease (m : Life F) : (releaseFor order m).record = m.record := by
    unfold releaseFor
    split_ifs <;> rfl
  have hsent : (put order l).record = some order := put_record order found l h
  unfold submission
  cases answer with
  | threw => exact ⟨order, (hrelease _).trans hsent, rfl, rfl⟩
  | returned result clock =>
    dsimp only
    split_ifs
    · rcases tryMove_record clock .rejected result.errorMessage (put order l) order hsent with
        hmove | hmove
      · exact ⟨_, (hrelease _).trans (put_record _ _ _ hmove), rfl, rfl⟩
      · exact ⟨_, (hrelease _).trans (put_record _ _ _ hmove), rfl, rfl⟩
    · exact ⟨_, put_record _ _ _ hsent, rfl, rfl⟩

def Recorded (e : Engine F) (id : OrderId) (type : CommonTypes.OrderType) (qty : F) : Prop :=
  ∃ sent, getOrder e.core.registry id = some sent ∧ sent.orderType = type ∧
    sent.originalQuantity = qty

variable (e : Engine F)

theorem submitOrder_sent (order found : OrderRecord F) (key : String)
    (answer : SubmitAnswer F) (h : (life e.core order.orderId).record = some found) :
    reachedSubmit (submitOrder e order key answer).2 = true ∧
      Recorded (submitOrder e order key answer).1 order.orderId order.orderType
        order.originalQuantity := by
  constructor
  · unfold submitOrder
    cases answer with
    | threw => rfl
    | returned result clock =>
      dsimp only
      split_ifs <;> rfl
  · obtain ⟨sent, hsent, htype, hqty⟩ := submission_sent order answer _ found h
    refine ⟨sent, ?_, htype, hqty⟩
    rw [← life_record, submitOrder_lives e order key answer order.orderId rfl, Function.update_self]
    exact hsent

theorem placeOrder_sent (order : OrderRecord F) (key : String)
    (answer : SubmitAnswer F) (hunborn : life e.core order.orderId = unborn)
    (hexempt : requiresMarginReserve order = false)
    (hprice : ¬ (order.orderType = .market ∧ order.price ≤ 0))
    (hqty : ¬ order.originalQuantity ≤ 0) :
    reachedSubmit (placeOrder e order key answer).2 = true ∧
      Recorded (placeOrder e order key answer).1 order.orderId order.orderType
        order.originalQuantity := by
  obtain ⟨r, hr, hacked⟩ := acked_moves e order hunborn
  have hmargin : tryReserveMargin (setCore e (setRegistry e.core r))
      { order with state := .pendingAck } =
        (e.core.portfolio, { order with state := .pendingAck }, true) :=
    if_pos hexempt
  have hplaced : placeOrder e order key answer =
      submitOrder (setCore e (setRegistry e.core r)) { order with state := .pendingAck } key
        answer := by
    unfold placeOrder
    simp only [hr]
    rw [if_neg hprice, if_neg hqty, hmargin]
    simp only [setCore, setRegistry]
  rw [hplaced]
  refine submitOrder_sent _ { order with state := .pendingAck }
    (setState e.core.clock .pendingAck order) key answer ?_
  show (life (setRegistry e.core r) order.orderId).record = _
  rw [hacked.at_id]
  rfl

theorem placeOrder_unpriced (order : OrderRecord F) (key : String)
    (answer : SubmitAnswer F) (hunborn : life e.core order.orderId = unborn)
    (hprice : order.orderType = .market ∧ order.price ≤ 0) :
    reachedSubmit (placeOrder e order key answer).2 = false := by
  obtain ⟨r, hr, -⟩ := acked_moves e order hunborn
  unfold placeOrder
  simp only [hr]
  rw [if_pos hprice]
  rfl

def SentInFull (r : Engine F × ExecuteOutcome) (id : OrderId) (qty : F) : Prop :=
  reachedSubmit r.2 = true ∧ Recorded r.1 id .market qty

def Duplicate (e : Engine F) (intent : TradeIntent F) : Prop :=
  isDuplicateIntent (cleanupOldIntents e.core.registry e.core.clock e.config.dedupWindowMs)
    (intentDedupKey intent) = true

omit [DoubleArith F] in
theorem validateInputs_iff (risk : RiskDecision F) (alpha : ExecutionAlphaResult F)
    (level : UncertaintyLevel) (hverdict : risk.verdict = .approved) :
    validateInputs risk alpha level = .ok () ↔
      alpha.shouldExecute = true ∧ alpha.recommendedStyle ≠ .noExecution ∧ level ≠ .extreme := by
  unfold validateInputs
  rw [hverdict, if_neg (by decide)]
  split_ifs with hadvice hlevel
  · simp only [false_iff]
    rintro ⟨hshould, hstyle, -⟩
    rcases hadvice with h | h
    · rw [hshould] at h
      cases h
    · exact hstyle h
  · simp [hlevel]
  · obtain ⟨hshould, hstyle⟩ := not_or.mp hadvice
    simp [Bool.of_not_eq_false hshould, hstyle, hlevel]

def issuing (e : Engine F) : Engine F :=
  { setCore e (setRegistry e.core
      (cleanupOldIntents e.core.registry e.core.clock e.config.dedupWindowMs)) with
    nextSeq := e.nextSeq + 1 }

variable (intent : TradeIntent F) (risk : RiskDecision F) (alpha : ExecutionAlphaResult F)

variable (level : UncertaintyLevel) (answer : SubmitAnswer F)

theorem execute_placed
    (hvalid : validateInputs risk alpha level = .ok ()) (hdup : ¬ Duplicate e intent)
    (haction : classifyAction intent ≠ .noAction) :
    execute e intent risk alpha level answer =
      placeOrder (issuing e) (createOrderRecord e intent risk
        (plan e.config intent risk alpha (marketContext intent alpha))) (intentDedupKey intent)
        answer := by
  rw [← plan_action e.config intent risk alpha (marketContext intent alpha)] at haction
  unfold execute
  rw [hvalid]
  exact (if_neg hdup).trans (if_neg haction)

theorem execute_stopped
    (h : validateInputs risk alpha level ≠ .ok () ∨ classifyAction intent = .noAction) :
    reachedSubmit (execute e intent risk alpha level answer).2 = false := by
  unfold execute
  cases hvalid : validateInputs risk alpha level with
  | error err => rfl
  | ok _ =>
    have haction := h.resolve_left (not_not_intro hvalid)
    rw [← plan_action e.config intent risk alpha (marketContext intent alpha)] at haction
    dsimp only
    split_ifs
    · rfl
    · rfl

/-- A close that is no duplicate and has a quantity is sent in full exactly when the
advice allows it and the plan is a priced market order. -/
theorem execute_close (hunborn : life e.core (newId e) = unborn) (hc : intent.tradeSide = .closing)
    (hverdict : risk.verdict = .approved) (hqty : ¬ risk.approvedQuantity ≤ 0)
    (hdup : ¬ Duplicate e intent) :
    SentInFull (execute e intent risk alpha level answer) (newId e) risk.approvedQuantity ↔
      (alpha.shouldExecute = true ∧ alpha.recommendedStyle ≠ .noExecution ∧ level ≠ .extreme) ∧
        classifyAction intent ≠ .noAction ∧
        (plan e.config intent risk alpha (marketContext intent alpha)).orderType = .market ∧
          ¬ (plan e.config intent risk alpha (marketContext intent alpha)).plannedPrice ≤ 0 := by
  rw [← validateInputs_iff risk alpha level hverdict]
  by_cases hstop : validateInputs risk alpha level ≠ .ok () ∨ classifyAction intent = .noAction
  · have hstopped := execute_stopped e intent risk alpha level answer hstop
    constructor
    · intro h
      exact absurd (h.1.symm.trans hstopped) Bool.noConfusion
    · rintro ⟨hvalid, haction, -⟩
      exact absurd hstop (not_or.mpr ⟨not_not_intro hvalid, haction⟩)
  obtain ⟨hvalid, haction⟩ := not_or.mp hstop
  rw [not_not] at hvalid
  rw [execute_placed e intent risk alpha level answer hvalid hdup haction]
  set planned := plan e.config intent risk alpha (marketContext intent alpha)
  have hexempt : requiresMarginReserve (createOrderRecord e intent risk planned) = false := by
    show (intent.tradeSide != .closing) = false
    rw [hc]
    rfl
  by_cases hprice : planned.orderType = .market ∧ planned.plannedPrice ≤ 0
  · have hrefused := placeOrder_unpriced (issuing e) (createOrderRecord e intent risk planned)
      (intentDedupKey intent) answer hunborn hprice
    constructor
    · intro h
      exact absurd (h.1.symm.trans hrefused) Bool.noConfusion
    · intro h
      exact absurd hprice.2 h.2.2.2
  · obtain ⟨hreached, sent, hsent, htype, hwhole⟩ := placeOrder_sent (issuing e)
      (createOrderRecord e intent risk planned) (intentDedupKey intent) answer hunborn hexempt
      hprice hqty
    constructor
    · rintro ⟨-, sent', hsent', hmarket, -⟩
      obtain rfl : sent = sent' := Option.some.inj (hsent.symm.trans hsent')
      have htype' : planned.orderType = .market := htype.symm.trans hmarket
      exact ⟨hvalid, haction, htype', fun h => hprice ⟨htype', h⟩⟩
    · rintro ⟨-, -, hmarket, -⟩
      exact ⟨hreached, sent, hsent, htype.trans hmarket, hwhole⟩

def Running (e : Engine F) : Prop :=
  ∃ (p : Portfolio F) (clock : Clock) (config : ExecutionConfig F) (sessionPrefix : String),
    p.pendingOrders = ∅ ∧
      Runs.Reaches engineStep (fun _ _ => True) (initEngine p clock config sessionPrefix) e

theorem running_new {e : Engine F} (h : Running e) :
    life e.core (newId e) = unborn := by
  obtain ⟨p, clock, config, sessionPrefix, hp, hreach⟩ := h
  have hsound : Sound e := Runs.reaches_invariant engineStep (fun d op hd _ => step_sound d op hd)
    hreach (init_sound p clock config sessionPrefix hp)
  exact hsound.fresh _ le_rfl

end Placing

section Chain
variable {F : Type} [DoubleRounding F]

structure Desk (F : Type) where
  gates : PreTradeGatesConfig F
  advice : AlphaConfig F
  risk : ExtendedRiskConfig F
  riskEngine : ProductionRiskEngine F
  executor : Engine F

structure OrderRequest (F : Type) where
  intent : StrategyIntent F
  sizing : SizingResult F
  portfolio : PortfolioSnapshot F
  features : FeatureSnapshot F
  uncertainty : UncertaintySnapshot F
  fundingRate8h : F
  killSwitch : Option Bool
  nowNs : ℤ

variable (desk : Desk F) (r : OrderRequest F)

def adviceOf : AlphaResult F :=
  ExecutionAlpha.evaluate desk.advice r.intent r.features r.uncertainty r.nowNs

def decisionOf : RiskChecks.RiskDecision F :=
  (RiskEngine.evaluate desk.risk desk.riskEngine r.nowNs r.killSwitch
    ⟨r.intent.toTradeIntent, r.sizing, r.portfolio, r.features, (adviceOf desk r).estimate,
      r.uncertainty⟩).2

def passesGates : Bool :=
  (freshnessGate desk.gates r.intent r.features r.nowNs).passed &&
    (netRRGate desk.gates r.intent r.features.midPrice r.fundingRate8h
      (decide ((adviceOf desk r).recommendedStyle ≠ .postOnly))).passed

def exitChain (answer : SubmitAnswer F) : Option (Engine F × ExecuteOutcome) :=
  if passesGates desk r then
    some (execute desk.executor r.intent.toTradeIntent
      ⟨(decisionOf desk r).verdict, (decisionOf desk r).approvedQuantity⟩ (adviceOf desk r).advice
      r.uncertainty.level answer)
  else none

def NeverBlocked (answer : SubmitAnswer F) : Prop :=
  Duplicate desk.executor r.intent.toTradeIntent ∨
    ∃ out ∈ exitChain desk r answer,
      SentInFull out (newId desk.executor) r.sizing.approvedQuantity

structure Closes : Prop where
  closing : r.intent.tradeSide = .closing
  finite : ¬ RiskEngine.invalidSize r.sizing.approvedQuantity
  positive : ¬ r.sizing.approvedQuantity ≤ 0
  market : ExecutionAlpha.validateFeatures r.features

def grantedAdvice : ExecutionAlphaResult F :=
  ⟨true, advisedStyle desk.advice r.intent r.features r.uncertainty,
    urgencyScore desk.advice r.intent r.features r.uncertainty,
    (ExecutionAlpha.computeLimitPrice desk.advice r.intent r.features
      (advisedStyle desk.advice r.intent r.features r.uncertainty)).1,
    r.features.microstructure.spreadBps⟩

structure Unblocked : Prop where
  running : ¬ ExecutionAlpha.haltedByUncertainty r.intent r.uncertainty
  friendly : ¬ ExecutionAlpha.hostile desk.advice r.features (adverseScore desk.advice r.features)
  signal : classifyAction r.intent.toTradeIntent ≠ .noAction
  atMarket : TakesMarket desk.executor.config (classifyAction r.intent.toTradeIntent)
    (grantedAdvice desk r).recommendedStyle (grantedAdvice desk r).urgencyScore
  priced : ¬ computeMarketPrice r.intent.toTradeIntent (grantedAdvice desk r)
    (marketContext r.intent.toTradeIntent (grantedAdvice desk r)) ≤ 0

variable {desk r}

theorem closes_pass (hc : r.intent.tradeSide = .closing) : passesGates desk r = true := by
  rw [passesGates, freshnessGate_exempts _ _ _ _ hc, netRRGate_exempts _ _ _ _ _ hc]
  rfl

theorem advisedStyle_trades (h : ¬ ExecutionAlpha.hostile desk.advice r.features
    (adverseScore desk.advice r.features)) :
    advisedStyle desk.advice r.intent r.features r.uncertainty ≠ .noExecution := by
  have hstyle := mt (ExecutionAlpha.determineStyle_refuses desk.advice r.intent r.features
    (urgencyScore desk.advice r.intent r.features r.uncertainty)
    (adverseScore desk.advice r.features)
    (ExecutionAlpha.directionalImbalance r.features r.intent.side)).mp h
  unfold advisedStyle ExecutionAlpha.calmedStyle
  split_ifs
  · decide
  · exact hstyle

theorem refused_not_unblocked
    (h : ExecutionAlpha.refuses desk.advice r.intent r.features r.uncertainty)
    (hm : ExecutionAlpha.validateFeatures r.features) : ¬ Unblocked desk r := by
  intro hu
  rcases h with hvalid | hhalted | hhostile
  · exact hvalid hm
  · exact hu.running hhalted
  · exact hu.friendly hhostile

theorem decisionOf_close (desk : Desk F) {r : OrderRequest F} (h : Closes r) :
    (decisionOf desk r).verdict = .approved ∧
      (decisionOf desk r).approvedQuantity = r.sizing.approvedQuantity :=
  RiskEvaluation.evaluate_close desk.risk desk.riskEngine r.nowNs r.killSwitch _ h.closing h.finite

theorem sent_iff (answer : SubmitAnswer F)
    (hnew : life desk.executor.core (newId desk.executor) = unborn) (h : Closes r)
    (hdup : ¬ Duplicate desk.executor r.intent.toTradeIntent) :
    (∃ out ∈ exitChain desk r answer,
      SentInFull out (newId desk.executor) r.sizing.approvedQuantity) ↔ Unblocked desk r := by
  obtain ⟨hverdict, hquantity⟩ := decisionOf_close desk h
  have hpositive : ¬ (decisionOf desk r).approvedQuantity ≤ 0 := hquantity ▸ h.positive
  have hexecute := execute_close desk.executor r.intent.toTradeIntent
    ⟨(decisionOf desk r).verdict, (decisionOf desk r).approvedQuantity⟩ (adviceOf desk r).advice
    r.uncertainty.level answer hnew h.closing hverdict hpositive hdup
  rw [hquantity] at hexecute
  have hchain : exitChain desk r answer = some (execute desk.executor r.intent.toTradeIntent
      ⟨(decisionOf desk r).verdict, r.sizing.approvedQuantity⟩ (adviceOf desk r).advice
      r.uncertainty.level answer) := by
    rw [exitChain, if_pos (closes_pass h.closing), hquantity]
  simp only [hchain, Option.mem_some_iff, exists_eq_left']
  rw [hexecute, plan_market _ _ _ _ _ rfl]
  by_cases hrefuses : ExecutionAlpha.refuses desk.advice r.intent r.features r.uncertainty
  · have hstopped : (adviceOf desk r).advice.shouldExecute = false :=
      (ExecutionAlpha.evaluate_refused desk.advice r.intent r.features r.uncertainty r.nowNs
        hrefuses).1
    constructor
    · intro hsent
      exact absurd (hsent.1.1.symm.trans hstopped) Bool.noConfusion
    · intro hu
      exact absurd hu (refused_not_unblocked hrefuses h.market)
  · have hadvice : (adviceOf desk r).advice = grantedAdvice desk r :=
      ExecutionAlpha.evaluate_advised desk.advice r.intent r.features r.uncertainty r.nowNs hrefuses
    obtain ⟨-, hrunning, hfriendly⟩ : ¬ ¬ ExecutionAlpha.validateFeatures r.features ∧
        ¬ ExecutionAlpha.haltedByUncertainty r.intent r.uncertainty ∧
        ¬ ExecutionAlpha.hostile desk.advice r.features (adverseScore desk.advice r.features) := by
      rw [ExecutionAlpha.refuses, not_or, not_or] at hrefuses
      exact hrefuses
    have hlevel : r.uncertainty.level ≠ .extreme := fun hl => hrunning (.inr (.inr hl))
    have hstyle : (grantedAdvice desk r).recommendedStyle ≠ .noExecution :=
      advisedStyle_trades hfriendly
    rw [hadvice]
    constructor
    · rintro ⟨-, hsignal, hmarket, hpriced⟩
      exact ⟨hrunning, hfriendly, hsignal, hmarket, hpriced⟩
    · intro hu
      exact ⟨⟨rfl, hstyle, hlevel⟩, hu.signal, hu.atMarket, hu.priced⟩

/-- In every state of the risk engine and of the execution engine an exit reaches the
submitter exactly where the advice and the plan let it. -/
theorem never_blocked_iff (answer : SubmitAnswer F) (hrun : Running desk.executor)
    (h : Closes r) :
    NeverBlocked desk r answer ↔
      Duplicate desk.executor r.intent.toTradeIntent ∨ Unblocked desk r := by
  unfold NeverBlocked
  by_cases hdup : Duplicate desk.executor r.intent.toTradeIntent
  · exact iff_of_true (Or.inl hdup) (Or.inl hdup)
  · rw [or_iff_right hdup, or_iff_right hdup, sent_iff answer (running_new hrun) h hdup]

end Chain

section Flatten
variable {F : Type} [DoubleArith F]

def flattenPrice (pos : Position F) : F :=
  if 0 < pos.currentPrice then pos.currentPrice else pos.avgEntryPrice

def flattenIntent (now : Timestamp) (symbol : Symbol) (ps : PositionSide) (pos : Position F) :
    TradeIntent F where
  strategyId := "emergency_flatten"
  symbol := symbol
  side := match ps with
    | .long => .sell
    | .short => .buy
  positionSide := ps
  tradeSide := .closing
  signalIntent := match ps with
    | .long => .longExit
    | .short => .shortExit
  exitReason := .emergencyExit
  correlationId := "emergency_flatten:" ++ symbol ++ ":" ++
    (match ps with | .long => "long" | .short => "short") ++ ":" ++ toString now
  limitPrice := some (flattenPrice pos)
  snapshotMidPrice := some (flattenPrice pos)
  takeProfitPrice := none
  stopLossPrice := none

def flattenAdvice (pos : Position F) : ExecutionAlphaResult F :=
  ⟨true, .aggressive, 1.0, some (flattenPrice pos), 0⟩

/-- One leg of `emergency_flatten_symbol`, up to the confirmation; other operations of the
engine may come before it and after it. A leg without a size is passed over. -/
def flattenLeg (e : Engine F) (symbol : Symbol) (ps : PositionSide) (answer : SubmitAnswer F) :
    Option (Engine F × ExecuteOutcome) :=
  match getPositionSide e.core.portfolio symbol ps with
  | none => none
  | some pos =>
    if pos.size ≤ 0 then none
    else some (execute e (flattenIntent e.core.clock.now symbol ps pos) ⟨.approved, pos.size⟩
      (flattenAdvice pos) .low answer)

/-- In every state of the engine a flatten brings an open leg to the submitter with a market
order of its whole size exactly when the leg has a price, but for a second flatten of
the leg at the same reading of the clock. -/
theorem flattenLeg_sent_iff (e : Engine F) (hrun : Running e) (symbol : Symbol)
    (ps : PositionSide) (pos : Position F) (answer : SubmitAnswer F)
    (hpos : getPositionSide e.core.portfolio symbol ps = some pos) (hopen : ¬ pos.size ≤ 0)
    (hdup : ¬ Duplicate e (flattenIntent e.core.clock.now symbol ps pos)) :
    (∃ r, flattenLeg e symbol ps answer = some r ∧ SentInFull r (newId e) pos.size) ↔
      ¬ flattenPrice pos ≤ 0 := by
  let intent := flattenIntent e.core.clock.now symbol ps pos
  have hleg : flattenLeg e symbol ps answer =
      some (execute e intent ⟨.approved, pos.size⟩ (flattenAdvice pos) .low answer) := by
    unfold flattenLeg
    rw [hpos]
    exact if_neg hopen
  have hplan := plan_market e.config intent ⟨.approved, pos.size⟩ (flattenAdvice pos)
    (marketContext intent (flattenAdvice pos)) rfl
  have hsent := execute_close e intent ⟨.approved, pos.size⟩ (flattenAdvice pos) .low answer
    (running_new hrun) rfl rfl hopen hdup
  have hexit : TakesMarket e.config (classifyAction intent) (flattenAdvice pos).recommendedStyle
      (flattenAdvice pos).urgencyScore := Or.inl rfl
  rw [hleg]
  constructor
  · rintro ⟨r, hr, hfull⟩
    rw [← Option.some.inj hr] at hfull
    exact (hplan.mp (hsent.mp hfull).2.2).2
  · intro hprice
    refine ⟨_, rfl, hsent.mpr ⟨⟨rfl, nofun, by decide⟩, nofun, ?_⟩⟩
    exact hplan.mpr ⟨hexit, hprice⟩

end Flatten

section Session

def sessionDesk : Desk ℚ :=
  ⟨defaultGates, ExecutionAlpha.defaultAlphaConfig, RiskChecks.defaultRiskConfig,
    RiskEngine.initialEngine, startEngine⟩

def exitIntent : StrategyIntent ℚ :=
  { (emptyIntent : StrategyIntent ℚ) with
    symbol := "BTCUSDT"
    side := .sell
    tradeSide := .closing
    signalIntent := .longExit
    snapshotMidPrice := some 100
    suggestedQuantity := 1 }

def exitRequest (mode : ExecutionModeRecommendation) : OrderRequest ℚ where
  intent := exitIntent
  sizing := ⟨1, 100⟩
  portfolio := ⟨[], ⟨0, 0⟩, ⟨0, 0, 0, 0, 0, 0, 0⟩, 1000⟩
  features := {
    defaultFeatures "BTCUSDT" with
    midPrice := 100
    microstructure := {
      (defaultMicrostructure : MicrostructureFeatures ℚ) with
      spreadBps := 2
      spreadValid := true } }
  uncertainty := ⟨.low, 1, mode, ⟨false, ""⟩⟩
  fundingRate8h := 0
  killSwitch := some true
  nowNs := 1

theorem exitRequest_closes (mode : ExecutionModeRecommendation) : Closes (exitRequest mode) where
  closing := rfl
  finite := by
    show ¬ RiskEngine.invalidSize (1 : ℚ)
    decide +kernel
  positive := by
    show ¬ (1 : ℚ) ≤ 0
    norm_num
  market := by
    show ExecutionAlpha.validateFeatures (exitRequest .normal).features
    decide +kernel

theorem sessionDesk_running : Running sessionDesk.executor :=
  ⟨_, _, _, _, rfl, Runs.reaches_refl engineStep _ _⟩

/-- With the kill switch on, the exit is sent. -/
theorem never_blocked_normal :
    NeverBlocked sessionDesk (exitRequest .normal) (.returned ⟨true, "1", "", 1⟩ ⟨0, 0, 0⟩) := by
  refine (never_blocked_iff _ sessionDesk_running (exitRequest_closes .normal)).mpr (Or.inr ?_)
  exact {
    running := by decide +kernel
    friendly := by
      rintro (hwide | ⟨-, hadverse⟩)
      · exact absurd hwide (by decide +kernel)
      · exact absurd hadverse (by decide +kernel)
    signal := by decide
    atMarket := Or.inl rfl
    priced := by decide +kernel }

/-- A halt of new entries stops the exit. -/
theorem halted_exit :
    ¬ ∀ (desk : Desk ℚ) (r : OrderRequest ℚ) (answer : SubmitAnswer ℚ),
      Running desk.executor → Closes r → NeverBlocked desk r answer := by
  intro h
  have hdup : ¬ Duplicate sessionDesk.executor
      (exitRequest .haltNewEntries).intent.toTradeIntent := by
    unfold Duplicate
    decide +kernel
  have hsent := (h sessionDesk (exitRequest .haltNewEntries) .threw sessionDesk_running
    (exitRequest_closes _)).resolve_left hdup
  have hu := (sent_iff .threw (running_new sessionDesk_running) (exitRequest_closes _) hdup).mp
    hsent
  exact hu.running (Or.inl rfl)

def heldLeg : Position ℚ :=
  ⟨"BTCUSDT", .buy, .long, 1, 100, 101, 101, 1, 1, 0, "s", 0, 0⟩

def heldEngine : Engine ℚ :=
  initEngine (storeLeg (initPortfolio 1000) (makePosKey "BTCUSDT" .long) heldLeg) ⟨0, 0, 0⟩
    defaultConfig "1"

theorem flattenLeg_sent_held :
    ∃ r, flattenLeg heldEngine "BTCUSDT" .long .threw = some r ∧ SentInFull r (newId heldEngine) 1 :=
  (flattenLeg_sent_iff heldEngine ⟨_, _, _, _, rfl, Runs.reaches_refl engineStep _ _⟩ "BTCUSDT"
    .long heldLeg .threw (AList.lookup_insert _) (by decide +kernel)
    (by unfold Duplicate; decide +kernel)).mpr (by decide +kernel)

end Session

end TB.ExitChain
