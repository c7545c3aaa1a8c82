import Mathlib.Algebra.Order.BigOperators.Group.List
import TomorrowBot.OrderAgreement
import TomorrowBot.OrderLedger

/-!
# How often an execution is applied

The same executions of an order reach the fill processor trade by trade, as
the confirmed quantity of a market order, and as cumulative quantities. While
each order is applied through one of these doors only, and each trade once,
no more than was executed reaches the portfolio.
-/

set_option autoImplicit false

namespace TB.FillOnce
open TB.CommonTypes TB.PortfolioEngine TB.OrderTypes TB.FillProcessor
open TB.ExecutionPlanner TB.ExecutionEngine TB.OrderLife TB.EngineLives TB.EngineSimulation
open TB.LifeSteps TB.EngineBirths TB.OrderAgreement TB.OrderLedger

structure Executed (trades : List (FillEvent ℚ)) : Prop where
  distinct : (trades.map (fun t => t.tradeId)).Nodup
  named : ∀ t ∈ trades, t.tradeId ≠ ""
  positive : ∀ t ∈ trades, 0 < t.fillPrice ∧ 0 < t.fillQuantity

section Totals

theorem total_nonneg (trades : List (FillEvent ℚ)) (h : Executed trades) : 0 ≤ total trades := by
  apply List.sum_nonneg
  intro q hq
  obtain ⟨t, ht, rfl⟩ := List.mem_map.mp hq
  exact le_of_lt (h.positive t ht).2

theorem total_sublist (some trades : List (FillEvent ℚ)) (h : Executed trades)
    (hsub : some.Sublist trades) : total some ≤ total trades := by
  apply (hsub.map _).sum_le_sum
  intro q hq
  obtain ⟨t, ht, rfl⟩ := List.mem_map.mp hq
  exact le_of_lt (h.positive t ht).2

def entry (t : FillEvent ℚ) : String × ℚ := (t.tradeId, t.fillQuantity)

/-- A ledger of trades with distinct ids, each one of the trades up to the order
id it came under, holds no more than all of them. -/
theorem total_ledger (ledger trades : List (FillEvent ℚ)) (h : Executed trades)
    (hdistinct : (ledger.map (fun t => t.tradeId)).Nodup)
    (hof : ∀ f ∈ ledger, entry f ∈ trades.map entry) : total ledger ≤ total trades := by
  have hnodup : (ledger.map entry).Nodup := by
    apply List.Nodup.of_map Prod.fst
    rw [List.map_map]
    exact hdistinct
  have hsubset : ledger.map entry ⊆ trades.map entry := by
    intro e he
    obtain ⟨f, hf, rfl⟩ := List.mem_map.mp he
    exact hof f hf
  obtain ⟨mid, hperm, hsub⟩ := List.subperm_of_subset hnodup hsubset
  have hledger : total ledger = (mid.map Prod.snd).sum := by
    rw [(hperm.map Prod.snd).sum_eq, List.map_map]
    rfl
  have htrades : total trades = ((trades.map entry).map Prod.snd).sum := by
    rw [List.map_map]
    rfl
  rw [hledger, htrades]
  apply (hsub.map _).sum_le_sum
  intro q hq
  rw [List.map_map] at hq
  obtain ⟨t, ht, rfl⟩ := List.mem_map.mp hq
  exact le_of_lt (h.positive t ht).2

end Totals

section Doors

inductive Tracked (trades : List (FillEvent ℚ)) (l : Life ℚ) : Prop where
  | fresh (hfills : fills l = []) (happlied : l.applied = false) (hpassed : l.passed = [])
      (hfilled : filled l ≤ total trades) (hagree : Agree l)
  | whole (hfills : fills l = []) (happlied : l.applied = true)
      (hpassed : l.passed.sum ≤ total trades) (hstate : l.fsm.map (fun fsm => fsm.state) =
        some .filled)
  | byTrade (hfills : fills l ≠ []) (hpassed : l.passed = (fills l).map (fun t => t.fillQuantity))
      (hdistinct : ((fills l).map (fun t => t.tradeId)).Nodup)
      (hof : ∀ f ∈ fills l, entry f ∈ trades.map entry)

variable (trades : List (FillEvent ℚ))

theorem tracked_passed (hex : Executed trades) (l : Life ℚ)
    (h : Tracked trades l) : l.passed.sum ≤ total trades := by
  cases h with
  | fresh _ _ hpassed _ _ =>
    rw [hpassed]
    exact total_nonneg trades hex
  | whole _ _ hpassed _ => exact hpassed
  | byTrade _ hpassed hdistinct hof =>
    rw [hpassed]
    exact total_ledger (fills l) trades hex hdistinct hof

def NewTrade (t : FillEvent ℚ) (l : Life ℚ) : Prop :=
  (l.applied = true → fills l ≠ []) ∧ t.tradeId ∉ (fills l).map (fun f => f.tradeId)

def NoTrades (l : Life ℚ) : Prop := l.applied = false → fills l = []

theorem tracked_sameFills (l m : Life ℚ) (h : SameFills l m)
    (hagree : Agree l → Agree m) (ht : Tracked trades l) (hopen : l.applied = true →
      fills l = [] → m = l) : Tracked trades m := by
  cases ht with
  | fresh hfills happlied hpassed hfilled hag =>
    have ha : m.applied = false := by
      rw [← Bool.not_eq_true]
      intro hm
      rw [h.applied hm] at happlied
      exact absurd happlied (by simp)
    exact .fresh (h.fills.trans hfills) ha (h.passed.trans hpassed) (h.filled ▸ hfilled)
      (hagree hag)
  | whole hfills happlied hpassed hstate =>
    rw [hopen happlied hfills]
    exact .whole hfills happlied hpassed hstate
  | byTrade hfills hpassed hdistinct hof =>
    rw [← h.fills] at hfills hpassed hdistinct hof
    exact .byTrade hfills (h.passed.trans hpassed) hdistinct hof

theorem whole_state (l : Life ℚ) (ht : Tracked trades l)
    (happlied : l.applied = true) (hfills : fills l = []) :
    l.fsm.map (fun fsm => fsm.state) = some .filled := by
  cases ht with
  | fresh _ hnot _ _ _ =>
    rw [hnot] at happlied
    exact absurd happlied (by simp)
  | whole _ _ _ hstate => exact hstate
  | byTrade hne _ _ _ => exact absurd hfills hne

variable (clock : Clock)

theorem tracked_remainder (confirmed : Bool)
    (l : Life ℚ) (ht : Tracked trades l) : Tracked trades (remainder clock confirmed l) := by
  apply tracked_sameFills trades l _ (sameFills_moves.remainder clock confirmed l)
    (lawful_steps.remainder clock confirmed l).agree ht
  intro happlied hfills
  unfold remainder
  cases l.record with
  | none => rfl
  | some order =>
    dsimp only
    rw [filled_cancel clock confirmed l (whole_state trades l ht happlied hfills)]
    split_ifs <;> rfl

theorem tracked_trade (order : OrderRecord ℚ)
    (fill : FillEvent ℚ) (l : Life ℚ) (hrec : l.record = some order)
    (hq : 0 < fill.fillQuantity) (hp : 0 < fill.fillPrice) (hof : entry fill ∈ trades.map entry)
    (hnew : NewTrade fill l) (ht : Tracked trades l) :
    Tracked trades (trade clock order fill l) := by
  have hfills' := trade_fills clock order fill l hrec
  have hpassed' := trade_passed clock order fill l hp
  rw [if_pos hq] at hpassed'
  cases ht with
  | fresh hfills happlied hpassed hfilled hag =>
    rw [hfills, List.nil_append] at hfills'
    rw [hpassed, List.nil_append] at hpassed'
    apply Tracked.byTrade
    · rw [hfills']
      simp
    · rw [hfills', hpassed']
      rfl
    · rw [hfills']
      simp
    · rw [hfills']
      intro f hf
      rw [List.mem_singleton.mp hf]
      exact hof
  | whole hfills happlied _ _ => exact absurd hfills (hnew.1 happlied)
  | byTrade hfills hpassed hdistinct hall =>
    apply Tracked.byTrade
    · rw [hfills']
      simp
    · rw [hfills', hpassed', hpassed, List.map_append]
      rfl
    · rw [hfills', List.map_append, List.map_singleton, List.nodup_append]
      refine ⟨hdistinct, List.nodup_singleton _, ?_⟩
      intro a ha b hb
      rw [List.mem_singleton] at hb
      subst hb
      intro hab
      exact hnew.2 (hab ▸ ha)
    · rw [hfills']
      intro f hf
      rcases List.mem_append.mp hf with hf | hf
      · exact hall f hf
      · rw [List.mem_singleton.mp hf]
        exact hof

theorem tracked_marketFill (price : ℚ)
    (ex : OrderId) (l : Life ℚ) (hno : 0 < price → canMoveTo .filled l = true → NoTrades l)
    (ht : Tracked trades l) : Tracked trades (marketFill clock (total trades) price ex l) := by
  unfold marketFill
  by_cases happlied : l.applied = true
  · rw [if_pos happlied]
    exact ht
  rw [if_neg happlied]
  by_cases hprice : isfinite price = false ∨ price ≤ 0
  · rw [if_pos hprice]
    exact ht
  rw [if_neg hprice]
  rw [not_or, not_le] at hprice
  by_cases hqty : isfinite (total trades) = false ∨ total trades ≤ 0
  · rw [if_pos hqty]
    exact ht
  rw [if_neg hqty]
  cases hrec : l.record with
  | none => exact ht
  | some found =>
    cases hmove : move clock .filled "Market order filled" l with
    | none => exact ht
    | some moved =>
      have hnone := hno hprice.2 (canMove_of_move hmove)
      rw [Bool.not_eq_true] at happlied
      have hfills := hnone happlied
      obtain ⟨fsm, -, -, rfl⟩ := move_some hmove
      cases ht with
      | fresh _ _ hpassed _ _ =>
        rw [fills, hrec] at hfills
        apply Tracked.whole
        · simpa [fills, mark, hand, put, marketFilled, hrec] using hfills
        · rfl
        · simp [mark, hand, put, marketFilled, hpassed]
        · rfl
      | whole _ htrue _ _ =>
        rw [happlied] at htrue
        exact absurd htrue (by simp)
      | byTrade hne _ _ _ => exact absurd hfills hne

theorem tracked_report (qty price : ℚ) (l : Life ℚ) (hq : qty ≤ total trades)
    (hno : ∀ order, l.record = some order → order.state = .filled → NoTrades l)
    (ht : Tracked trades l) : Tracked trades (report clock qty price l) := by
  unfold report
  cases hrec : l.record with
  | none => exact ht
  | some found =>
    obtain ⟨hfills', hfilled'⟩ := reported_fills found clock.now l.applied qty price l hrec
    dsimp only
    by_cases happly : (reconciledRecord found clock.now l.applied qty price).state = .filled ∧
        l.applied = false
    · rw [if_pos happly]
      have hstate : found.state = .filled := happly.1
      have hfills := hno found hrec hstate happly.2
      cases ht with
      | fresh _ _ hpassed hfilled hag =>
        apply Tracked.whole
        · exact hfills'.trans hfills
        · rfl
        · have hmax : (reconciledRecord found clock.now l.applied qty price).filledQuantity =
              max found.filledQuantity qty := stdMax_rat found.filledQuantity qty
          have hle : found.filledQuantity ≤ total trades := by
            rw [filled, hrec] at hfilled
            exact hfilled
          have hone : (hand (reconciledRecord found clock.now l.applied qty price)
              (reconciledRecord found clock.now l.applied qty price).filledQuantity
              (mark (put (reconciledRecord found clock.now l.applied qty price) l))).passed =
              [max found.filledQuantity qty] := by
            simp [hand, mark, put, hpassed, hmax]
          rw [hone, List.sum_singleton]
          exact max_le hle hq
        · show l.fsm.map (fun fsm => fsm.state) = some .filled
          rw [hag found hrec, hstate]
      | whole _ htrue _ _ =>
        rw [happly.2] at htrue
        exact absurd htrue (by simp)
      | byTrade hne _ _ _ => exact absurd hfills hne
    · rw [if_neg happly]
      cases ht with
      | fresh hfills happlied hpassed hfilled hag =>
        refine .fresh (hfills'.trans hfills) happlied hpassed ?_ ?_
        · rw [hfilled']
          apply max_le _ hq
          rw [filled, hrec] at hfilled
          exact hfilled
        · intro order ho
          rw [put_record _ found l hrec, Option.some.injEq] at ho
          subst ho
          exact hag found hrec
      | whole hfills happlied hpassed hstate =>
        exact .whole (hfills'.trans hfills) happlied hpassed hstate
      | byTrade hfills hpassed hdistinct hof =>
        rw [← hfills'] at hfills hpassed hdistinct hof
        exact .byTrade hfills hpassed hdistinct hof

theorem tracked_update (newState : OrderState)
    (qty price : ℚ) (direct confirmed : Bool) (l : Life ℚ) (hq : qty ≤ total trades)
    (hno : newState = .filled → 0 < qty → canMoveTo newState l = true → NoTrades l)
    (ht : Tracked trades l) :
    Tracked trades (update clock newState qty price direct confirmed l) := by
  cases hrec : l.record with
  | none =>
    rw [update_refused clock newState qty price direct confirmed l (.inl hrec)]
    exact ht
  | some order =>
    cases hmove : move clock newState "Exchange update" l with
    | none =>
      rw [update_refused clock newState qty price direct confirmed l (.inr hmove)]
      exact ht
    | some moved =>
      obtain ⟨released, hsame, happlied, hrecord, hfsm, hupdate⟩ :=
        update_moved clock newState qty price direct confirmed l moved order hrec hmove
      have hagree : Agree l → Agree released := by
        intro _ found hfound
        rw [hrecord, Option.some.injEq] at hfound
        obtain ⟨fsm, -, -, hmoved⟩ := move_some hmove
        rw [hfsm, hmoved, ← hfound]
        rfl
      have hreleased : Tracked trades released := by
        apply tracked_sameFills trades l released hsame hagree ht
        intro hflag hfills
        rw [filled_stuck clock newState _ l (whole_state trades l ht hflag hfills)] at hmove
        exact absurd hmove (by simp)
      rw [hupdate]
      by_cases hqty : 0 < qty
      · rw [if_pos hqty]
        have hreport := tracked_report trades clock qty price released hq (by
          intro found hfound hstate hnot
          rw [hrecord, Option.some.injEq] at hfound
          rw [← hfound] at hstate
          rw [hsame.fills]
          exact hno hstate hqty (canMove_of_move hmove) (happlied ▸ hnot)) hreleased
        split_ifs
        · exact tracked_remainder trades clock confirmed _ hreport
        · exact hreport
      · rw [if_neg hqty]
        exact hreleased

end Doors

section Deliveries

inductive Delivery where
  | processFillEvent (trade : FillEvent ℚ) (orderId : OrderId)
  | processMarketFill (fillPrice : ℚ) (exchangeOrderId : OrderId)
  | processOrderFill (reported : List (FillEvent ℚ)) (fillPrice : ℚ)
  | onOrderUpdate (orderId : OrderId) (newState : OrderState) (reported : List (FillEvent ℚ))
      (fillPrice : ℚ) (answers : OrderId → Bool)

def under (orderId : OrderId) (trade : FillEvent ℚ) : FillEvent ℚ :=
  { trade with orderId := orderId }

def deliver (id : OrderId) (trades : List (FillEvent ℚ)) (c : ExecutionCore ℚ) :
    Delivery → ExecutionCore ℚ
  | .processFillEvent t x => (processFillEvent c (under x t)).1
  | .processMarketFill price ex => (processMarketFill c id (total trades) price ex).1
  | .processOrderFill reported price => (processOrderFill c id (total reported) price).1
  | .onOrderUpdate x newState reported price answers =>
      onOrderUpdate c x newState (total reported) price answers

def About (trades : List (FillEvent ℚ)) : Delivery → Prop
  | .processFillEvent t _ => t ∈ trades
  | .processMarketFill _ _ => True
  | .processOrderFill reported _ => reported.Sublist trades
  | .onOrderUpdate _ _ reported _ _ => reported.Sublist trades

def deliverLife (id : OrderId) (trades : List (FillEvent ℚ)) (c : ExecutionCore ℚ)
    (l : Life ℚ) : Delivery → Life ℚ
  | .processFillEvent t x =>
      if names c x id = true ∧ tradeAccepted c.registry (under x t) = true then
        whenRecord (fun _ => true) (fun order => trade c.clock order (under x t)) l
      else l
  | .processMarketFill price ex => marketFill c.clock (total trades) price ex l
  | .processOrderFill reported price => report c.clock (total reported) price l
  | .onOrderUpdate x newState reported price answers =>
      lifeStep c.clock l (if names c x id then
        .updated newState (total reported) price (decide (x = id)) (answers id) else .skip)

/-- A delivery that is applied goes through the door the order's executions came
through: a trade is new and does not follow a cumulative quantity, a cumulative
quantity does not follow a trade. -/
def OneDoor (id : OrderId) (c : ExecutionCore ℚ) : Delivery → Prop
  | .processFillEvent t x => names c x id = true →
      tradeAccepted c.registry (under x t) = true → NewTrade t (life c id)
  | .processMarketFill price _ => 0 < price → canMoveTo .filled (life c id) = true →
      NoTrades (life c id)
  | .processOrderFill _ _ => ∀ order, (life c id).record = some order → order.state = .filled →
      NoTrades (life c id)
  | .onOrderUpdate x newState reported _ _ => names c x id = true → newState = .filled →
      0 < total reported → canMoveTo newState (life c id) = true → NoTrades (life c id)

variable (id : OrderId)

theorem deliver_trade (c : ExecutionCore ℚ) (hown : AllOwn c)
    (fill : FillEvent ℚ) : AllOwn (processFillEvent c fill).1 ∧
      life (processFillEvent c fill).1 id =
        if names c fill.orderId id = true ∧ tradeAccepted c.registry fill = true then
          whenRecord (fun _ => true) (fun order => trade c.clock order fill) (life c id)
        else life c id := by
  cases hres : resolveOrder c.registry fill.orderId with
  | none =>
    have hnot : names c fill.orderId id = false := by
      unfold names
      rw [hres]
      rfl
    rw [processFillEvent_unknown c fill hres, hnot, if_neg (by simp)]
    constructor
    · intro j
      rw [(markTrade_lives c fill).2.1]
      exact hown j
    · rw [(markTrade_lives c fill).2.1]
  | some found =>
    obtain ⟨eff, order⟩ := found
    obtain ⟨hrec, -⟩ := resolve_some c hown fill.orderId eff order hres
    obtain ⟨hmoves, -⟩ := processFillEvent_moves c hown fill eff order hres
    constructor
    · apply allOwn_moves hmoves hown
      split_ifs
      · exact same_trade c.clock order fill _ hrec
      · exact same_refl _
    · rw [moves_at hmoves id, processFillEvent_accepted c fill _ hres, names, hres]
      simp only [Option.any_some, beq_iff_eq]
      by_cases heff : eff = id
      · subst heff
        simp only [true_and, if_true, whenRecord, hrec]
      · simp only [heff, false_and, if_false]

theorem deliver_life (trades : List (FillEvent ℚ)) (c : ExecutionCore ℚ)
    (hown : AllOwn c) (d : Delivery) : AllOwn (deliver id trades c d) ∧
      life (deliver id trades c d) id = deliverLife id trades c (life c id) d := by
  cases d with
  | processFillEvent t x => exact deliver_trade id c hown (under x t)
  | processMarketFill price ex =>
    have h := processMarketFill_moves c id (total trades) price ex (hown id)
    exact ⟨allOwn_moves h hown (same_steps.marketFill c.clock _ price ex _), h.at_id⟩
  | processOrderFill reported price =>
    have h := processOrderFill_moves c id (total reported) price (hown id)
    exact ⟨allOwn_moves h hown (same_steps.report c.clock _ price _), h.at_id⟩
  | onOrderUpdate x newState reported price answers =>
    refine ⟨?_, onOrderUpdate_lives c hown x id newState (total reported) price answers⟩
    intro j
    have hlife := onOrderUpdate_lives c hown x j newState (total reported) price answers
    show OwnId j (life (onOrderUpdate c x newState (total reported) price answers) j)
    rw [hlife]
    exact own_same (hown j) (same_lifeStep c.clock _ _)

theorem deliver_tracked (trades : List (FillEvent ℚ)) (hex : Executed trades)
    (c : ExecutionCore ℚ) (d : Delivery) (habout : About trades d) (hdoor : OneDoor id c d)
    (h : Tracked trades (life c id)) : Tracked trades (deliverLife id trades c (life c id) d) := by
  cases d with
  | processFillEvent t x =>
    simp only [deliverLife]
    by_cases heff : names c x id = true ∧ tradeAccepted c.registry (under x t) = true
    · rw [if_pos heff]
      unfold whenRecord
      cases hrec : (life c id).record with
      | none => exact h
      | some order =>
        obtain ⟨hp, hq⟩ := hex.positive t habout
        -- The order id is not part of a ledger's entry.
        have hentry : entry t ∈ trades.map entry := List.mem_map_of_mem habout
        exact tracked_trade trades c.clock order (under x t) _ hrec hq hp hentry
          (hdoor heff.1 heff.2) h
    · rw [if_neg heff]
      exact h
  | processMarketFill price ex => exact tracked_marketFill trades c.clock price ex _ hdoor h
  | processOrderFill reported price =>
    exact tracked_report trades c.clock _ price _ (total_sublist reported trades hex habout)
      hdoor h
  | onOrderUpdate x newState reported price answers =>
    simp only [deliverLife]
    by_cases hnames : names c x id = true
    · rw [if_pos hnames]
      exact tracked_update trades c.clock newState _ price _ _ _
        (total_sublist reported trades hex habout) (hdoor hnames) h
    · rw [if_neg hnames]
      exact h

structure Registered (l : Life ℚ) : Prop where
  record : l.record ≠ none
  fills : fills l = []
  filled : filled l = 0
  applied : l.applied = false
  passed : l.passed = []
  agree : Agree l

/-- In every run of deliveries that keep to one door, no more than was executed
is handed to the portfolio. -/
theorem executed_at_most_once (p : Portfolio ℚ) (clock : Clock) (config : ExecutionConfig ℚ)
    (sessionPrefix : String) (hp : p.pendingOrders = ∅) (before : List (EngineOp ℚ))
    (id : OrderId) (trades : List (FillEvent ℚ)) (hex : Executed trades)
    (hregistered : Registered (life (Runs.run engineStep
      (initEngine p clock config sessionPrefix) before).core id))
    (deliveries : List Delivery) (habout : ∀ d ∈ deliveries, About trades d)
    (hdoor : Runs.Meets (deliver id trades) (OneDoor id)
      (Runs.run engineStep (initEngine p clock config sessionPrefix) before).core deliveries) :
    Runs.Always (deliver id trades) (fun c => (life c id).passed.sum ≤ total trades)
      (Runs.run engineStep (initEngine p clock config sessionPrefix) before).core deliveries := by
  have hsound := Runs.invariant_run engineStep (C := fun _ _ => True)
    (fun e op hs _ => step_sound e op hs) _ before (init_sound p clock config sessionPrefix hp)
    (Runs.meets_true engineStep _ before)
  have hstart : Tracked trades (life (Runs.run engineStep
      (initEngine p clock config sessionPrefix) before).core id) := by
    refine .fresh hregistered.fills hregistered.applied hregistered.passed ?_ hregistered.agree
    rw [hregistered.filled]
    exact total_nonneg trades hex
  generalize (Runs.run engineStep (initEngine p clock config sessionPrefix) before) = e
    at hsound hstart hdoor ⊢
  have hmeets := Runs.meets_and_forall (deliver id trades) e.core deliveries hdoor habout
  have halways := Runs.always_of_meets (deliver id trades)
    (I := fun c => AllOwn c ∧ Tracked trades (life c id)) (by
      rintro c d ⟨hown, ht⟩ ⟨hd, ha⟩
      obtain ⟨hown', hlife⟩ := deliver_life id trades c hown d
      refine ⟨hown', ?_⟩
      rw [hlife]
      exact deliver_tracked id trades hex c d ha hd ht) e.core deliveries
    ⟨hsound.own, hstart⟩ hmeets
  exact Runs.always_mono (deliver id trades)
    (fun c hc => tracked_passed trades hex (life c id) hc.2) e.core deliveries halways

end Deliveries

section Session

def entryTrade : FillEvent ℚ := ⟨"TB1-1", 1, 100, "t1", 0⟩

theorem entryTrade_executed : Executed [entryTrade] := by
  constructor
  · exact List.nodup_singleton _
  · intro t ht
    rw [List.mem_singleton.mp ht]
    decide
  · intro t ht
    rw [List.mem_singleton.mp ht]
    constructor
    · decide +kernel
    · decide +kernel

def marketEntry : List (EngineOp ℚ) := [enter .aggressive]

def tradeFirst : List Delivery :=
  [.processFillEvent entryTrade "TB1-1", .processFillEvent entryTrade "9001",
    .processMarketFill 100 "9001"]

def confirmationFirst : List Delivery :=
  [.processMarketFill 100 "9001", .processFillEvent entryTrade "9001"]

theorem marketEntry_registered :
    Registered (life (Runs.run engineStep startEngine marketEntry).core "TB1-1") := by
  constructor
  · rw [← Option.isSome_iff_ne_none]
    decide +kernel
  · rw [← List.isEmpty_iff]
    decide +kernel
  · decide +kernel
  · decide +kernel
  · decide +kernel
  · intro order horder
    have hstates : (life (Runs.run engineStep startEngine marketEntry).core "TB1-1").record.all
        (fun order => (life (Runs.run engineStep startEngine marketEntry).core "TB1-1").fsm.map
          (fun fsm => fsm.state) == some order.state) = true := by
      decide +kernel
    rw [horder, Option.all_some, beq_iff_eq] at hstates
    exact hstates

theorem executed_at_most_once_tradeFirst : Runs.Always (deliver "TB1-1" [entryTrade])
    (fun c => (life c "TB1-1").passed.sum ≤ total [entryTrade])
    (Runs.run engineStep startEngine marketEntry).core tradeFirst := by
  apply executed_at_most_once (initPortfolio 1000) ⟨0, 0, 0⟩ defaultConfig "1" rfl marketEntry
    "TB1-1" [entryTrade] entryTrade_executed marketEntry_registered tradeFirst
  · intro d hd
    simp only [tradeFirst, List.mem_cons, List.not_mem_nil, or_false] at hd
    rcases hd with rfl | rfl | rfl
    · exact List.mem_singleton_self entryTrade
    · exact List.mem_singleton_self entryTrade
    · trivial
  · refine ⟨?_, ?_, ?_, trivial⟩
    · intro _ _
      constructor
      · decide +kernel
      · decide +kernel
    · intro _ haccepted
      exact absurd haccepted (by decide +kernel)
    · intro _ hmove
      exact absurd hmove (by decide +kernel)

theorem confirmed_then_traded : ¬ Runs.Always (deliver "TB1-1" [entryTrade])
    (fun c => (life c "TB1-1").passed.sum ≤ total [entryTrade])
    (Runs.run engineStep startEngine marketEntry).core confirmationFirst := by
  intro h
  have hend := Runs.always_last (deliver "TB1-1" [entryTrade]) h
  revert hend
  decide +kernel

end Session

end TB.FillOnce
