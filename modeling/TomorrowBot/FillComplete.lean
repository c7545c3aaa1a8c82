import TomorrowBot.OrderBooks

/-!
# What is applied when an order ends

The books of every order are kept throughout a run. When every fill report that
ends an order meets its conditions, the filled quantity of each order that ends
is in the portfolio.
-/

set_option autoImplicit false

namespace TB.FillComplete
open TB.CommonTypes TB.PortfolioEngine TB.OrderTypes TB.Orders TB.FillProcessor
open TB.ExecutionPlanner TB.ExecutionEngine TB.OrderLife TB.EngineSimulation
open TB.LifeSteps TB.EngineBirths TB.OrderLedger TB.OrderBooks

section Engine

def FillsCovered (e : Engine ℚ) (op : EngineOp ℚ) : Prop :=
  ∀ id, Covered (life e.core id) (opOn e op id)

def reportsFills : EngineOp ℚ → Bool
  | .confirm _ answer => confirmsFill answer
  | .onOrderUpdate _ _ _ _ _ => true
  | .onFillEvent _ _ => true
  | _ => false

def EndsAccounted (e : Engine ℚ) (op : EngineOp ℚ) : Prop :=
  reportsFills op = true → ∀ id order order', getOrder e.core.registry id = some order →
    getOrder (engineStep e op).core.registry id = some order' → order'.state ≠ order.state →
    ended order'.state = true → (life (engineStep e op).core id).passed.sum = order'.filledQuantity

theorem born_booked (id : OrderId) (side : TradeSide) (l : Life ℚ) (h : Born id side l) :
    Booked l := by
  obtain ⟨order, fsm, hrec, hfsm, hnew, hstate, -⟩ := h.placed
  have hmachine : machineState l = some order.state := by
    rw [machineState, hfsm, hstate]
    rfl
  by_cases hfilled : order.state = .filled
  · refine .done order hrec (hmachine.trans (by rw [hfilled])) (.inl hfilled) (.inl ?_)
    rw [h.passed, hnew.filled]
    rfl
  · refine .running ?_ ?_
    · rw [hmachine]
      simpa using hfilled
    · rw [h.passed, fills, hrec]
      simp [hnew.fills, total]

variable (e : Engine ℚ) (op : EngineOp ℚ)

theorem opOn_price (id : OrderId) (fill : FillEvent ℚ)
    (confirmed : Bool) (h : opOn e op id = .traded fill true confirmed) : 0 < fill.fillPrice := by
  have hsource := opOn_source e op id
  rw [h] at hsource
  generalize haccepted : true = accepted at hsource
  cases hsource with
  | traded _ answers _ => exact not_le.mp (accepted_price e.core.registry fill haccepted.symm)

theorem opOn_reports (id : OrderId) (h : reportsFills op = true) :
    isExecution op = false ∧ (opOn e op id = .skip ∨ reportsFill (opOn e op id) = true) := by
  cases op with
  | confirm x answer =>
    refine ⟨rfl, ?_⟩
    simp only [opOn]
    cases e.awaiting.find? (awaits x) with
    | none => exact .inl rfl
    | some a =>
      dsimp only
      split_ifs
      · exact .inr h
      · exact .inl rfl
  | onOrderUpdate | onFillEvent =>
    refine ⟨rfl, ?_⟩
    simp only [opOn]
    split_ifs
    · exact .inr rfl
    · exact .inl rfl
  | _ => exact absurd h (by simp [reportsFills])

theorem step_accounted (hs : Sound e)
    (hb : ∀ id, Booked (life e.core id)) (hc : FillsCovered e op) : EndsAccounted e op := by
  intro hreports id
  obtain ⟨hop, hsees⟩ := opOn_reports e op id hreports
  have hlife := engineStep_lives e op id hs.own hop
  have haccounted : Accounted (life e.core id) (life (engineStep e op).core id) := by
    rw [hlife]
    rcases hsees with hskip | hsees
    · rw [hskip]
      exact accounted_refl _
    · exact (booked_lifeStep e.core.clock _ _ (opOn_price e op id) (hb id) (hc id)).2 hsees
  exact haccounted

/-- In every run whose operations meet the conditions, the orders that end through
a reported fill end with their filled quantity in the portfolio. -/
theorem ended_orders_accounted (p : Portfolio ℚ) (clock : Clock) (config : ExecutionConfig ℚ)
    (sessionPrefix : String) (hp : p.pendingOrders = ∅) (ops : List (EngineOp ℚ))
    (hops : Runs.Meets engineStep FillsCovered (initEngine p clock config sessionPrefix) ops) :
    Runs.Meets engineStep EndsAccounted (initEngine p clock config sessionPrefix) ops := by
  have hstart : ∀ id, Booked (life (initEngine p clock config sessionPrefix).core id) := by
    intro id
    rw [init_life p clock config sessionPrefix hp]
    exact .gone rfl
  apply Runs.meets_of_invariant engineStep (I := fun e => Sound e ∧ ∀ id, Booked (life e.core id))
    _ _ _ ops ⟨init_sound p clock config sessionPrefix hp, hstart⟩ hops
  · apply lives_step born_booked
    intro e op id _ hc hb
    exact (booked_lifeStep e.core.clock _ _ (opOn_price e op id) hb (hc id)).1
  · rintro e op ⟨hs, hb⟩ hc
    exact step_accounted e op hs hb hc

end Engine

section Session

def tradedEntry : List (EngineOp ℚ) :=
  [enter .postOnly, .onFillEvent ⟨"TB1-1", 1 / 2, 100, "t1", 0⟩ (fun _ => true),
    .onFillEvent ⟨"TB1-1", 1 / 2, 100, "t2", 0⟩ (fun _ => true)]

def updatedEntry : List (EngineOp ℚ) :=
  [enter .postOnly, .onFillEvent ⟨"TB1-1", 1 / 2, 100, "t1", 0⟩ (fun _ => true),
    .onOrderUpdate "9001" .filled 1 100 (fun _ => true)]

theorem updatedEntry_ends : ∃ order order',
    getOrder (Runs.run engineStep startEngine (updatedEntry.take 2)).core.registry "TB1-1" =
      some order ∧
    getOrder (Runs.run engineStep startEngine updatedEntry).core.registry "TB1-1" =
      some order' ∧
    order'.state ≠ order.state ∧ ended order'.state = true ∧ order'.filledQuantity = 1 := by
  obtain ⟨order, ho⟩ : ∃ order, getOrder (Runs.run engineStep startEngine
      (updatedEntry.take 2)).core.registry "TB1-1" = some order := by
    rw [← Option.isSome_iff_exists]
    decide +kernel
  obtain ⟨order', ho'⟩ : ∃ order, getOrder (Runs.run engineStep startEngine
      updatedEntry).core.registry "TB1-1" = some order := by
    rw [← Option.isSome_iff_exists]
    decide +kernel
  have hbefore : (getOrder (Runs.run engineStep startEngine (updatedEntry.take 2)).core.registry
      "TB1-1").all (fun o => o.state == .partiallyFilled) = true := by
    decide +kernel
  have hafter : (getOrder (Runs.run engineStep startEngine updatedEntry).core.registry
      "TB1-1").all (fun o => o.state == .filled && decide (o.filledQuantity = 1)) = true := by
    decide +kernel
  rw [ho, Option.all_some, beq_iff_eq] at hbefore
  rw [ho', Option.all_some, Bool.and_eq_true, beq_iff_eq, decide_eq_true_eq] at hafter
  refine ⟨order, order', ho, ho', ?_, ?_, hafter.2⟩
  · rw [hbefore, hafter.1]
    decide
  · rw [hafter.1]
    rfl

/-- The second trade reaches the record but not the portfolio. -/
theorem updated_entry_lost : ¬ Runs.Meets engineStep EndsAccounted startEngine updatedEntry := by
  intro h
  obtain ⟨order, order', ho, ho', hne, hended, hfilled⟩ := updatedEntry_ends
  have hsum := h.2.2.1 rfl "TB1-1" order order' ho ho' hne hended
  have hpassed : (life (Runs.run engineStep startEngine updatedEntry).core "TB1-1").passed.sum =
      1 / 2 := by
    decide +kernel
  have hhalf : (1 / 2 : ℚ) = 1 := hpassed.symm.trans (hsum.trans hfilled)
  norm_num at hhalf

theorem tradedEntry_covered (e : Engine ℚ) (tradeId : String)
    (hname : (resolveOrder e.core.registry "TB1-1").map Prod.fst = some "TB1-1")
    (hcovers : (life e.core "TB1-1").record.all
      (fun order => decide (total (fills (life e.core "TB1-1")) = order.filledQuantity)) = true)
    (haccepted : tradeAccepted e.core.registry ⟨"TB1-1", 1 / 2, 100, tradeId, 0⟩ = true) :
    FillsCovered e (.onFillEvent ⟨"TB1-1", 1 / 2, 100, tradeId, 0⟩ (fun _ => true)) := by
  intro id
  simp only [opOn]
  by_cases hnames : names e.core "TB1-1" id = true
  · obtain ⟨found, hfound⟩ := (names_iff e.core "TB1-1" id).mp hnames
    rw [hfound, Option.map_some, Option.some.injEq] at hname
    subst hname
    rw [if_pos hnames, haccepted]
    intro order hrec
    rw [if_pos rfl]
    rw [hrec, Option.all_some, decide_eq_true_eq] at hcovers
    exact ⟨by norm_num, fun _ => hcovers⟩
  · rw [if_neg hnames]
    trivial

theorem ended_orders_accounted_traded :
    Runs.Meets engineStep EndsAccounted startEngine tradedEntry := by
  apply ended_orders_accounted (initPortfolio 1000) ⟨0, 0, 0⟩ defaultConfig "1" rfl tradedEntry
  refine ⟨fun _ => trivial, ?_, ?_, trivial⟩
  · apply tradedEntry_covered
    all_goals decide +kernel
  · apply tradedEntry_covered
    all_goals decide +kernel

end Session

end TB.FillComplete
