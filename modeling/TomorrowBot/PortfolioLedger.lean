import TomorrowBot.PortfolioEngine
import TomorrowBot.Runs
import Mathlib.Tactic.Linarith
import Mathlib.Tactic.Ring

/-!
# The cash ledger over whole runs

Two differences measure how far the ledger is from its invariant: what is
reserved against the pending orders, and the total against its two parts.
Every operation but a reservation keeps the first one; a reservation moves
it by whatever was stored under the same order id.
-/

set_option autoImplicit false

namespace TB.PortfolioLedger
open TB.CommonTypes TB.PortfolioEngine

section Frames
variable {F : Type} [DoubleArith F] (p : Portfolio F)

@[simp] theorem refreshPeak_cash : (refreshPeak p).cashLedger = p.cashLedger := by
  unfold refreshPeak; split <;> rfl

@[simp] theorem refreshPeak_pending : (refreshPeak p).pendingOrders = p.pendingOrders := by
  unfold refreshPeak; split <;> rfl

omit [DoubleArith F] in
@[simp] theorem storeLeg_cash (k : String) (pos : Position F) :
    (storeLeg p k pos).cashLedger = p.cashLedger := rfl

omit [DoubleArith F] in
@[simp] theorem storeLeg_pending (k : String) (pos : Position F) :
    (storeLeg p k pos).pendingOrders = p.pendingOrders := rfl

omit [DoubleArith F] in
@[simp] theorem eraseLeg_cash (k : String) : (eraseLeg p k).cashLedger = p.cashLedger := rfl

omit [DoubleArith F] in
@[simp] theorem eraseLeg_pending (k : String) :
    (eraseLeg p k).pendingOrders = p.pendingOrders := rfl

@[simp] theorem bookTrade_cash (x : F) : (bookTrade p x).cashLedger = p.cashLedger := rfl

@[simp] theorem bookTrade_pending (x : F) : (bookTrade p x).pendingOrders = p.pendingOrders := rfl

@[simp] theorem bookRealized_pending (x : F) :
    (bookRealized p x).pendingOrders = p.pendingOrders := rfl

variable (now : Timestamp)

@[simp] theorem openPosition_cash (pos : Position F) :
    (openPosition p now pos).cashLedger = p.cashLedger := by
  obtain ⟨key, leg, h⟩ := openPosition_stored p now pos
  rw [h, storeLeg_cash]

@[simp] theorem openPosition_pending (pos : Position F) :
    (openPosition p now pos).pendingOrders = p.pendingOrders := by
  obtain ⟨key, leg, h⟩ := openPosition_stored p now pos
  rw [h, storeLeg_pending]

@[simp] theorem updatePrice_cash (s : Symbol) (x : F) :
    (updatePrice p now s x).cashLedger = p.cashLedger := by
  unfold updatePrice
  dsimp only
  split
  · rw [refreshPeak_cash]
  · rfl

@[simp] theorem updatePrice_pending (s : Symbol) (x : F) :
    (updatePrice p now s x).pendingOrders = p.pendingOrders := by
  unfold updatePrice
  dsimp only
  split
  · rw [refreshPeak_pending]
  · rfl

variable (k : String)

@[simp] theorem fundLeg_cash (x : F) : (fundLeg p k x).cashLedger = p.cashLedger := by
  rcases fundLeg_stored p k x with h | ⟨y, leg, h⟩
  · rw [h]
  · rw [h, storeLeg_cash]

@[simp] theorem fundLeg_pending (x : F) : (fundLeg p k x).pendingOrders = p.pendingOrders := by
  rcases fundLeg_stored p k x with h | ⟨y, leg, h⟩
  · rw [h]
  · rw [h, storeLeg_pending]

@[simp] theorem closeLeg_cash (x : F) :
    (closeLeg p k x).cashLedger = (bookRealized p x).cashLedger := by
  simp [closeLeg]

@[simp] theorem closeLeg_pending (x : F) : (closeLeg p k x).pendingOrders = p.pendingOrders := by
  simp [closeLeg]

variable (pos : Position F)

@[simp] theorem reduceLeg_cash (q c x : F) :
    (reduceLeg p now k pos q c x).1.cashLedger = (bookRealized p x).cashLedger := by
  unfold reduceLeg
  dsimp only
  rw [refreshPeak_cash]
  split <;> simp

@[simp] theorem reduceLeg_pending (q c x : F) :
    (reduceLeg p now k pos q c x).1.pendingOrders = p.pendingOrders := by
  unfold reduceLeg
  dsimp only
  rw [refreshPeak_pending]
  split <;> simp

@[simp] theorem syncPosition_cash (s : Symbol) (ps : PositionSide) (a b c d : F) (t : Timestamp) :
    (syncPositionFromExchange p now s ps a b c d t).cashLedger = p.cashLedger := by
  obtain ⟨key, leg, h⟩ := syncPosition_stored p now s ps a b c d t
  rw [h, storeLeg_cash]

@[simp] theorem syncPosition_pending (s : Symbol)
    (ps : PositionSide) (a b c d : F) (t : Timestamp) :
    (syncPositionFromExchange p now s ps a b c d t).pendingOrders = p.pendingOrders := by
  obtain ⟨key, leg, h⟩ := syncPosition_stored p now s ps a b c d t
  rw [h, storeLeg_pending]

end Frames

def reserveGap (p : Portfolio ℚ) : ℚ :=
  p.cashLedger.reservedForOrders - Keyed.total (·.reservedCash) p.pendingOrders

def cashGap (p : Portfolio ℚ) : ℚ :=
  p.cashLedger.totalCash - (p.cashLedger.availableCash + p.cashLedger.reservedForOrders)

structure Balanced (p : Portfolio ℚ) : Prop where
  reserved : p.cashLedger.reservedForOrders = Keyed.total (·.reservedCash) p.pendingOrders
  total : p.cashLedger.totalCash =
    p.cashLedger.availableCash + p.cashLedger.reservedForOrders

variable (p : Portfolio ℚ)

theorem balanced_iff_gaps : Balanced p ↔ reserveGap p = 0 ∧ cashGap p = 0 := by
  constructor
  · intro h
    exact ⟨sub_eq_zero.mpr h.reserved, sub_eq_zero.mpr h.total⟩
  · rintro ⟨hr, hc⟩
    exact ⟨sub_eq_zero.mp hr, sub_eq_zero.mp hc⟩

theorem init_balanced (c : ℚ) : Balanced (initPortfolio c) := by
  constructor
  · rfl
  · exact (add_zero c).symm

/-- Booking a realised result moves the total and the available part alike. -/
theorem bookRealized_cashGap (p q : Portfolio ℚ) (x : ℚ)
    (hq : q.cashLedger = (bookRealized p x).cashLedger) : cashGap q = cashGap p := by
  simp only [cashGap, hq, bookRealized]
  ring

theorem bookRealized_reserveGap (p q : Portfolio ℚ) (x : ℚ)
    (hq : q.cashLedger = (bookRealized p x).cashLedger)
    (hp : q.pendingOrders = p.pendingOrders) : reserveGap q = reserveGap p := by
  simp only [reserveGap, hq, hp, bookRealized]

theorem same_cash_gaps (p q : Portfolio ℚ) (hc : q.cashLedger = p.cashLedger)
    (hp : q.pendingOrders = p.pendingOrders) :
    reserveGap q = reserveGap p ∧ cashGap q = cashGap p := by
  constructor
  · simp only [reserveGap, hc, hp]
  · simp only [cashGap, hc]

theorem booked_gaps (p q : Portfolio ℚ) (x : ℚ)
    (hc : q.cashLedger = (bookRealized p x).cashLedger)
    (hp : q.pendingOrders = p.pendingOrders) :
    reserveGap q = reserveGap p ∧ cashGap q = cashGap p :=
  ⟨bookRealized_reserveGap p q x hc hp, bookRealized_cashGap p q x hc⟩

theorem releaseCash_gaps (id : OrderId) :
    reserveGap (releaseCash p id) = reserveGap p ∧ cashGap (releaseCash p id) = cashGap p := by
  unfold releaseCash
  split
  · exact ⟨rfl, rfl⟩
  · rename_i info h
    constructor
    · simp only [reserveGap]
      rw [Keyed.total_erase, Keyed.weightAt_some _ _ _ info h]
      ring
    · simp only [cashGap]
      ring

/-- Reserving under an id that holds a reservation loses track of the old one. -/
theorem reserveCash_gaps (now : Timestamp) (id : OrderId) (s : Symbol)
    (side : Side) (notional fee : ℚ) (strategy : StrategyId) :
    reserveGap (reserveCash p now id s side notional fee strategy).1 =
      reserveGap p + (if p.cashLedger.availableCash < notional + fee then 0
        else Keyed.weightAt (·.reservedCash) p.pendingOrders id) ∧
    cashGap (reserveCash p now id s side notional fee strategy).1 = cashGap p := by
  unfold reserveCash
  dsimp only
  split_ifs with h
  · exact ⟨(add_zero _).symm, rfl⟩
  · constructor
    · simp only [reserveGap]
      rw [Keyed.total_insert_sub]
      ring
    · simp only [cashGap]
      ring

/-- A reservation is tracked when it is refused for lack of cash, or its order
id holds no reserved cash yet. -/
def ReservesOnce (p : Portfolio ℚ) : PortfolioOp ℚ → Prop
  | .reserveCash _ id _ _ notional fee _ =>
      p.cashLedger.availableCash < notional + fee ∨
        ∀ info, p.pendingOrders.lookup id = some info → info.reservedCash = 0
  | _ => True

/-- Reserved cash an operation drops from the pending orders without giving it
back to the ledger. -/
def lostReserve (p : Portfolio ℚ) : PortfolioOp ℚ → ℚ
  | .reserveCash _ id _ _ notional fee _ =>
      if p.cashLedger.availableCash < notional + fee then 0
      else Keyed.weightAt (·.reservedCash) p.pendingOrders id
  | _ => 0

variable (op : PortfolioOp ℚ)

theorem reservesOnce_iff_lost : ReservesOnce p op ↔ lostReserve p op = 0 := by
  cases op with
  | reserveCash now id s side notional fee strategy =>
    simp only [ReservesOnce, lostReserve]
    split_ifs with h
    · exact iff_of_true (Or.inl h) rfl
    · constructor
      · rintro (hlt | hz)
        · exact absurd hlt h
        · cases hl : p.pendingOrders.lookup id with
          | none => exact Keyed.weightAt_none _ _ _ hl
          | some info => rw [Keyed.weightAt_some _ _ _ info hl, hz info hl]
      · intro hw
        refine Or.inr fun info hl => ?_
        rwa [Keyed.weightAt_some _ _ _ info hl] at hw
  | _ => exact iff_of_true trivial rfl

theorem held_gaps (p q : Portfolio ℚ) (hc : q.cashLedger = p.cashLedger)
    (hp : q.pendingOrders = p.pendingOrders) :
    reserveGap q = reserveGap p + 0 ∧ (cashGap p = 0 → cashGap q = 0) := by
  obtain ⟨h₁, h₂⟩ := same_cash_gaps p q hc hp
  exact ⟨by rw [h₁, add_zero], fun h => h₂.trans h⟩

theorem kept_gaps (p q : Portfolio ℚ)
    (h : reserveGap q = reserveGap p ∧ cashGap q = cashGap p) :
    reserveGap q = reserveGap p + 0 ∧ (cashGap p = 0 → cashGap q = 0) :=
  ⟨by rw [h.1, add_zero], fun hc => h.2.trans hc⟩

/-- One operation moves the first gap by the reserve it loses, and never opens
the second one. -/
theorem step_gaps : reserveGap (portfolioStep p op) = reserveGap p + lostReserve p op ∧
      (cashGap p = 0 → cashGap (portfolioStep p op) = 0) := by
  have hends := step_ends p
    (P := fun q => reserveGap q = reserveGap p ∧ cashGap q = cashGap p) ⟨rfl, rfl⟩
    (fun _ x => booked_gaps p _ x (closeLeg_cash ..) (closeLeg_pending ..))
    fun _ _ _ _ _ x _ => booked_gaps p _ x (reduceLeg_cash ..) (reduceLeg_pending ..)
  cases op with
  | openPosition now pos =>
    exact held_gaps p _ (openPosition_cash ..) (openPosition_pending ..)
  | updatePrice now s x =>
    exact held_gaps p _ (updatePrice_cash ..) (updatePrice_pending ..)
  | recordFundingPayment s f =>
    exact held_gaps p _ (by simp [portfolioStep, recordFundingPayment])
      (by simp [portfolioStep, recordFundingPayment])
  | closePosition | closePositionSide | reducePosition | reducePositionSide =>
    exact kept_gaps p _ (hends _ trivial)
  | addRealizedPnl x =>
    refine kept_gaps p _ ⟨rfl, ?_⟩
    simp only [cashGap, portfolioStep, addRealizedPnl]
    ring
  | resetDaily =>
    refine ⟨(add_zero _).symm, fun _ => ?_⟩
    simp only [cashGap, portfolioStep, resetDaily]
    ring
  | setCapital e =>
    refine ⟨(add_zero _).symm, fun _ => ?_⟩
    simp only [cashGap, portfolioStep, setCapital]
    ring
  | setLeverage l => exact held_gaps p _ rfl rfl
  | reserveCash now id s side notional fee strategy =>
    obtain ⟨h₁, h₂⟩ := reserveCash_gaps p now id s side notional fee strategy
    exact ⟨h₁, fun hc => h₂.trans hc⟩
  | releaseCash id => exact kept_gaps p _ (releaseCash_gaps p id)
  | recordFee x =>
    refine kept_gaps p _ ⟨rfl, ?_⟩
    simp only [cashGap, portfolioStep, recordFee]
    ring
  | syncPositionFromExchange now s ps a b c d t =>
    exact held_gaps p _ (syncPosition_cash ..) (syncPosition_pending ..)

/-- From a balanced ledger one operation leads to a balanced ledger exactly
when it does not reserve twice under one order id. -/
theorem step_balanced_iff (hb : Balanced p) :
    Balanced (portfolioStep p op) ↔ ReservesOnce p op := by
  obtain ⟨hr, hc⟩ := (balanced_iff_gaps p).mp hb
  obtain ⟨h₁, h₂⟩ := step_gaps p op
  rw [balanced_iff_gaps, reservesOnce_iff_lost, h₁, hr, zero_add]
  exact ⟨fun h => h.1, fun h => ⟨h, h₂ hc⟩⟩

theorem run_cashGap (c : ℚ) (ops : List (PortfolioOp ℚ)) :
    cashGap (Runs.run portfolioStep (initPortfolio c) ops) = 0 :=
  Runs.invariant_run portfolioStep (I := fun p => cashGap p = 0) (C := fun _ _ => True)
    (fun p op hc _ => (step_gaps p op).2 hc) _ ops
    ((balanced_iff_gaps _).mp (init_balanced c)).2 (Runs.meets_true _ _ _)

/-- The ledger of a run is balanced in every state it passes through exactly
when no reservation of the run reuses an order id that still holds cash. -/
theorem ledger_always_balanced_iff (c : ℚ) (ops : List (PortfolioOp ℚ)) :
    Runs.Always portfolioStep Balanced (initPortfolio c) ops ↔
      Runs.Meets portfolioStep ReservesOnce (initPortfolio c) ops :=
  Runs.always_iff_meets portfolioStep (J := fun _ => True) (fun _ _ _ => trivial)
    (fun p op _ hb => step_balanced_iff p op hb) _ ops trivial (init_balanced c)

theorem checkInvariants_iff : checkInvariants p = true ↔
    -0.01 ≤ p.cashLedger.availableCash ∧ |reserveGap p| ≤ 0.01 ∧ |cashGap p| ≤ 0.01 := by
  have hsum := Keyed.foldl_eq_total (fun info : PendingOrderInfo ℚ => info.reservedCash)
    p.pendingOrders 0
  simp only [checkInvariants, hsum, zero_add, stdAbs_rat, reserveGap, cashGap, Bool.and_eq_true,
    Bool.not_eq_true', decide_eq_false_iff_not, not_lt, and_assoc]

def lostReserves : Portfolio ℚ → List (PortfolioOp ℚ) → ℚ
  | _, [] => 0
  | p, op :: ops => lostReserve p op + lostReserves (portfolioStep p op) ops

theorem run_reserveGap (ops : List (PortfolioOp ℚ)) :
    reserveGap (Runs.run portfolioStep p ops) = reserveGap p + lostReserves p ops := by
  induction ops generalizing p with
  | nil => exact (add_zero _).symm
  | cons op ops ih => rw [Runs.run, ih, (step_gaps p op).1, lostReserves, add_assoc]

/-- In every run the check fails only for cash below zero or for reservations dropped under
a repeated id, by more than a cent; the cash identity holds exactly. -/
theorem run_check_iff (c : ℚ) (ops : List (PortfolioOp ℚ)) :
    (checkInvariants (Runs.run portfolioStep (initPortfolio c) ops) = true ↔
      -0.01 ≤ (Runs.run portfolioStep (initPortfolio c) ops).cashLedger.availableCash ∧
        |lostReserves (initPortfolio c) ops| ≤ 0.01) ∧
      cashGap (Runs.run portfolioStep (initPortfolio c) ops) = 0 := by
  refine ⟨?_, run_cashGap c ops⟩
  rw [checkInvariants_iff, run_cashGap, run_reserveGap,
    ((balanced_iff_gaps _).mp (init_balanced c)).1, zero_add, abs_zero]
  constructor
  · rintro ⟨hcash, hlost, -⟩
    exact ⟨hcash, hlost⟩
  · rintro ⟨hcash, hlost⟩
    exact ⟨hcash, hlost, by norm_num⟩

def reservedTwice : List (PortfolioOp ℚ) :=
  [.reserveCash 0 "TB-1" "BTCUSDT" .buy 100 1 "s", .reserveCash 0 "TB-1" "BTCUSDT" .buy 50 1 "s"]

theorem reserved_twice_unbalanced :
    ¬ Balanced (Runs.run portfolioStep (initPortfolio 1000) reservedTwice) := by
  intro h
  have hr := h.reserved
  revert hr
  decide +kernel

end TB.PortfolioLedger
