import TomorrowBot.PortfolioEquity

/-!
# The daily reset

During a day the total cash is moved by every flow; the reset recomputes it
from the base capital and the realised result. Fees reach the cash and not
the realised result, funding the realised result and not the cash, so the
two figures meet only when the fees equal the funding taken.
-/

set_option autoImplicit false

namespace TB.PortfolioReset
open TB.CommonTypes TB.PortfolioEngine TB.PortfolioLedger TB.PortfolioEquity

def DayOp : PortfolioOp ℚ → Prop
  | .resetDaily | .setCapital _ | .setLeverage _
  | .syncPositionFromExchange _ _ _ _ _ _ _ _ => False
  | _ => True

def flowGap (p : Portfolio ℚ) : ℚ :=
  p.cashLedger.totalCash -
    (p.totalCapital + p.cashLedger.realizedPnlGross - p.cashLedger.feesAccruedToday)

variable (p : Portfolio ℚ)

theorem refreshPeak_capital : (refreshPeak p).totalCapital = p.totalCapital := by
  unfold refreshPeak
  split_ifs <;> rfl

variable (key : String)

theorem fundLeg_capital (a : ℚ) : (fundLeg p key a).totalCapital = p.totalCapital := by
  rcases fundLeg_stored p key a with h | ⟨y, leg, h⟩
  · rw [h]
  · rw [h, storeLeg]

theorem closeLeg_capital (x : ℚ) : (closeLeg p key x).totalCapital = p.totalCapital := by
  rw [closeLeg, refreshPeak_capital]
  rfl

theorem reduceLeg_capital (now : Timestamp) (key : String) (pos : Position ℚ)
    (q c x : ℚ) : (reduceLeg p now key pos q c x).1.totalCapital = p.totalCapital := by
  unfold reduceLeg
  dsimp only
  rw [refreshPeak_capital]
  split_ifs <;> rfl

theorem flowGap_same (p q : Portfolio ℚ) (hc : q.cashLedger = p.cashLedger)
    (ht : q.totalCapital = p.totalCapital) : flowGap q = flowGap p := by
  rw [flowGap, hc, ht, flowGap]

theorem flowGap_booked (p q : Portfolio ℚ) (x : ℚ)
    (hc : q.cashLedger = (bookRealized p x).cashLedger) (ht : q.totalCapital = p.totalCapital) :
    flowGap q = flowGap p := by
  simp only [flowGap, hc, ht, bookRealized]
  ring

theorem closeLeg_flowGap (x : ℚ) : flowGap (closeLeg p key x) = flowGap p :=
  flowGap_booked p _ x (closeLeg_cash p key x) (closeLeg_capital p key x)

theorem reduceLeg_flowGap (now : Timestamp) (key : String) (pos : Position ℚ)
    (q c x : ℚ) : flowGap (reduceLeg p now key pos q c x).1 = flowGap p :=
  flowGap_booked p _ x (reduceLeg_cash p now key pos q c x)
    (reduceLeg_capital p now key pos q c x)

/-- No operation of a day moves total cash other than by a booked flow. -/
theorem step_flowGap (op : PortfolioOp ℚ) (h : DayOp op) :
    flowGap (portfolioStep p op) = flowGap p := by
  have hends := step_ends p (P := fun q => flowGap q = flowGap p) rfl
    (closeLeg_flowGap p) fun now key pos q c x _ => reduceLeg_flowGap p now key pos q c x
  cases op with
  | openPosition now pos =>
    apply flowGap_same p _ (openPosition_cash p now pos)
    obtain ⟨key, leg, h⟩ := openPosition_stored p now pos
    exact h ▸ rfl
  | updatePrice now s x =>
    apply flowGap_same p _ (updatePrice_cash p now s x)
    simp only [updatePrice]
    split_ifs
    · rw [refreshPeak_capital]
    · rfl
  | recordFundingPayment s f =>
    apply flowGap_same p
    · simp only [portfolioStep, recordFundingPayment, fundLeg_cash]
    · simp only [portfolioStep, recordFundingPayment, fundLeg_capital]
  | closePosition | closePositionSide | reducePosition | reducePositionSide => exact hends _ trivial
  | addRealizedPnl x =>
    simp only [flowGap, portfolioStep, addRealizedPnl]
    ring
  | reserveCash now id s side notional fee strategy =>
    simp only [portfolioStep, reserveCash]
    split_ifs <;> rfl
  | releaseCash id =>
    simp only [portfolioStep, releaseCash]
    cases p.pendingOrders.lookup id <;> rfl
  | recordFee x =>
    simp only [flowGap, portfolioStep, recordFee]
    ring
  | resetDaily | setCapital | setLeverage | syncPositionFromExchange => exact h.elim

theorem day_flowGap (c : ℚ) (ops : List (PortfolioOp ℚ)) (h : ∀ op ∈ ops, DayOp op) :
    flowGap (Runs.run portfolioStep (initPortfolio c) ops) = 0 := by
  apply Runs.invariant_run portfolioStep (I := fun p => flowGap p = 0) (C := fun _ op => DayOp op)
  · intro p op hp hop
    rw [step_flowGap p op hop, hp]
  · simp [flowGap, initPortfolio]
  · exact Runs.meets_of_forall portfolioStep (fun _ op => DayOp op) _ ops
      (fun op hop _ => h op hop)

structure ResetKeepsCash (p : Portfolio ℚ) : Prop where
  total : (resetDaily p).cashLedger.totalCash = p.cashLedger.totalCash
  available : (resetDaily p).cashLedger.availableCash = p.cashLedger.availableCash
  equity : (resetDaily p).totalCapital + (computePnl (resetDaily p)).totalPnl =
    p.totalCapital + (computePnl p).totalPnl

def fundingTaken (p : Portfolio ℚ) : ℚ := p.cashLedger.realizedPnlGross - p.realizedPnlToday

theorem resetDaily_total :
    (resetDaily p).cashLedger.totalCash = p.totalCapital + p.realizedPnlToday := by
  simp only [resetDaily]
  ring

theorem resetDaily_available : (resetDaily p).cashLedger.availableCash =
      p.totalCapital + p.realizedPnlToday - p.cashLedger.reservedForOrders := by
  simp only [resetDaily]
  ring

theorem resetKeepsCash_iff (hf : flowGap p = 0) (hc : cashGap p = 0) :
    ResetKeepsCash p ↔ p.cashLedger.feesAccruedToday = fundingTaken p := by
  unfold flowGap at hf
  unfold cashGap at hc
  unfold fundingTaken
  constructor
  · intro h
    have ht := h.total
    rw [resetDaily_total] at ht
    linarith
  · intro h
    constructor
    · rw [resetDaily_total]
      linarith
    · rw [resetDaily_available]
      linarith
    · rw [pnl_equity, pnl_equity, resetDaily_equity]

/-- After any day the reset keeps the cash exactly when the fees of the day
equal the funding taken in it. -/
theorem reset_keeps_cash_iff (c : ℚ) (ops : List (PortfolioOp ℚ)) (h : ∀ op ∈ ops, DayOp op) :
    ResetKeepsCash (Runs.run portfolioStep (initPortfolio c) ops) ↔
      (Runs.run portfolioStep (initPortfolio c) ops).cashLedger.feesAccruedToday =
        fundingTaken (Runs.run portfolioStep (initPortfolio c) ops) :=
  resetKeepsCash_iff _ (day_flowGap c ops h) (run_cashGap c ops)

def feeDay : List (PortfolioOp ℚ) := [.recordFee 1]

theorem reset_keeps_cash_feeDay : (∀ op ∈ feeDay, DayOp op) ∧
    (ResetKeepsCash (Runs.run portfolioStep (initPortfolio 1000) feeDay) ↔
      (Runs.run portfolioStep (initPortfolio 1000) feeDay).cashLedger.feesAccruedToday =
        fundingTaken (Runs.run portfolioStep (initPortfolio 1000) feeDay)) := by
  have h : ∀ op ∈ feeDay, DayOp op := by simp [feeDay, DayOp]
  exact ⟨h, reset_keeps_cash_iff 1000 feeDay h⟩

/-- The reset gives a paid fee back to the cash. -/
theorem reset_returns_fee :
    ¬ ResetKeepsCash (Runs.run portfolioStep (initPortfolio 1000) feeDay) := by
  intro h
  have ht := h.total
  revert ht
  decide +kernel

end TB.PortfolioReset
