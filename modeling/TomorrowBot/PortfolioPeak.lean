import TomorrowBot.PortfolioEquity
import TomorrowBot.PortfolioKeys

/-!
# The peak of equity

Some operations refresh the peak after they move equity, and four of them do
not. From a state whose peak covers its equity, one operation leads to such
a state exactly when what it adds fits under the peak or the peak is
refreshed.
-/

set_option autoImplicit false

namespace TB.PortfolioPeak
open TB.CommonTypes TB.PortfolioEngine TB.PortfolioEquity

def Covered (p : Portfolio ℚ) : Prop := equity p ≤ p.peakEquity

/-- The reported peak covers equity, and the reported drawdown is the fall
from the peak as it stands, not one clipped to zero. -/
structure TruePeak (p : Portfolio ℚ) : Prop where
  covers : equity p ≤ (computePnl p).peakEquity
  unclipped : kMinValidPrice < p.peakEquity →
    (computePnl p).currentDrawdownPct =
      (p.peakEquity - equity p) / p.peakEquity * kPercentScaler

variable (p : Portfolio ℚ)

theorem truePeak_iff : TruePeak p ↔ Covered p := by
  constructor
  · intro h
    exact h.covers
  · intro h
    refine ⟨h, fun hpeak => ?_⟩
    have hmin : (0 : ℚ) < kMinValidPrice := by
      unfold kMinValidPrice
      norm_num
    have hpos : 0 < p.peakEquity := lt_trans hmin hpeak
    have hfall : 0 ≤ (p.peakEquity - equity p) / p.peakEquity * kPercentScaler := by
      have hscale : (0 : ℚ) ≤ kPercentScaler := by
        unfold kPercentScaler
        norm_num
      exact mul_nonneg (div_nonneg (sub_nonneg.mpr h) (le_of_lt hpos)) hscale
    have he : p.totalCapital + (p.realizedPnlToday + totalUnrealized p) = equity p :=
      pnl_equity p
    simp only [computePnl, he, if_pos hpeak, stdMax_rat]
    exact max_eq_left hfall

def FitsUnderPeak (p : Portfolio ℚ) : PortfolioOp ℚ → Prop
  | .addRealizedPnl amount => equity p + amount ≤ p.peakEquity
  | .openPosition _ pos =>
      equity p + (openedMark p pos -
        storedAt p (makePosKey pos.symbol (sideToPositionSide pos.side))) ≤ p.peakEquity
  | .recordFundingPayment s f =>
      equity p + (fundingGain p (makePosKey s .long) f +
        fundingGain p (makePosKey s .short) (-f)) ≤ p.peakEquity
  | .syncPositionFromExchange _ s ps size entry current unrealized _ =>
      equity p + (syncedMark p s ps size entry current unrealized -
        storedAt p (makePosKey s ps)) ≤ p.peakEquity
  | _ => True

variable (now : Timestamp)

theorem openPosition_peak (pos : Position ℚ) :
    (openPosition p now pos).peakEquity = p.peakEquity := by
  obtain ⟨key, leg, h⟩ := openPosition_stored p now pos
  rw [h, storeLeg]

theorem fundLeg_peak (key : String) (a : ℚ) : (fundLeg p key a).peakEquity = p.peakEquity := by
  rcases fundLeg_stored p key a with h | ⟨y, leg, h⟩
  · rw [h]
  · rw [h, storeLeg]

theorem syncPosition_peak (s : Symbol) (ps : PositionSide) (a b c d : ℚ) (t : Timestamp) :
    (syncPositionFromExchange p now s ps a b c d t).peakEquity = p.peakEquity := by
  obtain ⟨key, leg, h⟩ := syncPosition_stored p now s ps a b c d t
  rw [h, storeLeg]

theorem covered_gain_iff (p q : Portfolio ℚ) (gain : ℚ) (he : equity q = equity p + gain)
    (hk : q.peakEquity = p.peakEquity) : Covered q ↔ equity p + gain ≤ p.peakEquity := by
  rw [Covered, he, hk]

theorem covered_same (p q : Portfolio ℚ) (hp : Covered p) (he : equity q = equity p)
    (hk : q.peakEquity = p.peakEquity) : Covered q ↔ True := by
  apply iff_true_intro
  rw [Covered, he, hk]
  exact hp

theorem covered_refreshed (q : Portfolio ℚ) : Covered (refreshPeak q) ↔ True :=
  iff_true_intro (refreshPeak_covers q)

theorem setCapital_covered (e : ℚ) : Covered (setCapital p e) := by
  rw [Covered, setCapital_equity]
  simp only [setCapital]
  split_ifs with h₁ h₂
  · exact le_refl e
  · exact le_refl e
  · exact not_lt.mp h₂

theorem resetDaily_covered : Covered (resetDaily p) := by
  rw [Covered, resetDaily_equity]
  simp only [resetDaily, totalUnrealized_eq, equity]
  exact le_refl _

/-- From a covered state one operation leads to a covered state exactly when
its gain fits under the peak. -/
theorem step_covered_iff (op : PortfolioOp ℚ) (hp : Covered p) :
    Covered (portfolioStep p op) ↔ FitsUnderPeak p op := by
  have hends := step_ends p (P := fun q => Covered q ↔ True) (covered_same p _ hp rfl rfl)
    (fun _ _ => covered_refreshed _) fun _ _ _ _ _ _ _ => covered_refreshed _
  cases op with
  | openPosition now pos =>
    exact covered_gain_iff p _ _ (openPosition_equity p now pos) (openPosition_peak p now pos)
  | updatePrice now s x =>
    simp only [portfolioStep, updatePrice]
    split_ifs
    · exact covered_refreshed _
    · exact covered_same p _ hp rfl rfl
  | recordFundingPayment s f =>
    apply covered_gain_iff p _ _ (recordFunding_equity p s f)
    simp only [recordFundingPayment, fundLeg_peak]
  | closePosition | closePositionSide | reducePosition | reducePositionSide => exact hends _ trivial
  | addRealizedPnl x =>
    have he : equity (addRealizedPnl p x) = equity p + x := by
      simp only [addRealizedPnl, equity]
      ring
    exact covered_gain_iff p _ x he rfl
  | resetDaily => exact iff_true_intro (resetDaily_covered p)
  | setCapital e => exact iff_true_intro (setCapital_covered p e)
  | setLeverage l => exact covered_same p _ hp rfl rfl
  | reserveCash now id s side notional fee strategy =>
    simp only [portfolioStep, reserveCash]
    split_ifs
    · exact covered_same p _ hp rfl rfl
    · exact covered_same p _ hp rfl rfl
  | releaseCash id =>
    simp only [portfolioStep, releaseCash]
    cases p.pendingOrders.lookup id <;> exact covered_same p _ hp rfl rfl
  | recordFee x => exact covered_same p _ hp rfl rfl
  | syncPositionFromExchange now s ps a b c d t =>
    exact covered_gain_iff p _ _ (syncPosition_equity p now s ps a b c d t)
      (syncPosition_peak p now s ps a b c d t)

theorem init_covered (c : ℚ) : Covered (initPortfolio c) := by
  have h : equity (initPortfolio c) = c := by
    simp [equity, initPortfolio, Keyed.total_empty]
  rw [Covered, h]
  exact le_refl c

/-- The reported peak is a true one in every state of a run exactly when every
gain booked without a refresh fits under the peak it meets. -/
theorem always_truePeak_iff (c : ℚ) (ops : List (PortfolioOp ℚ)) :
    Runs.Always portfolioStep TruePeak (initPortfolio c) ops ↔
      Runs.Meets portfolioStep FitsUnderPeak (initPortfolio c) ops := by
  rw [Runs.always_congr portfolioStep truePeak_iff]
  exact Runs.always_iff_meets portfolioStep (J := fun _ => True) (fun _ _ _ => trivial)
    (fun p op _ hp => step_covered_iff p op hp) _ ops trivial (init_covered c)

/-- The operations that may lower the peak: the daily reset and the first
synchronisation of the capital. -/
def KeepsPeak (p : Portfolio ℚ) : PortfolioOp ℚ → Prop
  | .resetDaily => False
  | .setCapital _ => p.capitalSyncedFromExchange = true
  | _ => True

theorem refreshPeak_raises (p q : Portfolio ℚ) (h : q.peakEquity = p.peakEquity) :
    p.peakEquity ≤ (refreshPeak q).peakEquity := by
  rw [refreshPeak_peak, h]
  exact le_max_left _ _

theorem reduceLeg_peak (key : String) (pos : Position ℚ)
    (q c x : ℚ) : p.peakEquity ≤ (reduceLeg p now key pos q c x).1.peakEquity := by
  unfold reduceLeg
  apply refreshPeak_raises
  split_ifs <;> rfl

theorem step_peak_mono (op : PortfolioOp ℚ) (h : KeepsPeak p op) :
    p.peakEquity ≤ (portfolioStep p op).peakEquity := by
  have hends := step_ends p (P := fun q => p.peakEquity ≤ q.peakEquity) le_rfl
    (fun _ _ => refreshPeak_raises p _ rfl)
    fun now key pos q c x _ => reduceLeg_peak p now key pos q c x
  cases op with
  | openPosition now pos => exact le_of_eq (openPosition_peak p now pos).symm
  | updatePrice now s x =>
    simp only [portfolioStep, updatePrice]
    split_ifs
    · exact refreshPeak_raises p _ rfl
    · exact le_refl _
  | recordFundingPayment s f =>
    simp only [portfolioStep, recordFundingPayment, fundLeg_peak]
    exact le_refl _
  | closePosition | closePositionSide | reducePosition | reducePositionSide => exact hends _ trivial
  | resetDaily => exact h.elim
  | setCapital e =>
    have hs : p.capitalSyncedFromExchange = true := h
    simp only [portfolioStep, setCapital, hs]
    split_ifs with h₁ h₂
    · exact absurd h₁ (by simp)
    · exact le_of_lt h₂
    · exact le_refl _
  | reserveCash now id s side notional fee strategy =>
    simp only [portfolioStep, reserveCash]
    split_ifs <;> exact le_refl _
  | releaseCash id =>
    simp only [portfolioStep, releaseCash]
    cases p.pendingOrders.lookup id <;> exact le_refl _
  | syncPositionFromExchange now s ps a b c d t =>
    exact le_of_eq (syncPosition_peak p now s ps a b c d t).symm
  | addRealizedPnl | setLeverage | recordFee => exact le_refl _

/-- Between resets the peak stays above every equity the run has passed, so a
later fall is measured from the real peak. -/
theorem peak_covers_history (ops : List (PortfolioOp ℚ))
    (hk : Runs.Meets portfolioStep KeepsPeak p ops) (hc : Covered p) :
    equity p ≤ (Runs.run portfolioStep p ops).peakEquity := by
  have h : p.peakEquity ≤ (Runs.run portfolioStep p ops).peakEquity :=
    Runs.invariant_run portfolioStep (I := fun q => p.peakEquity ≤ q.peakEquity)
      (fun q op hq hop => le_trans hq (step_peak_mono q op hop)) p ops (le_refl _) hk
  exact le_trans hc h

theorem peak_covers_fees :
    equity (initPortfolio 1000) ≤
      (Runs.run portfolioStep (initPortfolio 1000) [.recordFee 5, .addRealizedPnl (-5)]).peakEquity :=
  peak_covers_history (initPortfolio 1000) [.recordFee 5, .addRealizedPnl (-5)]
    ⟨trivial, trivial, trivial⟩ (init_covered 1000)

def bookedGain : List (PortfolioOp ℚ) := [.addRealizedPnl 10]

theorem booked_gain_over_peak :
    ¬ TruePeak (Runs.run portfolioStep (initPortfolio 1000) bookedGain) := by
  intro h
  have hc := h.covers
  revert hc
  decide +kernel

end TB.PortfolioPeak
