import TomorrowBot.PortfolioEquity
import TomorrowBot.PortfolioKeys

/-!
# Funding and the equity it moves

A funding payment is taken from today's realised result and, through the
accumulated funding of the leg, from its unrealised result as well. The
exact conditions under which the payment and the later close of the leg
still conserve equity are stated on the state before them.
-/

set_option autoImplicit false

namespace TB.PortfolioFunding
open TB.CommonTypes TB.PortfolioEngine TB.PortfolioEquity TB.PortfolioKeys

def openLeg (p : Portfolio ℚ) (s : Symbol) (ps : PositionSide) : Option (Position ℚ) :=
  (p.positions.lookup (makePosKey s ps)).filter (fun pos => !decide (pos.size ≤ 1e-12))

/-- The law of a funding payment: a lone long leg pays it, a lone short leg
receives it, and a hedged pair nets to nothing. -/
structure FundingLaw (p : Portfolio ℚ) (s : Symbol) (f : ℚ) : Prop where
  longOnly : (openLeg p s .long).isSome → (openLeg p s .short).isNone →
    equity (recordFundingPayment p s f) = equity p - f
  shortOnly : (openLeg p s .long).isNone → (openLeg p s .short).isSome →
    equity (recordFundingPayment p s f) = equity p + f
  hedged : (openLeg p s .long).isSome → (openLeg p s .short).isSome →
    equity (recordFundingPayment p s f) = equity p

def staleness (pos : Position ℚ) : ℚ := legMark pos - pos.unrealizedPnl

def markedFunding (pos : Position ℚ) (amount : ℚ) : ℚ :=
  if pos.avgEntryPrice ≤ 0 ∨ pos.size ≤ 0 then 0 else amount

def revaluation (leg : Option (Position ℚ)) (amount : ℚ) : ℚ :=
  leg.elim 0 (fun pos => staleness pos - markedFunding pos amount)

def FundedOnce (p : Portfolio ℚ) (s : Symbol) (f : ℚ) : Prop :=
  revaluation (openLeg p s .long) f + revaluation (openLeg p s .short) (-f) = 0

theorem legMark_funded (pos : Position ℚ) (amount : ℚ) :
    legMark { pos with accumulatedFunding := pos.accumulatedFunding + amount } =
      legMark pos - markedFunding pos amount := by
  simp only [legMark, markedPnl, markedFunding]
  split_ifs
  · exact (sub_zero 0).symm
  · ring

variable (p : Portfolio ℚ) (s : Symbol)

theorem fundingGain_eq (ps : PositionSide) (amount : ℚ) : fundingGain p (makePosKey s ps) amount =
      (openLeg p s ps).elim 0 (fun _ => -amount) + revaluation (openLeg p s ps) amount := by
  unfold fundingGain openLeg
  cases p.positions.lookup (makePosKey s ps) with
  | none => exact (add_zero 0).symm
  | some pos =>
    dsimp only
    by_cases h : pos.size ≤ 1e-12
    · simp only [h, if_true, Option.filter_some, decide_true, Bool.not_true, Bool.false_eq_true,
        if_false, revaluation, Option.elim_none, add_zero]
    · simp only [h, if_false, Option.filter_some, decide_false, Bool.not_false, if_true]
      rw [legMark_funded]
      simp only [revaluation, Option.elim_some, staleness]
      ring

theorem funded_equity (f : ℚ) : equity (recordFundingPayment p s f) = equity p +
      ((openLeg p s .long).elim 0 (fun _ => -f) + (openLeg p s .short).elim 0 (fun _ => f)) +
      (revaluation (openLeg p s .long) f + revaluation (openLeg p s .short) (-f)) := by
  have hneg : (fun _ : Position ℚ => - -f) = fun _ => f := by
    funext _
    exact neg_neg f
  rw [recordFunding_equity, fundingGain_eq, fundingGain_eq, hneg]
  ring

theorem fundingLaw_iff (f : ℚ) : FundingLaw p s f ↔ FundedOnce p s f := by
  have h := funded_equity p s f
  unfold FundedOnce
  cases hl : openLeg p s .long with
  | none =>
    cases hs : openLeg p s .short with
    | none =>
      have hz : revaluation none f + revaluation none (-f) = 0 := add_zero 0
      refine iff_of_true ⟨?_, ?_, ?_⟩ hz <;> simp [hl, hs]
    | some b =>
      rw [hl, hs] at h
      constructor
      · intro law
        have he := law.shortOnly (by simp [hl]) (by simp [hs])
        simp only [Option.elim] at h
        linarith
      · intro hz
        simp only [Option.elim] at h
        refine ⟨by simp [hl], fun _ _ => ?_, by simp [hl]⟩
        linarith
  | some a =>
    cases hs : openLeg p s .short with
    | none =>
      rw [hl, hs] at h
      constructor
      · intro law
        have he := law.longOnly (by simp [hl]) (by simp [hs])
        simp only [Option.elim] at h
        linarith
      · intro hz
        simp only [Option.elim] at h
        refine ⟨fun _ _ => ?_, by simp [hl], by simp [hs]⟩
        linarith
    | some b =>
      rw [hl, hs] at h
      constructor
      · intro law
        have he := law.hedged (by simp [hl]) (by simp [hs])
        simp only [Option.elim] at h
        linarith
      · intro hz
        simp only [Option.elim] at h
        refine ⟨by simp [hs], by simp [hl], fun _ _ => ?_⟩
        linarith

def closePnl (ps : PositionSide) (entry price size : ℚ) : ℚ :=
  match ps with
  | .long => (price - entry) * size
  | .short => (entry - price) * size

/-- The law of a complete close: right after the leg is priced, closing it at
that price with its price result leaves equity unchanged. -/
def CloseLaw (p : Portfolio ℚ) (now : Timestamp) (s : Symbol) (ps : PositionSide)
    (price : ℚ) : Prop :=
  ∀ pos, (updatePrice p now s price).positions.lookup (makePosKey s ps) = some pos →
    equity (closePositionSide (updatePrice p now s price) s ps
      (closePnl ps pos.avgEntryPrice price pos.size)) = equity (updatePrice p now s price)

def entryAt (pos : Position ℚ) (price : ℚ) : ℚ :=
  if pos.avgEntryPrice ≤ 0 ∧ 0 < price then price else pos.avgEntryPrice

def ClosesEven (p : Portfolio ℚ) (s : Symbol) (ps : PositionSide) (price : ℚ) : Prop :=
  ∀ pos, p.positions.lookup (makePosKey s ps) = some pos →
    if entryAt pos price ≤ 0 ∨ pos.size ≤ 0 then closePnl ps (entryAt pos price) price pos.size = 0
    else pos.accumulatedFunding = 0

theorem closePnl_pricePnl (ps : PositionSide) (side : Side)
    (h : sideToPositionSide side = ps) (entry price size : ℚ) :
    closePnl ps entry price size = pricePnl side entry price size := by
  subst h
  cases side <;> rfl

theorem closeLaw_iff (hp : WellKeyed p) (now : Timestamp) (s : Symbol)
    (ps : PositionSide) (price : ℚ) : CloseLaw p now s ps price ↔ ClosesEven p s ps price := by
  unfold CloseLaw ClosesEven
  cases h : p.positions.lookup (makePosKey s ps) with
  | none => simp [updatePrice_lookup, h]
  | some pos =>
    have hlook : (updatePrice p now s price).positions.lookup (makePosKey s ps) =
        some (repriceLeg now price pos) := by
      rw [updatePrice_lookup, h]
      rfl
    have hmem : makePosKey s ps ∈ (updatePrice p now s price).positions :=
      (Keyed.mem_iff_lookup _ _).mpr ⟨_, hlook⟩
    have hside : sideToPositionSide pos.side = ps :=
      (makePosKey_injective _ _ _ _ (hp _ pos h)).2.symm
    have hentry : (repriceLeg now price pos).avgEntryPrice = entryAt pos price := by
      simp [repriceLeg, entryAt]
    have hsize : (repriceLeg now price pos).size = pos.size := by
      simp [repriceLeg]
    have hmark : (repriceLeg now price pos).unrealizedPnl =
        markedPnl pos.side (entryAt pos price) price pos.size pos.accumulatedFunding := by
      simp [repriceLeg, entryAt, legMark]
    simp only [hlook, Option.some.injEq, forall_eq']
    rw [closePositionSide, if_pos hmem, closeLeg_equity, storedAt_some _ _ _ hlook,
      hmark, hentry, hsize, closePnl_pricePnl ps pos.side hside, add_eq_left, sub_eq_zero]
    unfold markedPnl
    split_ifs
    · exact Iff.rfl
    · constructor
      · intro he
        linarith
      · intro hz
        rw [hz, sub_zero]

/-- Equity is conserved by funding payments and by complete closes, in every
state a run reaches, exactly under the two conditions. -/
theorem equity_conserved_iff (c : ℚ) (ops : List (PortfolioOp ℚ)) (s : Symbol) :
    (∀ f, FundingLaw (Runs.run portfolioStep (initPortfolio c) ops) s f ↔
      FundedOnce (Runs.run portfolioStep (initPortfolio c) ops) s f) ∧
    (∀ now ps price, CloseLaw (Runs.run portfolioStep (initPortfolio c) ops) now s ps price ↔
      ClosesEven (Runs.run portfolioStep (initPortfolio c) ops) s ps price) :=
  ⟨fun f => fundingLaw_iff _ s f, fun now ps price =>
    closeLaw_iff _ (run_wellKeyed c ops) now s ps price⟩

def oneLong : Position ℚ where
  symbol := "BTCUSDT"
  side := .buy
  positionSide := .long
  size := 1
  avgEntryPrice := 100
  currentPrice := 100
  notional := 100
  unrealizedPnl := 0
  unrealizedPnlPct := 0
  accumulatedFunding := 0
  strategyId := "s"
  openedAt := 0
  updatedAt := 0

/-- A payment of 5 costs the lone long leg 10, and closing the leg at its
entry price gives 5 of them back. -/
theorem funding_counted_twice :
    ¬ FundingLaw (Runs.run portfolioStep (initPortfolio 1000) [.openPosition 0 oneLong])
        "BTCUSDT" 5 ∧
    ¬ CloseLaw (Runs.run portfolioStep (initPortfolio 1000)
        [.openPosition 0 oneLong, .recordFundingPayment "BTCUSDT" 5]) 0 "BTCUSDT" .long 100 := by
  constructor
  · intro h
    have he := h.longOnly (by decide +kernel) (by decide +kernel)
    revert he
    decide +kernel
  · intro h
    have hl : (updatePrice (Runs.run portfolioStep (initPortfolio 1000)
        [.openPosition 0 oneLong, .recordFundingPayment "BTCUSDT" 5])
        0 "BTCUSDT" 100).positions.lookup (makePosKey "BTCUSDT" .long) =
          some { oneLong with
            accumulatedFunding := 5, unrealizedPnl := -5, unrealizedPnlPct := -5 } := by
      decide +kernel
    have he := h _ hl
    revert he
    decide +kernel

end TB.PortfolioFunding
