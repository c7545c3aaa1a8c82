import TomorrowBot.PortfolioLedger
import Mathlib.Tactic.Positivity
import Mathlib.Tactic.FieldSimp

/-!
# Equity and what each operation does to it

Equity is the base capital, the realised result of the day and the stored
unrealised results of the legs. The mark of a leg is the unrealised result a
recalculation would store. For every operation the change of equity is given
in terms of the legs it touches.
-/

set_option autoImplicit false

namespace TB.PortfolioEquity
open TB.CommonTypes TB.PortfolioEngine

def equity (p : Portfolio ℚ) : ℚ :=
  p.totalCapital + p.realizedPnlToday + Keyed.total (·.unrealizedPnl) p.positions

def pricePnl (side : Side) (entry current size : ℚ) : ℚ :=
  match side with
  | .buy => (current - entry) * size
  | .sell => (entry - current) * size

def markedPnl (side : Side) (entry current size funding : ℚ) : ℚ :=
  if entry ≤ 0 ∨ size ≤ 0 then 0 else pricePnl side entry current size - funding

def legMark (pos : Position ℚ) : ℚ :=
  markedPnl pos.side pos.avgEntryPrice pos.currentPrice pos.size pos.accumulatedFunding

def storedAt (p : Portfolio ℚ) (key : String) : ℚ :=
  Keyed.weightAt (·.unrealizedPnl) p.positions key

variable (pos : Position ℚ)

@[simp] theorem recalculate_unrealized :
    (recalculatePositionPnl pos).unrealizedPnl = legMark pos := by
  unfold recalculatePositionPnl legMark markedPnl
  dsimp only
  split_ifs <;> rfl

@[simp] theorem recalculate_side : (recalculatePositionPnl pos).side = pos.side := by
  unfold recalculatePositionPnl
  dsimp only
  split_ifs <;> rfl

@[simp] theorem recalculate_symbol : (recalculatePositionPnl pos).symbol = pos.symbol := by
  unfold recalculatePositionPnl
  dsimp only
  split_ifs <;> rfl

@[simp] theorem recalculate_size : (recalculatePositionPnl pos).size = pos.size := by
  unfold recalculatePositionPnl
  dsimp only
  split_ifs <;> rfl

@[simp] theorem recalculate_entry :
    (recalculatePositionPnl pos).avgEntryPrice = pos.avgEntryPrice := by
  unfold recalculatePositionPnl
  dsimp only
  split_ifs <;> rfl

@[simp] theorem recalculate_current :
    (recalculatePositionPnl pos).currentPrice = pos.currentPrice := by
  unfold recalculatePositionPnl
  dsimp only
  split_ifs <;> rfl

@[simp] theorem recalculate_funding :
    (recalculatePositionPnl pos).accumulatedFunding = pos.accumulatedFunding := by
  unfold recalculatePositionPnl
  dsimp only
  split_ifs <;> rfl

variable (p : Portfolio ℚ)

theorem currentEquity_eq : currentEquity p = equity p :=
  Keyed.foldl_eq_total (fun pos : Position ℚ => pos.unrealizedPnl) p.positions _

theorem totalUnrealized_eq : totalUnrealized p = Keyed.total (·.unrealizedPnl) p.positions := by
  have h := Keyed.foldl_eq_total (fun pos : Position ℚ => pos.unrealizedPnl) p.positions 0
  exact h.trans (zero_add _)

theorem pnl_equity : p.totalCapital + (computePnl p).totalPnl = equity p := by
  simp only [computePnl, totalUnrealized_eq, equity]
  ring

theorem refreshPeak_equity : equity (refreshPeak p) = equity p := by
  unfold refreshPeak
  split_ifs <;> rfl

theorem refreshPeak_peak : (refreshPeak p).peakEquity = max p.peakEquity (equity p) := by
  unfold refreshPeak
  rw [currentEquity_eq]
  split_ifs with h
  · exact (max_eq_right (le_of_lt h)).symm
  · exact (max_eq_left (not_lt.mp h)).symm

theorem refreshPeak_covers : equity (refreshPeak p) ≤ (refreshPeak p).peakEquity := by
  rw [refreshPeak_equity, refreshPeak_peak]
  exact le_max_right _ _

variable (key : String)

theorem storeLeg_equity (pos : Position ℚ) :
    equity (storeLeg p key pos) = equity p + (pos.unrealizedPnl - storedAt p key) := by
  simp only [equity, storedAt, storeLeg, Keyed.total_insert_sub]
  ring

theorem eraseLeg_equity : equity (eraseLeg p key) = equity p - storedAt p key := by
  simp only [equity, storedAt, eraseLeg, Keyed.total_erase]
  ring

theorem storedAt_some (pos : Position ℚ)
    (h : p.positions.lookup key = some pos) : storedAt p key = pos.unrealizedPnl :=
  Keyed.weightAt_some _ _ _ pos h

def openedMark (p : Portfolio ℚ) (pos : Position ℚ) : ℚ :=
  match p.positions.lookup (makePosKey pos.symbol (sideToPositionSide pos.side)) with
  | none => legMark pos
  | some e =>
    if 0 < e.size then
      if 0 < e.size + pos.size then
        markedPnl e.side
          ((e.size * e.avgEntryPrice + pos.size * pos.avgEntryPrice) / (e.size + pos.size))
          pos.currentPrice (e.size + pos.size) e.accumulatedFunding
      else legMark e
    else legMark pos

variable (now : Timestamp)

theorem freshLeg_mark (pos : Position ℚ) : legMark (freshLeg now pos) = legMark pos := rfl

theorem addToLeg_mark (e : Position ℚ) (now : Timestamp) (pos : Position ℚ) :
    legMark (addToLeg e now pos) =
      if 0 < e.size + pos.size then
        markedPnl e.side
          ((e.size * e.avgEntryPrice + pos.size * pos.avgEntryPrice) / (e.size + pos.size))
          pos.currentPrice (e.size + pos.size) e.accumulatedFunding
      else legMark e := by
  unfold addToLeg
  dsimp only
  split_ifs <;> rfl

theorem openPosition_equity (pos : Position ℚ) : equity (openPosition p now pos) = equity p +
      (openedMark p pos -
        storedAt p (makePosKey pos.symbol (sideToPositionSide pos.side))) := by
  unfold openPosition openedMark
  dsimp only
  cases p.positions.lookup (makePosKey pos.symbol (sideToPositionSide pos.side)) with
  | none => simp only [storeLeg_equity, recalculate_unrealized, freshLeg_mark]
  | some e =>
    dsimp only
    rw [← addToLeg_mark e now pos]
    split_ifs
    · rw [storeLeg_equity, recalculate_unrealized]
    · rw [storeLeg_equity, recalculate_unrealized, freshLeg_mark]

def fundingGain (p : Portfolio ℚ) (key : String) (amount : ℚ) : ℚ :=
  match p.positions.lookup key with
  | none => 0
  | some pos =>
    if pos.size ≤ 1e-12 then 0
    else -amount + (legMark { pos with accumulatedFunding := pos.accumulatedFunding + amount } -
      pos.unrealizedPnl)

theorem fundLeg_equity (amount : ℚ) :
    equity (fundLeg p key amount) = equity p + fundingGain p key amount := by
  unfold fundLeg fundingGain
  cases h : p.positions.lookup key with
  | none => exact (add_zero _).symm
  | some pos =>
    have hs : storedAt { p with realizedPnlToday := p.realizedPnlToday - amount } key =
        pos.unrealizedPnl := storedAt_some _ key pos h
    dsimp only
    split_ifs
    · exact (add_zero _).symm
    · rw [storeLeg_equity, recalculate_unrealized, hs]
      simp only [equity]
      ring

theorem fundLeg_lookup_ne (j key : String) (amount : ℚ) (h : j ≠ key) :
    (fundLeg p key amount).positions.lookup j = p.positions.lookup j := by
  unfold fundLeg
  split
  · rfl
  · split_ifs
    · rfl
    · exact AList.lookup_insert_ne h

theorem recordFunding_equity (s : Symbol) (f : ℚ) : equity (recordFundingPayment p s f) = equity p +
      (fundingGain p (makePosKey s .long) f + fundingGain p (makePosKey s .short) (-f)) := by
  have hne : makePosKey s .short ≠ makePosKey s .long := (makePosKey_legs s s).symm
  have hs : fundingGain (fundLeg p (makePosKey s .long) f) (makePosKey s .short) (-f) =
      fundingGain p (makePosKey s .short) (-f) := by
    simp only [fundingGain, fundLeg_lookup_ne p _ _ f hne]
  rw [recordFundingPayment, fundLeg_equity, fundLeg_equity, hs, add_assoc]

theorem closeLeg_equity (x : ℚ) : equity (closeLeg p key x) = equity p + (x - storedAt p key) := by
  rw [closeLeg, refreshPeak_equity, eraseLeg_equity]
  simp only [equity, storedAt, bookTrade, bookRealized]
  ring

def syncedMark (p : Portfolio ℚ) (s : Symbol) (ps : PositionSide)
    (size entry current unrealized : ℚ) : ℚ :=
  match p.positions.lookup (makePosKey s ps) with
  | some pos => markedPnl pos.side entry current size pos.accumulatedFunding
  | none => unrealized

theorem syncPosition_equity (s : Symbol)
    (ps : PositionSide) (size entry current unrealized : ℚ) (t : Timestamp) :
    equity (syncPositionFromExchange p now s ps size entry current unrealized t) = equity p +
      (syncedMark p s ps size entry current unrealized - storedAt p (makePosKey s ps)) := by
  unfold syncPositionFromExchange syncedMark
  dsimp only
  cases p.positions.lookup (makePosKey s ps) with
  | some pos =>
    simp only [storeLeg_equity, recalculate_unrealized]
    rfl
  | none =>
    simp only [storeLeg_equity]
    rfl

theorem resetDaily_equity : equity (resetDaily p) = equity p := by
  simp only [resetDaily, equity, totalUnrealized_eq]
  ring

theorem setCapital_equity (e : ℚ) : equity (setCapital p e) = e := by
  simp only [setCapital, equity, totalUnrealized_eq]
  ring

end TB.PortfolioEquity
