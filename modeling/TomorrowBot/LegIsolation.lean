import TomorrowBot.PortfolioKeys
import TomorrowBot.PortfolioLedger

/-!
# The two legs of a symbol

An operation that is given a leg leaves the other one alone. Without a leg,
the close refuses a symbol with both legs open, while the reduction takes the
long one.
-/

set_option autoImplicit false

namespace TB.LegIsolation
open TB.CommonTypes TB.PortfolioEngine TB.PortfolioKeys TB.PortfolioLedger

section Sided
variable {F : Type} [DoubleArith F]

omit [DoubleArith F] in
def givenLeg : PortfolioOp F → Option (Symbol × PositionSide)
  | .openPosition _ pos => some (pos.symbol, sideToPositionSide pos.side)
  | .closePositionSide symbol ps _ => some (symbol, ps)
  | .reducePositionSide _ symbol ps _ _ _ => some (symbol, ps)
  | .syncPositionFromExchange _ symbol ps _ _ _ _ _ => some (symbol, ps)
  | _ => none

omit [DoubleArith F] in
def givenNoLeg : PortfolioOp F → Option Symbol
  | .closePosition symbol _ => some symbol
  | .reducePosition _ symbol _ _ _ => some symbol
  | _ => none

variable (p : Portfolio F) (now : Timestamp)

theorem reduceLeg_lookup_ne (key other : String)
    (pos : Position F) (qty price pnl : F) (h : other ≠ key) :
    (reduceLeg p now key pos qty price pnl).1.positions.lookup other =
      p.positions.lookup other := by
  unfold reduceLeg
  dsimp only
  rw [refreshPeak_positions]
  split_ifs
  · exact AList.lookup_erase_ne h
  · exact AList.lookup_insert_ne h

variable (symbol : Symbol)

theorem reducePositionSide_lookup_ne
    (ps : PositionSide) (qty price pnl : F) (key : String) (h : key ≠ makePosKey symbol ps) :
    (reducePositionSide p now symbol ps qty price pnl).1.positions.lookup key =
      p.positions.lookup key := by
  rcases reducePositionSide_cases p now symbol ps qty price pnl with hc | ⟨pos, -, hc⟩
  · rw [hc]
  · rw [hc]
    exact reduceLeg_lookup_ne p now _ key pos qty price pnl h

theorem syncPosition_lookup_ne
    (ps : PositionSide) (size entry current unrealized : F) (openedAt : Timestamp) (key : String)
    (h : key ≠ makePosKey symbol ps) :
    (syncPositionFromExchange p now symbol ps size entry current unrealized
      openedAt).positions.lookup key = p.positions.lookup key := by
  unfold syncPositionFromExchange
  dsimp only
  cases p.positions.lookup (makePosKey symbol ps) with
  | none => exact AList.lookup_insert_ne h
  | some pos => exact AList.lookup_insert_ne h

/-- An operation that is given a leg changes the record of no other leg. -/
theorem given_leg_alone (op : PortfolioOp F) (symbol : Symbol)
    (ps : PositionSide) (hop : givenLeg op = some (symbol, ps)) (key : String)
    (h : key ≠ makePosKey symbol ps) :
    (portfolioStep p op).positions.lookup key = p.positions.lookup key := by
  cases op <;> simp only [givenLeg, reduceCtorEq, Option.some.injEq, Prod.mk.injEq] at hop
  case openPosition now pos =>
    obtain ⟨rfl, rfl⟩ := hop
    exact openPosition_lookup_ne p now pos key h
  case closePositionSide s os pnl =>
    obtain ⟨rfl, rfl⟩ := hop
    exact closePositionSide_lookup_ne p s os pnl key h
  case reducePositionSide now s os qty price pnl =>
    obtain ⟨rfl, rfl⟩ := hop
    exact reducePositionSide_lookup_ne p now s os qty price pnl key h
  case syncPositionFromExchange now s os size entry current unrealized openedAt =>
    obtain ⟨rfl, rfl⟩ := hop
    exact syncPosition_lookup_ne p now s os size entry current unrealized openedAt key h

def BothLegs (p : Portfolio F) (symbol : Symbol) : Prop :=
  ∀ ps, makePosKey symbol ps ∈ p.positions

structure Unmoved (symbol : Symbol) (p q : Portfolio F) : Prop where
  legs : ∀ ps, q.positions.lookup (makePosKey symbol ps) =
    p.positions.lookup (makePosKey symbol ps)
  today : q.realizedPnlToday = p.realizedPnlToday
  gross : q.realizedPnlGross = p.realizedPnlGross
  cash : q.cashLedger = p.cashLedger
  fees : q.feesAccruedToday = p.feesAccruedToday
  trades : q.tradesToday = p.tradesToday
  losses : q.consecutiveLosses = p.consecutiveLosses

def Isolated (symbol : Symbol) (p : Portfolio F) (op : PortfolioOp F) : Prop :=
  (∀ ps os, givenLeg op = some (symbol, ps) → os ≠ ps →
    (portfolioStep p op).positions.lookup (makePosKey symbol os) =
      p.positions.lookup (makePosKey symbol os)) ∧
  (givenNoLeg op = some symbol → Unmoved symbol p (portfolioStep p op))

omit [DoubleArith F] in
theorem unmoved_refl (p : Portfolio F) : Unmoved symbol p p :=
  ⟨fun _ => rfl, rfl, rfl, rfl, rfl, rfl, rfl⟩

theorem closePosition_ambiguous (pnl : F)
    (h : BothLegs p symbol) : closePosition p symbol pnl = p :=
  if_pos ⟨h .long, h .short⟩

theorem isolated_closePosition (symbol other : Symbol) (p : Portfolio F) (pnl : F)
    (h : BothLegs p symbol) : Isolated symbol p (.closePosition other pnl) := by
  refine ⟨fun ps os hop => absurd hop (by simp [givenLeg]), fun hop => ?_⟩
  have hs : other = symbol := by simpa [givenNoLeg] using hop
  subst hs
  rw [portfolioStep, closePosition_ambiguous p other pnl h]
  exact unmoved_refl other p

theorem isolated_given (p : Portfolio F) (op : PortfolioOp F)
    (hop : givenNoLeg op = none) : Isolated symbol p op := by
  refine ⟨fun ps os hgiven hne => ?_, fun hnone => absurd hnone (by simp [hop])⟩
  apply given_leg_alone p op symbol ps hgiven
  intro hkey
  exact hne (makePosKey_injective _ _ _ _ hkey).2

end Sided

section Unsided

def marked (now : Timestamp) (price : ℚ) (leg : Position ℚ) : Position ℚ :=
  recalculatePositionPnl
    { leg with currentPrice := price, notional := leg.size * price, updatedAt := now }

/-- A reduction of the symbol by nothing, without a result, that finds the long
leg marked as it would mark it. Every other operation is harmless. -/
def Harmless (symbol : Symbol) (p : Portfolio ℚ) : PortfolioOp ℚ → Prop
  | .reducePosition now other qty price pnl =>
    other = symbol → qty = 0 ∧ pnl = 0 ∧
      ∀ leg ∈ p.positions.lookup (makePosKey symbol .long),
        1e-12 < leg.size ∧ marked now price leg = leg
  | _ => True

theorem recalculate_size (pos : Position ℚ) : (recalculatePositionPnl pos).size = pos.size := by
  unfold recalculatePositionPnl
  dsimp only
  split_ifs <;> rfl

theorem reducePosition_long (p : Portfolio ℚ) (now : Timestamp) (symbol : Symbol)
    (qty price pnl : ℚ) (leg : Position ℚ)
    (h : p.positions.lookup (makePosKey symbol .long) = some leg) :
    reducePosition p now symbol qty price pnl =
      reduceLeg p now (makePosKey symbol .long) leg qty price pnl := by
  rw [reducePosition, h]

variable (symbol : Symbol) (p : Portfolio ℚ) (now : Timestamp) (leg : Position ℚ)

/-- A reduction that takes nothing and books nothing marks the leg and does
nothing else. -/
theorem reduceLeg_nothing (price : ℚ)
    (h : p.positions.lookup (makePosKey symbol .long) = some leg) (hsize : 1e-12 < leg.size)
    (hmark : marked now price leg = leg) :
    Unmoved symbol p (reduceLeg p now (makePosKey symbol .long) leg 0 price 0).1 := by
  have hpos : (0 : ℚ) < leg.size := lt_trans (by norm_num) hsize
  have htaken : leg.size - stdMin 0 leg.size = leg.size := by
    rw [stdMin_rat, min_eq_left (le_of_lt hpos), sub_zero]
  have hopen : ¬ leg.size ≤ 1e-12 := not_le.mpr hsize
  unfold reduceLeg
  simp only [htaken, if_neg hopen]
  rw [show recalculatePositionPnl _ = leg from hmark]
  unfold refreshPeak
  split_ifs
  all_goals
    refine ⟨fun ps => ?_, ?_, ?_, ?_, rfl, rfl, rfl⟩
    · cases ps with
      | long => exact (AList.lookup_insert _).trans h.symm
      | short => exact AList.lookup_insert_ne (makePosKey_legs symbol symbol).symm
    · exact add_zero _
    · exact add_zero _
    · simp [storeLeg, bookRealized]

theorem reduceLeg_unmoved (qty price pnl : ℚ)
    (h : p.positions.lookup (makePosKey symbol .long) = some leg)
    (hu : Unmoved symbol p (reduceLeg p now (makePosKey symbol .long) leg qty price pnl).1) :
    qty = 0 ∧ pnl = 0 ∧ 1e-12 < leg.size ∧ marked now price leg = leg := by
  have hpnl : pnl = 0 := by
    have htoday := hu.today
    rwa [reduceLeg_today, add_eq_left] at htoday
  have hleg := (hu.legs .long).trans h
  unfold reduceLeg at hleg
  simp only [refreshPeak_positions] at hleg
  by_cases hclosed : leg.size - stdMin qty leg.size ≤ 1e-12
  · rw [if_pos hclosed] at hleg
    have hgone : ((eraseLeg (bookTrade (bookRealized p pnl) pnl)
        (makePosKey symbol .long)).positions.lookup (makePosKey symbol .long)) = none :=
      AList.lookup_erase _ _
    rw [hgone] at hleg
    exact absurd hleg (by simp)
  rw [if_neg hclosed, storeLeg] at hleg
  have hstored := Option.some.inj ((AList.lookup_insert _).symm.trans hleg)
  have hsize : leg.size - stdMin qty leg.size = leg.size :=
    (recalculate_size _).symm.trans (congrArg Position.size hstored)
  rw [hsize] at hclosed hstored
  rw [stdMin_rat] at hsize
  have hpos : (1e-12 : ℚ) < leg.size := not_le.mp hclosed
  refine ⟨?_, hpnl, hpos, hstored⟩
  have hmin : min qty leg.size = 0 := by linarith
  rcases min_choice qty leg.size with hq | hs
  · exact hq.symm.trans hmin
  · have : leg.size = 0 := hs.symm.trans hmin
    norm_num [this] at hpos

theorem step_unsided (qty price pnl : ℚ)
    (hleg : p.positions.lookup (makePosKey symbol .long) = some leg) :
    portfolioStep p (.reducePosition now symbol qty price pnl) =
      (reduceLeg p now (makePosKey symbol .long) leg qty price pnl).1 := by
  rw [portfolioStep, reducePosition_long p now symbol qty price pnl leg hleg]

theorem harmless_of_isolated (other : Symbol) (qty price pnl : ℚ) (hboth : BothLegs p symbol)
    (h : Isolated symbol p (.reducePosition now other qty price pnl)) :
    Harmless symbol p (.reducePosition now other qty price pnl) := by
  rintro rfl
  obtain ⟨leg, hleg⟩ := (Keyed.mem_iff_lookup _ _).mp (hboth .long)
  obtain ⟨hq, hx, hs⟩ := reduceLeg_unmoved other p now leg qty price pnl hleg
    (step_unsided other p now leg qty price pnl hleg ▸ h.2 rfl)
  refine ⟨hq, hx, fun found hfound => ?_⟩
  rw [hleg, Option.mem_some_iff] at hfound
  exact hfound ▸ hs

/-- In a portfolio with both legs of a symbol open, an operation keeps them
isolated if and only if it is not a reduction of the symbol without a leg, or one
that changes nothing. -/
theorem isolated_iff (symbol : Symbol) (p : Portfolio ℚ) (op : PortfolioOp ℚ)
    (hboth : BothLegs p symbol) : Isolated symbol p op ↔ Harmless symbol p op := by
  cases hop : givenNoLeg op with
  | none =>
    have hharmless : Harmless symbol p op := by
      cases op
      case reducePosition => exact absurd hop (by simp [givenNoLeg])
      all_goals trivial
    exact ⟨fun _ => hharmless, fun _ => isolated_given symbol p op hop⟩
  | some s =>
    cases op <;> simp only [givenNoLeg, reduceCtorEq, Option.some.injEq] at hop
    case closePosition other pnl =>
      exact ⟨fun _ => trivial, fun _ => isolated_closePosition symbol other p pnl hboth⟩
    case reducePosition now other qty price pnl =>
      refine ⟨harmless_of_isolated symbol p now other qty price pnl hboth, fun hharmless => ?_⟩
      obtain ⟨leg, hleg⟩ := (Keyed.mem_iff_lookup _ _).mp (hboth .long)
      refine ⟨fun ps os hgiven => absurd hgiven (by simp [givenLeg]), fun hgiven => ?_⟩
      have hs : other = symbol := by simpa [givenNoLeg] using hgiven
      obtain ⟨rfl, rfl, hmark⟩ := hharmless hs
      subst hs
      rw [step_unsided other p now leg 0 price 0 hleg]
      exact reduceLeg_nothing other p now leg price hleg (hmark leg hleg).1 (hmark leg hleg).2

end Unsided

section Hedged

def hedged : Portfolio ℚ :=
  openPosition (openPosition (initPortfolio 1000) 0 (exchangeLeg 0 "BTCUSDT" .long 1 100 100 0 0))
    0 (exchangeLeg 0 "BTCUSDT" .short 1 100 100 0 0)

theorem hedged_both : BothLegs hedged "BTCUSDT" := by
  intro ps
  cases ps <;> decide +kernel

/-- The reduction without a leg takes half of the long one. -/
theorem reduction_takes_long : ¬ ∀ (symbol : Symbol) (p : Portfolio ℚ) (op : PortfolioOp ℚ),
    BothLegs p symbol → Isolated symbol p op := by
  intro h
  have hisolated := h "BTCUSDT" hedged (.reducePosition 1 "BTCUSDT" 0.5 100 0) hedged_both
  have hzero := (harmless_of_isolated _ _ _ _ _ _ _ hedged_both hisolated rfl).1
  norm_num at hzero

theorem isolated_iff_hedged :
    Isolated "BTCUSDT" hedged (.reducePosition 1 "BTCUSDT" 0.5 100 0) ↔
      Harmless "BTCUSDT" hedged (.reducePosition 1 "BTCUSDT" 0.5 100 0) :=
  isolated_iff "BTCUSDT" hedged (.reducePosition 1 "BTCUSDT" 0.5 100 0) hedged_both

end Hedged

end TB.LegIsolation
