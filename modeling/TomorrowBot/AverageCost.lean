import TomorrowBot.FillProcessor
import TomorrowBot.PortfolioFunding

/-!
# Average-cost accounting of one leg

Opening fills move the entry price of a leg to the weighted average, closing
fills book their result against it and keep it. The books of the leg record
that what was realised and what the leg is worth at its entry price add up to
the money that went through the fills, from which the law at any mark price
follows.
-/

set_option autoImplicit false

namespace TB.AverageCost
open TB.CommonTypes TB.PortfolioEngine TB.PortfolioEquity TB.PortfolioKeys
open TB.OrderTypes TB.FillProcessor

inductive LegOp where
  | fill (order : OrderRecord ℚ) (event : FillEvent ℚ)
  | updatePrice (symbol : Symbol) (price : ℚ)
  | advanceClock (clock : Clock)

def legStep (c : ExecutionCore ℚ) : LegOp → ExecutionCore ℚ
  | .fill order event => applyIncrementalFill c order event
  | .updatePrice symbol price =>
      { c with portfolio := updatePrice c.portfolio c.clock.now symbol price }
  | .advanceClock clock => { c with clock := clock }

def fillLeg (order : OrderRecord ℚ) : PositionSide :=
  match order.tradeSide with
  | .opening => sideToPositionSide order.side
  | .closing => order.positionSide

def heldSize (p : Portfolio ℚ) (s : Symbol) (ps : PositionSide) : ℚ :=
  (p.positions.lookup (makePosKey s ps)).elim 0 (fun pos => pos.size)

/-- A fill of the leg with a positive quantity and price; a closing one takes
at most the size held and leaves nothing or more than dust. -/
def ValidFill (s : Symbol) (ps : PositionSide) (c : ExecutionCore ℚ) : LegOp → Prop
  | .fill order event =>
      order.symbol = s ∧ fillLeg order = ps ∧ 0 < event.fillQuantity ∧ 0 < event.fillPrice ∧
        (order.tradeSide = .closing → event.fillQuantity ≤ heldSize c.portfolio s ps ∧
          (heldSize c.portfolio s ps - event.fillQuantity = 0 ∨
            1e-12 < heldSize c.portfolio s ps - event.fillQuantity))
  | _ => True

def tradedValue (kind : TradeSide) : LegOp → ℚ
  | .fill order event =>
      if order.tradeSide = kind then event.fillQuantity * event.fillPrice else 0
  | _ => 0

def openValue (ops : List LegOp) : ℚ := (ops.map (tradedValue .opening)).sum
def closeValue (ops : List LegOp) : ℚ := (ops.map (tradedValue .closing)).sum

def signed (ps : PositionSide) (x : ℚ) : ℚ :=
  match ps with
  | .long => x
  | .short => -x

theorem signed_add (ps : PositionSide) (x y : ℚ) :
    signed ps (x + y) = signed ps x + signed ps y := by
  cases ps with
  | long => rfl
  | short => exact neg_add x y

theorem pricePnl_signed (side : Side) (entry price size : ℚ) :
    pricePnl side entry price size = signed (sideToPositionSide side) ((price - entry) * size) := by
  cases side with
  | buy => rfl
  | sell =>
    simp only [pricePnl, signed, sideToPositionSide]
    ring

structure LegBooks (s : Symbol) (ps : PositionSide) (realized₀ flow : ℚ) (p : Portfolio ℚ) :
    Prop where
  flat : p.positions.lookup (makePosKey s ps) = none →
    p.realizedPnlToday - realized₀ = signed ps flow
  held : ∀ pos, p.positions.lookup (makePosKey s ps) = some pos →
    sideToPositionSide pos.side = ps ∧ 0 < pos.size ∧ 0 < pos.avgEntryPrice ∧
      pos.accumulatedFunding = 0 ∧
      p.realizedPnlToday - realized₀ = signed ps (flow + pos.avgEntryPrice * pos.size)

variable (p : Portfolio ℚ)

theorem refreshPeak_realized : (refreshPeak p).realizedPnlToday = p.realizedPnlToday := by
  unfold refreshPeak
  split_ifs <;> rfl

variable (now : Timestamp) (s : Symbol)

theorem updatePrice_realized (price : ℚ) :
    (updatePrice p now s price).realizedPnlToday = p.realizedPnlToday := by
  unfold updatePrice
  dsimp only
  split_ifs
  · exact refreshPeak_realized _
  · rfl

theorem openPosition_realized (pos : Position ℚ) :
    (openPosition p now pos).realizedPnlToday = p.realizedPnlToday := by
  obtain ⟨key, leg, h⟩ := openPosition_stored p now pos
  rw [h, storeLeg]

def openedLeg (p : Portfolio ℚ) (now : Timestamp) (pos : Position ℚ) : Position ℚ :=
  match p.positions.lookup (makePosKey pos.symbol (sideToPositionSide pos.side)) with
  | none => freshLeg now pos
  | some e => if 0 < e.size then addToLeg e now pos else freshLeg now pos

theorem openPosition_lookup (pos : Position ℚ) : (openPosition p now pos).positions.lookup
        (makePosKey pos.symbol (sideToPositionSide pos.side)) =
      some (recalculatePositionPnl (openedLeg p now pos)) := by
  unfold openPosition openedLeg
  dsimp only
  cases p.positions.lookup (makePosKey pos.symbol (sideToPositionSide pos.side)) with
  | none => exact AList.lookup_insert _
  | some e =>
    dsimp only
    split_ifs
    · exact AList.lookup_insert _
    · exact AList.lookup_insert _

theorem releaseCash_positions (id : OrderId) : (releaseCash p id).positions = p.positions ∧
      (releaseCash p id).realizedPnlToday = p.realizedPnlToday := by
  unfold releaseCash
  cases p.pendingOrders.lookup id with
  | none => exact ⟨rfl, rfl⟩
  | some info => exact ⟨rfl, rfl⟩

theorem averaged_cost (e : Position ℚ) (now : Timestamp) (pos : Position ℚ)
    (he : 0 < e.size) (hq : 0 < pos.size) :
    (addToLeg e now pos).size = e.size + pos.size ∧
      (addToLeg e now pos).avgEntryPrice * (e.size + pos.size) =
        e.size * e.avgEntryPrice + pos.size * pos.avgEntryPrice := by
  have ht : 0 < e.size + pos.size := add_pos he hq
  simp only [addToLeg, if_pos ht]
  exact ⟨trivial, div_mul_cancel₀ _ (ne_of_gt ht)⟩

/-- Adding to a leg keeps its side and its funding; its entry price stays positive. -/
theorem added_leg (e : Position ℚ) (now : Timestamp) (pos : Position ℚ) (he : 0 < e.size)
    (hentry : 0 < e.avgEntryPrice) (hq : 0 < pos.size) (hprice : 0 < pos.avgEntryPrice) :
    (addToLeg e now pos).side = e.side ∧
      (addToLeg e now pos).accumulatedFunding = e.accumulatedFunding ∧
      0 < (addToLeg e now pos).avgEntryPrice := by
  refine ⟨?_, ?_, ?_⟩
  · unfold addToLeg
    dsimp only
    split_ifs <;> rfl
  · unfold addToLeg
    dsimp only
    split_ifs <;> rfl
  · have htotal : 0 < e.size + pos.size := add_pos he hq
    have hsum : 0 < e.size * e.avgEntryPrice + pos.size * pos.avgEntryPrice :=
      add_pos (mul_pos he hentry) (mul_pos hq hprice)
    rw [← (averaged_cost e now pos he hq).2] at hsum
    exact (mul_pos_iff_of_pos_right htotal).mp hsum

variable (ps : PositionSide) (realized₀ flow : ℚ)

theorem opening_books (p : Portfolio ℚ)
    (now : Timestamp) (order : OrderRecord ℚ) (qty price pnl : ℚ) (hs : order.symbol = s)
    (hps : sideToPositionSide order.side = ps) (ho : order.tradeSide = .opening)
    (hq : 0 < qty) (hprice : 0 < price) (hb : LegBooks s ps realized₀ flow p) :
    LegBooks s ps realized₀ (flow - qty * price)
      (applyToPortfolio p now order qty price pnl) := by
  subst hs hps
  have hpos : (applyToPortfolio p now order qty price pnl).positions =
      (openPosition p now (openingPosition now order qty price)).positions := by
    simp only [applyToPortfolio, ho, recordFee, releaseCash_positions]
  have hreal : (applyToPortfolio p now order qty price pnl).realizedPnlToday =
      p.realizedPnlToday := by
    simp only [applyToPortfolio, ho, recordFee, releaseCash_positions, openPosition_realized]
  have hlook : (applyToPortfolio p now order qty price pnl).positions.lookup
      (makePosKey order.symbol (sideToPositionSide order.side)) =
      some (recalculatePositionPnl (openedLeg p now (openingPosition now order qty price))) := by
    rw [hpos]
    exact openPosition_lookup p now (openingPosition now order qty price)
  constructor
  · intro hnone
    rw [hlook] at hnone
    exact absurd hnone (by simp)
  · intro leg hleg
    rw [hlook, Option.some.injEq] at hleg
    subst hleg
    rw [hreal, recalculate_side, recalculate_size, recalculate_entry, recalculate_funding]
    unfold openedLeg
    cases h : p.positions.lookup (makePosKey order.symbol (sideToPositionSide order.side)) with
    | none =>
      have hr := hb.flat h
      simp only [openingPosition, h, freshLeg]
      refine ⟨trivial, hq, hprice, trivial, ?_⟩
      rw [hr]
      congr 1
      ring
    | some e =>
      obtain ⟨hside, hsize, hentry, hfund, hr⟩ := hb.held e h
      obtain ⟨hcount, hcost⟩ := averaged_cost e now (openingPosition now order qty price) hsize hq
      obtain ⟨hsame, hfunded, hentry'⟩ :=
        added_leg e now (openingPosition now order qty price) hsize hentry hq hprice
      have hsize' : (addToLeg e now (openingPosition now order qty price)).size =
          e.size + qty := hcount
      have hcost' : (addToLeg e now (openingPosition now order qty price)).avgEntryPrice *
          (e.size + qty) = e.size * e.avgEntryPrice + qty * price := hcost
      have hlook' : p.positions.lookup (makePosKey (openingPosition now order qty price).symbol
          (sideToPositionSide (openingPosition now order qty price).side)) = some e := h
      simp only [hlook', if_pos hsize]
      refine ⟨hsame ▸ hside, hsize' ▸ add_pos hsize hq, hentry', hfunded.trans hfund, ?_⟩
      rw [hr, hsize', hcost']
      congr 1
      ring

theorem reduceLeg_lookup (key : String) (pos : Position ℚ) (q c x : ℚ) (hq : q ≤ pos.size) :
    (reduceLeg p now key pos q c x).1.positions.lookup key =
      if pos.size - q ≤ 1e-12 then none
      else some (recalculatePositionPnl { pos with
        size := pos.size - q
        currentPrice := c
        notional := (pos.size - q) * c
        updatedAt := now }) := by
  unfold reduceLeg
  dsimp only
  rw [refreshPeak_positions, stdMin_rat, min_eq_left hq]
  split_ifs
  · exact AList.lookup_erase _ _
  · exact AList.lookup_insert _

/-- The leg and the result after a closing fill of at most its size. -/
theorem closing_leg (order : OrderRecord ℚ)
    (qty price : ℚ) (leg : Position ℚ) (ho : order.tradeSide = .closing)
    (h : p.positions.lookup (makePosKey order.symbol order.positionSide) = some leg)
    (hle : qty ≤ leg.size) :
    (applyToPortfolio p now order qty price
      (computeIncrementalPnl p order qty price)).positions.lookup
        (makePosKey order.symbol order.positionSide) =
      (if leg.size - qty ≤ 1e-12 then none
      else some (recalculatePositionPnl { leg with
        size := leg.size - qty
        currentPrice := price
        notional := (leg.size - qty) * price
        updatedAt := now })) ∧
    (applyToPortfolio p now order qty price
      (computeIncrementalPnl p order qty price)).realizedPnlToday =
      p.realizedPnlToday + signed order.positionSide ((price - leg.avgEntryPrice) * qty) := by
  have hpnl : computeIncrementalPnl p order qty price =
      signed order.positionSide ((price - leg.avgEntryPrice) * qty) := by
    simp only [computeIncrementalPnl, computePnlAt, getPositionSide, h]
    cases order.positionSide with
    | long => rfl
    | short =>
      simp only [signed]
      ring
  have hreduce : applyToPortfolio p now order qty price
      (computeIncrementalPnl p order qty price) =
      recordFee (reduceLeg p now (makePosKey order.symbol order.positionSide) leg qty price
        (computeIncrementalPnl p order qty price)).1
        (price * qty * feeRateFor order.orderType) := by
    simp only [applyToPortfolio, ho, reducePositionSide, h]
  constructor
  · rw [hreduce]
    exact reduceLeg_lookup p now _ leg qty price _ hle
  · rw [hreduce, ← hpnl]
    exact reduceLeg_today p now _ leg qty price _

/-- A closing fill keeps the books: its proceeds enter the flow, and the result
it books is the proceeds less the cost at the entry price. -/
theorem closing_books (p : Portfolio ℚ)
    (now : Timestamp) (order : OrderRecord ℚ) (qty price : ℚ) (hs : order.symbol = s)
    (hps : order.positionSide = ps) (ho : order.tradeSide = .closing) (hq : 0 < qty)
    (hle : qty ≤ heldSize p s ps)
    (hrest : heldSize p s ps - qty = 0 ∨ 1e-12 < heldSize p s ps - qty)
    (hb : LegBooks s ps realized₀ flow p) :
    LegBooks s ps realized₀ (flow + qty * price)
      (applyToPortfolio p now order qty price (computeIncrementalPnl p order qty price)) := by
  subst hs hps
  unfold heldSize at hle hrest
  cases h : p.positions.lookup (makePosKey order.symbol order.positionSide) with
  | none =>
    rw [h] at hle
    exact absurd (lt_of_lt_of_le hq hle) (lt_irrefl 0)
  | some leg =>
    rw [h] at hle hrest
    simp only [Option.elim_some] at hle hrest
    obtain ⟨hside, hsize, hentry, hfund, hr⟩ := hb.held leg h
    obtain ⟨hlook, hreal⟩ := closing_leg p now order qty price leg ho h hle
    -- What the fill leaves open is worth the rest of the leg at its entry price.
    have hbook : p.realizedPnlToday +
        signed order.positionSide ((price - leg.avgEntryPrice) * qty) - realized₀ =
          signed order.positionSide
            (flow + qty * price + leg.avgEntryPrice * (leg.size - qty)) := by
      have hsplit : flow + qty * price + leg.avgEntryPrice * (leg.size - qty) =
          (flow + leg.avgEntryPrice * leg.size) + (price - leg.avgEntryPrice) * qty := by
        ring
      rw [hsplit, signed_add, ← hr]
      ring
    constructor
    · intro hnone
      rw [hlook] at hnone
      split_ifs at hnone with hdust
      have hzero : leg.size - qty = 0 := by
        rcases hrest with hz | hbig
        · exact hz
        · exact absurd hdust (not_le.mpr hbig)
      rw [hreal, hbook, hzero, mul_zero, add_zero]
    · intro pos hpos
      rw [hlook] at hpos
      split_ifs at hpos with hdust
      rw [Option.some.injEq] at hpos
      subst hpos
      rw [hreal, recalculate_side, recalculate_size, recalculate_entry, recalculate_funding]
      have hleft : 0 < leg.size - qty := lt_trans (by norm_num) (not_le.mp hdust)
      exact ⟨hside, hleft, hentry, hfund, hbook⟩

/-- A price update keeps the books of a leg that has an entry price. -/
theorem repriced_books (p : Portfolio ℚ)
    (now : Timestamp) (symbol : Symbol) (price : ℚ) (hb : LegBooks s ps realized₀ flow p) :
    LegBooks s ps realized₀ flow (updatePrice p now symbol price) := by
  have hlook : (updatePrice p now symbol price).positions.lookup (makePosKey s ps) =
      p.positions.lookup (makePosKey s ps) ∨
      (updatePrice p now symbol price).positions.lookup (makePosKey s ps) =
        (p.positions.lookup (makePosKey s ps)).map (repriceLeg now price) := by
    by_cases hs : s = symbol
    · subst hs
      exact Or.inr (updatePrice_lookup p now s price ps)
    · exact Or.inl (updatePrice_lookup_ne p now symbol s price ps hs)
  constructor
  · intro hnone
    rw [updatePrice_realized]
    apply hb.flat
    rcases hlook with h | h
    · exact h ▸ hnone
    · rw [hnone] at h
      exact Option.map_eq_none_iff.mp h.symm
  · intro leg hleg
    rw [updatePrice_realized]
    rcases hlook with h | h
    · exact hb.held leg (h ▸ hleg)
    · rw [hleg] at h
      obtain ⟨pos, hpos, rfl⟩ := Option.map_eq_some_iff.mp h.symm
      obtain ⟨hside, hsize, hentry, hfund, hr⟩ := hb.held pos hpos
      have hkept : ¬ (pos.avgEntryPrice ≤ 0 ∧ 0 < price) := fun hc => not_le.mpr hentry hc.1
      simp only [repriceLeg, recalculate_side, recalculate_size, recalculate_entry,
        recalculate_funding, if_neg hkept]
      exact ⟨hside, hsize, hentry, hfund, hr⟩

def flowOf (ops : List LegOp) : ℚ := closeValue ops - openValue ops

theorem flowOf_cons (op : LegOp) (ops : List LegOp) :
    flowOf (op::ops) = (tradedValue .closing op - tradedValue .opening op) + flowOf ops := by
  simp only [flowOf, closeValue, openValue, List.map_cons, List.sum_cons]
  ring

theorem step_books (c : ExecutionCore ℚ)
    (op : LegOp) (hv : ValidFill s ps c op) (hb : LegBooks s ps realized₀ flow c.portfolio) :
    LegBooks s ps realized₀ (flow + (tradedValue .closing op - tradedValue .opening op))
      (legStep c op).portfolio := by
  cases op with
  | fill order event =>
    obtain ⟨hs, hleg, hq, hprice, hclose⟩ := hv
    simp only [legStep, applyIncrementalFill, if_neg (not_le.mpr hprice)]
    unfold fillLeg at hleg
    cases ho : order.tradeSide with
    | opening =>
      rw [ho] at hleg
      have hflow : flow + (tradedValue .closing (.fill order event) -
          tradedValue .opening (.fill order event)) =
          flow - event.fillQuantity * event.fillPrice := by
        simp only [tradedValue, ho, if_true, reduceCtorEq, if_false, zero_sub]
        ring
      rw [hflow]
      exact opening_books s ps realized₀ flow _ _ order _ _ _ hs hleg ho hq hprice hb
    | closing =>
      rw [ho] at hleg
      obtain ⟨hle, hrest⟩ := hclose ho
      have hflow : flow + (tradedValue .closing (.fill order event) -
          tradedValue .opening (.fill order event)) =
          flow + event.fillQuantity * event.fillPrice := by
        simp only [tradedValue, ho, if_true, reduceCtorEq, if_false, sub_zero]
      rw [hflow]
      exact closing_books s ps realized₀ flow _ _ order _ _ hs hleg ho hq hle hrest hb
  | updatePrice symbol price =>
    simp only [tradedValue, sub_zero, add_zero]
    exact repriced_books s ps realized₀ flow c.portfolio c.clock.now symbol price hb
  | advanceClock clock =>
    simp only [tradedValue, sub_zero, add_zero]
    exact hb

theorem run_books (c : ExecutionCore ℚ)
    (ops : List LegOp) (hv : Runs.Meets legStep (ValidFill s ps) c ops)
    (hb : LegBooks s ps realized₀ flow c.portfolio) :
    LegBooks s ps realized₀ (flow + flowOf ops) (Runs.run legStep c ops).portfolio := by
  induction ops generalizing c flow with
  | nil =>
    have hzero : flow + flowOf [] = flow := by
      simp [flowOf, closeValue, openValue]
    rw [hzero]
    exact hb
  | cons op ops ih =>
    rw [flowOf_cons, ← add_assoc]
    exact ih _ _ hv.2 (step_books s ps realized₀ flow c op hv.1 hb)

def markedAt (p : Portfolio ℚ) (now : Timestamp) (s : Symbol) (ps : PositionSide) (price : ℚ) :
    ℚ :=
  ((updatePrice p now s price).positions.lookup (makePosKey s ps)).elim 0
    (fun pos => pos.unrealizedPnl)

theorem markedAt_books (p : Portfolio ℚ)
    (now : Timestamp) (price : ℚ) (hb : LegBooks s ps realized₀ flow p) :
    p.realizedPnlToday - realized₀ + markedAt p now s ps price =
      signed ps (flow + price * heldSize p s ps) := by
  unfold markedAt heldSize
  rw [updatePrice_lookup]
  cases h : p.positions.lookup (makePosKey s ps) with
  | none =>
    simp only [Option.map_none, Option.elim_none, mul_zero, add_zero]
    exact hb.flat h
  | some pos =>
    obtain ⟨hside, hsize, hentry, hfund, hr⟩ := hb.held pos h
    have hkept : ¬ (pos.avgEntryPrice ≤ 0 ∧ 0 < price) := fun hc => not_le.mpr hentry hc.1
    have hpriced : ¬ (pos.avgEntryPrice ≤ 0 ∨ pos.size ≤ 0) := by
      rintro (hc | hc)
      · exact not_le.mpr hentry hc
      · exact not_le.mpr hsize hc
    have hmark : (repriceLeg now price pos).unrealizedPnl =
        signed ps ((price - pos.avgEntryPrice) * pos.size) := by
      simp only [repriceLeg, recalculate_unrealized, legMark, markedPnl, if_neg hkept,
        if_neg hpriced, hfund, sub_zero]
      rw [pricePnl_signed, hside]
    simp only [Option.map_some, Option.elim_some]
    rw [hmark, hr, ← signed_add]
    congr 1
    ring

/-- Average-cost accounting conserves money: from a flat leg, what was realised
plus the leg marked at any price is the proceeds plus the value of what is left
less the cost, with the opposite sign for a short leg. -/
theorem average_cost_conserves (s : Symbol) (ps : PositionSide) (c : ExecutionCore ℚ)
    (ops : List LegOp) (now : Timestamp) (price : ℚ)
    (hflat : c.portfolio.positions.lookup (makePosKey s ps) = none)
    (hv : Runs.Meets legStep (ValidFill s ps) c ops) :
    (Runs.run legStep c ops).portfolio.realizedPnlToday - c.portfolio.realizedPnlToday +
        markedAt (Runs.run legStep c ops).portfolio now s ps price =
      signed ps (closeValue ops + price * heldSize (Runs.run legStep c ops).portfolio s ps -
        openValue ops) := by
  have hstart : LegBooks s ps c.portfolio.realizedPnlToday 0 c.portfolio := by
    constructor
    · intro _
      rw [sub_self]
      cases ps with
      | long => rfl
      | short => exact neg_zero.symm
    · intro pos hpos
      rw [hflat] at hpos
      exact absurd hpos (by simp)
  have hend := run_books s ps _ 0 c ops hv hstart
  rw [markedAt_books s ps _ _ _ now price hend]
  congr 1
  simp only [flowOf]
  ring

def tripOrder (kind : TradeSide) : OrderRecord ℚ where
  orderId := "TB123456-1"
  exchangeOrderId := "9001"
  symbol := "BTCUSDT"
  side := match kind with
    | .opening => .buy
    | .closing => .sell
  positionSide := .long
  tradeSide := kind
  orderType := .market
  tif := .immediateOrCancel
  price := 100
  originalQuantity := 3
  filledQuantity := 0
  remainingQuantity := 3
  avgFillPrice := 0
  state := .pendingAck
  strategyId := "s"
  correlationId := "c"
  createdAt := 0
  lastUpdated := 0
  rejectionReason := ""
  executionInfo := ⟨[], .waitForFull, "TB123456-1", 0, 100, 0⟩
  attachedTpSl := ⟨0, 0, .markPrice⟩

def tripFill (qty price : ℚ) : FillEvent ℚ := ⟨"TB123456-1", qty, price, "t", 0⟩

def roundTrip : List LegOp :=
  [.fill (tripOrder .opening) (tripFill 1 100), .fill (tripOrder .opening) (tripFill 2 130),
    .updatePrice "BTCUSDT" 140, .fill (tripOrder .closing) (tripFill 1 150)]

def flatCore : ExecutionCore ℚ := ⟨Orders.emptyRegistry, initPortfolio 1000, ⟨0, 0, 0⟩, []⟩

theorem average_cost_roundTrip :
    (Runs.run legStep flatCore roundTrip).portfolio.realizedPnlToday -
        flatCore.portfolio.realizedPnlToday +
        markedAt (Runs.run legStep flatCore roundTrip).portfolio 0 "BTCUSDT" .long 120 =
      signed .long (closeValue roundTrip +
        120 * heldSize (Runs.run legStep flatCore roundTrip).portfolio "BTCUSDT" .long -
        openValue roundTrip) := by
  apply average_cost_conserves "BTCUSDT" .long flatCore roundTrip 0 120
  · decide +kernel
  · simp only [roundTrip, Runs.Meets, ValidFill, true_and, and_true]
    decide +kernel

end TB.AverageCost
