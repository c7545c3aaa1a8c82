import TomorrowBot.FillProcessor
import TomorrowBot.PortfolioLedger

/-!
# The result a close books

A close-side fill books a result computed from its whole quantity, and takes
from the leg no more than the leg holds. The two agree when the leg holds the
quantity, and when the quantity does not matter because the price is the
entry price.
-/

set_option autoImplicit false

namespace TB.BookedPnl
open TB.CommonTypes TB.PortfolioEngine TB.PortfolioLedger TB.OrderTypes TB.Orders
open TB.FillProcessor

inductive CloseFill where
  | trade (order : OrderRecord ℚ) (fill : FillEvent ℚ)
  | whole (order : OrderRecord ℚ)

namespace CloseFill

def order : CloseFill → OrderRecord ℚ
  | trade order _ => order
  | whole order => order

def quantity : CloseFill → ℚ
  | trade _ fill => fill.fillQuantity
  | whole order => order.filledQuantity

def price : CloseFill → ℚ
  | trade _ fill => fill.fillPrice
  | whole order => order.avgFillPrice

def applyTo (f : CloseFill) (c : ExecutionCore ℚ) : ExecutionCore ℚ :=
  match f with
  | trade order fill => applyIncrementalFill c order fill
  | whole order => applyFillToPortfolio c order

def Priced : CloseFill → Prop
  | trade _ fill => 0 < fill.fillPrice
  | whole _ => True

def leg (f : CloseFill) (c : ExecutionCore ℚ) : Option (Position ℚ) :=
  getPositionSide c.portfolio f.order.symbol f.order.positionSide

def fee (f : CloseFill) : ℚ := f.price * f.quantity * feeRateFor f.order.orderType

end CloseFill

def perUnitPnl (ps : PositionSide) (entry price : ℚ) : ℚ :=
  match ps with
  | .long => price - entry
  | .short => entry - price

structure Booked (p q : Portfolio ℚ) (pnl fee : ℚ) : Prop where
  today : q.realizedPnlToday = p.realizedPnlToday + pnl
  gross : q.cashLedger.realizedPnlGross = p.cashLedger.realizedPnlGross + pnl
  net : q.cashLedger.realizedPnlNet = p.cashLedger.realizedPnlNet + pnl - fee
  total : q.cashLedger.totalCash = p.cashLedger.totalCash + pnl - fee
  available : q.cashLedger.availableCash = p.cashLedger.availableCash + pnl - fee

def BooksRemoved (f : CloseFill) (c : ExecutionCore ℚ) : Prop :=
  let q := (f.applyTo c).portfolio
  match f.leg c with
  | none => Booked c.portfolio q 0 f.fee ∧ q.positions = c.portfolio.positions
  | some leg =>
    Booked c.portfolio q
      (perUnitPnl f.order.positionSide leg.avgEntryPrice f.price * min f.quantity leg.size) f.fee

def Covered (f : CloseFill) (c : ExecutionCore ℚ) : Prop :=
  ∀ leg ∈ f.leg c, f.quantity ≤ leg.size ∨ f.price = leg.avgEntryPrice

instance (f : CloseFill) (c : ExecutionCore ℚ) : Decidable (Covered f c) :=
  inferInstanceAs (Decidable (∀ leg ∈ f.leg c, _))

theorem computePnlAt_leg (p : Portfolio ℚ) (order : OrderRecord ℚ) (leg : Position ℚ)
    (qty price : ℚ) (h : getPositionSide p order.symbol order.positionSide = some leg) :
    computePnlAt p order qty price =
      perUnitPnl order.positionSide leg.avgEntryPrice price * qty := by
  rw [computePnlAt, h]
  cases order.positionSide <;> rfl

variable (f : CloseFill) (c : ExecutionCore ℚ)

theorem applyTo_portfolio (hp : f.Priced) :
    (f.applyTo c).portfolio = applyToPortfolio c.portfolio c.clock.now f.order f.quantity f.price
      (computePnlAt c.portfolio f.order f.quantity f.price) := by
  cases f with
  | trade order fill =>
    have hprice : ¬ fill.fillPrice ≤ 0 := not_le.mpr hp
    simp only [CloseFill.applyTo, applyIncrementalFill, if_neg hprice, computeIncrementalPnl]
    rfl
  | whole order => rfl

theorem closing_portfolio (hp : f.Priced) (hclose : f.order.tradeSide = .closing) :
    (f.applyTo c).portfolio = recordFee (reducePositionSide c.portfolio c.clock.now f.order.symbol
      f.order.positionSide f.quantity f.price
      (computePnlAt c.portfolio f.order f.quantity f.price)).1 f.fee := by
  rw [applyTo_portfolio f c hp, applyToPortfolio, hclose]
  rfl

theorem reduceLeg_booked (p : Portfolio ℚ) (now : Timestamp) (key : String) (pos : Position ℚ)
    (qty price pnl fee : ℚ) :
    Booked p (recordFee (reduceLeg p now key pos qty price pnl).1 fee) pnl fee := by
  have hcash := reduceLeg_cash p now key pos qty price pnl
  constructor
  · exact reduceLeg_today p now key pos qty price pnl
  · simp only [recordFee, hcash]
    rfl
  · simp only [recordFee, hcash]
    rfl
  · simp only [recordFee, hcash]
    rfl
  · simp only [recordFee, hcash]
    rfl

theorem applyTo_unopened (hp : f.Priced)
    (hclose : f.order.tradeSide = .closing) (hleg : f.leg c = none) :
    (f.applyTo c).portfolio = recordFee c.portfolio f.fee := by
  have hlookup : c.portfolio.positions.lookup
      (makePosKey f.order.symbol f.order.positionSide) = none := hleg
  rw [closing_portfolio f c hp hclose, reducePositionSide, hlookup]

theorem applyTo_booked (hp : f.Priced)
    (hclose : f.order.tradeSide = .closing) (leg : Position ℚ) (hleg : f.leg c = some leg) :
    Booked c.portfolio (f.applyTo c).portfolio
      (perUnitPnl f.order.positionSide leg.avgEntryPrice f.price * f.quantity) f.fee := by
  have hlookup : c.portfolio.positions.lookup
      (makePosKey f.order.symbol f.order.positionSide) = some leg := hleg
  rw [closing_portfolio f c hp hclose, reducePositionSide, hlookup,
    computePnlAt_leg _ _ leg _ _ hleg]
  exact reduceLeg_booked _ _ _ _ _ _ _ _

theorem perUnitPnl_zero (ps : PositionSide) (entry price : ℚ) :
    perUnitPnl ps entry price = 0 ↔ price = entry := by
  cases ps
  · exact sub_eq_zero
  · exact sub_eq_zero.trans eq_comm

theorem booked_min_iff (ps : PositionSide) (entry price qty size : ℚ) :
    perUnitPnl ps entry price * qty = perUnitPnl ps entry price * min qty size ↔
      qty ≤ size ∨ price = entry := by
  rw [mul_eq_mul_left_iff, perUnitPnl_zero, eq_comm, min_eq_left_iff]

theorem covered_of_books
    (hclose : f.order.tradeSide = .closing) (hp : f.Priced) (h : BooksRemoved f c) :
    Covered f c := by
  unfold BooksRemoved at h
  intro leg hleg
  have hbooked := applyTo_booked f c hp hclose leg hleg
  rw [Option.mem_def.mp hleg] at h
  rw [← booked_min_iff f.order.positionSide leg.avgEntryPrice f.price f.quantity leg.size]
  exact add_left_cancel (hbooked.today.symm.trans h.today)

/-- A close-side fill books its result on the quantity the leg holds if and only
if the leg is not open, holds the whole quantity, or was entered at the price of
the fill. -/
theorem books_removed_iff (f : CloseFill) (c : ExecutionCore ℚ)
    (hclose : f.order.tradeSide = .closing) (hp : f.Priced) :
    BooksRemoved f c ↔ Covered f c := by
  refine ⟨covered_of_books f c hclose hp, fun hcovered => ?_⟩
  unfold BooksRemoved
  cases hleg : f.leg c with
  | none =>
    rw [applyTo_unopened f c hp hclose hleg]
    refine ⟨?_, rfl⟩
    constructor <;> simp [recordFee]
  | some leg =>
    have hbooked := applyTo_booked f c hp hclose leg hleg
    rw [(booked_min_iff f.order.positionSide leg.avgEntryPrice f.price f.quantity
      leg.size).mpr (hcovered leg hleg)] at hbooked
    exact hbooked

section Overclosed

def closingOrder : OrderRecord ℚ where
  orderId := "TB1-2"
  exchangeOrderId := "9002"
  symbol := "BTCUSDT"
  side := .sell
  positionSide := .long
  tradeSide := .closing
  orderType := .market
  tif := .immediateOrCancel
  price := 110
  originalQuantity := 2
  filledQuantity := 2
  remainingQuantity := 0
  avgFillPrice := 110
  state := .filled
  strategyId := "scalp"
  correlationId := "c"
  createdAt := 0
  lastUpdated := 0
  rejectionReason := ""
  executionInfo := ⟨[], .waitForFull, "TB1-2", 0, 110, 0⟩
  attachedTpSl := ⟨0, 0, .markPrice⟩

def oneLong : ExecutionCore ℚ where
  registry := emptyRegistry
  portfolio := openPosition (initPortfolio 1000) 0
    { openingPosition 0 closingOrder 1 100 with side := .buy }
  clock := ⟨0, 0, 0⟩
  passed := []

/-- The close sells two coins where the leg holds one. -/
theorem overclosed_books_more : ¬ ∀ (f : CloseFill) (c : ExecutionCore ℚ),
    f.order.tradeSide = .closing → 0 < f.quantity → f.Priced → BooksRemoved f c := by
  intro h
  have hbooks := h (.whole closingOrder) oneLong rfl (by decide +kernel) trivial
  exact absurd (covered_of_books (.whole closingOrder) oneLong rfl trivial hbooks) (by decide +kernel)

theorem books_removed_iff_overclosed :
    BooksRemoved (.whole closingOrder) oneLong ↔ Covered (.whole closingOrder) oneLong :=
  books_removed_iff (.whole closingOrder) oneLong rfl trivial

end Overclosed

end TB.BookedPnl
