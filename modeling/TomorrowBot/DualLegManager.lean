import TomorrowBot.OrderTypes

/-!
# The manager of two opposite legs

A pair is entered by submitting the long leg and then the short leg; a long leg
whose partner is refused is cancelled or, if it is already filled, closed. The
answers of the exchange are arguments; the requests sent to it are part of the
result.
-/

set_option autoImplicit false

namespace TB.DualLeg
open TB.CommonTypes TB.OrderTypes

inductive LegState where
  | idle
  | pendingEntry
  | active
  | pendingExit
  | closed
  deriving DecidableEq, Repr

structure DualLegConfig (F : Type) where
  tpslTakeProfitPct : F
  tpslStopLossPct : F
  attachServerTpsl : Bool

structure LegSpec (F : Type) where
  size : F
  entryPriceHint : F
  tpPrice : F
  slPrice : F

structure LegSnapshot (F : Type) where
  state : LegState
  side : PositionSide
  exchangeOrderId : OrderId
  size : F
  entryPrice : F
  entryTimeNs : ℤ
  hasServerTp : Bool
  hasServerSl : Bool

structure DualLegManager (F : Type) where
  config : DualLegConfig F
  longLeg : LegSnapshot F
  shortLeg : LegSnapshot F

inductive Request (F : Type) where
  | submit (order : OrderRecord F)
  | cancel (orderId : OrderId) (symbol : Symbol)

structure Submitter (F : Type) where
  submitOrder : OrderRecord F → OrderSubmitResult F
  cancelOrder : OrderId → Symbol → Bool

structure PairEntryResult (F : Type) where
  success : Bool
  longLeg : LegSnapshot F
  shortLeg : LegSnapshot F
  error : String

structure Outcome (F R : Type) where
  manager : DualLegManager F
  result : R
  sent : List (Request F)

section Legs
variable {F : Type} [DoubleArith F]

def idleLeg : LegSnapshot F := ⟨.idle, .long, "", 0, 0, 0, false, false⟩

def init (config : DualLegConfig F) : DualLegManager F := ⟨config, idleLeg, idleLeg⟩

def reset (m : DualLegManager F) : DualLegManager F :=
  { m with longLeg := idleLeg, shortLeg := idleLeg }

omit [DoubleArith F] in
def leg (m : DualLegManager F) : PositionSide → LegSnapshot F
  | .long => m.longLeg
  | .short => m.shortLeg

omit [DoubleArith F] in
def setLeg (m : DualLegManager F) (side : PositionSide) (l : LegSnapshot F) : DualLegManager F :=
  match side with
  | .long => { m with longLeg := l }
  | .short => { m with shortLeg := l }

def computeTpsl (config : DualLegConfig F) (entryPrice : F) (side : PositionSide) : F × F :=
  if entryPrice ≤ 0 ∨ isfinite entryPrice = false then (0, 0)
  else
    let prices := match side with
      | .long => (entryPrice * (1.0 + config.tpslTakeProfitPct / 100.0),
          entryPrice * (1.0 - config.tpslStopLossPct / 100.0))
      | .short => (entryPrice * (1.0 - config.tpslTakeProfitPct / 100.0),
          entryPrice * (1.0 + config.tpslStopLossPct / 100.0))
    if stdAbs (prices.1 - entryPrice) < entryPrice * 1e-5 ∨
        stdAbs (prices.2 - entryPrice) < entryPrice * 1e-5 then (0, 0)
    else prices

def attachedTpsl (config : DualLegConfig F) (spec : LegSpec F) : AttachedTpSl F :=
  if config.attachServerTpsl = true ∧ 0 < spec.tpPrice ∧ isfinite spec.tpPrice = true ∧
      0 < spec.slPrice ∧ isfinite spec.slPrice = true then
    ⟨spec.tpPrice, spec.slPrice, .markPrice⟩
  else ⟨0, 0, .markPrice⟩

def marketOrder (symbol : Symbol) (side : Side) (positionSide : PositionSide)
    (tradeSide : TradeSide) (size price : F) (tpsl : AttachedTpSl F) : OrderRecord F where
  orderId := ""
  exchangeOrderId := ""
  symbol := symbol
  side := side
  positionSide := positionSide
  tradeSide := tradeSide
  orderType := .market
  tif := .immediateOrCancel
  price := price
  originalQuantity := size
  filledQuantity := 0
  remainingQuantity := size
  avgFillPrice := 0
  state := .new
  strategyId := ""
  correlationId := ""
  createdAt := 0
  lastUpdated := 0
  rejectionReason := ""
  executionInfo := ⟨[], .waitForFull, "", 0, 0, 0⟩
  attachedTpSl := tpsl

def openingSide : PositionSide → Side
  | .long => .buy
  | .short => .sell

def closingSide : PositionSide → Side
  | .long => .sell
  | .short => .buy

def entryOrder (config : DualLegConfig F) (symbol : Symbol) (side : PositionSide)
    (spec : LegSpec F) : OrderRecord F :=
  marketOrder symbol (openingSide side) side .opening spec.size spec.entryPriceHint
    (attachedTpsl config spec)

def closeOrder (symbol : Symbol) (side : PositionSide) (size : F) : OrderRecord F :=
  marketOrder symbol (closingSide side) side .closing size 0 ⟨0, 0, .markPrice⟩

def closeLeg (ex : Submitter F) (symbol : Symbol) (side : PositionSide) (size : F)
    (m : DualLegManager F) : Outcome F Bool :=
  let order := closeOrder symbol side size
  if (ex.submitOrder order).success then
    ⟨setLeg m side { leg m side with state := .pendingExit }, true, [.submit order]⟩
  else ⟨m, false, [.submit order]⟩

def enteredLeg (l : LegSnapshot F) (side : PositionSide) (spec : LegSpec F) (now : Timestamp)
    (exchangeOrderId : OrderId) : LegSnapshot F :=
  { l with
    state := .pendingEntry
    side := side
    exchangeOrderId := exchangeOrderId
    size := spec.size
    entryTimeNs := now
    hasServerTp := decide (0 < spec.tpPrice)
    hasServerSl := decide (0 < spec.slPrice) }

def unwindLong (ex : Submitter F) (symbol : Symbol) (size : F) (exchangeOrderId : OrderId)
    (m : DualLegManager F) : Outcome F Unit :=
  if ex.cancelOrder exchangeOrderId symbol then
    ⟨{ m with longLeg := idleLeg }, (), [.cancel exchangeOrderId symbol]⟩
  else
    let closed := closeLeg ex symbol .long size m
    ⟨{ closed.manager with longLeg := idleLeg }, (),
      .cancel exchangeOrderId symbol :: closed.sent⟩

def enterPair (ex : Submitter F) (now : Timestamp) (symbol : Symbol)
    (longSpec shortSpec : LegSpec F) (m : DualLegManager F) : Outcome F (PairEntryResult F) :=
  let longOrder := entryOrder m.config symbol .long longSpec
  let shortOrder := entryOrder m.config symbol .short shortSpec
  let longResult := ex.submitOrder longOrder
  let shortResult := ex.submitOrder shortOrder
  if !longResult.success then
    ⟨m, ⟨false, idleLeg, idleLeg, "Long leg failed: " ++ longResult.errorMessage⟩,
      [.submit longOrder]⟩
  else
    let entered := { m with
      longLeg := enteredLeg m.longLeg .long longSpec now longResult.exchangeOrderId }
    if !shortResult.success then
      let unwound := unwindLong ex symbol longSpec.size longResult.exchangeOrderId entered
      ⟨unwound.manager,
        ⟨false, idleLeg, idleLeg, "Short leg failed: " ++ shortResult.errorMessage⟩,
        [.submit longOrder, .submit shortOrder] ++ unwound.sent⟩
    else
      let both := { entered with
        shortLeg := enteredLeg m.shortLeg .short shortSpec now shortResult.exchangeOrderId }
      ⟨both, ⟨true, both.longLeg, both.shortLeg, ""⟩, [.submit longOrder, .submit shortOrder]⟩

def closeActive (ex : Submitter F) (symbol : Symbol) (side : PositionSide) (snap : LegSnapshot F)
    (m : DualLegManager F) : Outcome F Bool :=
  if snap.state = .active then closeLeg ex symbol side snap.size m else ⟨m, true, []⟩

def closeBoth (ex : Submitter F) (symbol : Symbol) (m : DualLegManager F) : Outcome F Bool :=
  let closedLong := closeActive ex symbol .long m.longLeg m
  let closedShort := closeActive ex symbol .short m.shortLeg closedLong.manager
  ⟨closedShort.manager, closedLong.result && closedShort.result,
    closedLong.sent ++ closedShort.sent⟩

def filledLeg (l : LegSnapshot F) (fillPrice fillQty : F) (fillTimeNs : ℤ) : LegSnapshot F :=
  let newSize := l.size + fillQty
  { l with
    entryPrice :=
      if 0 < newSize then
        if 0 < l.size ∧ 0 < l.entryPrice then
          (l.entryPrice * l.size + fillPrice * fillQty) / newSize
        else fillPrice
      else l.entryPrice
    size := newSize
    entryTimeNs := fillTimeNs
    state := .active }

def updateLeg (side : PositionSide) (fillPrice fillQty : F) (fillTimeNs : ℤ)
    (m : DualLegManager F) : DualLegManager F :=
  if fillQty ≤ 0 ∨ fillPrice ≤ 0 then m
  else setLeg m side (filledLeg (leg m side) fillPrice fillQty fillTimeNs)

end Legs

section Frames
variable {F : Type}

@[simp] theorem leg_setLeg (m : DualLegManager F) (side : PositionSide) (l : LegSnapshot F) :
    leg (setLeg m side l) side = l := by
  cases side <;> rfl

@[simp] theorem leg_setLeg_ne (m : DualLegManager F) (side other : PositionSide)
    (l : LegSnapshot F) (h : other ≠ side) : leg (setLeg m side l) other = leg m other := by
  cases side <;> cases other <;> first | rfl | exact absurd rfl h

variable [DoubleArith F] (ex : Submitter F) (symbol : Symbol) (side : PositionSide)

@[simp] theorem closeLeg_sent (size : F) (m : DualLegManager F) :
    (closeLeg ex symbol side size m).sent = [.submit (closeOrder symbol side size)] := by
  unfold closeLeg
  dsimp only
  split_ifs <;> rfl

@[simp] theorem closeLeg_result (size : F) (m : DualLegManager F) :
    (closeLeg ex symbol side size m).result =
      (ex.submitOrder (closeOrder symbol side size)).success := by
  unfold closeLeg
  dsimp only
  split_ifs with h
  · exact h.symm
  · exact (Bool.eq_false_of_not_eq_true h).symm

theorem closeLeg_other (side other : PositionSide) (size : F)
    (m : DualLegManager F) (h : other ≠ side) :
    leg (closeLeg ex symbol side size m).manager other = leg m other := by
  unfold closeLeg
  dsimp only
  split_ifs
  · exact leg_setLeg_ne m side other _ h
  · rfl

def ClosesLeg (ex : Submitter F) (symbol : Symbol) (side : PositionSide) (l : LegSnapshot F) :
    Prop :=
  l.state = .active ∧ (ex.submitOrder (closeOrder symbol side l.size)).success = true

instance (ex : Submitter F) (symbol : Symbol) (side : PositionSide) (l : LegSnapshot F) :
    Decidable (ClosesLeg ex symbol side l) := inferInstanceAs (Decidable (_ ∧ _))

variable (m : DualLegManager F)

theorem closeActive_leg : leg (closeActive ex symbol side (leg m side) m).manager side =
      if ClosesLeg ex symbol side (leg m side) then { leg m side with state := .pendingExit }
      else leg m side := by
  unfold closeActive closeLeg ClosesLeg
  by_cases ha : (leg m side).state = .active
  · by_cases hs : (ex.submitOrder (closeOrder symbol side (leg m side).size)).success = true
    · simp [ha, hs]
    · simp [ha, hs]
  · simp [ha]

theorem closeActive_other (side other : PositionSide)
    (snap : LegSnapshot F) (m : DualLegManager F) (h : other ≠ side) :
    leg (closeActive ex symbol side snap m).manager other = leg m other := by
  unfold closeActive
  split_ifs
  · exact closeLeg_other ex symbol side other _ m h
  · rfl

theorem closeBoth_leg : leg (closeBoth ex symbol m).manager side =
      if ClosesLeg ex symbol side (leg m side) then { leg m side with state := .pendingExit }
      else leg m side := by
  cases side with
  | long =>
    rw [← closeActive_leg ex symbol .long m]
    exact closeActive_other ex symbol .short .long _ _ (by decide)
  | short =>
    have hsame : (closeActive ex symbol .long m.longLeg m).manager.shortLeg = m.shortLeg :=
      closeActive_other ex symbol .long .short _ m (by decide)
    have hclosed := closeActive_leg ex symbol .short (closeActive ex symbol .long m.longLeg m).manager
    simp only [leg, hsame] at hclosed
    exact hclosed

theorem closeActive_sent (snap : LegSnapshot F) (m : DualLegManager F) (h : snap.state = .active) :
    (closeActive ex symbol side snap m).sent = [.submit (closeOrder symbol side snap.size)] := by
  unfold closeActive
  rw [if_pos h]
  exact closeLeg_sent ex symbol side snap.size m

theorem closeBoth_sent (h : (leg m side).state = .active) :
    .submit (closeOrder symbol side (leg m side).size) ∈ (closeBoth ex symbol m).sent := by
  cases side with
  | long =>
    apply List.mem_append_left
    rw [closeActive_sent ex symbol .long m.longLeg m h]
    exact List.mem_singleton_self _
  | short =>
    apply List.mem_append_right
    rw [closeActive_sent ex symbol .short m.shortLeg _ h]
    exact List.mem_singleton_self _

theorem active_of_sent (size : F) (m : DualLegManager F)
    (h : .submit (closeOrder symbol side size) ∈ (closeBoth ex symbol m).sent) :
    (leg m side).state = .active := by
  have hone : ∀ other (snap : LegSnapshot F) m',
      .submit (closeOrder symbol side size) ∈ (closeActive ex symbol other snap m').sent →
      snap.state = .active ∧ other = side := by
    intro other snap m' hmem
    by_cases ha : snap.state = .active
    · rw [closeActive_sent ex symbol other snap m' ha] at hmem
      have horders := Request.submit.inj (List.mem_singleton.mp hmem)
      exact ⟨ha, (congrArg OrderRecord.positionSide horders).symm⟩
    · rw [closeActive, if_neg ha] at hmem
      cases hmem
  rcases List.mem_append.mp h with h | h
  · obtain ⟨ha, rfl⟩ := hone .long _ _ h
    exact ha
  · obtain ⟨ha, rfl⟩ := hone .short _ _ h
    exact ha

theorem closeActive_result (snap : LegSnapshot F) (m : DualLegManager F) :
    (closeActive ex symbol side snap m).result = true ↔
      (snap.state = .active →
        (ex.submitOrder (closeOrder symbol side snap.size)).success = true) := by
  unfold closeActive
  by_cases h : snap.state = .active
  · simp [h]
  · simp [h]

/-- The close is reported when every active leg's close is accepted. -/
theorem closeBoth_result :
    (closeBoth ex symbol m).result = true ↔ ∀ side, (leg m side).state = .active →
      (ex.submitOrder (closeOrder symbol side (leg m side).size)).success = true := by
  have hboth : (closeBoth ex symbol m).result = true ↔
      (closeActive ex symbol .long m.longLeg m).result = true ∧
        (closeActive ex symbol .short m.shortLeg
          (closeActive ex symbol .long m.longLeg m).manager).result = true :=
    Bool.and_eq_true_iff
  rw [hboth, closeActive_result, closeActive_result]
  constructor
  · rintro ⟨hlong, hshort⟩ side
    cases side
    · exact hlong
    · exact hshort
  · intro h
    exact ⟨h .long, h .short⟩

end Frames

end TB.DualLeg
