import Mathlib.Algebra.Order.BigOperators.Group.List
import Mathlib.Tactic.FieldSimp
import Mathlib.Tactic.Ring
import TomorrowBot.PairEntry
import TomorrowBot.Runs

/-!
# The sizes of the legs and the fills behind them

Each leg has a book: the fills since its entry, whether its entry order is live
and whether a close of it was accepted. The manager records the requested size
when a leg is entered and adds the fills to it, so its record is the sum of the
fills only when the requested size was zero.
-/

set_option autoImplicit false

namespace TB.LegBookkeeping
open TB.CommonTypes TB.DualLeg TB.PairEntry

structure LegBook where
  fills : List (ℚ × ℚ)
  entered : Bool
  exitSent : Bool

def LegBook.blank : LegBook := ⟨[], false, false⟩

def LegBook.filledQty (b : LegBook) : ℚ := (b.fills.map Prod.snd).sum

def LegBook.notional (b : LegBook) : ℚ := (b.fills.map (fun f => f.1 * f.2)).sum

def LegBook.vwap (b : LegBook) : ℚ := b.notional / b.filledQty

structure Books where
  manager : DualLegManager ℚ
  book : PositionSide → LegBook

def start (config : DualLegConfig ℚ) : Books := ⟨init config, fun _ => .blank⟩

inductive LegOp where
  | enterPair (ex : Submitter ℚ) (now : Timestamp) (symbol : Symbol) (long short : LegSpec ℚ)
  | updateLeg (side : PositionSide) (fillPrice fillQty : ℚ) (fillTimeNs : ℤ)
  | closeBoth (ex : Submitter ℚ) (symbol : Symbol)
  | reset

def unwoundBook (ex : Submitter ℚ) (symbol : Symbol) (size : ℚ) (id : OrderId) : LegBook :=
  if ex.cancelOrder id symbol then .blank
  else ⟨[], true, (ex.submitOrder (closeOrder symbol .long size)).success⟩

def enteredBooks (ex : Submitter ℚ) (symbol : Symbol) (long short : LegSpec ℚ)
    (config : DualLegConfig ℚ) (book : PositionSide → LegBook) : PositionSide → LegBook :=
  let longResult := ex.submitOrder (entryOrder config symbol .long long)
  let shortResult := ex.submitOrder (entryOrder config symbol .short short)
  if !longResult.success then book
  else if !shortResult.success then fun
    | .long => unwoundBook ex symbol long.size longResult.exchangeOrderId
    | .short => book .short
  else fun _ => ⟨[], true, false⟩

def filledBooks (side : PositionSide) (price qty : ℚ) (book : PositionSide → LegBook) :
    PositionSide → LegBook :=
  if qty ≤ 0 ∨ price ≤ 0 then book
  else fun other =>
    if other = side then { book other with fills := (book other).fills ++ [(price, qty)] }
    else book other

def closedBook (ex : Submitter ℚ) (symbol : Symbol) (side : PositionSide) (l : LegSnapshot ℚ)
    (b : LegBook) : LegBook :=
  if ClosesLeg ex symbol side l then { b with exitSent := true } else b

def legStep (s : Books) : LegOp → Books
  | .enterPair ex now symbol long short =>
    ⟨(enterPair ex now symbol long short s.manager).manager,
      enteredBooks ex symbol long short s.manager.config s.book⟩
  | .updateLeg side price qty time =>
    ⟨updateLeg side price qty time s.manager, filledBooks side price qty s.book⟩
  | .closeBoth ex symbol =>
    ⟨(closeBoth ex symbol s.manager).manager,
      fun side => closedBook ex symbol side (leg s.manager side) (s.book side)⟩
  | .reset => ⟨reset s.manager, fun _ => .blank⟩

def LegsMatch (s : Books) : Prop :=
  ∀ side, (leg s.manager side).state = .active →
    (leg s.manager side).size = (s.book side).filledQty ∧
      (leg s.manager side).entryPrice = (s.book side).vwap

def Due (b : LegBook) : Prop := b.entered = true ∧ b.exitSent = false

def Covered (s : Books) : LegOp → Prop
  | .closeBoth ex symbol => (closeBoth ex symbol s.manager).result = true →
      ∀ side, Due (s.book side) →
        .submit (closeOrder symbol side (s.book side).filledQty) ∈
            (closeBoth ex symbol s.manager).sent ∧
          (ex.submitOrder (closeOrder symbol side (s.book side).filledQty)).success = true
  | _ => True

/-- The first fill of a leg finds a recorded size of zero, and a close is asked
for when every leg that is due is active, unless an active leg cannot be closed. -/
def Sound (s : Books) : LegOp → Prop
  | .updateLeg side price qty _ => 0 < price → 0 < qty → (s.book side).fills = [] →
      (leg s.manager side).size = 0
  | .closeBoth ex symbol =>
      (∀ side, Due (s.book side) → (leg s.manager side).state = .active) ∨
        ∃ side, (leg s.manager side).state = .active ∧
          (ex.submitOrder (closeOrder symbol side (leg s.manager side).size)).success = false
  | _ => True

structure LegInv (l : LegSnapshot ℚ) (b : LegBook) : Prop where
  priced : ∀ f ∈ b.fills, 0 < f.1 ∧ 0 < f.2
  recorded : b.fills ≠ [] → l.size = b.filledQty ∧ l.entryPrice = b.vwap
  active : l.state = .active → b.fills ≠ []

def BooksInv (s : Books) : Prop := ∀ side, LegInv (leg s.manager side) (s.book side)

section Fills

theorem legInv_unfilled (l : LegSnapshot ℚ) (b : LegBook) (hb : b.fills = [])
    (hl : l.state ≠ .active) : LegInv l b where
  priced := by
    rw [hb]
    intro f hf
    cases hf
  recorded h := absurd hb h
  active h := absurd h hl

variable (b : LegBook)

theorem filledQty_pos (hp : ∀ f ∈ b.fills, 0 < f.1 ∧ 0 < f.2) (hne : b.fills ≠ []) :
    0 < b.filledQty := by
  apply List.sum_pos
  · intro q hq
    obtain ⟨f, hf, rfl⟩ := List.mem_map.mp hq
    exact (hp f hf).2
  · simpa using hne

theorem notional_pos (hp : ∀ f ∈ b.fills, 0 < f.1 ∧ 0 < f.2) (hne : b.fills ≠ []) :
    0 < b.notional := by
  apply List.sum_pos
  · intro q hq
    obtain ⟨f, hf, rfl⟩ := List.mem_map.mp hq
    exact mul_pos (hp f hf).1 (hp f hf).2
  · simpa using hne

theorem filledQty_append (price qty : ℚ) :
    ({ b with fills := b.fills ++ [(price, qty)] } : LegBook).filledQty = b.filledQty + qty := by
  simp [LegBook.filledQty]

theorem notional_append (price qty : ℚ) :
    ({ b with fills := b.fills ++ [(price, qty)] } : LegBook).notional =
      b.notional + price * qty := by
  simp [LegBook.notional]

theorem legInv_filled (l : LegSnapshot ℚ) (b : LegBook) (hi : LegInv l b) (price qty : ℚ)
    (time : ℤ) (hp : 0 < price) (hq : 0 < qty) (hfirst : b.fills = [] → l.size = 0) :
    LegInv (filledLeg l price qty time) { b with fills := b.fills ++ [(price, qty)] } where
  priced f hf := by
    rcases List.mem_append.mp hf with hf | hf
    · exact hi.priced f hf
    · rw [List.mem_singleton.mp hf]
      exact ⟨hp, hq⟩
  recorded _ := by
    unfold LegBook.vwap
    rw [filledQty_append, notional_append]
    by_cases hnone : b.fills = []
    · have hempty : b.filledQty = 0 ∧ b.notional = 0 := by
        simp [LegBook.filledQty, LegBook.notional, hnone]
      simp [filledLeg, hfirst hnone, hempty, hq]
      field_simp
    · obtain ⟨hsize, hprice⟩ := hi.recorded hnone
      have hqty := filledQty_pos b hi.priced hnone
      have hnot := notional_pos b hi.priced hnone
      have hvwap : 0 < b.vwap := div_pos hnot hqty
      have hback : b.vwap * b.filledQty = b.notional := div_mul_cancel₀ _ (ne_of_gt hqty)
      have hnew : 0 < b.filledQty + qty := add_pos hqty hq
      simp [filledLeg, hsize, hprice, hqty, hvwap, hback, hnew]
  active _ := by simp

end Fills

section Steps

variable (s : Books)

theorem inv_enterPair (hi : BooksInv s) (ex : Submitter ℚ) (now : Timestamp)
    (symbol : Symbol) (long short : LegSpec ℚ) :
    BooksInv (legStep s (.enterPair ex now symbol long short)) := by
  intro side
  show LegInv (leg (enterPair ex now symbol long short s.manager).manager side)
    (enteredBooks ex symbol long short s.manager.config s.book side)
  unfold enteredBooks
  rcases hl : (ex.submitOrder (entryOrder s.manager.config symbol .long long)).success with _ | _
  · rw [(enterPair_longRefused ex now symbol long short s.manager hl).2.1]
    exact hi side
  rcases hs : (ex.submitOrder (entryOrder s.manager.config symbol .short short)).success with _ | _
  · rw [(enterPair_shortRefused ex now symbol long short s.manager hl hs).2.1]
    cases side with
    | long =>
      apply legInv_unfilled
      · show (unwoundBook _ _ _ _).fills = []
        unfold unwoundBook
        split_ifs <;> rfl
      · simp [leg, idleLeg]
    | short => exact hi .short
  · rw [enterPair_manager ex now symbol long short s.manager hl hs]
    apply legInv_unfilled
    · rfl
    · cases side <;> simp [leg, enteredLeg]

theorem inv_updateLeg (hi : BooksInv s) (side : PositionSide) (price qty : ℚ)
    (time : ℤ) (hs : Sound s (.updateLeg side price qty time)) :
    BooksInv (legStep s (.updateLeg side price qty time)) := by
  intro other
  show LegInv (leg (updateLeg side price qty time s.manager) other)
    (filledBooks side price qty s.book other)
  unfold updateLeg filledBooks
  by_cases hbad : qty ≤ 0 ∨ price ≤ 0
  · rw [if_pos hbad, if_pos hbad]
    exact hi other
  rw [if_neg hbad, if_neg hbad]
  have hq : 0 < qty := lt_of_not_ge (fun h => hbad (.inl h))
  have hp : 0 < price := lt_of_not_ge (fun h => hbad (.inr h))
  by_cases hside : other = side
  · subst hside
    rw [leg_setLeg, if_pos rfl]
    exact legInv_filled _ _ (hi other) price qty time hp hq (hs hp hq)
  · rw [leg_setLeg_ne _ _ _ _ hside, if_neg hside]
    exact hi other

theorem inv_closeBoth (hi : BooksInv s) (ex : Submitter ℚ) (symbol : Symbol) :
    BooksInv (legStep s (.closeBoth ex symbol)) := by
  intro side
  show LegInv (leg (closeBoth ex symbol s.manager).manager side)
    (closedBook ex symbol side (leg s.manager side) (s.book side))
  unfold closedBook
  rw [closeBoth_leg]
  have hside := hi side
  by_cases hc : ClosesLeg ex symbol side (leg s.manager side)
  · rw [if_pos hc, if_pos hc]
    exact ⟨hside.priced, hside.recorded, fun h => by cases h⟩
  · rw [if_neg hc, if_neg hc]
    exact hside

theorem inv_legStep (op : LegOp) (hi : BooksInv s) (hs : Sound s op) : BooksInv (legStep s op) := by
  cases op with
  | enterPair ex now symbol long short => exact inv_enterPair s hi ex now symbol long short
  | updateLeg side price qty time => exact inv_updateLeg s hi side price qty time hs
  | closeBoth ex symbol => exact inv_closeBoth s hi ex symbol
  | reset =>
    intro side
    apply legInv_unfilled
    · rfl
    · cases side <;> simp [legStep, reset, leg, idleLeg]

theorem match_of_inv (hi : BooksInv s) : LegsMatch s :=
  fun side ha => (hi side).recorded ((hi side).active ha)

/-- A reported close of active legs closes what they were filled with. -/
theorem covered_of_inv (op : LegOp) (hi : BooksInv s) (hs : Sound s op) : Covered s op := by
  cases op with
  | closeBoth ex symbol =>
    intro hr side hdue
    have hall := (closeBoth_result ex symbol s.manager).mp hr
    have hactive : (leg s.manager side).state = .active := by
      rcases hs with hs | ⟨other, ha, hno⟩
      · exact hs side hdue
      · rw [hall other ha] at hno
        cases hno
    obtain ⟨hsize, -⟩ := match_of_inv s hi side hactive
    rw [← hsize]
    exact ⟨closeBoth_sent ex symbol side s.manager hactive, hall side hactive⟩
  | _ => trivial

theorem inv_start (config : DualLegConfig ℚ) : BooksInv (start config) := by
  intro side
  apply legInv_unfilled
  · rfl
  · cases side <;> simp [start, init, leg, idleLeg]

/-- The condition is needed: a first fill on another size is recorded wrongly,
and a leg that is due but not active is not closed. -/
theorem sound_of_match (op : LegOp) (hm : LegsMatch (legStep s op))
    (hc : Covered s op) : Sound s op := by
  cases op with
  | updateLeg side price qty time =>
    intro hp hq hnone
    have hvalid : ¬ (qty ≤ 0 ∨ price ≤ 0) := by
      rintro (h | h)
      · exact absurd hq (not_lt.mpr h)
      · exact absurd hp (not_lt.mpr h)
    have hleg : leg (legStep s (.updateLeg side price qty time)).manager side =
        filledLeg (leg s.manager side) price qty time := by
      show leg (updateLeg side price qty time s.manager) side = _
      rw [updateLeg, if_neg hvalid, leg_setLeg]
    have hbook : (legStep s (.updateLeg side price qty time)).book side =
        { s.book side with fills := [(price, qty)] } := by
      show filledBooks side price qty s.book side = _
      rw [filledBooks, if_neg hvalid]
      simp [hnone]
    have hsize := (hm side (by rw [hleg]; rfl)).1
    rw [hleg, hbook] at hsize
    have hsum : (leg s.manager side).size + qty = qty := by
      simpa [filledLeg, LegBook.filledQty] using hsize
    exact add_eq_right.mp hsum
  | closeBoth ex symbol =>
    by_cases hr : (closeBoth ex symbol s.manager).result = true
    · exact .inl (fun side hdue => active_of_sent ex symbol side _ s.manager (hc hr side hdue).1)
    · right
      rw [closeBoth_result] at hr
      simpa using hr
  | _ => trivial

/-- The active legs record their fills throughout a run and every reported close
covers what is due, exactly when the legs are first filled on a recorded size of
zero and closed when they are active. -/
theorem legs_follow_fills_iff (config : DualLegConfig ℚ) (ops : List LegOp) :
    (Runs.Always legStep LegsMatch (start config) ops ∧
      Runs.Meets legStep Covered (start config) ops) ↔
      Runs.Meets legStep Sound (start config) ops := by
  constructor
  · rintro ⟨hmatch, hcovered⟩
    exact Runs.meets_of_always_meets legStep sound_of_match _ ops hmatch hcovered
  · intro hs
    have hinv := Runs.always_of_meets legStep inv_legStep (start config) ops (inv_start config) hs
    exact ⟨Runs.always_mono legStep match_of_inv _ ops hinv,
      Runs.meets_of_invariant legStep inv_legStep covered_of_inv _ ops (inv_start config) hs⟩

def acceptAll : Submitter ℚ :=
  ⟨fun order => ⟨true, "1001", "", order.originalQuantity⟩, fun _ _ => true⟩

/-- Each leg of 0.01 is recorded with 0.02 after its whole fill. -/
theorem filled_leg_doubled :
    ¬ ∀ (config : DualLegConfig ℚ) (ops : List LegOp),
      Runs.Always legStep LegsMatch (start config) ops ∧
        Runs.Meets legStep Covered (start config) ops := by
  intro h
  have hlast := Runs.always_last legStep (h ⟨0.8, 1.5, true⟩
    [.enterPair acceptAll 1 "BTCUSDT" ⟨0.01, 60000, 60480, 59100⟩ ⟨0.01, 60000, 59520, 60900⟩,
      .updateLeg .long 60000 0.01 2]).1
  have hsize := (hlast .long (by decide +kernel)).1
  revert hsize
  decide +kernel

end Steps

end TB.LegBookkeeping
