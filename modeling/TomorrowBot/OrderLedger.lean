import TomorrowBot.OrderLife

/-!
# The ledger in an order's record

Each accepted trade is entered in the record of its order. Most steps of a life
touch neither the ledger nor the quantities of the record nor what was handed
to the portfolio.
-/

set_option autoImplicit false

namespace TB.OrderLedger
open TB.CommonTypes TB.OrderTypes TB.Orders TB.FillProcessor TB.ExecutionEngine TB.OrderLife

def total (trades : List (FillEvent ℚ)) : ℚ := (trades.map (fun t => t.fillQuantity)).sum

theorem total_append (trades : List (FillEvent ℚ)) (t : FillEvent ℚ) :
    total (trades ++ [t]) = total trades + t.fillQuantity := by
  simp [total]

section Ledger

def fills (l : Life ℚ) : List (FillEvent ℚ) :=
  l.record.elim [] (fun order => order.executionInfo.fills)

def filled (l : Life ℚ) : ℚ := l.record.elim 0 (fun order => order.filledQuantity)

structure SameFills (l m : Life ℚ) : Prop where
  passed : m.passed = l.passed
  fills : fills m = fills l
  filled : filled m = filled l
  applied : m.applied = true → l.applied = true

theorem sameFills_refl (l : Life ℚ) : SameFills l l := ⟨rfl, rfl, rfl, fun h => h⟩

theorem sameFills_trans {l m n : Life ℚ} (h : SameFills l m) (k : SameFills m n) :
    SameFills l n :=
  ⟨k.passed.trans h.passed, k.fills.trans h.fills, k.filled.trans h.filled, h.applied ∘ k.applied⟩

variable (clock : Clock)

theorem sameFills_setState (target : OrderState) (l m : Life ℚ)
    (hr : m.record = l.record.map (setState clock target)) (hp : m.passed = l.passed)
    (ha : m.applied = true → l.applied = true) : SameFills l m := by
  refine ⟨hp, ?_, ?_, ha⟩
  · rw [fills, fills, hr]
    cases l.record <;> rfl
  · rw [filled, filled, hr]
    cases l.record <;> rfl

theorem sameFills_move {clock : Clock} {target : OrderState} {reason : String} {l m : Life ℚ}
    (h : move clock target reason l = some m) : SameFills l m := by
  have hk := move_kept h
  exact sameFills_setState clock target l m (move_record h) hk.passed
    (fun ha => hk.applied ▸ ha)

theorem sameFills_moves : KeptByMoves SameFills where
  refl := sameFills_refl
  trans := sameFills_trans
  move := sameFills_move
  force := by
    intro clock target reason l
    unfold force
    cases l.fsm with
    | none => exact sameFills_refl l
    | some fsm =>
      exact sameFills_setState clock target l _ rfl rfl (fun h => absurd h (by simp))
  releaseFor := by
    intro order l
    unfold releaseFor
    split_ifs
    · exact ⟨rfl, rfl, rfl, fun h => h⟩
    · exact sameFills_refl l

variable (order : OrderRecord ℚ)

theorem trade_fills (fill : FillEvent ℚ) (l : Life ℚ)
    (hrec : l.record = some order) : fills (trade clock order fill l) = fills l ++ [fill] := by
  rw [fills, trade_record clock order fill l hrec, fills, hrec]
  rfl

/-- An accepted trade with a positive price is handed over if its quantity is
positive. -/
theorem trade_passed (fill : FillEvent ℚ) (l : Life ℚ)
    (hp : 0 < fill.fillPrice) : (trade clock order fill l).passed =
      if 0 < fill.fillQuantity then l.passed ++ [fill.fillQuantity] else l.passed := by
  have hkept := (tryMove_kept clock (fillRecord order clock.now fill).state
    (fillReason order (fillRecord order clock.now fill).filledQuantity) l).passed
  unfold trade
  split_ifs with hq hprice
  · exact absurd hprice (not_le.mpr hp)
  · simp only [mark, hand, put, hkept]
  · exact hkept

def canMoveTo (target : OrderState) (l : Life ℚ) : Bool :=
  l.fsm.any (fun fsm => isValidTransition fsm.state target)

theorem canMove_of_move {clock : Clock} {target : OrderState} {reason : String} {l m : Life ℚ}
    (h : move clock target reason l = some m) : canMoveTo target l = true := by
  obtain ⟨fsm, hfsm, hvalid, -⟩ := move_some h
  simp [canMoveTo, hfsm, hvalid]

theorem filled_stuck (target : OrderState) (reason : String) (l : Life ℚ)
    (h : l.fsm.map (fun fsm => fsm.state) = some .filled) :
    move clock target reason l = none := by
  cases hmove : move clock target reason l with
  | none => rfl
  | some m =>
    obtain ⟨fsm, hfsm, hvalid, -⟩ := move_some hmove
    rw [hfsm, Option.map_some, Option.some.injEq] at h
    rw [h, terminal_refuses .filled target rfl] at hvalid
    exact absurd hvalid (by simp)

theorem filled_cancel (confirmed : Bool) (l : Life ℚ)
    (h : l.fsm.map (fun fsm => fsm.state) = some .filled) : cancel clock confirmed l = l := by
  unfold cancel
  rw [filled_stuck clock _ _ l h]
  cases l.record <;> rfl

theorem reported_fills (now : Timestamp) (applied : Bool)
    (qty price : ℚ) (l : Life ℚ) (hrec : l.record = some order) :
    fills (put (reconciledRecord order now applied qty price) l) = fills l ∧
      filled (put (reconciledRecord order now applied qty price) l) =
        max order.filledQuantity qty := by
  constructor
  · simp [fills, put, hrec, reconciledRecord]
  · rw [filled, put, hrec]
    exact stdMax_rat order.filledQuantity qty

/-- A valid update moves the order, releases its margin if it ends, and reports
the quantity. -/
theorem update_moved (newState : OrderState) (qty price : ℚ)
    (direct confirmed : Bool) (l moved : Life ℚ) (order : OrderRecord ℚ)
    (hrec : l.record = some order) (hmove : move clock newState "Exchange update" l = some moved) :
    ∃ released, SameFills l released ∧ released.applied = l.applied ∧
      released.record = some (setState clock newState order) ∧ released.fsm = moved.fsm ∧
      update clock newState qty price direct confirmed l =
        if 0 < qty then
          if direct then remainder clock confirmed (report clock qty price released)
          else report clock qty price released
        else released := by
  have hmoved : moved.record = some (setState clock newState order) := by
    rw [move_record hmove, hrec]
    rfl
  have hupdate : update clock newState qty price direct confirmed l =
      let released := if endsUnfilled newState then releaseFor order moved else moved
      if 0 < qty then
        if direct then remainder clock confirmed (report clock qty price released)
        else report clock qty price released
      else released := by
    simp only [update, hrec, hmove]
  refine ⟨_, ?_, ?_, ?_, ?_, hupdate⟩
  · split_ifs
    · exact sameFills_trans (sameFills_move hmove) (sameFills_moves.releaseFor order moved)
    · exact sameFills_move hmove
  all_goals unfold releaseFor
  · split_ifs
    all_goals exact (move_kept hmove).applied
  · split_ifs
    all_goals exact hmoved
  · split_ifs
    all_goals rfl

theorem update_refused (newState : OrderState) (qty price : ℚ)
    (direct confirmed : Bool) (l : Life ℚ)
    (h : l.record = none ∨ move clock newState "Exchange update" l = none) :
    update clock newState qty price direct confirmed l = l := by
  unfold update
  rcases h with h | h
  · rw [h]
  · rw [h]
    cases l.record <;> rfl

end Ledger

end TB.OrderLedger
