import TomorrowBot.HedgePairManager
import TomorrowBot.Runs

/-!
# The hedges of one position

A run records the decisions to open a hedge, the fills counted since the last of
them and whether a hedge was opened beside a visible one. An order is reported
as sent right after the decision it follows. Between the decision and its fill
the manager waits; a fill confirmed while it does not wait is counted as well.
-/

set_option autoImplicit false

namespace TB.HedgeBudget
open TB.CommonTypes TB.HedgePair

inductive HedgeOp (F : Type) where
  | evaluate (input : HedgePairInput F)
  | notifyHedgeOpened
  | confirmHedgeFilled
  | notifyHedgeFailed
  | notifyHedgeClosed
  | notifyReversed
  | notifyBothClosed

structure Hedging where
  manager : HedgePairManager
  decisions : ℕ
  counted : ℕ
  decided : Bool
  doubled : Bool

def start : Hedging := ⟨fresh, 0, 0, false, false⟩

def notified (s : Hedging) (m : HedgePairManager) : Hedging :=
  { s with
    manager := m
    counted := s.counted + (m.hedgeCount - s.manager.hedgeCount)
    decided := false }

section Law
variable {F : Type} [DoubleArith F] (fixed : ℕ → F → String)

def hedgeStep (s : Hedging) : HedgeOp F → Hedging
  | .evaluate input =>
    let evaluated := evaluate fixed input s.manager
    let opens := evaluated.2.action == .openHedge
    { manager := evaluated.1
      decisions := if opens then s.decisions + 1 else s.decisions
      counted := if opens then 0
        else s.counted + (evaluated.1.hedgeCount - s.manager.hedgeCount)
      decided := opens
      doubled := s.doubled || opens && input.hasHedge }
  | .notifyHedgeOpened => notified s (notifyHedgeOpened s.manager)
  | .confirmHedgeFilled => notified s (confirmHedgeFilled s.manager)
  | .notifyHedgeFailed => notified s (notifyHedgeFailed s.manager)
  | .notifyHedgeClosed => notified s (notifyHedgeClosed s.manager)
  | .notifyReversed => notified s (notifyReversed s.manager)
  | .notifyBothClosed => notified s (notifyBothClosed s.manager)

def Announced (s : Hedging) (op : HedgeOp F) : Prop :=
  match op with
  | .notifyHedgeOpened => s.decided = true
  | _ => True

structure HedgeLaw (s : Hedging) : Prop where
  single : s.doubled = false
  perDecision : s.counted ≤ 1 ∧ (s.decisions = 0 → s.manager.hedgeCount = 0)
  bounded : s.manager.hedgeCount ≤ kMaxHedgesPerPosition

/-- A primary position whose hedge is visible does not trigger another, and a
fill confirmed while none is pending is the only one since the last decision,
within the budget. -/
def Single (s : Hedging) (op : HedgeOp F) : Prop :=
  s.manager.state = .primaryOnly →
    match op with
    | .evaluate input => input.hasHedge = true → shouldTriggerHedge s.manager input = false
    | .confirmHedgeFilled =>
      0 < s.decisions ∧ s.counted = 0 ∧ s.manager.hedgeCount < kMaxHedgesPerPosition
    | _ => True

instance (s : Hedging) (op : HedgeOp F) : Decidable (Announced s op) :=
  match op with
  | .notifyHedgeOpened => inferInstanceAs (Decidable (s.decided = true))
  | .evaluate _ | .confirmHedgeFilled | .notifyHedgeFailed | .notifyHedgeClosed
  | .notifyReversed | .notifyBothClosed => .isTrue trivial

instance (s : Hedging) (op : HedgeOp F) : Decidable (Single s op) :=
  match op with
  | .evaluate _ => inferInstanceAs (Decidable (_ → _ → _))
  | .confirmHedgeFilled => inferInstanceAs (Decidable (_ → _ ∧ _ ∧ _))
  | .notifyHedgeOpened | .notifyHedgeFailed | .notifyHedgeClosed
  | .notifyReversed | .notifyBothClosed => .isTrue (fun _ => trivial)

structure HedgeInv (s : Hedging) : Prop where
  law : HedgeLaw s
  pending : s.manager.state = .hedgeSentPending →
    0 < s.decisions ∧ s.counted = 0 ∧ s.manager.hedgeCount < kMaxHedgesPerPosition
  decided : s.decided = true → s.manager.state = .primaryOnly ∧
    0 < s.decisions ∧ s.counted = 0 ∧ s.manager.hedgeCount < kMaxHedgesPerPosition

theorem inv_start : HedgeInv start where
  law := ⟨rfl, ⟨Nat.zero_le 1, fun _ => rfl⟩, Nat.zero_le _⟩
  pending h := by cases h
  decided h := by cases h

variable (s : Hedging)

theorem inv_quiet (m : HedgePairManager) (hi : HedgeInv s)
    (hc : m.hedgeCount = s.manager.hedgeCount)
    (hp : m.state = .hedgeSentPending → s.manager.state = .hedgeSentPending) :
    HedgeInv (notified s m) := by
  have hsame : notified s m = { s with manager := m, decided := false } := by
    simp [notified, hc]
  rw [hsame]
  exact {
    law := {
      single := hi.law.single
      perDecision := ⟨hi.law.perDecision.1, fun h => hc.trans (hi.law.perDecision.2 h)⟩
      bounded := hc.trans_le hi.law.bounded }
    pending := fun h => by
      obtain ⟨hd, hz, hroom⟩ := hi.pending (hp h)
      exact ⟨hd, hz, hc.trans_lt hroom⟩
    decided := fun h => by cases h }

theorem inv_counted (m : HedgePairManager) (hi : HedgeInv s)
    (hc : m.hedgeCount = s.manager.hedgeCount + 1) (hp : m.state ≠ .hedgeSentPending)
    (hroom : 0 < s.decisions ∧ s.counted = 0 ∧ s.manager.hedgeCount < kMaxHedgesPerPosition) :
    HedgeInv (notified s m) := by
  obtain ⟨hd, hz, hlt⟩ := hroom
  have hone : notified s m = { s with manager := m, counted := 1, decided := false } := by
    simp [notified, hc, hz]
  rw [hone]
  exact {
    law := {
      single := hi.law.single
      perDecision := ⟨le_rfl, fun h => absurd h (Nat.ne_of_gt hd)⟩
      bounded := hc.trans_le hlt }
    pending := fun h => absurd h hp
    decided := fun h => by cases h }

theorem inv_confirm (hi : HedgeInv s) (hs : Single s (.confirmHedgeFilled : HedgeOp F)) :
    HedgeInv (hedgeStep fixed s .confirmHedgeFilled) := by
  show HedgeInv (notified s (confirmHedgeFilled s.manager))
  by_cases hpending : s.manager.state = .hedgeSentPending
  · have hm : confirmHedgeFilled s.manager = ⟨.primaryPlusHedge, s.manager.hedgeCount + 1⟩ := by
      unfold confirmHedgeFilled
      rw [hpending]
    exact inv_counted s _ hi (by rw [hm]) (by simp [hm]) (hi.pending hpending)
  by_cases hprimary : s.manager.state = .primaryOnly
  · have hm : confirmHedgeFilled s.manager = ⟨.primaryPlusHedge, s.manager.hedgeCount + 1⟩ := by
      unfold confirmHedgeFilled
      rw [hprimary]
    exact inv_counted s _ hi (by rw [hm]) (by simp [hm]) (hs hprimary)
  · have hm : confirmHedgeFilled s.manager = s.manager := by
      unfold confirmHedgeFilled
      split
      · exact absurd (by assumption) hpending
      · exact absurd (by assumption) hprimary
      · rfl
    exact inv_quiet s _ hi (by rw [hm]) (by rw [hm]; exact id)

theorem inv_opened (hi : HedgeInv s) (ha : Announced s (.notifyHedgeOpened : HedgeOp F)) :
    HedgeInv (hedgeStep fixed s .notifyHedgeOpened) := by
  have hstep : hedgeStep fixed s .notifyHedgeOpened =
      { s with manager := notifyHedgeOpened s.manager, decided := false } := by
    simp [hedgeStep, notified, notifyHedgeOpened]
  rw [hstep]
  exact {
    law := ⟨hi.law.single, hi.law.perDecision, hi.law.bounded⟩
    pending := fun _ => (hi.decided ha).2
    decided := fun h => by cases h }

theorem inv_opening (input : HedgePairInput F) (hi : HedgeInv s) (hs : Single s (.evaluate input))
    (ho : (evaluate fixed input s.manager).2.action = .openHedge) :
    HedgeInv (hedgeStep fixed s (.evaluate input)) := by
  obtain ⟨hprimary, htrigger⟩ := (evaluate_opens fixed input s.manager).mp ho
  have hroom := (canHedge_of_trigger s.manager input htrigger).2
  have hhidden : input.hasHedge = false := by
    by_contra hno
    have hquiet := hs hprimary (by simpa using hno)
    rw [htrigger] at hquiet
    cases hquiet
  have hsame : (evaluate fixed input s.manager).1 = s.manager := by
    unfold evaluate
    rw [hprimary]
  have hstep : hedgeStep fixed s (.evaluate input) =
      ⟨s.manager, s.decisions + 1, 0, true, s.doubled⟩ := by
    simp [hedgeStep, ho, hsame, hhidden]
  rw [hstep]
  exact {
    law := ⟨hi.law.single, ⟨Nat.zero_le 1, fun h => by simp at h⟩, hi.law.bounded⟩
    pending := fun _ => ⟨Nat.succ_pos _, rfl, hroom⟩
    decided := fun _ => ⟨hprimary, Nat.succ_pos _, rfl, hroom⟩ }

theorem inv_evaluate (input : HedgePairInput F) (hi : HedgeInv s)
    (hs : Single s (.evaluate input)) :
    HedgeInv (hedgeStep fixed s (.evaluate input)) := by
  by_cases ho : (evaluate fixed input s.manager).2.action = .openHedge
  · exact inv_opening fixed s input hi hs ho
  have hstep : hedgeStep fixed s (.evaluate input) =
      notified s (evaluate fixed input s.manager).1 := by
    simp [hedgeStep, notified, ho]
  rw [hstep]
  rcases evaluate_counts fixed input s.manager with ⟨hp, -, hc, hq⟩ | ⟨hc, hq⟩
  · exact inv_counted s _ hi hc hq (hi.pending hp)
  · exact inv_quiet s _ hi hc hq

theorem inv_hedgeStep (op : HedgeOp F) (hi : HedgeInv s)
    (hc : Announced s op ∧ Single s op) : HedgeInv (hedgeStep fixed s op) := by
  cases op with
  | evaluate input => exact inv_evaluate fixed s input hi hc.2
  | notifyHedgeOpened => exact inv_opened fixed s hi hc.1
  | confirmHedgeFilled => exact inv_confirm fixed s hi hc.2
  | notifyHedgeFailed => exact inv_quiet s _ hi rfl (by simp [notifyHedgeFailed])
  | notifyHedgeClosed => exact inv_quiet s _ hi rfl (by simp [notifyHedgeClosed])
  | notifyReversed => exact inv_quiet s _ hi rfl (by simp [notifyReversed])
  | notifyBothClosed => exact inv_quiet s _ hi rfl (by simp [notifyBothClosed])

/-- In every run whose primary positions are not hedged beside a visible hedge,
and whose fills are confirmed once for a decision, the hedges stay within the
budget. -/
theorem hedge_law (ops : List (HedgeOp F))
    (ha : Runs.Meets (hedgeStep fixed) Announced start ops)
    (hs : Runs.Meets (hedgeStep fixed) Single start ops) :
    HedgeLaw (Runs.run (hedgeStep fixed) start ops) :=
  (Runs.invariant_run (hedgeStep fixed) (inv_hedgeStep fixed) start ops inv_start
    (Runs.meets_and (hedgeStep fixed) start ops ha hs)).law

def losing (hasHedge : Bool) : HedgePairInput ℚ where
  primarySide := .long
  primarySize := 0.01
  primaryPnl := -200
  hasHedge := hasHedge
  hedgeSize := if hasHedge then 0.007 else 0
  hedgePnl := 0
  regimeStability := 0.2
  cusumRegimeChange := true
  uncertainty := 0.4
  exitScorePrimary := -0.1
  exitScoreHedge := 0
  fundingRate := 0.0001
  spreadBps := 2
  depthUsd := 30000
  vpinToxic := false
  momentum := -0.01
  momentumValid := true
  totalCapital := 10000
  midPrice := 60000
  takerFeePct := 0.06
  hedgeProfitCloseFeeMult := 2
  hedgeTriggerLossPct := 1.5
  protectiveStopImminent := false
  stopDistancePct := 5

omit [DoubleArith F] fixed in
/-- While the hedge that was sent for closing is still visible, another one is
opened beside it. -/
theorem visible_hedge_doubled :
    ¬ ∀ ops : List (HedgeOp ℚ), Runs.Meets (hedgeStep fixedText) Announced start ops →
      HedgeLaw (Runs.run (hedgeStep fixedText) start ops) := by
  intro h
  have hlaw := h [.evaluate (losing false), .notifyHedgeOpened, .confirmHedgeFilled,
    .notifyHedgeClosed, .evaluate (losing true)]
    ⟨trivial, by decide +kernel, trivial, trivial, trivial, trivial⟩
  have hsingle := hlaw.single
  revert hsingle
  decide +kernel

/-- Fills confirmed without a decision exceed the budget. -/
example : (Runs.run (hedgeStep fixedText) start ([.confirmHedgeFilled, .notifyHedgeClosed,
    .confirmHedgeFilled, .notifyHedgeClosed, .confirmHedgeFilled] : List (HedgeOp ℚ))
    ).manager.hedgeCount = 3 := by decide +kernel

omit [DoubleArith F] fixed in
theorem hedge_law_twice :
    HedgeLaw (Runs.run (hedgeStep fixedText) start [.evaluate (losing false), .notifyHedgeOpened,
      .confirmHedgeFilled, .notifyHedgeClosed, .evaluate (losing false), .notifyHedgeOpened,
      .evaluate (losing true)]) :=
  hedge_law fixedText _
    ⟨trivial, by decide +kernel, trivial, trivial, trivial,
      by decide +kernel, trivial, trivial⟩
    ⟨by decide +kernel, by decide +kernel, by decide +kernel, by decide +kernel,
      by decide +kernel, by decide +kernel, by decide +kernel, trivial⟩

end Law

end TB.HedgeBudget
