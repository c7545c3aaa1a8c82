import TomorrowBot.PairLifecycleEngine
import TomorrowBot.Runs

/-!
# The legs of the pair state and the input

An evaluation switches on the legs that its input lists and leaves the others
as they were. The state mirrors the input as long as no input leaves out a leg
that an earlier one has switched on.
-/

set_option autoImplicit false

namespace TB.PairMirror
open TB.CommonTypes TB.PairLifecycle TB.HedgePair

section Listed
variable {F : Type} [DoubleArith F]

def listed (input : PairMarketInput F) (ps : PositionSide) : Bool :=
  if ps = input.primarySide then decide (0 < input.primarySize)
  else input.hasHedge && decide (0 < input.hedgeSize)

def inputSize (input : PairMarketInput F) (ps : PositionSide) : F :=
  if ps = input.primarySide then input.primarySize else input.hedgeSize

def inputPnlPct (input : PairMarketInput F) (ps : PositionSide) : F :=
  if ps = input.primarySide then input.primaryPnlPct else input.hedgePnlPct

def inputScore (input : PairMarketInput F) (ps : PositionSide) : F :=
  if ps = input.primarySide then input.exitScorePrimary else input.exitScoreHedge

def takenLeg (input : PairMarketInput F) (leg : PairLeg F) (ps : PositionSide) : PairLeg F :=
  if listed input ps then
    switchOn leg (inputSize input ps) (inputPnlPct input ps) (inputScore input ps)
  else leg

def takeLegs (e : PairLifecycleEngine F) (input : PairMarketInput F) : PairState F :=
  { e.state with
    symbol := input.symbol
    mode := e.mode
    longLeg := takenLeg input e.state.longLeg .long
    shortLeg := takenLeg input e.state.shortLeg .short }

/-- An evaluation takes each leg that is listed, and sums up both. -/
theorem updateState_eq (e : PairLifecycleEngine F) (input : PairMarketInput F) :
    updateState e input = { e with state := takeSums (takeLegs e input) input } := by
  unfold updateState takeHedge takePrimary takeLegs takenLeg listed
  rcases hside : input.primarySide <;> by_cases hp : 0 < input.primarySize <;>
    by_cases hh : input.hasHedge = true <;> by_cases hs : 0 < input.hedgeSize <;>
    simp [opposite, hp, hh, hs, setLeg, legOn, inputSize, inputPnlPct, inputScore, hside]

theorem legOn_updateState (e : PairLifecycleEngine F) (input : PairMarketInput F)
    (ps : PositionSide) :
    legOn (updateState e input).state ps = takenLeg input (legOn e.state ps) ps := by
  rw [updateState_eq]
  cases ps <;> rfl

def NoneLeftOn (e : PairLifecycleEngine F) (input : PairMarketInput F) : Prop :=
  ∀ ps, listed input ps = false → (legOn e.state ps).active = false

end Listed

section Exact

def openSize (input : PairMarketInput ℚ) (ps : PositionSide) : ℚ :=
  if listed input ps then inputSize input ps else 0

def openPnlBps (input : PairMarketInput ℚ) (ps : PositionSide) : ℚ :=
  if listed input ps then inputPnlPct input ps * 100.0 else 0

structure Mirrors (input : PairMarketInput ℚ) (st : PairState ℚ) : Prop where
  active : ∀ ps, (legOn st ps).active = listed input ps
  size : ∀ ps, (legOn st ps).size = openSize input ps
  netExposure : st.netExposure =
    (openSize input .long - openSize input .short) * input.midPrice
  grossNotional : st.grossNotional =
    (openSize input .long + openSize input .short) * input.midPrice
  netPairPnlBps : st.netPairPnlBps = openPnlBps input .long + openPnlBps input .short

def Pristine (e : PairLifecycleEngine ℚ) : Prop :=
  ∀ ps, (legOn e.state ps).active = false →
    (legOn e.state ps).size = 0 ∧ (legOn e.state ps).unrealizedPnlBps = 0

theorem pristine_new : Pristine newEngine := by
  intro ps _
  cases ps <;> exact ⟨rfl, rfl⟩

variable (e : PairLifecycleEngine ℚ) (input : PairMarketInput ℚ)

theorem pristine_step (h : Pristine e) : Pristine (updateState e input) := by
  intro ps
  rw [legOn_updateState]
  unfold takenLeg
  split_ifs
  · intro hoff
    cases hoff
  · exact h ps

theorem takenLeg_open (h : Pristine e) (hleft : NoneLeftOn e input) (ps : PositionSide) :
    (takenLeg input (legOn e.state ps) ps).active = listed input ps ∧
      (takenLeg input (legOn e.state ps) ps).size = openSize input ps ∧
      (takenLeg input (legOn e.state ps) ps).unrealizedPnlBps = openPnlBps input ps := by
  unfold takenLeg openSize openPnlBps
  rcases hlisted : listed input ps with _ | _
  · have hoff := hleft ps hlisted
    obtain ⟨hsize, hpnl⟩ := h ps hoff
    simp [hoff, hsize, hpnl]
  · exact ⟨rfl, rfl, rfl⟩

theorem mirrors_step_iff
    (h : Pristine e) : Mirrors input (updateState e input).state ↔ NoneLeftOn e input := by
  constructor
  · intro hm ps hout
    have hactive := hm.active ps
    rw [legOn_updateState, takenLeg, hout] at hactive
    simpa using hactive
  · intro hleft
    have hopen := takenLeg_open e input h hleft
    obtain ⟨-, hlongSize, hlongPnl⟩ := hopen .long
    obtain ⟨-, hshortSize, hshortPnl⟩ := hopen .short
    simp only [legOn] at hlongSize hlongPnl hshortSize hshortPnl
    refine ⟨?_, ?_, ?_, ?_, ?_⟩
    · intro ps
      rw [legOn_updateState]
      exact (hopen ps).1
    · intro ps
      rw [legOn_updateState]
      exact (hopen ps).2.1
    · rw [updateState_eq, ← hlongSize, ← hshortSize]
      rfl
    · rw [updateState_eq, ← hlongSize, ← hshortSize]
      rfl
    · rw [updateState_eq, ← hlongPnl, ← hshortPnl]
      rfl

/-- After each call of a run the state mirrors the input exactly when no input
of the run leaves out a leg that was switched on before it. -/
theorem mirrors_iff (cfg : PairLifecycleConfig ℚ) (fixed : ℕ → ℚ → String)
    (inputs : List (PairMarketInput ℚ)) :
    let step := fun e input => (evaluate cfg fixed e input).1
    Runs.Meets step (fun e input => Mirrors input (step e input).state) newEngine inputs ↔
      Runs.Meets step NoneLeftOn newEngine inputs := by
  intro step
  apply Runs.meets_iff_meets step (I := Pristine)
  · exact fun e input h _ => pristine_step e input h
  · exact fun e input h => mirrors_step_iff e input h
  · exact pristine_new

def defaultConfig : PairLifecycleConfig ℚ :=
  ⟨0.55, 30, 500, 0.15, 0.80, 0.30, 0.25, 6, 0.55, -50, 1.5⟩

def heldLong (hasHedge : Bool) : PairMarketInput ℚ :=
  ⟨"BTCUSDT", 0.5, false, 0.5, 0.5, 0.25, 0.05, 0, 5000, false, 0, 0, 0, 0.06, 100, 0, 0, .long, 2,
    0, hasHedge, if hasHedge then 1 else 0, -3⟩

/-- The hedge that is gone stays on with its size. -/
theorem closed_hedge_stays : ¬ Runs.Meets
    (fun e input => (evaluate defaultConfig HedgePair.fixedText e input).1)
    (fun e input => Mirrors input (evaluate defaultConfig HedgePair.fixedText e input).1.state)
    newEngine [heldLong true, heldLong false] := by
  intro h
  have hoff := h.2.1.active .short
  exact absurd hoff (by decide +kernel)

end Exact

end TB.PairMirror
