import TomorrowBot.RecentEntries
import TomorrowBot.Runs
import TomorrowBot.TradingContext

/-!
# When the confirmed regime may change, and when it has to

A new regime is confirmed after it was the immediate classification for some
ticks in a row, on a tick with enough confidence, and when the old one has
been in force long enough. The ticks in force are counted only while the
immediate classification agrees with the confirmed regime, so a regime that
is left early is never replaced.
-/

set_option autoImplicit false

namespace TB.Hysteresis
open TB.CommonTypes TB.TradingContext RecentEntries

variable {F : Type} [DoubleArith F]

structure TransitionPolicy (F : Type) [DoubleArith F] where
  confirmationTicks : ℤ := 3
  minConfidenceToSwitch : F := 0.55
  dwellTimeTicks : ℤ := 5

def TransitionPolicy.Validated (p : TransitionPolicy F) : Prop :=
  ¬(p.confirmationTicks < 1 ∨ 20 < p.confirmationTicks) ∧
    ¬(p.minConfidenceToSwitch ≤ 0 ∨ 1.0 ≤ p.minConfidenceToSwitch) ∧
    ¬(p.dwellTimeTicks < 1 ∨ 50 < p.dwellTimeTicks)

instance (p : TransitionPolicy F) : Decidable p.Validated :=
  inferInstanceAs (Decidable (_ ∧ _))

@[ext]
structure HysteresisState where
  confirmedRegime : DetailedRegime := .undefined
  candidateRegime : DetailedRegime := .undefined
  candidateTicks : ℕ := 0
  dwellTicks : ℕ := 0

structure Tick (F : Type) where
  immediate : DetailedRegime
  confidence : F
  cusumChangeDetected : Bool

structure HysteresisExplanation where
  hysteresisOverrode : Bool
  confirmationTicksRemaining : ℤ
  dwellTicks : ℕ

def kCusumMinDwellTicks : ℤ := 5

def effectiveConfirmationTicks (p : TransitionPolicy F) (cusumChangeDetected : Bool) : ℤ :=
  if cusumChangeDetected then max 1 (p.confirmationTicks - 1) else p.confirmationTicks

def effectiveDwellTicks (p : TransitionPolicy F) (cusumChangeDetected : Bool) : ℤ :=
  if cusumChangeDetected then max kCusumMinDwellTicks p.dwellTimeTicks else p.dwellTimeTicks

def updateState (p : TransitionPolicy F) (tick : Tick F) (state : HysteresisState) :
    HysteresisState × DetailedRegime :=
  if state.confirmedRegime = .undefined then
    ({ confirmedRegime := tick.immediate, candidateRegime := .undefined,
       candidateTicks := 0, dwellTicks := 1 }, tick.immediate)
  else if tick.immediate = state.confirmedRegime then
    ({ state with candidateRegime := .undefined, candidateTicks := 0,
                  dwellTicks := state.dwellTicks + 1 }, state.confirmedRegime)
  else if tick.immediate ≠ state.candidateRegime then
    ({ state with candidateRegime := tick.immediate, candidateTicks := 1 },
      state.confirmedRegime)
  else if effectiveConfirmationTicks p tick.cusumChangeDetected ≤ (state.candidateTicks + 1 : ℕ) ∧
      p.minConfidenceToSwitch ≤ tick.confidence ∧
      effectiveDwellTicks p tick.cusumChangeDetected ≤ state.dwellTicks then
    ({ confirmedRegime := state.candidateRegime, candidateRegime := .undefined,
       candidateTicks := 0, dwellTicks := 1 }, state.candidateRegime)
  else
    ({ state with candidateTicks := state.candidateTicks + 1 }, state.confirmedRegime)

def applyHysteresis (p : TransitionPolicy F) (tick : Tick F) (state : HysteresisState) :
    HysteresisState × DetailedRegime × HysteresisExplanation :=
  let (next, result) := updateState p tick state
  (next, result,
    { hysteresisOverrode := tick.immediate ≠ result
      confirmationTicksRemaining :=
        max 0 (effectiveConfirmationTicks p tick.cusumChangeDetected - next.candidateTicks)
      dwellTicks := next.dwellTicks })

def step (p : TransitionPolicy F) (state : HysteresisState) (tick : Tick F) : HysteresisState :=
  (applyHysteresis p tick state).1

def Confirms (p : TransitionPolicy F) (state : HysteresisState) (tick : Tick F) : Prop :=
  state.confirmedRegime ≠ .undefined ∧ tick.immediate ≠ state.confirmedRegime ∧
    tick.immediate = state.candidateRegime ∧
    effectiveConfirmationTicks p tick.cusumChangeDetected ≤ (state.candidateTicks + 1 : ℕ) ∧
    p.minConfidenceToSwitch ≤ tick.confidence ∧
    effectiveDwellTicks p tick.cusumChangeDetected ≤ state.dwellTicks

variable (p : TransitionPolicy F) (state : HysteresisState)

theorem step_eq (tick : Tick F) : step p state tick = (updateState p tick state).1 := rfl

theorem step_first (tick : Tick F) (h : state.confirmedRegime = .undefined) :
    step p state tick = { confirmedRegime := tick.immediate, dwellTicks := 1 } := by
  rw [step_eq, updateState, if_pos h]

theorem step_stable (tick : Tick F)
    (h : state.confirmedRegime ≠ .undefined) (hi : tick.immediate = state.confirmedRegime) :
    step p state tick =
      { confirmedRegime := state.confirmedRegime, dwellTicks := state.dwellTicks + 1 } := by
  rw [step_eq, updateState, if_neg h, if_pos hi]

theorem step_confirms (tick : Tick F) (h : Confirms p state tick) :
    step p state tick = { confirmedRegime := tick.immediate, dwellTicks := 1 } := by
  obtain ⟨hu, hi, hc, hk, hconf, hd⟩ := h
  rw [step_eq, updateState, if_neg hu, if_neg hi, if_neg (fun hne => hne hc),
    if_pos ⟨hk, hconf, hd⟩, hc]

/-- A tick that disagrees and does not confirm only moves the candidate. -/
theorem step_waits (tick : Tick F)
    (h : state.confirmedRegime ≠ .undefined) (hi : tick.immediate ≠ state.confirmedRegime)
    (hn : ¬Confirms p state tick) :
    step p state tick =
      { state with
        candidateRegime := tick.immediate
        candidateTicks :=
          if tick.immediate = state.candidateRegime then state.candidateTicks + 1 else 1 } := by
  by_cases hc : tick.immediate = state.candidateRegime
  · rw [step_eq, updateState, if_neg h, if_neg hi, if_neg (fun hne => hne hc),
      if_neg (fun hs => hn ⟨h, hi, hc, hs⟩), if_pos hc, hc]
  · rw [step_eq, updateState, if_neg h, if_neg hi, if_pos hc, if_neg hc]

theorem reported_confirmed (tick : Tick F) :
    (applyHysteresis p tick state).2.1 = (step p state tick).confirmedRegime := by
  show (updateState p tick state).2 = (updateState p tick state).1.confirmedRegime
  rw [updateState]
  split_ifs <;> rfl

structure Watch (F : Type) where
  state : HysteresisState := {}
  ticks : List (Tick F) := []
  reported : List DetailedRegime := []

def watch (p : TransitionPolicy F) (w : Watch F) (tick : Tick F) : Watch F where
  state := step p w.state tick
  ticks := w.ticks ++ [tick]
  reported := w.reported ++ [(applyHysteresis p tick w.state).2.1]

def immediates (ticks : List (Tick F)) : List DetailedRegime := ticks.map Tick.immediate

/-- The tick's regime was classified often enough in a row and with the confidence
required, and the regime it replaces was reported long enough. -/
def Earned (p : TransitionPolicy F) (w : Watch F) (tick : Tick F) : Prop :=
  Streak (effectiveConfirmationTicks p tick.cusumChangeDetected).toNat tick.immediate
      (immediates (w.ticks ++ [tick])) ∧
    p.minConfidenceToSwitch ≤ tick.confidence ∧
    Streak (effectiveDwellTicks p tick.cusumChangeDetected).toNat w.state.confirmedRegime
      w.reported

def Restrained (p : TransitionPolicy F) (w : Watch F) (tick : Tick F) : Prop :=
  (step p w.state tick).confirmedRegime ≠ w.state.confirmedRegime →
    (step p w.state tick).confirmedRegime = tick.immediate ∧ Earned p w tick

def Started (w : Watch F) : Prop := ∃ regime ∈ w.reported, regime ≠ .undefined

def Steady (p : TransitionPolicy F) (regime : DetailedRegime) (ticks : List (Tick F)) : Prop :=
  ∀ tick ∈ ticks, tick.immediate = regime ∧ p.minConfidenceToSwitch ≤ tick.confidence

def confirmationBound (p : TransitionPolicy F) : ℕ :=
  (2 + p.confirmationTicks + max 5 p.dwellTimeTicks).toNat

def Prompt (p : TransitionPolicy F) (state : HysteresisState) (regime : DetailedRegime) : Prop :=
  ∀ ticks : List (Tick F), Steady p regime ticks → confirmationBound p ≤ ticks.length →
    ∃ n ≤ confirmationBound p,
      (Runs.run (step p) state (ticks.take n)).confirmedRegime = regime

structure Counted (w : Watch F) : Prop where
  candidate : Streak w.state.candidateTicks w.state.candidateRegime (immediates w.ticks)
  dwell : Streak w.state.dwellTicks w.state.confirmedRegime w.reported
  unset : w.state.confirmedRegime = .undefined →
    ∀ tick ∈ w.ticks.getLast?, tick.immediate = .undefined
  nonempty : w.ticks = [] → w.reported = []

omit [DoubleArith F] in
theorem immediates_concat (ticks : List (Tick F)) (tick : Tick F) :
    immediates (ticks ++ [tick]) = immediates ticks ++ [tick.immediate] := by
  rw [immediates, List.map_append, List.map_singleton, immediates]

variable (w : Watch F) (tick : Tick F)

theorem watch_state : (watch p w tick).state = step p w.state tick := rfl

theorem watch_ticks : (watch p w tick).ticks = w.ticks ++ [tick] := rfl

theorem watch_reported :
    (watch p w tick).reported = w.reported ++ [(step p w.state tick).confirmedRegime] := by
  rw [watch, reported_confirmed]

omit [DoubleArith F] in
theorem counted_init : Counted ({} : Watch F) :=
  ⟨streak_zero _ _, streak_zero _ _, fun _ tick h => by simp at h, fun _ => rfl⟩

theorem counted_fresh
    (h : step p w.state tick = { confirmedRegime := tick.immediate, dwellTicks := 1 }) :
    Counted (watch p w tick) := by
  constructor
  · rw [watch_state, h]
    exact streak_zero _ _
  · rw [watch_state, watch_reported, h]
    exact streak_concat.mpr (streak_zero _ _)
  · rw [watch_state, h, watch_ticks, List.getLast?_concat]
    intro hu last hlast
    rw [Option.mem_some_iff] at hlast
    rw [← hlast, ← hu]
  · intro hnil
    exact absurd hnil (by rw [watch_ticks]; simp)

theorem counted_step (hw : Counted w) : Counted (watch p w tick) := by
  by_cases hu : w.state.confirmedRegime = .undefined
  · exact counted_fresh p w tick (step_first p w.state tick hu)
  by_cases hc : Confirms p w.state tick
  · exact counted_fresh p w tick (step_confirms p w.state tick hc)
  have hlast : (watch p w tick).ticks = [] → (watch p w tick).reported = [] := by
    intro hnil
    exact absurd hnil (by rw [watch_ticks]; simp)
  by_cases hi : tick.immediate = w.state.confirmedRegime
  · have hstep := step_stable p w.state tick hu hi
    refine ⟨?_, ?_, ?_, hlast⟩
    · rw [watch_state, hstep]
      exact streak_zero _ _
    · rw [watch_state, watch_reported, hstep]
      exact streak_concat.mpr hw.dwell
    · rw [watch_state, hstep]
      exact fun h => absurd h hu
  · have hstep := step_waits p w.state tick hu hi hc
    refine ⟨?_, ?_, ?_, hlast⟩
    · rw [watch_state, watch_ticks, hstep, immediates_concat]
      show Streak (if tick.immediate = w.state.candidateRegime then _ else 1) tick.immediate _
      split_ifs with hcand
      · exact streak_concat.mpr (hcand ▸ hw.candidate)
      · exact streak_concat.mpr (streak_zero _ _)
    · rw [watch_state, watch_reported, hstep]
      exact streak_of_le (streak_concat.mpr hw.dwell) (Nat.le_succ _)
    · rw [watch_state, hstep]
      exact fun h => absurd h hu

/-- What confirms a candidate is what the candidate has earned. -/
theorem earned_of_confirms (hw : Counted w) (h : Confirms p w.state tick) : Earned p w tick := by
  obtain ⟨-, -, hc, hk, hconf, hd⟩ := h
  refine ⟨?_, hconf, streak_of_le hw.dwell (Int.toNat_le.mpr hd)⟩
  rw [immediates_concat]
  exact streak_of_le (streak_concat.mpr (hc ▸ hw.candidate)) (Int.toNat_le.mpr hk)

/-- A confirmed regime other than undefined is replaced only by what has earned it. -/
theorem restrained_of_set
    (hw : Counted w) (hu : w.state.confirmedRegime ≠ .undefined) : Restrained p w tick := by
  intro hchange
  by_cases hc : Confirms p w.state tick
  · exact ⟨by rw [step_confirms p w.state tick hc], earned_of_confirms p w tick hw hc⟩
  · by_cases hi : tick.immediate = w.state.confirmedRegime
    · exact absurd (by rw [step_stable p w.state tick hu hi]) hchange
    · exact absurd (by rw [step_waits p w.state tick hu hi hc]) hchange

def Settled (p : TransitionPolicy F) (w : Watch F) (tick : Tick F) : Prop :=
  Started w → w.state.confirmedRegime = .undefined →
    tick.immediate = .undefined ∨
      effectiveConfirmationTicks p tick.cusumChangeDetected ≤ 1 ∧
        p.minConfidenceToSwitch ≤ tick.confidence ∧
        Streak (effectiveDwellTicks p tick.cusumChangeDetected).toNat .undefined w.reported

omit [DoubleArith F] in
/-- While undefined is in force again, the tick before classified undefined too. -/
theorem streak_after_unset (hw : Counted w) (hs : Started w)
    (hu : w.state.confirmedRegime = .undefined) (hi : tick.immediate ≠ .undefined) (n : ℕ) :
    Streak n tick.immediate (immediates (w.ticks ++ [tick])) ↔ n ≤ 1 := by
  have hne : w.ticks ≠ [] := by
    intro hnil
    obtain ⟨regime, hr, -⟩ := hs
    rw [hw.nonempty hnil] at hr
    exact List.not_mem_nil hr
  have hlast := hw.unset hu (w.ticks.getLast hne) (List.getLast?_eq_some_getLast hne)
  rw [immediates_concat, ← List.dropLast_append_getLast hne, immediates_concat, hlast]
  cases n with
  | zero => simp [streak_zero]
  | succ n =>
    rw [streak_concat, streak_concat_of_ne hi]
    omega

theorem restrained_iff (hw : Counted w) : (Started w → Restrained p w tick) ↔ Settled p w tick := by
  by_cases hu : w.state.confirmedRegime = .undefined
  · have hnext : (step p w.state tick).confirmedRegime = tick.immediate := by
      rw [step_first p w.state tick hu]
    constructor
    · intro h hs _
      by_cases hi : tick.immediate = .undefined
      · exact Or.inl hi
      · obtain ⟨-, hk, hconf, hd⟩ := h hs (by rw [hnext, hu]; exact hi)
        rw [streak_after_unset w tick hw hs hu hi, Int.toNat_le] at hk
        exact Or.inr ⟨hk, hconf, hu ▸ hd⟩
    · intro h hs hchange
      rw [hnext, hu] at hchange
      obtain hi | ⟨hk, hconf, hd⟩ := h hs hu
      · exact absurd hi hchange
      · refine ⟨hnext, ?_, hconf, hu ▸ hd⟩
        rw [streak_after_unset w tick hw hs hu hchange, Int.toNat_le]
        exact hk
  · exact ⟨fun _ _ h => absurd h hu, fun _ _ => restrained_of_set p w tick hw hu⟩

theorem set_restrained_run (ticks : List (Tick F)) : Runs.Meets (watch p)
      (fun w tick => w.state.confirmedRegime ≠ .undefined → Restrained p w tick) {} ticks :=
  Runs.meets_of_invariant (watch p) (I := Counted) (C := fun _ _ => True)
    (fun w tick hw _ => counted_step p w tick hw)
    (fun w tick hw _ => restrained_of_set p w tick hw) {} ticks counted_init
    (Runs.meets_true _ _ _)

theorem started_restrained_run_iff (ticks : List (Tick F)) :
    Runs.Meets (watch p) (fun w tick => Started w → Restrained p w tick) {} ticks ↔
      Runs.Meets (watch p) (Settled p) {} ticks :=
  Runs.meets_iff_meets (watch p) (I := Counted) (fun w tick hw _ => counted_step p w tick hw)
    (restrained_iff p) {} ticks counted_init

theorem steady_stays (regime : DetailedRegime)
    (state : HysteresisState) (ticks : List (Tick F)) (hs : Steady p regime ticks)
    (h : state.confirmedRegime = regime) :
    (Runs.run (step p) state ticks).confirmedRegime = regime := by
  refine Runs.invariant_run (step p) (I := fun s => s.confirmedRegime = regime)
    (C := fun _ tick => tick.immediate = regime) ?_ state ticks h
    (Runs.meets_of_forall _ _ _ _ (fun tick ht _ => (hs tick ht).1))
  intro s tick hr hi
  by_cases hu : s.confirmedRegime = .undefined
  · rw [step_first p s tick hu]
    exact hi
  · rw [step_stable p s tick hu (hi.trans hr.symm)]
    exact hr

theorem confirmation_le (h : p.Validated) (cusum : Bool) :
    effectiveConfirmationTicks p cusum ≤ p.confirmationTicks := by
  have hpos := h.1
  rw [effectiveConfirmationTicks]
  split_ifs <;> omega

theorem dwell_le (cusum : Bool) : effectiveDwellTicks p cusum ≤ max 5 p.dwellTimeTicks := by
  rw [effectiveDwellTicks, kCusumMinDwellTicks]
  split_ifs <;> omega

structure Awaiting (p : TransitionPolicy F) (regime : DetailedRegime) (state : HysteresisState) :
    Prop where
  set : state.confirmedRegime ≠ .undefined
  other : regime ≠ state.confirmedRegime
  candidate : state.candidateRegime = regime
  dwelt : max 5 p.dwellTimeTicks ≤ state.dwellTicks

/-- Each steady tick confirms the awaited candidate or counts one tick more for it. -/
theorem awaiting_run (hp : p.Validated) (regime : DetailedRegime)
    (state : HysteresisState) (ticks : List (Tick F)) (ha : Awaiting p regime state)
    (hs : Steady p regime ticks) (hne : ticks ≠ [])
    (hlong : p.confirmationTicks ≤ state.candidateTicks + ticks.length) :
    (Runs.run (step p) state ticks).confirmedRegime = regime := by
  induction ticks generalizing state with
  | nil => exact absurd rfl hne
  | cons tick ticks ih =>
    obtain ⟨hi, hconf⟩ := hs tick List.mem_cons_self
    have hrest : Steady p regime ticks := fun t ht => hs t (List.mem_cons_of_mem tick ht)
    rw [Runs.run]
    by_cases hc : Confirms p state tick
    · exact steady_stays p regime _ ticks hrest (by rw [step_confirms p state tick hc, hi])
    have hcand : tick.immediate = state.candidateRegime := hi.trans ha.candidate.symm
    have hwait := step_waits p state tick ha.set (hi ▸ ha.other) hc
    rw [if_pos hcand] at hwait
    have hshort : ¬effectiveConfirmationTicks p tick.cusumChangeDetected ≤
        (state.candidateTicks + 1 : ℕ) := by
      intro hk
      exact hc ⟨ha.set, hi ▸ ha.other, hcand, hk, hconf,
        (dwell_le p tick.cusumChangeDetected).trans ha.dwelt⟩
    have hmax := confirmation_le p hp tick.cusumChangeDetected
    rw [List.length_cons] at hlong
    rw [hwait]
    have hnext : Awaiting p regime
        { state with candidateRegime := tick.immediate, candidateTicks := state.candidateTicks + 1 } :=
      ⟨ha.set, ha.other, hi, ha.dwelt⟩
    apply ih _ hnext hrest
    · rintro rfl
      rw [List.length_nil] at hlong
      omega
    · show p.confirmationTicks ≤ ((state.candidateTicks + 1 : ℕ) : ℤ) + ticks.length
      omega

theorem prompt_of_dwelt (hp : p.Validated) (regime : DetailedRegime) (state : HysteresisState)
    (h : state.confirmedRegime = .undefined ∨ state.confirmedRegime = regime ∨
      max 5 p.dwellTimeTicks ≤ state.dwellTicks) : Prompt p state regime := by
  intro ticks hs hlong
  refine ⟨confirmationBound p, le_rfl, ?_⟩
  have hlen : (ticks.take (confirmationBound p)).length = confirmationBound p :=
    List.length_take_of_le hlong
  have hbound := hp.1
  obtain ⟨hpos, -⟩ := not_or.mp hbound
  have hsteady : Steady p regime (ticks.take (confirmationBound p)) :=
    fun t ht => hs t (List.mem_of_mem_take ht)
  generalize ticks.take (confirmationBound p) = word at hlen hsteady
  rw [confirmationBound] at hlen
  by_cases hr : state.confirmedRegime = regime
  · exact steady_stays p regime state word hsteady hr
  cases word with
  | nil =>
    rw [List.length_nil] at hlen
    omega
  | cons tick word =>
    obtain ⟨hi, -⟩ := hsteady tick List.mem_cons_self
    have hrest : Steady p regime word := fun t ht => hsteady t (List.mem_cons_of_mem tick ht)
    rw [List.length_cons] at hlen
    rw [Runs.run]
    by_cases hu : state.confirmedRegime = .undefined
    · exact steady_stays p regime _ word hrest (by rw [step_first p state tick hu, hi])
    by_cases hc : Confirms p state tick
    · exact steady_stays p regime _ word hrest (by rw [step_confirms p state tick hc, hi])
    -- the first tick makes the regime the candidate, if it is not already
    have hother : tick.immediate ≠ state.confirmedRegime := fun he => hr (he.symm.trans hi)
    have hdwelt := (h.resolve_left hu).resolve_left hr
    rw [step_waits p state tick hu hother hc]
    refine awaiting_run p hp regime _ word ⟨hu, fun he => hr he.symm, hi, hdwelt⟩ hrest ?_ ?_
    · rintro rfl
      rw [List.length_nil] at hlen
      omega
    · push_cast
      omega

theorem stuck_run (regime : DetailedRegime) (state : HysteresisState)
    (ticks : List (Tick F)) (hu : state.confirmedRegime ≠ .undefined)
    (hr : state.confirmedRegime ≠ regime) (hd : state.dwellTicks < max 5 p.dwellTimeTicks)
    (ht : ∀ tick ∈ ticks, tick.immediate = regime ∧ tick.cusumChangeDetected = true) :
    (Runs.run (step p) state ticks).confirmedRegime ≠ regime := by
  have h := Runs.invariant_run (step p)
    (I := fun s => s.confirmedRegime = state.confirmedRegime ∧ s.dwellTicks = state.dwellTicks)
    (C := fun _ tick => tick.immediate = regime ∧ tick.cusumChangeDetected = true)
    ?_ state ticks ⟨rfl, rfl⟩ (Runs.meets_of_forall _ _ _ _ (fun tick h _ => ht tick h))
  · rw [h.1]
    exact hr
  rintro s tick ⟨hsr, hsd⟩ ⟨hi, hcusum⟩
  have hnot : ¬Confirms p s tick := by
    rintro ⟨-, -, -, -, -, hdwell⟩
    rw [effectiveDwellTicks, if_pos hcusum, kCusumMinDwellTicks, hsd] at hdwell
    exact absurd hdwell (not_le.mpr hd)
  rw [step_waits p s tick (hsr ▸ hu) (by rw [hi, hsr]; exact hr.symm) hnot]
  exact ⟨hsr, hsd⟩

theorem prompt_iff (hp : p.Validated) (regime : DetailedRegime) (state : HysteresisState) :
    Prompt p state regime ↔
      (∀ confidence : F, ¬p.minConfidenceToSwitch ≤ confidence) ∨
        state.confirmedRegime = .undefined ∨ state.confirmedRegime = regime ∨
        max 5 p.dwellTimeTicks ≤ state.dwellTicks := by
  constructor
  · intro h
    by_contra hno
    push Not at hno
    obtain ⟨⟨confidence, hconf⟩, hu, hr, hd⟩ := hno
    have hall : ∀ tick ∈ List.replicate (confirmationBound p) (Tick.mk regime confidence true),
        tick = Tick.mk regime confidence true := fun tick ht => List.eq_of_mem_replicate ht
    obtain ⟨n, -, hn⟩ := h (List.replicate (confirmationBound p) ⟨regime, confidence, true⟩)
      (fun tick ht => by rw [hall tick ht]; exact ⟨rfl, hconf⟩) (List.length_replicate.ge)
    refine stuck_run p regime state _ hu hr hd (fun tick ht => ?_) hn
    rw [hall tick (List.mem_of_mem_take ht)]
    exact ⟨rfl, rfl⟩
  · rintro (hno | h)
    · intro ticks hs hlong
      have hpos := hp.1
      have hlen : 0 < ticks.length := by
        rw [confirmationBound] at hlong
        omega
      obtain ⟨tick, ht⟩ := List.exists_mem_of_length_pos hlen
      exact absurd (hs tick ht).2 (hno tick.confidence)
    · exact prompt_of_dwelt p hp regime state h

/-- A change of the confirmed regime is earned, except that undefined, once it
comes back in force, gives way to the next classification; and a steady regime is
confirmed within the bound exactly when the one in force, if it is another and not
undefined, has been agreed with for its ticks by then. -/
theorem restrained_and_prompt_iff (p : TransitionPolicy F) (hp : p.Validated)
    (ticks : List (Tick F)) (regime : DetailedRegime) :
    Runs.Meets (watch p)
        (fun w tick => w.state.confirmedRegime ≠ .undefined → Restrained p w tick) {} ticks ∧
      (Runs.Meets (watch p) (fun w tick => Started w → Restrained p w tick) {} ticks ↔
        Runs.Meets (watch p) (Settled p) {} ticks) ∧
      (Prompt p (Runs.run (watch p) {} ticks).state regime ↔
        (∀ confidence : F, ¬p.minConfidenceToSwitch ≤ confidence) ∨
          (Runs.run (watch p) {} ticks).state.confirmedRegime = .undefined ∨
          (Runs.run (watch p) {} ticks).state.confirmedRegime = regime ∨
          max 5 p.dwellTimeTicks ≤ (Runs.run (watch p) {} ticks).state.dwellTicks) :=
  ⟨set_restrained_run p ticks, started_restrained_run_iff p ticks, prompt_iff p hp regime _⟩

def firstTick : Tick ℚ := ⟨.weakUptrend, 0.7, false⟩

def trendThenChop : List (Tick ℚ) :=
  List.replicate 6 firstTick ++ List.replicate 7 ⟨.chop, 0.9, true⟩

theorem restrained_and_prompt_trendThenChop :
    Runs.Meets (watch ({} : TransitionPolicy ℚ))
        (fun w tick => w.state.confirmedRegime ≠ .undefined → Restrained {} w tick) {}
        trendThenChop ∧
      (Runs.Meets (watch ({} : TransitionPolicy ℚ))
          (fun w tick => Started w → Restrained {} w tick) {} trendThenChop ↔
        Runs.Meets (watch ({} : TransitionPolicy ℚ)) (Settled {}) {} trendThenChop) ∧
      (Prompt ({} : TransitionPolicy ℚ) (Runs.run (watch {}) {} trendThenChop).state .chop ↔
        (∀ confidence : ℚ, ¬({} : TransitionPolicy ℚ).minConfidenceToSwitch ≤ confidence) ∨
          (Runs.run (watch ({} : TransitionPolicy ℚ)) {} trendThenChop).state.confirmedRegime =
            .undefined ∨
          (Runs.run (watch ({} : TransitionPolicy ℚ)) {} trendThenChop).state.confirmedRegime =
            .chop ∨
          max 5 ({} : TransitionPolicy ℚ).dwellTimeTicks ≤
            (Runs.run (watch ({} : TransitionPolicy ℚ)) {} trendThenChop).state.dwellTicks) :=
  restrained_and_prompt_iff {} (by decide +kernel) trendThenChop .chop

/-- A regime left after one tick stays confirmed through ten steady ticks of another. -/
theorem left_early_stuck :
    ¬∀ (p : TransitionPolicy ℚ), p.Validated → ∀ (ticks : List (Tick ℚ)) (regime : DetailedRegime),
      Runs.Meets (watch p) (fun w tick => Started w → Restrained p w tick) {} ticks ∧
        Prompt p (Runs.run (watch p) {} ticks).state regime := by
  intro h
  have hsteady : Steady ({} : TransitionPolicy ℚ) .chop
      (List.replicate 10 ⟨.chop, 0.9, false⟩) := by
    intro tick ht
    rw [List.eq_of_mem_replicate ht]
    exact ⟨rfl, by decide +kernel⟩
  obtain ⟨n, hn, hconfirmed⟩ := (h {} (by decide +kernel) [firstTick] .chop).2
    (List.replicate 10 ⟨.chop, 0.9, false⟩) hsteady (by decide +kernel)
  have hbound : confirmationBound ({} : TransitionPolicy ℚ) = 10 := by decide +kernel
  rw [hbound] at hn
  have hstuck : ∀ n < 11,
      (Runs.run (step ({} : TransitionPolicy ℚ))
        (Runs.run (watch ({} : TransitionPolicy ℚ)) {} [firstTick]).state
        ((List.replicate 10 ⟨.chop, 0.9, false⟩).take n)).confirmedRegime ≠ .chop := by
    decide +kernel
  exact hstuck n (by omega) hconfirmed

end TB.Hysteresis
