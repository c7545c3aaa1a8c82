import TomorrowBot.RetryExecutor
import TomorrowBot.Runs

/-!
# What the breaker guarantees over a run

Beside the breaker a run counts the operations that are still running, the
failures since the last success and the requests admitted since the half-open
state was entered. An operation that ends without a report in the half-open
state may have been the last one that could have moved the breaker out of it.
-/

set_option autoImplicit false

namespace TB.BreakerRecovery
open TB.CommonTypes TB.Resilience

structure Guarded where
  breaker : CircuitBreaker
  now : Timestamp
  running : ℕ
  failures : ℕ
  lastFailure : Option Timestamp
  probes : ℕ
  deriving DecidableEq, Repr

def start (now : Timestamp) : Guarded := ⟨fresh, now, 0, 0, none, 0⟩

def probed (s : Guarded) (answer : CircuitBreaker × Bool) : ℕ :=
  if answer.2 = true ∧ answer.1.state = .halfOpen then
    (if s.breaker.state = .halfOpen then s.probes else 0) + 1
  else s.probes

def observe (cfg : CircuitBreakerConfig) (s : Guarded) (op : BreakerOp) : Guarded :=
  let next := { s with breaker := breakerStep cfg s.breaker op, now := op.at }
  match op with
  | .allow now =>
    let answer := allowRequest cfg now s.breaker
    { next with
      running := if answer.2 then s.running + 1 else s.running
      probes := probed s answer }
  | .success _ => { next with running := s.running - 1, failures := 0, probes := 0 }
  | .failure now =>
    { next with
      running := s.running - 1
      failures := s.failures + 1
      lastFailure := some now
      probes := 0 }
  | .unreported _ => { next with running := s.running - 1 }

def Admits (cfg : CircuitBreakerConfig) (s : Guarded) (now : Timestamp) : Prop :=
  (allowRequest cfg now s.breaker).2 = true

def Rested (cfg : CircuitBreakerConfig) (s : Guarded) (now : Timestamp) : Prop :=
  ∀ failed ∈ s.lastFailure, nowMs failed + cfg.recoveryTimeoutMs ≤ nowMs now

structure BreakerLaw (cfg : CircuitBreakerConfig) (s : Guarded) : Prop where
  shut : 0 < s.failures → cfg.failureThreshold.toInt ≤ s.failures → ∀ now, s.now ≤ now →
    ¬ Rested cfg s now → ¬ Admits cfg s now
  probes : (s.probes : ℤ) ≤ cfg.halfOpenMaxAttempts.toInt
  recovers : s.running = 0 → ∀ now, s.now ≤ now → Rested cfg s now →
    ∃ later, now ≤ later ∧ Admits cfg s later

def Clocked (s : Guarded) (op : BreakerOp) : Prop := s.now ≤ op.at

/-- In the half-open state the counter has not overflowed when a request comes,
and the last running operation does not end without a report while no attempt
is left. -/
def Reported (cfg : CircuitBreakerConfig) (s : Guarded) : BreakerOp → Prop
  | .allow _ => s.breaker.state = .halfOpen → 0 ≤ s.breaker.halfOpenAttempts
  | .unreported _ => s.breaker.state = .halfOpen →
      1 < s.running ∨ s.breaker.halfOpenAttempts < cfg.halfOpenMaxAttempts
  | _ => True

instance (s : Guarded) (op : BreakerOp) : Decidable (Clocked s op) :=
  inferInstanceAs (Decidable (s.now ≤ op.at))

instance (cfg : CircuitBreakerConfig) (s : Guarded) (op : BreakerOp) :
    Decidable (Reported cfg s op) :=
  match op with
  | .allow _ | .unreported _ => inferInstanceAs (Decidable (_ → _))
  | .success _ | .failure _ => .isTrue trivial

section Counter

theorem toInt_succ (a : Int32) :
    (a + 1).toInt = if a.toInt = 2147483647 then -2147483648 else a.toInt + 1 := by
  have hlt := a.toInt_lt
  have hle := a.le_toInt
  have hone : (1 : Int32).toInt = 1 := rfl
  rw [Int32.toInt_add, hone, Int.bmod_def]
  split_ifs <;> omega

theorem toInt_succ_of_lt (a b : Int32) (h : a < b) : (a + 1).toInt = a.toInt + 1 := by
  have hlt := b.toInt_lt
  have hab := Int32.lt_iff_toInt_lt.mp h
  rw [toInt_succ, if_neg (by omega)]

end Counter

section Invariant
variable (cfg : CircuitBreakerConfig)

structure BreakerInv (s : Guarded) : Prop where
  timed : ∀ failed ∈ s.lastFailure, failed ≤ s.now ∧ s.breaker.lastFailureTimeMs = nowMs failed
  unfailed : s.lastFailure = none → s.breaker.state = .closed ∧ s.failures = 0
  closed : s.breaker.state = .closed → s.breaker.consecutiveFailures.toInt = s.failures ∧
    (0 < s.failures → (s.failures : ℤ) < cfg.failureThreshold.toInt)
  rested : s.breaker.state = .halfOpen → Rested cfg s s.now
  probes : (s.probes : ℤ) ≤ cfg.halfOpenMaxAttempts.toInt
  counted : s.breaker.state = .halfOpen → 0 ≤ s.breaker.halfOpenAttempts →
    (s.probes : ℤ) ≤ s.breaker.halfOpenAttempts.toInt
  waiting : s.breaker.state = .halfOpen →
    0 < s.running ∨ s.breaker.halfOpenAttempts < cfg.halfOpenMaxAttempts

theorem inv_start (hmax : 1 ≤ cfg.halfOpenMaxAttempts) (now : Timestamp) :
    BreakerInv cfg (start now) where
  timed := by simp [start]
  unfailed _ := ⟨rfl, rfl⟩
  closed _ := ⟨rfl, fun h => absurd h (Nat.lt_irrefl 0)⟩
  rested h := by cases h
  probes := by
    have h := Int32.le_iff_toInt_le.mp hmax
    have hone : (1 : Int32).toInt = 1 := rfl
    show ((0 : ℕ) : ℤ) ≤ _
    omega
  counted h := by cases h
  waiting h := by cases h

variable (s : Guarded)

theorem rested_mono {now later : Timestamp} (h : now ≤ later)
    (hr : Rested cfg s now) : Rested cfg s later :=
  fun failed hf => le_trans (hr failed hf) (nowMs_mono h)

theorem opened_rested (hi : BreakerInv cfg s) (ho : s.breaker.state = .opened)
    (now : Timestamp) (hn : s.now ≤ now) :
    Rested cfg s now ↔
      cfg.recoveryTimeoutMs ≤ max 0 (nowMs now - s.breaker.lastFailureTimeMs) := by
  rcases hl : s.lastFailure with _ | failed
  · have hclosed := (hi.unfailed hl).1
    rw [ho] at hclosed
    cases hclosed
  have hmem : failed ∈ s.lastFailure := hl
  obtain ⟨hle, htime⟩ := hi.timed failed hmem
  have hpast := nowMs_mono (le_trans hle hn)
  have hone : Rested cfg s now ↔ nowMs failed + cfg.recoveryTimeoutMs ≤ nowMs now := by
    unfold Rested
    rw [hl]
    simp
  rw [hone, htime]
  omega

theorem law_of_inv (hi : BreakerInv cfg s) : BreakerLaw cfg s where
  shut hpos hthr now hn hrest hadm := by
    rcases hs : s.breaker.state with _ | _ | _
    · have hlt := (hi.closed hs).2 hpos
      omega
    · have hearly := mt (opened_rested cfg s hi hs now hn).mpr hrest
      unfold Admits at hadm
      rw [allowRequest_early cfg now s.breaker hs (not_le.mp hearly)] at hadm
      cases hadm
    · exact hrest (rested_mono cfg s hn (hi.rested hs))
  probes := hi.probes
  recovers hidle now hn hrest := by
    apply Exists.intro now
    apply And.intro le_rfl
    unfold Admits
    rcases hs : s.breaker.state with _ | _ | _
    · rw [allowRequest_closed cfg now s.breaker hs]
    · rw [allowRequest_probe cfg now s.breaker hs ((opened_rested cfg s hi hs now hn).mp hrest)]
    · rw [allowRequest_halfOpen cfg now s.breaker hs]
      have hleft := (hi.waiting hs).resolve_left (by omega)
      exact decide_eq_true hleft

end Invariant

section Steps
variable (cfg : CircuitBreakerConfig) (s : Guarded) (now : Timestamp)

theorem inv_allow_closed (hi : BreakerInv cfg s)
    (hn : s.now ≤ now) (hs : s.breaker.state = .closed) :
    BreakerInv cfg (observe cfg s (.allow now)) := by
  have hstep : observe cfg s (.allow now) = { s with now := now, running := s.running + 1 } := by
    simp [observe, breakerStep, probed, allowRequest_closed cfg now s.breaker hs, hs,
      BreakerOp.at]
  rw [hstep]
  exact {
    timed := fun failed hf => ⟨le_trans (hi.timed failed hf).1 hn, (hi.timed failed hf).2⟩
    unfailed := hi.unfailed
    closed := hi.closed
    rested := fun h => by rw [hs] at h; cases h
    probes := hi.probes
    counted := hi.counted
    waiting := fun _ => .inl (Nat.succ_pos _) }

theorem inv_allow_opened (hmax : 1 ≤ cfg.halfOpenMaxAttempts) (s : Guarded) (now : Timestamp)
    (hi : BreakerInv cfg s) (hn : s.now ≤ now) (hs : s.breaker.state = .opened) :
    BreakerInv cfg (observe cfg s (.allow now)) := by
  by_cases hlate : cfg.recoveryTimeoutMs ≤ max 0 (nowMs now - s.breaker.lastFailureTimeMs)
  · have hstep : observe cfg s (.allow now) = { s with
        breaker := { s.breaker with state := .halfOpen, halfOpenAttempts := 1 }
        now := now
        running := s.running + 1
        probes := 1 } := by
      simp [observe, breakerStep, probed, allowRequest_probe cfg now s.breaker hs hlate, hs,
        BreakerOp.at]
    have hrest := (opened_rested cfg s hi hs now hn).mpr hlate
    rw [hstep]
    exact {
      timed := fun failed hf => ⟨le_trans (hi.timed failed hf).1 hn, (hi.timed failed hf).2⟩
      unfailed := fun h => by have hc := (hi.unfailed h).1; rw [hs] at hc; cases hc
      closed := fun h => by cases h
      rested := fun _ => hrest
      probes := Int32.le_iff_toInt_le.mp hmax
      counted := fun _ _ => le_refl _
      waiting := fun _ => .inl (Nat.succ_pos _) }
  · have hstep : observe cfg s (.allow now) = { s with now := now } := by
      simp [observe, breakerStep, probed,
        allowRequest_early cfg now s.breaker hs (not_le.mp hlate), BreakerOp.at]
    rw [hstep]
    exact {
      timed := fun failed hf => ⟨le_trans (hi.timed failed hf).1 hn, (hi.timed failed hf).2⟩
      unfailed := hi.unfailed
      closed := hi.closed
      rested := fun h => by rw [hs] at h; cases h
      probes := hi.probes
      counted := hi.counted
      waiting := hi.waiting }

theorem inv_allow_halfOpen (hi : BreakerInv cfg s)
    (hn : s.now ≤ now) (hs : s.breaker.state = .halfOpen)
    (hpos : 0 ≤ s.breaker.halfOpenAttempts) :
    BreakerInv cfg (observe cfg s (.allow now)) := by
  have hcount := hi.counted hs hpos
  have htimed : ∀ failed ∈ s.lastFailure,
      failed ≤ now ∧ s.breaker.lastFailureTimeMs = nowMs failed :=
    fun failed hf => ⟨le_trans (hi.timed failed hf).1 hn, (hi.timed failed hf).2⟩
  by_cases hadm : s.breaker.halfOpenAttempts < cfg.halfOpenMaxAttempts
  · have hstep : observe cfg s (.allow now) = { s with
        breaker := { s.breaker with halfOpenAttempts := s.breaker.halfOpenAttempts + 1 }
        now := now
        running := s.running + 1
        probes := s.probes + 1 } := by
      simp [observe, breakerStep, probed, allowRequest_halfOpen cfg now s.breaker hs, hs, hadm,
        BreakerOp.at]
    have hsucc := toInt_succ_of_lt _ _ hadm
    have hlt := Int32.lt_iff_toInt_lt.mp hadm
    rw [hstep]
    exact {
      timed := htimed
      unfailed := hi.unfailed
      closed := fun h => by rw [hs] at h; cases h
      rested := fun _ => rested_mono cfg s hn (hi.rested hs)
      probes := by show ((s.probes + 1 : ℕ) : ℤ) ≤ _; omega
      counted := fun _ _ => by
        show ((s.probes + 1 : ℕ) : ℤ) ≤ (s.breaker.halfOpenAttempts + 1).toInt
        omega
      waiting := fun _ => .inl (Nat.succ_pos _) }
  · have hstep : observe cfg s (.allow now) = { s with
        breaker := { s.breaker with halfOpenAttempts := s.breaker.halfOpenAttempts + 1 }
        now := now } := by
      simp [observe, breakerStep, probed, allowRequest_halfOpen cfg now s.breaker hs, hadm,
        BreakerOp.at]
    rw [hstep]
    exact {
      timed := htimed
      unfailed := hi.unfailed
      closed := fun h => by rw [hs] at h; cases h
      rested := fun _ => rested_mono cfg s hn (hi.rested hs)
      probes := hi.probes
      counted := fun _ hnext => by
        have hzero : (0 : Int32).toInt = 0 := rfl
        have hge := Int32.le_iff_toInt_le.mp hnext
        show (s.probes : ℤ) ≤ (s.breaker.halfOpenAttempts + 1).toInt
        rw [toInt_succ] at *
        split_ifs at * <;> omega
      waiting := fun _ => .inl ((hi.waiting hs).resolve_right hadm) }

theorem inv_success (hi : BreakerInv cfg s) (hn : s.now ≤ now)
    (hmax : 1 ≤ cfg.halfOpenMaxAttempts) : BreakerInv cfg (observe cfg s (.success now)) := by
  have hopen : (recordSuccess s.breaker).state ≠ .halfOpen := by
    unfold recordSuccess
    dsimp only
    split_ifs with h
    · simp
    · exact h
  have hone : (1 : Int32).toInt = 1 := rfl
  have hpos := Int32.le_iff_toInt_le.mp hmax
  exact {
    timed := fun failed hf => ⟨le_trans (hi.timed failed hf).1 hn, (hi.timed failed hf).2⟩
    unfailed := fun h => ⟨by
      show (recordSuccess s.breaker).state = .closed
      unfold recordSuccess
      rw [(hi.unfailed h).1]
      rfl, rfl⟩
    closed := fun _ => ⟨rfl, fun h => absurd h (Nat.lt_irrefl 0)⟩
    rested := fun h => absurd h hopen
    probes := by show ((0 : ℕ) : ℤ) ≤ _; omega
    counted := fun h => absurd h hopen
    waiting := fun h => absurd h hopen }

theorem inv_failure (hi : BreakerInv cfg s)
    (hmax : 1 ≤ cfg.halfOpenMaxAttempts) : BreakerInv cfg (observe cfg s (.failure now)) := by
  have hopen : (recordFailure cfg now s.breaker).state ≠ .halfOpen := by
    unfold recordFailure
    dsimp only
    split_ifs with h
    · simp
    · exact fun hs => h (.inl hs)
  have hone : (1 : Int32).toInt = 1 := rfl
  have hpos := Int32.le_iff_toInt_le.mp hmax
  exact {
    timed := fun failed hf => by
      rw [← Option.mem_some.mp hf]
      exact ⟨le_rfl, rfl⟩
    unfailed := fun h => by cases h
    closed := fun h => by
      have hstay : s.breaker.state = .closed ∧
          ¬ cfg.failureThreshold ≤ s.breaker.consecutiveFailures + 1 := by
        revert h
        show (recordFailure cfg now s.breaker).state = .closed → _
        unfold recordFailure
        dsimp only
        split_ifs with hc
        · simp
        · exact fun hs => ⟨hs, fun hf => hc (.inr hf)⟩
      have hbelow := Int32.not_le.mp hstay.2
      have hlt := Int32.lt_iff_toInt_lt.mp hbelow
      have hcap := cfg.failureThreshold.toInt_lt
      obtain ⟨hcount, hfew⟩ := hi.closed hstay.1
      show (s.breaker.consecutiveFailures + 1).toInt = ((s.failures + 1 : ℕ) : ℤ) ∧
        (0 < s.failures + 1 → ((s.failures + 1 : ℕ) : ℤ) < cfg.failureThreshold.toInt)
      rw [toInt_succ] at *
      split_ifs at * <;> omega
    rested := fun h => absurd h hopen
    probes := by show ((0 : ℕ) : ℤ) ≤ _; omega
    counted := fun h => absurd h hopen
    waiting := fun h => absurd h hopen }

end Steps

section Runs
variable (cfg : CircuitBreakerConfig)

theorem inv_unreported (s : Guarded) (now : Timestamp) (hi : BreakerInv cfg s) (hn : s.now ≤ now)
    (hr : Reported cfg s (.unreported now)) :
    BreakerInv cfg (observe cfg s (.unreported now)) where
  timed failed hf := ⟨le_trans (hi.timed failed hf).1 hn, (hi.timed failed hf).2⟩
  unfailed := hi.unfailed
  closed := hi.closed
  rested h := rested_mono cfg s hn (hi.rested h)
  probes := hi.probes
  counted := hi.counted
  waiting h := by
    rcases hr h with hrun | hleft
    · exact .inl (Nat.sub_pos_of_lt hrun)
    · exact .inr hleft

theorem inv_observe (hmax : 1 ≤ cfg.halfOpenMaxAttempts) (s : Guarded) (op : BreakerOp)
    (hi : BreakerInv cfg s) (hc : Clocked s op ∧ Reported cfg s op) :
    BreakerInv cfg (observe cfg s op) := by
  obtain ⟨hn, hr⟩ := hc
  cases op with
  | allow now =>
    rcases hs : s.breaker.state with _ | _ | _
    · exact inv_allow_closed cfg s now hi hn hs
    · exact inv_allow_opened cfg hmax s now hi hn hs
    · exact inv_allow_halfOpen cfg s now hi hn hs (hr hs)
  | success now => exact inv_success cfg s now hi hn hmax
  | failure now => exact inv_failure cfg s now hi hmax
  | unreported now => exact inv_unreported cfg s now hi hn hr

/-- In every run whose half-open phases keep an operation that will report, or
an attempt, and do not overflow the counter, the breaker keeps its law. -/
theorem breaker_law (hmax : 1 ≤ cfg.halfOpenMaxAttempts) (now : Timestamp) (ops : List BreakerOp)
    (hclock : Runs.Meets (observe cfg) Clocked (start now) ops)
    (hreport : Runs.Meets (observe cfg) (Reported cfg) (start now) ops) :
    BreakerLaw cfg (Runs.run (observe cfg) (start now) ops) := by
  have hboth := Runs.meets_and (observe cfg) (start now) ops hclock hreport
  exact law_of_inv cfg _ (Runs.invariant_run (observe cfg) (inv_observe cfg hmax) (start now) ops
    (inv_start cfg hmax now) hboth)

/-- A half-open breaker without attempts left denies every request until an
outcome is recorded or its counter overflows. -/
theorem denied_until_overflow (later : List Timestamp) (cb : CircuitBreaker)
    (hs : cb.state = .halfOpen) (hmax : cfg.halfOpenMaxAttempts ≤ cb.halfOpenAttempts)
    (hlen : cb.halfOpenAttempts.toInt + later.length < 2147483648) (now : Timestamp) :
    (allowRequest cfg now ((later.map BreakerOp.allow).foldl (breakerStep cfg) cb)).2 = false := by
  induction later generalizing cb with
  | nil =>
    show (allowRequest cfg now cb).2 = false
    rw [allowRequest_halfOpen cfg now cb hs]
    exact decide_eq_false (Int32.not_lt.mpr hmax)
  | cons t later ih =>
    have hstep : breakerStep cfg cb (.allow t) =
        { cb with halfOpenAttempts := cb.halfOpenAttempts + 1 } :=
      congrArg Prod.fst (allowRequest_halfOpen cfg t cb hs)
    have hbound := Int32.le_iff_toInt_le.mp hmax
    rw [List.length_cons] at hlen
    have hsucc : (cb.halfOpenAttempts + 1).toInt = cb.halfOpenAttempts.toInt + 1 := by
      rw [toInt_succ, if_neg (by omega)]
    rw [List.map_cons, List.foldl_cons, hstep]
    apply ih { cb with halfOpenAttempts := cb.halfOpenAttempts + 1 } hs
    · apply Int32.le_iff_toInt_le.mpr
      rw [hsucc]
      omega
    · show (cb.halfOpenAttempts + 1).toInt + (later.length : ℤ) < 2147483648
      rw [hsucc]
      omega

def oneProbe : CircuitBreakerConfig := ⟨1, 30000, 1⟩

def lostProbe : List BreakerOp :=
  [.allow 0, .failure 0, .allow 30000000000, .unreported 30000000000]

/-- The probe that throws leaves the breaker half-open without attempts: no
later moment admits a request, whatever requests were made before it, as long as
they do not overflow the counter. -/
theorem lost_probe_blocks :
    (∀ (later : List Timestamp) (now : Timestamp), later.length < 2147483647 →
      (allowRequest oneProbe now ((later.map BreakerOp.allow).foldl (breakerStep oneProbe)
        (Runs.run (observe oneProbe) (start 0) lostProbe).breaker)).2 = false) ∧
    ¬ ∀ (cfg : CircuitBreakerConfig) (now : Timestamp) (ops : List BreakerOp),
      1 ≤ cfg.halfOpenMaxAttempts → Runs.Meets (observe cfg) Clocked (start now) ops →
      BreakerLaw cfg (Runs.run (observe cfg) (start now) ops) := by
  have hrun : Runs.run (observe oneProbe) (start 0) lostProbe =
      ⟨⟨.halfOpen, 1, 1, 0⟩, 30000000000, 0, 1, some 0, 1⟩ := by decide +kernel
  have hdenied : ∀ (later : List Timestamp) (now : Timestamp), later.length < 2147483647 →
      (allowRequest oneProbe now ((later.map BreakerOp.allow).foldl (breakerStep oneProbe)
        (Runs.run (observe oneProbe) (start 0) lostProbe).breaker)).2 = false := by
    intro later now hlen
    rw [hrun]
    apply denied_until_overflow oneProbe later _ rfl (by decide)
    have hone : (1 : Int32).toInt = 1 := rfl
    show (1 : Int32).toInt + (later.length : ℤ) < 2147483648
    omega
  apply And.intro hdenied
  intro h
  have hlaw := h oneProbe 0 lostProbe (by decide)
    ⟨by decide, by decide +kernel, by decide +kernel, by decide +kernel, trivial⟩
  have hidle : (Runs.run (observe oneProbe) (start 0) lostProbe).running = 0 := by rw [hrun]
  have hready : (Runs.run (observe oneProbe) (start 0) lostProbe).now ≤ 30000000000 := by
    rw [hrun]
  have hrested : Rested oneProbe (Runs.run (observe oneProbe) (start 0) lostProbe)
      30000000000 := by
    rw [hrun]
    unfold Rested
    decide +kernel
  obtain ⟨later, -, hadmitted⟩ := hlaw.recovers hidle 30000000000 hready hrested
  have hno := hdenied [] later (by simp)
  unfold Admits at hadmitted
  rw [List.map_nil, List.foldl_nil, hadmitted] at hno
  cases hno

theorem breaker_law_probe :
    BreakerLaw oneProbe (Runs.run (observe oneProbe) (start 0)
      [.allow 0, .failure 0, .allow 30000000000, .success 30000000000]) :=
  breaker_law oneProbe (by decide) 0 _
    ⟨by decide, by decide +kernel, by decide +kernel, by decide +kernel, trivial⟩
    ⟨by decide, trivial, by decide +kernel, trivial, trivial⟩

end Runs

end TB.BreakerRecovery
