import TomorrowBot.OperationalGuard
import TomorrowBot.Runs

/-!
# What the operational guard stops on

A divergence that persists is to stop entries, whichever symbols are checked in
between. The guard counts strikes for all symbols together, so it does as long
as the count is never behind the streak of a symbol. The reject breaker reads
the order results of the window as they were recorded.
-/

set_option autoImplicit false

namespace TB.GuardEscalation
open TB.CommonTypes TB.Guards CircularSlots RecentEntries

section History

def Records : GuardOp ℚ → Prop
  | .orderResult _ _ | .positionCheck _ _ _ _ | .venueEvent _ _ => True
  | _ => False

instance : DecidablePred Records
  | .orderResult _ _ | .positionCheck _ _ _ _ | .venueEvent _ _ => .isTrue trivial
  | .operatorHalt _ | .operatorResume | .reset => .isFalse id

def checkOf (symbol : Symbol) : GuardOp ℚ → Option (ℚ × ℚ)
  | .positionCheck _ sym localSize exchangeSize =>
    if sym = symbol then some (localSize, exchangeSize) else none
  | _ => none

def checksOf (ops : List (GuardOp ℚ)) (symbol : Symbol) : List (ℚ × ℚ) :=
  ops.filterMap (checkOf symbol)

def orderOf : GuardOp ℚ → Option Bool
  | .orderResult _ success => some success
  | _ => none

def ordersOf (ops : List (GuardOp ℚ)) : List Bool := ops.filterMap orderOf

def diverges (cfg : OperationalGuardConfig ℚ) (sizes : ℚ × ℚ) : Bool :=
  cfg.positionDivergencePct * sizes.2 < |sizes.1 - sizes.2| * 100

def limitOf (cfg : OperationalGuardConfig ℚ) : ℕ := cfg.divergenceChecksBeforeHalt.toNat

def Persists (cfg : OperationalGuardConfig ℚ) (ops : List (GuardOp ℚ)) (symbol : Symbol) : Prop :=
  Streak (limitOf cfg) true ((checksOf ops symbol).map (diverges cfg))

def streakOf (cfg : OperationalGuardConfig ℚ) (ops : List (GuardOp ℚ)) (symbol : Symbol) : ℕ :=
  streakLength true ((checksOf ops symbol).map (diverges cfg))

def rejectShare (results : List Bool) : ℚ := (results.count false : ℚ) / results.length * 100

def RejectsReach (cfg : OperationalGuardConfig ℚ) (ops : List (GuardOp ℚ)) : Prop :=
  5 ≤ (ordersOf ops).length ∧
    cfg.rejectRateThresholdPct ≤ rejectShare ((ordersOf ops).rtake (windowOf cfg))

structure Watched where
  guard : OperationalGuard
  seen : List (GuardOp ℚ)

def start : Watched := ⟨newGuard, []⟩

def watchStep (cfg : OperationalGuardConfig ℚ) (w : Watched) (op : GuardOp ℚ) : Watched :=
  ⟨guardStep cfg w.guard op, w.seen ++ [op]⟩

def StopsOnDivergence (cfg : OperationalGuardConfig ℚ) (w : Watched) : Prop :=
  ∀ symbol, Persists cfg w.seen symbol →
    ∀ shown now, (assess cfg shown w.guard now).verdict ≠ .normal

def BlocksOnRejects (cfg : OperationalGuardConfig ℚ) (w : Watched) : Prop :=
  ∀ shown now, ((assess cfg shown w.guard now).verdict = .stopEntries ∧
    (assess cfg shown w.guard now).reason = .opRejectRateBreaker) ↔ RejectsReach cfg w.seen

/-- A diverging check that is passed over leaves the strikes no further behind
than the streak it goes on; a good check takes no strike that the streak of
another symbol needs. -/
def CountsStreaks (cfg : OperationalGuardConfig ℚ) (w : Watched) : GuardOp ℚ → Prop
  | .positionCheck _ sym localSize exchangeSize =>
    if diverges cfg (localSize, exchangeSize) then
      0 < exchangeSize ∨
        min (streakOf cfg w.seen sym + 1) (limitOf cfg) ≤ w.guard.divergenceStrikes
    else 0 < exchangeSize → ∀ symbol, symbol ≠ sym →
      min (streakOf cfg w.seen symbol) (limitOf cfg) ≤ w.guard.divergenceStrikes - 1
  | _ => True

end History

section Divergence
variable {cfg : OperationalGuardConfig ℚ} (ops : List (GuardOp ℚ))

theorem persists_iff (symbol : Symbol) :
    Persists cfg ops symbol ↔ limitOf cfg ≤ streakOf cfg ops symbol := streak_iff_le _ _ _

theorem streakOf_other (op : GuardOp ℚ) (symbol : Symbol) (h : checkOf symbol op = none) :
    streakOf cfg (ops ++ [op]) symbol = streakOf cfg ops symbol := by
  simp [streakOf, checksOf, h]

theorem streakOf_check (now : Timestamp) (sym : Symbol) (l e : ℚ) :
    streakOf cfg (ops ++ [.positionCheck now sym l e]) sym =
      if diverges cfg (l, e) then streakOf cfg ops sym + 1 else 0 := by
  simp [streakOf, checksOf, checkOf, streakLength_concat]

def Covered (cfg : OperationalGuardConfig ℚ) (w : Watched) : Prop :=
  ∀ symbol, min (streakOf cfg w.seen symbol) (limitOf cfg) ≤ w.guard.divergenceStrikes

theorem diverges_iff (l e : ℚ) (he : 0 < e) :
    cfg.positionDivergencePct < stdAbs (l - e) / e * 100.0 ↔ diverges cfg (l, e) = true := by
  have habs : stdAbs (l - e) = |l - e| := by
    unfold stdAbs
    split_ifs with hneg
    · exact (abs_of_neg hneg).symm
    · exact (abs_of_nonneg (not_lt.mp hneg)).symm
  have hscale : |l - e| / e * 100.0 = |l - e| * 100 / e := by
    rw [div_mul_eq_mul_div]
    norm_num
  rw [habs, hscale, lt_div_iff₀ he, diverges, decide_eq_true_eq]

theorem recordPositionCheck_strikes (now : Timestamp) (g : OperationalGuard) (l e : ℚ) :
    (recordPositionCheck cfg now g l e).divergenceStrikes =
      if e ≤ 0 then g.divergenceStrikes
      else if diverges cfg (l, e) then g.divergenceStrikes + 1 else g.divergenceStrikes - 1 := by
  unfold recordPositionCheck
  dsimp only
  by_cases he : e ≤ 0
  · rw [if_pos he, if_pos he]
  · simp only [if_neg he, diverges_iff l e (not_le.mp he)]
    split_ifs <;> rfl

/-- One operation that is recorded and counts the streaks keeps them covered. -/
theorem covered_step (w : Watched) (op : GuardOp ℚ) (h : Covered cfg w)
    (hcond : CountsStreaks cfg w op ∧ Records op) : Covered cfg (watchStep cfg w op) := by
  intro symbol
  obtain ⟨hcount, hrec⟩ := hcond
  have hold := h symbol
  cases op with
  | orderResult now success =>
    have hstrikes : (recordOrderResult cfg now w.guard success).divergenceStrikes =
        w.guard.divergenceStrikes := by
      unfold recordOrderResult
      dsimp only
      split_ifs <;> rfl
    simp only [watchStep, guardStep, hstrikes]
    rwa [streakOf_other w.seen _ symbol rfl]
  | venueEvent now healthy =>
    have hstrikes : (recordVenueEvent now w.guard healthy).divergenceStrikes =
        w.guard.divergenceStrikes := by
      unfold recordVenueEvent
      dsimp only
      split_ifs <;> rfl
    simp only [watchStep, guardStep, hstrikes]
    rwa [streakOf_other w.seen _ symbol rfl]
  | positionCheck now sym l e =>
    simp only [watchStep, guardStep, recordPositionCheck_strikes]
    simp only [CountsStreaks] at hcount
    by_cases hsym : sym = symbol
    · subst hsym
      rw [streakOf_check]
      by_cases hd : diverges cfg (l, e) = true
      · simp only [hd, if_true] at hcount ⊢
        split_ifs with he
        · exact hcount.resolve_left (not_lt.mpr he)
        · omega
      · rw [if_neg hd, Nat.zero_min]
        exact Nat.zero_le _
    · rw [streakOf_other w.seen _ symbol (by simp [checkOf, hsym])]
      split_ifs with he hd
      · exact hold
      · omega
      · rw [if_neg hd] at hcount
        exact hcount (not_le.mp he) symbol (Ne.symm hsym)
  | operatorHalt | operatorResume | reset => exact hrec.elim

/-- Strikes at the limit stop the entries, whatever else is the case. -/
theorem assess_strikes (g : OperationalGuard) (shown : ℚ → String) (now : Timestamp)
    (h : limitOf cfg ≤ g.divergenceStrikes) : (assess cfg shown g now).verdict ≠ .normal := by
  have hlimit : cfg.divergenceChecksBeforeHalt ≤ (g.divergenceStrikes : ℤ) := by
    unfold limitOf at h
    omega
  unfold assess stopEntries
  rw [if_pos hlimit]
  split_ifs <;> simp

theorem stops_of_covered (w : Watched) (h : Covered cfg w) : StopsOnDivergence cfg w := by
  intro symbol hpersists shown now
  rw [persists_iff] at hpersists
  have hcovered := h symbol
  exact assess_strikes w.guard shown now (by omega)

end Divergence

section Rejects
variable {cfg : OperationalGuardConfig ℚ}

structure Recorded (cfg : OperationalGuardConfig ℚ) (w : Watched) : Prop where
  kept : Kept (windowOf cfg) w.guard.orderResults (ordersOf w.seen)
  idx : w.guard.resultIdx = (ordersOf w.seen).length
  running : w.guard.operatorHalted = false

theorem recorded_start : Recorded cfg start := ⟨kept_nil _ _, rfl, rfl⟩

variable (w : Watched)

theorem recorded_step (op : GuardOp ℚ) (h : Recorded cfg w) (hrec : Records op) :
    Recorded cfg (watchStep cfg w op) := by
  have hsame : ∀ g : OperationalGuard, orderOf op = none →
      g.orderResults = w.guard.orderResults → g.resultIdx = w.guard.resultIdx →
      g.operatorHalted = w.guard.operatorHalted → Recorded cfg ⟨g, w.seen ++ [op]⟩ := by
    intro g hop hslots hidx hhalted
    have horders : ordersOf (w.seen ++ [op]) = ordersOf w.seen := by simp [ordersOf, hop]
    exact ⟨by rw [horders, hslots]; exact h.kept, by rw [horders, hidx, h.idx],
      hhalted.trans h.running⟩
  cases op with
  | orderResult now success =>
    have horders : ordersOf (w.seen ++ [.orderResult now success]) =
        ordersOf w.seen ++ [success] := by simp [ordersOf, orderOf]
    have hpushed := kept_push h.kept success
    rw [← h.idx] at hpushed
    have hidx : w.guard.resultIdx + 1 = (ordersOf w.seen ++ [success]).length := by
      rw [List.length_append, h.idx]
      rfl
    have hrecorded : ∀ g : OperationalGuard, g.orderResults = Function.update
        w.guard.orderResults (w.guard.resultIdx % windowOf cfg) success →
        g.resultIdx = w.guard.resultIdx + 1 → g.operatorHalted = w.guard.operatorHalted →
        Recorded cfg ⟨g, w.seen ++ [.orderResult now success]⟩ := by
      intro g hslots hnext hhalted
      exact ⟨by rw [horders, hslots]; exact hpushed, by rw [horders, hnext, hidx],
        hhalted.trans h.running⟩
    simp only [watchStep, guardStep]
    unfold recordOrderResult
    dsimp only
    split_ifs
    · exact hrecorded _ rfl rfl rfl
    · exact hrecorded _ rfl rfl rfl
    · exact hrecorded _ rfl rfl rfl
  | venueEvent now healthy =>
    simp only [watchStep, guardStep]
    unfold recordVenueEvent
    dsimp only
    split_ifs
    · exact hsame _ rfl rfl rfl rfl
    · exact hsame _ rfl rfl rfl rfl
    · exact hsame _ rfl rfl rfl rfl
  | positionCheck now sym l e =>
    simp only [watchStep, guardStep]
    unfold recordPositionCheck
    dsimp only
    split_ifs
    · exact hsame _ rfl rfl rfl rfl
    · exact hsame _ rfl rfl rfl rfl
    · exact hsame _ rfl rfl rfl rfl
    · exact hsame _ rfl rfl rfl rfl
  | operatorHalt | operatorResume | reset => exact hrec.elim

/-- The flags are read from the first slot on, which counts the same rejects. -/
theorem rejects_eq (h : Recorded cfg w) :
    rejects cfg w.guard = ((ordersOf w.seen).rtake (windowOf cfg)).count false := by
  rw [rejects, totalOrders, h.idx]
  exact (kept_perm h.kept).count_eq false

theorem totalOrders_eq (h : Recorded cfg w) :
    totalOrders cfg w.guard = ((ordersOf w.seen).rtake (windowOf cfg)).length := by
  rw [totalOrders, h.idx, List.rtake, List.length_drop]
  omega

theorem rejectRate_eq (h : Recorded cfg w) (hsome : 0 < totalOrders cfg w.guard) :
    rejectRate cfg w.guard = rejectShare ((ordersOf w.seen).rtake (windowOf cfg)) := by
  have hhundred : (100.0 : ℚ) = 100 := by norm_num
  rw [rejectRate, if_pos hsome, rejects_eq w h, totalOrders_eq w h, rejectShare, hhundred]
  rfl

theorem rejectBreaker_iff (h : Recorded cfg w) :
    rejectBreaker cfg w.guard = true ↔ 5 ≤ windowOf cfg ∧ RejectsReach cfg w.seen := by
  rw [rejectBreaker, Bool.and_eq_true, decide_eq_true_eq, decide_eq_true_eq, RejectsReach]
  have htotal : totalOrders cfg w.guard = min (ordersOf w.seen).length (windowOf cfg) := by
    rw [totalOrders, h.idx]
  constructor
  · rintro ⟨hrate, hfive⟩
    rw [rejectRate_eq w h (by omega)] at hrate
    exact ⟨by omega, by omega, hrate⟩
  · rintro ⟨hwindow, hfive, hshare⟩
    have hsome : 5 ≤ totalOrders cfg w.guard := by omega
    rw [rejectRate_eq w h (by omega)]
    exact ⟨hshare, hsome⟩

theorem assess_rejects (h : Recorded cfg w) (shown : ℚ → String) (now : Timestamp) :
    ((assess cfg shown w.guard now).verdict = .stopEntries ∧
      (assess cfg shown w.guard now).reason = .opRejectRateBreaker) ↔
        rejectBreaker cfg w.guard = true := by
  unfold assess stopEntries reduceRisk
  simp only [h.running, Bool.false_eq_true, if_false]
  split_ifs with hbreaker <;> simp [hbreaker]

/-- A window of less than five orders never blocks. -/
theorem blocks_iff (h : Recorded cfg w) :
    BlocksOnRejects cfg w ↔ (5 ≤ windowOf cfg ∨ ¬ RejectsReach cfg w.seen) := by
  simp only [BlocksOnRejects, assess_rejects w h, rejectBreaker_iff w h]
  constructor
  · intro hall
    have hone := hall (fun _ => "") 0
    tauto
  · intro hcase _ _
    tauto

end Rejects

section Runs

/-- Where every operation counts the streaks, a divergence that persists stops the
entries in every state of the run; and in every state the reject rate blocks as
recorded, unless the window holds less than five orders and the rate is reached. -/
theorem guard_stops (cfg : OperationalGuardConfig ℚ) (ops : List (GuardOp ℚ))
    (hrec : ∀ op ∈ ops, Records op) :
    (Runs.Meets (watchStep cfg) (CountsStreaks cfg) start ops →
      Runs.Always (watchStep cfg) (StopsOnDivergence cfg) start ops) ∧
    Runs.Always (watchStep cfg) (fun w => BlocksOnRejects cfg w ↔
      (5 ≤ windowOf cfg ∨ ¬ RejectsReach cfg w.seen)) start ops := by
  constructor
  · intro hmeets
    have hcond := Runs.meets_and_forall (watchStep cfg) start ops hmeets hrec
    have hcovered := Runs.always_of_meets (watchStep cfg) (fun w op => covered_step w op) start ops
      (fun _ => Nat.zero_le _) hcond
    exact Runs.always_mono (watchStep cfg) stops_of_covered start ops hcovered
  · have hcond := Runs.meets_and_forall (watchStep cfg) start ops
      (Runs.meets_true (watchStep cfg) start ops) hrec
    have hrecorded := Runs.always_of_meets (watchStep cfg)
      (fun w op hw hop => recorded_step w op hw hop.2) start ops recorded_start hcond
    exact Runs.always_mono (watchStep cfg) blocks_iff start ops hrecorded

def threeChecks : OperationalGuardConfig ℚ := ⟨25, 20, 3, 0.5, 1, 3, 60000⟩

def persistent : List (GuardOp ℚ) :=
  [.positionCheck 1 "BTCUSDT" 5 1, .positionCheck 2 "BTCUSDT" 5 1, .positionCheck 3 "BTCUSDT" 5 1]

theorem guard_stops_persistent :
    Runs.Always (watchStep threeChecks) (StopsOnDivergence threeChecks) start persistent := by
  have hcheck : ∀ w now, CountsStreaks threeChecks w (.positionCheck now "BTCUSDT" 5 1) := by
    intro w now
    have hd : diverges threeChecks (5, 1) = true := by decide +kernel
    simp only [CountsStreaks, hd, if_true]
    exact .inl (by norm_num)
  exact (guard_stops threeChecks persistent (by decide)).1
    ⟨hcheck _ 1, hcheck _ 2, hcheck _ 3, trivial⟩

def unseen : List (GuardOp ℚ) :=
  [.positionCheck 1 "BTCUSDT" 5 0, .positionCheck 2 "BTCUSDT" 5 0, .positionCheck 3 "BTCUSDT" 5 0]

def alternating : List (GuardOp ℚ) :=
  [.positionCheck 1 "BTCUSDT" 5 1, .positionCheck 2 "ETHUSDT" 1 1, .positionCheck 3 "BTCUSDT" 5 1,
    .positionCheck 4 "ETHUSDT" 1 1, .positionCheck 5 "BTCUSDT" 5 1]

def fourOrders : OperationalGuardConfig ℚ := { threeChecks with rejectWindowOrders := 4 }

def rejected : List (GuardOp ℚ) := List.replicate 5 (.orderResult 1 false)

theorem divergence_goes_on :
    ¬ StopsOnDivergence threeChecks (Runs.run (watchStep threeChecks) start unseen) ∧
      ¬ StopsOnDivergence threeChecks (Runs.run (watchStep threeChecks) start alternating) ∧
      ¬ BlocksOnRejects fourOrders (Runs.run (watchStep fourOrders) start rejected) := by
  have hpersists : Persists threeChecks unseen "BTCUSDT" ∧
      Persists threeChecks alternating "BTCUSDT" := by
    rw [persists_iff, persists_iff]
    decide +kernel
  refine ⟨?_, ?_, ?_⟩
  · intro h
    exact h "BTCUSDT" hpersists.1 (fun _ => "") 0 (by decide +kernel)
  · intro h
    exact h "BTCUSDT" hpersists.2 (fun _ => "") 0 (by decide +kernel)
  · intro h
    have hreach : RejectsReach fourOrders
        (Runs.run (watchStep fourOrders) start rejected).seen :=
      ⟨by decide +kernel, by decide +kernel⟩
    exact absurd ((h (fun _ => "") 0).mpr hreach) (by decide +kernel)

end Runs

end TB.GuardEscalation
