import Mathlib.Analysis.Convex.Segment
import Mathlib.Tactic.Linarith
import Mathlib.Tactic.NormNum.OfScientific
import TomorrowBot.DoubleFunctions

/-!
# The sampler of entry timing

Four arms, one for each delay of an entry. A selection counts a pull of the arm
it returns, a reward moves the parameters and the average of its arm, and after a
number of rewards every arm is decayed.
-/

set_option autoImplicit false

namespace TB.ThompsonSampler
open TB.CommonTypes

inductive EntryAction where
  | enterNow
  | waitOnePeriod
  | waitTwoPeriods
  | waitThreePeriods
  | skip
  deriving DecidableEq

structure BetaArm (F : Type) where
  action : EntryAction
  alpha : F
  beta : F
  pulls : ℕ
  rewardCount : ℕ
  avgReward : F
  cumulativeReward : F
  consecutiveLosses : ℕ

structure ThompsonConfig (F : Type) where
  rewardThreshold : F
  decayFactor : F
  minPulls : ℕ
  decayInterval : ℕ
  magnitudeBonus : F

structure Sampler (F : Type) where
  arms : List (BetaArm F)
  totalRewards : ℕ
  recordsSinceDecay : ℕ

inductive Event (F : Type) where
  | selectAction (draws : ℕ → F)
  | recordReward (action : EntryAction) (reward : F)
  | resetArm (action : EntryAction)

def entryActions : List EntryAction :=
  [.enterNow, .waitOnePeriod, .waitTwoPeriods, .waitThreePeriods]

section Model
variable {F : Type} [DoubleRounding F]

def newArm (action : EntryAction) : BetaArm F := ⟨action, 1.0, 1.0, 0, 0, 0.0, 0.0, 0⟩

def newSampler : Sampler F := ⟨entryActions.map newArm, 0, 0⟩

def defaultConfig : ThompsonConfig F := ⟨0.0, 0.995, 5, 10, 0.5⟩

variable (cfg : ThompsonConfig F)

def leastPulled (least : Option (ℕ × ℕ)) (i : ℕ) : List (BetaArm F) → Option (ℕ × ℕ)
  | [] => least
  | arm :: arms =>
    if arm.pulls < cfg.minPulls ∧ ∀ found ∈ least, arm.pulls < found.2 then
      leastPulled (some (i, arm.pulls)) (i + 1) arms
    else leastPulled least (i + 1) arms

def largestDraw (draws : ℕ → F) (bestSample : F) (bestIdx i : ℕ) : List (BetaArm F) → ℕ
  | [] => bestIdx
  | _ :: arms =>
    if bestSample < draws i then largestDraw draws (draws i) i (i + 1) arms
    else largestDraw draws bestSample bestIdx (i + 1) arms

def selectedIdx (s : Sampler F) (draws : ℕ → F) : ℕ :=
  match leastPulled cfg none 0 s.arms with
  | some (minIdx, _) => minIdx
  | none => largestDraw draws (-1.0) 0 0 s.arms

def selectAction (s : Sampler F) (draws : ℕ → F) : EntryAction × Sampler F :=
  if s.totalRewards = 0 then (.enterNow, s)
  else
    let idx := selectedIdx cfg s draws
    ((s.arms.getD idx (newArm .enterNow)).action,
      { s with arms := s.arms.modify idx fun arm => { arm with pulls := arm.pulls + 1 } })

def updateFirst (action : EntryAction) (f : BetaArm F → BetaArm F) :
    List (BetaArm F) → List (BetaArm F)
  | [] => []
  | arm :: arms => if arm.action = action then f arm :: arms else arm :: updateFirst action f arms

def kRewardMagCap : F := 1.0

def rewardArm (reward : F) (arm : BetaArm F) : BetaArm F :=
  let rewardCount := arm.rewardCount + 1
  let mag := stdMin (stdAbs reward) kRewardMagCap
  let w := 1.0 / ofInt rewardCount
  { arm with
    rewardCount := rewardCount
    alpha := if cfg.rewardThreshold < reward then arm.alpha + (1.0 + cfg.magnitudeBonus * mag)
      else arm.alpha
    beta := if cfg.rewardThreshold < reward then arm.beta
      else arm.beta + (1.0 + cfg.magnitudeBonus * mag)
    consecutiveLosses := if cfg.rewardThreshold < reward then 0 else arm.consecutiveLosses + 1
    avgReward := (1.0 - w) * arm.avgReward + w * reward
    cumulativeReward := arm.cumulativeReward + reward }

def decayArm (arm : BetaArm F) : BetaArm F :=
  { arm with
    alpha := stdMax 1.0 (arm.alpha * cfg.decayFactor)
    beta := stdMax 1.0 (arm.beta * cfg.decayFactor)
    rewardCount := max 1 (arm.rewardCount / 2) }

def applyDecay (s : Sampler F) : Sampler F := { s with arms := s.arms.map (decayArm cfg) }

def DecayDue (s : Sampler F) : Prop := max 1 cfg.decayInterval ≤ s.recordsSinceDecay + 1

instance (s : Sampler F) : Decidable (DecayDue cfg s) := inferInstanceAs (Decidable (_ ≤ _))

def recordReward (s : Sampler F) (action : EntryAction) (reward : F) : Sampler F :=
  if isfinite reward = false then s
  else
    let recorded : Sampler F :=
      { arms := updateFirst action (rewardArm cfg reward) s.arms
        totalRewards := s.totalRewards + 1
        recordsSinceDecay := s.recordsSinceDecay + 1 }
    if DecayDue cfg s then { applyDecay cfg recorded with recordsSinceDecay := 0 } else recorded

def clearArm (arm : BetaArm F) : BetaArm F :=
  { arm with
    alpha := 1.0
    beta := 1.0
    pulls := 0
    rewardCount := 0
    avgReward := 0.0
    cumulativeReward := 0.0
    consecutiveLosses := 0 }

def resetArm (s : Sampler F) (action : EntryAction) : Sampler F :=
  { s with arms := updateFirst action clearArm s.arms }

def step (s : Sampler F) : Event F → Sampler F
  | .selectAction draws => (selectAction cfg s draws).2
  | .recordReward action reward => recordReward cfg s action reward
  | .resetArm action => resetArm s action

def run (s : Sampler F) (events : List (Event F)) : Sampler F := events.foldl (step cfg) s

end Model

section Loops
variable {F : Type} {cfg : ThompsonConfig F} {arms : List (BetaArm F)} {s : Sampler F}

theorem map_other {action : EntryAction} (f : BetaArm F → BetaArm F)
    (h : action ∉ arms.map BetaArm.action) :
    arms.map (fun arm => if arm.action = action then f arm else arm) = arms := by
  refine (List.map_congr_left fun arm harm => ?_).trans (List.map_id arms)
  apply if_neg
  intro haction
  rw [← haction] at h
  exact h (List.mem_map_of_mem harm)

/-- With one arm for every action, the loop that ends at the first is a map. -/
theorem updateFirst_eq_map (action : EntryAction) (f : BetaArm F → BetaArm F)
    (h : (arms.map BetaArm.action).Nodup) : updateFirst action f arms =
      arms.map (fun arm => if arm.action = action then f arm else arm) := by
  induction arms with
  | nil => rfl
  | cons arm arms ih =>
    rw [List.map_cons, List.nodup_cons] at h
    rw [updateFirst, List.map_cons]
    split_ifs with haction
    · rw [map_other f (haction ▸ h.1)]
    · rw [ih h.2]

theorem modify_eq_map (f : BetaArm F → BetaArm F) (h : (arms.map BetaArm.action).Nodup)
    {idx : ℕ} {chosen : BetaArm F} (hidx : arms[idx]? = some chosen) : arms.modify idx f =
      arms.map (fun arm => if arm.action = chosen.action then f arm else arm) := by
  induction arms generalizing idx with
  | nil => exact nomatch hidx
  | cons arm arms ih =>
    rw [List.map_cons, List.nodup_cons] at h
    cases idx with
    | zero =>
      rw [← Option.some_injective _ hidx, List.modify_zero_cons, List.map_cons, if_pos rfl,
        map_other f h.1]
    | succ idx =>
      have hne : arm.action ≠ chosen.action := fun heq =>
        h.1 (heq ▸ List.mem_map_of_mem (List.mem_of_getElem? hidx))
      rw [List.modify_succ_cons, ih h.2 hidx, List.map_cons, if_neg hne]

/-- An index that the scan finds is of an arm below the minimum; when it finds none there
is no such arm. -/
theorem leastPulled_spec (cfg : ThompsonConfig F) (least : Option (ℕ × ℕ)) (i : ℕ)
    (arms : List (BetaArm F)) :
    (∀ found, leastPulled cfg least i arms = some found → least = some found ∨
      ∃ arm, ∃ k, arms[k]? = some arm ∧ found = (i + k, arm.pulls) ∧ arm.pulls < cfg.minPulls) ∧
    (leastPulled cfg least i arms = none →
      least = none ∧ ∀ arm ∈ arms, cfg.minPulls ≤ arm.pulls) := by
  induction arms generalizing least i with
  | nil => exact ⟨fun found h => Or.inl h, fun h => ⟨h, nofun⟩⟩
  | cons arm arms ih =>
    rw [leastPulled]
    split_ifs with h
    · obtain ⟨hsome, hnone⟩ := ih (some (i, arm.pulls)) (i + 1)
      refine ⟨fun found hfound => Or.inr ?_, fun hfound => nomatch (hnone hfound).1⟩
      rcases hsome found hfound with heq | ⟨other, k, hk, heq, hlt⟩
      · exact ⟨arm, 0, rfl, (Option.some_injective _ heq).symm, h.1⟩
      · exact ⟨other, k + 1, hk, by rw [heq]; congr 1; omega, hlt⟩
    · obtain ⟨hsome, hnone⟩ := ih least (i + 1)
      constructor
      · intro found hfound
        rcases hsome found hfound with heq | ⟨other, k, hk, heq, hlt⟩
        · exact Or.inl heq
        · exact Or.inr ⟨other, k + 1, hk, by rw [heq]; congr 1; omega, hlt⟩
      · intro hfound
        obtain ⟨hleast, hrest⟩ := hnone hfound
        refine ⟨hleast, fun other hother => ?_⟩
        rcases List.mem_cons.mp hother with rfl | hother
        · rw [hleast] at h
          by_contra hlt
          exact h ⟨not_le.mp hlt, nofun⟩
        · exact hrest other hother

theorem largestDraw_lt [DoubleRounding F] (draws : ℕ → F) (bestSample : F) (bestIdx i : ℕ)
    (arms : List (BetaArm F)) (h : bestIdx < i + arms.length) :
    largestDraw draws bestSample bestIdx i arms < i + arms.length := by
  induction arms generalizing bestSample bestIdx i with
  | nil => exact h
  | cons arm arms ih =>
    rw [List.length_cons] at h ⊢
    rw [largestDraw]
    split_ifs
    · exact (ih _ _ _ (by omega)).trans_eq (by omega)
    · exact (ih _ _ _ (by omega)).trans_eq (by omega)

def Armed (s : Sampler F) : Prop := s.arms.map BetaArm.action = entryActions

theorem Armed.nodup (h : Armed s) : (s.arms.map BetaArm.action).Nodup := by
  rw [h]
  decide

theorem Armed.length (h : Armed s) : s.arms.length = 4 := by
  have hlength := congrArg List.length h
  rwa [List.length_map] at hlength

theorem Armed.map (h : Armed s) {g : BetaArm F → BetaArm F}
    (hg : ∀ arm, (g arm).action = arm.action) {s' : Sampler F} (hs : s'.arms = s.arms.map g) :
    Armed s' := by
  rw [Armed, hs, List.map_map, ← h]
  exact List.map_congr_left fun arm _ => hg arm

def pullArm (action : EntryAction) (arm : BetaArm F) : BetaArm F :=
  if arm.action = action then { arm with pulls := arm.pulls + 1 } else arm

theorem pullArm_action (action : EntryAction) (arm : BetaArm F) :
    (pullArm action arm).action = arm.action := by
  unfold pullArm
  split_ifs <;> rfl

end Loops

section Steps
variable {F : Type} [DoubleRounding F] {cfg : ThompsonConfig F} {s : Sampler F}

/-- The arm that is selected is one of the arms, below the minimum while there is one. -/
theorem selectedIdx_arm (cfg : ThompsonConfig F) (h : Armed s) (draws : ℕ → F) :
    ∃ arm, s.arms[selectedIdx cfg s draws]? = some arm ∧
      ((∀ other ∈ s.arms, cfg.minPulls ≤ other.pulls) ∨ arm.pulls < cfg.minPulls) := by
  obtain ⟨hsome, hnone⟩ := leastPulled_spec cfg none 0 s.arms
  rw [selectedIdx]
  cases hleast : leastPulled cfg none 0 s.arms with
  | some found =>
    rcases hsome found hleast with heq | ⟨arm, k, hk, rfl, hlt⟩
    · exact nomatch heq
    · exact ⟨arm, by simpa using hk, Or.inr hlt⟩
  | none =>
    have hlt := largestDraw_lt draws (-1.0) 0 0 s.arms (by rw [h.length]; decide)
    rw [Nat.zero_add] at hlt
    exact ⟨_, List.getElem?_eq_getElem hlt, Or.inl (hnone hleast).2⟩

/-- What a selection does once there was a reward: one pull for the arm it returns. -/
theorem selectAction_eq (cfg : ThompsonConfig F) (h : Armed s) (hrewards : 0 < s.totalRewards)
    (draws : ℕ → F) :
    ∃ arm ∈ s.arms, selectAction cfg s draws =
        (arm.action, { s with arms := s.arms.map (pullArm arm.action) }) ∧
      ((∀ other ∈ s.arms, cfg.minPulls ≤ other.pulls) ∨ arm.pulls < cfg.minPulls) := by
  obtain ⟨arm, harm, hpulls⟩ := selectedIdx_arm cfg h draws
  refine ⟨arm, List.mem_of_getElem? harm, ?_, hpulls⟩
  rw [selectAction, if_neg hrewards.ne']
  simp only [List.getD_eq_getElem?_getD, harm, Option.getD_some, modify_eq_map _ h.nodup harm]
  rfl

def recordedArm (cfg : ThompsonConfig F) (s : Sampler F) (action : EntryAction) (reward : F)
    (arm : BetaArm F) : BetaArm F :=
  let rewarded := if arm.action = action then rewardArm cfg reward arm else arm
  if DecayDue cfg s then decayArm cfg rewarded else rewarded

theorem recordReward_arms (h : Armed s) {reward : F} (hfinite : isfinite reward = true)
    (action : EntryAction) : (recordReward cfg s action reward).arms =
      s.arms.map (recordedArm cfg s action reward) := by
  rw [recordReward, if_neg (by rw [hfinite]; exact nofun)]
  unfold recordedArm
  split_ifs
  · simp only [applyDecay, updateFirst_eq_map action _ h.nodup, List.map_map]
    rfl
  · exact updateFirst_eq_map action _ h.nodup

theorem recordReward_total {reward : F} (hfinite : isfinite reward = true)
    (action : EntryAction) :
    (recordReward cfg s action reward).totalRewards = s.totalRewards + 1 := by
  rw [recordReward, if_neg (by rw [hfinite]; exact nofun)]
  split_ifs <;> rfl

theorem recordedArm_action (action : EntryAction) (reward : F) (arm : BetaArm F) :
    (recordedArm cfg s action reward arm).action = arm.action := by
  unfold recordedArm
  split_ifs <;> rfl

theorem recordedArm_pulls (action : EntryAction) (reward : F) (arm : BetaArm F) :
    (recordedArm cfg s action reward arm).pulls = arm.pulls := by
  unfold recordedArm
  split_ifs <;> rfl

theorem resetArm_arms (h : Armed s) (action : EntryAction) : (resetArm s action).arms =
    s.arms.map (fun arm => if arm.action = action then clearArm arm else arm) :=
  updateFirst_eq_map action _ h.nodup

end Steps

section Statistics
variable {cfg : ThompsonConfig ℚ} {arm : BetaArm ℚ} {rewards : List ℚ}

def AverageOf (rewards : List ℚ) (avg : ℚ) : Prop :=
  if rewards = [] then avg = 0 else (∃ r ∈ rewards, r ≤ avg) ∧ ∃ r ∈ rewards, avg ≤ r

structure Tracks (rewards : List ℚ) (arm : BetaArm ℚ) : Prop where
  alpha : 1 ≤ arm.alpha
  beta : 1 ≤ arm.beta
  blank : rewards = [] → arm.avgReward = 0
  counted : rewards ≠ [] → 1 ≤ arm.rewardCount

theorem Tracks.pull (h : Tracks rewards arm) (action : EntryAction) :
    Tracks rewards (pullArm action arm) := by
  unfold pullArm
  split_ifs
  · exact { h with }
  · exact h

theorem tracks_clear (arm : BetaArm ℚ) : Tracks [] (clearArm arm) where
  alpha := by norm_num [clearArm]
  beta := by norm_num [clearArm]
  blank _ := by norm_num [clearArm]
  counted h := absurd rfl h

theorem rewardArm_avg (cfg : ThompsonConfig ℚ) (r : ℚ) (arm : BetaArm ℚ) :
    (rewardArm cfg r arm).avgReward =
      (1 - 1 / (arm.rewardCount + 1 : ℚ)) * arm.avgReward + 1 / (arm.rewardCount + 1 : ℚ) * r := by
  have hcount : (ofInt (arm.rewardCount + 1 : ℕ) : ℚ) = arm.rewardCount + 1 := by
    change ((arm.rewardCount + 1 : ℕ) : ℤ) = (_ : ℚ)
    push_cast
    rfl
  have hone : (1.0 : ℚ) = 1 := by norm_num
  simp only [rewardArm, hcount, hone]

theorem rewardArm_between (cfg : ThompsonConfig ℚ) (r : ℚ) (arm : BetaArm ℚ) :
    min arm.avgReward r ≤ (rewardArm cfg r arm).avgReward ∧
      (rewardArm cfg r arm).avgReward ≤ max arm.avgReward r := by
  have hweight : 1 / (arm.rewardCount + 1 : ℚ) ≤ 1 := by
    rw [div_le_one (by positivity)]
    simp
  have hrest : 0 ≤ 1 - 1 / (arm.rewardCount + 1 : ℚ) := sub_nonneg.mpr hweight
  rw [rewardArm_avg]
  exact ⟨Convex.min_le_combo _ r hrest (by positivity) (sub_add_cancel 1 _),
    Convex.combo_le_max _ r hrest (by positivity) (sub_add_cancel 1 _)⟩

/-- A reward adds at least nothing to a parameter. -/
theorem increment_nonneg (hbonus : -1 ≤ cfg.magnitudeBonus) (r : ℚ) :
    0 ≤ 1.0 + cfg.magnitudeBonus * stdMin (stdAbs r) kRewardMagCap := by
  have hone : (1.0 : ℚ) = 1 := by norm_num
  have hmag : 0 ≤ min |r| (1 : ℚ) := le_min (abs_nonneg r) zero_le_one
  have hcap : min |r| (1 : ℚ) ≤ 1 := min_le_right _ _
  rw [stdMin_rat, stdAbs_rat, kRewardMagCap, hone]
  nlinarith

theorem Tracks.reward (h : Tracks rewards arm) (hbonus : -1 ≤ cfg.magnitudeBonus) (r : ℚ) :
    Tracks (rewards ++ [r]) (rewardArm cfg r arm) where
  alpha := by
    have hadd := increment_nonneg hbonus r
    simp only [rewardArm]
    split_ifs
    · linarith [h.alpha]
    · exact h.alpha
  beta := by
    have hadd := increment_nonneg hbonus r
    simp only [rewardArm]
    split_ifs
    · exact h.beta
    · linarith [h.beta]
  blank hnil := absurd hnil (List.append_ne_nil_of_right_ne_nil _ (List.cons_ne_nil r []))
  counted _ := Nat.le_add_left 1 arm.rewardCount

/-- The first reward since a reset is the average exactly if no other one was counted. -/
theorem first_average_iff (hblank : arm.avgReward = 0) (r : ℚ) :
    AverageOf [r] (rewardArm cfg r arm).avgReward ↔ arm.rewardCount = 0 ∨ r = 0 := by
  have hcount : (arm.rewardCount + 1 : ℚ) ≠ 0 := by positivity
  simp only [AverageOf, List.cons_ne_nil, if_false, List.mem_singleton, exists_eq_left]
  rw [← eq_comm.trans le_antisymm_iff, rewardArm_avg, hblank, mul_zero, zero_add,
    one_div, inv_mul_eq_iff_eq_mul₀ hcount, add_mul, one_mul, right_eq_add, mul_eq_zero,
    Nat.cast_eq_zero]

theorem AverageOf.reward (h : AverageOf rewards arm.avgReward) (hne : rewards ≠ []) (r : ℚ) :
    AverageOf (rewards ++ [r]) (rewardArm cfg r arm).avgReward := by
  rw [AverageOf, if_neg hne] at h
  rw [AverageOf, if_neg (List.append_ne_nil_of_left_ne_nil hne _)]
  have hlast : r ∈ rewards ++ [r] := by simp
  have hmem : ∀ x ∈ rewards, x ∈ rewards ++ [r] := fun x hx => List.mem_append_left _ hx
  obtain ⟨⟨low, hlow, hlowle⟩, high, hhigh, hhighle⟩ := h
  obtain ⟨hmin, hmax⟩ := rewardArm_between cfg r arm
  constructor
  · rcases min_le_iff.mp hmin with hle | hle
    · exact ⟨low, hmem low hlow, hlowle.trans hle⟩
    · exact ⟨r, hlast, hle⟩
  · rcases le_max_iff.mp hmax with hle | hle
    · exact ⟨high, hmem high hhigh, hle.trans hhighle⟩
    · exact ⟨r, hlast, hle⟩

theorem one_le_stdMax (x : ℚ) : 1 ≤ stdMax 1.0 x := by
  have hone : (1 : ℚ) ≤ 1.0 := by norm_num
  rw [stdMax_rat]
  exact hone.trans (le_max_left _ _)

theorem Tracks.decay (h : Tracks rewards arm) : Tracks rewards (decayArm cfg arm) where
  alpha := one_le_stdMax _
  beta := one_le_stdMax _
  blank := h.blank
  counted _ := le_max_left 1 _

end Statistics

section Runs
variable {F : Type} [DoubleRounding F] {cfg : ThompsonConfig F}

def remember (action : EntryAction) (rewards : List F) : Event F → List F
  | .selectAction _ => rewards
  | .recordReward other reward =>
    if isfinite reward = true ∧ other = action then rewards ++ [reward] else rewards
  | .resetArm other => if other = action then [] else rewards

def rewardsSince (action : EntryAction) (events : List (Event F)) : List F :=
  events.foldl (remember action) []

theorem rewardsSince_concat (action : EntryAction) (events : List (Event F)) (e : Event F) :
    rewardsSince action (events ++ [e]) = remember action (rewardsSince action events) e := by
  rw [rewardsSince, List.foldl_append]
  rfl

theorem run_concat (s : Sampler F) (events : List (Event F)) (e : Event F) :
    run cfg s (events ++ [e]) = step cfg (run cfg s events) e := by
  rw [run, List.foldl_append]
  rfl

theorem armed_new : Armed (newSampler (F := F)) := rfl

theorem Armed.step {s : Sampler F} (h : Armed s) (e : Event F) : Armed (step cfg s e) := by
  cases e with
  | selectAction draws =>
    rcases Nat.eq_zero_or_pos s.totalRewards with hzero | hpos
    · rw [ThompsonSampler.step, selectAction, if_pos hzero]
      exact h
    · obtain ⟨arm, -, heq, -⟩ := selectAction_eq cfg h hpos draws
      rw [ThompsonSampler.step, heq]
      exact h.map (pullArm_action arm.action) rfl
  | recordReward action reward =>
    cases hfinite : isfinite reward with
    | false =>
      rw [ThompsonSampler.step, recordReward, if_pos hfinite]
      exact h
    | true => exact h.map (recordedArm_action action reward) (recordReward_arms h hfinite action)
  | resetArm action =>
    refine h.map (fun arm => ?_) (resetArm_arms h action)
    split_ifs <;> rfl

theorem Armed.run {s : Sampler F} (h : Armed s) (events : List (Event F)) :
    Armed (run cfg s events) := by
  induction events generalizing s with
  | nil => exact h
  | cons e events ih => exact ih (h.step e)

end Runs

section Exact
variable {cfg : ThompsonConfig ℚ}

def AllTrack (rewards : EntryAction → List ℚ) (s : Sampler ℚ) : Prop :=
  ∀ arm ∈ s.arms, Tracks (rewards arm.action) arm

variable {rewards : EntryAction → List ℚ} {s : Sampler ℚ}

variable (cfg) in
theorem select_arms (harmed : Armed s) (draws : ℕ → ℚ) :
    (selectAction cfg s draws).2.arms = s.arms ∨
      ∃ action, (selectAction cfg s draws).2.arms = s.arms.map (pullArm action) := by
  rcases Nat.eq_zero_or_pos s.totalRewards with hzero | hpos
  · rw [selectAction, if_pos hzero]
    exact Or.inl rfl
  · obtain ⟨chosen, -, heq, -⟩ := selectAction_eq cfg harmed hpos draws
    rw [heq]
    exact Or.inr ⟨chosen.action, rfl⟩

theorem AllTrack.select (h : AllTrack rewards s) (harmed : Armed s) (draws : ℕ → ℚ) :
    AllTrack rewards (selectAction cfg s draws).2 := by
  intro arm' harm'
  rcases select_arms cfg harmed draws with heq | ⟨action, heq⟩
  · rw [heq] at harm'
    exact h arm' harm'
  · rw [heq] at harm'
    obtain ⟨arm, harm, rfl⟩ := List.mem_map.mp harm'
    rw [pullArm_action]
    exact (h arm harm).pull action

theorem AllTrack.record (h : AllTrack rewards s) (harmed : Armed s)
    (hbonus : -1 ≤ cfg.magnitudeBonus) (action : EntryAction) (r : ℚ) :
    AllTrack (fun a => if action = a then rewards a ++ [r] else rewards a)
      (recordReward cfg s action r) := by
  intro arm' harm'
  rw [recordReward_arms harmed rfl] at harm'
  obtain ⟨arm, harm, rfl⟩ := List.mem_map.mp harm'
  have htracks : Tracks (if action = arm.action then rewards arm.action ++ [r]
      else rewards arm.action)
      (if arm.action = action then rewardArm cfg r arm else arm) := by
    split_ifs with h1 h2 h2
    · exact (h arm harm).reward hbonus r
    · exact absurd h1.symm h2
    · exact absurd h2.symm h1
    · exact h arm harm
  rw [recordedArm_action]
  by_cases hdue : DecayDue cfg s
  · rw [recordedArm, if_pos hdue]
    exact htracks.decay
  · rw [recordedArm, if_neg hdue]
    exact htracks

theorem AllTrack.reset (h : AllTrack rewards s) (harmed : Armed s) (action : EntryAction) :
    AllTrack (fun a => if action = a then [] else rewards a) (resetArm s action) := by
  intro arm' harm'
  rw [resetArm_arms harmed] at harm'
  obtain ⟨arm, harm, rfl⟩ := List.mem_map.mp harm'
  split_ifs with haction
  · change Tracks (if action = arm.action then [] else _) _
    rw [if_pos haction.symm]
    exact tracks_clear arm
  · change Tracks (if action = arm.action then [] else _) _
    rw [if_neg (Ne.symm haction)]
    exact h arm harm

theorem remember_reward (action : EntryAction) (reward : ℚ) (a : EntryAction) (old : List ℚ) :
    remember a old (.recordReward action reward) =
      if action = a then old ++ [reward] else old := by
  simp [remember, isfinite_rat]

theorem tracks_run (hbonus : -1 ≤ cfg.magnitudeBonus) (events : List (Event ℚ)) :
    AllTrack (fun a => rewardsSince a events) (run cfg newSampler events) := by
  induction events using List.reverseRecOn with
  | nil =>
    intro arm harm
    obtain ⟨action, -, rfl⟩ := List.mem_map.mp harm
    exact tracks_clear (newArm action)
  | append_singleton events e ih =>
    have harmed : Armed (run cfg newSampler events) := armed_new.run events
    simp only [rewardsSince_concat]
    rw [run_concat]
    cases e with
    | selectAction draws => exact ih.select harmed draws
    | recordReward action reward =>
      simp only [remember_reward]
      exact ih.record harmed hbonus action reward
    | resetArm action => exact ih.reset harmed action

def Averages (cfg : ThompsonConfig ℚ) (events : List (Event ℚ)) : Prop :=
  ∀ arm ∈ (run cfg newSampler events).arms,
    AverageOf (rewardsSince arm.action events) arm.avgReward

def CountsFirst (cfg : ThompsonConfig ℚ) (events : List (Event ℚ)) : Event ℚ → Prop
  | .recordReward action reward => rewardsSince action events = [] →
      ∀ arm ∈ (run cfg newSampler events).arms, arm.action = action →
        arm.rewardCount = 0 ∨ reward = 0
  | _ => True

theorem recordedArm_avg (s : Sampler ℚ) (action : EntryAction) (reward : ℚ) (arm : BetaArm ℚ) :
    (recordedArm cfg s action reward arm).avgReward =
      if arm.action = action then (rewardArm cfg reward arm).avgReward else arm.avgReward := by
  unfold recordedArm
  split_ifs <;> rfl

theorem averages_select {events : List (Event ℚ)} (h : Averages cfg events) (draws : ℕ → ℚ) :
    Averages cfg (events ++ [.selectAction draws]) := by
  have harmed : Armed (run cfg newSampler events) := armed_new.run events
  intro arm' harm'
  rw [run_concat] at harm'
  rw [rewardsSince_concat]
  rcases select_arms cfg harmed draws with heq | ⟨action, heq⟩
  · exact h arm' (heq ▸ harm')
  · obtain ⟨arm, harm, rfl⟩ := List.mem_map.mp (heq ▸ harm' : arm' ∈ _)
    have havg : (pullArm action arm).avgReward = arm.avgReward := by
      unfold pullArm
      split_ifs <;> rfl
    rw [pullArm_action, havg]
    exact h arm harm

theorem averages_reset {events : List (Event ℚ)} (h : Averages cfg events)
    (action : EntryAction) : Averages cfg (events ++ [.resetArm action]) := by
  have harmed : Armed (run cfg newSampler events) := armed_new.run events
  intro arm' harm'
  rw [run_concat] at harm'
  rw [rewardsSince_concat]
  obtain ⟨arm, harm, rfl⟩ := List.mem_map.mp (resetArm_arms harmed action ▸ harm' : arm' ∈ _)
  split_ifs with haction
  · change AverageOf (if action = arm.action then [] else _) _
    rw [if_pos haction.symm, AverageOf, if_pos rfl]
    norm_num [clearArm]
  · change AverageOf (if action = arm.action then [] else _) _
    rw [if_neg (Ne.symm haction)]
    exact h arm harm

/-- One event keeps the averages between the rewards exactly if a first reward counts as one. -/
theorem averages_concat_iff (hbonus : -1 ≤ cfg.magnitudeBonus) {events : List (Event ℚ)}
    (h : Averages cfg events) (e : Event ℚ) :
    Averages cfg (events ++ [e]) ↔ CountsFirst cfg events e := by
  cases e with
  | selectAction draws => exact iff_of_true (averages_select h draws) trivial
  | resetArm action => exact iff_of_true (averages_reset h action) trivial
  | recordReward action reward =>
    have harmed : Armed (run cfg newSampler events) := armed_new.run events
    have harms : (run cfg newSampler (events ++ [.recordReward action reward])).arms =
        (run cfg newSampler events).arms.map
          (recordedArm cfg (run cfg newSampler events) action reward) := by
      rw [run_concat]
      exact recordReward_arms harmed rfl action
    have hone : ∀ arm ∈ (run cfg newSampler events).arms,
        (AverageOf (if action = arm.action then rewardsSince arm.action events ++ [reward]
            else rewardsSince arm.action events)
          (recordedArm cfg (run cfg newSampler events) action reward arm).avgReward ↔
        (rewardsSince action events = [] → arm.action = action →
          arm.rewardCount = 0 ∨ reward = 0)) := by
      intro arm harm
      rw [recordedArm_avg]
      by_cases haction : arm.action = action
      · subst haction
        rw [if_pos rfl, if_pos rfl]
        by_cases hnil : rewardsSince arm.action events = []
        · rw [hnil, List.nil_append,
            first_average_iff ((tracks_run hbonus events arm harm).blank hnil)]
          simp
        · exact iff_of_true ((h arm harm).reward hnil reward) fun hno => absurd hno hnil
      · rw [if_neg (Ne.symm haction), if_neg haction]
        exact iff_of_true (h arm harm) fun _ hyes => absurd hyes haction
    unfold Averages CountsFirst
    simp only [harms, List.forall_mem_map, recordedArm_action, rewardsSince_concat,
      remember_reward]
    rw [forall₂_congr hone]
    exact ⟨fun hall hnil arm harm => hall arm harm hnil, fun hall arm harm hnil =>
      hall hnil arm harm⟩

def shortfall (minPulls : ℕ) (arms : List (BetaArm ℚ)) : ℕ :=
  (arms.map fun arm => minPulls - arm.pulls).sum

theorem shortfall_le (h : Armed s) (minPulls : ℕ) : shortfall minPulls s.arms ≤ 4 * minPulls := by
  have hbound := List.sum_le_card_nsmul (s.arms.map fun arm => minPulls - arm.pulls) minPulls
    (by simp)
  rwa [List.length_map, h.length, smul_eq_mul] at hbound

theorem pulled_of_shortfall {minPulls : ℕ} (h : shortfall minPulls s.arms = 0) :
    ∀ arm ∈ s.arms, minPulls ≤ arm.pulls := by
  intro arm harm
  have hzero := List.sum_eq_zero_iff.mp h _ (List.mem_map_of_mem harm)
  exact Nat.sub_eq_zero_iff_le.mp hzero

theorem shortfall_map {arms : List (BetaArm ℚ)} {g : BetaArm ℚ → BetaArm ℚ}
    (hg : ∀ arm, (g arm).pulls = arm.pulls) (minPulls : ℕ) :
    shortfall minPulls (arms.map g) = shortfall minPulls arms := by
  rw [shortfall, List.map_map]
  congr 1
  apply List.map_congr_left
  intro arm _
  rw [Function.comp_apply, hg]

theorem shortfall_pull {arms : List (BetaArm ℚ)} (hnodup : (arms.map BetaArm.action).Nodup)
    {minPulls : ℕ} {arm : BetaArm ℚ} (harm : arm ∈ arms) (hlow : arm.pulls < minPulls) :
    shortfall minPulls (arms.map (pullArm arm.action)) + 1 = shortfall minPulls arms := by
  induction arms with
  | nil => exact absurd harm List.not_mem_nil
  | cons first arms ih =>
    rw [List.map_cons, List.nodup_cons] at hnodup
    have hsplit : ∀ (x : BetaArm ℚ) (l : List (BetaArm ℚ)),
        shortfall minPulls (x :: l) = (minPulls - x.pulls) + shortfall minPulls l :=
      fun x l => List.sum_cons
    rw [List.map_cons, hsplit, hsplit]
    rcases List.mem_cons.mp harm with rfl | hrest
    · have hsame : arms.map (pullArm arm.action) = arms := map_other _ hnodup.1
      rw [hsame, pullArm, if_pos rfl]
      dsimp only
      omega
    · have hne : first.action ≠ arm.action := by
        intro heq
        rw [heq] at hnodup
        exact hnodup.1 (List.mem_map_of_mem hrest)
      rw [pullArm, if_neg hne, ← ih hnodup.2 hrest]
      rfl

theorem shortfall_pull_le (minPulls : ℕ) (arms : List (BetaArm ℚ)) (action : EntryAction) :
    shortfall minPulls (arms.map (pullArm action)) ≤ shortfall minPulls arms := by
  rw [shortfall, List.map_map]
  apply List.sum_le_sum
  intro arm _
  rw [Function.comp_apply, pullArm]
  split_ifs
  · dsimp only
    omega
  · exact le_rfl

theorem shortfall_eq_zero {minPulls : ℕ} {arms : List (BetaArm ℚ)}
    (h : ∀ arm ∈ arms, minPulls ≤ arm.pulls) : shortfall minPulls arms = 0 := by
  apply List.sum_eq_zero
  intro n hn
  obtain ⟨arm, harm, rfl⟩ := List.mem_map.mp hn
  exact Nat.sub_eq_zero_of_le (h arm harm)

theorem select_shortfall (h : Armed s) (hrewards : 0 < s.totalRewards) (draws : ℕ → ℚ) :
    shortfall cfg.minPulls (selectAction cfg s draws).2.arms ≤
      shortfall cfg.minPulls s.arms - 1 := by
  obtain ⟨arm, harm, heq, hpulls⟩ := selectAction_eq cfg h hrewards draws
  rw [heq]
  dsimp only
  rcases hpulls with hdone | hlow
  · have hzero := shortfall_eq_zero hdone
    have hle := shortfall_pull_le cfg.minPulls s.arms arm.action
    omega
  · have := shortfall_pull h.nodup harm hlow
    omega

def Event.isSelection : Event ℚ → Bool
  | .selectAction _ => true
  | _ => false

def Event.isReward : Event ℚ → Bool
  | .recordReward .. => true
  | _ => false

def Event.isReset : Event ℚ → Bool
  | .resetArm _ => true
  | _ => false

theorem step_totalRewards (cfg : ThompsonConfig ℚ) (s : Sampler ℚ) (e : Event ℚ) :
    (step cfg s e).totalRewards = s.totalRewards + if e.isReward then 1 else 0 := by
  cases e with
  | selectAction draws =>
    change (selectAction cfg s draws).2.totalRewards = s.totalRewards
    rw [selectAction]
    split_ifs <;> rfl
  | recordReward action reward => exact recordReward_total rfl action
  | resetArm action => rfl

theorem run_totalRewards (s : Sampler ℚ) (events : List (Event ℚ)) :
    (run cfg s events).totalRewards = s.totalRewards + events.countP Event.isReward := by
  induction events generalizing s with
  | nil => rfl
  | cons e events ih =>
    rw [run, List.foldl_cons, List.countP_cons]
    change (run cfg (step cfg s e) events).totalRewards = _
    rw [ih, step_totalRewards]
    omega

/-- Once there was a reward, every selection without a reset makes up for the shortfall. -/
theorem run_shortfall (cfg : ThompsonConfig ℚ) (h : Armed s) (hrewards : 0 < s.totalRewards)
    (later : List (Event ℚ)) (hresets : ∀ e ∈ later, e.isReset = false) :
    shortfall cfg.minPulls (run cfg s later).arms ≤
      shortfall cfg.minPulls s.arms - later.countP Event.isSelection := by
  induction later generalizing s with
  | nil => exact le_rfl
  | cons e later ih =>
    have hstep : shortfall cfg.minPulls (step cfg s e).arms ≤
        shortfall cfg.minPulls s.arms - if e.isSelection then 1 else 0 := by
      cases e with
      | selectAction draws => exact select_shortfall h hrewards draws
      | recordReward action reward =>
        rw [step, recordReward_arms h rfl, shortfall_map (recordedArm_pulls action reward)]
        exact le_rfl
      | resetArm action => exact nomatch hresets _ List.mem_cons_self
    have htotal := step_totalRewards cfg s e
    have harmed : Armed (step cfg s e) := h.step e
    have hrest := ih harmed (by omega) fun e' he' => hresets e' (List.mem_cons_of_mem _ he')
    rw [List.countP_cons]
    change shortfall cfg.minPulls (run cfg (step cfg s e) later).arms ≤ _
    omega

def OnePull (s : Sampler ℚ) (result : EntryAction × Sampler ℚ) : Prop :=
  (∃ arm ∈ s.arms, arm.action = result.1) ∧
    result.2 = { s with arms := s.arms.map (pullArm result.1) }

structure Faithful (cfg : ThompsonConfig ℚ) (events : List (Event ℚ)) : Prop where
  parameters : ∀ arm ∈ (run cfg newSampler events).arms, 1 ≤ arm.alpha ∧ 1 ≤ arm.beta
  averages : Averages cfg events
  pulls : ∀ before draws, before ++ [.selectAction draws] <+: events →
    OnePull (run cfg newSampler before) (selectAction cfg (run cfg newSampler before) draws)
  explored : (∃ e ∈ events, e.isReward = true) → ∀ later : List (Event ℚ),
    (∀ e ∈ later, e.isReset = false) → 4 * cfg.minPulls ≤ later.countP Event.isSelection →
      ∀ arm ∈ (run cfg (run cfg newSampler events) later).arms, cfg.minPulls ≤ arm.pulls

/-- A selection comes after a reward, and a first reward of an arm counts as one. -/
def StepMeets (cfg : ThompsonConfig ℚ) (events : List (Event ℚ)) (e : Event ℚ) : Prop :=
  (e.isSelection = true → ∃ e' ∈ events, e'.isReward = true) ∧ CountsFirst cfg events e

variable (cfg) in
theorem rewarded_iff (events : List (Event ℚ)) :
    0 < (run cfg newSampler events).totalRewards ↔ ∃ e ∈ events, e.isReward = true := by
  rw [run_totalRewards, newSampler, Nat.zero_add, List.countP_pos_iff]

theorem onePull_iff (events : List (Event ℚ)) (draws : ℕ → ℚ) :
    OnePull (run cfg newSampler events) (selectAction cfg (run cfg newSampler events) draws) ↔
      ∃ e ∈ events, e.isReward = true := by
  have harmed : Armed (run cfg newSampler events) := armed_new.run events
  rw [← rewarded_iff cfg]
  constructor
  · rintro ⟨⟨arm, harm, haction⟩, hpulled⟩
    rw [Nat.pos_iff_ne_zero]
    intro hzero
    rw [selectAction, if_pos hzero] at haction hpulled
    have harms := congrArg Sampler.arms hpulled
    dsimp only at haction harms
    have hmem : pullArm .enterNow arm = arm := by
      rw [← List.map_id (run cfg newSampler events).arms, List.map_map] at harms
      exact (List.map_inj_left.mp harms arm harm).symm
    have hpulls := congrArg BetaArm.pulls hmem
    rw [pullArm, if_pos haction] at hpulls
    exact absurd hpulls (Nat.succ_ne_self _)
  · intro hpos
    obtain ⟨arm, harm, heq, -⟩ := selectAction_eq cfg harmed hpos draws
    rw [heq]
    exact ⟨⟨arm, harm, rfl⟩, rfl⟩

theorem explored_run (cfg : ThompsonConfig ℚ) (events : List (Event ℚ))
    (hreward : ∃ e ∈ events, e.isReward = true) (later : List (Event ℚ))
    (hresets : ∀ e ∈ later, e.isReset = false)
    (hmany : 4 * cfg.minPulls ≤ later.countP Event.isSelection) :
    ∀ arm ∈ (run cfg (run cfg newSampler events) later).arms, cfg.minPulls ≤ arm.pulls := by
  have harmed : Armed (run cfg newSampler events) := armed_new.run events
  apply pulled_of_shortfall
  have hrun := run_shortfall cfg harmed ((rewarded_iff cfg events).mpr hreward) later hresets
  have hbound := shortfall_le harmed cfg.minPulls
  omega

theorem averages_of_steps (hbonus : -1 ≤ cfg.magnitudeBonus) (events : List (Event ℚ))
    (h : ∀ before e, before ++ [e] <+: events → StepMeets cfg before e) : Averages cfg events := by
  induction events using List.reverseRecOn with
  | nil =>
    intro arm harm
    obtain ⟨action, -, rfl⟩ := List.mem_map.mp harm
    norm_num [AverageOf, rewardsSince, newArm]
  | append_singleton events e ih =>
    have hbefore : Averages cfg events := ih fun before e' hpre =>
      h before e' (hpre.trans (List.prefix_append _ _))
    exact (averages_concat_iff hbonus hbefore e).mpr (h events e (List.prefix_refl _)).2

/-- A run keeps its statistics faithful in every state exactly if every selection comes after a
reward and every first reward of an arm since its reset counts as one. -/
theorem always_faithful_iff (cfg : ThompsonConfig ℚ) (hbonus : -1 ≤ cfg.magnitudeBonus)
    (events : List (Event ℚ)) :
    (∀ before, before <+: events → Faithful cfg before) ↔
      ∀ before e, before ++ [e] <+: events → StepMeets cfg before e := by
  constructor
  · intro h before e hpre
    have hnow := h _ hpre
    have hbefore := h before ((List.prefix_append _ _).trans hpre)
    refine ⟨fun hselect => ?_, (averages_concat_iff hbonus hbefore.averages e).mp hnow.averages⟩
    cases e with
    | selectAction draws =>
      exact (onePull_iff before draws).mp (hnow.pulls before draws (List.prefix_refl _))
    | recordReward _ _ => exact nomatch hselect
    | resetArm _ => exact nomatch hselect
  · intro h before hpre
    refine ⟨fun arm harm => ?_, ?_, fun earlier draws hearlier => ?_, explored_run cfg before⟩
    · have htracks := tracks_run hbonus before arm harm
      exact ⟨htracks.alpha, htracks.beta⟩
    · exact averages_of_steps hbonus before fun earlier e hearlier => h earlier e (hearlier.trans hpre)
    · exact (onePull_iff earlier draws).mpr ((h earlier _ (hearlier.trans hpre)).1 rfl)

def tradedRun : List (Event ℚ) :=
  [.recordReward .enterNow 1, .selectAction fun _ => 0, .recordReward .waitOnePeriod (-1)]

theorem always_faithful_traded :
    (∀ before, before <+: tradedRun → Faithful defaultConfig before) ↔
      ∀ before e, before ++ [e] <+: tradedRun → StepMeets defaultConfig before e :=
  always_faithful_iff defaultConfig (by norm_num [defaultConfig]) tradedRun

/-- A selection before the first reward pulls no arm; a bonus below minus one leaves a parameter
below one; and after a decay the first reward of an arm counts for half of its average. -/
theorem pulls_parameters_averages :
    (selectAction (defaultConfig : ThompsonConfig ℚ) newSampler fun _ => 0).2.arms.map
        BetaArm.pulls = [0, 0, 0, 0] ∧
      (∃ arm ∈ (run { (defaultConfig : ThompsonConfig ℚ) with magnitudeBonus := -3 } newSampler
        [.recordReward .enterNow 1]).arms, arm.alpha < 1) ∧
      ∃ arm ∈ (run { (defaultConfig : ThompsonConfig ℚ) with decayInterval := 1 } newSampler
          [.recordReward .enterNow 1, .recordReward .waitOnePeriod 1]).arms,
        rewardsSince arm.action [.recordReward .enterNow 1, .recordReward .waitOnePeriod 1] =
          [(1 : ℚ)] ∧ arm.avgReward = 1 / 2 := by
  refine ⟨rfl, ?_, ?_⟩ <;> decide +kernel

end Exact

end TB.ThompsonSampler
