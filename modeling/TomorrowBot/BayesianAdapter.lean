import TomorrowBot.NumericUtils
import TomorrowBot.Runs
import TomorrowBot.TradingContext
import Mathlib.Analysis.Convex.Segment
import Mathlib.Algebra.Order.Group.Pointwise.Interval

/-!
# Parameters learnt from the outcomes of trades

A parameter has a mean and a precision. An observation moves the mean to the
average of the mean and the observed value, weighted by their precisions. The
precision has a cap, by which the weighted sum is divided as well.
-/

set_option autoImplicit false

namespace TB.BayesianAdapter
open TB.CommonTypes TB.Numeric TB.TradingContext

structure BayesianParameter (F : Type) where
  name : String
  priorMean : F
  priorVariance : F
  posteriorMean : F
  posteriorVariance : F
  posteriorPrecision : F
  credibleIntervalWidth : F
  currentValue : F
  minValue : F
  maxValue : F

structure ParameterObservation (F : Type) where
  reward : F
  regime : DetailedRegime

structure BayesianConfig (F : Type) where
  learningRate : F
  explorationRate : F
  minObservations : ℕ
  maxHistory : ℕ
  regimeWeight : F
  observationVariance : F
  minPosteriorVariance : F
  precisionDecay : F
  maxPrecision : F

structure Draw (F : Type) where
  uniform : F
  normal : F

structure AdapterState (F : Type) where
  params : StrategyId → String → Option (BayesianParameter F)
  regimeHistory : DetailedRegime → List (ParameterObservation F)
  totalObservations : ℕ

inductive AdapterEvent (F : Type) where
  | register (strategy : StrategyId) (param : BayesianParameter F)
  | observe (strategy : StrategyId) (obs : ParameterObservation F) (draws : String → Draw F)

section Adapter
variable {F : Type} [DoubleSqrt F]

def defaultConfig : BayesianConfig F := ⟨0.05, 0.1, 20, 500, 0.7, 1.0, 1e-4, 0.995, 1000.0⟩

def constructed (config : BayesianConfig F) : BayesianConfig F :=
  if isfinite config.learningRate = false ∨ config.learningRate ≤ 0.0 ∨ 1.0 < config.learningRate
  then { config with learningRate := 0.05 }
  else config

def newAdapter : AdapterState F := ⟨fun _ _ => none, fun _ => [], 0⟩

variable (config : BayesianConfig F)

def initialized (param : BayesianParameter F) : BayesianParameter F :=
  let priorMean :=
    if param.priorMean < param.minValue ∨ param.maxValue < param.priorMean then
      stdClamp param.priorMean param.minValue param.maxValue
    else param.priorMean
  let variance := stdMax param.priorVariance config.minPosteriorVariance
  { param with
    priorMean := priorMean
    posteriorMean := priorMean
    posteriorVariance := variance
    posteriorPrecision := safeDiv 1.0 variance 1.0
    credibleIntervalWidth := 2.0 * 1.96 * safeSqrt variance
    currentValue := priorMean }

def registerParameter (s : AdapterState F) (strategy : StrategyId) (param : BayesianParameter F) :
    AdapterState F :=
  if param.maxValue ≤ param.minValue then s
  else
    { s with params := fun strat name =>
        if strat = strategy ∧ name = param.name then some (initialized config param)
        else s.params strat name }

def range (param : BayesianParameter F) : F :=
  stdMax (param.maxValue - param.minValue) kEpsilon

def observation (param : BayesianParameter F) (reward : F) : F :=
  stdClamp (param.currentValue + reward * range param * config.learningRate) param.minValue
    param.maxValue

def effectiveMax : F :=
  stdMin (100.0 / stdMax config.observationVariance 1e-6) config.maxPrecision

def priorPrecision (param : BayesianParameter F) : F :=
  stdMax (stdMin (param.posteriorPrecision * config.precisionDecay) (effectiveMax config)) kEpsilon

def obsPrecision : F := safeDiv 1.0 (stdMax config.observationVariance kEpsilon) 1.0

def newPrecision (param : BayesianParameter F) : F :=
  stdMin (priorPrecision config param + obsPrecision config) (effectiveMax config)

def weightedMean (param : BayesianParameter F) (reward : F) : F :=
  priorPrecision config param * param.posteriorMean +
    obsPrecision config * observation config param reward

def newMean (param : BayesianParameter F) (reward : F) : F :=
  safeDiv (weightedMean config param reward) (newPrecision config param) param.posteriorMean

def updatePosterior (param : BayesianParameter F) (reward : F) : BayesianParameter F :=
  if isfinite (weightedMean config param reward) then
    let precision := newPrecision config param
    let variance :=
      stdMax (safeDiv 1.0 precision param.posteriorVariance) config.minPosteriorVariance
    { param with
      posteriorPrecision := precision
      posteriorVariance := variance
      posteriorMean := stdClamp (newMean config param reward) param.minValue param.maxValue
      credibleIntervalWidth := 2.0 * 1.96 * safeSqrt variance }
  else param

def selectValue (param : BayesianParameter F) (draw : Draw F) : F :=
  if draw.uniform < config.explorationRate then
    safeClamp draw.normal param.minValue param.maxValue param.posteriorMean
  else stdClamp param.posteriorMean param.minValue param.maxValue

def learn (param : BayesianParameter F) (reward : F) (draw : Draw F) : BayesianParameter F :=
  let updated := updatePosterior config param reward
  { updated with currentValue := selectValue config updated draw }

def remember (history : List (ParameterObservation F)) (obs : ParameterObservation F) :
    List (ParameterObservation F) :=
  let extended := history ++ [obs]
  if config.maxHistory < extended.length then extended.tail else extended

def recordObservation (s : AdapterState F) (strategy : StrategyId) (obs : ParameterObservation F)
    (draws : String → Draw F) : AdapterState F :=
  if isfinite obs.reward then
    { params := fun strat name =>
        if strat = strategy then
          (s.params strat name).map fun param => learn config param obs.reward (draws name)
        else s.params strat name
      regimeHistory := fun regime =>
        if regime = obs.regime then remember config (s.regimeHistory regime) obs
        else s.regimeHistory regime
      totalObservations := s.totalObservations + 1 }
  else s

def weighRewards (decay : F) : List (ParameterObservation F) → F → F → F → F × F
  | [], _, weightedSum, weightTotal => (weightedSum, weightTotal)
  | obs::older, w, weightedSum, weightTotal =>
    let sums : F × F :=
      if isfinite obs.reward then (weightedSum + w * obs.reward, weightTotal + w)
      else (weightedSum, weightTotal)
    if w * decay < 1e-6 then sums else weighRewards decay older (w * decay) sums.1 sums.2

def regimeAdjustedMean (s : AdapterState F) (param : BayesianParameter F)
    (regime : DetailedRegime) : F :=
  if (s.regimeHistory regime).isEmpty then param.posteriorMean
  else
    let sums := weighRewards config.precisionDecay (s.regimeHistory regime).reverse 1.0 0.0 0.0
    if sums.2 < kEpsilon then param.posteriorMean
    else
      let regimeMean :=
        stdClamp (param.posteriorMean + sums.1 / sums.2 * range param * config.learningRate)
          param.minValue param.maxValue
      config.regimeWeight * regimeMean + (1.0 - config.regimeWeight) * param.posteriorMean

def adaptedValue (s : AdapterState F) (param : BayesianParameter F) (regime : DetailedRegime) : F :=
  if s.totalObservations < config.minObservations then param.priorMean
  else stdClamp (regimeAdjustedMean config s param regime) param.minValue param.maxValue

def getAdaptedValue (s : AdapterState F) (strategy : StrategyId) (name : String)
    (regime : DetailedRegime) : F :=
  match s.params strategy name with
  | none => 0.5
  | some param => adaptedValue config s param regime

def step (s : AdapterState F) : AdapterEvent F → AdapterState F
  | .register strategy param => registerParameter config s strategy param
  | .observe strategy obs draws => recordObservation config s strategy obs draws

end Adapter

section Exact
variable (config : BayesianConfig ℝ)

def Averages (s : AdapterState ℝ) : AdapterEvent ℝ → Prop
  | .register _ _ => True
  | .observe strategy obs _ => ∀ name param, s.params strategy name = some param →
      newMean config param obs.reward ∈
        segment ℝ param.posteriorMean (observation config param obs.reward)

def RoomUnderCap (param : BayesianParameter ℝ) (reward : ℝ) : Prop :=
  priorPrecision config param + obsPrecision config ≤ effectiveMax config ∨
    |effectiveMax config| < kEpsilon ∨
    weightedMean config param reward ∈
      Set.uIcc (effectiveMax config * param.posteriorMean)
        (effectiveMax config * observation config param reward)

def Uncapped (s : AdapterState ℝ) : AdapterEvent ℝ → Prop
  | .register _ _ => True
  | .observe strategy obs _ => ∀ name param, s.params strategy name = some param →
      RoomUnderCap config param obs.reward

def InBounds (s : AdapterState ℝ) : Prop :=
  ∀ strategy name param, s.params strategy name = some param →
    param.posteriorMean ∈ Set.Icc param.minValue param.maxValue ∧
    ∀ regime, getAdaptedValue config s strategy name regime ∈
      Set.Icc param.minValue param.maxValue

structure Sound (param : BayesianParameter ℝ) : Prop where
  ordered : param.minValue < param.maxValue
  prior : param.priorMean ∈ Set.Icc param.minValue param.maxValue
  posterior : param.posteriorMean ∈ Set.Icc param.minValue param.maxValue

def AllSound (s : AdapterState ℝ) : Prop :=
  ∀ strategy name param, s.params strategy name = some param → Sound param

theorem obsPrecision_pos : 0 ≤ obsPrecision config := by
  have hvar : (0 : ℝ) ≤ stdMax config.observationVariance kEpsilon := by
    rw [stdMax_real]
    exact kEpsilon_pos.le.trans (le_max_right _ _)
  unfold obsPrecision
  rw [safeDiv_real, one_real]
  split_ifs
  · exact zero_le_one
  · exact div_nonneg zero_le_one hvar

variable (param : BayesianParameter ℝ)

theorem priorPrecision_ge : kEpsilon ≤ priorPrecision config param := by
  unfold priorPrecision
  rw [stdMax_real]
  exact le_max_right _ _

theorem average_of_weights {p q : ℝ} (hp : 0 < p) (hq : 0 ≤ q) (m o : ℝ) :
    (p * m + q * o) / (p + q) ∈ segment ℝ m o := by
  have hsum : 0 < p + q := add_pos_of_pos_of_nonneg hp hq
  refine ⟨p / (p + q), q / (p + q), div_nonneg hp.le hsum.le, div_nonneg hq hsum.le, ?_, ?_⟩
  · rw [← add_div, div_self hsum.ne']
  · rw [smul_eq_mul, smul_eq_mul]
    ring

/-- A quotient is between two values exactly when the number is between their multiples. -/
theorem div_mem_uIcc_iff {c : ℝ} (hc : c ≠ 0) (s m o : ℝ) :
    s / c ∈ Set.uIcc m o ↔ s ∈ Set.uIcc (c * m) (c * o) := by
  rw [← Set.image_const_mul_uIcc]
  constructor
  · exact fun h => ⟨s / c, h, mul_div_cancel₀ s hc⟩
  · rintro ⟨x, hx, rfl⟩
    rwa [mul_div_cancel_left₀ x hc]

theorem newMean_average_iff (reward : ℝ) : newMean config param reward ∈
        segment ℝ param.posteriorMean (observation config param reward) ↔
      RoomUnderCap config param reward := by
  have hprior := priorPrecision_ge config param
  have hpos : 0 < priorPrecision config param := kEpsilon_pos.trans_le hprior
  have hobs := obsPrecision_pos config
  by_cases hroom : priorPrecision config param + obsPrecision config ≤ effectiveMax config
  · have hprec : newPrecision config param =
        priorPrecision config param + obsPrecision config := by
      rw [newPrecision, stdMin_real, min_eq_left hroom]
    have hfar : kEpsilon ≤ |newPrecision config param| := by
      rw [hprec]
      exact (hprior.trans (le_add_of_nonneg_right hobs)).trans (le_abs_self _)
    refine iff_of_true ?_ (Or.inl hroom)
    rw [newMean, safeDiv_far hfar, hprec]
    exact average_of_weights hpos hobs _ _
  · have hprec : newPrecision config param = effectiveMax config := by
      rw [newPrecision, stdMin_real, min_eq_right (not_le.mp hroom).le]
    by_cases hsmall : |effectiveMax config| < kEpsilon
    · refine iff_of_true ?_ (Or.inr (Or.inl hsmall))
      rw [newMean, hprec, safeDiv_near hsmall]
      exact left_mem_segment ℝ _ _
    · have hfar : kEpsilon ≤ |effectiveMax config| := not_lt.mp hsmall
      have hne : effectiveMax config ≠ 0 := abs_pos.mp (kEpsilon_pos.trans_le hfar)
      rw [newMean, hprec, safeDiv_far hfar, segment_eq_uIcc, div_mem_uIcc_iff hne]
      simp only [RoomUnderCap, hroom, hsmall, false_or]

variable (s : AdapterState ℝ)

theorem averages_iff (event : AdapterEvent ℝ) :
    Averages config s event ↔ Uncapped config s event := by
  cases event with
  | register strategy param => exact Iff.rfl
  | observe strategy obs draws =>
    exact forall₃_congr fun name param _ => newMean_average_iff config param obs.reward

theorem initialized_sound (h : param.minValue < param.maxValue) :
    Sound (initialized config param) := by
  have hmean : (initialized config param).priorMean ∈ Set.Icc param.minValue param.maxValue := by
    unfold initialized
    dsimp only
    split_ifs with hout
    · exact stdClamp_mem h.le _
    · exact ⟨not_lt.mp fun hlow => hout (Or.inl hlow), not_lt.mp fun hhigh => hout (Or.inr hhigh)⟩
  exact ⟨h, hmean, hmean⟩

theorem updatePosterior_sound (reward : ℝ) (h : Sound param) :
    Sound (updatePosterior config param reward) := by
  unfold updatePosterior
  split_ifs
  · exact ⟨h.ordered, h.prior, stdClamp_mem h.ordered.le _⟩
  · exact h

theorem learn_sound (reward : ℝ) (draw : Draw ℝ) (h : Sound param) :
    Sound (learn config param reward draw) :=
  have hup := updatePosterior_sound config param reward h
  ⟨hup.ordered, hup.prior, hup.posterior⟩

theorem registerParameter_sound (strategy : StrategyId)
    (param : BayesianParameter ℝ) (h : AllSound s) :
    AllSound (registerParameter config s strategy param) := by
  unfold registerParameter
  split_ifs with hbounds
  · exact h
  · intro strat name p hp
    dsimp only at hp
    split_ifs at hp with hnew
    · cases hp
      exact initialized_sound config param (not_le.mp hbounds)
    · exact h strat name p hp

theorem recordObservation_sound (strategy : StrategyId)
    (obs : ParameterObservation ℝ) (draws : String → Draw ℝ) (h : AllSound s) :
    AllSound (recordObservation config s strategy obs draws) := by
  unfold recordObservation
  split_ifs
  · intro strat name p hp
    dsimp only at hp
    split_ifs at hp with hown
    · obtain ⟨old, hold, rfl⟩ := Option.map_eq_some_iff.mp hp
      exact learn_sound config old obs.reward (draws name) (h strat name old hold)
    · exact h strat name p hp
  · exact h

theorem step_sound (event : AdapterEvent ℝ) (h : AllSound s) : AllSound (step config s event) := by
  cases event with
  | register strategy param => exact registerParameter_sound config s strategy param h
  | observe strategy obs draws => exact recordObservation_sound config s strategy obs draws h

theorem adaptedValue_mem (param : BayesianParameter ℝ) (regime : DetailedRegime) (h : Sound param) :
    adaptedValue config s param regime ∈ Set.Icc param.minValue param.maxValue := by
  unfold adaptedValue
  split_ifs
  · exact h.prior
  · exact stdClamp_mem h.ordered.le _

theorem inBounds_of_sound (h : AllSound s) : InBounds config s := by
  intro strategy name param hparam
  have hsound := h strategy name param hparam
  refine ⟨hsound.posterior, fun regime => ?_⟩
  rw [getAdaptedValue, hparam]
  exact adaptedValue_mem config s param regime hsound

theorem newAdapter_sound : AllSound newAdapter := by
  intro strategy name param h
  cases h

/-- Along every run the means stay within the bounds, and every update is an average
exactly when each has room under the cap. -/
theorem learns_averages_iff (config : BayesianConfig ℝ) (events : List (AdapterEvent ℝ)) :
    (Runs.Meets (step (constructed config)) (Averages (constructed config)) newAdapter events ↔
      Runs.Meets (step (constructed config)) (Uncapped (constructed config)) newAdapter events) ∧
    Runs.Always (step (constructed config)) (InBounds (constructed config)) newAdapter events := by
  constructor
  · exact Runs.meets_iff_meets (I := fun _ => True) _ (fun _ _ _ _ => trivial)
      (fun s event _ => averages_iff (constructed config) s event) newAdapter events trivial
  · have hsound := Runs.always_of_meets (step (constructed config)) (C := fun _ _ => True)
      (fun s event h _ => step_sound (constructed config) s event h) newAdapter events
      newAdapter_sound (Runs.meets_true _ newAdapter events)
    exact Runs.always_mono _ (inBounds_of_sound (constructed config)) newAdapter events hsound

noncomputable def sharpParameter : BayesianParameter ℝ :=
  ⟨"conviction_threshold", 0.5, 0.01, 0.5, 0.1, 10.0, 0.0, 0.5, 0.0, 1.0⟩

noncomputable def driftEvents : List (AdapterEvent ℝ) :=
  [.register "global" sharpParameter, .observe "global" ⟨0, .chop⟩ fun _ => ⟨1, 0⟩]

theorem constructed_default : constructed (defaultConfig : BayesianConfig ℝ) = defaultConfig := by
  have hrate : ¬ (isfinite (0.05 : ℝ) = false ∨ (0.05 : ℝ) ≤ 0.0 ∨ (1.0 : ℝ) < 0.05) := by
    simp only [isfinite, reduceCtorEq, false_or]
    norm_num
  exact if_neg hrate

theorem default_effectiveMax : effectiveMax (defaultConfig : BayesianConfig ℝ) = 100 := by
  rw [effectiveMax, stdMin_real, stdMax_real]
  norm_num [defaultConfig]

theorem default_obsPrecision : obsPrecision (defaultConfig : BayesianConfig ℝ) = 1 := by
  have hvar : stdMax (defaultConfig : BayesianConfig ℝ).observationVariance kEpsilon = 1 := by
    rw [stdMax_real]
    norm_num [defaultConfig, kEpsilon]
  rw [obsPrecision, hvar, safeDiv_real]
  norm_num [kEpsilon]

theorem sharp_precision : (initialized defaultConfig sharpParameter).posteriorPrecision = 100 := by
  have hvar : stdMax sharpParameter.priorVariance
      (defaultConfig : BayesianConfig ℝ).minPosteriorVariance = 1 / 100 := by
    rw [stdMax_real]
    norm_num [sharpParameter, defaultConfig]
  change safeDiv 1.0 (stdMax sharpParameter.priorVariance
    (defaultConfig : BayesianConfig ℝ).minPosteriorVariance) 1.0 = 100
  rw [hvar, safeDiv_real]
  norm_num [kEpsilon]

theorem sharp_mean : (initialized defaultConfig sharpParameter).posteriorMean = 1 / 2 := by
  norm_num [initialized, sharpParameter]

theorem sharp_observation :
    observation defaultConfig (initialized defaultConfig sharpParameter) 0 = 1 / 2 := by
  norm_num [observation, stdClamp, initialized, sharpParameter]

theorem sharp_capped :
    ¬ RoomUnderCap defaultConfig (initialized defaultConfig sharpParameter) 0 := by
  have hprior : priorPrecision defaultConfig (initialized defaultConfig sharpParameter) =
      99.5 := by
    rw [priorPrecision, stdMax_real, stdMin_real, sharp_precision, default_effectiveMax]
    norm_num [defaultConfig, kEpsilon]
  simp only [RoomUnderCap, weightedMean, hprior, default_obsPrecision, default_effectiveMax,
    sharp_mean, sharp_observation, Set.uIcc_self, Set.mem_singleton_iff]
  norm_num [kEpsilon]

/-- The mean of the sharp parameter drifts to 0.5025 when the reward is zero. -/
theorem capped_mean_drifts : ¬ ∀ (config : BayesianConfig ℝ) (events : List (AdapterEvent ℝ)),
    Runs.Meets (step (constructed config)) (Averages (constructed config)) newAdapter events ∧
    Runs.Always (step (constructed config)) (InBounds (constructed config)) newAdapter events := by
  intro h
  have hrun := (h defaultConfig driftEvents).1
  rw [constructed_default] at hrun
  have hbounds : ¬ sharpParameter.maxValue ≤ sharpParameter.minValue := by
    norm_num [sharpParameter]
  have hfound : (registerParameter defaultConfig newAdapter "global" sharpParameter).params
      "global" sharpParameter.name = some (initialized defaultConfig sharpParameter) := by
    rw [registerParameter, if_neg hbounds]
    simp only [and_self, if_true]
  have haverage := hrun.2.1 sharpParameter.name _ hfound
  exact sharp_capped ((newMean_average_iff defaultConfig _ 0).mp haverage)

end Exact

end TB.BayesianAdapter
