import TomorrowBot.VolumeProfile
import TomorrowBot.VpinBuckets

/-!
# Changes of the price regime

The cumulative sums take in the return of every tick. Ticks and trades share the
last price, from which a return is computed.
-/

set_option autoImplicit false

namespace TB.AdvancedFeatures
open TB.CommonTypes TB.Vpin

structure CusumConfig (F : Type) where
  drift : F
  thresholdMult : F
  lookback : ℕ

structure VolumeProfileConfig (F : Type) where
  numLevels : ℕ
  valueAreaPct : F
  lookbackTrades : ℕ

structure CusumState (F : Type) where
  returnsBuffer : List F
  pos : F
  neg : F
  detectedPos : F
  detectedNeg : F
  mean : F
  sigma : F
  changeDetected : Bool

structure AdvancedState (F : Type) where
  cusum : CusumState F
  lastPrice : F
  vpin : VpinState F
  tradeHistory : List (PriceVolume F)
  vpPoc : F
  vpVaLow : F
  vpVaHigh : F
  vpCalcCounter : ℕ
  copies : List (List (PriceVolume F))

structure AdvancedConfig (F : Type) where
  cusum : CusumConfig F
  vpin : VpinConfig F
  profile : VolumeProfileConfig F

def volumeProfileRecomputeStrideTrades : ℕ := 500

section Cusum
variable {F : Type} [DoubleSqrt F] (cfg : CusumConfig F)

def newCusum : CusumState F := ⟨[], 0.0, 0.0, 0.0, 0.0, 0.0, 1.0, false⟩

def returnsMean (returns : List F) : F := returns.foldl (· + ·) 0.0 / ofInt returns.length

def returnsSigma (returns : List F) : F :=
  let mean := returnsMean returns
  let sqSum := returns.foldl (fun s r => s + (r - mean) * (r - mean)) 0.0
  let sigma := DoubleSqrt.sqrt (sqSum / ofInt (returns.length - 1))
  if sigma < 1e-12 then 1e-12 else sigma

def detect (s : CusumState F) (returnVal : F) : CusumState F :=
  let mean := returnsMean s.returnsBuffer
  let sigma := returnsSigma s.returnsBuffer
  let z := (returnVal - mean) / sigma
  let pos := stdMax 0.0 (s.pos + z - cfg.drift)
  let neg := stdMax 0.0 (s.neg - z - cfg.drift)
  let changed := decide (cfg.thresholdMult < pos) || decide (cfg.thresholdMult < neg)
  { s with
    mean := mean
    sigma := sigma
    changeDetected := changed
    detectedPos := if changed then pos else s.detectedPos
    detectedNeg := if changed then neg else s.detectedNeg
    pos := if changed then 0.0 else pos
    neg := if changed then 0.0 else neg }

def updateCusum (s : CusumState F) (returnVal : F) : CusumState F :=
  let s := if 20 ≤ s.returnsBuffer.length then detect cfg s returnVal else s
  let returns := s.returnsBuffer ++ [returnVal]
  { s with returnsBuffer := if cfg.lookback < returns.length then returns.tail else returns }

end Cusum

section Engine
variable {F : Type} [DoubleSqrt F] (cfg : AdvancedConfig F) (fuel : ℕ)

def defaultConfig : AdvancedConfig F := ⟨⟨0.5, 4.0, 100⟩, defaultVpinConfig, ⟨50, 0.7, 5000⟩⟩

def newEngine : AdvancedState F := ⟨newCusum, 0.0, newVpin, [], 0.0, 0.0, 0.0, 0, []⟩

def tickReturn (lastPrice price : F) : Option F :=
  if 0.0 < lastPrice then some ((price - lastPrice) / lastPrice) else none

def cusumOf (cfg : CusumConfig F) (s : CusumState F) : Option F → CusumState F
  | some returnVal => updateCusum cfg s returnVal
  | none => s

def onTick (s : AdvancedState F) (price : F) : AdvancedState F :=
  { s with
    cusum := cusumOf cfg.cusum s.cusum (tickReturn s.lastPrice price)
    lastPrice := price }

def pushTrade (lookback : ℕ) (history : List (PriceVolume F)) (t : PriceVolume F) :
    List (PriceVolume F) :=
  if lookback < (history ++ [t]).length then (history ++ [t]).tail else history ++ [t]

def onTrade (s : AdvancedState F) (price : F) (t : Trade F) : Option (AdvancedState F) := do
  let vpin ← updateVpin cfg.vpin fuel s.vpin t
  let history := pushTrade cfg.profile.lookbackTrades s.tradeHistory ⟨price, t.volume⟩
  let counter := s.vpCalcCounter + 1
  let recompute := 50 ≤ history.length ∧
    (s.vpPoc ≤ 0.0 ∨ counter % volumeProfileRecomputeStrideTrades = 0)
  some { s with
    lastPrice := price
    vpin := vpin
    tradeHistory := history
    vpCalcCounter := counter
    copies := if recompute then s.copies ++ [history] else s.copies }

def publishProfile (s : AdvancedState F) (i : ℕ) : AdvancedState F :=
  match s.copies[i]? with
  | none => s
  | some history =>
    let profile :=
      computeVolumeProfileSnapshot history cfg.profile.numLevels cfg.profile.valueAreaPct
    let s := { s with copies := s.copies.eraseIdx i }
    if profile.valid then
      { s with
        vpPoc := profile.poc
        vpVaLow := profile.valueAreaLow
        vpVaHigh := profile.valueAreaHigh }
    else s

inductive FeatureEvent (F : Type) where
  | tick (price : F)
  | trade (price : F) (t : Trade F)
  | publish (i : ℕ)

def step (s : AdvancedState F) : FeatureEvent F → Option (AdvancedState F)
  | .tick price => some (onTick cfg s price)
  | .trade price t => onTrade cfg fuel s price t
  | .publish i => some (publishProfile cfg s i)

structure TickResult (F : Type) where
  fed : Option F
  cusum : CusumState F

def results (s : AdvancedState F) : List (FeatureEvent F) → Option (List (TickResult F))
  | [] => some []
  | e::es => do
    let next ← step cfg fuel s e
    let rest ← results next es
    match e with
    | .tick price => some (⟨tickReturn s.lastPrice price, next.cusum⟩ :: rest)
    | _ => some rest

end Engine

section References
variable {F : Type}

def ticks : List (FeatureEvent F) → List F
  | [] => []
  | .tick price :: es => price :: ticks es
  | .trade _ _ :: es => ticks es
  | .publish _ :: es => ticks es

def references : F → List (FeatureEvent F) → List (F × F)
  | _, [] => []
  | last, .tick price :: es => (price, last) :: references price es
  | _, .trade price _ :: es => references price es
  | last, .publish _ :: es => references last es

theorem references_ticks (last : F) (es : List (FeatureEvent F)) :
    (references last es).map Prod.fst = ticks es := by
  induction es generalizing last with
  | nil => rfl
  | cons e es ih =>
    cases e with
    | tick price => exact congrArg (price :: ·) (ih price)
    | trade price t => exact ih price
    | publish i => exact ih last

end References

section Feeding
variable {F : Type} [DoubleSqrt F] (cfg : CusumConfig F)

def feedTick (c : CusumState F) (r : F × F) : CusumState F := cusumOf cfg c (tickReturn r.2 r.1)

def feed (c : CusumState F) : List (F × F) → List (TickResult F)
  | [] => []
  | r::rs => ⟨tickReturn r.2 r.1, feedTick cfg c r⟩ :: feed (feedTick cfg c r) rs

theorem feed_append (c : CusumState F) (rs rs' : List (F × F)) :
    feed cfg c (rs ++ rs') = feed cfg c rs ++ feed cfg (rs.foldl (feedTick cfg) c) rs' := by
  induction rs generalizing c with
  | nil => rfl
  | cons r rs ih => exact congrArg _ (ih (feedTick cfg c r))

end Feeding

section Engine
variable {F : Type} [DoubleSqrt F] {cfg : AdvancedConfig F} {fuel : ℕ}

theorem publish_cusum (cfg : AdvancedConfig F) (s : AdvancedState F) (i : ℕ) :
    (publishProfile cfg s i).cusum = s.cusum ∧
      (publishProfile cfg s i).lastPrice = s.lastPrice := by
  unfold publishProfile
  split
  · exact ⟨rfl, rfl⟩
  · extract_lets
    split_ifs <;> exact ⟨rfl, rfl⟩

theorem trade_cusum {s r : AdvancedState F} {price : F} {t : Trade F}
    (h : onTrade cfg fuel s price t = some r) : r.cusum = s.cusum ∧ r.lastPrice = price := by
  obtain ⟨vpin, -, hr⟩ := Option.bind_eq_some_iff.mp h
  rw [← Option.some.inj hr]
  exact ⟨rfl, rfl⟩

theorem results_feed (es : List (FeatureEvent F)) (s : AdvancedState F)
    (out : List (TickResult F)) (h : results cfg fuel s es = some out) :
    out = feed cfg.cusum s.cusum (references s.lastPrice es) := by
  induction es generalizing s out with
  | nil => exact (Option.some.inj h).symm
  | cons e es ih =>
    obtain ⟨next, hstep, h⟩ := Option.bind_eq_some_iff.mp h
    obtain ⟨rest, hrest, h⟩ := Option.bind_eq_some_iff.mp h
    have hfeed := ih next rest hrest
    cases e with
    | tick price =>
      obtain rfl := Option.some.inj hstep
      rw [← Option.some.inj h, hfeed]
      rfl
    | trade price t =>
      obtain ⟨hcusum, hlast⟩ := trade_cusum hstep
      rw [← Option.some.inj h, hfeed, hcusum, hlast]
      rfl
    | publish i =>
      obtain rfl := Option.some.inj hstep
      obtain ⟨hcusum, hlast⟩ := publish_cusum cfg s i
      rw [← Option.some.inj h, hfeed, hcusum, hlast]
      rfl

end Engine

section TwoRuns

def SameReference (a b : ℝ × ℝ) : Prop :=
  a.2 = b.2 ∨ (a.2 ≤ 0 ∧ b.2 ≤ 0) ∨ (a.1 = 0 ∧ 0 < a.2 ∧ 0 < b.2)

theorem tickReturn_eq_iff (p a b : ℝ) :
    tickReturn a p = tickReturn b p ↔ SameReference (p, a) (p, b) := by
  unfold SameReference tickReturn
  rw [zero_real]
  by_cases ha : 0 < a
  · by_cases hb : 0 < b
    · rw [if_pos ha, if_pos hb, Option.some_inj, sub_div, sub_div, div_self ha.ne',
        div_self hb.ne', sub_left_inj, div_eq_div_iff ha.ne' hb.ne', mul_eq_mul_left_iff]
      constructor
      · rintro (h | h)
        · exact Or.inl h.symm
        · exact Or.inr (Or.inr ⟨h, ha, hb⟩)
      · rintro (h | h | h)
        · exact Or.inl h.symm
        · exact absurd ha (not_lt.mpr h.1)
        · exact Or.inr h.1
    · rw [if_pos ha, if_neg hb]
      refine iff_of_false (by simp) ?_
      rintro (h | h | h)
      · exact hb (lt_of_lt_of_eq ha h)
      · exact absurd ha (not_lt.mpr h.1)
      · exact hb h.2.2
  · rw [if_neg ha]
    by_cases hb : 0 < b
    · rw [if_pos hb]
      refine iff_of_false (by simp) ?_
      rintro (h | h | h)
      · exact ha (lt_of_lt_of_eq hb h.symm)
      · exact absurd hb (not_lt.mpr h.2)
      · exact ha h.2.1
    · rw [if_neg hb]
      exact iff_of_true rfl (Or.inr (Or.inl ⟨not_lt.mp ha, not_lt.mp hb⟩))

def fedReturn {F : Type} [DoubleSqrt F] (r : F × F) : Option F := tickReturn r.2 r.1

variable (cfg : CusumConfig ℝ) (c : CusumState ℝ)

theorem feed_fed (rs : List (ℝ × ℝ)) : (feed cfg c rs).map TickResult.fed = rs.map fedReturn := by
  induction rs generalizing c with
  | nil => rfl
  | cons r rs ih => exact congrArg (fedReturn r :: ·) (ih (feedTick cfg c r))

variable (rs rs' : List (ℝ × ℝ))

theorem fed_eq_iff (h : rs.map Prod.fst = rs'.map Prod.fst) :
    rs.map fedReturn = rs'.map fedReturn ↔ List.Forall₂ SameReference rs rs' := by
  induction rs generalizing rs' with
  | nil =>
    obtain rfl := List.map_eq_nil_iff.mp h.symm
    exact iff_of_true rfl List.Forall₂.nil
  | cons r rs ih =>
    cases rs' with
    | nil => exact absurd h (by simp)
    | cons r' rs' =>
      obtain ⟨p, a⟩ := r
      obtain ⟨p', b⟩ := r'
      obtain ⟨rfl, htail⟩ := List.cons_eq_cons.mp h
      rw [List.map_cons, List.map_cons, List.cons_eq_cons, List.forall₂_cons, ih rs' htail]
      exact and_congr_left' (tickReturn_eq_iff p a b)

theorem feed_congr (h : rs.map fedReturn = rs'.map fedReturn) : feed cfg c rs = feed cfg c rs' := by
  induction rs generalizing c rs' with
  | nil =>
    obtain rfl := List.map_eq_nil_iff.mp h.symm
    rfl
  | cons r rs ih =>
    cases rs' with
    | nil => exact absurd h (by simp)
    | cons r' rs' =>
      obtain ⟨hfed, htail⟩ := List.cons_eq_cons.mp h
      have hreturn : tickReturn r.2 r.1 = tickReturn r'.2 r'.1 := hfed
      rw [feed, feed, feedTick, feedTick, hreturn, ih _ rs' htail]

theorem feed_eq_iff (h : rs.map Prod.fst = rs'.map Prod.fst) :
    feed cfg c rs = feed cfg c rs' ↔ List.Forall₂ SameReference rs rs' := by
  rw [← fed_eq_iff rs rs' h]
  constructor
  · intro heq
    rw [← feed_fed cfg c rs, ← feed_fed cfg c rs', heq]
  · exact feed_congr cfg c rs rs'

def tickReferences (es : List (FeatureEvent ℝ)) : List (ℝ × ℝ) := (ticks es).zip (0 :: ticks es)

theorem tickReferences_ticks (es : List (FeatureEvent ℝ)) :
    (tickReferences es).map Prod.fst = ticks es :=
  List.map_fst_zip (Nat.le_succ _)

/-- Two runs with the same ticks have the same results where each tick follows the same
price in both, and the returns are those between ticks where that is the tick's before it. -/
theorem results_eq_iff (cfg : AdvancedConfig ℝ) (fuel : ℕ) (es es' : List (FeatureEvent ℝ))
    (out out' : List (TickResult ℝ)) (hticks : ticks es = ticks es')
    (h : results cfg fuel newEngine es = some out)
    (h' : results cfg fuel newEngine es' = some out') :
    (out = out' ↔ List.Forall₂ SameReference (references 0 es) (references 0 es')) ∧
      (out.map TickResult.fed = (tickReferences es).map fedReturn ↔
        List.Forall₂ SameReference (references 0 es) (tickReferences es)) := by
  have hzero : (newEngine : AdvancedState ℝ).lastPrice = 0 := zero_real
  have hfeed := results_feed es newEngine out h
  have hfeed' := results_feed es' newEngine out' h'
  rw [hzero] at hfeed hfeed'
  rw [hfeed, hfeed', feed_fed]
  constructor
  · apply feed_eq_iff
    rw [references_ticks, references_ticks, hticks]
  · apply fed_eq_iff
    rw [references_ticks, tickReferences_ticks]

end TwoRuns

section Sample

theorem calibrating_trade (cfg : AdvancedConfig ℝ) (fuel : ℕ) {s : AdvancedState ℝ}
    (hs : s.vpin = newVpin) (price : ℝ) (t : Trade ℝ) :
    ∃ r, onTrade cfg fuel s price t = some r := by
  simp [onTrade, hs, newVpin, updateVpin, calibrate]

theorem results_ticks (cfg : AdvancedConfig ℝ) (fuel : ℕ) (prices : List ℝ)
    (es : List (FeatureEvent ℝ))
    (h : ∀ s : AdvancedState ℝ, s.vpin = newVpin → ∃ out, results cfg fuel s es = some out)
    (s : AdvancedState ℝ) (hs : s.vpin = newVpin) :
    ∃ out, results cfg fuel s (prices.map .tick ++ es) = some out := by
  induction prices generalizing s with
  | nil => exact h s hs
  | cons p prices ih =>
    obtain ⟨out, hout⟩ := ih (onTick cfg s p) hs
    rw [List.map_cons, List.cons_append, results]
    simp only [step, Option.bind_eq_bind, Option.bind_some, hout]
    exact ⟨_, rfl⟩

theorem ticks_map (prices : List ℝ) (es : List (FeatureEvent ℝ)) :
    ticks (prices.map .tick ++ es) = prices ++ ticks es := by
  induction prices with
  | nil => rfl
  | cons p prices ih => exact congrArg (p :: ·) ih

theorem references_constant (p : ℝ) (n : ℕ) (es : List (FeatureEvent ℝ)) :
    references p ((List.replicate n p).map .tick ++ es) =
      List.replicate n (p, p) ++ references p es := by
  induction n with
  | zero => rfl
  | succ n ih => exact congrArg ((p, p) :: ·) ih

/-- A price that stays leaves returns of zero only. -/
theorem steady_cusum (n : ℕ) (hn : n ≤ 20) :
    (List.replicate n (100, 100)).foldl (feedTick (defaultConfig : AdvancedConfig ℝ).cusum)
        newCusum = { newCusum with returnsBuffer := List.replicate n 0 } := by
  induction n with
  | zero => rfl
  | succ n ih =>
    have hshort : ¬ 20 ≤ n := by omega
    have hkept : ¬ 100 < n + 1 := by omega
    rw [List.replicate_succ', List.foldl_append, ih (by omega)]
    norm_num [feedTick, tickReturn, cusumOf, updateCusum, newCusum, defaultConfig, hshort, hkept,
      List.replicate_succ']

noncomputable def steadyCusum : CusumState ℝ :=
  { newCusum with returnsBuffer := List.replicate 20 0 }

theorem steady_sigma : returnsMean steadyCusum.returnsBuffer = 0 ∧
    returnsSigma steadyCusum.returnsBuffer = 1 / 10 ^ 12 := by
  have hmean : returnsMean (List.replicate 20 (0 : ℝ)) = 0 := by
    norm_num [returnsMean, List.replicate]
  refine ⟨hmean, ?_⟩
  have hsum : ((List.replicate 20 (0 : ℝ)).foldl (fun s r => s + (r - 0) * (r - 0)) 0.0) = 0 := by
    norm_num [List.replicate]
  simp only [steadyCusum, returnsSigma, hmean, hsum, zero_div]
  norm_num [DoubleSqrt.sqrt]

/-- The move from the price that stayed is a change of the regime. -/
theorem move_detected :
    (feedTick (defaultConfig : AdvancedConfig ℝ).cusum steadyCusum (110, 100)).changeDetected =
      true := by
  obtain ⟨hmean, hsigma⟩ := steady_sigma
  have hlen : 20 ≤ steadyCusum.returnsBuffer.length := by decide
  have hfed : tickReturn (100 : ℝ) 110 = some (1 / 10) := by
    norm_num [tickReturn]
  rw [feedTick, hfed]
  simp only [cusumOf, updateCusum, if_pos hlen, detect, hmean, hsigma, stdMax_real]
  norm_num [steadyCusum, newCusum, defaultConfig]

theorem move_hidden :
    (feedTick (defaultConfig : AdvancedConfig ℝ).cusum steadyCusum (110, 110)).changeDetected =
      false := by
  obtain ⟨hmean, hsigma⟩ := steady_sigma
  have hlen : 20 ≤ steadyCusum.returnsBuffer.length := by decide
  have hfed : tickReturn (110 : ℝ) 110 = some 0 := by
    norm_num [tickReturn]
  rw [feedTick, hfed]
  simp only [cusumOf, updateCusum, if_pos hlen, detect, hmean, hsigma, stdMax_real]
  norm_num [steadyCusum, newCusum, defaultConfig]

def steadyTicks : List ℝ := 100 :: List.replicate 20 100

theorem steady_references (es : List (FeatureEvent ℝ)) :
    references 0 (steadyTicks.map .tick ++ es) =
      ((100, 0) :: List.replicate 20 (100, 100)) ++ references 100 es :=
  congrArg ((100, 0) :: ·) (references_constant 100 20 es)

theorem steady_results {es : List (FeatureEvent ℝ)} {out : List (TickResult ℝ)}
    (h : results defaultConfig 0 newEngine (steadyTicks.map .tick ++ es) = some out) :
    out = feed (defaultConfig : AdvancedConfig ℝ).cusum newCusum
        ((100, 0) :: List.replicate 20 (100, 100)) ++
      feed (defaultConfig : AdvancedConfig ℝ).cusum steadyCusum (references 100 es) := by
  have hzero : (newEngine : AdvancedState ℝ).lastPrice = 0 := zero_real
  have hfirst : tickReturn (0 : ℝ) 100 = none := by
    norm_num [tickReturn]
  have hsteady := steady_cusum 20 le_rfl
  rw [results_feed _ _ out h, hzero, steady_references, feed_append, List.foldl_cons,
    feedTick, hfirst]
  exact congrArg (fun c => _ ++ feed _ c _) hsteady

/-- A trade between two ticks can change the flag that is computed after the second one. -/
theorem trade_changes_flag : ¬ ∀ (cfg : AdvancedConfig ℝ) (fuel : ℕ)
    (es es' : List (FeatureEvent ℝ)) (out out' : List (TickResult ℝ)), ticks es = ticks es' →
    results cfg fuel newEngine es = some out → results cfg fuel newEngine es' = some out' →
    out.map (fun r => r.cusum.changeDetected) = out'.map (fun r => r.cusum.changeDetected) := by
  intro hall
  let tail : List (FeatureEvent ℝ) := [.tick 110]
  let tail' : List (FeatureEvent ℝ) := [.trade 110 ⟨1, true⟩, .tick 110]
  obtain ⟨out, hout⟩ := results_ticks defaultConfig 0 steadyTicks tail
    (fun s _ => ⟨_, rfl⟩) newEngine rfl
  obtain ⟨out', hout'⟩ := results_ticks defaultConfig 0 steadyTicks tail' (fun s hs => by
    obtain ⟨r, hr⟩ := calibrating_trade defaultConfig 0 hs 110 ⟨1, true⟩
    simp only [tail', results, step, hr, Option.bind_eq_bind, Option.bind_some]
    exact ⟨_, rfl⟩) newEngine rfl
  have hticks : ticks (steadyTicks.map .tick ++ tail) = ticks (steadyTicks.map .tick ++ tail') := by
    rw [ticks_map, ticks_map]
    rfl
  have hsame := hall defaultConfig 0 _ _ out out' hticks hout hout'
  rw [steady_results hout, steady_results hout', List.map_append, List.map_append] at hsame
  have hlast := List.append_cancel_left hsame
  simp only [tail, tail', references, feed, List.map_cons, List.map_nil, move_detected,
    move_hidden] at hlast
  exact absurd hlast (by decide)

theorem trade_at_tick : ∃ out out',
    results defaultConfig 0 newEngine [.tick (100 : ℝ), .tick 101] = some out ∧
      results defaultConfig 0 newEngine [.tick 100, .trade 100 ⟨1, true⟩, .tick 101] = some out' ∧
      (out = out' ↔ List.Forall₂ SameReference
        (references 0 [.tick 100, .tick 101])
        (references 0 [.tick 100, .trade 100 ⟨1, true⟩, .tick 101])) ∧
      (out.map TickResult.fed = (tickReferences [.tick 100, .tick 101]).map fedReturn ↔
        List.Forall₂ SameReference (references 0 [.tick 100, .tick 101])
          (tickReferences [.tick 100, .tick 101])) := by
  obtain ⟨out, hout⟩ := results_ticks defaultConfig 0 [100, 101] [] (fun s _ => ⟨_, rfl⟩)
    newEngine rfl
  obtain ⟨out', hout'⟩ := results_ticks defaultConfig 0 [100] [.trade 100 ⟨1, true⟩, .tick 101]
    (fun s hs => by
      obtain ⟨r, hr⟩ := calibrating_trade defaultConfig 0 hs 100 ⟨1, true⟩
      simp only [results, step, hr, Option.bind_eq_bind, Option.bind_some]
      exact ⟨_, rfl⟩) newEngine rfl
  exact ⟨out, out', hout, hout', results_eq_iff defaultConfig 0 _ _ out out' rfl hout hout'⟩

end Sample

end TB.AdvancedFeatures
