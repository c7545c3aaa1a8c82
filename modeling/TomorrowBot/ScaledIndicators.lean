import TomorrowBot.ReflectedIndicators

/-!
# Indicators of a series in other units

All prices are multiplied by a constant. The relative indicators stay the same as
long as no quantity that is compared with an absolute bound changes its side.
-/

set_option autoImplicit false

namespace TB.IndicatorEngine
open TB.CommonTypes TB.Numeric

noncomputable section Scaling
variable {c : ℝ}

def scale (c : ℝ) (prices : List ℝ) : List ℝ := prices.map (c * ·)

theorem scale_length (prices : List ℝ) : (scale c prices).length = prices.length :=
  List.length_map _

theorem barAt_scale (prices : List ℝ) (i : ℕ) : barAt (scale c prices) i = c * barAt prices i := by
  unfold barAt scale
  rw [List.getD_eq_getElem?_getD, List.getD_eq_getElem?_getD, List.getElem?_map]
  cases prices[i]? with
  | none =>
    show (0.0 : ℝ) = c * 0.0
    rw [zero_real, mul_zero]
  | some p => rfl

def InRange (prices : List ℝ) : Prop := ∀ p ∈ prices, 1e-4 ≤ p ∧ p ≤ 1e8

theorem isValidSeries_of_range {prices : List ℝ} (h : InRange prices) :
    isValidSeries prices = !prices.isEmpty := by
  have hall : prices.all (fun p => decide (IsValidPrice p)) = true := by
    refine List.all_eq_true.mpr fun p hp => decide_eq_true ⟨rfl, ?_, ?_⟩
    · have hlow := (h p hp).1
      have hmin : (kMinValidPrice : ℝ) < 1e-4 := by norm_num [kMinValidPrice]
      exact hmin.trans_le hlow
    · have hhigh := (h p hp).2
      have hmax : (1e8 : ℝ) < kMaxReasonablePrice := by norm_num [kMaxReasonablePrice]
      exact hhigh.trans_lt hmax
  unfold isValidSeries
  rw [hall, Bool.and_true]

theorem isValidSeries_scale {prices : List ℝ} (h : InRange prices) (h' : InRange (scale c prices)) :
    isValidSeries (scale c prices) = isValidSeries prices := by
  rw [isValidSeries_of_range h, isValidSeries_of_range h']
  unfold scale
  rw [List.isEmpty_map]

theorem safeDiv_scale (c x y : ℝ) : safeDiv (c * x) y 0.0 = c * safeDiv x y 0.0 := by
  rw [safeDiv_real, safeDiv_real, zero_real]
  split_ifs
  · exact (mul_zero c).symm
  · exact mul_div_assoc c x y

def SameSide (c x : ℝ) : Prop := |c * x| < kEpsilon ↔ |x| < kEpsilon

theorem safeDiv_same (hc : 0 < c) {y : ℝ} (h : SameSide c y) (x fallback : ℝ) :
    safeDiv (c * x) (c * y) fallback = safeDiv x y fallback := by
  rw [safeDiv_real, safeDiv_real, mul_div_mul_left x y hc.ne']
  exact if_congr h rfl rfl

section Rsi

def scalePair (c : ℝ) (acc : ℝ × ℝ) : ℝ × ℝ := (c * acc.1, c * acc.2)

theorem moves_scale (prices : List ℝ) : moves (scale c prices) = (moves prices).map (c * ·) := by
  unfold moves
  rw [scale_length, List.map_map]
  refine List.map_congr_left fun i _ => ?_
  rw [barAt_scale, barAt_scale, ← mul_sub]
  rfl

theorem seedStep_scale (hc : 0 < c) (acc : ℝ × ℝ) (d : ℝ) :
    seedStep (scalePair c acc) (c * d) = scalePair c (seedStep acc d) := by
  have hsign : 0 < c * d ↔ 0 < d := mul_pos_iff_of_pos_left hc
  unfold seedStep scalePair
  simp only [zero_real, hsign]
  split_ifs
  · exact Prod.ext (mul_add c _ _).symm rfl
  · exact Prod.ext rfl (by ring)

theorem wilder_scale (period : ℕ) (avg x : ℝ) :
    wilder period (c * avg) (c * x) = c * wilder period avg x := by
  unfold wilder
  rw [← mul_div_assoc]
  congr 1
  ring

theorem smoothStep_scale (hc : 0 < c) (period : ℕ) (acc : ℝ × ℝ) (d : ℝ) :
    smoothStep period (scalePair c acc) (c * d) = scalePair c (smoothStep period acc d) := by
  have hgain : (if 0.0 < c * d then c * d else 0.0) = c * (if 0.0 < d then d else 0.0) := by
    simp only [zero_real, mul_pos_iff_of_pos_left hc]
    split_ifs
    · rfl
    · exact (mul_zero c).symm
  have hloss : (if c * d < 0.0 then -(c * d) else 0.0) = c * (if d < 0.0 then -d else 0.0) := by
    have hneg : c * d < 0 ↔ d < 0 :=
      ⟨fun h => not_le.mp fun hd => absurd (mul_nonneg hc.le hd) (not_le.mpr h),
        mul_neg_of_pos_of_neg hc⟩
    simp only [zero_real, hneg]
    split_ifs
    · exact (mul_neg c d).symm
    · exact (mul_zero c).symm
  unfold smoothStep
  dsimp only
  rw [hgain, hloss]
  exact Prod.ext (wilder_scale _ _ _) (wilder_scale _ _ _)

theorem averages_scale (hc : 0 < c) (prices : List ℝ) (period : ℕ) :
    averages (scale c prices) period = scalePair c (averages prices period) := by
  have hzero : ((0.0 : ℝ), (0.0 : ℝ)) = scalePair c (0.0, 0.0) := by
    unfold scalePair
    rw [zero_real, mul_zero]
  unfold averages
  dsimp only
  rw [moves_scale, ← List.map_take, ← List.map_drop, hzero,
    foldl_transfer (scalePair c) (c * ·) (seedStep_scale hc)]
  have hstart : ∀ acc : ℝ × ℝ, ((scalePair c acc).1 / ofInt (period : ℤ),
      (scalePair c acc).2 / ofInt (period : ℤ)) =
        scalePair c (acc.1 / ofInt (period : ℤ), acc.2 / ofInt (period : ℤ)) := fun acc =>
    Prod.ext (mul_div_assoc c _ _) (mul_div_assoc c _ _)
  rw [hstart, foldl_transfer (scalePair c) (c * ·) (smoothStep_scale hc period), ← hzero]

theorem rsiOf_scale_iff (hc : 0 < c) {g l : ℝ} (hg : 0 ≤ g) :
    rsiOf (c * g) (c * l) = rsiOf g l ↔ (c * l < kEpsilon ↔ l < kEpsilon) := by
  have hcg : 0 ≤ c * g := mul_nonneg hc.le hg
  -- the average below the bound in one unit only is not zero
  have hpart : ∀ {x y : ℝ}, 0 ≤ x → kEpsilon ≤ y → 100 * x / (x + y) ≠ 100 := by
    intro x y hx hy hfull
    have hpos : 0 < y := kEpsilon_pos.trans_le hy
    rw [div_eq_iff (by linarith)] at hfull
    linarith
  rcases lt_or_ge l kEpsilon with hn | hf <;> rcases lt_or_ge (c * l) kEpsilon with hn' | hf'
  · rw [rsiOf_near _ hn, rsiOf_near _ hn']
    exact iff_of_true rfl (iff_of_true hn' hn)
  · rw [rsiOf_near _ hn, rsiOf_far hcg hf']
    exact iff_of_false (hpart hcg hf') fun h => absurd (h.mpr hn) (not_lt.mpr hf')
  · rw [rsiOf_far hg hf, rsiOf_near _ hn']
    exact iff_of_false (fun h => hpart hg hf h.symm) fun h => absurd (h.mp hn') (not_lt.mpr hf)
  · rw [rsiOf_far hg hf, rsiOf_far hcg hf']
    refine iff_of_true ?_ (iff_of_false (not_lt.mpr hf') (not_lt.mpr hf))
    rw [← mul_add, mul_left_comm, mul_div_mul_left _ _ hc.ne']

theorem rsi_scale (hc : 0 < c) {prices : List ℝ} (h : InRange prices)
    (h' : InRange (scale c prices)) (period : ℕ) :
    (rsi (scale c prices) period).valid = (rsi prices period).valid ∧
      ((rsi prices period).valid = true →
        ((rsi (scale c prices) period).value = (rsi prices period).value ↔
          (c * (averages prices period).2 < kEpsilon ↔
            (averages prices period).2 < kEpsilon))) := by
  unfold rsi
  dsimp only
  rw [scale_length, isValidSeries_scale h h', averages_scale hc]
  split_ifs with hperiod hshort hvalid
  · exact ⟨rfl, fun hf => hf.elim⟩
  · exact ⟨rfl, fun hf => hf.elim⟩
  · exact ⟨rfl, fun hf => hf.elim⟩
  · have hg := (averages_nonneg prices (Nat.pos_of_ne_zero hperiod)).1
    exact ⟨rfl, fun _ => rsiOf_scale_iff hc hg⟩

end Rsi

section Adx

def Directional.scale (c : ℝ) (s : Directional ℝ) : Directional ℝ :=
  ⟨c * s.plus, c * s.minus, c * s.range⟩

theorem trueRange_scale (hc : 0 < c) (high low close : List ℝ) (i : ℕ) :
    trueRange (scale c high) (scale c low) (scale c close) i = c * trueRange high low close i := by
  unfold trueRange
  simp only [stdMax_real, stdAbs_real, barAt_scale, ← mul_sub, abs_mul, abs_of_pos hc,
    mul_max_of_nonneg _ _ hc.le]

theorem directional_scale (hc : 0 < c) (high low close : List ℝ) (i : ℕ) :
    directional (scale c high) (scale c low) (scale c close) i =
      (directional high low close i).scale c := by
  have hpick : ∀ x y : ℝ, (if c * y < c * x ∧ 0.0 < c * x then c * x else 0.0) =
      c * (if y < x ∧ 0.0 < x then x else 0.0) := by
    intro x y
    simp only [zero_real, mul_lt_mul_iff_right₀ hc, mul_pos_iff_of_pos_left hc]
    split_ifs
    · rfl
    · exact (mul_zero c).symm
  unfold directional Directional.scale
  simp only [barAt_scale, ← mul_sub, hpick, trueRange_scale hc]

theorem directionals_scale (hc : 0 < c) (high low close : List ℝ) :
    directionals (scale c high) (scale c low) (scale c close) =
      (directionals high low close).map (Directional.scale c) := by
  unfold directionals
  rw [scale_length, List.map_map]
  exact List.map_congr_left fun i _ => directional_scale hc high low close (i + 1)

theorem add_scale (a b : Directional ℝ) : (a.scale c).add (b.scale c) = (a.add b).scale c := by
  unfold Directional.add Directional.scale
  simp only [mul_add]

theorem smooth_scale (period : ℕ) (a b : Directional ℝ) :
    (a.scale c).smooth period (b.scale c) = (a.smooth period b).scale c := by
  unfold Directional.smooth Directional.scale
  simp only [safeDiv_scale, mul_add, mul_sub]

variable (ms : List (Directional ℝ))

theorem directionalSeed_scale (period : ℕ) : directionalSeed (ms.map (Directional.scale c)) period =
      (directionalSeed ms period).scale c := by
  have hzero : (⟨0.0, 0.0, 0.0⟩ : Directional ℝ) = Directional.scale c ⟨0.0, 0.0, 0.0⟩ := by
    unfold Directional.scale
    rw [zero_real, mul_zero]
  unfold directionalSeed
  rw [← List.map_take]
  conv_lhs => rw [hzero]
  exact foldl_transfer (Directional.scale c) (Directional.scale c) add_scale _ _

theorem smoothings_scale (period : ℕ) : smoothings (ms.map (Directional.scale c)) period =
      (smoothings ms period).map (Directional.scale c) := by
  unfold smoothings
  rw [← List.map_drop, directionalSeed_scale]
  exact scanl_transfer (Directional.scale c) (Directional.scale c) (smooth_scale period) _ _

theorem lastSmoothing_scale (period : ℕ) :
    lastSmoothing (ms.map (Directional.scale c)) period = (lastSmoothing ms period).scale c := by
  unfold lastSmoothing
  rw [← List.map_drop, directionalSeed_scale]
  exact foldl_transfer (Directional.scale c) (Directional.scale c) (smooth_scale period) _ _

theorem scanl_getLast_mem {α β : Type} (f : α → β → α) (l : List β) (a : α) :
    l.foldl f a ∈ l.scanl f a := by
  induction l generalizing a with
  | nil => exact List.mem_singleton_self a
  | cons b l ih =>
    rw [List.scanl_cons]
    exact List.mem_cons_of_mem _ (ih _)

theorem plusDi_scale (hc : 0 < c) {s : Directional ℝ} (h : SameSide c s.range) :
    (s.scale c).plusDi = s.plusDi ∧ (s.scale c).minusDi = s.minusDi := by
  unfold Directional.plusDi Directional.minusDi Directional.scale
  rw [mul_left_comm, mul_left_comm 100.0 c s.minus, safeDiv_same hc h, safeDiv_same hc h]
  exact ⟨rfl, rfl⟩

theorem calcDx_scale (hc : 0 < c) {s : Directional ℝ} (h : SameSide c s.range) :
    (s.scale c).calcDx = s.calcDx := by
  obtain ⟨hplus, hminus⟩ := plusDi_scale hc h
  unfold Directional.calcDx
  rw [hplus, hminus]

theorem adx_scale (hc : 0 < c) {high low close : List ℝ} (hhigh : InRange high)
    (hhigh' : InRange (scale c high)) (hlow : InRange low) (hlow' : InRange (scale c low))
    (hclose : InRange close) (hclose' : InRange (scale c close)) (period : ℕ) :
    (adx (scale c high) (scale c low) (scale c close) period).valid =
        (adx high low close period).valid ∧
      ((∀ s ∈ smoothings (directionals high low close) period, SameSide c s.range) →
        adx (scale c high) (scale c low) (scale c close) period = adx high low close period) := by
  have hlen : ((smoothings (directionals (scale c high) (scale c low) (scale c close))
      period).map Directional.calcDx).length =
        ((smoothings (directionals high low close) period).map Directional.calcDx).length := by
    rw [directionals_scale hc, smoothings_scale, List.length_map, List.length_map,
      List.length_map]
  constructor
  · unfold adx
    dsimp only
    rw [hlen, isValidSeries_scale hhigh hhigh', isValidSeries_scale hlow hlow',
      isValidSeries_scale hclose hclose']
    simp only [scale_length]
    split_ifs <;> rfl
  · intro hsame
    have hdx : (smoothings (directionals (scale c high) (scale c low) (scale c close))
        period).map Directional.calcDx =
          (smoothings (directionals high low close) period).map Directional.calcDx := by
      rw [directionals_scale hc, smoothings_scale, List.map_map]
      exact List.map_congr_left fun s hs => calcDx_scale hc (hsame s hs)
    obtain ⟨hplus, hminus⟩ := plusDi_scale hc (hsame (lastSmoothing _ period)
      (scanl_getLast_mem _ _ _))
    unfold adx
    dsimp only
    rw [hdx, directionals_scale hc, lastSmoothing_scale, hplus, hminus,
      isValidSeries_scale hhigh hhigh', isValidSeries_scale hlow hlow',
      isValidSeries_scale hclose hclose']
    simp only [scale_length]

end Adx

section Stochastic
variable {high low close : List ℝ} {kPeriod smoothK smoothD : ℕ}

theorem highest_scale (hc : 0 < c) (xs : List ℝ) (start len : ℕ) :
    highest (scale c xs) start len = c * highest xs start len := by
  unfold highest
  induction len with
  | zero => exact barAt_scale xs start
  | succ len ih =>
    rw [List.range_succ, List.foldl_append, List.foldl_append, ih]
    show stdMax _ (barAt (scale c xs) _) = c * stdMax _ _
    rw [barAt_scale, stdMax_real, stdMax_real, mul_max_of_nonneg _ _ hc.le]

theorem lowest_scale (hc : 0 < c) (xs : List ℝ) (start len : ℕ) :
    lowest (scale c xs) start len = c * lowest xs start len := by
  unfold lowest
  induction len with
  | zero => exact barAt_scale xs start
  | succ len ih =>
    rw [List.range_succ, List.foldl_append, List.foldl_append, ih]
    show stdMin _ (barAt (scale c xs) _) = c * stdMin _ _
    rw [barAt_scale, stdMin_real, stdMin_real, mul_min_of_nonneg _ _ hc.le]

def windowRange (high low : List ℝ) (kPeriod i : ℕ) : ℝ :=
  highest high (i + 1 - kPeriod) (kPeriod - 1) - lowest low (i + 1 - kPeriod) (kPeriod - 1)

def SameWindows (c : ℝ) (high low close : List ℝ) (kPeriod : ℕ) : Prop :=
  ∀ i < close.length, kPeriod - 1 ≤ i →
    (1e-12 < c * windowRange high low kPeriod i ↔ 1e-12 < windowRange high low kPeriod i)

theorem rawK_scale (hc : 0 < c) (h : SameWindows c high low close kPeriod) {i : ℕ}
    (hi : i < close.length) :
    rawK (scale c high) (scale c low) (scale c close) kPeriod i =
      rawK high low close kPeriod i := by
  unfold rawK
  by_cases hearly : i < kPeriod - 1
  · rw [if_pos hearly, if_pos hearly]
  · rw [if_neg hearly, if_neg hearly]
    have hside := h i hi (not_lt.mp hearly)
    unfold windowRange at hside
    dsimp only
    rw [highest_scale hc, lowest_scale hc, barAt_scale, ← mul_sub, ← mul_sub,
      mul_div_mul_left _ _ hc.ne']
    exact if_congr hside rfl rfl

theorem meanBack_congr {line line' : ℕ → ℝ} {count i : ℕ} (h : ∀ j ≤ i, line' j = line j) :
    meanBack line' count i = meanBack line count i := by
  rw [meanBack_eq, meanBack_eq]
  exact congrArg (· / _) (Finset.sum_congr rfl fun j _ => h (i - j) (Nat.sub_le i j))

theorem smoothedK_scale (hc : 0 < c) (h : SameWindows c high low close kPeriod) {i : ℕ}
    (hi : i < close.length) :
    smoothedK (scale c high) (scale c low) (scale c close) kPeriod smoothK i =
      smoothedK high low close kPeriod smoothK i := by
  unfold smoothedK
  rw [meanBack_congr fun j hj => rawK_scale hc h (hj.trans_lt hi)]

theorem lineD_scale (hc : 0 < c) (h : SameWindows c high low close kPeriod) {i : ℕ}
    (hi : i < close.length) :
    lineD (scale c high) (scale c low) (scale c close) kPeriod smoothK smoothD i =
      lineD high low close kPeriod smoothK smoothD i := by
  unfold lineD
  rw [meanBack_congr fun j hj => smoothedK_scale hc h (hj.trans_lt hi)]

theorem stochastic_scale (hc : 0 < c) :
    (stochastic (scale c high) (scale c low) (scale c close) kPeriod smoothK smoothD).valid =
        (stochastic high low close kPeriod smoothK smoothD).valid ∧
      (0 < kPeriod + smoothK + smoothD → SameWindows c high low close kPeriod →
        stochastic (scale c high) (scale c low) (scale c close) kPeriod smoothK smoothD =
          stochastic high low close kPeriod smoothK smoothD) := by
  constructor
  · unfold stochastic
    dsimp only
    simp only [scale_length]
    split_ifs <;> rfl
  · intro hpos hsame
    unfold stochastic
    dsimp only
    simp only [scale_length]
    by_cases hlengths : high.length ≠ close.length ∨ low.length ≠ close.length
    · rw [if_pos hlengths, if_pos hlengths]
    · by_cases hshort : close.length < kPeriod + smoothK + smoothD
      · rw [if_neg hlengths, if_neg hlengths, if_pos hshort, if_pos hshort]
      · have hlast : close.length - 1 < close.length := by omega
        have hprev : close.length - 2 < close.length := by omega
        rw [if_neg hlengths, if_neg hlengths, if_neg hshort, if_neg hshort,
          smoothedK_scale hc hsame hlast, smoothedK_scale hc hsame hprev,
          lineD_scale hc hsame hlast, lineD_scale hc hsame hprev]

end Stochastic

section Bollinger
variable {window : List ℝ} (l : List ℝ)

theorem sum_scale (a : ℝ) : (l.map (c * ·)).foldl (· + ·) (c * a) = c * l.foldl (· + ·) a :=
  foldl_transfer (c * ·) (c * ·) (fun _ _ => (mul_add c _ _).symm) l a

theorem middle_scale (period : ℕ) :
    safeDiv ((scale c l).foldl (· + ·) 0.0) (ofInt (period : ℤ)) 0.0 =
      c * safeDiv (l.foldl (· + ·) 0.0) (ofInt (period : ℤ)) 0.0 := by
  have hsum := sum_scale (c := c) l 0
  rw [mul_zero] at hsum
  unfold scale
  rw [zero_real, hsum]
  rw [← zero_real]
  exact safeDiv_scale c _ _

theorem variance_nonneg (m a : ℝ) (ha : 0 ≤ a) :
    0 ≤ l.foldl (fun var p => var + (p - m) * (p - m)) a := by
  induction l generalizing a with
  | nil => exact ha
  | cons p l ih => exact ih _ (add_nonneg ha (mul_self_nonneg _))

theorem variance_scale (m : ℝ) :
    (scale c l).foldl (fun var p => var + (p - c * m) * (p - c * m)) 0.0 =
      c * c * l.foldl (fun var p => var + (p - m) * (p - m)) 0.0 := by
  have hstep : ∀ a b : ℝ, c * c * a + (c * b - c * m) * (c * b - c * m) =
      c * c * (a + (b - m) * (b - m)) := by
    intro a b
    ring
  have hfold := foldl_transfer (f := fun var p => var + (p - m) * (p - m))
    (g := fun var p => var + (p - c * m) * (p - c * m)) (c * c * ·) (c * ·) hstep l 0.0
  rw [zero_real, mul_zero] at hfold
  rw [zero_real]
  exact hfold

theorem bandSigma_scale (hc : 0 < c) (l : List ℝ) (period : ℕ) :
    bandSigma (scale c l) period = c * bandSigma l period := by
  have hnonneg : 0 ≤ safeDiv (l.foldl (fun var p => var +
      (p - safeDiv (l.foldl (· + ·) 0.0) (ofInt (period : ℤ)) 0.0) *
        (p - safeDiv (l.foldl (· + ·) 0.0) (ofInt (period : ℤ)) 0.0)) 0.0)
          (ofInt (period : ℤ)) 0.0 := by
    have hperiod : (0 : ℝ) ≤ ofInt (period : ℤ) := Int.cast_nonneg (by omega)
    rw [safeDiv_real, zero_real]
    split_ifs
    · exact le_rfl
    · exact div_nonneg (variance_nonneg _ _ _ le_rfl) hperiod
  unfold bandSigma
  dsimp only
  rw [middle_scale, variance_scale, safeDiv_scale, safeSqrt_real hnonneg,
    safeSqrt_real (mul_nonneg (mul_nonneg hc.le hc.le) hnonneg),
    Real.sqrt_mul (mul_nonneg hc.le hc.le), Real.sqrt_mul_self hc.le]

theorem percentB_scale_iff (hc : 0 < c) {x w : ℝ} :
    (if kEpsilon < c * w then safeDiv (c * x) (c * w) 0.5 else 0.5) =
        (if kEpsilon < w then safeDiv x w 0.5 else 0.5) ↔
      (kEpsilon < c * w ↔ kEpsilon < w) ∨ x = w / 2 := by
  have hfar : ∀ {y z : ℝ}, kEpsilon < z → safeDiv y z 0.5 = y / z := fun hz =>
    safeDiv_far (hz.le.trans (le_abs_self _)) _ _
  have hhalf : ∀ {z : ℝ}, kEpsilon < z → (x / z = 0.5 ↔ x = z / 2) := by
    intro z hz
    rw [div_eq_iff (kEpsilon_pos.trans hz).ne']
    norm_num
    constructor <;> intro h <;> linarith
  by_cases hw : kEpsilon < w <;> by_cases hcw : kEpsilon < c * w
  · rw [if_pos hw, if_pos hcw, hfar hw, hfar hcw, mul_div_mul_left _ _ hc.ne']
    exact iff_of_true rfl (Or.inl (iff_of_true hcw hw))
  · rw [if_pos hw, if_neg hcw, hfar hw, eq_comm, hhalf hw]
    exact ⟨Or.inr, fun h => h.resolve_left fun hiff => hcw (hiff.mpr hw)⟩
  · rw [if_neg hw, if_pos hcw, hfar hcw, mul_div_mul_left _ _ hc.ne',
      div_eq_iff ((mul_pos_iff_of_pos_left hc).mp (kEpsilon_pos.trans hcw)).ne']
    refine ⟨fun h => Or.inr (by norm_num at h; linarith), fun h => ?_⟩
    have hx := h.resolve_left fun hiff => hw (hiff.mp hcw)
    rw [hx]
    norm_num
    ring
  · rw [if_neg hw, if_neg hcw]
    exact iff_of_true rfl (Or.inl (iff_of_false hcw hw))

def lastMiddle (prices : List ℝ) (period : ℕ) : ℝ :=
  safeDiv ((prices.drop (prices.length - period)).foldl (· + ·) 0.0) (ofInt (period : ℤ)) 0.0

def lastSigma (prices : List ℝ) (period : ℕ) : ℝ :=
  bandSigma (prices.drop (prices.length - period)) period

theorem window_scale (prices : List ℝ) (period : ℕ) :
    (scale c prices).drop ((scale c prices).length - period) =
      scale c (prices.drop (prices.length - period)) := by
  unfold scale
  rw [List.length_map, List.map_drop]

theorem bollinger_scale (hc : 0 < c) {prices : List ℝ} (h : InRange prices)
    (h' : InRange (scale c prices)) (period : ℕ) (stddevMult : ℝ) :
    (bollinger (scale c prices) period stddevMult).valid =
        (bollinger prices period stddevMult).valid ∧
      ((bollinger prices period stddevMult).valid = true →
        ((bollinger (scale c prices) period stddevMult).percentB =
            (bollinger prices period stddevMult).percentB ↔
          (kEpsilon < c * (2 * stddevMult * lastSigma prices period) ↔
            kEpsilon < 2 * stddevMult * lastSigma prices period) ∨
          barAt prices (prices.length - 1) = lastMiddle prices period)) := by
  have hmiddle : lastMiddle (scale c prices) period = c * lastMiddle prices period := by
    unfold lastMiddle
    rw [window_scale, middle_scale]
  have hsigma : lastSigma (scale c prices) period = c * lastSigma prices period := by
    unfold lastSigma
    rw [window_scale, bandSigma_scale hc]
  -- the position of the price between the bands
  have hpercent : ∀ ps : List ℝ, isValidSeries ps = true →
      ¬ (period = 0 ∨ stddevMult < 0.0) → ¬ ps.length < period →
      (bollinger ps period stddevMult).percentB =
        if kEpsilon < 2 * stddevMult * lastSigma ps period then
          safeDiv (barAt ps (ps.length - 1) -
            (lastMiddle ps period - stddevMult * lastSigma ps period))
            (2 * stddevMult * lastSigma ps period) 0.5
        else 0.5 := by
    intro ps hps hbad hshort
    have hwidth : ∀ m s : ℝ, m + stddevMult * s - (m - stddevMult * s) = 2 * stddevMult * s := by
      intro m s
      ring
    unfold bollinger
    dsimp only
    rw [if_neg hbad, if_neg hshort, hps]
    simp only [hwidth, Bool.not_true, Bool.false_eq_true, if_false]
    rfl
  have hvalid := isValidSeries_scale h h'
  refine ⟨?_, fun hok => ?_⟩
  · unfold bollinger
    dsimp only
    rw [scale_length, hvalid]
    split_ifs <;> rfl
  · have hgood : ¬ (period = 0 ∨ stddevMult < 0.0) ∧ ¬ prices.length < period ∧
        isValidSeries prices = true := by
      unfold bollinger at hok
      dsimp only at hok
      by_cases hbad : period = 0 ∨ stddevMult < 0.0
      · rw [if_pos hbad] at hok
        exact absurd hok Bool.false_ne_true
      · by_cases hshort : prices.length < period
        · rw [if_neg hbad, if_pos hshort] at hok
          exact absurd hok Bool.false_ne_true
        · cases hps : isValidSeries prices with
          | true => exact ⟨hbad, hshort, rfl⟩
          | false =>
            rw [if_neg hbad, if_neg hshort, hps] at hok
            exact absurd hok Bool.false_ne_true
    obtain ⟨hbad, hshort, hps⟩ := hgood
    have hcenter : ∀ p m s : ℝ, p - (m - stddevMult * s) = 2 * stddevMult * s / 2 ↔ p = m := by
      intro p m s
      constructor <;> intro hp <;> linarith
    rw [hpercent prices hps hbad hshort,
      hpercent (scale c prices) (hvalid.trans hps) hbad (by rwa [scale_length]), hmiddle, hsigma,
      scale_length, barAt_scale, ← hcenter (barAt prices (prices.length - 1))
        (lastMiddle prices period) (lastSigma prices period), ← percentB_scale_iff hc]
    have hlow : c * barAt prices (prices.length - 1) -
        (c * lastMiddle prices period - stddevMult * (c * lastSigma prices period)) =
          c * (barAt prices (prices.length - 1) -
            (lastMiddle prices period - stddevMult * lastSigma prices period)) := by
      ring
    have hband : 2 * stddevMult * (c * lastSigma prices period) =
        c * (2 * stddevMult * lastSigma prices period) := by
      ring
    rw [hlow, hband]

end Bollinger

structure Rescaled (c : ℝ) (high low close : List ℝ) (p : Periods) (bands : ℕ)
    (stddevMult : ℝ) : Prop where
  rsi : (rsi (scale c close) p.rsi).valid = (rsi close p.rsi).valid ∧
    ((rsi close p.rsi).valid = true →
      ((rsi (scale c close) p.rsi).value = (rsi close p.rsi).value ↔
        (c * (averages close p.rsi).2 < kEpsilon ↔ (averages close p.rsi).2 < kEpsilon)))
  adx : (adx (scale c high) (scale c low) (scale c close) p.adx).valid =
      (adx high low close p.adx).valid ∧
    ((∀ s ∈ smoothings (directionals high low close) p.adx, SameSide c s.range) →
      adx (scale c high) (scale c low) (scale c close) p.adx = adx high low close p.adx)
  bollinger : (bollinger (scale c close) bands stddevMult).valid =
      (bollinger close bands stddevMult).valid ∧
    ((bollinger close bands stddevMult).valid = true →
      ((bollinger (scale c close) bands stddevMult).percentB =
          (bollinger close bands stddevMult).percentB ↔
        (kEpsilon < c * (2 * stddevMult * lastSigma close bands) ↔
          kEpsilon < 2 * stddevMult * lastSigma close bands) ∨
        barAt close (close.length - 1) = lastMiddle close bands))
  stochastic :
    (stochastic (scale c high) (scale c low) (scale c close) p.k p.smoothK p.smoothD).valid =
        (stochastic high low close p.k p.smoothK p.smoothD).valid ∧
      (0 < p.k + p.smoothK + p.smoothD → SameWindows c high low close p.k →
        stochastic (scale c high) (scale c low) (scale c close) p.k p.smoothK p.smoothD =
          stochastic high low close p.k p.smoothK p.smoothD)

theorem indicators_scale (hc : 0 < c) {high low close : List ℝ} (hhigh : InRange high)
    (hhigh' : InRange (scale c high)) (hlow : InRange low) (hlow' : InRange (scale c low))
    (hclose : InRange close) (hclose' : InRange (scale c close)) (p : Periods) (bands : ℕ)
    (stddevMult : ℝ) : Rescaled c high low close p bands stddevMult :=
  ⟨rsi_scale hc hclose hclose' p.rsi,
    adx_scale hc hhigh hhigh' hlow hlow' hclose hclose' p.adx,
    bollinger_scale hc hclose hclose' bands stddevMult, stochastic_scale hc⟩

section Samples

def slightLoss : List ℝ := [1, 1 - 5e-10]

theorem slightLoss_range : InRange slightLoss := by
  intro p hp
  rcases List.mem_pair.mp hp with rfl | rfl <;> constructor <;> norm_num

theorem slightLoss_scaled : InRange (scale 100 slightLoss) := by
  intro p hp
  obtain ⟨q, hq, rfl⟩ := List.mem_map.mp hp
  rcases List.mem_pair.mp hq with rfl | rfl <;> constructor <;> norm_num

theorem slightLoss_averages : averages slightLoss 1 = (0, 5e-10) := by
  have hmoves : moves slightLoss = [-5e-10] := by
    norm_num [moves, slightLoss, barAt, List.range_succ]
  unfold averages
  rw [hmoves]
  show ((seedStep (0.0, 0.0) (-5e-10)).1 / ((1 : ℤ) : ℝ),
    (seedStep (0.0, 0.0) (-5e-10)).2 / ((1 : ℤ) : ℝ)) = (0, 5e-10)
  norm_num [seedStep]

theorem slightLoss_valid : (rsi slightLoss 1).valid = true := by
  have hseries : isValidSeries slightLoss = true := isValidSeries_of_range slightLoss_range
  unfold rsi
  dsimp only
  rw [if_neg (by decide), if_neg (by simp [slightLoss]), hseries]
  rfl

/-- The same loss is none in large units and the only move in small ones. -/
theorem unit_decides : ¬ ∀ (c : ℝ) (prices : List ℝ) (period : ℕ), 0 < c → InRange prices →
    InRange (scale c prices) →
      (rsi (scale c prices) period).value = (rsi prices period).value := by
  intro h
  have hsame := h 100 slightLoss 1 (by norm_num) slightLoss_range slightLoss_scaled
  have hside := ((rsi_scale (by norm_num) slightLoss_range slightLoss_scaled 1).2
    slightLoss_valid).mp hsame
  rw [slightLoss_averages] at hside
  exact absurd (hside.mpr (by norm_num [kEpsilon])) (by norm_num [kEpsilon])

theorem indicators_scale_slight :
    Rescaled 100 slightLoss slightLoss slightLoss shortPeriods 2 2 :=
  indicators_scale (by norm_num) slightLoss_range slightLoss_scaled slightLoss_range
    slightLoss_scaled slightLoss_range slightLoss_scaled shortPeriods 2 2

end Samples

end Scaling

end TB.IndicatorEngine
