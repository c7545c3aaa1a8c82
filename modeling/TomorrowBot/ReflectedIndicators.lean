import TomorrowBot.Oscillators
import Mathlib.Algebra.BigOperators.Group.Finset.Basic
import Mathlib.Tactic.FieldSimp

/-!
# Indicators of a reflected series

A price series is reflected about a constant, with highs and lows exchanged.
Directional movements, gains and losses, the window of the stochastic and the
bands are exchanged with it. Where a comparison decides an equality for one side,
the indicator keeps that side.
-/

set_option autoImplicit false

namespace TB.IndicatorEngine
open TB.CommonTypes TB.Numeric

noncomputable section Reflection
variable {K : ℝ}

def reflect (K : ℝ) (prices : List ℝ) : List ℝ := prices.map (K - ·)

theorem reflect_length (prices : List ℝ) : (reflect K prices).length = prices.length :=
  List.length_map _

variable {prices : List ℝ}

theorem barAt_reflect {i : ℕ} (h : i < prices.length) :
    barAt (reflect K prices) i = K - barAt prices i := by
  unfold barAt reflect
  rw [List.getD_eq_getElem?_getD, List.getD_eq_getElem?_getD, List.getElem?_map,
    List.getElem?_eq_getElem h]
  rfl

def Accepted (K : ℝ) (prices : List ℝ) : Prop :=
  ∀ p ∈ prices, IsValidPrice p ∧ IsValidPrice (K - p)

theorem isValidSeries_reflect (h : Accepted K prices) :
    isValidSeries (reflect K prices) = isValidSeries prices := by
  have hvalid : ∀ p ∈ prices, decide (IsValidPrice (K - p)) = decide (IsValidPrice p) := by
    intro p hp
    rw [decide_eq_true (h p hp).1, decide_eq_true (h p hp).2]
  unfold isValidSeries reflect
  rw [List.isEmpty_map, List.all_map]
  congr 1
  rw [Bool.eq_iff_iff, List.all_eq_true, List.all_eq_true]
  exact forall₂_congr fun p hp => by rw [Function.comp_apply, hvalid p hp]

section Rsi

theorem moves_reflect (prices : List ℝ) :
    moves (reflect K prices) = (moves prices).map (fun d => -d) := by
  unfold moves
  rw [reflect_length, List.map_map]
  refine List.map_congr_left fun i hi => ?_
  have hlen := List.mem_range.mp hi
  rw [barAt_reflect (by omega), barAt_reflect (by omega)]
  show _ = -(_ - _)
  ring

theorem seedStep_neg (acc : ℝ × ℝ) (d : ℝ) :
    seedStep acc.swap (-d) = (seedStep acc d).swap := by
  unfold seedStep
  rw [zero_real]
  split_ifs with h1 h2 h2
  · linarith
  · exact Prod.ext rfl rfl
  · exact Prod.ext rfl (by show acc.1 + -(-d) = acc.1 + d; ring)
  · have hd : d = 0 := by linarith
    subst hd
    exact Prod.ext (by show acc.2 = acc.2 + -0; ring) (by show acc.1 + -(-0) = acc.1; ring)

theorem smoothStep_neg (period : ℕ) (acc : ℝ × ℝ) (d : ℝ) :
    smoothStep period acc.swap (-d) = (smoothStep period acc d).swap := by
  have hgain : (0.0 < -d) ↔ d < 0.0 := by
    rw [zero_real]
    exact neg_pos
  have hloss : (-d < 0.0) ↔ 0.0 < d := by
    rw [zero_real]
    exact neg_lt_zero
  unfold smoothStep
  simp only [hgain, hloss, neg_neg]
  rfl

theorem averages_reflect (prices : List ℝ) (period : ℕ) :
    averages (reflect K prices) period = (averages prices period).swap := by
  unfold averages
  dsimp only
  rw [moves_reflect, ← List.map_take, ← List.map_drop]
  have hseed := foldl_transfer Prod.swap (fun d : ℝ => -d) seedStep_neg
    ((moves prices).take period) (0.0, 0.0)
  rw [show ((0.0 : ℝ), (0.0 : ℝ)) = Prod.swap (0.0, 0.0) from rfl, hseed]
  exact foldl_transfer Prod.swap (fun d : ℝ => -d) (smoothStep_neg period)
    ((moves prices).drop period) (_, _)

theorem wilder_nonneg {period : ℕ} {avg x : ℝ} (hperiod : 0 < period) (havg : 0 ≤ avg)
    (hx : 0 ≤ x) : 0 ≤ wilder period avg x := by
  have hcount : (0 : ℝ) ≤ ofInt ((period : ℤ) - 1) := Int.cast_nonneg (by omega)
  have hlength : (0 : ℝ) ≤ ofInt (period : ℤ) := Int.cast_nonneg (by omega)
  unfold wilder
  positivity

theorem averages_nonneg (prices : List ℝ) {period : ℕ} (h : 0 < period) :
    0 ≤ (averages prices period).1 ∧ 0 ≤ (averages prices period).2 := by
  have hseed : ∀ (l : List ℝ) (acc : ℝ × ℝ), 0 ≤ acc.1 ∧ 0 ≤ acc.2 →
      0 ≤ (l.foldl seedStep acc).1 ∧ 0 ≤ (l.foldl seedStep acc).2 := by
    intro l
    induction l with
    | nil => exact fun acc hacc => hacc
    | cons d l ih =>
      refine fun acc hacc => ih _ ?_
      unfold seedStep
      rw [zero_real]
      split_ifs with hd
      · exact ⟨add_nonneg hacc.1 hd.le, hacc.2⟩
      · exact ⟨hacc.1, add_nonneg hacc.2 (neg_nonneg.mpr (not_lt.mp hd))⟩
  have hsmooth : ∀ (l : List ℝ) (acc : ℝ × ℝ), 0 ≤ acc.1 ∧ 0 ≤ acc.2 →
      0 ≤ (l.foldl (smoothStep period) acc).1 ∧ 0 ≤ (l.foldl (smoothStep period) acc).2 := by
    intro l
    induction l with
    | nil => exact fun acc hacc => hacc
    | cons d l ih =>
      refine fun acc hacc => ih _ ⟨wilder_nonneg h hacc.1 ?_, wilder_nonneg h hacc.2 ?_⟩
      · rw [zero_real]
        split_ifs with hd
        · exact hd.le
        · exact le_rfl
      · rw [zero_real]
        split_ifs with hd
        · exact (neg_pos.mpr hd).le
        · exact le_rfl
  have hperiod : (0 : ℝ) ≤ ofInt (period : ℤ) := Int.cast_nonneg (by omega)
  obtain ⟨hgain, hloss⟩ := hseed ((moves prices).take period) (0.0, 0.0)
    ⟨zero_real.ge, zero_real.ge⟩
  exact hsmooth _ _ ⟨div_nonneg hgain hperiod, div_nonneg hloss hperiod⟩

theorem rsiOf_far {g l : ℝ} (hg : 0 ≤ g) (hl : kEpsilon ≤ l) : rsiOf g l = 100 * g / (g + l) := by
  have hpos : 0 < l := kEpsilon_pos.trans_le hl
  have hden : (kEpsilon : ℝ) ≤ |1 + g / l| := by
    have hratio : 0 ≤ g / l := div_nonneg hg hpos.le
    rw [abs_of_pos (by linarith)]
    have heps : (kEpsilon : ℝ) ≤ 1 := by norm_num [kEpsilon]
    linarith
  have hloss : (kEpsilon : ℝ) ≤ |l| := by rwa [abs_of_pos hpos]
  have hsum : g + l ≠ 0 := by linarith
  have hhundred : (100.0 : ℝ) = 100 := by norm_num
  unfold rsiOf
  rw [if_neg (not_lt.mpr hl), one_real, safeDiv_far hloss, safeDiv_far hden, hhundred]
  field_simp
  ring

theorem rsiOf_near (g : ℝ) {l : ℝ} (h : l < kEpsilon) : rsiOf g l = 100 := by
  unfold rsiOf
  rw [if_pos h]
  norm_num

def Clear (g l : ℝ) : Prop :=
  (g = 0 ∨ kEpsilon ≤ g) ∧ (l = 0 ∨ kEpsilon ≤ l) ∧ (kEpsilon ≤ g ∨ kEpsilon ≤ l)

theorem rsiOf_swap_near {g l : ℝ} (hg : 0 ≤ g) (hgs : g < kEpsilon) (hl : kEpsilon ≤ l) :
    rsiOf l g = 100 - rsiOf g l ↔ g = 0 := by
  have hpos : 0 < g + l := add_pos_of_nonneg_of_pos hg (kEpsilon_pos.trans_le hl)
  rw [rsiOf_near l hgs, rsiOf_far hg hl]
  constructor
  · intro h
    have hzero : 100 * g / (g + l) = 0 := by linarith
    have hnum := (div_eq_zero_iff.mp hzero).resolve_right hpos.ne'
    linarith
  · rintro rfl
    norm_num

theorem rsiOf_swap_iff {g l : ℝ} (hg : 0 ≤ g) (hl : 0 ≤ l) :
    rsiOf l g = 100 - rsiOf g l ↔ Clear g l := by
  rcases lt_or_ge g kEpsilon with hgs | hgf <;> rcases lt_or_ge l kEpsilon with hls | hlf
  · rw [rsiOf_near l hgs, rsiOf_near g hls]
    refine ⟨fun h => absurd h (by norm_num), fun h => ?_⟩
    exact (h.2.2.elim (not_le.mpr hgs) (not_le.mpr hls)).elim
  · exact (rsiOf_swap_near hg hgs hlf).trans ⟨fun h => ⟨.inl h, .inr hlf, .inr hlf⟩,
      fun h => h.1.resolve_right (not_le.mpr hgs)⟩
  · rw [eq_sub_iff_add_eq, add_comm, ← eq_sub_iff_add_eq]
    exact (rsiOf_swap_near hl hls hgf).trans ⟨fun h => ⟨.inr hgf, .inl h, .inl hgf⟩,
      fun h => h.2.1.resolve_right (not_le.mpr hls)⟩
  · have hpos : g + l ≠ 0 := (add_pos_of_nonneg_of_pos hg (kEpsilon_pos.trans_le hlf)).ne'
    have hpos' : l + g ≠ 0 := by rwa [add_comm]
    rw [rsiOf_far hl hgf, rsiOf_far hg hlf]
    refine iff_of_true ?_ ⟨Or.inr hgf, Or.inr hlf, Or.inl hgf⟩
    field_simp
    ring

theorem rsi_reflect {prices : List ℝ} (h : Accepted K prices) (period : ℕ) :
    (rsi (reflect K prices) period).valid = (rsi prices period).valid ∧
      ((rsi prices period).valid = true →
        ((rsi (reflect K prices) period).value = 100 - (rsi prices period).value ↔
          Clear (averages prices period).1 (averages prices period).2)) := by
  unfold rsi
  dsimp only
  rw [reflect_length, isValidSeries_reflect h, averages_reflect]
  split_ifs with hperiod hshort hvalid
  · exact ⟨rfl, fun hf => hf.elim⟩
  · exact ⟨rfl, fun hf => hf.elim⟩
  · exact ⟨rfl, fun hf => hf.elim⟩
  · obtain ⟨hg, hl⟩ := averages_nonneg prices (Nat.pos_of_ne_zero hperiod)
    exact ⟨rfl, fun _ => rsiOf_swap_iff hg hl⟩

end Rsi

section Adx

def Directional.swap (s : Directional ℝ) : Directional ℝ := ⟨s.minus, s.plus, s.range⟩

variable {high low close : List ℝ}

theorem trueRange_reflect (hlow : low.length = high.length)
    (hclose : close.length = high.length) {i : ℕ} (h : i < high.length) :
    trueRange (reflect K low) (reflect K high) (reflect K close) i =
      trueRange high low close i := by
  have hrange : barAt (reflect K low) i - barAt (reflect K high) i =
      barAt high i - barAt low i := by
    rw [barAt_reflect (by omega), barAt_reflect h]
    ring
  have hlpc : stdAbs (barAt (reflect K low) i - barAt (reflect K close) (i - 1)) =
      stdAbs (barAt low i - barAt close (i - 1)) := by
    rw [barAt_reflect (by omega), barAt_reflect (by omega), stdAbs_real, stdAbs_real, ← abs_neg]
    congr 1
    ring
  have hhpc : stdAbs (barAt (reflect K high) i - barAt (reflect K close) (i - 1)) =
      stdAbs (barAt high i - barAt close (i - 1)) := by
    rw [barAt_reflect h, barAt_reflect (by omega), stdAbs_real, stdAbs_real, ← abs_neg]
    congr 1
    ring
  unfold trueRange
  rw [hrange, hlpc, hhpc]
  simp only [stdMax_real]
  exact max_right_comm _ _ _

theorem directional_reflect (hlow : low.length = high.length)
    (hclose : close.length = high.length) {i : ℕ} (h : i < high.length) :
    directional (reflect K low) (reflect K high) (reflect K close) i =
      (directional high low close i).swap := by
  have hup : barAt (reflect K low) i - barAt (reflect K low) (i - 1) =
      barAt low (i - 1) - barAt low i := by
    rw [barAt_reflect (by omega), barAt_reflect (by omega)]
    ring
  have hdown : barAt (reflect K high) (i - 1) - barAt (reflect K high) i =
      barAt high i - barAt high (i - 1) := by
    rw [barAt_reflect (by omega), barAt_reflect h]
    ring
  unfold directional
  dsimp only
  rw [hup, hdown, trueRange_reflect hlow hclose h]
  rfl

theorem directionals_reflect (hlow : low.length = high.length)
    (hclose : close.length = high.length) :
    directionals (reflect K low) (reflect K high) (reflect K close) =
      (directionals high low close).map Directional.swap := by
  unfold directionals
  rw [reflect_length, hlow, List.map_map]
  refine List.map_congr_left fun i hi => ?_
  have hlen := List.mem_range.mp hi
  exact directional_reflect hlow hclose (by omega)

theorem calcDx_swap (s : Directional ℝ) : s.swap.calcDx = s.calcDx := by
  unfold Directional.calcDx
  rw [show s.swap.plusDi = s.minusDi from rfl, show s.swap.minusDi = s.plusDi from rfl,
    stdAbs_real, stdAbs_real, abs_sub_comm, add_comm]

variable (ms : List (Directional ℝ))

theorem directionalSeed_swap (period : ℕ) :
    directionalSeed (ms.map Directional.swap) period = (directionalSeed ms period).swap := by
  unfold directionalSeed
  rw [← List.map_take]
  exact foldl_transfer Directional.swap Directional.swap (fun _ _ => rfl) (ms.take period)
    ⟨0.0, 0.0, 0.0⟩

theorem smoothings_swap (period : ℕ) :
    smoothings (ms.map Directional.swap) period = (smoothings ms period).map Directional.swap := by
  unfold smoothings
  rw [← List.map_drop, directionalSeed_swap]
  exact scanl_transfer Directional.swap Directional.swap (fun _ _ => rfl) _ _

theorem lastSmoothing_swap (period : ℕ) :
    lastSmoothing (ms.map Directional.swap) period = (lastSmoothing ms period).swap := by
  unfold lastSmoothing
  rw [← List.map_drop, directionalSeed_swap]
  exact foldl_transfer Directional.swap Directional.swap (fun _ _ => rfl) _ _

def AdxResult.swap (r : AdxResult ℝ) : AdxResult ℝ :=
  { r with
    plusDi := r.minusDi
    minusDi := r.plusDi }

theorem adx_reflect (hhigh : Accepted K high) (hlow : Accepted K low)
    (hclose : Accepted K close) (period : ℕ) :
    adx (reflect K low) (reflect K high) (reflect K close) period =
      (adx high low close period).swap := by
  by_cases hlengths : high.length ≠ low.length ∨ high.length ≠ close.length
  · have hlengths' : (reflect K low).length ≠ (reflect K high).length ∨
        (reflect K low).length ≠ (reflect K close).length := by
      simp only [reflect_length]
      omega
    unfold adx
    dsimp only
    rw [if_pos hlengths, if_pos hlengths']
    split_ifs <;> rfl
  · obtain ⟨hl, hc⟩ := not_or.mp hlengths
    rw [not_not] at hl hc
    have hdx : (smoothings (directionals (reflect K low) (reflect K high) (reflect K close))
        period).map Directional.calcDx =
          (smoothings (directionals high low close) period).map Directional.calcDx := by
      rw [directionals_reflect hl.symm hc.symm, smoothings_swap, List.map_map]
      exact List.map_congr_left fun s _ => calcDx_swap s
    have hlast : lastSmoothing (directionals (reflect K low) (reflect K high) (reflect K close))
        period = (lastSmoothing (directionals high low close) period).swap := by
      rw [directionals_reflect hl.symm hc.symm, lastSmoothing_swap]
    unfold adx
    dsimp only
    rw [hdx, hlast, isValidSeries_reflect hhigh, isValidSeries_reflect hlow,
      isValidSeries_reflect hclose]
    simp only [reflect_length, hl, ne_eq, not_true_eq_false, Bool.or_comm (!isValidSeries low)]
    split_ifs <;> rfl

end Adx

section Stochastic

theorem reflect_lengths {high low close : List ℝ} (hhigh : high.length = close.length)
    (hlow : low.length = close.length) :
    ¬ (high.length ≠ close.length ∨ low.length ≠ close.length) ∧
      ¬ ((reflect K low).length ≠ (reflect K close).length ∨
        (reflect K high).length ≠ (reflect K close).length) := by
  simp [reflect_length, hhigh, hlow]

theorem stdMax_reflect (a b : ℝ) : stdMax (K - a) (K - b) = K - stdMin a b := by
  rw [stdMax_real, stdMin_real, max_sub_sub_left]

theorem stdMin_reflect (a b : ℝ) : stdMin (K - a) (K - b) = K - stdMax a b := by
  rw [stdMax_real, stdMin_real, min_sub_sub_left]

theorem highest_reflect {low : List ℝ} {start len : ℕ} (h : start + len < low.length) :
    highest (reflect K low) start len = K - lowest low start len := by
  unfold highest lowest
  induction len with
  | zero => exact barAt_reflect h
  | succ len ih =>
    rw [List.range_succ, List.foldl_append, List.foldl_append, ih (by omega)]
    show stdMax _ (barAt (reflect K low) _) = _
    rw [barAt_reflect (by omega), stdMax_reflect]
    rfl

theorem lowest_reflect {high : List ℝ} {start len : ℕ} (h : start + len < high.length) :
    lowest (reflect K high) start len = K - highest high start len := by
  unfold highest lowest
  induction len with
  | zero => exact barAt_reflect h
  | succ len ih =>
    rw [List.range_succ, List.foldl_append, List.foldl_append, ih (by omega)]
    show stdMin _ (barAt (reflect K high) _) = _
    rw [barAt_reflect (by omega), stdMin_reflect]
    rfl

theorem foldl_range_sum (f : ℕ → ℝ) (n : ℕ) :
    (List.range n).foldl (fun sum i => sum + f i) 0.0 = ∑ i ∈ Finset.range n, f i := by
  induction n with
  | zero => exact zero_real
  | succ n ih =>
    rw [List.range_succ, List.foldl_append, ih, Finset.sum_range_succ]
    rfl

theorem meanBack_eq (line : ℕ → ℝ) (count i : ℕ) :
    meanBack line count i = (∑ j ∈ Finset.range count, line (i - j)) / count := by
  unfold meanBack
  rw [foldl_range_sum]
  rfl

theorem meanBack_reflect {line line' : ℕ → ℝ} {count i : ℕ} (hcount : 0 < count)
    (h : ∀ j ≤ i, line' j = 100 - line j) :
    meanBack line' count i = 100 - meanBack line count i := by
  have hpos : (count : ℝ) ≠ 0 := Nat.cast_ne_zero.mpr hcount.ne'
  rw [meanBack_eq, meanBack_eq, Finset.sum_congr rfl fun j _ => h (i - j) (Nat.sub_le i j),
    Finset.sum_sub_distrib, Finset.sum_const, Finset.card_range, nsmul_eq_mul]
  field_simp

variable {high low close : List ℝ} (hhigh : high.length = close.length)
  (hlow : low.length = close.length) {kPeriod smoothK smoothD : ℕ}

include hhigh hlow in
theorem rawK_reflect (hk : 0 < kPeriod) {i : ℕ} (h : i < close.length) :
    rawK (reflect K low) (reflect K high) (reflect K close) kPeriod i =
      100 - rawK high low close kPeriod i := by
  have hfifty : (50.0 : ℝ) = 100 - 50.0 := by norm_num
  unfold rawK
  by_cases hearly : i < kPeriod - 1
  · rw [if_pos hearly, if_pos hearly]
    exact hfifty
  · rw [if_neg hearly, if_neg hearly]
    dsimp only
    rw [highest_reflect (by omega), lowest_reflect (by omega), barAt_reflect h,
      sub_sub_sub_cancel_left]
    split_ifs with hrange
    · have hne : highest high (i + 1 - kPeriod) (kPeriod - 1) -
          lowest low (i + 1 - kPeriod) (kPeriod - 1) ≠ 0 := by
        have hpos : (0 : ℝ) < 1e-12 := by norm_num
        linarith
      have hhundred : (100.0 : ℝ) = 100 := by norm_num
      rw [hhundred]
      field_simp
      ring
    · exact hfifty

include hhigh hlow in
theorem smoothedK_reflect (hk : 0 < kPeriod) (hs : 0 < smoothK) {i : ℕ} (h : i < close.length) :
    smoothedK (reflect K low) (reflect K high) (reflect K close) kPeriod smoothK i =
      100 - smoothedK high low close kPeriod smoothK i := by
  unfold smoothedK
  split_ifs
  · norm_num
  · exact meanBack_reflect hs fun j hj => rawK_reflect hhigh hlow hk (by omega)

include hhigh hlow in
theorem lineD_reflect (hk : 0 < kPeriod) (hs : 0 < smoothK) (hd : 0 < smoothD) {i : ℕ}
    (h : i < close.length) :
    lineD (reflect K low) (reflect K high) (reflect K close) kPeriod smoothK smoothD i =
      100 - lineD high low close kPeriod smoothK smoothD i := by
  unfold lineD
  split_ifs
  · norm_num
  · exact meanBack_reflect hd fun j hj => smoothedK_reflect hhigh hlow hk hs (by omega)

variable (kPeriod smoothK smoothD) in
def LinesApart (high low close : List ℝ) : Prop :=
  smoothedK high low close kPeriod smoothK (close.length - 1) ≠
      lineD high low close kPeriod smoothK smoothD (close.length - 1) ∧
    smoothedK high low close kPeriod smoothK (close.length - 2) ≠
      lineD high low close kPeriod smoothK smoothD (close.length - 2)

include hhigh hlow in
theorem stochastic_reflect (hk : 0 < kPeriod) (hs : 0 < smoothK) (hd : 0 < smoothD)
    (hvalid : (stochastic high low close kPeriod smoothK smoothD).valid = true) :
    (stochastic (reflect K low) (reflect K high) (reflect K close) kPeriod smoothK
        smoothD).valid = true ∧
      (stochastic (reflect K low) (reflect K high) (reflect K close) kPeriod smoothK smoothD).k =
        100 - (stochastic high low close kPeriod smoothK smoothD).k ∧
      (LinesApart kPeriod smoothK smoothD high low close →
        (stochastic (reflect K low) (reflect K high) (reflect K close) kPeriod smoothK
            smoothD).bullCross = (stochastic high low close kPeriod smoothK smoothD).bearCross ∧
        (stochastic (reflect K low) (reflect K high) (reflect K close) kPeriod smoothK
            smoothD).bearCross =
          (stochastic high low close kPeriod smoothK smoothD).bullCross) := by
  obtain ⟨hlengths, hlengths'⟩ := reflect_lengths (K := K) hhigh hlow
  have hlong : ¬ close.length < kPeriod + smoothK + smoothD := by
    intro hshort
    unfold stochastic at hvalid
    dsimp only at hvalid
    rw [if_neg hlengths, if_pos hshort] at hvalid
    exact absurd hvalid Bool.false_ne_true
  have hlong' : ¬ (reflect K close).length < kPeriod + smoothK + smoothD := by
    rwa [reflect_length]
  have hk1 := smoothedK_reflect (K := K) hhigh hlow hk hs (i := close.length - 1) (by omega)
  have hk2 := smoothedK_reflect (K := K) hhigh hlow hk hs (i := close.length - 2) (by omega)
  have hd1 := lineD_reflect (K := K) hhigh hlow hk hs hd (i := close.length - 1) (by omega)
  have hd2 := lineD_reflect (K := K) hhigh hlow hk hs hd (i := close.length - 2) (by omega)
  unfold stochastic
  dsimp only
  rw [if_neg hlengths, if_neg hlong, if_neg hlengths', if_neg hlong', reflect_length, hk1, hk2,
    hd1, hd2]
  refine ⟨rfl, rfl, fun ⟨hlast, hprev⟩ => ?_⟩
  generalize smoothedK high low close kPeriod smoothK (close.length - 1) = k at hlast
  generalize lineD high low close kPeriod smoothK smoothD (close.length - 1) = d at hlast
  generalize smoothedK high low close kPeriod smoothK (close.length - 2) = kPrev at hprev
  generalize lineD high low close kPeriod smoothK smoothD (close.length - 2) = dPrev at hprev
  have hbelow : decide (100 - kPrev < 100 - dPrev) = !decide (kPrev < dPrev) := by
    rw [Bool.eq_not_iff, ne_eq, decide_eq_decide, sub_lt_sub_iff_left]
    exact fun h => hprev.lt_or_gt.elim (fun hlt => lt_asymm hlt (h.mpr hlt))
      fun hgt => lt_asymm hgt (h.mp hgt)
  have habove : decide (100 - d < 100 - k) = !decide (d < k) := by
    rw [Bool.eq_not_iff, ne_eq, decide_eq_decide, sub_lt_sub_iff_left]
    exact fun h => hlast.lt_or_gt.elim (fun hlt => lt_asymm hlt (h.mp hlt))
      fun hgt => lt_asymm hgt (h.mpr hgt)
  have hlow30 : decide (100 - kPrev < 30.0) = decide (70.0 < kPrev) :=
    decide_eq_decide.mpr (by norm_num; constructor <;> intro h <;> linarith)
  have hhigh70 : decide (70.0 < 100 - kPrev) = decide (kPrev < 30.0) :=
    decide_eq_decide.mpr (by norm_num; constructor <;> intro h <;> linarith)
  rw [hbelow, habove, hlow30, hhigh70, Bool.not_not, Bool.not_not]
  exact ⟨rfl, rfl⟩

end Stochastic

section Pair
variable {prices : List ℝ} {period : ℕ}

theorem emaFrom_reflect (hperiod : 0 < period) (k : ℕ) (h : period + k ≤ prices.length) :
    emaFrom (reflect K prices) period k = K - emaFrom prices period k := by
  have hlength : (ofInt (period : ℤ) : ℝ) ≠ 0 := by
    show ((period : ℤ) : ℝ) ≠ 0
    exact_mod_cast hperiod.ne'
  induction k with
  | zero =>
    have hsum : ∑ i ∈ Finset.range period, barAt (reflect K prices) i =
        period * K - ∑ i ∈ Finset.range period, barAt prices i := by
      rw [Finset.sum_congr rfl fun i hi => barAt_reflect (K := K)
        (show i < prices.length from (Finset.mem_range.mp hi).trans_le (by omega)),
        Finset.sum_sub_distrib, Finset.sum_const, Finset.card_range, nsmul_eq_mul]
    have hcast : (ofInt (period : ℤ) : ℝ) = period := by
      show ((period : ℤ) : ℝ) = period
      exact Int.cast_natCast period
    unfold emaFrom
    rw [foldl_range_sum, foldl_range_sum, hsum, sub_div, hcast]
    rw [hcast] at hlength
    rw [mul_div_cancel_left₀ K hlength]
  | succ k ih =>
    unfold emaFrom
    dsimp only
    rw [ih (by omega), barAt_reflect (by omega), one_real]
    generalize (2.0 : ℝ) / (ofInt (period : ℤ) + 1) = rate
    ring

theorem emaFrom_pos (hpos : ∀ p ∈ prices, 0 < p) (hperiod : 0 < period) (k : ℕ)
    (h : period + k ≤ prices.length) : 0 < emaFrom prices period k := by
  have hbar : ∀ i < prices.length, 0 < barAt prices i := by
    intro i hi
    unfold barAt
    rw [List.getD_eq_getElem?_getD, List.getElem?_eq_getElem hi]
    exact hpos _ (List.getElem_mem hi)
  have hlength : (1 : ℝ) ≤ ofInt (period : ℤ) := by
    show (1 : ℝ) ≤ ((period : ℤ) : ℝ)
    exact_mod_cast hperiod
  induction k with
  | zero =>
    unfold emaFrom
    rw [foldl_range_sum]
    exact div_pos (Finset.sum_pos (fun i hi => hbar i ((Finset.mem_range.mp hi).trans_le
      (by omega))) ⟨0, Finset.mem_range.mpr hperiod⟩) (by linarith)
  | succ k ih =>
    have hrate : (2.0 : ℝ) / (ofInt (period : ℤ) + 1.0) ≤ 1 := by
      rw [div_le_one (by norm_num; linarith)]
      norm_num
      linarith
    have hrate' : 0 < (2.0 : ℝ) / (ofInt (period : ℤ) + 1.0) :=
      div_pos (by norm_num) (by norm_num; linarith)
    unfold emaFrom
    dsimp only
    rw [one_real] at hrate hrate' ⊢
    exact add_pos_of_pos_of_nonneg (mul_pos (hbar _ (by omega)) hrate')
      (mul_nonneg (ih (by omega)).le (by linarith))

theorem emaSeries_eq {i : ℕ} (hperiod : 0 < period) (hlow : period - 1 ≤ i)
    (hlen : period ≤ prices.length) :
    emaSeries prices period i = emaFrom prices period (i - (period - 1)) := by
  unfold emaSeries
  rw [if_neg]
  omega

theorem emaSeries_reflect {i : ℕ} (hperiod : 0 < period) (hlow : period - 1 ≤ i)
    (h : i < prices.length) :
    emaSeries (reflect K prices) period i = K - emaSeries prices period i := by
  rw [emaSeries_eq hperiod hlow (by rw [reflect_length]; omega),
    emaSeries_eq hperiod hlow (by omega), emaFrom_reflect hperiod _ (by omega)]

theorem emaSeries_pos {i : ℕ} (hpos : ∀ p ∈ prices, 0 < p) (hperiod : 0 < period)
    (hlow : period - 1 ≤ i) (h : i < prices.length) : 0 < emaSeries prices period i := by
  rw [emaSeries_eq hperiod hlow (by omega)]
  exact emaFrom_pos hpos hperiod _ (by omega)

def AveragesApart (prices : List ℝ) (fast slow i : ℕ) : Prop :=
  emaSeries prices fast i ≠ emaSeries prices slow i

theorem emaPair_bounds {fast slow : ℕ} (h : (emaPair prices fast slow).valid = true) :
    fast < slow ∧ slow + 1 ≤ prices.length := by
  unfold emaPair at h
  dsimp only at h
  by_cases hperiods : slow ≤ fast
  · rw [if_pos hperiods] at h
    exact absurd h Bool.false_ne_true
  · by_cases hshort : prices.length < slow + 1
    · rw [if_neg hperiods, if_pos hshort] at h
      exact absurd h Bool.false_ne_true
    · exact ⟨not_le.mp hperiods, not_lt.mp hshort⟩

theorem lt_reflect_iff (a b : ℝ) : K - a < K - b ↔ b < a := sub_lt_sub_iff_left K

theorem decide_reflect {a b : ℝ} (h : a ≠ b) :
    decide (K - a < K - b) = !decide (a < b) := by
  rw [Bool.eq_not_iff, ne_eq, decide_eq_decide, lt_reflect_iff]
  exact fun hiff => h.lt_or_gt.elim (fun hlt => lt_asymm hlt (hiff.mpr hlt))
    fun hgt => lt_asymm hgt (hiff.mp hgt)

theorem emaPair_reflect (hpos : ∀ p ∈ prices, 0 < p) (hpos' : ∀ p ∈ reflect K prices, 0 < p)
    {fast slow : ℕ} (hfast : 0 < fast) (hvalid : (emaPair prices fast slow).valid = true) :
    (emaPair (reflect K prices) fast slow).valid = true ∧
      ((emaPair (reflect K prices) fast slow).trend = -(emaPair prices fast slow).trend ↔
        AveragesApart prices fast slow (prices.length - 1)) ∧
      (AveragesApart prices fast slow (prices.length - 1) →
        AveragesApart prices fast slow (prices.length - 2) →
        (emaPair (reflect K prices) fast slow).bullCross = (emaPair prices fast slow).bearCross ∧
        (emaPair (reflect K prices) fast slow).bearCross =
          (emaPair prices fast slow).bullCross) := by
  obtain ⟨hlt, hlen⟩ := emaPair_bounds hvalid
  have hlen' : (reflect K prices).length = prices.length := reflect_length prices
  have hslow : 0 < slow := hfast.trans hlt
  have hseries : ∀ {p i : ℕ}, 0 < p → p - 1 ≤ i → i < prices.length →
      emaSeries (reflect K prices) p i = K - emaSeries prices p i := emaSeries_reflect
  have hf1 := hseries (i := prices.length - 1) hfast (by omega) (by omega)
  have hs1 := hseries (i := prices.length - 1) hslow (by omega) (by omega)
  have hf2 := hseries (i := prices.length - 2) hfast (by omega) (by omega)
  have hs2 := hseries (i := prices.length - 2) hslow (by omega) (by omega)
  have hcompared : ∀ {ps : List ℝ}, ps.length = prices.length → (∀ p ∈ ps, 0 < p) →
      (decide (0.0 < emaSeries ps fast (prices.length - 2)) &&
        decide (0.0 < emaSeries ps slow (prices.length - 2))) = true := by
    intro ps hps hp
    have h1 := emaSeries_pos hp hfast (i := prices.length - 2) (by omega) (by omega)
    have h2 := emaSeries_pos hp hslow (i := prices.length - 2) (by omega) (by omega)
    rw [zero_real, decide_eq_true h1, decide_eq_true h2]
    rfl
  have hc := hcompared rfl hpos
  have hc' := hcompared hlen' hpos'
  have hguards : ¬ slow ≤ fast ∧ ¬ prices.length < slow + 1 := ⟨by omega, by omega⟩
  unfold AveragesApart emaPair
  dsimp only
  rw [if_neg hguards.1, if_neg hguards.1, hlen', if_neg hguards.2, if_neg hguards.2]
  dsimp only
  rw [hc, hc', hf1, hs1, hf2, hs2]
  refine ⟨rfl, ?_, fun hlast hprev => ?_⟩
  · simp only [lt_reflect_iff]
    constructor
    · intro h heq
      rw [heq] at h
      simp at h
    · intro hne
      rcases hne.lt_or_gt with hlt | hgt
      · rw [if_pos hlt, if_neg (lt_asymm hlt)]
        rfl
      · rw [if_neg (lt_asymm hgt), if_pos hgt]
  · rw [decide_reflect hprev, decide_reflect hlast.symm, Bool.not_not, Bool.not_not]
    exact ⟨rfl, rfl⟩

end Pair

section Trend
variable {high low close : List ℝ} {period : ℕ} {multiplier : ℝ}
  (hhigh : high.length = close.length) (hlow : low.length = close.length)

include hhigh hlow in
theorem atr_reflect (k : ℕ) (h : period + k < close.length) :
    atr (reflect K low) (reflect K high) (reflect K close) period k =
      atr high low close period k := by
  have hrange : ∀ i < close.length, trueRange (reflect K low) (reflect K high) (reflect K close) i =
      trueRange high low close i := fun i hi =>
    trueRange_reflect (by omega) (by omega) (by omega)
  induction k with
  | zero =>
    unfold atr firstAtr
    rw [foldl_range_sum, foldl_range_sum]
    exact congrArg (· / _) (Finset.sum_congr rfl fun i hi =>
      hrange _ (by have hi' := Finset.mem_range.mp hi; omega))
  | succ k ih =>
    unfold atr
    rw [ih (by omega), hrange _ (by omega)]

include hhigh hlow in
theorem hl2_reflect {i : ℕ} (h : i < close.length) :
    hl2 (reflect K low) (reflect K high) i = K - hl2 high low i := by
  have htwo : (2.0 : ℝ) = 2 := by norm_num
  unfold hl2
  rw [barAt_reflect (by omega), barAt_reflect (by omega), htwo]
  ring

variable (multiplier) in
include hhigh hlow in
theorem bands_reflect (k : ℕ) (h : period + k < close.length) :
    upperBand (reflect K low) (reflect K high) (reflect K close) period multiplier k =
        K - lowerBand high low close period multiplier k ∧
      lowerBand (reflect K low) (reflect K high) (reflect K close) period multiplier k =
        K - upperBand high low close period multiplier k := by
  unfold upperBand lowerBand
  rw [atr_reflect hhigh hlow k h, hl2_reflect hhigh hlow h]
  constructor <;> ring

def Outside (b : TrendBar ℝ) (close : ℝ) : Prop := ¬ (b.finalUpper < close ↔ close < b.finalLower)

structure BarReflected (K : ℝ) (b b' : TrendBar ℝ) : Prop where
  upper : b'.finalUpper = K - b.finalLower
  lower : b'.finalLower = K - b.finalUpper

theorem nextBar_reflected {prev prev' : TrendBar ℝ} (h : BarReflected K prev prev')
    (prevClose upper lower close : ℝ) :
    BarReflected K (nextBar prev prevClose upper lower close)
      (nextBar prev' (K - prevClose) (K - lower) (K - upper) (K - close)) := by
  constructor
  · show nextUpper prev' (K - prevClose) (K - lower) = K - nextLower prev prevClose lower
    unfold nextUpper nextLower
    simp only [h.upper, lt_reflect_iff]
    split_ifs <;> rfl
  · show nextLower prev' (K - prevClose) (K - upper) = K - nextUpper prev prevClose upper
    unfold nextUpper nextLower
    simp only [h.lower, lt_reflect_iff]
    split_ifs <;> rfl

theorem nextTrend_cases {F : Type} [DoubleRounding F] (prev : TrendBar F) (upper lower close : F) :
    nextTrend prev upper lower close = 1 ∨ nextTrend prev upper lower close = -1 := by
  unfold nextTrend
  split_ifs <;> simp

/-- Opposite trends stay so, and equal ones part at a close beyond one band. -/
theorem nextTrend_reflect {prev prev' : TrendBar ℝ} (hprev : prev.trend = 1 ∨ prev.trend = -1)
    (hprev' : prev'.trend = prev.trend ∨ prev'.trend = -prev.trend) (upper lower close : ℝ) :
    (nextTrend prev' (K - lower) (K - upper) (K - close) = -nextTrend prev upper lower close ↔
      prev'.trend = -prev.trend ∨ ¬ (upper < close ↔ close < lower)) ∧
    (nextTrend prev' (K - lower) (K - upper) (K - close) = nextTrend prev upper lower close ∨
      nextTrend prev' (K - lower) (K - upper) (K - close) =
        -nextTrend prev upper lower close) := by
  unfold nextTrend
  simp only [lt_reflect_iff]
  rcases hprev with hp | hp <;> rcases hprev' with hp' | hp' <;> rw [hp'] <;> rw [hp] <;>
    by_cases hu : upper < close <;> by_cases hl : close < lower <;> simp [hu, hl]

theorem firstBar_reflect (upper lower close : ℝ) :
    (firstBar (K - lower) (K - upper) (K - close)).trend = -(firstBar upper lower close).trend ↔
      ¬ (upper < close ↔ close < lower) := by
  unfold firstBar trendBar
  simp only [lt_reflect_iff]
  by_cases hu : upper < close <;> by_cases hl : close < lower <;> simp [hu, hl]

theorem firstBar_cases (upper lower close : ℝ) :
    (firstBar upper lower close).trend = 1 ∨ (firstBar upper lower close).trend = -1 := by
  unfold firstBar trendBar
  dsimp only
  split_ifs
  · exact Or.inl rfl
  · exact Or.inr rfl

theorem bar_cases (high low close : List ℝ) (period : ℕ) (multiplier : ℝ) (k : ℕ) :
    (bar high low close period multiplier k).trend = 1 ∨
      (bar high low close period multiplier k).trend = -1 := by
  cases k with
  | zero => exact firstBar_cases _ _ _
  | succ k => exact nextTrend_cases _ _ _ _

variable (multiplier) in
include hhigh hlow in
theorem bar_reflected (k : ℕ) (h : period + k < close.length) :
    BarReflected K (bar high low close period multiplier k)
      (bar (reflect K low) (reflect K high) (reflect K close) period multiplier k) := by
  induction k with
  | zero =>
    obtain ⟨hupper, hlower⟩ := bands_reflect (K := K) multiplier hhigh hlow 0 h
    exact ⟨hupper, hlower⟩
  | succ k ih =>
    obtain ⟨hupper, hlower⟩ :=
      bands_reflect (K := K) multiplier hhigh hlow (k + 1) h
    unfold bar
    rw [hupper, hlower, barAt_reflect (by omega), barAt_reflect (by omega)]
    exact nextBar_reflected (ih (by omega)) _ _ _ _

include hhigh hlow in
/-- The trends are opposite from the first close beyond exactly one band on. -/
theorem trend_reflect (k : ℕ) (h : period + k < close.length) :
    ((bar (reflect K low) (reflect K high) (reflect K close) period multiplier k).trend =
        -(bar high low close period multiplier k).trend ↔
      ∃ m ≤ k, Outside (bar high low close period multiplier m) (barAt close (period + m))) ∧
    ((bar (reflect K low) (reflect K high) (reflect K close) period multiplier k).trend =
        (bar high low close period multiplier k).trend ∨
      (bar (reflect K low) (reflect K high) (reflect K close) period multiplier k).trend =
        -(bar high low close period multiplier k).trend) := by
  induction k with
  | zero =>
    obtain ⟨hupper, hlower⟩ := bands_reflect (K := K) multiplier hhigh hlow 0 h
    have hfirst : (bar (reflect K low) (reflect K high) (reflect K close) period multiplier 0) =
        firstBar (K - lowerBand high low close period multiplier 0)
          (K - upperBand high low close period multiplier 0) (K - barAt close period) := by
      unfold bar
      rw [hupper, hlower, barAt_reflect (show period < close.length from h)]
    constructor
    · rw [hfirst]
      refine (firstBar_reflect _ _ _).trans ⟨fun hout => ⟨0, le_rfl, hout⟩, ?_⟩
      rintro ⟨m, hm, hout⟩
      rw [Nat.le_zero.mp hm] at hout
      exact hout
    · rcases bar_cases high low close period multiplier 0 with hb | hb <;>
        rcases bar_cases (reflect K low) (reflect K high) (reflect K close) period multiplier 0
          with hb' | hb' <;> rw [hb, hb'] <;> decide
  | succ k ih =>
    obtain ⟨hiff, hcases⟩ := ih (by omega)
    have hreflected := bar_reflected (K := K) multiplier hhigh hlow (k + 1) h
    have hnext := nextTrend_reflect (K := K) (bar_cases high low close period multiplier k) hcases
      (bar high low close period multiplier (k + 1)).finalUpper
      (bar high low close period multiplier (k + 1)).finalLower (barAt close (period + k + 1))
    have htrend : (bar (reflect K low) (reflect K high) (reflect K close) period multiplier
        (k + 1)).trend = nextTrend
          (bar (reflect K low) (reflect K high) (reflect K close) period multiplier k)
          (K - (bar high low close period multiplier (k + 1)).finalLower)
          (K - (bar high low close period multiplier (k + 1)).finalUpper)
          (K - barAt close (period + k + 1)) := by
      rw [← hreflected.upper, ← hreflected.lower, ← barAt_reflect (by omega)]
      rfl
    rw [htrend]
    refine ⟨hnext.1.trans ?_, hnext.2⟩
    rw [hiff]
    constructor
    · rintro (⟨m, hm, hout⟩ | hout)
      · exact ⟨m, by omega, hout⟩
      · exact ⟨k + 1, le_rfl, hout⟩
    · rintro ⟨m, hm, hout⟩
      rcases Nat.lt_or_eq_of_le hm with hlt | heq
      · exact Or.inl ⟨m, Nat.le_of_lt_succ hlt, hout⟩
      · subst heq
        exact Or.inr hout

def LeftBands (high low close : List ℝ) (period : ℕ) (multiplier : ℝ) : Prop :=
  ∃ m, period + m < close.length ∧
    Outside (bar high low close period multiplier m) (barAt close (period + m))

include hhigh hlow in
theorem supertrend_reflect (hvalid : (supertrend high low close period multiplier).valid = true) :
    (supertrend (reflect K low) (reflect K high) (reflect K close) period multiplier).valid =
        true ∧
      ((supertrend (reflect K low) (reflect K high) (reflect K close) period multiplier).trend =
          -(supertrend high low close period multiplier).trend ↔
        LeftBands high low close period multiplier) := by
  obtain ⟨hlengths, hlengths'⟩ := reflect_lengths (K := K) hhigh hlow
  have hlong : ¬ close.length < period + 1 := by
    intro hshort
    unfold supertrend at hvalid
    dsimp only at hvalid
    rw [if_neg hlengths, if_pos hshort] at hvalid
    exact absurd hvalid Bool.false_ne_true
  have hlong' : ¬ (reflect K close).length < period + 1 := by rwa [reflect_length]
  unfold supertrend
  dsimp only
  rw [if_neg hlengths, if_neg hlong, if_neg hlengths', if_neg hlong', reflect_length]
  refine ⟨rfl, (trend_reflect hhigh hlow _ (by omega)).1.trans ?_⟩
  constructor
  · rintro ⟨m, hm, hout⟩
    exact ⟨m, by omega, hout⟩
  · rintro ⟨m, hm, hout⟩
    exact ⟨m, by omega, hout⟩

end Trend

theorem accepted_pos (h : Accepted K prices) :
    (∀ p ∈ prices, 0 < p) ∧ ∀ p ∈ reflect K prices, 0 < p := by
  have hmin : (0 : ℝ) < kMinValidPrice := by norm_num [kMinValidPrice]
  refine ⟨fun p hp => hmin.trans (h p hp).1.2.1, fun q hq => ?_⟩
  obtain ⟨p, hp, rfl⟩ := List.mem_map.mp hq
  exact hmin.trans (h p hp).2.2.1

structure Periods where
  rsi : ℕ
  adx : ℕ
  k : ℕ
  smoothK : ℕ
  smoothD : ℕ
  fast : ℕ
  slow : ℕ
  atr : ℕ

structure Periods.Positive (p : Periods) : Prop where
  k : 0 < p.k
  smoothK : 0 < p.smoothK
  smoothD : 0 < p.smoothD
  fast : 0 < p.fast

structure Reflected (K : ℝ) (high low close : List ℝ) (p : Periods) (multiplier : ℝ) : Prop where
  rsi : (rsi (reflect K close) p.rsi).valid = (rsi close p.rsi).valid ∧
    ((rsi close p.rsi).valid = true →
      ((rsi (reflect K close) p.rsi).value = 100 - (rsi close p.rsi).value ↔
        Clear (averages close p.rsi).1 (averages close p.rsi).2))
  adx : adx (reflect K low) (reflect K high) (reflect K close) p.adx =
    (adx high low close p.adx).swap
  stochastic : (stochastic high low close p.k p.smoothK p.smoothD).valid = true →
    (stochastic (reflect K low) (reflect K high) (reflect K close) p.k p.smoothK
        p.smoothD).valid = true ∧
      (stochastic (reflect K low) (reflect K high) (reflect K close) p.k p.smoothK p.smoothD).k =
        100 - (stochastic high low close p.k p.smoothK p.smoothD).k ∧
      (LinesApart p.k p.smoothK p.smoothD high low close →
        (stochastic (reflect K low) (reflect K high) (reflect K close) p.k p.smoothK
            p.smoothD).bullCross =
          (stochastic high low close p.k p.smoothK p.smoothD).bearCross ∧
        (stochastic (reflect K low) (reflect K high) (reflect K close) p.k p.smoothK
            p.smoothD).bearCross =
          (stochastic high low close p.k p.smoothK p.smoothD).bullCross)
  emaPair : (emaPair close p.fast p.slow).valid = true →
    (emaPair (reflect K close) p.fast p.slow).valid = true ∧
      ((emaPair (reflect K close) p.fast p.slow).trend = -(emaPair close p.fast p.slow).trend ↔
        AveragesApart close p.fast p.slow (close.length - 1)) ∧
      (AveragesApart close p.fast p.slow (close.length - 1) →
        AveragesApart close p.fast p.slow (close.length - 2) →
        (emaPair (reflect K close) p.fast p.slow).bullCross =
            (emaPair close p.fast p.slow).bearCross ∧
          (emaPair (reflect K close) p.fast p.slow).bearCross =
            (emaPair close p.fast p.slow).bullCross)
  supertrend : (supertrend high low close p.atr multiplier).valid = true →
    (supertrend (reflect K low) (reflect K high) (reflect K close) p.atr multiplier).valid =
        true ∧
      ((supertrend (reflect K low) (reflect K high) (reflect K close) p.atr multiplier).trend =
          -(supertrend high low close p.atr multiplier).trend ↔
        LeftBands high low close p.atr multiplier)

theorem indicators_reflect {high low close : List ℝ} (hhigh : high.length = close.length)
    (hlow : low.length = close.length) (hhighs : Accepted K high) (hlows : Accepted K low)
    (hcloses : Accepted K close) {p : Periods} (hp : p.Positive) (multiplier : ℝ) :
    Reflected K high low close p multiplier := by
  obtain ⟨hpos, hpos'⟩ := accepted_pos hcloses
  exact ⟨rsi_reflect hcloses p.rsi, adx_reflect hhighs hlows hcloses p.adx,
    stochastic_reflect hhigh hlow hp.k hp.smoothK hp.smoothD, emaPair_reflect hpos hpos' hp.fast,
    supertrend_reflect hhigh hlow⟩

section Samples

def flatPrices : List ℝ := [100.0, 100.0, 100.0, 100.0]

theorem flatPrices_reflect : reflect 200 flatPrices = flatPrices := by
  norm_num [reflect, flatPrices]

theorem flatPrices_accepted : Accepted 200 flatPrices := by
  intro p hp
  have hprice : p = 100 := by
    norm_num [flatPrices] at hp
    exact hp
  have hvalid : IsValidPrice (100 : ℝ) :=
    ⟨rfl, by norm_num [kMinValidPrice], by norm_num [kMaxReasonablePrice]⟩
  have hsame : (200 : ℝ) - 100 = 100 := by norm_num
  rw [hprice, hsame]
  exact ⟨hvalid, hvalid⟩

theorem emaPair_trend (prices : List ℝ) {fast slow : ℕ}
    (h : (emaPair prices fast slow).valid = true) :
    (emaPair prices fast slow).trend = 1 ∨ (emaPair prices fast slow).trend = -1 := by
  obtain ⟨hlt, hlen⟩ := emaPair_bounds h
  unfold emaPair
  dsimp only
  rw [if_neg (by omega), if_neg (by omega)]
  dsimp only
  split_ifs
  · exact Or.inl rfl
  · exact Or.inr rfl

theorem flatPrices_valid : (emaPair flatPrices 1 2).valid = true := by
  unfold emaPair
  dsimp only
  rw [if_neg (by decide), if_neg (by simp [flatPrices])]

/-- A series without a move is its own reflection, and has a direction. -/
theorem flat_directed : ¬ ∀ (K : ℝ) (prices : List ℝ) (fast slow : ℕ), Accepted K prices →
    0 < fast → (emaPair prices fast slow).valid = true →
      (emaPair (reflect K prices) fast slow).trend = -(emaPair prices fast slow).trend := by
  intro h
  have hself := h 200 flatPrices 1 2 flatPrices_accepted one_pos flatPrices_valid
  rw [flatPrices_reflect] at hself
  rcases emaPair_trend flatPrices flatPrices_valid with hup | hdown
  · omega
  · omega

def shortPeriods : Periods := ⟨1, 1, 1, 1, 1, 1, 2, 1⟩

theorem shortPeriods_positive : shortPeriods.Positive :=
  ⟨one_pos, one_pos, one_pos, one_pos⟩

theorem indicators_reflect_flat :
    Reflected 200 flatPrices flatPrices flatPrices shortPeriods 3 :=
  indicators_reflect rfl rfl flatPrices_accepted flatPrices_accepted flatPrices_accepted
    shortPeriods_positive 3

end Samples

end Reflection

end TB.IndicatorEngine
