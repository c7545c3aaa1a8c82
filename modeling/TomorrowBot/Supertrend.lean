import TomorrowBot.DoubleFunctions
import Mathlib.Tactic.Linarith

/-!
# Supertrend

Two bands at a multiple of the average true range follow the prices. Each moves
towards the price only, until a close beyond it releases it. The line is the
lower band in an uptrend and the upper band in a downtrend.
-/

set_option autoImplicit false

namespace TB.IndicatorEngine
open TB.CommonTypes

inductive IndicatorStatus where
  | ok
  | insufficientData
  | invalidInput

structure SupertrendResult (F : Type) where
  valid : Bool
  value : F
  trend : ℤ
  flipped : Bool
  status : IndicatorStatus
  sampleCount : ℕ

structure TrendBar (F : Type) where
  finalUpper : F
  finalLower : F
  trend : ℤ
  st : F

section Bars
variable {F : Type} [DoubleRounding F]

def trendBar (finalUpper finalLower : F) (trend : ℤ) : TrendBar F :=
  ⟨finalUpper, finalLower, trend, if trend = 1 then finalLower else finalUpper⟩

def firstBar (upperBand lowerBand close : F) : TrendBar F :=
  trendBar upperBand lowerBand (if upperBand < close then 1 else -1)

def nextUpper (prev : TrendBar F) (prevClose upperBand : F) : F :=
  if upperBand < prev.finalUpper ∨ prev.finalUpper < prevClose then upperBand else prev.finalUpper

def nextLower (prev : TrendBar F) (prevClose lowerBand : F) : F :=
  if prev.finalLower < lowerBand ∨ prevClose < prev.finalLower then lowerBand else prev.finalLower

def nextTrend (prev : TrendBar F) (finalUpper finalLower close : F) : ℤ :=
  if prev.trend = 1 then if close < finalLower then -1 else 1
  else if finalUpper < close then 1 else -1

def nextBar (prev : TrendBar F) (prevClose upperBand lowerBand close : F) : TrendBar F :=
  let finalUpper := nextUpper prev prevClose upperBand
  let finalLower := nextLower prev prevClose lowerBand
  trendBar finalUpper finalLower (nextTrend prev finalUpper finalLower close)

variable (high low close : List F) (period : ℕ) (multiplier : F)

def barAt (xs : List F) (i : ℕ) : F := xs.getD i 0.0

def trueRange (i : ℕ) : F :=
  stdMax (stdMax (barAt high i - barAt low i) (stdAbs (barAt high i - barAt close (i - 1))))
    (stdAbs (barAt low i - barAt close (i - 1)))

def firstAtr : F :=
  (List.range period).foldl (fun sum i => sum + trueRange high low close (i + 1)) 0.0 /
    ofInt period

def atr : ℕ → F
  | 0 => firstAtr high low close period
  | k+1 =>
    (atr k * ofInt ((period : ℤ) - 1) + trueRange high low close (period + k + 1)) / ofInt period

def hl2 (i : ℕ) : F := (barAt high i + barAt low i) / 2.0

def upperBand (k : ℕ) : F :=
  hl2 high low (period + k) + multiplier * atr high low close period k

def lowerBand (k : ℕ) : F :=
  hl2 high low (period + k) - multiplier * atr high low close period k

def bar : ℕ → TrendBar F
  | 0 =>
    firstBar (upperBand high low close period multiplier 0)
      (lowerBand high low close period multiplier 0) (barAt close period)
  | k+1 =>
    nextBar (bar k) (barAt close (period + k)) (upperBand high low close period multiplier (k + 1))
      (lowerBand high low close period multiplier (k + 1)) (barAt close (period + k + 1))

def flipped : ℕ → Bool
  | 0 => false
  | k+1 => (bar high low close period multiplier (k + 1)).trend !=
      (bar high low close period multiplier k).trend

def supertrend : SupertrendResult F :=
  let n := close.length
  if high.length ≠ n ∨ low.length ≠ n then ⟨false, 0.0, 0, false, .invalidInput, 0⟩
  else if n < period + 1 then ⟨false, 0.0, 0, false, .insufficientData, 0⟩
  else
    let last := bar high low close period multiplier (n - 1 - period)
    ⟨true, last.st, last.trend, flipped high low close period multiplier (n - 1 - period), .ok, n⟩

end Bars

section Trailing

def OnItsSide (b : TrendBar ℚ) (close : ℚ) : Prop :=
  (b.trend = 1 → b.st ≤ close) ∧ (b.trend ≠ 1 → close ≤ b.st)

def Tightens (prev next : TrendBar ℚ) : Prop :=
  (prev.trend = 1 → prev.st ≤ next.st) ∧ (prev.trend ≠ 1 → next.st ≤ prev.st)

/-- The lower band has passed the upper one, and the close is between them. -/
def Crossed (b : TrendBar ℚ) (close : ℚ) : Prop := b.finalUpper < close ∧ close < b.finalLower

instance (b : TrendBar ℚ) (close : ℚ) : Decidable (OnItsSide b close) :=
  inferInstanceAs (Decidable (_ ∧ _))

instance (b : TrendBar ℚ) (close : ℚ) : Decidable (Crossed b close) :=
  inferInstanceAs (Decidable (_ ∧ _))

variable (prev : TrendBar ℚ) (prevClose upper lower close : ℚ)

theorem trendBar_up {trend : ℤ} (h : trend = 1) (upper lower : ℚ) :
    (trendBar upper lower trend).st = lower := if_pos h

theorem trendBar_down {trend : ℤ} (h : trend ≠ 1) (upper lower : ℚ) :
    (trendBar upper lower trend).st = upper := if_neg h

theorem firstBar_side (h : lower ≤ upper) :
    OnItsSide (firstBar upper lower close) close := by
  unfold firstBar
  split_ifs with hup
  · exact ⟨fun _ => h.trans hup.le, fun hne => absurd rfl hne⟩
  · have hdown : ((-1 : ℤ) = 1) → False := by decide
    exact ⟨fun heq => absurd heq hdown, fun _ => not_lt.mp hup⟩

theorem trendBar_side_iff :
    OnItsSide (trendBar upper lower (nextTrend prev upper lower close)) close ↔
      ¬ ((nextTrend prev upper lower close = 1 ↔ prev.trend ≠ 1) ∧
        Crossed (trendBar upper lower (nextTrend prev upper lower close)) close) := by
  unfold nextTrend OnItsSide Crossed
  by_cases hprev : prev.trend = 1
  · rw [if_pos hprev]
    split_ifs with hbroken
    · simp [trendBar, hprev, hbroken]
    · simp [trendBar, hprev, not_lt.mp hbroken]
  · rw [if_neg hprev]
    split_ifs with hbroken
    · simp [trendBar, hprev, hbroken]
    · simp [trendBar, hprev, not_lt.mp hbroken]

theorem nextBar_side_iff :
    OnItsSide (nextBar prev prevClose upper lower close) close ↔
      ¬ (((nextBar prev prevClose upper lower close).trend = 1 ↔ prev.trend ≠ 1) ∧
        Crossed (nextBar prev prevClose upper lower close) close) :=
  trendBar_side_iff prev _ _ close

theorem nextLower_ge (h : prev.finalLower ≤ prevClose) :
    prev.finalLower ≤ nextLower prev prevClose lower := by
  unfold nextLower
  split_ifs with hmoved
  · exact (hmoved.resolve_right (not_lt.mpr h)).le
  · exact le_rfl

theorem nextUpper_le (h : prevClose ≤ prev.finalUpper) :
    nextUpper prev prevClose upper ≤ prev.finalUpper := by
  unfold nextUpper
  split_ifs with hmoved
  · exact (hmoved.resolve_right (not_lt.mpr h)).le
  · exact le_rfl

def LineOfTrend (b : TrendBar ℚ) : Prop :=
  (b.trend = 1 → b.st = b.finalLower) ∧ (b.trend ≠ 1 → b.st = b.finalUpper)

theorem trendBar_line (upper lower : ℚ) (trend : ℤ) : LineOfTrend (trendBar upper lower trend) :=
  ⟨fun h => trendBar_up h upper lower, fun h => trendBar_down h upper lower⟩

/-- A trend that persists from a bar on its side tightens the line. -/
theorem nextBar_tightens (hline : LineOfTrend prev) (hside : OnItsSide prev prevClose)
    (hsame : (nextBar prev prevClose upper lower close).trend = prev.trend) :
    Tightens prev (nextBar prev prevClose upper lower close) := by
  have hnext := trendBar_line (nextUpper prev prevClose upper)
    (nextLower prev prevClose lower) (nextTrend prev (nextUpper prev prevClose upper)
      (nextLower prev prevClose lower) close)
  constructor
  · intro hup
    have hclose := hside.1 hup
    rw [hline.1 hup] at hclose ⊢
    exact (nextLower_ge prev prevClose lower hclose).trans_eq (hnext.1 (hsame.trans hup)).symm
  · intro hdown
    have hclose := hside.2 hdown
    rw [hline.2 hdown] at hclose ⊢
    exact (hnext.2 (fun h => hdown (hsame.symm.trans h))).trans_le
      (nextUpper_le prev prevClose upper hclose)

variable (high low closes : List ℚ) (period : ℕ) (multiplier : ℚ)

theorem stdAbs_nonneg (x : ℚ) : 0 ≤ stdAbs x := by
  unfold stdAbs
  split_ifs with h
  · exact (neg_pos.mpr h).le
  · exact not_lt.mp h

theorem le_stdMax_right (a b : ℚ) : b ≤ stdMax a b := by
  unfold stdMax
  split_ifs with h
  · exact le_rfl
  · exact not_lt.mp h

theorem trueRange_nonneg (i : ℕ) : 0 ≤ trueRange high low closes i :=
  (stdAbs_nonneg _).trans (le_stdMax_right _ _)

theorem firstAtr_nonneg : 0 ≤ firstAtr high low closes period := by
  have hsum : ∀ (is : List ℕ) (s : ℚ), 0 ≤ s →
      0 ≤ is.foldl (fun sum i => sum + trueRange high low closes (i + 1)) s := by
    intro is
    induction is with
    | nil => exact fun s hs => hs
    | cons i is ih => exact fun s hs => ih _ (add_nonneg hs (trueRange_nonneg high low closes _))
  have hperiod : (0 : ℚ) ≤ ofInt (period : ℤ) := Int.cast_nonneg (Int.natCast_nonneg period)
  exact div_nonneg (hsum _ _ (by norm_num)) hperiod

theorem firstBands_ordered (hm : 0 ≤ multiplier) :
    lowerBand high low closes period multiplier 0 ≤ upperBand high low closes period multiplier 0 := by
  have hwidth : 0 ≤ multiplier * atr high low closes period 0 :=
    mul_nonneg hm (firstAtr_nonneg high low closes period)
  unfold lowerBand upperBand
  linarith

theorem bar_line (k : ℕ) : LineOfTrend (bar high low closes period multiplier k) := by
  cases k with
  | zero => exact trendBar_line _ _ _
  | succ k => exact trendBar_line _ _ _

def CrossedFlip : ℕ → Prop
  | 0 => False
  | k+1 =>
    ((bar high low closes period multiplier (k + 1)).trend = 1 ↔
      (bar high low closes period multiplier k).trend ≠ 1) ∧
    Crossed (bar high low closes period multiplier (k + 1)) (barAt closes (period + k + 1))

theorem bar_side_iff (hm : 0 ≤ multiplier) (k : ℕ) :
    OnItsSide (bar high low closes period multiplier k) (barAt closes (period + k)) ↔
      ¬ CrossedFlip high low closes period multiplier k := by
  cases k with
  | zero =>
    exact iff_of_true (firstBar_side _ _ _ (firstBands_ordered high low closes period multiplier hm))
      not_false
  | succ k => exact nextBar_side_iff _ _ _ _ _

/-- The line is on its side of the close at every bar but a flip between crossed bands,
and from every other bar on it tightens while the trend persists. -/
theorem trails_unless_crossed (hm : 0 ≤ multiplier) (k : ℕ) :
    (OnItsSide (bar high low closes period multiplier k) (barAt closes (period + k)) ↔
      ¬ CrossedFlip high low closes period multiplier k) ∧
    (¬ CrossedFlip high low closes period multiplier k →
      (bar high low closes period multiplier (k + 1)).trend =
        (bar high low closes period multiplier k).trend →
      Tightens (bar high low closes period multiplier k)
        (bar high low closes period multiplier (k + 1))) := by
  have hside := bar_side_iff high low closes period multiplier hm k
  refine ⟨hside, fun hok hsame => ?_⟩
  exact nextBar_tightens _ _ _ _ _ (bar_line high low closes period multiplier k)
    (hside.mpr hok) hsame

theorem crossedFlip_iff (k : ℕ) (hm : 0 ≤ multiplier) :
    CrossedFlip high low closes period multiplier k ↔
      Crossed (bar high low closes period multiplier k) (barAt closes (period + k)) := by
  cases k with
  | zero =>
    have hbands := firstBands_ordered high low closes period multiplier hm
    exact iff_of_false id fun h => absurd (h.1.trans h.2) (not_lt.mpr hbands)
  | succ k =>
    refine and_iff_right_of_imp fun ⟨habove, hbelow⟩ => ?_
    have htrend : (bar high low closes period multiplier (k + 1)).trend =
        nextTrend (bar high low closes period multiplier k)
          (bar high low closes period multiplier (k + 1)).finalUpper
          (bar high low closes period multiplier (k + 1)).finalLower
          (barAt closes (period + k + 1)) := rfl
    rw [htrend, nextTrend, if_pos hbelow, if_pos habove]
    split_ifs with hup <;> simp [hup]

/-- The line trails the prices at every bar exactly if at no bar the close lies between bands
that have crossed. -/
theorem trails_iff (hm : 0 ≤ multiplier) (n : ℕ) :
    (∀ k < n,
      OnItsSide (bar high low closes period multiplier k) (barAt closes (period + k)) ∧
      (k + 1 < n →
        (bar high low closes period multiplier (k + 1)).trend =
          (bar high low closes period multiplier k).trend →
        Tightens (bar high low closes period multiplier k)
          (bar high low closes period multiplier (k + 1)))) ↔
      ∀ k < n,
        ¬ Crossed (bar high low closes period multiplier k) (barAt closes (period + k)) := by
  refine forall₂_congr fun k _ => ?_
  rw [← crossedFlip_iff high low closes period multiplier k hm]
  obtain ⟨hside, htight⟩ := trails_unless_crossed high low closes period multiplier hm k
  exact ⟨fun h => hside.mp h.1, fun h => ⟨hside.mpr h, fun _ => htight h⟩⟩

theorem not_crossed_of_kept (k : ℕ) (h : flipped high low closes period multiplier k = false) :
    ¬ CrossedFlip high low closes period multiplier k := by
  cases k with
  | zero => exact not_false
  | succ k =>
    have hsame : (bar high low closes period multiplier (k + 1)).trend =
        (bar high low closes period multiplier k).trend := by
      simpa [flipped] using h
    rintro ⟨hflip, -⟩
    rw [hsame] at hflip
    exact iff_not_self hflip

/-- A result that reports no flip has its line on the right side of the last close. -/
theorem supertrend_side (hm : 0 ≤ multiplier)
    (hvalid : (supertrend high low closes period multiplier).valid = true)
    (hkept : (supertrend high low closes period multiplier).flipped = false) :
    ((supertrend high low closes period multiplier).trend = 1 →
        (supertrend high low closes period multiplier).value ≤ barAt closes (closes.length - 1)) ∧
      ((supertrend high low closes period multiplier).trend ≠ 1 →
        barAt closes (closes.length - 1) ≤
          (supertrend high low closes period multiplier).value) := by
  unfold supertrend at hvalid hkept ⊢
  dsimp only at hvalid hkept ⊢
  split_ifs at hvalid hkept ⊢ with hlengths hshort
  have hlast : period + (closes.length - 1 - period) = closes.length - 1 := by omega
  have hside := (bar_side_iff high low closes period multiplier hm _).mpr
    (not_crossed_of_kept high low closes period multiplier _ hkept)
  rw [hlast] at hside
  exact hside

structure Series (high low closes : List ℚ) : Prop where
  highs : high.length = closes.length
  lows : low.length = closes.length
  inside : ∀ i < closes.length, 0 < barAt low i ∧ barAt low i ≤ barAt closes i ∧
    barAt closes i ≤ barAt high i

def gapHigh : List ℚ := [100, 100, 100, 100, 100, 100, 100, 100, 100, 100, 100, 250]

def gapLow : List ℚ := [100, 100, 100, 100, 100, 100, 100, 100, 100, 100, 100, 120]

theorem gap_series : Series gapHigh gapLow gapLow := by
  refine ⟨rfl, rfl, ?_⟩
  decide +kernel

/-- With the parameters in use, the line of the uptrend is at 140 and the close at 120. -/
theorem line_above_close : ¬ ∀ (high low closes : List ℚ) (period : ℕ) (multiplier : ℚ),
    Series high low closes → 0 < period → 0 < multiplier →
    ∀ k, period + k < closes.length →
      OnItsSide (bar high low closes period multiplier k) (barAt closes (period + k)) ∧
      (period + k + 1 < closes.length →
        (bar high low closes period multiplier (k + 1)).trend =
          (bar high low closes period multiplier k).trend →
        Tightens (bar high low closes period multiplier k)
          (bar high low closes period multiplier (k + 1))) := by
  intro h
  have hside := (h gapHigh gapLow gapLow 10 3 gap_series (by decide) (by norm_num) 1
    (by decide)).1
  exact absurd hside (by decide +kernel)

theorem trails_iff_gap :
    (∀ k < 2, OnItsSide (bar gapHigh gapLow gapLow 10 3 k) (barAt gapLow (10 + k)) ∧
      (k + 1 < 2 →
        (bar gapHigh gapLow gapLow 10 3 (k + 1)).trend = (bar gapHigh gapLow gapLow 10 3 k).trend →
        Tightens (bar gapHigh gapLow gapLow 10 3 k) (bar gapHigh gapLow gapLow 10 3 (k + 1)))) ↔
      ∀ k < 2, ¬ Crossed (bar gapHigh gapLow gapLow 10 3 k) (barAt gapLow (10 + k)) :=
  trails_iff gapHigh gapLow gapLow 10 3 (by norm_num) 2

def calm : List ℚ := List.replicate 12 100

theorem supertrend_side_calm :
    ((supertrend calm calm calm 10 3).trend = 1 → (supertrend calm calm calm 10 3).value ≤ 100) ∧
      ((supertrend calm calm calm 10 3).trend ≠ 1 → 100 ≤ (supertrend calm calm calm 10 3).value) :=
  supertrend_side calm calm calm 10 3 (by norm_num) (by decide +kernel) (by decide +kernel)

end Trailing

end TB.IndicatorEngine
