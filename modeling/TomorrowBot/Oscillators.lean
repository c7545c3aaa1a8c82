import TomorrowBot.NumericUtils
import TomorrowBot.Supertrend

/-!
# Relative indicators

RSI, Bollinger bands, ADX, the stochastic and a pair of exponential averages. A
period is a natural number here; zero stands for every period that is rejected.
-/

set_option autoImplicit false

namespace TB.IndicatorEngine
open TB.CommonTypes TB.Numeric

structure IndicatorResult (F : Type) where
  valid : Bool
  value : F
  status : IndicatorStatus
  sampleCount : ℕ
  warmupRemaining : ℕ

structure BollingerResult (F : Type) where
  valid : Bool
  upper : F
  middle : F
  lower : F
  bandwidth : F
  percentB : F
  status : IndicatorStatus
  sampleCount : ℕ
  warmupRemaining : ℕ

structure AdxResult (F : Type) where
  valid : Bool
  adx : F
  plusDi : F
  minusDi : F
  status : IndicatorStatus
  sampleCount : ℕ
  warmupRemaining : ℕ

structure StochasticResult (F : Type) where
  valid : Bool
  k : F
  d : F
  overbought : Bool
  oversold : Bool
  bullCross : Bool
  bearCross : Bool
  status : IndicatorStatus
  sampleCount : ℕ

structure EmaPairResult (F : Type) where
  valid : Bool
  emaFast : F
  emaSlow : F
  trend : ℤ
  bullCross : Bool
  bearCross : Bool
  separationBps : F
  status : IndicatorStatus
  sampleCount : ℕ

section Series
variable {F : Type} [DoubleRounding F]

def isValidSeries (prices : List F) : Bool :=
  !prices.isEmpty && prices.all fun p => decide (IsValidPrice p)

def moves (prices : List F) : List F :=
  (List.range (prices.length - 1)).map fun i => barAt prices (i + 1) - barAt prices i

def seedStep (acc : F × F) (delta : F) : F × F :=
  if 0.0 < delta then (acc.1 + delta, acc.2) else (acc.1, acc.2 + -delta)

def wilder (period : ℕ) (avg x : F) : F := (avg * ofInt ((period : ℤ) - 1) + x) / ofInt period

def smoothStep (period : ℕ) (acc : F × F) (delta : F) : F × F :=
  let gain := if 0.0 < delta then delta else 0.0
  let loss := if delta < 0.0 then -delta else 0.0
  (wilder period acc.1 gain, wilder period acc.2 loss)

def averages (prices : List F) (period : ℕ) : F × F :=
  let seed := ((moves prices).take period).foldl seedStep (0.0, 0.0)
  ((moves prices).drop period).foldl (smoothStep period)
    (seed.1 / ofInt period, seed.2 / ofInt period)

def rsiOf (avgGain avgLoss : F) : F :=
  if avgLoss < kEpsilon then 100.0
  else 100.0 - safeDiv 100.0 (1.0 + safeDiv avgGain avgLoss 0.0) 0.0

def rsi (prices : List F) (period : ℕ) : IndicatorResult F :=
  let n := prices.length
  if period = 0 then ⟨false, 0.0, .invalidInput, 0, 0⟩
  else if n < period + 1 then ⟨false, 0.0, .insufficientData, n, period + 1 - n⟩
  else if !isValidSeries prices then ⟨false, 0.0, .invalidInput, 0, 0⟩
  else ⟨true, rsiOf (averages prices period).1 (averages prices period).2, .ok, n, 0⟩

structure Directional (F : Type) where
  plus : F
  minus : F
  range : F

def directional (high low close : List F) (i : ℕ) : Directional F :=
  let up := barAt high i - barAt high (i - 1)
  let down := barAt low (i - 1) - barAt low i
  { plus := if down < up ∧ 0.0 < up then up else 0.0
    minus := if up < down ∧ 0.0 < down then down else 0.0
    range := trueRange high low close i }

def directionals (high low close : List F) : List (Directional F) :=
  (List.range (high.length - 1)).map fun i => directional high low close (i + 1)

def Directional.add (s m : Directional F) : Directional F :=
  ⟨s.plus + m.plus, s.minus + m.minus, s.range + m.range⟩

def Directional.smooth (period : ℕ) (s m : Directional F) : Directional F :=
  ⟨s.plus - safeDiv s.plus (ofInt period) 0.0 + m.plus,
    s.minus - safeDiv s.minus (ofInt period) 0.0 + m.minus,
    s.range - safeDiv s.range (ofInt period) 0.0 + m.range⟩

def Directional.plusDi (s : Directional F) : F := safeDiv (100.0 * s.plus) s.range 0.0

def Directional.minusDi (s : Directional F) : F := safeDiv (100.0 * s.minus) s.range 0.0

def Directional.calcDx (s : Directional F) : F :=
  safeDiv (100.0 * stdAbs (s.plusDi - s.minusDi)) (s.plusDi + s.minusDi) 0.0

def directionalSeed (ms : List (Directional F)) (period : ℕ) : Directional F :=
  (ms.take period).foldl Directional.add ⟨0.0, 0.0, 0.0⟩

def smoothings (ms : List (Directional F)) (period : ℕ) : List (Directional F) :=
  (ms.drop period).scanl (Directional.smooth period) (directionalSeed ms period)

def lastSmoothing (ms : List (Directional F)) (period : ℕ) : Directional F :=
  (ms.drop period).foldl (Directional.smooth period) (directionalSeed ms period)

def averageDx (period : ℕ) (dxSeries : List F) : F :=
  let start := safeDiv ((dxSeries.take period).foldl (· + ·) 0.0) (ofInt period) 0.0
  (dxSeries.drop period).foldl
    (fun adx dx => safeDiv (adx * ofInt ((period : ℤ) - 1) + dx) (ofInt period) 0.0) start

def adx (high low close : List F) (period : ℕ) : AdxResult F :=
  let n := high.length
  let ms := directionals high low close
  let dxSeries := (smoothings ms period).map Directional.calcDx
  if period = 0 then ⟨false, 0.0, 0.0, 0.0, .invalidInput, 0, 0⟩
  else if high.length ≠ low.length ∨ high.length ≠ close.length then
    ⟨false, 0.0, 0.0, 0.0, .invalidInput, 0, 0⟩
  else if n < 2 * period + 1 then
    ⟨false, 0.0, 0.0, 0.0, .insufficientData, n, 2 * period + 1 - n⟩
  else if !isValidSeries high || !isValidSeries low || !isValidSeries close then
    ⟨false, 0.0, 0.0, 0.0, .invalidInput, 0, 0⟩
  else if dxSeries.length < period then
    ⟨false, 0.0, 0.0, 0.0, .insufficientData, n, period - dxSeries.length⟩
  else
    let last := lastSmoothing ms period
    ⟨true, averageDx period dxSeries, last.plusDi, last.minusDi, .ok, n, 0⟩

def highest (xs : List F) (start len : ℕ) : F :=
  (List.range len).foldl (fun m j => stdMax m (barAt xs (start + 1 + j))) (barAt xs start)

def lowest (xs : List F) (start len : ℕ) : F :=
  (List.range len).foldl (fun m j => stdMin m (barAt xs (start + 1 + j))) (barAt xs start)

section Stochastic
variable (high low close : List F) (kPeriod smoothK smoothD : ℕ)

def rawK (i : ℕ) : F :=
  if i < kPeriod - 1 then 50.0
  else
    let hh := highest high (i + 1 - kPeriod) (kPeriod - 1)
    let ll := lowest low (i + 1 - kPeriod) (kPeriod - 1)
    let range := hh - ll
    if 1e-12 < range then (barAt close i - ll) / range * 100.0 else 50.0

def meanBack (line : ℕ → F) (count i : ℕ) : F :=
  (List.range count).foldl (fun sum j => sum + line (i - j)) 0.0 / ofInt count

def smoothedK (i : ℕ) : F :=
  if i < kPeriod + smoothK - 2 then 50.0 else meanBack (rawK high low close kPeriod) smoothK i

def lineD (i : ℕ) : F :=
  if i < kPeriod + smoothK + smoothD - 3 then 50.0
  else meanBack (smoothedK high low close kPeriod smoothK) smoothD i

def stochastic : StochasticResult F :=
  let n := close.length
  if high.length ≠ n ∨ low.length ≠ n then
    ⟨false, 0.0, 0.0, false, false, false, false, .invalidInput, 0⟩
  else if n < kPeriod + smoothK + smoothD then
    ⟨false, 0.0, 0.0, false, false, false, false, .insufficientData, 0⟩
  else
    let k := smoothedK high low close kPeriod smoothK (n - 1)
    let d := lineD high low close kPeriod smoothK smoothD (n - 1)
    let kPrev := smoothedK high low close kPeriod smoothK (n - 2)
    let dPrev := lineD high low close kPeriod smoothK smoothD (n - 2)
    let wasBelow := decide (kPrev < dPrev)
    let isAbove := decide (d < k)
    { valid := true
      k := k
      d := d
      overbought := decide (80.0 < k)
      oversold := decide (k < 20.0)
      bullCross := decide (2 ≤ n) && (wasBelow && isAbove && decide (kPrev < 30.0))
      bearCross := decide (2 ≤ n) && (!wasBelow && !isAbove && decide (70.0 < kPrev))
      status := .ok
      sampleCount := n }

end Stochastic

section Ema
variable (prices : List F) (period : ℕ)

def emaFrom : ℕ → F
  | 0 => (List.range period).foldl (fun seed i => seed + barAt prices i) 0.0 / ofInt period
  | k + 1 =>
    let rate := 2.0 / (ofInt period + 1.0)
    barAt prices (period + k) * rate + emaFrom k * (1.0 - rate)

def emaSeries (i : ℕ) : F :=
  if prices.length < period ∨ period = 0 ∨ i < period - 1 then 0.0
  else emaFrom prices period (i - (period - 1))

def emaPair (fastPeriod slowPeriod : ℕ) : EmaPairResult F :=
  let n := prices.length
  if slowPeriod ≤ fastPeriod then ⟨false, 0.0, 0.0, 0, false, false, 0.0, .invalidInput, 0⟩
  else if n < slowPeriod + 1 then ⟨false, 0.0, 0.0, 0, false, false, 0.0, .insufficientData, 0⟩
  else
    let emaFast := emaSeries prices fastPeriod (n - 1)
    let emaSlow := emaSeries prices slowPeriod (n - 1)
    let fastPrev := emaSeries prices fastPeriod (n - 2)
    let slowPrev := emaSeries prices slowPeriod (n - 2)
    let compared := decide (2 ≤ n) && (decide (0.0 < fastPrev) && decide (0.0 < slowPrev))
    let wasBelow := decide (fastPrev < slowPrev)
    let isAbove := decide (emaSlow < emaFast)
    let price := barAt prices (n - 1)
    { valid := true
      emaFast := emaFast
      emaSlow := emaSlow
      trend := if emaSlow < emaFast then 1 else -1
      bullCross := compared && (wasBelow && isAbove)
      bearCross := compared && (!wasBelow && !isAbove)
      separationBps :=
        if 0.0 < price then stdAbs (emaFast - emaSlow) / price * 10000.0 else 0.0
      status := .ok
      sampleCount := n }

end Ema
end Series

section Bollinger
variable {F : Type} [DoubleSqrt F]

def bandSigma (window : List F) (period : ℕ) : F :=
  let middle := safeDiv (window.foldl (· + ·) 0.0) (ofInt period) 0.0
  let var := window.foldl (fun var p => var + (p - middle) * (p - middle)) 0.0
  safeSqrt (safeDiv var (ofInt period) 0.0)

def bollinger (prices : List F) (period : ℕ) (stddevMult : F) : BollingerResult F :=
  let n := prices.length
  if period = 0 ∨ stddevMult < 0.0 then
    ⟨false, 0.0, 0.0, 0.0, 0.0, 0.0, .invalidInput, 0, 0⟩
  else if n < period then
    ⟨false, 0.0, 0.0, 0.0, 0.0, 0.0, .insufficientData, n, period - n⟩
  else if !isValidSeries prices then
    ⟨false, 0.0, 0.0, 0.0, 0.0, 0.0, .invalidInput, 0, 0⟩
  else
    let window := prices.drop (n - period)
    let middle := safeDiv (window.foldl (· + ·) 0.0) (ofInt period) 0.0
    let sigma := bandSigma window period
    let upper := middle + stddevMult * sigma
    let lower := middle - stddevMult * sigma
    { valid := true
      upper := upper
      middle := middle
      lower := lower
      bandwidth := safeDiv (upper - lower) middle 0.0
      percentB :=
        if kEpsilon < upper - lower then
          safeDiv (barAt prices (n - 1) - lower) (upper - lower) 0.5
        else 0.5
      status := .ok
      sampleCount := n
      warmupRemaining := 0 }

end Bollinger

section Folds
variable {α β γ δ : Type} {f : α → β → α} {g : γ → δ → γ}

theorem foldl_transfer (h : α → γ) (k : β → δ) (hstep : ∀ a b, g (h a) (k b) = h (f a b))
    (l : List β) (a : α) : (l.map k).foldl g (h a) = h (l.foldl f a) := by
  rw [List.foldl_map]
  exact List.foldl_hom h fun a b => hstep a b

theorem scanl_transfer (h : α → γ) (k : β → δ) (hstep : ∀ a b, g (h a) (k b) = h (f a b))
    (l : List β) (a : α) : (l.map k).scanl g (h a) = (l.scanl f a).map h := by
  induction l generalizing a with
  | nil => rfl
  | cons b l ih =>
    rw [List.map_cons, List.scanl_cons, List.scanl_cons, List.map_cons, hstep, ih]

end Folds

end TB.IndicatorEngine
