import TomorrowBot.CorrelationMonitor

/-!
# The detector of liquidation cascades

A tick moves the window of prices, volumes and depths. A query reads the window,
and writes two members that are not part of it: the cached signal, and the time
at which the last alarm was raised. What is reported of the window never depends
on these two, whether an alarm is reported does.
-/

set_option autoImplicit false

namespace TB.CascadeDetector
open TB.CommonTypes TB.Numeric
open TB.CorrelationMonitor (MlComponentHealth MlComponentStatus)

structure CascadeConfig (F : Type) where
  velocityThreshold : F
  volumeSpikeMult : F
  depthThinThreshold : F
  lookback : ℕ
  cascadeProbabilityThreshold : F
  staleThresholdNs : ℤ
  cooldownNs : ℤ
  velocityAdaptationFactor : F

structure CascadeSignal (F : Type) where
  probability : F
  priceVelocity : F
  volumeRatio : F
  depthRatio : F
  cascadeImminent : Bool
  direction : ℤ
  componentStatus : MlComponentStatus
  inCooldown : Bool
  samplesUsed : ℕ

structure Feed (F : Type) where
  prices : List F
  volumes : List F
  depths : List F
  avgVolume : F
  avgDepth : F
  lastTickNs : ℤ
  totalTicks : ℕ
  rollingVolatility : F

structure Detector (F : Type) where
  feed : Feed F
  lastCascadeSignalNs : ℤ
  cachedSignal : Option (CascadeSignal F)

structure Tick (F : Type) where
  price : F
  volume : F
  bidDepth : F
  askDepth : F
  now : ℤ

section Model
variable {F : Type} [DoubleSqrt F]

def defaultConfig : CascadeConfig F where
  velocityThreshold := 0.003
  volumeSpikeMult := 3.0
  depthThinThreshold := 0.3
  lookback := 30
  cascadeProbabilityThreshold := 0.6
  staleThresholdNs := 5000000000
  cooldownNs := 2000000000
  velocityAdaptationFactor := 1.0

def newFeed : Feed F := ⟨[], [], [], 0.0, 0.0, 0, 0, 0.0⟩

def newDetector : Detector F := ⟨newFeed, 0, none⟩

def kMaxReasonableVolume : F := 1e15

def IsValidVolume (v : F) : Prop := isfinite v = true ∧ 0.0 ≤ v ∧ v < kMaxReasonableVolume

def Tick.Valid (tick : Tick F) : Prop :=
  IsValidPrice tick.price ∧ IsValidVolume tick.volume ∧
    ¬ (isfinite tick.bidDepth = false ∨ tick.bidDepth < 0.0 ∨
      isfinite tick.askDepth = false ∨ tick.askDepth < 0.0)

instance (v : F) : Decidable (IsValidVolume v) := inferInstanceAs (Decidable (_ ∧ _))

instance (tick : Tick F) : Decidable tick.Valid := inferInstanceAs (Decidable (_ ∧ _))

variable (cfg : CascadeConfig F)

def nextVolatility (f : Feed F) (price : F) : F :=
  match f.prices.getLast? with
  | none => f.rollingVolatility
  | some last =>
    if 0.0 < last ∧ 0.0 < price then
      let logRet := safeLog (price / last)
      let alpha := safeDiv 2.0 (ofInt cfg.lookback + 1.0) 0.0
      safeSqrt ((1.0 - alpha) * f.rollingVolatility * f.rollingVolatility + alpha * logRet * logRet)
    else f.rollingVolatility

def nextAverage (window : List F) (average : F) : F :=
  if window = [] then average else window.foldl (· + ·) 0.0 / ofInt window.length

def Feed.onTick (f : Feed F) (tick : Tick F) : Feed F :=
  if tick.Valid then
    let volumes := (f.volumes ++ [tick.volume]).rtake cfg.lookback
    let depths := (f.depths ++ [tick.bidDepth + tick.askDepth]).rtake cfg.lookback
    { prices := (f.prices ++ [tick.price]).rtake cfg.lookback
      volumes := volumes
      depths := depths
      avgVolume := nextAverage volumes f.avgVolume
      avgDepth := nextAverage depths f.avgDepth
      lastTickNs := tick.now
      totalTicks := f.totalTicks + 1
      rollingVolatility := nextVolatility cfg f tick.price }
  else f

def onTick (d : Detector F) (tick : Tick F) : Detector F :=
  if tick.Valid then { d with feed := d.feed.onTick cfg tick, cachedSignal := none } else d

def Feed.status (f : Feed F) (ts : ℤ) : MlComponentStatus :=
  let health : MlComponentHealth × ℕ :=
    if f.totalTicks = 0 then (.warmingUp, 6)
    else if isStale f.lastTickNs ts cfg.staleThresholdNs then (.stale, 0)
    else if f.prices.length < 6 then (.warmingUp, 6 - f.prices.length)
    else (.healthy, 0)
  ⟨health.1, f.lastTickNs, f.totalTicks, health.2⟩

def emptySignal (f : Feed F) (ts : ℤ) : CascadeSignal F :=
  ⟨0.0, 0.0, 0.0, 1.0, false, 0, f.status cfg ts, false, f.prices.length⟩

def entry (window : List F) (i : ℕ) : F := window.getD i 0.0

def newest (window : List F) : F := entry window (window.length - 1)

def priceVelocity (f : Feed F) : F :=
  let n := f.prices.length
  let lag := min 5 (n - 1)
  let priceOld := entry f.prices (n - 1 - lag)
  safeDiv (newest f.prices - priceOld) priceOld 0.0

def volumeRatio (f : Feed F) : F := safeDiv (newest f.volumes) f.avgVolume 0.0

def depthRatio (f : Feed F) : F := safeDiv (newest f.depths) f.avgDepth 1.0

def adaptedVelocityThreshold (f : Feed F) : F :=
  if kEpsilon < f.rollingVolatility ∧ 0.0 < cfg.velocityAdaptationFactor then
    cfg.velocityThreshold /
      stdClamp (f.rollingVolatility / stdMax cfg.velocityThreshold kEpsilon *
        cfg.velocityAdaptationFactor) 0.5 3.0
  else cfg.velocityThreshold

def velocityScore (f : Feed F) : F :=
  stdMin 1.0 (safeDiv (stdAbs (priceVelocity f)) (adaptedVelocityThreshold cfg f) 0.0)

def volumeScore (f : Feed F) : F := stdMin 1.0 (safeDiv (volumeRatio f) cfg.volumeSpikeMult 0.0)

def depthScore (f : Feed F) : F :=
  let depthThr := stdClamp cfg.depthThinThreshold 0.01 0.99
  if depthRatio f < depthThr then safeDiv (depthThr - depthRatio f) depthThr 0.0 else 0.0

def cascadeScore (f : Feed F) : F :=
  safeClamp (0.4 * velocityScore cfg f + 0.3 * volumeScore cfg f + 0.3 * depthScore cfg f)
    0.0 1.0 0.0

def velocityDirection (f : Feed F) : ℤ :=
  if 0.0 < priceVelocity f then 1 else if priceVelocity f < 0.0 then -1 else 0

def Feed.Likely (f : Feed F) : Prop :=
  6 ≤ f.prices.length ∧ cfg.cascadeProbabilityThreshold ≤ cascadeScore cfg f

instance (f : Feed F) : Decidable (f.Likely cfg) := inferInstanceAs (Decidable (_ ∧ _))

def Cooling (lastCascadeSignalNs ts : ℤ) : Prop :=
  0 < lastCascadeSignalNs ∧ ts - lastCascadeSignalNs < cfg.cooldownNs

instance (last ts : ℤ) : Decidable (Cooling cfg last ts) := inferInstanceAs (Decidable (_ ∧ _))

def assess (f : Feed F) (lastCascadeSignalNs ts : ℤ) : CascadeSignal F :=
  let signal := emptySignal cfg f ts
  if f.prices.length < 6 then signal
  else
    let rawCascade := decide (cfg.cascadeProbabilityThreshold ≤ cascadeScore cfg f)
    { signal with
      priceVelocity := priceVelocity f
      volumeRatio := volumeRatio f
      depthRatio := depthRatio f
      probability := cascadeScore cfg f
      direction := velocityDirection f
      inCooldown := rawCascade && decide (Cooling cfg lastCascadeSignalNs ts)
      cascadeImminent := rawCascade && !decide (Cooling cfg lastCascadeSignalNs ts) }

def usableCache (d : Detector F) (now : ℤ) : Option (CascadeSignal F) :=
  d.cachedSignal.filter fun signal =>
    !isStale d.feed.lastTickNs now cfg.staleThresholdNs &&
      !(signal.inCooldown && decide (0 < d.lastCascadeSignalNs) &&
        decide (cfg.cooldownNs ≤ now - d.lastCascadeSignalNs))

def evaluate (d : Detector F) (now ts : ℤ) : CascadeSignal F × Detector F :=
  match usableCache cfg d now with
  | some signal => (signal, d)
  | none =>
    let signal := assess cfg d.feed d.lastCascadeSignalNs ts
    (signal, { d with
      cachedSignal := some signal
      lastCascadeSignalNs := if signal.cascadeImminent then ts else d.lastCascadeSignalNs })

def isCascadeLikely (d : Detector F) (now ts : ℤ) : Bool × Detector F :=
  let (signal, d) := evaluate cfg d now ts
  (signal.cascadeImminent, d)

def status (d : Detector F) (now ts : ℤ) : MlComponentStatus × Detector F :=
  let (signal, d) := evaluate cfg d now ts
  (signal.componentStatus, d)

def raised (d : Detector F) (now ts : ℤ) : Bool :=
  (usableCache cfg d now).isNone && (assess cfg d.feed d.lastCascadeSignalNs ts).cascadeImminent

end Model

end TB.CascadeDetector
