import TomorrowBot.NumericUtils
import TomorrowBot.RecentEntries
import TomorrowBot.SampleMoments

/-!
# Correlation with the reference assets

The returns of the primary asset and of every reference asset are kept in buffers
of their own. A correlation joins the ends of two buffers by position.
-/

set_option autoImplicit false

namespace TB.CorrelationMonitor
open TB.CommonTypes TB.Numeric SampleMoments

structure CorrelationConfig (F : Type) where
  windowShort : ℕ
  windowLong : ℕ
  decorrelationThreshold : F
  correlationBreakThreshold : F
  staleThresholdNs : ℤ
  referenceAssets : List String

structure CorrelationSnapshot (F : Type) where
  referenceAsset : String
  shortCorrelation : Option F
  longCorrelation : Option F
  correlationChange : F
  decorrelated : Bool
  correlationBreak : Bool
  valid : Bool
  stale : Bool

inductive MlComponentHealth where
  | healthy | warmingUp | stale | degraded | failed

structure MlComponentStatus where
  health : MlComponentHealth
  lastUpdateNs : ℤ
  samplesProcessed : ℕ
  warmupRemaining : ℕ

structure CorrelationResult (F : Type) where
  snapshots : List (CorrelationSnapshot F)
  avgCorrelation : Option F
  anyBreak : Bool
  riskMultiplier : F
  componentStatus : MlComponentStatus
  hasUndefinedPairs : Bool

structure MonitorState (F : Type) where
  primaryReturns : List F
  referenceReturns : String → List F
  lastPrimaryPrice : F
  lastReferencePrices : String → F
  lastPrimaryTickNs : ℤ
  lastReferenceTickNs : String → ℤ
  totalTicks : ℕ
  cache : Option (CorrelationResult F)

inductive MonitorEvent (F : Type) where
  | primary (price : F) (now : ℤ)
  | reference (asset : String) (price : F) (now : ℤ)
  | evaluate (now : ℤ)

section Monitor
variable {F : Type} [DoubleSqrt F]

def defaultConfig : CorrelationConfig F :=
  ⟨20, 100, 0.3, 0.5, 5000000000, ["BTCUSDT", "ETHUSDT"]⟩

def newMonitor : MonitorState F := ⟨[], fun _ => [], 0.0, fun _ => 0.0, 0, fun _ => 0, 0, none⟩

variable (cfg : CorrelationConfig F)

def pushReturn (returns : List F) (last price : F) : List F :=
  if 0.0 < last ∧ 0.0 < price then
    (returns ++ [safeLog (price / last)]).rtake (cfg.windowLong + 10)
  else returns

def onPrimaryTick (s : MonitorState F) (price : F) (now : ℤ) : MonitorState F :=
  if IsValidPrice price then
    { s with
      primaryReturns := pushReturn cfg s.primaryReturns s.lastPrimaryPrice price
      lastPrimaryPrice := price
      lastPrimaryTickNs := now
      totalTicks := s.totalTicks + 1
      cache := none }
  else s

def onReferenceTick (s : MonitorState F) (asset : String) (price : F) (now : ℤ) :
    MonitorState F :=
  if IsValidPrice price ∧ asset ≠ "" then
    { s with
      referenceReturns := Function.update s.referenceReturns asset
        (pushReturn cfg (s.referenceReturns asset) (s.lastReferencePrices asset) price)
      lastReferencePrices := Function.update s.lastReferencePrices asset price
      lastReferenceTickNs := Function.update s.lastReferenceTickNs asset now
      totalTicks := s.totalTicks + 1
      cache := none }
  else s

def joined (x y : List F) (window : ℕ) : List (F × F) :=
  let n := min (min x.length y.length) window
  (x.rtake n).zip (y.rtake n)

def computePearson (x y : List F) (window : ℕ) : Option F :=
  let n := min (min x.length y.length) window
  if n < 5 then none
  else
    let m := momentsOf (fun k => ofInt k) 0.0 (joined x y window)
    let dn : F := ofInt n
    let varX := m.m2X / dn
    let varY := m.m2Y / dn
    if varX ≤ kEpsilon ∨ varY ≤ kEpsilon then none
    else
      (quotient (m.cov / dn) (DoubleSqrt.sqrt varX * DoubleSqrt.sqrt varY)).map
        (fun corr => stdClamp corr (-1.0) 1.0)

def emptySnapshot (asset : String) : CorrelationSnapshot F :=
  ⟨asset, some 0.0, some 0.0, 0.0, false, false, false, false⟩

def snapshotOf (s : MonitorState F) (ts : ℤ) (asset : String) : CorrelationSnapshot F × Bool :=
  if isStale (s.lastReferenceTickNs asset) ts cfg.staleThresholdNs then
    ({ emptySnapshot asset with stale := true }, false)
  else if (s.referenceReturns asset).length < 5 ∨ s.primaryReturns.length < 5 then
    (emptySnapshot asset, false)
  else
    let short := computePearson s.primaryReturns (s.referenceReturns asset) cfg.windowShort
    let long := computePearson s.primaryReturns (s.referenceReturns asset) cfg.windowLong
    match short, long with
    | some sc, some lc =>
      ({ referenceAsset := asset
         shortCorrelation := short
         longCorrelation := long
         correlationChange := sc - lc
         decorrelated := decide (stdAbs sc < cfg.decorrelationThreshold)
         correlationBreak := decide (cfg.correlationBreakThreshold < stdAbs (sc - lc))
         valid := true
         stale := false }, false)
    | _, _ =>
      ({ emptySnapshot asset with shortCorrelation := short, longCorrelation := long }, true)

def statusOf (s : MonitorState F) (now : ℤ) : MlComponentStatus :=
  let status : MlComponentStatus := ⟨.healthy, s.lastPrimaryTickNs, s.totalTicks, 0⟩
  if s.totalTicks = 0 ∨ s.primaryReturns.length < 5 then
    { status with health := .warmingUp, warmupRemaining := 5 - min 5 s.primaryReturns.length }
  else if isStale s.lastPrimaryTickNs now cfg.staleThresholdNs then
    { status with health := .stale }
  else if cfg.referenceAssets.any (fun a => decide (5 ≤ (s.referenceReturns a).length)) then status
  else { status with health := .degraded }

def riskMultiplierOf (snapshots : List (CorrelationSnapshot F)) (validCount : ℕ)
    (undefinedPairs : Bool) : F :=
  let risk :=
    if snapshots.any CorrelationSnapshot.correlationBreak then 0.5
    else if validCount = 0 ∧ undefinedPairs = true then 0.5
    else if snapshots.any (fun s => s.valid && s.decorrelated) then 0.7 else 1.0
  if undefinedPairs then stdMin risk 0.8 else risk

def computeResult (s : MonitorState F) (ts : ℤ) : CorrelationResult F :=
  let pairs := cfg.referenceAssets.map (snapshotOf cfg s ts)
  let snapshots := pairs.map Prod.fst
  let undefinedPairs := pairs.any Prod.snd
  let defined := (snapshots.filter (fun s => s.valid && !s.stale)).filterMap
    CorrelationSnapshot.shortCorrelation
  let totalCorr := defined.foldl (fun t c => t + stdAbs c) 0.0
  { snapshots := snapshots
    avgCorrelation :=
      if 0 < defined.length then some (totalCorr / ofInt defined.length)
      else if snapshots.any CorrelationSnapshot.correlationBreak = false ∧
          undefinedPairs = true then none
      else some 0.0
    anyBreak := snapshots.any CorrelationSnapshot.correlationBreak
    riskMultiplier := riskMultiplierOf snapshots defined.length undefinedPairs
    componentStatus := statusOf cfg s ts
    hasUndefinedPairs := undefinedPairs }

def evaluate (s : MonitorState F) (now : ℤ) : CorrelationResult F × MonitorState F :=
  match s.cache with
  | some r =>
    if isStale s.lastPrimaryTickNs now cfg.staleThresholdNs then
      (computeResult cfg s now, { s with cache := some (computeResult cfg s now) })
    else (r, s)
  | none => (computeResult cfg s now, { s with cache := some (computeResult cfg s now) })

def step (s : MonitorState F) : MonitorEvent F → MonitorState F
  | .primary price now => onPrimaryTick cfg s price now
  | .reference asset price now => onReferenceTick cfg s asset price now
  | .evaluate now => (evaluate cfg s now).2

def run (es : List (MonitorEvent F)) : MonitorState F := es.foldl (step cfg) newMonitor

end Monitor

end TB.CorrelationMonitor
