import TomorrowBot.DoubleFunctions
import TomorrowBot.WhileLoops

/-!
# Volume buckets of a constant size

Trades fill a bucket up to its target; what overflows goes into the next one in
the same proportion. The canonical buckets keep the target of the calibration,
the target of the adaptive ones follows the buckets that were completed.
-/

set_option autoImplicit false

namespace TB.Vpin
open TB.CommonTypes

structure VpinConfig (F : Type) where
  bucketSize : ℕ
  numBuckets : ℕ
  toxicThreshold : F
  enableAdaptive : Bool
  adaptiveRecalInterval : ℕ
  adaptiveBlend : F

structure VolumeBucket (F : Type) where
  buyVolume : F
  sellVolume : F
  totalVolume : F

structure Buckets (F : Type) where
  buckets : List (VolumeBucket F)
  current : VolumeBucket F
  target : F
  vpin : F
  completed : List (F × VolumeBucket F)

structure VpinState (F : Type) where
  canonical : Buckets F
  adaptive : Buckets F
  calibrated : Bool
  vpinMa : F
  tradeCount : ℕ
  volumesCalibration : List F

structure Trade (F : Type) where
  volume : F
  isBuy : Bool

section Update
variable {F : Type} [DoubleRounding F]

def defaultVpinConfig : VpinConfig F := ⟨50, 50, 0.7, true, 1000, 0.3⟩

def emptyBucket : VolumeBucket F := ⟨0.0, 0.0, 0.0⟩

def newBuckets : Buckets F := ⟨[], emptyBucket, 0.0, 0.0, []⟩

def newVpin : VpinState F := ⟨newBuckets, newBuckets, false, 0.0, 0, []⟩

def computeVpinFromBuckets (bs : List (VolumeBucket F)) : F :=
  let imbalance := bs.foldl (fun s b => s + stdAbs (b.buyVolume - b.sellVolume)) 0.0
  let volume := bs.foldl (fun s b => s + b.totalVolume) 0.0
  if 0.0 < volume then imbalance / volume else 0.0

def overflowOf (b : VolumeBucket F) (target : F) : VolumeBucket F :=
  let overflow := b.totalVolume - target
  let buyFrac := if 0.0 < b.totalVolume then b.buyVolume / b.totalVolume else 0.5
  let overflowBuy := overflow * buyFrac
  ⟨overflowBuy, overflow - overflowBuy, overflow⟩

def completedBucket (b : VolumeBucket F) (target : F) : VolumeBucket F :=
  let excess := overflowOf b target
  ⟨b.buyVolume - excess.buyVolume, b.sellVolume - excess.sellVolume, target⟩

def pushBucket (numBuckets : ℕ) (bs : List (VolumeBucket F)) (b : VolumeBucket F) :
    List (VolumeBucket F) :=
  if numBuckets < (bs ++ [b]).length then (bs ++ [b]).tail else bs ++ [b]

def Overflowing (s : Buckets F) : Prop := 0.0 < s.target ∧ s.target ≤ s.current.totalVolume

instance : DecidablePred (Overflowing (F := F)) := fun s =>
  inferInstanceAs (Decidable (0.0 < s.target ∧ s.target ≤ s.current.totalVolume))

def fillRound (numBuckets : ℕ) (s : Buckets F) : Buckets F :=
  let done := completedBucket s.current s.target
  let bs := pushBucket numBuckets s.buckets done
  { s with
    buckets := bs
    current := overflowOf s.current s.target
    vpin := if 10 ≤ bs.length then computeVpinFromBuckets bs else s.vpin
    completed := s.completed ++ [(s.target, done)] }

def addVolume (s : Buckets F) (t : Trade F) : Buckets F :=
  let b := s.current
  { s with
    current :=
      { buyVolume := if t.isBuy then b.buyVolume + t.volume else b.buyVolume
        sellVolume := if t.isBuy then b.sellVolume else b.sellVolume + t.volume
        totalVolume := b.totalVolume + t.volume } }

def fillBucket (fuel numBuckets : ℕ) (s : Buckets F) (t : Trade F) : Option (Buckets F) :=
  WhileLoops.loop Overflowing (fillRound numBuckets) fuel (addVolume s t)

variable (cfg : VpinConfig F)

def calibrate (s : VpinState F) (volume : F) : VpinState F :=
  if s.calibrated then s
  else
    let volumes := s.volumesCalibration ++ [volume]
    if volumes.length < 10 then { s with volumesCalibration := volumes }
    else
      let target := volumes.foldl (· + ·) 0.0 / ofInt volumes.length * ofInt cfg.bucketSize
      if target ≤ 0.0 ∧ 0.0 ≤ target then { s with volumesCalibration := [] }
      else
        { s with
          volumesCalibration := volumes
          calibrated := true
          canonical := { s.canonical with target := target }
          adaptive := { s.adaptive with target := target } }

def recentAvg (bs : List (VolumeBucket F)) : F :=
  let count := min 10 bs.length
  (bs.drop (bs.length - count)).foldl (fun s b => s + b.totalVolume) 0.0 / ofInt count

def Recalibrates (tradeCount : ℕ) (s : Buckets F) : Prop :=
  tradeCount % cfg.adaptiveRecalInterval = 0 ∧ 0.0 < s.target ∧ s.buckets ≠ []

instance (tradeCount : ℕ) (s : Buckets F) : Decidable (Recalibrates cfg tradeCount s) :=
  inferInstanceAs (Decidable (_ ∧ _ ∧ s.buckets ≠ []))

def recalibrate (tradeCount : ℕ) (s : Buckets F) : Buckets F :=
  if Recalibrates cfg tradeCount s then
    { s with
      target := (1.0 - cfg.adaptiveBlend) * s.target + cfg.adaptiveBlend * recentAvg s.buckets }
  else s

def fillAdaptive (fuel : ℕ) (s : VpinState F) (t : Trade F) : Option (Buckets F) :=
  if cfg.enableAdaptive = false then some s.adaptive
  else if cfg.adaptiveRecalInterval = 0 then none
  else fillBucket fuel cfg.numBuckets (recalibrate cfg s.tradeCount s.adaptive) t

def smoothed (s : VpinState F) : F :=
  if 10 ≤ s.canonical.buckets.length then
    if s.vpinMa ≤ 0.0 then s.canonical.vpin else 0.9 * s.vpinMa + 0.1 * s.canonical.vpin
  else s.vpinMa

def updateVpin (fuel : ℕ) (s : VpinState F) (t : Trade F) : Option (VpinState F) :=
  let s := calibrate cfg { s with tradeCount := s.tradeCount + 1 } t.volume
  if s.calibrated then do
    let canonical ← fillBucket fuel cfg.numBuckets s.canonical t
    let adaptive ← fillAdaptive cfg fuel s t
    let s := { s with canonical := canonical, adaptive := adaptive }
    some { s with vpinMa := smoothed s }
  else some s

def runVpin (fuel : ℕ) (trades : List (Trade F)) : Option (VpinState F) :=
  trades.foldlM (updateVpin cfg fuel) newVpin

end Update

end TB.Vpin
