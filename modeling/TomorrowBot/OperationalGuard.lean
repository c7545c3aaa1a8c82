import TomorrowBot.CircularSlots
import TomorrowBot.DoubleFunctions

/-!
# The operational guard

The guard counts rejected orders, failures in a row, diverging position checks
and venue failures, and is asked for a verdict before an order. The last order
results are in a ring of flags. Every call is given the reading of the clock;
the texts that only go to the log are left out, and `shown` prints a number.
-/

set_option autoImplicit false

namespace TB.Guards
open TB.CommonTypes

structure OperationalGuardConfig (F : Type) where
  rejectRateThresholdPct : F
  rejectWindowOrders : ℤ
  consecutiveFailuresToReduce : ℤ
  reducedSizeMultiplier : F
  positionDivergencePct : F
  divergenceChecksBeforeHalt : ℤ
  cooldownAfterIncidentMs : ℤ

inductive GuardVerdict where
  | normal
  | reduceRisk
  | stopEntries
  | haltTrading
  deriving DecidableEq, Repr

inductive GuardReason where
  | opAutoReduceRisk
  | opRejectRateBreaker
  | opStateDivergence
  | opCircuitBreakerOpen
  | opOperatorHalt
  deriving DecidableEq, Repr

structure GuardAssessment (F : Type) where
  verdict : GuardVerdict
  sizeMultiplier : F
  reason : GuardReason
  explanation : String
  operatorAlert : Bool

structure OperationalGuard where
  orderResults : ℕ → Bool
  resultIdx : ℕ
  consecutiveFailures : ℕ
  divergenceStrikes : ℕ
  consecutiveVenueFailures : ℕ
  operatorHalted : Bool
  haltReason : String
  lastIncidentTimeNs : ℤ

variable {F : Type} [DoubleRounding F]

def windowOf (cfg : OperationalGuardConfig F) : ℕ :=
  if cfg.rejectWindowOrders ≤ 0 then 20 else cfg.rejectWindowOrders.toNat

def newGuard : OperationalGuard := ⟨fun _ => true, 0, 0, 0, 0, false, "", 0⟩

def emitAlert (now : Timestamp) (g : OperationalGuard) : OperationalGuard :=
  { g with lastIncidentTimeNs := now }

def recordOrderResult (cfg : OperationalGuardConfig F) (now : Timestamp) (g : OperationalGuard)
    (success : Bool) : OperationalGuard :=
  let g := { g with
    orderResults := Function.update g.orderResults (g.resultIdx % windowOf cfg) success
    resultIdx := g.resultIdx + 1 }
  if success then { g with consecutiveFailures := 0 }
  else
    let g := { g with consecutiveFailures := g.consecutiveFailures + 1 }
    if cfg.consecutiveFailuresToReduce ≤ g.consecutiveFailures then emitAlert now g else g

def recordPositionCheck (cfg : OperationalGuardConfig F) (now : Timestamp) (g : OperationalGuard)
    (localSize exchangeSize : F) : OperationalGuard :=
  if exchangeSize ≤ 0 then g
  else
    let divergencePct := stdAbs (localSize - exchangeSize) / exchangeSize * 100.0
    if cfg.positionDivergencePct < divergencePct then
      let g := { g with divergenceStrikes := g.divergenceStrikes + 1 }
      if cfg.divergenceChecksBeforeHalt ≤ g.divergenceStrikes then emitAlert now g else g
    else { g with divergenceStrikes := g.divergenceStrikes - 1 }

def recordVenueEvent (now : Timestamp) (g : OperationalGuard) (healthy : Bool) :
    OperationalGuard :=
  if healthy then { g with consecutiveVenueFailures := 0 }
  else
    let g := { g with consecutiveVenueFailures := g.consecutiveVenueFailures + 1 }
    if 5 ≤ g.consecutiveVenueFailures then emitAlert now g else g

def operatorHalt (g : OperationalGuard) (reason : String) : OperationalGuard :=
  { g with
    operatorHalted := true
    haltReason := reason }

def operatorResume (g : OperationalGuard) : OperationalGuard :=
  { g with
    operatorHalted := false
    haltReason := "" }

def reset (g : OperationalGuard) : OperationalGuard :=
  { newGuard with
    operatorHalted := g.operatorHalted
    haltReason := g.haltReason }

section Assessment
variable (cfg : OperationalGuardConfig F) (shown : F → String) (g : OperationalGuard)

def totalOrders : ℕ := min g.resultIdx (windowOf cfg)

def rejects : ℕ := ((List.range (totalOrders cfg g)).map g.orderResults).count false

def rejectRate : F :=
  if 0 < totalOrders cfg g then
    ofInt (rejects cfg g : ℤ) / ofInt (totalOrders cfg g : ℤ) * 100.0
  else 0

def rejectBreaker : Bool :=
  decide (cfg.rejectRateThresholdPct ≤ rejectRate cfg g) && decide (5 ≤ totalOrders cfg g)

def stopEntries (reason : GuardReason) (explanation : String) : GuardAssessment F :=
  ⟨.stopEntries, 0, reason, explanation, true⟩

def reduceRisk (explanation : String) : GuardAssessment F :=
  ⟨.reduceRisk, cfg.reducedSizeMultiplier, .opAutoReduceRisk, explanation, false⟩

def elapsedMs (now : Timestamp) : ℤ := max 0 ((now - g.lastIncidentTimeNs).tdiv 1000000)

def assess (now : Timestamp) : GuardAssessment F :=
  if g.operatorHalted then
    ⟨.haltTrading, 0, .opOperatorHalt, "Operator halt: " ++ g.haltReason, false⟩
  else if rejectBreaker cfg g then
    stopEntries .opRejectRateBreaker ("Reject rate " ++ shown (rejectRate cfg g) ++
      "% exceeds threshold " ++ shown cfg.rejectRateThresholdPct ++ "%")
  else if cfg.divergenceChecksBeforeHalt ≤ g.divergenceStrikes then
    stopEntries .opStateDivergence
      ("State divergence detected " ++ toString g.divergenceStrikes ++ " times")
  else if 5 ≤ g.consecutiveVenueFailures then
    stopEntries .opCircuitBreakerOpen "Venue health degraded"
  else if cfg.consecutiveFailuresToReduce ≤ g.consecutiveFailures then
    reduceRisk cfg ("Auto reduce-risk after " ++ toString g.consecutiveFailures ++
      " consecutive failures")
  else if 0 < g.lastIncidentTimeNs ∧ elapsedMs g now < cfg.cooldownAfterIncidentMs then
    reduceRisk cfg ("Cooldown period after incident (" ++ toString (elapsedMs g now) ++ "ms / " ++
      toString cfg.cooldownAfterIncidentMs ++ "ms)")
  else ⟨.normal, 1.0, .opAutoReduceRisk, "", false⟩

end Assessment

section Operations

inductive GuardOp (F : Type) where
  | orderResult (now : Timestamp) (success : Bool)
  | positionCheck (now : Timestamp) (symbol : Symbol) (localSize exchangeSize : F)
  | venueEvent (now : Timestamp) (healthy : Bool)
  | operatorHalt (reason : String)
  | operatorResume
  | reset

def guardStep (cfg : OperationalGuardConfig F) (g : OperationalGuard) : GuardOp F → OperationalGuard
  | .orderResult now success => recordOrderResult cfg now g success
  | .positionCheck now _ localSize exchangeSize =>
    recordPositionCheck cfg now g localSize exchangeSize
  | .venueEvent now healthy => recordVenueEvent now g healthy
  | .operatorHalt reason => operatorHalt g reason
  | .operatorResume => operatorResume g
  | .reset => reset g

end Operations

end TB.Guards
