import TomorrowBot.CommonTypes

/-!
# The circuit breaker

Closed, it admits every request. After enough failures in a row it opens, and
some time after the last failure it lets a limited number of requests probe the
service. Every request of the half-open state is counted, admitted or not; the
counters are 32-bit integers and wrap. A call is one step.
-/

set_option autoImplicit false

namespace TB.Resilience
open TB.CommonTypes

structure CircuitBreakerConfig where
  failureThreshold : Int32
  recoveryTimeoutMs : ℤ
  halfOpenMaxAttempts : Int32

inductive CircuitState where
  | closed
  | opened
  | halfOpen
  deriving DecidableEq, Repr

structure CircuitBreaker where
  state : CircuitState
  consecutiveFailures : Int32
  halfOpenAttempts : Int32
  lastFailureTimeMs : ℤ
  deriving DecidableEq, Repr

def fresh : CircuitBreaker := ⟨.closed, 0, 0, 0⟩

def nowMs (now : Timestamp) : ℤ := now.tdiv 1000000

def allowRequest (cfg : CircuitBreakerConfig) (now : Timestamp) (cb : CircuitBreaker) :
    CircuitBreaker × Bool :=
  match cb.state with
  | .closed => (cb, true)
  | .opened =>
    let elapsed := max 0 (nowMs now - cb.lastFailureTimeMs)
    if cfg.recoveryTimeoutMs ≤ elapsed then
      ({ cb with state := .halfOpen, halfOpenAttempts := 1 }, true)
    else (cb, false)
  | .halfOpen =>
    ({ cb with halfOpenAttempts := cb.halfOpenAttempts + 1 },
      decide (cb.halfOpenAttempts < cfg.halfOpenMaxAttempts))

def recordSuccess (cb : CircuitBreaker) : CircuitBreaker :=
  { cb with
    state := if cb.state = .halfOpen then .closed else cb.state
    consecutiveFailures := 0
    halfOpenAttempts := 0 }

def recordFailure (cfg : CircuitBreakerConfig) (now : Timestamp) (cb : CircuitBreaker) :
    CircuitBreaker :=
  let failures := cb.consecutiveFailures + 1
  { cb with
    state := if cb.state = .halfOpen ∨ cfg.failureThreshold ≤ failures then .opened else cb.state
    consecutiveFailures := failures
    lastFailureTimeMs := nowMs now }

/-- What an operation reports to the breaker; `unreported` marks an operation that threw, of which
the code records nothing. -/
inductive BreakerOp where
  | allow (now : Timestamp)
  | success (now : Timestamp)
  | failure (now : Timestamp)
  | unreported (now : Timestamp)

def BreakerOp.at : BreakerOp → Timestamp
  | .allow now | .success now | .failure now | .unreported now => now

def breakerStep (cfg : CircuitBreakerConfig) (cb : CircuitBreaker) : BreakerOp → CircuitBreaker
  | .allow now => (allowRequest cfg now cb).1
  | .success _ => recordSuccess cb
  | .failure now => recordFailure cfg now cb
  | .unreported _ => cb

theorem nowMs_mono {s t : Timestamp} (h : s ≤ t) : nowMs s ≤ nowMs t := by
  exact Int.tdiv_le_tdiv (by decide) h

variable (cfg : CircuitBreakerConfig) (now : Timestamp) (cb : CircuitBreaker)

theorem allowRequest_closed (h : cb.state = .closed) : allowRequest cfg now cb = (cb, true) := by
  unfold allowRequest
  rw [h]

theorem allowRequest_early (h : cb.state = .opened)
    (hearly : max 0 (nowMs now - cb.lastFailureTimeMs) < cfg.recoveryTimeoutMs) :
    allowRequest cfg now cb = (cb, false) := by
  unfold allowRequest
  rw [h]
  exact if_neg (not_le.mpr hearly)

theorem allowRequest_probe (h : cb.state = .opened)
    (hlate : cfg.recoveryTimeoutMs ≤ max 0 (nowMs now - cb.lastFailureTimeMs)) :
    allowRequest cfg now cb = ({ cb with state := .halfOpen, halfOpenAttempts := 1 }, true) := by
  unfold allowRequest
  rw [h]
  exact if_pos hlate

theorem allowRequest_halfOpen (h : cb.state = .halfOpen) :
    allowRequest cfg now cb = ({ cb with halfOpenAttempts := cb.halfOpenAttempts + 1 },
      decide (cb.halfOpenAttempts < cfg.halfOpenMaxAttempts)) := by
  unfold allowRequest
  rw [h]

end TB.Resilience
