import TomorrowBot.CircuitBreaker
import TomorrowBot.JsonText

/-!
# Retries behind the breaker

An operation is attempted until it succeeds, fails for good or the attempts are
used up. It may also throw: the exception leaves the loop, and the breaker that
admitted the attempt hears nothing of it. The waiting between attempts only
lets time pass.
-/

set_option autoImplicit false

namespace TB.Resilience
open TB.CommonTypes

inductive ErrorClassification where
  | transient
  | rateLimit
  | permanent
  | authFailure
  | unknown
  deriving DecidableEq, Repr

structure ExecutionAttempt where
  attemptNumber : ℕ
  success : Bool
  httpStatus : ℤ
  errorMessage : String
  latencyMs : ℤ
  errorClass : ErrorClassification

structure Response where
  success : Bool
  status : ℤ
  message : String

def bodyCode (body : String) : Option String := do
  let root ← JsonText.parse (JsonText.text body : JsonText.Text ℚ)
  let members ← root.asObject
  let code ← JsonText.find members "code"
  code.asString

def classifyStatus (httpStatus : ℤ) : ErrorClassification :=
  if httpStatus = 0 then .transient
  else if httpStatus = 429 then .rateLimit
  else if httpStatus = 401 ∨ httpStatus = 403 then .authFailure
  else if 500 ≤ httpStatus then .transient
  else if 400 ≤ httpStatus then .permanent
  else .unknown

def classifyError (httpStatus : ℤ) (body : String) : ErrorClassification :=
  let code := if body = "" then none else bodyCode body
  if code = some "43011" then .rateLimit
  else if code = some "40014" ∨ code = some "40016" ∨ code = some "40017" then .authFailure
  else classifyStatus httpStatus

structure AttemptWorld where
  allowedAt : Timestamp
  startedAt : Timestamp
  response : Option Response
  endedAt : Timestamp
  recordedAt : Timestamp

structure Execution where
  breaker : CircuitBreaker
  lastAttempts : List ExecutionAttempt
  reports : List BreakerOp
  result : Option Response

def rejectedAttempt (attempt : ℕ) : ExecutionAttempt :=
  ⟨attempt, false, 0, "Circuit breaker open", 0, .transient⟩

def finishedAttempt (attempt : ℕ) (w : AttemptWorld) (r : Response) : ExecutionAttempt :=
  ⟨attempt, r.success, r.status, r.message, (w.endedAt - w.startedAt).tdiv 1000000,
    if r.success then .unknown else classifyError r.status r.message⟩

def isFinal (a : ExecutionAttempt) : Bool :=
  a.errorClass == .permanent || a.errorClass == .authFailure

def attempts (cfg : CircuitBreakerConfig) (world : ℕ → AttemptWorld) :
    ℕ → ℕ → Execution → Execution
  | 0, _, e => e
  | n+1, attempt, e =>
    let w := world attempt
    let admitted := allowRequest cfg w.allowedAt e.breaker
    let asked := e.reports ++ [.allow w.allowedAt]
    if admitted.2 = false then
      { e with
        breaker := admitted.1
        lastAttempts := e.lastAttempts ++ [rejectedAttempt attempt]
        reports := asked }
    else
      match w.response with
      | none =>
        { e with
          breaker := admitted.1
          reports := asked ++ [.unreported w.recordedAt]
          result := none }
      | some r =>
        let log := e.lastAttempts ++ [finishedAttempt attempt w r]
        if r.success then
          ⟨recordSuccess admitted.1, log, asked ++ [.success w.recordedAt], some r⟩
        else
          let failed : Execution := ⟨recordFailure cfg w.recordedAt admitted.1, log,
            asked ++ [.failure w.recordedAt], some r⟩
          if isFinal (finishedAttempt attempt w r) then failed
          else attempts cfg world n (attempt + 1) failed

def execute (maxRetries : ℤ) (cfg : CircuitBreakerConfig) (world : ℕ → AttemptWorld)
    (default : Response) (cb : CircuitBreaker) : Execution :=
  attempts cfg world (maxRetries + 1).toNat 0 ⟨cb, [], [], some default⟩

def isOutcome : BreakerOp → Bool
  | .allow _ => false
  | .success _ | .failure _ | .unreported _ => true

variable (cfg : CircuitBreakerConfig)

/-- The requests and reports from one state of the breaker to another: a refused request, or an
admitted one with its own outcome right after it. -/
inductive Conversation (cb : CircuitBreaker) : List BreakerOp → CircuitBreaker → Prop
  | start : Conversation cb [] cb
  | refused {ops : List BreakerOp} {reached : CircuitBreaker} (now : Timestamp)
      (before : Conversation cb ops reached) (hno : (allowRequest cfg now reached).2 = false) :
      Conversation cb (ops ++ [.allow now]) (allowRequest cfg now reached).1
  | admitted {ops : List BreakerOp} {reached : CircuitBreaker} (now : Timestamp) (op : BreakerOp)
      (before : Conversation cb ops reached) (hyes : (allowRequest cfg now reached).2 = true)
      (hop : isOutcome op = true) :
      Conversation cb (ops ++ [.allow now] ++ [op])
        (breakerStep cfg (allowRequest cfg now reached).1 op)

variable {cfg} {cb : CircuitBreaker}

theorem attempts_converse (world : ℕ → AttemptWorld) (n attempt : ℕ) (e : Execution)
    (h : Conversation cfg cb e.reports e.breaker) :
    Conversation cfg cb (attempts cfg world n attempt e).reports
        (attempts cfg world n attempt e).breaker ∧
      (attempts cfg world n attempt e).lastAttempts.length ≤ e.lastAttempts.length + n := by
  induction n generalizing attempt e with
  | zero => exact ⟨h, le_refl _⟩
  | succ n ih =>
    unfold attempts
    dsimp only
    split_ifs with hadmitted
    · exact ⟨h.refused _ hadmitted, by simp⟩
    rw [Bool.not_eq_false] at hadmitted
    rcases (world attempt).response with _ | r
    · exact ⟨h.admitted _ (.unreported (world attempt).recordedAt) hadmitted rfl, by simp⟩
    dsimp only
    split_ifs
    · exact ⟨h.admitted _ (.success (world attempt).recordedAt) hadmitted rfl, by simp⟩
    · exact ⟨h.admitted _ (.failure (world attempt).recordedAt) hadmitted rfl, by simp⟩
    · obtain ⟨hrest, hcount⟩ := ih (attempt + 1)
        ⟨recordFailure cfg _ _, e.lastAttempts ++ [finishedAttempt attempt (world attempt) r],
          e.reports ++ [.allow _] ++ [.failure (world attempt).recordedAt], some r⟩
        (h.admitted _ (.failure (world attempt).recordedAt) hadmitted rfl)
      refine ⟨hrest, hcount.trans_eq ?_⟩
      simp [Nat.add_assoc, Nat.add_comm 1 n]

/-- Whatever the operation does, each attempt that the breaker admits is followed by its own
success, failure or exception, the breaker moves by nothing else, and the attempts are bounded. -/
theorem execute_converses (maxRetries : ℤ) (cfg : CircuitBreakerConfig) (world : ℕ → AttemptWorld)
    (default : Response) (cb : CircuitBreaker) :
    Conversation cfg cb (execute maxRetries cfg world default cb).reports
        (execute maxRetries cfg world default cb).breaker ∧
      (execute maxRetries cfg world default cb).lastAttempts.length ≤ (maxRetries + 1).toNat := by
  have hstart : Conversation cfg cb [] cb := .start
  have h := attempts_converse world (maxRetries + 1).toNat 0 ⟨cb, [], [], some default⟩ hstart
  rwa [List.length_nil, Nat.zero_add] at h

end TB.Resilience
