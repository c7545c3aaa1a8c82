import TomorrowBot.JsonText

/-!
# Requests to the exchange and their repetition

An answer is kept as its status and as what its body reads as. A request is
sent again after an error that may pass, until the attempts are used up; the
last answer is returned. The pauses between the attempts do nothing else.
-/

set_option autoImplicit false

namespace TB.RestClient
open JsonText

variable {F : Type}

structure HttpAnswer (F : Type) where
  status : ℤ
  body : Option (Value F)

structure RestResponse (F : Type) where
  statusCode : ℤ := 0
  body : Option (Value F) := none
  success : Bool := false
  errorMessage : String := ""
  errorCode : String := ""

def errorMsg (err : Members F) : String :=
  match find err "msg" with
  | some (.string msg) => " " ++ msg
  | _ => ""

def errorText (answer : HttpAnswer F) : String × String :=
  let http := "HTTP " ++ toString answer.status
  match answer.body.bind Value.asObject with
  | none => (http, "")
  | some err =>
    match find err "code" with
    | none => (http ++ errorMsg err, "")
    | some (.string code) => (http ++ " [code=" ++ code ++ "]" ++ errorMsg err, code)
    | some _ => (http, "")

def executeOnce : Except String (HttpAnswer F) → RestResponse F
  | .error what => { errorMessage := what }
  | .ok answer =>
    let success := decide (200 ≤ answer.status ∧ answer.status < 300)
    { statusCode := answer.status
      body := answer.body
      success := success
      errorMessage := if success then "" else (errorText answer).1
      errorCode := if success then "" else (errorText answer).2 }

def isTransientError (r : RestResponse F) : Bool :=
  r.statusCode = 0 || r.statusCode = 500 || r.statusCode = 502 || r.statusCode = 503 ||
    r.statusCode = 504 || r.statusCode = 429

def isFinal (r : RestResponse F) : Bool := r.success || !isTransientError r

section Loop
variable {σ : Type} (send : σ → ℕ → σ × RestResponse F)

def attempts : ℕ → ℕ → σ → RestResponse F → σ × RestResponse F
  | 0, _, s, last => (s, last)
  | n+1, i, s, _ =>
    if isFinal (send s i).2 then send s i else attempts n (i + 1) (send s i).1 (send s i).2

def execute (retryMax : ℤ) (s : σ) : σ × RestResponse F :=
  attempts send (retryMax + 1).toNat 0 s {}

theorem attempts_invariant {P : σ → Prop} (hsend : ∀ s i, P s → P (send s i).1) (n i : ℕ) (s : σ)
    (last : RestResponse F) (h : P s) : P (attempts send n i s last).1 := by
  induction n generalizing i s last with
  | zero => exact h
  | succ n ih =>
    rw [attempts]
    split_ifs
    · exact hsend s i h
    · exact ih (i + 1) _ _ (hsend s i h)

end Loop

end TB.RestClient
