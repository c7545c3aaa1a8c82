import TomorrowBot.CommonTypes
import Mathlib.Logic.Function.Basic
import Mathlib.Order.Basic

/-!
# The cached leverage of a symbol

The leverage is asked for from the wanted value downwards, until the exchange
takes it, and kept under the symbol and the side of the call. The requests of a
call, with what the exchange makes of them, change its leverage beside the cache.
-/

set_option autoImplicit false

namespace TB.LeverageCache
open TB.CommonTypes

structure Answer where
  success : Bool
  bodyEmpty : Bool
  code : Option String
  applied : Bool

inductive Verdict where
  | accepted | tooHigh | failed
  deriving DecidableEq

structure LeverageState where
  exchange : String → String → ℤ
  leverageCache : String → Option ℤ
  maxLeverageCache : String → Option ℤ

structure LeverageCall where
  symbol : Symbol
  leverage : ℤ
  holdSide : String
  answers : ℤ → Answer

structure LeverageResult where
  returned : Bool
  sent : ℕ
  state : LeverageState

def cacheKey (symbol : Symbol) (holdSide : String) : String := symbol ++ ":" ++ holdSide

def verdict (a : Answer) : Verdict :=
  if a.success = false ∧ a.bodyEmpty = false then
    if a.code = some "40797" then .tooHigh else .failed
  else if a.success = false then .failed
  else
    match a.code with
    | none => .failed
    | some code =>
      if code = "00000" then .accepted else if code = "40797" then .tooHigh else .failed

def carriesSide (marginMode holdSide : String) : Bool :=
  decide (marginMode = "isolated" ∧ holdSide ≠ "")

def apply (marginMode : String) (c : LeverageCall) (leverage : ℤ)
    (exchange : String → String → ℤ) : String → String → ℤ :=
  Function.update exchange c.symbol
    (if carriesSide marginMode c.holdSide then
      Function.update (exchange c.symbol) c.holdSide leverage
    else fun _ => leverage)

def tryLeverage (marginMode : String) (c : LeverageCall) :
    ℕ → (String → String → ℤ) → Option ℤ × ℕ × (String → String → ℤ)
  | 0, exchange => (none, 0, exchange)
  | n+1, exchange =>
    let a := c.answers (n + 1 : ℕ)
    let exchange := if a.applied then apply marginMode c (n + 1 : ℕ) exchange else exchange
    match verdict a with
    | .accepted => (some (n + 1 : ℕ), 1, exchange)
    | .tooHigh =>
      let (taken, sent, exchange) := tryLeverage marginMode c n exchange
      (taken, sent + 1, exchange)
    | .failed => (none, 1, exchange)

def limited (s : LeverageState) (c : LeverageCall) : ℤ :=
  match s.maxLeverageCache c.symbol with
  | some most => if most < c.leverage then most else c.leverage
  | none => c.leverage

def setLeverage (marginMode : String) (s : LeverageState) (c : LeverageCall) : LeverageResult :=
  let leverage := limited s c
  if s.leverageCache (cacheKey c.symbol c.holdSide) = some leverage then ⟨true, 0, s⟩
  else
    let (taken, sent, exchange) := tryLeverage marginMode c leverage.toNat s.exchange
    match taken with
    | none => ⟨false, sent, { s with exchange := exchange }⟩
    | some value =>
      ⟨true, sent,
        { exchange := exchange
          leverageCache := Function.update s.leverageCache (cacheKey c.symbol c.holdSide)
            (some value)
          maxLeverageCache := if value ≠ leverage then
            Function.update s.maxLeverageCache c.symbol (some value)
          else s.maxLeverageCache }⟩

def run (marginMode : String) (s : LeverageState) (cs : List LeverageCall) : LeverageState :=
  cs.foldl (fun s c => (setLeverage marginMode s c).state) s

def newSubmitter (exchange : String → String → ℤ) : LeverageState :=
  ⟨exchange, fun _ => none, fun _ => none⟩

def Has (exchange : String → String → ℤ) (symbol : Symbol) (holdSide : String) (v : ℤ) : Prop :=
  if holdSide = "" then ∀ side, exchange symbol side = v else exchange symbol holdSide = v

/-- An accepted request was applied, and one that was rejected was not; without an answer
that can be read it may have been either. -/
def Honest (a : Answer) : Prop :=
  (verdict a = .accepted → a.applied = true) ∧
    (a.code.isSome = true → verdict a ≠ .accepted → a.applied = false)

structure Faithful (marginMode : String) (s : LeverageState) (c : LeverageCall) : Prop where
  cached : (setLeverage marginMode s c).returned = true → ∃ v ≤ c.leverage,
    (setLeverage marginMode s c).state.leverageCache (cacheKey c.symbol c.holdSide) = some v ∧
      Has (setLeverage marginMode s c).state.exchange c.symbol c.holdSide v
  silent : (setLeverage marginMode s c).returned = true → (setLeverage marginMode s c).sent = 0 →
    Has s.exchange c.symbol c.holdSide (limited s c)
  bounded : (setLeverage marginMode s c).sent ≤ c.leverage.toNat

end TB.LeverageCache
