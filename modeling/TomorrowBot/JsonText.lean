import Mathlib.Algebra.Ring.Int.Defs
import Mathlib.Algebra.Ring.Nat
import Mathlib.Data.Int.Order.Basic
import Mathlib.Data.List.Basic

/-!
# JSON texts and their reader

A text is a list of characters and of printed numbers. A printed number is
kept as one token: it stands for the shortest decimal that reads back as the
same number, which exact arithmetic does not always have. The reader is that of
boost::json with its defaults: the grammar of RFC 8259 with at most `maxDepth`
nested arrays and objects; of two members with one key the later counts.
-/

set_option autoImplicit false

namespace JsonText

inductive Token (F : Type) where
  | char (c : Char)
  | number (x : F)
  deriving DecidableEq

abbrev Text (F : Type) := List (Token F)

inductive Value (F : Type) where
  | null
  | bool (b : Bool)
  | int (n : ℤ)
  | double (x : F)
  | string (s : String)
  | array (items : List (Value F))
  | object (members : List (String × Value F))

abbrev Members (F : Type) := List (String × Value F)

variable {F : Type}

def chars (cs : List Char) : Text F := cs.map .char

def text (s : String) : Text F := chars s.toList

def isBlank (c : Char) : Bool := c = ' ' || c = '\t' || c = '\n' || c = '\r'

def skipBlanks : Text F → Text F
  | .char c :: r => if isBlank c then skipBlanks r else .char c :: r
  | t => t

def expect (c : Char) (t : Text F) : Option (Text F) :=
  match skipBlanks t with
  | .char d :: r => if d = c then some r else none
  | _ => none

def hexDigit (c : Char) : Option ℕ :=
  if '0' ≤ c ∧ c ≤ '9' then some (c.toNat - '0'.toNat)
  else if 'a' ≤ c ∧ c ≤ 'f' then some (c.toNat - 'a'.toNat + 10)
  else if 'A' ≤ c ∧ c ≤ 'F' then some (c.toNat - 'A'.toNat + 10)
  else none

def codeUnit : Text F → Option (ℕ × Text F)
  | .char a :: .char b :: .char c :: .char d :: r => do
    let a ← hexDigit a
    let b ← hexDigit b
    let c ← hexDigit c
    let d ← hexDigit d
    some (((a * 16 + b) * 16 + c) * 16 + d, r)
  | _ => none

def lowSurrogate (high : ℕ) : Text F → Option (Char × Text F)
  | .char b :: .char u :: r =>
    if b = '\\' ∧ u = 'u' then do
      let low ← codeUnit r
      if 0xDC00 ≤ low.1 ∧ low.1 < 0xE000 then
        some (Char.ofNat (0x10000 + (high - 0xD800) * 0x400 + (low.1 - 0xDC00)), low.2)
      else none
    else none
  | _ => none

def unicode (t : Text F) : Option (Char × Text F) := do
  let unit ← codeUnit t
  if 0xD800 ≤ unit.1 ∧ unit.1 < 0xDC00 then lowSurrogate unit.1 unit.2
  else if 0xDC00 ≤ unit.1 ∧ unit.1 < 0xE000 then none
  else some (Char.ofNat unit.1, unit.2)

def shortEscape (c : Char) : Option Char :=
  if c = '"' ∨ c = '\\' ∨ c = '/' then some c
  else if c = 'b' then some '\x08'
  else if c = 'f' then some '\x0c'
  else if c = 'n' then some '\n'
  else if c = 'r' then some '\r'
  else if c = 't' then some '\t'
  else none

def escape : Text F → Option (Char × Text F)
  | .char c :: r => if c = 'u' then unicode r else (shortEscape c).map (fun e => (e, r))
  | _ => none

def stringTail : ℕ → Text F → Option (List Char × Text F)
  | n+1, .char c :: r =>
    if c = '"' then some ([], r)
    else if c = '\\' then do
      let e ← escape r
      let s ← stringTail n e.2
      some (e.1 :: s.1, s.2)
    else if c.toNat < 0x20 then none
    else do
      let s ← stringTail n r
      some (c :: s.1, s.2)
  | _, _ => none

def parseKey (n : ℕ) (t : Text F) : Option (String × Text F) := do
  let r ← expect '"' t
  let s ← stringTail n r
  some (String.ofList s.1, s.2)

def spanDigits : Text F → List Char × Text F
  | .char c :: r =>
    if c.isDigit then (c :: (spanDigits r).1, (spanDigits r).2) else ([], .char c :: r)
  | t => ([], t)

def someDigits (t : Text F) : Option (List Char × Text F) :=
  if (spanDigits t).1 = [] then none else some (spanDigits t)

def minus : Text F → Bool × Text F
  | .char c :: r => if c = '-' then (true, r) else (false, .char c :: r)
  | t => (false, t)

def expSign : Text F → Bool × Text F
  | .char c :: r =>
    if c = '-' then (true, r) else if c = '+' then (false, r) else (false, .char c :: r)
  | t => (false, t)

def fraction : Text F → Option (List Char × Text F)
  | .char c :: r => if c = '.' then someDigits r else some ([], .char c :: r)
  | t => some ([], t)

def exponent : Text F → Option (Option ℤ × Text F)
  | .char c :: r =>
    if c = 'e' ∨ c = 'E' then do
      let d ← someDigits (expSign r).2
      let e : ℤ := Nat.ofDigitChars 10 d.1 0
      some (some (if (expSign r).1 then -e else e), d.2)
    else some (none, .char c :: r)
  | t => some (none, t)

section Numbers
variable [OfScientific F] [Neg F]

def scientific (negative : Bool) (mantissa : ℕ) (exp : ℤ) : F :=
  let x : F := OfScientific.ofScientific mantissa (decide (exp < 0)) exp.natAbs
  if negative then -x else x

def InRange (n : ℤ) : Prop := -2 ^ 63 ≤ n ∧ n < 2 ^ 64

instance (n : ℤ) : Decidable (InRange n) := inferInstanceAs (Decidable (_ ∧ _))

def numberValue (negative : Bool) (whole frac : List Char) (exp : Option ℤ) : Value F :=
  let n : ℤ := Nat.ofDigitChars 10 whole 0
  let signed := if negative then -n else n
  if frac = [] ∧ exp = none ∧ InRange signed then .int signed
  else
    .double (scientific negative (Nat.ofDigitChars 10 (whole ++ frac) 0)
      (exp.getD 0 - frac.length))

def parseNumber (t : Text F) : Option (Value F × Text F) := do
  let whole ← someDigits (minus t).2
  if 1 < whole.1.length ∧ whole.1.head? = some '0' then none
  else
    let frac ← fraction whole.2
    let exp ← exponent frac.2
    some (numberValue (minus t).1 whole.1 frac.1 exp.1, exp.2)

def stripChars : List Char → Text F → Option (Text F)
  | [], t => some t
  | c :: cs, .char d :: r => if c = d then stripChars cs r else none
  | _, _ => none

def keyword (c : Char) (t : Text F) : Option (Value F × Text F) :=
  if c = 'n' then (stripChars "ull".toList t).map (fun r => (.null, r))
  else if c = 't' then (stripChars "rue".toList t).map (fun r => (.bool true, r))
  else if c = 'f' then (stripChars "alse".toList t).map (fun r => (.bool false, r))
  else none

mutual

def parseValue : ℕ → Text F → Option (Value F × Text F)
  | 0, _ => none
  | n+1, t =>
    match skipBlanks t with
    | [] => none
    | .number x :: r => some (.double x, r)
    | .char c :: r =>
      if c = '"' then (stringTail n r).map (fun s => (.string (String.ofList s.1), s.2))
      else if c = '{' then
        match expect '}' r with
        | some r => some (.object [], r)
        | none => (parseMembers n r).map (fun m => (.object m.1, m.2))
      else if c = '[' then
        match expect ']' r with
        | some r => some (.array [], r)
        | none => (parseItems n r).map (fun i => (.array i.1, i.2))
      else if c = '-' ∨ c.isDigit then parseNumber (.char c :: r)
      else keyword c r

def parseMembers : ℕ → Text F → Option (Members F × Text F)
  | 0, _ => none
  | n+1, t => do
    let k ← parseKey n t
    let r ← expect ':' k.2
    let v ← parseValue n r
    match expect ',' v.2 with
    | some r =>
      let rest ← parseMembers n r
      some ((k.1, v.1) :: rest.1, rest.2)
    | none =>
      let r ← expect '}' v.2
      some ([(k.1, v.1)], r)

def parseItems : ℕ → Text F → Option (List (Value F) × Text F)
  | 0, _ => none
  | n+1, t => do
    let v ← parseValue n t
    match expect ',' v.2 with
    | some r =>
      let rest ← parseItems n r
      some (v.1 :: rest.1, rest.2)
    | none =>
      let r ← expect ']' v.2
      some ([v.1], r)

end

end Numbers

mutual

def Value.depth : Value F → ℕ
  | .array items => itemsDepth items + 1
  | .object members => membersDepth members + 1
  | _ => 0

def itemsDepth : List (Value F) → ℕ
  | [] => 0
  | v :: rest => max v.depth (itemsDepth rest)

def membersDepth : List (String × Value F) → ℕ
  | [] => 0
  | (_, v) :: rest => max v.depth (membersDepth rest)

end

def maxDepth : ℕ := 32

def parse [OfScientific F] [Neg F] (t : Text F) : Option (Value F) := do
  let v ← parseValue (t.length + 1) t
  if skipBlanks v.2 = [] ∧ v.1.depth ≤ maxDepth then some v.1 else none

def find : Members F → String → Option (Value F)
  | [], _ => none
  | m :: rest, key => (find rest key).or (if m.1 = key then some m.2 else none)

@[simp] theorem find_nil (key : String) : find ([] : Members F) key = none := by
  rw [find]

@[simp] theorem find_here (k : String) (v : Value F) (rest : Members F)
    (h : find rest k = none) : find ((k, v) :: rest) k = some v := by
  rw [find, h, if_pos rfl, Option.none_or]

@[simp] theorem find_there (k : String) (v : Value F) (rest : Members F) (key : String)
    (h : k ≠ key) : find ((k, v) :: rest) key = find rest key := by
  rw [find, if_neg h, Option.or_none]

def Value.asObject : Value F → Option (Members F)
  | .object ms => some ms
  | _ => none

def Value.asArray : Value F → Option (List (Value F))
  | .array items => some items
  | _ => none

def Value.asString : Value F → Option String
  | .string s => some s
  | _ => none

def Value.asBool : Value F → Option Bool
  | .bool b => some b
  | _ => none

def Value.asDouble : Value F → Option F
  | .double x => some x
  | _ => none

def Signed (n : ℤ) : Prop := n < 2 ^ 63

instance (n : ℤ) : Decidable (Signed n) := inferInstanceAs (Decidable (_ < _))

def Value.asInt64 : Value F → Option ℤ
  | .int n => if Signed n then some n else none
  | _ => none

theorem asObject_iff (v : Value F) (ms : Members F) : v.asObject = some ms ↔ v = .object ms := by
  cases v <;> simp [Value.asObject]

theorem asString_iff (v : Value F) (s : String) : v.asString = some s ↔ v = .string s := by
  cases v <;> simp [Value.asString]

theorem object_of_isSome [OfScientific F] [Neg F] (t : Text F)
    (h : ((parse t).bind Value.asObject).isSome = true) : ∃ ms, parse t = some (.object ms) := by
  rw [Option.isSome_iff_exists] at h
  obtain ⟨ms, hms⟩ := h
  rw [Option.bind_eq_some_iff] at hms
  obtain ⟨v, hv, hm⟩ := hms
  cases v <;> simp only [Value.asObject, reduceCtorEq, Option.some.injEq] at hm
  subst hm
  exact ⟨_, hv⟩

end JsonText
