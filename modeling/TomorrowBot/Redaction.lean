import Mathlib.Data.List.Basic
import Mathlib.Data.List.DropRight

/-!
# Lines of the log and the redaction of secrets

The patterns are replaced one after another, each throughout the text that the one
before it left. No pattern has to give back what a repetition in it has taken, so each
is read from left to right.
-/

set_option autoImplicit false

namespace TB.Redaction

abbrev Text := List Char

inductive Part where
  | one (kept : Bool) (p : Char → Bool)
  | many (kept : Bool) (p : Char → Bool)

def matchParts : List Part → Text → Option (Text × Text)
  | [], s => some ([], s)
  | .one _ _ :: _, [] => none
  | .one kept p :: parts, c :: s =>
    if p c then (matchParts parts s).map fun x => (if kept then c :: x.1 else x.1, x.2) else none
  | .many kept p :: parts, s =>
    (matchParts parts (s.dropWhile p)).map fun x =>
      (if kept then s.takeWhile p ++ x.1 else x.1, x.2)

structure Pattern where
  boundary : Bool
  alternatives : List (List Part)
  replacement : Text → Text

def isSpace (c : Char) : Bool := c ∈ [' ', '\t', '\n', '\x0b', '\x0c', '\r']

def isWord (c : Char) : Bool := c.isAlphanum || c = '_'

def Pattern.matchAt (m : Pattern) (prev : Option Char) (s : Text) : Option (Text × Text) :=
  if m.boundary && prev.any isWord then none
  else m.alternatives.findSome? fun parts =>
    (matchParts parts s).map fun x => (m.replacement x.1, x.2)

def replaceFrom (m : Pattern) : Option Char → ℕ → Text → Text
  | _, _, [] => []
  | _, skip + 1, c :: s => replaceFrom m (some c) skip s
  | prev, 0, c :: s =>
    match m.matchAt prev (c :: s) with
    | some (out, rest) => out ++ replaceFrom m (some c) (s.length - rest.length) s
    | none => c :: replaceFrom m (some c) 0 s

def regexReplace (s : Text) (m : Pattern) : Text := replaceFrom m none 0 s

def sameChar (icase : Bool) (n c : Char) : Bool :=
  if icase then c.toLower = n.toLower else c = n

def literal (kept icase : Bool) (name : Text) : List Part :=
  name.map fun n => .one kept (sameChar icase n)

def word : List Part := [.one false fun c => !isSpace c, .many false fun c => !isSpace c]

def redacted : Text := "[REDACTED]".toList

structure FieldName where
  name : Text
  icase : Bool

def jsonNames : List FieldName :=
  [⟨"api_key".toList, true⟩, ⟨"api_secret".toList, true⟩, ⟨"apiKey".toList, false⟩,
    ⟨"apiSecret".toList, false⟩, ⟨"password".toList, true⟩, ⟨"passphrase".toList, true⟩,
    ⟨"token".toList, true⟩, ⟨"access_token".toList, true⟩, ⟨"secret".toList, true⟩,
    ⟨"authorization".toList, true⟩]

def jsonPattern (f : FieldName) : Pattern where
  boundary := false
  alternatives := [.one false (· = '"') :: literal false f.icase f.name ++
    [.one false (· = '"'), .many false isSpace, .one false (· = ':'), .many false isSpace,
      .one false (· = '"'), .many false (· ≠ '"'), .one false (· = '"')]]
  replacement _ := '"' :: f.name ++ "\": \"".toList ++ redacted ++ ['"']

def envNames : List Text :=
  ["BITGET_API_KEY".toList, "BITGET_API_SECRET".toList, "BITGET_PASSPHRASE".toList,
    "API_KEY".toList, "API_SECRET".toList, "SECRET_KEY".toList]

def envPattern : Pattern where
  boundary := false
  alternatives := envNames.map fun name => literal true true name ++
    [.many false isSpace, .one false (· = '='), .many false isSpace] ++ word
  replacement name := name ++ '=' :: redacted

def bearer : List Part :=
  literal true true "Bearer".toList ++ [.one true isSpace, .many true isSpace] ++ word

def bearerPattern : Pattern where
  boundary := false
  alternatives :=
    [literal true true "Authorization:".toList ++ .many true isSpace :: bearer, bearer]
  replacement header := header ++ redacted

def paramNames : List Text :=
  ["access_token".toList, "token".toList, "api_key".toList, "apiKey".toList, "apiSecret".toList]

def tokenParamPattern : Pattern where
  boundary := true
  alternatives := paramNames.map fun name => literal true true name ++
    [.many true isSpace, .one true (· = '=')] ++ word
  replacement param := param ++ redacted

def patterns : List Pattern :=
  jsonNames.map jsonPattern ++ [envPattern, bearerPattern, tokenParamPattern]

def redactSecrets (input : Text) : Text := patterns.foldl regexReplace input

inductive LogLevel where
  | trace
  | debug
  | info
  | warn
  | error
  | critical

def LogLevel.text : LogLevel → Text
  | .trace => "TRACE".toList
  | .debug => "DEBUG".toList
  | .info => "INFO".toList
  | .warn => "WARN".toList
  | .error => "ERROR".toList
  | .critical => "CRITICAL".toList

structure LogEvent where
  level : LogLevel
  timestamp : ℤ
  component : Text
  message : Text
  correlationId : Text
  fields : List (Text × Text)

def escapeChar (c : Char) : Text :=
  if c = '"' then ['\\', '"']
  else if c = '\\' then ['\\', '\\']
  else if c = '\n' then ['\\', 'n']
  else if c = '\r' then ['\\', 'r']
  else if c = '\t' then ['\\', 't']
  else if c.toNat < 0x20 then
    "\\u00".toList ++ [Nat.digitChar (c.toNat / 16), Nat.digitChar (c.toNat % 16)]
  else [c]

def jsonEscape (s : Text) : Text := s.flatMap escapeChar

/-- The date and time of a number of seconds stand for the C library. -/
def timestampToIso8601 (putTime : ℤ → Text) (ns : ℤ) : Text :=
  putTime (ns.tdiv 1000000000) ++
    '.' :: (toString ((ns.tmod 1000000000).tdiv 1000000)).toList.leftpad 3 '0' ++ ['Z']

def quoted (s : Text) : Text := '"' :: s ++ ['"']

def member (key value : Text) : Text := quoted (jsonEscape key) ++ ':' :: quoted (jsonEscape value)

def members : List (Text × Text) → Text
  | [] => []
  | f :: fs => member f.1 f.2 ++ fs.flatMap fun f => ',' :: member f.1 f.2

def correlationKey : Text := "correlation_id".toList

def shown (fields : List (Text × Text)) : List (Text × Text) :=
  fields.filter fun f => f.1 ≠ correlationKey

def jsonHeader (putTime : ℤ → Text) (e : LogEvent) : Text :=
  "\x7b\"timestamp\":".toList ++ quoted (timestampToIso8601 putTime e.timestamp) ++
  ',' :: member "level".toList e.level.text ++
  ',' :: member "component".toList e.component ++
  ',' :: member "message".toList e.message ++
  if e.correlationId = [] then [] else ',' :: member correlationKey e.correlationId

def formatAsJson (putTime : ℤ → Text) (e : LogEvent) : Text :=
  jsonHeader putTime e ++
  (if e.fields = [] then []
    else ",\"fields\":\x7b".toList ++ members (shown e.fields) ++ ['\x7d']) ++
  ['\x7d']

def textHeader (putTime : ℤ → Text) (e : LogEvent) : Text :=
  timestampToIso8601 putTime e.timestamp ++
  " [".toList ++ e.level.text.leftpad 8 ' ' ++
  "] [".toList ++ e.component ++
  "] ".toList ++ e.message ++
  if e.correlationId = [] then [] else " [cid=".toList ++ e.correlationId ++ [']']

def formatAsText (putTime : ℤ → Text) (e : LogEvent) : Text :=
  textHeader putTime e ++ e.fields.flatMap fun f => ' ' :: f.1 ++ '=' :: f.2

def formatEvent (putTime : ℤ → Text) (jsonFormat : Bool) (e : LogEvent) : Text :=
  redactSecrets (if jsonFormat then formatAsJson putTime e else formatAsText putTime e)

end TB.Redaction
