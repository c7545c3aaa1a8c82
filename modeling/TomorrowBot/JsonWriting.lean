import TomorrowBot.JsonReading

/-!
# Writing JSON texts

The serializer renders a document; a formatted record splices given texts
into an object. Both are covered by one relation: a text reads as a value
when it does so wherever a value may stand. What is rendered reads as the
value it was rendered from.
-/

set_option autoImplicit false

namespace JsonText

variable {F : Type}

def escapeChar (c : Char) : List Char :=
  if c = '"' then ['\\', '"']
  else if c = '\\' then ['\\', '\\']
  else if c = '\x08' then ['\\', 'b']
  else if c = '\x0c' then ['\\', 'f']
  else if c = '\n' then ['\\', 'n']
  else if c = '\r' then ['\\', 'r']
  else if c = '\t' then ['\\', 't']
  else if c.toNat < 0x20 then
    ['\\', 'u', '0', '0', Nat.digitChar (c.toNat / 16), Nat.digitChar (c.toNat % 16)]
  else [c]

def quoted (s : String) : Text F :=
  .char '"' :: chars (s.toList.flatMap escapeChar) ++ [.char '"']

def memberText (key : String) (t : Text F) : Text F := quoted key ++ .char ':' :: t

def membersText : List (String × Text F) → Text F
  | [] => []
  | [m] => memberText m.1 m.2
  | m :: rest => memberText m.1 m.2 ++ .char ',' :: membersText rest

def objectText (ms : List (String × Text F)) : Text F :=
  .char '{' :: membersText ms ++ [.char '}']

def itemsText : List (Text F) → Text F
  | [] => []
  | [t] => t
  | t :: rest => t ++ .char ',' :: itemsText rest

def arrayText (ts : List (Text F)) : Text F := .char '[' :: itemsText ts ++ [.char ']']

def natText (n : ℕ) : Text F := chars (Nat.toDigits 10 n)

def intText : ℤ → Text F
  | .ofNat n => natText n
  | .negSucc n => .char '-' :: natText (n + 1)

mutual

def render : Value F → Text F
  | .null => text "null"
  | .bool b => text (if b then "true" else "false")
  | .int n => intText n
  | .double x => [.number x]
  | .string s => quoted s
  | .array items => arrayText (renderItems items)
  | .object members => objectText (renderMembers members)

def renderItems : List (Value F) → List (Text F)
  | [] => []
  | v :: rest => render v :: renderItems rest

def renderMembers : List (String × Value F) → List (String × Text F)
  | [] => []
  | (k, v) :: rest => (k, render v) :: renderMembers rest

end

theorem hexDigit_digitChar : ∀ d < 16, hexDigit (Nat.digitChar d) = some d := by decide

variable (n : ℕ)

theorem stringTail_short (e c : Char) (r : Text F) (hu : e ≠ 'u') (he : shortEscape e = some c) :
    stringTail (n + 1) (.char '\\' :: .char e :: r) =
      (stringTail n r).map (fun s => (c :: s.1, s.2)) := by
  have hq : ('\\' : Char) ≠ '"' := by decide
  simp only [stringTail, if_neg hq, if_true, escape, if_neg hu, he, Option.map_some,
    Option.bind_eq_bind, Option.bind_some]
  cases stringTail n r <;> rfl

variable (c : Char) (r : Text F)

theorem stringTail_unicode (hc : c.toNat < 0x20) :
    stringTail (n + 1) (.char '\\' :: .char 'u' :: .char '0' :: .char '0' ::
        .char (Nat.digitChar (c.toNat / 16)) :: .char (Nat.digitChar (c.toNat % 16)) :: r) =
      (stringTail n r).map (fun s => (c :: s.1, s.2)) := by
  have hq : ('\\' : Char) ≠ '"' := by decide
  have h0 : hexDigit '0' = some 0 := by decide
  have h1 := hexDigit_digitChar (c.toNat / 16) (by omega)
  have h2 := hexDigit_digitChar (c.toNat % 16) (by omega)
  have hv : ((0 * 16 + 0) * 16 + c.toNat / 16) * 16 + c.toNat % 16 = c.toNat := by omega
  have hunit : codeUnit (.char '0' :: .char '0' :: .char (Nat.digitChar (c.toNat / 16)) ::
      .char (Nat.digitChar (c.toNat % 16)) :: r) = some (c.toNat, r) := by
    simp only [codeUnit, h0, h1, h2, Option.bind_eq_bind, Option.bind_some, hv]
  have hesc : unicode (.char '0' :: .char '0' :: .char (Nat.digitChar (c.toNat / 16)) ::
      .char (Nat.digitChar (c.toNat % 16)) :: r) = some (c, r) := by
    simp only [unicode, hunit, Option.bind_eq_bind, Option.bind_some, Char.ofNat_toNat]
    rw [if_neg (by omega), if_neg (by omega)]
  simp only [stringTail, if_neg hq, if_true, escape, hesc, Option.bind_eq_bind, Option.bind_some]
  cases stringTail n r <;> rfl

theorem stringTail_escapeChar : stringTail (n + 1) (chars (escapeChar c) ++ r) =
      (stringTail n r).map (fun s => (c :: s.1, s.2)) := by
  unfold escapeChar
  by_cases h1 : c = '"'
  · rw [if_pos h1, h1]
    exact stringTail_short n '"' '"' r (by decide) (by decide)
  rw [if_neg h1]
  by_cases h2 : c = '\\'
  · rw [if_pos h2, h2]
    exact stringTail_short n '\\' '\\' r (by decide) (by decide)
  rw [if_neg h2]
  by_cases h3 : c = '\x08'
  · rw [if_pos h3, h3]
    exact stringTail_short n 'b' '\x08' r (by decide) (by decide)
  rw [if_neg h3]
  by_cases h4 : c = '\x0c'
  · rw [if_pos h4, h4]
    exact stringTail_short n 'f' '\x0c' r (by decide) (by decide)
  rw [if_neg h4]
  by_cases h5 : c = '\n'
  · rw [if_pos h5, h5]
    exact stringTail_short n 'n' '\n' r (by decide) (by decide)
  rw [if_neg h5]
  by_cases h6 : c = '\r'
  · rw [if_pos h6, h6]
    exact stringTail_short n 'r' '\r' r (by decide) (by decide)
  rw [if_neg h6]
  by_cases h7 : c = '\t'
  · rw [if_pos h7, h7]
    exact stringTail_short n 't' '\t' r (by decide) (by decide)
  rw [if_neg h7]
  by_cases h8 : c.toNat < 0x20
  · rw [if_pos h8]
    exact stringTail_unicode n c r h8
  rw [if_neg h8]
  simp only [chars, List.map_cons, List.map_nil, List.cons_append, List.nil_append, stringTail,
    if_neg h1, if_neg h2, if_neg h8]
  cases stringTail n r <;> rfl

theorem stringTail_escaped (cs : List Char) (r : Text F) (hn : cs.length < n) :
    stringTail n (chars (cs.flatMap escapeChar) ++ .char '"' :: r) = some (cs, r) := by
  induction cs generalizing n with
  | nil =>
    obtain ⟨n, rfl⟩ : ∃ k, n = k + 1 := ⟨n - 1, by simp at hn; omega⟩
    simp [chars, stringTail]
  | cons c cs ih =>
    simp only [List.length_cons] at hn
    obtain ⟨n, rfl⟩ : ∃ k, n = k + 1 := ⟨n - 1, by omega⟩
    rw [List.flatMap_cons, chars, List.map_append, List.append_assoc]
    rw [show List.map Token.char (escapeChar c) = (chars (escapeChar c) : Text F) from rfl,
      stringTail_escapeChar, show List.map Token.char (cs.flatMap escapeChar) =
        (chars (cs.flatMap escapeChar) : Text F) from rfl, ih n (by omega), Option.map_some]

theorem ite_ne_nil {α : Type} {c : Prop} [Decidable c] {a b : List α} (ha : a ≠ [])
    (hb : b ≠ []) : (if c then a else b) ≠ [] := by
  split_ifs
  · exact ha
  · exact hb

theorem escapeChar_ne_nil : escapeChar c ≠ [] := by
  unfold escapeChar
  repeat' first | exact List.cons_ne_nil _ _ | apply ite_ne_nil

theorem length_escaped (cs : List Char) : cs.length ≤ (cs.flatMap escapeChar).length := by
  induction cs with
  | nil => exact Nat.le_refl _
  | cons c cs ih =>
    have hc : 0 < (escapeChar c).length := List.length_pos_of_ne_nil (escapeChar_ne_nil c)
    simp only [List.flatMap_cons, List.length_append, List.length_cons]
    omega

def plain (s : String) : Bool := s.toList.all (fun c => escapeChar c = [c])

theorem quoted_plain (s : String) (h : plain s = true) :
    (quoted s : Text F) = .char '"' :: text s ++ [.char '"'] := by
  have hs : s.toList.flatMap escapeChar = s.toList := by
    rw [plain, List.all_eq_true] at h
    generalize s.toList = cs at h ⊢
    induction cs with
    | nil => rfl
    | cons c cs ih =>
      have hc : escapeChar c = [c] := by simpa using h c List.mem_cons_self
      rw [List.flatMap_cons, hc, ih (fun d hd => h d (List.mem_cons_of_mem c hd))]
      rfl
  rw [quoted, hs, text]

def Follows : Text F → Prop
  | .char c :: _ => ¬ c.isDigit ∧ c ≠ '.' ∧ c ≠ 'e' ∧ c ≠ 'E'
  | .number _ :: _ => False
  | [] => True

theorem follows_char (h : c = ',' ∨ c = '}' ∨ c = ']') : Follows (.char c :: r) := by
  rcases h with rfl | rfl | rfl <;> exact ⟨by decide, by decide, by decide, by decide⟩

theorem spanDigits_chars (ds : List Char) (r : Text F) (hd : ∀ c ∈ ds, c.isDigit = true)
    (hr : Follows r) : spanDigits (chars ds ++ r) = (ds, r) := by
  induction ds with
  | nil =>
    rcases r with _ | ⟨c | x, r⟩
    · rfl
    · simp [chars, spanDigits, hr.1]
    · exact hr.elim
  | cons c ds ih =>
    have hc := hd c List.mem_cons_self
    have ih := ih (fun d h => hd d (List.mem_cons_of_mem c h))
    rw [chars, List.map_cons, List.cons_append,
      show List.map Token.char ds = (chars ds : Text F) from rfl]
    simp only [spanDigits, if_pos hc, ih]

theorem digits_natText (h : c ∈ Nat.toDigits 10 n) : c.isDigit = true :=
  Nat.isDigit_of_mem_toDigits (by decide) (by decide) h

theorem someDigits_natText (hr : Follows r) :
    someDigits (natText n ++ r) = some (Nat.toDigits 10 n, r) := by
  rw [natText, someDigits, spanDigits_chars _ r (digits_natText n) hr,
    if_neg Nat.toDigits_ne_nil]

theorem toDigits_leading :
    ¬ (1 < (Nat.toDigits 10 n).length ∧ (Nat.toDigits 10 n).head? = some '0') := by
  induction n using Nat.strongRecOn with
  | _ n ih =>
    by_cases hn : n < 10
    · rw [Nat.toDigits_of_lt_base hn]
      simp
    · rw [Nat.toDigits_of_base_le (by decide) (by omega)]
      rintro ⟨-, hz⟩
      have hne : Nat.toDigits 10 (n / 10) ≠ [] := Nat.toDigits_ne_nil
      rw [List.head?_append_of_ne_nil _ hne] at hz
      by_cases hl : 1 < (Nat.toDigits 10 (n / 10)).length
      · exact ih (n / 10) (by omega) ⟨hl, hz⟩
      · have hs : n / 10 < 10 := by
          have h1 : (Nat.toDigits 10 (n / 10)).length ≤ 1 := by omega
          have h2 := (Nat.length_toDigits_le_iff (by decide) (by decide)).mp h1
          omega
        rw [Nat.toDigits_of_lt_base hs] at hz
        have hd : ∀ d < 10, Nat.digitChar d = '0' → d = 0 := by decide
        have := hd (n / 10) hs (by simpa using hz)
        omega

theorem fraction_follows (hr : Follows r) : fraction r = some ([], r) := by
  rcases r with _ | ⟨c | x, r⟩
  · rfl
  · simp [fraction, hr.2.1]
  · rfl

theorem exponent_follows (hr : Follows r) : exponent r = some (none, r) := by
  rcases r with _ | ⟨c | x, r⟩
  · rfl
  · simp [exponent, hr.2.2.1, hr.2.2.2]
  · rfl

theorem length_memberText (k : String) (t : Text F) :
    (memberText k t).length = (quoted k : Text F).length + 1 + t.length := by
  simp [memberText]
  omega

section Reads
variable [OfScientific F] [Neg F]

theorem parseNumber_digits (t r : Text F) (n : ℕ) (hr : Follows r)
    (ht : (minus t).2 = natText n ++ r) :
    parseNumber t = some (numberValue (minus t).1 (Nat.toDigits 10 n) [] none, r) := by
  simp only [parseNumber, ht, someDigits_natText n r hr, Option.bind_eq_bind, Option.bind_some,
    if_neg (toDigits_leading n), fraction_follows r hr, exponent_follows r hr]

def Reads (t : Text F) (v : Value F) : Prop :=
  ∀ (n : ℕ) (r : Text F), t.length < n → Follows r →
    ∃ r', parseValue n (t ++ r) = some (v, r') ∧ skipBlanks r' = skipBlanks r

theorem reads_object_of_parse (t : Text F) (ms : Members F)
    (h : parse t = some (.object ms)) : Reads t (.object ms) := by
  intro n r hn hr
  simp only [parse, Option.bind_eq_bind, Option.bind_eq_some_iff] at h
  obtain ⟨⟨v, s⟩, hv, hx⟩ := h
  split_ifs at hx with hs
  rw [Option.some.injEq] at hx
  dsimp only at hx
  subst hx
  exact ⟨s ++ r, object_append _ n t r s ms hv hn, skipBlanks_append_nil s r hs.1⟩

theorem parse_of_reads (t : Text F) (v : Value F) (h : Reads t v) (hd : v.depth ≤ maxDepth) :
    parse t = some v := by
  obtain ⟨r, hr, hb⟩ := h (t.length + 1) [] (by omega) trivial
  rw [List.append_nil] at hr
  simp [parse, hr, hb, skipBlanks, hd]

theorem parse_too_deep (t : Text F) (v : Value F) (h : Reads t v) (hd : maxDepth < v.depth) :
    parse t = none := by
  obtain ⟨r, hr, -⟩ := h (t.length + 1) [] (by omega) trivial
  rw [List.append_nil] at hr
  simp [parse, hr, Nat.not_le.mpr hd]

theorem reads_number (x : F) : Reads [.number x] (.double x) := by
  intro n r hn hr
  obtain ⟨n, rfl⟩ : ∃ k, n = k + 1 := ⟨n - 1, by omega⟩
  exact ⟨r, rfl, rfl⟩

theorem reads_text_string (s : String) (body : Text F)
    (h : ∀ n r, body.length < n → stringTail n (body ++ .char '"' :: r) = some (s.toList, r)) :
    Reads (.char '"' :: body ++ [.char '"']) (.string s) := by
  intro n r hn hr
  obtain ⟨n, rfl⟩ : ∃ k, n = k + 1 := ⟨n - 1, by omega⟩
  have hs := h n r (by simp at hn; omega)
  have hb : isBlank '"' = false := by decide
  refine ⟨r, ?_, rfl⟩
  simp [parseValue, skipBlanks, hb, hs]

theorem reads_quoted (s : String) : Reads (quoted s : Text F) (.string s) := by
  apply reads_text_string
  intro n r hn
  apply stringTail_escaped
  have hl := length_escaped s.toList
  rw [chars, List.length_map] at hn
  omega

def literal (F : Type) (s : String) : Bool :=
  (stringTail (s.toList.length + 1) (text s ++ [.char '"'] : Text F)).any (fun x => x.2.isEmpty)

theorem reads_literal (s : String) (h : literal F s = true) :
    ∃ cs, Reads (.char '"' :: text s ++ [.char '"'] : Text F) (.string cs) := by
  rw [literal, Option.any_eq_true] at h
  obtain ⟨⟨cs, rest⟩, hx, hr⟩ := h
  have hr : rest = [] := by simpa using hr
  subst hr
  refine ⟨String.ofList cs, reads_text_string _ _ ?_⟩
  intro n r hn
  have hl : s.toList.length + 1 ≤ n := by
    simp [text, chars] at hn
    omega
  have ha := stringTail_append _ n _ r _ hx hl
  rw [List.append_assoc] at ha
  simpa using ha

theorem reads_keyword (c : Char) (cs : List Char) (v : Value F)
    (hq : c ≠ '"' ∧ c ≠ '{' ∧ c ≠ '[' ∧ ¬ (c = '-' ∨ c.isDigit = true) ∧ isBlank c = false)
    (hk : ∀ r : Text F, keyword c (chars cs ++ r) = some (v, r)) :
    Reads (chars (c :: cs)) v := by
  intro n r hn hr
  obtain ⟨n, rfl⟩ : ∃ k, n = k + 1 := ⟨n - 1, by omega⟩
  obtain ⟨h1, h2, h3, h4, h5⟩ := hq
  refine ⟨r, ?_, rfl⟩
  rw [show (chars (c :: cs) : Text F) = .char c :: chars cs from rfl, List.cons_append]
  simp only [parseValue, skipBlanks, h5, Bool.false_eq_true, if_false, if_neg h1, if_neg h2,
    if_neg h3, if_neg h4, hk]

theorem reads_null : Reads (text "null" : Text F) .null := by
  apply reads_keyword 'n' "ull".toList
  · decide
  · intro r
    rfl

theorem reads_bool (b : Bool) : Reads (text (if b then "true" else "false") : Text F) (.bool b) := by
  cases b
  · apply reads_keyword 'f' "alse".toList
    · decide
    · intro r
      rfl
  · apply reads_keyword 't' "rue".toList
    · decide
    · intro r
      rfl

theorem numberValue_int (negative : Bool) (n : ℕ)
    (h : InRange (if negative then -(n : ℤ) else n)) :
    (numberValue negative (Nat.toDigits 10 n) [] none : Value F) =
      .int (if negative then -(n : ℤ) else n) := by
  simp only [numberValue, Nat.ofDigitChars_ten_toDigits, true_and, if_pos h]

variable (n : ℕ)

theorem natText_cons : ∃ d ds, Nat.toDigits 10 n = d :: ds ∧ d.isDigit = true := by
  rcases h : Nat.toDigits 10 n with _ | ⟨d, ds⟩
  · exact absurd h Nat.toDigits_ne_nil
  · exact ⟨d, ds, rfl, digits_natText n d (by simp [h])⟩

theorem digit_tests (d : Char) (h : d.isDigit = true) :
    d ≠ '"' ∧ d ≠ '{' ∧ d ≠ '[' ∧ d ≠ '-' ∧ isBlank d = false := by
  have hne : ∀ c : Char, c.isDigit = false → d ≠ c := by
    rintro c hc rfl
    exact absurd h (by simp [hc])
  refine ⟨hne _ rfl, hne _ rfl, hne _ rfl, hne _ rfl, ?_⟩
  simp [isBlank, hne ' ' rfl, hne '\t' rfl, hne '\n' rfl, hne '\r' rfl]

def natValue (n : ℕ) : Value F := numberValue false (Nat.toDigits 10 n) [] none

theorem natValue_int (h : n < 2 ^ 64) : (natValue n : Value F) = .int n := by
  have hi : (if false = true then -(n : ℤ) else (n : ℤ)) = n := rfl
  rw [natValue, numberValue_int false n (by rw [hi]; unfold InRange; omega), hi]

theorem natValue_large (h : 2 ^ 64 ≤ n) : ∃ x : F, natValue n = .double x := by
  have hi : ¬ InRange (n : ℤ) := by
    unfold InRange
    omega
  simp only [natValue, numberValue, Nat.ofDigitChars_ten_toDigits, Bool.false_eq_true, if_false,
    hi, and_false]
  exact ⟨_, rfl⟩

theorem natValue_asInt64 :
    (natValue n : Value F).asInt64 = if Signed n then some (n : ℤ) else none := by
  by_cases h : n < 2 ^ 64
  · rw [natValue_int n h, Value.asInt64]
  · obtain ⟨x, hx⟩ := natValue_large (F := F) n (by omega)
    have hs : ¬ Signed n := by
      unfold Signed
      omega
    rw [hx, if_neg hs]
    rfl

theorem natValue_depth : (natValue n : Value F).depth = 0 := by
  by_cases h : n < 2 ^ 64
  · rw [natValue_int n h]
    simp [Value.depth]
  · obtain ⟨x, hx⟩ := natValue_large (F := F) n (by omega)
    rw [hx]
    simp [Value.depth]

theorem reads_natText : Reads (natText n : Text F) (natValue n) := by
  intro m r hm hr
  obtain ⟨m, rfl⟩ : ∃ k, m = k + 1 := ⟨m - 1, by omega⟩
  obtain ⟨d, ds, hd, hdig⟩ := natText_cons n
  obtain ⟨h1, h2, h3, h4, h5⟩ := digit_tests d hdig
  have ht : (natText n ++ r : Text F) = .char d :: (chars ds ++ r) := by
    rw [natText, hd]
    rfl
  have hmin : minus (.char d :: (chars ds ++ r)) = (false, .char d :: (chars ds ++ r)) := by
    simp [minus, h4]
  have hp := parseNumber_digits (.char d :: (chars ds ++ r)) r n hr (by rw [hmin, ht])
  rw [hmin] at hp
  refine ⟨r, ?_, rfl⟩
  rw [ht]
  simp only [parseValue, skipBlanks, h5, Bool.false_eq_true, if_false, if_neg h1, if_neg h2,
    if_neg h3, if_pos (Or.inr hdig), hp, natValue]

theorem reads_nat (hn : n < 2 ^ 64) : Reads (natText n : Text F) (.int n) := by
  rw [← natValue_int n hn]
  exact reads_natText n

theorem reads_negative (hn : n + 1 ≤ 2 ^ 63) :
    Reads (.char '-' :: natText (n + 1) : Text F) (.int (.negSucc n)) := by
  intro m r hm hr
  obtain ⟨m, rfl⟩ : ∃ k, m = k + 1 := ⟨m - 1, by omega⟩
  have hp := parseNumber_digits (.char '-' :: (natText (n + 1) ++ r)) r (n + 1) hr rfl
  have hi : (if true = true then -((n + 1 : ℕ) : ℤ) else ((n + 1 : ℕ) : ℤ)) = .negSucc n := rfl
  rw [show (minus (.char '-' :: (natText (n + 1) ++ r))).1 = true from rfl,
    numberValue_int true (n + 1) (by rw [hi]; unfold InRange; omega), hi] at hp
  have hb : isBlank '-' = false := by decide
  refine ⟨r, ?_, rfl⟩
  simp [parseValue, skipBlanks, hb, hp]

theorem reads_int (n : ℤ) (h : InRange n) : Reads (intText n : Text F) (.int n) := by
  unfold InRange at h
  cases n with
  | ofNat n => exact reads_nat n (by simp at h; omega)
  | negSucc n => exact reads_negative n (by omega)

omit [OfScientific F] [Neg F] in
theorem parseKey_quoted (k : String) (r : Text F) (hn : (quoted k : Text F).length < n + 2) :
    parseKey n (quoted k ++ r) = some (k, r) := by
  have hl := length_escaped k.toList
  simp only [quoted, chars, List.length_cons, List.length_append, List.length_map,
    List.length_nil] at hn
  have hs := stringTail_escaped n k.toList r (by omega)
  have he : expect '"' (quoted k ++ r) =
      some (chars (k.toList.flatMap escapeChar) ++ .char '"' :: r) := by
    rw [expect_some]
    simp [quoted, skipBlanks, isBlank]
  simp [parseKey, he, hs]

theorem member_read (k : String) (t r : Text F) (v : Value F) (c : Char)
    (h : Reads t v) (hn : (memberText k t).length ≤ n) (hc : c = ',' ∨ c = '}') :
    ∃ s w, parseKey n (memberText k t ++ .char c :: r) = some (k, s) ∧
      expect ':' s = some (t ++ .char c :: r) ∧
      parseValue n (t ++ .char c :: r) = some (v, w) ∧ expect c w = some r := by
  rw [length_memberText] at hn
  obtain ⟨w, hw, hb⟩ := h n (.char c :: r) (by omega)
    (follows_char c r (by rcases hc with h | h <;> simp [h]))
  refine ⟨.char ':' :: (t ++ .char c :: r), w, ?_, ?_, hw, ?_⟩
  · rw [memberText, List.append_assoc]
    exact parseKey_quoted n k _ (by omega)
  · rw [expect_some]
    simp [skipBlanks, isBlank]
  · rw [expect_some, hb]
    rcases hc with rfl | rfl <;> simp [skipBlanks, isBlank]

def ReadMembers (ms : List (String × Text F)) (ws : Members F) : Prop :=
  List.Forall₂ (fun m w => m.1 = w.1 ∧ Reads m.2 w.2) ms ws

theorem readMembers_nil : ReadMembers ([] : List (String × Text F)) [] := .nil

theorem readMembers_cons (k : String) (t : Text F) (v : Value F) (ms : List (String × Text F))
    (ws : Members F) (h : Reads t v) (hs : ReadMembers ms ws) :
    ReadMembers ((k, t) :: ms) ((k, v) :: ws) := .cons ⟨rfl, h⟩ hs

theorem members_cons_read (k : String) (t r : Text F) (v : Value F) (h : Reads t v)
    (hn : (memberText k t).length ≤ n) :
    parseMembers (n + 1) (memberText k t ++ .char ',' :: r) =
      (parseMembers n r).map fun x => ((k, v) :: x.1, x.2) := by
  obtain ⟨s, x, hk, hs, hv, he⟩ := member_read n k t r v ',' h hn (Or.inl rfl)
  simp only [parseMembers, Option.bind_eq_bind, hk, Option.bind_some, hs, hv, he]
  cases parseMembers n r <;> rfl

theorem members_begin_with (k : String) (t r : Text F) (v : Value F) (x : Members F × Text F)
    (h : Reads t v) (hn : (memberText k t).length < n)
    (hx : parseMembers n (memberText k t ++ .char ',' :: r) = some x) :
    ∃ y, parseMembers (n - 1) r = some y ∧ x = ((k, v) :: y.1, y.2) := by
  obtain ⟨n, rfl⟩ : ∃ j, n = j + 1 := ⟨n - 1, by omega⟩
  rw [members_cons_read n k t r v h (by omega), Option.map_eq_some_iff] at hx
  obtain ⟨y, hy, rfl⟩ := hx
  exact ⟨y, hy, rfl⟩

theorem members_read (ms : List (String × Text F)) (ws : Members F) (h : ReadMembers ms ws)
    (hne : ms ≠ []) (n : ℕ) (r : Text F) (hn : (membersText ms).length < n) :
    parseMembers n (membersText ms ++ .char '}' :: r) = some (ws, r) := by
  induction h generalizing n with
  | nil => exact absurd rfl hne
  | @cons m w ms ws hm hms ih =>
    obtain ⟨k, t⟩ := m
    obtain ⟨k', v⟩ := w
    obtain ⟨rfl, ht⟩ := hm
    dsimp only at ht
    obtain ⟨n, rfl⟩ : ∃ j, n = j + 1 := ⟨n - 1, by omega⟩
    cases ms with
    | nil =>
      cases hms
      simp only [membersText] at hn
      obtain ⟨s, x, hk, hs, hv, he⟩ := member_read n k t r v '}' ht (by omega) (Or.inr rfl)
      have ho := expect_other ',' '}' x r he (by decide)
      simp [membersText, parseMembers, hk, hs, hv, he, ho]
    | cons m ms =>
      have hl : (memberText k t).length + (membersText (m :: ms)).length < n := by
        simp only [membersText, List.length_append, List.length_cons] at hn
        omega
      have hrest := ih (by simp) n (by omega)
      have hcons := members_cons_read n k t (membersText (m :: ms) ++ .char '}' :: r) v ht (by omega)
      rw [hrest, Option.map_some] at hcons
      simpa [membersText] using hcons

/-- An object built from members that read as values reads as the object of
these values. -/
theorem reads_object (ms : List (String × Text F)) (ws : Members F) (h : ReadMembers ms ws) :
    Reads (objectText ms) (.object ws) := by
  intro n r hn hr
  obtain ⟨n, rfl⟩ : ∃ k, n = k + 1 := ⟨n - 1, by omega⟩
  have hb : isBlank '{' = false := by decide
  have hl : (membersText ms).length < n := by
    simp [objectText] at hn
    omega
  have ht : objectText ms ++ r = .char '{' :: (membersText ms ++ .char '}' :: r) := by
    simp [objectText]
  rw [ht]
  refine ⟨r, ?_, rfl⟩
  by_cases hne : ms = []
  · subst hne
    cases h
    have he : expect '}' (membersText [] ++ .char '}' :: r) = some r := by
      rw [expect_some]
      simp [membersText, skipBlanks, isBlank]
    simp [parseValue, skipBlanks, hb, he]
  · have hm := members_read ms ws h hne n r hl
    have he : expect '}' (membersText ms ++ .char '}' :: r) = none := by
      obtain ⟨m, rest, rfl⟩ := List.exists_cons_of_ne_nil hne
      cases rest <;>
        simp [membersText, memberText, quoted, expect, skipBlanks, isBlank]
    simp [parseValue, skipBlanks, hb, he, hm]

theorem items_read (ts : List (Text F)) (vs : List (Value F)) (h : List.Forall₂ Reads ts vs)
    (hne : ts ≠ []) (n : ℕ) (r : Text F) (hn : (itemsText ts).length + 1 < n) :
    parseItems n (itemsText ts ++ .char ']' :: r) = some (vs, r) := by
  induction h generalizing n with
  | nil => exact absurd rfl hne
  | @cons t v ts vs ht hts ih =>
    obtain ⟨n, rfl⟩ : ∃ j, n = j + 1 := ⟨n - 1, by omega⟩
    cases ts with
    | nil =>
      cases hts
      simp only [itemsText] at hn ⊢
      obtain ⟨x, hv, hb⟩ := ht n (.char ']' :: r) (by omega) (follows_char ']' r (by simp))
      have he : expect ']' x = some r := by
        rw [expect_some, hb]
        simp [skipBlanks, isBlank]
      have ho := expect_other ',' ']' x r he (by decide)
      simp [parseItems, hv, he, ho]
    | cons t' ts =>
      simp only [itemsText, List.length_append, List.length_cons] at hn
      obtain ⟨x, hv, hb⟩ := ht n (.char ',' :: (itemsText (t' :: ts) ++ .char ']' :: r)) (by omega)
        (follows_char ',' _ (by simp))
      have he : expect ',' x = some (itemsText (t' :: ts) ++ .char ']' :: r) := by
        rw [expect_some, hb]
        simp [skipBlanks, isBlank]
      have hrest := ih (by simp) n (by omega)
      simp only [itemsText, List.append_assoc, List.cons_append] at hv he hrest ⊢
      simp [parseItems, hv, he, hrest]

theorem value_no_bracket (t : Text F) (x : Value F × Text F)
    (h : parseValue n t = some x) : expect ']' t = none := by
  rcases he : expect ']' t with _ | r
  · rfl
  · rw [expect_some] at he
    cases n with
    | zero => exact absurd h (by simp [parseValue])
    | succ n => simp [parseValue, he, keyword] at h

theorem reads_array (ts : List (Text F)) (vs : List (Value F)) (h : List.Forall₂ Reads ts vs) :
    Reads (arrayText ts) (.array vs) := by
  intro n r hn hr
  obtain ⟨n, rfl⟩ : ∃ k, n = k + 1 := ⟨n - 1, by omega⟩
  have hb : isBlank '[' = false := by decide
  have hl : (itemsText ts).length + 1 < n := by
    simp [arrayText] at hn
    omega
  have ht : arrayText ts ++ r = .char '[' :: (itemsText ts ++ .char ']' :: r) := by
    simp [arrayText]
  rw [ht]
  refine ⟨r, ?_, rfl⟩
  by_cases hne : ts = []
  · subst hne
    cases h
    have he : expect ']' (itemsText [] ++ .char ']' :: r) = some r := by
      rw [expect_some]
      simp [itemsText, skipBlanks, isBlank]
    simp [parseValue, skipBlanks, hb, he]
  · have hi := items_read ts vs h hne n r hl
    have he : expect ']' (itemsText ts ++ .char ']' :: r) = none := by
      obtain ⟨n, rfl⟩ : ∃ k, n = k + 1 := ⟨n - 1, by omega⟩
      simp only [parseItems, Option.bind_eq_bind, Option.bind_eq_some_iff] at hi
      obtain ⟨v, hv, -⟩ := hi
      exact value_no_bracket n _ v hv
    simp [parseValue, skipBlanks, hb, he, hi]

mutual

def Value.Printable : Value F → Prop
  | .int n => InRange n
  | .array items => ItemsPrintable items
  | .object members => MembersPrintable members
  | _ => True

def ItemsPrintable : List (Value F) → Prop
  | [] => True
  | v :: rest => v.Printable ∧ ItemsPrintable rest

def MembersPrintable : List (String × Value F) → Prop
  | [] => True
  | (_, v) :: rest => v.Printable ∧ MembersPrintable rest

end

mutual

theorem reads_render : ∀ v : Value F, v.Printable → Reads (render v) v
  | .null, _ => reads_null
  | .bool b, _ => reads_bool b
  | .int n, h => reads_int n h
  | .double x, _ => reads_number x
  | .string s, _ => reads_quoted s
  | .array items, h => reads_array _ _ (items_render items h)
  | .object members, h => reads_object _ _ (members_render members h)

theorem items_render : ∀ vs : List (Value F), ItemsPrintable vs →
    List.Forall₂ Reads (renderItems vs) vs
  | [], _ => .nil
  | v :: rest, h => .cons (reads_render v h.1) (items_render rest h.2)

theorem members_render : ∀ ms : List (String × Value F), MembersPrintable ms →
    ReadMembers (renderMembers ms) ms
  | [], _ => .nil
  | (_, v) :: rest, h => .cons ⟨rfl, reads_render v h.1⟩ (members_render rest h.2)

end

theorem parse_render (v : Value F) (h : v.Printable) (hd : v.depth ≤ maxDepth) :
    parse (render v) = some v :=
  parse_of_reads (render v) v (reads_render v h) hd

end Reads

end JsonText
