import TomorrowBot.JsonText

/-!
# Reading a value inside a longer text

What the reader made of a text it makes of every continuation of it, as long
as the continuation cannot prolong a number. More fuel changes nothing. Both
facts are one statement about each function of the reader.
-/

set_option autoImplicit false

namespace JsonText

variable {F : Type} (t u : Text F)

theorem skipBlanks_append (h : skipBlanks t ≠ []) : skipBlanks (t ++ u) = skipBlanks t ++ u := by
  induction t with
  | nil => exact absurd rfl h
  | cons a t ih =>
    cases a with
    | number x => rfl
    | char c =>
      by_cases hc : isBlank c
      · simp only [skipBlanks, List.cons_append, if_pos hc] at h ⊢
        exact ih h
      · simp [skipBlanks, hc]

theorem skipBlanks_append_nil (h : skipBlanks t = []) : skipBlanks (t ++ u) = skipBlanks u := by
  induction t with
  | nil => rfl
  | cons a t ih =>
    cases a with
    | number x => exact absurd h (by simp [skipBlanks])
    | char c =>
      by_cases hc : isBlank c
      · simp only [skipBlanks, List.cons_append, if_pos hc] at h ⊢
        exact ih h
      · simp [skipBlanks, hc] at h

variable (c : Char)

theorem expect_some (t r : Text F) : expect c t = some r ↔ skipBlanks t = .char c :: r := by
  unfold expect
  rcases h : skipBlanks t with _ | ⟨d | x, t'⟩
  · simp
  · by_cases hd : d = c
    · simp [hd]
    · simp [hd]
  · simp

theorem expect_append (t r u : Text F) (h : expect c t = some r) :
    expect c (t ++ u) = some (r ++ u) := by
  rw [expect_some] at h ⊢
  rw [skipBlanks_append t u (by simp [h]), h, List.cons_append]

theorem expect_other (c d : Char) (t r : Text F) (h : expect d t = some r) (hcd : d ≠ c) :
    expect c t = none := by
  rw [expect_some] at h
  simp [expect, h, hcd]

theorem expect_none_append (t u : Text F) (hb : skipBlanks t ≠ [])
    (h : expect c t = none) : expect c (t ++ u) = none := by
  unfold expect at h ⊢
  rw [skipBlanks_append t u hb]
  rcases hk : skipBlanks t with _ | ⟨d | x, r⟩
  · exact absurd hk hb
  · by_cases hd : d = c
    · simp [hk, hd] at h
    · simp [hd]
  · rfl

theorem expect_ne_nil (t r : Text F) (h : expect c t = some r) : t ≠ [] := by
  rintro rfl
  simp [expect, skipBlanks] at h

theorem codeUnit_append (x : ℕ × Text F) (h : codeUnit t = some x) :
    codeUnit (t ++ u) = some (x.1, x.2 ++ u) := by
  rcases t with _ | ⟨a | _, _ | ⟨b | _, _ | ⟨c | _, _ | ⟨d | _, r⟩⟩⟩⟩ <;>
    simp only [codeUnit, reduceCtorEq] at h
  simp only [Option.bind_eq_bind, Option.bind_eq_some_iff] at h
  obtain ⟨a', ha, b', hb, c', hc, d', hd, hx⟩ := h
  simp only [Option.some.injEq] at hx
  subst hx
  simp [codeUnit, ha, hb, hc, hd]

theorem lowSurrogate_append (high : ℕ) (t u : Text F) (x : Char × Text F)
    (h : lowSurrogate high t = some x) :
    lowSurrogate high (t ++ u) = some (x.1, x.2 ++ u) := by
  rcases t with _ | ⟨a | _, _ | ⟨b | _, r⟩⟩ <;> simp only [lowSurrogate, reduceCtorEq] at h
  by_cases hu : a = '\\' ∧ b = 'u'
  · rw [if_pos hu] at h
    simp only [Option.bind_eq_bind, Option.bind_eq_some_iff] at h
    obtain ⟨low, hl, hx⟩ := h
    by_cases hr : 0xDC00 ≤ low.1 ∧ low.1 < 0xE000
    · rw [if_pos hr, Option.some.injEq] at hx
      subst hx
      simp only [List.cons_append, lowSurrogate, if_pos hu, codeUnit_append r u low hl,
        Option.bind_eq_bind, Option.bind_some, if_pos hr]
    · rw [if_neg hr] at hx
      exact absurd hx (by simp)
  · rw [if_neg hu] at h
    exact absurd h (by simp)

theorem unicode_append (x : Char × Text F) (h : unicode t = some x) :
    unicode (t ++ u) = some (x.1, x.2 ++ u) := by
  simp only [unicode, Option.bind_eq_bind, Option.bind_eq_some_iff] at h
  obtain ⟨unit, hu, hx⟩ := h
  simp only [unicode, codeUnit_append t u unit hu, Option.bind_eq_bind, Option.bind_some]
  by_cases hh : 0xD800 ≤ unit.1 ∧ unit.1 < 0xDC00
  · rw [if_pos hh] at hx ⊢
    exact lowSurrogate_append unit.1 unit.2 u x hx
  · rw [if_neg hh] at hx ⊢
    by_cases hl : 0xDC00 ≤ unit.1 ∧ unit.1 < 0xE000
    · rw [if_pos hl] at hx
      exact absurd hx (by simp)
    · rw [if_neg hl, Option.some.injEq] at hx
      subst hx
      rw [if_neg hl]

theorem escape_append (x : Char × Text F) (h : escape t = some x) :
    escape (t ++ u) = some (x.1, x.2 ++ u) := by
  rcases t with _ | ⟨c | _, r⟩ <;> simp only [escape, reduceCtorEq] at h
  by_cases hc : c = 'u'
  · rw [if_pos hc] at h
    simp only [List.cons_append, escape, if_pos hc]
    exact unicode_append r u x h
  · rw [if_neg hc, Option.map_eq_some_iff] at h
    obtain ⟨e, he, rfl⟩ := h
    simp [escape, hc, he]

theorem stringTail_append (n m : ℕ) (t u : Text F) (x : List Char × Text F)
    (h : stringTail n t = some x) (hm : n ≤ m) :
    stringTail m (t ++ u) = some (x.1, x.2 ++ u) := by
  induction n generalizing m t x with
  | zero => exact absurd h (by simp [stringTail])
  | succ n ih =>
    obtain ⟨m, rfl⟩ : ∃ k, m = k + 1 := ⟨m - 1, by omega⟩
    have hm : n ≤ m := by omega
    rcases t with _ | ⟨c | _, r⟩ <;> simp only [stringTail, reduceCtorEq] at h
    simp only [List.cons_append, stringTail]
    by_cases hq : c = '"'
    · rw [if_pos hq, Option.some.injEq] at h
      subst h
      rw [if_pos hq]
    rw [if_neg hq] at h ⊢
    by_cases hb : c = '\\'
    · rw [if_pos hb] at h ⊢
      simp only [Option.bind_eq_bind, Option.bind_eq_some_iff] at h
      obtain ⟨e, he, s, hs, hx⟩ := h
      simp only [Option.some.injEq] at hx
      subst hx
      simp [escape_append r u e he, ih m e.2 s hs hm]
    rw [if_neg hb] at h ⊢
    by_cases hl : c.toNat < 0x20
    · rw [if_pos hl] at h
      exact absurd h (by simp)
    rw [if_neg hl] at h ⊢
    simp only [Option.bind_eq_bind, Option.bind_eq_some_iff] at h
    obtain ⟨s, hs, hx⟩ := h
    simp only [Option.some.injEq] at hx
    subst hx
    simp [ih m r s hs hm]

theorem parseKey_append (n m : ℕ) (t u : Text F) (x : String × Text F)
    (h : parseKey n t = some x) (hm : n ≤ m) :
    parseKey m (t ++ u) = some (x.1, x.2 ++ u) := by
  simp only [parseKey, Option.bind_eq_bind, Option.bind_eq_some_iff] at h
  obtain ⟨r, hr, s, hs, hx⟩ := h
  simp only [Option.some.injEq] at hx
  subst hx
  simp [parseKey, expect_append '"' t r u hr, stringTail_append n m r u s hs hm]

theorem spanDigits_append (h : (spanDigits t).2 ≠ []) :
    spanDigits (t ++ u) = ((spanDigits t).1, (spanDigits t).2 ++ u) := by
  induction t with
  | nil => exact absurd rfl h
  | cons a t ih =>
    cases a with
    | number x => rfl
    | char c =>
      by_cases hc : c.isDigit
      · simp only [spanDigits, if_pos hc, List.cons_append] at h ⊢
        rw [ih h]
      · simp [spanDigits, hc]

def Stops (r u : Text F) : Prop := r ≠ [] ∨ u = []

theorem stops_of_expect (t r u : Text F) (h : expect c t = some r) : Stops t u :=
  Or.inl (expect_ne_nil c t r h)

theorem someDigits_append (x : List Char × Text F) (h : someDigits t = some x)
    (hs : Stops x.2 u) : someDigits (t ++ u) = some (x.1, x.2 ++ u) := by
  unfold someDigits at h ⊢
  by_cases hd : (spanDigits t).1 = []
  · rw [if_pos hd] at h
    exact absurd h (by simp)
  rw [if_neg hd, Option.some.injEq] at h
  subst h
  rcases hs with hs | rfl
  · rw [spanDigits_append t u hs, if_neg hd]
  · rw [List.append_nil, if_neg hd, List.append_nil]

theorem someDigits_ne_nil (t : Text F) (x : List Char × Text F) (h : someDigits t = some x) :
    t ≠ [] := by
  rintro rfl
  simp [someDigits, spanDigits] at h

theorem minus_append (h : t ≠ []) : minus (t ++ u) = ((minus t).1, (minus t).2 ++ u) := by
  rcases t with _ | ⟨c | x, r⟩
  · exact absurd rfl h
  · by_cases hc : c = '-' <;> simp [minus, hc]
  · rfl

theorem expSign_append (h : t ≠ []) : expSign (t ++ u) = ((expSign t).1, (expSign t).2 ++ u) := by
  rcases t with _ | ⟨c | x, r⟩
  · exact absurd rfl h
  · by_cases hc : c = '-'
    · simp [expSign, hc]
    · by_cases hp : c = '+' <;> simp [expSign, hc, hp]
  · rfl

theorem fraction_append (x : List Char × Text F) (h : fraction t = some x)
    (hs : Stops x.2 u) : fraction (t ++ u) = some (x.1, x.2 ++ u) := by
  rcases t with _ | ⟨c | y, r⟩
  · simp only [fraction, Option.some.injEq] at h
    subst h
    have hu : u = [] := hs.resolve_left (by simp)
    simp [hu, fraction]
  · simp only [fraction, List.cons_append] at h ⊢
    by_cases hc : c = '.'
    · rw [if_pos hc] at h ⊢
      exact someDigits_append r u x h hs
    · rw [if_neg hc, Option.some.injEq] at h
      subst h
      rw [if_neg hc, List.cons_append]
  · simp only [fraction, Option.some.injEq] at h
    subst h
    rfl

theorem exponent_append (x : Option ℤ × Text F) (h : exponent t = some x)
    (hs : Stops x.2 u) : exponent (t ++ u) = some (x.1, x.2 ++ u) := by
  rcases t with _ | ⟨c | y, r⟩
  · simp only [exponent, Option.some.injEq] at h
    subst h
    have hu : u = [] := hs.resolve_left (by simp)
    simp [hu, exponent]
  · simp only [exponent, List.cons_append] at h ⊢
    by_cases hc : c = 'e' ∨ c = 'E'
    · rw [if_pos hc] at h ⊢
      simp only [Option.bind_eq_bind, Option.bind_eq_some_iff, Option.some.injEq] at h
      obtain ⟨d, hd, rfl⟩ := h
      have hr : r ≠ [] := by
        rintro rfl
        exact someDigits_ne_nil _ d hd rfl
      simp [expSign_append r u hr, someDigits_append _ u d hd hs]
    · rw [if_neg hc, Option.some.injEq] at h
      subst h
      rw [if_neg hc, List.cons_append]
  · simp only [exponent, Option.some.injEq] at h
    subst h
    rfl

theorem fraction_rest (t : Text F) (x : List Char × Text F) (h : fraction t = some x)
    (hx : x.2 ≠ []) : t ≠ [] := by
  rintro rfl
  simp only [fraction, Option.some.injEq] at h
  exact hx (h ▸ rfl)

theorem exponent_rest (t : Text F) (x : Option ℤ × Text F) (h : exponent t = some x)
    (hx : x.2 ≠ []) : t ≠ [] := by
  rintro rfl
  simp only [exponent, Option.some.injEq] at h
  exact hx (h ▸ rfl)

theorem stripChars_append (cs : List Char) (t r u : Text F) (h : stripChars cs t = some r) :
    stripChars cs (t ++ u) = some (r ++ u) := by
  induction cs generalizing t with
  | nil =>
    simp only [stripChars, Option.some.injEq] at h
    subst h
    rfl
  | cons c cs ih =>
    rcases t with _ | ⟨d | x, t⟩ <;> simp only [stripChars, reduceCtorEq] at h
    simp only [List.cons_append, stripChars]
    by_cases hc : c = d
    · rw [if_pos hc] at h ⊢
      exact ih t h
    · rw [if_neg hc] at h
      exact absurd h (by simp)

theorem literal_append (v : Value F) (cs : List Char) (t u : Text F) (x : Value F × Text F)
    (h : (stripChars cs t).map (fun r => (v, r)) = some x) :
    (stripChars cs (t ++ u)).map (fun r => (v, r)) = some (x.1, x.2 ++ u) := by
  rw [Option.map_eq_some_iff] at h
  obtain ⟨r, hr, rfl⟩ := h
  rw [stripChars_append cs t r u hr, Option.map_some]

theorem keyword_append (t u : Text F) (x : Value F × Text F)
    (h : keyword c t = some x) : keyword c (t ++ u) = some (x.1, x.2 ++ u) := by
  unfold keyword at h ⊢
  split_ifs at h ⊢
  · exact literal_append _ _ t u x h
  · exact literal_append _ _ t u x h
  · exact literal_append _ _ t u x h

section Numbers
variable [OfScientific F] [Neg F]

theorem parseNumber_append (t u : Text F) (x : Value F × Text F) (h : parseNumber t = some x)
    (hs : Stops x.2 u) : parseNumber (t ++ u) = some (x.1, x.2 ++ u) := by
  rcases hs with hs | rfl
  swap
  · simpa using h
  simp only [parseNumber, Option.bind_eq_bind, Option.bind_eq_some_iff] at h
  obtain ⟨whole, hw, hx⟩ := h
  have ht : t ≠ [] := by
    rintro rfl
    exact someDigits_ne_nil _ whole hw rfl
  by_cases hz : 1 < whole.1.length ∧ whole.1.head? = some '0'
  · rw [if_pos hz] at hx
    exact absurd hx (by simp)
  rw [if_neg hz] at hx
  simp only [Option.bind_eq_some_iff, Option.some.injEq] at hx
  obtain ⟨frac, hf, exp, he, rfl⟩ := hx
  have hfrac : frac.2 ≠ [] := exponent_rest frac.2 exp he hs
  have hwhole : whole.2 ≠ [] := fraction_rest whole.2 frac hf hfrac
  simp only [parseNumber, minus_append t u ht, someDigits_append _ u whole hw (Or.inl hwhole),
    Option.bind_eq_bind, Option.bind_some, if_neg hz,
    fraction_append whole.2 u frac hf (Or.inl hfrac), exponent_append frac.2 u exp he (Or.inl hs)]

variable (n : ℕ)

theorem value_begins (t : Text F) (x : Value F × Text F)
    (h : parseValue n t = some x) : skipBlanks t ≠ [] := by
  intro hb
  cases n <;> simp [parseValue, hb] at h

theorem members_begin (t : Text F) (x : Members F × Text F)
    (h : parseMembers n t = some x) : skipBlanks t ≠ [] := by
  intro hb
  cases n <;> simp [parseMembers, parseKey, expect, hb] at h

theorem items_begin (t : Text F) (x : List (Value F) × Text F)
    (h : parseItems n t = some x) : skipBlanks t ≠ [] := by
  cases n with
  | zero => exact absurd h (by simp [parseItems])
  | succ n =>
    simp only [parseItems, Option.bind_eq_bind, Option.bind_eq_some_iff] at h
    obtain ⟨v, hv, -⟩ := h
    exact value_begins n t v hv

def ValueAppends (F : Type) [OfScientific F] [Neg F] (n : ℕ) : Prop :=
  ∀ (m : ℕ) (t u : Text F) (x : Value F × Text F), parseValue n t = some x → n ≤ m →
    Stops x.2 u → parseValue m (t ++ u) = some (x.1, x.2 ++ u)

def MembersAppend (F : Type) [OfScientific F] [Neg F] (n : ℕ) : Prop :=
  ∀ (m : ℕ) (t u : Text F) (x : Members F × Text F), parseMembers n t = some x → n ≤ m →
    parseMembers m (t ++ u) = some (x.1, x.2 ++ u)

def ItemsAppend (F : Type) [OfScientific F] [Neg F] (n : ℕ) : Prop :=
  ∀ (m : ℕ) (t u : Text F) (x : List (Value F) × Text F), parseItems n t = some x → n ≤ m →
    parseItems m (t ++ u) = some (x.1, x.2 ++ u)

theorem value_appends (ihm : MembersAppend F n) (ihi : ItemsAppend F n) :
    ValueAppends F (n + 1) := by
  intro m t u x h hm hs
  obtain ⟨m, rfl⟩ : ∃ k, m = k + 1 := ⟨m - 1, by omega⟩
  have hm : n ≤ m := by omega
  have hb : skipBlanks t ≠ [] := by
    intro hb
    simp [parseValue, hb] at h
  simp only [parseValue, skipBlanks_append t u hb] at h ⊢
  rcases hk : skipBlanks t with _ | ⟨c | y, r⟩ <;> rw [hk] at h
  · exact absurd hk hb
  · simp only [List.cons_append] at h ⊢
    split_ifs at h ⊢
    · rw [Option.map_eq_some_iff] at h
      obtain ⟨s, hstr, rfl⟩ := h
      rw [stringTail_append n m r u s hstr hm, Option.map_some]
    · rcases he : expect '}' r with _ | r'
      · rw [he, Option.map_eq_some_iff] at h
        obtain ⟨ms, hms, rfl⟩ := h
        rw [expect_none_append '}' r u (members_begin n r ms hms) he, ihm m r u ms hms hm]
        rfl
      · rw [he, Option.some.injEq] at h
        subst h
        rw [expect_append '}' r r' u he]
    · rcases he : expect ']' r with _ | r'
      · rw [he, Option.map_eq_some_iff] at h
        obtain ⟨is, his, rfl⟩ := h
        rw [expect_none_append ']' r u (items_begin n r is his) he, ihi m r u is his hm]
        rfl
      · rw [he, Option.some.injEq] at h
        subst h
        rw [expect_append ']' r r' u he]
    · exact parseNumber_append (.char c :: r) u x h hs
    · exact keyword_append c r u x h
  · simp only [Option.some.injEq] at h
    subst h
    rfl

theorem members_append (ihv : ValueAppends F n) (ihm : MembersAppend F n) :
    MembersAppend F (n + 1) := by
  intro m t u x h hm
  obtain ⟨m, rfl⟩ : ∃ k, m = k + 1 := ⟨m - 1, by omega⟩
  have hm : n ≤ m := by omega
  simp only [parseMembers, Option.bind_eq_bind, Option.bind_eq_some_iff] at h
  obtain ⟨k, hk, r, hr, v, hv, hx⟩ := h
  simp only [parseMembers, Option.bind_eq_bind, parseKey_append n m t u k hk hm,
    Option.bind_some, expect_append ':' k.2 r u hr]
  rcases hc : expect ',' v.2 with _ | r'
  · rw [hc] at hx
    simp only [Option.bind_eq_some_iff, Option.some.injEq] at hx
    obtain ⟨r'', he, rfl⟩ := hx
    rw [ihv m r u v hv hm (stops_of_expect '}' v.2 r'' u he), Option.bind_some,
      expect_other ',' '}' (v.2 ++ u) (r'' ++ u) (expect_append '}' v.2 r'' u he) (by decide),
      expect_append '}' v.2 r'' u he]
    rfl
  · rw [hc] at hx
    simp only [Option.bind_eq_some_iff, Option.some.injEq] at hx
    obtain ⟨rest, hrest, rfl⟩ := hx
    rw [ihv m r u v hv hm (stops_of_expect ',' v.2 r' u hc), Option.bind_some,
      expect_append ',' v.2 r' u hc]
    simp only [ihm m r' u rest hrest hm, Option.bind_some]

theorem items_append (ihv : ValueAppends F n) (ihi : ItemsAppend F n) : ItemsAppend F (n + 1) := by
  intro m t u x h hm
  obtain ⟨m, rfl⟩ : ∃ k, m = k + 1 := ⟨m - 1, by omega⟩
  have hm : n ≤ m := by omega
  simp only [parseItems, Option.bind_eq_bind, Option.bind_eq_some_iff] at h
  obtain ⟨v, hv, hx⟩ := h
  simp only [parseItems, Option.bind_eq_bind]
  rcases hc : expect ',' v.2 with _ | r'
  · rw [hc] at hx
    simp only [Option.bind_eq_some_iff, Option.some.injEq] at hx
    obtain ⟨r'', he, rfl⟩ := hx
    rw [ihv m t u v hv hm (stops_of_expect ']' v.2 r'' u he), Option.bind_some,
      expect_other ',' ']' (v.2 ++ u) (r'' ++ u) (expect_append ']' v.2 r'' u he) (by decide),
      expect_append ']' v.2 r'' u he]
    rfl
  · rw [hc] at hx
    simp only [Option.bind_eq_some_iff, Option.some.injEq] at hx
    obtain ⟨rest, hrest, rfl⟩ := hx
    rw [ihv m t u v hv hm (stops_of_expect ',' v.2 r' u hc), Option.bind_some,
      expect_append ',' v.2 r' u hc]
    simp only [ihi m r' u rest hrest hm, Option.bind_some]

/-- The three mutually recursive readers, by induction on the depth. -/
theorem parse_append : ValueAppends F n ∧ MembersAppend F n ∧ ItemsAppend F n := by
  induction n with
  | zero =>
    refine ⟨?_, ?_, ?_⟩ <;> intro m t u x h <;>
      simp [parseValue, parseMembers, parseItems] at h
  | succ n ih =>
    obtain ⟨ihv, ihm, ihi⟩ := ih
    exact ⟨value_appends n ihm ihi, members_append n ihv ihm, items_append n ihv ihi⟩

theorem parseNumber_value (t : Text F) (x : Value F × Text F) (h : parseNumber t = some x)
    (ms : Members F) : x.1 ≠ .object ms := by
  simp only [parseNumber, Option.bind_eq_bind, Option.bind_eq_some_iff] at h
  obtain ⟨whole, -, hx⟩ := h
  split_ifs at hx
  simp only [Option.bind_eq_some_iff, Option.some.injEq] at hx
  obtain ⟨frac, -, exp, -, rfl⟩ := hx
  unfold numberValue
  dsimp only
  split_ifs <;> simp

omit [OfScientific F] [Neg F] in
theorem keyword_value (c : Char) (t : Text F) (x : Value F × Text F)
    (h : keyword c t = some x) (ms : Members F) : x.1 ≠ .object ms := by
  unfold keyword at h
  split_ifs at h
  all_goals
    obtain ⟨r, -, rfl⟩ := Option.map_eq_some_iff.mp h
    simp

/-- An object that was read is read in every continuation of its text. -/
theorem object_append (n m : ℕ) (t u r : Text F) (ms : Members F)
    (h : parseValue n t = some (.object ms, r)) (hm : n ≤ m) :
    parseValue m (t ++ u) = some (.object ms, r ++ u) := by
  have hb := value_begins n t _ h
  obtain ⟨n, rfl⟩ : ∃ k, n = k + 1 := ⟨n - 1, by cases n <;> simp_all [parseValue]⟩
  obtain ⟨m, rfl⟩ : ∃ k, m = k + 1 := ⟨m - 1, by omega⟩
  have hm : n ≤ m := by omega
  simp only [parseValue, skipBlanks_append t u hb] at h ⊢
  rcases hk : skipBlanks t with _ | ⟨c | y, s⟩ <;> rw [hk] at h
  · exact absurd hk hb
  · simp only [List.cons_append] at h ⊢
    split_ifs at h ⊢
    · rw [Option.map_eq_some_iff] at h
      obtain ⟨e, -, he⟩ := h
      simp at he
    · rcases he : expect '}' s with _ | s'
      · rw [he, Option.map_eq_some_iff] at h
        obtain ⟨ms', hms, heq⟩ := h
        rw [expect_none_append '}' s u (members_begin n s ms' hms) he,
          (parse_append n).2.1 m s u ms' hms hm]
        simp only [Prod.mk.injEq, Value.object.injEq] at heq
        simp [heq.1, heq.2]
      · rw [he, Option.some.injEq, Prod.mk.injEq] at h
        rw [expect_append '}' s s' u he, h.1, h.2]
    · rcases he : expect ']' s with _ | s'
      · rw [he, Option.map_eq_some_iff] at h
        obtain ⟨e, -, he⟩ := h
        simp at he
      · rw [he] at h
        simp at h
    · exact absurd rfl (parseNumber_value _ _ h ms)
    · exact absurd rfl (keyword_value _ _ _ h ms)
  · simp at h

end Numbers

end JsonText
