import TomorrowBot.RedactionWords

/-!
# What a line keeps of a secret

A field of a JSON line is masked up to the first quote of its value. A word behind a key
and an equals sign is masked up to the first blank.
-/

set_option autoImplicit false

namespace TB.Redaction

/-- The text ends in a name, with what may stand behind it up to there. -/
def Run.Opens (r : Run) (x : Text) : Prop :=
  ∃ y a e e' o, r.Name a ∧ Tail r (e ++ e') o ∧ e' ≠ [] ∧ x = y ++ (a ++ e)

/-- The text ends in a name and in all that stands before its word. -/
def Run.Headed (r : Run) (u : Text) : Prop :=
  ∃ y a e o, r.Name a ∧ Tail r e o ∧ u = y ++ (a ++ e)

section Words
variable {r : Run} {p q : Option Char} {u key x w : Text} {P : Text → Prop}

def Run.Takes (r : Run) (x : Text) : Prop :=
  ∃ b y, Tail r ('=' :: b) ['='] ∧ Word y ∧ x = b ++ y

/-- Blanks and a word are covered behind a key. Either the first pattern names the key, and
the word stands at the equals sign or no match reads the key as its word. Or the last pattern
names it, and no name at the end of the word makes an earlier pattern read on. -/
inductive CoveredWord (u key x w : Text) : Prop where
  | env (hkey : Run.env.Name key) (hx : Run.env.Takes x)
      (h : Word x ∨ ¬ Run.env.Headed (u ++ [' ']))
  | param (hkey : Run.param.Name key) (hx : Word x)
      (h : w = [] ∨ ¬ Run.env.Opens x ∧ ¬ Run.bearer.Opens x)

theorem CoveredWord.word (h : CoveredWord u key x w) : ∀ c ∈ key, isWord c = true := by
  cases h with
  | env hkey _ _ => exact hkey.word
  | param hkey _ _ => exact hkey.word

end Words

section Texts
variable {key x x' u w : Text}

theorem pieces_glue {h : Text} {l : List Text} (hq : ∀ a ∈ h :: l, '"' ∉ a) :
    pieces (glue (h :: l)) = h :: l := by
  induction l generalizing h with
  | nil =>
    rw [glue, quotes, List.flatMap_nil, List.append_nil]
    exact List.splitOn_eq_singleton (hq h List.mem_cons_self)
  | cons a l ih =>
    have hline : glue (h :: a :: l) = h ++ '"' :: glue (a :: l) := by simp [glue, quotes]
    rw [hline, pieces, List.splitOn_append_cons_self_of_not_mem (hq h List.mem_cons_self)]
    exact congrArg _ (ih fun b hb => hq b (List.mem_cons_of_mem _ hb))

theorem redact_append (s : Text) : redactSecrets s =
    [envPattern, bearerPattern, tokenParamPattern].foldl regexReplace
      ((jsonNames.map jsonPattern).foldl regexReplace s) := by
  rw [redactSecrets, patterns, List.foldl_append]

/-- No piece of the text is a name with a colon behind it. -/
def Plain (s : Text) : Prop :=
  ∀ f ∈ jsonNames, (pieces s).tail.IsChain fun a b => f.hit a b = false

theorem CoveredWord.later {u' w' : Text} (h : CoveredWord u key x w) (hw : w = [] → w' = [])
    (hu : ∀ r : Run, r.Headed (u' ++ [' ']) → r.Headed (u ++ [' '])) : CoveredWord u' key x w' := by
  cases h with
  | env hkey hx h => exact .env hkey hx (h.imp_right (mt (hu .env)))
  | param hkey hx h => exact .param hkey hx (h.imp_left hw)

end Texts

def Escaped (l : List Text) : Prop := ∃ i k, l = i ++ [k] ∧ ∀ a ∈ i, '\\' ∈ a

structure Between (z : Text) : Prop where
  quoteless : '"' ∉ z
  apart : isColon z = false
  unnamed : ∃ c ∈ z, isWord c = false

inductive Fields : List Text → Prop where
  | nil : Fields []
  | nest (k l : List Text) (z : Text) (hk : Escaped k) (hz : Between z) (hl : Fields l) :
      Fields (k ++ z :: l)
  | field (k v l : List Text) (z : Text) (hk : Escaped k) (hv : Escaped v) (hz : Between z)
      (hl : Fields l) : Fields (k ++ [':'] :: (v ++ z :: l))

section Lines
variable {f : FieldName} {l : List Text}

theorem apart_skip {a : Text} (h : ∀ b ∈ l.head?, f.hit a b = false) (hl : Apart f l) :
    Apart f (a :: l) := by
  match l, h with
  | [], _ => exact trivial
  | [_], _ => exact trivial
  | [_, _], _ => exact trivial
  | [_, _, _], _ => exact trivial
  | b :: _ :: _ :: _ :: _, h => exact ⟨fun hits => absurd hits.1 (by simp [h b rfl]), hl⟩

theorem apart_unnamed (hf : f ∈ jsonNames) {i : List Text}
    (hi : ∀ a ∈ i, ∃ c ∈ a, isWord c = false) (hl : Apart f l) : Apart f (i ++ l) := by
  induction i with
  | nil => exact hl
  | cons a i ih =>
    have ha := unspelled_word hf (hi a List.mem_cons_self)
    exact apart_skip (fun b _ => hit_of_spells ha) (ih fun b hb => hi b (List.mem_cons_of_mem _ hb))

theorem escaped_unnamed {i : List Text} (hi : ∀ a ∈ i, '\\' ∈ a) :
    ∀ a ∈ i, ∃ c ∈ a, isWord c = false := fun a ha => ⟨_, hi a ha, rfl⟩

theorem apart_fields (hf : f ∈ jsonNames) (h : Fields l) : Apart f l := by
  have hlast : ∀ {v z l}, Between z → Apart f l → Apart f (v :: z :: l) := by
    intro v z l hz hl
    refine apart_skip (fun b hb => ?_)
      (apart_skip (fun b _ => hit_of_spells (unspelled_word hf hz.unnamed)) hl)
    rw [← Option.some.inj hb]
    exact hit_of_colon hz.apart
  induction h with
  | nil => exact trivial
  | nest k l z hk hz hl ih =>
    obtain ⟨i, k, rfl, hi⟩ := hk
    rw [List.append_assoc]
    exact apart_unnamed hf (escaped_unnamed hi) (hlast hz ih)
  | field k v l z hk hv hz hl ih =>
    obtain ⟨i, k, rfl, hi⟩ := hk
    obtain ⟨j, v, rfl, hj⟩ := hv
    have hvalue : Apart f ((j ++ [v]) ++ z :: l) := by
      rw [List.append_assoc]
      exact apart_unnamed hf (escaped_unnamed hj) (hlast hz ih)
    have hcolon : Apart f ([':'] :: ((j ++ [v]) ++ z :: l)) :=
      apart_skip (fun b _ => hit_of_spells (unspelled_colon hf rfl)) hvalue
    rw [List.append_assoc]
    refine apart_unnamed hf (escaped_unnamed hi) ?_
    -- the second pair would start with a piece of the value or behind it
    have hz' : ∀ b, f.hit z b = false := fun b => hit_of_spells (unspelled_word hf hz.unnamed)
    match j, hj with
    | [], _ =>
      match l with
      | [] => exact trivial
      | b :: l => exact ⟨fun hits => absurd hits.2 (by simp [hz']), hcolon⟩
    | [a], hj => exact ⟨fun hits => absurd hits.2 (by simp [hit_of_colon hz.apart]), hcolon⟩
    | a :: b :: j, hj =>
      have hb := unspelled_word hf ⟨_, hj b (by simp), rfl⟩
      match j with
      | [] => exact ⟨fun hits => absurd hits.2 (by simp [hit_of_spells hb]), hcolon⟩
      | _ :: _ => exact ⟨fun hits => absurd hits.2 (by simp [hit_of_spells hb]), hcolon⟩

theorem pieces_before {u : Text} (hu : '"' ∉ u) (s : Text) :
    pieces (u ++ s) = (pieces s).modifyHead (u ++ ·) := by
  induction u with
  | nil =>
    obtain ⟨h, l, hl⟩ := List.exists_cons_of_ne_nil (pieces_ne_nil s)
    simp [hl]
  | cons c u ih =>
    rw [List.mem_cons, not_or] at hu
    rw [List.cons_append, pieces_cons, if_neg (Ne.symm hu.1), ih hu.2]
    cases pieces s <;> rfl

theorem escape_quoteless {c : Char} (hc : c ≠ '"') : '"' ∉ escapeChar c := by
  have hdigit : ∀ n < 16, Nat.digitChar n ≠ '"' := by decide
  unfold escapeChar
  split_ifs with h₁ h₂ h₃ h₄ h₅ h₆
  · exact absurd h₁ hc
  all_goals try decide
  · have h₇ := hdigit (c.toNat / 16) (by omega)
    have h₈ := hdigit (c.toNat % 16) (by omega)
    simp [h₇.symm, h₈.symm]
  · simpa using hc.symm

theorem escaped_pieces (s : Text) : Escaped (pieces (jsonEscape s)) := by
  induction s with
  | nil => exact ⟨[], [], rfl, nofun⟩
  | cons c s ih =>
    obtain ⟨i, k, hik, hi⟩ := ih
    have hcons : jsonEscape (c :: s) = escapeChar c ++ jsonEscape s := rfl
    by_cases hc : c = '"'
    · subst hc
      refine ⟨['\\'] :: i, k, ?_, ?_⟩
      · rw [hcons, show escapeChar '"' ++ jsonEscape s = ['\\'] ++ '"' :: jsonEscape s from rfl,
          pieces, List.splitOn_append_cons_self_of_not_mem (by decide)]
        exact congrArg _ hik
      · simpa using hi
    · rw [hcons, pieces_before (escape_quoteless hc), hik]
      cases i with
      | nil => exact ⟨[], escapeChar c ++ k, rfl, nofun⟩
      | cons a i =>
        refine ⟨(escapeChar c ++ a) :: i, k, rfl, fun b hb => ?_⟩
        rcases List.mem_cons.mp hb with rfl | hb
        · exact List.mem_append_right _ (hi a List.mem_cons_self)
        · exact hi b (List.mem_cons_of_mem _ hb)

def rows (z : Text) : List (Text × Text) → List Text
  | [] => []
  | g :: gs => pieces (jsonEscape g.1) ++ [':'] :: (pieces (jsonEscape g.2) ++
      (if gs = [] then z else [',']) :: rows z gs)

theorem quotes_append (l l' : List Text) : quotes (l ++ l') = quotes l ++ quotes l' :=
  List.flatMap_append

theorem quotes_pieces (s : Text) : quotes (pieces s) = '"' :: s := by
  obtain ⟨h, l, hl⟩ := List.exists_cons_of_ne_nil (pieces_ne_nil s)
  have hglue := glue_pieces s
  rw [hl] at hglue ⊢
  rw [← hglue]
  rfl

theorem quotes_rows (z : Text) (g : Text × Text) (gs : List (Text × Text)) :
    quotes (rows z (g :: gs)) = members (g :: gs) ++ z := by
  induction gs generalizing g with
  | nil =>
    rw [rows, quotes_append, quotes_cons, quotes_append, quotes_cons, quotes_pieces, quotes_pieces]
    simp [members, member, quoted, rows, quotes]
  | cons g' gs ih =>
    rw [rows, quotes_append, quotes_cons, quotes_append, quotes_cons, ih, quotes_pieces,
      quotes_pieces]
    simp [members, member, quoted]

theorem between_comma : Between [','] := ⟨by decide, rfl, ',', by decide, rfl⟩

theorem between_brace : Between ['\x7d'] := ⟨by decide, rfl, '\x7d', by decide, rfl⟩

theorem between_braces : Between "\x7d\x7d".toList :=
  ⟨by decide, by decide, '\x7d', by decide, rfl⟩

theorem between_nest : Between ":\x7b".toList := ⟨by decide, by decide, ':', by decide, rfl⟩

theorem fields_rows {z : Text} (hz : Between z) (hl : Fields l) (gs : List (Text × Text)) :
    Fields (rows z gs ++ l) := by
  induction gs with
  | nil => exact hl
  | cons g gs ih =>
    rw [rows, List.append_assoc, List.cons_append, List.append_assoc, List.cons_append]
    refine .field _ _ _ _ (escaped_pieces _) (escaped_pieces _) ?_ ih
    split_ifs
    · exact hz
    · exact between_comma

theorem rows_quotes {z : Text} (hz : Between z) (gs : List (Text × Text)) :
    ∀ a ∈ rows z gs, '"' ∉ a := by
  induction gs with
  | nil => exact nofun
  | cons g gs ih =>
    intro a ha
    simp only [rows, List.mem_append, List.mem_cons] at ha
    rcases ha with ha | rfl | ha | rfl | ha
    · exact pieces_quotes _ a ha
    · decide
    · exact pieces_quotes _ a ha
    · split_ifs
      · exact hz.quoteless
      · exact between_comma.quoteless
    · exact ih a ha

def header (e : LogEvent) : List (Text × Text) :=
  ("level".toList, e.level.text) :: ("component".toList, e.component) ::
    ("message".toList, e.message) ::
    if e.correlationId = [] then [] else [(correlationKey, e.correlationId)]

def jsonPieces (putTime : ℤ → Text) (e : LogEvent) : List Text :=
  ["timestamp".toList, [':'], timestampToIso8601 putTime e.timestamp, [',']] ++
    (rows (if e.fields = [] then ['\x7d'] else [',']) (header e) ++
      if e.fields = [] then []
      else "fields".toList ::
        if shown e.fields = [] then [":\x7b\x7d\x7d".toList]
        else ":\x7b".toList :: rows "\x7d\x7d".toList (shown e.fields))

variable {putTime : ℤ → Text}

theorem header_glue (e : LogEvent) : jsonHeader putTime e =
    '\x7b' :: (quotes ["timestamp".toList, [':'], timestampToIso8601 putTime e.timestamp, [',']] ++
      members (header e)) := by
  have hstart : "\x7b\"timestamp\":".toList = '\x7b' :: '"' :: ("timestamp".toList ++ ['"', ':']) :=
    rfl
  unfold jsonHeader header
  generalize "\x7b\"timestamp\":".toList = start at hstart
  subst hstart
  split_ifs with hid
  · simp only [members, quotes, quoted, List.flatMap_cons, List.flatMap_nil,
      List.append_nil, List.cons_append, List.append_assoc, List.nil_append]
  · simp only [members, quotes, quoted, List.flatMap_cons, List.flatMap_nil,
      List.append_nil, List.cons_append, List.append_assoc, List.nil_append]

theorem json_glue (e : LogEvent) :
    formatAsJson putTime e = glue (['\x7b'] :: jsonPieces putTime e) := by
  have hheader : ∀ z, quotes (rows z (header e)) = members (header e) ++ z :=
    fun z => quotes_rows z _ _
  have hstart : ",\"fields\":\x7b".toList = ',' :: '"' :: ("fields".toList ++ ['"', ':', '\x7b']) :=
    rfl
  have hbraces : "\x7d\x7d".toList = ['\x7d', '\x7d'] := rfl
  have hnest : ":\x7b".toList = [':', '\x7b'] := rfl
  have hnone : ":\x7b\x7d\x7d".toList = [':', '\x7b', '\x7d', '\x7d'] := rfl
  rw [formatAsJson, glue, jsonPieces, quotes_append, quotes_append, hheader, header_glue, hstart,
    hbraces, hnest, hnone]
  by_cases hfields : e.fields = []
  · simp only [hfields, if_true, List.append_nil, List.cons_append, List.append_assoc,
      List.nil_append, quotes, List.flatMap_nil]
  · by_cases hshown : shown e.fields = []
    · simp only [hfields, hshown, if_true, if_false, List.append_nil, List.cons_append,
        List.append_assoc, List.nil_append, quotes, List.flatMap_nil, List.flatMap_cons, members]
    · obtain ⟨g, gs, hgs⟩ := List.exists_cons_of_ne_nil hshown
      simp only [hfields, hgs, if_false, List.cons_append, List.append_assoc, List.nil_append,
        quotes_cons, quotes_rows, List.cons_ne_nil]

theorem int_quoteless (n : ℤ) : '"' ∉ (toString n).toList := by
  have hnat : ∀ m : ℕ, '"' ∉ m.repr.toList := by
    intro m h
    rw [Nat.toList_repr] at h
    exact absurd (Nat.isDigit_of_mem_toDigits (by decide) (by decide) h) (by decide)
  cases n with
  | ofNat m => exact hnat m
  | negSucc m =>
    change '"' ∉ ("-" ++ (m + 1).repr).toList
    rw [String.toList_append, List.mem_append, not_or]
    exact ⟨by decide, hnat _⟩

theorem time_quoteless (hput : ∀ n, '"' ∉ putTime n) (n : ℤ) :
    '"' ∉ timestampToIso8601 putTime n := by
  have hint := int_quoteless ((n.tmod 1000000000).tdiv 1000000)
  simpa [timestampToIso8601, List.leftpad, hput, List.mem_replicate] using hint

theorem json_fields (e : LogEvent) : Fields (jsonPieces putTime e) := by
  have hone : ∀ a, Escaped [a] := fun a => ⟨[], a, rfl, nofun⟩
  have hnone : Between ":\x7b\x7d\x7d".toList := ⟨by decide, by decide, ':', by decide, rfl⟩
  refine .field ["timestamp".toList] [_] _ [','] (hone _) (hone _) between_comma ?_
  refine fields_rows (by split_ifs; exact between_brace; exact between_comma) ?_ _
  split_ifs
  · exact .nil
  · exact .nest ["fields".toList] [] _ (hone _) hnone .nil
  · refine .nest ["fields".toList] _ _ (hone _) between_nest ?_
    have h := fields_rows between_braces .nil (shown e.fields)
    rwa [List.append_nil] at h

theorem jsonPieces_quotes (hput : ∀ n, '"' ∉ putTime n) (e : LogEvent) :
    ∀ a ∈ jsonPieces putTime e, '"' ∉ a := by
  have htime := time_quoteless hput e.timestamp
  intro a ha
  rcases List.mem_append.mp ha with ha | ha
  · simp only [List.mem_cons, List.not_mem_nil, or_false] at ha
    rcases ha with rfl | rfl | rfl | rfl
    · decide
    · decide
    · exact htime
    · decide
  · rcases List.mem_append.mp ha with ha | ha
    · exact rows_quotes (by split_ifs; exact between_brace; exact between_comma) _ a ha
    · split_ifs at ha
      · exact nomatch ha
      · simp only [List.mem_cons, List.not_mem_nil, or_false] at ha
        rcases ha with rfl | rfl <;> decide
      · simp only [List.mem_cons] at ha
        rcases ha with rfl | rfl | ha
        · decide
        · decide
        · exact rows_quotes between_braces _ a ha

theorem pieces_json (hput : ∀ n, '"' ∉ putTime n) (e : LogEvent) :
    pieces (formatAsJson putTime e) = ['\x7b'] :: jsonPieces putTime e := by
  rw [json_glue]
  refine pieces_glue fun a ha => ?_
  rcases List.mem_cons.mp ha with rfl | ha
  · decide
  · exact jsonPieces_quotes hput e a ha

end Lines

section Again
variable {f : FieldName} {l : List Text}

theorem still_quoteless {h t : Text} (hq : '"' ∉ h) (ht : ∀ q, Still (jsonPattern f) q t)
    (q : Option Char) : Still (jsonPattern f) q (h ++ t) := by
  refine still_append (fun x c z hc p out rest hmatch => ?_) ht
  have hne : c ≠ '"' := by
    rintro rfl
    exact hq (by rw [hc]; simp)
  rw [json_quoteless f hne] at hmatch
  exact nomatch hmatch

theorem masked_still (hf : f ∈ jsonNames) (hl : ∀ a ∈ l, '"' ∉ a) (hm : Masked f l)
    (q : Option Char) : Still (jsonPattern f) q (quotes l) := by
  induction l generalizing q with
  | nil => exact trivial
  | cons a l ih =>
    have hrest := ih (fun b hb => hl b (List.mem_cons_of_mem _ hb)) (masked_tail hm)
    have hstands : Stands (jsonPattern f) q (quotes (a :: l)) := by
      intro out rest hmatch
      obtain ⟨a, b, c, d, l', hcons, hhit, rfl, rfl⟩ := match_quotes hf hl hmatch
      rw [hcons] at hm
      obtain ⟨rfl, rfl, rfl⟩ := hm.1 hhit
      rw [hcons]
      simp [quotes_cons, FieldName.masked, colon]
    exact ⟨hstands, still_quoteless (hl a List.mem_cons_self) hrest _⟩

/-- Redacting a line again changes nothing where the names of a field stand apart. -/
theorem redact_again (s : Text) (h : ∀ f ∈ jsonNames, Apart f (pieces s).tail) :
    redactSecrets (redactSecrets s) = redactSecrets s := by
  rw [redact_append s, (replace_json s).1]
  refine redact_stable _ fun f hf => ?_
  have hquotes := (replace_json s).2
  obtain ⟨a, l, hl⟩ := List.exists_cons_of_ne_nil (pieces_ne_nil s)
  rw [hl] at h hquotes ⊢
  refine still_quoteless (hquotes a List.mem_cons_self) (masked_still hf ?_ ?_) none
  · exact fun b hb => hquotes b (List.mem_cons_of_mem _ hb)
  · exact masked_all (fun f hf => hf) json_pairwise h f hf

end Again

def LogEvent.withField (e : LogEvent) (before after : List (Text × Text)) (key value : Text) :
    LogEvent :=
  { e with fields := before ++ (key, value) :: after }

def fieldsText (fields : List (Text × Text)) : Text :=
  fields.flatMap fun f => ' ' :: f.1 ++ '=' :: f.2

def textFront (putTime : ℤ → Text) (e : LogEvent) (before : List (Text × Text)) : Text :=
  textHeader putTime e ++ fieldsText before

/-- The values differ only in what is masked. In a JSON line the key has a pattern, and the
values go on in the same way from their first quote on. In a text line what follows the key
begins with a covered word and goes on in the same way; the words have no quotes, or the
lines have no names between quotes. -/
inductive Covered (putTime : ℤ → Text) (e : LogEvent) (before after : List (Text × Text))
    (key : Text) : Bool → Text → Text → Prop where
  | json (f : FieldName) (v v' : Text) (hf : f ∈ jsonNames)
      (hkey : spells f.icase f.name key = true)
      (hv : v.dropWhile (· ≠ '"') = v'.dropWhile (· ≠ '"')) :
      Covered putTime e before after key true v v'
  | text (v v' x x' w : Text) (hv : v ++ fieldsText after = x ++ w)
      (hv' : v' ++ fieldsText after = x' ++ w) (hw : Ends w)
      (hc : CoveredWord (textFront putTime e before) key x w)
      (hc' : CoveredWord (textFront putTime e before) key x' w)
      (hq : ('"' ∉ x ∧ '"' ∉ x') ∨ Plain (formatAsText putTime (e.withField before after key v)) ∧
        Plain (formatAsText putTime (e.withField before after key v'))) :
      Covered putTime e before after key false v v'

/-- No two names of one field stand so close in a text line that a match ends where the next
would begin; in a JSON line they never do. -/
def Steady (putTime : ℤ → Text) (jsonFormat : Bool) (e : LogEvent) : Prop :=
  jsonFormat = false → ∀ f ∈ jsonNames, Apart f (pieces (formatAsText putTime e)).tail

section Traces
variable {putTime : ℤ → Text} {key v v' : Text} {before after : List (Text × Text)}

/-- A steady line is left as it is when it is redacted again. -/
theorem steady_again {jsonFormat : Bool} {e : LogEvent} (h : Steady putTime jsonFormat e)
    (hput : ∀ n, '"' ∉ putTime n) : redactSecrets (formatEvent putTime jsonFormat e) =
      formatEvent putTime jsonFormat e := by
  refine redact_again _ fun f hf => ?_
  cases jsonFormat with
  | true =>
    have hfields : Fields (jsonPieces putTime e) := json_fields e
    rw [if_pos rfl, pieces_json hput]
    exact apart_fields hf hfields
  | false => exact h rfl f hf

end Traces

def login : LogEvent := ⟨.info, 0, "rest".toList, "login".toList, [], []⟩

end TB.Redaction
