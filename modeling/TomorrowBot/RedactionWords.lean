import TomorrowBot.RedactionSegments

/-!
# Names and the words behind them

The last three patterns read a name, what stands between it and a value, and a word. They
put a mark where the word was, and neither they nor the patterns of the fields find more to
replace afterwards.
-/

set_option autoImplicit false

namespace TB.Redaction

inductive Run where
  | env
  | bearer
  | param

def bearerAlone : Pattern := { bearerPattern with alternatives := [bearer] }

def Run.pattern : Run → Pattern
  | .env => envPattern
  | .bearer => bearerAlone
  | .param => tokenParamPattern

def Run.names : Run → List Text
  | .env => envNames
  | .bearer => ["Bearer".toList]
  | .param => paramNames

def Run.parts : Run → List Part
  | .env => [.many false isSpace, .one false (· = '='), .many false isSpace]
  | .bearer => [.one true isSpace, .many true isSpace]
  | .param => [.many true isSpace, .one true (· = '=')]

def Run.Name (r : Run) (a : Text) : Prop := ∃ n ∈ r.names, spells true n a = true

def Blank (b : Text) : Prop := ∀ c ∈ b, isSpace c = true

structure Word (w : Text) : Prop where
  solid : ∀ c ∈ w, isSpace c = false
  ne_nil : w ≠ []

def Ends (s : Text) : Prop := ∀ c ∈ s.head?, isSpace c = true

/-- What stands between a name and a word, and what the pattern writes for it. -/
inductive Tail : Run → Text → Text → Prop where
  | env (b b' : Text) (hb : Blank b) (hb' : Blank b') : Tail .env (b ++ '=' :: b') ['=']
  | bearer (b : Text) (hb : Blank b) (hne : b ≠ []) : Tail .bearer b b
  | param (b : Text) (hb : Blank b) : Tail .param (b ++ ['=']) (b ++ ['='])

section Spans
variable {s s' : Text}

theorem Word.head {w : Text} (h : Word w) (s : Text) :
    ∀ c ∈ (w ++ s).head?, isSpace c = false := by
  intro c hc
  match w, h with
  | [], h => exact absurd rfl h.ne_nil
  | d :: w, h => exact h.solid c (by simp_all)

theorem word_unique {w w' : Text} (hw : Word w) (hs : Ends s) (hw' : Word w') (hs' : Ends s')
    (h : w ++ s = w' ++ s') : w = w' ∧ s = s' := by
  have hp : ∀ {u : Text}, Word u → ∀ c ∈ u, (!isSpace c) = true := by
    intro u hu c hc
    rw [hu.solid c hc]
    rfl
  have hq : ∀ {u : Text}, Ends u → ∀ c ∈ u.head?, (!isSpace c) = false := by
    intro u hu c hc
    rw [hu c hc]
    rfl
  exact span_unique (hp hw) (hq hs) (hp hw') (hq hs') h

end Spans

section Heads
variable {r : Run} {a e o w s : Text} {x : Text × Text}

theorem matchParts_word : matchParts word s = some x ↔
    ∃ w rest, s = w ++ rest ∧ Word w ∧ Ends rest ∧ x = ([], rest) := by
  rw [word, matchParts_one]
  constructor
  · rintro ⟨c, t, y, rfl, hc, hy, rfl⟩
    obtain rfl := Option.some.inj hy
    obtain ⟨htake, hdrop, hsplit⟩ := span_split (fun c => !isSpace c) t
    refine ⟨c :: t.takeWhile fun c => !isSpace c, _, by rw [List.cons_append, ← hsplit],
      ⟨fun d hd => ?_, List.cons_ne_nil _ _⟩, fun d hd => by simpa using hdrop d hd, rfl⟩
    rcases List.mem_cons.mp hd with rfl | hd
    · simpa using hc
    · simpa using htake d hd
  · rintro ⟨w, rest, rfl, hw, hrest, rfl⟩
    match w, hw with
    | [], hw => exact absurd rfl hw.ne_nil
    | c :: w, hw =>
      refine ⟨c, w ++ rest, ([], rest), rfl, by simp [hw.solid c], ?_, rfl⟩
      have hdrop : (w ++ rest).dropWhile (fun c => !isSpace c) = rest :=
        span_drop (fun d hd => by simp [hw.solid d (by simp [hd])])
          fun d hd => by simp [hrest d hd]
      rw [matchParts, hdrop]
      rfl

def Run.kept : Run → Text → Text
  | .env, _ => []
  | _, e => e

theorem matchParts_tail (r : Run) : matchParts (r.parts ++ word) s = some x ↔
    ∃ e o w rest, Tail r e o ∧ Word w ∧ Ends rest ∧ s = e ++ (w ++ rest) ∧
      x = (r.kept e, rest) := by
  constructor
  · intro h
    cases r with
    | env =>
      obtain ⟨y₁, h₁, rfl⟩ := (matchParts_many _ _).mp h
      obtain ⟨c, t, y₂, ht, hc, h₂, rfl⟩ := (matchParts_one _ _).mp h₁
      obtain ⟨y₃, h₃, rfl⟩ := (matchParts_many _ _).mp h₂
      obtain ⟨w, rest, hw', hw, hrest, rfl⟩ := matchParts_word.mp h₃
      obtain ⟨hb, -, hsplit⟩ := span_split isSpace s
      obtain ⟨hb', -, hsplit'⟩ := span_split isSpace t
      rw [decide_eq_true_eq] at hc
      subst hc
      refine ⟨_, _, w, rest, .env _ _ hb hb', hw, hrest, ?_, rfl⟩
      rw [← hw', List.append_assoc, List.cons_append, ← hsplit', ← ht, ← hsplit]
    | bearer =>
      obtain ⟨c, t, y₁, rfl, hc, h₁, rfl⟩ := (matchParts_one _ _).mp h
      obtain ⟨y₂, h₂, rfl⟩ := (matchParts_many _ _).mp h₁
      obtain ⟨w, rest, hw', hw, hrest, rfl⟩ := matchParts_word.mp h₂
      obtain ⟨hb, -, hsplit⟩ := span_split isSpace t
      have hblank : Blank (c :: t.takeWhile isSpace) := by
        intro d hd
        rcases List.mem_cons.mp hd with rfl | hd
        · exact hc
        · exact hb d hd
      refine ⟨_, _, w, rest, .bearer _ hblank (List.cons_ne_nil _ _), hw, hrest, ?_, ?_⟩
      · rw [← hw', List.cons_append, ← hsplit]
      · simp [Run.kept]
    | param =>
      obtain ⟨y₁, h₁, rfl⟩ := (matchParts_many _ _).mp h
      obtain ⟨c, t, y₂, ht, hc, h₂, rfl⟩ := (matchParts_one _ _).mp h₁
      obtain ⟨w, rest, rfl, hw, hrest, rfl⟩ := matchParts_word.mp h₂
      obtain ⟨hb, -, hsplit⟩ := span_split isSpace s
      rw [decide_eq_true_eq] at hc
      subst hc
      refine ⟨_, _, w, rest, .param _ hb, hw, hrest, ?_, ?_⟩
      · rw [List.append_assoc, List.singleton_append, ← ht, ← hsplit]
      · simp [Run.kept]
  · rintro ⟨e, o, w, rest, htail, hw, hrest, rfl, rfl⟩
    have hword : matchParts word (w ++ rest) = some ([], rest) :=
      matchParts_word.mpr ⟨w, rest, rfl, hw, hrest, rfl⟩
    have hequals : ∀ t, ∀ c ∈ ('=' :: t).head?, isSpace c = false := by
      rintro t c hc
      obtain rfl := Option.some.inj hc
      decide
    cases htail with
    | env b b' hb hb' =>
      have hblank : matchParts (.many false isSpace :: word) (b' ++ (w ++ rest)) =
          some ([], rest) :=
        (matchParts_many _ _).mpr ⟨_, by rw [span_drop hb' (hw.head rest), hword], rfl⟩
      refine (matchParts_many _ _).mpr ⟨([], rest), ?_, rfl⟩
      rw [List.append_assoc, List.cons_append, span_drop hb (hequals _)]
      exact (matchParts_one _ _).mpr ⟨_, _, ([], rest), rfl, rfl, hblank, rfl⟩
    | bearer b hb hne =>
      match e, hb, hne with
      | c :: b, hb, _ =>
        have hb' : ∀ d ∈ b, isSpace d = true := fun d hd => hb d (List.mem_cons_of_mem _ hd)
        refine (matchParts_one _ _).mpr ⟨c, b ++ (w ++ rest), (b, rest), rfl,
          hb c List.mem_cons_self, ?_, rfl⟩
        refine (matchParts_many _ _).mpr ⟨([], rest), ?_, ?_⟩
        · rw [span_drop hb' (hw.head rest)]
          exact hword
        · rw [span_take hb' (hw.head rest)]
          simp
    | param b hb =>
      refine (matchParts_many _ _).mpr ⟨(['='], rest), ?_, ?_⟩
      · rw [List.append_assoc, List.singleton_append, span_drop hb (hequals _)]
        exact (matchParts_one _ _).mpr ⟨_, _, ([], rest), rfl, rfl, hword, rfl⟩
      · rw [List.append_assoc, List.singleton_append, span_take hb (hequals _)]
        rfl

theorem Run.Name.word (h : r.Name a) : ∀ c ∈ a, isWord c = true := by
  have hnames : ∀ n ∈ r.names, n.all (fun c => isWord c.toLower) = true := by
    cases r <;> decide
  obtain ⟨n, hn, hspells⟩ := h
  exact spells_word hspells (List.all_eq_true.mp (hnames n hn))

theorem Run.Name.ne_nil (h : r.Name a) : a ≠ [] := by
  have hnames : ∀ n ∈ r.names, n ≠ [] := by cases r <;> decide
  obtain ⟨n, hn, hspells⟩ := h
  rintro rfl
  exact hnames n hn (List.map_eq_nil_iff.mp (spells_lower hspells).symm)

theorem space_word {c : Char} (h : isSpace c = true) : isWord c = false := by
  simp only [isSpace, List.mem_cons, List.not_mem_nil, or_false, decide_eq_true_eq] at h
  rcases h with rfl | rfl | rfl | rfl | rfl | rfl <;> rfl

theorem Tail.chars (h : Tail r e o) : ∀ c ∈ e, isSpace c = true ∨ c = '=' := by
  intro c hc
  cases h with
  | env b b' hb hb' =>
    rcases List.mem_append.mp hc with hc | hc
    · exact .inl (hb c hc)
    · rcases List.mem_cons.mp hc with rfl | hc
      · exact .inr rfl
      · exact .inl (hb' c hc)
  | bearer b hb hne => exact .inl (hb c hc)
  | param b hb =>
    rcases List.mem_append.mp hc with hc | hc
    · exact .inl (hb c hc)
    · exact .inr (List.mem_singleton.mp hc)

theorem Tail.not_word (h : Tail r e o) : ∀ c ∈ e, isWord c = false := by
  intro c hc
  rcases h.chars c hc with hs | rfl
  · exact space_word hs
  · rfl

theorem Tail.ne_nil (h : Tail r e o) : e ≠ [] := by
  cases h with
  | env b b' hb hb' => simp
  | bearer b hb hne => exact hne
  | param b hb => simp

theorem Tail.self (h : Tail r e o) : Tail r o o := by
  have hnil : Blank [] := fun c hc => nomatch hc
  cases h with
  | env b b' hb hb' => exact .env [] [] hnil hnil
  | bearer b hb hne => exact .bearer e hb hne
  | param b hb => exact .param b hb

theorem Tail.head (h : Tail r e o) (s : Text) : ∀ c ∈ (e ++ s).head?, isWord c = false := by
  intro c hc
  match e, h with
  | [], h => exact absurd rfl h.ne_nil
  | d :: e, h => exact h.not_word c (by simp_all)

theorem tail_unique {e' o' s' : Text} (h : Tail r e o) (h' : Tail r e' o')
    (hs : ∀ c ∈ s.head?, isSpace c = false) (hs' : ∀ c ∈ s'.head?, isSpace c = false)
    (heq : e ++ s = e' ++ s') : e = e' ∧ o = o' ∧ s = s' := by
  have hequals : ∀ t, ∀ c ∈ ('=' :: t).head?, isSpace c = false := by
    rintro t c hc
    obtain rfl := Option.some.inj hc
    decide
  cases h with
  | env b d hb hd =>
    cases h' with
    | env b' d' hb' hd' =>
      rw [List.append_assoc, List.append_assoc] at heq
      obtain ⟨rfl, hequal⟩ := span_unique hb (hequals _) hb' (hequals _) heq
      obtain ⟨rfl, rfl⟩ := span_unique hd hs hd' hs' (List.cons.inj hequal).2
      exact ⟨rfl, rfl, rfl⟩
  | bearer b hb hne =>
    cases h' with
    | bearer b' hb' hne' =>
      obtain ⟨rfl, rfl⟩ := span_unique hb hs hb' hs' heq
      exact ⟨rfl, rfl, rfl⟩
  | param b hb =>
    cases h' with
    | param b' hb' =>
      rw [List.append_assoc, List.append_assoc] at heq
      obtain ⟨rfl, hequal⟩ := span_unique hb (hequals _) hb' (hequals _) heq
      exact ⟨rfl, rfl, (List.cons.inj hequal).2⟩

inductive Run.Reads (r : Run) : Text → Text → Text → Prop where
  | read (a e o w s : Text) (ha : r.Name a) (he : Tail r e o) (hw : Word w) (hs : Ends s) :
      Run.Reads r (a ++ (e ++ (w ++ s))) (a ++ (o ++ redacted)) s

theorem name_unique {a' e' o' s' : Text} (ha : r.Name a) (he : Tail r e o) (ha' : r.Name a')
    (he' : Tail r e' o') (h : a ++ (e ++ s) = a' ++ (e' ++ s')) : a = a' ∧ e ++ s = e' ++ s' :=
  span_unique ha.word (he.head s) ha'.word (he'.head s') h

theorem reads_unique {out out' rest rest' : Text} (h : r.Reads s out rest)
    (h' : r.Reads s out' rest') : out = out' ∧ rest = rest' := by
  obtain ⟨a, e, o, w, rest, ha, he, hw, hs⟩ := h
  generalize hu : a ++ (e ++ (w ++ rest)) = u at h'
  obtain ⟨a', e', o', w', rest', ha', he', hw', hs'⟩ := h'
  obtain ⟨rfl, heq⟩ := name_unique ha he ha' he' hu
  obtain ⟨rfl, rfl, heq⟩ := tail_unique he he' (hw.head _) (hw'.head _) heq
  exact ⟨rfl, (word_unique hw hs hw' hs' heq).2⟩

def Run.StartsAfter (r : Run) (prev : Option Char) : Prop := r.pattern.boundary = true →
  prev.any isWord = false

theorem match_run (r : Run) (prev : Option Char) (s out rest : Text) :
    r.pattern.matchAt prev s = some (out, rest) ↔ r.StartsAfter prev ∧ r.Reads s out rest := by
  have halternatives : r.pattern.alternatives =
      r.names.map fun n => literal true true n ++ (r.parts ++ word) := by
    cases r <;> simp [Run.pattern, envPattern, bearerAlone, tokenParamPattern, bearer, Run.names,
      Run.parts]
  have hone : ∀ n out rest, (matchParts (literal true true n ++ (r.parts ++ word)) s).map
      (fun x => (r.pattern.replacement x.1, x.2)) = some (out, rest) ↔
        ∃ a e o w, spells true n a = true ∧ Tail r e o ∧ Word w ∧ Ends rest ∧
          s = a ++ (e ++ (w ++ rest)) ∧ out = a ++ (o ++ redacted) := by
    intro n out rest
    have hout : ∀ a {e o}, Tail r e o →
        r.pattern.replacement (a ++ r.kept e) = a ++ (o ++ redacted) := by
      intro a e o he
      cases he <;> simp [Run.pattern, envPattern, bearerAlone, bearerPattern, tokenParamPattern,
        Run.kept]
    rw [Option.map_eq_some_iff]
    constructor
    · rintro ⟨x, hx, hxout⟩
      obtain ⟨a, t, y, rfl, ha, hy, rfl⟩ := (matchParts_literal _ _ _).mp hx
      obtain ⟨e, o, w, rest, he, hw, hrest, rfl, rfl⟩ := (matchParts_tail r).mp hy
      obtain ⟨rfl, rfl⟩ := Prod.mk.inj hxout
      exact ⟨a, e, o, w, ha, he, hw, hrest, rfl, hout a he⟩
    · rintro ⟨a, e, o, w, ha, he, hw, hrest, rfl, rfl⟩
      refine ⟨(a ++ r.kept e, rest), (matchParts_literal _ _ _).mpr
        ⟨a, _, (r.kept e, rest), rfl, ha, ?_, rfl⟩, by rw [hout a he]⟩
      exact (matchParts_tail r).mpr ⟨e, o, w, rest, he, hw, hrest, rfl, rfl⟩
  have hsome : ∀ out rest, r.pattern.alternatives.findSome? (fun parts =>
      (matchParts parts s).map fun x => (r.pattern.replacement x.1, x.2)) = some (out, rest) →
        r.Reads s out rest := by
    intro out rest h
    obtain ⟨parts, hparts, h⟩ := List.exists_of_findSome?_eq_some h
    rw [halternatives] at hparts
    obtain ⟨n, hn, rfl⟩ := List.mem_map.mp hparts
    obtain ⟨a, e, o, w, ha, he, hw, hrest, rfl, rfl⟩ := (hone n out rest).mp h
    exact .read a e o w rest ⟨n, hn, ha⟩ he hw hrest
  rw [Pattern.matchAt]
  split_ifs with hb
  · refine iff_of_false (by simp) fun h => ?_
    rw [Bool.and_eq_true] at hb
    rw [h.1 hb.1] at hb
    exact absurd hb.2 Bool.false_ne_true
  · have hstart : r.StartsAfter prev := by
      intro hboundary
      rw [hboundary, Bool.true_and] at hb
      simpa using hb
    refine ⟨fun h => ⟨hstart, hsome out rest h⟩, fun h => ?_⟩
    cases hfound : r.pattern.alternatives.findSome? fun parts =>
      (matchParts parts s).map fun x => (r.pattern.replacement x.1, x.2) with
    | none =>
      obtain ⟨a, e, o, w, rest, ⟨n, hn, ha⟩, he, hw, hs⟩ := h.2
      rw [List.findSome?_eq_none_iff, halternatives] at hfound
      have hnone := hfound _ (List.mem_map_of_mem hn)
      rw [(hone n _ rest).mpr ⟨a, e, o, w, ha, he, hw, hs, rfl, rfl⟩] at hnone
      exact absurd hnone (Option.some_ne_none _)
    | some x =>
      obtain ⟨rfl, rfl⟩ := reads_unique (hsome x.1 x.2 hfound) h.2
      rfl

end Heads

inductive Scan (r : Run) : Option Char → Text → Text → Prop where
  | nil (p : Option Char) : Scan r p [] []
  | keep (p : Option Char) (c : Char) (s t : Text) (h : r.pattern.matchAt p (c :: s) = none)
      (hs : Scan r (some c) s t) : Scan r p (c :: s) (c :: t)
  | put (p q : Option Char) (a e o w s t : Text) (hp : r.StartsAfter p) (ha : r.Name a)
      (he : Tail r e o) (hw : Word w) (hs : Ends s) (h : Scan r q s t) :
      Scan r p (a ++ (e ++ (w ++ s))) (a ++ (o ++ (redacted ++ t)))

section Scans
variable {r : Run} {p q : Option Char} {s t u y z : Text}

theorem replace_put {a e o w : Text} (hp : r.StartsAfter p) (ha : r.Name a) (he : Tail r e o)
    (hw : Word w) (hs : Ends s) : ∃ q, replaceFrom r.pattern p 0 (a ++ (e ++ (w ++ s))) =
      a ++ (o ++ (redacted ++ replaceFrom r.pattern q 0 s)) := by
  obtain ⟨c, b, rfl⟩ := List.exists_cons_of_ne_nil ha.ne_nil
  have hmatch := (match_run r p _ _ _).mpr ⟨hp, .read (c :: b) e o w s ha he hw hs⟩
  have hline : c :: b ++ (e ++ (w ++ s)) = c :: (b ++ (e ++ w)) ++ s := by simp
  rw [hline] at hmatch ⊢
  refine ⟨(b ++ (e ++ w)).getLast?.or (some c), ?_⟩
  rw [replaceFrom_some _ _ _ _ _ hmatch]
  simp only [List.append_assoc]

theorem scan (r : Run) : ∀ (n : ℕ) (p : Option Char) (s : Text), s.length ≤ n →
    Scan r p s (replaceFrom r.pattern p 0 s)
  | _, p, [], _ => .nil p
  | n + 1, p, c :: s, hn => by
    cases hmatch : r.pattern.matchAt p (c :: s) with
    | none =>
      rw [replaceFrom_none _ _ _ _ hmatch]
      exact .keep p c s _ hmatch (scan r n (some c) s (Nat.le_of_succ_le_succ hn))
    | some x =>
      obtain ⟨out, rest⟩ := x
      obtain ⟨hp, hreads⟩ := (match_run r p _ out rest).mp hmatch
      generalize c :: s = u at hreads hn
      obtain ⟨a, e, o, w, rest, ha, he, hw, hs⟩ := hreads
      obtain ⟨q, hq⟩ := replace_put hp ha he hw hs
      have hlength : rest.length ≤ n := by
        have hpos := List.length_pos_of_ne_nil ha.ne_nil
        simp only [List.length_append] at hn
        omega
      rw [hq]
      exact .put p q a e o w rest _ hp ha he hw hs (scan r n q rest hlength)

theorem Scan.mem {c : Char} (hc : c ∉ redacted) (h : Scan r p s t) (ht : c ∈ t) : c ∈ s := by
  induction h with
  | nil p => exact ht
  | keep p d s t _ _ ih =>
    rcases List.mem_cons.mp ht with rfl | ht
    · exact List.mem_cons_self
    · exact List.mem_cons_of_mem _ (ih ht)
  | put p q a e o w s t hp ha he hw hs _ ih =>
    have ho : c ∈ o → c ∈ e := by
      cases he with
      | env b b' hb hb' => simp +contextual
      | bearer b hb hne => exact id
      | param b hb => exact id
    simp only [List.mem_append] at ht ⊢
    rcases ht with ht | ht | ht | ht
    · exact .inl ht
    · exact .inr (.inl (ho ht))
    · exact absurd ht hc
    · exact .inr (.inr (.inr (ih ht)))

theorem Scan.word_kept {d : Char} (hd : isWord d = false) (hne : isSpace d = false)
    (heq : d ≠ '=') (hy : ∀ c ∈ y, isWord c = true) (h : Scan r p (y ++ d :: s) t) :
    ∃ u, t = y ++ d :: u ∧ Scan r (some d) s u := by
  induction y generalizing p t with
  | nil =>
    generalize hx : [] ++ d :: s = x at h
    cases h with
    | nil p => exact nomatch hx
    | keep p c s t _ h =>
      obtain ⟨rfl, rfl⟩ := List.cons.inj hx
      exact ⟨t, rfl, h⟩
    | put p q a e o w s' t hp ha he =>
      match a, ha with
      | [], ha => exact absurd rfl ha.ne_nil
      | c :: a, ha =>
        rw [(List.cons.inj hx).1, ha.word c List.mem_cons_self] at hd
        exact nomatch hd
  | cons c y ih =>
    have hy' : ∀ c ∈ y, isWord c = true := fun c hc => hy c (List.mem_cons_of_mem _ hc)
    generalize hx : c :: y ++ d :: s = x at h
    cases h with
    | nil p => exact nomatch hx
    | keep p c' s' t _ h =>
      obtain ⟨rfl, rfl⟩ := List.cons.inj hx
      obtain ⟨u, rfl, hu⟩ := ih hy' h
      exact ⟨u, rfl, hu⟩
    | put p q a e o w s' t hp ha he =>
      obtain ⟨-, hrest⟩ := span_unique hy (fun b hb => by simp_all) ha.word (he.head _) hx
      match e, he with
      | [], he => exact absurd rfl he.ne_nil
      | b :: e, he =>
        rcases he.chars b List.mem_cons_self with hs | hs
        · rw [← (List.cons.inj hrest).1, hne] at hs
          exact nomatch hs
        · exact absurd ((List.cons.inj hrest).1.trans hs) heq

theorem Scan.mark (h : Scan r p (redacted ++ s) t) :
    ∃ u, t = redacted ++ u ∧ Scan r (some ']') s u := by
  have hword : ∀ c ∈ "REDACTED".toList, isWord c = true := List.all_eq_true.mp (by decide)
  have hfirst : Scan r p ([] ++ '[' :: ("REDACTED".toList ++ ']' :: s)) t := h
  obtain ⟨v, rfl, hv⟩ := hfirst.word_kept rfl rfl (by decide) (by simp)
  obtain ⟨u, rfl, hu⟩ := hv.word_kept rfl rfl (by decide) hword
  exact ⟨u, rfl, hu⟩

end Scans

def Stands (m : Pattern) (p : Option Char) (s : Text) : Prop :=
  ∀ out rest, m.matchAt p s = some (out, rest) → s = out ++ rest

def Still (m : Pattern) : Option Char → Text → Prop
  | _, [] => True
  | p, c :: s => Stands m p (c :: s) ∧ Still m (some c) s

section Stills
variable {r : Run} {m : Pattern} {f : FieldName} {p q : Option Char} {s t u y z : Text}

theorem still_replace (hm : ∀ x, m.replacement x ≠ []) (h : Still m p s) (skip : ℕ)
    (hskip : skip ≤ s.length) : replaceFrom m p skip s = s.drop skip := by
  induction s generalizing p skip with
  | nil => cases skip <;> rfl
  | cons c s ih =>
    cases skip with
    | succ skip => exact ih h.2 skip (Nat.le_of_succ_le_succ hskip)
    | zero =>
      cases hmatch : m.matchAt p (c :: s) with
      | none => rw [replaceFrom_none _ _ _ _ hmatch, ih h.2 0 (Nat.zero_le _)]; rfl
      | some x =>
        obtain ⟨out, rest⟩ := x
        have hstands := h.1 out rest hmatch
        have hout : out ≠ [] := by
          rw [Pattern.matchAt] at hmatch
          split_ifs at hmatch
          obtain ⟨parts, -, h⟩ := List.exists_of_findSome?_eq_some hmatch
          obtain ⟨x, -, hx⟩ := Option.map_eq_some_iff.mp h
          rw [← (Prod.mk.inj hx).1]
          exact hm x.1
        obtain ⟨d, out, rfl⟩ := List.exists_cons_of_ne_nil hout
        have hs : s = out ++ rest := (List.cons.inj hstands).2
        rw [replaceFrom, hmatch]
        dsimp only
        rw [ih h.2 _ (Nat.sub_le _ _)]
        rw [hs, List.length_append, Nat.add_sub_cancel, List.drop_left, ← hs]
        exact hstands.symm

theorem still_append (h : ∀ x c z', y = x ++ c :: z' → ∀ q, Stands m q (c :: (z' ++ z)))
    (hz : ∀ q, Still m q z) : Still m p (y ++ z) := by
  induction y generalizing p with
  | nil => exact hz p
  | cons c y ih =>
    exact ⟨h [] c y rfl p, ih fun x d z' hy => h (c :: x) d z' (by rw [hy]; rfl)⟩

theorem still_drop (h : Still m p (y ++ z)) : ∃ q, Still m q z := by
  induction y generalizing p with
  | nil => exact ⟨p, h⟩
  | cons c y ih => exact ih h.2

theorem still_prev (hm : m.boundary = false) (h : Still m p s) : Still m q s := by
  cases s with
  | nil => exact trivial
  | cons c s =>
    refine ⟨fun out rest hmatch => h.1 out rest ?_, h.2⟩
    rw [← hmatch]
    simp [Pattern.matchAt, hm]

theorem cut_apart {c d : Char} (hcd : c ≠ d) (hc : c ∉ y) (hd : d ∉ u) :
    u ++ c :: s ≠ y ++ d :: z := by
  intro h
  rcases List.append_eq_append_iff.mp h with ⟨v, rfl, hv⟩ | ⟨v, rfl, hv⟩
  · cases v with
    | nil => exact hcd (List.cons.inj hv).1
    | cons b v => exact hc (by rw [(List.cons.inj hv).1]; simp)
  · cases v with
    | nil => exact hcd (List.cons.inj hv).1.symm
    | cons b v => exact hd (by rw [(List.cons.inj hv).1]; simp)

theorem written_chars {a e o : Text} (ha : r.Name a) (he : Tail r e o) {c : Char}
    (hc : isWord c = false ∧ isSpace c = false ∧ c ≠ '=') : c ∉ a ++ o := by
  intro h
  rcases List.mem_append.mp h with h | h
  · rw [ha.word c h] at hc
    exact nomatch hc.1
  · rcases he.self.chars c h with h | h
    · rw [h] at hc
      exact nomatch hc.2.1
    · exact hc.2.2 h

theorem Scan.piece (h : Scan r p s (y ++ '"' :: z)) (hmark : '[' ∉ y) (hy : '"' ∉ y) :
    ∃ q s', s = y ++ '"' :: s' ∧ Scan r q s' z := by
  generalize hx : y ++ '"' :: z = x at h
  induction h generalizing y with
  | nil p => exact absurd hx (by simp)
  | keep p c s t _ h ih =>
    cases y with
    | nil =>
      obtain ⟨rfl, rfl⟩ := List.cons.inj hx
      exact ⟨_, s, rfl, h⟩
    | cons d y =>
      obtain ⟨rfl, hx'⟩ := List.cons.inj hx
      rw [List.mem_cons, not_or] at hmark hy
      obtain ⟨q, s', rfl, h'⟩ := ih hmark.2 hy.2 hx'
      exact ⟨q, s', rfl, h'⟩
  | put p q a e o w s t hp ha he =>
    have hquote : '"' ∉ a ++ o := written_chars ha he ⟨rfl, rfl, by decide⟩
    have hsplit : a ++ o ++ '[' :: ("REDACTED]".toList ++ t) = y ++ '"' :: z := by
      rw [hx, List.append_assoc]
      rfl
    exact absurd hsplit (cut_apart (by decide) hmark hquote)

theorem still_json (hf : f ∈ jsonNames) (h : Scan r p s t) (hs : Still (jsonPattern f) q s) :
    Still (jsonPattern f) q t := by
  induction h generalizing q with
  | nil p => exact trivial
  | keep p c s t _ h ih =>
    refine ⟨fun out rest hmatch => ?_, ih hs.2⟩
    obtain ⟨a, b, x, ht, hhit, hx, rfl⟩ := (json_match_iff _ _ _ _ _).mp hmatch
    obtain ⟨rfl, rfl⟩ := List.cons.inj ht
    have hq := hit_quotes hf hhit
    have hhit' := hhit
    rw [FieldName.hit, Bool.and_eq_true] at hhit'
    have ha : '[' ∉ a := fun h => absurd (json_spelled hf hhit'.1 _ h) (by decide)
    have hb : '[' ∉ b := fun h => absurd ((colon_chars hhit'.2).2 _ h) (by decide)
    obtain ⟨q₁, s₁, rfl, h₁⟩ := h.piece ha hq.1
    obtain ⟨q₂, s₂, rfl, h₂⟩ := h₁.piece hb hq.2
    have hmem : '"' ∈ s₂ := h₂.mem (by decide) (by simp)
    obtain ⟨x₀, rest₀, rfl, hx₀⟩ := List.eq_append_cons_of_mem hmem
    have hstands := hs.1 _ _ ((json_match_iff f _ _ _ _).mpr
      ⟨a, b, x₀, rfl, hhit, hx₀, rfl⟩)
    have hmasked : f.masked ++ rest₀ =
        '"' :: (f.name ++ '"' :: (colon ++ '"' :: (redacted ++ '"' :: rest₀))) := by
      simp [FieldName.masked, colon]
    rw [hmasked] at hstands
    have hname : '"' ∉ f.name := fun h =>
      absurd (json_spelled hf (spells_self _ _) _ h) (by decide)
    obtain ⟨rfl, htail⟩ := cut_unique hq.1 hname (List.cons.inj hstands).2
    obtain ⟨rfl, htail'⟩ := cut_unique hq.2 (by decide) htail
    obtain ⟨rfl, -⟩ := cut_unique hx₀ (by decide) htail'
    obtain ⟨v, hv, h₃⟩ := h₂.mark
    have hquote : Scan r (some ']') ([] ++ '"' :: rest₀) v := h₃
    obtain ⟨v, rfl, -⟩ := hquote.word_kept rfl rfl (by decide) (by simp)
    obtain ⟨rfl, rfl⟩ := cut_unique hx (by decide) hv
    simp [FieldName.masked, colon]
  | put p q' a e o w s t hp ha he hw hends h ih =>
    have hrest : ∀ q, Still (jsonPattern f) q t := by
      obtain ⟨q'', hs⟩ := still_drop hs
      obtain ⟨q'', hs⟩ := still_drop hs
      obtain ⟨q'', hs⟩ := still_drop hs
      exact fun q => ih (still_prev rfl hs)
    have hquote : '"' ∉ a ++ (o ++ redacted) := by
      rw [← List.append_assoc, List.mem_append, not_or]
      exact ⟨written_chars ha he ⟨rfl, rfl, by decide⟩, by decide⟩
    have hline : a ++ (o ++ (redacted ++ t)) = a ++ (o ++ redacted) ++ t := by simp
    rw [hline]
    refine still_append (fun x c z' hy q out rest hmatch => ?_) hrest
    have hc : c ≠ '"' := by
      rintro rfl
      exact hquote (by rw [hy]; simp)
    rw [json_quoteless f hc] at hmatch
    exact absurd hmatch.symm (Option.some_ne_none _)

end Stills

inductive Scan.Source (r : Run) (y z : Text) : Text → Prop where
  | kept (q : Option Char) (s : Text) (h : Scan r q s z) : Source r y z (y ++ s)
  | inside (x x' a e o w s v t : Text) (hy : y = x ++ x') (hx : x' ≠ []) (ha : r.Name a)
      (he : Tail r e o) (hw : Word w) (hs : Ends s) (ht : Ends t) (ho : a ++ o = x' ++ v)
      (hz : z = v ++ (redacted ++ t)) : Source r y z (x ++ (a ++ (e ++ (w ++ s))))

section Sources
variable {r g : Run} {p q : Option Char} {s t y z : Text}

theorem solid_ends {c : Char} (h : isSpace c = false) : ¬ Ends (c :: s) := by
  intro hs
  rw [hs c rfl] at h
  exact nomatch h

theorem solid_word {c : Char} (h : isWord c = true) : isSpace c = false := by
  by_contra hs
  rw [Bool.not_eq_false] at hs
  rw [space_word hs] at h
  exact nomatch h

theorem Run.Name.head {a : Text} (h : r.Name a) (s : Text) :
    ∃ c a', a = c :: a' ∧ isWord c = true ∧ a ++ s = c :: (a' ++ s) := by
  obtain ⟨c, a', rfl⟩ := List.exists_cons_of_ne_nil h.ne_nil
  exact ⟨c, a', rfl, h.word c List.mem_cons_self, rfl⟩

theorem Scan.ends (h : Scan r p s t) (hs : Ends s) : Ends t := by
  cases h with
  | nil p => exact hs
  | keep p c s t => exact fun d hd => hs d hd
  | put p q a e o w s t hp ha =>
    obtain ⟨c, a', rfl, hc, -⟩ := ha.head []
    exact absurd hs (solid_ends (solid_word hc))

theorem prefix_of_mark {u v : Text} (hy : '[' ∉ y) (h : u ++ '[' :: v = y ++ z) :
    ∃ x, u = y ++ x ∧ z = x ++ '[' :: v := by
  rcases List.append_eq_append_iff.mp h with ⟨x, rfl, hx⟩ | ⟨x, hu, hx⟩
  · cases x with
    | nil => exact ⟨[], by simp, by simpa using hx.symm⟩
    | cons c x => exact absurd (List.cons.inj hx).1 (by rintro rfl; simp at hy)
  · exact ⟨x, hu, hx⟩

theorem Scan.source (h : Scan r p s (y ++ z)) (hmark : '[' ∉ y) : Source r y z s := by
  generalize hx : y ++ z = x at h
  induction h generalizing y with
  | nil p =>
    obtain ⟨rfl, rfl⟩ := List.append_eq_nil_iff.mp hx
    exact .kept p [] (.nil p)
  | keep p c s t hnone h ih =>
    cases y with
    | nil =>
      obtain rfl : z = c :: t := hx
      exact .kept p (c :: s) (.keep p c s t hnone h)
    | cons d y =>
      obtain ⟨rfl, hx'⟩ := List.cons.inj hx
      cases ih (fun h => hmark (List.mem_cons_of_mem _ h)) hx' with
      | kept q s h' => exact .kept q s h'
      | inside x x' a e o w s v t hy hx ha he hw hs ht ho hz =>
        exact .inside (d :: x) x' a e o w s v t (by rw [hy]; rfl) hx ha he hw hs ht ho hz
  | put p q a e o w s t hp ha he hw hs h =>
    cases y with
    | nil =>
      obtain rfl : z = _ := hx
      exact .kept p _ (.put p q a e o w s t hp ha he hw hs h)
    | cons d y =>
      have hcut : a ++ o ++ '[' :: ("REDACTED]".toList ++ t) = d :: y ++ z := by
        rw [hx, List.append_assoc]
        rfl
      obtain ⟨v, ho, hz⟩ := prefix_of_mark hmark hcut
      exact .inside [] (d :: y) a e o w s v t rfl (List.cons_ne_nil _ _) ha he hw hs (h.ends hs)
        ho hz

theorem word_split {c : Char} (h : isSpace c = false) (s : Text) :
    ∃ w rest, Word w ∧ Ends rest ∧ c :: s = w ++ rest := by
  obtain ⟨htake, hdrop, hsplit⟩ := span_split (fun d => !isSpace d) s
  refine ⟨c :: s.takeWhile fun d => !isSpace d, _, ⟨fun d hd => ?_, List.cons_ne_nil _ _⟩,
    fun d hd => by simpa using hdrop d hd, by rw [List.cons_append, ← hsplit]⟩
  rcases List.mem_cons.mp hd with rfl | hd
  · exact h
  · simpa using htake d hd

theorem mark_reads {x z out rest : Text} {c : Char} (hx : redacted = x ++ c :: z) :
    ¬ r.Reads (c :: (z ++ t)) out rest := by
  intro h
  have htails : ∀ u ∈ redacted.tails, u = [] ∨
      (u.dropWhile isWord).head? ∈ [some '[', some ']'] := by decide
  have hsuffix : c :: z ∈ redacted.tails := (List.mem_tails _ _).mpr ⟨x, hx.symm⟩
  have hhead := (htails _ hsuffix).resolve_left (List.cons_ne_nil _ _)
  generalize hu : c :: (z ++ t) = u at h
  obtain ⟨a, e, o, w, rest, ha, he, hw, hs⟩ := h
  obtain ⟨d, hd⟩ : ∃ d, (c :: z).dropWhile isWord = d :: ((c :: z).dropWhile isWord).tail := by
    cases hdrop : (c :: z).dropWhile isWord with
    | nil =>
      rw [hdrop] at hhead
      simp at hhead
    | cons d v => exact ⟨d, rfl⟩
  have hdrop := congrArg (List.dropWhile isWord) hu
  rw [← List.cons_append, List.dropWhile_append, hd,
    span_drop ha.word (he.head _)] at hdrop
  obtain ⟨b, e, rfl⟩ := List.exists_cons_of_ne_nil he.ne_nil
  have hb : b = d := by simpa using (List.cons.inj hdrop).1.symm
  rw [hd] at hhead
  rcases he.chars b List.mem_cons_self with hspace | rfl
  · rw [hb] at hspace
    simp at hhead
    rcases hhead with rfl | rfl <;> exact absurd hspace (by decide)
  · simp [← hb] at hhead

/-- What is solid was solid before. -/
theorem Scan.solid {c : Char} (hc : isSpace c = false) (h : Scan r p s (c :: t)) :
    ∃ d s', s = d :: s' ∧ isSpace d = false := by
  generalize hx : c :: t = x at h
  cases h with
  | nil p => exact nomatch hx
  | keep p d s t =>
    obtain ⟨rfl, rfl⟩ := List.cons.inj hx
    exact ⟨c, s, rfl, hc⟩
  | put p q a e o w s t hp ha =>
    obtain ⟨d, a', -, hd, hs⟩ := ha.head (e ++ (w ++ s))
    exact ⟨d, _, hs, solid_word hd⟩

theorem word_all {w : Text} (h : w.all (fun c => !isSpace c) = true) (hw : w ≠ []) : Word w :=
  ⟨fun c hc => by simpa using List.all_eq_true.mp h c hc, hw⟩

theorem word_redacted : Word redacted := word_all (by decide) (by decide)

theorem stands_mark {a e o : Text} {d : Char} (hq : g.StartsAfter q) (ha : g.Name a)
    (he : Tail g e o) (hd : isSpace d = false)
    (h : Stands g.pattern q (a ++ (e ++ d :: s))) :
    e = o ∧ ∃ u, d :: s = redacted ++ u ∧ Ends u := by
  obtain ⟨w, rest, hw, hrest, hsplit⟩ := word_split hd s
  have hread : g.Reads (a ++ (e ++ d :: s)) (a ++ (o ++ redacted)) rest := by
    rw [hsplit]
    exact .read a e o w rest ha he hw hrest
  have hstands := h _ _ ((match_run g q _ _ _).mpr ⟨hq, hread⟩)
  rw [List.append_assoc, List.append_assoc] at hstands
  rw [hsplit] at hstands ⊢
  obtain ⟨heo, -, hmark⟩ := tail_unique he he.self (hw.head rest) (word_redacted.head rest)
    (List.append_cancel_left hstands)
  exact ⟨heo, rest, hmark, hrest⟩

theorem word_mark {w rest u : Text} (hw : Word w) (hrest : Ends rest) (hu : Ends u)
    (h : w ++ rest = redacted ++ u) : w = redacted ∧ rest = u :=
  word_unique hw hrest word_redacted hu h

theorem still_at {m : Pattern} {x : Text} {c : Char} (h : Still m p (x ++ c :: z)) :
    ∃ q, Stands m q (c :: z) := by
  obtain ⟨q, h⟩ := still_drop h
  exact ⟨q, h.1⟩

theorem head_mark {a e o : Text} (ha : r.Name a) (he : Tail r e o) : '[' ∉ a ++ e := by
  rw [List.mem_append, not_or]
  constructor
  · intro h
    exact absurd (ha.word _ h) (by decide)
  · intro h
    exact absurd (he.chars _ h) (by decide)

theorem solid_head {v w w' rest k : Text} (hw : Word w) (hw' : Word w') (h : w' ++ rest = v ++ k)
    (s : Text) : ∃ d u, v ++ (w ++ s) = d :: u ∧ isSpace d = false := by
  cases v with
  | nil =>
    obtain ⟨d, u, rfl⟩ := List.exists_cons_of_ne_nil hw.ne_nil
    exact ⟨d, u ++ s, rfl, hw.solid d List.mem_cons_self⟩
  | cons d v =>
    refine ⟨d, v ++ (w ++ s), rfl, hw'.head rest d ?_⟩
    rw [h]
    rfl

theorem markless_nil {v k u : Text} (hv : '[' ∉ v) (h : v ++ k = redacted ++ u) : v = [] := by
  cases v with
  | nil => rfl
  | cons d v =>
    have hd : d = '[' := (List.cons.inj h).1
    rw [hd] at hv
    exact absurd List.mem_cons_self hv

theorem still_mark {m : Run} (h : ∀ q, Still m.pattern q t) (q : Option Char) :
    Still m.pattern q (redacted ++ t) := by
  refine still_append (fun x c z hx q out rest hmatch => ?_) h
  exact absurd ((match_run m q _ _ _).mp hmatch).2 (mark_reads hx)

/-- What is read in front of a mark and not in it begins with a name before the mark. -/
theorem reads_before {out rest : Text} (h : g.Reads (y ++ (redacted ++ t)) out rest) :
    ∃ a e o w v, g.Name a ∧ Tail g e o ∧ Word w ∧ Ends rest ∧ out = a ++ (o ++ redacted) ∧
      y = a ++ e ++ v ∧ w ++ rest = v ++ (redacted ++ t) := by
  generalize hu : y ++ (redacted ++ t) = u at h
  obtain ⟨a, e, o, w, rest, ha, he, hw, hrest⟩ := h
  have hcut : y ++ '[' :: ("REDACTED]".toList ++ t) = a ++ e ++ (w ++ rest) := by
    rw [List.append_assoc, ← hu]
    rfl
  obtain ⟨v, hv, hz⟩ := prefix_of_mark (head_mark ha he) hcut
  exact ⟨a, e, o, w, v, ha, he, hw, hrest, rfl, hv, hz⟩

/-- What an earlier pattern would not change stays so, where heads are written as they were. -/
theorem still_earlier (hg : g.pattern.boundary = false) (hr : ∀ e o, Tail r e o → o = e)
    (h : Scan r p s t) (hs : Still g.pattern q s) : Still g.pattern q t := by
  have hstart : ∀ q, g.StartsAfter q := by
    intro q hb
    rw [hg] at hb
    exact nomatch hb
  induction h generalizing q with
  | nil p => exact trivial
  | keep p c s t hnone h ih =>
    refine ⟨fun out rest hmatch => ?_, ih hs.2⟩
    have hreads := ((match_run g q _ _ _).mp hmatch).2
    generalize hct : c :: t = x at hreads ⊢
    obtain ⟨a, e, o, w, rest, ha, he, hw, hrest⟩ := hreads
    obtain ⟨d, a', rfl, hd, -⟩ := ha.head []
    obtain ⟨rfl, hx⟩ := List.cons.inj hct
    obtain ⟨b, w', rfl⟩ := List.exists_cons_of_ne_nil hw.ne_nil
    have hb : isSpace b = false := hw.solid b List.mem_cons_self
    have hmark := head_mark ha he
    rw [List.cons_append, List.mem_cons, not_or] at hmark
    have ht : t = a' ++ e ++ (b :: w' ++ rest) := by rw [hx]; simp
    have hsource := Scan.source (ht ▸ h) hmark.2
    obtain ⟨heo, u, hword, hu⟩ : e = o ∧ ∃ u, b :: w' ++ rest = redacted ++ u ∧ Ends u := by
      generalize hy : a' ++ e = y at hsource hmark
      cases hsource with
      | kept q' s' h' =>
        obtain ⟨d, s'', rfl, hd'⟩ := h'.solid hb
        have hstands := hs.1
        rw [← hy, ← List.cons_append, ← List.cons_append, List.append_assoc] at hstands
        obtain ⟨heo, u, hmark', hu⟩ := stands_mark (hstart _) ha he hd' hstands
        rw [hmark'] at h'
        obtain ⟨v, hv, h''⟩ := h'.mark
        exact ⟨heo, v, hv, h''.ends hu⟩
      | inside x x' a₂ e₂ o₂ w₂ s' v t' hxy hne ha₂ he₂ hw₂ hs' ht' ho hz =>
        obtain rfl := hr e₂ o₂ he₂
        obtain ⟨f, s'', hsolid, hf⟩ := solid_head hw₂ hw hz s'
        have hline : c :: (x ++ (a₂ ++ (o₂ ++ (w₂ ++ s')))) = c :: a' ++ (e ++ f :: s'') := by
          rw [← hsolid, ← List.append_assoc a₂, ho, List.cons_append, ← List.append_assoc a', hy,
            hxy]
          simp
        have hstands := hs.1
        rw [hline] at hstands
        obtain ⟨heo, u, hmark', -⟩ := stands_mark (hstart _) ha he hf hstands
        have hv : '[' ∉ v := fun h =>
          head_mark ha₂ he₂ (by rw [ho]; exact List.mem_append_right _ h)
        rw [← hsolid] at hmark'
        rw [markless_nil hv hmark'] at hz
        exact ⟨heo, t', hz, ht'⟩
    obtain ⟨hw', rfl⟩ := word_mark hw hrest hu hword
    rw [hw', heo]
    simp
  | put p q' a e o w s t hp ha he hw hends h ih =>
    obtain rfl := hr e o he
    rw [← List.append_assoc]
    refine still_append (fun x c z' hx q₁ out rest hmatch => ?_) (still_mark fun q => ?_)
    · rw [← List.cons_append] at hmatch ⊢
      obtain ⟨a₂, e₂, o₂, w₂, v, ha₂, he₂, hw₂, hrest, rfl, hv, hz⟩ :=
        reads_before ((match_run g q₁ _ _ _).mp hmatch).2
      obtain ⟨f, s'', hsolid, hf⟩ := solid_head hw hw₂ hz s
      have hline : a ++ (o ++ (w ++ s)) = x ++ c :: (z' ++ (w ++ s)) := by
        rw [← List.append_assoc, hx]
        simp
      rw [hline] at hs
      obtain ⟨q₂, hstands⟩ := still_at hs
      have hsplit : c :: (z' ++ (w ++ s)) = a₂ ++ (e₂ ++ f :: s'') := by
        rw [← hsolid, ← List.cons_append, hv]
        simp
      rw [hsplit] at hstands
      obtain ⟨heo, u, hmark, -⟩ := stands_mark (hstart _) ha₂ he₂ hf hstands
      have hvm : '[' ∉ v := by
        intro hmem
        refine head_mark ha he ?_
        rw [hx, hv]
        simp [hmem]
      rw [← hsolid] at hmark
      rw [markless_nil hvm hmark] at hz
      obtain ⟨-, rfl⟩ := word_mark hw₂ hrest (h.ends hends) hz
      rw [hv, markless_nil hvm hmark, heo]
      simp
    · obtain ⟨q₁, hs⟩ := still_drop hs
      obtain ⟨q₁, hs⟩ := still_drop hs
      obtain ⟨q₁, hs⟩ := still_drop hs
      exact ih (still_prev hg hs)

theorem head_overlap {a e o a' x k v : Text} (ha : r.Name a) (he : Tail r e o) (ha' : r.Name a')
    (hk : ∀ c ∈ k.head?, isWord c = false) (hy : y ≠ []) (h : a ++ e = x ++ y)
    (ho : a' ++ k = y ++ v) : a = x ++ a' := by
  rcases List.append_eq_append_iff.mp h with ⟨u, -, hu⟩ | ⟨u, rfl, hu⟩
  · obtain ⟨d, y, rfl⟩ := List.exists_cons_of_ne_nil hy
    obtain ⟨c, a'', -, hc, hhead⟩ := ha'.head k
    rw [hhead] at ho
    have hd := he.not_word d (by rw [hu]; simp)
    rw [← (List.cons.inj ho).1, hc] at hd
    exact nomatch hd
  · rw [hu, List.append_assoc] at ho
    have huword : ∀ c ∈ u, isWord c = true := fun c hc => ha.word c (by simp [hc])
    rw [(span_unique ha'.word hk huword (he.head v) ho).1]

theorem still_self (h : Scan r p s t) (hpq : p = q ∨ Ends s) : Still r.pattern q t := by
  induction h generalizing q with
  | nil p => exact trivial
  | keep p c s t hnone h ih =>
    refine ⟨fun out rest hmatch => ?_, ih (.inl rfl)⟩
    obtain ⟨hq, hreads⟩ := (match_run r q _ _ _).mp hmatch
    generalize hct : c :: t = u at hreads
    obtain ⟨a, e, o, w, rest, ha, he, hw, hrest⟩ := hreads
    obtain ⟨d, a', rfl, hd, -⟩ := ha.head []
    obtain ⟨rfl, ht⟩ := List.cons.inj hct
    obtain rfl := hpq.resolve_right (solid_ends (solid_word hd))
    have hcontra : ∀ e o w rest, Tail r e o → Word w → Ends rest →
        c :: s ≠ c :: a' ++ (e ++ (w ++ rest)) := by
      intro e o w rest he hw hrest hs
      have hsome := (match_run r p _ _ _).mpr ⟨hq, .read (c :: a') e o w rest ha he hw hrest⟩
      rw [← hs, hnone] at hsome
      exact nomatch hsome
    have hmark := head_mark ha he
    rw [List.cons_append, List.mem_cons, not_or] at hmark
    have hsplit : t = a' ++ e ++ (w ++ rest) := by rw [ht]; simp
    have hsource := Scan.source (hsplit ▸ h) hmark.2
    exfalso
    generalize hy : a' ++ e = y at hsource hmark
    cases hsource with
    | kept q' s' h' =>
      obtain ⟨b, w', rfl⟩ := List.exists_cons_of_ne_nil hw.ne_nil
      obtain ⟨d, s'', rfl, hd'⟩ := h'.solid (hw.solid b List.mem_cons_self)
      obtain ⟨w₂, rest₂, hw₂, hrest₂, hs''⟩ := word_split hd' s''
      exact hcontra e o w₂ rest₂ he hw₂ hrest₂ (by rw [← hy, hs'']; simp)
    | inside x x' a₂ e₂ o₂ w₂ s' v t' hxy hne ha₂ he₂ hw₂ hs' ht' ho hz =>
      have hover : c :: a' ++ e = c :: x ++ x' := by rw [List.cons_append, hy, hxy]; rfl
      have hk : ∀ c ∈ o₂.head?, isWord c = false := by
        have hhead := he₂.self.head []
        rwa [List.append_nil] at hhead
      have hname := head_overlap ha he ha₂ hk hne hover ho
      exact hcontra e₂ o₂ w₂ s' he₂ hw₂ hs' (by rw [hname]; simp)
  | put p q' a e o w s t hp ha he hw hends h ih =>
    rw [← List.append_assoc]
    refine still_append (fun x c z' hx q₁ out rest hmatch => ?_)
      (still_mark fun q => ih (.inr hends))
    rw [← List.cons_append] at hmatch ⊢
    obtain ⟨a₂, e₂, o₂, w₂, v, ha₂, he₂, hw₂, hrest, rfl, hv, hz⟩ :=
      reads_before ((match_run r q₁ _ _ _).mp hmatch).2
    have hover : a₂ ++ (e₂ ++ v) = c :: z' ++ [] := by rw [hv]; simp
    have hname : a = x ++ a₂ :=
      head_overlap ha he.self ha₂ (he₂.head v) (List.cons_ne_nil c z') hx hover
    rw [hname, List.append_assoc] at hx
    have htail : o ++ (redacted ++ t) = e₂ ++ (w₂ ++ rest) := by
      refine (List.append_right_inj a₂).mp ?_
      rw [hz, ← List.append_assoc, ← List.append_assoc e₂, ← List.append_assoc a₂,
        ← List.append_assoc a₂, ← hv, List.append_cancel_left hx]
    obtain ⟨rfl, ho, hword⟩ := tail_unique he.self he₂ (word_redacted.head t) (hw₂.head rest) htail
    obtain ⟨-, rfl⟩ := word_mark hw₂ hrest (h.ends hends) hword.symm
    rw [← ho, ← List.append_cancel_left hx]
    simp

end Sources

section Bearer
variable {p q : Option Char} {s out rest : Text}

theorem replace_match {m : Pattern} {u : Text} (hu : u ≠ [])
    (h : m.matchAt p (u ++ rest) = some (out, rest)) :
    ∃ q, replaceFrom m p 0 (u ++ rest) = out ++ replaceFrom m q 0 rest := by
  obtain ⟨c, u, rfl⟩ := List.exists_cons_of_ne_nil hu
  exact ⟨_, replaceFrom_some _ _ _ _ _ h⟩

theorem bearer_skip {i : Text} (hi : ∀ c ∈ i, c.toLower ≠ 'b') (p : Option Char) (s : Text) :
    ∃ q, replaceFrom bearerAlone p 0 (i ++ s) = i ++ replaceFrom bearerAlone q 0 s := by
  induction i generalizing p with
  | nil => exact ⟨p, rfl⟩
  | cons c i ih =>
    have hnone : Run.bearer.pattern.matchAt p (c :: (i ++ s)) = none := by
      rw [Option.eq_none_iff_forall_not_mem]
      rintro ⟨out, rest⟩ hmatch
      have hreads := ((match_run .bearer p _ _ _).mp hmatch).2
      generalize hu : c :: (i ++ s) = u at hreads
      obtain ⟨a, e, o, w, rest, ha, -⟩ := hreads
      obtain ⟨d, a', rfl, -⟩ := ha.head []
      obtain ⟨n, hn, hspells⟩ := ha
      obtain rfl := List.mem_singleton.mp hn
      rw [(List.cons.inj hu).1] at hi
      exact hi d List.mem_cons_self (List.cons.inj (spells_lower hspells)).1
    obtain ⟨q, hq⟩ := ih (fun c hc => hi c (List.mem_cons_of_mem _ hc)) (some c)
    have hstep := replaceFrom_none _ _ _ _ hnone
    exact ⟨q, by rw [List.cons_append, List.cons_append, ← hq]; exact hstep⟩

theorem bearer_first (p : Option Char) (s : Text) : bearerPattern.matchAt p s =
    ((matchParts (literal true true "Authorization:".toList ++ .many true isSpace :: bearer) s).map
      fun x => (x.1 ++ redacted, x.2)).or (bearerAlone.matchAt p s) := by
  rw [Pattern.matchAt, Pattern.matchAt, if_neg (by simp [bearerPattern]),
    if_neg (by simp [bearerAlone, bearerPattern])]
  change List.findSome? _ [_, bearer] = Option.or _ (List.findSome? _ [bearer])
  rw [List.findSome?_cons]
  cases matchParts (literal true true "Authorization:".toList ++ .many true isSpace :: bearer) s <;>
    rfl

theorem bearer_match (h : bearerPattern.matchAt p s = some (out, rest)) :
    ∃ i s' out', (∀ c ∈ i, c.toLower ≠ 'b') ∧ s = i ++ s' ∧ out = i ++ out' ∧
      bearerAlone.matchAt p s' = some (out', rest) := by
  have hspace : ∀ c, isSpace c = true → c.toLower ≠ 'b' := by
    intro c hc
    simp only [isSpace, List.mem_cons, List.not_mem_nil, or_false, decide_eq_true_eq] at hc
    rcases hc with rfl | rfl | rfl | rfl | rfl | rfl <;> decide
  rw [bearer_first, Option.or_eq_some_iff] at h
  rcases h with h | h
  · obtain ⟨y, hy, hout⟩ := Option.map_eq_some_iff.mp h
    obtain ⟨a, t, y₁, rfl, ha, h₁, rfl⟩ := (matchParts_literal _ _ _).mp hy
    obtain ⟨y₂, h₂, rfl⟩ := (matchParts_many _ _).mp h₁
    obtain ⟨rfl, rfl⟩ := Prod.mk.inj hout
    refine ⟨a ++ t.takeWhile isSpace, t.dropWhile isSpace, y₂.1 ++ redacted, fun c hc => ?_,
      ?_, by simp, ?_⟩
    · rcases List.mem_append.mp hc with hc | hc
      · have hlower : 'b' ∉ "Authorization:".toList.map Char.toLower := by decide
        rw [← spells_lower ha] at hlower
        exact fun hb => hlower (hb ▸ List.mem_map_of_mem hc)
      · exact hspace c (List.mem_takeWhile_imp hc)
    · rw [List.append_assoc, List.takeWhile_append_dropWhile]
    · rw [Pattern.matchAt, if_neg (by simp [bearerAlone, bearerPattern])]
      change List.findSome? _ [bearer] = _
      rw [List.findSome?_singleton, h₂]
      rfl
  · exact ⟨[], s, out, by simp, rfl, rfl, h.2⟩

theorem bearer_alone : ∀ (n : ℕ) (p q : Option Char) (s : Text), s.length ≤ n →
    replaceFrom bearerPattern p 0 s = replaceFrom bearerAlone q 0 s
  | _, _, _, [], _ => rfl
  | n + 1, p, q, c :: s, hn => by
    have hboundary : bearerAlone.boundary = false := rfl
    rw [replaceFrom_prev hboundary q p]
    cases hmatch : bearerPattern.matchAt p (c :: s) with
    | none =>
      have hnone : bearerAlone.matchAt p (c :: s) = none := by
        rw [bearer_first, Option.or_eq_none_iff] at hmatch
        exact hmatch.2
      rw [replaceFrom_none _ _ _ _ hmatch, replaceFrom_none _ _ _ _ hnone,
        bearer_alone n (some c) (some c) s (Nat.le_of_succ_le_succ hn)]
    | some x =>
      obtain ⟨out, rest⟩ := x
      obtain ⟨i, s', out', hi, hs, rfl, hmatch'⟩ := bearer_match hmatch
      have hreads := ((match_run .bearer p _ _ _).mp hmatch').2
      rw [hs] at hmatch hn ⊢
      clear hs
      obtain ⟨a, e, o, w, rest, ha, he, hw, hrest⟩ := hreads
      have hword : a ++ (e ++ (w ++ rest)) = a ++ (e ++ w) ++ rest := by simp
      have hpos := List.length_pos_of_ne_nil ha.ne_nil
      rw [hword] at hmatch' hmatch hn ⊢
      rw [← List.append_assoc i] at hmatch
      obtain ⟨q₁, h₁⟩ := replace_match (by simp [ha.ne_nil]) hmatch
      obtain ⟨q₂, h₂⟩ := bearer_skip hi p (a ++ (e ++ w) ++ rest)
      obtain ⟨q₃, h₃⟩ := replace_match (by simp [ha.ne_nil]) hmatch'
      have hrest : rest.length ≤ n := by
        simp only [List.length_append] at hn
        omega
      rw [h₂, replaceFrom_prev hboundary q₂ p, h₃, ← List.append_assoc i, h₁,
        bearer_alone n q₁ q₃ rest hrest, List.append_assoc]

theorem redact_stable (s : Text) (hs : ∀ f ∈ jsonNames, Still (jsonPattern f) none s) :
    let t := [envPattern, bearerPattern, tokenParamPattern].foldl regexReplace s
    redactSecrets t = t := by
  intro t
  have hkept : ∀ r : Run, r ≠ .env → ∀ e o, Tail r e o → o = e := by
    intro r hr e o he
    cases he with
    | env b b' hb hb' => exact absurd rfl hr
    | bearer b hb hne => rfl
    | param b hb => rfl
  have hscan : ∀ (r : Run) (s : Text), Scan r none s (regexReplace s r.pattern) :=
    fun r s => scan r _ none s le_rfl
  have ht : t = regexReplace (regexReplace (regexReplace s Run.env.pattern) Run.bearer.pattern)
      Run.param.pattern := by
    change regexReplace (regexReplace (regexReplace s envPattern) bearerPattern) _ = _
    rw [regexReplace, regexReplace, bearer_alone _ none none _ le_rfl]
    rfl
  have hjson : ∀ f ∈ jsonNames, Still (jsonPattern f) none t := by
    intro f hf
    rw [ht]
    exact still_json hf (hscan _ _)
      (still_json hf (hscan _ _) (still_json hf (hscan _ _) (hs f hf)))
  have hself : ∀ (r : Run) (s : Text), Still r.pattern none (regexReplace s r.pattern) :=
    fun r s => still_self (hscan r s) (.inl rfl)
  have hearlier : ∀ (g r : Run) (s : Text), g.pattern.boundary = false → r ≠ .env →
      Still g.pattern none s → Still g.pattern none (regexReplace s r.pattern) :=
    fun g r s hg hr h => still_earlier hg (hkept r hr) (hscan r s) h
  have hlate : Run.bearer ≠ .env := fun h => Run.noConfusion h
  have hlast : Run.param ≠ .env := fun h => Run.noConfusion h
  have henv : Still envPattern none t := by
    rw [ht]
    exact hearlier .env .param _ rfl hlast (hearlier .env .bearer _ rfl hlate (hself .env s))
  have hbearer : Still bearerAlone none t := by
    rw [ht]
    exact hearlier .bearer .param _ rfl hlast (hself .bearer _)
  have hparam : Still tokenParamPattern none t := by
    rw [ht]
    exact hself .param _
  have hmark : ∀ x, x ++ redacted ≠ [] :=
    fun x h => word_redacted.ne_nil (List.append_eq_nil_iff.mp h).2
  have hfix : ∀ m ∈ patterns, regexReplace t m = t := by
    intro m hm
    rcases List.mem_append.mp hm with hm | hm
    · obtain ⟨f, hf, rfl⟩ := List.mem_map.mp hm
      exact still_replace (by simp [jsonPattern]) (hjson f hf) 0 (Nat.zero_le _)
    · simp only [List.mem_cons, List.not_mem_nil, or_false] at hm
      rcases hm with rfl | rfl | rfl
      · exact still_replace (by simp [envPattern]) henv 0 (Nat.zero_le _)
      · rw [regexReplace, bearer_alone _ none none _ le_rfl]
        exact still_replace hmark hbearer 0 (Nat.zero_le _)
      · exact still_replace hmark hparam 0 (Nat.zero_le _)
  rw [redactSecrets]
  generalize patterns = ms at hfix
  induction ms with
  | nil => rfl
  | cons m ms ih =>
    rw [List.foldl_cons, hfix m List.mem_cons_self]
    exact ih fun m hm => hfix m (List.mem_cons_of_mem _ hm)

end Bearer

end TB.Redaction
