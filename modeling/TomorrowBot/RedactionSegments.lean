import Mathlib
import TomorrowBot.Redaction

/-!
# The pieces of a line between its quotes

A pattern for a JSON field reads four quotes. On the pieces between the quotes it
replaces a name, a colon and a value and goes on behind the piece after them.
-/

set_option autoImplicit false

namespace TB.Redaction

section Scan
variable {m : Pattern} {out rest : Text}

theorem replaceFrom_skip (m : Pattern) (t rest : Text) (prev : Option Char) :
    replaceFrom m prev t.length (t ++ rest) = replaceFrom m (t.getLast?.or prev) 0 rest := by
  induction t generalizing prev with
  | nil => rfl
  | cons c t ih =>
    rw [List.length_cons, List.cons_append, replaceFrom, ih, List.getLast?_cons]
    cases t.getLast? <;> rfl

theorem replaceFrom_none (m : Pattern) (prev : Option Char) (c : Char) (s : Text)
    (h : m.matchAt prev (c :: s) = none) :
    replaceFrom m prev 0 (c :: s) = c :: replaceFrom m (some c) 0 s := by
  rw [replaceFrom, h]

/-- A match that ends before the end of the text is replaced, and the search goes on there. -/
theorem replaceFrom_some (m : Pattern) (prev : Option Char) (c : Char) (t rest : Text)
    (h : m.matchAt prev (c :: t ++ rest) = some (out, rest)) :
    replaceFrom m prev 0 (c :: t ++ rest) =
      out ++ replaceFrom m (t.getLast?.or (some c)) 0 rest := by
  have hlength : (t ++ rest).length - rest.length = t.length := by
    rw [List.length_append, Nat.add_sub_cancel]
  rw [List.cons_append] at h ⊢
  rw [replaceFrom, h]
  dsimp only
  rw [hlength, replaceFrom_skip]

theorem replaceFrom_prev (h : m.boundary = false) (p q : Option Char) (skip : ℕ) (s : Text) :
    replaceFrom m p skip s = replaceFrom m q skip s := by
  cases s with
  | nil => rfl
  | cons c s =>
    cases skip with
    | succ skip => rfl
    | zero =>
      have hmatch : m.matchAt p (c :: s) = m.matchAt q (c :: s) := by
        simp [Pattern.matchAt, h]
      rw [replaceFrom, replaceFrom, hmatch]

end Scan

def spells (icase : Bool) : Text → Text → Bool
  | [], [] => true
  | n :: ns, c :: cs => sameChar icase n c && spells icase ns cs
  | _, _ => false

def isColon (s : Text) : Bool := (s.dropWhile isSpace).head? = some ':' &&
  (s.dropWhile isSpace).tail.all isSpace

section Reading
variable {parts : List Part} {s : Text} {x : Text × Text}

theorem matchParts_one (kept : Bool) (p : Char → Bool) :
    matchParts (.one kept p :: parts) s = some x ↔ ∃ c t y, s = c :: t ∧ p c = true ∧
      matchParts parts t = some y ∧ x = (if kept then c :: y.1 else y.1, y.2) := by
  cases s with
  | nil => simp [matchParts]
  | cons c t =>
    rw [matchParts]
    by_cases hc : p c = true
    · rw [if_pos hc, Option.map_eq_some_iff]
      constructor
      · rintro ⟨y, hy, rfl⟩
        exact ⟨c, t, y, rfl, hc, hy, rfl⟩
      · rintro ⟨d, u, y, hs, -, hy, rfl⟩
        obtain ⟨rfl, rfl⟩ := List.cons.inj hs
        exact ⟨y, hy, rfl⟩
    · rw [if_neg hc]
      refine iff_of_false nofun ?_
      rintro ⟨d, u, y, hs, hd, -⟩
      rw [← (List.cons.inj hs).1] at hd
      exact hc hd

theorem matchParts_literal (kept icase : Bool) (name : Text) :
    matchParts (literal kept icase name ++ parts) s = some x ↔
      ∃ a t y, s = a ++ t ∧ spells icase name a = true ∧ matchParts parts t = some y ∧
        x = (if kept then a ++ y.1 else y.1, y.2) := by
  induction name generalizing s x with
  | nil =>
    constructor
    · intro h
      exact ⟨[], s, x, rfl, rfl, h, by cases kept <;> rfl⟩
    · rintro ⟨a, t, y, rfl, ha, hy, rfl⟩
      cases a with
      | nil => simpa [literal] using hy
      | cons c a => exact nomatch ha
  | cons n name ih =>
    change matchParts (.one kept (sameChar icase n) :: (literal kept icase name ++ parts)) s = _ ↔ _
    rw [matchParts_one]
    constructor
    · rintro ⟨c, t, z, rfl, hc, hz, rfl⟩
      obtain ⟨a, t, y, rfl, ha, hy, rfl⟩ := ih.mp hz
      exact ⟨c :: a, t, y, rfl, by simp [spells, hc, ha], hy, by cases kept <;> rfl⟩
    · rintro ⟨a, t, y, rfl, ha, hy, rfl⟩
      cases a with
      | nil => exact nomatch ha
      | cons c a =>
        rw [spells, Bool.and_eq_true] at ha
        exact ⟨c, a ++ t, _, rfl, ha.1, ih.mpr ⟨a, t, y, rfl, ha.2, hy, rfl⟩, by cases kept <;> rfl⟩

theorem matchParts_many (kept : Bool) (p : Char → Bool) :
    matchParts (.many kept p :: parts) s = some x ↔ ∃ y,
      matchParts parts (s.dropWhile p) = some y ∧
        x = (if kept then s.takeWhile p ++ y.1 else y.1, y.2) := by
  rw [matchParts, Option.map_eq_some_iff]
  simp only [eq_comm]

end Reading

section Spans
variable {p : Char → Bool} {a a' s s' : Text}

theorem span_take (ha : ∀ c ∈ a, p c = true) (hs : ∀ c ∈ s.head?, p c = false) :
    (a ++ s).takeWhile p = a := by
  rw [List.takeWhile_append_of_pos ha]
  cases s with
  | nil => simp
  | cons c s => simp [hs c rfl]

theorem span_drop (ha : ∀ c ∈ a, p c = true) (hs : ∀ c ∈ s.head?, p c = false) :
    (a ++ s).dropWhile p = s := by
  rw [List.dropWhile_append_of_pos ha]
  cases s with
  | nil => rfl
  | cons c s => simp [hs c rfl]

theorem span_unique (ha : ∀ c ∈ a, p c = true) (hs : ∀ c ∈ s.head?, p c = false)
    (ha' : ∀ c ∈ a', p c = true) (hs' : ∀ c ∈ s'.head?, p c = false)
    (h : a ++ s = a' ++ s') : a = a' ∧ s = s' := by
  have htake := congrArg (List.takeWhile p) h
  rw [span_take ha hs, span_take ha' hs'] at htake
  obtain rfl := htake
  exact ⟨rfl, List.append_cancel_left h⟩

theorem span_split (p : Char → Bool) (s : Text) : (∀ c ∈ s.takeWhile p, p c = true) ∧
    (∀ c ∈ (s.dropWhile p).head?, p c = false) ∧ s = s.takeWhile p ++ s.dropWhile p := by
  refine ⟨fun c hc => List.mem_takeWhile_imp hc, fun c hc => ?_,
    List.takeWhile_append_dropWhile.symm⟩
  have := List.head?_dropWhile_not p s
  rw [Option.mem_def.mp hc] at this
  simpa using this

end Spans

theorem isColon_iff (s : Text) : isColon s = true ↔
    ∃ u v, s = u ++ ':' :: v ∧ (∀ c ∈ u, isSpace c = true) ∧ ∀ c ∈ v, isSpace c = true := by
  rw [isColon, Bool.and_eq_true, decide_eq_true_eq, List.all_eq_true]
  constructor
  · rintro ⟨hhead, htail⟩
    refine ⟨s.takeWhile isSpace, (s.dropWhile isSpace).tail, ?_,
      fun c hc => List.mem_takeWhile_imp hc, htail⟩
    rw [List.head?_eq_some_iff] at hhead
    obtain ⟨v, hv⟩ := hhead
    rw [hv, List.tail_cons, ← hv, List.takeWhile_append_dropWhile]
  · rintro ⟨u, v, rfl, hu, hv⟩
    have hdrop : (u ++ ':' :: v).dropWhile isSpace = ':' :: v := by
      rw [List.dropWhile_append_of_pos hu]
      rfl
    rw [hdrop]
    exact ⟨rfl, hv⟩

def FieldName.hit (f : FieldName) (a b : Text) : Bool := spells f.icase f.name a && isColon b

def colon : Text := ": ".toList

def FieldName.masked (f : FieldName) : Text :=
  '"' :: f.name ++ "\": \"".toList ++ redacted ++ ['"']

theorem json_match_iff (f : FieldName) (prev : Option Char) (s out rest : Text) :
    (jsonPattern f).matchAt prev s = some (out, rest) ↔
      ∃ a b c, s = '"' :: (a ++ '"' :: (b ++ '"' :: (c ++ '"' :: rest))) ∧
        f.hit a b = true ∧ '"' ∉ c ∧ out = f.masked := by
  have halternatives : (jsonPattern f).matchAt prev s =
      (matchParts (.one false (· = '"') :: (literal false f.icase f.name ++
        [.one false (· = '"'), .many false isSpace, .one false (· = ':'), .many false isSpace,
          .one false (· = '"'), .many false (· ≠ '"'), .one false (· = '"')])) s).map
            fun x => (f.masked, x.2) := by
    rw [Pattern.matchAt, jsonPattern, Bool.false_and, if_neg Bool.false_ne_true,
      List.findSome?_singleton]
    rfl
  rw [halternatives, Option.map_eq_some_iff]
  constructor
  · rintro ⟨x, hx, hout⟩
    obtain ⟨q, s₁, y₁, rfl, hq, h₁, rfl⟩ := (matchParts_one _ _).mp hx
    obtain ⟨a, s₂, y₂, rfl, ha, h₂, rfl⟩ := (matchParts_literal _ _ _).mp h₁
    obtain ⟨q₂, s₃, y₃, rfl, hq₂, h₃, rfl⟩ := (matchParts_one _ _).mp h₂
    obtain ⟨y₄, h₄, rfl⟩ := (matchParts_many _ _).mp h₃
    obtain ⟨q₃, s₅, y₅, h₅s, hq₃, h₅, rfl⟩ := (matchParts_one _ _).mp h₄
    obtain ⟨y₆, h₆, rfl⟩ := (matchParts_many _ _).mp h₅
    obtain ⟨q₄, s₇, y₇, h₇s, hq₄, h₇, rfl⟩ := (matchParts_one _ _).mp h₆
    obtain ⟨y₈, h₈, rfl⟩ := (matchParts_many _ _).mp h₇
    obtain ⟨q₅, s₉, y₉, h₉s, hq₅, h₉, rfl⟩ := (matchParts_one _ _).mp h₈
    obtain rfl := Option.some.inj h₉
    rw [decide_eq_true_eq] at hq hq₂ hq₃ hq₄ hq₅
    subst hq hq₂ hq₃ hq₄ hq₅
    obtain ⟨rfl, rfl⟩ := Prod.mk.inj hout
    obtain ⟨hu, -, hsplit₃⟩ := span_split isSpace s₃
    obtain ⟨hv, -, hsplit₅⟩ := span_split isSpace s₅
    obtain ⟨hc, -, hsplit₇⟩ := span_split (fun c => decide (c ≠ '"')) s₇
    generalize s₃.takeWhile isSpace = u at hu hsplit₃
    generalize s₅.takeWhile isSpace = v at hv hsplit₅
    generalize s₇.takeWhile _ = c at hc hsplit₇
    refine ⟨a, u ++ ':' :: v, c, ?_, ?_, fun hmem => ?_, rfl⟩
    · rw [hsplit₃, h₅s, hsplit₅, h₇s, hsplit₇, h₉s]
      simp
    · rw [FieldName.hit, ha, Bool.true_and, isColon_iff]
      exact ⟨_, _, rfl, hu, hv⟩
    · exact absurd (hc _ hmem) (by decide)
  · rintro ⟨a, b, c, rfl, hhit, hc, rfl⟩
    rw [FieldName.hit, Bool.and_eq_true, isColon_iff] at hhit
    obtain ⟨ha, u, v, rfl, hu, hv⟩ := hhit
    have hvalue : (c ++ '"' :: rest).dropWhile (· ≠ '"') = '"' :: rest := by
      refine span_drop (fun d hd => ?_) fun d hd => by simp [← Option.some.inj hd]
      rw [decide_eq_true_eq]
      rintro rfl
      exact hc hd
    have hsecond : (v ++ '"' :: (c ++ '"' :: rest)).dropWhile isSpace =
        '"' :: (c ++ '"' :: rest) := span_drop hv fun d hd => by rw [← Option.some.inj hd]; rfl
    have hfirst : (u ++ ':' :: v ++ '"' :: (c ++ '"' :: rest)).dropWhile isSpace =
        ':' :: (v ++ '"' :: (c ++ '"' :: rest)) := by
      rw [List.append_assoc]
      exact span_drop hu fun d hd => by rw [← Option.some.inj hd]; rfl
    refine ⟨([], rest), ?_, rfl⟩
    refine (matchParts_one _ _).mpr ⟨_, _, ([], rest), rfl, rfl, ?_, rfl⟩
    refine (matchParts_literal _ _ _).mpr ⟨a, _, ([], rest), rfl, ha, ?_, rfl⟩
    refine (matchParts_one _ _).mpr ⟨_, _, ([], rest), rfl, rfl, ?_, rfl⟩
    refine (matchParts_many _ _).mpr ⟨([], rest), ?_, rfl⟩
    refine (matchParts_one _ _).mpr ⟨_, _, ([], rest), hfirst, rfl, ?_, rfl⟩
    refine (matchParts_many _ _).mpr ⟨([], rest), ?_, rfl⟩
    refine (matchParts_one _ _).mpr ⟨_, _, ([], rest), hsecond, rfl, ?_, rfl⟩
    refine (matchParts_many _ _).mpr ⟨([], rest), ?_, rfl⟩
    exact (matchParts_one _ _).mpr ⟨_, _, ([], rest), hvalue, rfl, rfl, rfl⟩

section Names

theorem toLower_word (c : Char) (h : isWord c.toLower = true) : isWord c = true := by
  by_cases hc : c.isUpper = true
  · simp [isWord, Char.isAlphanum, Char.isAlpha, hc]
  · rwa [Char.toLower_eq_of_not_isUpper hc] at h

theorem spells_lower {icase : Bool} {n a : Text} (h : spells icase n a = true) :
    a.map Char.toLower = n.map Char.toLower := by
  induction n generalizing a with
  | nil =>
    cases a with
    | nil => rfl
    | cons c a => exact absurd h (by simp [spells])
  | cons m n ih =>
    cases a with
    | nil => exact absurd h (by simp [spells])
    | cons c a =>
      rw [spells, Bool.and_eq_true] at h
      have hc : c.toLower = m.toLower := by
        cases icase with
        | false => rw [show c = m by simpa [sameChar] using h.1]
        | true => simpa [sameChar] using h.1
      rw [List.map_cons, List.map_cons, hc, ih h.2]

theorem spells_word {icase : Bool} {n a : Text} (h : spells icase n a = true)
    (hn : ∀ c ∈ n, isWord c.toLower = true) : ∀ c ∈ a, isWord c = true := by
  intro c hc
  have hmem : c.toLower ∈ n.map Char.toLower := by
    rw [← spells_lower h]
    exact List.mem_map_of_mem hc
  obtain ⟨d, hd, hcd⟩ := List.mem_map.mp hmem
  refine toLower_word c ?_
  rw [← hcd]
  exact hn d hd

variable {f g : FieldName} {a b : Text}

theorem json_spelled (hf : f ∈ jsonNames) (h : spells f.icase f.name a = true) :
    ∀ c ∈ a, isWord c = true := by
  have hnames : ∀ f ∈ jsonNames, f.name.all (fun c => isWord c.toLower) = true := by decide
  exact spells_word h (List.all_eq_true.mp (hnames f hf))

theorem names_differ (hf : f ∈ jsonNames) (hg : g ∈ jsonNames) (hne : f.name ≠ g.name)
    (ha : spells f.icase f.name a = true) : spells g.icase g.name a = false := by
  by_contra h
  rw [Bool.not_eq_false] at h
  have hnames : ∀ f ∈ jsonNames, ∀ g ∈ jsonNames,
      f.name.map Char.toLower = g.name.map Char.toLower → f.name = g.name := by decide
  exact hne (hnames f hf g hg ((spells_lower ha).symm.trans (spells_lower h)))

theorem spells_self (icase : Bool) (n : Text) : spells icase n n = true := by
  induction n with
  | nil => rfl
  | cons c n ih => cases icase <;> simp [spells, sameChar, ih]

theorem colon_chars (h : isColon b = true) : ':' ∈ b ∧ ∀ c ∈ b, isSpace c = true ∨ c = ':' := by
  obtain ⟨u, v, rfl, hu, hv⟩ := (isColon_iff b).mp h
  refine ⟨by simp, fun c hc => ?_⟩
  rw [List.mem_append, List.mem_cons] at hc
  rcases hc with hc | rfl | hc
  · exact .inl (hu c hc)
  · exact .inr rfl
  · exact .inl (hv c hc)

theorem spelled_not_colon (hf : f ∈ jsonNames) (h : spells f.icase f.name a = true) :
    isColon a = false := by
  by_contra hcolon
  rw [Bool.not_eq_false] at hcolon
  exact absurd (json_spelled hf h ':' (colon_chars hcolon).1) (by decide)

theorem name_not_colon (hf : f ∈ jsonNames) : isColon f.name = false :=
  spelled_not_colon hf (spells_self _ _)

theorem hit_quotes (hf : f ∈ jsonNames) (h : f.hit a b = true) : '"' ∉ a ∧ '"' ∉ b := by
  rw [FieldName.hit, Bool.and_eq_true] at h
  constructor
  · intro hq
    exact absurd (json_spelled hf h.1 _ hq) (by decide)
  · intro hq
    rcases (colon_chars h.2).2 _ hq with hs | hs
    · exact absurd hs (by decide)
    · exact absurd hs (by decide)

end Names

def quotes (l : List Text) : Text := l.flatMap ('"' :: ·)

def mask (f : FieldName) : List Text → List Text
  | a :: b :: c :: d :: l =>
    if f.hit a b then f.name :: colon :: redacted :: d :: mask f l
    else a :: mask f (b :: c :: d :: l)
  | l => l

section Mask
variable {f g : FieldName} {a b : Text} {l : List Text}

theorem quotes_cons (a : Text) (l : List Text) : quotes (a :: l) = '"' :: (a ++ quotes l) := rfl

theorem mask_few (h : l.length < 4) : mask f l = l := by
  match l, h with
  | [], _ => rfl
  | [_], _ => rfl
  | [_, _], _ => rfl
  | [_, _, _], _ => rfl

theorem mask_cons (h : f.hit a b = false) : mask f (a :: b :: l) = a :: mask f (b :: l) := by
  match l with
  | [] => rfl
  | [_] => rfl
  | _ :: _ :: _ => rw [mask, if_neg (by simp [h])]

theorem mask_apart (h : spells f.icase f.name a = false) : mask f (a :: l) = a :: mask f l := by
  match l with
  | [] => rfl
  | b :: l => exact mask_cons (by rw [FieldName.hit, h, Bool.false_and])

theorem mask_hit {c d : Text} (h : f.hit a b = true) :
    mask f (a :: b :: c :: d :: l) = f.name :: colon :: redacted :: d :: mask f l := by
  rw [mask, if_pos h]

theorem replace_few (f : FieldName) {s : Text} (h : s.count '"' < 4) (prev : Option Char) :
    replaceFrom (jsonPattern f) prev 0 s = s := by
  induction s generalizing prev with
  | nil => rfl
  | cons c s ih =>
    have hnone : (jsonPattern f).matchAt prev (c :: s) = none := by
      rw [Option.eq_none_iff_forall_not_mem]
      rintro ⟨out, rest⟩ hmatch
      obtain ⟨a, b, v, hs, -⟩ := (json_match_iff _ _ _ _ _).mp hmatch
      rw [hs] at h
      simp only [List.count_cons_self, List.count_append] at h
      omega
    rw [replaceFrom_none _ _ _ _ hnone, ih]
    exact Nat.lt_of_le_of_lt List.count_le_count_cons h

theorem json_quoteless (f : FieldName) {c : Char} (hc : c ≠ '"') (prev : Option Char)
    (s : Text) : (jsonPattern f).matchAt prev (c :: s) = none := by
  rw [Option.eq_none_iff_forall_not_mem]
  rintro ⟨out, rest⟩ hmatch
  obtain ⟨a, b, v, hs, -⟩ := (json_match_iff _ _ _ _ _).mp hmatch
  exact hc (List.cons.inj hs).1

theorem replace_quoteless (f : FieldName) {h : Text} (hq : '"' ∉ h) (prev : Option Char)
    (t : Text) : replaceFrom (jsonPattern f) prev 0 (h ++ t) =
      h ++ replaceFrom (jsonPattern f) none 0 t := by
  induction h generalizing prev with
  | nil => exact replaceFrom_prev rfl _ _ _ _
  | cons c h ih =>
    rw [List.mem_cons, not_or] at hq
    rw [List.cons_append, replaceFrom_none _ _ _ _ (json_quoteless f (Ne.symm hq.1) _ _), ih hq.2]
    rfl

theorem count_quotes (hl : ∀ a ∈ l, '"' ∉ a) : (quotes l).count '"' = l.length := by
  induction l with
  | nil => rfl
  | cons a l ih =>
    rw [quotes_cons, List.count_cons_self, List.count_append,
      List.count_eq_zero.mpr (hl a List.mem_cons_self),
      ih fun b hb => hl b (List.mem_cons_of_mem _ hb), List.length_cons, Nat.zero_add]

theorem cut_unique {a a' u u' : Text} (ha : '"' ∉ a) (ha' : '"' ∉ a')
    (h : a ++ '"' :: u = a' ++ '"' :: u') : a = a' ∧ u = u' := by
  have hcut := congrArg (List.splitOn '"') h
  rw [List.splitOn_append_cons_self_of_not_mem ha,
    List.splitOn_append_cons_self_of_not_mem ha'] at hcut
  obtain rfl := (List.cons.inj hcut).1
  exact ⟨rfl, (List.cons.inj (List.append_cancel_left h)).2⟩

/-- Where the pattern of a field matches, the first two pieces are its name and a colon. -/
theorem match_quotes (hf : f ∈ jsonNames) (hl : ∀ a ∈ l, '"' ∉ a) {prev : Option Char}
    {out rest : Text} (h : (jsonPattern f).matchAt prev (quotes l) = some (out, rest)) :
    ∃ a b c d l', l = a :: b :: c :: d :: l' ∧ f.hit a b = true ∧ out = f.masked ∧
      rest = d ++ quotes l' := by
  obtain ⟨a, b, c, hs, hhit, hc, rfl⟩ := (json_match_iff _ _ _ _ _).mp h
  have hq := hit_quotes hf hhit
  have hfour : 4 ≤ l.length := by
    rw [← count_quotes hl, hs]
    simp only [List.count_cons_self, List.count_append]
    omega
  match l, hfour with
  | a' :: b' :: c' :: d :: l, _ =>
    have ha := cut_unique (hl a' (by simp)) hq.1 (List.cons.inj hs).2
    obtain ⟨rfl, hs₂⟩ := ha
    obtain ⟨rfl, hs₃⟩ := cut_unique (hl b' (by simp)) hq.2 hs₂
    obtain ⟨rfl, hs₄⟩ := cut_unique (hl c' (by simp)) hc hs₃
    exact ⟨a', b', c', d, l, rfl, hhit, rfl, hs₄.symm⟩

theorem replace_quotes (hf : f ∈ jsonNames) (hl : ∀ a ∈ l, '"' ∉ a) (prev : Option Char) :
    replaceFrom (jsonPattern f) prev 0 (quotes l) = quotes (mask f l) := by
  induction l using mask.induct f generalizing prev with
  | case1 a b c d l hhit ih =>
    have hmatch : (jsonPattern f).matchAt prev
        ('"' :: (a ++ '"' :: (b ++ '"' :: (c ++ ['"']))) ++ (d ++ quotes l)) =
          some (f.masked, d ++ quotes l) := by
      refine (json_match_iff _ _ _ _ _).mpr ⟨a, b, c, by simp, hhit, hl c (by simp), rfl⟩
    have hline : quotes (a :: b :: c :: d :: l) =
        '"' :: (a ++ '"' :: (b ++ '"' :: (c ++ ['"']))) ++ (d ++ quotes l) := by
      simp [quotes]
    rw [hline, replaceFrom_some _ _ _ _ _ hmatch, replace_quoteless f (hl d (by simp)),
      ih (fun e he => hl e (by simp [he])), mask_hit hhit]
    simp [quotes, FieldName.masked, colon]
  | case2 a b c d l hhit ih =>
    have hnone : (jsonPattern f).matchAt prev (quotes (a :: b :: c :: d :: l)) = none := by
      rw [Option.eq_none_iff_forall_not_mem]
      rintro ⟨out, rest⟩ hmatch
      obtain ⟨_, _, _, _, _, hl', hhit', -⟩ := match_quotes hf hl hmatch
      simp only [List.cons.injEq] at hl'
      obtain ⟨rfl, rfl, -⟩ := hl'
      exact hhit hhit'
    have hstep : mask f (a :: b :: c :: d :: l) = a :: mask f (b :: c :: d :: l) :=
      mask_cons (by simpa using hhit)
    rw [quotes_cons] at hnone
    rw [hstep, quotes_cons, replaceFrom_none _ _ _ _ hnone,
      replace_quoteless f (hl a (by simp)), ih (fun e he => hl e (List.mem_cons_of_mem _ he)),
      quotes_cons]
  | case3 l h =>
    have hfew : l.length < 4 := by
      by_contra hlong
      match l, hlong, h with
      | [], hlong, _ => exact hlong (by simp)
      | [_], hlong, _ => exact hlong (by simp)
      | [_, _], hlong, _ => exact hlong (by simp)
      | [_, _, _], hlong, _ => exact hlong (by simp)
      | _ :: _ :: _ :: _ :: _, _, h => exact h _ _ _ _ _ rfl
    rw [mask_few hfew, replace_few f (by rwa [count_quotes hl])]

end Mask

def Masked (f : FieldName) : List Text → Prop
  | a :: b :: c :: d :: l =>
    (f.hit a b = true → a = f.name ∧ b = colon ∧ c = redacted) ∧ Masked f (b :: c :: d :: l)
  | _ => True

/-- No name and colon start three pieces behind another: the match of the first ends in the
piece that the second starts with. -/
def Apart (f : FieldName) : List Text → Prop
  | a :: b :: c :: d :: e :: l =>
    ¬ (f.hit a b = true ∧ f.hit d e = true) ∧ Apart f (b :: c :: d :: e :: l)
  | _ => True

section Masked
variable {f g : FieldName} {a b c d : Text} {l : List Text}

theorem masked_cons (h : ∀ b ∈ l.head?, f.hit a b = false) (hl : Masked f l) :
    Masked f (a :: l) := by
  match l with
  | [] => exact trivial
  | [_] => exact trivial
  | [_, _] => exact trivial
  | b :: _ :: _ :: _ => exact ⟨fun hhit => absurd hhit (by simp [h b rfl]), hl⟩

theorem masked_tail (h : Masked f (a :: l)) : Masked f l := by
  match l, h with
  | [], _ => exact trivial
  | [_], _ => exact trivial
  | [_, _], _ => exact trivial
  | _ :: _ :: _ :: _, h => exact h.2

theorem apart_tail (h : Apart f (a :: l)) : Apart f l := by
  match l, h with
  | [], _ => exact trivial
  | [_], _ => exact trivial
  | [_, _], _ => exact trivial
  | [_, _, _], _ => exact trivial
  | _ :: _ :: _ :: _ :: _, h => exact h.2

theorem unspelled_word (hf : f ∈ jsonNames) {a : Text} (h : ∃ c ∈ a, isWord c = false) :
    spells f.icase f.name a = false := by
  by_contra hspells
  rw [Bool.not_eq_false] at hspells
  obtain ⟨c, hc, hword⟩ := h
  rw [json_spelled hf hspells c hc] at hword
  exact nomatch hword

theorem unspelled_colon (hf : f ∈ jsonNames) (h : isColon b = true) :
    spells f.icase f.name b = false :=
  unspelled_word hf ⟨':', (colon_chars h).1, by decide⟩

theorem unspelled_mark (hf : f ∈ jsonNames) : spells f.icase f.name redacted = false :=
  unspelled_word hf ⟨'[', by decide, by decide⟩

theorem hit_of_spells (h : spells f.icase f.name a = false) : f.hit a b = false := by
  rw [FieldName.hit, h, Bool.false_and]

theorem hit_of_colon (h : isColon b = false) : f.hit a b = false := by
  rw [FieldName.hit, h, Bool.and_false]

theorem mask_head (hf : f ∈ jsonNames) (l : List Text) :
    ∀ e ∈ (mask f l).head?, e ∈ l.head? ∨ isColon e = false := by
  intro e he
  match l with
  | [] => exact nomatch he
  | a :: l =>
    cases hspells : spells f.icase f.name a with
    | false =>
      rw [mask_apart hspells] at he
      exact .inl he
    | true =>
      have hname := name_not_colon hf
      match l, he with
      | [], he => exact .inl he
      | b :: l, he =>
        cases hhit : f.hit a b with
        | false =>
          rw [mask_cons hhit] at he
          exact .inl he
        | true =>
          match l, he with
          | [], he => exact .inl he
          | [_], he => exact .inl he
          | _ :: _ :: _, he =>
            rw [mask_hit hhit] at he
            obtain rfl := Option.some.inj he
            exact .inr hname

theorem masked_mark (hf : f ∈ jsonNames) (hl : Masked f (d :: l)) :
    Masked f (colon :: redacted :: d :: l) :=
  masked_cons (fun _ _ => hit_of_spells (unspelled_colon hf rfl))
    (masked_cons (fun _ _ => hit_of_spells (unspelled_mark hf)) hl)

theorem masked_self (hf : f ∈ jsonNames) (h : Apart f l) : Masked f (mask f l) := by
  induction l using mask.induct f with
  | case1 a b c d l hhit ih =>
    rw [mask_hit hhit]
    have hl : Masked f (mask f l) := ih (apart_tail (apart_tail (apart_tail (apart_tail h))))
    have hd : Masked f (d :: mask f l) := by
      refine masked_cons (fun e he => ?_) hl
      rcases mask_head hf l e he with he | he
      · match l, h, he with
        | e' :: l, h, he =>
          obtain rfl := Option.some.inj he
          by_contra hde
          exact h.1 ⟨hhit, by simpa using hde⟩
      · exact hit_of_colon he
    exact ⟨fun _ => ⟨rfl, rfl, rfl⟩, masked_mark hf hd⟩
  | case2 a b c d l hhit ih =>
    rw [mask_cons (by simpa using hhit)]
    refine masked_cons (fun e he => ?_) (ih (apart_tail h))
    rcases mask_head hf _ e he with he | he
    · obtain rfl := Option.some.inj he
      simpa using hhit
    · exact hit_of_colon he
  | case3 l hl =>
    match l, hl with
    | [], _ => exact trivial
    | [_], _ => exact trivial
    | [_, _], _ => exact trivial
    | [_, _, _], _ => exact trivial
    | _ :: _ :: _ :: _ :: _, h => exact absurd rfl (h _ _ _ _ _)

theorem masked_step (hf : f ∈ jsonNames) (hl : Masked g (a :: l)) (h : Masked g (mask f l)) :
    Masked g (a :: mask f l) := by
  match l, hl with
  | [], _ => exact trivial
  | [_], _ => exact trivial
  | [_, _], _ => exact trivial
  | b :: c :: d :: l, hl =>
    cases hhit : g.hit a b with
    | true =>
      obtain ⟨rfl, rfl, rfl⟩ := hl.1 hhit
      rw [mask_apart (unspelled_colon hf rfl), mask_apart (unspelled_mark hf)] at h ⊢
      match mask f (d :: l), h with
      | [], _ => exact trivial
      | _ :: _, h => exact ⟨fun _ => ⟨rfl, rfl, rfl⟩, h⟩
    | false =>
      refine masked_cons (fun e he => ?_) h
      rcases mask_head hf _ e he with he | he
      · obtain rfl := Option.some.inj he
        exact hhit
      · exact hit_of_colon he

/-- A field stays masked when another is. -/
theorem masked_other (hf : f ∈ jsonNames) (hg : g ∈ jsonNames) (hne : f.name ≠ g.name)
    (h : Masked g l) : Masked g (mask f l) := by
  induction l using mask.induct f with
  | case1 a b c d l hhit ih =>
    have hd : Masked g (d :: l) := masked_tail (masked_tail (masked_tail h))
    rw [mask_hit hhit]
    refine masked_cons (fun e _ => hit_of_spells ?_)
      (masked_mark hg (masked_step hf hd (ih (masked_tail hd))))
    exact names_differ hf hg hne (spells_self _ _)
  | case2 a b c d l hhit ih =>
    rw [mask_cons (by simpa using hhit)]
    exact masked_step hf h (ih (masked_tail h))
  | case3 l hl =>
    rw [mask]
    · exact h
    · exact hl

def Fewer (g : FieldName) (new old : Text) : Prop :=
  (spells g.icase g.name new = true → spells g.icase g.name old = true) ∧
    (isColon new = true → isColon old = true)

theorem Fewer.hit {a' b' : Text} (ha : Fewer g a' a) (hb : Fewer g b' b)
    (h : g.hit a' b' = true) : g.hit a b = true := by
  rw [FieldName.hit, Bool.and_eq_true] at h ⊢
  exact ⟨ha.1 h.1, hb.2 h.2⟩

theorem fewer_mask (hf : f ∈ jsonNames) (hg : g ∈ jsonNames) (hne : f.name ≠ g.name)
    (l : List Text) : List.Forall₂ (Fewer g) (mask f l) l := by
  induction l using mask.induct f with
  | case1 a b c d l hhit ih =>
    rw [mask_hit hhit]
    have hname : Fewer g f.name a := by
      refine ⟨fun hs => ?_, fun hs => ?_⟩
      · rw [names_differ hf hg hne (spells_self _ _)] at hs
        exact nomatch hs
      · rw [name_not_colon hf] at hs
        exact nomatch hs
    have hcolon : Fewer g colon b := by
      refine ⟨fun hs => ?_, fun _ => ?_⟩
      · rw [unspelled_word hg ⟨' ', by decide, by decide⟩] at hs
        exact nomatch hs
      · rw [FieldName.hit, Bool.and_eq_true] at hhit
        exact hhit.2
    have hmark : Fewer g redacted c := by
      refine ⟨fun hs => ?_, fun hs => absurd hs (by decide)⟩
      rw [unspelled_word hg ⟨'[', by decide, by decide⟩] at hs
      exact nomatch hs
    exact .cons hname (.cons hcolon (.cons hmark (.cons ⟨id, id⟩ ih)))
  | case2 a b c d l hhit ih =>
    rw [mask_cons (by simpa using hhit)]
    exact .cons ⟨id, id⟩ ih
  | case3 l hl =>
    rw [mask]
    · exact List.forall₂_same.mpr fun _ _ => ⟨id, id⟩
    · exact hl

theorem apart_fewer {l' : List Text} (h : List.Forall₂ (Fewer g) l' l) (hl : Apart g l) :
    Apart g l' := by
  induction h with
  | nil => exact trivial
  | cons ha hrest ih =>
    cases hrest with
    | nil => exact trivial
    | cons hb hrest =>
      cases hrest with
      | nil => exact trivial
      | cons hc hrest =>
        cases hrest with
        | nil => exact trivial
        | cons hd hrest =>
          cases hrest with
          | nil => exact trivial
          | cons he hrest =>
            refine ⟨fun hhits => hl.1 ⟨ha.hit hb hhits.1, hd.hit he hhits.2⟩, ih (apart_tail hl)⟩

theorem apart_other (hf : f ∈ jsonNames) (hg : g ∈ jsonNames) (hne : f.name ≠ g.name)
    (h : Apart g l) : Apart g (mask f l) :=
  apart_fewer (fewer_mask hf hg hne l) h

end Masked

def maskAll (fs : List FieldName) (l : List Text) : List Text :=
  fs.foldl (fun l f => mask f l) l

section All
variable {fs : List FieldName} {l : List Text}

theorem masked_later {g : FieldName} (hg : g ∈ jsonNames) (hfs : ∀ f ∈ fs, f ∈ jsonNames)
    (hne : ∀ f ∈ fs, g.name ≠ f.name) (h : Masked g l) : Masked g (maskAll fs l) := by
  induction fs generalizing l with
  | nil => exact h
  | cons f fs ih =>
    exact ih (fun f hf => hfs f (List.mem_cons_of_mem _ hf))
      (fun f hf => hne f (List.mem_cons_of_mem _ hf))
      (masked_other (hfs f List.mem_cons_self) hg (hne f List.mem_cons_self).symm h)

theorem masked_all (hfs : ∀ f ∈ fs, f ∈ jsonNames)
    (hne : fs.Pairwise fun f g => f.name ≠ g.name) (h : ∀ f ∈ fs, Apart f l) :
    ∀ f ∈ fs, Masked f (maskAll fs l) := by
  induction fs generalizing l with
  | nil => exact fun f hf => nomatch hf
  | cons g fs ih =>
    have hg := hfs g List.mem_cons_self
    have htail : ∀ f ∈ fs, f ∈ jsonNames := fun f hf => hfs f (List.mem_cons_of_mem _ hf)
    rw [List.pairwise_cons] at hne
    intro f hf
    rcases List.mem_cons.mp hf with rfl | hf
    · have hself : Masked f (mask f l) := masked_self hg (h f List.mem_cons_self)
      have hlater : Masked f (maskAll fs (mask f l)) := masked_later hg htail hne.1 hself
      exact hlater
    · exact ih htail hne.2 (fun f hf => apart_other hg (htail f hf) (hne.1 f hf)
        (h f (List.mem_cons_of_mem _ hf))) f hf

theorem json_pairwise : jsonNames.Pairwise fun f g => f.name ≠ g.name := by decide

end All

section Reach
variable {f : FieldName}

/-- Where the masking of a list stands when its last piece has been read: at the next piece,
in the piece behind a value, or at a value. -/
inductive Reached (f : FieldName) (A : List Text) : Prop where
  | next (A' : List Text) (h : ∀ t, (∀ b ∈ t.head?, isColon b = false) →
      mask f (A ++ t) = A' ++ mask f t)
  | behind (A' : List Text) (h : ∀ d t, mask f (A ++ d :: t) = A' ++ d :: mask f t)
  | value (A' A₀ : List Text) (a b : Text) (hA : A = A₀ ++ [a, b]) (hhit : f.hit a b = true)
      (h : ∀ c d t, mask f (A ++ c :: d :: t) = A' ++ redacted :: d :: mask f t)
      (hlast : ∃ A'', ∀ c, mask f (A ++ [c]) = A'' ++ [c])

theorem Reached.cons {a b : Text} {A : List Text} (hhit : f.hit a b = false)
    (h : Reached f (b :: A)) : Reached f (a :: b :: A) := by
  have hstep : ∀ t, mask f (a :: b :: A ++ t) = a :: mask f (b :: A ++ t) :=
    fun t => mask_cons hhit
  cases h with
  | next A' h => exact .next (a :: A') fun t ht => by rw [hstep, h t ht]; rfl
  | behind A' h => exact .behind (a :: A') fun d t => by rw [hstep, h]; rfl
  | value A' A₀ c d hA hhit' h hlast =>
    obtain ⟨A'', hlast⟩ := hlast
    refine .value (a :: A') (a :: A₀) c d (by rw [hA]; rfl) hhit' (fun e d t => ?_)
      ⟨a :: A'', fun e => ?_⟩
    · rw [hstep, h]
      rfl
    · rw [hstep, hlast]
      rfl

theorem Reached.hit {a b c d : Text} {A : List Text} (hhit : f.hit a b = true)
    (h : Reached f A) : Reached f (a :: b :: c :: d :: A) := by
  have hstep : ∀ t, mask f (a :: b :: c :: d :: A ++ t) =
      f.name :: colon :: redacted :: d :: mask f (A ++ t) := fun t => mask_hit hhit
  cases h with
  | next A' h =>
    exact .next (f.name :: colon :: redacted :: d :: A') fun t ht => by rw [hstep, h t ht]; rfl
  | behind A' h =>
    exact .behind (f.name :: colon :: redacted :: d :: A') fun d t => by rw [hstep, h]; rfl
  | value A' A₀ i j hA hhit' h hlast =>
    obtain ⟨A'', hlast⟩ := hlast
    refine .value (f.name :: colon :: redacted :: d :: A') (a :: b :: c :: d :: A₀) i j
      (by rw [hA]; rfl) hhit' (fun e d t => ?_) ⟨f.name :: colon :: redacted :: d :: A'',
        fun e => ?_⟩
    · rw [hstep, h]
      rfl
    · rw [hstep, hlast]
      rfl

end Reach

section Secret
variable {f g : FieldName} {k s : Text}

end Secret

section Inert
variable {f : FieldName}

def Inert (a : Text) : Prop := '=' ∈ a

theorem Inert.spells {a : Text} (h : Inert a) (hf : f ∈ jsonNames) :
    spells f.icase f.name a = false := unspelled_word hf ⟨'=', h, by decide⟩

theorem Inert.colon {a : Text} (h : Inert a) : isColon a = false := by
  by_contra hc
  rw [Bool.not_eq_false] at hc
  rcases (colon_chars hc).2 _ h with he | he
  · exact absurd he (by decide)
  · exact absurd he (by decide)

end Inert

def glue : List Text → Text
  | [] => []
  | h :: l => h ++ quotes l

def pieces (s : Text) : List Text := s.splitOn '"'

def maskLine (fs : List FieldName) : List Text → List Text
  | [] => []
  | h :: l => h :: maskAll fs l

section Lines
variable {f : FieldName} {fs : List FieldName} {l : List Text}

theorem pieces_cons (c : Char) (s : Text) : pieces (c :: s) =
    if c = '"' then [] :: pieces s else (pieces s).modifyHead (c :: ·) := by
  rw [pieces, List.splitOn_cons_eq_if_modifyHead]
  by_cases hc : c = '"' <;> simp [hc, pieces]

theorem pieces_ne_nil (s : Text) : pieces s ≠ [] := List.splitOn_ne_nil _ _

theorem glue_pieces (s : Text) : glue (pieces s) = s := by
  induction s with
  | nil => rfl
  | cons c s ih =>
    rw [pieces_cons]
    obtain ⟨h, l, hl⟩ := List.exists_cons_of_ne_nil (pieces_ne_nil s)
    rw [hl] at ih ⊢
    split_ifs with hc
    · rw [hc, ← ih]
      rfl
    · rw [← ih]
      rfl

theorem pieces_quotes (s : Text) : ∀ a ∈ pieces s, '"' ∉ a := by
  induction s with
  | nil => simp [pieces]
  | cons c s ih =>
    rw [pieces_cons]
    obtain ⟨h, l, hl⟩ := List.exists_cons_of_ne_nil (pieces_ne_nil s)
    rw [hl] at ih ⊢
    split_ifs with hc
    · simpa using ih
    · intro a ha
      rw [List.modifyHead_cons, List.mem_cons] at ha
      rcases ha with rfl | ha
      · rw [List.mem_cons, not_or]
        exact ⟨fun h => hc h.symm, ih h List.mem_cons_self⟩
      · exact ih a (List.mem_cons_of_mem _ ha)

theorem mask_quotes (hf : f ∈ jsonNames) (hl : ∀ a ∈ l, '"' ∉ a) : ∀ a ∈ mask f l, '"' ∉ a := by
  induction l using mask.induct f with
  | case1 a b c d l hhit ih =>
    rw [mask_hit hhit]
    have hname : '"' ∉ f.name := fun hq =>
      absurd (json_spelled hf (spells_self _ _) _ hq) (by decide)
    intro e he
    simp only [List.mem_cons] at he
    rcases he with rfl | rfl | rfl | rfl | he
    · exact hname
    · decide
    · decide
    · exact hl _ (by simp)
    · exact ih (fun e he => hl e (by simp [he])) e he
  | case2 a b c d l hhit ih =>
    rw [mask_cons (by simpa using hhit)]
    intro e he
    rcases List.mem_cons.mp he with rfl | he
    · exact hl _ List.mem_cons_self
    · exact ih (fun e he => hl e (List.mem_cons_of_mem _ he)) e he
  | case3 l h =>
    rw [mask]
    · exact hl
    · exact h

theorem replace_glue (hf : f ∈ jsonNames) {h : Text} (hh : '"' ∉ h) (hl : ∀ a ∈ l, '"' ∉ a) :
    regexReplace (glue (h :: l)) (jsonPattern f) = glue (h :: mask f l) := by
  rw [regexReplace, glue, replace_quoteless f hh, replace_quotes hf hl]
  rfl

theorem replace_all (hfs : ∀ f ∈ fs, f ∈ jsonNames) {h : Text} (hh : '"' ∉ h)
    (hl : ∀ a ∈ l, '"' ∉ a) :
    (fs.map jsonPattern).foldl regexReplace (glue (h :: l)) = glue (maskLine fs (h :: l)) ∧
      ∀ a ∈ maskLine fs (h :: l), '"' ∉ a := by
  induction fs generalizing l with
  | nil => exact ⟨rfl, by simpa [maskLine, maskAll] using ⟨hh, hl⟩⟩
  | cons f fs ih =>
    have hf := hfs f List.mem_cons_self
    have hnext := ih (fun f hf => hfs f (List.mem_cons_of_mem _ hf)) (mask_quotes hf hl)
    rw [List.map_cons, List.foldl_cons, replace_glue hf hh hl]
    exact hnext

theorem replace_json (s : Text) : (jsonNames.map jsonPattern).foldl regexReplace s =
      glue (maskLine jsonNames (pieces s)) ∧
    ∀ a ∈ maskLine jsonNames (pieces s), '"' ∉ a := by
  obtain ⟨h, l, hl⟩ := List.exists_cons_of_ne_nil (pieces_ne_nil s)
  have hq := pieces_quotes s
  rw [hl] at hq
  have hs := replace_all (fun f hf => hf) (hq h List.mem_cons_self)
    fun a ha => hq a (List.mem_cons_of_mem _ ha)
  rw [← hl, glue_pieces] at hs
  exact hs

end Lines

end TB.Redaction
