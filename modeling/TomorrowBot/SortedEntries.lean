import Mathlib.Data.List.Basic

/-!
# Entries sorted by key

A sorted map is the list of its entries in the order of its comparison. A
lookup, an insertion and an erasure look for the first entry that does not come
before the key; that entry is the key's own unless the key comes before it.
The comparison has to be a strict linear order only on the keys in use.
-/

set_option autoImplicit false

namespace SortedEntries

variable {K V : Type*} (before : K → K → Bool)

def find (k : K) : List (K × V) → Option V
  | [] => none
  | e :: m =>
    if before e.1 k then find k m
    else if before k e.1 then none
    else some e.2

def insertOrAssign (k : K) (v : V) : List (K × V) → List (K × V)
  | [] => [(k, v)]
  | e :: m =>
    if before e.1 k then e :: insertOrAssign k v m
    else if before k e.1 then (k, v) :: e :: m
    else (e.1, v) :: m

def erase (k : K) : List (K × V) → List (K × V)
  | [] => []
  | e :: m =>
    if before e.1 k then e :: erase k m
    else if before k e.1 then e :: m
    else m

structure OrderOn (P : K → Prop) : Prop where
  irrefl : ∀ a, P a → before a a = false
  trans : ∀ a b c, before a b = true → before b c = true → before a c = true
  connected : ∀ a b, P a → P b → before a b = false → before b a = false → a = b

structure SortedOn (P : K → Prop) (m : List (K × V)) : Prop where
  keys : ∀ e ∈ m, P e.1
  sorted : m.Pairwise (fun a b => before a.1 b.1 = true)

variable {before} {P : K → Prop}

theorem sortedOn_nil : SortedOn before P ([] : List (K × V)) :=
  ⟨by simp, List.Pairwise.nil⟩

theorem SortedOn.tail {e : K × V} {m : List (K × V)} (h : SortedOn before P (e :: m)) :
    SortedOn before P m :=
  ⟨fun x hx => h.keys x (List.mem_cons_of_mem e hx), (List.pairwise_cons.mp h.sorted).2⟩

theorem SortedOn.first {e : K × V} {m : List (K × V)} (h : SortedOn before P (e :: m)) :
    ∀ x ∈ m, before e.1 x.1 = true := (List.pairwise_cons.mp h.sorted).1

theorem OrderOn.ne_of_before (ho : OrderOn before P) {a b : K} (ha : P a)
    (h : before a b = true) : b ≠ a := by
  rintro rfl
  rw [ho.irrefl b ha] at h
  cases h

theorem ne_of_before_first (ho : OrderOn before P) {k : K} (hk : P k) {e : K × V}
    {m : List (K × V)} (hm : SortedOn before P (e :: m)) (h : before k e.1 = true) :
    ∀ y ∈ e :: m, y.1 ≠ k := by
  intro y hy
  rcases List.mem_cons.mp hy with rfl | hy
  · exact ho.ne_of_before hk h
  · exact ho.ne_of_before hk (ho.trans _ _ _ h (hm.first y hy))

theorem ne_first (ho : OrderOn before P) {e : K × V} {m : List (K × V)}
    (hm : SortedOn before P (e :: m)) : ∀ y ∈ m, y.1 ≠ e.1 :=
  fun y hy => ho.ne_of_before (hm.keys e List.mem_cons_self) (hm.first y hy)

/-- Without an entry there is nothing to erase. -/
theorem erase_of_find (k : K) (m : List (K × V)) (h : find before k m = none) :
    erase before k m = m := by
  induction m with
  | nil => rfl
  | cons e m ih =>
    unfold find at h
    unfold erase
    split_ifs at h ⊢
    · rw [ih h]
    · rfl

theorem mem_insertOrAssign (ho : OrderOn before P) (k : K) (v : V) (hk : P k)
    (m : List (K × V)) (hm : SortedOn before P m) (x : K × V) :
    x ∈ insertOrAssign before k v m ↔ x = (k, v) ∨ x.1 ≠ k ∧ x ∈ m := by
  induction m with
  | nil => simp [insertOrAssign]
  | cons e m ih =>
    have he := hm.keys e List.mem_cons_self
    unfold insertOrAssign
    split_ifs with h1 h2
    · have hne : e.1 ≠ k := (ho.ne_of_before he h1).symm
      rw [List.mem_cons, ih hm.tail, List.mem_cons]
      constructor
      · rintro (rfl | rfl | ⟨hx, hmem⟩)
        · exact .inr ⟨hne, .inl rfl⟩
        · exact .inl rfl
        · exact .inr ⟨hx, .inr hmem⟩
      · rintro (rfl | ⟨hx, rfl | hmem⟩)
        · exact .inr (.inl rfl)
        · exact .inl rfl
        · exact .inr (.inr ⟨hx, hmem⟩)
    · have hall := ne_of_before_first ho hk hm h2
      rw [List.mem_cons]
      exact ⟨fun h => h.imp id (fun hx => ⟨hall x hx, hx⟩), fun h => h.imp id (fun hx => hx.2)⟩
    · have heq : e.1 = k := ho.connected _ _ he hk (by simpa using h1) (by simpa using h2)
      have hall : ∀ y ∈ m, y.1 ≠ k := heq ▸ ne_first ho hm
      rw [List.mem_cons, List.mem_cons, heq]
      constructor
      · rintro (rfl | hx)
        · exact .inl rfl
        · exact .inr ⟨hall x hx, .inr hx⟩
      · rintro (rfl | ⟨hx, rfl | hmem⟩)
        · exact .inl rfl
        · exact absurd heq hx
        · exact .inr hmem

theorem mem_erase (ho : OrderOn before P) (k : K) (hk : P k) (m : List (K × V))
    (hm : SortedOn before P m) (x : K × V) :
    x ∈ erase before k m ↔ x.1 ≠ k ∧ x ∈ m := by
  induction m with
  | nil => simp [erase]
  | cons e m ih =>
    have he := hm.keys e List.mem_cons_self
    unfold erase
    split_ifs with h1 h2
    · have hne : e.1 ≠ k := (ho.ne_of_before he h1).symm
      rw [List.mem_cons, ih hm.tail, List.mem_cons]
      constructor
      · rintro (rfl | ⟨hx, hmem⟩)
        · exact ⟨hne, .inl rfl⟩
        · exact ⟨hx, .inr hmem⟩
      · rintro ⟨hx, rfl | hmem⟩
        · exact .inl rfl
        · exact .inr ⟨hx, hmem⟩
    · have hall := ne_of_before_first ho hk hm h2
      exact ⟨fun hx => ⟨hall x hx, hx⟩, fun hx => hx.2⟩
    · have heq : e.1 = k := ho.connected _ _ he hk (by simpa using h1) (by simpa using h2)
      have hall : ∀ y ∈ m, y.1 ≠ k := heq ▸ ne_first ho hm
      rw [List.mem_cons]
      constructor
      · exact fun hx => ⟨hall x hx, .inr hx⟩
      · rintro ⟨hx, rfl | hmem⟩
        · exact absurd heq hx
        · exact hmem

theorem sortedOn_insertOrAssign (ho : OrderOn before P) (k : K) (v : V) (hk : P k)
    (m : List (K × V)) (hm : SortedOn before P m) :
    SortedOn before P (insertOrAssign before k v m) := by
  refine ⟨?_, ?_⟩
  · intro x hx
    rcases (mem_insertOrAssign ho k v hk m hm x).mp hx with rfl | ⟨-, hmem⟩
    · exact hk
    · exact hm.keys x hmem
  · induction m with
    | nil => simp [insertOrAssign]
    | cons e m ih =>
      have he := hm.keys e List.mem_cons_self
      unfold insertOrAssign
      split_ifs with h1 h2
      · apply List.pairwise_cons.mpr
        refine ⟨?_, ih hm.tail⟩
        intro x hx
        rcases (mem_insertOrAssign ho k v hk m hm.tail x).mp hx with rfl | ⟨-, hmem⟩
        · exact h1
        · exact hm.first x hmem
      · apply List.pairwise_cons.mpr
        refine ⟨?_, hm.sorted⟩
        intro x hx
        rcases List.mem_cons.mp hx with rfl | hmem
        · exact h2
        · exact ho.trans _ _ _ h2 (hm.first x hmem)
      · exact List.pairwise_cons.mpr (List.pairwise_cons.mp hm.sorted)

theorem erase_sublist (k : K) (m : List (K × V)) : (erase before k m).Sublist m := by
  induction m with
  | nil => exact List.Sublist.slnil
  | cons e m ih =>
    unfold erase
    split_ifs
    · exact ih.cons_cons e
    · exact List.Sublist.refl _
    · exact List.sublist_cons_self e m

theorem sortedOn_erase (k : K) (m : List (K × V)) (hm : SortedOn before P m) :
    SortedOn before P (erase before k m) :=
  ⟨fun x hx => hm.keys x ((erase_sublist k m).subset hx), hm.sorted.sublist (erase_sublist k m)⟩

end SortedEntries
