import Mathlib.Data.List.Induction
import TomorrowBot.KeyedSums

/-!
# Indexing a list by a key

An index is built by one pass over a list in which an entry with a key is
written under it, over an earlier entry with the same key. A lookup is then
the last entry that carries the key. When no two entries share a key, a lookup
finds exactly the entry that carries it.
-/

set_option autoImplicit false

namespace Keyed

variable {α β : Type*} [DecidableEq α]

def indexStep (key : β → Option α) (m : Map α β) (x : β) : Map α β :=
  match key x with
  | none => m
  | some k => m.insert k x

def indexBy (key : β → Option α) (xs : List β) : Map α β := xs.foldl (indexStep key) ∅

variable (key : β → Option α) (xs : List β)

theorem indexBy_append (x : β) : indexBy key (xs ++ [x]) = indexStep key (indexBy key xs) x := by
  simp [indexBy]

theorem lookup_indexStep (m : Map α β) (x : β) (k : α) :
    (indexStep key m x).lookup k = if key x = some k then some x else m.lookup k := by
  unfold indexStep
  rcases h : key x with _ | j
  · simp
  · by_cases hj : k = j
    · subst hj
      simp
    · simp [AList.lookup_insert_ne hj, Ne.symm hj]

theorem lookup_indexBy (k : α) :
    (indexBy key xs).lookup k = xs.reverse.find? (fun x => key x = some k) := by
  induction xs using List.reverseRecOn with
  | nil => simp [indexBy]
  | append_singleton xs x ih =>
    rw [indexBy_append, lookup_indexStep, List.reverse_append, List.reverse_singleton,
      List.singleton_append, List.find?_cons, ih]
    by_cases h : key x = some k
    · simp [h]
    · simp [h]

theorem lookup_indexBy_none (k : α) :
    (indexBy key xs).lookup k = none ↔ ∀ x ∈ xs, key x ≠ some k := by
  simp [lookup_indexBy]

theorem lookup_indexBy_mem (k : α) (x : β)
    (h : (indexBy key xs).lookup k = some x) : x ∈ xs ∧ key x = some k := by
  rw [lookup_indexBy] at h
  have hm : x ∈ xs.reverse := List.mem_of_find?_eq_some h
  have hk := List.find?_some h
  exact ⟨List.mem_reverse.mp hm, by simpa using hk⟩

def DistinctKeys (key : β → Option α) (xs : List β) : Prop :=
  xs.Pairwise (fun x y => ∀ k, key x = some k → key y ≠ some k)

omit [DecidableEq α] in
theorem DistinctKeys.eq {key : β → Option α} {xs : List β} (hd : DistinctKeys key xs) {k : α}
    {x y : β} (hx : x ∈ xs) (hy : y ∈ xs) (hxk : key x = some k) (hyk : key y = some k) :
    x = y := by
  induction xs with
  | nil => cases hx
  | cons z xs ih =>
    obtain ⟨hz, hd⟩ := List.pairwise_cons.mp hd
    rcases List.mem_cons.mp hx with hxz | hx
    · rcases List.mem_cons.mp hy with hyz | hy
      · rw [hxz, hyz]
      · exact absurd hyk (hz y hy k (hxz ▸ hxk))
    · rcases List.mem_cons.mp hy with hyz | hy
      · exact absurd hxk (hz x hx k (hyz ▸ hyk))
      · exact ih hd hx hy

omit [DecidableEq α] in
/-- With distinct keys, entries of one key that pass a test number one or none. -/
theorem DistinctKeys.countP {key : β → Option α} {xs : List β} (hd : DistinctKeys key xs) (k : α)
    (p : β → Bool) (hp : ∀ x, p x = true → key x = some k) :
    ((∃ x ∈ xs, p x = true) → xs.countP p = 1) ∧ ((¬ ∃ x ∈ xs, p x = true) → xs.countP p = 0) := by
  have hnone : ∀ ys : List β, (¬ ∃ x ∈ ys, p x = true) → ys.countP p = 0 := by
    intro ys h
    rw [List.countP_eq_zero]
    exact fun x hx hpx => h ⟨x, hx, hpx⟩
  refine ⟨?_, hnone xs⟩
  induction xs with
  | nil => simp
  | cons x xs ih =>
    obtain ⟨hx, hrest⟩ := List.pairwise_cons.mp hd
    rintro ⟨y, hy, hpy⟩
    by_cases hpx : p x = true
    · have hzero := hnone xs (fun ⟨z, hz, hpz⟩ => hx z hz k (hp x hpx) (hp z hpz))
      simp [hpx, hzero]
    · have hmem : y ∈ xs := by
        rcases List.mem_cons.mp hy with rfl | hy
        · exact absurd hpy hpx
        · exact hy
      simp [hpx, ih hrest ⟨y, hmem, hpy⟩]

theorem lookup_indexBy_iff (hd : DistinctKeys key xs) (k : α) (x : β) :
    (indexBy key xs).lookup k = some x ↔ x ∈ xs ∧ key x = some k := by
  constructor
  · exact lookup_indexBy_mem key xs k x
  · rintro ⟨hx, hk⟩
    rcases h : (indexBy key xs).lookup k with _ | y
    · exact absurd hk ((lookup_indexBy_none key xs k).mp h x hx)
    · obtain ⟨hy, hyk⟩ := lookup_indexBy_mem key xs k y h
      rw [hd.eq hy hx hyk hk]

end Keyed
