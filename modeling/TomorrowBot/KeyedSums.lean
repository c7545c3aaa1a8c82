import Mathlib.Data.List.AList
import Mathlib.Algebra.BigOperators.Group.List.Basic
import Mathlib.Algebra.Group.Basic

/-!
# Weighted totals of keyed maps

A keyed map is an association list with one entry per key. Its weighted
total is the sum of a weight over the entries. Erasing, inserting and
overwriting one key change the total by the weights of that key alone.
-/

set_option autoImplicit false

namespace Keyed

variable {α V M : Type*} [DecidableEq α]

abbrev Map (α V : Type*) := AList (fun _ : α => V)

def modify (m : Map α V) (k : α) (f : V → V) : Map α V :=
  match m.lookup k with
  | none => m
  | some v => m.insert k (f v)

variable (m : Map α V) (k : α)

theorem lookup_modify_self (f : V → V) : (modify m k f).lookup k = (m.lookup k).map f := by
  cases h : m.lookup k with
  | none => simp [modify, h]
  | some v => simp [modify, h]

theorem lookup_modify_ne (j k : α) (f : V → V) (h : j ≠ k) :
    (modify m k f).lookup j = m.lookup j := by
  cases hk : m.lookup k with
  | none => simp [modify, hk]
  | some v => simp [modify, hk, AList.lookup_insert_ne h]

theorem modify_insert (v : V) (f : V → V) : modify (m.insert k v) k f = m.insert k (f v) := by
  simp [modify, AList.insert_insert]

theorem modify_modify (f g : V → V) :
    modify (modify m k f) k g = modify m k (fun v => g (f v)) := by
  cases h : m.lookup k with
  | none => simp [modify, h]
  | some v => simp [modify, h, AList.insert_insert]

theorem erase_insert (v : V) : (m.insert k v).erase k = m.erase k := by
  apply AList.ext
  change List.kerase k (⟨k, v⟩ :: List.kerase k m.entries) = List.kerase k m.entries
  exact List.kerase_cons_eq rfl

theorem lookup_erase_iff (j k : α) (v : V) :
    (m.erase k).lookup j = some v ↔ m.lookup j = some v ∧ k ≠ j := by
  by_cases h : j = k
  · subst h
    simp
  · rw [AList.lookup_erase_ne h]
    exact ⟨fun hv => ⟨hv, Ne.symm h⟩, And.left⟩

theorem mem_iff_lookup : k ∈ m ↔ ∃ v, m.lookup k = some v := by
  rw [← AList.lookup_isSome, Option.isSome_iff_exists]

def All (P : α → V → Prop) (m : Map α V) : Prop := ∀ k v, m.lookup k = some v → P k v

variable (P : α → V → Prop)

theorem all_empty : All P (∅ : Map α V) := by
  intro k v h
  rw [AList.lookup_empty] at h
  exact absurd h (by simp)

theorem all_insert (m : Map α V) (k : α) (v : V) (hm : All P m)
    (hv : P k v) : All P (m.insert k v) := by
  intro j u h
  by_cases hj : j = k
  · subst hj
    rw [AList.lookup_insert, Option.some.injEq] at h
    exact h ▸ hv
  · rw [AList.lookup_insert_ne hj] at h
    exact hm j u h

theorem all_erase (m : Map α V) (k : α) (hm : All P m) : All P (m.erase k) := by
  intro j u h
  by_cases hj : j = k
  · subst hj
    rw [AList.lookup_erase] at h
    exact absurd h (by simp)
  · rw [AList.lookup_erase_ne hj] at h
    exact hm j u h

theorem all_modify (m : Map α V) (k : α) (f : V → V) (hm : All P m)
    (hf : ∀ v, P k v → P k (f v)) : All P (modify m k f) := by
  unfold modify
  cases h : m.lookup k with
  | none => exact hm
  | some v => exact all_insert P m k (f v) hm (hf v (hm k v h))

section Purge

def purge (p : V → Prop) [DecidablePred p] (m : Map α V) : Map α V :=
  m.entries.foldl (fun m e => if p e.2 then m.erase e.1 else m) m

theorem lookup_purge_fold (p : V → Prop) [DecidablePred p] (k : α)
    (entries : List (Sigma fun _ : α => V)) (m : Map α V) :
    (entries.foldl (fun m e => if p e.2 then m.erase e.1 else m) m).lookup k =
      if ∃ e ∈ entries, e.1 = k ∧ p e.2 then none else m.lookup k := by
  induction entries generalizing m with
  | nil => simp
  | cons e entries ih =>
    rw [List.foldl_cons, ih]
    by_cases hrest : ∃ x ∈ entries, x.1 = k ∧ p x.2
    · obtain ⟨x, hx, hk⟩ := hrest
      rw [if_pos ⟨x, hx, hk⟩, if_pos ⟨x, List.mem_cons_of_mem e hx, hk⟩]
    · rw [if_neg hrest]
      by_cases hp : p e.2
      · rw [if_pos hp]
        by_cases hk : e.1 = k
        · subst hk
          rw [AList.lookup_erase, if_pos ⟨e, List.mem_cons_self, rfl, hp⟩]
        · rw [AList.lookup_erase_ne (Ne.symm hk), if_neg]
          rintro ⟨x, hx, hxk, hxp⟩
          rcases List.mem_cons.mp hx with rfl | hx
          · exact hk hxk
          · exact hrest ⟨x, hx, hxk, hxp⟩
      · rw [if_neg hp, if_neg]
        rintro ⟨x, hx, hxk, hxp⟩
        rcases List.mem_cons.mp hx with rfl | hx
        · exact hp hxp
        · exact hrest ⟨x, hx, hxk, hxp⟩

/-- What is left at a key is the value that was there, unless it passes the test. -/
theorem lookup_purge (p : V → Prop) [DecidablePred p] (m : Map α V) (k : α) :
    (purge p m).lookup k = (m.lookup k).filter (fun v => !decide (p v)) := by
  rw [purge, lookup_purge_fold]
  cases hlook : m.lookup k with
  | none => simp
  | some v =>
    have hmem : (⟨k, v⟩ : Sigma fun _ : α => V) ∈ m.entries := AList.mem_lookup_iff.mp hlook
    by_cases hp : p v
    · rw [if_pos ⟨_, hmem, rfl, hp⟩, Option.filter_some]
      simp [hp]
    · rw [if_neg, Option.filter_some]
      · simp [hp]
      · rintro ⟨⟨j, u⟩, hx, rfl, hu⟩
        have hu' : m.lookup j = some u := AList.mem_lookup_iff.mpr hx
        rw [hlook, Option.some.injEq] at hu'
        exact hp (hu' ▸ hu)

end Purge

section Totals
variable [AddCommMonoid M]

def total (w : V → M) (m : Map α V) : M := (m.entries.map (fun e => w e.2)).sum

variable (w : V → M)

omit [DecidableEq α] in
theorem total_empty : total w (∅ : Map α V) = 0 := rfl

def weightAt (w : V → M) (m : Map α V) (k : α) : M := (m.lookup k).elim 0 w

theorem weightAt_some (m : Map α V) (k : α) (v : V) (h : m.lookup k = some v) :
    weightAt w m k = w v := by
  simp [weightAt, h]

theorem weightAt_none (m : Map α V) (k : α) (h : m.lookup k = none) : weightAt w m k = 0 := by
  simp [weightAt, h]

private theorem sum_kerase (l : List (Sigma fun _ : α => V)) (k : α) :
    (l.map (fun e => w e.2)).sum =
      (l.dlookup k).elim 0 w + ((l.kerase k).map (fun e => w e.2)).sum := by
  induction l with
  | nil => simp
  | cons e l ih =>
    obtain ⟨j, v⟩ := e
    by_cases h : k = j
    · subst h
      simp [List.dlookup_cons_eq]
    · rw [List.dlookup_cons_ne _ _ h, List.kerase_cons_ne h]
      simp only [List.map_cons, List.sum_cons]
      rw [ih, ← add_assoc, ← add_assoc, add_comm (w v)]

theorem total_split (m : Map α V) (k : α) : total w m = weightAt w m k + total w (m.erase k) :=
  sum_kerase w m.entries k

theorem total_insert (m : Map α V) (k : α) (v : V) :
    total w (m.insert k v) = w v + total w (m.erase k) := by
  simp only [total, AList.entries_insert, List.map_cons, List.sum_cons]
  rfl

end Totals

section Differences
variable [AddCommGroup M]

theorem total_erase (w : V → M) (m : Map α V) (k : α) :
    total w (m.erase k) = total w m - weightAt w m k := by
  rw [total_split w m k, add_sub_cancel_left]

theorem total_insert_sub (w : V → M) (m : Map α V) (k : α) (v : V) :
    total w (m.insert k v) = total w m + w v - weightAt w m k := by
  rw [total_insert, total_erase, add_comm (total w m), add_sub_assoc]

end Differences

omit [DecidableEq α] in
theorem foldl_eq_total [AddCommMonoid M] (w : V → M) (m : Map α V) (c : M) :
    m.entries.foldl (fun acc e => acc + w e.2) c = c + total w m := by
  rw [total]
  generalize m.entries = l
  induction l generalizing c with
  | nil => simp
  | cons e l ih => rw [List.foldl_cons, ih, List.map_cons, List.sum_cons, add_assoc]

end Keyed
