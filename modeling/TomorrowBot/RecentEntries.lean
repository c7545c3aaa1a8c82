import Mathlib.Data.List.DropRight

/-!
# The last entries of a queue

A queue that keeps its last entries up to a capacity, read as the end of the
list of everything that was ever pushed.
-/

set_option autoImplicit false

namespace RecentEntries

variable {α : Type*} {n : ℕ}

theorem rtake_of_length_le {l : List α} (h : l.length ≤ n) : l.rtake n = l := by
  rw [List.rtake, Nat.sub_eq_zero_of_le h, List.drop_zero]

theorem length_rtake_le (n : ℕ) (l : List α) : (l.rtake n).length ≤ n := by
  rw [List.rtake, List.length_drop]
  omega

theorem rtake_append_rtake (n : ℕ) (l m : List α) :
    (l.rtake n ++ m).rtake n = (l ++ m).rtake n := by
  simp only [List.rtake, List.length_append, List.length_drop]
  rw [← List.drop_append_of_le_length (by omega), List.drop_drop]
  congr 1
  omega

theorem rtake_sublist (n : ℕ) (l : List α) : (l.rtake n).Sublist l := List.drop_sublist _ _

theorem getLast_rtake (hn : 0 < n) (l : List α) : (l.rtake n).getLast? = l.getLast? := by
  obtain ⟨k, rfl⟩ := Nat.exists_eq_succ_of_ne_zero hn.ne'
  rcases List.eq_nil_or_concat l with rfl | ⟨l, last, rfl⟩
  · rw [List.rtake_nil]
  · rw [List.concat_eq_append, List.rtake_concat_succ]
    simp

/-- An entry is kept until as many entries as the capacity were pushed after it. -/
theorem mem_rtake_iff {x : α} {l m : List α} (hm : x ∉ m) :
    x ∈ (l ++ x :: m).rtake n ↔ m.length < n := by
  rw [List.rtake, List.length_append, List.length_cons]
  constructor
  · intro h
    by_contra hle
    have hcut : l.length + (m.length + 1) - n = l.length + 1 + (m.length - n) := by omega
    rw [hcut, ← List.drop_drop, List.append_cons, List.drop_left' (by simp)] at h
    exact hm (List.mem_of_mem_drop h)
  · intro h
    rw [List.drop_append_of_le_length (by omega)]
    exact List.mem_append_right _ List.mem_cons_self

def Streak (n : ℕ) (x : α) (l : List α) : Prop := List.replicate n x <:+ l

theorem streak_zero (x : α) (l : List α) : Streak 0 x l := List.nil_suffix

theorem streak_of_le {n m : ℕ} {x : α} {l : List α} (h : Streak m x l) (hn : n ≤ m) :
    Streak n x l := by
  obtain ⟨k, rfl⟩ := Nat.exists_eq_add_of_le hn
  rw [Streak, Nat.add_comm, List.replicate_add] at h
  exact (List.suffix_append _ _).trans h

theorem streak_concat {x : α} {l : List α} : Streak (n + 1) x (l ++ [x]) ↔ Streak n x l := by
  rw [Streak, List.replicate_succ', List.suffix_concat_iff]
  simp [Streak]

theorem streak_concat_of_ne {x y : α} {l : List α} (h : x ≠ y) : Streak n x (l ++ [y]) ↔ n = 0 := by
  cases n with
  | zero => simp [streak_zero]
  | succ n =>
    rw [Streak, List.replicate_succ', List.suffix_concat_iff]
    simp [h]

variable [DecidableEq α]

def streakLength (x : α) (l : List α) : ℕ := (l.reverse.takeWhile (fun y => y = x)).length

theorem streakLength_concat (x y : α) (l : List α) :
    streakLength x (l ++ [y]) = if y = x then streakLength x l + 1 else 0 := by
  unfold streakLength
  split_ifs with h <;> simp [h]

theorem streak_iff_le (n : ℕ) (x : α) (l : List α) : Streak n x l ↔ n ≤ streakLength x l := by
  induction l using List.reverseRecOn generalizing n with
  | nil => simp [Streak, streakLength]
  | append_singleton l y ih =>
    rw [streakLength_concat]
    split_ifs with h
    · subst h
      cases n with
      | zero => simp [streak_zero]
      | succ n => rw [streak_concat, ih, Nat.add_le_add_iff_right]
    · rw [streak_concat_of_ne (Ne.symm h), Nat.le_zero]

end RecentEntries
