import Mathlib.Data.List.Fold
import Mathlib.Data.List.Perm.Basic
import Mathlib.Order.MinMax

/-!
# The greatest and the least of a list

The greatest element of a list over a start value, and the least one. Both
are determined by the members, so neither depends on their order.
-/

set_option autoImplicit false

namespace Extremes

variable {α : Type*} [LinearOrder α]

def greatest (b : α) (l : List α) : α := l.foldr max b

def least (b : α) (l : List α) : α := l.foldr min b

variable (b : α) (l : List α)

theorem foldl_max : l.foldl max b = greatest b l := List.foldl_eq_foldr

theorem foldl_min : l.foldl min b = least b l := List.foldl_eq_foldr

theorem greatest_le_iff (b x : α) (l : List α) :
    greatest b l ≤ x ↔ b ≤ x ∧ ∀ y ∈ l, y ≤ x := by
  induction l with
  | nil => simp [greatest]
  | cons y l ih =>
    rw [greatest, List.foldr_cons, max_le_iff, List.forall_mem_cons]
    show y ≤ x ∧ greatest b l ≤ x ↔ _
    rw [ih]
    exact and_left_comm

theorem le_least_iff (b x : α) (l : List α) : x ≤ least b l ↔ x ≤ b ∧ ∀ y ∈ l, x ≤ y :=
  greatest_le_iff (α := αᵒᵈ) b x l

theorem le_greatest : b ≤ greatest b l :=
  ((greatest_le_iff b _ l).mp le_rfl).1

theorem le_greatest_of_mem {b y : α} {l : List α} (h : y ∈ l) : y ≤ greatest b l :=
  ((greatest_le_iff b _ l).mp le_rfl).2 y h

theorem least_le : least b l ≤ b := ((le_least_iff b _ l).mp le_rfl).1

theorem least_le_of_mem {b y : α} {l : List α} (h : y ∈ l) : least b l ≤ y :=
  ((le_least_iff b _ l).mp le_rfl).2 y h

theorem greatest_cons (b y : α) (l : List α) : greatest b (y::l) = max y (greatest b l) := rfl

theorem greatest_max (b y : α) (l : List α) :
    greatest (max b y) l = greatest b (y::l) := by
  apply eq_of_forall_ge_iff
  intro x
  rw [greatest_le_iff, greatest_le_iff, max_le_iff, List.forall_mem_cons, and_assoc]

theorem least_min (b y : α) (l : List α) : least (min b y) l = least b (y::l) :=
  greatest_max (α := αᵒᵈ) b y l

theorem greatest_mem : greatest b l = b ∨ greatest b l ∈ l := by
  induction l with
  | nil => exact Or.inl rfl
  | cons y l ih =>
    rw [greatest_cons]
    rcases max_choice y (greatest b l) with h | h
    · rw [h]
      exact Or.inr List.mem_cons_self
    · rw [h]
      exact ih.imp id (List.mem_cons_of_mem y)

theorem greatest_perm {l m : List α} (h : l.Perm m) : greatest b l = greatest b m := by
  apply eq_of_forall_ge_iff
  intro x
  rw [greatest_le_iff, greatest_le_iff]
  simp only [h.mem_iff]

theorem least_perm {l m : List α} (h : l.Perm m) : least b l = least b m :=
  greatest_perm (α := αᵒᵈ) b h

end Extremes
