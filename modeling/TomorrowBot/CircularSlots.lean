import Mathlib.Data.List.Rotate
import TomorrowBot.RecentEntries

/-!
# Entries written in a circle

Entries go one after the other into a fixed number of slots, each over the one
that is a full circle older. The slots then keep the last entries, read in
order from the oldest; read from the first slot on they are the same entries
in another order.
-/

set_option autoImplicit false

namespace CircularSlots

variable {α : Type*} {capacity : ℕ} {slots : ℕ → α} {l : List α}

def Kept (capacity : ℕ) (slots : ℕ → α) (l : List α) : Prop :=
  ∀ i, (hi : i < l.length) → l.length ≤ i + capacity → slots (i % capacity) = l[i]

theorem kept_nil (capacity : ℕ) (slots : ℕ → α) : Kept capacity slots [] :=
  fun i hi => absurd hi (Nat.not_lt_zero i)

/-- Less than a full circle apart, two entries have different slots. -/
theorem slot_ne {i j : ℕ} (hij : i < j) (hclose : j < i + capacity) :
    i % capacity ≠ j % capacity := by
  intro h
  have hdvd : capacity ∣ j - i := Nat.dvd_of_mod_eq_zero (Nat.sub_mod_eq_zero_of_mod_eq h.symm)
  have := Nat.le_of_dvd (by omega) hdvd
  omega

theorem kept_set (h : ∀ i, (hi : i < l.length) → l.length < i + capacity →
    slots (i % capacity) = l[i]) (x : α) :
    Kept capacity (Function.update slots (l.length % capacity) x) (l ++ [x]) := by
  intro i hi hclose
  rw [List.length_append, List.length_singleton] at hi hclose
  by_cases hlast : i = l.length
  · subst hlast
    simp
  · have hlt : i < l.length := by omega
    rw [Function.update_of_ne (slot_ne hlt (by omega)), List.getElem_append_left hlt]
    exact h i hlt (by omega)

theorem kept_push (h : Kept capacity slots l) (x : α) :
    Kept capacity (Function.update slots (l.length % capacity) x) (l ++ [x]) :=
  kept_set (fun i hi hclose => h i hi hclose.le) x

theorem kept_amend {y : α} (h : Kept capacity slots (l ++ [y])) (x : α) :
    Kept capacity (Function.update slots (l.length % capacity) x) (l ++ [x]) := by
  refine kept_set (fun i hi hclose => ?_) x
  have hold := h i (by simp; omega) (by simp; omega)
  rwa [List.getElem_append_left hi] at hold

/-- Read from the oldest that is left, the slots are the last entries. -/
theorem kept_recent (h : Kept capacity slots l) :
    (List.range (min l.length capacity)).map
      (fun i => slots ((l.length - min l.length capacity + i) % capacity)) =
        l.rtake capacity := by
  apply List.ext_getElem
  · simp [List.rtake]
    omega
  · intro i hi hi'
    simp only [List.length_map, List.length_range] at hi
    rw [List.getElem_map, List.getElem_range]
    simp only [List.rtake, List.getElem_drop]
    rw [h _ (by omega) (by omega)]
    congr 1
    omega

theorem kept_perm (h : Kept capacity slots l) :
    ((List.range (min l.length capacity)).map slots).Perm (l.rtake capacity) := by
  rw [← kept_recent h]
  by_cases hfull : capacity ≤ l.length
  · have hrotate : (List.range (min l.length capacity)).map
        (fun i => slots ((l.length - min l.length capacity + i) % capacity)) =
          ((List.range (min l.length capacity)).map slots).rotate l.length := by
      apply List.ext_getElem
      · simp
      · intro i hi hi'
        simp only [List.length_map, List.length_range] at hi
        rw [List.getElem_rotate]
        simp only [List.getElem_map, List.getElem_range, List.length_map, List.length_range,
          Nat.min_eq_right hfull]
        congr 1
        rw [← Nat.add_mod_right (l.length - capacity + i) capacity]
        congr 1
        omega
    rw [hrotate]
    exact (List.rotate_perm _ _).symm
  · apply List.Perm.of_eq
    apply List.map_congr_left
    intro i hi
    rw [List.mem_range] at hi
    congr 1
    rw [Nat.mod_eq_of_lt (by omega)]
    omega

end CircularSlots
