import Mathlib.Algebra.Order.Group.Nat
import Mathlib.Data.List.Basic
import Mathlib.Logic.Function.Basic

/-!
# Selections with a cap on each class

A list is gone through in order; an element is kept as long as fewer elements
of its class than the cap have been kept.
-/

set_option autoImplicit false

namespace CappedSelection

variable {α κ : Type*} [DecidableEq κ] (key : α → κ) (cap : ℤ)

def capped : (κ → ℤ) → List α → List α
  | _, [] => []
  | counts, x::xs =>
    if cap ≤ counts (key x) then capped counts xs
    else x :: capped (Function.update counts (key x) (counts (key x) + 1)) xs

theorem capped_sublist (counts : κ → ℤ) (l : List α) : (capped key cap counts l).Sublist l := by
  induction l generalizing counts with
  | nil => exact List.Sublist.refl _
  | cons x xs ih =>
    rw [capped]
    split_ifs
    · exact (ih _).cons x
    · exact (ih _).cons_cons x

theorem capped_eq_iff (counts : κ → ℤ) (l : List α) : capped key cap counts l = l ↔
    ∀ x ∈ l, counts (key x) + l.countP (fun y => key y = key x) ≤ cap := by
  induction l generalizing counts with
  | nil => simp [capped]
  | cons x xs ih =>
    have hhead : ∀ z, ((x :: xs).countP (fun y => key y = key z) : ℤ) =
        xs.countP (fun y => key y = key z) + if key x = key z then 1 else 0 := by
      intro z
      rw [List.countP_cons]
      by_cases h : key x = key z <;> simp [h]
    rw [capped]
    split_ifs with hfull
    · constructor
      · intro heq
        have hlen := (capped_sublist key cap counts xs).length_le
        rw [heq, List.length_cons] at hlen
        omega
      · intro hle
        have hx := hle x (List.mem_cons_self)
        rw [hhead x, if_pos rfl] at hx
        omega
    · rw [List.cons.injEq, ih]
      have hcounts : ∀ z, Function.update counts (key x) (counts (key x) + 1) (key z) =
          counts (key z) + if key x = key z then 1 else 0 := by
        intro z
        by_cases h : key x = key z
        · rw [h, Function.update_self, if_pos rfl]
        · rw [Function.update_of_ne (Ne.symm h), if_neg h, Int.add_zero]
      constructor
      · rintro ⟨-, hle⟩ z hz
        rcases List.mem_cons.mp hz with rfl | hz
        · by_cases hex : ∃ y ∈ xs, key y = key z
          · obtain ⟨y, hy, hk⟩ := hex
            have := hle y hy
            rw [hcounts y, hk, if_pos rfl] at this
            rw [hhead z, if_pos rfl]
            omega
          · have hnone : xs.countP (fun y => key y = key z) = 0 := by
              rw [List.countP_eq_zero]
              intro y hy hk
              exact hex ⟨y, hy, by simpa using hk⟩
            rw [hhead z, if_pos rfl, hnone]
            omega
        · have := hle z hz
          rw [hcounts z] at this
          rw [hhead z]
          omega
      · intro hle
        refine ⟨rfl, fun z hz => ?_⟩
        have := hle z (List.mem_cons_of_mem x hz)
        rw [hhead z] at this
        rw [hcounts z]
        omega

theorem countP_le_of_capped (l : List α) (h0 : 0 ≤ cap)
    (h : capped key cap (fun _ => 0) l = l) (k : κ) : (l.countP (fun y => key y = k) : ℤ) ≤ cap := by
  by_cases hex : ∃ x ∈ l, key x = k
  · obtain ⟨x, hx, rfl⟩ := hex
    have := (capped_eq_iff key cap _ l).mp h x hx
    rwa [Int.zero_add] at this
  · have hnone : l.countP (fun y => key y = k) = 0 := by
      rw [List.countP_eq_zero]
      intro y hy hk
      exact hex ⟨y, hy, by simpa using hk⟩
    rw [hnone]
    exact h0

end CappedSelection
