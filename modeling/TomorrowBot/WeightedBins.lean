import Mathlib.Algebra.BigOperators.Intervals
import Mathlib.Algebra.BigOperators.Group.List.Basic
import Mathlib.Algebra.Order.BigOperators.Group.Finset
import Mathlib.Algebra.Order.BigOperators.Group.List
import Mathlib.Data.List.GetD

/-!
# Weights collected in bins

Each item adds its weight to one of finitely many bins. The weight of a range of
bins grows by one bin at either end.
-/

set_option autoImplicit false

namespace WeightedBins

variable {ι M : Type*} [AddCommMonoid M]

def weightAt (index : ι → ℕ) (weight : ι → M) (items : List ι) (i : ℕ) : M :=
  ((items.filter (fun x => index x = i)).map weight).sum

def collect (index : ι → ℕ) (weight : ι → M) (start : List M) (items : List ι) : List M :=
  items.foldl (fun bins x => bins.modify (index x) (fun v => v + weight x)) start

def between (bins : List M) (low high : ℕ) : M := ∑ i ∈ Finset.Icc low high, bins.getD i 0

variable (index : ι → ℕ) (weight : ι → M)

theorem collect_length (start : List M) (items : List ι) :
    (collect index weight start items).length = start.length := by
  induction items generalizing start with
  | nil => rfl
  | cons x items ih =>
    rw [collect, List.foldl_cons]
    exact (ih _).trans (List.length_modify _ _ _)

theorem weightAt_cons (x : ι) (items : List ι) (i : ℕ) :
    weightAt index weight (x::items) i =
      (if index x = i then weight x else 0) + weightAt index weight items i := by
  unfold weightAt
  by_cases h : index x = i
  · rw [List.filter_cons_of_pos (by simpa using h), List.map_cons, List.sum_cons, if_pos h]
  · rw [List.filter_cons_of_neg (by simpa using h), if_neg h, zero_add]

/-- A bin holds what it held at the start and what its items weigh. -/
theorem collect_getD (start : List M) (items : List ι) (i : ℕ) (hi : i < start.length) :
    (collect index weight start items).getD i 0 =
      start.getD i 0 + weightAt index weight items i := by
  induction items generalizing start with
  | nil => simp [collect, weightAt]
  | cons x items ih =>
    have hmodified : (start.modify (index x) (fun v => v + weight x)).getD i 0 =
        start.getD i 0 + if index x = i then weight x else 0 := by
      by_cases h : index x = i
      · simp [h, hi]
      · simp [h]
    have hlength : i < (start.modify (index x) (fun v => v + weight x)).length := by
      rwa [List.length_modify]
    rw [weightAt_cons, ← add_assoc, ← hmodified]
    exact ih _ hlength

theorem sum_weightAt (n : ℕ) (items : List ι) (h : ∀ x ∈ items, index x < n) :
    ∑ i ∈ Finset.range n, weightAt index weight items i = (items.map weight).sum := by
  induction items with
  | nil => simp [weightAt]
  | cons x items ih =>
    have hx := h x List.mem_cons_self
    have hrest := ih (fun y hy => h y (List.mem_cons_of_mem x hy))
    simp only [weightAt_cons, Finset.sum_add_distrib]
    rw [hrest, Finset.sum_ite_eq, if_pos (Finset.mem_range.mpr hx), List.map_cons, List.sum_cons]

variable (bins : List M) {low high : ℕ}

theorem between_self (i : ℕ) : between bins i i = bins.getD i 0 := by
  rw [between, Finset.Icc_self, Finset.sum_singleton]

theorem between_high (h : low ≤ high + 1) :
    between bins low (high + 1) = between bins low high + bins.getD (high + 1) 0 :=
  Finset.sum_Icc_succ_top h _

theorem between_low (h : 0 < low) (hle : low ≤ high) :
    between bins (low - 1) high = between bins low high + bins.getD (low - 1) 0 := by
  obtain ⟨k, rfl⟩ := Nat.exists_eq_succ_of_ne_zero h.ne'
  have hioc : Finset.Icc k.succ high = Finset.Ioc k high := by
    ext i
    rw [Finset.mem_Icc, Finset.mem_Ioc, Nat.succ_le_iff]
  rw [between, between, Nat.succ_sub_one, ← Finset.sum_Ioc_add_eq_sum_Icc (by omega), hioc]

theorem between_all (items : List ι) (n : ℕ) (h : ∀ x ∈ items, index x < n) (hn : 0 < n) :
    between (collect index weight (List.replicate n 0) items) 0 (n - 1) =
      (items.map weight).sum := by
  rw [← sum_weightAt index weight n items h, between]
  have hrange : Finset.Icc 0 (n - 1) = Finset.range n := by
    ext i
    simp only [Finset.mem_Icc, Finset.mem_range]
    omega
  rw [hrange]
  apply Finset.sum_congr rfl
  intro i hi
  have hlt : i < (List.replicate n (0 : M)).length := by
    rw [List.length_replicate]
    exact Finset.mem_range.mp hi
  have hempty : (List.replicate n (0 : M)).getD i 0 = 0 := by
    rw [List.getD_eq_getElem?_getD, List.getElem?_getD_replicate_default_eq]
  rw [collect_getD index weight _ _ i hlt, hempty, zero_add]

section Largest
variable {K : Type*} [LinearOrder K]

def scanLargest (best : ℕ × K) (values : List K) (k : ℕ) : ℕ × K :=
  (values.zipIdx k).foldl (fun best v => if best.2 < v.1 then (v.2, v.1) else best) best

theorem scanLargest_spec (values : List K) (best : ℕ × K) (k : ℕ) :
    best.2 ≤ (scanLargest best values k).2 ∧
      (∀ v ∈ values, v ≤ (scanLargest best values k).2) ∧
        (scanLargest best values k = best ∨
          ∃ i, values[i]? = some (scanLargest best values k).2 ∧
            (scanLargest best values k).1 = k + i) := by
  induction values generalizing best k with
  | nil => exact ⟨le_rfl, fun v hv => absurd hv (by simp), Or.inl rfl⟩
  | cons v values ih =>
    have hcons : scanLargest best (v::values) k =
        scanLargest (if best.2 < v then (k, v) else best) values (k + 1) := rfl
    rw [hcons]
    obtain ⟨hbest, hall, hwhere⟩ := ih (if best.2 < v then (k, v) else best) (k + 1)
    have hfirst : best.2 ≤ (if best.2 < v then (k, v) else best).2 ∧
        v ≤ (if best.2 < v then (k, v) else best).2 := by
      split_ifs with h
      · exact ⟨h.le, le_rfl⟩
      · exact ⟨le_rfl, not_lt.mp h⟩
    refine ⟨hfirst.1.trans hbest, ?_, ?_⟩
    · intro u hu
      rcases List.mem_cons.mp hu with rfl | hrest
      · exact hfirst.2.trans hbest
      · exact hall u hrest
    · rcases hwhere with hkept | ⟨i, hget, hindex⟩
      · rw [hkept]
        split_ifs
        · exact Or.inr ⟨0, rfl, rfl⟩
        · exact Or.inl rfl
      · exact Or.inr ⟨i + 1, hget, by omega⟩

end Largest

end WeightedBins
