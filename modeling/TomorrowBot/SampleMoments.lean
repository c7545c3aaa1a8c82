import Mathlib.Algebra.BigOperators.Group.List.Basic
import Mathlib.Analysis.Real.Sqrt
import Mathlib.Tactic.FieldSimp
import Mathlib.Tactic.LinearCombination

/-!
# Moments of paired samples

The moments of a list of pairs are updated one pair at a time, from the means so
far. Two samples are on one line of positive slope where their mixed moment is
not less than the geometric mean of their own.
-/

set_option autoImplicit false

namespace SampleMoments

structure Moments (K : Type*) where
  count : ℕ
  meanX : K
  meanY : K
  m2X : K
  m2Y : K
  cov : K

section Update
variable {K : Type*} [Add K] [Sub K] [Mul K] [Div K] (num : ℕ → K)

def Moments.add (m : Moments K) (z : K × K) : Moments K :=
  let k := num (m.count + 1)
  let dx := z.1 - m.meanX
  let dy := z.2 - m.meanY
  let meanX := m.meanX + dx / k
  let meanY := m.meanY + dy / k
  { count := m.count + 1
    meanX := meanX
    meanY := meanY
    m2X := m.m2X + dx * (z.1 - meanX)
    m2Y := m.m2Y + dy * (z.2 - meanY)
    cov := m.cov + dx * (z.2 - meanY) }

def momentsOf (zero : K) (zs : List (K × K)) : Moments K :=
  zs.foldl (Moments.add num) ⟨0, zero, zero, zero, zero, zero⟩

end Update

section Sums
variable {α K : Type*} [Field K] (f g : α → K) (l : List α)

def total : K := (l.map f).sum

def mean : K := total f l / l.length

def comoment : K := total (fun x => f x * g x) l - total f l * total g l / l.length

theorem total_concat (x : α) : total f (l ++ [x]) = total f l + f x := by
  simp [total]

theorem total_sub_mul (a : K) : total (fun x => g x - a * f x) l = total g l - a * total f l := by
  induction l with
  | nil => simp [total]
  | cons x l ih =>
    simp only [total, List.map_cons, List.sum_cons] at ih ⊢
    rw [ih]
    ring

theorem total_square_sub_mul (a : K) :
    total (fun x => (g x - a * f x) * (g x - a * f x)) l =
      total (fun x => g x * g x) l - 2 * a * total (fun x => f x * g x) l +
        a ^ 2 * total (fun x => f x * f x) l := by
  induction l with
  | nil => simp [total]
  | cons x l ih =>
    simp only [total, List.map_cons, List.sum_cons] at ih ⊢
    rw [ih]
    ring

theorem comoment_sub_mul (a : K) :
    comoment (fun x => g x - a * f x) (fun x => g x - a * f x) l =
      comoment g g l - 2 * a * comoment f g l + a ^ 2 * comoment f f l := by
  unfold comoment
  rw [total_square_sub_mul, total_sub_mul]
  ring

theorem total_congr {f' : α → K} (h : ∀ x ∈ l, f x = f' x) : total f l = total f' l := by
  unfold total
  rw [List.map_congr_left h]

theorem comoment_congr {f' g' : α → K} (hf : ∀ x ∈ l, f x = f' x) (hg : ∀ x ∈ l, g x = g' x) :
    comoment f g l = comoment f' g' l := by
  unfold comoment
  rw [total_congr f l hf, total_congr g l hg,
    total_congr _ l (fun x hx => by rw [hf x hx, hg x hx])]

theorem comoment_mean {a b : K} (hf : l.length * a = total f l) (hg : l.length * b = total g l) :
    comoment f g l = total (fun x => f x * g x) l - l.length * a * b := by
  unfold comoment
  rw [← hf, ← hg]
  rcases eq_or_ne (l.length : K) 0 with h | h
  · rw [h]
    ring
  · field_simp

theorem comoment_concat {a b a' b' : K} (x : α) (hf : l.length * a = total f l)
    (hg : l.length * b = total g l) (hf' : (l.length + 1) * a' = total f l + f x)
    (hg' : (l.length + 1) * b' = total g l + g x) :
    comoment f g (l ++ [x]) = comoment f g l + (f x - a) * (g x - b') := by
  have hlen : ((l ++ [x]).length : K) = l.length + 1 := by
    rw [List.length_append, List.length_singleton]
    push_cast
    rfl
  have hnew := comoment_mean f g (l ++ [x]) (a := a') (b := b')
    (by rw [hlen, total_concat, hf']) (by rw [hlen, total_concat, hg'])
  rw [hnew, comoment_mean f g l hf hg, total_concat, hlen]
  linear_combination (-b') * hf' - a * hg' + b' * hf + a * hg

variable [CharZero K]

theorem mean_step {n : ℕ} {mean total x : K} (h : n * mean = total) :
    ((n : K) + 1) * (mean + (x - mean) / ((n + 1 : ℕ) : K)) = total + x := by
  have hne : (n : K) + 1 ≠ 0 := by
    exact_mod_cast Nat.succ_ne_zero n
  push_cast
  rw [mul_add, mul_div_cancel₀ _ hne, ← h]
  ring

theorem momentsOf_spec (zs : List (K × K)) :
    (momentsOf (Nat.cast : ℕ → K) 0 zs).count = zs.length ∧
      zs.length * (momentsOf (Nat.cast : ℕ → K) 0 zs).meanX = total Prod.fst zs ∧
      zs.length * (momentsOf (Nat.cast : ℕ → K) 0 zs).meanY = total Prod.snd zs ∧
      (momentsOf (Nat.cast : ℕ → K) 0 zs).m2X = comoment Prod.fst Prod.fst zs ∧
      (momentsOf (Nat.cast : ℕ → K) 0 zs).m2Y = comoment Prod.snd Prod.snd zs ∧
      (momentsOf (Nat.cast : ℕ → K) 0 zs).cov = comoment Prod.fst Prod.snd zs := by
  induction zs using List.reverseRecOn with
  | nil => simp [momentsOf, total, comoment]
  | append_singleton zs z ih =>
    obtain ⟨hcount, hx, hy, hxx, hyy, hxy⟩ := ih
    have hstep : momentsOf (Nat.cast : ℕ → K) 0 (zs ++ [z]) =
        (momentsOf (Nat.cast : ℕ → K) 0 zs).add Nat.cast z := by
      simp only [momentsOf, List.foldl_append, List.foldl_cons, List.foldl_nil]
    have hlen : ((zs ++ [z]).length : K) = zs.length + 1 := by
      rw [List.length_append, List.length_singleton]
      push_cast
      rfl
    have hx' := mean_step (x := z.1) hx
    have hy' := mean_step (x := z.2) hy
    rw [hstep, hlen]
    simp only [Moments.add, hcount]
    refine ⟨?_, ?_, ?_, ?_, ?_, ?_⟩
    · rw [List.length_append, List.length_singleton]
    · rw [hx', total_concat]
    · rw [hy', total_concat]
    · rw [hxx, comoment_concat _ _ _ z hx hx hx' hx']
    · rw [hyy, comoment_concat _ _ _ z hy hy hy' hy']
    · rw [hxy, comoment_concat _ _ _ z hx hy hx' hy']

end Sums

section Lines
variable {α : Type*} (f g : α → ℝ) (l : List α)

theorem total_nonneg (h : ∀ x, 0 ≤ f x) : 0 ≤ total f l := by
  apply List.sum_nonneg
  intro y hy
  obtain ⟨x, -, rfl⟩ := List.mem_map.mp hy
  exact h x

theorem zero_of_total (h : ∀ x, 0 ≤ f x) (hzero : total f l = 0) : ∀ x ∈ l, f x = 0 := by
  induction l with
  | nil => exact fun x hx => absurd hx List.not_mem_nil
  | cons x l ih =>
    have hrest : 0 ≤ total f l := total_nonneg f l h
    have hsum : f x + total f l = 0 := hzero
    intro y hy
    rcases List.mem_cons.mp hy with rfl | htail
    · linarith [h y]
    · exact ih (by linarith [h x]) y htail

theorem total_deviations (t : ℝ) : total (fun x => (f x - t) * (f x - t)) l =
    total (fun x => f x * f x) l - 2 * t * total f l + l.length * t ^ 2 := by
  induction l with
  | nil => simp [total]
  | cons x l ih =>
    simp only [total, List.map_cons, List.sum_cons, List.length_cons] at ih ⊢
    rw [ih]
    push_cast
    ring

theorem comoment_deviations :
    comoment f f l = total (fun x => (f x - mean f l) * (f x - mean f l)) l := by
  rw [total_deviations, comoment, mul_div_right_comm, ← mean]
  rcases eq_or_ne (l.length : ℝ) 0 with h | h
  · have hmean : mean f l = 0 := by rw [mean, h, div_zero]
    simp [h, hmean]
  · have hmean : (l.length : ℝ) * mean f l = total f l := mul_div_cancel₀ _ h
    have hsquare : (l.length : ℝ) * mean f l ^ 2 = mean f l * total f l := by
      rw [sq, ← mul_assoc, hmean, mul_comm]
    rw [hsquare]
    ring

theorem comoment_nonneg : 0 ≤ comoment f f l := by
  rw [comoment_deviations]
  exact total_nonneg _ l (fun x => mul_self_nonneg _)

/-- A sample without a moment is constant. -/
theorem constant_of_comoment (h : comoment f f l = 0) : ∃ b, ∀ x ∈ l, f x = b := by
  rw [comoment_deviations] at h
  refine ⟨mean f l, fun x hx => ?_⟩
  have hzero := zero_of_total _ l (fun y => mul_self_nonneg _) h x hx
  exact sub_eq_zero.mp (mul_self_eq_zero.mp hzero)

theorem total_affine (a b : ℝ) :
    total (fun x => a * f x + b) l = a * total f l + l.length * b := by
  induction l with
  | nil => simp [total]
  | cons x l ih =>
    simp only [total, List.map_cons, List.sum_cons, List.length_cons] at ih ⊢
    rw [ih]
    push_cast
    ring

theorem total_mul_affine (a b : ℝ) : total (fun x => g x * (a * f x + b)) l =
    a * total (fun x => g x * f x) l + b * total g l := by
  induction l with
  | nil => simp [total]
  | cons x l ih =>
    simp only [total, List.map_cons, List.sum_cons] at ih ⊢
    rw [ih]
    ring

theorem comoment_affine (a b : ℝ) :
    comoment g (fun x => a * f x + b) l = a * comoment g f l := by
  unfold comoment
  rw [total_affine, total_mul_affine]
  rcases eq_or_ne l [] with rfl | hne
  · simp [total]
  · have hlen : (l.length : ℝ) ≠ 0 := by
      exact_mod_cast (List.length_pos_iff.mpr hne).ne'
    field_simp
    ring

def OnLine (f g : α → ℝ) (l : List α) : Prop := ∃ a > 0, ∃ b, ∀ x ∈ l, g x = a * f x + b

theorem comoment_comm : comoment f g l = comoment g f l := by
  simp only [comoment, mul_comm]

theorem onLine_iff (hf : 0 < comoment f f l) (hg : 0 < comoment g g l) :
    √(comoment f f l) * √(comoment g g l) ≤ comoment f g l ↔ OnLine f g l := by
  have hx := Real.sqrt_pos.mpr hf
  have hy := Real.sqrt_pos.mpr hg
  constructor
  · intro h
    -- The residual of the line with this slope has no moment.
    have ha : 0 < √(comoment g g l) / √(comoment f f l) := div_pos hy hx
    have hresidual := comoment_sub_mul f g l (√(comoment g g l) / √(comoment f f l))
    have hsquare : (√(comoment g g l) / √(comoment f f l)) ^ 2 * comoment f f l =
        comoment g g l := by
      rw [div_pow, Real.sq_sqrt hf.le, Real.sq_sqrt hg.le, div_mul_cancel₀ _ hf.ne']
    have hmixed : comoment g g l ≤
        √(comoment g g l) / √(comoment f f l) * comoment f g l := by
      have hscaled := mul_le_mul_of_nonneg_left h ha.le
      rwa [← mul_assoc, div_mul_cancel₀ _ hx.ne', Real.mul_self_sqrt hg.le] at hscaled
    have hnonneg := comoment_nonneg
      (fun x => g x - √(comoment g g l) / √(comoment f f l) * f x) l
    have hzero : comoment (fun x => g x - √(comoment g g l) / √(comoment f f l) * f x)
        (fun x => g x - √(comoment g g l) / √(comoment f f l) * f x) l = 0 := by
      apply le_antisymm _ hnonneg
      rw [hresidual, hsquare]
      linarith
    obtain ⟨b, hb⟩ := constant_of_comoment _ l hzero
    exact ⟨_, ha, b, fun x hx => by linarith [hb x hx]⟩
  · rintro ⟨a, ha, b, hline⟩
    have hfg : comoment f g l = a * comoment f f l := by
      rw [comoment_congr f g l (fun x _ => rfl) hline, comoment_affine]
    have hgg : comoment g g l = a * (a * comoment f f l) := by
      rw [comoment_congr g g l hline hline, comoment_affine, comoment_comm, comoment_affine]
    rw [hfg, hgg, ← mul_assoc, Real.sqrt_mul (mul_self_nonneg a), Real.sqrt_mul_self ha.le,
      mul_left_comm, Real.mul_self_sqrt hf.le]

end Lines

end SampleMoments
