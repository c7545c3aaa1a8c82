import Mathlib.Data.List.Basic

/-!
# Loops with a bound on their rounds

A loop repeats its body while its condition holds; it gives no result when the
rounds run out. An invariant of the body holds of the result, and a rank that
every round lowers bounds the rounds that are needed.
-/

set_option autoImplicit false

namespace WhileLoops

variable {σ : Type*} (cond : σ → Prop) [DecidablePred cond] (body : σ → σ)

def loop : ℕ → σ → Option σ
  | 0, _ => none
  | n+1, s => if cond s then loop n (body s) else some s

theorem loop_done (n : ℕ) {s : σ} (h : ¬ cond s) : loop cond body (n + 1) s = some s := if_neg h

theorem loop_round (n : ℕ) {s : σ} (h : cond s) :
    loop cond body (n + 1) s = loop cond body n (body s) := if_pos h

theorem loop_invariant {I : σ → Prop} (hbody : ∀ s, I s → cond s → I (body s)) (n : ℕ) (s r : σ)
    (hs : I s) (h : loop cond body n s = some r) : I r ∧ ¬ cond r := by
  induction n generalizing s with
  | zero => exact absurd h (by simp [loop])
  | succ n ih =>
    by_cases hc : cond s
    · rw [loop_round cond body n hc] at h
      exact ih (body s) (hbody s hs hc) h
    · rw [loop_done cond body n hc] at h
      obtain rfl := Option.some.inj h
      exact ⟨hs, hc⟩

/-- Rounds that are left over do not matter. -/
theorem loop_mono {n m : ℕ} (hnm : n ≤ m) {s r : σ} (h : loop cond body n s = some r) :
    loop cond body m s = some r := by
  induction n generalizing m s with
  | zero => exact absurd h (by simp [loop])
  | succ n ih =>
    obtain ⟨m, rfl⟩ := Nat.exists_eq_succ_of_ne_zero (Nat.ne_zero_of_lt hnm)
    by_cases hc : cond s
    · rw [loop_round cond body n hc] at h
      exact (loop_round cond body m hc).trans (ih (Nat.le_of_succ_le_succ hnm) h)
    · rw [loop_done cond body n hc] at h
      exact (loop_done cond body m hc).trans h

theorem loop_returns {I : σ → Prop} (rank : σ → ℕ) (hbody : ∀ s, I s → cond s → I (body s))
    (hrank : ∀ s, I s → cond s → rank (body s) < rank s) (n : ℕ) (s : σ) (hs : I s)
    (hn : rank s < n) : ∃ r, loop cond body n s = some r := by
  induction n generalizing s with
  | zero => exact absurd hn (Nat.not_lt_zero _)
  | succ n ih =>
    by_cases hc : cond s
    · rw [loop_round cond body n hc]
      exact ih (body s) (hbody s hs hc)
        (Nat.lt_of_lt_of_le (hrank s hs hc) (Nat.lt_succ_iff.mp hn))
    · exact ⟨s, loop_done cond body n hc⟩

end WhileLoops
