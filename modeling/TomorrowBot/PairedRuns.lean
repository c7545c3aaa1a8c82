import Mathlib.Data.List.Forall2

/-!
# Two runs side by side

Two systems read inputs that are related one by one. A relation of their states
that each pair of steps keeps, and under which their outputs are related,
relates the outputs of the whole runs.
-/

set_option autoImplicit false

namespace PairedRuns

variable {σ ι ο : Type*} (step : σ → ι → σ × ο)

def outputs : σ → List ι → List ο
  | _, [] => []
  | s, x::xs => (step s x).2 :: outputs (step s x).1 xs

theorem outputs_related {R : σ → σ → Prop} {Q : ι → ι → Prop} {O : ο → ο → Prop}
    (hstep : ∀ s t x y, R s t → Q x y →
      R (step s x).1 (step t y).1 ∧ O (step s x).2 (step t y).2)
    {s t : σ} {xs ys : List ι} (hs : R s t) (hxy : List.Forall₂ Q xs ys) :
    List.Forall₂ O (outputs step s xs) (outputs step t ys) := by
  induction hxy generalizing s t with
  | nil => exact List.Forall₂.nil
  | cons hx _ ih =>
    obtain ⟨hnext, hout⟩ := hstep s t _ _ hs hx
    exact List.Forall₂.cons hout (ih hnext)

end PairedRuns
