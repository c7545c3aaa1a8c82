import Mathlib.Data.List.Basic

/-!
# Runs of a deterministic system and the conditions they meet

A run is the fold of a step over a list of operations. A condition relates
an operation to the state it meets. An invariant that each step keeps under
the condition holds throughout every run that meets it; when the step keeps
the invariant exactly under the condition, so does the run.
-/

set_option autoImplicit false

namespace Runs

variable {σ ι : Type*} (step : σ → ι → σ)

def run : σ → List ι → σ
  | s, [] => s
  | s, op::ops => run (step s op) ops

def Meets (C : σ → ι → Prop) : σ → List ι → Prop
  | _, [] => True
  | s, op::ops => C s op ∧ Meets C (step s op) ops

instance decidableMeets (C : σ → ι → Prop) [∀ s op, Decidable (C s op)] :
    ∀ s ops, Decidable (Meets step C s ops)
  | _, [] => inferInstanceAs (Decidable True)
  | s, op::ops =>
    have := decidableMeets C (step s op) ops
    inferInstanceAs (Decidable (C s op ∧ Meets step C (step s op) ops))

def Always (P : σ → Prop) : σ → List ι → Prop
  | s, [] => P s
  | s, op::ops => P s ∧ Always P (step s op) ops

theorem run_append (s : σ) (ops rest : List ι) :
    run step s (ops++rest) = run step (run step s ops) rest := by
  induction ops generalizing s with
  | nil => rfl
  | cons op ops ih => exact ih _

theorem meets_append (C : σ → ι → Prop) (s : σ) (ops rest : List ι) :
    Meets step C s (ops++rest) ↔ Meets step C s ops ∧ Meets step C (run step s ops) rest := by
  induction ops generalizing s with
  | nil => simp [Meets, run]
  | cons op ops ih => simp [Meets, run, ih, and_assoc]

theorem meets_of_forall (C : σ → ι → Prop) (s : σ) (ops : List ι)
    (h : ∀ op ∈ ops, ∀ t, C t op) : Meets step C s ops := by
  induction ops generalizing s with
  | nil => trivial
  | cons op ops ih =>
    exact ⟨h op List.mem_cons_self s, ih _ (fun o ho => h o (List.mem_cons_of_mem op ho))⟩

theorem meets_and_forall {C : σ → ι → Prop} {Q : ι → Prop} (s : σ) (ops : List ι)
    (hm : Meets step C s ops) (hq : ∀ op ∈ ops, Q op) :
    Meets step (fun s op => C s op ∧ Q op) s ops := by
  induction ops generalizing s with
  | nil => trivial
  | cons op ops ih =>
    exact ⟨⟨hm.1, hq op List.mem_cons_self⟩,
      ih _ hm.2 (fun o ho => hq o (List.mem_cons_of_mem op ho))⟩

theorem meets_and {C D : σ → ι → Prop} (s : σ) (ops : List ι) (hc : Meets step C s ops)
    (hd : Meets step D s ops) : Meets step (fun s op => C s op ∧ D s op) s ops := by
  induction ops generalizing s with
  | nil => trivial
  | cons op ops ih => exact ⟨⟨hc.1, hd.1⟩, ih _ hc.2 hd.2⟩

theorem meets_true (s : σ) (ops : List ι) : Meets step (fun _ _ => True) s ops :=
  meets_of_forall step _ s ops (fun _ _ _ => trivial)

theorem always_head {P : σ → Prop} {s : σ} {ops : List ι} (h : Always step P s ops) : P s := by
  cases ops with
  | nil => exact h
  | cons => exact h.1

theorem always_last {P : σ → Prop} {s : σ} {ops : List ι} (h : Always step P s ops) :
    P (run step s ops) := by
  induction ops generalizing s with
  | nil => exact h
  | cons op ops ih => exact ih h.2

variable {P Q : σ → Prop}

theorem always_mono (h : ∀ s, P s → Q s) (s : σ) (ops : List ι)
    (ha : Always step P s ops) : Always step Q s ops := by
  induction ops generalizing s with
  | nil => exact h s ha
  | cons op ops ih => exact ⟨h s ha.1, ih _ ha.2⟩

theorem always_congr (h : ∀ s, P s ↔ Q s) {s : σ} {ops : List ι} :
    Always step P s ops ↔ Always step Q s ops :=
  ⟨always_mono step (fun s => (h s).mp) s ops, always_mono step (fun s => (h s).mpr) s ops⟩

theorem always_and (s : σ) (ops : List ι) (hp : Always step P s ops)
    (hq : Always step Q s ops) : Always step (fun s => P s ∧ Q s) s ops := by
  induction ops generalizing s with
  | nil => exact ⟨hp, hq⟩
  | cons op ops ih => exact ⟨⟨hp.1, hq.1⟩, ih _ hp.2 hq.2⟩

variable {I : σ → Prop} {C : σ → ι → Prop}

theorem always_of_meets (hstep : ∀ s op, I s → C s op → I (step s op)) (s : σ) (ops : List ι)
    (h0 : I s) (hm : Meets step C s ops) : Always step I s ops := by
  induction ops generalizing s with
  | nil => exact h0
  | cons op ops ih => exact ⟨h0, ih _ (hstep s op h0 hm.1) hm.2⟩

theorem invariant_run (hstep : ∀ s op, I s → C s op → I (step s op)) (s : σ) (ops : List ι)
    (h0 : I s) (hm : Meets step C s ops) : I (run step s ops) :=
  always_last step (always_of_meets step hstep s ops h0 hm)

theorem run_established {I Q : σ → Prop} {C : σ → ι → Prop}
    (hstep : ∀ s op, I s → C s op → I (step s op))
    (hkeep : ∀ s op, I s → C s op → Q s → Q (step s op)) (op : ι)
    (hop : ∀ s, I s → C s op → Q (step s op)) (s : σ) (ops : List ι) (h0 : I s)
    (hm : Meets step C s ops) (hmem : op ∈ ops) : Q (run step s ops) := by
  induction ops generalizing s with
  | nil => exact absurd hmem (by simp)
  | cons o ops ih =>
    rcases List.mem_cons.mp hmem with rfl | hrest
    · have h := invariant_run step (I := fun s => I s ∧ Q s) (C := C)
        (fun s o hs hc => ⟨hstep s o hs.1 hc, hkeep s o hs.1 hc hs.2⟩) (step s op) ops
        ⟨hstep s op h0 hm.1, hop s h0 hm.1⟩ hm.2
      exact h.2
    · exact ih _ (hstep s o h0 hm.1) hm.2 hrest

/-- What the invariant gives of one step holds of every step of a run. -/
theorem meets_of_invariant {C D : σ → ι → Prop}
    (hstep : ∀ s op, I s → C s op → I (step s op)) (hd : ∀ s op, I s → C s op → D s op)
    (s : σ) (ops : List ι) (h0 : I s) (hm : Meets step C s ops) : Meets step D s ops := by
  induction ops generalizing s with
  | nil => trivial
  | cons op ops ih => exact ⟨hd s op h0 hm.1, ih _ (hstep s op h0 hm.1) hm.2⟩

/-- When the condition is exact for one step, it is exact for whole runs.
The second invariant `J` is kept by every step, and it and the condition `D`
may be used by the exactness of a step. -/
theorem always_iff_meets_given {J I : σ → Prop} {C D : σ → ι → Prop}
    (haux : ∀ s op, J s → D s op → J (step s op))
    (hstep : ∀ s op, J s → D s op → I s → (I (step s op) ↔ C s op)) (s : σ) (ops : List ι)
    (ha : J s) (h0 : I s) (hd : Meets step D s ops) :
    Always step I s ops ↔ Meets step C s ops := by
  induction ops generalizing s with
  | nil => exact ⟨fun _ => trivial, fun _ => h0⟩
  | cons op ops ih =>
    constructor
    · rintro ⟨-, ht⟩
      have hc := (hstep s op ha hd.1 h0).mp (always_head step ht)
      exact ⟨hc, (ih _ (haux s op ha hd.1) (always_head step ht) hd.2).mp ht⟩
    · rintro ⟨hc, hm⟩
      have hi := (hstep s op ha hd.1 h0).mpr hc
      exact ⟨h0, (ih _ (haux s op ha hd.1) hi hd.2).mpr hm⟩

theorem always_iff_meets {J I : σ → Prop} {C : σ → ι → Prop}
    (haux : ∀ s op, J s → J (step s op))
    (hstep : ∀ s op, J s → I s → (I (step s op) ↔ C s op)) (s : σ) (ops : List ι)
    (ha : J s) (h0 : I s) : Always step I s ops ↔ Meets step C s ops :=
  always_iff_meets_given step (fun s op hj _ => haux s op hj)
    (fun s op hj _ => hstep s op hj) s ops ha h0 (meets_true step s ops)

/-- Two conditions that agree wherever the invariant holds, and whose steps keep it,
agree on whole runs; a third condition of the run may be used by each step. -/
theorem meets_iff_meets_given {C D G : σ → ι → Prop}
    (hstep : ∀ s op, I s → G s op → C s op → I (step s op))
    (hiff : ∀ s op, I s → G s op → (C s op ↔ D s op)) (s : σ) (ops : List ι) (h0 : I s)
    (hg : Meets step G s ops) : Meets step C s ops ↔ Meets step D s ops := by
  induction ops generalizing s with
  | nil => exact Iff.rfl
  | cons op ops ih =>
    constructor
    · rintro ⟨hc, hm⟩
      exact ⟨(hiff s op h0 hg.1).mp hc, (ih _ (hstep s op h0 hg.1 hc) hg.2).mp hm⟩
    · rintro ⟨hd, hm⟩
      have hc := (hiff s op h0 hg.1).mpr hd
      exact ⟨hc, (ih _ (hstep s op h0 hg.1 hc) hg.2).mpr hm⟩

theorem meets_iff_meets {C D : σ → ι → Prop}
    (hstep : ∀ s op, I s → C s op → I (step s op)) (hiff : ∀ s op, I s → (C s op ↔ D s op))
    (s : σ) (ops : List ι) (h0 : I s) : Meets step C s ops ↔ Meets step D s ops :=
  meets_iff_meets_given step (fun s op hi _ => hstep s op hi) (fun s op hi _ => hiff s op hi)
    s ops h0 (meets_true step s ops)

theorem meets_of_always {J I : σ → Prop} {C : σ → ι → Prop}
    (haux : ∀ s op, J s → J (step s op))
    (hstep : ∀ s op, J s → I s → I (step s op) → C s op) (s : σ) (ops : List ι)
    (ha : J s) (hi : Always step I s ops) : Meets step C s ops := by
  induction ops generalizing s with
  | nil => trivial
  | cons op ops ih =>
    exact ⟨hstep s op ha hi.1 (always_head step hi.2), ih _ (haux s op ha) hi.2⟩

/-- A condition that follows from the states before and after a step, given another
condition of the step, is met along a run that stays in the predicate. -/
theorem meets_of_steps {P : σ → Prop} {C D : σ → ι → Prop}
    (hstep : ∀ s op, P s → P (step s op) → D s op → C s op) (s : σ) (ops : List ι)
    (hp : Always step P s ops) (hd : Meets step D s ops) : Meets step C s ops := by
  induction ops generalizing s with
  | nil => trivial
  | cons op ops ih =>
    exact ⟨hstep s op hp.1 (always_head step hp.2) hd.1, ih _ hp.2 hd.2⟩

/-- What a step's condition follows from, a step that is kept track of and the
state it leads to, gives the condition along the run. -/
theorem meets_of_always_meets {P : σ → Prop} {C D : σ → ι → Prop}
    (hstep : ∀ s op, P (step s op) → D s op → C s op) (s : σ) (ops : List ι)
    (hp : Always step P s ops) (hd : Meets step D s ops) : Meets step C s ops :=
  meets_of_steps step (fun s op _ => hstep s op) s ops hp hd

def Reaches (C : σ → ι → Prop) (s t : σ) : Prop :=
  ∃ ops, Meets step C s ops ∧ t = run step s ops

theorem reaches_refl (C : σ → ι → Prop) (s : σ) : Reaches step C s s := ⟨[], trivial, rfl⟩

theorem reaches_step {s : σ} {op : ι} (h : C s op) :
    Reaches step C s (step s op) := ⟨[op], ⟨h, trivial⟩, rfl⟩

theorem reaches_trans {s t u : σ} (h : Reaches step C s t)
    (k : Reaches step C t u) : Reaches step C s u := by
  obtain ⟨ops, hops, rfl⟩ := h
  obtain ⟨rest, hrest, rfl⟩ := k
  exact ⟨ops ++ rest, (meets_append step C s ops rest).mpr ⟨hops, hrest⟩,
    (run_append step s ops rest).symm⟩

theorem reaches_invariant
    (hstep : ∀ s op, I s → C s op → I (step s op)) {s t : σ} (h : Reaches step C s t)
    (hs : I s) : I t := by
  obtain ⟨ops, hops, rfl⟩ := h
  exact invariant_run step hstep s ops hs hops

end Runs
