import TomorrowBot.Runs
import Mathlib.Algebra.BigOperators.Group.Finset.Basic
import Mathlib.Algebra.Order.BigOperators.Group.Finset
import Mathlib.Data.Finset.Range
import Mathlib.Data.List.Range

/-!
# The pool of REST workers

Every locked section and every access to an atomic is a step of its own. Jobs are
numbered in the order in which they entered the queue.
-/

set_option autoImplicit false

namespace TB.RestWorkerPool

structure Pool where
  workerCount : ℕ
  maxQueueDepth : ℕ
  queue : List ℕ
  inFlight : ℕ
  stopRequested : Bool
  completed : ℕ
  failed : ℕ

inductive Worker where
  | top
  | flag
  | check
  | asleep
  | taken (job : ℕ)
  | running (job : ℕ)
  | leaving
  | exited
  deriving DecidableEq

inductive Submitter where
  | idle
  | entered
  | pushed (job : ℕ) (dropped : Bool)
  deriving DecidableEq

inductive Drain where
  | idle
  | looking (since : ℕ)
  | reading (since : ℕ)
  | drained (since : ℕ)
  deriving DecidableEq

inductive Destructor where
  | alive
  | flagged
  | locked
  | requesting (i : ℕ)
  | joining
  deriving DecidableEq

inductive Place where
  | outside
  | queued
  | held (i : ℕ)
  | ran
  | evicted
  deriving DecidableEq

def pushLocked (p : Pool) (job : ℕ) : Pool × Option ℕ :=
  if p.maxQueueDepth ≤ p.queue.length then
    ({ p with queue := p.queue.tail ++ [job] }, p.queue.head?)
  else ({ p with queue := p.queue ++ [job] }, none)

def workerStep (p : Pool) (requested threw : Bool) : Worker → Pool × Worker
  | .top => (p, if requested then .exited else .flag)
  | .flag => (p, if p.stopRequested then .exited else .check)
  | .check =>
    match p.queue with
    | [] => (p, if requested || p.stopRequested then .exited else .asleep)
    | job::rest => ({ p with queue := rest }, .taken job)
  | .asleep => (p, .asleep)
  | .taken job => ({ p with inFlight := p.inFlight + 1 }, .running job)
  | .running _ =>
    (if threw then { p with failed := p.failed + 1 } else { p with completed := p.completed + 1 },
      .leaving)
  | .leaving => ({ p with inFlight := p.inFlight - 1 }, .top)
  | .exited => (p, .exited)

structure World where
  pool : Pool
  workers : ℕ → Worker
  requested : ℕ → Bool
  submitters : ℕ → Submitter
  drains : ℕ → Drain
  destructor : Destructor
  accepted : ℕ
  place : ℕ → Place
  ran : List ℕ
  returned : List (Option ℕ × Bool)

inductive Event where
  | call (k : ℕ)
  | push (k : ℕ)
  | notify (k i : ℕ)
  | work (i : ℕ) (threw : Bool)
  | wake (i : ℕ)
  | drainCall (d : ℕ)
  | drainLook (d : ℕ)
  | drainRead (d : ℕ)
  | drainTimeout (d : ℕ)
  | destroy

def World.become (w : World) (i : ℕ) (x : Worker) : World :=
  { w with workers := Function.update w.workers i x }

def wakeAll (workers : ℕ → Worker) (i : ℕ) : Worker :=
  if workers i = .asleep then .check else workers i

def evict (place : ℕ → Place) : Option ℕ → ℕ → Place
  | some job => Function.update place job .evicted
  | none => place

def carried (w : World) (i : ℕ) : Worker → Worker → World
  | .check, .taken job => { w with place := Function.update w.place job (.held i) }
  | .running job, _ =>
    { w with
      place := Function.update w.place job .ran
      ran := w.ran ++ [job] }
  | _, _ => w

def destroyStep (w : World) : World :=
  match w.destructor with
  | .alive =>
    { w with
      pool := { w.pool with stopRequested := true }
      destructor := .flagged }
  | .flagged => { w with destructor := .locked }
  | .locked =>
    { w with
      workers := wakeAll w.workers
      destructor := .requesting 0 }
  | .requesting i =>
    if i < w.pool.workerCount then
      { w with
        requested := Function.update w.requested i true
        workers := if w.workers i = .asleep then wakeAll w.workers else w.workers
        destructor := .requesting (i + 1) }
    else
      { w with
        workers := wakeAll w.workers
        destructor := .joining }
  | .joining => w

def step (w : World) : Event → World
  | .call k =>
    match w.submitters k with
    | .idle =>
      if w.pool.stopRequested then { w with returned := w.returned ++ [(none, false)] }
      else { w with submitters := Function.update w.submitters k .entered }
    | _ => w
  | .push k =>
    match w.submitters k with
    | .entered =>
      let r := pushLocked w.pool w.accepted
      { w with
        pool := r.1
        submitters := Function.update w.submitters k (.pushed w.accepted r.2.isSome)
        accepted := w.accepted + 1
        place := Function.update (evict w.place r.2) w.accepted .queued }
    | _ => w
  -- one of the sleeping workers is woken, when there is one
  | .notify k i =>
    match w.submitters k with
    | .pushed job dropped =>
      let back := { w with
        submitters := Function.update w.submitters k .idle
        returned := w.returned ++ [(some job, !dropped)] }
      if i < w.pool.workerCount ∧ w.workers i = .asleep then back.become i .check
      else if ∃ u < w.pool.workerCount, w.workers u = .asleep then w
      else back
    | _ => w
  | .work i threw =>
    if i < w.pool.workerCount then
      let r := workerStep w.pool (w.requested i) threw (w.workers i)
      { carried w i (w.workers i) r.2 with
        pool := r.1
        workers := Function.update w.workers i r.2 }
    else w
  | .wake i => if w.workers i = .asleep then w.become i .check else w
  | .drainCall d =>
    match w.drains d with
    | .idle | .drained _ => { w with drains := Function.update w.drains d (.looking w.accepted) }
    | _ => w
  | .drainLook d =>
    match w.drains d with
    | .looking since =>
      if w.pool.queue = [] then { w with drains := Function.update w.drains d (.reading since) }
      else w
    | _ => w
  | .drainRead d =>
    match w.drains d with
    | .reading since =>
      if w.pool.inFlight = 0 then
        { w with drains := Function.update w.drains d (.drained since) }
      else { w with drains := Function.update w.drains d (.looking since) }
    | _ => w
  | .drainTimeout d =>
    match w.drains d with
    | .looking _ => { w with drains := Function.update w.drains d .idle }
    | _ => w
  | .destroy => destroyStep w

def constructed (workerCount maxQueueDepth : ℕ) : World where
  pool := ⟨max workerCount 1, max maxQueueDepth 1, [], 0, false, 0, 0⟩
  workers _ := .top
  requested _ := false
  submitters _ := .idle
  drains _ := .idle
  destructor := .alive
  accepted := 0
  place _ := .outside
  ran := []
  returned := []

structure Ordered (queue : List ℕ) (n : ℕ) : Prop where
  count : queue.length ≤ n
  order : queue = List.range' (n - queue.length) queue.length

section Queue
variable {queue : List ℕ} {n job : ℕ}

theorem Ordered.tail (h : Ordered (job::queue) n) :
    Ordered queue n ∧ job = n - queue.length - 1 := by
  have hcount : queue.length + 1 ≤ n := h.count
  have horder : job::queue = List.range' (n - (queue.length + 1)) (queue.length + 1) := h.order
  rw [List.range'_succ] at horder
  obtain ⟨hjob, hrest⟩ := List.cons.inj horder
  refine ⟨⟨by omega, hrest.trans ?_⟩, by omega⟩
  rw [show n - (queue.length + 1) + 1 = n - queue.length by omega]

theorem Ordered.push (h : Ordered queue n) : Ordered (queue ++ [n]) (n + 1) := by
  have hcount := h.count
  refine ⟨by simpa using hcount, ?_⟩
  rw [List.length_append, List.length_singleton, List.range'_1_concat,
    show n + 1 - (queue.length + 1) = n - queue.length by omega, ← h.order,
    show n - queue.length + queue.length = n by omega]

theorem Ordered.mem_iff (h : Ordered queue n) {j : ℕ} :
    j ∈ queue ↔ n - queue.length ≤ j ∧ j < n := by
  have hcount := h.count
  rw [h.order, List.mem_range'_1, List.length_range']
  omega

end Queue

def holds : Worker → Option ℕ
  | .taken job => some job
  | .running job => some job
  | _ => none

def counted : Worker → ℕ
  | .running _ => 1
  | .leaving => 1
  | _ => 0

/-- Every job that was accepted is in the queue, held by one worker, run once or evicted;
only the oldest leave the queue, and the counter counts the workers past it. -/
structure Accounts (queue : List ℕ) (accepted : ℕ) (place : ℕ → Place) (ran : List ℕ)
    (inFlight workerCount : ℕ) (workers : ℕ → Worker) : Prop where
  ordered : Ordered queue accepted
  outside : ∀ j, place j = .outside ↔ accepted ≤ j
  queued : ∀ j, place j = .queued ↔ j ∈ queue
  held : ∀ i j, place j = .held i ↔ i < workerCount ∧ holds (workers i) = some j
  once : ∀ j, ran.count j = if place j = .ran then 1 else 0
  flight : inFlight = ∑ i ∈ Finset.range workerCount, counted (workers i)

def Accounted (w : World) : Prop :=
  Accounts w.pool.queue w.accepted w.place w.ran w.pool.inFlight w.pool.workerCount w.workers

section Accounts
variable {queue rest : List ℕ} {accepted : ℕ} {place : ℕ → Place} {ran : List ℕ}
  {inFlight workerCount : ℕ} {workers : ℕ → Worker} {i job : ℕ}

theorem sum_update (f : Worker → ℕ) (hi : i < workerCount) (workers : ℕ → Worker) (x : Worker) :
    ∑ k ∈ Finset.range workerCount, f (Function.update workers i x k) + f (workers i) =
      ∑ k ∈ Finset.range workerCount, f (workers k) + f x := by
  have hmem := Finset.mem_range.mpr hi
  have hothers : ∑ k ∈ (Finset.range workerCount).erase i, f (Function.update workers i x k) =
      ∑ k ∈ (Finset.range workerCount).erase i, f (workers k) :=
    Finset.sum_congr rfl fun k hk => by rw [Function.update_of_ne (Finset.ne_of_mem_erase hk)]
  rw [← Finset.add_sum_erase _ _ hmem, ← Finset.add_sum_erase _ (fun k => f (workers k)) hmem,
    hothers, Function.update_self]
  omega

theorem map_update {α : Type*} (f : Worker → α) {x : Worker} (hx : f x = f (workers i)) (k : ℕ) :
    f (Function.update workers i x k) = f (workers k) := by
  by_cases hk : k = i
  · subst hk
    rw [Function.update_self, hx]
  · rw [Function.update_of_ne hk]

theorem map_wakeAll {α : Type*} (f : Worker → α) (hf : f .check = f .asleep) (k : ℕ) :
    f (wakeAll workers k) = f (workers k) := by
  unfold wakeAll
  split_ifs with h
  · rw [h, hf]
  · rfl

/-- A place that a job leaves and one that it comes to; every other is as before. -/
theorem update_place {p q r : Place} (hjob : place job = p) (hp : r ≠ p) (hq : r ≠ q) (j : ℕ) :
    Function.update place job q j = r ↔ place j = r := by
  by_cases hj : j = job
  · subst hj
    rw [Function.update_self, hjob]
    exact iff_of_false hq.symm hp.symm
  · rw [Function.update_of_ne hj]

theorem update_left {q r : Place} (hq : q ≠ r) (j : ℕ) :
    Function.update place job q j = r ↔ j ≠ job ∧ place j = r := by
  by_cases hj : j = job
  · subst hj
    rw [Function.update_self]
    exact iff_of_false hq fun hc => hc.1 rfl
  · rw [Function.update_of_ne hj]
    exact (and_iff_right hj).symm

variable (h : Accounts queue accepted place ran inFlight workerCount workers)
include h

/-- Workers that go on without a job change nothing in the accounts. -/
theorem accounts_congr {workers' : ℕ → Worker}
    (hholds : ∀ i, holds (workers' i) = holds (workers i))
    (hcounted : ∀ i, counted (workers' i) = counted (workers i)) :
    Accounts queue accepted place ran inFlight workerCount workers' where
  ordered := h.ordered
  outside := h.outside
  queued := h.queued
  held i j := by rw [hholds, h.held i j]
  once := h.once
  flight := by
    rw [h.flight]
    exact Finset.sum_congr rfl fun i _ => (hcounted i).symm

theorem accounts_become {x : Worker} (hholds : holds x = holds (workers i))
    (hcounted : counted x = counted (workers i)) :
    Accounts queue accepted place ran inFlight workerCount (Function.update workers i x) :=
  accounts_congr h (map_update holds hholds) (map_update counted hcounted)

theorem accounts_wakeAll :
    Accounts queue accepted place ran inFlight workerCount (wakeAll workers) :=
  accounts_congr h (map_wakeAll holds rfl) (map_wakeAll counted rfl)

omit h in
theorem accounts_head (h : Accounts (job::rest) accepted place ran inFlight workerCount workers) :
    Ordered rest accepted ∧ place job = .queued ∧ ∀ j, j ∈ rest ↔ j ≠ job ∧ place j = .queued := by
  obtain ⟨hrest, hjob⟩ := h.ordered.tail
  refine ⟨hrest, (h.queued job).mpr List.mem_cons_self, fun j => ?_⟩
  rw [h.queued, List.mem_cons]
  refine ⟨fun hmem => ⟨?_, .inr hmem⟩, fun hc => hc.2.resolve_left hc.1⟩
  rintro rfl
  have hlt := (hrest.mem_iff.mp hmem).1
  have hcount : rest.length + 1 ≤ accepted := h.ordered.count
  omega

omit h in
theorem accounts_evict (h : Accounts (job::rest) accepted place ran inFlight workerCount workers) :
    Accounts rest accepted (Function.update place job .evicted) ran inFlight workerCount
      workers := by
  obtain ⟨hrest, hplace, hmem⟩ := accounts_head h
  refine ⟨hrest, fun j => ?_, fun j => ?_, fun i j => ?_, fun j => ?_, h.flight⟩
  · rw [update_place hplace (by decide) (by decide), h.outside]
  · rw [update_left (by decide), hmem]
  · rw [update_place hplace (by simp) (by simp), h.held]
  · rw [h.once]
    exact if_congr (update_place hplace (by decide) (by decide) j).symm rfl rfl

theorem accounts_push :
    Accounts (queue ++ [accepted]) (accepted + 1) (Function.update place accepted .queued) ran
      inFlight workerCount workers := by
  have hplace : place accepted = .outside := (h.outside _).mpr (Nat.le_refl _)
  refine ⟨h.ordered.push, fun j => ?_, fun j => ?_, fun i j => ?_, fun j => ?_, h.flight⟩
  · rw [update_left (by decide), h.outside]
    omega
  · rw [List.mem_append, List.mem_singleton, ← h.queued]
    by_cases hj : j = accepted
    · subst hj
      rw [Function.update_self]
      exact iff_of_true rfl (.inr rfl)
    · rw [Function.update_of_ne hj]
      exact (or_iff_left hj).symm
  · rw [update_place hplace (by simp) (by simp), h.held]
  · rw [h.once]
    exact if_congr (update_place hplace (by decide) (by decide) j).symm rfl rfl

omit h in
theorem accounts_take (h : Accounts (job::rest) accepted place ran inFlight workerCount workers)
    (hi : i < workerCount) (hw : workers i = .check) :
    Accounts rest accepted (Function.update place job (.held i)) ran inFlight workerCount
      (Function.update workers i (.taken job)) := by
  obtain ⟨hrest, hplace, hmem⟩ := accounts_head h
  refine ⟨hrest, fun j => ?_, fun j => ?_, fun k j => ?_, fun j => ?_, ?_⟩
  · rw [update_place hplace (by decide) (by simp), h.outside]
  · rw [update_left (by simp), hmem]
  · have hheld := h.held k j
    by_cases hk : k = i
    · subst hk
      rw [Function.update_self]
      by_cases hj : j = job
      · subst hj
        rw [Function.update_self]
        exact iff_of_true rfl ⟨hi, rfl⟩
      · rw [Function.update_of_ne hj, hheld, hw]
        exact iff_of_false (fun hc => nomatch hc.2)
          fun hc => hj (Option.some.inj hc.2).symm
    · rw [Function.update_of_ne hk,
        update_place hplace (by simp) fun hc => hk (Place.held.inj hc), hheld]
  · rw [h.once]
    exact if_congr (update_place hplace (by decide) (by simp) j).symm rfl rfl
  · have hsum := sum_update counted hi workers (.taken job)
    rw [hw] at hsum
    exact h.flight.trans hsum.symm

theorem accounts_finish (hi : i < workerCount) (hw : workers i = .running job) :
    Accounts queue accepted (Function.update place job .ran) (ran ++ [job]) inFlight workerCount
      (Function.update workers i .leaving) := by
  have hplace : place job = .held i := (h.held i job).mpr ⟨hi, by rw [hw]; rfl⟩
  refine ⟨h.ordered, fun j => ?_, fun j => ?_, fun k j => ?_, fun j => ?_, ?_⟩
  · rw [update_place hplace (by simp) (by decide), h.outside]
  · rw [update_place hplace (by simp) (by decide), h.queued]
  · rw [update_left (by simp), h.held]
    by_cases hk : k = i
    · subst hk
      rw [Function.update_self, hw]
      exact iff_of_false (fun hc => hc.1 (Option.some.inj hc.2.2).symm)
        fun hc => nomatch hc.2
    · rw [Function.update_of_ne hk]
      refine and_iff_right_of_imp fun hc hj => hk ?_
      have hk' := (h.held k j).mpr hc
      rw [hj, hplace] at hk'
      exact (Place.held.inj hk').symm
  · rw [List.count_append, List.count_singleton, h.once j]
    by_cases hj : j = job
    · subst hj
      rw [Function.update_self, hplace]
      simp
    · rw [Function.update_of_ne hj]
      simp [Ne.symm hj]
  · have hsum := sum_update counted hi workers .leaving
    rw [hw] at hsum
    exact h.flight.trans (Nat.add_right_cancel hsum).symm

theorem accounts_count {x : Worker} {flight : ℕ} (hi : i < workerCount)
    (hholds : holds x = holds (workers i))
    (hflight : flight + counted (workers i) = inFlight + counted x) :
    Accounts queue accepted place ran flight workerCount (Function.update workers i x) := by
  refine ⟨h.ordered, h.outside, h.queued, fun k j => ?_, h.once, ?_⟩
  · rw [map_update holds hholds, h.held]
  · have hsum := sum_update counted hi workers x
    have hold := h.flight
    omega

end Accounts

section Steps
variable {w : World}

theorem pushLocked_cases (p : Pool) (job : ℕ) :
    pushLocked p job = ({ p with queue := p.queue ++ [job] }, none) ∨
      ∃ old rest, p.queue = old::rest ∧
        pushLocked p job = ({ p with queue := rest ++ [job] }, some old) := by
  unfold pushLocked
  split_ifs
  · cases hqueue : p.queue with
    | nil => exact .inl rfl
    | cons old rest => exact .inr ⟨old, rest, rfl, rfl⟩
  · exact .inl rfl

theorem pushLocked_kept {p : Pool} (hdepth : 1 ≤ p.maxQueueDepth) (job : ℕ) :
    (pushLocked p job).2.isSome = false ↔ p.queue.length < p.maxQueueDepth := by
  unfold pushLocked
  split_ifs with hfull
  · cases hqueue : p.queue with
    | nil =>
      rw [hqueue] at hfull
      exact absurd (Nat.le_trans hdepth hfull) (by decide)
    | cons old rest =>
      rw [hqueue] at hfull
      exact iff_of_false (by simp) (Nat.not_lt.mpr hfull)
  · exact iff_of_true rfl (Nat.lt_of_not_le hfull)

theorem step_push {k : ℕ} (hk : w.submitters k = .entered) :
    step w (.push k) =
      { w with
        pool := (pushLocked w.pool w.accepted).1
        submitters := Function.update w.submitters k
          (.pushed w.accepted (pushLocked w.pool w.accepted).2.isSome)
        accepted := w.accepted + 1
        place := Function.update (evict w.place (pushLocked w.pool w.accepted).2) w.accepted
          .queued } := by
  simp only [step, hk]

theorem push_other {k : ℕ} (hk : w.submitters k ≠ .entered) : step w (.push k) = w := by
  cases hs : w.submitters k with
  | entered => exact absurd hs hk
  | idle => simp only [step, hs]
  | pushed job dropped => simp only [step, hs]

/-- A call returns after it has woken a sleeping worker, when there is one. -/
theorem notify_cases {k i job : ℕ} {dropped : Bool} (hk : w.submitters k = .pushed job dropped) :
    step w (.notify k i) = w ∨
      (i < w.pool.workerCount ∧ w.workers i = .asleep ∧ step w (.notify k i) =
        { w.become i .check with
          submitters := Function.update w.submitters k .idle
          returned := w.returned ++ [(some job, !dropped)] }) ∨
      ((¬ ∃ u < w.pool.workerCount, w.workers u = .asleep) ∧ step w (.notify k i) =
        { w with
          submitters := Function.update w.submitters k .idle
          returned := w.returned ++ [(some job, !dropped)] }) := by
  simp only [step, hk]
  by_cases hi : i < w.pool.workerCount ∧ w.workers i = .asleep
  · rw [if_pos hi]
    exact .inr (.inl ⟨hi.1, hi.2, rfl⟩)
  · rw [if_neg hi]
    by_cases hu : ∃ u < w.pool.workerCount, w.workers u = .asleep
    · rw [if_pos hu]
      exact .inl rfl
    · rw [if_neg hu]
      exact .inr (.inr ⟨hu, rfl⟩)

theorem notify_other {k i : ℕ} (hk : ∀ job dropped, w.submitters k ≠ .pushed job dropped) :
    step w (.notify k i) = w := by
  cases hs : w.submitters k with
  | pushed job dropped => exact absurd hs (hk job dropped)
  | idle => simp only [step, hs]
  | entered => simp only [step, hs]

theorem step_work {i : ℕ} (hi : i < w.pool.workerCount) (threw : Bool) :
    step w (.work i threw) =
      { carried w i (w.workers i) (workerStep w.pool (w.requested i) threw (w.workers i)).2 with
        pool := (workerStep w.pool (w.requested i) threw (w.workers i)).1
        workers := Function.update w.workers i
          (workerStep w.pool (w.requested i) threw (w.workers i)).2 } := by
  simp only [step, if_pos hi]

theorem work_other {i : ℕ} (hi : ¬ i < w.pool.workerCount) (threw : Bool) :
    step w (.work i threw) = w := by
  simp only [step, if_neg hi]

theorem work_accounted (h : Accounted w) (i : ℕ) (threw : Bool) :
    Accounted (step w (.work i threw)) := by
  by_cases hi : i < w.pool.workerCount
  · rw [step_work hi]
    cases hw : w.workers i with
    | top =>
      cases hr : w.requested i
      all_goals exact accounts_become h (by rw [hw]; rfl) (by rw [hw]; rfl)
    | flag =>
      simp only [workerStep]
      split_ifs
      all_goals exact accounts_become h (by rw [hw]; rfl) (by rw [hw]; rfl)
    | check =>
      cases hqueue : w.pool.queue with
      | nil =>
        simp only [workerStep, hqueue]
        split_ifs
        all_goals exact accounts_become h (by rw [hw]; rfl) (by rw [hw]; rfl)
      | cons job rest =>
        simp only [workerStep, hqueue]
        unfold Accounted at h
        rw [hqueue] at h
        exact accounts_take h hi hw
    | asleep => exact accounts_become h (by rw [hw]; rfl) (by rw [hw]; rfl)
    | taken job => exact accounts_count h hi (by rw [hw]; rfl) (by rw [hw]; rfl)
    | running job =>
      have hdone := accounts_finish h hi hw
      cases threw
      all_goals exact hdone
    | leaving =>
      have hsum := sum_update counted hi w.workers .top
      rw [hw] at hsum
      have hsum' : _ + 1 = w.pool.inFlight + 0 := hsum.trans (congrArg (· + _) h.flight.symm)
      refine accounts_count h hi (by rw [hw]; rfl) ?_
      rw [hw]
      show w.pool.inFlight - 1 + 1 = w.pool.inFlight + 0
      omega
    | exited => exact accounts_become h (by rw [hw]; rfl) (by rw [hw]; rfl)
  · rwa [work_other hi]

theorem push_accounted (h : Accounted w) (k : ℕ) : Accounted (step w (.push k)) := by
  by_cases hk : w.submitters k = .entered
  · rw [step_push hk]
    rcases pushLocked_cases w.pool w.accepted with hroom | ⟨old, rest, hqueue, hfull⟩
    · rw [hroom]
      exact accounts_push h
    · rw [hfull]
      unfold Accounted at h
      rw [hqueue] at h
      exact accounts_push (accounts_evict h)
  · rwa [push_other hk]

theorem notify_accounted (h : Accounted w) (k i : ℕ) : Accounted (step w (.notify k i)) := by
  by_cases hk : ∃ job dropped, w.submitters k = .pushed job dropped
  · obtain ⟨job, dropped, hk⟩ := hk
    rcases notify_cases hk (i := i) with hstep | ⟨_, hw, hstep⟩ | ⟨_, hstep⟩ <;> rw [hstep]
    · exact h
    · exact accounts_become h (by rw [hw]; rfl) (by rw [hw]; rfl)
    · exact h
  · rwa [notify_other fun job dropped hs => hk ⟨job, dropped, hs⟩]

theorem destroy_accounted (h : Accounted w) : Accounted (step w .destroy) := by
  show Accounted (destroyStep w)
  unfold destroyStep
  cases w.destructor with
  | alive => exact h
  | flagged => exact h
  | locked => exact accounts_wakeAll h
  | requesting i =>
    dsimp only
    split_ifs
    · exact accounts_wakeAll h
    · exact h
    · exact accounts_wakeAll h
  | joining => exact h

def Quiet : Event → Prop
  | .call _ => True
  | .drainCall _ => True
  | .drainLook _ => True
  | .drainRead _ => True
  | .drainTimeout _ => True
  | _ => False

theorem quiet_step {e : Event} (he : Quiet e) : step w e =
    { w with
      submitters := (step w e).submitters
      drains := (step w e).drains
      returned := (step w e).returned } := by
  cases e with
  | call k =>
    simp only [step]
    split
    · split_ifs
      all_goals rfl
    · rfl
  | drainCall d =>
    simp only [step]
    split
    all_goals rfl
  | drainLook | drainRead =>
    simp only [step]
    split
    · split_ifs
      all_goals rfl
    · rfl
  | drainTimeout d =>
    simp only [step]
    split
    all_goals rfl
  | push | notify | work | wake | destroy => exact he.elim

theorem quiet_accounted {e : Event} (he : Quiet e) (h : Accounted w) : Accounted (step w e) := by
  rw [quiet_step he]
  exact h

theorem wake_accounted (h : Accounted w) (i : ℕ) : Accounted (step w (.wake i)) := by
  unfold step
  dsimp only
  split_ifs with hw
  · exact accounts_become h (by rw [hw]; rfl) (by rw [hw]; rfl)
  · exact h

theorem step_accounted (h : Accounted w) (e : Event) : Accounted (step w e) := by
  cases e with
  | call k => exact quiet_accounted trivial h
  | push k => exact push_accounted h k
  | notify k i => exact notify_accounted h k i
  | work i threw => exact work_accounted h i threw
  | wake i => exact wake_accounted h i
  | drainCall | drainLook | drainRead | drainTimeout => exact quiet_accounted trivial h
  | destroy => exact destroy_accounted h

end Steps

end TB.RestWorkerPool
