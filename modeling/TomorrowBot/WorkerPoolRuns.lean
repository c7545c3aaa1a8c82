import TomorrowBot.RestWorkerPool

/-!
# Runs of the worker pool

What holds of the pool in every interleaving, and when the results of its calls are
right.
-/

set_option autoImplicit false

namespace TB.RestWorkerPool

variable {w : World}

inductive Moves : Place → Place → Prop where
  | stay (p : Place) : Moves p p
  | enter : Moves .outside .queued
  | evict : Moves .queued .evicted
  | take (i : ℕ) : Moves .queued (.held i)
  | finish (i : ℕ) : Moves (.held i) .ran

theorem moves_update {place : ℕ → Place} {job : ℕ} {q : Place} (h : Moves (place job) q) (j : ℕ) :
    Moves (place j) (Function.update place job q j) := by
  by_cases hj : j = job
  · subst hj
    rw [Function.update_self]
    exact h
  · rw [Function.update_of_ne hj]
    exact .stay _

theorem push_moves (h : Accounted w) (k j : ℕ) :
    Moves (w.place j) ((step w (.push k)).place j) := by
  by_cases hk : w.submitters k = .entered
  · rw [step_push hk]
    have hnew : w.place w.accepted = .outside := (h.outside _).mpr (Nat.le_refl _)
    rcases pushLocked_cases w.pool w.accepted with hroom | ⟨old, rest, hqueue, hfull⟩
    · rw [hroom]
      exact moves_update (hnew ▸ .enter) j
    · rw [hfull]
      have hold : w.place old = .queued := (h.queued old).mpr (hqueue ▸ List.mem_cons_self)
      by_cases hj : j = w.accepted
      · subst hj
        show Moves _ (Function.update (evict w.place (some old)) w.accepted .queued w.accepted)
        rw [Function.update_self, hnew]
        exact .enter
      · show Moves _ (Function.update (evict w.place (some old)) w.accepted .queued j)
        rw [Function.update_of_ne hj]
        exact moves_update (hold ▸ .evict) j
  · rw [push_other hk]
    exact .stay _

theorem work_moves (h : Accounted w) (i : ℕ) (threw : Bool) (j : ℕ) :
    Moves (w.place j) ((step w (.work i threw)).place j) := by
  by_cases hi : i < w.pool.workerCount
  · rw [step_work hi]
    cases hw : w.workers i with
    | check =>
      cases hqueue : w.pool.queue with
      | nil =>
        simp only [workerStep, hqueue]
        split_ifs
        all_goals exact .stay _
      | cons job rest =>
        simp only [workerStep, hqueue]
        have hjob : w.place job = .queued := (h.queued job).mpr (hqueue ▸ List.mem_cons_self)
        exact moves_update (hjob ▸ .take i) j
    | running job =>
      have hjob : w.place job = .held i := (h.held i job).mpr ⟨hi, by rw [hw]; rfl⟩
      exact moves_update (hjob ▸ .finish i) j
    | top | flag | asleep | taken | leaving | exited => exact .stay _
  · rw [work_other hi]
    exact .stay _

theorem notify_frame (w : World) (k i : ℕ) :
    (step w (.notify k i)).place = w.place ∧ (step w (.notify k i)).accepted = w.accepted ∧
      (step w (.notify k i)).drains = w.drains := by
  by_cases hk : ∃ job dropped, w.submitters k = .pushed job dropped
  · obtain ⟨job, dropped, hk⟩ := hk
    rcases notify_cases hk (i := i) with hstep | ⟨_, _, hstep⟩ | ⟨_, hstep⟩ <;> rw [hstep]
    all_goals exact ⟨rfl, rfl, rfl⟩
  · rw [notify_other fun job dropped hs => hk ⟨job, dropped, hs⟩]
    exact ⟨rfl, rfl, rfl⟩

theorem push_frame (w : World) (k : ℕ) :
    (step w (.push k)).drains = w.drains ∧ (step w (.push k)).returned = w.returned := by
  by_cases hk : w.submitters k = .entered
  · rw [step_push hk]
    exact ⟨rfl, rfl⟩
  · rw [push_other hk]
    exact ⟨rfl, rfl⟩

structure Callers (w v : World) : Prop where
  accepted : v.accepted = w.accepted
  submitters : v.submitters = w.submitters
  drains : v.drains = w.drains
  returned : v.returned = w.returned

theorem work_frame (w : World) (i : ℕ) (threw : Bool) : Callers w (step w (.work i threw)) := by
  by_cases hi : i < w.pool.workerCount
  · rw [step_work hi]
    unfold carried
    split
    all_goals exact ⟨rfl, rfl, rfl, rfl⟩
  · rw [work_other hi]
    exact ⟨rfl, rfl, rfl, rfl⟩

theorem destroy_frame (w : World) :
    (step w .destroy).place = w.place ∧ Callers w (step w .destroy) := by
  show (destroyStep w).place = _ ∧ Callers w (destroyStep w)
  unfold destroyStep
  cases w.destructor with
  | requesting i =>
    dsimp only
    split_ifs
    all_goals exact ⟨rfl, rfl, rfl, rfl, rfl⟩
  | alive | flagged | locked | joining => exact ⟨rfl, rfl, rfl, rfl, rfl⟩

theorem wake_frame (w : World) (i : ℕ) :
    (step w (.wake i)).place = w.place ∧ Callers w (step w (.wake i)) := by
  unfold step
  dsimp only
  split_ifs
  all_goals exact ⟨rfl, rfl, rfl, rfl, rfl⟩

def Draining : Event → Prop
  | .drainCall _ => True
  | .drainLook _ => True
  | .drainRead _ => True
  | .drainTimeout _ => True
  | _ => False

theorem drain_frame (w : World) (e : Event) (he : Draining e) :
    (step w e).returned = w.returned ∧ (step w e).submitters = w.submitters := by
  cases e with
  | drainCall d =>
    simp only [step]
    split
    all_goals exact ⟨rfl, rfl⟩
  | drainLook | drainRead =>
    simp only [step]
    split
    · split_ifs
      all_goals exact ⟨rfl, rfl⟩
    · exact ⟨rfl, rfl⟩
  | drainTimeout d =>
    simp only [step]
    split
    all_goals exact ⟨rfl, rfl⟩
  | _ => exact he.elim

theorem call_drains (w : World) (k : ℕ) : (step w (.call k)).drains = w.drains := by
  simp only [step]
  split
  · split_ifs
    all_goals rfl
  · rfl

theorem quiet_place {e : Event} (he : Quiet e) :
    (step w e).place = w.place ∧ (step w e).accepted = w.accepted := by
  rw [quiet_step he]
  exact ⟨rfl, rfl⟩

theorem step_moves (h : Accounted w) (e : Event) (j : ℕ) :
    Moves (w.place j) ((step w e).place j) := by
  cases e with
  | push k => exact push_moves h k j
  | work i threw => exact work_moves h i threw j
  | call k => exact (quiet_place (w := w) (e := .call k) trivial).1 ▸ .stay _
  | notify k i => exact (notify_frame w k i).1 ▸ .stay _
  | wake i => exact (wake_frame w i).1 ▸ .stay _
  | drainCall d => exact (quiet_place (w := w) (e := .drainCall d) trivial).1 ▸ .stay _
  | drainLook d => exact (quiet_place (w := w) (e := .drainLook d) trivial).1 ▸ .stay _
  | drainRead d => exact (quiet_place (w := w) (e := .drainRead d) trivial).1 ▸ .stay _
  | drainTimeout d => exact (quiet_place (w := w) (e := .drainTimeout d) trivial).1 ▸ .stay _
  | destroy => exact (destroy_frame w).1 ▸ .stay _

theorem left_stays (h : Accounted w) (e : Event) {j : ℕ} (hj : j < w.accepted)
    (hleft : w.place j ≠ .queued) : j < (step w e).accepted ∧ (step w e).place j ≠ .queued := by
  have hinside : w.place j ≠ .outside := fun ho => absurd ((h.outside j).mp ho) (by omega)
  have hmoves := step_moves h e j
  have hplace : (step w e).place j ≠ .queued ∧ (step w e).place j ≠ .outside := by
    generalize w.place j = p at hleft hinside hmoves
    generalize (step w e).place j = q at hmoves
    cases hmoves with
    | stay => exact ⟨hleft, hinside⟩
    | enter => exact absurd rfl hinside
    | evict => exact absurd rfl hleft
    | take i => exact absurd rfl hleft
    | finish i => exact ⟨by decide, by decide⟩
  refine ⟨Nat.lt_of_not_le fun hle => hplace.2 ?_, hplace.1⟩
  exact ((step_accounted h e).outside j).mpr hle

def Over (p : Place) : Prop := p = .ran ∨ p = .evicted

theorem over_stays (h : Accounted w) (e : Event) {j : ℕ} (hover : Over (w.place j)) :
    Over ((step w e).place j) := by
  have hmoves := step_moves h e j
  generalize w.place j = p at hover hmoves
  generalize (step w e).place j = q at hmoves
  cases hmoves with
  | stay => exact hover
  | enter => exact absurd hover (by simp [Over])
  | evict => exact .inr rfl
  | take i => exact absurd hover (by simp [Over])
  | finish i => exact .inl rfl

def Active (x : Worker) : Prop := x ≠ .asleep ∧ x ≠ .exited

section WorkerStep
variable {p : Pool} {requested threw : Bool} {x : Worker}

theorem workerStep_frame (p : Pool) (requested threw : Bool) (x : Worker) :
    (workerStep p requested threw x).1.stopRequested = p.stopRequested ∧
    (workerStep p requested threw x).1.workerCount = p.workerCount ∧
    (workerStep p requested threw x).1.maxQueueDepth = p.maxQueueDepth := by
  cases x with
  | check => cases hqueue : p.queue <;> simp [workerStep, hqueue]
  | running job => cases threw <;> simp [workerStep]
  | _ => exact ⟨rfl, rfl, rfl⟩

theorem workerStep_exited (h : (workerStep p requested threw x).2 = .exited) :
    x = .exited ∨ requested = true ∨ p.stopRequested = true := by
  cases x with
  | top => cases requested <;> simp_all [workerStep]
  | flag => cases hstop : p.stopRequested <;> simp_all [workerStep]
  | check =>
    cases hqueue : p.queue with
    | nil =>
      cases requested
      · cases hstop : p.stopRequested <;> simp_all [workerStep]
      · exact .inr (.inl rfl)
    | cons job rest => simp [workerStep, hqueue] at h
  | exited => exact .inl rfl
  | asleep | taken | running | leaving => exact Worker.noConfusion h

/-- A worker goes to sleep on an empty queue only. -/
theorem workerStep_inactive (hx : Active x) (h : ¬ Active (workerStep p requested threw x).2)
    (hstop : p.stopRequested = false) (hrequested : requested = false) :
    (workerStep p requested threw x).1.queue = [] := by
  cases x with
  | check =>
    cases hqueue : p.queue with
    | nil => simp [workerStep, hqueue]
    | cons job rest => exact absurd h (by simp [workerStep, hqueue, Active])
  | top => exact absurd h (by simp [workerStep, hrequested, Active])
  | flag => exact absurd h (by simp [workerStep, hstop, Active])
  | taken | running | leaving => exact absurd h (by simp [workerStep, Active])
  | asleep => exact absurd rfl hx.1
  | exited => exact absurd rfl hx.2

theorem workerStep_still (p : Pool) (requested threw : Bool) (hx : ¬ Active x) :
    workerStep p requested threw x = (p, x) := by
  cases x with
  | asleep => rfl
  | exited => rfl
  | _ => exact absurd (by simp [Active]) hx

end WorkerStep

theorem carried_frame (w : World) (i : ℕ) (x y : Worker) :
    (carried w i x y).destructor = w.destructor ∧ (carried w i x y).requested = w.requested ∧
      (carried w i x y).submitters = w.submitters ∧ (carried w i x y).drains = w.drains ∧
      (carried w i x y).returned = w.returned ∧ (carried w i x y).accepted = w.accepted := by
  unfold carried
  split
  all_goals exact ⟨rfl, rfl, rfl, rfl, rfl, rfl⟩

structure Awake (w : World) : Prop where
  phase : w.destructor ≠ .alive → w.pool.stopRequested = true
  requested : ∀ i, w.requested i = true → w.pool.stopRequested = true
  exited : ∀ i, w.workers i = .exited → w.pool.stopRequested = true
  active : w.pool.stopRequested = false → w.pool.queue ≠ [] →
    (∃ i < w.pool.workerCount, Active (w.workers i)) ∨
      ∃ k job dropped, w.submitters k = .pushed job dropped

theorem awake_stopped (h : w.pool.stopRequested = true) : Awake w :=
  ⟨fun _ => h, fun _ _ => h, fun _ _ => h, fun hc => absurd (h.symm.trans hc) (by decide)⟩

theorem quiet_pushed {e : Event} (he : Quiet e) {k job : ℕ} {dropped : Bool}
    (hk : w.submitters k = .pushed job dropped) :
    (step w e).submitters k = .pushed job dropped := by
  cases e with
  | call u =>
    simp only [step]
    split
    · next hu =>
      have hne : k ≠ u := by
        rintro rfl
        exact Submitter.noConfusion (hk.symm.trans hu)
      split_ifs
      · exact hk
      · exact (Function.update_of_ne hne _ _).trans hk
    · exact hk
  | drainCall d => exact (congrFun (drain_frame w (.drainCall d) trivial).2 k).trans hk
  | drainLook d => exact (congrFun (drain_frame w (.drainLook d) trivial).2 k).trans hk
  | drainRead d => exact (congrFun (drain_frame w (.drainRead d) trivial).2 k).trans hk
  | drainTimeout d => exact (congrFun (drain_frame w (.drainTimeout d) trivial).2 k).trans hk
  | push | notify | work | wake | destroy => exact he.elim

theorem quiet_awake {e : Event} (he : Quiet e) (h : Awake w) : Awake (step w e) := by
  have hpushed : ∀ k job dropped, w.submitters k = .pushed job dropped →
      (step w e).submitters k = .pushed job dropped := fun k job dropped => quiet_pushed he
  rw [quiet_step he]
  refine ⟨h.phase, h.requested, h.exited, fun hstop hqueue => ?_⟩
  exact (h.active hstop hqueue).imp_right fun ⟨k, job, dropped, hk⟩ =>
    ⟨k, job, dropped, hpushed k job dropped hk⟩

theorem pushLocked_frame (p : Pool) (job : ℕ) :
    (pushLocked p job).1.stopRequested = p.stopRequested ∧
      (pushLocked p job).1.workerCount = p.workerCount ∧
      (pushLocked p job).1.maxQueueDepth = p.maxQueueDepth := by
  unfold pushLocked
  split_ifs
  all_goals exact ⟨rfl, rfl, rfl⟩

theorem push_awake (h : Awake w) (k : ℕ) : Awake (step w (.push k)) := by
  by_cases hk : w.submitters k = .entered
  · have hstop := (pushLocked_frame w.pool w.accepted).1
    rw [step_push hk]
    refine ⟨fun hp => hstop.trans (h.phase hp), fun i hi => hstop.trans (h.requested i hi),
      fun i hi => hstop.trans (h.exited i hi),
      fun _ _ => .inr ⟨k, w.accepted, _, Function.update_self ..⟩⟩
  · rwa [push_other hk]

theorem active_update {n i : ℕ} {workers : ℕ → Worker} {x : Worker} (hx : Active x)
    (h : ∃ u < n, Active (workers u)) : ∃ u < n, Active (Function.update workers i x u) := by
  obtain ⟨u, hu, ha⟩ := h
  refine ⟨u, hu, ?_⟩
  by_cases hui : u = i
  · subst hui
    rwa [Function.update_self]
  · rwa [Function.update_of_ne hui]

theorem exited_update {i : ℕ} {workers : ℕ → Worker} {x : Worker} {P : Prop}
    (h : ∀ u, workers u = .exited → P) (hx : x = .exited → P) (u : ℕ)
    (hu : Function.update workers i x u = .exited) : P := by
  by_cases hui : u = i
  · subst hui
    rw [Function.update_self] at hu
    exact hx hu
  · rw [Function.update_of_ne hui] at hu
    exact h u hu

theorem notify_awake (h : Awake w) (hcount : 1 ≤ w.pool.workerCount) (k i : ℕ) :
    Awake (step w (.notify k i)) := by
  by_cases hk : ∃ job dropped, w.submitters k = .pushed job dropped
  · obtain ⟨job, dropped, hk⟩ := hk
    rcases notify_cases hk (i := i) with hstep | ⟨hi, _, hstep⟩ | ⟨hnone, hstep⟩ <;> rw [hstep]
    · exact h
    · refine ⟨h.phase, h.requested, exited_update h.exited (fun hc => nomatch hc),
        fun _ _ => .inl ⟨i, hi, ?_⟩⟩
      show Active (Function.update w.workers i .check i)
      rw [Function.update_self]
      exact ⟨by decide, by decide⟩
    · refine ⟨h.phase, h.requested, h.exited, fun hstop _ => .inl ⟨0, hcount, ?_, ?_⟩⟩
      · exact fun hc => hnone ⟨0, hcount, hc⟩
      · exact fun hc => absurd ((h.exited 0 hc).symm.trans hstop) (by decide)
  · rwa [notify_other fun job dropped hs => hk ⟨job, dropped, hs⟩]

theorem work_awake (h : Awake w) (i : ℕ) (threw : Bool) : Awake (step w (.work i threw)) := by
  by_cases hi : i < w.pool.workerCount
  · rw [step_work hi]
    have hframe := carried_frame w i (w.workers i)
      (workerStep w.pool (w.requested i) threw (w.workers i)).2
    have hpool := workerStep_frame w.pool (w.requested i) threw (w.workers i)
    obtain ⟨hdestructor, hrequested, hsubmitters, -⟩ := hframe
    refine ⟨fun hp => hpool.1.trans (h.phase (hdestructor ▸ hp)),
      fun u hu => hpool.1.trans (h.requested u (hrequested ▸ hu)),
      exited_update (fun u hu => hpool.1.trans (h.exited u hu)) fun hexit => ?_,
      fun hstop hqueue => ?_⟩
    · rcases workerStep_exited hexit with hx | hr | hs
      · exact hpool.1.trans (h.exited i hx)
      · exact hpool.1.trans (h.requested i hr)
      · exact hpool.1.trans hs
    · have hstop' : w.pool.stopRequested = false := hpool.1.symm.trans hstop
      have hunrequested : w.requested i = false := by
        by_contra hr
        exact absurd ((h.requested i (by simpa using hr)).symm.trans hstop') (by decide)
      by_cases hactive : Active (w.workers i)
      · refine .inl ⟨i, hpool.2.1 ▸ hi, ?_⟩
        show Active (Function.update w.workers i _ i)
        rw [Function.update_self]
        by_contra hinactive
        exact hqueue (workerStep_inactive hactive hinactive hstop' hunrequested)
      · have hstill := workerStep_still w.pool (w.requested i) threw hactive
        rw [hstill] at hqueue ⊢
        rw [Function.update_eq_self]
        refine (h.active hstop' hqueue).imp_right fun ⟨k, job, dropped, hk⟩ =>
          ⟨k, job, dropped, ?_⟩
        rw [hstill] at hsubmitters
        exact (congrFun hsubmitters k).trans hk
  · rwa [work_other hi]

theorem wake_awake (h : Awake w) (i : ℕ) : Awake (step w (.wake i)) := by
  unfold step
  dsimp only
  split_ifs
  · exact ⟨h.phase, h.requested, exited_update h.exited (fun hc => nomatch hc),
      fun hstop hqueue => (h.active hstop hqueue).imp_left
        (active_update ⟨by decide, by decide⟩)⟩
  · exact h

theorem destroy_awake (h : Awake w) : Awake (step w .destroy) := by
  refine awake_stopped ?_
  show (destroyStep w).pool.stopRequested = true
  unfold destroyStep
  have hphase := h.phase
  cases hd : w.destructor with
  | alive => rfl
  | requesting i =>
    rw [hd] at hphase
    dsimp only
    split_ifs
    all_goals exact hphase nofun
  | flagged | locked | joining => exact hphase (by rw [hd]; decide)

theorem step_awake (h : Awake w) (hcount : 1 ≤ w.pool.workerCount) (e : Event) :
    Awake (step w e) := by
  cases e with
  | call k => exact quiet_awake trivial h
  | push k => exact push_awake h k
  | notify k i => exact notify_awake h hcount k i
  | work i threw => exact work_awake h i threw
  | wake i => exact wake_awake h i
  | drainCall | drainLook | drainRead | drainTimeout => exact quiet_awake trivial h
  | destroy => exact destroy_awake h

def rank : Worker → ℕ
  | .top => 3
  | .flag => 2
  | .check => 1
  | .asleep => 0
  | .taken _ => 6
  | .running _ => 5
  | .leaving => 4
  | .exited => 0

def remaining (w : World) : ℕ :=
  6 * w.pool.queue.length + ∑ i ∈ Finset.range w.pool.workerCount, rank (w.workers i)

theorem workerStep_rank (p : Pool) (requested threw : Bool) {x : Worker} (hx : Active x) :
    6 * (workerStep p requested threw x).1.queue.length +
        rank (workerStep p requested threw x).2 <
      6 * p.queue.length + rank x := by
  cases x with
  | top => cases requested <;> simp [workerStep, rank]
  | flag => cases hstop : p.stopRequested <;> simp [workerStep, rank, hstop]
  | check =>
    cases hqueue : p.queue with
    | nil =>
      simp only [workerStep, hqueue]
      split_ifs <;> simp [rank]
    | cons job rest =>
      simp only [workerStep, hqueue, rank, List.length_cons]
      omega
  | running job => cases threw <;> simp [workerStep, rank]
  | taken job => simp [workerStep, rank]
  | leaving => simp [workerStep, rank]
  | asleep => exact absurd rfl hx.1
  | exited => exact absurd rfl hx.2

def Progress (w : World) (e : Event) : Prop :=
  ∀ i threw, e = .work i threw → i < w.pool.workerCount → Active (w.workers i) →
    remaining (step w e) < remaining w

theorem step_progress (w : World) (e : Event) : Progress w e := by
  rintro i threw rfl hi hactive
  have hrank := workerStep_rank w.pool (w.requested i) threw hactive
  have hsum := sum_update rank hi w.workers
    (workerStep w.pool (w.requested i) threw (w.workers i)).2
  have hcount := (workerStep_frame w.pool (w.requested i) threw (w.workers i)).2.1
  rw [step_work hi]
  unfold remaining
  simp only [hcount]
  omega

/-- When every worker sleeps or has exited, and every call has returned, each job that was
accepted ran or was evicted, or a stop left it in the queue. -/
def Finished (w : World) : Prop :=
  (∀ i < w.pool.workerCount, ¬ Active (w.workers i)) → (∀ k, w.submitters k = .idle) →
    ∀ job < w.accepted, Over (w.place job) ∨
      (w.place job = .queued ∧ w.pool.stopRequested = true)

theorem finished (h : Accounted w) (ha : Awake w) : Finished w := by
  intro hinactive hidle job hjob
  cases hplace : w.place job with
  | outside => exact absurd ((h.outside job).mp hplace) (by omega)
  | queued =>
    have hqueue : w.pool.queue ≠ [] := List.ne_nil_of_mem ((h.queued job).mp hplace)
    refine .inr ⟨rfl, ?_⟩
    by_contra hstop
    rcases ha.active (by simpa using hstop) hqueue with ⟨i, hi, hactive⟩ | ⟨k, j, dropped, hk⟩
    · exact hinactive i hi hactive
    · exact Submitter.noConfusion ((hidle k).symm.trans hk)
  | held i =>
    obtain ⟨hi, hheld⟩ := (h.held i job).mp hplace
    refine absurd ⟨fun hx => ?_, fun hx => ?_⟩ (hinactive i hi)
    all_goals
      rw [hx] at hheld
      exact nomatch hheld
  | ran => exact .inl (.inl rfl)
  | evicted => exact .inl (.inr rfl)

structure Looked (w : World) : Prop where
  since : ∀ d since, w.drains d = .looking since ∨ w.drains d = .reading since →
    since ≤ w.accepted
  left : ∀ d since, w.drains d = .reading since → ∀ job < since, w.place job ≠ .queued

theorem update_drain {drains : ℕ → Drain} {d u : ℕ} {x y : Drain}
    (h : Function.update drains u x d = y) : drains d = y ∨ (d = u ∧ x = y) := by
  by_cases hd : d = u
  · subst hd
    rw [Function.update_self] at h
    exact .inr ⟨rfl, h⟩
  · rw [Function.update_of_ne hd] at h
    exact .inl h

theorem drain_cases (w : World) (e : Event) (d : ℕ) (x : Drain) (hx : (step w e).drains d = x) :
    w.drains d = x ∨ x = .idle ∨ x = .looking w.accepted ∨
      (∃ since, w.drains d = .looking since ∧ w.pool.queue = [] ∧ x = .reading since) ∨
      (∃ since, w.drains d = .reading since ∧ x = .looking since) ∨
      (∃ since, w.drains d = .reading since ∧ e = .drainRead d ∧ w.pool.inFlight = 0 ∧
        x = .drained since) := by
  cases e with
  | drainCall u =>
    simp only [step] at hx
    split at hx
    · rcases update_drain hx with h | ⟨-, h⟩
      · exact .inl h
      · exact .inr (.inr (.inl h.symm))
    · rcases update_drain hx with h | ⟨-, h⟩
      · exact .inl h
      · exact .inr (.inr (.inl h.symm))
    · exact .inl hx
  | drainLook u =>
    simp only [step] at hx
    split at hx
    · next since hu =>
      split_ifs at hx with hempty
      · rcases update_drain hx with h | ⟨rfl, h⟩
        · exact .inl h
        · exact .inr (.inr (.inr (.inl ⟨since, hu, hempty, h.symm⟩)))
      · exact .inl hx
    · exact .inl hx
  | drainRead u =>
    simp only [step] at hx
    split at hx
    · next since hu =>
      split_ifs at hx with hzero
      · rcases update_drain hx with h | ⟨rfl, h⟩
        · exact .inl h
        · exact .inr (.inr (.inr (.inr (.inr ⟨since, hu, rfl, hzero, h.symm⟩))))
      · rcases update_drain hx with h | ⟨rfl, h⟩
        · exact .inl h
        · exact .inr (.inr (.inr (.inr (.inl ⟨since, hu, h.symm⟩))))
    · exact .inl hx
  | drainTimeout u =>
    simp only [step] at hx
    split at hx
    · rcases update_drain hx with h | ⟨-, h⟩
      · exact .inl h
      · exact .inr (.inl h.symm)
    · exact .inl hx
  | call k => exact .inl ((congrFun (call_drains w k) d).symm.trans hx)
  | push k => exact .inl ((congrFun (push_frame w k).1 d).symm.trans hx)
  | notify k i => exact .inl ((congrFun (notify_frame w k i).2.2 d).symm.trans hx)
  | work i threw => exact .inl ((congrFun (work_frame w i threw).drains d).symm.trans hx)
  | wake i => exact .inl ((congrFun (wake_frame w i).2.drains d).symm.trans hx)
  | destroy => exact .inl ((congrFun (destroy_frame w).2.drains d).symm.trans hx)

theorem step_accepted (w : World) (e : Event) : w.accepted ≤ (step w e).accepted := by
  cases e with
  | push k =>
    by_cases hk : w.submitters k = .entered
    · rw [step_push hk]
      exact Nat.le_succ _
    · rw [push_other hk]
  | call k => exact Nat.le_of_eq (quiet_place (w := w) (e := .call k) trivial).2.symm
  | notify k i => exact Nat.le_of_eq (notify_frame w k i).2.1.symm
  | work i threw => exact Nat.le_of_eq (work_frame w i threw).accepted.symm
  | wake i => exact Nat.le_of_eq (wake_frame w i).2.accepted.symm
  | drainCall d => exact Nat.le_of_eq (quiet_place (w := w) (e := .drainCall d) trivial).2.symm
  | drainLook d => exact Nat.le_of_eq (quiet_place (w := w) (e := .drainLook d) trivial).2.symm
  | drainRead d => exact Nat.le_of_eq (quiet_place (w := w) (e := .drainRead d) trivial).2.symm
  | drainTimeout d =>
    exact Nat.le_of_eq (quiet_place (w := w) (e := .drainTimeout d) trivial).2.symm
  | destroy => exact Nat.le_of_eq (destroy_frame w).2.accepted.symm

theorem step_looked (ha : Accounted w) (h : Looked w) (e : Event) : Looked (step w e) := by
  have hgrow := step_accepted w e
  refine ⟨fun d since hd => ?_, fun d since hd job hjob => ?_⟩
  · have hsince : ∀ x, (step w e).drains d = x → (x = .looking since ∨ x = .reading since) →
        since ≤ w.accepted := by
      intro x hx hlook
      rcases drain_cases w e d x hx with h' | rfl | rfl | ⟨n, hn, -, rfl⟩ | ⟨n, hn, rfl⟩ |
        ⟨n, hn, -, -, rfl⟩
      · exact h.since d since (h'.symm ▸ hlook)
      · exact absurd hlook (by simp)
      · rw [Drain.looking.inj (hlook.resolve_right nofun)]
      · obtain rfl := Drain.reading.inj (hlook.resolve_left nofun)
        exact h.since d n (.inl hn)
      · obtain rfl := Drain.looking.inj (hlook.resolve_right nofun)
        exact h.since d n (.inr hn)
      · exact absurd hlook (by simp)
    exact Nat.le_trans (hsince _ rfl hd) hgrow
  · have hleft : ∀ job < since, job < w.accepted ∧ w.place job ≠ .queued := by
      rcases drain_cases w e d _ hd with h' | h' | h' | ⟨n, hn, hempty, h'⟩ | ⟨n, hn, h'⟩ |
        ⟨n, hn, -, -, h'⟩
      · exact fun job hjob => ⟨Nat.lt_of_lt_of_le hjob (h.since d since (.inr h')),
          h.left d since h' job hjob⟩
      · exact nomatch h'
      · exact nomatch h'
      · obtain rfl := Drain.reading.inj h'
        refine fun job hjob => ⟨Nat.lt_of_lt_of_le hjob (h.since d since (.inl hn)), fun hq => ?_⟩
        have hmem := (ha.queued job).mp hq
        rw [hempty] at hmem
        exact List.not_mem_nil hmem
      · exact nomatch h'
      · exact nomatch h'
    exact (left_stays ha e (hleft job hjob).1 (hleft job hjob).2).2

structure Sound (w : World) : Prop where
  results : ∀ r ∈ w.returned, r.2 = r.1.isSome
  pending : ∀ k job dropped, w.submitters k = .pushed job dropped → dropped = false
  drains : ∀ d since, w.drains d = .drained since → ∀ job < since, Over (w.place job)

/-- A push finds room, and no `drain` reads a zero while a worker has taken an earlier job
without having counted it. -/
def Safe (w : World) : Event → Prop
  | .push k => w.submitters k = .entered → w.pool.queue.length < w.pool.maxQueueDepth
  | .drainRead d => ∀ since, w.drains d = .reading since → w.pool.inFlight = 0 →
      ∀ i < w.pool.workerCount, ∀ job, w.workers i = .taken job → since ≤ job
  | _ => True

structure Kept (w : World) : Prop where
  accounted : Accounted w
  awake : Awake w
  looked : Looked w
  count : 1 ≤ w.pool.workerCount
  depth : 1 ≤ w.pool.maxQueueDepth

theorem step_sizes (w : World) (e : Event) :
    (step w e).pool.workerCount = w.pool.workerCount ∧
      (step w e).pool.maxQueueDepth = w.pool.maxQueueDepth := by
  cases e with
  | push k =>
    by_cases hk : w.submitters k = .entered
    · rw [step_push hk]
      exact (pushLocked_frame w.pool w.accepted).2
    · rw [push_other hk]
      exact ⟨rfl, rfl⟩
  | work i threw =>
    by_cases hi : i < w.pool.workerCount
    · rw [step_work hi]
      exact (workerStep_frame w.pool (w.requested i) threw (w.workers i)).2
    · rw [work_other hi]
      exact ⟨rfl, rfl⟩
  | notify k i =>
    by_cases hk : ∃ job dropped, w.submitters k = .pushed job dropped
    · obtain ⟨job, dropped, hk⟩ := hk
      rcases notify_cases hk (i := i) with hstep | ⟨_, _, hstep⟩ | ⟨_, hstep⟩ <;> rw [hstep]
      all_goals exact ⟨rfl, rfl⟩
    · rw [notify_other fun job dropped hs => hk ⟨job, dropped, hs⟩]
      exact ⟨rfl, rfl⟩
  | wake i =>
    simp only [step]
    split_ifs
    all_goals exact ⟨rfl, rfl⟩
  | destroy =>
    show (destroyStep w).pool.workerCount = _ ∧ (destroyStep w).pool.maxQueueDepth = _
    unfold destroyStep
    split
    all_goals first
      | exact ⟨rfl, rfl⟩
      | split_ifs
        all_goals exact ⟨rfl, rfl⟩
  | call k =>
    rw [quiet_step (e := .call k) trivial]
    exact ⟨rfl, rfl⟩
  | drainCall d =>
    rw [quiet_step (e := .drainCall d) trivial]
    exact ⟨rfl, rfl⟩
  | drainLook d =>
    rw [quiet_step (e := .drainLook d) trivial]
    exact ⟨rfl, rfl⟩
  | drainRead d =>
    rw [quiet_step (e := .drainRead d) trivial]
    exact ⟨rfl, rfl⟩
  | drainTimeout d =>
    rw [quiet_step (e := .drainTimeout d) trivial]
    exact ⟨rfl, rfl⟩

theorem step_kept (h : Kept w) (e : Event) : Kept (step w e) where
  accounted := step_accounted h.accounted e
  awake := step_awake h.awake h.count e
  looked := step_looked h.accounted h.looked e
  count := (step_sizes w e).1 ▸ h.count
  depth := (step_sizes w e).2 ▸ h.depth

theorem kept_constructed (workerCount maxQueueDepth : ℕ) :
    Kept (constructed workerCount maxQueueDepth) where
  accounted :=
    { ordered := ⟨Nat.le_refl _, rfl⟩
      outside := fun job => iff_of_true rfl (Nat.zero_le job)
      queued := fun _ => iff_of_false nofun nofun
      held := fun _ _ => iff_of_false nofun fun hc => nomatch hc.2
      once := fun _ => rfl
      flight := (Finset.sum_eq_zero fun _ _ => rfl).symm }
  awake := ⟨fun hc => absurd rfl hc, nofun, nofun, fun _ hc => absurd rfl hc⟩
  looked := ⟨fun _ _ hc => hc.elim nofun nofun, nofun⟩
  count := Nat.le_max_right _ _
  depth := Nat.le_max_right _ _

theorem sound_constructed (workerCount maxQueueDepth : ℕ) :
    Sound (constructed workerCount maxQueueDepth) := ⟨nofun, nofun, nofun⟩

/-- Earlier jobs that are in no queue run no more, unless a worker has just taken one. -/
theorem drained_iff (hk : Kept w) {d since : ℕ} (hd : w.drains d = .reading since)
    (hzero : w.pool.inFlight = 0) : (∀ job < since, Over (w.place job)) ↔
      ∀ i < w.pool.workerCount, ∀ job, w.workers i = .taken job → since ≤ job := by
  have hsince := hk.looked.since d since (.inr hd)
  constructor
  · intro hover i hi job ht
    by_contra hjob
    have hheld := (hk.accounted.held i job).mpr ⟨hi, by rw [ht]; rfl⟩
    have hplace := hover job (Nat.lt_of_not_le hjob)
    rw [hheld] at hplace
    exact absurd hplace (by simp [Over])
  · intro htaken job hjob
    cases hplace : w.place job with
    | outside => exact absurd ((hk.accounted.outside job).mp hplace) (by omega)
    | queued => exact absurd hplace (hk.looked.left d since hd job hjob)
    | held i =>
      obtain ⟨hi, hheld⟩ := (hk.accounted.held i job).mp hplace
      have hsum := hk.accounted.flight
      rw [hzero, eq_comm, Finset.sum_eq_zero_iff] at hsum
      have hcounted := hsum i (Finset.mem_range.mpr hi)
      cases hw : w.workers i with
      | taken j =>
        rw [hw] at hheld
        obtain rfl := Option.some.inj hheld
        exact absurd (htaken i hi j hw) (by omega)
      | running j =>
        rw [hw] at hcounted
        exact absurd hcounted Nat.one_ne_zero
      | _ =>
        rw [hw] at hheld
        exact nomatch hheld
    | ran => exact .inl rfl
    | evicted => exact .inr rfl

/-- What was over before a step is so after it; a `drain` that returns true adds its jobs. -/
theorem drains_sound (hk : Kept w)
    (h : ∀ d since, w.drains d = .drained since → ∀ job < since, Over (w.place job)) (e : Event)
    (hsafe : Safe w e) (d since : ℕ) (hd : (step w e).drains d = .drained since) (job : ℕ)
    (hjob : job < since) : Over ((step w e).place job) := by
  refine over_stays hk.accounted e ?_
  rcases drain_cases w e d _ hd with h' | h' | h' | ⟨n, -, -, h'⟩ | ⟨n, -, h'⟩ |
    ⟨n, hn, rfl, hzero, h'⟩
  · exact h d since h' job hjob
  · exact nomatch h'
  · exact nomatch h'
  · exact nomatch h'
  · exact nomatch h'
  · obtain rfl := Drain.drained.inj h'
    exact (drained_iff hk hn hzero).mpr (hsafe since hn hzero) job hjob

theorem update_submitter {submitters : ℕ → Submitter} {k u : ℕ} {x y : Submitter}
    (h : Function.update submitters u x k = y) : submitters k = y ∨ (k = u ∧ x = y) := by
  by_cases hk : k = u
  · subst hk
    rw [Function.update_self] at h
    exact .inr ⟨rfl, h⟩
  · rw [Function.update_of_ne hk] at h
    exact .inl h

def ResultsSound (w : World) : Prop :=
  (∀ r ∈ w.returned, r.2 = r.1.isSome) ∧
    ∀ k job dropped, w.submitters k = .pushed job dropped → dropped = false

theorem results_congr {v : World} (h : ResultsSound w) (hreturned : v.returned = w.returned)
    (hsubmitters : v.submitters = w.submitters) : ResultsSound v := by
  unfold ResultsSound
  rw [hreturned, hsubmitters]
  exact h

theorem call_results (h : ResultsSound w) (k : ℕ) : ResultsSound (step w (.call k)) := by
  simp only [step]
  split
  · split_ifs
    · refine ⟨fun r hr => ?_, h.2⟩
      rcases List.mem_append.mp hr with hold | hnew
      · exact h.1 r hold
      · rw [List.mem_singleton.mp hnew]
        rfl
    · refine ⟨h.1, fun u job dropped hu => ?_⟩
      rcases update_submitter hu with hu | ⟨-, hu⟩
      · exact h.2 u job dropped hu
      · cases hu
  · exact h

theorem push_results (h : ResultsSound w) (hdepth : 1 ≤ w.pool.maxQueueDepth) (k : ℕ)
    (hsafe : Safe w (.push k)) : ResultsSound (step w (.push k)) := by
  by_cases hk : w.submitters k = .entered
  · rw [step_push hk]
    refine ⟨h.1, fun u job dropped hu => ?_⟩
    rcases update_submitter hu with hu | ⟨-, hu⟩
    · exact h.2 u job dropped hu
    · rw [← (Submitter.pushed.inj hu).2]
      exact (pushLocked_kept hdepth w.accepted).mpr (hsafe hk)
  · rwa [push_other hk]

theorem notify_results (h : ResultsSound w) (k i : ℕ) :
    ResultsSound (step w (.notify k i)) := by
  by_cases hk : ∃ job dropped, w.submitters k = .pushed job dropped
  · obtain ⟨job, dropped, hk⟩ := hk
    have hreturn : ∀ v : World, v.returned = w.returned ++ [(some job, !dropped)] →
        v.submitters = Function.update w.submitters k .idle → ResultsSound v := by
      intro v hreturned hsubmitters
      refine ⟨fun r hr => ?_, fun u j b hu => ?_⟩
      · rw [hreturned] at hr
        rcases List.mem_append.mp hr with hold | hnew
        · exact h.1 r hold
        · rw [List.mem_singleton.mp hnew, h.2 k job dropped hk]
          rfl
      · rw [hsubmitters] at hu
        rcases update_submitter hu with hu | ⟨-, hu⟩
        · exact h.2 u j b hu
        · exact nomatch hu
    rcases notify_cases hk (i := i) with hstep | ⟨_, _, hstep⟩ | ⟨_, hstep⟩ <;> rw [hstep]
    · exact h
    · exact hreturn _ rfl rfl
    · exact hreturn _ rfl rfl
  · rwa [notify_other fun job dropped hs => hk ⟨job, dropped, hs⟩]

theorem step_results (h : ResultsSound w) (hdepth : 1 ≤ w.pool.maxQueueDepth) (e : Event)
    (hsafe : Safe w e) : ResultsSound (step w e) := by
  cases e with
  | call k => exact call_results h k
  | push k => exact push_results h hdepth k hsafe
  | notify k i => exact notify_results h k i
  | work i threw =>
    exact results_congr h (work_frame w i threw).returned (work_frame w i threw).submitters
  | wake i => exact results_congr h (wake_frame w i).2.returned (wake_frame w i).2.submitters
  | destroy => exact results_congr h (destroy_frame w).2.returned (destroy_frame w).2.submitters
  | drainCall d =>
    have hdrain := drain_frame w (.drainCall d) trivial
    exact results_congr h hdrain.1 hdrain.2
  | drainLook d =>
    have hdrain := drain_frame w (.drainLook d) trivial
    exact results_congr h hdrain.1 hdrain.2
  | drainRead d =>
    have hdrain := drain_frame w (.drainRead d) trivial
    exact results_congr h hdrain.1 hdrain.2
  | drainTimeout d =>
    have hdrain := drain_frame w (.drainTimeout d) trivial
    exact results_congr h hdrain.1 hdrain.2

theorem step_sound (hk : Kept w) (h : Sound w) (e : Event) : Sound (step w e) ↔ Safe w e := by
  constructor
  · intro hs
    cases e with
    | push k =>
      intro hentered
      rw [step_push hentered] at hs
      have hdropped := hs.pending k w.accepted _ (Function.update_self ..)
      exact (pushLocked_kept hk.depth w.accepted).mp hdropped
    | drainRead d =>
      intro since hd hzero
      refine (drained_iff hk hd hzero).mp fun job hjob => ?_
      have hdrained : (step w (.drainRead d)).drains d = .drained since := by
        simp only [step, hd, if_pos hzero]
        exact Function.update_self ..
      have hover := hs.drains d since hdrained job hjob
      rwa [(quiet_place (w := w) (e := .drainRead d) trivial).1] at hover
    | _ => trivial
  · intro hsafe
    have hresults := step_results ⟨h.results, h.pending⟩ hk.depth e hsafe
    exact ⟨hresults.1, hresults.2, drains_sound hk h.drains e hsafe⟩

/-- In every run each accepted job is accounted for, each step of a worker that is not
asleep is progress, and when all have come to rest the jobs have run; the results of
`submit` and `drain` are right throughout exactly when every step is safe. -/
theorem pool_runs (workerCount maxQueueDepth : ℕ) (events : List Event) :
    Runs.Always step (fun w => Accounted w ∧ Finished w)
        (constructed workerCount maxQueueDepth) events ∧
      Runs.Meets step Progress (constructed workerCount maxQueueDepth) events ∧
      (Runs.Always step Sound (constructed workerCount maxQueueDepth) events ↔
        Runs.Meets step Safe (constructed workerCount maxQueueDepth) events) := by
  have hstart := kept_constructed workerCount maxQueueDepth
  have hkept := Runs.always_of_meets step (I := Kept) (C := fun _ _ => True)
    (fun w e h _ => step_kept h e) _ events hstart (Runs.meets_true step _ events)
  refine ⟨Runs.always_mono step (fun w h => ⟨h.accounted, finished h.accounted h.awake⟩) _ _
      hkept, Runs.meets_of_forall step _ _ events fun e _ w => step_progress w e, ?_⟩
  exact Runs.always_iff_meets step (fun w e h => step_kept h e)
    (fun w e h hs => step_sound h hs e) _ events hstart
    (sound_constructed workerCount maxQueueDepth)

def overflowing : List Event :=
  [.call 0, .push 0, .notify 0 0, .call 1, .push 1, .notify 1 0,
    .work 0 false, .work 0 false, .work 0 false, .work 0 false, .work 0 false]

def drainedEarly : List Event :=
  [.call 0, .push 0, .notify 0 0, .work 0 false, .work 0 false, .work 0 false,
    .drainCall 0, .drainLook 0, .drainRead 0]

/-- The second `submit` returns false and its job runs; `drain` returns true and the job
from before it is still to run. -/
theorem results_wrong :
    ((Runs.run step (constructed 1 1) overflowing).returned = [(some 0, true), (some 1, false)] ∧
      (Runs.run step (constructed 1 1) overflowing).ran = [1] ∧
      ¬ Runs.Always step Sound (constructed 1 1) overflowing) ∧
      (Runs.run step (constructed 1 4) drainedEarly).drains 0 = .drained 1 ∧
      (Runs.run step (constructed 1 4) drainedEarly).workers 0 = .taken 0 ∧
      ¬ Runs.Always step Sound (constructed 1 4) drainedEarly := by
  refine ⟨⟨by decide, by decide, fun h => ?_⟩, by decide, by decide, fun h => ?_⟩
  · have hlast := (Runs.always_last step h).results (some 1, false) (by decide)
    exact absurd hlast (by decide)
  · have hlast := (Runs.always_last step h).drains 0 1 (by decide) 0 Nat.one_pos
    exact absurd hlast (by unfold Over; decide)

end TB.RestWorkerPool
