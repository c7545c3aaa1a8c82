import TomorrowBot.SupervisorLifecycle
import TomorrowBot.Runs
import Mathlib.Data.List.Sort

/-!
# The order in which subsystems are stopped

`start` goes through the subsystems by their index and runs each start function
without the mutex, `stop` goes through a copy of the list from its end; other
threads register and unregister subsystems meanwhile.
-/

set_option autoImplicit false

namespace TB.SupervisorStops
open TB.SupervisorLifecycle

inductive StopFn where
  | returns
  | throws

structure Subsystem extends SubsystemEntry where
  stopFn : Option StopFn
  id : ℕ

inductive StopThread where
  | snapshot
  | stopping (todo : List Subsystem)
  | clear
  | store
  | done

structure World where
  base : Supervisor
  subsystems : List Subsystem
  next : ℕ
  start : StartThread
  starting : Option ℕ
  stop : StopThread
  starts : List ℕ
  stops : List ℕ

def World.supervisor (w : World) : Supervisor :=
  { w.base with subsystems := w.subsystems.map Subsystem.toSubsystemEntry }

def setStarted (started : Bool) (e : Subsystem) : Subsystem := { e with started := started }

def marked (w : World) : List Subsystem :=
  match w.start with
  | .mark idx _ =>
    if w.base.stateMutex then w.subsystems else w.subsystems.modify idx (setStarted true)
  | _ => w.subsystems

def startsAfter (w : World) : List ℕ :=
  match w.start with
  | .mark _ _ => if w.base.stateMutex then w.starts else w.starts ++ w.starting.toList
  | _ => w.starts

def startStep (w : World) : World :=
  let r := SupervisorLifecycle.start w.supervisor w.start
  { w with
    base := r.1
    subsystems := marked w
    start := r.2
    starting :=
      match w.start with
      | .fetch idx _ => w.subsystems[idx]?.map Subsystem.id
      | _ => w.starting
    starts := startsAfter w }

def stopStep (w : World) : World :=
  match w.stop with
  | .snapshot =>
    if w.base.stateMutex then w else { w with stop := .stopping w.subsystems.reverse }
  | .stopping [] => { w with stop := .clear }
  | .stopping (e::todo) =>
    { w with
      stops := if e.started && e.stopFn.isSome then w.stops ++ [e.id] else w.stops
      stop := .stopping todo }
  | .clear =>
    if w.base.stateMutex then w
    else
      { w with
        subsystems := w.subsystems.map (setStarted false)
        stop := .store }
  | .store =>
    { w with
      base := { w.base with state := .stopped }
      stop := .done }
  | .done => w

def registerSubsystem (w : World) (name : String) (startFn : Option Bool)
    (stopFn : Option StopFn) : World :=
  if w.base.stateMutex then w
  else
    { w with
      subsystems := w.subsystems ++ [⟨⟨name, startFn, false⟩, stopFn, w.next⟩]
      next := w.next + 1 }

def unregisterSubsystem (w : World) (name : String) : World :=
  if w.base.stateMutex then w
  else { w with subsystems := w.subsystems.filter (fun e => e.name != name) }

inductive Event where
  | start
  | stop
  | register (name : String) (startFn : Option Bool) (stopFn : Option StopFn)
  | unregister (name : String)

def step (w : World) : Event → World
  | .start => startStep w
  | .stop => stopStep w
  | .register name startFn stopFn => registerSubsystem w name startFn stopFn
  | .unregister name => unregisterSubsystem w name

def constructed (metrics clock : Bool) : World where
  base := ⟨metrics, clock, .initializing, "", false, []⟩
  subsystems := []
  next := 0
  start := .store
  starting := none
  stop := .snapshot
  starts := []
  stops := []

theorem map_modify (subsystems : List Subsystem) (idx : ℕ) :
    (subsystems.modify idx (setStarted true)).map Subsystem.toSubsystemEntry =
      markStarted (subsystems.map Subsystem.toSubsystemEntry) idx := by
  unfold markStarted
  induction subsystems generalizing idx with
  | nil => simp only [List.modify_nil, List.map_nil]
  | cons e rest ih =>
    cases idx with
    | zero => rfl
    | succ idx => simp only [List.modify_succ_cons, List.map_cons, ih]

theorem enterDegradedMode_subsystems (reason : String) (s : Supervisor) (t : EnterThread) :
    (enterDegradedMode reason s t).1.subsystems = s.subsystems := by
  cases t with
  | lock =>
    unfold enterDegradedMode
    dsimp only
    split_ifs
    all_goals rfl
  | starting =>
    simp only [enterDegradedMode, compareExchange]
    by_cases h : s.state = .starting
    · rw [if_pos h]
      rfl
    · rw [if_neg h]
  | running =>
    simp only [enterDegradedMode, compareExchange]
    by_cases h : s.state = .running
    · rw [if_pos h]
      rfl
    · rw [if_neg h]
  | load =>
    unfold enterDegradedMode
    dsimp only
    split_ifs
    all_goals rfl
  | done => rfl

theorem start_subsystems (s : Supervisor) (t : StartThread) :
    (SupervisorLifecycle.start s t).1.subsystems =
      match t with
      | .mark idx _ => if s.stateMutex then s.subsystems else markStarted s.subsystems idx
      | _ => s.subsystems := by
  cases t with
  | snapshot =>
    unfold SupervisorLifecycle.start
    dsimp only
    split_ifs
    all_goals rfl
  | check todo =>
    cases todo with
    | nil => rfl
    | cons idx rest =>
      unfold SupervisorLifecycle.start
      dsimp only
      split_ifs
      all_goals rfl
  | fetch idx rest =>
    unfold SupervisorLifecycle.start
    dsimp only
    split_ifs
    · rfl
    · cases s.subsystems[idx]? with
      | none => rfl
      | some e =>
        dsimp only
        split_ifs
        all_goals rfl
  | mark idx rest =>
    unfold SupervisorLifecycle.start
    dsimp only
    split_ifs
    all_goals rfl
  | degrade reason t rest =>
    cases t with
    | done => rfl
    | lock => exact enterDegradedMode_subsystems reason s .lock
    | starting => exact enterDegradedMode_subsystems reason s .starting
    | running => exact enterDegradedMode_subsystems reason s .running
    | load => exact enterDegradedMode_subsystems reason s .load
  | finish =>
    simp only [SupervisorLifecycle.start, compareExchange]
    by_cases h : s.state = .starting
    · rw [if_pos h]
    · rw [if_neg h]
  | store => rfl
  | abort => rfl
  | done => rfl

theorem startStep_supervisor (w : World) :
    (startStep w).supervisor = (SupervisorLifecycle.start w.supervisor w.start).1 ∧
      (startStep w).start = (SupervisorLifecycle.start w.supervisor w.start).2 := by
  refine ⟨?_, rfl⟩
  have hsubsystems : (SupervisorLifecycle.start w.supervisor w.start).1.subsystems =
      (marked w).map Subsystem.toSubsystemEntry := by
    rw [start_subsystems]
    unfold marked
    cases w.start with
    | mark idx rest =>
      show (if w.base.stateMutex then _ else _) =
        (if w.base.stateMutex then _ else _ : List _).map _
      split_ifs
      · rfl
      · exact (map_modify _ _).symm
    | _ => rfl
  show Supervisor.mk _ _ _ _ _ ((marked w).map _) = _
  rw [← hsubsystems]
  rfl

structure Books (ids : List ℕ) (next : ℕ) (claimed todo : List ℕ) : Prop where
  ordered : ids.Pairwise (· < ·)
  fresh : ∀ id ∈ ids, id < next
  claimedOrdered : claimed.Pairwise (· < ·)
  claimedFresh : ∀ s ∈ claimed, s < next
  todoOrdered : todo.Pairwise (· < ·)
  ahead : ∀ idx ∈ todo, ∀ id ∈ ids.drop idx, ∀ s ∈ claimed, s < id

section Books
variable {ids claimed todo : List ℕ} {next : ℕ}

theorem books_todo (h : Books ids next claimed todo) {todo' : List ℕ} (ht : todo'.Sublist todo) :
    Books ids next claimed todo' where
  ordered := h.ordered
  fresh := h.fresh
  claimedOrdered := h.claimedOrdered
  claimedFresh := h.claimedFresh
  todoOrdered := h.todoOrdered.sublist ht
  ahead idx hidx := h.ahead idx (ht.subset hidx)

theorem books_snapshot (h : Books ids next [] todo) (n : ℕ) :
    Books ids next [] (List.range n) where
  ordered := h.ordered
  fresh := h.fresh
  claimedOrdered := h.claimedOrdered
  claimedFresh := h.claimedFresh
  todoOrdered := List.pairwise_lt_range
  ahead _ _ _ _ := nofun

theorem books_register (h : Books ids next claimed todo) :
    Books (ids ++ [next]) (next + 1) claimed todo where
  ordered := by
    refine List.pairwise_append.mpr ⟨h.ordered, List.pairwise_singleton _ _, fun id hid n hn => ?_⟩
    rw [List.mem_singleton.mp hn]
    exact h.fresh id hid
  fresh id hid := by
    rcases List.mem_append.mp hid with hold | hnew
    · exact Nat.lt_succ_of_lt (h.fresh id hold)
    · rw [List.mem_singleton.mp hnew]
      exact Nat.lt_succ_self _
  claimedOrdered := h.claimedOrdered
  claimedFresh s hs := Nat.lt_succ_of_lt (h.claimedFresh s hs)
  todoOrdered := h.todoOrdered
  ahead idx hidx id hid s hs := by
    rw [List.drop_append] at hid
    rcases List.mem_append.mp hid with hold | hnew
    · exact h.ahead idx hidx id hold s hs
    · rw [List.mem_singleton.mp (List.mem_of_mem_drop hnew)]
      exact h.claimedFresh s hs

theorem books_unregister (h : Books ids next claimed todo) {ids' : List ℕ}
    (hids : ids'.Sublist ids) :
    Books ids' next claimed todo where
  ordered := h.ordered.sublist hids
  fresh id hid := h.fresh id (hids.subset hid)
  claimedOrdered := h.claimedOrdered
  claimedFresh := h.claimedFresh
  todoOrdered := h.todoOrdered
  ahead idx hidx id hid := h.ahead idx hidx id ((hids.drop idx).subset hid)

/-- The subsystem at the next index comes after all that were started before it. -/
theorem books_claim {idx id : ℕ} (h : Books ids next claimed (idx::todo))
    (hid : ids[idx]? = some id) : Books ids next (claimed ++ [id]) todo := by
  obtain ⟨hidx, hget⟩ := List.getElem?_eq_some_iff.mp hid
  have hmem : id ∈ ids.drop idx := by
    rw [List.drop_eq_getElem_cons hidx, hget]
    exact List.mem_cons_self
  have hbefore : ∀ s ∈ claimed, s < id := h.ahead idx List.mem_cons_self id hmem
  refine ⟨h.ordered, h.fresh, ?_, fun s hs => ?_, h.todoOrdered.of_cons, ?_⟩
  · refine List.pairwise_append.mpr ⟨h.claimedOrdered, List.pairwise_singleton _ _, ?_⟩
    intro s hs n hn
    rw [List.mem_singleton.mp hn]
    exact hbefore s hs
  · rcases List.mem_append.mp hs with hold | hnew
    · exact h.claimedFresh s hold
    · rw [List.mem_singleton.mp hnew]
      exact h.fresh id (List.mem_of_mem_drop hmem)
  · intro i hi n hn s hs
    rcases List.mem_append.mp hs with hold | hnew
    · exact h.ahead i (List.mem_cons_of_mem _ hi) n hn s hold
    · rw [List.mem_singleton.mp hnew]
      have hlt : idx < i := (List.pairwise_cons.mp h.todoOrdered).1 i hi
      obtain ⟨k, hk, hn⟩ := List.mem_drop_iff_getElem.mp hn
      rw [← hget, ← hn]
      exact List.pairwise_iff_getElem.mp h.ordered idx (i + k) hidx (by omega) (by omega)

end Books

section Starting
variable {w : World}

def todo : StartThread → List ℕ
  | .check rest => rest
  | .fetch idx rest => idx::rest
  | .mark _ rest => rest
  | .degrade _ _ rest => rest
  | _ => []

def Next (s : Supervisor) (t u : StartThread) : Prop :=
  match t with
  | .store => u = .snapshot ∨ u = .abort
  | .snapshot => u = .snapshot ∨ u = .check (List.range s.subsystems.length)
  | .check (idx::rest) => u = .done ∨ u = .fetch idx rest
  | .fetch idx rest => u = .fetch idx rest ∨ u = .finish ∨
      (u = .mark idx rest ∧ ∃ e, s.subsystems[idx]? = some e ∧ e.startFn = some true) ∨
      ∃ reason, u = .degrade reason .lock rest
  | .mark idx rest => (u = .mark idx rest ∧ s.stateMutex = true) ∨
      (u = .check rest ∧ s.stateMutex = false)
  | .degrade _ _ rest => u = .check rest ∨ ∃ reason t, u = .degrade reason t rest
  | _ => u = .finish ∨ u = .done

theorem start_next (s : Supervisor) (t : StartThread) :
    Next s t (SupervisorLifecycle.start s t).2 := by
  unfold Next
  cases t with
  | store | snapshot =>
    simp only [SupervisorLifecycle.start]
    split_ifs
    · exact .inl rfl
    · exact .inr rfl
  | check todo =>
    cases todo with
    | nil => exact .inl rfl
    | cons idx rest =>
      simp only [SupervisorLifecycle.start]
      split_ifs
      · exact .inl rfl
      · exact .inr rfl
  | fetch idx rest =>
    simp only [SupervisorLifecycle.start]
    split_ifs
    · exact .inl rfl
    · cases hget : s.subsystems[idx]? with
      | none => exact .inr (.inl rfl)
      | some e =>
        dsimp only
        split_ifs with hfn
        · exact .inr (.inr (.inl ⟨rfl, e, rfl, hfn⟩))
        · exact .inr (.inr (.inr ⟨_, rfl⟩))
  | mark idx rest =>
    simp only [SupervisorLifecycle.start]
    split_ifs with hmutex
    · exact .inl ⟨rfl, hmutex⟩
    · exact .inr ⟨rfl, by simpa using hmutex⟩
  | degrade reason t rest =>
    cases t with
    | done => exact .inl rfl
    | lock | starting | running | load => exact .inr ⟨_, _, rfl⟩
  | finish =>
    simp only [SupervisorLifecycle.start, compareExchange]
    by_cases h : s.state = .starting
    · rw [if_pos h]
      exact .inr rfl
    · rw [if_neg h]
      exact .inr rfl
  | abort => exact .inr rfl
  | done => exact .inr rfl

theorem map_id_modify (subsystems : List Subsystem) (idx : ℕ) :
    (subsystems.modify idx (setStarted true)).map Subsystem.id =
      subsystems.map Subsystem.id := by
  induction subsystems generalizing idx with
  | nil => simp only [List.modify_nil]
  | cons e rest ih =>
    cases idx with
    | zero => rfl
    | succ idx => simp only [List.modify_succ_cons, List.map_cons, ih]

theorem map_id_marked (w : World) :
    (marked w).map Subsystem.id = w.subsystems.map Subsystem.id := by
  unfold marked
  split
  · split_ifs
    · rfl
    · exact map_id_modify _ _
  · rfl

def claimed (w : World) : List ℕ :=
  match w.start with
  | .mark _ _ => w.starts ++ w.starting.toList
  | _ => w.starts

def Early (t : StartThread) : Prop := t = .store ∨ t = .abort ∨ t = .snapshot

structure Ledger (w : World) : Prop where
  books : Books (w.subsystems.map Subsystem.id) w.next (claimed w) (todo w.start)
  begun : Early w.start → w.starts = []
  claiming : ∀ idx rest, w.start = .mark idx rest → ∃ id, w.starting = some id

theorem claimed_of {w : World} (h : ∀ idx rest, w.start ≠ .mark idx rest) :
    claimed w = w.starts := by
  unfold claimed
  split
  · next idx rest ht => exact absurd ht (h idx rest)
  · rfl

theorem starts_claimed (w : World) : w.starts.Sublist (claimed w) := by
  unfold claimed
  split
  · exact List.sublist_append_left _ _
  · exact List.Sublist.refl _

theorem start_ledger (h : Ledger w) : Ledger (startStep w) := by
  have hids : (startStep w).subsystems.map Subsystem.id = w.subsystems.map Subsystem.id :=
    map_id_marked w
  have hnext : Next w.supervisor w.start (startStep w).start := start_next w.supervisor w.start
  -- a step that neither fetches nor marks leaves what is claimed
  have hquiet : (∀ idx rest, w.start ≠ .mark idx rest) →
      (∀ idx rest, (startStep w).start ≠ .mark idx rest) →
      (todo (startStep w).start).Sublist (todo w.start) →
      (Early (startStep w).start → Early w.start) → Ledger (startStep w) := by
    intro hw hv htodo hearly
    have hstarts : (startStep w).starts = w.starts := by
      show startsAfter w = _
      unfold startsAfter
      split
      · next idx rest ht => exact absurd ht (hw idx rest)
      · rfl
    refine ⟨?_, fun he => hstarts.trans (h.begun (hearly he)), fun idx rest ht =>
      absurd ht (hv idx rest)⟩
    rw [claimed_of hv, hstarts, hids, ← claimed_of hw]
    exact books_todo h.books htodo
  cases ht : w.start with
  | store =>
    rw [ht] at hnext hquiet
    rcases hnext with hu | hu <;> rw [hu] at hquiet
    all_goals exact hquiet nofun nofun (List.nil_sublist _) fun _ => .inl rfl
  | abort =>
    rw [ht] at hnext hquiet
    rcases hnext with hu | hu <;> rw [hu] at hquiet
    all_goals
      exact hquiet nofun nofun (List.nil_sublist _) fun he => absurd he (by simp [Early])
  | snapshot =>
    rw [ht] at hnext
    have hearly : Early w.start := .inr (.inr ht)
    have hstarts : (startStep w).starts = [] := by
      show startsAfter w = _
      unfold startsAfter
      rw [ht]
      exact h.begun hearly
    rcases hnext with hu | hu
    · rw [hu, ht] at hquiet
      exact hquiet nofun nofun (List.nil_sublist _) id
    · have hbooks := h.books
      rw [claimed_of (by rw [ht]; nofun), h.begun hearly] at hbooks
      refine ⟨?_, fun _ => hstarts, fun idx rest hm => ?_⟩
      · rw [claimed_of (by rw [hu]; nofun), hstarts, hids, hu]
        exact books_snapshot hbooks _
      · rw [hu] at hm
        exact StartThread.noConfusion hm
  | check l =>
    cases l with
    | nil =>
      rw [ht] at hnext hquiet
      rcases hnext with hu | hu <;> rw [hu] at hquiet
      all_goals
        exact hquiet nofun nofun (List.nil_sublist _) fun he => absurd he (by simp [Early])
    | cons idx rest =>
      rw [ht] at hnext hquiet
      rcases hnext with hu | hu <;> rw [hu] at hquiet
      · exact hquiet nofun nofun (List.nil_sublist _) fun he => absurd he (by simp [Early])
      · exact hquiet nofun nofun (List.Sublist.refl _) fun he => absurd he (by simp [Early])
  | fetch idx rest =>
    rw [ht] at hnext
    rcases hnext with hu | hu | ⟨hu, e, he, -⟩ | ⟨reason, hu⟩
    · rw [hu, ht] at hquiet
      exact hquiet nofun nofun (List.Sublist.refl _) id
    · rw [hu, ht] at hquiet
      exact hquiet nofun nofun (List.nil_sublist _) fun he => absurd he (by simp [Early])
    · have hget : ∃ x, w.subsystems[idx]? = some x := by
        have hmap : (w.subsystems.map Subsystem.toSubsystemEntry)[idx]? = some e := he
        rw [List.getElem?_map] at hmap
        cases hx : w.subsystems[idx]? with
        | none => rw [hx] at hmap; exact nomatch hmap
        | some x => exact ⟨x, rfl⟩
      obtain ⟨x, hx⟩ := hget
      have hstarting : (startStep w).starting = some x.id := by
        simp only [startStep, ht, hx, Option.map_some]
      have hstarts : (startStep w).starts = w.starts := by
        show startsAfter w = _
        unfold startsAfter
        rw [ht]
      have hbooks := h.books
      rw [claimed_of (by rw [ht]; nofun), ht] at hbooks
      refine ⟨?_, fun he => ?_, fun _ _ _ => ⟨x.id, hstarting⟩⟩
      · have hclaimed : claimed (startStep w) = w.starts ++ [x.id] := by
          unfold claimed
          rw [hu, hstarts, hstarting]
          rfl
        rw [hclaimed, hids, hu]
        refine books_claim hbooks ?_
        rw [List.getElem?_map, hx]
        rfl
      · rw [hu] at he
        exact absurd he (by simp [Early])
    · rw [hu, ht] at hquiet
      exact hquiet nofun nofun (List.sublist_cons_self _ _) fun he => absurd he (by simp [Early])
  | mark idx rest =>
    rw [ht] at hnext
    have hmutex : w.supervisor.stateMutex = w.base.stateMutex := rfl
    have hclaimed : claimed w = w.starts ++ w.starting.toList := by
      unfold claimed
      rw [ht]
    have hstarting : (startStep w).starting = w.starting := by simp only [startStep, ht]
    have hbooks := h.books
    rw [hclaimed, ht] at hbooks
    rcases hnext with ⟨hu, hlock⟩ | ⟨hu, hlock⟩
    · have hstarts : (startStep w).starts = w.starts := by
        show startsAfter w = _
        unfold startsAfter
        rw [ht]
        exact if_pos (hmutex ▸ hlock)
      refine ⟨?_, fun he => ?_, fun _ _ _ => hstarting ▸ h.claiming idx rest ht⟩
      · have hclaimed' : claimed (startStep w) = w.starts ++ w.starting.toList := by
          unfold claimed
          rw [hu, hstarts, hstarting]
        rwa [hclaimed', hids, hu]
      · rw [hu] at he
        exact absurd he (by simp [Early])
    · have hstarts : (startStep w).starts = w.starts ++ w.starting.toList := by
        show startsAfter w = _
        unfold startsAfter
        rw [ht]
        exact if_neg (by rw [← hmutex, hlock]; decide)
      refine ⟨?_, fun he => ?_, fun _ _ hm => ?_⟩
      · rwa [claimed_of (by rw [hu]; nofun), hstarts, hids, hu]
      · rw [hu] at he
        exact absurd he (by simp [Early])
      · rw [hu] at hm
        exact StartThread.noConfusion hm
  | degrade reason t rest =>
    rw [ht] at hnext hquiet
    rcases hnext with hu | ⟨reason', t', hu⟩ <;> rw [hu] at hquiet
    all_goals
      exact hquiet nofun nofun (List.Sublist.refl _) fun he => absurd he (by simp [Early])
  | finish | done =>
    rw [ht] at hnext hquiet
    rcases hnext with hu | hu <;> rw [hu] at hquiet
    all_goals
      exact hquiet nofun nofun (List.nil_sublist _) fun he => absurd he (by simp [Early])

end Starting

section Stopping
variable {w : World}

def Copied : StopThread → Prop
  | .snapshot => False
  | _ => True

def toStop (e : Subsystem) : Bool := e.started && e.stopFn.isSome

def stoppable (copy : List Subsystem) : List ℕ := (copy.filter toStop).map Subsystem.id

def left : StopThread → List Subsystem
  | .stopping todo => todo
  | _ => []

structure Marked (w : World) : Prop where
  stops : w.stops = []
  marks : ∀ e ∈ w.subsystems, e.started = true ↔ e.id ∈ w.starts

structure Halting (w : World) : Prop where
  order : (w.stops ++ stoppable (left w.stop)).Sublist w.starts.reverse
  each : ∀ e ∈ w.subsystems, e.stopFn.isSome = true → e.id ∈ w.starts →
    e.id ∈ w.stops ++ stoppable (left w.stop)

structure Kept (w : World) : Prop where
  ledger : Ledger w
  marked : ¬ Copied w.stop → Marked w
  halting : Copied w.stop → Halting w

def Found (subsystems : List Subsystem) (idx id : ℕ) : Prop :=
  subsystems[idx]?.map Subsystem.id = some id ∨
    (subsystems[idx]? = none ∧ ∀ e ∈ subsystems, e.id ≠ id)

/-- A start function that returned true is marked before `stop` copies the list, at the
index where its subsystem still is. -/
def Safe (w : World) : Event → Prop
  | .start =>
    match w.start with
    | .mark idx _ => ¬ Copied w.stop ∧ ∀ id ∈ w.starting, Found w.subsystems idx id
    | _ => True
  | _ => True

theorem safe_mark {idx : ℕ} {rest : List ℕ} (hsafe : Safe w .start)
    (ht : w.start = .mark idx rest) :
    ¬ Copied w.stop ∧ ∀ id ∈ w.starting, Found w.subsystems idx id := by
  simp only [Safe, ht] at hsafe
  exact hsafe

theorem starts_ordered (h : Ledger w) : w.starts.Pairwise (· < ·) :=
  h.books.claimedOrdered.sublist (starts_claimed w)

theorem starts_fresh (h : Ledger w) {id : ℕ} (hid : id ∈ w.starts) : id < w.next :=
  h.books.claimedFresh id ((starts_claimed w).subset hid)

theorem id_injective (h : Ledger w) {i j : ℕ} {e e' : Subsystem}
    (hi : w.subsystems[i]? = some e) (hj : w.subsystems[j]? = some e') (hid : e.id = e'.id) :
    i = j := by
  have hnodup : (w.subsystems.map Subsystem.id).Nodup :=
    h.books.ordered.imp fun hlt => Nat.ne_of_lt hlt
  refine (List.getElem?_inj (l := w.subsystems.map Subsystem.id) ?_ hnodup).mp ?_
  · rw [List.length_map]
    exact (List.getElem?_eq_some_iff.mp hi).1
  · rw [List.getElem?_map, List.getElem?_map, hi, hj]
    exact congrArg some hid

theorem mark_marked (h : Ledger w) (hm : Marked w) {idx id : ℕ}
    (hfound : Found w.subsystems idx id) :
    ∀ e ∈ w.subsystems.modify idx (setStarted true),
      e.started = true ↔ e.id ∈ w.starts ++ [id] := by
  intro e he
  obtain ⟨p, hp⟩ := List.mem_iff_getElem?.mp he
  rw [List.getElem?_modify] at hp
  rw [List.mem_append, List.mem_singleton]
  cases hx : w.subsystems[p]? with
  | none =>
    rw [hx] at hp
    exact nomatch hp
  | some x =>
    rw [hx] at hp
    have hmarks := hm.marks x (List.mem_of_getElem? hx)
    by_cases hidx : idx = p
    · subst hidx
      have hfound' : x.id = id := by
        rcases hfound with hin | ⟨hout, -⟩
        · rw [hx] at hin
          exact Option.some.inj hin
        · exact nomatch hx.symm.trans hout
      obtain rfl : setStarted true x = e := by simpa using hp
      exact iff_of_true rfl (.inr hfound')
    · obtain rfl : x = e := by simpa [hidx] using hp
      have hne : x.id ≠ id := by
        rcases hfound with hin | ⟨-, hout⟩
        · cases hy : w.subsystems[idx]? with
          | none =>
            rw [hy] at hin
            exact nomatch hin
          | some y =>
            rw [hy] at hin
            rintro hid
            exact hidx (id_injective h hy hx ((Option.some.inj hin).trans hid.symm))
        · exact hout x (List.mem_of_getElem? hx)
      rw [hmarks]
      exact (or_iff_left hne).symm

theorem start_unmarked (hw : ∀ idx rest, w.start ≠ .mark idx rest) :
    (startStep w).subsystems = w.subsystems ∧ (startStep w).starts = w.starts := by
  show marked w = _ ∧ startsAfter w = _
  unfold marked startsAfter
  cases ht : w.start with
  | mark idx rest => exact absurd ht (hw idx rest)
  | _ => exact ⟨rfl, rfl⟩

theorem start_kept (h : Kept w) (hsafe : Safe w .start) : Kept (startStep w) := by
  refine ⟨start_ledger h.ledger, fun hcopy => ?_, fun hcopy => ?_⟩
  · have hm := h.marked hcopy
    by_cases hmark : ∃ idx rest, w.start = .mark idx rest
    · obtain ⟨idx, rest, ht⟩ := hmark
      obtain ⟨id, hid⟩ := h.ledger.claiming idx rest ht
      refine ⟨hm.stops, ?_⟩
      show ∀ e ∈ marked w, _ ↔ _ ∈ startsAfter w
      unfold marked startsAfter
      rw [ht, hid]
      dsimp only
      split_ifs
      · exact hm.marks
      · exact mark_marked h.ledger hm ((safe_mark hsafe ht).2 id hid)
    · obtain ⟨hsubsystems, hstarts⟩ := start_unmarked fun idx rest ht => hmark ⟨idx, rest, ht⟩
      refine ⟨hm.stops, ?_⟩
      rw [hsubsystems, hstarts]
      exact hm.marks
  · have hh := h.halting hcopy
    obtain ⟨hsubsystems, hstarts⟩ := start_unmarked (w := w) fun _ _ ht =>
      (safe_mark hsafe ht).1 hcopy
    refine ⟨?_, ?_⟩
    · rw [hstarts]
      exact hh.order
    · rw [hsubsystems, hstarts]
      exact hh.each

theorem register_kept (h : Kept w) (name : String) (startFn : Option Bool)
    (stopFn : Option StopFn) : Kept (registerSubsystem w name startFn stopFn) := by
  unfold registerSubsystem
  split_ifs
  · exact h
  · refine ⟨⟨?_, h.ledger.begun, h.ledger.claiming⟩, fun hcopy => ⟨(h.marked hcopy).stops, ?_⟩,
      fun hcopy => ⟨(h.halting hcopy).order, ?_⟩⟩
    · show Books ((w.subsystems ++ [_]).map _) _ _ _
      rw [List.map_append]
      exact books_register h.ledger.books
    · intro e he
      rcases List.mem_append.mp he with hold | hnew
      · exact (h.marked hcopy).marks e hold
      · rw [List.mem_singleton.mp hnew]
        exact iff_of_false Bool.false_ne_true fun hid =>
          Nat.lt_irrefl _ (starts_fresh h.ledger hid)
    · intro e he hstop hid
      rcases List.mem_append.mp he with hold | hnew
      · exact (h.halting hcopy).each e hold hstop hid
      · rw [List.mem_singleton.mp hnew] at hid
        exact absurd (starts_fresh h.ledger hid) (Nat.lt_irrefl _)

theorem unregister_kept (h : Kept w) (name : String) : Kept (unregisterSubsystem w name) := by
  unfold unregisterSubsystem
  split_ifs
  · exact h
  · have hsub : (w.subsystems.filter (fun e => e.name != name)).Sublist w.subsystems :=
      List.filter_sublist
    exact ⟨⟨books_unregister h.ledger.books (hsub.map _), h.ledger.begun, h.ledger.claiming⟩,
      fun hcopy => ⟨(h.marked hcopy).stops, fun e he => (h.marked hcopy).marks e (hsub.subset he)⟩,
      fun hcopy => ⟨(h.halting hcopy).order, fun e he =>
        (h.halting hcopy).each e (hsub.subset he)⟩⟩

theorem stoppable_reverse (copy : List Subsystem) :
    stoppable copy.reverse = (stoppable copy).reverse := by
  unfold stoppable
  rw [List.filter_reverse, List.map_reverse]

/-- The marked subsystems of the copy are the started ones, in their order. -/
theorem copy_halting (h : Ledger w) (hm : Marked w) :
    (stoppable w.subsystems).Sublist w.starts ∧
      ∀ e ∈ w.subsystems, e.stopFn.isSome = true → e.id ∈ w.starts →
        e.id ∈ stoppable w.subsystems := by
  have hsub : (stoppable w.subsystems).Sublist (w.subsystems.map Subsystem.id) :=
    List.filter_sublist.map _
  have hordered := h.books.ordered.sublist hsub
  constructor
  · refine List.sublist_of_subperm_of_pairwise (r := (· < ·)) (List.subperm_of_subset
      (hordered.imp fun hlt => Nat.ne_of_lt hlt) fun id hid => ?_) hordered (starts_ordered h)
    obtain ⟨e, he, rfl⟩ := List.mem_map.mp hid
    obtain ⟨hmem, hstarted⟩ := List.mem_filter.mp he
    exact (hm.marks e hmem).mp ((Bool.and_eq_true _ _).mp hstarted).1
  · intro e he hstop hid
    refine List.mem_map_of_mem (List.mem_filter.mpr ⟨he, ?_⟩)
    exact (Bool.and_eq_true _ _).mpr ⟨(hm.marks e he).mpr hid, hstop⟩

theorem stop_kept (h : Kept w) : Kept (stopStep w) := by
  have hl := h.ledger
  unfold stopStep
  cases hstop : w.stop with
  | snapshot =>
    have hm := h.marked (hstop ▸ not_false)
    dsimp only
    split_ifs
    · exact h
    · obtain ⟨hsub, heach⟩ := copy_halting hl hm
      refine ⟨⟨hl.books, hl.begun, hl.claiming⟩, fun hc => absurd trivial hc, fun _ => ⟨?_, ?_⟩⟩
      · show (w.stops ++ stoppable w.subsystems.reverse).Sublist _
        rw [hm.stops, stoppable_reverse]
        exact hsub.reverse
      · intro e he hfn hid
        show e.id ∈ w.stops ++ stoppable w.subsystems.reverse
        rw [hm.stops, stoppable_reverse]
        exact List.mem_reverse.mpr (heach e he hfn hid)
  | stopping copy =>
    have hh := h.halting (hstop ▸ trivial)
    cases copy with
    | nil =>
      have horder := hh.order
      have heach := hh.each
      rw [hstop] at horder heach
      exact ⟨⟨hl.books, hl.begun, hl.claiming⟩, fun hc => absurd trivial hc,
        fun _ => ⟨horder, heach⟩⟩
    | cons e copy =>
      have hsame : (if e.started && e.stopFn.isSome then w.stops ++ [e.id] else w.stops) ++
          stoppable copy = w.stops ++ stoppable (left w.stop) := by
        rw [hstop]
        show _ = w.stops ++ stoppable (e::copy)
        unfold stoppable
        by_cases hcall : toStop e = true
        · rw [List.filter_cons_of_pos hcall, show (e.started && e.stopFn.isSome) = true from hcall,
            if_pos rfl, List.append_assoc]
          rfl
        · rw [List.filter_cons_of_neg hcall, if_neg (show ¬ (e.started && e.stopFn.isSome) = true
            from hcall)]
      refine ⟨⟨hl.books, hl.begun, hl.claiming⟩, fun hc => absurd trivial hc, fun _ => ⟨?_, ?_⟩⟩
      · exact hsame ▸ hh.order
      · exact hsame ▸ hh.each
  | clear =>
    have hh := h.halting (hstop ▸ trivial)
    have horder := hh.order
    have heach := hh.each
    rw [hstop] at horder heach
    dsimp only
    split_ifs
    · exact h
    · refine ⟨⟨?_, hl.begun, hl.claiming⟩, fun hc => absurd trivial hc, fun _ => ⟨horder, ?_⟩⟩
      · have hids : (w.subsystems.map (setStarted false)).map Subsystem.id =
            w.subsystems.map Subsystem.id := by
          rw [List.map_map]
          rfl
        show Books ((w.subsystems.map (setStarted false)).map _) _ _ _
        rw [hids]
        exact hl.books
      · intro e he hfn hid
        obtain ⟨x, hx, rfl⟩ := List.mem_map.mp he
        exact heach x hx hfn hid
  | store =>
    have hh := h.halting (hstop ▸ trivial)
    have horder := hh.order
    have heach := hh.each
    rw [hstop] at horder heach
    exact ⟨⟨hl.books, hl.begun, hl.claiming⟩, fun hc => absurd trivial hc,
      fun _ => ⟨horder, heach⟩⟩
  | done => exact h

theorem step_kept (h : Kept w) (e : Event) (hsafe : Safe w e) : Kept (step w e) := by
  cases e with
  | start => exact start_kept h hsafe
  | stop => exact stop_kept h
  | register name startFn stopFn => exact register_kept h name startFn stopFn
  | unregister name => exact unregister_kept h name

/-- Only started subsystems are stopped, each once and in the reverse of the order in which
they started; when both calls have returned, each registered one that started is stopped. -/
structure Sound (w : World) : Prop where
  order : w.stops.Sublist w.starts.reverse
  nodup : w.starts.Nodup
  each : w.start = .done → w.stop = .done → ∀ e ∈ w.subsystems, e.stopFn.isSome = true →
    e.id ∈ w.starts → w.stops.count e.id = 1

theorem sound_of_kept (h : Kept w) : Sound w := by
  have hnodup : w.starts.Nodup := (starts_ordered h.ledger).imp fun hlt => Nat.ne_of_lt hlt
  have horder : w.stops.Sublist w.starts.reverse := by
    cases hstop : w.stop with
    | snapshot =>
      rw [(h.marked (hstop ▸ not_false)).stops]
      exact List.nil_sublist _
    | _ => exact (List.sublist_append_left _ _).trans (h.halting (hstop ▸ trivial)).order
  refine ⟨horder, hnodup, fun _ hstop e he hfn hid => ?_⟩
  have heach := (h.halting (hstop ▸ trivial)).each e he hfn hid
  rw [hstop, show stoppable (left .done) = [] from rfl, List.append_nil] at heach
  exact List.count_eq_one_of_mem ((List.nodup_reverse.mpr hnodup).sublist horder) heach

instance (t : StopThread) : Decidable (Copied t) :=
  match t with
  | .snapshot => isFalse not_false
  | .stopping _ => isTrue trivial
  | .clear => isTrue trivial
  | .store => isTrue trivial
  | .done => isTrue trivial

instance (subsystems : List Subsystem) (idx id : ℕ) : Decidable (Found subsystems idx id) :=
  inferInstanceAs (Decidable (_ ∨ _))

instance (w : World) : DecidablePred (Safe w)
  | .start => by
    unfold Safe
    dsimp only
    split <;> infer_instance
  | .stop => isTrue trivial
  | .register _ _ _ => isTrue trivial
  | .unregister _ => isTrue trivial

end Stopping

theorem kept_constructed (metrics clock : Bool) : Kept (constructed metrics clock) where
  ledger := ⟨⟨.nil, nofun, .nil, nofun, .nil, nofun⟩, fun _ => rfl, nofun⟩
  marked _ := ⟨rfl, nofun⟩
  halting := nofun

/-- In every run whose marks are all safe, the subsystems are stopped as they should be. -/
theorem stops_reverse_starts (metrics clock : Bool) (events : List Event)
    (hsafe : Runs.Meets step Safe (constructed metrics clock) events) :
    Runs.Always step Sound (constructed metrics clock) events := by
  have hkept := Runs.always_of_meets step (I := Kept) (C := Safe)
    (fun w e h hs => step_kept h e hs) _ events (kept_constructed metrics clock) hsafe
  exact Runs.always_mono step (fun _ h => sound_of_kept h) _ events hkept

def registered : List Event :=
  [.register "feed" (some true) (some .throws), .register "engine" (some true) (some .returns),
    .register "scanner" (some true) (some .returns)]

def orderly : List Event :=
  registered ++ List.replicate 13 .start ++ List.replicate 7 .stop

def shifted : List Event :=
  registered ++ List.replicate 7 .start ++ [.unregister "feed"] ++ List.replicate 4 .start ++
    List.replicate 7 .stop

def copiedEarly : List Event :=
  registered ++ List.replicate 4 .start ++ List.replicate 7 .stop ++ List.replicate 2 .start

theorem stops_orderly : Runs.Always step Sound (constructed true true) orderly :=
  stops_reverse_starts true true orderly (by decide)

/-- The last subsystem is stopped without a start and the second one started without a stop;
in the other run the first one started without a stop. -/
theorem stops_wrong :
    ((Runs.run step (constructed true true) shifted).starts = [0, 1] ∧
      (Runs.run step (constructed true true) shifted).stops = [2] ∧
      (Runs.run step (constructed true true) shifted).subsystems.map Subsystem.id = [1, 2] ∧
      (Runs.run step (constructed true true) shifted).start = .done ∧
      (Runs.run step (constructed true true) shifted).stop = .done ∧
      ¬ Runs.Always step Sound (constructed true true) shifted) ∧
      (Runs.run step (constructed true true) copiedEarly).starts = [0] ∧
      (Runs.run step (constructed true true) copiedEarly).stops = [] ∧
      (Runs.run step (constructed true true) copiedEarly).start = .done ∧
      (Runs.run step (constructed true true) copiedEarly).stop = .done ∧
      ¬ Runs.Always step Sound (constructed true true) copiedEarly := by
  refine ⟨⟨by decide, by decide, by decide, by decide, rfl, fun h => ?_⟩, by decide, by decide,
    by decide, rfl, fun h => ?_⟩
  · have horder := (Runs.always_last step h).order
    exact absurd horder (by decide)
  · have heach := (Runs.always_last step h).each (by decide) rfl
    exact absurd heach (by decide)

end TB.SupervisorStops
