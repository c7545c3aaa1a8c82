import TomorrowBot.SupervisorLifecycle
import TomorrowBot.Runs

/-!
# Requests to shut down

A request that was made while the system was live is heeded exactly where its
last attempt does not find the system live in a state it does not try there:
the handler tries running, degraded and starting, the shutdown request running
and degraded.
-/

set_option autoImplicit false

namespace TB.ShutdownRequests
open TB.SupervisorLifecycle Runs

def Live (state : SystemState) : Prop :=
  state = .starting ∨ state = .running ∨ state = .degraded

def Closed (state : SystemState) : Prop := state = .shuttingDown ∨ state = .stopped

instance (state : SystemState) : Decidable (Live state) := instDecidableOr
instance (state : SystemState) : Decidable (Closed state) := instDecidableOr

theorem not_live_of_closed {state : SystemState} (h : Closed state) : ¬ Live state := by
  rcases h with rfl | rfl <;> decide

theorem closed_of_not_live {state : SystemState} (hl : ¬ Live state)
    (hi : state ≠ .initializing) : Closed state := by
  cases state with
  | initializing => exact absurd rfl hi
  | starting | running | degraded => exact absurd (by decide) hl
  | shuttingDown | stopped => decide

def Finished (t : Thread) : Prop := t = .handler .done ∨ t = .request .done

instance (t : Thread) : Decidable (Finished t) := instDecidableOr

def Heeded (w : World) : Prop :=
  ∀ c ∈ w.calls, Live c.madeIn → Finished c.thread → Closed w.supervisor.state

/-- The last attempt of a request that would find the system live and fail. -/
def Lost (state : SystemState) : Thread → Prop
  | .handler .starting => state = .running ∨ state = .degraded
  | .request .degraded => state = .starting ∨ state = .running
  | _ => False

instance (state : SystemState) : ∀ t, Decidable (Lost state t)
  | .handler t => by cases t <;> unfold Lost <;> infer_instance
  | .request t => by cases t <;> unfold Lost <;> infer_instance
  | .enter _ _ => inferInstanceAs (Decidable False)
  | .exit _ => inferInstanceAs (Decidable False)

def InTime (w : World) : Event → Prop
  | .run i => ∀ c ∈ w.calls[i]?, Live c.madeIn → ¬ Lost w.supervisor.state c.thread
  | _ => True

section Steps

theorem compareExchange_some {s s' : Supervisor} {a b : SystemState}
    (h : compareExchange s a b = some s') : s.state = a ∧ s' = { s with state := b } := by
  unfold compareExchange at h
  split_ifs at h with hs
  exact ⟨hs, (Option.some.inj h).symm⟩

theorem compareExchange_none {s : Supervisor} {a b : SystemState}
    (h : compareExchange s a b = none) : s.state ≠ a := by
  unfold compareExchange at h
  split_ifs at h with hs
  exact hs

inductive Moves : SystemState → SystemState → Prop where
  | same (state : SystemState) : Moves state state
  | started : Moves .starting .running
  | entered {state : SystemState} : Live state → Moves state .degraded
  | left : Moves .degraded .running
  | requested {state : SystemState} : Live state → Moves state .shuttingDown
  | aborted {state : SystemState} : state ≠ .initializing → Moves state .stopped

theorem moves_closed {a b : SystemState} (h : Moves a b) (ha : Closed a) : Closed b := by
  cases h with
  | same => exact ha
  | started | left => exact absurd ha (by decide)
  | entered hl => exact absurd hl (not_live_of_closed ha)
  | requested | aborted => decide

theorem moves_initializing {a b : SystemState} (h : Moves a b) :
    a = .initializing ↔ b = .initializing := by
  cases h with
  | same => exact Iff.rfl
  | started | left => decide
  | entered hl | requested hl =>
    refine iff_of_false ?_ (by decide)
    rintro rfl
    exact absurd hl (by decide)
  | aborted hne => exact iff_of_false hne (by decide)

theorem enter_moves (reason : String) (s : Supervisor) (t : EnterThread) :
    Moves s.state (enterDegradedMode reason s t).1.state := by
  cases t with
  | lock =>
    unfold enterDegradedMode
    split_ifs <;> exact .same _
  | starting =>
    cases h : compareExchange s .starting .degraded with
    | none => simp only [enterDegradedMode, h]; exact .same _
    | some s' =>
      obtain ⟨hs, rfl⟩ := compareExchange_some h
      simp only [enterDegradedMode, h]
      exact .entered (Or.inl hs)
  | running =>
    cases h : compareExchange s .running .degraded with
    | none => simp only [enterDegradedMode, h]; exact .same _
    | some s' =>
      obtain ⟨hs, rfl⟩ := compareExchange_some h
      simp only [enterDegradedMode, h]
      exact .entered (Or.inr (Or.inl hs))
  | load =>
    simp only [enterDegradedMode]
    split_ifs <;> exact .same _
  | done => exact .same _

variable (s : Supervisor)

theorem exit_moves (t : ExitThread) : Moves s.state (exitDegradedMode s t).1.state := by
  cases t with
  | lock =>
    unfold exitDegradedMode
    split_ifs <;> exact .same _
  | degraded =>
    cases h : compareExchange s .degraded .running with
    | none => simp only [exitDegradedMode, h]; exact .same _
    | some s' =>
      obtain ⟨hs, rfl⟩ := compareExchange_some h
      simp only [exitDegradedMode, h, hs]
      exact .left
  | done => exact .same _

theorem attempt_moves {s s' : Supervisor} {a : SystemState}
    (h : compareExchange s a .shuttingDown = some s') (ha : Live a) :
    Moves s.state s'.state := by
  obtain ⟨hs, rfl⟩ := compareExchange_some h
  exact .requested (hs ▸ ha)

theorem handler_moves (t : HandlerThread) : Moves s.state (signalHandler s t).1.state := by
  cases t with
  | loadInstance | done => exact .same _
  | running | degraded | starting =>
    simp only [signalHandler]
    split
    next h => exact attempt_moves h (by decide)
    next => exact .same _

theorem request_moves (t : RequestThread) : Moves s.state (requestShutdown s t).1.state := by
  cases t with
  | done => exact .same _
  | running | degraded =>
    simp only [requestShutdown]
    split
    next h => exact attempt_moves h (by decide)
    next => exact .same _

theorem advance_moves (t : Thread) : Moves s.state (advance s t).1.state := by
  cases t with
  | handler t => exact handler_moves s t
  | request t => exact request_moves s t
  | enter reason t => exact enter_moves reason s t
  | exit t => exact exit_moves s t

theorem start_moves (t : StartThread) (ht : t ≠ .store)
    (hi : s.state ≠ .initializing) : Moves s.state (start s t).1.state := by
  cases t with
  | store => exact absurd rfl ht
  | abort => exact .aborted hi
  | snapshot =>
    simp only [start]
    split_ifs <;> exact .same _
  | check todo =>
    cases todo with
    | nil => exact .same _
    | cons idx rest =>
      simp only [start]
      split_ifs <;> exact .same _
  | fetch idx rest =>
    simp only [start]
    split_ifs
    · exact .same _
    · cases s.subsystems[idx]? with
      | none => exact .same _
      | some e =>
        dsimp only
        split_ifs <;> exact .same _
  | mark idx rest =>
    simp only [start]
    split_ifs <;> exact .same _
  | degrade reason t rest =>
    cases t with
    | done => exact .same _
    | lock => exact enter_moves reason s .lock
    | starting => exact enter_moves reason s .starting
    | running => exact enter_moves reason s .running
    | load => exact enter_moves reason s .load
  | finish =>
    cases h : compareExchange s .starting .running with
    | none => simp only [start, h]; exact .same _
    | some s' =>
      obtain ⟨hs, rfl⟩ := compareExchange_some h
      simp only [start, h, hs]
      exact .started
  | done => exact .same _

theorem start_stored (t : StartThread) : (start s t).2 ≠ .store := by
  cases t with
  | store =>
    simp only [start]
    split_ifs <;> decide
  | abort | done => exact StartThread.noConfusion
  | snapshot =>
    simp only [start]
    split_ifs <;> simp
  | check todo =>
    cases todo with
    | nil => exact StartThread.noConfusion
    | cons idx rest =>
      simp only [start]
      split_ifs <;> simp
  | fetch idx rest =>
    simp only [start]
    split_ifs
    · simp
    · cases s.subsystems[idx]? with
      | none => exact StartThread.noConfusion
      | some e =>
        dsimp only
        split_ifs <;> simp
  | mark idx rest =>
    simp only [start]
    split_ifs <;> simp
  | degrade reason t rest => cases t <;> simp [start]
  | finish =>
    cases h : compareExchange s .starting .running <;> simp [start, h]

end Steps

section Outcomes

variable (s : Supervisor)

theorem handler_finishes (t : HandlerThread) (hi : s.state ≠ .initializing)
    (hf : (signalHandler s t).2 = .done) :
    t = .done ∨ Lost s.state (.handler t) ∨ Closed (signalHandler s t).1.state := by
  cases t with
  | loadInstance => exact absurd hf HandlerThread.noConfusion
  | done => exact Or.inl rfl
  | running | degraded =>
    simp only [signalHandler] at hf ⊢
    split at hf
    next h =>
      obtain ⟨-, rfl⟩ := compareExchange_some h
      exact Or.inr (Or.inr (Or.inl rfl))
    next => cases hf
  | starting =>
    right
    cases h : compareExchange s .starting .shuttingDown with
    | none =>
      have hne := compareExchange_none h
      simp only [signalHandler, h]
      by_cases hl : Live s.state
      · exact Or.inl (hl.resolve_left hne)
      · exact Or.inr (closed_of_not_live hl hi)
    | some s' =>
      obtain ⟨-, rfl⟩ := compareExchange_some h
      simp only [signalHandler, h]
      exact Or.inr (Or.inl rfl)

theorem request_finishes (t : RequestThread) (hi : s.state ≠ .initializing)
    (hf : (requestShutdown s t).2 = .done) :
    t = .done ∨ Lost s.state (.request t) ∨ Closed (requestShutdown s t).1.state := by
  cases t with
  | done => exact Or.inl rfl
  | running =>
    cases h : compareExchange s .running .shuttingDown with
    | none => simp [requestShutdown, h] at hf
    | some s' =>
      obtain ⟨-, rfl⟩ := compareExchange_some h
      simp only [requestShutdown, h]
      exact Or.inr (Or.inr (Or.inl rfl))
  | degraded =>
    right
    cases h : compareExchange s .degraded .shuttingDown with
    | none =>
      have hne := compareExchange_none h
      simp only [requestShutdown, h]
      by_cases hl : Live s.state
      · exact Or.inl (hl.imp id (fun hr => hr.resolve_right hne))
      · exact Or.inr (closed_of_not_live hl hi)
    | some s' =>
      obtain ⟨-, rfl⟩ := compareExchange_some h
      simp only [requestShutdown, h]
      exact Or.inr (Or.inl rfl)

/-- A request returns having closed the system or having lost its last attempt. -/
theorem advance_finishes (t : Thread) (hi : s.state ≠ .initializing)
    (hf : Finished (advance s t).2) :
    Finished t ∨ Lost s.state t ∨ Closed (advance s t).1.state := by
  cases t with
  | handler t =>
    have hdone : (signalHandler s t).2 = .done := by
      rcases hf with hf | hf
      · exact Thread.handler.inj hf
      · exact absurd hf Thread.noConfusion
    exact (handler_finishes s t hi hdone).imp (fun h => Or.inl (congrArg _ h)) id
  | request t =>
    have hdone : (requestShutdown s t).2 = .done := by
      rcases hf with hf | hf
      · exact absurd hf Thread.noConfusion
      · exact Thread.request.inj hf
    exact (request_finishes s t hi hdone).imp (fun h => Or.inr (congrArg _ h)) id
  | enter | exit => rcases hf with hf | hf <;> exact absurd hf Thread.noConfusion

/-- A lost attempt ends its request and leaves the system live. -/
theorem advance_lost (t : Thread) (h : Lost s.state t) :
    Finished (advance s t).2 ∧ ¬ Closed (advance s t).1.state := by
  have hmiss : ∀ a, s.state ≠ a → compareExchange s a .shuttingDown = none :=
    fun a ha => if_neg ha
  cases t with
  | handler t =>
    cases t with
    | starting =>
      have hlive : s.state ≠ .starting ∧ ¬ Closed s.state := by
        rcases h with h | h <;> rw [h] <;> decide
      simp only [advance, signalHandler, hmiss .starting hlive.1]
      exact ⟨Or.inl rfl, hlive.2⟩
    | loadInstance | running | degraded | done => exact absurd h id
  | request t =>
    cases t with
    | degraded =>
      have hlive : s.state ≠ .degraded ∧ ¬ Closed s.state := by
        rcases h with h | h <;> rw [h] <;> decide
      simp only [advance, requestShutdown, hmiss .degraded hlive.1]
      exact ⟨Or.inr rfl, hlive.2⟩
    | running | done => exact absurd h id
  | enter reason t => exact absurd h id
  | exit t => exact absurd h id

end Outcomes

section Runs

structure Ordered (w : World) : Prop where
  before : w.start = .store → w.supervisor.state = .initializing ∧
    ∀ c ∈ w.calls, c.madeIn = .initializing
  after : w.start ≠ .store → w.supervisor.state ≠ .initializing

theorem ordered_constructed (metrics clock : Bool) (subsystems : List SubsystemEntry) :
    Ordered (constructed metrics clock subsystems) where
  before _ := ⟨rfl, fun _ hc => absurd hc List.not_mem_nil⟩
  after h := absurd rfl h

theorem ordered_call {w : World} (h : Ordered w) (t : Thread) : Ordered (w.call t) where
  before hs := by
    refine ⟨(h.before hs).1, ?_⟩
    intro c hc
    rcases List.mem_append.mp hc with hc | hc
    · exact (h.before hs).2 c hc
    · rw [List.mem_singleton.mp hc]
      exact (h.before hs).1
  after := h.after

theorem heeded_call {w : World} (h : Heeded w) (t : Thread) (ht : ¬ Finished t) :
    Heeded (w.call t) := by
  intro c hc hlive hf
  rcases List.mem_append.mp hc with hc | hc
  · exact h c hc hlive hf
  · rw [List.mem_singleton.mp hc] at hf
    exact absurd hf ht

theorem ordered_step (w : World) (e : Event) (h : Ordered w) : Ordered (worldStep w e) := by
  cases e with
  | start =>
    refine ⟨fun hs => absurd hs (start_stored _ _), fun _ => ?_⟩
    by_cases hs : w.start = .store
    · simp [worldStep, hs, start]
    · exact fun hi => h.after hs
        ((moves_initializing (start_moves _ _ hs (h.after hs))).mpr hi)
  | signal | requestShutdown | enterDegradedMode | exitDegradedMode => exact ordered_call h _
  | run i =>
    cases hc : w.calls[i]? with
    | none => simpa only [worldStep, hc] using h
    | some c =>
      have hmoves := moves_initializing (advance_moves w.supervisor c.thread)
      simp only [worldStep, hc]
      refine ⟨fun hs => ⟨hmoves.mp (h.before hs).1, ?_⟩, fun hs hi => h.after hs (hmoves.mpr hi)⟩
      intro c' hc'
      rcases List.mem_or_eq_of_mem_set hc' with hold | rfl
      · exact (h.before hs).2 c' hold
      · exact (h.before hs).2 c (List.mem_of_getElem? hc)

/-- One step keeps every request heeded exactly where none loses its last attempt. -/
theorem heeded_step (w : World) (e : Event) (ho : Ordered w) (h : Heeded w) :
    Heeded (worldStep w e) ↔ InTime w e := by
  cases e with
  | start =>
    refine iff_of_true ?_ trivial
    intro c hc hlive hf
    have hs : w.start ≠ .store := by
      intro hs
      rw [(ho.before hs).2 c hc] at hlive
      exact absurd hlive (by decide)
    exact moves_closed (start_moves _ _ hs (ho.after hs)) (h c hc hlive hf)
  | signal | requestShutdown => exact iff_of_true (heeded_call h _ (by decide)) trivial
  | enterDegradedMode reason => exact iff_of_true (heeded_call h _ (by simp [Finished])) trivial
  | exitDegradedMode => exact iff_of_true (heeded_call h _ (by decide)) trivial
  | run i =>
    cases hc : w.calls[i]? with
    | none =>
      simp only [worldStep, InTime, hc]
      exact iff_of_true h (fun c hc' => absurd hc' (by simp))
    | some c =>
      have hmem : c ∈ w.calls := List.mem_of_getElem? hc
      have hmoves := advance_moves w.supervisor c.thread
      simp only [worldStep, InTime, hc]
      constructor
      · intro hheeded c' hc' hlive hlost
        obtain rfl := Option.some.inj hc'
        obtain ⟨hf, hopen⟩ := advance_lost _ _ hlost
        refine hopen (hheeded { c with thread := (advance w.supervisor c.thread).2 } ?_ hlive hf)
        exact List.mem_set (List.getElem?_eq_some_iff.mp hc).1 _
      · intro htime c' hc' hlive hf
        rcases List.mem_or_eq_of_mem_set hc' with hold | rfl
        · exact moves_closed hmoves (h c' hold hlive hf)
        · have hs : w.start ≠ .store := by
            intro hs
            have hmade : c.madeIn = .initializing := (ho.before hs).2 c hmem
            rw [show Live c.madeIn = _ from congrArg Live hmade] at hlive
            exact absurd hlive (by decide)
          rcases advance_finishes _ _ (ho.after hs) hf with hdone | hlost | hclosed
          · exact moves_closed hmoves (h c hmem hlive hdone)
          · exact absurd hlost (htime c rfl hlive)
          · exact hclosed

end Runs

/-- Every request of a run is heeded exactly where none that was made in a live system
loses its last attempt. -/
theorem shutdown_heeded (metrics clock : Bool) (subsystems : List SubsystemEntry)
    (events : List Event) :
    Always worldStep Heeded (constructed metrics clock subsystems) events ↔
      Meets worldStep InTime (constructed metrics clock subsystems) events :=
  always_iff_meets worldStep (fun w e => ordered_step w e) heeded_step _ events
    (ordered_constructed metrics clock subsystems) (fun _ hc => absurd hc List.not_mem_nil)

def overtakenHandler : List Event :=
  [.start, .start, .signal, .run 0, .run 0, .start, .start, .run 0, .run 0]

/-- A signal that `start` overtakes is lost. -/
theorem signal_lost : ¬ ∀ (metrics clock : Bool) (subsystems : List SubsystemEntry)
    (events : List Event),
    Always worldStep Heeded (constructed metrics clock subsystems) events := by
  intro h
  have hlast := always_last worldStep (h true true [] overtakenHandler)
  exact absurd (hlast ⟨.handler .done, .starting⟩ (by simp [overtakenHandler, run, worldStep,
    constructed, start, World.call, advance, signalHandler, compareExchange,
    validateStartupDependencies]) (by decide) (by decide)) (by decide)

end TB.ShutdownRequests
