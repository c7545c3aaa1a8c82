import Mathlib.Data.List.Basic

/-!
# The lifecycle state of the supervisor

Every operation on the state word is atomic. Between two of them other calls
and the signal handler run. Entering and leaving the degraded mode hold the
state mutex throughout; the signal handler and the shutdown request take none.
-/

set_option autoImplicit false

namespace TB.SupervisorLifecycle

inductive SystemState where
  | initializing
  | starting
  | running
  | degraded
  | shuttingDown
  | stopped
  deriving DecidableEq

structure SubsystemEntry where
  name : String
  startFn : Option Bool
  started : Bool

structure Supervisor where
  metrics : Bool
  clock : Bool
  state : SystemState
  degradedReason : String
  stateMutex : Bool
  subsystems : List SubsystemEntry

def compareExchange (s : Supervisor) (expected desired : SystemState) : Option Supervisor :=
  if s.state = expected then some { s with state := desired } else none

def validateStartupDependencies (s : Supervisor) : Bool := s.metrics && s.clock

inductive EnterThread where
  | lock
  | starting
  | running
  | load
  | done
  deriving DecidableEq

def degradedFor (reason : String) (s : Supervisor) : Supervisor :=
  { s with degradedReason := reason, stateMutex := false }

def enterDegradedMode (reason : String) (s : Supervisor) :
    EnterThread → Supervisor × EnterThread
  | .lock => if s.stateMutex then (s, .lock) else ({ s with stateMutex := true }, .starting)
  | .starting =>
    match compareExchange s .starting .degraded with
    | some s' => (degradedFor reason s', .done)
    | none => (s, .running)
  | .running =>
    match compareExchange s .running .degraded with
    | some s' => (degradedFor reason s', .done)
    | none => (s, .load)
  | .load =>
    let s := { s with stateMutex := false }
    if s.state = .degraded then
      let before := if s.degradedReason = "" then "" else s.degradedReason ++ "; "
      ({ s with degradedReason := before ++ reason }, .done)
    else (s, .done)
  | .done => (s, .done)

inductive ExitThread where
  | lock
  | degraded
  | done
  deriving DecidableEq

def exitDegradedMode (s : Supervisor) : ExitThread → Supervisor × ExitThread
  | .lock => if s.stateMutex then (s, .lock) else ({ s with stateMutex := true }, .degraded)
  | .degraded =>
    match compareExchange s .degraded .running with
    | some s' => ({ s' with degradedReason := "", stateMutex := false }, .done)
    | none => ({ s with stateMutex := false }, .done)
  | .done => (s, .done)

inductive HandlerThread where
  | loadInstance
  | running
  | degraded
  | starting
  | done
  deriving DecidableEq

def signalHandler (s : Supervisor) : HandlerThread → Supervisor × HandlerThread
  | .loadInstance => (s, .running)
  | .running =>
    match compareExchange s .running .shuttingDown with
    | some s' => (s', .done)
    | none => (s, .degraded)
  | .degraded =>
    match compareExchange s .degraded .shuttingDown with
    | some s' => (s', .done)
    | none => (s, .starting)
  | .starting =>
    match compareExchange s .starting .shuttingDown with
    | some s' => (s', .done)
    | none => (s, .done)
  | .done => (s, .done)

inductive RequestThread where
  | running
  | degraded
  | done
  deriving DecidableEq

def requestShutdown (s : Supervisor) : RequestThread → Supervisor × RequestThread
  | .running =>
    match compareExchange s .running .shuttingDown with
    | some s' => (s', .done)
    | none => (s, .degraded)
  | .degraded =>
    match compareExchange s .degraded .shuttingDown with
    | some s' => (s', .done)
    | none => (s, .done)
  | .done => (s, .done)

inductive StartThread where
  | store
  | abort
  | snapshot
  | check (todo : List ℕ)
  | fetch (idx : ℕ) (rest : List ℕ)
  | mark (idx : ℕ) (rest : List ℕ)
  | degrade (reason : String) (t : EnterThread) (rest : List ℕ)
  | finish
  | done
  deriving DecidableEq

def markStarted (subsystems : List SubsystemEntry) (idx : ℕ) : List SubsystemEntry :=
  subsystems.modify idx (fun e => { e with started := true })

def start (s : Supervisor) : StartThread → Supervisor × StartThread
  | .store =>
    ({ s with state := .starting },
      if validateStartupDependencies s then .snapshot else .abort)
  | .abort => ({ s with state := .stopped }, .done)
  | .snapshot =>
    if s.stateMutex then (s, .snapshot) else (s, .check (List.range s.subsystems.length))
  | .check [] => (s, .finish)
  | .check (idx::rest) =>
    if s.state = .shuttingDown ∨ s.state = .stopped then (s, .done) else (s, .fetch idx rest)
  | .fetch idx rest =>
    if s.stateMutex then (s, .fetch idx rest)
    else
      match s.subsystems[idx]? with
      | none => (s, .finish)
      | some e =>
        if e.startFn = some true then (s, .mark idx rest)
        else (s, .degrade ("Ошибка запуска подсистемы: " ++ e.name) .lock rest)
  | .mark idx rest =>
    if s.stateMutex then (s, .mark idx rest)
    else ({ s with subsystems := markStarted s.subsystems idx }, .check rest)
  | .degrade _ .done rest => (s, .check rest)
  | .degrade reason t rest =>
    let r := enterDegradedMode reason s t
    (r.1, .degrade reason r.2 rest)
  | .finish =>
    match compareExchange s .starting .running with
    | some s' => (s', .done)
    | none => (s, .done)
  | .done => (s, .done)

inductive Thread where
  | handler (t : HandlerThread)
  | request (t : RequestThread)
  | enter (reason : String) (t : EnterThread)
  | exit (t : ExitThread)
  deriving DecidableEq

def advance (s : Supervisor) : Thread → Supervisor × Thread
  | .handler t => (signalHandler s t).map id .handler
  | .request t => (requestShutdown s t).map id .request
  | .enter reason t => (enterDegradedMode reason s t).map id (.enter reason)
  | .exit t => (exitDegradedMode s t).map id .exit

structure Call where
  thread : Thread
  madeIn : SystemState

structure World where
  supervisor : Supervisor
  start : StartThread
  calls : List Call

def constructed (metrics clock : Bool) (subsystems : List SubsystemEntry) : World where
  supervisor := ⟨metrics, clock, .initializing, "", false, subsystems⟩
  start := .store
  calls := []

inductive Event where
  | start
  | signal
  | requestShutdown
  | enterDegradedMode (reason : String)
  | exitDegradedMode
  | run (i : ℕ)

def World.call (w : World) (t : Thread) : World :=
  { w with calls := w.calls ++ [⟨t, w.supervisor.state⟩] }

def worldStep (w : World) : Event → World
  | .start =>
    let r := start w.supervisor w.start
    { w with supervisor := r.1, start := r.2 }
  | .signal => w.call (.handler .loadInstance)
  | .requestShutdown => w.call (.request .running)
  | .enterDegradedMode reason => w.call (.enter reason .lock)
  | .exitDegradedMode => w.call (.exit .lock)
  | .run i =>
    match w.calls[i]? with
    | none => w
    | some c =>
      let r := advance w.supervisor c.thread
      { w with supervisor := r.1, calls := w.calls.set i { c with thread := r.2 } }

end TB.SupervisorLifecycle
