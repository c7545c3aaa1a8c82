import Mathlib.Algebra.Group.Int.Defs
import TomorrowBot.WsOperations

/-!
# The private websocket client

One thread runs the handlers, each to its end; other threads subscribe and
stop. The handlers know the client only, not the stream their operation was
started on. Every message goes through a posted task into the write queue.
-/

set_option autoImplicit false

namespace TB.PrivateWsClient
open TB.WsOperations

abbrev Channel := String × String

inductive Message where
  | login
  | subscribe (channel : Channel)
  | ping
  deriving DecidableEq, Repr

inductive Task where
  | write (msg : Message)
  | close

inductive Caller where
  | checking (channel : Channel)
  | sending (channel : Channel)
  deriving DecidableEq, Repr

inductive Received where
  | pong
  | event (name : String)
  | other

structure Config where
  reconnectDelayMs : ℤ
  maxReconnectDelayMs : ℤ

structure State where
  stream : ℕ
  running : Bool
  stopped : Bool
  connected : Bool
  authenticated : Bool
  subscriptions : List Channel
  writeQueue : List Message
  writing : Bool
  reconnectAttempt : ℕ
  reconnectTimer : Option ℤ
  heartbeatTimer : Bool
  authTimer : Bool
  pending : List Op
  posted : List Task
  callers : List Caller
  written : List (ℕ × Message)

inductive Event where
  | complete (op : Op) (ec : ErrorCode) (received : Received)
  | reconnectExpires
  | authExpires
  | heartbeatExpires
  | runPosted
  | subscribe (channel : Channel)
  | advance (caller : Caller)
  | stop

def async (s : State) (kind : OpKind) : State :=
  { s with pending := s.pending ++ [⟨kind, s.stream⟩] }

def connect (s : State) : State := async { s with stream := s.stream + 1 } .resolve

def scheduleReconnect (config : Config) (s : State) : State :=
  let s := { s with connected := false, authenticated := false, authTimer := false }
  if s.running then
    { s with
      reconnectAttempt := s.reconnectAttempt + 1
      reconnectTimer := some (min (config.reconnectDelayMs * 2 ^ min s.reconnectAttempt 8)
        config.maxReconnectDelayMs) }
  else s

def enqueueWrite (s : State) (msg : Message) : State :=
  { s with posted := s.posted ++ [.write msg] }

def sendLogin (s : State) : State := enqueueWrite s .login

def subscribeChannel (s : State) (channel : Channel) : State := enqueueWrite s (.subscribe channel)

def resubscribeAll (s : State) : State := s.subscriptions.foldl subscribeChannel s

def scheduleHeartbeat (s : State) : State :=
  if s.running then { s with heartbeatTimer := true } else s

def doRead (s : State) : State := if s.running then async s .read else s

def onAttempt (config : Config) (next : OpKind) (s : State) : ErrorCode → State
  | .success => async s next
  | _ => scheduleReconnect config s

def onResolve (config : Config) : State → ErrorCode → State := onAttempt config .tcpConnect

def onTcpConnect (config : Config) : State → ErrorCode → State := onAttempt config .sslHandshake

def onSslHandshake (config : Config) : State → ErrorCode → State := onAttempt config .wsHandshake

def onWsHandshake (config : Config) (s : State) : ErrorCode → State
  | .success =>
    doRead (sendLogin { s with connected := true, reconnectAttempt := 0, authTimer := true })
  | _ => scheduleReconnect config s

def onLogin (s : State) : State :=
  scheduleHeartbeat (resubscribeAll { s with authenticated := true, authTimer := false })

def onRead (config : Config) (s : State) (received : Received) : ErrorCode → State
  | .success =>
    match received with
    | .event name => doRead (if name = "login" then onLogin s else s)
    | _ => doRead s
  | _ => if s.running then scheduleReconnect config s else s

def doWrite (s : State) : State :=
  match s.writeQueue with
  | [] => { s with writing := false }
  | front::_ =>
    async { s with writing := true, written := s.written ++ [(s.stream, front)] } .write

def onWrite (config : Config) (s : State) : ErrorCode → State
  | .success => doWrite { s with writeQueue := s.writeQueue.tail }
  | _ =>
    let s := { s with writeQueue := [], writing := false }
    if s.running then scheduleReconnect config s else s

def handle (config : Config) (s : State) (kind : OpKind) (ec : ErrorCode)
    (received : Received) : State :=
  match kind with
  | .resolve => onResolve config s ec
  | .tcpConnect => onTcpConnect config s ec
  | .sslHandshake => onSslHandshake config s ec
  | .wsHandshake => onWsHandshake config s ec
  | .read => onRead config s received ec
  | .write => onWrite config s ec

def complete (config : Config) (s : State) (op : Op) (ec : ErrorCode) (received : Received) :
    State :=
  if op ∈ s.pending then
    handle config { s with pending := s.pending.erase op } op.kind
      (op.errorCode (some s.stream) ec) received
  else s

def reconnectExpires (s : State) : State :=
  if s.reconnectTimer.isSome then
    let s := { s with reconnectTimer := none }
    if s.running then connect s else s
  else s

def authExpires (config : Config) (s : State) : State :=
  if s.authTimer then
    let s := { s with authTimer := false }
    if s.running ∧ ¬ s.authenticated then scheduleReconnect config s else s
  else s

def heartbeatExpires (s : State) : State :=
  if s.heartbeatTimer then
    let s := { s with heartbeatTimer := false }
    if s.running then scheduleHeartbeat (if s.connected then enqueueWrite s .ping else s) else s
  else s

def doClose (s : State) : State :=
  { s with connected := false, authenticated := false, stopped := true }

def runTask (s : State) : Task → State
  | .write msg =>
    let s := { s with writeQueue := s.writeQueue ++ [msg] }
    if s.writing then s else doWrite s
  | .close => doClose s

def runPosted (s : State) : State :=
  match s.posted with
  | [] => s
  | task::rest => runTask { s with posted := rest } task

def subscribe (s : State) (channel : Channel) : State :=
  { s with
    subscriptions := s.subscriptions ++ [channel]
    callers := s.callers ++ [.checking channel] }

def advance (s : State) (caller : Caller) : State :=
  if caller ∈ s.callers then
    let s := { s with callers := s.callers.erase caller }
    match caller with
    | .checking channel =>
      if s.authenticated then { s with callers := s.callers ++ [.sending channel] } else s
    | .sending channel => subscribeChannel s channel
  else s

def stop (s : State) : State :=
  if s.running then
    { s with
      running := false
      heartbeatTimer := false
      reconnectTimer := none
      posted := s.posted ++ [.close] }
  else s

def perform (config : Config) (s : State) : Event → State
  | .complete op ec received => complete config s op ec received
  | .reconnectExpires => reconnectExpires s
  | .authExpires => authExpires config s
  | .heartbeatExpires => heartbeatExpires s
  | .runPosted => runPosted s
  | .subscribe channel => subscribe s channel
  | .advance caller => advance s caller
  | .stop => stop s

def step (config : Config) (s : State) (e : Event) : State :=
  if s.stopped then s else perform config s e

def start (subscriptions : List Channel) : State :=
  connect {
    stream := 0
    running := true
    stopped := false
    connected := false
    authenticated := false
    subscriptions := subscriptions
    writeQueue := []
    writing := false
    reconnectAttempt := 0
    reconnectTimer := none
    heartbeatTimer := false
    authTimer := false
    pending := []
    posted := []
    callers := []
    written := [] }

end TB.PrivateWsClient
