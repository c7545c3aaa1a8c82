import TomorrowBot.WsOperations

/-!
# The public websocket client

The handlers of the public client pass over aborted reads and guard the
disconnect by the flag; it drops the stream and the queue. A message leaves
the queue when its write starts. Subscriptions that are not confirmed are
requested again by the heartbeat.
-/

set_option autoImplicit false

namespace TB.WsClient
open TB.WsOperations

abbrev Channel := String

inductive Message where
  | subscribe (channel : Channel)
  | unsubscribe (channel : Channel)
  | ping
  deriving DecidableEq, Repr

inductive Task where
  | subscribe (channel : Channel)
  | unsubscribe (channel : Channel)
  deriving DecidableEq, Repr

inductive Caller where
  | checking (task : Task)
  | sending (task : Task)
  deriving DecidableEq, Repr

inductive Received where
  | pong
  | subscribed (name : String)
  | other

structure Config where
  reconnectDelayMs : ℤ
  maxReconnectDelayMs : ℤ
  heartbeatIntervalSec : ℤ
  channelName : Channel → Option String

structure State where
  streams : ℕ
  wsStream : Option ℕ
  connected : Bool
  running : Bool
  stopped : Bool
  lastPongMs : ℤ
  subscriptions : List Channel
  pendingSubMs : String → Option ℤ
  writeQueue : List Message
  writing : Bool
  reconnectAttempt : ℕ
  reconnectTimer : Option ℤ
  heartbeatTimer : Bool
  pending : List Op
  posted : List Task
  callers : List Caller
  written : List (ℕ × Message)

inductive Event where
  | complete (op : Op) (ec : ErrorCode) (received : Received) (now : ℤ)
  | reconnectExpires
  | heartbeatExpires (now : ℤ) (names : List String)
  | runPosted (now : ℤ)
  | subscribe (channel : Channel)
  | unsubscribe (channel : Channel)
  | advance (caller : Caller)
  | stop
  | halt

def async (s : State) (kind : OpKind) : State :=
  match s.wsStream with
  | none => s
  | some k => { s with pending := s.pending ++ [⟨kind, k⟩] }

def connect (s : State) : State :=
  async { s with streams := s.streams + 1, wsStream := some (s.streams + 1) } .resolve

def backoff (limit : ℤ) : ℕ → ℤ → ℤ
  | 0, delay => delay
  | n+1, delay => if delay < limit then backoff limit n (min (delay * 2) limit) else delay

def scheduleReconnect (config : Config) (s : State) : State :=
  if s.running then
    { s with
      reconnectAttempt := s.reconnectAttempt + 1
      reconnectTimer := some (backoff config.maxReconnectDelayMs s.reconnectAttempt
        config.reconnectDelayMs) }
  else s

def handleDisconnect (config : Config) (s : State) : State :=
  if s.connected then
    scheduleReconnect config { s with
      connected := false
      heartbeatTimer := false
      writeQueue := []
      writing := false
      wsStream := none }
  else s

def doWriteNext (s : State) : State :=
  match s.wsStream, s.writeQueue with
  | some k, front::rest =>
    if s.connected then
      async { s with
        writing := true
        writeQueue := rest
        written := s.written ++ [(k, front)] } .write
    else { s with writing := false }
  | _, _ => { s with writing := false }

def doSendOnStrand (s : State) (payload : Message) : State :=
  if s.connected ∧ s.wsStream.isSome then
    let s := { s with writeQueue := s.writeQueue ++ [payload] }
    if s.writing then s else doWriteNext s
  else s

def doSubscribeDirect (config : Config) (now : ℤ) (s : State) (channel : Channel) : State :=
  let s := doSendOnStrand s (.subscribe channel)
  match config.channelName channel with
  | none => s
  | some name => { s with pendingSubMs := Function.update s.pendingSubMs name (some now) }

def doUnsubscribeDirect (s : State) (channel : Channel) : State :=
  doSendOnStrand s (.unsubscribe channel)

def scheduleHeartbeat (s : State) : State :=
  if s.running then { s with heartbeatTimer := true } else s

def doRead (s : State) : State := async s .read

def onAttempt (config : Config) (next : OpKind) (s : State) : ErrorCode → State
  | .success => async s next
  | _ => scheduleReconnect config s

def onResolve (config : Config) : State → ErrorCode → State := onAttempt config .tcpConnect

def onTcpConnect (config : Config) : State → ErrorCode → State := onAttempt config .sslHandshake

def onSslHandshake (config : Config) : State → ErrorCode → State := onAttempt config .wsHandshake

def onWsHandshake (config : Config) (now : ℤ) (s : State) : ErrorCode → State
  | .success =>
    let s := { s with connected := true, reconnectAttempt := 0, lastPongMs := now }
    doRead (scheduleHeartbeat (s.subscriptions.foldl (doSubscribeDirect config now) s))
  | _ => scheduleReconnect config s

def receive (now : ℤ) (s : State) : Received → State
  | .pong => { s with lastPongMs := now }
  | .subscribed name => { s with pendingSubMs := Function.update s.pendingSubMs name none }
  | .other => s

def onRead (config : Config) (now : ℤ) (s : State) (received : Received) : ErrorCode → State
  | .success => doRead (receive now s received)
  | .operationAborted => s
  | .failed => handleDisconnect config s

def onWrite (config : Config) (s : State) : ErrorCode → State
  | .success => doWriteNext s
  | _ => handleDisconnect config { s with writing := false }

def handle (config : Config) (now : ℤ) (s : State) (kind : OpKind) (ec : ErrorCode)
    (received : Received) : State :=
  match kind with
  | .resolve => onResolve config s ec
  | .tcpConnect => onTcpConnect config s ec
  | .sslHandshake => onSslHandshake config s ec
  | .wsHandshake => onWsHandshake config now s ec
  | .read => onRead config now s received ec
  | .write => onWrite config s ec

def complete (config : Config) (s : State) (op : Op) (ec : ErrorCode) (received : Received)
    (now : ℤ) : State :=
  if op ∈ s.pending then
    handle config now { s with pending := s.pending.erase op } op.kind
      (op.errorCode s.wsStream ec) received
  else s

def reconnectExpires (s : State) : State :=
  if s.reconnectTimer.isSome then
    let s := { s with reconnectTimer := none }
    if s.running then connect s else s
  else s

def pongTimeout (config : Config) (s : State) (now : ℤ) : Prop :=
  config.heartbeatIntervalSec * 1500 < now - s.lastPongMs

instance (config : Config) (s : State) (now : ℤ) : Decidable (pongTimeout config s now) :=
  inferInstanceAs (Decidable (_ < _))

def retryChannels (config : Config) (s : State) (now : ℤ) (names : List String) : List Channel :=
  names.filterMap (fun name =>
    if (s.pendingSubMs name).any (fun sent => 5000 < now - sent) then
      s.subscriptions.find? (fun sub => config.channelName sub = some name)
    else none)

def heartbeatExpires (config : Config) (s : State) (now : ℤ) (names : List String) : State :=
  if s.heartbeatTimer then
    let s := { s with heartbeatTimer := false }
    if s.running ∧ s.connected then
      if pongTimeout config s now then handleDisconnect config s
      else
        let s := (retryChannels config s now names).foldl (doSubscribeDirect config now) s
        scheduleHeartbeat (doSendOnStrand s .ping)
    else s
  else s

def runTask (config : Config) (now : ℤ) (s : State) : Task → State
  | .subscribe channel => doSubscribeDirect config now s channel
  | .unsubscribe channel => doUnsubscribeDirect s channel

def runPosted (config : Config) (s : State) (now : ℤ) : State :=
  match s.posted with
  | [] => s
  | task::rest => runTask config now { s with posted := rest } task

def subscribe (s : State) (channel : Channel) : State :=
  if channel ∈ s.subscriptions then s
  else
    { s with
      subscriptions := s.subscriptions ++ [channel]
      callers := s.callers ++ [.checking (.subscribe channel)] }

def unsubscribe (s : State) (channel : Channel) : State :=
  { s with
    subscriptions := s.subscriptions.filter (· ≠ channel)
    callers := s.callers ++ [.checking (.unsubscribe channel)] }

def advance (s : State) (caller : Caller) : State :=
  if caller ∈ s.callers then
    let s := { s with callers := s.callers.erase caller }
    match caller with
    | .checking task =>
      if s.connected then { s with callers := s.callers ++ [.sending task] } else s
    | .sending task => { s with posted := s.posted ++ [task] }
  else s

def stop (s : State) : State :=
  if s.running then { s with running := false, reconnectTimer := none, heartbeatTimer := false }
  else s

def halt (s : State) : State := if s.running then s else { s with stopped := true }

def perform (config : Config) (s : State) : Event → State
  | .complete op ec received now => complete config s op ec received now
  | .reconnectExpires => reconnectExpires s
  | .heartbeatExpires now names => heartbeatExpires config s now names
  | .runPosted now => runPosted config s now
  | .subscribe channel => subscribe s channel
  | .unsubscribe channel => unsubscribe s channel
  | .advance caller => advance s caller
  | .stop => stop s
  | .halt => halt s

def step (config : Config) (s : State) (e : Event) : State :=
  if s.stopped then s else perform config s e

def start (subscriptions : List Channel) : State :=
  connect {
    streams := 0
    wsStream := none
    connected := false
    running := true
    stopped := false
    lastPongMs := 0
    subscriptions := subscriptions
    pendingSubMs := fun _ => none
    writeQueue := []
    writing := false
    reconnectAttempt := 0
    reconnectTimer := none
    heartbeatTimer := false
    pending := []
    posted := []
    callers := []
    written := [] }

end TB.WsClient
