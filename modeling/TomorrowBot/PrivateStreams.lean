import TomorrowBot.PrivateWsClient
import TomorrowBot.Runs

/-!
# The private client on one stream after another

Between a reconnect and the next handshake the client is quiet: nothing is
queued, posted or written. After the handshake the login leads the line of
messages, one write is in progress at a time and nothing of another stream is
pending. The reconnect timer brings it back to quiet only when the operations
and messages of the old stream are through.
-/

set_option autoImplicit false

namespace TB.PrivateStreams
open TB.WsOperations TB.PrivateWsClient

section Statements

def Task.message : Task → Option Message
  | .write msg => some msg
  | .close => none

def messages (posted : List Task) : List Message := posted.filterMap Task.message

def line (s : State) : List Message :=
  writtenOn s.stream s.written ++ s.writeQueue.tail ++ messages s.posted

def LoginFirst (msgs : List Message) : Prop := ∀ msg ∈ msgs.head?, msg = .login

def Requested (s : State) (channel : Channel) : Prop :=
  .subscribe channel ∈ line s ∨ .checking channel ∈ s.callers ∨ .sending channel ∈ s.callers

def session (s : State) : Bool × Bool × List Message × Option ℤ :=
  (s.connected, s.authenticated, s.writeQueue, s.reconnectTimer)

def Fails (s : State) : Event → Prop
  | .complete op ec _ => op ∈ s.pending ∧ op.stream = s.stream ∧ ec ≠ .success
  | _ => False

structure Undisturbed (config : Config) (s : State) : Prop where
  stale : ∀ op ∈ s.pending, op.stream ≠ s.stream → ∀ ec received,
    session (step config s (.complete op ec received)) = session s
  cause : s.authenticated = true → ∀ e,
    s.reconnectAttempt < (step config s e).reconnectAttempt → Fails s e
  attempts : (attempts s.pending).length ≤ 1
  login : ∀ k, LoginFirst (writtenOn k s.written)
  requested : s.running = true → s.authenticated = true → ∀ channel ∈ s.subscriptions,
    Requested s channel
  written : s.writeQueue ≠ [] → ⟨.write, s.stream⟩ ∈ s.pending

/-- The reconnect timer expires when nothing of the old stream is under way, and a
call of `subscribe` sends its message behind a login. -/
def Settled (s : State) : Event → Prop
  | .reconnectExpires => s.reconnectTimer.isSome → s.pending = [] ∧ messages s.posted = []
  | .advance (.sending channel) => .sending channel ∈ s.callers → line s ≠ []
  | _ => True

instance (s : State) : DecidablePred (Settled s)
  | .reconnectExpires => inferInstanceAs (Decidable (_ → _))
  | .advance (.sending _) => inferInstanceAs (Decidable (_ → _))
  | .advance (.checking _) => inferInstanceAs (Decidable True)
  | .complete .. | .authExpires | .heartbeatExpires | .runPosted | .subscribe _ | .stop =>
    inferInstanceAs (Decidable True)

end Statements

section Invariant

structure Quiet (s : State) : Prop where
  connected : s.connected = false
  authenticated : s.authenticated = false
  authTimer : s.authTimer = false
  writeQueue : s.writeQueue = []
  writing : s.writing = false
  posted : messages s.posted = []
  fresh : writtenOn s.stream s.written = []
  attempt : s.pending = [] ∨ s.reconnectTimer = none ∧
    ∃ op : Op, op.isAttempt = true ∧ op.stream = s.stream ∧ s.pending = [op]

structure Flowing (s : State) : Prop where
  own : ∀ op ∈ s.pending, op.stream = s.stream ∧ op.isAttempt = false
  first : (line s).head? = some .login
  writes : s.pending.count ⟨.write, s.stream⟩ = if s.writing then 1 else 0
  writing : s.writing = true ↔ s.writeQueue ≠ []
  begun : s.writing = true → writtenOn s.stream s.written ≠ []

structure Timed (s : State) : Prop where
  connected : s.connected = true → s.reconnectTimer = none
  auth : s.reconnectTimer.isSome → s.authTimer = false

structure Established (s : State) : Prop where
  flowing : Flowing s
  timed : Timed s
  reading : s.running = true → s.authenticated = true → ⟨.read, s.stream⟩ ∈ s.pending
  requested : s.running = true → s.authenticated = true → ∀ channel ∈ s.subscriptions,
    Requested s channel

structure History (s : State) : Prop where
  earlier : ∀ k, k ≠ s.stream → LoginFirst (writtenOn k s.written)
  later : ∀ k, s.stream < k → writtenOn k s.written = []

def Orderly (s : State) : Prop := History s ∧ (Quiet s ∨ Established s)

end Invariant

section Sending

theorem messages_append (posted rest : List Task) :
    messages (posted ++ rest) = messages posted ++ messages rest :=
  List.filterMap_append ..

variable (s : State)

theorem line_enqueueWrite (msg : Message) : line (enqueueWrite s msg) = line s ++ [msg] := by
  simp [line, enqueueWrite, messages, Task.message]

theorem enqueueWrite_flowing (h : Flowing s) (msg : Message) : Flowing (enqueueWrite s msg) where
  own := h.own
  first := by rw [line_enqueueWrite, List.head?_append, h.first, Option.some_or]
  writes := h.writes
  writing := h.writing
  begun := h.begun

theorem enqueueWrite_requested (msg : Message) (channel : Channel)
    (h : Requested s channel) : Requested (enqueueWrite s msg) channel := by
  rcases h with hl | hc
  · exact .inl (by rw [line_enqueueWrite]; exact List.mem_append_left _ hl)
  · exact .inr hc

theorem enqueueWrite_established (h : Established s) (msg : Message) :
    Established (enqueueWrite s msg) where
  flowing := enqueueWrite_flowing s h.flowing msg
  timed := ⟨h.timed.connected, h.timed.auth⟩
  reading := h.reading
  requested hr ha channel hc := enqueueWrite_requested s msg channel (h.requested hr ha channel hc)

theorem subscribeChannels_eq (channels : List Channel) (s : State) :
    channels.foldl subscribeChannel s =
      { s with posted := s.posted ++ channels.map (fun channel => .write (.subscribe channel)) } := by
  induction channels generalizing s with
  | nil => simp
  | cons channel channels ih =>
    rw [List.foldl_cons, ih]
    simp [subscribeChannel, enqueueWrite]

theorem subscribeChannels_flowing (channels : List Channel) (s : State) (h : Flowing s) :
    Flowing (channels.foldl subscribeChannel s) := by
  induction channels generalizing s with
  | nil => exact h
  | cons channel channels ih => exact ih _ (enqueueWrite_flowing s h _)

theorem resubscribeAll_requested (channel : Channel) (h : channel ∈ s.subscriptions) :
    Requested (resubscribeAll s) channel := by
  left
  rw [resubscribeAll, subscribeChannels_eq]
  simp [line, messages, Task.message, List.filterMap_map, h]

end Sending

section Writing

variable (s : State)

theorem line_doWrite :
    line (doWrite s) = writtenOn s.stream s.written ++ s.writeQueue ++ messages s.posted := by
  unfold doWrite
  cases hq : s.writeQueue with
  | nil => simp [line]
  | cons front queue => simp [line, async, writtenOn_self]

theorem doWrite_flowing (hown : ∀ op ∈ s.pending, op.stream = s.stream ∧ op.isAttempt = false)
    (hnone : s.pending.count ⟨.write, s.stream⟩ = 0) (hfirst : (line (doWrite s)).head? = some .login) :
    Flowing (doWrite s) := by
  cases hq : s.writeQueue with
  | nil =>
    simp only [doWrite, hq] at hfirst ⊢
    exact ⟨hown, hfirst, hnone, by simp, nofun⟩
  | cons front queue =>
    simp only [doWrite, hq, async] at hfirst ⊢
    refine ⟨?_, hfirst, by simp [hnone], by simp, by simp [writtenOn_self]⟩
    intro op hop
    rcases List.mem_append.mp hop with hop | hop
    · exact hown op hop
    · rw [List.mem_singleton.mp hop]
      exact ⟨rfl, rfl⟩

theorem runWrite_flowing (rest : List Task) (msg : Message) (h : Flowing s)
    (hp : s.posted = .write msg :: rest) :
    line (runTask { s with posted := rest } (.write msg)) = line s ∧
      Flowing (runTask { s with posted := rest } (.write msg)) := by
  have hmsgs : messages s.posted = msg :: messages rest := by simp [hp, messages, Task.message]
  by_cases hw : s.writing
  · obtain ⟨front, queue, hq⟩ := List.exists_cons_of_ne_nil (h.writing.mp hw)
    have hline : line (runTask { s with posted := rest } (.write msg)) = line s := by
      simp [line, runTask, hw, hq, hmsgs]
    refine ⟨hline, ?_⟩
    have hfirst := h.first
    rw [← hline] at hfirst
    simp only [runTask, hw, if_true] at hfirst ⊢
    exact ⟨h.own, hfirst, by simpa [hw] using h.writes, by simp, fun _ => h.begun hw⟩
  · have hq : s.writeQueue = [] := by simpa [hw] using h.writing
    have hnone : s.pending.count ⟨.write, s.stream⟩ = 0 := by simpa [hw] using h.writes
    have hline : line (runTask { s with posted := rest } (.write msg)) = line s := by
      simp only [runTask, hw, Bool.false_eq_true, if_false]
      rw [line_doWrite]
      simp [line, hq, hmsgs]
    have hfirst := h.first
    rw [← hline] at hfirst
    refine ⟨hline, ?_⟩
    simp only [runTask, hw, Bool.false_eq_true, if_false] at hfirst ⊢
    exact doWrite_flowing _ h.own hnone hfirst

theorem erase_own (h : Flowing s) (op : Op) :
    ∀ o ∈ s.pending.erase op, o.stream = s.stream ∧ o.isAttempt = false :=
  fun o ho => h.own o (List.mem_of_mem_erase ho)

theorem writing_of_pending (h : Flowing s) (hop : ⟨.write, s.stream⟩ ∈ s.pending) :
    s.writing = true ∧ (s.pending.erase ⟨.write, s.stream⟩).count ⟨.write, s.stream⟩ = 0 := by
  have hc := h.writes
  have hpos := List.count_pos_iff.mpr hop
  cases hw : s.writing with
  | false => simp [hw] at hc; omega
  | true => exact ⟨rfl, by simp [hc, hw]⟩

theorem written_flowing (h : Flowing s) : let t := doWrite { s with
      pending := s.pending.erase ⟨.write, s.stream⟩
      writeQueue := s.writeQueue.tail }
    ⟨.write, s.stream⟩ ∈ s.pending → line t = line s ∧ Flowing t := by
  intro t hop
  have hline : line t = line s := line_doWrite _
  have hnone := (writing_of_pending s h hop).2
  exact ⟨hline, doWrite_flowing _ (erase_own s h _) hnone (by rw [hline]; exact h.first)⟩

theorem unwritten_flowing (h : Flowing s) (hop : ⟨.write, s.stream⟩ ∈ s.pending) : Flowing { s with
      pending := s.pending.erase ⟨.write, s.stream⟩
      writeQueue := []
      writing := false } := by
  obtain ⟨hw, hnone⟩ := writing_of_pending s h hop
  refine ⟨erase_own s h _, ?_, by simpa using hnone, by simp, nofun⟩
  obtain ⟨msg, msgs, hwritten⟩ := List.exists_cons_of_ne_nil (h.begun hw)
  have hfirst := h.first
  simp only [line, hwritten] at hfirst ⊢
  exact hfirst

end Writing

section Reading

theorem read_flowing (s : State) (h : Flowing s) :
    Flowing { s with pending := s.pending.erase ⟨.read, s.stream⟩ } where
  own := erase_own s h _
  first := h.first
  writes := by
    rw [List.count_erase_of_ne (by simp)]
    exact h.writes
  writing := h.writing
  begun := h.begun

theorem scheduleReconnect_established (config : Config) (s : State) (h : Flowing s) :
    Established (scheduleReconnect config s) := by
  have hlost : ∀ t : State, t.connected = false → t.authenticated = false → t.authTimer = false →
      Flowing t → Established t := by
    intro t hc ha hauth ht
    exact ⟨ht, ⟨by simp [hc], fun _ => hauth⟩, by simp [ha], by simp [ha]⟩
  cases hr : s.running <;> simp only [scheduleReconnect, hr, if_true, Bool.false_eq_true, if_false]
  all_goals
    exact hlost _ rfl rfl rfl ⟨h.own, h.first, h.writes, h.writing, h.begun⟩

theorem stopping_established (s : State) (h : Flowing s) (ht : Timed s)
    (hr : ¬ s.running = true) : Established s :=
  ⟨h, ht, fun hr' => absurd hr' hr, fun hr' => absurd hr' hr⟩

theorem doRead_established (s : State) (h : Flowing s) (ht : Timed s)
    (hrequested : s.running = true → s.authenticated = true →
      ∀ channel ∈ s.subscriptions, Requested s channel) : Established (doRead s) := by
  unfold doRead
  split
  · have hwrites : (s.pending ++ [(⟨.read, s.stream⟩ : Op)]).count ⟨.write, s.stream⟩ =
        s.pending.count ⟨.write, s.stream⟩ := by simp
    refine ⟨⟨?_, h.first, hwrites.trans h.writes, h.writing, h.begun⟩,
      ⟨ht.connected, ht.auth⟩, by simp [async], hrequested⟩
    intro op hop
    rcases List.mem_append.mp hop with hop | hop
    · exact h.own op hop
    · rw [List.mem_singleton.mp hop]
      exact ⟨rfl, rfl⟩
  · rename_i hr
    exact stopping_established s h ht hr

end Reading

section Established

variable (s : State)

theorem onLogin_eq : onLogin s = { s with
      authenticated := true
      authTimer := false
      heartbeatTimer := s.running || s.heartbeatTimer
      posted := (resubscribeAll s).posted } := by
  simp only [onLogin, resubscribeAll, subscribeChannels_eq, scheduleHeartbeat]
  cases s.running <;> simp

theorem onLogin_flowing (h : Flowing s) : Flowing (onLogin s) := by
  have hs := subscribeChannels_flowing s.subscriptions s h
  have heq : resubscribeAll s = { s with posted := (resubscribeAll s).posted } := by
    rw [resubscribeAll, subscribeChannels_eq]
  rw [← resubscribeAll, heq] at hs
  rw [onLogin_eq]
  exact ⟨hs.own, hs.first, hs.writes, hs.writing, hs.begun⟩

theorem onLogin_requested (channel : Channel) (h : channel ∈ s.subscriptions) :
    Requested (onLogin s) channel := by
  have hs := resubscribeAll_requested s channel h
  have heq : resubscribeAll s = { s with posted := (resubscribeAll s).posted } := by
    rw [resubscribeAll, subscribeChannels_eq]
  rw [heq] at hs
  rw [onLogin_eq]
  exact hs

variable (config : Config)

theorem onRead_established (s : State) (h : Established s) (ec : ErrorCode) (received : Received) :
    Established (onRead config { s with pending := s.pending.erase ⟨.read, s.stream⟩ } received
      ec) := by
  have hf := read_flowing s h.flowing
  generalize ht : { s with pending := s.pending.erase ⟨.read, s.stream⟩ } = t at hf ⊢
  have htimed : Timed t := by
    rw [← ht]
    exact ⟨h.timed.connected, h.timed.auth⟩
  have hrequested : t.running = true → t.authenticated = true →
      ∀ channel ∈ t.subscriptions, Requested t channel := by
    rw [← ht]
    exact h.requested
  have hfail : Established (if t.running then scheduleReconnect config t else t) := by
    split
    · exact scheduleReconnect_established config t hf
    · rename_i hr
      exact stopping_established t hf htimed hr
  cases ec with
  | failed => exact hfail
  | operationAborted => exact hfail
  | success =>
    cases received with
    | pong | other => exact doRead_established t hf htimed hrequested
    | event name =>
      by_cases hn : name = "login"
      · simp only [onRead, hn, if_true]
        refine doRead_established _ (onLogin_flowing t hf) ?_ ?_
        · rw [onLogin_eq]
          exact ⟨htimed.connected, fun _ => rfl⟩
        · intro _ _ channel hc
          rw [onLogin_eq] at hc
          exact onLogin_requested t channel hc
      · simp only [onRead, hn, if_false]
        exact doRead_established t hf htimed hrequested

theorem doWrite_fields : doWrite s = { s with
      writeQueue := (doWrite s).writeQueue
      writing := (doWrite s).writing
      pending := (doWrite s).pending
      written := (doWrite s).written
      posted := (doWrite s).posted } := by
  unfold doWrite
  cases s.writeQueue <;> rfl

theorem doWrite_pending (op : Op) (h : op ∈ s.pending) : op ∈ (doWrite s).pending := by
  unfold doWrite
  cases s.writeQueue with
  | nil => exact h
  | cons front queue => exact List.mem_append_left _ h

theorem established_flowing (s t : State) (h : Established s) (hf : Flowing t)
    (hline : line t = line s)
    (hread : ⟨.read, s.stream⟩ ∈ s.pending → ⟨.read, s.stream⟩ ∈ t.pending)
    (heq : t = { s with
      writeQueue := t.writeQueue
      writing := t.writing
      pending := t.pending
      written := t.written
      posted := t.posted }) : Established t := by
  have hrunning : t.running = s.running := by rw [heq]
  have hconnected : t.connected = s.connected := by rw [heq]
  have hauth : t.authenticated = s.authenticated := by rw [heq]
  have htimer : t.reconnectTimer = s.reconnectTimer := by rw [heq]
  have hauthTimer : t.authTimer = s.authTimer := by rw [heq]
  have hstream : t.stream = s.stream := by rw [heq]
  have hsubs : t.subscriptions = s.subscriptions := by rw [heq]
  have hcallers : t.callers = s.callers := by rw [heq]
  refine ⟨hf, ⟨?_, ?_⟩, ?_, ?_⟩
  · rw [htimer, hconnected]
    exact h.timed.connected
  · rw [htimer, hauthTimer]
    exact h.timed.auth
  · rw [hrunning, hauth, hstream]
    exact fun hr ha => hread (h.reading hr ha)
  · rw [hrunning, hauth, hsubs]
    intro hr ha channel hc
    unfold Requested
    rw [hline, hcallers]
    exact h.requested hr ha channel hc

theorem onWrite_established (s : State) (h : Established s)
    (hop : ⟨.write, s.stream⟩ ∈ s.pending) (ec : ErrorCode) :
    Established (onWrite config { s with pending := s.pending.erase ⟨.write, s.stream⟩ } ec) := by
  have hf := unwritten_flowing s h.flowing hop
  generalize ht : { s with
    pending := s.pending.erase ⟨.write, s.stream⟩
    writeQueue := []
    writing := false } = t at hf
  have hfail : Established (if t.running then scheduleReconnect config t else t) := by
    split
    · exact scheduleReconnect_established config t hf
    · rename_i hr
      exact stopping_established t hf (ht ▸ ⟨h.timed.connected, h.timed.auth⟩) hr
  rw [← ht] at hfail
  cases ec with
  | failed => exact hfail
  | operationAborted => exact hfail
  | success =>
    obtain ⟨hline, hflow⟩ := written_flowing s h.flowing hop
    refine established_flowing s _ h hflow hline ?_ ?_
    · intro hr
      exact doWrite_pending _ _ ((List.mem_erase_of_ne (by simp)).mpr hr)
    · exact doWrite_fields _

theorem runPosted_established (h : Established s) : Established (runPosted s) := by
  unfold runPosted
  split
  · exact h
  · rename_i task rest hp
    cases task with
    | write msg =>
      obtain ⟨hline, hflow⟩ := runWrite_flowing s rest msg h.flowing hp
      refine established_flowing s _ h hflow hline ?_ ?_
      · intro hr
        simp only [runTask]
        split
        · exact hr
        · exact doWrite_pending _ _ hr
      · simp only [runTask]
        split
        · rfl
        · exact doWrite_fields _
    | close =>
      have hmsgs : messages s.posted = messages rest := by rw [hp]; rfl
      have hfirst := h.flowing.first
      simp only [line, hmsgs] at hfirst
      exact ⟨⟨h.flowing.own, hfirst, h.flowing.writes, h.flowing.writing, h.flowing.begun⟩,
        ⟨nofun, h.timed.auth⟩, fun _ => nofun, fun _ => nofun⟩

theorem complete_established (s : State) (h : Established s) (op : Op)
    (ec : ErrorCode) (received : Received) : Established (complete config s op ec received) := by
  unfold complete
  split
  · rename_i hop
    obtain ⟨hown, ha⟩ := h.flowing.own op hop
    rw [errorCode_own op s.stream ec hown]
    rcases read_or_write op s.stream hown ha with rfl | rfl
    · exact onRead_established config s h ec received
    · exact onWrite_established config s h hop ec
  · exact h

theorem authExpires_established (s : State) (h : Established s) :
    Established (authExpires config s) := by
  unfold authExpires
  split
  · have hf : Flowing { s with authTimer := false } :=
      ⟨h.flowing.own, h.flowing.first, h.flowing.writes, h.flowing.writing, h.flowing.begun⟩
    simp only []
    split
    · exact scheduleReconnect_established config _ hf
    · exact ⟨hf, ⟨h.timed.connected, fun _ => rfl⟩, h.reading, h.requested⟩
  · exact h

theorem heartbeatTimer_established (h : Established s) (armed : Bool) :
    Established { s with heartbeatTimer := armed } :=
  ⟨⟨h.flowing.own, h.flowing.first, h.flowing.writes, h.flowing.writing, h.flowing.begun⟩,
    ⟨h.timed.connected, h.timed.auth⟩, h.reading, h.requested⟩

theorem scheduleHeartbeat_established (h : Established s) : Established (scheduleHeartbeat s) := by
  unfold scheduleHeartbeat
  split
  · exact heartbeatTimer_established s h true
  · exact h

theorem heartbeatExpires_established (h : Established s) : Established (heartbeatExpires s) := by
  unfold heartbeatExpires
  split
  · have hoff := heartbeatTimer_established s h false
    generalize { s with heartbeatTimer := false } = t at hoff ⊢
    have hping : Established (if t.connected then enqueueWrite t .ping else t) := by
      split
      · exact enqueueWrite_established t hoff .ping
      · exact hoff
    simp only []
    split
    · exact scheduleHeartbeat_established _ hping
    · exact hoff
  · exact h

theorem subscribe_established (h : Established s) (channel : Channel) :
    Established (subscribe s channel) := by
  refine ⟨⟨h.flowing.own, h.flowing.first, h.flowing.writes, h.flowing.writing, h.flowing.begun⟩,
    ⟨h.timed.connected, h.timed.auth⟩, h.reading, ?_⟩
  intro hr ha c hc
  rcases List.mem_append.mp hc with hc | hc
  · rcases h.requested hr ha c hc with hl | hl | hl
    · exact .inl hl
    · exact .inr (.inl (List.mem_append_left _ hl))
    · exact .inr (.inr (List.mem_append_left _ hl))
  · rw [List.mem_singleton.mp hc]
    exact .inr (.inl (by simp [subscribe]))

theorem requested_erase (caller : Caller) (channel : Channel)
    (h : Requested s channel) : Requested { s with callers := s.callers.erase caller } channel ∨
      caller = .checking channel ∨ caller = .sending channel := by
  by_cases hc : caller = .checking channel
  · exact .inr (.inl hc)
  by_cases hs : caller = .sending channel
  · exact .inr (.inr hs)
  left
  rcases h with hl | hl | hl
  · exact .inl hl
  · exact .inr (.inl ((List.mem_erase_of_ne (Ne.symm hc)).mpr hl))
  · exact .inr (.inr ((List.mem_erase_of_ne (Ne.symm hs)).mpr hl))

theorem advance_established (h : Established s) (caller : Caller) :
    Established (advance s caller) := by
  unfold advance
  split
  · have hf : Flowing { s with callers := s.callers.erase caller } :=
      ⟨h.flowing.own, h.flowing.first, h.flowing.writes, h.flowing.writing, h.flowing.begun⟩
    cases caller with
    | checking channel =>
      simp only []
      split
      · refine ⟨⟨hf.own, hf.first, hf.writes, hf.writing, hf.begun⟩,
          ⟨h.timed.connected, h.timed.auth⟩, h.reading, ?_⟩
        intro hr ha c hc
        rcases requested_erase s (.checking channel) c (h.requested hr ha c hc) with hl | hl | hl
        · rcases hl with hl | hl | hl
          · exact .inl hl
          · exact .inr (.inl (List.mem_append_left _ hl))
          · exact .inr (.inr (List.mem_append_left _ hl))
        · cases hl
          exact .inr (.inr (by simp))
        · cases hl
      · rename_i ha
        exact ⟨hf, ⟨h.timed.connected, h.timed.auth⟩, h.reading, fun _ ha' => absurd ha' ha⟩
    | sending channel =>
      refine ⟨enqueueWrite_flowing _ hf _, ⟨h.timed.connected, h.timed.auth⟩, h.reading, ?_⟩
      intro hr ha c hc
      rcases requested_erase s (.sending channel) c (h.requested hr ha c hc) with hl | hl | hl
      · exact enqueueWrite_requested _ _ c hl
      · cases hl
      · cases hl
        left
        change Message.subscribe channel ∈ line (enqueueWrite _ _)
        rw [line_enqueueWrite]
        simp
  · exact h

theorem stop_established (h : Established s) : Established (stop s) := by
  unfold stop
  split
  · have hmsgs : messages (s.posted ++ [.close]) = messages s.posted := by
      simp [messages, Task.message]
    have hfirst := h.flowing.first
    simp only [line, ← hmsgs] at hfirst
    exact ⟨⟨h.flowing.own, hfirst, h.flowing.writes, h.flowing.writing, h.flowing.begun⟩,
      ⟨fun _ => rfl, nofun⟩, nofun, nofun⟩
  · exact h

end Established

section Quiet

variable (config : Config)

theorem scheduleReconnect_quiet (s : State) (hq : s.writeQueue = [])
    (hw : s.writing = false) (hp : messages s.posted = []) (hf : writtenOn s.stream s.written = [])
    (hn : s.pending = []) : Quiet (scheduleReconnect config s) := by
  unfold scheduleReconnect
  cases s.running <;> simp only [if_true, Bool.false_eq_true, if_false]
  all_goals exact ⟨rfl, rfl, rfl, hq, hw, hp, hf, .inl hn⟩

theorem onWsHandshake_established (s : State) (h : Quiet s) (ht : s.reconnectTimer = none) :
    Established (onWsHandshake config { s with pending := [] } .success) := by
  refine doRead_established _ ⟨by simp [sendLogin, enqueueWrite], ?_, ?_, ?_, ?_⟩
    ⟨fun _ => ht, by simp [sendLogin, enqueueWrite, ht]⟩ ?_
  · rw [sendLogin, line_enqueueWrite]
    simp [line, h.writeQueue, h.posted, h.fresh]
  · simp [sendLogin, enqueueWrite, h.writing]
  · simp [sendLogin, enqueueWrite, h.writing, h.writeQueue]
  · simp [sendLogin, enqueueWrite, h.writing]
  · simp [sendLogin, enqueueWrite, h.authenticated]

theorem complete_quiet (s : State) (h : Quiet s) (op : Op) (ec : ErrorCode)
    (received : Received) : Quiet (complete config s op ec received) ∨
      Established (complete config s op ec received) := by
  unfold complete
  split
  case isFalse => exact .inl h
  rename_i hop
  obtain hnone | ⟨ht, o, ha, hs, hpending⟩ := h.attempt
  · simp [hnone] at hop
  obtain rfl : op = o := by simpa [hpending] using hop
  have hfail : Quiet (scheduleReconnect config { s with pending := [] }) :=
    scheduleReconnect_quiet config _ h.writeQueue h.writing h.posted h.fresh rfl
  have hnext : ∀ next : OpKind, (⟨next, s.stream⟩ : Op).isAttempt = true →
      Quiet (async { s with pending := [] } next) := fun next hn =>
    ⟨h.connected, h.authenticated, h.authTimer, h.writeQueue, h.writing, h.posted, h.fresh,
      .inr ⟨ht, _, hn, rfl, rfl⟩⟩
  rw [errorCode_own op s.stream ec hs, hpending, List.erase_cons_head]
  obtain ⟨kind, stream⟩ := op
  cases kind <;> cases ec
  all_goals first
    | exact .inl hfail
    | exact .inl (hnext _ rfl)
    | exact .inr (onWsHandshake_established config s h ht)
    | exact absurd ha (by simp [Op.isAttempt])

variable (s : State)

theorem line_quiet (h : Quiet s) : line s = [] := by
  simp [line, h.fresh, h.writeQueue, h.posted]

theorem advance_quiet (h : Quiet s) (caller : Caller)
    (hs : Settled s (.advance caller)) : Quiet (advance s caller) := by
  unfold advance
  split
  · rename_i hc
    cases caller with
    | checking channel =>
      simp only [h.authenticated, Bool.false_eq_true, if_false]
      exact ⟨h.connected, rfl, h.authTimer, h.writeQueue, h.writing, h.posted, h.fresh,
        h.attempt⟩
    | sending channel => exact absurd (line_quiet s h) (hs hc)
  · exact h

theorem runPosted_quiet (h : Quiet s) : Quiet (runPosted s) := by
  unfold runPosted
  split
  · exact h
  · rename_i task rest hp
    have hposted := h.posted
    cases task with
    | write msg => simp [hp, messages, Task.message] at hposted
    | close =>
      rw [hp] at hposted
      exact ⟨rfl, rfl, h.authTimer, h.writeQueue, h.writing, hposted, h.fresh, h.attempt⟩

theorem stop_quiet (h : Quiet s) : Quiet (stop s) := by
  unfold stop
  split
  · refine ⟨h.connected, h.authenticated, h.authTimer, h.writeQueue, h.writing, ?_, h.fresh, ?_⟩
    · rw [messages_append, h.posted]
      rfl
    · exact h.attempt.imp_right (fun ha => ⟨rfl, ha.2⟩)
  · exact h

/-- The timer is set only when the attempt is over. -/
theorem reconnectExpires_quiet (hh : History s) (h : Quiet s) : Quiet (reconnectExpires s) := by
  unfold reconnectExpires
  split
  · rename_i ht
    have hn : s.pending = [] := by
      obtain hn | ⟨hnone, -⟩ := h.attempt
      · exact hn
      · simp [hnone] at ht
    simp only []
    split
    · exact ⟨h.connected, h.authenticated, h.authTimer, h.writeQueue, h.writing, h.posted,
        hh.later _ (Nat.lt_succ_self _), .inr ⟨rfl, _, rfl, rfl, by rw [connect, async, hn]; rfl⟩⟩
    · exact ⟨h.connected, h.authenticated, h.authTimer, h.writeQueue, h.writing, h.posted,
        h.fresh, .inl hn⟩
  · exact h

/-- A session whose operations and messages are through leaves nothing to the next stream. -/
theorem reconnectExpires_established (hh : History s) (h : Established s)
    (hs : Settled s .reconnectExpires) :
    Quiet (reconnectExpires s) ∨ Established (reconnectExpires s) := by
  unfold reconnectExpires
  split
  · rename_i ht
    obtain ⟨hn, hp⟩ := hs ht
    have hw : s.writing = false := by
      have := h.flowing.writes
      cases hw : s.writing with
      | false => rfl
      | true => simp [hn, hw] at this
    have hq : s.writeQueue = [] := by simpa [hw] using h.flowing.writing
    have hc : s.connected = false := by
      cases hc : s.connected with
      | false => rfl
      | true => simp [h.timed.connected hc] at ht
    simp only []
    split
    · rename_i hr
      have ha : s.authenticated = false := by
        cases ha : s.authenticated with
        | false => rfl
        | true => simpa [hn] using h.reading hr ha
      exact .inl ⟨hc, ha, h.timed.auth ht, hq, hw, hp, hh.later _ (Nat.lt_succ_self _),
        .inr ⟨rfl, _, rfl, rfl, by rw [connect, async, hn]; rfl⟩⟩
    · exact .inr ⟨⟨h.flowing.own, h.flowing.first, h.flowing.writes, h.flowing.writing,
        h.flowing.begun⟩, ⟨fun _ => rfl, nofun⟩, h.reading, h.requested⟩
  · exact .inr h

theorem authExpires_quiet (config : Config) (s : State) (h : Quiet s) :
    authExpires config s = s := by
  simp [authExpires, h.authTimer]

theorem heartbeatExpires_quiet (h : Quiet s) : Quiet (heartbeatExpires s) := by
  have hset : ∀ armed : Bool, Quiet { s with connected := false, heartbeatTimer := armed } :=
    fun _ => ⟨rfl, h.authenticated, h.authTimer, h.writeQueue, h.writing, h.posted, h.fresh,
      h.attempt⟩
  unfold heartbeatExpires scheduleHeartbeat
  simp only [h.connected, Bool.false_eq_true, if_false]
  split
  · split
    · exact hset true
    · exact hset false
  · exact h

theorem subscribe_quiet (h : Quiet s) (channel : Channel) : Quiet (subscribe s channel) :=
  ⟨h.connected, h.authenticated, h.authTimer, h.writeQueue, h.writing, h.posted, h.fresh,
    h.attempt⟩

end Quiet

section History

def Extends (s t : State) : Prop :=
  t.stream = s.stream ∧ (t.written = s.written ∨ ∃ msg, t.written = s.written ++ [(s.stream, msg)])

variable (s : State)

theorem doWrite_extends : Extends s (doWrite s) := by
  unfold doWrite
  cases s.writeQueue with
  | nil => exact ⟨rfl, .inl rfl⟩
  | cons front queue => exact ⟨rfl, .inr ⟨front, rfl⟩⟩

variable (config : Config)

theorem scheduleReconnect_extends (s : State) : Extends s (scheduleReconnect config s) := by
  unfold scheduleReconnect
  cases s.running <;> exact ⟨rfl, .inl rfl⟩

theorem doRead_extends : Extends s (doRead s) := by
  unfold doRead
  split <;> exact ⟨rfl, .inl rfl⟩

theorem handle_extends (s : State) (kind : OpKind) (ec : ErrorCode)
    (received : Received) : Extends s (handle config s kind ec received) := by
  have hlost : Extends s (if s.running then scheduleReconnect config s else s) := by
    split
    · exact scheduleReconnect_extends config s
    · exact ⟨rfl, .inl rfl⟩
  have hgiven : Extends s (onWrite config s .failed) := by
    simp only [onWrite]
    split
    · exact scheduleReconnect_extends config _
    · exact ⟨rfl, .inl rfl⟩
  have hattempt : ∀ next, Extends s (onAttempt config next s ec) := by
    intro next
    cases ec with
    | success => exact ⟨rfl, .inl rfl⟩
    | operationAborted | failed => exact scheduleReconnect_extends config s
  cases kind with
  | resolve | tcpConnect | sslHandshake => exact hattempt _
  | wsHandshake =>
    cases ec with
    | success => exact doRead_extends _
    | operationAborted | failed => exact scheduleReconnect_extends config s
  | read =>
    cases ec with
    | operationAborted => exact hlost
    | failed => exact hlost
    | success =>
      cases received with
      | pong => exact doRead_extends s
      | other => exact doRead_extends s
      | event name =>
        simp only [handle, onRead, onLogin_eq]
        split <;> exact doRead_extends _
  | write =>
    cases ec with
    | success => exact doWrite_extends _
    | operationAborted => exact hgiven
    | failed => exact hgiven

theorem perform_extends (s : State) (e : Event) (h : e ≠ .reconnectExpires) :
    Extends s (perform config s e) := by
  have hsame : Extends s s := ⟨rfl, .inl rfl⟩
  cases e with
  | reconnectExpires => exact absurd rfl h
  | complete op ec received =>
    simp only [perform, complete]
    split
    · exact handle_extends config _ op.kind _ received
    · exact hsame
  | authExpires =>
    simp only [perform, authExpires]
    split
    · split
      · exact scheduleReconnect_extends config _
      · exact ⟨rfl, .inl rfl⟩
    · exact hsame
  | heartbeatExpires =>
    simp only [perform, heartbeatExpires, scheduleHeartbeat]
    cases s.heartbeatTimer <;> cases s.connected <;> cases s.running <;> exact ⟨rfl, .inl rfl⟩
  | runPosted =>
    simp only [perform, runPosted]
    split
    · exact hsame
    · rename_i task rest hp
      cases task with
      | close => exact ⟨rfl, .inl rfl⟩
      | write msg =>
        simp only [runTask]
        split
        · exact ⟨rfl, .inl rfl⟩
        · exact doWrite_extends _
  | subscribe channel => exact ⟨rfl, .inl rfl⟩
  | advance caller =>
    simp only [perform, advance]
    split
    · cases caller with
      | checking channel =>
        simp only []
        split <;> exact ⟨rfl, .inl rfl⟩
      | sending channel => exact ⟨rfl, .inl rfl⟩
    · exact hsame
  | stop =>
    simp only [perform, stop]
    split <;> exact ⟨rfl, .inl rfl⟩

theorem extends_history (s t : State) (h : History s) (he : Extends s t) : History t := by
  obtain ⟨hs, hw | ⟨msg, hw⟩⟩ := he
  · exact ⟨by rw [hs, hw]; exact h.earlier, by rw [hs, hw]; exact h.later⟩
  · constructor
    · intro k hk
      rw [hs] at hk
      rw [hw, writtenOn_other k s.stream s.written msg (Ne.symm hk)]
      exact h.earlier k hk
    · intro k hk
      rw [hs] at hk
      rw [hw, writtenOn_other k s.stream s.written msg (Nat.ne_of_lt hk)]
      exact h.later k hk

theorem current_login (h : Quiet s ∨ Established s) :
    LoginFirst (writtenOn s.stream s.written) := by
  rcases h with hq | he
  · rw [hq.fresh]
    nofun
  · intro msg hmsg
    have hfirst := he.flowing.first
    cases hw : writtenOn s.stream s.written with
    | nil => simp [hw] at hmsg
    | cons front rest =>
      simp [line, hw] at hmsg hfirst
      exact hmsg.symm.trans hfirst

theorem reconnectExpires_history (h : Orderly s) : History (reconnectExpires s) := by
  obtain ⟨hh, hs⟩ := h
  unfold reconnectExpires
  split
  · simp only []
    split
    · constructor
      · intro k hk
        by_cases hc : k = s.stream
        · rw [hc]
          exact current_login s hs
        · exact hh.earlier k hc
      · exact fun k hk => hh.later k (Nat.lt_of_succ_lt hk)
    · exact ⟨hh.earlier, hh.later⟩
  · exact hh

end History

section Runs

variable (config : Config) (s : State)

theorem perform_orderly (e : Event) (h : Orderly s)
    (hs : Settled s e) : Orderly (perform config s e) := by
  obtain ⟨hh, hphase⟩ := h
  by_cases he : e = .reconnectExpires
  · subst he
    refine ⟨reconnectExpires_history s ⟨hh, hphase⟩, ?_⟩
    rcases hphase with hq | hest
    · exact .inl (reconnectExpires_quiet s hh hq)
    · exact reconnectExpires_established s hh hest hs
  · refine ⟨extends_history s _ hh (perform_extends config s e he), ?_⟩
    rcases hphase with hq | hest
    · cases e with
      | reconnectExpires => exact absurd rfl he
      | complete op ec received => exact complete_quiet config s hq op ec received
      | authExpires => exact .inl (by rw [perform, authExpires_quiet config s hq]; exact hq)
      | heartbeatExpires => exact .inl (heartbeatExpires_quiet s hq)
      | runPosted => exact .inl (runPosted_quiet s hq)
      | subscribe channel => exact .inl (subscribe_quiet s hq channel)
      | advance caller => exact .inl (advance_quiet s hq caller hs)
      | stop => exact .inl (stop_quiet s hq)
    · cases e with
      | reconnectExpires => exact absurd rfl he
      | complete op ec received => exact .inr (complete_established config s hest op ec received)
      | authExpires => exact .inr (authExpires_established config s hest)
      | heartbeatExpires => exact .inr (heartbeatExpires_established s hest)
      | runPosted => exact .inr (runPosted_established s hest)
      | subscribe channel => exact .inr (subscribe_established s hest channel)
      | advance caller => exact .inr (advance_established s hest caller)
      | stop => exact .inr (stop_established s hest)

theorem step_orderly (e : Event) (h : Orderly s)
    (hs : Settled s e) : Orderly (step config s e) := by
  unfold step
  split
  · exact h
  · exact perform_orderly config s e h hs

theorem start_orderly (subscriptions : List Channel) : Orderly (start subscriptions) :=
  ⟨⟨fun _ _ => nofun, fun _ _ => rfl⟩, .inl ⟨rfl, rfl, rfl, rfl, rfl, rfl, rfl,
    .inr ⟨rfl, _, rfl, rfl, rfl⟩⟩⟩

theorem orderly_own (h : Orderly s) : ∀ op ∈ s.pending, op.stream = s.stream := by
  intro op hop
  rcases h.2 with hq | hest
  · obtain hn | ⟨-, o, -, ho, hp⟩ := hq.attempt
    · simp [hn] at hop
    · obtain rfl : op = o := by simpa [hp] using hop
      exact ho
  · exact (hest.flowing.own op hop).1

theorem orderly_attempts (h : Orderly s) : (attempts s.pending).length ≤ 1 := by
  rcases h.2 with hq | hest
  · obtain hn | ⟨-, o, -, -, hp⟩ := hq.attempt
    · simp [hn, attempts]
    · rw [hp]
      exact (List.length_filter_le ..)
  · rw [attempts_eq_nil s.pending (fun op hop => (hest.flowing.own op hop).2)]
    exact Nat.zero_le 1

theorem orderly_login (h : Orderly s) (k : ℕ) : LoginFirst (writtenOn k s.written) := by
  by_cases hk : k = s.stream
  · rw [hk]
    exact current_login s h.2
  · exact h.1.earlier k hk

theorem orderly_written (h : Orderly s) (hq : s.writeQueue ≠ []) :
    ⟨.write, s.stream⟩ ∈ s.pending := by
  rcases h.2 with hquiet | hest
  · exact absurd hquiet.writeQueue hq
  · have hc := hest.flowing.writes
    rw [if_pos (hest.flowing.writing.mpr hq)] at hc
    exact List.count_pos_iff.mp (by omega)

theorem doWrite_attempt : (doWrite s).reconnectAttempt = s.reconnectAttempt := by
  unfold doWrite
  cases s.writeQueue <;> rfl

theorem doRead_attempt : (doRead s).reconnectAttempt = s.reconnectAttempt := by
  unfold doRead
  split <;> rfl

theorem complete_attempt (op : Op) (received : Received)
    (hs : op.stream = s.stream) (ha : op.isAttempt = false) :
    (complete config s op .success received).reconnectAttempt = s.reconnectAttempt := by
  unfold complete
  split
  · rw [errorCode_own op s.stream .success hs]
    rcases read_or_write op s.stream hs ha with rfl | rfl
    · cases received with
      | pong => exact doRead_attempt _
      | other => exact doRead_attempt _
      | event name =>
        simp only [handle, onRead, doRead_attempt, onLogin_eq]
        split <;> rfl
    · exact doWrite_attempt _
  · rfl

/-- Once the login is answered only a failure on the stream leads to a reconnect. -/
theorem perform_cause (h : Established s) (ha : s.authenticated = true) (e : Event)
    (hlt : s.reconnectAttempt < (perform config s e).reconnectAttempt) : Fails s e := by
  have hsame : (perform config s e).reconnectAttempt ≠ s.reconnectAttempt := by omega
  cases e with
  | complete op ec received =>
    by_cases hop : op ∈ s.pending
    · obtain ⟨hs, hattempt⟩ := h.flowing.own op hop
      refine ⟨hop, hs, ?_⟩
      rintro rfl
      exact hsame (complete_attempt config s op received hs hattempt)
    · exact absurd (by simp [perform, complete, hop]) hsame
  | reconnectExpires =>
    refine absurd ?_ hsame
    simp only [perform, reconnectExpires]
    split
    · split <;> rfl
    · rfl
  | authExpires => exact absurd (by simp [perform, authExpires, ha, apply_ite]) hsame
  | heartbeatExpires =>
    refine absurd ?_ hsame
    simp only [perform, heartbeatExpires, scheduleHeartbeat]
    cases s.heartbeatTimer <;> cases s.connected <;> cases s.running <;> rfl
  | runPosted =>
    refine absurd ?_ hsame
    simp only [perform, runPosted]
    split
    · rfl
    · rename_i task rest hp
      cases task with
      | close => rfl
      | write msg =>
        simp only [runTask]
        split
        · rfl
        · exact doWrite_attempt _
  | subscribe channel => exact absurd rfl hsame
  | advance caller =>
    refine absurd ?_ hsame
    simp only [perform, advance]
    split
    · cases caller with
      | checking channel => simp only []
      | sending channel => rfl
    · rfl
  | stop =>
    refine absurd ?_ hsame
    simp only [perform, stop]
    split <;> rfl

theorem orderly_cause (h : Orderly s) (ha : s.authenticated = true)
    (e : Event) (hlt : s.reconnectAttempt < (step config s e).reconnectAttempt) : Fails s e := by
  rcases h.2 with hq | hest
  · simp [hq.authenticated] at ha
  · unfold step at hlt
    split at hlt
    · exact absurd hlt (Nat.lt_irrefl _)
    · exact perform_cause config s hest ha e hlt

theorem orderly_requested (h : Orderly s) (hr : s.running = true)
    (ha : s.authenticated = true) : ∀ channel ∈ s.subscriptions, Requested s channel := by
  rcases h.2 with hq | hest
  · simp [hq.authenticated] at ha
  · exact hest.requested hr ha

theorem orderly_undisturbed (h : Orderly s) : Undisturbed config s where
  stale op hop hs := absurd (orderly_own s h op hop) hs
  cause := orderly_cause config s h
  attempts := orderly_attempts s h
  login := orderly_login s h
  requested := orderly_requested s h
  written := orderly_written s h

theorem settled_undisturbed (subscriptions : List Channel) (es : List Event)
    (h : Runs.Meets (step config) Settled (start subscriptions) es) :
    Runs.Always (step config) (Undisturbed config) (start subscriptions) es :=
  Runs.always_mono (step config) (orderly_undisturbed config) _ es
    (Runs.always_of_meets (step config) (step_orderly config) _ es (start_orderly subscriptions) h)

end Runs

end TB.PrivateStreams
