import TomorrowBot.WsClient
import TomorrowBot.Runs

/-!
# The public client on one stream after another

While the client is not connected what is left of earlier streams completes
as aborted and changes nothing. A write that is left when the handshake
succeeds would end the new session, so the client keeps its session apart
from earlier streams when no handshake succeeds before the writes are through.
-/

set_option autoImplicit false

namespace TB.PublicStreams
open TB.WsOperations TB.WsClient

section Statements

def Task.message : Task → Message
  | .subscribe channel => .subscribe channel
  | .unsubscribe channel => .unsubscribe channel

def sent (s : State) : List Message := writtenOn s.streams s.written ++ s.writeQueue

def line (s : State) : List Message := sent s ++ s.posted.map Task.message

def Requested (s : State) (channel : Channel) : Prop :=
  .subscribe channel ∈ line s ∨ .checking (.subscribe channel) ∈ s.callers ∨
    .sending (.subscribe channel) ∈ s.callers

def session (s : State) : Bool × List Message × Option ℤ :=
  (s.connected, s.writeQueue, s.reconnectTimer)

def Fails (config : Config) (s : State) : Event → Prop
  | .complete op ec _ _ => op ∈ s.pending ∧ s.wsStream = some op.stream ∧ ec ≠ .success
  | .heartbeatExpires now _ => pongTimeout config s now
  | _ => False

structure Undisturbed (config : Config) (s : State) : Prop where
  stale : ∀ op ∈ s.pending, s.wsStream ≠ some op.stream → ∀ ec received now,
    session (step config s (.complete op ec received now)) = session s
  cause : s.connected = true → ∀ e,
    s.reconnectAttempt < (step config s e).reconnectAttempt → Fails config s e
  attempts : (attempts s.pending).length ≤ 1
  requested : s.connected = true → ∀ channel ∈ s.subscriptions, Requested s channel
  written : s.writeQueue ≠ [] → ⟨.write, s.streams⟩ ∈ s.pending

/-- A handshake succeeds when the writes to earlier streams are through. -/
def Settled (s : State) : Event → Prop
  | .complete op ec _ _ => op ∈ s.pending → op.kind = .wsHandshake → ec = .success →
      ∀ o ∈ s.pending, o.kind ≠ .write
  | _ => True

instance (s : State) : DecidablePred (Settled s)
  | .complete .. => inferInstanceAs (Decidable (_ → _))
  | .reconnectExpires | .heartbeatExpires .. | .runPosted _ | .subscribe _ | .unsubscribe _ |
    .advance _ | .stop | .halt => inferInstanceAs (Decidable True)

end Statements

section Invariant

structure Idle (s : State) : Prop where
  connected : s.connected = false
  writeQueue : s.writeQueue = []
  writing : s.writing = false
  bounded : ∀ op ∈ s.pending, op.stream ≤ s.streams
  stale : ∀ op ∈ s.pending, op.isAttempt = false → s.wsStream ≠ some op.stream
  attempt : attempts s.pending = [] ∨ s.reconnectTimer = none ∧ s.wsStream = some s.streams ∧
    ∃ op : Op, op.stream = s.streams ∧ attempts s.pending = [op]

structure Flowing (s : State) : Prop where
  connected : s.connected = true
  current : s.wsStream = some s.streams
  bounded : ∀ op ∈ s.pending, op.stream ≤ s.streams
  own : ∀ op ∈ s.pending, op.kind = .write → op.stream = s.streams
  writes : s.pending.count ⟨.write, s.streams⟩ = if s.writing then 1 else 0
  writing : s.writeQueue ≠ [] → s.writing = true

structure Live (s : State) : Prop where
  flowing : Flowing s
  attempt : attempts s.pending = []
  timer : s.reconnectTimer = none
  requested : ∀ channel ∈ s.subscriptions, Requested s channel

def Orderly (s : State) : Prop := Idle s ∨ Live s

end Invariant

section Sending

structure Sends (s t : State) (msgs : List Message) : Prop where
  flowing : Flowing t
  sent : sent t = sent s ++ msgs
  attempts : attempts t.pending = attempts s.pending
  rest : t = { s with
    pendingSubMs := t.pendingSubMs
    writeQueue := t.writeQueue
    writing := t.writing
    pending := t.pending
    written := t.written }

theorem sends_refl (s : State) (h : Flowing s) : Sends s s [] := ⟨h, by simp, rfl, rfl⟩

theorem sends_trans {s t u : State} {msgs more : List Message} (h : Sends s t msgs)
    (k : Sends t u more) : Sends s u (msgs ++ more) where
  flowing := k.flowing
  sent := by rw [k.sent, h.sent, List.append_assoc]
  attempts := k.attempts.trans h.attempts
  rest := by
    have hk := k.rest
    rw [h.rest] at hk
    exact hk

theorem pushed_own {n : ℕ} {l : List Op} (hb : ∀ op ∈ l, op.stream ≤ n)
    (hown : ∀ op ∈ l, op.kind = .write → op.stream = n) (kind : OpKind) :
    (∀ op ∈ l ++ [⟨kind, n⟩], op.stream ≤ n) ∧
      ∀ op ∈ l ++ [⟨kind, n⟩], op.kind = .write → op.stream = n :=
  ⟨List.forall_mem_append.mpr ⟨hb, by simp⟩, List.forall_mem_append.mpr ⟨hown, by simp⟩⟩

theorem doWriteNext_sends (s : State) (hc : s.connected = true)
    (hcur : s.wsStream = some s.streams) (hb : ∀ op ∈ s.pending, op.stream ≤ s.streams)
    (hown : ∀ op ∈ s.pending, op.kind = .write → op.stream = s.streams)
    (hnone : s.pending.count ⟨.write, s.streams⟩ = 0) : Sends s (doWriteNext s) [] := by
  cases hq : s.writeQueue with
  | nil =>
    simp only [doWriteNext, hcur, hq]
    exact ⟨⟨hc, rfl, hb, hown, hnone, nofun⟩, by simp [sent, hq], rfl, by simp [hcur]⟩
  | cons front queue =>
    simp only [doWriteNext, hcur, hq, hc, if_true, async]
    obtain ⟨hb, hown⟩ := pushed_own hb hown .write
    exact ⟨⟨rfl, rfl, hb, hown, by simp [hnone], fun _ => rfl⟩, by simp [sent, writtenOn_self, hq],
      by simp [attempts, Op.isAttempt], by simp [hc, hcur]⟩

theorem doSendOnStrand_sends (s : State) (h : Flowing s) (payload : Message) :
    Sends s (doSendOnStrand s payload) [payload] := by
  unfold doSendOnStrand
  rw [if_pos ⟨h.connected, by simp [h.current]⟩]
  simp only []
  split
  · rename_i hw
    exact ⟨⟨h.connected, h.current, h.bounded, h.own, h.writes, fun _ => hw⟩,
      by simp [sent], rfl, rfl⟩
  · rename_i hw
    have hn := doWriteNext_sends { s with writeQueue := s.writeQueue ++ [payload] } h.connected
      h.current h.bounded h.own (by simpa [hw] using h.writes)
    exact ⟨hn.flowing, by rw [hn.sent]; simp [sent], hn.attempts, hn.rest⟩

variable (config : Config)

theorem doSubscribeDirect_sends (now : ℤ) (s : State) (h : Flowing s)
    (channel : Channel) : Sends s (doSubscribeDirect config now s channel) [.subscribe channel] := by
  have hs := doSendOnStrand_sends s h (.subscribe channel)
  unfold doSubscribeDirect
  cases config.channelName channel with
  | none => exact hs
  | some name =>
    obtain ⟨hf, hsent, ha, hrest⟩ := hs
    refine ⟨⟨hf.connected, hf.current, hf.bounded, hf.own, hf.writes, hf.writing⟩, hsent, ha, ?_⟩
    rw [hrest]

theorem subscribeChannels_sends (now : ℤ) (channels : List Channel) (s : State)
    (h : Flowing s) : Sends s (channels.foldl (doSubscribeDirect config now) s)
      (channels.map .subscribe) := by
  induction channels generalizing s with
  | nil => exact sends_refl s h
  | cons channel channels ih =>
    have hs := doSubscribeDirect_sends config now s h channel
    exact sends_trans hs (ih _ hs.flowing)

theorem runTask_sends (now : ℤ) (s : State) (h : Flowing s) (task : Task) :
    Sends s (runTask config now s task) [Task.message task] := by
  cases task with
  | subscribe channel => exact doSubscribeDirect_sends config now s h channel
  | unsubscribe channel => exact doSendOnStrand_sends s h (.unsubscribe channel)

theorem sends_requested {s t : State} {msgs : List Message} (h : Sends s t msgs)
    (channel : Channel) (hr : Requested s channel) : Requested t channel := by
  have hposted : t.posted = s.posted := by rw [h.rest]
  have hcallers : t.callers = s.callers := by rw [h.rest]
  unfold Requested line at hr ⊢
  rw [h.sent, hposted, hcallers]
  rcases hr with hl | hr
  · left
    rcases List.mem_append.mp hl with hl | hl
    · exact List.mem_append_left _ (List.mem_append_left _ hl)
    · exact List.mem_append_right _ hl
  · exact .inr hr

theorem sends_live {s t : State} {msgs : List Message} (h : Sends s t msgs) (hl : Live s) :
    Live t := by
  have htimer : t.reconnectTimer = s.reconnectTimer := by rw [h.rest]
  have hsubs : t.subscriptions = s.subscriptions := by rw [h.rest]
  refine ⟨h.flowing, h.attempts.trans hl.attempt, htimer.trans hl.timer, ?_⟩
  rw [hsubs]
  exact fun channel hc => sends_requested h channel (hl.requested channel hc)

end Sending

section Live

variable (s : State)

theorem scheduleHeartbeat_live (h : Live s) : Live (scheduleHeartbeat s) := by
  unfold scheduleHeartbeat
  split
  · exact ⟨⟨h.flowing.connected, h.flowing.current, h.flowing.bounded, h.flowing.own,
      h.flowing.writes, h.flowing.writing⟩, h.attempt, h.timer, h.requested⟩
  · exact h

theorem doRead_live (h : Live s) : Live (doRead s) := by
  have hf := h.flowing
  have hwrites : (s.pending ++ [(⟨.read, s.streams⟩ : Op)]).count ⟨.write, s.streams⟩ =
      s.pending.count ⟨.write, s.streams⟩ := by simp
  simp only [doRead, async, hf.current]
  obtain ⟨hb, hown⟩ := pushed_own hf.bounded hf.own .read
  refine ⟨⟨hf.connected, rfl, hb, hown, hwrites.trans hf.writes, hf.writing⟩, ?_, h.timer,
    h.requested⟩
  rw [attempts_append, h.attempt]
  rfl

variable (config : Config)

theorem handleDisconnect_idle (s : State) (hc : s.connected = true)
    (hb : ∀ op ∈ s.pending, op.stream ≤ s.streams) (ha : attempts s.pending = []) :
    Idle (handleDisconnect config s) := by
  simp only [handleDisconnect, hc, if_true, scheduleReconnect]
  cases s.running <;> simp only [if_true, Bool.false_eq_true, if_false] <;>
    exact ⟨rfl, rfl, rfl, hb, fun _ _ _ => nofun, .inl ha⟩

theorem live_of_line (s t : State) (h : Live s) (hf : Flowing t) (ha : attempts t.pending = [])
    (hline : line t = line s) (htimer : t.reconnectTimer = s.reconnectTimer)
    (hsubs : t.subscriptions = s.subscriptions) (hcallers : t.callers = s.callers) : Live t := by
  refine ⟨hf, ha, htimer.trans h.timer, ?_⟩
  rw [hsubs]
  intro channel hc
  unfold Requested
  rw [hline, hcallers]
  exact h.requested channel hc

theorem runPosted_live (s : State) (h : Live s) (now : ℤ) : Live (runPosted config s now) := by
  unfold runPosted
  split
  · exact h
  · rename_i task rest hp
    have hf := h.flowing
    have hs := runTask_sends config now { s with posted := rest }
      ⟨hf.connected, hf.current, hf.bounded, hf.own, hf.writes, hf.writing⟩ task
    generalize runTask config now { s with posted := rest } task = t at hs ⊢
    refine live_of_line s t h hs.flowing (hs.attempts.trans h.attempt) ?_ (by rw [hs.rest])
      (by rw [hs.rest]) (by rw [hs.rest])
    have hposted : t.posted = rest := by rw [hs.rest]
    unfold line
    rw [hs.sent, hposted, hp]
    simp [sent]

theorem doWriteNext_live (h : Live s) :
    Live (doWriteNext { s with pending := s.pending.erase ⟨.write, s.streams⟩ }) := by
  have hf := h.flowing
  have hnone : (s.pending.erase ⟨.write, s.streams⟩).count ⟨.write, s.streams⟩ = 0 := by
    rw [List.count_erase_self, hf.writes]
    split <;> rfl
  have hs := doWriteNext_sends { s with pending := s.pending.erase ⟨.write, s.streams⟩ }
    hf.connected hf.current (fun o ho => hf.bounded o (List.mem_of_mem_erase ho))
    (fun o ho => hf.own o (List.mem_of_mem_erase ho)) hnone
  generalize doWriteNext { s with pending := s.pending.erase ⟨.write, s.streams⟩ } = t at hs ⊢
  have hattempt : attempts (s.pending.erase ⟨.write, s.streams⟩) = [] := by
    rw [attempts_erase, h.attempt]
    rfl
  refine live_of_line s t h hs.flowing (hs.attempts.trans hattempt) ?_ (by rw [hs.rest])
    (by rw [hs.rest]) (by rw [hs.rest])
  have hposted : t.posted = s.posted := by rw [hs.rest]
  unfold line
  rw [hs.sent, hposted]
  simp [sent]

theorem heartbeatExpires_live (s : State) (h : Live s) (now : ℤ)
    (names : List String) : Idle (heartbeatExpires config s now names) ∨
      Live (heartbeatExpires config s now names) := by
  have hf := h.flowing
  have hoff : Live { s with heartbeatTimer := false } :=
    ⟨⟨hf.connected, hf.current, hf.bounded, hf.own, hf.writes, hf.writing⟩, h.attempt, h.timer,
      h.requested⟩
  unfold heartbeatExpires
  split
  · generalize { s with heartbeatTimer := false } = t at hoff ⊢
    simp only []
    split
    · split
      · exact .inl (handleDisconnect_idle config t hoff.flowing.connected hoff.flowing.bounded
          hoff.attempt)
      · have hretry := subscribeChannels_sends config now (retryChannels config t now names) t
          hoff.flowing
        have hping := doSendOnStrand_sends _ hretry.flowing .ping
        exact .inr (scheduleHeartbeat_live _ (sends_live (sends_trans hretry hping) hoff))
    · exact .inr hoff
  · exact .inr h

theorem complete_live (s : State) (h : Live s) (op : Op) (ec : ErrorCode)
    (received : Received) (now : ℤ) : Idle (complete config s op ec received now) ∨
      Live (complete config s op ec received now) := by
  unfold complete
  split
  case isFalse => exact .inr h
  rename_i hop
  have hf := h.flowing
  have ha : op.isAttempt = false := by
    have := List.filter_eq_nil_iff.mp h.attempt op hop
    simpa using this
  have hbounded : ∀ o ∈ s.pending.erase op, o.stream ≤ s.streams :=
    fun o ho => hf.bounded o (List.mem_of_mem_erase ho)
  have hattempt : attempts (s.pending.erase op) = [] := by
    rw [attempts_erase, h.attempt]
    rfl
  have hread : op.kind = .read → Live { s with pending := s.pending.erase op } := by
    intro hk
    refine ⟨⟨hf.connected, hf.current, hbounded, fun o ho => hf.own o (List.mem_of_mem_erase ho),
      ?_, hf.writing⟩, hattempt, h.timer, h.requested⟩
    rw [List.count_erase_of_ne (fun he => by simp [← he] at hk)]
    exact hf.writes
  obtain ⟨kind, stream⟩ := op
  cases kind with
  | resolve | tcpConnect | sslHandshake | wsHandshake => cases ha
  | read =>
    have hlive := hread rfl
    generalize (Op.mk .read stream).errorCode s.wsStream ec = code
    cases code with
    | operationAborted => exact .inr hlive
    | failed => exact .inl (handleDisconnect_idle config _ hf.connected hbounded hattempt)
    | success =>
      right
      apply doRead_live
      obtain ⟨hflow, hatt, ht, hreq⟩ := hlive
      cases received <;>
        exact ⟨⟨hflow.connected, hflow.current, hflow.bounded, hflow.own, hflow.writes,
          hflow.writing⟩, hatt, ht, hreq⟩
  | write =>
    obtain rfl : stream = s.streams := hf.own _ hop rfl
    have hcode : (Op.mk .write s.streams).errorCode s.wsStream ec = ec := by
      rw [hf.current]
      exact errorCode_own _ s.streams ec rfl
    rw [hcode]
    cases ec with
    | operationAborted =>
      exact .inl (handleDisconnect_idle config _ hf.connected hbounded hattempt)
    | failed => exact .inl (handleDisconnect_idle config _ hf.connected hbounded hattempt)
    | success => exact .inr (doWriteNext_live s h)

theorem subscribe_live (h : Live s) (channel : Channel) : Live (subscribe s channel) := by
  have hf := h.flowing
  unfold subscribe
  split
  · exact h
  · refine ⟨⟨hf.connected, hf.current, hf.bounded, hf.own, hf.writes, hf.writing⟩, h.attempt,
      h.timer, ?_⟩
    intro c hc
    rcases List.mem_append.mp hc with hc | hc
    · rcases h.requested c hc with hl | hl | hl
      · exact .inl hl
      · exact .inr (.inl (List.mem_append_left _ hl))
      · exact .inr (.inr (List.mem_append_left _ hl))
    · rw [List.mem_singleton.mp hc]
      exact .inr (.inl (by simp))

theorem unsubscribe_live (h : Live s) (channel : Channel) : Live (unsubscribe s channel) := by
  have hf := h.flowing
  refine ⟨⟨hf.connected, hf.current, hf.bounded, hf.own, hf.writes, hf.writing⟩, h.attempt,
    h.timer, ?_⟩
  intro c hc
  rcases h.requested c (List.mem_of_mem_filter hc) with hl | hl | hl
  · exact .inl hl
  · exact .inr (.inl (List.mem_append_left _ hl))
  · exact .inr (.inr (List.mem_append_left _ hl))

theorem requested_erase (caller : Caller) (channel : Channel)
    (h : Requested s channel) : Requested { s with callers := s.callers.erase caller } channel ∨
      caller = .checking (.subscribe channel) ∨ caller = .sending (.subscribe channel) := by
  by_cases hc : caller = .checking (.subscribe channel)
  · exact .inr (.inl hc)
  by_cases hs : caller = .sending (.subscribe channel)
  · exact .inr (.inr hs)
  left
  rcases h with hl | hl | hl
  · exact .inl hl
  · exact .inr (.inl ((List.mem_erase_of_ne (Ne.symm hc)).mpr hl))
  · exact .inr (.inr ((List.mem_erase_of_ne (Ne.symm hs)).mpr hl))

theorem advance_live (h : Live s) (caller : Caller) : Live (advance s caller) := by
  have hf := h.flowing
  unfold advance
  split
  · cases caller with
    | checking task =>
      simp only [hf.connected, if_true]
      refine ⟨⟨rfl, hf.current, hf.bounded, hf.own, hf.writes, hf.writing⟩, h.attempt,
        h.timer, ?_⟩
      intro c hc
      rcases requested_erase s (.checking task) c (h.requested c hc) with hl | hl | hl
      · rcases hl with hl | hl | hl
        · exact .inl hl
        · exact .inr (.inl (List.mem_append_left _ hl))
        · exact .inr (.inr (List.mem_append_left _ hl))
      · cases hl
        exact .inr (.inr (by simp))
      · cases hl
    | sending task =>
      refine ⟨⟨hf.connected, hf.current, hf.bounded, hf.own, hf.writes, hf.writing⟩, h.attempt,
        h.timer, ?_⟩
      intro c hc
      rcases requested_erase s (.sending task) c (h.requested c hc) with hl | hl | hl
      · refine hl.imp_left (fun hl => ?_)
        rcases List.mem_append.mp hl with hl | hl
        · exact List.mem_append_left _ hl
        · exact List.mem_append_right _ (by simp [List.mem_map.mp hl])
      · cases hl
      · cases hl
        exact .inl (List.mem_append_right _ (by simp [Task.message]))
  · exact h

theorem stop_live (h : Live s) : Live (stop s) := by
  have hf := h.flowing
  unfold stop
  split
  · exact ⟨⟨hf.connected, hf.current, hf.bounded, hf.own, hf.writes, hf.writing⟩, h.attempt, rfl,
      h.requested⟩
  · exact h

theorem halt_live (h : Live s) : Live (halt s) := by
  have hf := h.flowing
  unfold halt
  split
  · exact h
  · exact ⟨⟨hf.connected, hf.current, hf.bounded, hf.own, hf.writes, hf.writing⟩, h.attempt,
      h.timer, h.requested⟩

end Live

section Idle

variable (config : Config)

/-- Every channel subscribed so far is requested when the handshake succeeds. -/
theorem onWsHandshake_live (now : ℤ) (s : State) (h : Idle s)
    (hcur : s.wsStream = some s.streams) (ht : s.reconnectTimer = none)
    (ha : attempts s.pending = []) (hw : ∀ op ∈ s.pending, op.kind ≠ .write) :
    Live (onWsHandshake config now s .success) := by
  have hf : Flowing { s with connected := true, reconnectAttempt := 0, lastPongMs := now } := by
    refine ⟨rfl, hcur, h.bounded, fun op hop hk => absurd hk (hw op hop), ?_, ?_⟩
    · simp only [h.writing, Bool.false_eq_true, if_false]
      exact List.count_eq_zero.mpr (fun hop => hw _ hop rfl)
    · simp [h.writeQueue]
  have hs := subscribeChannels_sends config now s.subscriptions _ hf
  simp only [onWsHandshake]
  apply doRead_live
  apply scheduleHeartbeat_live
  generalize s.subscriptions.foldl (doSubscribeDirect config now)
    { s with connected := true, reconnectAttempt := 0, lastPongMs := now } = t at hs ⊢
  have htimer : t.reconnectTimer = s.reconnectTimer := by rw [hs.rest]
  have hsubs : t.subscriptions = s.subscriptions := by rw [hs.rest]
  refine ⟨hs.flowing, hs.attempts.trans ha, htimer.trans ht, ?_⟩
  rw [hsubs]
  intro channel hc
  left
  unfold line
  rw [hs.sent]
  simp [hc]

variable (s : State)

theorem scheduleReconnect_idle (h : Idle s)
    (ha : attempts s.pending = []) : Idle (scheduleReconnect config s) := by
  unfold scheduleReconnect
  split
  · exact ⟨h.connected, h.writeQueue, h.writing, h.bounded, h.stale, .inl ha⟩
  · exact h

/-- What is not part of the attempt completes as aborted and changes nothing. -/
theorem complete_stale (op : Op) (ec : ErrorCode)
    (received : Received) (now : ℤ) (hop : op ∈ s.pending) (ha : op.isAttempt = false)
    (hs : s.wsStream ≠ some op.stream) (hw : op.kind = .write → s.connected = false)
    (hidle : s.connected = false → s.writing = false) :
    complete config s op ec received now = { s with pending := s.pending.erase op } := by
  unfold complete
  rw [if_pos hop, errorCode_stale op s.wsStream ec ha hs]
  obtain ⟨kind, stream⟩ := op
  cases kind with
  | resolve | tcpConnect | sslHandshake | wsHandshake => cases ha
  | read => rfl
  | write =>
    have hc := hw rfl
    simp [handle, onWrite, handleDisconnect, hc, hidle hc]

theorem complete_idle (h : Idle s) (op : Op) (ec : ErrorCode)
    (received : Received) (now : ℤ) (hs : Settled s (.complete op ec received now)) :
    Idle (complete config s op ec received now) ∨ Live (complete config s op ec received now) := by
  by_cases hop : op ∈ s.pending
  case neg => exact .inl (by simpa [complete, hop] using h)
  have hbounded : ∀ o ∈ s.pending.erase op, o.stream ≤ s.streams :=
    fun o ho => h.bounded o (List.mem_of_mem_erase ho)
  have hstale : ∀ o ∈ s.pending.erase op, o.isAttempt = false → s.wsStream ≠ some o.stream :=
    fun o ho => h.stale o (List.mem_of_mem_erase ho)
  by_cases ha : op.isAttempt
  · obtain ⟨ht, hcur, hown, hatt⟩ : s.reconnectTimer = none ∧ s.wsStream = some s.streams ∧
        op.stream = s.streams ∧ attempts s.pending = [op] := by
      have hmem : op ∈ attempts s.pending := List.mem_filter.mpr ⟨hop, ha⟩
      obtain hn | ⟨ht, hcur, o, ho, hatt⟩ := h.attempt
      · simp [hn] at hmem
      · obtain rfl : op = o := by simpa [hatt] using hmem
        exact ⟨ht, hcur, ho, hatt⟩
    have hnone : attempts (s.pending.erase op) = [] := by
      rw [attempts_erase, hatt, List.erase_cons_head]
    have herased : Idle { s with pending := s.pending.erase op } :=
      ⟨h.connected, h.writeQueue, h.writing, hbounded, hstale, .inl hnone⟩
    have hfail := scheduleReconnect_idle config _ herased hnone
    have hnext : ∀ next : OpKind, (⟨next, s.streams⟩ : Op).isAttempt = true →
        Idle (async { s with pending := s.pending.erase op } next) := by
      intro next hnext
      simp only [async, hcur]
      refine ⟨h.connected, h.writeQueue, h.writing, ?_, ?_, .inr ⟨ht, rfl, ⟨next, s.streams⟩, rfl, ?_⟩⟩
      · intro o ho
        rcases List.mem_append.mp ho with ho | ho
        · exact hbounded o ho
        · exact Nat.le_of_eq (congrArg Op.stream (List.mem_singleton.mp ho))
      · intro o ho hno
        rcases List.mem_append.mp ho with ho | ho
        · exact hcur ▸ hstale o ho hno
        · rw [List.mem_singleton.mp ho] at hno
          simp [hnext] at hno
      · rw [attempts_append, hnone]
        simp [attempts, hnext]
    have hcode : op.errorCode s.wsStream ec = ec := by
      rw [hcur]
      exact errorCode_own op s.streams ec hown
    have hlive : op.kind = .wsHandshake → ec = .success →
        Live (onWsHandshake config now { s with pending := s.pending.erase op } .success) := by
      intro hk hec
      exact onWsHandshake_live config now _ herased hcur ht hnone
        (fun o ho => hs hop hk hec o (List.mem_of_mem_erase ho))
    unfold complete
    rw [if_pos hop, hcode]
    obtain ⟨kind, stream⟩ := op
    cases kind <;> cases ec
    all_goals first
      | exact .inl hfail
      | exact .inl (hnext _ rfl)
      | exact .inr (hlive rfl rfl)
      | exact absurd ha (by simp [Op.isAttempt])
  · rw [complete_stale config s op ec received now hop (by simpa using ha)
      (h.stale op hop (by simpa using ha)) (fun _ => h.connected) (fun _ => h.writing)]
    refine .inl ⟨h.connected, h.writeQueue, h.writing, hbounded, hstale, ?_⟩
    have herase : attempts (s.pending.erase op) = attempts s.pending := by
      rw [attempts_erase]
      exact List.erase_of_not_mem (fun hmem => ha (List.mem_filter.mp hmem).2)
    simp only [herase]
    exact h.attempt

/-- The timer is set only when the attempt is over; what is pending is older than the
stream it makes. -/
theorem reconnectExpires_idle (h : Idle s) : Idle (reconnectExpires s) := by
  unfold reconnectExpires
  split
  · rename_i ht
    have hn : attempts s.pending = [] := by
      obtain hn | ⟨hnone, -⟩ := h.attempt
      · exact hn
      · simp [hnone] at ht
    simp only []
    split
    · refine ⟨h.connected, h.writeQueue, h.writing, ?_, ?_,
        .inr ⟨rfl, rfl, ⟨.resolve, s.streams + 1⟩, rfl, ?_⟩⟩
      · intro op hop
        rcases List.mem_append.mp hop with hop | hop
        · exact Nat.le_succ_of_le (h.bounded op hop)
        · exact Nat.le_of_eq (congrArg Op.stream (List.mem_singleton.mp hop))
      · intro op hop ha
        rcases List.mem_append.mp hop with hop | hop
        · have hb := h.bounded op hop
          simp only [connect, async, ne_eq, Option.some.injEq]
          omega
        · rw [List.mem_singleton.mp hop] at ha
          cases ha
      · rw [connect, async, attempts_append, hn]
        rfl
    · exact ⟨h.connected, h.writeQueue, h.writing, h.bounded, h.stale, .inl hn⟩
  · exact h

theorem runPosted_idle (h : Idle s) (now : ℤ) : Idle (runPosted config s now) := by
  unfold runPosted
  split
  · exact h
  · rename_i task rest hp
    have hrest : Idle { s with posted := rest } :=
      ⟨h.connected, h.writeQueue, h.writing, h.bounded, h.stale, h.attempt⟩
    generalize { s with posted := rest } = t at hrest ⊢
    have hsend : ∀ msg, doSendOnStrand t msg = t := by
      intro msg
      simp [doSendOnStrand, hrest.connected]
    cases task with
    | unsubscribe channel => simpa [runTask, doUnsubscribeDirect, hsend] using hrest
    | subscribe channel =>
      simp only [runTask, doSubscribeDirect, hsend]
      split
      · exact hrest
      · exact ⟨hrest.connected, hrest.writeQueue, hrest.writing, hrest.bounded, hrest.stale,
          hrest.attempt⟩

theorem heartbeatExpires_idle (h : Idle s) (now : ℤ)
    (names : List String) : Idle (heartbeatExpires config s now names) := by
  unfold heartbeatExpires
  split
  · simp only [h.connected, Bool.false_eq_true, and_false, if_false]
    exact ⟨rfl, h.writeQueue, h.writing, h.bounded, h.stale, h.attempt⟩
  · exact h

theorem advance_idle (h : Idle s) (caller : Caller) : Idle (advance s caller) := by
  unfold advance
  split
  · cases caller with
    | checking task =>
      simp only [h.connected, Bool.false_eq_true, if_false]
      exact ⟨rfl, h.writeQueue, h.writing, h.bounded, h.stale, h.attempt⟩
    | sending task => exact ⟨h.connected, h.writeQueue, h.writing, h.bounded, h.stale, h.attempt⟩
  · exact h

theorem subscribe_idle (h : Idle s) (channel : Channel) : Idle (subscribe s channel) := by
  unfold subscribe
  split
  · exact h
  · exact ⟨h.connected, h.writeQueue, h.writing, h.bounded, h.stale, h.attempt⟩

theorem unsubscribe_idle (h : Idle s) (channel : Channel) : Idle (unsubscribe s channel) :=
  ⟨h.connected, h.writeQueue, h.writing, h.bounded, h.stale, h.attempt⟩

theorem stop_idle (h : Idle s) : Idle (stop s) := by
  unfold stop
  split
  · exact ⟨h.connected, h.writeQueue, h.writing, h.bounded, h.stale,
      h.attempt.imp_right (fun ha => ⟨rfl, ha.2⟩)⟩
  · exact h

theorem halt_idle (h : Idle s) : Idle (halt s) := by
  unfold halt
  split
  · exact h
  · exact ⟨h.connected, h.writeQueue, h.writing, h.bounded, h.stale, h.attempt⟩

end Idle

section Runs

variable (config : Config) (s : State)

theorem step_orderly (e : Event) (h : Orderly s)
    (hs : Settled s e) : Orderly (step config s e) := by
  unfold step
  split
  · exact h
  · rcases h with hi | hl
    · cases e with
      | complete op ec received now => exact complete_idle config s hi op ec received now hs
      | reconnectExpires => exact .inl (reconnectExpires_idle s hi)
      | heartbeatExpires now names => exact .inl (heartbeatExpires_idle config s hi now names)
      | runPosted now => exact .inl (runPosted_idle config s hi now)
      | subscribe channel => exact .inl (subscribe_idle s hi channel)
      | unsubscribe channel => exact .inl (unsubscribe_idle s hi channel)
      | advance caller => exact .inl (advance_idle s hi caller)
      | stop => exact .inl (stop_idle s hi)
      | halt => exact .inl (halt_idle s hi)
    · cases e with
      | complete op ec received now => exact complete_live config s hl op ec received now
      | reconnectExpires => exact .inr (by simpa [perform, reconnectExpires, hl.timer] using hl)
      | heartbeatExpires now names => exact heartbeatExpires_live config s hl now names
      | runPosted now => exact .inr (runPosted_live config s hl now)
      | subscribe channel => exact .inr (subscribe_live s hl channel)
      | unsubscribe channel => exact .inr (unsubscribe_live s hl channel)
      | advance caller => exact .inr (advance_live s hl caller)
      | stop => exact .inr (stop_live s hl)
      | halt => exact .inr (halt_live s hl)

theorem start_orderly (subscriptions : List Channel) : Orderly (start subscriptions) :=
  .inl ⟨rfl, rfl, rfl, by simp [start, connect, async], by simp [start, connect, async, Op.isAttempt],
    .inr ⟨rfl, rfl, _, rfl, rfl⟩⟩

theorem orderly_stale (h : Orderly s) (op : Op) (hop : op ∈ s.pending)
    (hs : s.wsStream ≠ some op.stream) :
    op.isAttempt = false ∧ (op.kind = .write → s.connected = false) ∧
      (s.connected = false → s.writing = false) := by
  rcases h with hi | hl
  · refine ⟨?_, fun _ => hi.connected, fun _ => hi.writing⟩
    by_contra ha
    have hmem : op ∈ attempts s.pending := List.mem_filter.mpr ⟨hop, by simpa using ha⟩
    obtain hn | ⟨-, hcur, o, ho, hatt⟩ := hi.attempt
    · simp [hn] at hmem
    · obtain rfl : op = o := by simpa [hatt] using hmem
      exact hs (by rw [hcur, ho])
  · refine ⟨?_, fun hk => ?_, fun hc => absurd hl.flowing.connected (by simp [hc])⟩
    · simpa using List.filter_eq_nil_iff.mp hl.attempt op hop
    · exact absurd (by rw [hl.flowing.current, hl.flowing.own op hop hk]) hs

theorem orderly_kept (h : Orderly s) (op : Op) (hop : op ∈ s.pending)
    (hs : s.wsStream ≠ some op.stream) (ec : ErrorCode) (received : Received) (now : ℤ) :
    session (step config s (.complete op ec received now)) = session s := by
  obtain ⟨ha, hw, hidle⟩ := orderly_stale s h op hop hs
  unfold step
  split
  · rfl
  · rw [perform, complete_stale config s op ec received now hop ha hs hw hidle]
    rfl

theorem orderly_attempts (h : Orderly s) : (attempts s.pending).length ≤ 1 := by
  rcases h with hi | hl
  · obtain hn | ⟨-, -, o, -, hatt⟩ := hi.attempt
    · simp [hn]
    · simp [hatt]
  · simp [hl.attempt]

theorem orderly_written (h : Orderly s) (hq : s.writeQueue ≠ []) :
    ⟨.write, s.streams⟩ ∈ s.pending := by
  rcases h with hi | hl
  · exact absurd hi.writeQueue hq
  · have hc := hl.flowing.writes
    rw [if_pos (hl.flowing.writing hq)] at hc
    exact List.count_pos_iff.mp (by omega)

theorem receive_attempt (now : ℤ) (s : State) (received : Received) :
    (receive now s received).reconnectAttempt = s.reconnectAttempt := by
  cases received <;> rfl

theorem async_attempt (kind : OpKind) : (async s kind).reconnectAttempt = s.reconnectAttempt := by
  unfold async
  split <;> rfl

theorem doWriteNext_attempt : (doWriteNext s).reconnectAttempt = s.reconnectAttempt := by
  unfold doWriteNext
  split
  · split
    · exact async_attempt _ _
    · rfl
  · rfl

/-- A read or a write that succeeds is no reason to reconnect. -/
theorem complete_attempt (op : Op) (received : Received) (now : ℤ)
    (ha : op.isAttempt = false) (hcur : s.wsStream = some op.stream) :
    (complete config s op .success received now).reconnectAttempt = s.reconnectAttempt := by
  unfold complete
  split
  · rw [hcur, errorCode_own op op.stream .success rfl]
    obtain ⟨kind, stream⟩ := op
    cases kind with
    | resolve | tcpConnect | sslHandshake | wsHandshake => cases ha
    | read =>
      simp only [handle, onRead, doRead, async_attempt, receive_attempt]
    | write => exact doWriteNext_attempt _
  · rfl

theorem sends_attempt {s t : State} {msgs : List Message} (h : Sends s t msgs) :
    t.reconnectAttempt = s.reconnectAttempt := by
  rw [h.rest]

theorem heartbeatExpires_attempt (hf : Flowing s) (now : ℤ)
    (names : List String) (hp : ¬ pongTimeout config s now) :
    (heartbeatExpires config s now names).reconnectAttempt = s.reconnectAttempt := by
  have hoff : Flowing { s with heartbeatTimer := false } :=
    ⟨hf.connected, hf.current, hf.bounded, hf.own, hf.writes, hf.writing⟩
  have hin : ¬ pongTimeout config { s with heartbeatTimer := false } now := hp
  unfold heartbeatExpires
  split
  · simp only [hin, if_false]
    split
    · have hretry := subscribeChannels_sends config now
        (retryChannels config { s with heartbeatTimer := false } now names) _ hoff
      have hping := sends_attempt (sends_trans hretry
        (doSendOnStrand_sends _ hretry.flowing .ping))
      unfold scheduleHeartbeat
      split <;> exact hping
    · rfl
  · rfl

/-- While connected only a failure on the stream or a missing answer leads to a reconnect. -/
theorem perform_cause (h : Live s) (e : Event)
    (hlt : s.reconnectAttempt < (perform config s e).reconnectAttempt) : Fails config s e := by
  have hsame : (perform config s e).reconnectAttempt ≠ s.reconnectAttempt := by omega
  cases e with
  | complete op ec received now =>
    by_cases hop : op ∈ s.pending
    · by_cases hs : s.wsStream = some op.stream
      · refine ⟨hop, hs, ?_⟩
        rintro rfl
        refine hsame (complete_attempt config s op received now ?_ hs)
        simpa using List.filter_eq_nil_iff.mp h.attempt op hop
      · obtain ⟨ha, hw, hidle⟩ := orderly_stale s (.inr h) op hop hs
        rw [perform, complete_stale config s op ec received now hop ha hs hw hidle] at hsame
        exact absurd rfl hsame
    · exact absurd (by simp [perform, complete, hop]) hsame
  | reconnectExpires => exact absurd (by simp [perform, reconnectExpires, h.timer]) hsame
  | heartbeatExpires now names =>
    by_contra hp
    exact hsame (heartbeatExpires_attempt config s h.flowing now names hp)
  | runPosted now =>
    refine absurd ?_ hsame
    simp only [perform, runPosted]
    split
    · rfl
    · rename_i task rest hposted
      have hf := h.flowing
      have hs := sends_attempt (runTask_sends config now { s with posted := rest }
        ⟨hf.connected, hf.current, hf.bounded, hf.own, hf.writes, hf.writing⟩ task)
      exact hs
  | subscribe channel => exact absurd (by simp [perform, subscribe, apply_ite]) hsame
  | unsubscribe channel => exact absurd rfl hsame
  | advance caller =>
    refine absurd ?_ hsame
    simp only [perform, advance]
    split
    · cases caller with
      | checking task =>
        simp only []
        split <;> rfl
      | sending task => rfl
    · rfl
  | stop => exact absurd (by simp [perform, stop, apply_ite]) hsame
  | halt => exact absurd (by simp [perform, halt, apply_ite]) hsame

theorem orderly_cause (h : Orderly s) (hc : s.connected = true)
    (e : Event) (hlt : s.reconnectAttempt < (step config s e).reconnectAttempt) :
    Fails config s e := by
  rcases h with hi | hl
  · simp [hi.connected] at hc
  · unfold step at hlt
    split at hlt
    · exact absurd hlt (Nat.lt_irrefl _)
    · exact perform_cause config s hl e hlt

theorem orderly_requested (h : Orderly s) (hc : s.connected = true) :
    ∀ channel ∈ s.subscriptions, Requested s channel := by
  rcases h with hi | hl
  · simp [hi.connected] at hc
  · exact hl.requested

theorem orderly_undisturbed (h : Orderly s) : Undisturbed config s where
  stale := orderly_kept config s h
  cause := orderly_cause config s h
  attempts := orderly_attempts s h
  requested := orderly_requested s h
  written := orderly_written s h

theorem settled_undisturbed (subscriptions : List Channel) (es : List Event)
    (h : Runs.Meets (step config) Settled (start subscriptions) es) :
    Runs.Always (step config) (Undisturbed config) (start subscriptions) es :=
  Runs.always_mono (step config) (orderly_undisturbed config) _ es
    (Runs.always_of_meets (step config) (step_orderly config) _ es (start_orderly subscriptions) h)

end Runs

end TB.PublicStreams
