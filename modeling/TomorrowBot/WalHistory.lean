import TomorrowBot.Runs
import TomorrowBot.WalRecords

/-!
# Recovery of open intents across restarts

A history is a run of writer calls in which a restart starts a new writer
over the same journal. The records it left are kept beside the writer with
the session that wrote them. What the next session's search reports is
compared with the intents that no commit or rollback of their own session
closed.
-/

set_option autoImplicit false

namespace TB.WalHistory
open TB.CommonTypes TB.EventJournal TB.WalWriter TB.WalRecords JsonText

inductive WalOp (F : Type) where
  | writeIntent (c : Clock) (type : WalEntryType) (payloadJson : Text F) (orderId : OrderId)
      (symbol : Symbol) (strategyId : StrategyId) (correlationId : CorrelationId) (stored : Bool)
  | commit (c : Clock) (walSequence : ℕ) (stored : Bool)
  | rollback (c : Clock) (walSequence : ℕ) (reason : String) (stored : Bool)
  | writeCheckpoint (c : Clock) (snapshotJson : Text F) (stored : Bool)
  | restart

structure History (F : Type) where
  writer : Writer F
  session : ℕ
  records : List (Record F)

variable {F : Type}

def nextSession (w : Writer F) : Writer F := startWriter (openJournal w.journal.entries)

def writerStep (w : Writer F) : WalOp F → Writer F
  | .writeIntent c type payload orderId symbol strategyId correlationId stored =>
      (writeIntent w c type payload orderId symbol strategyId correlationId stored).1
  | .commit c seq stored => (commit w c seq stored).1
  | .rollback c seq reason stored => (rollback w c seq reason stored).1
  | .writeCheckpoint c snapshot stored => (writeCheckpoint w c snapshot stored).1
  | .restart => nextSession w

def outcomeRecord (h : History F) (seq : ℕ) (kind : Kind) (stored : Bool) : List (Record F) :=
  match h.writer.pendingEntries.lookup seq with
  | none => []
  | some entry =>
    if stored then [⟨h.session, seq, pendingType entry, kind, entry.payloadJson⟩] else []

def written (h : History F) : WalOp F → List (Record F)
  | .writeIntent _ type payload _ _ _ _ stored =>
      if stored then [⟨h.session, h.writer.walSequence + 1, type, .intent, payload⟩] else []
  | .commit _ seq stored => outcomeRecord h seq .commit stored
  | .rollback _ seq reason stored => outcomeRecord h seq (.rollback reason) stored
  | .writeCheckpoint _ snapshot stored =>
      if stored then
        [⟨h.session, h.writer.walSequence + 1, .recoveryCheckpoint, .checkpoint, snapshot⟩]
      else []
  | .restart => []

def historyStep (h : History F) (op : WalOp F) : History F where
  writer := writerStep h.writer op
  session := match op with
    | .restart => h.session + 1
    | _ => h.session
  records := h.records ++ written h op

def firstSession : History F := ⟨startWriter (openJournal []), 0, []⟩

def history (ops : List (WalOp F)) : History F := Runs.run historyStep firstSession ops

def settled (rs : List (Record F)) (i : Record F) : Bool :=
  rs.any (fun r => isOutcome r && r.session = i.session && r.seq = i.seq)

def unresolved (rs : List (Record F)) : List (Record F) :=
  rs.filter (fun i => isIntent i && !settled rs i)

def Epoch (t : Timestamp) : Prop := 0 ≤ t ∧ t ≤ 2 ^ 63 - 1

structure Numbered (h : History F) : Prop where
  sessions : ∀ r ∈ h.records, r.session ≤ h.session
  below : ∀ r ∈ h.records, r.session = h.session → r.seq ≤ h.writer.walSequence
  pending : Keyed.All (fun k _ => k ≤ h.writer.walSequence) h.writer.pendingEntries
  apart : ∀ i ∈ h.records, ∀ r ∈ h.records, isIntent i = true → r.kind = .checkpoint →
    r.session = i.session → r.seq ≠ i.seq

theorem numbered_kept (h k : History F) (hn : Numbered h) (hr : k.records = h.records)
    (hs : k.session = h.session) (hc : k.writer.walSequence = h.writer.walSequence)
    (hp : Keyed.All (fun n _ => n ≤ h.writer.walSequence) k.writer.pendingEntries) :
    Numbered k where
  sessions := by
    rw [hr, hs]
    exact hn.sessions
  below := by
    rw [hr, hs, hc]
    exact hn.below
  pending := by
    rw [hc]
    exact hp
  apart := by
    rw [hr]
    exact hn.apart

theorem numbered_fresh (h k : History F) (hn : Numbered h) (r : Record F)
    (hr : k.records = h.records ++ [r]) (hs : k.session = h.session)
    (hc : k.writer.walSequence = h.writer.walSequence + 1) (hrs : r.session = h.session)
    (hrq : r.seq = h.writer.walSequence + 1)
    (hp : Keyed.All (fun n _ => n ≤ h.writer.walSequence + 1) k.writer.pendingEntries) :
    Numbered k where
  sessions := by
    intro s hm
    rw [hr, List.mem_append, List.mem_singleton] at hm
    rw [hs]
    rcases hm with hm | rfl
    · exact hn.sessions s hm
    · exact hrs.le
  below := by
    intro s hm he
    rw [hr, List.mem_append, List.mem_singleton] at hm
    rw [hs] at he
    rw [hc]
    rcases hm with hm | rfl
    · have := hn.below s hm he
      omega
    · exact hrq.le
  pending := by
    rw [hc]
    exact hp
  apart := by
    intro i hi s hm hk hck hse
    rw [hr, List.mem_append, List.mem_singleton] at hi hm
    rcases hi with hi | rfl <;> rcases hm with hm | rfl
    · exact hn.apart i hi s hm hk hck hse
    · have := hn.below i hi (by rw [← hse, hrs])
      omega
    · have := hn.below s hm (by rw [hse, hrs])
      omega
    · rw [isIntent, hck] at hk
      exact absurd hk (by simp)

theorem numbered_outcome (h k : History F) (hn : Numbered h) (r : Record F)
    (hr : k.records = h.records ++ [r]) (hs : k.session = h.session)
    (hc : k.writer.walSequence = h.writer.walSequence) (hrs : r.session = h.session)
    (hrq : r.seq ≤ h.writer.walSequence) (hk : isOutcome r = true)
    (hp : Keyed.All (fun n _ => n ≤ h.writer.walSequence) k.writer.pendingEntries) :
    Numbered k where
  sessions := by
    intro s hm
    rw [hr, List.mem_append, List.mem_singleton] at hm
    rw [hs]
    rcases hm with hm | rfl
    · exact hn.sessions s hm
    · exact hrs.le
  below := by
    intro s hm he
    rw [hr, List.mem_append, List.mem_singleton] at hm
    rw [hs] at he
    rw [hc]
    rcases hm with hm | rfl
    · exact hn.below s hm he
    · exact hrq
  pending := by
    rw [hc]
    exact hp
  apart := by
    intro i hi s hm hki hck hse
    rw [hr, List.mem_append, List.mem_singleton] at hi hm
    have hne : isIntent r = false ∧ r.kind ≠ .checkpoint := by
      unfold isOutcome at hk
      unfold isIntent
      cases hkind : r.kind <;> simp_all
    rcases hi with hi | rfl
    · rcases hm with hm | rfl
      · exact hn.apart i hi s hm hki hck hse
      · exact absurd hck hne.2
    · rw [hne.1] at hki
      exact absurd hki (by simp)

inductive Closes (c : Clock) (seq : ℕ) (stored : Bool) : Kind → WalOp F → Prop where
  | commit : Closes c seq stored .commit (.commit c seq stored)
  | rollback (reason : String) :
      Closes c seq stored (.rollback reason) (.rollback c seq reason stored)

variable (h : History F)

/-- Such a call leaves no record, though a refused commit marks its entry, or it
records the outcome of a pending intent, which is then no longer pending. -/
theorem outcome_cases {c : Clock} {seq : ℕ} {stored : Bool} {kind : Kind}
    {op : WalOp F} (hop : Closes c seq stored kind op) :
    (written h op = [] ∧
      (writerStep h.writer op).journal.entries = h.writer.journal.entries ∧
      (writerStep h.writer op).walSequence = h.writer.walSequence ∧
      ∀ P : ℕ → WalEntry F → Prop, (∀ k e, P k e → P k { e with committed := true }) →
        Keyed.All P h.writer.pendingEntries →
        Keyed.All P (writerStep h.writer op).pendingEntries) ∨
    ∃ entry, h.writer.pendingEntries.lookup seq = some entry ∧
      written h op = [⟨h.session, seq, pendingType entry, kind, entry.payloadJson⟩] ∧
      writerStep h.writer op =
        { h.writer with
          journal := append h.writer.journal c.wall (journalTypeFor (pendingType entry))
            (recordText ⟨h.session, seq, pendingType entry, kind, entry.payloadJson⟩)
            entry.correlationId entry.strategyId true
          pendingEntries := h.writer.pendingEntries.erase seq } := by
  rcases hl : h.writer.pendingEntries.lookup seq with _ | entry
  · left
    cases hop <;>
      exact ⟨by simp [written, outcomeRecord, hl], by simp [writerStep, commit, rollback, hl],
        by simp [writerStep, commit, rollback, hl],
        fun P _ hp => by simpa [writerStep, commit, rollback, hl] using hp⟩
  cases stored with
  | true =>
    right
    refine ⟨entry, rfl, ?_, ?_⟩ <;> cases hop <;>
      simp [written, outcomeRecord, writerStep, commit, rollback, recordText, hl]
  | false =>
    left
    cases hop with
    | commit =>
      refine ⟨by simp [written, outcomeRecord, hl],
        by simp [writerStep, WalWriter.commit, hl, append_refused],
        by simp [writerStep, WalWriter.commit, hl], ?_⟩
      intro P hm hp
      simp only [writerStep, WalWriter.commit, hl]
      exact Keyed.all_insert _ _ _ _ hp (hm _ _ (hp seq entry hl))
    | rollback reason =>
      refine ⟨by simp [written, outcomeRecord, hl],
        by simp [writerStep, WalWriter.rollback, hl, append_refused],
        by simp [writerStep, WalWriter.rollback, hl], ?_⟩
      intro P _ hp
      simpa [writerStep, WalWriter.rollback, hl] using hp

theorem session_outcome {c : Clock} {seq : ℕ} {stored : Bool} {kind : Kind}
    {op : WalOp F} (hop : Closes c seq stored kind op) : (historyStep h op).session = h.session := by
  cases hop <;> rfl

theorem outcome_numbered (hn : Numbered h) {c : Clock} {seq : ℕ} {stored : Bool}
    {kind : Kind} {op : WalOp F} (hop : Closes c seq stored kind op) :
    Numbered (historyStep h op) := by
  have hs := session_outcome h hop
  rcases outcome_cases h hop with ⟨hr, -, hc, hp⟩ | ⟨entry, hl, hr, hw⟩
  · apply numbered_kept h _ hn _ hs hc (hp _ (fun _ _ hk => hk) hn.pending)
    exact (congrArg (h.records ++ ·) hr).trans (List.append_nil _)
  · apply numbered_outcome h _ hn _ (congrArg (h.records ++ ·) hr) hs
      (congrArg Writer.walSequence hw :) rfl (hn.pending seq entry hl)
    · cases hop <;> rfl
    · show Keyed.All _ (writerStep h.writer op).pendingEntries
      rw [hw]
      exact Keyed.all_erase _ _ _ hn.pending

theorem historyStep_numbered (op : WalOp F) (hn : Numbered h) : Numbered (historyStep h op) := by
  have hup : Keyed.All (fun n _ => n ≤ h.writer.walSequence + 1) h.writer.pendingEntries :=
    fun k e hl => Nat.le_succ_of_le (hn.pending k e hl)
  cases op with
  | writeIntent c type payload orderId symbol strategyId correlationId stored =>
    cases stored with
    | false =>
      exact numbered_kept h _ hn (List.append_nil _) rfl rfl hn.pending
    | true =>
      refine numbered_fresh h _ hn ⟨h.session, h.writer.walSequence + 1, type, .intent, payload⟩
        rfl rfl rfl rfl rfl ?_
      exact Keyed.all_insert _ _ _ _ hup (Nat.le_refl _)
  | commit c seq stored => exact outcome_numbered h hn .commit
  | rollback c seq reason stored => exact outcome_numbered h hn (.rollback reason)
  | writeCheckpoint c snapshot stored =>
    cases stored with
    | false => exact numbered_kept h _ hn (List.append_nil _) rfl rfl hn.pending
    | true =>
      exact numbered_fresh h _ hn
        ⟨h.session, h.writer.walSequence + 1, .recoveryCheckpoint, .checkpoint, snapshot⟩ rfl rfl
        rfl rfl rfl hup
  | restart =>
    have hr : (historyStep h .restart).records = h.records := List.append_nil _
    refine ⟨?_, ?_, Keyed.all_empty _, ?_⟩
    · intro r hm
      rw [hr] at hm
      exact Nat.le_succ_of_le (hn.sessions r hm)
    · intro r hm he
      rw [hr] at hm
      have hle := hn.sessions r hm
      have he : r.session = h.session + 1 := he
      omega
    · rw [hr]
      exact hn.apart

theorem history_numbered (ops : List (WalOp F)) : Numbered (history ops) := by
  have h0 : Numbered (firstSession : History F) :=
    ⟨fun r hr => absurd hr List.not_mem_nil, fun r hr => absurd hr List.not_mem_nil,
      Keyed.all_empty _, fun i hi => absurd hi List.not_mem_nil⟩
  exact Runs.invariant_run historyStep (fun h op hn _ => historyStep_numbered h op hn)
    firstSession ops h0 (Runs.meets_true historyStep firstSession ops)

def place (r : Record F) : ℕ × ℕ := (r.session, r.seq)

structure Answers (i r : Record F) : Prop where
  intent : isIntent i = true
  place : place i = place r
  type : i.type = r.type
  data : i.data = r.data

/-- A journal in which every record takes a place of its own or closes an earlier intent
that nothing has closed before. -/
inductive WellKept : List (Record F) → Prop where
  | empty : WellKept []
  | opened {rs : List (Record F)} {r : Record F} (hrs : WellKept rs)
      (hr : isOutcome r = false) (hfresh : ∀ s ∈ rs, place s ≠ place r) : WellKept (rs ++ [r])
  | closed {rs : List (Record F)} {i r : Record F} (hrs : WellKept rs)
      (hr : isOutcome r = true) (hi : i ∈ rs) (ha : Answers i r)
      (honce : ∀ s ∈ rs, isOutcome s = true → place s ≠ place r) : WellKept (rs ++ [r])

def PendingOpen (session : ℕ) (rs : List (Record F)) (seq : ℕ) (entry : WalEntry F) : Prop :=
  (∃ i ∈ rs, ∀ kind, Answers i ⟨session, seq, pendingType entry, kind, entry.payloadJson⟩) ∧
    ∀ s ∈ rs, isOutcome s = true → place s ≠ (session, seq)

structure Kept (h : History F) : Prop where
  texts : h.writer.journal.entries.map JournalEntry.payloadJson = h.records.map recordText
  records : WellKept h.records
  pending : Keyed.All (PendingOpen h.session h.records) h.writer.pendingEntries

theorem pendingOpen_snoc {session seq : ℕ} {rs : List (Record F)} {entry : WalEntry F}
    (r : Record F) (h : PendingOpen session rs seq entry)
    (hr : isOutcome r = true → place r ≠ (session, seq)) :
    PendingOpen session (rs ++ [r]) seq entry := by
  obtain ⟨⟨i, hi, ha⟩, hopen⟩ := h
  refine ⟨⟨i, List.mem_append_left _ hi, ha⟩, fun s hs => ?_⟩
  rcases List.mem_append.mp hs with hs | hs
  · exact hopen s hs
  · rw [List.mem_singleton.mp hs]
    exact hr

theorem next_free {h : History F} (hn : Numbered h) (s : Record F) (hs : s ∈ h.records) :
    place s ≠ (h.session, h.writer.walSequence + 1) := by
  intro he
  have hbelow := hn.below s hs (congrArg Prod.fst he)
  have hseq : s.seq = h.writer.walSequence + 1 := congrArg Prod.snd he
  omega

theorem silent_kept (h : History F) (hk : Kept h) (op : WalOp F) (hw : written h op = [])
    (hj : (writerStep h.writer op).journal.entries = h.writer.journal.entries)
    (hpending : Keyed.All (PendingOpen (historyStep h op).session h.records)
      (writerStep h.writer op).pendingEntries) : Kept (historyStep h op) := by
  have hrs : (historyStep h op).records = h.records :=
    (congrArg (h.records ++ ·) hw).trans (List.append_nil _)
  refine ⟨?_, ?_, ?_⟩
  · rw [hrs, ← hk.texts]
    exact congrArg (List.map _) hj
  · rw [hrs]
    exact hk.records
  · rw [hrs]
    exact hpending

theorem opened_kept (h : History F) (hn : Numbered h) (hk : Kept h) (op : WalOp F) (r : Record F)
    (hs : (historyStep h op).session = h.session) (hw : written h op = [r])
    (hj : (writerStep h.writer op).journal.entries.map JournalEntry.payloadJson =
      h.writer.journal.entries.map JournalEntry.payloadJson ++ [recordText r])
    (hr : isOutcome r = false) (hp : place r = (h.session, h.writer.walSequence + 1))
    (hpending : Keyed.All (PendingOpen h.session (h.records ++ [r]))
      (writerStep h.writer op).pendingEntries) : Kept (historyStep h op) := by
  have hrs : (historyStep h op).records = h.records ++ [r] := congrArg (h.records ++ ·) hw
  refine ⟨?_, ?_, ?_⟩
  · rw [hrs, List.map_append, ← hk.texts]
    exact hj
  · rw [hrs]
    exact .opened hk.records hr fun s hin => hp ▸ next_free hn s hin
  · rw [hs, hrs]
    exact hpending

theorem outcome_kept (h : History F) (hk : Kept h) {c : Clock} {seq : ℕ}
    {stored : Bool} {kind : Kind} {op : WalOp F} (hop : Closes c seq stored kind op) :
    Kept (historyStep h op) := by
  have hs := session_outcome h hop
  rcases outcome_cases h hop with ⟨hr, hj, -, hp⟩ | ⟨entry, hl, hr, hw⟩
  · exact silent_kept h hk op hr hj (hs ▸ hp _ (fun _ _ hopen => hopen) hk.pending)
  · have hrs : (historyStep h op).records = h.records ++
        [⟨h.session, seq, pendingType entry, kind, entry.payloadJson⟩] :=
      congrArg (h.records ++ ·) hr
    obtain ⟨⟨i, hi, ha⟩, hopen⟩ := hk.pending seq entry hl
    refine ⟨?_, ?_, ?_⟩
    · show (writerStep h.writer op).journal.entries.map _ = _
      rw [hw, hrs, append_stored, List.map_append, List.map_append, hk.texts]
      rfl
    · rw [hrs]
      exact .closed hk.records (by cases hop <;> rfl) hi (ha kind) hopen
    · rw [hs, hrs]
      show Keyed.All _ (writerStep h.writer op).pendingEntries
      rw [hw]
      intro k e hke
      by_cases heq : k = seq
      · rw [heq, AList.lookup_erase] at hke
        exact absurd hke (by simp)
      · rw [AList.lookup_erase_ne heq] at hke
        refine pendingOpen_snoc _ (hk.pending k e hke) fun _ he => heq ?_
        exact (congrArg Prod.snd he).symm

theorem historyStep_kept (h : History F) (op : WalOp F) (hn : Numbered h) (hk : Kept h) :
    Kept (historyStep h op) := by
  have hold : ∀ r : Record F, isOutcome r = false →
      Keyed.All (PendingOpen h.session (h.records ++ [r])) h.writer.pendingEntries :=
    fun r hr k e hke => pendingOpen_snoc r (hk.pending k e hke) fun ho => absurd ho (by simp [hr])
  cases op with
  | writeIntent c type payload orderId symbol strategyId correlationId stored =>
    cases stored with
    | false => exact silent_kept h hk _ rfl rfl hk.pending
    | true =>
      let r : Record F := ⟨h.session, h.writer.walSequence + 1, type, .intent, payload⟩
      apply opened_kept h hn hk _ r rfl rfl List.map_append rfl rfl
      apply Keyed.all_insert _ _ _ _ (hold r rfl)
      refine ⟨⟨r, List.mem_append_right _ (List.mem_singleton.mpr rfl), fun kind =>
        ⟨rfl, rfl, rfl, rfl⟩⟩, fun s hs ho => ?_⟩
      rcases List.mem_append.mp hs with hs | hs
      · exact next_free hn s hs
      · rw [List.mem_singleton.mp hs] at ho
        exact absurd ho (by simp [r, isOutcome])
  | commit c seq stored => exact outcome_kept h hk .commit
  | rollback c seq reason stored => exact outcome_kept h hk (.rollback reason)
  | writeCheckpoint c snapshot stored =>
    cases stored with
    | false => exact silent_kept h hk _ rfl rfl hk.pending
    | true =>
      exact opened_kept h hn hk _
        ⟨h.session, h.writer.walSequence + 1, .recoveryCheckpoint, .checkpoint, snapshot⟩ rfl rfl
        List.map_append rfl rfl (hold _ rfl)
  | restart => exact silent_kept h hk _ rfl rfl (Keyed.all_empty _)

/-- Whatever the calls, the refusals of the storage and the restarts, the journal holds the
texts of records of which each takes a new number of its session or is the first outcome of
an earlier intent of its session, with the type and the data of that intent. -/
theorem history_wellKept (ops : List (WalOp F)) :
    (history ops).writer.journal.entries.map JournalEntry.payloadJson =
      (history ops).records.map recordText ∧ WellKept (history ops).records := by
  have hstart : Numbered (firstSession : History F) ∧ Kept (firstSession : History F) :=
    ⟨history_numbered [], rfl, .empty, Keyed.all_empty _⟩
  obtain ⟨-, h⟩ := Runs.invariant_run historyStep (I := fun h => Numbered h ∧ Kept h)
    (fun h op hi _ => ⟨historyStep_numbered h op hi.1, historyStep_kept h op hi.1 hi.2⟩)
    firstSession ops hstart (Runs.meets_true historyStep firstSession ops)
  exact ⟨h.texts, h.records⟩

section Recovery
variable [OfScientific F] [Neg F]

def WellFormedOp : WalOp F → Prop
  | .writeIntent c _ payload _ _ _ _ _ =>
      (∃ ms, parse payload = some (.object ms)) ∧ Epoch c.wall
  | .commit c _ _ => Epoch c.wall
  | .rollback c _ reason _ => Contained F reason ∧ Epoch c.wall
  | .writeCheckpoint c snapshot _ =>
      (∃ ms, parse snapshot = some (.object ms)) ∧ Epoch c.wall
  | .restart => True

/-- The next session's search reports the intents of the whole history that
have no commit and no rollback record of their own, in the order written. -/
def RecoveryExact (h : History F) (answered : Bool) : Prop :=
  findUncommitted (nextSession h.writer) answered =
    .ok ((unresolved h.records).map report)

def closedSeqs (rs : List (Record F)) : List ℕ :=
  (rs.filter (fun r => !isIntent r)).map Record.seq

def isOpen (resolved : List ℕ) (i : Record F) : Bool :=
  isIntent i && !resolved.contains i.seq

def visible (rs : List (Record F)) : List (Record F) := rs.filter (isOpen (closedSeqs rs))

def Unambiguous (rs : List (Record F)) : Prop :=
  (∀ r ∈ rs, readable r = true) ∧ (∀ i ∈ unresolved rs, (names i).isSome) ∧
    ∀ i ∈ unresolved rs, ∀ r ∈ rs, isIntent r = false → r.seq ≠ i.seq

def PendingFormed (w : Writer F) : Prop :=
  Keyed.All (fun _ e => ∃ ms, parse e.payloadJson = some (.object ms)) w.pendingEntries

structure Recorded (h : History F) : Prop where
  texts : h.writer.journal.entries.map JournalEntry.payloadJson = h.records.map recordText
  times : ∀ e ∈ h.writer.journal.entries, Epoch e.timestamp
  formed : ∀ r ∈ h.records, WellFormed r
  pending : PendingFormed h.writer

theorem firstSession_recorded : Recorded (firstSession : History F) where
  texts := rfl
  times := by
    intro e he
    exact absurd he List.not_mem_nil
  formed := by
    intro r hr
    exact absurd hr List.not_mem_nil
  pending := Keyed.all_empty _

theorem recorded_kept (h : History F) (hi : Recorded h) (op : WalOp F) (hw : written h op = [])
    (hj : (writerStep h.writer op).journal.entries = h.writer.journal.entries)
    (hp : PendingFormed (writerStep h.writer op)) : Recorded (historyStep h op) where
  texts := by
    show (writerStep h.writer op).journal.entries.map JournalEntry.payloadJson =
      (h.records ++ written h op).map recordText
    rw [hj, hw, List.append_nil, hi.texts]
  times := by
    show ∀ e ∈ (writerStep h.writer op).journal.entries, Epoch e.timestamp
    rw [hj]
    exact hi.times
  formed := by
    show ∀ r ∈ h.records ++ written h op, WellFormed r
    rw [hw, List.append_nil]
    exact hi.formed
  pending := hp

theorem recorded_stored (h : History F) (hi : Recorded h) (op : WalOp F) (r : Record F)
    (wall : Timestamp) (type : JournalEntryType) (corr : CorrelationId) (strategy : StrategyId)
    (hw : written h op = [r])
    (hj : (writerStep h.writer op).journal =
      append h.writer.journal wall type (recordText r) corr strategy true)
    (hwall : Epoch wall) (hr : WellFormed r) (hp : PendingFormed (writerStep h.writer op)) :
    Recorded (historyStep h op) where
  texts := by
    show (writerStep h.writer op).journal.entries.map JournalEntry.payloadJson =
      (h.records ++ written h op).map recordText
    rw [hj, hw, append_stored, List.map_append, hi.texts, List.map_append]
    rfl
  times := by
    show ∀ e ∈ (writerStep h.writer op).journal.entries, Epoch e.timestamp
    rw [hj, append_stored]
    intro e he
    rcases List.mem_append.mp he with he | he
    · exact hi.times e he
    · rw [List.mem_singleton] at he
      subst he
      exact hwall
  formed := by
    show ∀ s ∈ h.records ++ written h op, WellFormed s
    rw [hw]
    intro s hs
    rcases List.mem_append.mp hs with hs | hs
    · exact hi.formed s hs
    · rw [List.mem_singleton] at hs
      subst hs
      exact hr
  pending := hp

theorem outcome_recorded (h : History F) (hi : Recorded h) {c : Clock} {seq : ℕ} {stored : Bool}
    {kind : Kind} {op : WalOp F} (hop : Closes c seq stored kind op) (hw : WellFormedOp op) :
    Recorded (historyStep h op) := by
  rcases outcome_cases h hop with ⟨hr, hj, -, hp⟩ | ⟨entry, hl, hr, hs⟩
  · exact recorded_kept h hi op hr hj (hp _ (fun _ _ he => he) hi.pending)
  · have hp := hi.pending seq entry hl
    apply recorded_stored h hi op _ c.wall (journalTypeFor (pendingType entry))
      entry.correlationId entry.strategyId hr
    · rw [hs]
    · cases hop with
      | commit => exact hw
      | rollback reason => exact hw.2
    · cases hop with
      | commit => exact hp
      | rollback reason => exact hw.1
    · rw [hs]
      exact Keyed.all_erase _ _ _ hi.pending

theorem historyStep_recorded (h : History F) (op : WalOp F) (hi : Recorded h)
    (hw : WellFormedOp op) : Recorded (historyStep h op) := by
  cases op with
  | writeIntent c type payload orderId symbol strategyId correlationId stored =>
    obtain ⟨hp, hc⟩ := hw
    cases stored with
    | false => exact recorded_kept h hi _ rfl rfl hi.pending
    | true =>
      apply recorded_stored h hi _ ⟨h.session, h.writer.walSequence + 1, type, .intent, payload⟩
        c.wall (journalTypeFor type) correlationId strategyId rfl rfl hc hp
      exact Keyed.all_insert _ _ _ _ hi.pending hp
  | commit c seq stored => exact outcome_recorded h hi .commit hw
  | rollback c seq reason stored => exact outcome_recorded h hi (.rollback reason) hw
  | writeCheckpoint c snapshot stored =>
    obtain ⟨hp, hc⟩ := hw
    cases stored with
    | false => exact recorded_kept h hi _ rfl rfl hi.pending
    | true =>
      exact recorded_stored h hi _
        ⟨h.session, h.writer.walSequence + 1, .recoveryCheckpoint, .checkpoint, snapshot⟩
        c.wall .systemEvent "" "" rfl rfl hc hp hi.pending
  | restart => exact recorded_kept h hi _ rfl rfl (Keyed.all_empty _)

theorem history_recorded (ops : List (WalOp F)) (hw : ∀ op ∈ ops, WellFormedOp op) :
    Recorded (history ops) :=
  Runs.invariant_run historyStep historyStep_recorded firstSession ops firstSession_recorded
    (Runs.meets_of_forall historyStep _ firstSession ops (fun op ho _ => hw op ho))

omit [OfScientific F] [Neg F] in
theorem query_all (j : Journal F) (h : ∀ e ∈ j.entries, Epoch e.timestamp) :
    query j 0 (2 ^ 63 - 1) none true = .ok j.entries := by
  have hf : j.entries.filter (fun e => decide (0 ≤ e.timestamp) &&
      decide (e.timestamp ≤ 2 ^ 63 - 1) && (none : Option JournalEntryType).all
        (fun t => e.type = t)) = j.entries := by
    rw [List.filter_eq_self]
    intro e he
    obtain ⟨h0, h1⟩ := h e he
    rw [decide_eq_true h0, decide_eq_true h1]
    rfl
  rw [query, if_pos rfl, hf]

variable (rs : List (Record F))

theorem scan_resolved (hw : ∀ r ∈ rs, WellFormed r) (hr : ∀ r ∈ rs, readable r = true) :
    (rs.map recordText).filterMap (fun p => (resolvedSeq p).join) = closedSeqs rs := by
  induction rs with
  | nil => rfl
  | cons r rs ih =>
    have ih := ih (fun s hs => hw s (List.mem_cons_of_mem r hs))
      (fun s hs => hr s (List.mem_cons_of_mem r hs))
    rw [List.map_cons, List.filterMap_cons, ih, resolvedSeq_record r (hw r List.mem_cons_self),
      if_pos (hr r List.mem_cons_self)]
    by_cases hk : isIntent r = true
    · simp [closedSeqs, hk]
    · simp [closedSeqs, hk]

theorem scan_corrupted (hw : ∀ r ∈ rs, WellFormed r) :
    (rs.map recordText).any (fun p => (resolvedSeq p).isNone) =
      !rs.all readable := by
  induction rs with
  | nil => rfl
  | cons r rs ih =>
    have ih := ih (fun s hs => hw s (List.mem_cons_of_mem r hs))
    rw [List.map_cons, List.any_cons, ih, resolvedSeq_record r (hw r List.mem_cons_self),
      List.all_cons]
    by_cases hr : readable r = true
    · simp [hr]
    · simp [hr]

theorem scan_open (resolved : List ℕ) (rs : List (Record F)) (hw : ∀ r ∈ rs, WellFormed r)
    (hr : ∀ r ∈ rs, readable r = true) :
    (((rs.map recordText).map (openIntent resolved)).any Option.isNone =
      !(rs.filter (isOpen resolved)).all (fun i => (names i).isSome)) ∧
    ((rs.filter (isOpen resolved)).all (fun i => (names i).isSome) = true →
      ((rs.map recordText).map (openIntent resolved)).filterMap Option.join =
        (rs.filter (isOpen resolved)).map report) := by
  induction rs with
  | nil => exact ⟨rfl, fun _ => rfl⟩
  | cons r rs ih =>
    obtain ⟨ih1, ih2⟩ := ih (fun s hs => hw s (List.mem_cons_of_mem r hs))
      (fun s hs => hr s (List.mem_cons_of_mem r hs))
    have ho := openIntent_record resolved r (hw r List.mem_cons_self) (hr r List.mem_cons_self)
    rw [List.map_cons, List.map_cons, List.any_cons, ih1, ho]
    by_cases hs : isOpen resolved r = true
    · have hs' : (isIntent r && !resolved.contains r.seq) = true := hs
      rw [if_pos hs', List.filter_cons_of_pos hs, List.all_cons]
      cases hn : names r with
      | none => exact ⟨by simp, by simp⟩
      | some n =>
        refine ⟨by simp, fun h => ?_⟩
        have ih2 := ih2 (by simpa using h)
        rw [Option.map_some, List.filterMap_cons, ih2]
        rfl
    · have hs' : ¬ (isIntent r && !resolved.contains r.seq) = true := hs
      rw [if_neg hs', List.filter_cons_of_neg hs]
      refine ⟨by simp, fun h => ?_⟩
      rw [List.filterMap_cons, ih2 h]
      rfl

theorem findUncommitted_next (h : History F) (hi : Recorded h) :
    findUncommitted (nextSession h.writer) true =
      if h.records.all readable && (visible h.records).all (fun i => (names i).isSome) then
        .ok ((visible h.records).map report)
      else .error .persistenceError := by
  have hq : query (nextSession h.writer).journal 0 (2 ^ 63 - 1) none true =
      .ok h.writer.journal.entries := query_all (nextSession h.writer).journal hi.times
  have hp : (nextSession h.writer).pendingEntries.entries = [] := rfl
  simp only [findUncommitted, hp, List.map_nil, List.filter_nil, List.isEmpty_nil, Bool.not_true,
    Bool.false_eq_true, if_false, hq, hi.texts, scan_corrupted h.records hi.formed]
  by_cases ha : h.records.all readable = true
  · have hr := List.all_eq_true.mp ha
    obtain ⟨h1, h2⟩ := scan_open (closedSeqs h.records) h.records hi.formed hr
    rw [scan_resolved h.records hi.formed hr, ha, h1]
    by_cases hn : (visible h.records).all (fun i => (names i).isSome) = true
    · have hn' : (h.records.filter (isOpen (closedSeqs h.records))).all
          (fun i => (names i).isSome) = true := hn
      rw [h2 hn', hn, hn']
      rfl
    · have hn' : ¬ (h.records.filter (isOpen (closedSeqs h.records))).all
          (fun i => (names i).isSome) = true := hn
      rw [Bool.not_eq_true] at hn hn'
      rw [hn, hn']
      rfl
  · rw [Bool.not_eq_true] at ha
    rw [ha]
    rfl

omit [OfScientific F] [Neg F] in
/-- What a record of any session leaves open, no outcome of its own closed. -/
theorem isOpen_unsettled (i : Record F)
    (ho : isOpen (closedSeqs rs) i = true) : (isIntent i && !settled rs i) = true := by
  rw [isOpen, Bool.and_eq_true, Bool.not_eq_true', List.contains_eq_mem, decide_eq_false_iff_not]
    at ho
  obtain ⟨hi, hn⟩ := ho
  rw [Bool.and_eq_true, Bool.not_eq_true']
  refine ⟨hi, ?_⟩
  rw [settled, List.any_eq_false]
  intro r hr hs
  simp only [Bool.and_eq_true, decide_eq_true_eq] at hs
  apply hn
  rw [closedSeqs, List.mem_map]
  refine ⟨r, List.mem_filter.mpr ⟨hr, ?_⟩, hs.2⟩
  have hk := hs.1.1
  unfold isOutcome at hk
  simp only [isIntent, Bool.not_eq_true', decide_eq_false_iff_not]
  intro he
  rw [he] at hk
  exact absurd hk (by simp)

omit [OfScientific F] [Neg F] in
theorem isOpen_iff (i : Record F) (hi : isIntent i = true) :
    isOpen (closedSeqs rs) i = true ↔ ∀ r ∈ rs, isIntent r = false → r.seq ≠ i.seq := by
  rw [isOpen, hi, Bool.true_and, Bool.not_eq_true', List.contains_eq_mem,
    decide_eq_false_iff_not, closedSeqs, List.mem_map]
  constructor
  · intro h r hr hk he
    exact h ⟨r, List.mem_filter.mpr ⟨hr, by rw [hk]; rfl⟩, he⟩
  · rintro h ⟨r, hr, he⟩
    rw [List.mem_filter, Bool.not_eq_true'] at hr
    exact h r hr.1 hr.2 he

/-- Two filters, one within the other, keep the same images only if they keep
the same elements. -/
theorem filter_map_eq {α β : Type} (f : α → β) (p q : α → Bool) (l : List α)
    (hpq : ∀ x ∈ l, p x = true → q x = true)
    (h : (l.filter p).map f = (l.filter q).map f) : l.filter p = l.filter q := by
  have hs : List.Sublist (l.filter p) (l.filter q) := by
    have hf : l.filter p = (l.filter q).filter p := by
      rw [List.filter_filter]
      apply List.filter_congr
      intro x hx
      cases hp : p x
      · rfl
      · rw [hpq x hx hp]
        rfl
    rw [hf]
    exact List.filter_sublist
  have hl := congrArg List.length h
  rw [List.length_map, List.length_map] at hl
  exact hs.eq_of_length hl

def Recoverable (rs : List (Record F)) (answered : Bool) : Prop :=
  if answered then Unambiguous rs else unresolved rs = []

/-- After any history of well-formed calls and restarts the search of the next
session reports exactly the open intents if and only if every record reads
back, the names in their data are texts and no commit, rollback or checkpoint
in the journal carries the number of an open intent. A storage that does not
answer makes it report none. -/
theorem recovery_exact_iff (ops : List (WalOp F)) (answered : Bool)
    (hw : ∀ op ∈ ops, WellFormedOp op) :
    RecoveryExact (history ops) answered ↔ Recoverable (history ops).records answered := by
  have hi := history_recorded ops hw
  generalize history ops = h at hi ⊢
  unfold RecoveryExact Recoverable
  cases answered with
  | false =>
    have hf : findUncommitted (nextSession h.writer) false = .ok [] := rfl
    rw [hf, Except.ok.injEq]
    simp only [Bool.false_eq_true, if_false]
    exact ⟨fun h => List.map_eq_nil_iff.mp h.symm, fun h => by rw [h]; rfl⟩
  | true =>
    rw [findUncommitted_next h hi, if_pos rfl]
    have hsub : ∀ i ∈ h.records, isOpen (closedSeqs h.records) i = true →
        (isIntent i && !settled h.records i) = true :=
      fun i _ ho => isOpen_unsettled h.records i ho
    constructor
    · intro he
      split_ifs at he with hc
      rw [Bool.and_eq_true, List.all_eq_true, List.all_eq_true] at hc
      rw [Except.ok.injEq] at he
      have hv : visible h.records = unresolved h.records :=
        filter_map_eq report _ _ h.records hsub he
      refine ⟨hc.1, ?_, ?_⟩
      · rw [← hv]
        exact hc.2
      · intro i hiu
        rw [← hv] at hiu
        obtain ⟨hm, ho⟩ := List.mem_filter.mp hiu
        exact (isOpen_iff h.records i (Bool.and_eq_true _ _ ▸ hsub i hm ho).1).mp ho
    · rintro ⟨hr, hn, hu⟩
      have hv : visible h.records = unresolved h.records := by
        apply List.filter_congr
        intro i hm
        rw [Bool.eq_iff_iff]
        refine ⟨hsub i hm, fun hs => ?_⟩
        have hk := (Bool.and_eq_true _ _ ▸ hs).1
        exact (isOpen_iff h.records i hk).mpr (hu i (List.mem_filter.mpr ⟨hm, hs⟩))
      rw [hv, if_pos]
      rw [Bool.and_eq_true, List.all_eq_true, List.all_eq_true]
      exact ⟨hr, hn⟩

/-- Nothing that its own session has closed comes back: a search that ends reports some of
the open intents, each once and in the order written. -/
theorem recovery_sound (ops : List (WalOp F)) (answered : Bool) (entries : List (WalEntry F))
    (hw : ∀ op ∈ ops, WellFormedOp op)
    (h : findUncommitted (nextSession (history ops).writer) answered = .ok entries) :
    entries.Sublist ((unresolved (history ops).records).map report) := by
  cases answered with
  | false =>
    obtain rfl : [] = entries := Except.ok.inj h
    exact List.nil_sublist _
  | true =>
    rw [findUncommitted_next _ (history_recorded ops hw)] at h
    split_ifs at h
    rw [← Except.ok.inj h]
    exact (List.monotone_filter_right _ (isOpen_unsettled (history ops).records)).map report

end Recovery

section Restarted

def morning : Clock := ⟨1, 1, 1⟩

def orderPayload : Text ℚ := text "\x7b\"symbol\":\"BTCUSDT\"\x7d"

def orderIntent (id : OrderId) : WalOp ℚ :=
  .writeIntent morning .orderIntent orderPayload id "BTCUSDT" "scalp" "" true

def restarted : List (WalOp ℚ) :=
  [orderIntent "A", .restart, orderIntent "B", .commit morning 1 true]

theorem restarted_wellFormed : ∀ op ∈ restarted, WellFormedOp op := by
  have he : Epoch morning.wall := ⟨by decide, by decide⟩
  have hp : ∃ ms, parse orderPayload = some (.object ms) :=
    object_of_isSome orderPayload (by decide +kernel)
  intro op ho
  simp only [restarted, List.mem_cons, List.not_mem_nil, or_false] at ho
  rcases ho with rfl | rfl | rfl | rfl
  · exact ⟨hp, he⟩
  · trivial
  · exact ⟨hp, he⟩
  · exact he

theorem restart_hides_intent :
    ¬ ∀ ops : List (WalOp ℚ), (∀ op ∈ ops, WellFormedOp op) → RecoveryExact (history ops) true := by
  intro h
  have hr := h restarted restarted_wellFormed
  have hv : visible (history restarted).records = [] := by decide +kernel
  have hu : (unresolved (history restarted).records).length = 1 := by decide +kernel
  rw [RecoveryExact, findUncommitted_next _ (history_recorded restarted restarted_wellFormed), hv]
    at hr
  split_ifs at hr
  rw [Except.ok.injEq] at hr
  have hl := congrArg List.length hr
  rw [List.length_map, List.length_map, hu] at hl
  exact absurd hl (by decide)

theorem recovery_exact_iff_restarted :
    RecoveryExact (history restarted) true ↔ Recoverable (history restarted).records true :=
  recovery_exact_iff restarted true restarted_wellFormed

/-- After the crash alone the search reports the intent. -/
theorem recovery_sound_crashed :
    ((visible (history (restarted.take 2)).records).map report).length = 1 ∧
      ((visible (history (restarted.take 2)).records).map report).Sublist
        ((unresolved (history (restarted.take 2)).records).map report) :=
  have hw : ∀ op ∈ restarted.take 2, WellFormedOp op :=
    fun op h => restarted_wellFormed op (List.mem_of_mem_take h)
  ⟨by decide +kernel, recovery_sound (restarted.take 2) true _ hw
    ((findUncommitted_next _ (history_recorded _ hw)).trans (if_pos (by decide +kernel)))⟩

end Restarted

end TB.WalHistory
