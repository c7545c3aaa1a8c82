import TomorrowBot.WalOutcomes

/-!
# Reading the log back

The journal of a history holds the texts of its records. A record reads back
if the reader finds its sequence number in it. With payloads that are objects
and reasons that stay inside their literal, each does unless its number leaves
the signed range or its data is nested too deeply. The search of the next
session stops at the first sign of a record it cannot read; otherwise it
reports every intent whose number no other record closed.
-/

set_option autoImplicit false

namespace TB.WalReadback
open TB.CommonTypes TB.EventJournal TB.WalWriter TB.WalRecords TB.WalHistory TB.WalOutcomes JsonText

variable {F : Type} [OfScientific F] [Neg F]

def ObjectOp : WalOp F → Prop
  | .rollback c _ _ _ => Epoch c.wall
  | op => WellFormedOp op

def EscapedOp : WalOp F → Prop
  | .rollback c _ reason _ => literal F reason = true ∧ Epoch c.wall
  | op => WellFormedOp op

theorem EscapedOp.wellFormed (op : WalOp F) (h : EscapedOp op) : WellFormedOp op := by
  cases op with
  | writeIntent c type payload orderId symbol strategyId correlationId stored => exact h
  | commit c seq stored => exact h
  | rollback c seq reason stored => exact ⟨.inl h.1, h.2⟩
  | writeCheckpoint c snapshot stored => exact h
  | restart => trivial

def ReadsBack (r : Record F) : Prop :=
  ∃ obj, parse (recordText r) = some (.object obj) ∧
    ∃ v, find obj "wal_seq" = some v ∧ ∃ n, v.asInt64 = some n ∧ toUnsigned n = r.seq

def Fits (r : Record F) : Prop :=
  Signed r.seq ∧
    match r.kind with
    | .rollback _ => True
    | _ => (Value.object (dataMembers r.data)).depth < maxDepth

def Escaped (r : Record F) : Prop :=
  match r.kind with
  | .rollback reason => literal F reason = true
  | _ => True

variable (r : Record F)

theorem readable_iff (he : Escaped r) : readable r = true ↔ Fits r := by
  obtain ⟨session, seq, type, kind, data⟩ := r
  cases kind with
  | rollback reason =>
    have he : literal F reason = true := he
    simp [readable, Fits, he]
  | intent | commit | checkpoint => simp [readable, Fits]

theorem readsBack_object (obj : Members F) (hp : parse (recordText r) = some (.object obj))
    (hs : find obj "wal_seq" = some (natValue r.seq)) : ReadsBack r ↔ Signed r.seq := by
  constructor
  · rintro ⟨obj', hp', v, hv, n, hn, -⟩
    rw [hp, Option.some.injEq, Value.object.injEq] at hp'
    subst hp'
    rw [hs, Option.some.injEq] at hv
    rw [← hv, natValue_asInt64] at hn
    by_contra hb
    rw [if_neg hb] at hn
    exact absurd hn (by simp)
  · intro hb
    refine ⟨obj, hp, _, hs, r.seq, ?_, toUnsigned_nat r.seq hb⟩
    rw [natValue_asInt64, if_pos hb]

theorem not_readsBack (hp : parse (recordText r) = none) : ¬ ReadsBack r := by
  rintro ⟨obj, hp', -⟩
  rw [hp] at hp'
  exact absurd hp' (by simp)

theorem readsBack_wrap (committed : Bool) (ms : Members F)
    (ht : recordText r = wrapWalJson r.seq r.type committed r.data)
    (hm : parse r.data = some (.object ms)) :
    ReadsBack r ↔ Signed r.seq ∧ (Value.object (dataMembers r.data)).depth < maxDepth := by
  have hd : dataMembers r.data = ms := by simp [dataMembers, hm, Value.asObject]
  have hp := parse_wrap r.seq r.type committed r.data ms hm
  rw [← ht] at hp
  rw [hd]
  by_cases hb : (Value.object ms).depth < maxDepth
  · rw [if_pos hb] at hp
    rw [readsBack_object r _ hp (envelope_seq ..), and_iff_left hb]
  · rw [if_neg hb] at hp
    exact iff_of_false (not_readsBack r hp) (fun h => hb h.2)

theorem readsBack_iff (hw : WellFormed r) (he : Escaped r) : ReadsBack r ↔ Fits r := by
  obtain ⟨session, seq, type, kind, data⟩ := r
  cases kind with
  | rollback reason =>
    obtain ⟨s, hp⟩ := parse_rollback (F := F) seq type reason he
    rw [readsBack_object ⟨session, seq, type, .rollback reason, data⟩ _ hp (rollback_seq ..)]
    simp [Fits]
  | intent =>
    obtain ⟨ms, hm⟩ := hw
    exact readsBack_wrap ⟨session, seq, type, .intent, data⟩ false ms rfl hm
  | commit =>
    obtain ⟨ms, hm⟩ := hw
    exact readsBack_wrap ⟨session, seq, type, .commit, data⟩ true ms rfl hm
  | checkpoint =>
    obtain ⟨ms, hm⟩ := hw
    exact readsBack_wrap ⟨session, seq, type, .checkpoint, data⟩ true ms rfl hm

variable (h : History F)

omit [OfScientific F] [Neg F] in
theorem outcomeRecord_escaped (seq : ℕ) (kind : Kind) (stored : Bool)
    (hk : ∀ reason, kind = .rollback reason → literal F reason = true) :
    ∀ r ∈ outcomeRecord h seq kind stored, Escaped r := by
  intro r hr
  unfold outcomeRecord at hr
  cases hl : h.writer.pendingEntries.lookup seq with
  | none => simp [hl] at hr
  | some entry =>
    cases stored with
    | false => simp [hl] at hr
    | true =>
      have hr : r = ⟨h.session, seq, pendingType entry, kind, entry.payloadJson⟩ := by
        simpa [hl] using hr
      subst hr
      cases kind with
      | rollback reason => exact hk reason rfl
      | intent => trivial
      | commit => trivial
      | checkpoint => trivial

theorem written_escaped (op : WalOp F) (ho : EscapedOp op) : ∀ r ∈ written h op, Escaped r := by
  cases op with
  | writeIntent c type payload orderId symbol strategyId correlationId stored =>
    intro r hr
    cases stored with
    | false => exact absurd hr List.not_mem_nil
    | true =>
      rw [List.mem_singleton.mp hr]
      trivial
  | commit c seq stored =>
    apply outcomeRecord_escaped
    intro reason he
    exact absurd he (by simp)
  | rollback c seq reason stored =>
    apply outcomeRecord_escaped
    intro reason' he
    rw [Kind.rollback.injEq] at he
    exact he ▸ ho.1
  | writeCheckpoint c snapshot stored =>
    intro r hr
    cases stored with
    | false => exact absurd hr List.not_mem_nil
    | true =>
      rw [List.mem_singleton.mp hr]
      trivial
  | restart =>
    intro r hr
    exact absurd hr List.not_mem_nil

theorem history_escaped (ops : List (WalOp F)) (ho : ∀ op ∈ ops, EscapedOp op) :
    ∀ r ∈ (history ops).records, Escaped r := by
  refine Runs.invariant_run (I := fun h : History F => ∀ r ∈ h.records, Escaped r) historyStep
    (C := fun _ op => EscapedOp op) ?_ firstSession ops ?_ ?_
  · intro h op hi hop r hr
    rcases List.mem_append.mp hr with hr | hr
    · exact hi r hr
    · exact written_escaped h op hop r hr
  · intro r hr
    exact absurd hr List.not_mem_nil
  · exact Runs.meets_of_forall historyStep _ firstSession ops (fun op hm _ => ho op hm)

structure ReadBack (h : History F) : Prop where
  texts : h.writer.journal.entries.map JournalEntry.payloadJson = h.records.map recordText
  numbers : ∀ r ∈ h.records, ReadsBack r ↔ Fits r
  found : (∀ r ∈ h.records, Fits r) → (∀ i ∈ visible h.records, (names i).isSome = true) →
    findUncommitted (nextSession h.writer) true = .ok ((visible h.records).map report)
  stopped : (∃ r ∈ h.records, ¬ Fits r) ∨ (∃ i ∈ visible h.records, names i = none) →
    findUncommitted (nextSession h.writer) true = .error .persistenceError

/-- Over a journal with a record that cannot be read, the search reports the
open entries it has in memory; without any it fails. -/
def StopsAt (w : Writer F) : Prop :=
  ¬ Intact w.journal → findUncommitted w true =
    if openEntries w = [] then .error .persistenceError else .ok (openEntries w)

theorem stopsAt (w : Writer F) : StopsAt w := by
  intro hi
  rw [findUncommitted_eq, findUncommitted_broken w hi]

theorem readBack_of_recorded (hi : Recorded h) (he : ∀ r ∈ h.records, Escaped r) : ReadBack h where
  texts := hi.texts
  numbers := fun r hr => readsBack_iff r (hi.formed r hr) (he r hr)
  found := by
    intro hf hn
    rw [findUncommitted_next h hi, if_pos]
    rw [Bool.and_eq_true, List.all_eq_true, List.all_eq_true]
    exact ⟨fun r hr => (readable_iff r (he r hr)).mpr (hf r hr), hn⟩
  stopped := by
    intro hb
    rw [findUncommitted_next h hi, if_neg]
    rw [Bool.and_eq_true, List.all_eq_true, List.all_eq_true]
    rintro ⟨hr, hn⟩
    rcases hb with ⟨r, hm, hf⟩ | ⟨i, hm, hnone⟩
    · exact hf ((readable_iff r (he r hm)).mp (hr r hm))
    · have hs := hn i hm
      rw [hnone] at hs
      exact absurd hs (by simp)

/-- After any history of calls with objects as payloads and reasons that stay
inside their literal, a record reads back exactly if it fits, and the next
session's search reports the open intents if all records do and the names in
their data are texts, and stops otherwise. Over any journal, one record that
cannot be read stops a search that has nothing in memory to report. -/
theorem reads_back_or_stops (ops : List (WalOp F)) (ho : ∀ op ∈ ops, EscapedOp op)
    (w : Writer F) : ReadBack (history ops) ∧ StopsAt w :=
  ⟨readBack_of_recorded _ (history_recorded ops (fun op hm => (ho op hm).wellFormed))
    (history_escaped ops ho), stopsAt w⟩

section Quoted

def rejected (reason : String) : List (WalOp ℚ) :=
  [orderIntent "A", orderIntent "B", .rollback morning 1 reason true]

def quotedRollback : Record ℚ :=
  ⟨0, 1, .orderIntent, .rollback "size \"0\" below minimum", orderPayload⟩

def torn : Writer ℚ :=
  startWriter (openJournal [
    ⟨1, .orderEvent, 1, "", "", wrapWalJson 1 .orderIntent false orderPayload⟩,
    ⟨2, .orderEvent, 1, "", "", text "\x7b\"wal_seq\":"⟩])

theorem orderIntent_wellFormed (id : OrderId) : WellFormedOp (orderIntent id) :=
  ⟨object_of_isSome orderPayload (by decide +kernel), by decide, by decide⟩

theorem forall_rejected (P : WalOp ℚ → Prop) (reason : String) (hi : ∀ id, P (orderIntent id))
    (hr : P (.rollback morning 1 reason true)) : ∀ op ∈ rejected reason, P op := by
  intro op ho
  simp only [rejected, List.mem_cons, List.not_mem_nil, or_false] at ho
  rcases ho with rfl | rfl | rfl
  · exact hi "A"
  · exact hi "B"
  · exact hr

theorem rejected_objects (reason : String) : ∀ op ∈ rejected reason, ObjectOp op :=
  forall_rejected ObjectOp reason orderIntent_wellFormed ⟨by decide, by decide⟩

theorem rejected_escaped (reason : String) (hr : literal ℚ reason = true) :
    ∀ op ∈ rejected reason, EscapedOp op :=
  forall_rejected EscapedOp reason orderIntent_wellFormed ⟨hr, by decide, by decide⟩

theorem reads_back_or_stops_rejected :
    ReadBack (history (rejected "size below minimum")) ∧ StopsAt torn :=
  reads_back_or_stops (rejected "size below minimum")
    (rejected_escaped "size below minimum" (by decide +kernel)) torn

def ReportsRest (w : Writer F) : Prop :=
  ∀ p ∈ payloads w.journal, ∀ e, openIntent (closedIn w.journal) p = some (some e) →
    ∃ es, findUncommitted w true = .ok es ∧ e ∈ es

/-- A reason with quotes leaves a record that does not read back, and a record
cut short keeps the intent before it from being reported. -/
theorem quoted_reason_and_torn_record :
    (¬ ∀ ops : List (WalOp ℚ), (∀ op ∈ ops, ObjectOp op) →
      ∀ r ∈ (history ops).records, ReadsBack r) ∧
    ¬ ∀ w : Writer ℚ, ReportsRest w := by
  constructor
  · intro h
    have hm : quotedRollback ∈ (history (rejected "size \"0\" below minimum")).records := by
      decide +kernel
    refine not_readsBack quotedRollback ?_ (h _ (rejected_objects _) quotedRollback hm)
    rw [← Option.isNone_iff_eq_none]
    decide +kernel
  · intro h
    have hb : ¬ Intact torn.journal := by
      intro hi
      have hp : text "\x7b\"wal_seq\":" ∈ payloads torn.journal := by decide +kernel
      have hn : (resolvedSeq (text "\x7b\"wal_seq\":" : Text ℚ)).isSome = false := by
        decide +kernel
      rw [(hi _ hp).1] at hn
      exact absurd hn (by simp)
    have hp : wrapWalJson 1 .orderIntent false orderPayload ∈ payloads torn.journal := by
      decide +kernel
    have ho : (openIntent (closedIn torn.journal)
        (wrapWalJson 1 .orderIntent false orderPayload)).join.isSome = true := by
      decide +kernel
    obtain ⟨e, he⟩ := Option.isSome_iff_exists.mp ho
    obtain ⟨es, hf, -⟩ := h torn _ hp e (Option.join_eq_some_iff.mp he)
    have hs : openEntries torn = [] := rfl
    rw [stopsAt torn hb, if_pos hs] at hf
    exact absurd hf (by simp)

end Quoted

end TB.WalReadback
