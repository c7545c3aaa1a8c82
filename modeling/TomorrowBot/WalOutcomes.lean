import Mathlib.Data.Finset.Basic
import TomorrowBot.WalHistory

/-!
# Outcomes the journal refused

A commit or a rollback that returns an error should leave the open intents as
they were, for this writer and for one started over the same journal, and a
later outcome of the same intent should do what it would have done. A rollback
does both. A commit marks its entry before the journal is asked, so that the
search no longer reports the intent, or falls back on the whole journal.
-/

set_option autoImplicit false

namespace TB.WalOutcomes
open TB.CommonTypes TB.EventJournal TB.WalWriter TB.WalRecords TB.WalHistory JsonText

variable {F : Type}

inductive Outcome where
  | commit (walSequence : ℕ)
  | rollback (walSequence : ℕ) (reason : String)

def Outcome.seq : Outcome → ℕ
  | .commit seq => seq
  | .rollback seq _ => seq

def perform (w : Writer F) (c : Clock) : Outcome → Bool → Writer F × Except TbError Unit
  | .commit seq, stored => commit w c seq stored
  | .rollback seq reason, stored => rollback w c seq reason stored

def Filed (w : Writer F) : Prop :=
  Keyed.All (fun k e => e.walSequence = k) w.pendingEntries

theorem startWriter_filed (j : Journal F) : Filed (startWriter j) := Keyed.all_empty _

variable (w : Writer F) (c : Clock) (o : Outcome)

theorem perform_filed (stored : Bool) (hf : Filed w) : Filed (perform w c o stored).1 := by
  cases o with
  | commit seq =>
    cases hl : w.pendingEntries.lookup seq with
    | none => simpa only [perform, commit, hl] using hf
    | some entry =>
      simp only [perform, commit, hl]
      cases stored with
      | true => exact Keyed.all_erase _ _ _ hf
      | false => exact Keyed.all_insert _ _ _ _ hf (hf seq entry hl)
  | rollback seq reason =>
    cases hl : w.pendingEntries.lookup seq with
    | none => simpa only [perform, rollback, hl] using hf
    | some entry =>
      simp only [perform, rollback, hl]
      cases stored with
      | true => exact Keyed.all_erase _ _ _ hf
      | false => exact hf

theorem writerStep_filed (op : WalOp F) (hf : Filed w) : Filed (writerStep w op) := by
  cases op with
  | writeIntent c type payload orderId symbol strategyId correlationId stored =>
    cases stored with
    | false => exact hf
    | true => exact Keyed.all_insert _ _ _ _ hf rfl
  | commit c seq stored => exact perform_filed w c (.commit seq) stored hf
  | rollback c seq reason stored => exact perform_filed w c (.rollback seq reason) stored hf
  | writeCheckpoint c snapshot stored =>
    cases stored with
    | false => exact hf
    | true => exact hf
  | restart => exact startWriter_filed _

/-- Every writer that calls and restarts lead to files its entries so. -/
theorem history_filed (ops : List (WalOp F)) : Filed (history ops).writer :=
  Runs.invariant_run (I := fun h : History F => Filed h.writer) historyStep
    (fun h op hf _ => writerStep_filed h.writer op hf) firstSession ops (startWriter_filed _)
    (Runs.meets_true historyStep firstSession ops)

theorem perform_missing (stored : Bool) (hl : w.pendingEntries.lookup o.seq = none) :
    perform w c o stored = (w, .error .walWriteFailed) := by
  cases o with
  | commit seq =>
    have hl : w.pendingEntries.lookup seq = none := hl
    simp only [perform, commit, hl]
  | rollback seq reason =>
    have hl : w.pendingEntries.lookup seq = none := hl
    simp only [perform, rollback, hl]

theorem perform_stored (entry : WalEntry F)
    (hl : w.pendingEntries.lookup o.seq = some entry) : (perform w c o true).2 = .ok () := by
  cases o with
  | commit seq =>
    have hl : w.pendingEntries.lookup seq = some entry := hl
    simp only [perform, commit, hl, if_true]
  | rollback seq reason =>
    have hl : w.pendingEntries.lookup seq = some entry := hl
    simp only [perform, rollback, hl, if_true]

theorem rollback_refused (seq : ℕ) (reason : String) :
    (perform w c (.rollback seq reason) false).1 = w := by
  cases hl : w.pendingEntries.lookup seq with
  | none => rw [perform_missing w c (.rollback seq reason) false hl]
  | some entry => simp only [perform, rollback, hl, append_refused, Bool.false_eq_true, if_false]

def mark (entry : WalEntry F) : WalEntry F := { entry with committed := true }

theorem commit_refused (seq : ℕ) (entry : WalEntry F)
    (hl : w.pendingEntries.lookup seq = some entry) :
    (perform w c (.commit seq) false).1 =
      { w with pendingEntries := w.pendingEntries.insert seq (mark entry) } := by
  simp only [perform, commit, hl, append_refused, Bool.false_eq_true, if_false, mark]

/-- The mark of the entry matters neither to a stored commit nor to a stored
rollback of it. -/
theorem perform_marked (entry : WalEntry F) (hl : w.pendingEntries.lookup o.seq = some entry) :
    perform { w with pendingEntries := w.pendingEntries.insert o.seq (mark entry) } c o true =
      perform w c o true := by
  have hm : (w.pendingEntries.insert o.seq (mark entry)).lookup o.seq = some (mark entry) :=
    AList.lookup_insert _
  cases o with
  | commit seq =>
    simp only [Outcome.seq] at hl hm ⊢
    simp only [perform, commit, hl, hm, if_true, Keyed.erase_insert]
    rfl
  | rollback seq reason =>
    simp only [Outcome.seq] at hl hm ⊢
    simp only [perform, rollback, hl, hm, if_true, Keyed.erase_insert]
    rfl

/-- What a refused outcome leaves serves a later stored outcome of the same
number as if there had been none. -/
theorem later_same (c d : Clock) (o later : Outcome) (hs : later.seq = o.seq) :
    perform (perform w c o false).1 d later true = perform w d later true := by
  cases o with
  | rollback seq reason => rw [rollback_refused w c seq reason]
  | commit seq =>
    cases hl : w.pendingEntries.lookup seq with
    | none => rw [perform_missing w c (.commit seq) false hl]
    | some entry =>
      have hs : later.seq = seq := hs
      subst hs
      rw [commit_refused w c later.seq entry hl, perform_marked w d later entry hl]

theorem refused_journal : (perform w c o false).1.journal = w.journal := by
  cases o with
  | rollback seq reason => rw [rollback_refused w c seq reason]
  | commit seq =>
    cases hl : w.pendingEntries.lookup seq with
    | none => rw [perform_missing w c (.commit seq) false hl]
    | some entry => rw [commit_refused w c seq entry hl]

def StillWorks (w w' : Writer F) (o : Outcome) : Prop :=
  ∀ (c : Clock) (later : Outcome), later.seq = o.seq →
    perform w' c later true = perform w c later true ∧
      ((w.pendingEntries.lookup o.seq).isSome = true → (perform w' c later true).2 = .ok ())

theorem stillWorks_refused : StillWorks w (perform w c o false).1 o := by
  intro d later hs
  have hl := later_same w c d o later hs
  refine ⟨hl, fun hp => ?_⟩
  obtain ⟨entry, he⟩ := Option.isSome_iff_exists.mp hp
  rw [hl]
  exact perform_stored w d later entry (hs ▸ he)

theorem stillWorks_missing (hl : w.pendingEntries.lookup o.seq = none) : StillWorks w w o := by
  intro d later hs
  refine ⟨rfl, fun hp => ?_⟩
  rw [hl] at hp
  exact absurd hp (by simp)

def numbers (es : List (WalEntry F)) : Finset ℕ := (es.map WalEntry.walSequence).toFinset

def openEntries (w : Writer F) : List (WalEntry F) :=
  (w.pendingEntries.entries.map (fun e => e.2)).filter (fun e => !e.committed)

def unmarked (w : Writer F) : Finset ℕ := numbers (openEntries w)

theorem unmarked_empty : unmarked w = ∅ ↔ openEntries w = [] := by
  simp [unmarked, numbers]

theorem mem_unmarked (hf : Filed w) (n : ℕ) : n ∈ unmarked w ↔
      ∃ entry, w.pendingEntries.lookup n = some entry ∧ entry.committed = false := by
  simp only [unmarked, openEntries, numbers, List.mem_toFinset, List.mem_map, List.mem_filter,
    Bool.not_eq_true']
  constructor
  · rintro ⟨entry, ⟨⟨⟨k, v⟩, hm, rfl⟩, hc⟩, rfl⟩
    have hl : w.pendingEntries.lookup k = some v := AList.mem_lookup_iff.mpr hm
    have hk : v.walSequence = k := hf k v hl
    exact ⟨v, hk.symm ▸ hl, hc⟩
  · rintro ⟨entry, hl, hc⟩
    exact ⟨entry, ⟨⟨⟨n, entry⟩, AList.mem_lookup_iff.mp hl, rfl⟩, hc⟩, hf n entry hl⟩

theorem unmarked_commit (hf : Filed w) (c : Clock) (seq : ℕ)
    (entry : WalEntry F) (hl : w.pendingEntries.lookup seq = some entry) :
    unmarked (perform w c (.commit seq) false).1 = (unmarked w).erase seq := by
  have hf' := perform_filed w c (.commit seq) false hf
  ext n
  rw [mem_unmarked _ hf', Finset.mem_erase, mem_unmarked w hf, commit_refused w c seq entry hl]
  by_cases hn : n = seq
  · subst hn
    simp [AList.lookup_insert, mark]
  · simp [AList.lookup_insert_ne hn, hn]

section Reports
variable [OfScientific F] [Neg F]

def reported (w : Writer F) (answered : Bool) : Except TbError (Finset ℕ) :=
  (findUncommitted w answered).map numbers

theorem findUncommitted_eq (w : Writer F) (answered : Bool) :
    findUncommitted w answered =
      if openEntries w = [] then findUncommitted (nextSession w) answered
      else .ok (openEntries w) := by
  cases hp : openEntries w with
  | nil =>
    rw [openEntries] at hp
    rw [if_pos rfl, findUncommitted, hp]
    rfl
  | cons e es =>
    rw [openEntries] at hp
    rw [if_neg (List.cons_ne_nil e es), findUncommitted, hp]
    rfl

theorem reported_eq (w : Writer F) (answered : Bool) :
    reported w answered =
      if unmarked w = ∅ then reported (nextSession w) answered else .ok (unmarked w) := by
  rw [reported, findUncommitted_eq]
  by_cases hu : openEntries w = []
  · rw [if_pos hu, if_pos ((unmarked_empty w).mpr hu)]
    rfl
  · rw [if_neg hu, if_neg (fun h => hu ((unmarked_empty w).mp h))]
    rfl

def payloads (j : Journal F) : List (Text F) :=
  (j.entries.filter (fun e => 0 ≤ e.timestamp && e.timestamp ≤ 2 ^ 63 - 1)).map
    JournalEntry.payloadJson

def closedIn (j : Journal F) : List ℕ := (payloads j).filterMap (fun p => (resolvedSeq p).join)

def Intact (j : Journal F) : Prop :=
  ∀ p ∈ payloads j, (resolvedSeq p).isSome = true ∧ (openIntent (closedIn j) p).isSome = true

def scanned (j : Journal F) : List (WalEntry F) :=
  ((payloads j).map (openIntent (closedIn j))).filterMap Option.join

structure ShowsOnly (j : Journal F) (seq : ℕ) : Prop where
  intact : Intact j
  shown : ∃ p ∈ payloads j, ∃ e, openIntent (closedIn j) p = some (some e) ∧ e.walSequence = seq
  only : ∀ p ∈ payloads j, ∀ e, openIntent (closedIn j) p = some (some e) → e.walSequence = seq

theorem findUncommitted_next_eq (w : Writer F) :
    findUncommitted (nextSession w) true =
      if (payloads w.journal).any (fun p => (resolvedSeq p).isNone) ||
          ((payloads w.journal).map (openIntent (closedIn w.journal))).any Option.isNone then
        .error .persistenceError
      else .ok (scanned w.journal) := by
  have hq : query (nextSession w).journal 0 (2 ^ 63 - 1) none true = .ok
      (w.journal.entries.filter (fun e => 0 ≤ e.timestamp && e.timestamp ≤ 2 ^ 63 - 1)) := by
    simp [query, nextSession, startWriter, openJournal]
  have hp : (nextSession w).pendingEntries.entries = [] := rfl
  simp only [findUncommitted, hp, List.map_nil, List.filter_nil, List.isEmpty_nil,
    Bool.not_true, Bool.false_eq_true, if_false, hq]
  rfl

theorem findUncommitted_intact (w : Writer F) (hi : Intact w.journal) :
    findUncommitted (nextSession w) true = .ok (scanned w.journal) := by
  rw [findUncommitted_next_eq, if_neg]
  rw [Bool.not_eq_true, Bool.or_eq_false_iff, List.any_eq_false, List.any_eq_false]
  constructor
  · intro p hm
    simpa [Option.isSome_iff_ne_none] using (hi p hm).1
  · intro x hx
    obtain ⟨p, hm, rfl⟩ := List.mem_map.mp hx
    simpa [Option.isSome_iff_ne_none] using (hi p hm).2

theorem findUncommitted_broken (w : Writer F) (hi : ¬ Intact w.journal) :
    findUncommitted (nextSession w) true = .error .persistenceError := by
  rw [findUncommitted_next_eq, if_pos]
  simp only [Intact, not_forall, not_and, exists_prop] at hi
  obtain ⟨p, hm, hb⟩ := hi
  rw [Bool.or_eq_true, List.any_eq_true, List.any_eq_true]
  by_cases hr : (resolvedSeq p).isSome = true
  · exact .inr ⟨_, List.mem_map.mpr ⟨p, hm, rfl⟩, by simpa using hb hr⟩
  · exact .inl ⟨p, hm, by simpa using hr⟩

theorem mem_scanned (j : Journal F) (n : ℕ) :
    n ∈ numbers (scanned j) ↔
      ∃ p ∈ payloads j, ∃ e, openIntent (closedIn j) p = some (some e) ∧ e.walSequence = n := by
  simp only [scanned, numbers, List.mem_toFinset, List.mem_map, List.mem_filterMap,
    Option.join_eq_some_iff]
  constructor
  · rintro ⟨e, ⟨_, ⟨p, hm, rfl⟩, he⟩, rfl⟩
    exact ⟨p, hm, e, he, rfl⟩
  · rintro ⟨p, hm, e, he, rfl⟩
    exact ⟨e, ⟨_, ⟨p, hm, rfl⟩, he⟩, rfl⟩

theorem reported_next_iff (w : Writer F) (seq : ℕ) (answered : Bool) :
    reported (nextSession w) answered = .ok {seq} ↔ answered = true ∧ ShowsOnly w.journal seq := by
  cases answered with
  | false =>
    have hr : reported (nextSession w) false = .ok ∅ := rfl
    rw [hr, Except.ok.injEq]
    simp
  | true =>
    by_cases hi : Intact w.journal
    · have hr : reported (nextSession w) true = .ok (numbers (scanned w.journal)) := by
        rw [reported, findUncommitted_intact w hi]
        rfl
      rw [hr, Except.ok.injEq]
      constructor
      · intro h
        refine ⟨rfl, hi, ?_, ?_⟩
        · exact (mem_scanned _ seq).mp (h ▸ Finset.mem_singleton_self seq)
        · intro p hm e he
          have hn := (mem_scanned w.journal e.walSequence).mpr ⟨p, hm, e, he, rfl⟩
          rw [h, Finset.mem_singleton] at hn
          exact hn
      · rintro ⟨-, -, hs, ho⟩
        ext n
        rw [mem_scanned, Finset.mem_singleton]
        constructor
        · rintro ⟨p, hm, e, he, rfl⟩
          exact ho p hm e he
        · rintro rfl
          exact hs
    · have hr : reported (nextSession w) true = .error .persistenceError := by
        rw [reported, findUncommitted_broken w hi]
        rfl
      rw [hr]
      exact iff_of_false (by simp) (fun h => hi h.2.intact)

def SameReports (w w' : Writer F) (answered : Bool) : Prop :=
  reported w' answered = reported w answered ∧
    reported (nextSession w') answered = reported (nextSession w) answered

/-- An outcome that returns an error leaves what the searches report and what a
later outcome of the intent does as they were. -/
def Atomic (w : Writer F) (c : Clock) (o : Outcome) (stored answered : Bool) : Prop :=
  (perform w c o stored).2 ≠ .ok () →
    SameReports w (perform w c o stored).1 answered ∧ StillWorks w (perform w c o stored).1 o

/-- Where the mark of a refused commit is not seen: the entry has it already,
or is the only one without it and the journal itself shows its intent, alone. -/
def Unseen (w : Writer F) (answered : Bool) (seq : ℕ) : Prop :=
  match w.pendingEntries.lookup seq with
  | none => True
  | some entry =>
    entry.committed = true ∨
      unmarked w = {seq} ∧ answered = true ∧ ShowsOnly w.journal seq

def Unharmed (w : Writer F) (o : Outcome) (stored answered : Bool) : Prop :=
  match o with
  | .commit seq => stored = true ∨ Unseen w answered seq
  | .rollback _ _ => True

theorem reported_next_congr (w w' : Writer F) (answered : Bool) (hj : w'.journal = w.journal) :
    reported (nextSession w') answered = reported (nextSession w) answered := by
  rw [nextSession, nextSession, hj]

/-- A refused commit of a pending entry is unseen exactly if the searches of
both sessions report what they did. -/
theorem commit_same_iff (w : Writer F) (hf : Filed w) (c : Clock) (seq : ℕ)
    (entry : WalEntry F) (hl : w.pendingEntries.lookup seq = some entry) (answered : Bool) :
    SameReports w (perform w c (.commit seq) false).1 answered ↔ Unseen w answered seq := by
  have hj := refused_journal w c (.commit seq)
  have hu := unmarked_commit w hf c seq entry hl
  have hn := reported_next_congr w _ answered hj
  rw [SameReports, and_iff_left hn, Unseen, hl]
  rw [reported_eq w, reported_eq (perform w c (.commit seq) false).1, hu, hn]
  simp only
  cases hc : entry.committed with
  | true =>
    have hm : seq ∉ unmarked w := by
      rw [mem_unmarked w hf, hl]
      simp [hc]
    simp [Finset.erase_eq_of_notMem hm]
  | false =>
    have hm : seq ∈ unmarked w := (mem_unmarked w hf seq).mpr ⟨entry, hl, hc⟩
    have hne : unmarked w ≠ ∅ := Finset.ne_empty_of_mem hm
    rw [if_neg hne]
    by_cases he : (unmarked w).erase seq = ∅
    · have hs : unmarked w = {seq} := by
        rw [Finset.erase_eq_empty_iff] at he
        exact he.resolve_left hne
      rw [if_pos he, hs, reported_next_iff]
      simp
    · have hs : unmarked w ≠ {seq} := by
        rintro hs
        rw [hs, Finset.erase_singleton] at he
        exact he rfl
      have hx : (unmarked w).erase seq ≠ unmarked w := Finset.erase_ne_self.mpr hm
      rw [if_neg he, Except.ok.injEq]
      simp [hs, hx]

/-- A failed outcome is atomic if and only if it is a rollback, or a commit of
an entry that has the mark already or is the only one without it while the
journal shows its intent, alone. -/
theorem atomic_iff (w : Writer F) (hf : Filed w) (c : Clock) (o : Outcome)
    (stored answered : Bool) : Atomic w c o stored answered ↔ Unharmed w o stored answered := by
  cases hl : w.pendingEntries.lookup o.seq with
  | none =>
    have hp := perform_missing w c o stored hl
    have ha : Atomic w c o stored answered := by
      intro _
      rw [hp]
      exact ⟨⟨rfl, rfl⟩, stillWorks_missing w o hl⟩
    refine iff_of_true ha ?_
    cases o with
    | commit seq =>
      have hl : w.pendingEntries.lookup seq = none := hl
      right
      rw [Unseen, hl]
      trivial
    | rollback seq reason => trivial
  | some entry =>
    cases stored with
    | true =>
      have ha : Atomic w c o true answered := fun h => absurd (perform_stored w c o entry hl) h
      refine iff_of_true ha ?_
      cases o with
      | commit seq => exact .inl rfl
      | rollback seq reason => trivial
    | false =>
      have hw := stillWorks_refused w c o
      cases o with
      | rollback seq reason =>
        refine iff_of_true (fun _ => ⟨?_, hw⟩) trivial
        rw [rollback_refused w c seq reason]
        exact ⟨rfl, rfl⟩
      | commit seq =>
        have hl : w.pendingEntries.lookup seq = some entry := hl
        have he : (perform w c (.commit seq) false).2 ≠ .ok () := by
          simp [perform, commit, hl]
        have hs := commit_same_iff w hf c seq entry hl answered
        constructor
        · intro ha
          exact .inr (hs.mp (ha he).1)
        · rintro (h | hu)
          · exact absurd h (by simp)
          · exact fun _ => ⟨hs.mpr hu, hw⟩

end Reports

section Refused

def twoPending : Writer ℚ := (history [orderIntent "A", orderIntent "B"]).writer

theorem atomic_iff_twoPending :
    Atomic twoPending morning (.commit 1) false true ↔
      Unharmed twoPending (.commit 1) false true :=
  atomic_iff twoPending (history_filed _) morning (.commit 1) false true

theorem commit_hides_intent :
    ¬ ∀ (w : Writer ℚ) (c : Clock) (o : Outcome) (stored answered : Bool), Filed w →
      Atomic w c o stored answered := by
  intro h
  have hf : Filed twoPending := history_filed _
  have ha := h twoPending morning (.commit 1) false true hf
  obtain ⟨⟨hr, -⟩, -⟩ := ha (by decide)
  have hb : unmarked twoPending = {1, 2} := by decide
  have hu : unmarked (perform twoPending morning (.commit 1) false).1 = {2} := by decide
  rw [reported_eq, reported_eq twoPending, hb, hu, if_neg (by decide), if_neg (by decide),
    Except.ok.injEq] at hr
  exact absurd hr (by decide)

end Refused

end TB.WalOutcomes
