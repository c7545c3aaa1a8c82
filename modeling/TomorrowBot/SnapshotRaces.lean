import TomorrowBot.EventRoundTrip

/-!
# Snapshots and journal entries written side by side

Several pipelines change one portfolio. A change is journalled after it was
made: its entry is stamped first and appended later. A snapshot takes its
payload first, is stamped under the lock of the store and stored last. The
clock of the stamps never goes back; the recovery bounds its query by a
reading of another clock.
-/

set_option autoImplicit false

namespace TB.SnapshotRaces
open TB.CommonTypes TB.EventJournal TB.PortfolioEngine TB.RecoveryService TB.PortfolioJournal
open TB.JournalReplay TB.EventRoundTrip JsonText

inductive PositionEvent (F : Type) where
  | opened (symbol : Symbol) (ps : PositionSide) (price size : F) (strategyId : StrategyId)
  | closed (symbol : Symbol) (ps : PositionSide) (price pnl : F) (strategyId : StrategyId)

abbrev Stamp := { t : Timestamp // Reading t }

structure Stamped (F : Type) where
  change : ℕ
  event : PositionEvent F
  now : Stamp
  openedAt : Stamp
  wall : Timestamp

structure Taken (F : Type) where
  covers : ℕ
  portfolio : Portfolio F
  symbol : Symbol
  now : Stamp

structure World (F : Type) where
  clock : Timestamp
  portfolio : Portfolio F
  store : PersistenceLayer F
  snapshotCounter : ℕ
  unstamped : List (ℕ × PositionEvent F)
  stamped : List (Stamped F)
  taken : List (Taken F)
  saving : Option (Taken F × Timestamp)
  made : List (PortfolioOp F)
  stored : Option (Taken F)
  written : List (Stamped F × ℕ)

inductive Event (F : Type) where
  | tick (elapsed : ℕ)
  | change (op : PortfolioOp F) (event : Option (PositionEvent F))
  | stamp (i : ℕ) (now openedAt : Stamp)
  | append (i : ℕ) (stored : Bool)
  | take (symbol : Symbol) (now : Stamp)
  | lock (i : ℕ)
  | save (stored : Bool)

variable {F : Type} [DoubleArith F]

def payloadOf (s : Stamped F) : Text F :=
  match s.event with
  | .opened symbol ps price size strategyId =>
    positionEventJson "PositionOpened" symbol ps price 0 size strategyId s.now s.openedAt
  | .closed symbol ps price pnl strategyId =>
    positionEventJson "PositionClosed" symbol ps price pnl 0 strategyId s.now s.openedAt

def persistEvent (store : PersistenceLayer F) (s : Stamped F) (stored : Bool) :
    PersistenceLayer F :=
  match s.event with
  | .opened symbol ps price size strategyId =>
    persistPositionEvent store s.wall "PositionOpened" symbol ps price 0 size strategyId s.now
      s.openedAt stored
  | .closed symbol ps price pnl strategyId =>
    persistPositionEvent store s.wall "PositionClosed" symbol ps price pnl 0 strategyId s.now
      s.openedAt stored

def change (w : World F) (op : PortfolioOp F) (event : Option (PositionEvent F)) : World F :=
  { w with
    portfolio := portfolioStep w.portfolio op
    made := w.made ++ [op]
    unstamped := w.unstamped ++ (event.map (fun e => (w.made.length, e))).toList }

def stamp (w : World F) (i : ℕ) (now openedAt : Stamp) : World F :=
  match w.unstamped[i]? with
  | none => w
  | some p =>
    { w with
      unstamped := w.unstamped.eraseIdx i
      stamped := w.stamped ++ [⟨p.1, p.2, now, openedAt, w.clock⟩] }

def append (w : World F) (i : ℕ) (stored : Bool) : World F :=
  match w.stamped[i]? with
  | none => w
  | some s =>
    { w with
      store := persistEvent w.store s stored
      stamped := w.stamped.eraseIdx i
      written :=
        if stored then w.written ++ [(s, w.store.journal.sequenceCounter + 1)] else w.written }

def take (w : World F) (symbol : Symbol) (now : Stamp) : World F :=
  { w with taken := w.taken ++ [⟨w.made.length, w.portfolio, symbol, now⟩] }

def lock (w : World F) (i : ℕ) : World F :=
  match w.saving, w.taken[i]? with
  | none, some t =>
    { w with
      taken := w.taken.eraseIdx i
      saving := some (t, w.clock) }
  | _, _ => w

def save (w : World F) (stored : Bool) : World F :=
  match w.saving with
  | none => w
  | some (t, wall) =>
    { w with
      store := persistPortfolioSnapshot w.store w.snapshotCounter wall t.symbol t.portfolio t.now
        stored
      snapshotCounter := w.snapshotCounter + 1
      saving := none
      stored := if stored then some t else w.stored }

def worldStep (w : World F) : Event F → World F
  | .tick elapsed => { w with clock := w.clock + elapsed }
  | .change op event => change w op event
  | .stamp i now openedAt => stamp w i now openedAt
  | .append i stored => append w i stored
  | .take symbol now => take w symbol now
  | .lock i => lock w i
  | .save stored => save w stored

def start (p : Portfolio F) (clock : Timestamp) : World F where
  clock := clock
  portfolio := p
  store := ⟨true, openJournal [], none, true⟩
  snapshotCounter := 0
  unstamped := []
  stamped := []
  taken := []
  saving := none
  made := []
  stored := none
  written := []

section Recovery

def handed (store : PersistenceLayer F) (now : Timestamp) : List (JournalEntry F) :=
  match store.snapshot with
  | none => []
  | some snap =>
    match query store.journal snap.createdAt now (some .portfolioChange) store.answered with
    | .error _ => []
    | .ok entries => entries

def timesRestored (w : World F) (i : ℕ) : ℕ :=
  if i < w.stored.elim 0 Taken.covers then 1 else 0

def timesReplayed (w : World F) (now : Timestamp) (i : ℕ) : ℕ :=
  (handed w.store now).countP (fun e => (appliedOp now e).isSome &&
    w.written.any (fun x => x.1.change = i && x.2 = e.sequenceId))

/-- After a crash here, a recovery at the reading `now` counts each journalled
change once. -/
def AppliedOnce (now : Timestamp) (w : World F) : Prop :=
  w.store.snapshot.isSome → ∀ x ∈ w.written,
    timesRestored w x.1.change + timesReplayed w now x.1.change = 1

def CoversStored (p : Portfolio F) (w : World F) : Prop :=
  ∀ snap, w.store.snapshot = some snap → ∃ t, w.stored = some t ∧ t.covers ≤ w.made.length ∧
    snap.payloadJson = portfolioSnapshotJson t.symbol
      (Runs.run portfolioStep p (w.made.take t.covers)) t.now

end Recovery

section Condition

def Legible : PositionEvent F → Prop
  | .opened symbol _ price _ _ => symbol ≠ "" ∧ 0 < price
  | .closed symbol _ _ _ _ => symbol ≠ ""

def Fits (now : Timestamp) (covers : ℕ) (createdAt : Timestamp) (s : Stamped F) : Prop :=
  s.change < covers ↔ ¬ (createdAt ≤ s.wall ∧ s.wall ≤ now ∧ Legible s.event)

def InOrder (now : Timestamp) (w : World F) : Event F → Prop
  | .append i true => ∀ s, w.stamped[i]? = some s → ∀ t, w.stored = some t →
      ∀ snap, w.store.snapshot = some snap → Fits now t.covers snap.createdAt s
  | .save true => ∀ t wall, w.saving = some (t, wall) →
      ∀ x ∈ w.written, Fits now t.covers wall x.1
  | _ => True

end Condition

section Entries

def strategyOf : PositionEvent F → StrategyId
  | .opened _ _ _ _ strategyId => strategyId
  | .closed _ _ _ _ strategyId => strategyId

def entryOf (x : Stamped F × ℕ) : JournalEntry F :=
  ⟨x.2, .portfolioChange, x.1.wall, "", strategyOf x.1.event, payloadOf x.1⟩

theorem persistEvent_stored (store : PersistenceLayer F) (s : Stamped F)
    (he : store.enabled = true) :
    persistEvent store s true = { store with
      journal := ⟨store.journal.entries ++ [entryOf (s, store.journal.sequenceCounter + 1)],
        store.journal.sequenceCounter + 1⟩ } := by
  obtain ⟨i, event, now, openedAt, wall⟩ := s
  cases event <;>
    simp [persistEvent, persistPositionEvent, EventJournal.append, he, entryOf, strategyOf,
      payloadOf]

theorem persistEvent_refused (store : PersistenceLayer F) (s : Stamped F) :
    persistEvent store s false = store := by
  obtain ⟨i, event, now, openedAt, wall⟩ := s
  cases event <;> simp [persistEvent, persistPositionEvent, append_refused]

theorem appliedOp_priceless (now : Timestamp) (entry : JournalEntry F) (symbol : Symbol)
    (ps : PositionSide) (price size : F) (strategyId : StrategyId) (written openedAt : Timestamp)
    (hwritten : Reading written) (hopened : Reading openedAt) (hprice : ¬ 0 < price)
    (hentry : entry.payloadJson =
      positionEventJson "PositionOpened" symbol ps price 0 size strategyId written openedAt) :
    appliedOp now entry = none := by
  have hp := parse_positionEvent "PositionOpened" symbol ps price 0 size strategyId written openedAt
    hwritten hopened
  rw [← hentry] at hp
  rw [appliedOp_bare now entry _ "PositionOpened" hp (by simp [positionEventMembers])
    (by simp [positionEventMembers])]
  simp [replayEvent, WalWriter.readText, readDouble, positionEventMembers, Value.asString,
    Value.asDouble, opOf, hprice]

theorem appliedOp_entryOf (now : Timestamp) (x : Stamped F × ℕ) :
    (appliedOp now (entryOf x)).isSome ↔ Legible x.1.event := by
  obtain ⟨⟨i, event, stamp, openedAt, wall⟩, n⟩ := x
  cases event with
  | opened symbol ps price size strategyId =>
    by_cases hprice : 0 < price
    · rw [appliedOp_opened now _ symbol ps price size strategyId stamp openedAt stamp.2 openedAt.2
        hprice rfl]
      by_cases hs : symbol = "" <;> simp [Legible, hs, hprice]
    · rw [appliedOp_priceless now _ symbol ps price size strategyId stamp openedAt stamp.2
        openedAt.2 hprice rfl]
      simp [Legible, hprice]
  | closed symbol ps price pnl strategyId =>
    rw [appliedOp_closed now _ symbol ps price pnl strategyId stamp openedAt stamp.2 openedAt.2 rfl]
    by_cases hs : symbol = "" <;> simp [Legible, hs]

end Entries

section Journal

def changeIds (w : World F) : List ℕ :=
  w.unstamped.map Prod.fst ++ w.stamped.map Stamped.change ++ w.written.map (·.1.change)

structure Journalled (w : World F) : Prop where
  enabled : w.store.enabled = true
  answered : w.store.answered = true
  entries : w.store.journal.entries = w.written.map entryOf
  numbered : ∀ x ∈ w.written, x.2 ≤ w.store.journal.sequenceCounter
  numbers : (w.written.map Prod.snd).Nodup
  changes : (changeIds w).Nodup
  made : ∀ i ∈ changeIds w, i < w.made.length
  origin : w.store.snapshot.isSome = w.stored.isSome

theorem start_journalled (p : Portfolio F) (clock : Timestamp) : Journalled (start p clock) where
  enabled := rfl
  answered := rfl
  entries := rfl
  numbered := by simp [start]
  numbers := List.nodup_nil
  changes := List.nodup_nil
  made := by simp [start, changeIds]
  origin := rfl

omit [DoubleArith F] in
theorem eraseIdx_perm {α : Type} (l : List α) (i : ℕ) (x : α) (h : l[i]? = some x) :
    (x :: l.eraseIdx i).Perm l := by
  obtain ⟨hi, rfl⟩ := List.getElem?_eq_some_iff.mp h
  exact List.getElem_cons_eraseIdx_perm hi

theorem journalled_moved (w v : World F) (h : Journalled w) (hstore : v.store = w.store)
    (hwritten : v.written = w.written) (hstored : v.stored = w.stored)
    (hids : (changeIds v).Nodup) (hlt : ∀ i ∈ changeIds v, i < v.made.length) : Journalled v where
  enabled := by rw [hstore]; exact h.enabled
  answered := by rw [hstore]; exact h.answered
  entries := by rw [hstore, hwritten]; exact h.entries
  numbered := by rw [hstore, hwritten]; exact h.numbered
  numbers := by rw [hwritten]; exact h.numbers
  changes := hids
  made := hlt
  origin := by rw [hstore, hstored]; exact h.origin

variable (w : World F)

theorem journalled_change (h : Journalled w) (op : PortfolioOp F)
    (event : Option (PositionEvent F)) : Journalled (change w op event) := by
  have hperm : (changeIds (change w op event)).Perm
      ((event.map (fun _ => w.made.length)).toList ++ changeIds w) := by
    cases event with
    | none => simp [changeIds, change]
    | some e =>
      simp only [changeIds, change, Option.map_some, Option.toList_some, List.map_append,
        List.map_cons, List.map_nil, List.append_assoc]
      exact List.perm_middle
  have hlen : (change w op event).made.length = w.made.length + 1 := by simp [change]
  refine journalled_moved w _ h rfl rfl rfl ?_ ?_
  · rw [hperm.nodup_iff]
    cases event with
    | none => simpa using h.changes
    | some e =>
      simp only [Option.map_some, Option.toList_some, List.singleton_append, List.nodup_cons]
      exact ⟨fun hm => lt_irrefl _ (h.made _ hm), h.changes⟩
  · intro i hi
    rw [hperm.mem_iff, List.mem_append] at hi
    rcases hi with hi | hi
    · cases event with
      | none => simp at hi
      | some e =>
        simp only [Option.map_some, Option.toList_some, List.mem_singleton] at hi
        omega
    · have := h.made i hi
      omega

omit [DoubleArith F] in
theorem stamp_at (i : ℕ) (now openedAt : Stamp) (p : ℕ × PositionEvent F)
    (hp : w.unstamped[i]? = some p) : stamp w i now openedAt = { w with
      unstamped := w.unstamped.eraseIdx i
      stamped := w.stamped ++ [⟨p.1, p.2, now, openedAt, w.clock⟩] } := by
  simp [stamp, hp]

theorem append_refused_at (i : ℕ) (s : Stamped F) (hs : w.stamped[i]? = some s) :
    append w i false = { w with stamped := w.stamped.eraseIdx i } := by
  simp [append, hs, persistEvent_refused]

theorem append_stored_at (i : ℕ) (s : Stamped F) (hs : w.stamped[i]? = some s)
    (he : w.store.enabled = true) : append w i true = { w with
      store := { w.store with
        journal := ⟨w.store.journal.entries ++ [entryOf (s, w.store.journal.sequenceCounter + 1)],
          w.store.journal.sequenceCounter + 1⟩ }
      stamped := w.stamped.eraseIdx i
      written := w.written ++ [(s, w.store.journal.sequenceCounter + 1)] } := by
  simp [append, hs, persistEvent_stored w.store s he]

theorem journalled_stamp (h : Journalled w) (i : ℕ) (now openedAt : Stamp) :
    Journalled (stamp w i now openedAt) := by
  cases hp : w.unstamped[i]? with
  | none => simpa [stamp, hp] using h
  | some p =>
    rw [stamp_at w i now openedAt p hp]
    have hu : (p.1 :: (w.unstamped.eraseIdx i).map Prod.fst).Perm (w.unstamped.map Prod.fst) :=
      (eraseIdx_perm w.unstamped i p hp).map Prod.fst
    have hperm : (changeIds { w with
        unstamped := w.unstamped.eraseIdx i
        stamped := w.stamped ++ [⟨p.1, p.2, now, openedAt, w.clock⟩] }).Perm (changeIds w) := by
      simp only [changeIds, List.map_append, List.map_cons, List.map_nil]
      refine List.Perm.append_right _ ?_
      rw [← List.append_assoc]
      exact (List.perm_append_singleton p.1 _).trans (List.Perm.append_right _ hu)
    exact journalled_moved w _ h rfl rfl rfl ((hperm.nodup_iff).mpr h.changes)
      (fun j hj => h.made j (hperm.mem_iff.mp hj))

theorem journalled_append (h : Journalled w) (i : ℕ) (stored : Bool) :
    Journalled (append w i stored) := by
  cases hs : w.stamped[i]? with
  | none => simpa [append, hs] using h
  | some s =>
    cases stored with
    | false =>
      rw [append_refused_at w i s hs]
      have hsub : (changeIds { w with stamped := w.stamped.eraseIdx i }).Sublist (changeIds w) :=
        List.Sublist.append (List.Sublist.append (List.Sublist.refl _)
          ((List.eraseIdx_sublist w.stamped i).map _)) (List.Sublist.refl _)
      exact journalled_moved w _ h rfl rfl rfl (h.changes.sublist hsub)
        (fun j hj => h.made j (hsub.subset hj))
    | true =>
      rw [append_stored_at w i s hs h.enabled]
      have hu : (s.change :: (w.stamped.eraseIdx i).map Stamped.change).Perm
          (w.stamped.map Stamped.change) := (eraseIdx_perm w.stamped i s hs).map Stamped.change
      have hperm : (w.unstamped.map Prod.fst ++ (w.stamped.eraseIdx i).map Stamped.change ++
          (w.written ++ [(s, w.store.journal.sequenceCounter + 1)]).map (·.1.change)).Perm
          (changeIds w) := by
        simp only [changeIds, List.map_append, List.map_cons, List.map_nil]
        rw [← List.append_assoc]
        refine (List.perm_append_singleton s.change _).trans ?_
        rw [← List.cons_append]
        refine List.Perm.append_right _ (List.perm_middle.symm.trans ?_)
        exact List.Perm.append_left _ hu
      exact
        { enabled := h.enabled
          answered := h.answered
          entries := by simp [h.entries]
          numbered := by
            intro x hx
            rw [List.mem_append, List.mem_singleton] at hx
            rcases hx with hx | rfl
            · exact Nat.le_succ_of_le (h.numbered x hx)
            · exact le_refl _
          numbers := by
            rw [List.map_append, List.map_singleton, List.nodup_append_comm,
              List.singleton_append, List.nodup_cons]
            refine ⟨fun hm => ?_, h.numbers⟩
            obtain ⟨x, hx, he⟩ := List.mem_map.mp hm
            have := h.numbered x hx
            omega
          changes := (hperm.nodup_iff).mpr h.changes
          made := fun j hj => h.made j (hperm.mem_iff.mp hj)
          origin := h.origin }

theorem journalled_save (h : Journalled w) (stored : Bool) : Journalled (save w stored) := by
  unfold save
  cases hs : w.saving with
  | none => exact h
  | some x =>
    obtain ⟨t, wall⟩ := x
    have he := h.enabled
    cases stored with
    | false =>
      simp only [persistPortfolioSnapshot, Bool.not_false, Bool.or_true, if_true,
        Bool.false_eq_true, if_false]
      exact journalled_moved w _ h rfl rfl rfl h.changes h.made
    | true =>
      simp only [persistPortfolioSnapshot, he, Bool.not_true, Bool.or_false, Bool.false_eq_true,
        if_false, if_true]
      exact
        { enabled := rfl
          answered := h.answered
          entries := h.entries
          numbered := h.numbered
          numbers := h.numbers
          changes := h.changes
          made := h.made
          origin := rfl }

theorem journalled_step (e : Event F) (h : Journalled w) : Journalled (worldStep w e) := by
  cases e with
  | tick elapsed => exact journalled_moved w _ h rfl rfl rfl h.changes h.made
  | change op event => exact journalled_change w h op event
  | stamp i now openedAt => exact journalled_stamp w h i now openedAt
  | append i stored => exact journalled_append w h i stored
  | take symbol now => exact journalled_moved w _ h rfl rfl rfl h.changes h.made
  | lock i =>
    simp only [worldStep, lock]
    split
    · exact journalled_moved w _ h rfl rfl rfl h.changes h.made
    · exact h
  | save stored => exact journalled_save w h stored

end Journal

section Replay

variable (w : World F)

theorem handed_written (h : Journalled w) (now : Timestamp)
    (snap : SnapshotEntry F) (hs : w.store.snapshot = some snap) :
    handed w.store now =
      (w.written.filter (fun x => snap.createdAt ≤ x.1.wall && x.1.wall ≤ now)).map entryOf := by
  simp only [handed, hs, query, h.answered, if_true, h.entries]
  rw [List.filter_map]
  congr 1
  apply List.filter_congr
  intro x _
  exact Bool.and_true _

omit [DoubleArith F] in
/-- Of two written events with one number, or for one change, there is only one. -/
theorem written_unique (hc : (changeIds w).Nodup)
    (hn : (w.written.map Prod.snd).Nodup) (x y : Stamped F × ℕ) (hx : x ∈ w.written)
    (hy : y ∈ w.written) : x.1.change = y.1.change ↔ x.2 = y.2 := by
  have hw : (w.written.map (·.1.change)).Nodup := (List.nodup_append.mp hc).2.1
  constructor
  · intro he
    rw [List.inj_on_of_nodup_map hw hx hy he]
  · intro he
    rw [List.inj_on_of_nodup_map hn hx hy he]

open Classical in
theorem timesReplayed_written (h : Journalled w) (now : Timestamp)
    (snap : SnapshotEntry F) (hs : w.store.snapshot = some snap) (x : Stamped F × ℕ)
    (hx : x ∈ w.written) : timesReplayed w now x.1.change =
      if snap.createdAt ≤ x.1.wall ∧ x.1.wall ≤ now ∧ Legible x.1.event then 1 else 0 := by
  rw [timesReplayed, handed_written w h now snap hs, List.countP_map, List.countP_filter]
  have hcount : w.written.countP (fun y => y.2 == x.2) = 1 := by
    have hmem : x.2 ∈ w.written.map Prod.snd := List.mem_map_of_mem hx
    have hone := List.count_eq_one_of_mem h.numbers hmem
    rwa [List.count_eq_countP, List.countP_map] at hone
  -- a replayed entry counts for the change exactly if it is the change's own
  have hkey : ∀ y ∈ w.written,
      ((((fun e => (appliedOp now e).isSome && w.written.any
        (fun z => z.1.change = x.1.change && z.2 = e.sequenceId)) ∘ entryOf) y &&
        (decide (snap.createdAt ≤ y.1.wall) && decide (y.1.wall ≤ now))) = true ↔
      y.2 = x.2 ∧ snap.createdAt ≤ y.1.wall ∧ y.1.wall ≤ now ∧ Legible y.1.event) := by
    intro y hy
    have hany : w.written.any (fun z => z.1.change = x.1.change && z.2 = y.2) = true ↔
        y.2 = x.2 := by
      rw [List.any_eq_true]
      constructor
      · rintro ⟨z, hz, hm⟩
        simp only [Bool.and_eq_true, decide_eq_true_eq] at hm
        rw [← hm.2]
        exact (written_unique w h.changes h.numbers z x hz hx).mp hm.1
      · intro he
        exact ⟨x, hx, by simp [he]⟩
    rw [Bool.and_eq_true, Bool.and_eq_true, decide_eq_true_eq, decide_eq_true_eq,
      Function.comp_apply, Bool.and_eq_true, appliedOp_entryOf]
    constructor
    · rintro ⟨⟨hl, he⟩, hfrom, huntil⟩
      exact ⟨hany.mp he, hfrom, huntil, hl⟩
    · rintro ⟨he, hfrom, huntil, hl⟩
      exact ⟨⟨hl, hany.mpr he⟩, hfrom, huntil⟩
  split_ifs with hgood
  · rw [← hcount]
    apply List.countP_congr
    intro y hy
    rw [hkey y hy, beq_iff_eq]
    constructor
    · exact fun hy => hy.1
    · intro he
      rw [List.inj_on_of_nodup_map h.numbers hy hx he]
      exact ⟨rfl, hgood⟩
  · rw [List.countP_eq_zero]
    intro y hy hcounted
    obtain ⟨he, hgoody⟩ := (hkey y hy).mp hcounted
    rw [List.inj_on_of_nodup_map h.numbers hy hx he] at hgoody
    exact hgood hgoody

/-- The state after a crash is recovered as it should exactly if every written event
fits the stored snapshot. -/
theorem appliedOnce_iff (now : Timestamp) (w : World F) (h : Journalled w) :
    AppliedOnce now w ↔ ∀ t, w.stored = some t → ∀ snap, w.store.snapshot = some snap →
      ∀ x ∈ w.written, Fits now t.covers snap.createdAt x.1 := by
  classical
  have hone : ∀ t, w.stored = some t → ∀ snap, w.store.snapshot = some snap →
      ∀ x ∈ w.written, (timesRestored w x.1.change + timesReplayed w now x.1.change = 1 ↔
        Fits now t.covers snap.createdAt x.1) := by
    intro t ht snap hs x hx
    rw [timesReplayed_written w h now snap hs x hx, timesRestored, ht, Option.elim_some, Fits]
    by_cases hc : x.1.change < t.covers <;>
      by_cases hr : snap.createdAt ≤ x.1.wall ∧ x.1.wall ≤ now ∧ Legible x.1.event <;>
      simp [hc, hr]
  constructor
  · intro ha t ht snap hs x hx
    exact (hone t ht snap hs x hx).mp (ha (by rw [hs]; rfl) x hx)
  · intro hf hsome x hx
    obtain ⟨snap, hs⟩ := Option.isSome_iff_exists.mp hsome
    obtain ⟨t, ht⟩ := Option.isSome_iff_exists.mp (h.origin ▸ hsome)
    exact (hone t ht snap hs x hx).mpr (hf t ht snap hs x hx)

theorem appliedOnce_same (now : Timestamp) (w v : World F) (hstore : v.store = w.store)
    (hwritten : v.written = w.written) (hstored : v.stored = w.stored)
    (h : AppliedOnce now w) : AppliedOnce now v := by
  unfold AppliedOnce timesRestored timesReplayed at *
  rw [hstore, hwritten, hstored]
  exact h

end Replay

section Runs

variable (now : Timestamp)

theorem append_appliedOnce (w : World F) (h : Journalled w)
    (ha : AppliedOnce now w) (i : ℕ) (stored : Bool) :
    AppliedOnce now (append w i stored) ↔ InOrder now w (.append i stored) := by
  cases hs : w.stamped[i]? with
  | none =>
    have hsame : append w i stored = w := by simp [append, hs]
    rw [hsame]
    cases stored with
    | false => exact iff_of_true ha trivial
    | true => exact iff_of_true ha (fun s hs' => absurd (hs.symm.trans hs') (by simp))
  | some s =>
    cases stored with
    | false =>
      rw [append_refused_at w i s hs]
      exact iff_of_true (appliedOnce_same now w _ rfl rfl rfl ha) trivial
    | true =>
      have hj := journalled_append w h i true
      rw [appliedOnce_iff now w h] at ha
      rw [appliedOnce_iff now _ hj, append_stored_at w i s hs h.enabled]
      constructor
      · intro hf s' hs' t ht snap hsnap
        rw [hs, Option.some.injEq] at hs'
        rw [← hs']
        exact hf t ht snap hsnap (s, w.store.journal.sequenceCounter + 1)
          (List.mem_append_right _ (List.mem_singleton.mpr rfl))
      · intro hin t ht snap hsnap x hx
        rcases List.mem_append.mp hx with hx | hx
        · exact ha t ht snap hsnap x hx
        · rw [List.mem_singleton.mp hx]
          exact hin s hs t ht snap hsnap

theorem save_appliedOnce (w : World F) (h : Journalled w) (ha : AppliedOnce now w) (stored : Bool) :
    AppliedOnce now (save w stored) ↔ InOrder now w (.save stored) := by
  cases hs : w.saving with
  | none =>
    have hsame : save w stored = w := by simp [save, hs]
    rw [hsame]
    cases stored with
    | false => exact iff_of_true ha trivial
    | true => exact iff_of_true ha (fun t wall hs' => absurd (hs.symm.trans hs') (by simp))
  | some x =>
    obtain ⟨t, wall⟩ := x
    cases stored with
    | false =>
      refine iff_of_true (appliedOnce_same now w _ ?_ ?_ ?_ ha) trivial
      all_goals simp [save, hs, persistPortfolioSnapshot]
    | true =>
      rw [appliedOnce_iff now _ (journalled_save w h true)]
      have hstored : (save w true).stored = some t := by simp [save, hs]
      have hwritten : (save w true).written = w.written := by simp [save, hs]
      have hsnap : (save w true).store.snapshot = some
          ⟨w.snapshotCounter + 1, wall, portfolioSnapshotJson t.symbol t.portfolio t.now⟩ := by
        simp [save, hs, persistPortfolioSnapshot, h.enabled]
      rw [hstored, hwritten, hsnap]
      constructor
      · intro hf t' wall' hs' x hx
        rw [hs, Option.some.injEq, Prod.mk.injEq] at hs'
        obtain ⟨rfl, rfl⟩ := hs'
        exact hf t rfl _ rfl x hx
      · rintro hin t' ht' snap hsnap' x hx
        rw [Option.some.injEq] at ht' hsnap'
        rw [← ht', ← hsnap']
        exact hin t wall hs x hx

theorem appliedOnce_step (w : World F) (e : Event F) (h : Journalled w)
    (ha : AppliedOnce now w) : AppliedOnce now (worldStep w e) ↔ InOrder now w e := by
  cases e with
  | tick | change => exact iff_of_true (appliedOnce_same now w _ rfl rfl rfl ha) trivial
  | stamp i at' openedAt =>
    refine iff_of_true ?_ trivial
    simp only [worldStep, stamp]
    split
    · exact ha
    · exact appliedOnce_same now w _ rfl rfl rfl ha
  | append i stored => exact append_appliedOnce now w h ha i stored
  | take symbol at' => exact iff_of_true (appliedOnce_same now w _ rfl rfl rfl ha) trivial
  | lock i =>
    refine iff_of_true ?_ trivial
    simp only [worldStep, lock]
    split
    · exact appliedOnce_same now w _ rfl rfl rfl ha
    · exact ha
  | save stored => exact save_appliedOnce now w h ha stored

def Covered (p : Portfolio F) (made : List (PortfolioOp F)) (t : Taken F) : Prop :=
  t.covers ≤ made.length ∧ t.portfolio = Runs.run portfolioStep p (made.take t.covers)

structure Shown (p : Portfolio F) (w : World F) : Prop where
  enabled : w.store.enabled = true
  portfolio : w.portfolio = Runs.run portfolioStep p w.made
  taken : ∀ t ∈ w.taken, Covered p w.made t
  saving : ∀ t wall, w.saving = some (t, wall) → Covered p w.made t
  stored : ∀ snap, w.store.snapshot = some snap → ∃ t, w.stored = some t ∧ Covered p w.made t ∧
    snap.payloadJson = portfolioSnapshotJson t.symbol t.portfolio t.now

variable (p : Portfolio F)

theorem covered_made (made : List (PortfolioOp F)) (op : PortfolioOp F)
    (t : Taken F) (h : Covered p made t) : Covered p (made ++ [op]) t := by
  refine ⟨by simpa using Nat.le_succ_of_le h.1, ?_⟩
  rw [List.take_append_of_le_length h.1]
  exact h.2

variable (w : World F)

theorem shown_change (h : Shown p w) (op : PortfolioOp F)
    (event : Option (PositionEvent F)) : Shown p (change w op event) where
  enabled := h.enabled
  portfolio := by
    simp only [change]
    rw [Runs.run_append, ← h.portfolio]
    rfl
  taken := fun t ht => covered_made p w.made op t (h.taken t ht)
  saving := fun t wall ht => covered_made p w.made op t (h.saving t wall ht)
  stored := by
    intro snap hs
    obtain ⟨t, ht, hc, hp⟩ := h.stored snap hs
    exact ⟨t, ht, covered_made p w.made op t hc, hp⟩

theorem shown_kept (w v : World F) (h : Shown p w)
    (henabled : v.store.enabled = true) (hsnap : v.store.snapshot = w.store.snapshot)
    (hportfolio : v.portfolio = w.portfolio) (hmade : v.made = w.made) (htaken : v.taken = w.taken)
    (hsaving : v.saving = w.saving) (hstored : v.stored = w.stored) : Shown p v where
  enabled := henabled
  portfolio := by rw [hportfolio, hmade, h.portfolio]
  taken := by rw [htaken, hmade]; exact h.taken
  saving := by rw [hsaving, hmade]; exact h.saving
  stored := by rw [hsnap, hstored, hmade]; exact h.stored

theorem shown_append (h : Shown p w) (i : ℕ) (stored : Bool) : Shown p (append w i stored) := by
  cases hs : w.stamped[i]? with
  | none => simpa [append, hs] using h
  | some s =>
    cases stored with
    | false =>
      rw [append_refused_at w i s hs]
      exact shown_kept p w _ h h.enabled rfl rfl rfl rfl rfl rfl
    | true =>
      rw [append_stored_at w i s hs h.enabled]
      exact shown_kept p w _ h h.enabled rfl rfl rfl rfl rfl rfl

theorem shown_lock (h : Shown p w) (i : ℕ) : Shown p (lock w i) := by
  unfold lock
  split
  · rename_i t hs ht
    exact
      { enabled := h.enabled
        portfolio := h.portfolio
        taken := fun t' ht' => h.taken t' (List.mem_of_mem_eraseIdx ht')
        saving := by
          intro t' wall he
          rw [Option.some.injEq, Prod.mk.injEq] at he
          rw [← he.1]
          exact h.taken t (List.mem_of_getElem? ht)
        stored := h.stored }
  · exact h

theorem shown_save (h : Shown p w) (stored : Bool) : Shown p (save w stored) := by
  cases hs : w.saving with
  | none => simpa [save, hs] using h
  | some x =>
    obtain ⟨t, wall⟩ := x
    cases stored with
    | false =>
      exact
        { enabled := by simpa [save, hs, persistPortfolioSnapshot] using h.enabled
          portfolio := by simpa [save, hs] using h.portfolio
          taken := by simpa [save, hs] using h.taken
          saving := by simp [save, hs]
          stored := by simpa [save, hs, persistPortfolioSnapshot] using h.stored }
    | true =>
      exact
        { enabled := by simp [save, hs, persistPortfolioSnapshot, h.enabled]
          portfolio := by simpa [save, hs] using h.portfolio
          taken := by simpa [save, hs] using h.taken
          saving := by simp [save, hs]
          stored := by
            simp only [save, hs, persistPortfolioSnapshot, h.enabled, Bool.not_true,
              Bool.or_false, Bool.false_eq_true, if_false, if_true]
            rintro snap hsnap
            rw [Option.some.injEq] at hsnap
            exact ⟨t, rfl, h.saving t wall hs, by rw [← hsnap]⟩ }

theorem shown_step (e : Event F) (h : Shown p w) : Shown p (worldStep w e) := by
  cases e with
  | tick elapsed => exact shown_kept p w _ h h.enabled rfl rfl rfl rfl rfl rfl
  | change op event => exact shown_change p w h op event
  | stamp i now openedAt =>
    simp only [worldStep, stamp]
    split
    · exact h
    · exact shown_kept p w _ h h.enabled rfl rfl rfl rfl rfl rfl
  | append i stored => exact shown_append p w h i stored
  | take symbol now =>
    exact
      { enabled := h.enabled
        portfolio := h.portfolio
        taken := by
          intro t ht
          rcases List.mem_append.mp ht with ht | ht
          · exact h.taken t ht
          · rw [List.mem_singleton.mp ht]
            refine ⟨le_refl _, ?_⟩
            show w.portfolio = Runs.run portfolioStep p (w.made.take w.made.length)
            rw [List.take_length]
            exact h.portfolio
        saving := h.saving
        stored := h.stored }
  | lock i => exact shown_lock p w h i
  | save stored => exact shown_save p w h stored

theorem start_shown (clock : Timestamp) : Shown p (start p clock) where
  enabled := rfl
  portfolio := rfl
  taken := by simp [start]
  saving := by simp [start]
  stored := by simp [start]

/-- The stored payload always shows the operations it covers; the recovery counts
each journalled change once exactly in the runs in which every entry and every
snapshot fits the other. -/
theorem applied_once_iff (p : Portfolio F) (clock now : Timestamp) (events : List (Event F)) :
    Runs.Always worldStep (CoversStored p) (start p clock) events ∧
      (Runs.Always worldStep (AppliedOnce now) (start p clock) events ↔
        Runs.Meets worldStep (InOrder now) (start p clock) events) := by
  constructor
  · have hshown : Runs.Always worldStep (Shown p) (start p clock) events :=
      Runs.always_of_meets worldStep (fun w e h (_ : True) => shown_step p w e h) _ _
        (start_shown p clock) (Runs.meets_true worldStep _ _)
    refine Runs.always_mono worldStep (fun w h => ?_) _ _ hshown
    intro snap hs
    obtain ⟨t, ht, hc, hp⟩ := h.stored snap hs
    exact ⟨t, ht, hc.1, by rw [hp, hc.2]⟩
  · exact Runs.always_iff_meets worldStep (fun w e h => journalled_step w e h)
      (fun w e h ha => appliedOnce_step now w e h ha) _ _ (start_journalled p clock)
      (fun hs => absurd hs (by simp [start]))

end Runs

section Counterexample

def zero : Stamp := ⟨0, by simp [Reading]⟩

def opening : Event ℚ :=
  .change (.openPosition 0 ⟨"BTCUSDT", .sell, .short, 2, 100, 100, 200, 0, 0, 0, "scalp", 0, 0⟩)
    (some (.opened "BTCUSDT" .short 100 2 "scalp"))

def journalledLate : List (Event ℚ) :=
  [opening, .take "BTCUSDT" zero, .lock 0, .stamp 0 zero zero, .append 0 true, .save true]

def journalledEarly : List (Event ℚ) :=
  [.take "BTCUSDT" zero, opening, .stamp 0 zero zero, .append 0 true, .tick 1, .lock 0, .save true]

def journalledAfter : List (Event ℚ) :=
  [.take "BTCUSDT" zero, .lock 0, .save true, opening, .stamp 0 zero zero, .append 0 true]

def afterRun (events : List (Event ℚ)) : World ℚ :=
  Runs.run worldStep (start (initPortfolio 1000) 10) events

theorem afterRun_iff (events : List (Event ℚ)) (now : Timestamp) (covers : ℕ)
    (createdAt : Timestamp) (s : Stamped ℚ)
    (hcovers : (afterRun events).stored.map Taken.covers = some covers)
    (hcreated : (afterRun events).store.snapshot.map SnapshotEntry.createdAt = some createdAt)
    (hwritten : (afterRun events).written.map Prod.fst = [s]) :
    AppliedOnce now (afterRun events) ↔ Fits now covers createdAt s := by
  have hj : Journalled (afterRun events) :=
    Runs.invariant_run worldStep (fun w e h (_ : True) => journalled_step w e h) _ _
      (start_journalled _ _) (Runs.meets_true worldStep _ _)
  obtain ⟨t, ht, rfl⟩ := Option.map_eq_some_iff.mp hcovers
  obtain ⟨snap, hs, rfl⟩ := Option.map_eq_some_iff.mp hcreated
  obtain ⟨x, hw, rfl⟩ := List.map_eq_singleton_iff.mp hwritten
  rw [appliedOnce_iff now _ hj, ht, hs, hw]
  constructor
  · exact fun hf => hf t rfl snap rfl x (List.mem_singleton.mpr rfl)
  · intro hf t' ht' snap' hs' x' hx'
    rw [Option.some.injEq] at ht' hs'
    rw [← ht', ← hs', List.mem_singleton.mp hx']
    exact hf

def shortOpening (change : ℕ) : Stamped ℚ :=
  ⟨change, .opened "BTCUSDT" .short 100 2 "scalp", zero, zero, 10⟩

/-- One opening is counted twice, one never, and one never for a recovery whose clock
counts from the start of the machine. -/
theorem opening_twice_or_never : ¬ AppliedOnce 20 (afterRun journalledLate) ∧
    ¬ AppliedOnce 20 (afterRun journalledEarly) ∧ AppliedOnce 20 (afterRun journalledAfter) ∧
    ¬ AppliedOnce 5 (afterRun journalledAfter) := by
  have hlegible : Legible (shortOpening 0).event := ⟨by decide, by decide +kernel⟩
  have hlate := afterRun_iff journalledLate 20 1 10 (shortOpening 0) rfl rfl rfl
  have hearly := afterRun_iff journalledEarly 20 0 11 (shortOpening 0) rfl rfl rfl
  have hafter := fun now => afterRun_iff journalledAfter now 0 10 (shortOpening 0) rfl rfl rfl
  rw [hlate, hearly, hafter, hafter]
  refine ⟨?_, ?_, ?_, ?_⟩ <;> simp [Fits, hlegible] <;> simp [shortOpening]

end Counterexample

end TB.SnapshotRaces
