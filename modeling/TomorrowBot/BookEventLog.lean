import TomorrowBot.OrderBook
import TomorrowBot.Runs

/-!
# The events of a delta as a log of its changes

The events are written while the levels are applied. Replayed in order on the
sides from before the delta they give the sides after it, and each event names
the size that its price had just before.
-/

set_option autoImplicit false

namespace TB.BookEventLog
open TB.CommonTypes TB.OrderBook

section Replay
variable {F : Type} [DoubleArith F]

def replayLevel (m : List (F × F)) (ev : BookEvent F) : List (F × F) :=
  match ev.type with
  | .levelAdded | .levelUpdated =>
    SortedEntries.insertOrAssign (priceBefore ev.side) ev.price ev.newSize m
  | .levelRemoved => SortedEntries.erase (priceBefore ev.side) ev.price m
  | .topChanged => m

abbrev Sides (F : Type) := List (F × F) × List (F × F)

def sideOf (s : Sides F) : BookSide → List (F × F)
  | .bid => s.1
  | .ask => s.2

def replayEvent (s : Sides F) (ev : BookEvent F) : Sides F :=
  match ev.side with
  | .bid => (replayLevel s.1 ev, s.2)
  | .ask => (s.1, replayLevel s.2 ev)

def Fits (m : List (F × F)) (ev : BookEvent F) : Prop :=
  match ev.type with
  | .levelAdded =>
    SortedEntries.find (priceBefore ev.side) ev.price m = none ∧ ev.oldSize = 0
  | .levelRemoved =>
    SortedEntries.find (priceBefore ev.side) ev.price m = some ev.oldSize ∧ ev.newSize = 0
  | .levelUpdated => SortedEntries.find (priceBefore ev.side) ev.price m = some ev.oldSize
  | .topChanged => False

def AllFit : Sides F → List (BookEvent F) → Prop
  | _, [] => True
  | s, ev :: evs => Fits (sideOf s ev.side) ev ∧ AllFit (replayEvent s ev) evs

def countOf (type : BookEventType) (evs : List (BookEvent F)) : ℕ :=
  evs.countP (fun ev => ev.type == type)

structure Logs (s s' : Sides F) (batch : BookEventBatch F) : Prop where
  replays : batch.events.foldl replayEvent s = s'
  fits : AllFit s batch.events
  added : batch.levelsAdded = countOf .levelAdded batch.events
  removed : batch.levelsRemoved = countOf .levelRemoved batch.events
  updated : batch.levelsUpdated = countOf .levelUpdated batch.events

def sides (b : LocalOrderBook F) : Sides F := (b.bids, b.asks)

structure DeltaLogged (b : LocalOrderBook F) (out : DeltaOutcome F) : Prop where
  emitted : ∀ batch, out.emitted = some batch → Logs (sides b) (sides out.book) batch
  silent : out.accepted = true → out.emitted = none → sides out.book = sides b
  refused : out.accepted = false → out.emitted = none

end Replay

section Composition
variable {F : Type} [DoubleArith F] (s : Sides F)

theorem allFit_append (xs ys : List (BookEvent F)) :
    AllFit s (xs ++ ys) ↔ AllFit s xs ∧ AllFit (xs.foldl replayEvent s) ys := by
  induction xs generalizing s with
  | nil => simp [AllFit]
  | cons ev xs ih => simp [AllFit, ih, and_assoc]

theorem Logs.snoc {s s' : Sides F} {batch : BookEventBatch F} (h : Logs s s' batch)
    (ev : BookEvent F) (hfit : Fits (sideOf s' ev.side) ev) (next : BookEventBatch F)
    (hevents : next.events = batch.events ++ [ev])
    (ha : next.levelsAdded = batch.levelsAdded + countOf .levelAdded [ev])
    (hr : next.levelsRemoved = batch.levelsRemoved + countOf .levelRemoved [ev])
    (hu : next.levelsUpdated = batch.levelsUpdated + countOf .levelUpdated [ev]) :
    Logs s (replayEvent s' ev) next := by
  refine ⟨?_, ?_, ?_, ?_, ?_⟩
  · rw [hevents, List.foldl_append, h.replays]
    rfl
  · rw [hevents, allFit_append, h.replays]
    exact ⟨h.fits, hfit, trivial⟩
  · rw [hevents, ha, h.added, countOf, countOf, countOf, List.countP_append]
  · rw [hevents, hr, h.removed, countOf, countOf, countOf, List.countP_append]
  · rw [hevents, hu, h.updated, countOf, countOf, countOf, List.countP_append]

theorem Logs.unchanged {s s' : Sides F} {batch : BookEventBatch F} (h : Logs s s' batch)
    (hnone : batch.events = []) : s' = s := by
  have hreplay := h.replays
  rw [hnone] at hreplay
  exact hreplay.symm

def setSide (s : Sides F) (side : BookSide) (m : List (F × F)) : Sides F :=
  match side with
  | .bid => (m, s.2)
  | .ask => (s.1, m)

omit [DoubleArith F] in
theorem sideOf_setSide (side : BookSide) (m : List (F × F)) :
    sideOf (setSide s side m) side = m := by
  cases side <;> rfl

theorem replayEvent_setSide (m : List (F × F)) (ev : BookEvent F) :
    replayEvent (setSide s ev.side m) ev = setSide s ev.side (replayLevel m ev) := by
  unfold replayEvent setSide
  cases ev.side <;> rfl

theorem applyLevelWithEvents_logs (s s' : Sides F) (side : BookSide) (ts : Timestamp)
    (m : List (F × F)) (batch : BookEventBatch F) (lvl : BookLevel F)
    (h : Logs s (setSide s' side m) batch) :
    Logs s (setSide s' side (applyLevelWithEvents side ts (m, batch) lvl).1)
      (applyLevelWithEvents side ts (m, batch) lvl).2 := by
  have hlog : ∀ ev : BookEvent F, ev.side = side → Fits m ev → ∀ next : BookEventBatch F,
      next.events = batch.events ++ [ev] →
      next.levelsAdded = batch.levelsAdded + countOf .levelAdded [ev] →
      next.levelsRemoved = batch.levelsRemoved + countOf .levelRemoved [ev] →
      next.levelsUpdated = batch.levelsUpdated + countOf .levelUpdated [ev] →
      Logs s (setSide s' side (replayLevel m ev)) next := by
    rintro ev rfl hfit next he ha hr hu
    have hnext := h.snoc ev (by rwa [sideOf_setSide]) next he ha hr hu
    rwa [replayEvent_setSide] at hnext
  unfold applyLevelWithEvents
  dsimp only
  split_ifs with hprice hzero hpos
  · exact h
  · rcases hfound : SortedEntries.find (priceBefore side) lvl.price m with _ | old
    · exact h
    · exact hlog ⟨.levelRemoved, side, lvl.price, old, 0, ts, false⟩ rfl ⟨hfound, rfl⟩ _ rfl rfl
        rfl rfl
  · rcases hfound : SortedEntries.find (priceBefore side) lvl.price m with _ | old
    · exact hlog ⟨.levelAdded, side, lvl.price, 0, lvl.size, ts, false⟩ rfl ⟨hfound, rfl⟩ _ rfl
        rfl rfl rfl
    · exact hlog ⟨.levelUpdated, side, lvl.price, old, lvl.size, ts, false⟩ rfl hfound _ rfl rfl
        rfl rfl
  · exact h

theorem applyBookLevelsWithEvents_logs (s s' : Sides F) (side : BookSide) (ts : Timestamp)
    (levels : List (BookLevel F)) (m : List (F × F)) (batch : BookEventBatch F)
    (h : Logs s (setSide s' side m) batch) :
    Logs s (setSide s' side (applyBookLevelsWithEvents side ts m levels batch).1)
      (applyBookLevelsWithEvents side ts m levels batch).2 := by
  unfold applyBookLevelsWithEvents
  induction levels generalizing m batch with
  | nil => exact h
  | cons lvl levels ih => exact ih _ _ (applyLevelWithEvents_logs s s' side ts m batch lvl h)

end Composition

section Marks
variable {F : Type} [DoubleArith F]

/-- A change of the mark for the top of the book changes nothing in the replay. -/
theorem marked_logs (s s' : Sides F) (batch next : BookEventBatch F) (f : BookEvent F → Bool)
    (h : Logs s s' batch)
    (hevents : next.events = batch.events.map (fun ev =>
      if f ev then { ev with isTopOfBook := true } else ev))
    (ha : next.levelsAdded = batch.levelsAdded) (hr : next.levelsRemoved = batch.levelsRemoved)
    (hu : next.levelsUpdated = batch.levelsUpdated) : Logs s s' next := by
  have hreplay : ∀ (t : Sides F) (ev : BookEvent F),
      replayEvent t (if f ev then { ev with isTopOfBook := true } else ev) = replayEvent t ev := by
    intro t ev
    split_ifs <;> rfl
  have hfit : ∀ (evs : List (BookEvent F)) (t : Sides F), AllFit t evs → AllFit t (evs.map
      (fun ev => if f ev then { ev with isTopOfBook := true } else ev)) := by
    intro evs
    induction evs with
    | nil => exact fun _ _ => trivial
    | cons ev evs ih =>
      rintro t ⟨hev, hrest⟩
      rw [List.map_cons]
      refine ⟨?_, ?_⟩
      · by_cases hf : f ev = true
        · rw [if_pos hf]
          exact hev
        · rw [if_neg hf]
          exact hev
      · rw [hreplay]
        exact ih _ hrest
  have hcount : ∀ type, countOf type next.events = countOf type batch.events := by
    intro type
    rw [hevents, countOf, countOf, List.countP_map]
    apply List.countP_congr
    intro ev _
    by_cases hf : f ev = true
    · simp only [Function.comp, if_pos hf]
    · simp only [Function.comp, if_neg hf]
  refine ⟨?_, ?_, ?_, ?_, ?_⟩
  · rw [hevents, List.foldl_map, ← h.replays]
    simp only [hreplay]
  · rw [hevents]
    exact hfit _ _ h.fits
  · rw [ha, h.added, hcount]
  · rw [hr, h.removed, hcount]
  · rw [hu, h.updated, hcount]

theorem markTop_logs (s s' : Sides F) (oldBid newBid oldAsk newAsk : F)
    (batch : BookEventBatch F) (h : Logs s s' batch) :
    Logs s s' (markTop oldBid newBid oldAsk newAsk batch) := by
  unfold markTop
  split_ifs
  · exact marked_logs s s' batch _ _ h rfl rfl rfl rfl
  · exact h

end Marks

section Delta
variable {F : Type} [DoubleArith F]

theorem refused_logged (b book : LocalOrderBook F) : DeltaLogged b (OrderBook.refused book) :=
  ⟨fun _ h => (by cases h), fun h => (by cases h), fun _ => rfl⟩

theorem applyNext_logged (b : LocalOrderBook F) (delta : NormalizedOrderBook F) :
    DeltaLogged b (applyNext b delta) := by
  have hempty : Logs (sides b) (setSide (sides b) .bid b.bids)
      ⟨b.symbol, [], 0, 0, 0, 0, delta.envelope.processedTs⟩ :=
    ⟨rfl, trivial, rfl, rfl, rfl⟩
  have hbids := applyBookLevelsWithEvents_logs (sides b) (sides b) .bid
    delta.envelope.processedTs delta.bids b.bids _ hempty
  have hasks := applyBookLevelsWithEvents_logs (sides b) (setSide (sides b) .bid
    (applyBookLevelsWithEvents .bid delta.envelope.processedTs b.bids delta.bids
      ⟨b.symbol, [], 0, 0, 0, 0, delta.envelope.processedTs⟩).1) .ask
    delta.envelope.processedTs delta.asks b.asks _ hbids
  have hmarked := fun newBid newAsk => markTop_logs _ _ (bestPrice b.bids) newBid
    (bestPrice b.asks) newAsk _ hasks
  unfold applyNext
  dsimp only
  split_ifs with hcrossed hnone
  · exact refused_logged b _
  · refine ⟨fun _ h => (by cases h), fun _ _ => ?_, fun h => (by cases h)⟩
    exact (hmarked _ _).unchanged hnone
  · refine ⟨fun batch h => ?_, fun _ h => (by cases h), fun h => (by cases h)⟩
    cases h
    exact hmarked _ _

/-- The events that a delta emits are an exact log of what it changed. -/
theorem delta_logged (b : LocalOrderBook F) (delta : NormalizedOrderBook F) :
    DeltaLogged b (applyDelta b delta) := by
  unfold applyDelta
  split_ifs
  · exact refused_logged b b
  · exact refused_logged b b
  · exact refused_logged b _
  · exact applyNext_logged b delta

end Delta

section Feed
variable {F : Type} [DoubleArith F]

def deltaStep (b : LocalOrderBook F) (delta : NormalizedOrderBook F) : LocalOrderBook F :=
  (applyDelta b delta).book

def emittedEvents : LocalOrderBook F → List (NormalizedOrderBook F) → List (BookEvent F)
  | _, [] => []
  | b, delta :: deltas =>
    (applyDelta b delta).emitted.elim [] BookEventBatch.events ++
      emittedEvents (deltaStep b delta) deltas

theorem replays_step (b : LocalOrderBook F) (delta : NormalizedOrderBook F)
    (h : (deltaStep b delta).quality ≠ .desynced) :
    ((applyDelta b delta).emitted.elim [] BookEventBatch.events).foldl replayEvent (sides b) =
      sides (deltaStep b delta) := by
  unfold deltaStep applyDelta at h ⊢
  split_ifs at h ⊢
  · rfl
  · rfl
  · exact absurd rfl h
  · have hlogged := applyNext_logged b delta
    cases hemitted : (applyNext b delta).emitted with
    | some batch => exact (hlogged.emitted batch hemitted).replays
    | none =>
      refine (hlogged.silent ?_ hemitted).symm
      unfold applyNext at h ⊢
      dsimp only at h ⊢
      split_ifs at h ⊢
      · exact absurd rfl h
      · rfl
      · rfl

theorem desynced_run (deltas : List (NormalizedOrderBook F)) (b : LocalOrderBook F)
    (h : b.quality = .desynced) : (Runs.run deltaStep b deltas).quality = .desynced := by
  induction deltas generalizing b with
  | nil => exact h
  | cons delta deltas ih =>
    apply ih
    unfold deltaStep applyDelta
    rw [if_pos (Or.inr h)]
    exact h

/-- A subscriber that replays everything it is handed has the levels of the book until the
book reports that it is out of step. -/
theorem deltas_replay (deltas : List (NormalizedOrderBook F)) (b : LocalOrderBook F)
    (h : (Runs.run deltaStep b deltas).quality ≠ .desynced) :
    (emittedEvents b deltas).foldl replayEvent (sides b) =
      sides (Runs.run deltaStep b deltas) := by
  induction deltas generalizing b with
  | nil => rfl
  | cons delta deltas ih =>
    rw [emittedEvents, List.foldl_append,
      replays_step b delta fun hdown => h (desynced_run deltas _ hdown)]
    exact ih _ h

def heldBook : LocalOrderBook ℚ := ⟨"BTCUSDT", [(99, 2)], [(101, 1)], 7, .valid, 0⟩

def twoDeltas : List (NormalizedOrderBook ℚ) :=
  [⟨⟨1, 1, 1, "BTCUSDT", "bitget", 8⟩, .delta, [⟨99, 0⟩, ⟨100, 3⟩], [], 8⟩,
    ⟨⟨2, 2, 2, "BTCUSDT", "bitget", 9⟩, .delta, [], [⟨101, 5⟩], 9⟩]

theorem deltas_replay_held :
    (Runs.run deltaStep heldBook twoDeltas).quality ≠ .desynced ∧
      (emittedEvents heldBook twoDeltas).foldl replayEvent (sides heldBook) =
        sides (Runs.run deltaStep heldBook twoDeltas) :=
  have h : (Runs.run deltaStep heldBook twoDeltas).quality ≠ .desynced := by decide +kernel
  ⟨h, deltas_replay twoDeltas heldBook h⟩

end Feed

end TB.BookEventLog
