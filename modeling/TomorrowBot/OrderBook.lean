import TomorrowBot.CommonTypes
import TomorrowBot.SortedEntries

/-!
# The local order book

Both sides are maps from prices to sizes, best price first. A snapshot replaces
them, a delta changes them if it continues the sequence. The levels of a delta
are logged as events, which are emitted only when the delta is accepted.
-/

set_option autoImplicit false

namespace TB.OrderBook
open TB.CommonTypes

structure EventEnvelope where
  exchangeTs : Timestamp
  receivedTs : Timestamp
  processedTs : Timestamp
  symbol : Symbol
  source : String
  sequenceId : UInt64
  deriving DecidableEq, Repr

structure BookLevel (F : Type) where
  price : F
  size : F
  deriving DecidableEq

inductive BookUpdateType where
  | snapshot
  | delta
  deriving DecidableEq, Repr

structure NormalizedOrderBook (F : Type) where
  envelope : EventEnvelope
  updateType : BookUpdateType
  bids : List (BookLevel F)
  asks : List (BookLevel F)
  sequence : UInt64
  deriving DecidableEq

inductive BookQuality where
  | valid
  | stale
  | desynced
  | uninitialized
  deriving DecidableEq, Repr

inductive BookEventType where
  | levelAdded
  | levelRemoved
  | levelUpdated
  | topChanged
  deriving DecidableEq, Repr

inductive BookSide where
  | bid
  | ask
  deriving DecidableEq, Repr

structure BookEvent (F : Type) where
  type : BookEventType
  side : BookSide
  price : F
  oldSize : F
  newSize : F
  timestamp : Timestamp
  isTopOfBook : Bool

structure BookEventBatch (F : Type) where
  symbol : Symbol
  events : List (BookEvent F)
  topChanges : ℕ
  levelsAdded : ℕ
  levelsRemoved : ℕ
  levelsUpdated : ℕ
  timestamp : Timestamp

structure LocalOrderBook (F : Type) where
  symbol : Symbol
  bids : List (F × F)
  asks : List (F × F)
  lastSequence : UInt64
  quality : BookQuality
  lastUpdated : Timestamp

section Levels
variable {F : Type} [DoubleArith F]

def doubleEq (a b : F) : Bool := decide (a ≤ b) && decide (b ≤ a)

def priceBefore : BookSide → F → F → Bool
  | .bid, a, b => decide (b < a)
  | .ask, a, b => decide (a < b)

def applyLevelSimple (side : BookSide) (m : List (F × F)) (lvl : BookLevel F) : List (F × F) :=
  if lvl.price ≤ 0 then m
  else if doubleEq lvl.size 0 then SortedEntries.erase (priceBefore side) lvl.price m
  else if 0 < lvl.size then
    SortedEntries.insertOrAssign (priceBefore side) lvl.price lvl.size m
  else m

def applyBookLevelsSimple (side : BookSide) (m : List (F × F)) (levels : List (BookLevel F)) :
    List (F × F) :=
  levels.foldl (applyLevelSimple side) m

def logEvent (batch : BookEventBatch F) (side : BookSide) (ts : Timestamp)
    (type : BookEventType) (price oldSize newSize : F) : BookEventBatch F :=
  { batch with events := batch.events ++ [⟨type, side, price, oldSize, newSize, ts, false⟩] }

def applyLevelWithEvents (side : BookSide) (ts : Timestamp)
    (s : List (F × F) × BookEventBatch F) (lvl : BookLevel F) :
    List (F × F) × BookEventBatch F :=
  let found := SortedEntries.find (priceBefore side) lvl.price s.1
  if lvl.price ≤ 0 then s
  else if doubleEq lvl.size 0 then
    match found with
    | none => s
    | some oldSize =>
      (SortedEntries.erase (priceBefore side) lvl.price s.1,
        { logEvent s.2 side ts .levelRemoved lvl.price oldSize 0 with
          levelsRemoved := s.2.levelsRemoved + 1 })
  else if 0 < lvl.size then
    match found with
    | none =>
      (SortedEntries.insertOrAssign (priceBefore side) lvl.price lvl.size s.1,
        { logEvent s.2 side ts .levelAdded lvl.price 0 lvl.size with
          levelsAdded := s.2.levelsAdded + 1 })
    | some oldSize =>
      (SortedEntries.insertOrAssign (priceBefore side) lvl.price lvl.size s.1,
        { logEvent s.2 side ts .levelUpdated lvl.price oldSize lvl.size with
          levelsUpdated := s.2.levelsUpdated + 1 })
  else s

def applyBookLevelsWithEvents (side : BookSide) (ts : Timestamp) (m : List (F × F))
    (levels : List (BookLevel F)) (batch : BookEventBatch F) :
    List (F × F) × BookEventBatch F :=
  levels.foldl (applyLevelWithEvents side ts) (m, batch)

def bestPrice (m : List (F × F)) : F :=
  match m with
  | [] => 0
  | best :: _ => best.1

def detectCrossedBook (bids asks : List (F × F)) : Bool :=
  match bids, asks with
  | bid :: _, ask :: _ => decide (ask.1 ≤ bid.1)
  | _, _ => false

end Levels

section Book
variable {F : Type} [DoubleArith F]

def init (symbol : Symbol) : LocalOrderBook F := ⟨symbol, [], [], 0, .uninitialized, 0⟩

def applySnapshot (b : LocalOrderBook F) (snap : NormalizedOrderBook F) : LocalOrderBook F :=
  if snap.envelope.symbol ≠ b.symbol then b
  else
    let bids := applyBookLevelsSimple .bid [] snap.bids
    let asks := applyBookLevelsSimple .ask [] snap.asks
    { b with
      bids := bids
      asks := asks
      lastSequence := snap.sequence
      lastUpdated := snap.envelope.processedTs
      quality := if detectCrossedBook bids asks then .desynced else .valid }

def markTop (oldBid newBid oldAsk newAsk : F) (batch : BookEventBatch F) : BookEventBatch F :=
  if !doubleEq newBid oldBid || !doubleEq newAsk oldAsk then
    { batch with
      topChanges := batch.topChanges + 1
      events := batch.events.map (fun ev =>
        if (ev.side == .bid && (doubleEq ev.price oldBid || doubleEq ev.price newBid)) ||
            (ev.side == .ask && (doubleEq ev.price oldAsk || doubleEq ev.price newAsk)) then
          { ev with isTopOfBook := true }
        else ev) }
  else batch

structure DeltaOutcome (F : Type) where
  book : LocalOrderBook F
  accepted : Bool
  emitted : Option (BookEventBatch F)

def refused (b : LocalOrderBook F) : DeltaOutcome F := ⟨b, false, none⟩

def applyNext (b : LocalOrderBook F) (delta : NormalizedOrderBook F) : DeltaOutcome F :=
  let ts := delta.envelope.processedTs
  let bids := applyBookLevelsWithEvents .bid ts b.bids delta.bids ⟨b.symbol, [], 0, 0, 0, 0, ts⟩
  let asks := applyBookLevelsWithEvents .ask ts b.asks delta.asks bids.2
  let batch := markTop (bestPrice b.bids) (bestPrice bids.1) (bestPrice b.asks)
    (bestPrice asks.1) asks.2
  let next := { b with
    bids := bids.1
    asks := asks.1
    lastSequence := delta.sequence
    lastUpdated := ts }
  if detectCrossedBook next.bids next.asks then refused { next with quality := .desynced }
  else
    ⟨{ next with quality := .valid }, true, if batch.events = [] then none else some batch⟩

def applyDelta (b : LocalOrderBook F) (delta : NormalizedOrderBook F) : DeltaOutcome F :=
  if b.quality = .uninitialized ∨ b.quality = .desynced then refused b
  else if delta.envelope.symbol ≠ b.symbol then refused b
  else if delta.sequence ≠ b.lastSequence + 1 then refused { b with quality := .desynced }
  else applyNext b delta

def requestResync (b : LocalOrderBook F) : LocalOrderBook F :=
  { b with bids := [], asks := [], lastSequence := 0, quality := .uninitialized }

def checkStaleness (b : LocalOrderBook F) (now : Timestamp) (staleThresholdNs : ℤ) :
    LocalOrderBook F × Bool :=
  if b.quality ≠ .valid then (b, b.quality == .stale)
  else if staleThresholdNs < now - b.lastUpdated then ({ b with quality := .stale }, true)
  else (b, false)

end Book

end TB.OrderBook
