import TomorrowBot.PortfolioEngine
import TomorrowBot.ReconciliationTypes
import TomorrowBot.WalWriter

/-!
# The recovery of the portfolio at start-up

The portfolio is rebuilt from the last snapshot, from the journal entries
written after it and from the answers of the exchange, in this order. The
clock is read once for a call and once at its end. The texts of the messages
are constructors with the values the source prints.
-/

set_option autoImplicit false

namespace TB.RecoveryService
open TB.CommonTypes TB.EventJournal TB.PortfolioEngine TB.ReconciliationTypes TB.WalWriter JsonText

inductive RecoveryStatus where
  | notStarted
  | inProgress
  | completed
  | completedWithWarnings
  | failed
  deriving DecidableEq, Repr

inductive Resolution (F : Type) where
  | quantityMismatch (exchangeQty localQty : F)
  | matchesWithinTolerance
  | needsClose
  | orphanSynced

inductive RecoveryMessage (F : Type) where
  | disabledByConfig
  | snapshotRestored (snapshotId : ℕ)
  | snapshotRestoredSuccessfully
  | snapshotRestoreFailed
  | persistentRecoverySkipped
  | journalReplayed (replayed skipped errors : ℕ)
  | journalReplayedSuccessfully
  | journalReplayedWithErrors
  | balancesFetchFailed
  | positionsFetchFailed
  | noOpenPositions
  | position (symbol : Symbol) (side : Side) (resolution : Resolution F)
  | usdtBalanceNotFound
  | balanceSynced (exchange localCapital adjustment : F)

structure RecoveredPosition (F : Type) where
  symbol : Symbol
  side : Side
  size : F
  avgEntryPrice : F
  estimatedPnl : F
  hadMatchingStrategy : Bool
  resolution : Resolution F

structure RecoveryResult (F : Type) where
  status : RecoveryStatus
  recoveredPositions : List (RecoveredPosition F)
  recoveredCashBalance : F
  balanceAdjustment : F
  warnings : ℕ
  errors : ℕ
  durationMs : ℤ
  completedAt : Timestamp
  messages : List (RecoveryMessage F)

structure RecoveryConfig (F : Type) where
  enabled : Bool
  closeOrphanPositions : Bool
  minPositionValueUsd : F
  symbolFilter : Symbol

structure SnapshotEntry (F : Type) where
  snapshotId : ℕ
  createdAt : Timestamp
  payloadJson : Text F

structure PersistenceLayer (F : Type) where
  enabled : Bool
  journal : Journal F
  snapshot : Option (SnapshotEntry F)
  answered : Bool

structure Recovery (F : Type) where
  portfolio : Portfolio F
  lastResult : RecoveryResult F

variable {F : Type} [DoubleArith F]

def kUsdtSymbol : Symbol := "USDT"
def kQuantityMismatchPct : F := 0.005
def kCapitalSyncThresholdUsdt : F := 0.01

def newResult (status : RecoveryStatus) : RecoveryResult F :=
  ⟨status, [], 0, 0, 0, 0, 0, 0, []⟩

def Recovery.warn (s : Recovery F) (n : ℕ) : Recovery F :=
  { s with lastResult := { s.lastResult with warnings := s.lastResult.warnings + n } }

def Recovery.fail (s : Recovery F) : Recovery F :=
  { s with lastResult := { s.lastResult with errors := s.lastResult.errors + 1 } }

def Recovery.say (s : Recovery F) (m : RecoveryMessage F) : Recovery F :=
  { s with lastResult := { s.lastResult with messages := s.lastResult.messages ++ [m] } }

def readDouble (obj : Members F) (key : String) : Option F :=
  match find obj key with
  | none => some 0
  | some v => v.asDouble

def readTextOr (fallback : String) (obj : Members F) (key : String) : Option String :=
  match find obj key with
  | none => some fallback
  | some v => v.asString

def sideOfText (s : String) : Side := if s = "Sell" then .sell else .buy

def restoredPosition (symbol : Symbol) (side : Side) (size price : F) (strategyId : StrategyId)
    (openedAt now : Timestamp) : Position F where
  symbol := symbol
  side := side
  positionSide := .long
  size := size
  avgEntryPrice := price
  currentPrice := price
  notional := size * price
  unrealizedPnl := 0
  unrealizedPnlPct := 0
  accumulatedFunding := 0
  strategyId := strategyId
  openedAt := openedAt
  updatedAt := now

section Replay

inductive Replayed (F : Type) where
  | skipped (uncommitted : Bool)
  | applied (op : Option (PortfolioOp F)) (alsoSkipped : Bool)

def replayOpenedAt (now : Timestamp) (entry : JournalEntry F) (d : Members F) :
    Option Timestamp :=
  match find d "opened_at_ns" with
  | some v => v.asInt64
  | none => if (find d "timestamp").isSome then some entry.timestamp else some now

def replayOpened (now : Timestamp) (entry : JournalEntry F) (d : Members F) (sym : Symbol)
    (amount price : F) : Option (Replayed F) := do
  let side ← readTextOr "Buy" d "side"
  let strategyId ← readText d "strategy_id"
  let openedAt ← replayOpenedAt now entry d
  some (.applied (some (.openPosition now
    (restoredPosition sym (sideOfText side) amount price strategyId openedAt now))) false)

def legOfText (s : String) : PositionSide :=
  if s = "short" ∨ s = "Sell" ∨ s = "Short" then .short else .long

def replayClosed (d : Members F) (sym : Symbol) : Option (Replayed F) := do
  let pnl ← readDouble d "pnl"
  match (find d "position_side").or (find d "side") with
  | none => some (.applied (some (.closePosition sym pnl)) false)
  | some v =>
    let side ← v.asString
    some (.applied (some (.closePositionSide sym (legOfText side) pnl)) false)

def replayEvent (now : Timestamp) (entry : JournalEntry F) (eventType : String)
    (d : Members F) : Option (Replayed F) := do
  let sym ← readText d "symbol"
  let amount ← readDouble d "amount"
  let price ← readDouble d "price"
  if eventType = "PositionOpened" ∧ sym ≠ "" ∧ 0 < price then
    replayOpened now entry d sym amount price
  else if eventType = "PositionClosed" ∧ sym ≠ "" then replayClosed d sym
  else if eventType = "FeeCharged" ∧ sym ≠ "" then
    some (.applied (some (.recordFee amount)) false)
  else if eventType = "CashReserved" then some (.applied none true)
  else if eventType = "CapitalSynced" ∨ eventType = "BalanceSync" then
    some (.applied (if 0 < amount then some (.setCapital amount) else none) false)
  else some (.applied none true)

def readSeq (obj : Members F) : Option ℤ :=
  match find obj "wal_seq" with
  | none => some 0
  | some v => v.asInt64

def skipUncommitted (obj : Members F) (walType : Value F) : Option (Replayed F) := do
  let _ ← readSeq obj
  let _ ← walType.asString
  some (.skipped true)

def replayCommitted (now : Timestamp) (entry : JournalEntry F) (obj : Members F)
    (walType : Value F) : Option (Replayed F) := do
  let eventType ← walType.asString
  match find obj "data" with
  | some (.object d) => replayEvent now entry eventType d
  | _ => none

def replayEnvelope (now : Timestamp) (entry : JournalEntry F) (obj : Members F)
    (walType : Value F) : Option (Replayed F) := do
  let isRollback ← readFlag obj "rollback"
  if isRollback then some (.skipped false)
  else
    match find obj "committed" with
    | none => replayCommitted now entry obj walType
    | some v =>
      let isCommitted ← v.asBool
      if isCommitted then replayCommitted now entry obj walType
      else skipUncommitted obj walType

def replayEntry (now : Timestamp) (entry : JournalEntry F) : Option (Replayed F) :=
  if entry.payloadJson.isEmpty then none
  else do
    let json ← parse entry.payloadJson
    let obj ← json.asObject
    match find obj "wal_type", find obj "event" with
    | some walType, _ => replayEnvelope now entry obj walType
    | none, some event =>
      let eventType ← event.asString
      replayEvent now entry eventType obj
    | none, none => some (.skipped false)

structure Replay (F : Type) where
  service : Recovery F
  replayed : ℕ
  skipped : ℕ
  errors : ℕ

def replayStep (now : Timestamp) (s : Replay F) (entry : JournalEntry F) : Replay F :=
  match replayEntry now entry with
  | none => { s with errors := s.errors + 1 }
  | some (.skipped false) => { s with skipped := s.skipped + 1 }
  | some (.skipped true) =>
    { s with
      service := s.service.warn 1
      skipped := s.skipped + 1 }
  | some (.applied op alsoSkipped) =>
    { s with
      service := { s.service with
        portfolio := op.elim s.service.portfolio (portfolioStep s.service.portfolio) }
      replayed := s.replayed + 1
      skipped := s.skipped + if alsoSkipped then 1 else 0 }

def replayJournalAfterSnapshot (store : PersistenceLayer F) (now : Timestamp) (s : Recovery F)
    (snapshotTime : Timestamp) : Recovery F × Bool :=
  if !store.enabled then (s, false)
  else
    match query store.journal snapshotTime now (some .portfolioChange) store.answered with
    | .error _ => (s, false)
    | .ok entries =>
      let done := entries.foldl (replayStep now) ⟨s, 0, 0, 0⟩
      ((done.service.warn done.errors).say
        (.journalReplayed done.replayed done.skipped done.errors), done.errors == 0)

end Replay

section Snapshot

def snapshotOpenedAt (now : Timestamp) (d : Members F) : Option Timestamp :=
  match (find d "opened_at_ns").or (find d "opened_at") with
  | some v => v.asInt64
  | none => some now

/-- One position of the snapshot: the inner `none` is a position that is passed
over, the outer one a member of an unexpected kind, which throws. -/
def snapshotPosition (now : Timestamp) (d : Members F) : Option (Option (Position F)) := do
  let sym ← readText d "symbol"
  if sym = "" then some none
  else
    let size ← readDouble d "size"
    if size ≤ 0 then some none
    else
      let price ← readDouble d "avg_entry_price"
      let side ← readTextOr "Buy" d "side"
      let strategyId ← readTextOr "snapshot_recovery" d "strategy_id"
      let openedAt ← snapshotOpenedAt now d
      let pos := restoredPosition sym (sideOfText side) size price strategyId openedAt now
      some (some { pos with notional := price * size })

def restorePositions (now : Timestamp) : Portfolio F → List (Value F) → Portfolio F × Bool
  | p, [] => (p, true)
  | p, .object d :: rest =>
    match snapshotPosition now d with
    | none => (p, false)
    | some none => restorePositions now p rest
    | some (some pos) => restorePositions now (openPosition p now pos) rest
  | p, _ :: rest => restorePositions now p rest

def restoreCapital (p : Portfolio F) (obj : Members F) : Option (Portfolio F) :=
  match find obj "total_capital" with
  | none => some p
  | some v => do
    let capital ← v.asDouble
    if isfinite capital && decide (0 < capital) then some (setCapital p capital) else none

def restorePayload (now : Timestamp) (p : Portfolio F) (payload : Text F) :
    Portfolio F × Bool :=
  match (parse payload).bind Value.asObject with
  | none => (p, false)
  | some obj =>
    match restoreCapital p obj with
    | none => (p, false)
    | some p =>
      match find obj "positions" with
      | some (.array positions) => restorePositions now p positions
      | _ => (p, true)

def restoreFromSnapshot (store : PersistenceLayer F) (now : Timestamp) (s : Recovery F) :
    Recovery F × Bool :=
  if !store.enabled then (s, false)
  else
    match store.snapshot with
    | none => (s, false)
    | some entry =>
      let restored := restorePayload now s.portfolio entry.payloadJson
      let s := { s with portfolio := restored.1 }
      if restored.2 then (s.say (.snapshotRestored entry.snapshotId), true) else (s, false)

end Snapshot

section Exchange

def matchesSymbolFilter (cfg : RecoveryConfig F) (symbol : Symbol) : Bool :=
  cfg.symbolFilter = "" || symbol = cfg.symbolFilter

def isDust (cfg : RecoveryConfig F) (info : ExchangeOpenPositionInfo F) : Bool :=
  info.notionalUsd < cfg.minPositionValueUsd || info.size ≤ 0

def exchangePrice (info : ExchangeOpenPositionInfo F) : F :=
  if 0 < info.currentPrice then info.currentPrice else info.entryPrice

def recovered (info : ExchangeOpenPositionInfo F) (known : Bool) (resolution : Resolution F) :
    RecoveredPosition F where
  symbol := info.symbol
  side := info.side
  size := info.size
  avgEntryPrice := info.entryPrice
  estimatedPnl := info.unrealizedPnl
  hadMatchingStrategy := known
  resolution := resolution

def syncFromInfo (p : Portfolio F) (now : Timestamp) (info : ExchangeOpenPositionInfo F)
    (openedAt : Timestamp) : Portfolio F :=
  syncPositionFromExchange p now info.symbol (sideToPositionSide info.side) info.size
    info.entryPrice (exchangePrice info) info.unrealizedPnl openedAt

def quantityResolution (info : ExchangeOpenPositionInfo F) (known : Position F) :
    Resolution F :=
  if stdMax (info.size * kQuantityMismatchPct) 1e-8 < stdAbs (info.size - known.size) then
    .quantityMismatch info.size known.size
  else .matchesWithinTolerance

def syncPosition (cfg : RecoveryConfig F) (now : Timestamp) (s : Recovery F)
    (info : ExchangeOpenPositionInfo F) : Recovery F × RecoveredPosition F :=
  let note (s : Recovery F) (known : Bool) (resolution : Resolution F) :=
    (s.say (.position info.symbol info.side resolution), recovered info known resolution)
  let orphan :=
    if cfg.closeOrphanPositions then note (s.warn 1) false .needsClose
    else
      note (Recovery.warn { s with portfolio := syncFromInfo s.portfolio now info now } 1) false
        .orphanSynced
  match getPositionSide s.portfolio info.symbol (sideToPositionSide info.side) with
  | some known =>
    if known.side = info.side then
      let resolution := quantityResolution info known
      let s := { s with portfolio := syncFromInfo s.portfolio now info known.openedAt }
      match resolution with
      | .quantityMismatch _ _ => note (s.warn 1) true resolution
      | _ => note s true resolution
    else orphan
  | none => orphan

def syncPositions (cfg : RecoveryConfig F) (now : Timestamp) :
    Recovery F → List (ExchangeOpenPositionInfo F) → Recovery F × List (RecoveredPosition F)
  | s, [] => (s, [])
  | s, info :: rest =>
    if !matchesSymbolFilter cfg info.symbol || isDust cfg info then syncPositions cfg now s rest
    else
      let one := syncPosition cfg now s info
      let others := syncPositions cfg now one.1 rest
      (others.1, one.2 :: others.2)

structure ExchangeAnswers (F : Type) where
  balances : Option (List (ExchangePositionInfo F))
  openPositions : Option (List (ExchangeOpenPositionInfo F))

def syncPositionsFromExchange (cfg : RecoveryConfig F) (answers : ExchangeAnswers F)
    (now : Timestamp) (s : Recovery F) :
    Recovery F × List (RecoveredPosition F) × List (ExchangePositionInfo F) :=
  match answers.balances with
  | none => ((s.say .balancesFetchFailed).fail, [], [])
  | some balances =>
    match answers.openPositions with
    | none => ((s.say .positionsFetchFailed).warn 1, [], balances)
    | some [] => (s.say .noOpenPositions, [], balances)
    | some positions =>
      let synced := syncPositions cfg now s positions
      (synced.1, synced.2, balances)

def extractUsdtBalance (balances : List (ExchangePositionInfo F)) (s : Recovery F) :
    Recovery F × F :=
  match balances.find? (fun info => info.symbol = kUsdtSymbol) with
  | none => ((s.say .usdtBalanceNotFound).fail, 0)
  | some info =>
    let balance := info.available + info.frozen
    let localCapital := s.portfolio.totalCapital
    let adjustment := balance - localCapital
    if kCapitalSyncThresholdUsdt < stdAbs adjustment then
      (Recovery.say
        { portfolio := setCapital s.portfolio balance
          lastResult := { s.lastResult with balanceAdjustment := adjustment } }
        (.balanceSynced balance localCapital adjustment), balance)
    else (s, balance)

end Exchange

def finalizeStatus (errors warnings : ℕ) : RecoveryStatus :=
  if 0 < errors then .failed else if 0 < warnings then .completedWithWarnings else .completed

def nsToMs (ns : ℤ) : ℤ := ns.tdiv 1000000

def finish (s : Recovery F) (now finished : Timestamp) (status : RecoveryStatus) : Recovery F :=
  { s with lastResult := { s.lastResult with
      durationMs := nsToMs (finished - now)
      completedAt := finished
      status := status } }

def syncWithExchange (cfg : RecoveryConfig F) (answers : ExchangeAnswers F)
    (now finished : Timestamp) (s : Recovery F) : Recovery F :=
  let synced := syncPositionsFromExchange cfg answers now s
  let s := { synced.1 with lastResult := { synced.1.lastResult with
    recoveredPositions := synced.2.1 } }
  let extracted := extractUsdtBalance synced.2.2 s
  let s := { extracted.1 with lastResult := { extracted.1.lastResult with
    recoveredCashBalance := extracted.2 } }
  finish s now finished (finalizeStatus s.lastResult.errors s.lastResult.warnings)

def replayAfter (store : PersistenceLayer F) (now : Timestamp) (s : Recovery F) : Recovery F :=
  match store.snapshot with
  | none => s
  | some entry =>
    let replayed := replayJournalAfterSnapshot store now s entry.createdAt
    if replayed.2 then replayed.1.say .journalReplayedSuccessfully
    else (replayed.1.say .journalReplayedWithErrors).warn 1

def journalWithoutSnapshot (store : PersistenceLayer F) (now : Timestamp) : Bool :=
  match query store.journal 0 now none store.answered with
  | .error _ => false
  | .ok entries => !entries.isEmpty

def recoverOnStartup (cfg : RecoveryConfig F) (store : PersistenceLayer F)
    (answers : ExchangeAnswers F) (now finished : Timestamp) (s : Recovery F) : Recovery F :=
  if !cfg.enabled then
    Recovery.say { s with lastResult := newResult .completed } .disabledByConfig
  else
    let restored := restoreFromSnapshot store now { s with lastResult := newResult .inProgress }
    if restored.2 then
      syncWithExchange cfg answers now finished
        (replayAfter store now (restored.1.say .snapshotRestoredSuccessfully))
    else if store.enabled then
      let s := (restored.1.say .snapshotRestoreFailed).warn 1
      if journalWithoutSnapshot store now then finish s.fail now finished .failed
      else syncWithExchange cfg answers now finished s
    else
      syncWithExchange cfg answers now finished (restored.1.say .persistentRecoverySkipped)

end TB.RecoveryService
