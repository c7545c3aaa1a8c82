import TomorrowBot.EventJournal
import TomorrowBot.JsonWriting

/-!
# The write-ahead log writer

An intent is journalled before the action, its outcome after it, both under
the sequence number of the intent. The sequence counter and the table of
pending intents live in memory: a new writer starts both afresh over the
journal it is given.
-/

set_option autoImplicit false

namespace TB.WalWriter
open TB.CommonTypes TB.EventJournal JsonText

inductive WalEntryType where
  | orderIntent
  | orderSent
  | orderCancelled
  | positionOpened
  | positionClosed
  | balanceSync
  | recoveryCheckpoint
  deriving DecidableEq, Repr

def WalEntryType.toString : WalEntryType → String
  | .orderIntent => "OrderIntent"
  | .orderSent => "OrderSent"
  | .orderCancelled => "OrderCancelled"
  | .positionOpened => "PositionOpened"
  | .positionClosed => "PositionClosed"
  | .balanceSync => "BalanceSync"
  | .recoveryCheckpoint => "RecoveryCheckpoint"

def journalTypeFor : WalEntryType → JournalEntryType
  | .orderIntent | .orderSent | .orderCancelled => .orderEvent
  | .positionOpened | .positionClosed | .balanceSync => .portfolioChange
  | .recoveryCheckpoint => .systemEvent

structure WalEntry (F : Type) where
  walSequence : ℕ
  type : Option WalEntryType
  payloadJson : Text F
  correlationId : CorrelationId
  orderId : OrderId
  symbol : Symbol
  strategyId : StrategyId
  writtenAt : Timestamp
  committed : Bool

structure Writer (F : Type) where
  journal : Journal F
  walSequence : ℕ
  pendingEntries : Keyed.Map ℕ (WalEntry F)

variable {F : Type}

def wrapWalJson (seq : ℕ) (type : WalEntryType) (committed : Bool) (data : Text F) : Text F :=
  text "\x7b\"wal_seq\":" ++ natText seq ++ text ",\"wal_type\":\"" ++ text type.toString ++
    text "\",\"committed\":" ++ text (if committed then "true" else "false") ++
    text ",\"data\":" ++ data ++ text "\x7d"

def rollbackJson (seq : ℕ) (type : WalEntryType) (reason : String) : Text F :=
  text "\x7b\"wal_seq\":" ++ natText seq ++ text ",\"wal_type\":\"" ++ text type.toString ++
    text "\",\"rollback\":true,\"reason\":\"" ++ text reason ++ text "\"\x7d"

def startWriter (journal : Journal F) : Writer F := ⟨journal, 0, ∅⟩

def writeIntent (w : Writer F) (c : Clock) (type : WalEntryType) (payloadJson : Text F)
    (orderId : OrderId) (symbol : Symbol) (strategyId : StrategyId)
    (correlationId : CorrelationId) (stored : Bool) : Writer F × Except TbError ℕ :=
  let seq := w.walSequence + 1
  let entry : WalEntry F :=
    { walSequence := seq
      type := some type
      payloadJson := payloadJson
      correlationId := correlationId
      orderId := orderId
      symbol := symbol
      strategyId := strategyId
      writtenAt := c.now
      committed := false }
  let journal := append w.journal c.wall (journalTypeFor type)
    (wrapWalJson seq type false payloadJson) correlationId strategyId stored
  if stored then
    ({ journal := journal
       walSequence := seq
       pendingEntries := w.pendingEntries.insert seq entry }, .ok seq)
  else ({ w with journal := journal }, .error .walWriteFailed)

def pendingType (entry : WalEntry F) : WalEntryType := entry.type.getD .orderIntent

def commit (w : Writer F) (c : Clock) (walSequence : ℕ) (stored : Bool) :
    Writer F × Except TbError Unit :=
  match w.pendingEntries.lookup walSequence with
  | none => (w, .error .walWriteFailed)
  | some entry =>
    let marked := { entry with committed := true }
    let journal := append w.journal c.wall (journalTypeFor (pendingType entry))
      (wrapWalJson walSequence (pendingType entry) true entry.payloadJson) entry.correlationId
      entry.strategyId stored
    if stored then
      ({ w with journal := journal, pendingEntries := w.pendingEntries.erase walSequence }, .ok ())
    else
      ({ w with journal := journal, pendingEntries := w.pendingEntries.insert walSequence marked },
        .error .walWriteFailed)

def rollback (w : Writer F) (c : Clock) (walSequence : ℕ) (reason : String)
    (stored : Bool) : Writer F × Except TbError Unit :=
  match w.pendingEntries.lookup walSequence with
  | none => (w, .error .walWriteFailed)
  | some entry =>
    let journal := append w.journal c.wall (journalTypeFor (pendingType entry))
      (rollbackJson walSequence (pendingType entry) reason) entry.correlationId entry.strategyId
      stored
    if stored then
      ({ w with journal := journal, pendingEntries := w.pendingEntries.erase walSequence }, .ok ())
    else ({ w with journal := journal }, .error .walWriteFailed)

def writeCheckpoint (w : Writer F) (c : Clock) (snapshotJson : Text F) (stored : Bool) :
    Writer F × Except TbError Unit :=
  let seq := w.walSequence + 1
  let journal := append w.journal c.wall .systemEvent
    (wrapWalJson seq .recoveryCheckpoint true snapshotJson) "" "" stored
  if stored then ({ w with journal := journal, walSequence := seq }, .ok ())
  else ({ w with journal := journal }, .error .walWriteFailed)

section Scan
variable [OfScientific F] [Neg F]

def readFlag (obj : Members F) (key : String) : Option Bool :=
  match find obj key with
  | none => some false
  | some v => v.asBool

def readText (obj : Members F) (key : String) : Option String :=
  match find obj key with
  | none => some ""
  | some v => v.asString

def toUnsigned (n : ℤ) : ℕ := (n % 2 ^ 64).toNat

def resolvedSeq (payload : Text F) : Option (Option ℕ) :=
  if payload.isEmpty then some none
  else do
    let json ← parse payload
    let obj ← json.asObject
    match find obj "wal_seq" with
    | none => some none
    | some v =>
      let seq ← v.asInt64
      let isCommitted ← readFlag obj "committed"
      let isRollback ← readFlag obj "rollback"
      some (if isCommitted || isRollback then some (toUnsigned seq) else none)

def readNames (d : Members F) : Option (Symbol × OrderId) := do
  let symbol ← readText d "symbol"
  let orderId ← readText d "order_id"
  some (symbol, orderId)

def dataNames (obj : Members F) : Option (Symbol × OrderId) :=
  match find obj "data" with
  | some (.object d) => readNames d
  | _ => some ("", "")

def openIntent (resolved : List ℕ) (payload : Text F) : Option (Option (WalEntry F)) :=
  if payload.isEmpty then some none
  else do
    let json ← parse payload
    let obj ← json.asObject
    match find obj "wal_seq", find obj "wal_type" with
    | some v, some _ =>
      let seq ← v.asInt64
      let isCommitted ← readFlag obj "committed"
      let isRollback ← readFlag obj "rollback"
      if !isCommitted && !isRollback && !resolved.contains (toUnsigned seq) then
        let names ← dataNames obj
        some (some
          { walSequence := toUnsigned seq
            type := none
            payloadJson := payload
            correlationId := ""
            orderId := names.2
            symbol := names.1
            strategyId := ""
            writtenAt := 0
            committed := false })
      else some none
    | _, _ => some none

/-- The intents left open: those pending in memory, or else what the scan of
the whole journal finds. One corrupted entry makes the search fail; a storage
that does not answer leaves it empty. -/
def findUncommitted (w : Writer F) (answered : Bool) : Except TbError (List (WalEntry F)) :=
  let pending := (w.pendingEntries.entries.map (fun e => e.2)).filter (fun e => !e.committed)
  if !pending.isEmpty then .ok pending
  else
    match query w.journal 0 (2 ^ 63 - 1) none answered with
    | .error _ => .ok []
    | .ok entries =>
      let payloads := entries.map JournalEntry.payloadJson
      let resolved := (payloads.filterMap (fun p => (resolvedSeq p).join))
      let scanned := payloads.map (openIntent resolved)
      if payloads.any (fun p => (resolvedSeq p).isNone) || scanned.any Option.isNone then
        .error .persistenceError
      else .ok (scanned.filterMap Option.join)

end Scan

end TB.WalWriter
