import TomorrowBot.CommonTypes
import TomorrowBot.JsonText

/-!
# The event journal and its storage

The journal appends entries and never changes one. The storage behind it may
refuse an append or fail to answer a query; whether it does is an argument of
the operation. The timestamps are readings of the wall clock.
-/

set_option autoImplicit false

namespace TB.EventJournal
open TB.CommonTypes JsonText

inductive JournalEntryType where
  | marketEvent
  | decisionTrace
  | riskDecision
  | orderEvent
  | portfolioChange
  | strategySignal
  | systemEvent
  | telemetrySnapshot
  | governanceEvent
  | diagnosticEvent
  deriving DecidableEq, Repr

structure JournalEntry (F : Type) where
  sequenceId : ℕ
  type : JournalEntryType
  timestamp : Timestamp
  correlationId : CorrelationId
  strategyId : StrategyId
  payloadJson : Text F

structure Journal (F : Type) where
  entries : List (JournalEntry F)
  sequenceCounter : ℕ

variable {F : Type}

def openJournal (entries : List (JournalEntry F)) : Journal F where
  entries := entries
  sequenceCounter := entries.foldl (fun acc e => max acc e.sequenceId) 0

def append (j : Journal F) (wall : Timestamp) (type : JournalEntryType)
    (payloadJson : Text F) (correlationId : CorrelationId) (strategyId : StrategyId)
    (stored : Bool) : Journal F :=
  if stored then
    { entries := j.entries ++ [
        { sequenceId := j.sequenceCounter + 1
          type := type
          timestamp := wall
          correlationId := correlationId
          strategyId := strategyId
          payloadJson := payloadJson }]
      sequenceCounter := j.sequenceCounter + 1 }
  else j

def query (j : Journal F) (first last : Timestamp) (typeFilter : Option JournalEntryType)
    (answered : Bool) : Except TbError (List (JournalEntry F)) :=
  if answered then
    .ok (j.entries.filter (fun e =>
      first ≤ e.timestamp && e.timestamp ≤ last && typeFilter.all (fun t => e.type = t)))
  else .error .persistenceError

theorem append_stored (j : Journal F) (wall : Timestamp) (type : JournalEntryType)
    (payloadJson : Text F) (correlationId : CorrelationId) (strategyId : StrategyId) :
    (append j wall type payloadJson correlationId strategyId true).entries =
      j.entries ++ [⟨j.sequenceCounter + 1, type, wall, correlationId, strategyId,
        payloadJson⟩] := rfl

theorem append_refused (j : Journal F) (wall : Timestamp) (type : JournalEntryType)
    (payloadJson : Text F) (correlationId : CorrelationId) (strategyId : StrategyId) :
    append j wall type payloadJson correlationId strategyId false = j := rfl

end TB.EventJournal
