import Mathlib.Data.Rat.Floor
import TomorrowBot.RecoveryService

/-!
# What the trading side writes about the portfolio

The pipeline serializes position events and portfolio snapshots, the fill
processor formats its fee events by hand. None of them uses the envelope of
the log writer.
-/

set_option autoImplicit false

namespace TB.PortfolioJournal
open TB.CommonTypes TB.EventJournal TB.PortfolioEngine TB.RecoveryService JsonText

variable {F : Type} [DoubleArith F]

def sideText : Side → String
  | .buy => "Buy"
  | .sell => "Sell"

def legText : PositionSide → String
  | .long => "long"
  | .short => "short"

def positionEventMembers (eventType : String) (symbol : Symbol) (ps : PositionSide)
    (price pnl size : F) (strategyId : StrategyId) (now openedAt : Timestamp) : Members F :=
  [("event", .string eventType), ("symbol", .string symbol),
    ("position_side", .string (legText ps)), ("price", .double price), ("pnl", .double pnl),
    ("size", .double size), ("strategy_id", .string strategyId), ("timestamp_ns", .int now)] ++
    if eventType = "PositionOpened" then [("opened_at_ns", .int openedAt)] else []

def positionEventJson (eventType : String) (symbol : Symbol) (ps : PositionSide)
    (price pnl size : F) (strategyId : StrategyId) (now openedAt : Timestamp) : Text F :=
  render (.object (positionEventMembers eventType symbol ps price pnl size strategyId now openedAt))

def persistPositionEvent (store : PersistenceLayer F) (wall : Timestamp) (eventType : String)
    (symbol : Symbol) (ps : PositionSide) (price pnl size : F) (strategyId : StrategyId)
    (now openedAt : Timestamp) (stored : Bool) : PersistenceLayer F :=
  if !store.enabled then store
  else
    { store with
      journal := append store.journal wall .portfolioChange
        (positionEventJson eventType symbol ps price pnl size strategyId now openedAt) "" strategyId
        stored }

section FeeEvents

def roundHalfEven (x : ℚ) : ℤ :=
  if x - ⌊x⌋ < 1 / 2 then ⌊x⌋
  else if 1 / 2 < x - ⌊x⌋ then ⌊x⌋ + 1
  else if ⌊x⌋ % 2 = 0 then ⌊x⌋ else ⌊x⌋ + 1

def rounded8 (x : ℚ) : ℚ := roundHalfEven (x * 10 ^ 8) / 10 ^ 8

def fixed8 (x : ℚ) : Text ℚ := [.number (rounded8 x)]

def feeEventJson (symbol : Symbol) (orderId : OrderId) (fee fillPrice fillQty : ℚ)
    (ts : Timestamp) : Text ℚ :=
  text "\x7b\"event\":\"FeeCharged\",\"symbol\":\"" ++ text symbol ++ text "\",\"order_id\":\"" ++
    text orderId ++ text "\",\"fee\":" ++ fixed8 fee ++ text ",\"fill_price\":" ++
    fixed8 fillPrice ++ text ",\"fill_qty\":" ++ fixed8 fillQty ++ text ",\"ts\":" ++ intText ts ++
    text "\x7d"

end FeeEvents

section Snapshots

def positionMembers (pos : Position F) : Members F :=
  [("symbol", .string pos.symbol), ("side", .string (sideText pos.side)),
    ("position_side", .string (legText pos.positionSide)), ("size", .double pos.size),
    ("avg_entry_price", .double pos.avgEntryPrice), ("current_price", .double pos.currentPrice),
    ("unrealized_pnl", .double pos.unrealizedPnl), ("strategy_id", .string pos.strategyId),
    ("opened_at_ns", .int pos.openedAt), ("updated_at_ns", .int pos.updatedAt)]

def positionValues (p : Portfolio F) : List (Value F) :=
  p.positions.entries.map (fun e => .object (positionMembers e.2))

def snapshotMembers (symbol : Symbol) (p : Portfolio F) (now : Timestamp) : Members F :=
  [("symbol", .string symbol), ("positions", .array (positionValues p)),
    ("total_capital", .double p.totalCapital),
    ("available_capital", .double p.cashLedger.availableCash), ("timestamp_ns", .int now)]

def portfolioSnapshotJson (symbol : Symbol) (p : Portfolio F) (now : Timestamp) : Text F :=
  render (.object (snapshotMembers symbol p now))

def persistPortfolioSnapshot (store : PersistenceLayer F) (snapshotCounter : ℕ)
    (wall : Timestamp) (symbol : Symbol) (p : Portfolio F) (now : Timestamp) (stored : Bool) :
    PersistenceLayer F :=
  if !store.enabled || !stored then store
  else
    { store with
      snapshot := some
        { snapshotId := snapshotCounter + 1
          createdAt := wall
          payloadJson := portfolioSnapshotJson symbol p now } }

end Snapshots

end TB.PortfolioJournal
