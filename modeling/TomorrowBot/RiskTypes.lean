import TomorrowBot.TradingContext

/-!
# The state of the risk engine

Locks are records in one list; a record is added only when none of its type
and target is present, and an expired one stays until the registry is
cleared. Beside the locks stand the loss streaks, the losses of the day, the
equity peaks and the times of orders and trades. The texts that explain a
lock are left out.
-/

set_option autoImplicit false

namespace TB.RiskTypes
open TB.CommonTypes

inductive RiskAction where
  | allow
  | allowWithReducedSize
  | deny
  | denySymbolLock
  | denyStrategyLock
  | denyDayLock
  | denyAccountLock
  | emergencyHalt
  deriving DecidableEq, Repr

inductive RiskStateLevel where
  | normal
  | degraded
  | dayLock
  | symbolLock
  | strategyLock
  | accountLock
  | emergencyHalt

inductive LockType where
  | symbolLock
  | strategyLock
  | dayLock
  | accountLock
  | emergencyHalt
  | cooldown
  deriving DecidableEq, Repr

structure LockRecord where
  type : LockType
  target : String
  activatedAt : ℤ
  durationNs : ℤ
  deriving DecidableEq, Repr

abbrev LockRegistry := List LockRecord

def LockRecord.covers (l : LockRecord) (type : LockType) (target : String) : Bool :=
  l.type == type && l.target == target

def LockRecord.expired (l : LockRecord) (now : ℤ) : Bool :=
  decide (0 < l.durationNs) && decide (now - l.activatedAt ≥ l.durationNs)

def isLocked (locks : LockRegistry) (type : LockType) (target : String) : Bool :=
  locks.any (fun l => l.covers type target)

def addLock (locks : LockRegistry) (type : LockType) (target : String)
    (now : ℤ) (durationNs : ℤ) : LockRegistry :=
  if isLocked locks type target then locks
  else locks ++ [⟨type, target, now, durationNs⟩]

def removeLock (locks : LockRegistry) (type : LockType) (target : String) : LockRegistry :=
  locks.filter (fun l => !l.covers type target)

def clearExpired (locks : LockRegistry) (now : ℤ) : LockRegistry :=
  locks.filter (fun l => !l.expired now)

def hasSymbolLock (locks : LockRegistry) (symbol : Symbol) : Bool :=
  isLocked locks .symbolLock symbol

def hasStrategyLock (locks : LockRegistry) (strategyId : StrategyId) : Bool :=
  isLocked locks .strategyLock strategyId

def hasDayLock (locks : LockRegistry) : Bool := locks.any (fun l => l.type == .dayLock)

def hasAccountLock (locks : LockRegistry) : Bool := locks.any (fun l => l.type == .accountLock)

def hasEmergencyHalt (locks : LockRegistry) : Bool :=
  locks.any (fun l => l.type == .emergencyHalt)

def hasCooldown (locks : LockRegistry) (target : String) : Bool :=
  isLocked locks .cooldown target

def computeGlobalState (locks : LockRegistry) : RiskStateLevel :=
  if hasEmergencyHalt locks then .emergencyHalt
  else if hasAccountLock locks then .accountLock
  else if hasDayLock locks then .dayLock
  else if locks.any (fun l =>
    l.type == .strategyLock || l.type == .symbolLock || l.type == .cooldown) then .degraded
  else .normal

structure LossStreakTracker where
  totalConsecutiveLosses : ℤ
  dailyStopouts : ℤ
  lastLossTime : ℤ
  symbolLosses : Dict ℤ
  strategyLosses : Dict ℤ

def symbolConsecutiveLosses (t : LossStreakTracker) (symbol : Symbol) : ℤ :=
  (t.symbolLosses.lookup symbol).getD 0

def strategyConsecutiveLosses (t : LossStreakTracker) (strategyId : StrategyId) : ℤ :=
  (t.strategyLosses.lookup strategyId).getD 0

def recordTradeResult (t : LossStreakTracker) (symbol : Symbol) (strategyId : StrategyId)
    (isLoss : Bool) (now : ℤ) : LossStreakTracker :=
  if isLoss then
    { totalConsecutiveLosses := t.totalConsecutiveLosses + 1
      dailyStopouts := t.dailyStopouts + 1
      lastLossTime := now
      symbolLosses := t.symbolLosses.insert symbol (symbolConsecutiveLosses t symbol + 1)
      strategyLosses :=
        t.strategyLosses.insert strategyId (strategyConsecutiveLosses t strategyId + 1) }
  else
    { t with
      totalConsecutiveLosses :=
        if 0 < symbolConsecutiveLosses t symbol then 0 else t.totalConsecutiveLosses
      symbolLosses := t.symbolLosses.insert symbol 0
      strategyLosses := t.strategyLosses.insert strategyId 0 }

def LossStreakTracker.resetDaily (t : LossStreakTracker) : LossStreakTracker :=
  { t with totalConsecutiveLosses := 0, dailyStopouts := 0, symbolLosses := ∅,
           strategyLosses := ∅ }

structure PnlTracker (F : Type) where
  symbolPnl : Dict F
  strategyPnl : Dict F

structure DrawdownTracker (F : Type) where
  peakEquity : F
  currentEquity : F
  intradayPeak : F

structure RateTracker where
  orderTimestamps : List ℤ
  tradeCloseTimestamps : List ℤ
  lastTradePerSymbol : Dict ℤ

structure StrategyRiskBudget (F : Type) where
  strategyId : StrategyId
  dailyLoss : F
  dailyLossPct : F
  tradesToday : ℤ
  consecutiveLosses : ℤ
  lastTradeAt : ℤ

structure RiskState (F : Type) where
  locks : LockRegistry
  lossStreaks : LossStreakTracker
  pnl : PnlTracker F
  drawdown : DrawdownTracker F
  rates : RateTracker
  strategyBudgets : Dict (StrategyRiskBudget F)

section Trackers
variable {F : Type} [DoubleArith F]

def symbolDailyPnl (t : PnlTracker F) (symbol : Symbol) : F := (t.symbolPnl.lookup symbol).getD 0

def recordTradePnl (t : PnlTracker F) (symbol : Symbol) (strategyId : StrategyId)
    (realizedPnl : F) : PnlTracker F :=
  { symbolPnl := t.symbolPnl.insert symbol (symbolDailyPnl t symbol + realizedPnl)
    strategyPnl :=
      t.strategyPnl.insert strategyId ((t.strategyPnl.lookup strategyId).getD 0 + realizedPnl) }

def updateEquity (t : DrawdownTracker F) (equity : F) : DrawdownTracker F :=
  { currentEquity := equity
    peakEquity := if t.peakEquity < equity then equity else t.peakEquity
    intradayPeak := if t.intradayPeak < equity then equity else t.intradayPeak }

def resetIntraday (t : DrawdownTracker F) : DrawdownTracker F :=
  { t with intradayPeak := t.currentEquity, peakEquity := t.currentEquity }

def intradayDrawdownPct (t : DrawdownTracker F) : F :=
  if t.intradayPeak ≤ 0 then 0
  else stdMax 0 ((t.intradayPeak - t.currentEquity) / t.intradayPeak * 100.0)

end Trackers

def purgeOld (q : List ℤ) (cutoff : ℤ) : List ℤ := q.dropWhile (fun t => decide (t < cutoff))

def recordOrder (r : RateTracker) (now : ℤ) : RateTracker :=
  { r with orderTimestamps := purgeOld (r.orderTimestamps ++ [now]) (now - 60000000000) }

def recordClose (r : RateTracker) (now : ℤ) : RateTracker :=
  { r with
    tradeCloseTimestamps := purgeOld (r.tradeCloseTimestamps ++ [now]) (now - 3600000000000) }

def recordSymbolTrade (r : RateTracker) (symbol : Symbol) (now : ℤ) : RateTracker :=
  { r with lastTradePerSymbol := r.lastTradePerSymbol.insert symbol now }

def purgeOrders (r : RateTracker) (now : ℤ) : RateTracker :=
  { r with orderTimestamps := purgeOld r.orderTimestamps (now - 60000000000) }

def purgeCloses (r : RateTracker) (now : ℤ) : RateTracker :=
  { r with tradeCloseTimestamps := purgeOld r.tradeCloseTimestamps (now - 3600000000000) }

def ordersLastMinute (r : RateTracker) (now : ℤ) : ℤ :=
  (purgeOrders r now).orderTimestamps.length

def tradesLastHour (r : RateTracker) (now : ℤ) : ℤ :=
  (purgeCloses r now).tradeCloseTimestamps.length

def lastTradeForSymbol (r : RateTracker) (symbol : Symbol) : ℤ :=
  (r.lastTradePerSymbol.lookup symbol).getD 0

section Budgets
variable {F : Type} [DoubleArith F]

def emptyBudget (strategyId : StrategyId) : StrategyRiskBudget F where
  strategyId := strategyId
  dailyLoss := 0
  dailyLossPct := 0
  tradesToday := 0
  consecutiveLosses := 0
  lastTradeAt := 0

def chargeBudget (b : StrategyRiskBudget F) (strategyId : StrategyId) (realizedPnl : F)
    (now : ℤ) : StrategyRiskBudget F :=
  let b := { b with strategyId := strategyId, tradesToday := b.tradesToday + 1,
                    lastTradeAt := now }
  if realizedPnl < 0 then
    { b with dailyLoss := b.dailyLoss + stdAbs realizedPnl,
             consecutiveLosses := b.consecutiveLosses + 1 }
  else { b with consecutiveLosses := 0 }

def StrategyRiskBudget.resetDaily (b : StrategyRiskBudget F) : StrategyRiskBudget F :=
  { b with dailyLoss := 0, dailyLossPct := 0, tradesToday := 0, consecutiveLosses := 0 }

def initialState : RiskState F where
  locks := []
  lossStreaks := ⟨0, 0, 0, ∅, ∅⟩
  pnl := ⟨∅, ∅⟩
  drawdown := ⟨0, 0, 0⟩
  rates := ⟨[], [], ∅⟩
  strategyBudgets := ∅

def RiskState.resetDaily (s : RiskState F) (now : ℤ) : RiskState F where
  locks := clearExpired (removeLock s.locks .dayLock "") now
  lossStreaks := s.lossStreaks.resetDaily
  pnl := ⟨∅, ∅⟩
  drawdown := resetIntraday s.drawdown
  rates := s.rates
  strategyBudgets :=
    s.strategyBudgets.keys.foldl (fun m key => Keyed.modify m key (·.resetDaily))
      s.strategyBudgets

end Budgets

section Locks

theorem covers_iff (l : LockRecord) (type : LockType) (target : String) :
    l.covers type target = true ↔ l.type = type ∧ l.target = target := by
  simp [LockRecord.covers]

theorem expired_iff (l : LockRecord) (now : ℤ) :
    l.expired now = true ↔ 0 < l.durationNs ∧ l.activatedAt + l.durationNs ≤ now := by
  rw [LockRecord.expired, Bool.and_eq_true, decide_eq_true_eq, decide_eq_true_eq]
  omega

theorem isLocked_iff (locks : LockRegistry) (type : LockType) (target : String) :
    isLocked locks type target = true ↔ ∃ l ∈ locks, l.type = type ∧ l.target = target := by
  simp [isLocked, covers_iff]

theorem hasEmergencyHalt_iff (locks : LockRegistry) :
    hasEmergencyHalt locks = true ↔ ∃ l ∈ locks, l.type = .emergencyHalt := by
  simp [hasEmergencyHalt]

variable {locks : LockRegistry} {l : LockRecord}

theorem mem_addLock_of_mem (type : LockType)
    (target : String) (now : ℤ) (durationNs : ℤ) (h : l ∈ locks) :
    l ∈ addLock locks type target now durationNs := by
  unfold addLock
  split_ifs
  · exact h
  · exact List.mem_append_left _ h

theorem mem_addLock {type : LockType} {target : String} {now : ℤ} {durationNs : ℤ}
    (h : l ∈ addLock locks type target now durationNs) :
    l ∈ locks ∨ l = ⟨type, target, now, durationNs⟩ := by
  unfold addLock at h
  split_ifs at h
  · exact Or.inl h
  · simpa using h

theorem isLocked_addLock (locks : LockRegistry) (type : LockType) (target : String)
    (now : ℤ) (durationNs : ℤ) :
    isLocked (addLock locks type target now durationNs) type target = true := by
  unfold addLock
  split_ifs with h
  · exact h
  · rw [isLocked_iff]
    exact ⟨_, List.mem_append_right _ List.mem_cons_self, rfl, rfl⟩

theorem mem_removeLock {type : LockType} {target : String} : l ∈ removeLock locks type target ↔
      l ∈ locks ∧ ¬ (l.type = type ∧ l.target = target) := by
  rw [removeLock, List.mem_filter, Bool.not_eq_true', ← Bool.not_eq_true, covers_iff]

theorem mem_clearExpired {now : ℤ} : l ∈ clearExpired locks now ↔
      l ∈ locks ∧ ¬ (0 < l.durationNs ∧ l.activatedAt + l.durationNs ≤ now) := by
  rw [clearExpired, List.mem_filter, Bool.not_eq_true', ← Bool.not_eq_true, expired_iff]

end Locks

end TB.RiskTypes
