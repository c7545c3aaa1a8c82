import TomorrowBot.CommonTypes

/-!
# The in-memory portfolio engine

Positions are keyed by symbol and leg, reservations by order id. Every
mutating operation of the engine is a function on the portfolio record; the
clock reading it stores is an argument. The audit log, the logger and the
metrics are written and never read back, so they are not part of the record.
-/

set_option autoImplicit false

namespace TB.PortfolioEngine
open TB.CommonTypes

structure Position (F : Type) where
  symbol : Symbol
  side : Side
  positionSide : PositionSide
  size : F
  avgEntryPrice : F
  currentPrice : F
  notional : F
  unrealizedPnl : F
  unrealizedPnlPct : F
  accumulatedFunding : F
  strategyId : StrategyId
  openedAt : Timestamp
  updatedAt : Timestamp
  deriving DecidableEq

structure PnlSummary (F : Type) where
  realizedPnlToday : F
  unrealizedPnl : F
  totalPnl : F
  peakEquity : F
  currentDrawdownPct : F
  tradesToday : ℕ
  consecutiveLosses : ℕ

structure CashLedger (F : Type) where
  totalCash : F
  availableCash : F
  reservedForOrders : F
  feesAccruedToday : F
  realizedPnlGross : F
  realizedPnlNet : F

structure PendingOrderInfo (F : Type) where
  orderId : OrderId
  symbol : Symbol
  side : Side
  reservedCash : F
  reservedNotional : F
  estimatedFee : F
  submittedAt : Timestamp
  strategyId : StrategyId

structure Portfolio (F : Type) where
  totalCapital : F
  leverage : F
  peakEquity : F
  capitalSyncedFromExchange : Bool
  realizedPnlToday : F
  tradesToday : ℕ
  consecutiveLosses : ℕ
  positions : Dict (Position F)
  cashLedger : CashLedger F
  pendingOrders : Dict (PendingOrderInfo F)
  feesAccruedToday : F
  realizedPnlGross : F

variable {F : Type} [DoubleArith F]

def makePosKey (symbol : Symbol) (ps : PositionSide) : String :=
  symbol ++ match ps with
    | .long => ":long"
    | .short => ":short"

def sideToPositionSide : Side → PositionSide
  | .buy => .long
  | .sell => .short

def initPortfolio (totalCapital : F) : Portfolio F where
  totalCapital := totalCapital
  leverage := 1.0
  peakEquity := totalCapital
  capitalSyncedFromExchange := false
  realizedPnlToday := 0
  tradesToday := 0
  consecutiveLosses := 0
  positions := ∅
  cashLedger := ⟨totalCapital, totalCapital, 0, 0, 0, 0⟩
  pendingOrders := ∅
  feesAccruedToday := 0
  realizedPnlGross := 0

def recalculatePositionPnl (pos : Position F) : Position F :=
  let entry := pos.avgEntryPrice
  let current := pos.currentPrice
  let size := pos.size
  if entry ≤ 0 ∨ size ≤ 0 then
    { pos with unrealizedPnl := 0, unrealizedPnlPct := 0 }
  else
    let pricePnl := match pos.side with
      | .buy => (current - entry) * size
      | .sell => (entry - current) * size
    let unrealized := pricePnl - pos.accumulatedFunding
    let entryNotional := entry * size
    { pos with
      unrealizedPnl := unrealized
      unrealizedPnlPct :=
        if kMinValidPrice < entryNotional then (unrealized / entryNotional) * kPercentScaler
        else 0
      notional := current * size }

def currentEquity (p : Portfolio F) : F :=
  p.positions.entries.foldl (fun acc e => acc + e.2.unrealizedPnl)
    (p.totalCapital + p.realizedPnlToday)

def refreshPeak (p : Portfolio F) : Portfolio F :=
  if p.peakEquity < currentEquity p then { p with peakEquity := currentEquity p } else p

def storeLeg (p : Portfolio F) (key : String) (pos : Position F) : Portfolio F :=
  { p with positions := p.positions.insert key pos }

def eraseLeg (p : Portfolio F) (key : String) : Portfolio F :=
  { p with positions := p.positions.erase key }

def addToLeg (existing : Position F) (now : Timestamp) (pos : Position F) : Position F :=
  let oldSize := existing.size
  let newSize := pos.size
  let totalSize := oldSize + newSize
  if 0 < totalSize then
    { existing with
      avgEntryPrice :=
        (oldSize * existing.avgEntryPrice + newSize * pos.avgEntryPrice) / totalSize
      size := totalSize
      notional := totalSize * pos.currentPrice
      currentPrice := pos.currentPrice
      updatedAt := now }
  else existing

def freshLeg (now : Timestamp) (pos : Position F) : Position F :=
  { pos with positionSide := sideToPositionSide pos.side, updatedAt := now }

def openPosition (p : Portfolio F) (now : Timestamp) (pos : Position F) : Portfolio F :=
  let key := makePosKey pos.symbol (sideToPositionSide pos.side)
  match p.positions.lookup key with
  | none => storeLeg p key (recalculatePositionPnl (freshLeg now pos))
  | some existing =>
    if 0 < existing.size then
      storeLeg p key (recalculatePositionPnl (addToLeg existing now pos))
    else storeLeg p key (recalculatePositionPnl (freshLeg now pos))

def repriceLeg (now : Timestamp) (price : F) (pos : Position F) : Position F :=
  let entry := if pos.avgEntryPrice ≤ 0 ∧ 0 < price then price else pos.avgEntryPrice
  recalculatePositionPnl
    { pos with
      avgEntryPrice := entry
      currentPrice := price
      notional := pos.size * price
      updatedAt := now }

def updatePrice (p : Portfolio F) (now : Timestamp) (symbol : Symbol) (price : F) :
    Portfolio F :=
  let long := makePosKey symbol .long
  let short := makePosKey symbol .short
  if long ∈ p.positions ∨ short ∈ p.positions then
    refreshPeak { p with
      positions := Keyed.modify (Keyed.modify p.positions long (repriceLeg now price)) short
        (repriceLeg now price) }
  else p

def fundLeg (p : Portfolio F) (key : String) (amount : F) : Portfolio F :=
  match p.positions.lookup key with
  | none => p
  | some pos =>
    if pos.size ≤ 1e-12 then p
    else
      storeLeg { p with realizedPnlToday := p.realizedPnlToday - amount } key
        (recalculatePositionPnl
          { pos with accumulatedFunding := pos.accumulatedFunding + amount })

def recordFundingPayment (p : Portfolio F) (symbol : Symbol) (fundingAmount : F) :
    Portfolio F :=
  fundLeg (fundLeg p (makePosKey symbol .long) fundingAmount) (makePosKey symbol .short)
    (-fundingAmount)

def bookTrade (p : Portfolio F) (realizedPnl : F) : Portfolio F :=
  { p with
    tradesToday := p.tradesToday + 1
    consecutiveLosses :=
      if realizedPnl < 0 then p.consecutiveLosses + 1
      else if 0 < realizedPnl then 0 else p.consecutiveLosses }

def bookRealized (p : Portfolio F) (realizedPnl : F) : Portfolio F :=
  { p with
    realizedPnlToday := p.realizedPnlToday + realizedPnl
    realizedPnlGross := p.realizedPnlGross + realizedPnl
    cashLedger := { p.cashLedger with
      realizedPnlNet := p.cashLedger.realizedPnlNet + realizedPnl
      realizedPnlGross := p.cashLedger.realizedPnlGross + realizedPnl
      totalCash := p.cashLedger.totalCash + realizedPnl
      availableCash := p.cashLedger.availableCash + realizedPnl } }

def closeLeg (p : Portfolio F) (key : String) (realizedPnl : F) : Portfolio F :=
  refreshPeak (eraseLeg (bookTrade (bookRealized p realizedPnl) realizedPnl) key)

def closePosition (p : Portfolio F) (symbol : Symbol) (realizedPnl : F) : Portfolio F :=
  let long := makePosKey symbol .long
  let short := makePosKey symbol .short
  if long ∈ p.positions ∧ short ∈ p.positions then p
  else if long ∈ p.positions then closeLeg p long realizedPnl
  else if short ∈ p.positions then closeLeg p short realizedPnl
  else p

def closePositionSide (p : Portfolio F) (symbol : Symbol) (ps : PositionSide)
    (realizedPnl : F) : Portfolio F :=
  let key := makePosKey symbol ps
  if key ∈ p.positions then closeLeg p key realizedPnl else p

def reduceLeg (p : Portfolio F) (now : Timestamp) (key : String) (pos : Position F)
    (soldQty closePrice realizedPnl : F) : Portfolio F × F :=
  let oldSize := pos.size
  let reduceQty := stdMin soldQty oldSize
  let newSize := oldSize - reduceQty
  let booked := bookRealized p realizedPnl
  let next :=
    if newSize ≤ 1e-12 then eraseLeg (bookTrade booked realizedPnl) key
    else
      storeLeg booked key (recalculatePositionPnl
        { pos with
          size := newSize
          currentPrice := closePrice
          notional := newSize * closePrice
          updatedAt := now })
  (refreshPeak next, newSize)

def reducePosition (p : Portfolio F) (now : Timestamp) (symbol : Symbol)
    (soldQty closePrice realizedPnl : F) : Portfolio F × F :=
  match p.positions.lookup (makePosKey symbol .long) with
  | some pos => reduceLeg p now (makePosKey symbol .long) pos soldQty closePrice realizedPnl
  | none =>
    match p.positions.lookup (makePosKey symbol .short) with
    | some pos => reduceLeg p now (makePosKey symbol .short) pos soldQty closePrice realizedPnl
    | none => (p, 0)

def reducePositionSide (p : Portfolio F) (now : Timestamp) (symbol : Symbol)
    (ps : PositionSide) (soldQty closePrice realizedPnl : F) : Portfolio F × F :=
  match p.positions.lookup (makePosKey symbol ps) with
  | some pos => reduceLeg p now (makePosKey symbol ps) pos soldQty closePrice realizedPnl
  | none => (p, 0)

variable (p : Portfolio F)

theorem closePosition_cases (symbol : Symbol) (realizedPnl : F) :
    closePosition p symbol realizedPnl = p ∨
      ∃ ps, closePosition p symbol realizedPnl =
        closeLeg p (makePosKey symbol ps) realizedPnl := by
  unfold closePosition
  dsimp only
  split_ifs
  · exact .inl rfl
  · exact .inr ⟨.long, rfl⟩
  · exact .inr ⟨.short, rfl⟩
  · exact .inl rfl

theorem closePositionSide_cases (symbol : Symbol) (ps : PositionSide) (realizedPnl : F) :
    closePositionSide p symbol ps realizedPnl = p ∨
      closePositionSide p symbol ps realizedPnl =
        closeLeg p (makePosKey symbol ps) realizedPnl := by
  unfold closePositionSide
  dsimp only
  split_ifs
  · exact .inr rfl
  · exact .inl rfl

theorem reducePositionSide_cases (now : Timestamp) (symbol : Symbol)
    (ps : PositionSide) (soldQty closePrice realizedPnl : F) :
    reducePositionSide p now symbol ps soldQty closePrice realizedPnl = (p, 0) ∨
      ∃ pos, p.positions.lookup (makePosKey symbol ps) = some pos ∧
        reducePositionSide p now symbol ps soldQty closePrice realizedPnl =
          reduceLeg p now (makePosKey symbol ps) pos soldQty closePrice realizedPnl := by
  unfold reducePositionSide
  cases h : p.positions.lookup (makePosKey symbol ps) with
  | none => exact .inl rfl
  | some pos => exact .inr ⟨pos, rfl, rfl⟩

/-- A reduction does nothing or reduces one leg of the symbol. -/
theorem reducePosition_cases (now : Timestamp) (symbol : Symbol)
    (soldQty closePrice realizedPnl : F) :
    reducePosition p now symbol soldQty closePrice realizedPnl = (p, 0) ∨
      ∃ ps pos, p.positions.lookup (makePosKey symbol ps) = some pos ∧
        reducePosition p now symbol soldQty closePrice realizedPnl =
          reduceLeg p now (makePosKey symbol ps) pos soldQty closePrice realizedPnl := by
  unfold reducePosition
  cases h : p.positions.lookup (makePosKey symbol .long) with
  | some pos => exact .inr ⟨.long, pos, h, rfl⟩
  | none =>
    cases h' : p.positions.lookup (makePosKey symbol .short) with
    | some pos => exact .inr ⟨.short, pos, h', rfl⟩
    | none => exact .inl rfl

def addRealizedPnl (p : Portfolio F) (amount : F) : Portfolio F :=
  { p with
    realizedPnlToday := p.realizedPnlToday + amount
    cashLedger := { p.cashLedger with
      realizedPnlGross := p.cashLedger.realizedPnlGross + amount
      realizedPnlNet := p.cashLedger.realizedPnlNet + amount
      totalCash := p.cashLedger.totalCash + amount
      availableCash := p.cashLedger.availableCash + amount } }

def getPositionSide (p : Portfolio F) (symbol : Symbol) (ps : PositionSide) :
    Option (Position F) :=
  p.positions.lookup (makePosKey symbol ps)

def totalUnrealized (p : Portfolio F) : F :=
  p.positions.entries.foldl (fun acc e => acc + e.2.unrealizedPnl) 0

def resetDaily (p : Portfolio F) : Portfolio F :=
  let unrealized := totalUnrealized p
  let equity := p.totalCapital + p.realizedPnlToday + unrealized
  let capital := equity - unrealized
  { p with
    realizedPnlToday := 0
    tradesToday := 0
    consecutiveLosses := 0
    feesAccruedToday := 0
    realizedPnlGross := 0
    totalCapital := capital
    peakEquity := equity
    cashLedger := { p.cashLedger with
      feesAccruedToday := 0
      realizedPnlGross := 0
      realizedPnlNet := 0
      totalCash := capital
      availableCash := capital - p.cashLedger.reservedForOrders } }

def setCapital (p : Portfolio F) (equityFromExchange : F) : Portfolio F :=
  let capital := equityFromExchange - p.realizedPnlToday - totalUnrealized p
  { p with
    totalCapital := capital
    peakEquity :=
      if !p.capitalSyncedFromExchange then equityFromExchange
      else if p.peakEquity < equityFromExchange then equityFromExchange else p.peakEquity
    capitalSyncedFromExchange := true
    cashLedger := { p.cashLedger with
      totalCash := capital
      availableCash := capital - p.cashLedger.reservedForOrders } }

def setLeverage (p : Portfolio F) (leverage : F) : Portfolio F :=
  { p with leverage := stdMax 1.0 leverage }

def computePnl (p : Portfolio F) : PnlSummary F :=
  let unrealized := totalUnrealized p
  let total := p.realizedPnlToday + unrealized
  let equity := p.totalCapital + total
  { realizedPnlToday := p.realizedPnlToday
    unrealizedPnl := unrealized
    totalPnl := total
    peakEquity := p.peakEquity
    currentDrawdownPct :=
      if kMinValidPrice < p.peakEquity then
        stdMax (((p.peakEquity - equity) / p.peakEquity) * kPercentScaler) 0
      else 0
    tradesToday := p.tradesToday
    consecutiveLosses := p.consecutiveLosses }

/-- Reserve margin and fee for an opening order. The reservation is stored
under the order id, whatever was stored there before. -/
def reserveCash (p : Portfolio F) (now : Timestamp) (orderId : OrderId) (symbol : Symbol)
    (side : Side) (notional estimatedFee : F) (strategyId : StrategyId) : Portfolio F × Bool :=
  let totalRequired := notional + estimatedFee
  if p.cashLedger.availableCash < totalRequired then (p, false)
  else
    ({ p with
      pendingOrders := p.pendingOrders.insert orderId
        { orderId := orderId
          symbol := symbol
          side := side
          reservedCash := totalRequired
          reservedNotional := notional
          estimatedFee := estimatedFee
          submittedAt := now
          strategyId := strategyId }
      cashLedger := { p.cashLedger with
        availableCash := p.cashLedger.availableCash - totalRequired
        reservedForOrders := p.cashLedger.reservedForOrders + totalRequired } }, true)

def releaseCash (p : Portfolio F) (orderId : OrderId) : Portfolio F :=
  match p.pendingOrders.lookup orderId with
  | none => p
  | some info =>
    { p with
      pendingOrders := p.pendingOrders.erase orderId
      cashLedger := { p.cashLedger with
        availableCash := p.cashLedger.availableCash + info.reservedCash
        reservedForOrders := p.cashLedger.reservedForOrders - info.reservedCash } }

def recordFee (p : Portfolio F) (feeAmount : F) : Portfolio F :=
  { p with
    feesAccruedToday := p.feesAccruedToday + feeAmount
    cashLedger := { p.cashLedger with
      feesAccruedToday := p.cashLedger.feesAccruedToday + feeAmount
      availableCash := p.cashLedger.availableCash - feeAmount
      totalCash := p.cashLedger.totalCash - feeAmount
      realizedPnlNet := p.cashLedger.realizedPnlNet - feeAmount } }

def checkInvariants (p : Portfolio F) : Bool :=
  let tolerance : F := 0.01
  let sumReserved := p.pendingOrders.entries.foldl (fun acc e => acc + e.2.reservedCash) 0
  let expectedTotal := p.cashLedger.availableCash + p.cashLedger.reservedForOrders
  !decide (p.cashLedger.availableCash < -tolerance) &&
    !decide (tolerance < stdAbs (p.cashLedger.reservedForOrders - sumReserved)) &&
    !decide (tolerance < stdAbs (p.cashLedger.totalCash - expectedTotal))

def syncedLeg (pos : Position F) (now : Timestamp)
    (size avgEntryPrice currentPrice unrealizedPnl : F) (openedAt : Timestamp) : Position F :=
  { pos with
    size := size
    avgEntryPrice := avgEntryPrice
    currentPrice := currentPrice
    notional := currentPrice * size
    unrealizedPnl := unrealizedPnl
    openedAt := openedAt
    updatedAt := now }

def exchangeLeg (now : Timestamp) (symbol : Symbol) (ps : PositionSide)
    (size avgEntryPrice currentPrice unrealizedPnl : F) (openedAt : Timestamp) : Position F where
  symbol := symbol
  side := match ps with
    | .long => .buy
    | .short => .sell
  positionSide := ps
  size := size
  avgEntryPrice := avgEntryPrice
  currentPrice := currentPrice
  notional := currentPrice * size
  unrealizedPnl := unrealizedPnl
  unrealizedPnlPct := 0
  accumulatedFunding := 0
  strategyId := "sync_from_exchange"
  openedAt := openedAt
  updatedAt := now

/-- A known leg is recalculated; a new leg is stored as the exchange gave it,
its unrealised result included. -/
def syncPositionFromExchange (p : Portfolio F) (now : Timestamp) (symbol : Symbol)
    (ps : PositionSide) (size avgEntryPrice currentPrice unrealizedPnl : F)
    (openedAt : Timestamp) : Portfolio F :=
  let key := makePosKey symbol ps
  match p.positions.lookup key with
  | some pos =>
    storeLeg p key (recalculatePositionPnl
      (syncedLeg pos now size avgEntryPrice currentPrice unrealizedPnl openedAt))
  | none =>
    storeLeg p key
      (exchangeLeg now symbol ps size avgEntryPrice currentPrice unrealizedPnl openedAt)

inductive PortfolioOp (F : Type) where
  | openPosition (now : Timestamp) (pos : Position F)
  | updatePrice (now : Timestamp) (symbol : Symbol) (price : F)
  | recordFundingPayment (symbol : Symbol) (fundingAmount : F)
  | closePosition (symbol : Symbol) (realizedPnl : F)
  | closePositionSide (symbol : Symbol) (ps : PositionSide) (realizedPnl : F)
  | reducePosition (now : Timestamp) (symbol : Symbol) (soldQty closePrice realizedPnl : F)
  | reducePositionSide (now : Timestamp) (symbol : Symbol) (ps : PositionSide)
      (soldQty closePrice realizedPnl : F)
  | addRealizedPnl (amount : F)
  | resetDaily
  | setCapital (equityFromExchange : F)
  | setLeverage (leverage : F)
  | reserveCash (now : Timestamp) (orderId : OrderId) (symbol : Symbol) (side : Side)
      (notional estimatedFee : F) (strategyId : StrategyId)
  | releaseCash (orderId : OrderId)
  | recordFee (feeAmount : F)
  | syncPositionFromExchange (now : Timestamp) (symbol : Symbol) (ps : PositionSide)
      (size avgEntryPrice currentPrice unrealizedPnl : F) (openedAt : Timestamp)

def portfolioStep (p : Portfolio F) : PortfolioOp F → Portfolio F
  | .openPosition now pos => openPosition p now pos
  | .updatePrice now symbol price => updatePrice p now symbol price
  | .recordFundingPayment symbol f => recordFundingPayment p symbol f
  | .closePosition symbol pnl => closePosition p symbol pnl
  | .closePositionSide symbol ps pnl => closePositionSide p symbol ps pnl
  | .reducePosition now symbol q price pnl => (reducePosition p now symbol q price pnl).1
  | .reducePositionSide now symbol ps q price pnl =>
      (reducePositionSide p now symbol ps q price pnl).1
  | .addRealizedPnl amount => addRealizedPnl p amount
  | .resetDaily => resetDaily p
  | .setCapital equity => setCapital p equity
  | .setLeverage leverage => setLeverage p leverage
  | .reserveCash now id symbol side notional fee strategy =>
      (reserveCash p now id symbol side notional fee strategy).1
  | .releaseCash id => releaseCash p id
  | .recordFee fee => recordFee p fee
  | .syncPositionFromExchange now symbol ps size entry current unrealized openedAt =>
      syncPositionFromExchange p now symbol ps size entry current unrealized openedAt

theorem openPosition_stored (now : Timestamp) (pos : Position F) :
    ∃ key leg, openPosition p now pos = storeLeg p key leg := by
  unfold openPosition
  dsimp only
  split
  · exact ⟨_, _, rfl⟩
  · split <;> exact ⟨_, _, rfl⟩

theorem syncPosition_stored (now : Timestamp) (s : Symbol) (ps : PositionSide) (a b c d : F)
    (t : Timestamp) :
    ∃ key leg, syncPositionFromExchange p now s ps a b c d t = storeLeg p key leg := by
  unfold syncPositionFromExchange
  dsimp only
  split <;> exact ⟨_, _, rfl⟩

theorem fundLeg_stored (k : String) (x : F) : fundLeg p k x = p ∨
    ∃ y leg, fundLeg p k x = storeLeg { p with realizedPnlToday := y } k leg := by
  unfold fundLeg
  split
  · exact .inl rfl
  · split
    · exact .inl rfl
    · exact .inr ⟨_, _, rfl⟩

theorem reduceLeg_today (now : Timestamp) (k : String) (pos : Position F) (q c x : F) :
    (reduceLeg p now k pos q c x).1.realizedPnlToday = p.realizedPnlToday + x := by
  unfold reduceLeg
  dsimp only
  unfold refreshPeak
  split_ifs <;> rfl

def PortfolioOp.Ends : PortfolioOp F → Prop
  | .closePosition .. | .closePositionSide .. | .reducePosition .. | .reducePositionSide .. => True
  | _ => False

/-- What ends a position, or a part of it, does nothing or closes or reduces one leg. -/
theorem step_ends {P : Portfolio F → Prop} (hp : P p) (hclose : ∀ key x, P (closeLeg p key x))
    (hreduce : ∀ now key pos q c x, p.positions.lookup key = some pos →
      P (reduceLeg p now key pos q c x).1) (op : PortfolioOp F) (h : op.Ends) :
    P (portfolioStep p op) := by
  cases op with
  | closePosition s x =>
    rw [portfolioStep]
    rcases closePosition_cases p s x with h | ⟨ps, h⟩ <;> rw [h]
    · exact hp
    · exact hclose _ x
  | closePositionSide s ps x =>
    rw [portfolioStep]
    rcases closePositionSide_cases p s ps x with h | h <;> rw [h]
    · exact hp
    · exact hclose _ x
  | reducePosition now s q c x =>
    rw [portfolioStep]
    rcases reducePosition_cases p now s q c x with h | ⟨ps, pos, hleg, h⟩ <;> rw [h]
    · exact hp
    · exact hreduce now _ pos q c x hleg
  | reducePositionSide now s ps q c x =>
    rw [portfolioStep]
    rcases reducePositionSide_cases p now s ps q c x with h | ⟨pos, hleg, h⟩ <;> rw [h]
    · exact hp
    · exact hreduce now _ pos q c x hleg
  | _ => exact h.elim

theorem makePosKey_legs (symbol other : Symbol) :
    makePosKey symbol .long ≠ makePosKey other .short := by
  intro h
  have hl := congrArg (fun s => s.toList.getLast?) h
  simp [makePosKey, String.toList_append] at hl

theorem makePosKey_injective (symbol other : Symbol) (ps os : PositionSide)
    (h : makePosKey symbol ps = makePosKey other os) : symbol = other ∧ ps = os := by
  cases ps <;> cases os
  · exact ⟨String.append_left_inj _ |>.mp h, rfl⟩
  · exact absurd h (makePosKey_legs symbol other)
  · exact absurd h.symm (makePosKey_legs other symbol)
  · exact ⟨String.append_left_inj _ |>.mp h, rfl⟩

end TB.PortfolioEngine
