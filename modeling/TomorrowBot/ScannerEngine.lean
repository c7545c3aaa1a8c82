import TomorrowBot.DoubleFunctions

/-!
# The scan of the market

A scan reads tickers, order books and candles, evaluates each candidate that is
fully loaded, ranks those that pass the filter, diversifies them and selects the
best. Features, traps, filter, score and bias of a candidate are functions of
its snapshot and arguments here.
-/

set_option autoImplicit false

namespace TB.ScannerEngine
open TB.CommonTypes

inductive BiasDirection where
  | long
  | short
  | neutral

inductive TradeState where
  | tradeAllowed
  | neutral
  | doNotTrade
  deriving DecidableEq, Repr

inductive FilterReason where
  | passed
  | lowLiquidity
  | wideSpread
  | lowOpenInterest
  | thinOrderBook
  | highTrapRisk
  | highNoise
  | extremeVolatility
  | lowVolatility
  | notOnline
  | blacklisted
  | invalidData
  | priceTooLow
  | poorTickEconomics
  | extremeMove24h
  deriving DecidableEq, Repr

def FilterReason.text : FilterReason → String
  | .passed => "passed"
  | .lowLiquidity => "low_liquidity"
  | .wideSpread => "wide_spread"
  | .lowOpenInterest => "low_open_interest"
  | .thinOrderBook => "thin_orderbook"
  | .highTrapRisk => "high_trap_risk"
  | .highNoise => "high_noise"
  | .extremeVolatility => "extreme_volatility"
  | .lowVolatility => "low_volatility"
  | .notOnline => "not_online"
  | .blacklisted => "blacklisted"
  | .invalidData => "invalid_data"
  | .priceTooLow => "price_too_low"
  | .poorTickEconomics => "poor_tick_economics"
  | .extremeMove24h => "extreme_move_24h"

structure OrderBookLevel (F : Type) where
  price : F
  quantity : F

structure OrderBookSnapshot (F : Type) where
  bids : List (OrderBookLevel F)
  asks : List (OrderBookLevel F)
  timestampMs : ℤ

structure CandleData (F : Type) where
  timestampMs : ℤ
  openPrice : F
  high : F
  low : F
  close : F
  volume : F

structure MarketSnapshot (F : Type) where
  symbol : Symbol
  lastPrice : F
  markPrice : F
  bestBid : F
  bestAsk : F
  high24h : F
  low24h : F
  open24h : F
  change24hPct : F
  volume24h : F
  turnover24h : F
  fundingRate : F
  openInterest : F
  orderbook : OrderBookSnapshot F
  candles : List (CandleData F)
  quantityPrecision : ℤ
  pricePrecision : ℤ
  minTradeUsdt : F
  minQuantity : F
  status : String
  collectedAtMs : ℤ

structure TrapAggregateResult (F : Type) where
  totalRisk : F

structure FilterVerdict where
  reason : FilterReason
  details : String

structure SymbolScore (F : Type) where
  total : F
  confidence : F
  bonusReasons : List String
  penaltyReasons : List String

structure BiasResult (F : Type) where
  direction : BiasDirection
  confidence : F
  reasons : List String

structure SymbolAnalysis (F Φ : Type) where
  symbol : Symbol
  features : Φ
  traps : TrapAggregateResult F
  filter : FilterVerdict
  score : SymbolScore F
  bias : BiasDirection
  tradeState : TradeState
  biasConfidence : F
  reasons : List String
  quantityPrecision : ℤ
  pricePrecision : ℤ
  minTradeUsdt : F
  minQuantity : F
  lastPrice : F

structure ScannerConfig (F : Type) where
  topN : ℤ
  tradeStateMaxTrapRisk : F
  tradeStateMinScore : F
  tradeStateMinConfidence : F
  enableDiversification : Bool
  maxCorrelationInBasket : F
  maxPairsPerSector : ℤ

structure ScannerResult (F Φ : Type) where
  topPairs : List (SymbolAnalysis F Φ)
  rejectedPairs : List (SymbolAnalysis F Φ)
  afterFilterCount : ℕ

structure Evaluators (F Φ : Type) where
  features : MarketSnapshot F → Φ
  traps : MarketSnapshot F → Φ → TrapAggregateResult F
  filter : MarketSnapshot F → Φ → TrapAggregateResult F → FilterVerdict
  score : Φ → TrapAggregateResult F → MarketSnapshot F → SymbolScore F
  bias : MarketSnapshot F → Φ → TrapAggregateResult F → BiasResult F

/-- The library's sort by descending score; it need not be stable. -/
structure Sorting (F Φ : Type) [LT F] where
  sort : List (SymbolAnalysis F Φ) → List (SymbolAnalysis F Φ)
  perm : ∀ l, (sort l).Perm l
  descending : ∀ l, (sort l).Pairwise (fun a b => ¬ a.score.total < b.score.total)

variable {F Φ : Type} [DoubleSqrt F]

def FilterVerdict.passed (v : FilterVerdict) : Bool := v.reason = .passed

def isReady (snap : MarketSnapshot F) : Bool :=
  !snap.orderbook.bids.isEmpty && !snap.orderbook.asks.isEmpty && !snap.candles.isEmpty

def movedFrom (snap : MarketSnapshot F) : MarketSnapshot F :=
  { snap with
    symbol := ""
    orderbook := ⟨[], [], snap.orderbook.timestampMs⟩
    candles := []
    status := "" }

section Analysis

def analysed (ev : Evaluators F Φ) (snap : MarketSnapshot F) : SymbolAnalysis F Φ :=
  let features := ev.features snap
  let traps := ev.traps snap features
  { symbol := snap.symbol
    features := features
    traps := traps
    filter := ev.filter snap features traps
    score := ⟨0.0, 0.0, [], []⟩
    bias := .neutral
    tradeState := .neutral
    biasConfidence := 0.0
    reasons := []
    quantityPrecision := snap.quantityPrecision
    pricePrecision := snap.pricePrecision
    minTradeUsdt := snap.minTradeUsdt
    minQuantity := snap.minQuantity
    lastPrice := snap.lastPrice }

def rejectedByFilter (a : SymbolAnalysis F Φ) : SymbolAnalysis F Φ :=
  { a with
    tradeState := .doNotTrade
    reasons := a.reasons ++ [a.filter.reason.text] ++
      if a.filter.details = "" then [] else [a.filter.details] }

def isElevated (cfg : ScannerConfig F) (a : SymbolAnalysis F Φ) : Bool :=
  cfg.tradeStateMaxTrapRisk < a.traps.totalRisk

def tradeStateOf (cfg : ScannerConfig F) (a : SymbolAnalysis F Φ) : TradeState :=
  if isElevated cfg a then .doNotTrade
  else if cfg.tradeStateMinScore < a.score.total ∧
      cfg.tradeStateMinConfidence < a.score.confidence then .tradeAllowed
  else .neutral

def rated (cfg : ScannerConfig F) (ev : Evaluators F Φ) (snap : MarketSnapshot F)
    (a : SymbolAnalysis F Φ) : SymbolAnalysis F Φ :=
  let bias := ev.bias snap a.features a.traps
  let a := { a with
    score := ev.score a.features a.traps snap
    bias := bias.direction
    biasConfidence := bias.confidence }
  { a with
    tradeState := tradeStateOf cfg a
    reasons := bias.reasons ++ (if isElevated cfg a then ["elevated_trap_risk"] else []) ++
      a.score.bonusReasons ++ a.score.penaltyReasons }

def analyse (cfg : ScannerConfig F) (ev : Evaluators F Φ) (snap : MarketSnapshot F) :
    SymbolAnalysis F Φ :=
  let a := analysed ev snap
  if a.filter.passed then rated cfg ev snap a else rejectedByFilter a

end Analysis

section Correlation

def pairedReturns (a b : List (CandleData F)) : List (F × F) :=
  let both := a.zip b
  (both.zip both.tail).filterMap (fun step =>
    if step.1.1.close ≤ 0.0 ∨ step.1.2.close ≤ 0.0 ∨ step.2.1.close ≤ 0.0 ∨ step.2.2.close ≤ 0.0
    then none
    else some (DoubleExp.log (step.2.1.close / step.1.1.close),
      DoubleExp.log (step.2.2.close / step.1.2.close)))

def sumOf (f : F × F → F) (rs : List (F × F)) : F := rs.foldl (fun acc r => acc + f r) 0.0

def pearson (rs : List (F × F)) : F :=
  let m : F := ofInt rs.length
  let sumA := sumOf (fun r => r.1) rs
  let sumB := sumOf (fun r => r.2) rs
  let varA := m * sumOf (fun r => r.1 * r.1) rs - sumA * sumA
  let varB := m * sumOf (fun r => r.2 * r.2) rs - sumB * sumB
  let denom := DoubleSqrt.sqrt (stdMax 0.0 varA * stdMax 0.0 varB)
  if !isfinite denom || decide (denom < 1e-9) then 0.0
  else
    let corr := (m * sumOf (fun r => r.1 * r.2) rs - sumA * sumB) / denom
    if isfinite corr then stdClamp corr (-1.0) 1.0 else 0.0

def kMinCandles : ℕ := 5

def computeReturnCorrelation (a b : List (CandleData F)) : F :=
  if min a.length b.length < kMinCandles then 0.0
  else
    let rs := pairedReturns a b
    if rs.length < 4 then 0.0 else pearson rs

end Correlation

section Diversification

inductive Sector where
  | major
  | l1
  | meme
  | l2
  | defi
  | infra
  | other
  deriving DecidableEq, Repr

def beforeUsdt : List Char → List Char
  | [] => []
  | c::cs => if ['U', 'S', 'D', 'T'].isPrefixOf (c :: cs) then [] else c :: beforeUsdt cs

def getSector (symbol : Symbol) : Sector :=
  let base := String.ofList (beforeUsdt symbol.toList)
  if base ∈ ["BTC", "ETH"] then .major
  else if base ∈ ["SOL", "AVAX", "DOT", "ADA", "NEAR", "APT", "SUI", "SEI"] then .l1
  else if base ∈ ["DOGE", "SHIB", "PEPE", "FLOKI", "WIF", "BONK", "MEME"] then .meme
  else if base ∈ ["ARB", "OP", "MATIC", "BASE", "IMX", "STRK", "ZK"] then .l2
  else if base ∈ ["LINK", "AAVE", "UNI", "MKR", "SNX", "CRV", "COMP"] then .defi
  else if base ∈ ["FIL", "AR", "RENDER", "RNDR", "AI16Z", "FET", "AGIX"] then .infra
  else .other

def candleMap (snapshots : List (MarketSnapshot F)) (symbol : Symbol) :
    Option (List (CandleData F)) :=
  ((snapshots.filter (fun s => !s.candles.isEmpty)).reverse.find?
    (fun s => s.symbol = symbol)).map MarketSnapshot.candles

structure Selection (F Φ : Type) where
  selected : List (SymbolAnalysis F Φ)
  sectorCounts : Sector → ℤ

def tooCorrelated (cfg : ScannerConfig F) (snapshots : List (MarketSnapshot F))
    (selected : List (SymbolAnalysis F Φ)) (pair : SymbolAnalysis F Φ) : Bool :=
  match candleMap snapshots pair.symbol with
  | none => false
  | some a => selected.any (fun sel =>
      match candleMap snapshots sel.symbol with
      | none => false
      | some b =>
        cfg.maxCorrelationInBasket < stdAbs (computeReturnCorrelation a b))

def diversifyStep (cfg : ScannerConfig F) (snapshots : List (MarketSnapshot F))
    (s : Selection F Φ) (pair : SymbolAnalysis F Φ) : Selection F Φ :=
  let sector := getSector pair.symbol
  if cfg.maxPairsPerSector ≤ s.sectorCounts sector then s
  else if tooCorrelated cfg snapshots s.selected pair then s
  else
    { selected := s.selected ++ [pair]
      sectorCounts := Function.update s.sectorCounts sector (s.sectorCounts sector + 1) }

def diversifyBasket (cfg : ScannerConfig F) (ranked : List (SymbolAnalysis F Φ))
    (snapshots : List (MarketSnapshot F)) : List (SymbolAnalysis F Φ) :=
  if !cfg.enableDiversification || ranked.length ≤ 1 then ranked
  else (ranked.foldl (diversifyStep cfg snapshots) ⟨[], fun _ => 0⟩).selected

end Diversification

section Scan

def selectStep (cfg : ScannerConfig F) (r : ScannerResult F Φ) (a : SymbolAnalysis F Φ) :
    ScannerResult F Φ :=
  if cfg.topN ≤ r.topPairs.length ∨ a.tradeState = .doNotTrade then
    { r with rejectedPairs := r.rejectedPairs ++ [a] }
  else { r with topPairs := r.topPairs ++ [a] }

/-- A scan from the candidates on. The ones that are ready are moved out of the list,
which is read again when the basket is diversified. -/
def scanCandidates (cfg : ScannerConfig F) (ev : Evaluators F Φ) (sorting : Sorting F Φ)
    (candidates : List (MarketSnapshot F)) : ScannerResult F Φ :=
  let ready := candidates.filter isReady
  let left := candidates.map (fun snap => if isReady snap then movedFrom snap else snap)
  let all := ready.map (analyse cfg ev)
  let ranked := sorting.sort (all.filter (fun a => a.filter.passed))
  let basket := if cfg.enableDiversification then diversifyBasket cfg ranked left else ranked
  basket.foldl (selectStep cfg)
    { topPairs := []
      rejectedPairs := all.filter (fun a => !a.filter.passed)
      afterFilterCount := ranked.length }

end Scan

end TB.ScannerEngine
