import TomorrowBot.DoubleValues
import TomorrowBot.JsonText
import TomorrowBot.OrderBook

/-!
# Market data from raw messages

A message is a JSON text with a channel, a symbol and a list of items. Every
item of a known channel becomes a record of strings; the numbers in it are read
by a conversion that takes the longest numeric prefix, spells infinities and
values that are not a number, and gives zero when it fails. A record that passes
the checks of its kind becomes an event.

The conversion of a decimal to the nearest `double` is a parameter; it fails
when the decimal is out of range.
-/

set_option autoImplicit false

namespace TB.BitgetNormalizer
open TB.CommonTypes TB.DoubleValues TB.OrderBook

section Numbers

def sign : List Char → Bool × List Char
  | [] => (false, [])
  | c :: cs => if c = '-' then (true, cs) else (false, c :: cs)

def digitsValue (cs : List Char) : ℕ := Nat.ofDigitChars 10 cs 0

def exponentOf : List Char → ℤ
  | [] => 0
  | c :: cs =>
    if c = 'e' ∨ c = 'E' then
      let negative := cs.head? = some '-'
      let digits := (if negative ∨ cs.head? = some '+' then cs.tail else cs).takeWhile Char.isDigit
      if negative then -(digitsValue digits : ℤ) else digitsValue digits
    else 0

def afterPoint : List Char → Option (List Char)
  | [] => none
  | c :: cs => if c = '.' then some cs else none

def decimalPrefix (cs : List Char) : Option ℚ :=
  let whole := cs.takeWhile Char.isDigit
  let rest := cs.dropWhile Char.isDigit
  let frac := ((afterPoint rest).getD []).takeWhile Char.isDigit
  let tail := (afterPoint rest).elim rest (List.dropWhile Char.isDigit)
  if whole = [] ∧ frac = [] then none
  else
    let exp := exponentOf tail - frac.length
    some (OfScientific.ofScientific (digitsValue (whole ++ frac)) (decide (exp < 0)) exp.natAbs)

def spells (word : String) (cs : List Char) : Bool :=
  (cs.take word.length).map Char.toLower == word.toList

def fromChars (nearest : ℚ → Option ℚ) (cs : List Char) : Option Double :=
  let signed := sign cs
  if spells "inf" signed.2 then some (if signed.1 then .negInf else .posInf)
  else if spells "nan" signed.2 then some .nan
  else
    (decimalPrefix signed.2).bind (fun q =>
      (nearest (if signed.1 then -q else q)).map Double.finite)

def toDouble (nearest : ℚ → Option ℚ) (s : String) : Double :=
  if s = "" then 0.0 else (fromChars nearest s.toList).getD 0.0

def toInt64 (s : String) : ℤ :=
  let signed := sign s.toList
  let digits := signed.2.takeWhile Char.isDigit
  let value : ℤ := if signed.1 then -(digitsValue digits : ℤ) else digitsValue digits
  if digits ≠ [] ∧ -2 ^ 63 ≤ value ∧ value < 2 ^ 63 then value else 0

def iequals (a b : String) : Bool := a.toList.map Char.toLower == b.toList.map Char.toLower

def asciiUpper (s : String) : List Char := s.toList.map Char.toUpper

def startsWith (word s : String) : Bool := word.toList.isPrefixOf s.toList

def intervals : List (List String × ℤ) :=
  [(["1m", "1min", "1Min"], 60000), (["3m", "3min", "3Min"], 180000),
    (["5m", "5min", "5Min"], 300000), (["15m", "15min", "15Min"], 900000),
    (["30m", "30min", "30Min"], 1800000), (["1h", "1H"], 3600000), (["2h", "2H"], 7200000),
    (["4h", "4H"], 14400000), (["6h", "6H", "6Hutc"], 21600000),
    (["12h", "12H", "12Hutc"], 43200000), (["1d", "1D", "1Dutc"], 86400000),
    (["3d", "3D", "3Dutc"], 259200000), (["1w", "1W", "1Wutc"], 604800000),
    (["1M", "1Mutc"], 2592000000)]

def intervalToMs (interval : String) : ℤ :=
  ((intervals.find? (fun e => e.1.contains interval)).map Prod.snd).getD 0

end Numbers

section Records

structure RawTicker where
  symbol : String
  last : String
  bid : String
  ask : String
  volume24h : String
  change24h : String
  ts : ℤ

structure RawTrade where
  symbol : String
  tradeId : String
  price : String
  size : String
  side : String
  ts : ℤ

structure RawBookLevel where
  price : String
  size : String

structure RawOrderBook where
  symbol : String
  action : String
  bids : List RawBookLevel
  asks : List RawBookLevel
  ts : ℤ
  sequence : UInt64

structure RawCandle where
  symbol : String
  interval : String
  ts : ℤ
  opening : String
  high : String
  low : String
  close : String
  volume : String
  baseVolume : String
  isClosed : Bool

inductive RawRecord where
  | ticker (raw : RawTicker)
  | trade (raw : RawTrade)
  | orderBook (raw : RawOrderBook)
  | candle (raw : RawCandle)

structure RawWsMessage where
  rawPayload : String
  receivedNs : Timestamp

structure NormalizedTicker where
  envelope : EventEnvelope
  lastPrice : Double
  bid : Double
  ask : Double
  volume24h : Double
  change24hPct : Double
  spread : Double
  spreadBps : Double
  deriving DecidableEq

structure NormalizedTrade where
  envelope : EventEnvelope
  tradeId : String
  price : Double
  size : Double
  side : Side
  isAggressive : Bool
  deriving DecidableEq

structure NormalizedCandle where
  envelope : EventEnvelope
  interval : String
  opening : Double
  high : Double
  low : Double
  close : Double
  volume : Double
  baseVolume : Double
  isClosed : Bool
  deriving DecidableEq

inductive NormalizedEvent where
  | ticker (event : NormalizedTicker)
  | trade (event : NormalizedTrade)
  | orderBook (event : NormalizedOrderBook Double)
  | candle (event : NormalizedCandle)
  deriving DecidableEq

structure Normalizer where
  symbols : List Symbol
  sequence : UInt64
  rejectedCount : UInt64

structure Context where
  nearest : ℚ → Option ℚ
  receivedNs : Timestamp
  processedTs : UInt64 → Timestamp

end Records

section Parsing

def reject (n : Normalizer) : Normalizer := { n with rejectedCount := n.rejectedCount + 1 }

def fillEnvelope (ctx : Context) (symbol : String) (exchangeTsMs : ℤ) (n : Normalizer) :
    Normalizer × EventEnvelope :=
  let sequence := n.sequence + 1
  ({ n with sequence := sequence },
    ⟨exchangeTsMs * 1000000, ctx.receivedNs, ctx.processedTs sequence, symbol, "bitget", sequence⟩)

def tickerRefused (last bid ask : Double) : Bool :=
  decide (last ≤ 0.0) || decide (bid ≤ 0.0) || decide (ask ≤ 0.0) || decide (1e9 < last) ||
    decide (1e9 < bid) || decide (1e9 < ask) || decide (ask < bid)

def spreadBps (bid ask : Double) : Double :=
  let mid := (ask + bid) * 0.5
  if 0.0 < mid then (ask - bid) / mid * 10000.0 else 0.0

def parseTicker (ctx : Context) (raw : RawTicker) (n : Normalizer) :
    Normalizer × Option NormalizedTicker :=
  let filled := fillEnvelope ctx raw.symbol raw.ts n
  let last := toDouble ctx.nearest raw.last
  let bid := toDouble ctx.nearest raw.bid
  let ask := toDouble ctx.nearest raw.ask
  if tickerRefused last bid ask then (reject filled.1, none)
  else
    (filled.1, some {
      envelope := filled.2
      lastPrice := last
      bid := bid
      ask := ask
      volume24h := toDouble ctx.nearest raw.volume24h
      change24hPct := toDouble ctx.nearest raw.change24h
      spread := ask - bid
      spreadBps := spreadBps bid ask })

def parseTrade (ctx : Context) (raw : RawTrade) (n : Normalizer) :
    Normalizer × Option NormalizedTrade :=
  let price := toDouble ctx.nearest raw.price
  let size := toDouble ctx.nearest raw.size
  if price ≤ 0.0 ∨ size ≤ 0.0 then (reject n, none)
  else
    let filled := fillEnvelope ctx raw.symbol raw.ts n
    if raw.tradeId = "" then (reject filled.1, none)
    else
      let isSell := iequals raw.side "sell"
      (filled.1, some {
        envelope := filled.2
        tradeId := raw.tradeId
        price := price
        size := size
        side := if isSell then .sell else .buy
        isAggressive := isSell })

def updateTypeOf (action : String) : Option BookUpdateType :=
  if iequals action "snapshot" then some .snapshot
  else if iequals action "update" then some .delta
  else none

def readLevel (nearest : ℚ → Option ℚ) (raw : RawBookLevel) : BookLevel Double :=
  ⟨toDouble nearest raw.price, toDouble nearest raw.size⟩

def readLevels (nearest : ℚ → Option ℚ) (raw : List RawBookLevel) : List (BookLevel Double) :=
  (raw.map (readLevel nearest)).filter (fun lvl => !decide (lvl.price ≤ 0.0))

def bookRefused (bids asks : List (BookLevel Double)) : Bool :=
  match bids, asks with
  | bid :: _, ask :: _ => decide (ask.price ≤ bid.price)
  | _, _ => true

def parseOrderBook (ctx : Context) (raw : RawOrderBook) (n : Normalizer) :
    Normalizer × Option (NormalizedOrderBook Double) :=
  let filled := fillEnvelope ctx raw.symbol raw.ts n
  let bids := readLevels ctx.nearest raw.bids
  let asks := readLevels ctx.nearest raw.asks
  match updateTypeOf raw.action with
  | none => (reject filled.1, none)
  | some updateType =>
    if bookRefused bids asks then (reject filled.1, none)
    else (filled.1, some ⟨filled.2, updateType, bids, asks, raw.sequence⟩)

def priceRefused (x : Double) : Bool :=
  decide (x ≤ 0.0) || decide (x < 1e-4) || decide (1e8 < x)

def candleRefused (o h l c v : Double) : Bool :=
  priceRefused o || priceRefused h || priceRefused l || priceRefused c || decide (h < l) ||
    (decide (h < o) || decide (h < c) || decide (o < l) || decide (c < l)) || decide (v < 0.0)

def parseCandle (ctx : Context) (raw : RawCandle) (n : Normalizer) :
    Normalizer × Option NormalizedCandle :=
  let o := toDouble ctx.nearest raw.opening
  let h := toDouble ctx.nearest raw.high
  let l := toDouble ctx.nearest raw.low
  let c := toDouble ctx.nearest raw.close
  let v := toDouble ctx.nearest raw.volume
  if candleRefused o h l c v then (reject n, none)
  else
    let filled := fillEnvelope ctx raw.symbol raw.ts n
    (filled.1, some {
      envelope := filled.2
      interval := raw.interval
      opening := o
      high := h
      low := l
      close := c
      volume := v
      baseVolume := toDouble ctx.nearest raw.baseVolume
      isClosed := raw.isClosed })

def parseRecord (ctx : Context) (n : Normalizer) : RawRecord → Normalizer × Option NormalizedEvent
  | .ticker raw => ((parseTicker ctx raw n).1, (parseTicker ctx raw n).2.map .ticker)
  | .trade raw => ((parseTrade ctx raw n).1, (parseTrade ctx raw n).2.map .trade)
  | .orderBook raw => ((parseOrderBook ctx raw n).1, (parseOrderBook ctx raw n).2.map .orderBook)
  | .candle raw => ((parseCandle ctx raw n).1, (parseCandle ctx raw n).2.map .candle)

end Parsing

section Messages
open JsonText

def safeString (v : Option (Value Double)) : String := (v.bind Value.asString).getD ""

def safeMember (obj : Members Double) (key : String) : String := safeString (find obj key)

def tickerOf (instId : String) (obj : Members Double) : RawTicker where
  symbol := if instId = "" then safeMember obj "instId" else instId
  last := safeMember obj "lastPr"
  bid := safeMember obj "bidPr"
  ask := safeMember obj "askPr"
  volume24h := safeMember obj "baseVolume"
  change24h := safeMember obj "change24h"
  ts := toInt64 (safeMember obj "ts")

def tradeOf (instId : String) (obj : Members Double) : RawTrade where
  symbol := instId
  tradeId := safeMember obj "tradeId"
  price := safeMember obj "price"
  size := safeMember obj "size"
  side := safeMember obj "side"
  ts := toInt64 (safeMember obj "ts")

def sequenceOf (obj : Members Double) : UInt64 :=
  match find obj "seqId" with
  | none => 0
  | some (.int n) => UInt64.ofInt n
  | some _ => UInt64.ofInt (toInt64 (safeMember obj "seqId"))

def levelOf (v : Value Double) : Option RawBookLevel :=
  match v.asArray with
  | some (price :: size :: _) => some ⟨safeString (some price), safeString (some size)⟩
  | _ => none

def levelsOf (v : Option (Value Double)) : List RawBookLevel :=
  ((v.bind Value.asArray).getD []).filterMap levelOf

def orderBookOf (instId action : String) (obj : Members Double) : RawOrderBook where
  symbol := instId
  action := action
  bids := levelsOf (find obj "bids")
  asks := levelsOf (find obj "asks")
  ts := toInt64 (safeMember obj "ts")
  sequence := sequenceOf obj

def candleOf (instId interval : String) (nowMs : ℤ) (items : List (Value Double)) :
    Option RawCandle :=
  if items.length < 7 then none
  else
    let item (i : ℕ) := safeString items[i]?
    let ts := toInt64 (item 0)
    some {
      symbol := instId
      interval := interval
      ts := ts
      opening := item 1
      high := item 2
      low := item 3
      close := item 4
      volume := item 5
      baseVolume := item 6
      isClosed := item 7 == "1" || decide (ts + intervalToMs interval ≤ nowMs) }

def ofUsdtFutures (instType : String) : Bool :=
  instType == "" || iequals instType "USDT-FUTURES" || iequals instType "mc" ||
    iequals instType "umcbl"

def observed (symbols : List Symbol) (instId : String) : Bool :=
  instId == "" || symbols.isEmpty || symbols.any (fun s => asciiUpper s == asciiUpper instId)

def recordsOf (nowMs : ℤ) (channel instId action : String) (data : List (Value Double)) :
    Option (List RawRecord) :=
  if channel = "ticker" then
    some (data.filterMap (fun item => item.asObject.map (fun obj => .ticker (tickerOf instId obj))))
  else if channel = "trade" then
    some (data.filterMap (fun item => item.asObject.map (fun obj => .trade (tradeOf instId obj))))
  else if startsWith "books" channel then
    some (data.filterMap (fun item =>
      item.asObject.map (fun obj => .orderBook (orderBookOf instId action obj))))
  else if startsWith "candle" channel then
    let interval := String.ofList (channel.toList.drop 6)
    if intervalToMs interval = 0 then none
    else some (data.filterMap (fun item =>
      item.asArray.bind (fun items => (candleOf instId interval nowMs items).map .candle)))
  else some []

def rawRecords (nowMs : ℤ) (symbols : List Symbol) (payload : String) : Option (List RawRecord) :=
  let arg := ((parse (text payload : Text Double)).bind Value.asObject).bind (fun root =>
    (((find root "arg").bind Value.asObject).map (fun arg => (root, arg))))
  match arg with
  | none => some []
  | some (root, arg) =>
    let instId := safeMember arg "instId"
    if !ofUsdtFutures (safeMember arg "instType") || !observed symbols instId then some []
    else
      match ((find root "data").bind Value.asArray).getD [] with
      | [] => some []
      | data => recordsOf nowMs (safeMember arg "channel") instId (safeMember root "action") data

def emitRecord (ctx : Context) (s : Normalizer × List NormalizedEvent) (raw : RawRecord) :
    Normalizer × List NormalizedEvent :=
  ((parseRecord ctx s.1 raw).1, s.2 ++ (parseRecord ctx s.1 raw).2.toList)

def processRawMessage (nearest : ℚ → Option ℚ) (nowMs : ℤ) (processedTs : UInt64 → Timestamp)
    (msg : RawWsMessage) (n : Normalizer) : Normalizer × List NormalizedEvent :=
  match rawRecords nowMs n.symbols msg.rawPayload with
  | none => (reject n, [])
  | some records => records.foldl (emitRecord ⟨nearest, msg.receivedNs, processedTs⟩) (n, [])

end Messages

end TB.BitgetNormalizer
