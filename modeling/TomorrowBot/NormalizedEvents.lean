import TomorrowBot.BitgetNormalizer

/-!
# What passes the normalizer

The checks of a record are comparisons that reject it. Each of them is false for
a value that is not a number, and most have no upper bound, so such a value and
an infinity pass them. A record whose readings are numbers, and finite where no
bound is checked, gives a well-formed event or none.
-/

set_option autoImplicit false

namespace TB.NormalizedEvents
open TB.CommonTypes TB.DoubleValues TB.DoubleValues.Double TB.OrderBook TB.BitgetNormalizer

section Laws

def Within (lo hi x : Double) : Prop := isfinite x = true ∧ lo ≤ x ∧ x ≤ hi

def Positive (x : Double) : Prop := isfinite x = true ∧ 0.0 < x

def NonNegative (x : Double) : Prop := isfinite x = true ∧ 0.0 ≤ x

def WellFormed : NormalizedEvent → Prop
  | .ticker t => (∀ x ∈ [t.lastPrice, t.bid, t.ask], Positive x ∧ x ≤ 1e9) ∧ t.bid ≤ t.ask ∧
      isfinite t.spreadBps = true
  | .trade t => Positive t.price ∧ Positive t.size ∧ t.tradeId ≠ ""
  | .orderBook b => ∀ lvl ∈ b.bids ++ b.asks, Positive lvl.price ∧ NonNegative lvl.size
  | .candle c => (∀ x ∈ [c.opening, c.high, c.low, c.close], Within 1e-4 1e8 x) ∧
      c.low ≤ c.opening ∧ c.opening ≤ c.high ∧ c.low ≤ c.close ∧ c.close ≤ c.high ∧
      NonNegative c.volume

def SoundRecord (nearest : ℚ → Option ℚ) : RawRecord → Prop
  | .ticker raw =>
    tickerRefused (toDouble nearest raw.last) (toDouble nearest raw.bid)
        (toDouble nearest raw.ask) = true ∨
      ∀ s ∈ [raw.last, raw.bid, raw.ask], isNumber (toDouble nearest s) = true
  | .trade raw =>
    toDouble nearest raw.price ≤ 0.0 ∨ toDouble nearest raw.size ≤ 0.0 ∨ raw.tradeId = "" ∨
      ∀ s ∈ [raw.price, raw.size], isfinite (toDouble nearest s) = true
  | .orderBook raw =>
    updateTypeOf raw.action = none ∨
      bookRefused (readLevels nearest raw.bids) (readLevels nearest raw.asks) = true ∨
      ∀ lvl ∈ readLevels nearest raw.bids ++ readLevels nearest raw.asks,
        isfinite lvl.price = true ∧ NonNegative lvl.size
  | .candle raw =>
    candleRefused (toDouble nearest raw.opening) (toDouble nearest raw.high)
        (toDouble nearest raw.low) (toDouble nearest raw.close)
        (toDouble nearest raw.volume) = true ∨
      (∀ s ∈ [raw.opening, raw.high, raw.low, raw.close],
        isNumber (toDouble nearest s) = true) ∧ isfinite (toDouble nearest raw.volume) = true

end Laws

section Readings

theorem zero_literal : (0.0 : Double) = .finite 0 := by
  show Double.finite (OfScientific.ofScientific 0 true 1) = _
  rw [show (OfScientific.ofScientific 0 true 1 : ℚ) = 0 by decide +kernel]

theorem finite_iff (x : Double) : isfinite x = true ↔ ∃ q, x = .finite q := by
  show isFinite x = true ↔ _
  cases x <;> simp [isFinite]

theorem number_of_finite (x : Double) (h : isfinite x = true) : isNumber x = true := by
  obtain ⟨q, rfl⟩ := (finite_iff x).mp h
  rfl

theorem finite_of_between (lo hi x : Double) (hlo : isfinite lo = true) (hhi : isfinite hi = true)
    (h : lo ≤ x) (k : x ≤ hi) : isfinite x = true := by
  obtain ⟨a, rfl⟩ := (finite_iff lo).mp hlo
  obtain ⟨b, rfl⟩ := (finite_iff hi).mp hhi
  rw [le_iff] at h k
  cases x <;> simp [le] at h k
  rfl

theorem lt_of_refused (x y : Double) (hx : isNumber x = true) (hy : isfinite y = true)
    (h : ¬ x ≤ y) : y < x :=
  lt_of_not_le (number_of_finite y hy) hx h

theorem le_of_refused (x y : Double) (hx : isNumber x = true) (hy : isNumber y = true)
    (h : ¬ x < y) : y ≤ x := by
  rcases le_total hx hy with hle | hle
  · by_contra hno
    exact h (lt_of_not_le hx hy hno)
  · exact hle

theorem le_of_lt {x y : Double} (h : x < y) : x ≤ y := ((lt_iff x y).mp h).1

theorem positive_of_refused (x : Double) (hx : isfinite x = true) (h : ¬ x ≤ 0.0) : Positive x :=
  ⟨hx, lt_of_refused x 0.0 (number_of_finite x hx) rfl h⟩

theorem spreadBps_finite (bid ask : Double) (hb : isfinite bid = true) (ha : isfinite ask = true) :
    isfinite (spreadBps bid ask) = true := by
  obtain ⟨b, rfl⟩ := (finite_iff bid).mp hb
  obtain ⟨a, rfl⟩ := (finite_iff ask).mp ha
  unfold spreadBps
  dsimp only
  by_cases hmid : (0.0 : Double) < (Double.finite a + Double.finite b) * 0.5
  · rw [if_pos hmid]
    obtain ⟨m, hm⟩ : ∃ m, (Double.finite a + Double.finite b) * 0.5 = .finite m := ⟨_, rfl⟩
    rw [hm] at hmid ⊢
    have hne : m ≠ 0 := by
      rintro rfl
      rw [zero_literal] at hmid
      exact lt_irrefl _ hmid
    have hdiv : (Double.finite a - Double.finite b) / Double.finite m =
        .finite ((a + -b) * m⁻¹) := by
      show mul (add (.finite a) (neg (.finite b))) (inv (.finite m)) = _
      rw [inv, if_neg hne]
      rfl
    rw [hdiv]
    rfl
  · rw [if_neg hmid]
    rfl

end Readings

section Tickers

theorem ticker_passed (last bid ask : Double) (h : tickerRefused last bid ask = false) :
    (¬ last ≤ 0.0 ∧ ¬ bid ≤ 0.0 ∧ ¬ ask ≤ 0.0) ∧ (¬ 1e9 < last ∧ ¬ 1e9 < bid ∧ ¬ 1e9 < ask) ∧
      ¬ ask < bid := by
  simp only [tickerRefused, Bool.or_eq_false_iff, decide_eq_false_iff_not] at h
  tauto

theorem tickerPrice (x : Double) (hx : isNumber x = true) (hlo : ¬ x ≤ 0.0) (hhi : ¬ 1e9 < x) :
    Positive x ∧ x ≤ 1e9 := by
  have hpos := lt_of_refused x 0.0 hx rfl hlo
  have hle := le_of_refused 1e9 x rfl hx hhi
  exact ⟨⟨finite_of_between 0.0 1e9 x rfl rfl (le_of_lt hpos) hle, hpos⟩, hle⟩

theorem ticker_iff (ctx : Context) (raw : RawTicker) (n : Normalizer) :
    (∀ t, (parseTicker ctx raw n).2 = some t → WellFormed (.ticker t)) ↔
      SoundRecord ctx.nearest (.ticker raw) := by
  cases hr : tickerRefused (toDouble ctx.nearest raw.last) (toDouble ctx.nearest raw.bid)
      (toDouble ctx.nearest raw.ask) with
  | true => simp [parseTicker, SoundRecord, hr]
  | false =>
    obtain ⟨⟨hlast, hbid, hask⟩, ⟨hlastHi, hbidHi, haskHi⟩, hcross⟩ := ticker_passed _ _ _ hr
    constructor
    · intro h
      right
      have hwell := h _ (by rw [parseTicker]; simp only [hr]; rfl)
      intro s hs
      have hprice := hwell.1 (toDouble ctx.nearest s) (by
        rcases List.mem_cons.mp hs with rfl | hs
        · exact List.mem_cons_self
        · rcases List.mem_cons.mp hs with rfl | hs
          · exact List.mem_cons_of_mem _ List.mem_cons_self
          · rw [List.mem_singleton.mp hs]
            exact List.mem_cons_of_mem _ (List.mem_cons_of_mem _ (List.mem_singleton.mpr rfl)))
      exact number_of_finite _ hprice.1.1
    · intro h t ht
      have hnumbers := h.resolve_left (by rw [hr]; simp)
      simp only [List.mem_cons, List.not_mem_nil, or_false, forall_eq_or_imp, forall_eq] at hnumbers
      obtain ⟨hlastN, hbidN, haskN⟩ := hnumbers
      rw [parseTicker] at ht
      simp only [hr] at ht
      rw [← Option.some.inj ht]
      have hb := tickerPrice _ hbidN hbid hbidHi
      have ha := tickerPrice _ haskN hask haskHi
      refine ⟨?_, le_of_refused _ _ haskN hbidN hcross, spreadBps_finite _ _ hb.1.1 ha.1.1⟩
      simp only [List.mem_cons, List.not_mem_nil, or_false, forall_eq_or_imp, forall_eq]
      exact ⟨tickerPrice _ hlastN hlast hlastHi, hb, ha⟩

end Tickers

section Trades

theorem trade_iff (ctx : Context) (raw : RawTrade) (n : Normalizer) :
    (∀ t, (parseTrade ctx raw n).2 = some t → WellFormed (.trade t)) ↔
      SoundRecord ctx.nearest (.trade raw) := by
  by_cases hbad : toDouble ctx.nearest raw.price ≤ 0.0 ∨ toDouble ctx.nearest raw.size ≤ 0.0
  · have hnone : (parseTrade ctx raw n).2 = none := by
      rw [parseTrade, if_pos hbad]
    rw [hnone]
    constructor
    · intro _
      rcases hbad with h | h
      · exact .inl h
      · exact .inr (.inl h)
    · intro _ t ht
      cases ht
  by_cases hid : raw.tradeId = ""
  · have hnone : (parseTrade ctx raw n).2 = none := by
      simp [parseTrade, hbad, hid]
    rw [hnone]
    constructor
    · intro _
      exact .inr (.inr (.inl hid))
    · intro _ t ht
      cases ht
  · obtain ⟨hprice, hsize⟩ := not_or.mp hbad
    constructor
    · intro h
      right; right; right
      have hwell := h _ (by rw [parseTrade, if_neg hbad]; simp only [hid, if_false]; rfl)
      intro s hs
      rcases List.mem_cons.mp hs with rfl | hs
      · exact hwell.1.1
      · rw [List.mem_singleton.mp hs]
        exact hwell.2.1.1
    · intro h t ht
      have hfinite := ((h.resolve_left hprice).resolve_left hsize).resolve_left hid
      simp only [List.mem_cons, List.not_mem_nil, or_false, forall_eq_or_imp, forall_eq] at hfinite
      rw [parseTrade, if_neg hbad] at ht
      simp only [hid, if_false] at ht
      rw [← Option.some.inj ht]
      exact ⟨positive_of_refused _ hfinite.1 hprice, positive_of_refused _ hfinite.2 hsize, hid⟩

end Trades

section Books

theorem readLevels_price (nearest : ℚ → Option ℚ) (raw : List RawBookLevel)
    (lvl : BookLevel Double) (h : lvl ∈ readLevels nearest raw) : ¬ lvl.price ≤ 0.0 := by
  simpa using (List.mem_filter.mp h).2

theorem book_iff (ctx : Context) (raw : RawOrderBook) (n : Normalizer) :
    (∀ b, (parseOrderBook ctx raw n).2 = some b → WellFormed (.orderBook b)) ↔
      SoundRecord ctx.nearest (.orderBook raw) := by
  unfold parseOrderBook SoundRecord
  dsimp only
  cases hu : updateTypeOf raw.action with
  | none => simp
  | some updateType =>
    cases hr : bookRefused (readLevels ctx.nearest raw.bids) (readLevels ctx.nearest raw.asks) with
    | true => simp
    | false =>
      have hsome : ∀ b, (some (⟨(fillEnvelope ctx raw.symbol raw.ts n).2, updateType,
          readLevels ctx.nearest raw.bids, readLevels ctx.nearest raw.asks, raw.sequence⟩ :
            NormalizedOrderBook Double) = some b) →
          b.bids = readLevels ctx.nearest raw.bids ∧ b.asks = readLevels ctx.nearest raw.asks := by
        intro b hb
        rw [← Option.some.inj hb]
        exact ⟨rfl, rfl⟩
      constructor
      · intro h
        right; right
        intro lvl hlvl
        have hwell := h _ rfl lvl hlvl
        exact ⟨hwell.1.1, hwell.2⟩
      · intro h b hb lvl hlvl
        have hall : ∀ lvl ∈ readLevels ctx.nearest raw.bids ++ readLevels ctx.nearest raw.asks,
            isfinite lvl.price = true ∧ NonNegative lvl.size := by simpa using h
        obtain ⟨hbids, hasks⟩ := hsome b hb
        rw [hbids, hasks] at hlvl
        have hprice : ¬ lvl.price ≤ 0.0 := by
          rcases List.mem_append.mp hlvl with hl | hl
          · exact readLevels_price _ _ lvl hl
          · exact readLevels_price _ _ lvl hl
        exact ⟨positive_of_refused _ (hall lvl hlvl).1 hprice, (hall lvl hlvl).2⟩

end Books

section Candles

theorem price_passed (x : Double) (h : priceRefused x = false) : ¬ x < 1e-4 ∧ ¬ 1e8 < x := by
  simp only [priceRefused, Bool.or_eq_false_iff, decide_eq_false_iff_not] at h
  exact ⟨h.1.2, h.2⟩

theorem candlePrice (x : Double) (hx : isNumber x = true) (h : priceRefused x = false) :
    Within 1e-4 1e8 x := by
  obtain ⟨hlo, hhi⟩ := price_passed x h
  have hlo' := le_of_refused x 1e-4 hx rfl hlo
  have hhi' := le_of_refused 1e8 x rfl hx hhi
  exact ⟨finite_of_between 1e-4 1e8 x rfl rfl hlo' hhi', hlo', hhi'⟩

theorem candle_passed (o h l c v : Double) (hp : candleRefused o h l c v = false) :
    (priceRefused o = false ∧ priceRefused h = false ∧ priceRefused l = false ∧
      priceRefused c = false) ∧ (¬ h < o ∧ ¬ h < c ∧ ¬ o < l ∧ ¬ c < l) ∧ ¬ v < 0.0 := by
  simp only [candleRefused, Bool.or_eq_false_iff, decide_eq_false_iff_not] at hp
  tauto

theorem candle_iff (ctx : Context) (raw : RawCandle) (n : Normalizer) :
    (∀ c, (parseCandle ctx raw n).2 = some c → WellFormed (.candle c)) ↔
      SoundRecord ctx.nearest (.candle raw) := by
  cases hr : candleRefused (toDouble ctx.nearest raw.opening) (toDouble ctx.nearest raw.high)
      (toDouble ctx.nearest raw.low) (toDouble ctx.nearest raw.close)
      (toDouble ctx.nearest raw.volume) with
  | true => simp [parseCandle, SoundRecord, hr]
  | false =>
    obtain ⟨⟨ho, hh, hl, hc⟩, ⟨hho, hhc, hlo, hlc⟩, hv⟩ := candle_passed _ _ _ _ _ hr
    constructor
    · intro h
      right
      obtain ⟨hprices, -, -, -, -, hvolume⟩ := h _ (by rw [parseCandle]; simp only [hr]; rfl)
      refine ⟨?_, hvolume.1⟩
      simp only [List.mem_cons, List.not_mem_nil, or_false, forall_eq_or_imp, forall_eq]
        at hprices ⊢
      exact ⟨number_of_finite _ hprices.1.1, number_of_finite _ hprices.2.1.1,
        number_of_finite _ hprices.2.2.1.1, number_of_finite _ hprices.2.2.2.1⟩
    · intro h c ht
      obtain ⟨hnumbers, hvolume⟩ := h.resolve_left (by rw [hr]; simp)
      simp only [List.mem_cons, List.not_mem_nil, or_false, forall_eq_or_imp, forall_eq] at hnumbers
      obtain ⟨hoN, hhN, hlN, hcN⟩ := hnumbers
      rw [parseCandle] at ht
      simp only [hr] at ht
      rw [← Option.some.inj ht]
      refine ⟨?_, le_of_refused _ _ hoN hlN hlo, le_of_refused _ _ hhN hoN hho,
        le_of_refused _ _ hcN hlN hlc, le_of_refused _ _ hhN hcN hhc, hvolume,
        le_of_refused _ _ (number_of_finite _ hvolume) rfl hv⟩
      simp only [List.mem_cons, List.not_mem_nil, or_false, forall_eq_or_imp, forall_eq]
      exact ⟨candlePrice _ hoN ho, candlePrice _ hhN hh, candlePrice _ hlN hl, candlePrice _ hcN hc⟩

end Candles

section Messages

/-- A record gives only a well-formed event exactly when it is sound. -/
theorem record_iff (ctx : Context) (n : Normalizer) (raw : RawRecord) :
    (∀ ev ∈ (parseRecord ctx n raw).2.toList, WellFormed ev) ↔ SoundRecord ctx.nearest raw := by
  cases raw with
  | ticker raw =>
    rw [← ticker_iff ctx raw n]
    simp [parseRecord]
  | trade raw =>
    rw [← trade_iff ctx raw n]
    simp [parseRecord]
  | orderBook raw =>
    rw [← book_iff ctx raw n]
    simp [parseRecord]
  | candle raw =>
    rw [← candle_iff ctx raw n]
    simp [parseRecord]

theorem records_iff (ctx : Context) (records : List RawRecord)
    (s : Normalizer × List NormalizedEvent) :
    (∀ ev ∈ (records.foldl (emitRecord ctx) s).2, WellFormed ev) ↔
      (∀ ev ∈ s.2, WellFormed ev) ∧ ∀ raw ∈ records, SoundRecord ctx.nearest raw := by
  induction records generalizing s with
  | nil => simp
  | cons raw records ih =>
    rw [List.foldl_cons, ih, List.forall_mem_cons, ← record_iff ctx s.1 raw]
    simp only [emitRecord, List.mem_append, or_imp, forall_and]
    tauto

/-- Every event of a message is well formed exactly when all its records are sound. -/
theorem emitted_wellFormed_iff (nearest : ℚ → Option ℚ) (nowMs : ℤ)
    (processedTs : UInt64 → Timestamp) (msg : RawWsMessage) (n : Normalizer) :
    (∀ ev ∈ (processRawMessage nearest nowMs processedTs msg n).2, WellFormed ev) ↔
      ∀ raw ∈ (rawRecords nowMs n.symbols msg.rawPayload).getD [], SoundRecord nearest raw := by
  unfold processRawMessage
  cases rawRecords nowMs n.symbols msg.rawPayload with
  | none => simp
  | some records =>
    dsimp only
    rw [records_iff]
    simp

def nanTrade : String :=
  "\x7b\"arg\":\x7b\"channel\":\"trade\",\"instId\":\"BTCUSDT\"\x7d," ++
    "\"data\":[\x7b\"tradeId\":\"1\",\"price\":\"nan\",\"size\":\"1\"\x7d]\x7d"

theorem nan_trade_emitted :
    ¬ ∀ (nearest : ℚ → Option ℚ) (nowMs : ℤ) (processedTs : UInt64 → Timestamp)
      (msg : RawWsMessage) (n : Normalizer),
      ∀ ev ∈ (processRawMessage nearest nowMs processedTs msg n).2, WellFormed ev := by
  intro h
  have hwell := h some 0 (fun _ => 0) ⟨nanTrade, 0⟩ ⟨[], 0, 0⟩
    (.trade ⟨⟨0, 0, 0, "BTCUSDT", "bitget", 1⟩, "1", .nan, .finite 1, .buy, false⟩) (by decide +kernel)
  have hprice : isfinite (Double.nan) = true := hwell.1.1
  cases hprice

end Messages

end TB.NormalizedEvents
