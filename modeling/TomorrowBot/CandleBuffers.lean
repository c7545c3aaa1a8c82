import TomorrowBot.BitgetNormalizer
import TomorrowBot.RingBuffers
import TomorrowBot.Runs

/-!
# The candle buffers of the feature engine

One ring of candles for each symbol and interval. A closing message finalises
the live candle at the end of the ring, a live one updates it; either begins a
new candle when there is none or the last one is closed. The ring holds the end
of a log in which candles are appended and only the last one changes.
-/

set_option autoImplicit false

namespace TB.CandleBuffers
open TB.CommonTypes TB.DoubleValues TB.BitgetNormalizer TB.RingBuffers CircularSlots

section Model

structure OhlcvCandle where
  openTime : Timestamp
  opening : Double
  high : Double
  low : Double
  close : Double
  volume : Double
  isClosed : Bool
  deriving DecidableEq

def kCapacity : ℕ := 500

abbrev CandleBuffer := RingBuffer OhlcvCandle

def newBuffer : CandleBuffer := ⟨fun _ => ⟨0, 0, 0, 0, 0, 0, false⟩, 0, 0⟩

def toOhlcv (candle : NormalizedCandle) : OhlcvCandle where
  openTime := candle.envelope.exchangeTs
  opening := candle.opening
  high := candle.high
  low := candle.low
  close := candle.close
  volume := candle.volume
  isClosed := candle.isClosed

def finalized (last : OhlcvCandle) (candle : NormalizedCandle) : OhlcvCandle :=
  { last with
    close := candle.close
    high := stdMax last.high candle.high
    low := stdMin last.low candle.low
    volume := stdMax last.volume candle.volume
    isClosed := true }

def updated (last : OhlcvCandle) (candle : NormalizedCandle) : OhlcvCandle :=
  { last with
    high := stdMax last.high candle.high
    low := stdMin last.low candle.low
    close := candle.close
    volume := candle.volume
    isClosed := candle.isClosed }

def push (b : CandleBuffer) (candle : NormalizedCandle) : CandleBuffer :=
  if candle.isClosed && !b.empty && !(b.back kCapacity).isClosed then
    b.setBack kCapacity (finalized (b.back kCapacity) candle)
  else RingBuffer.push kCapacity b (toOhlcv candle)

def updateLast (b : CandleBuffer) (candle : NormalizedCandle) : CandleBuffer :=
  if b.empty || (b.back kCapacity).isClosed then push b candle
  else b.setBack kCapacity (updated (b.back kCapacity) candle)

structure FeatureEngine where
  candleBuffers : Dict CandleBuffer

def newEngine : FeatureEngine := ⟨∅⟩

def keyOf (candle : NormalizedCandle) : String := candle.envelope.symbol ++ ":" ++ candle.interval

def feed (b : CandleBuffer) (candle : NormalizedCandle) : CandleBuffer :=
  if candle.isClosed then push b candle else updateLast b candle

def onCandle (engine : FeatureEngine) (candle : NormalizedCandle) : FeatureEngine :=
  let buf := (engine.candleBuffers.lookup (keyOf candle)).getD newBuffer
  ⟨engine.candleBuffers.insert (keyOf candle) (feed buf candle)⟩

def held (engine : FeatureEngine) (key : String) : List OhlcvCandle :=
  ((engine.candleBuffers.lookup key).getD newBuffer).toVector kCapacity

end Model

section Log

def absorbed (last : OhlcvCandle) (candle : NormalizedCandle) : OhlcvCandle :=
  if candle.isClosed then finalized last candle else updated last candle

def logStep (l : List OhlcvCandle) (candle : NormalizedCandle) : List OhlcvCandle :=
  match l.getLast? with
  | none => [toOhlcv candle]
  | some last =>
    if last.isClosed then l ++ [toOhlcv candle] else l.dropLast ++ [absorbed last candle]

theorem logStep_nil (candle : NormalizedCandle) : logStep [] candle = [toOhlcv candle] := rfl

theorem logStep_concat (l : List OhlcvCandle) (last : OhlcvCandle) (candle : NormalizedCandle) :
    logStep (l ++ [last]) candle =
      if last.isClosed then l ++ [last] ++ [toOhlcv candle] else l ++ [absorbed last candle] := by
  simp [logStep]

theorem feed_holds (b : CandleBuffer) (l : List OhlcvCandle) (candle : NormalizedCandle)
    (h : b.Holds kCapacity l) : (feed b candle).Holds kCapacity (logStep l candle) := by
  have hc : 0 < kCapacity := by decide
  have hempty := h.empty_iff hc
  rcases List.eq_nil_or_concat l with rfl | ⟨l, last, rfl⟩
  · have hb : b.empty = true := hempty.mpr rfl
    have hpush : feed b candle = RingBuffer.push kCapacity b (toOhlcv candle) := by
      simp [feed, updateLast, push, hb]
    rw [hpush]
    exact RingBuffer.holds_push h _
  · rw [List.concat_eq_append] at h hempty ⊢
    have hb : b.empty = false := by
      rw [← Bool.not_eq_true, hempty]
      simp
    have hback := h.back_eq hc
    rw [logStep_concat]
    rcases hlast : last.isClosed with _ | _
    · have hset : feed b candle = b.setBack kCapacity (absorbed last candle) := by
        rcases hcl : candle.isClosed <;> simp [feed, updateLast, push, absorbed, hb, hback, hlast, hcl]
      rw [hset]
      exact RingBuffer.holds_setBack h hc _
    · have hpush : feed b candle = RingBuffer.push kCapacity b (toOhlcv candle) := by
        rcases hcl : candle.isClosed <;> simp [feed, updateLast, push, hb, hback, hlast, hcl]
      rw [hpush]
      exact RingBuffer.holds_push h _

def fedTo (key : String) (cs : List NormalizedCandle) : List NormalizedCandle :=
  cs.filter (fun c => keyOf c = key)

def logOf (cs : List NormalizedCandle) : List OhlcvCandle := cs.foldl logStep []

theorem newBuffer_holds : newBuffer.Holds kCapacity [] := ⟨kept_nil _ _, rfl, rfl⟩

theorem run_onCandle_holds (cs : List NormalizedCandle) (key : String) :
    (((Runs.run onCandle newEngine cs).candleBuffers.lookup key).getD newBuffer).Holds kCapacity
      (logOf (fedTo key cs)) := by
  induction cs using List.reverseRecOn with
  | nil => exact newBuffer_holds
  | append_singleton cs c ih =>
    rw [Runs.run_append, fedTo, List.filter_append, logOf, List.foldl_append]
    by_cases hk : keyOf c = key
    · subst hk
      simp only [Runs.run, onCandle, AList.lookup_insert, Option.getD_some, decide_true,
        List.filter_cons_of_pos, List.filter_nil, List.foldl_cons, List.foldl_nil]
      exact feed_holds _ _ c ih
    · simp only [Runs.run, onCandle, AList.lookup_insert_ne (Ne.symm hk), hk, decide_false,
        Bool.false_eq_true, not_false_eq_true, List.filter_cons_of_neg, List.filter_nil,
        List.foldl_nil]
      exact ih

theorem held_eq (cs : List NormalizedCandle) (key : String) :
    held (Runs.run onCandle newEngine cs) key = (logOf (fedTo key cs)).rtake kCapacity :=
  (run_onCandle_holds cs key).toVector_eq

end Log

end TB.CandleBuffers
