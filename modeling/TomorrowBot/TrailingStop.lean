import Mathlib.Algebra.Order.Field.Basic
import Mathlib.Tactic.Linarith
import TomorrowBot.ExitOrchestrator
import TomorrowBot.Runs

/-!
# A trailed stop only tightens

The two sides are mirror images about the entry price. The breakeven stop is
beyond the entry when the profit that put it there exceeds a tenth of the
range; a first stop of a long position that is not positive counts as no stop
and is placed again.
-/

set_option autoImplicit false

namespace TB.TrailingStop
open TB.CommonTypes TB.ExitOrchestrator

def Ahead (side : PositionSide) (a b : ℚ) : Prop := 0 < profit side a b

theorem ahead_long (a b : ℚ) : Ahead .long a b ↔ a < b := sub_pos

theorem ahead_short (a b : ℚ) : Ahead .short a b ↔ b < a := sub_pos

instance (side : PositionSide) (a b : ℚ) : Decidable (Ahead side a b) :=
  inferInstanceAs (Decidable (_ < _))

variable {side : PositionSide}

theorem ahead_trans {a b c : ℚ} (h : Ahead side a b) (k : Ahead side b c) : Ahead side a c := by
  cases side with
  | long =>
    rw [ahead_long] at *
    exact h.trans k
  | short =>
    rw [ahead_short] at *
    exact k.trans h

theorem ahead_asymm {a b : ℚ} (h : Ahead side a b) : ¬Ahead side b a := by
  cases side with
  | long =>
    rw [ahead_long] at *
    exact h.asymm
  | short =>
    rw [ahead_short] at *
    exact h.asymm

/-- What is not behind a level that is ahead is ahead. -/
theorem ahead_of_not_behind {a b c : ℚ} (h : Ahead side a b)
    (k : ¬Ahead side c b) : Ahead side a c := by
  cases side with
  | long =>
    rw [ahead_long] at *
    exact h.trans_le (not_lt.mp k)
  | short =>
    rw [ahead_short] at *
    exact (not_lt.mp k).trans_lt h

def firstStop (ctx : ExitContext ℚ) : ℚ :=
  match ctx.positionSide with
  | .long => ctx.entryPrice - trailDistance ctx
  | .short => ctx.entryPrice + trailDistance ctx

def breakeven (ctx : ExitContext ℚ) : ℚ :=
  match ctx.positionSide with
  | .long => breakevenLong ctx
  | .short => breakevenShort ctx

section Levels
variable (ctx : ExitContext ℚ) (h : ¬Skips ctx)
include h

theorem range_pos : 0 < ctx.atr14 := not_le.mp (fun hle => h (Or.inr (Or.inl hle)))

theorem entry_pos : 0 < ctx.entryPrice := not_le.mp (fun hle => h (Or.inr (Or.inr hle)))

theorem trailDistance_pos : 0 < trailDistance ctx := by
  have hentry := entry_pos ctx h
  rw [trailDistance, stdMax_rat]
  exact lt_max_of_lt_right (by positivity)

theorem firstStop_behind : Ahead ctx.positionSide (firstStop ctx) ctx.entryPrice := by
  have hdist := trailDistance_pos ctx h
  rw [firstStop]
  cases hside : ctx.positionSide with
  | long =>
    rw [ahead_long]
    exact sub_lt_self _ hdist
  | short =>
    rw [ahead_short]
    exact lt_add_of_pos_right _ hdist

theorem breakeven_behind : Ahead ctx.positionSide (breakeven ctx) ctx.currentPrice := by
  have hrange := range_pos ctx h
  rw [breakeven]
  cases hside : ctx.positionSide with
  | long =>
    simp only [ahead_long, breakevenLong, stdMin_rat]
    exact (min_le_right _ _).trans_lt (by linarith)
  | short =>
    simp only [ahead_short, breakevenShort, stdMax_rat]
    exact lt_of_lt_of_le (by linarith) (le_max_right _ _)

/-- It is beyond the entry exactly when the profit exceeds the distance it keeps. -/
theorem breakeven_ahead_iff : Ahead ctx.positionSide ctx.entryPrice (breakeven ctx) ↔
    ctx.atr14 * 0.1 < profit ctx.positionSide ctx.entryPrice ctx.currentPrice := by
  have hrange := range_pos ctx h
  rw [breakeven]
  cases hside : ctx.positionSide with
  | long =>
    have hfloor : ctx.entryPrice < ctx.entryPrice + ctx.atr14 * 0.1 := by linarith
    simp only [ahead_long, breakevenLong, stdMin_rat, stdMax_rat, lt_min_iff, lt_max_iff, hfloor,
      or_true, true_and, profit]
    exact lt_sub_comm
  | short =>
    have hceil : ctx.entryPrice - ctx.atr14 * 0.1 < ctx.entryPrice := by linarith
    simp only [ahead_short, breakevenShort, stdMin_rat, stdMax_rat, max_lt_iff, min_lt_iff, hceil,
      or_true, true_and, profit]
    exact lt_sub_iff_add_lt'.symm

end Levels

def followedStop (ctx : ExitContext ℚ) : ℚ :=
  match ctx.positionSide with
  | .long => max ctx.highestPriceSinceEntry ctx.currentPrice - trailDistance ctx
  | .short => min ctx.lowestPriceSinceEntry ctx.currentPrice + trailDistance ctx

def tighter : PositionSide → ℚ → ℚ → ℚ
  | .long => max
  | .short => min

theorem first_or_kept (c : Prop) [Decidable c] {u v : TrailingUpdate ℚ}
    (hu : u.breakevenActivated = false) (hv : v.breakevenActivated = false) :
    (if c then u else v).stopLevel = (if c then u.stopLevel else v.stopLevel) ∧
      (if c then u else v).breakevenActivated = false := by
  split_ifs
  · exact ⟨rfl, hu⟩
  · exact ⟨rfl, hv⟩

section Step
variable (pos : Position ℚ) (s : TrailingUpdate ℚ) (m : MarketInputs ℚ)
  (h : ¬Skips (context pos s m))
include h

theorem advance_activates (ha : Activates (context pos s m)) :
    (advance pos s m).stopLevel = breakeven (context pos s m) ∧
      (advance pos s m).breakevenActivated = true := by
  obtain ⟨side, entry⟩ := pos
  rw [advance, updateTrailing, if_neg h]
  cases side with
  | long =>
    show (updateLong _ _).stopLevel = _ ∧ (updateLong _ _).breakevenActivated = _
    rw [updateLong, if_pos ha.1, if_pos ha.2]
    exact ⟨rfl, rfl⟩
  | short =>
    show (updateShort _ _).stopLevel = _ ∧ (updateShort _ _).breakevenActivated = _
    rw [updateShort, if_pos ha.1, if_pos ha.2]
    exact ⟨rfl, rfl⟩

/-- Before the breakeven stop only a level that is not positive is replaced. -/
theorem advance_waits (hb : s.breakevenActivated = false) (ha : ¬Activates (context pos s m)) :
    (advance pos s m).stopLevel =
        (if s.stopLevel ≤ 0 then firstStop (context pos s m) else s.stopLevel) ∧
      (advance pos s m).breakevenActivated = false := by
  obtain ⟨side, entry⟩ := pos
  have hflag : (context ⟨side, entry⟩ s m).breakevenActivated = false := hb
  have hshort := fun hle => ha ⟨hb, hle⟩
  rw [advance, updateTrailing, if_neg h]
  cases side with
  | long =>
    show (updateLong _ _).stopLevel = _ ∧ (updateLong _ _).breakevenActivated = _
    rw [updateLong, if_pos hflag, if_neg hshort]
    exact first_or_kept _ hb hb
  | short =>
    show (updateShort _ _).stopLevel = _ ∧ (updateShort _ _).breakevenActivated = _
    rw [updateShort, if_pos hflag, if_neg hshort]
    exact first_or_kept _ hb hb

/-- After it the stop moves to the level that follows the price, if that is tighter. -/
theorem advance_trails (hb : s.breakevenActivated = true)
    (hpos : pos.side = .short → 0 < s.stopLevel) :
    (advance pos s m).stopLevel =
        tighter pos.side s.stopLevel (followedStop (context pos s m)) ∧
      (advance pos s m).breakevenActivated = true := by
  obtain ⟨side, entry⟩ := pos
  have hflag : ¬(context ⟨side, entry⟩ s m).breakevenActivated = false := by
    show ¬s.breakevenActivated = false
    rw [hb]
    exact Bool.true_eq_false_eq_False
  rw [advance, updateTrailing, if_neg h]
  cases side with
  | long =>
    show (updateLong _ _).stopLevel = _ ∧ (updateLong _ _).breakevenActivated = _
    rw [updateLong, if_neg hflag]
    refine ⟨?_, hb⟩
    rw [tighter, followedStop, ← stdMax_rat, ← stdMax_rat]
    rfl
  | short =>
    have hset : ¬(context ⟨.short, entry⟩ s m).currentStopLevel ≤ 0 := not_le.mpr (hpos rfl)
    show (updateShort _ _).stopLevel = _ ∧ (updateShort _ _).breakevenActivated = _
    rw [updateShort, if_neg hflag, if_neg hset]
    refine ⟨?_, hb⟩
    rw [tighter, followedStop, ← stdMin_rat, ← stdMin_rat]
    rfl

theorem advance_trailMult : (advance pos s m).trailMult = trailMult (context pos s m) := by
  obtain ⟨side, entry⟩ := pos
  rw [advance, updateTrailing, if_neg h]
  cases side with
  | long => exact (updateLong_rest _ _).1
  | short => exact (updateShort_rest _ _).1

theorem advance_highest : (advance pos s m).highest =
    if pos.side = .long then max s.highest m.currentPrice else s.highest := by
  obtain ⟨side, entry⟩ := pos
  rw [advance, updateTrailing, if_neg h, ← stdMax_rat]
  cases side with
  | long => exact (updateLong_rest _ _).2.1
  | short => exact (updateShort_rest _ _).2.1

theorem advance_lowest : (advance pos s m).lowest =
    if pos.side = .short then min s.lowest m.currentPrice else s.lowest := by
  obtain ⟨side, entry⟩ := pos
  rw [advance, updateTrailing, if_neg h, ← stdMin_rat]
  cases side with
  | long => exact (updateLong_rest _ _).2.2
  | short => exact (updateShort_rest _ _).2.2

end Step

def Tightens (pos : Position ℚ) (s : TrailingUpdate ℚ) (m : MarketInputs ℚ) : Prop :=
  let next := advance pos s m
  (s.breakevenActivated = true → next.breakevenActivated = true) ∧
    (s.stopLevel ≠ 0 → ¬Ahead pos.side next.stopLevel s.stopLevel) ∧
    (s.breakevenActivated = false → next.breakevenActivated = true →
      Ahead pos.side next.stopLevel m.currentPrice) ∧
    (next.breakevenActivated = true → Ahead pos.side pos.entry next.stopLevel)

/-- Breakeven waits for more profit than the distance its stop keeps, and a stop that
counts as none is not placed lower. -/
def Clear (pos : Position ℚ) (s : TrailingUpdate ℚ) (m : MarketInputs ℚ) : Prop :=
  ¬Skips (context pos s m) →
    (Activates (context pos s m) → m.atr14 * 0.1 < profit pos.side pos.entry m.currentPrice) ∧
    (s.breakevenActivated = false → ¬Activates (context pos s m) → s.stopLevel < 0 →
      ¬Ahead pos.side (firstStop (context pos s m)) s.stopLevel)

structure Standing (pos : Position ℚ) (s : TrailingUpdate ℚ) : Prop where
  locked : s.breakevenActivated = true → Ahead pos.side pos.entry s.stopLevel
  waiting : s.breakevenActivated = false → s.stopLevel ≠ 0 → Ahead pos.side s.stopLevel pos.entry

structure Priced (pos : Position ℚ) (s : TrailingUpdate ℚ) : Prop where
  nonneg : pos.side = .short → 0 ≤ s.stopLevel
  locked : pos.side = .short → s.breakevenActivated = true → 0 < s.stopLevel
  lowest : 0 < pos.entry → 0 < s.lowest

variable (pos : Position ℚ)

theorem standing_start (mult : ℚ) : Standing pos (start pos.entry mult) :=
  ⟨fun h => absurd h Bool.false_ne_true, fun _ h => absurd rfl h⟩

theorem priced_start (mult : ℚ) : Priced pos (start pos.entry mult) :=
  ⟨fun _ => le_rfl, fun _ h => absurd h Bool.false_ne_true, fun h => h⟩

theorem not_ahead_self (side : PositionSide) (a : ℚ) : ¬Ahead side a a := by
  cases side <;> simp [ahead_long, ahead_short]

theorem not_ahead_tighter (side : PositionSide) (a b : ℚ) : ¬Ahead side (tighter side a b) a := by
  cases side with
  | long => exact (ahead_long _ _).not.mpr (not_lt.mpr (le_max_left a b))
  | short => exact (ahead_short _ _).not.mpr (not_lt.mpr (min_le_left a b))

variable (s : TrailingUpdate ℚ) (m : MarketInputs ℚ)

theorem lowest_step
    (h : ¬Skips (context pos s m)) (hs : Priced pos s) (hprice : 0 < m.currentPrice) :
    0 < (advance pos s m).lowest := by
  have hlow := hs.lowest (entry_pos _ h)
  rw [advance_lowest pos s m h]
  split_ifs
  · exact lt_min hlow hprice
  · exact hlow

theorem short_stop_pos
    (h : ¬Skips (context pos s m)) (hs : Priced pos s) (hprice : 0 < m.currentPrice)
    (hside : pos.side = .short) : 0 < (advance pos s m).stopLevel := by
  have hentry : 0 < pos.entry := entry_pos _ h
  have hdist := trailDistance_pos _ h
  have hcontext : (context pos s m).positionSide = .short := hside
  by_cases hb : s.breakevenActivated = false
  · by_cases ha : Activates (context pos s m)
    · have hrange : 0 < m.atr14 := range_pos _ h
      rw [(advance_activates pos s m h ha).1, breakeven, hcontext]
      simp only [breakevenShort, stdMax_rat]
      exact lt_max_of_lt_right (by show 0 < m.currentPrice + m.atr14 * 0.1; linarith)
    · rw [(advance_waits pos s m h hb ha).1]
      split_ifs with hle
      · rw [firstStop, hcontext]
        exact add_pos hentry hdist
      · exact not_le.mp hle
  · rw [Bool.not_eq_false] at hb
    have hpos := hs.locked hside hb
    rw [(advance_trails pos s m h hb (fun _ => hpos)).1, hside, tighter, followedStop, hcontext]
    exact lt_min hpos (add_pos (lt_min (hs.lowest hentry) hprice) hdist)

theorem priced_step
    (hs : Priced pos s) (hprice : 0 < m.currentPrice) : Priced pos (advance pos s m) := by
  by_cases h : Skips (context pos s m)
  · rwa [advance_skips pos s m h]
  have hstop := short_stop_pos pos s m h hs hprice
  exact ⟨fun hside => (hstop hside).le, fun hside _ => hstop hside,
    fun _ => lowest_step pos s m h hs hprice⟩

theorem tightens_iff
    (hs : Standing pos s) (hp : Priced pos s) : Tightens pos s m ↔ Clear pos s m := by
  rw [Tightens, Clear]
  by_cases h : Skips (context pos s m)
  · rw [advance_skips pos s m h]
    exact ⟨fun _ hno => absurd h hno, fun _ => ⟨fun hb => hb, fun _ => not_ahead_self _ _,
      fun hb hb' => absurd hb' (by rw [hb]; exact Bool.false_ne_true), hs.locked⟩⟩
  by_cases hb : s.breakevenActivated = false
  · by_cases ha : Activates (context pos s m)
    · obtain ⟨hstop, hflag⟩ := advance_activates pos s m h ha
      have hiff := breakeven_ahead_iff _ h
      have hprice := breakeven_behind _ h
      simp only [hstop, hflag, hb, ha, h]
      constructor
      · rintro ⟨-, -, -, hahead⟩ -
        exact ⟨fun _ => hiff.mp (hahead trivial), fun _ hno => absurd trivial hno⟩
      · intro hclear
        have hahead := hiff.mpr ((hclear not_false).1 trivial)
        exact ⟨fun _ => trivial, fun hne => ahead_asymm (ahead_trans (hs.waiting hb hne) hahead),
          fun _ _ => hprice, fun _ => hahead⟩
    · obtain ⟨hstop, hflag⟩ := advance_waits pos s m h hb ha
      simp only [hstop, hflag, hb, ha, h]
      constructor
      · rintro ⟨-, htight, -, -⟩ -
        refine ⟨False.elim, fun _ _ hneg => ?_⟩
        have := htight hneg.ne
        rwa [if_pos hneg.le] at this
      · intro hclear
        refine ⟨fun hf => absurd hf Bool.false_ne_true, fun hne => ?_,
          fun _ hf => absurd hf Bool.false_ne_true, fun hf => absurd hf Bool.false_ne_true⟩
        split_ifs with hle
        · exact (hclear not_false).2 trivial not_false (lt_of_le_of_ne hle hne)
        · exact not_ahead_self _ _
  · rw [Bool.not_eq_false] at hb
    obtain ⟨hstop, hflag⟩ := advance_trails pos s m h hb (fun hside => hp.locked hside hb)
    have htight := not_ahead_tighter pos.side s.stopLevel (followedStop (context pos s m))
    have hno : s.breakevenActivated ≠ false := by rw [hb]; exact Bool.noConfusion
    rw [hstop, hflag]
    exact ⟨fun _ _ => ⟨fun ha => absurd ha.1 hno, fun hf => absurd hf hno⟩,
      fun _ => ⟨fun _ => rfl, fun _ => htight, fun hf => absurd hf hno,
        fun _ => ahead_of_not_behind (hs.locked hb) htight⟩⟩

theorem standing_step
    (hs : Standing pos s) (ht : Tightens pos s m) : Standing pos (advance pos s m) := by
  obtain ⟨hkeep, -, -, hlocked⟩ := ht
  refine ⟨hlocked, fun hb hne => ?_⟩
  have hbefore : s.breakevenActivated = false := by
    by_contra hno
    rw [Bool.not_eq_false] at hno
    exact Bool.false_ne_true (hb.symm.trans (hkeep hno))
  by_cases h : Skips (context pos s m)
  · rw [advance_skips pos s m h] at hne ⊢
    exact hs.waiting hbefore hne
  by_cases ha : Activates (context pos s m)
  · exact absurd (hb.symm.trans (advance_activates pos s m h ha).2) Bool.false_ne_true
  rw [(advance_waits pos s m h hbefore ha).1]
  split_ifs with hle
  · exact firstStop_behind _ h
  · exact hs.waiting hbefore (fun h0 => hle h0.le)

theorem tightens_run_iff (mult : ℚ) (ticks : List (MarketInputs ℚ))
    (hprice : ∀ m ∈ ticks, 0 < m.currentPrice) :
    Runs.Meets (advance pos) (Tightens pos) (start pos.entry mult) ticks ↔
      Runs.Meets (advance pos) (Clear pos) (start pos.entry mult) ticks :=
  Runs.meets_iff_meets_given (advance pos) (I := fun s => Standing pos s ∧ Priced pos s)
    (G := fun _ m => 0 < m.currentPrice)
    (fun s m hs hm ht => ⟨standing_step pos s m hs.1 ht, priced_step pos s m hs.2 hm⟩)
    (fun s m hs _ => tightens_iff pos s m hs.1 hs.2) _ ticks
    ⟨standing_start pos mult, priced_start pos mult⟩
    (Runs.meets_of_forall _ _ _ _ (fun m hm _ => hprice m hm))

end TB.TrailingStop
