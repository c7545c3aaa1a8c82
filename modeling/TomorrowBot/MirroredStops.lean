import Mathlib.Algebra.Order.Group.MinMax
import Mathlib.Tactic.NormNum
import Mathlib.Tactic.Ring
import TomorrowBot.TrailingStop

/-!
# The two sides are mirror images about the entry

A short position and a long one that is fed the reflected prices are trailed
alike, except that a first stop of the long position that is not positive is
placed again while the short one's stays.
-/

set_option autoImplicit false

namespace TB.MirroredStops
open TB.CommonTypes TB.ExitOrchestrator TB.TrailingStop

def mirrorInputs (entry : ℚ) (m : MarketInputs ℚ) : MarketInputs ℚ :=
  { m with
    currentPrice := 2 * entry - m.currentPrice
    buyPressure := 1 - m.buyPressure }

structure Pair where
  long : TrailingUpdate ℚ
  short : TrailingUpdate ℚ

def pairStep (entry : ℚ) (p : Pair) (m : MarketInputs ℚ) : Pair where
  long := advance ⟨.long, entry⟩ p.long (mirrorInputs entry m)
  short := advance ⟨.short, entry⟩ p.short m

def StopMirrored (entry : ℚ) (p : Pair) : Prop :=
  p.long.stopLevel = 0 ∧ p.short.stopLevel = 0 ∨
    p.short.stopLevel = 2 * entry - p.long.stopLevel

structure RestMirrored (entry : ℚ) (p : Pair) : Prop where
  trailMult : p.short.trailMult = p.long.trailMult
  breakeven : p.short.breakevenActivated = p.long.breakevenActivated
  lowest : p.short.lowest = 2 * entry - p.long.highest
  highest : p.short.highest = 2 * entry - p.long.lowest

def Mirrored (entry : ℚ) (p : Pair) : Prop := StopMirrored entry p ∧ RestMirrored entry p

section Contexts
variable {entry : ℚ} {p : Pair} (m : MarketInputs ℚ)

theorem skips_mirror :
    Skips (context ⟨.long, entry⟩ p.long (mirrorInputs entry m)) ↔
      Skips (context ⟨.short, entry⟩ p.short m) := Iff.rfl

theorem profit_mirror (price : ℚ) :
    profit .long entry (2 * entry - price) = profit .short entry price := by
  rw [profit, profit]
  ring

theorem profitInAtr_mirror :
    profitInAtr (context ⟨.long, entry⟩ p.long (mirrorInputs entry m)) =
      profitInAtr (context ⟨.short, entry⟩ p.short m) :=
  congrArg (· / m.atr14) (profit_mirror m.currentPrice)

theorem pressureFactor_mirror (pressure : ℚ) :
    pressureFactor .long (1 - pressure) = pressureFactor .short pressure := by
  have hiff : 1 - pressure < 0.3 ↔ 0.7 < pressure := by
    constructor <;> intro h <;> linarith
  rw [pressureFactor, pressureFactor]
  exact if_congr hiff rfl rfl

theorem trailMult_mirror :
    trailMult (context ⟨.long, entry⟩ p.long (mirrorInputs entry m)) =
      trailMult (context ⟨.short, entry⟩ p.short m) := by
  have hprofit : profitFactor (context ⟨.long, entry⟩ p.long (mirrorInputs entry m)) =
      profitFactor (context ⟨.short, entry⟩ p.short m) := by
    rw [profitFactor, profitFactor, profitInAtr_mirror]
    rfl
  have hpressure := pressureFactor_mirror m.buyPressure
  rw [trailMult, trailMult, hprofit]
  show stdClamp (_ * pressureFactor .long (1 - m.buyPressure) * _) _ _ = _
  rw [hpressure]
  rfl

theorem trailDistance_mirror :
    trailDistance (context ⟨.long, entry⟩ p.long (mirrorInputs entry m)) =
      trailDistance (context ⟨.short, entry⟩ p.short m) := by
  rw [trailDistance, trailDistance, trailMult_mirror]
  rfl

theorem activates_mirror (h : RestMirrored entry p) :
    Activates (context ⟨.long, entry⟩ p.long (mirrorInputs entry m)) ↔
      Activates (context ⟨.short, entry⟩ p.short m) := by
  rw [Activates, Activates, profitInAtr_mirror]
  show (p.long.breakevenActivated = false ∧ _) ↔ (p.short.breakevenActivated = false ∧ _)
  rw [h.breakeven]
  rfl

theorem firstStop_mirror :
    firstStop (context ⟨.short, entry⟩ p.short m) =
      2 * entry - firstStop (context ⟨.long, entry⟩ p.long (mirrorInputs entry m)) := by
  show entry + trailDistance _ = 2 * entry - (entry - trailDistance _)
  rw [trailDistance_mirror]
  ring

theorem reflect_max (a b : ℚ) : 2 * entry - max a b = min (2 * entry - a) (2 * entry - b) :=
  (min_sub_sub_left _ _ _).symm

theorem reflect_min (a b : ℚ) : 2 * entry - min a b = max (2 * entry - a) (2 * entry - b) :=
  (max_sub_sub_left _ _ _).symm

theorem breakeven_mirror :
    breakeven (context ⟨.short, entry⟩ p.short m) =
      2 * entry - breakeven (context ⟨.long, entry⟩ p.long (mirrorInputs entry m)) := by
  show breakevenShort _ = 2 * entry - breakevenLong _
  simp only [breakevenShort, breakevenLong, stdMin_rat, stdMax_rat, reflect_min, reflect_max]
  congr 1
  · congr 1
    · congr 1
      · show entry - (entry - m.currentPrice) * 0.5 =
          2 * entry - (entry + (2 * entry - m.currentPrice - entry) * 0.5)
        ring
      · show entry - minFeeOffset _ = 2 * entry - (entry + minFeeOffset _)
        rw [show minFeeOffset (context ⟨.long, entry⟩ p.long (mirrorInputs entry m)) =
          minFeeOffset (context ⟨.short, entry⟩ p.short m) from rfl]
        ring
    · show entry - m.atr14 * 0.1 = 2 * entry - (entry + m.atr14 * 0.1)
      ring
  · show m.currentPrice + m.atr14 * 0.1 = 2 * entry - (2 * entry - m.currentPrice - m.atr14 * 0.1)
    ring

theorem followedStop_mirror (h : RestMirrored entry p) :
    followedStop (context ⟨.short, entry⟩ p.short m) =
      2 * entry - followedStop (context ⟨.long, entry⟩ p.long (mirrorInputs entry m)) := by
  show min p.short.lowest m.currentPrice + trailDistance _ =
    2 * entry - (max p.long.highest (2 * entry - m.currentPrice) - trailDistance _)
  have hprice : m.currentPrice = 2 * entry - (2 * entry - m.currentPrice) := by ring
  rw [trailDistance_mirror, h.lowest, hprice, ← reflect_max, ← hprice]
  ring

end Contexts

structure Facing (entry : ℚ) (p : Pair) : Prop where
  rest : RestMirrored entry p
  priced : Priced ⟨.short, entry⟩ p.short
  unset : p.short.stopLevel = 0 → p.long.stopLevel = 0

def startPair (entry mult : ℚ) : Pair := ⟨start entry mult, start entry mult⟩

theorem facing_start (entry mult : ℚ) : Facing entry (startPair entry mult) := by
  have hself : entry = 2 * entry - entry := by ring
  exact ⟨⟨rfl, rfl, hself, hself⟩, priced_start _ _, fun _ => rfl⟩

theorem mirrored_start (entry mult : ℚ) : Mirrored entry (startPair entry mult) :=
  ⟨Or.inl ⟨rfl, rfl⟩, (facing_start entry mult).rest⟩

variable (entry : ℚ) (p : Pair) (m : MarketInputs ℚ)

theorem pairStep_skips
    (h : Skips (context ⟨.short, entry⟩ p.short m)) : pairStep entry p m = p := by
  rw [pairStep, advance_skips _ _ _ h, advance_skips _ _ _ ((skips_mirror m).mpr h)]

theorem rest_step (hp : Facing entry p)
    (h : ¬Skips (context ⟨.short, entry⟩ p.short m)) : RestMirrored entry (pairStep entry p m) := by
  have hlong : ¬Skips (context ⟨.long, entry⟩ p.long (mirrorInputs entry m)) :=
    (skips_mirror m).not.mpr h
  constructor
  · show (advance _ _ _).trailMult = (advance _ _ _).trailMult
    rw [advance_trailMult _ _ _ h, advance_trailMult _ _ _ hlong, trailMult_mirror]
  · show (advance _ _ _).breakevenActivated = (advance _ _ _).breakevenActivated
    by_cases hb : p.short.breakevenActivated = false
    · have hb' : p.long.breakevenActivated = false := hp.rest.breakeven ▸ hb
      by_cases ha : Activates (context ⟨.short, entry⟩ p.short m)
      · have ha' := (activates_mirror m hp.rest).mpr ha
        rw [(advance_activates _ _ _ h ha).2, (advance_activates _ _ _ hlong ha').2]
      · have ha' := (activates_mirror m hp.rest).not.mpr ha
        rw [(advance_waits _ _ _ h hb ha).2, (advance_waits _ _ _ hlong hb' ha').2]
    · rw [Bool.not_eq_false] at hb
      have hb' : p.long.breakevenActivated = true := hp.rest.breakeven ▸ hb
      rw [(advance_trails _ _ _ h hb (fun hs => hp.priced.locked hs hb)).2,
        (advance_trails _ _ _ hlong hb' (fun hs => PositionSide.noConfusion hs)).2]
  · show (advance _ _ _).lowest = 2 * entry - (advance _ _ _).highest
    rw [advance_lowest _ _ _ h, advance_highest _ _ _ hlong, if_pos rfl, if_pos rfl, reflect_max,
      hp.rest.lowest]
    show _ = min _ (2 * entry - (2 * entry - m.currentPrice))
    rw [sub_sub_cancel]
  · show (advance _ _ _).highest = 2 * entry - (advance _ _ _).lowest
    rw [advance_highest _ _ _ h, advance_lowest _ _ _ hlong]
    exact hp.rest.highest

theorem facing_step (hp : Facing entry p)
    (hprice : 0 < m.currentPrice) : Facing entry (pairStep entry p m) := by
  by_cases h : Skips (context ⟨.short, entry⟩ p.short m)
  · rwa [pairStep_skips entry p m h]
  · exact ⟨rest_step entry p m hp h, priced_step _ _ _ hp.priced hprice,
      fun h0 => absurd h0 (short_stop_pos _ _ _ h hp.priced hprice rfl).ne'⟩

def KeepsPlace (entry : ℚ) (p : Pair) (m : MarketInputs ℚ) : Prop :=
  let ctx := context ⟨.long, entry⟩ p.long (mirrorInputs entry m)
  ¬Skips ctx → ctx.breakevenActivated = false → ¬Activates ctx →
    p.short.stopLevel ≠ 0 → p.long.stopLevel ≤ 0 → firstStop ctx = p.long.stopLevel

theorem stopMirrored_iff (hp : Facing entry p)
    (hs : StopMirrored entry p) : StopMirrored entry (pairStep entry p m) ↔ KeepsPlace entry p m := by
  by_cases h : Skips (context ⟨.short, entry⟩ p.short m)
  · rw [pairStep_skips entry p m h]
    exact ⟨fun _ hno => absurd ((skips_mirror m).mpr h) hno, fun _ => hs⟩
  have hlong : ¬Skips (context ⟨.long, entry⟩ p.long (mirrorInputs entry m)) :=
    (skips_mirror m).not.mpr h
  by_cases hb : p.short.breakevenActivated = false
  · have hb' : p.long.breakevenActivated = false := hp.rest.breakeven ▸ hb
    by_cases ha : Activates (context ⟨.short, entry⟩ p.short m)
    · have ha' := (activates_mirror m hp.rest).mpr ha
      refine ⟨fun _ _ _ hno => absurd ha' hno, fun _ => Or.inr ?_⟩
      show (advance _ _ _).stopLevel = 2 * entry - (advance _ _ _).stopLevel
      rw [(advance_activates _ _ _ h ha).1, (advance_activates _ _ _ hlong ha').1,
        breakeven_mirror]
    · have ha' := (activates_mirror m hp.rest).not.mpr ha
      have hfirst : firstStop (context ⟨.short, entry⟩ p.short m) =
          2 * entry - firstStop (context ⟨.long, entry⟩ p.long (mirrorInputs entry m)) :=
        firstStop_mirror m
      rw [StopMirrored]
      show (advance _ _ _).stopLevel = 0 ∧ (advance _ _ _).stopLevel = 0 ∨
        (advance _ _ _).stopLevel = 2 * entry - (advance _ _ _).stopLevel ↔ _
      rw [(advance_waits _ _ _ h hb ha).1, (advance_waits _ _ _ hlong hb' ha').1]
      by_cases hset : p.short.stopLevel = 0
      · rw [hset, hp.unset hset, if_pos le_rfl, if_pos le_rfl]
        exact ⟨fun _ _ _ _ hno => absurd hset hno, fun _ => Or.inr hfirst⟩
      · have hpos := lt_of_le_of_ne (hp.priced.nonneg rfl) (Ne.symm hset)
        have hreflect := hs.resolve_left (fun hno => hset hno.2)
        rw [if_neg (not_le.mpr hpos)]
        split_ifs with hle
        · constructor
          · intro hor _ _ _ _ _
            have := hor.resolve_left (fun hno => hset hno.2)
            linarith
          · intro hkeep
            rw [hkeep hlong hb' ha' hset hle]
            exact Or.inr hreflect
        · exact ⟨fun _ _ _ _ _ hno => absurd hno hle, fun _ => Or.inr hreflect⟩
  · rw [Bool.not_eq_false] at hb
    have hb' : p.long.breakevenActivated = true := hp.rest.breakeven ▸ hb
    have hpos := hp.priced.locked rfl hb
    refine ⟨fun _ _ hno => absurd (hb'.symm.trans hno) (Ne.symm Bool.false_ne_true),
      fun _ => Or.inr ?_⟩
    show (advance _ _ _).stopLevel = 2 * entry - (advance _ _ _).stopLevel
    rw [(advance_trails _ _ _ h hb (fun _ => hpos)).1,
      (advance_trails _ _ _ hlong hb' (fun hside => PositionSide.noConfusion hside)).1,
      followedStop_mirror m hp.rest, hs.resolve_left (fun hno => hpos.ne' hno.2)]
    exact (reflect_max _ _).symm

theorem mirrored_run_iff (entry mult : ℚ) (ticks : List (MarketInputs ℚ))
    (hprice : ∀ m ∈ ticks, 0 < m.currentPrice) :
    Runs.Always (pairStep entry) (Mirrored entry) (startPair entry mult) ticks ↔
      Runs.Meets (pairStep entry) (KeepsPlace entry) (startPair entry mult) ticks := by
  apply Runs.always_iff_meets_given (pairStep entry) (J := Facing entry)
    (D := fun _ m => 0 < m.currentPrice) (facing_step entry)
  · intro p m hp hm hs
    rw [← stopMirrored_iff entry p m hp hs.1]
    exact and_iff_left (facing_step entry p m hp hm).rest
  · exact facing_start entry mult
  · exact mirrored_start entry mult
  · exact Runs.meets_of_forall _ _ _ _ (fun m hm _ => hprice m hm)

/-- Fed its own outputs, the update only tightens exactly when breakeven waits for more
profit than a tenth of the range and no level of a long position that counts as none is
placed lower; the two sides are mirror images exactly when such a level stays. -/
theorem tightens_and_mirrored_iff (entry mult : ℚ) (ticks : List (MarketInputs ℚ))
    (hprice : ∀ m ∈ ticks, 0 < m.currentPrice) :
    (∀ side, Runs.Meets (advance ⟨side, entry⟩) (Tightens ⟨side, entry⟩) (start entry mult) ticks ↔
      Runs.Meets (advance ⟨side, entry⟩) (Clear ⟨side, entry⟩) (start entry mult) ticks) ∧
    (Runs.Always (pairStep entry) (Mirrored entry) (startPair entry mult) ticks ↔
      Runs.Meets (pairStep entry) (KeepsPlace entry) (startPair entry mult) ticks) :=
  ⟨fun side => tightens_run_iff ⟨side, entry⟩ mult ticks hprice,
    mirrored_run_iff entry mult ticks hprice⟩

def smallProfit : MarketInputs ℚ where
  currentPrice := 100.35
  atr14 := 4
  atrValid := true
  depthUsd := 50000
  spreadBps := 1.5
  adx := 25
  bbWidth := 0.02
  buyPressure := 0.55
  takerFeePct := 0.06
  atrStopMultiplier := 2
  breakevenAtrThreshold := 0.05

def risingTicks : List (MarketInputs ℚ) :=
  [smallProfit, { smallProfit with currentPrice := 106 },
    { smallProfit with currentPrice := 103 }, { smallProfit with currentPrice := 112 }]

theorem tightens_and_mirrored_rising :
    (∀ side, Runs.Meets (advance ⟨side, 100⟩) (Tightens ⟨side, 100⟩) (start 100 2) risingTicks ↔
      Runs.Meets (advance ⟨side, 100⟩) (Clear ⟨side, 100⟩) (start 100 2) risingTicks) ∧
    (Runs.Always (pairStep 100) (Mirrored 100) (startPair 100 2) risingTicks ↔
      Runs.Meets (pairStep 100) (KeepsPlace 100) (startPair 100 2) risingTicks) :=
  tightens_and_mirrored_iff 100 2 risingTicks (by decide +kernel)

/-- The breakeven stop of a long position is put behind its entry. -/
theorem breakeven_behind_entry :
    ¬∀ (entry mult : ℚ) (ticks : List (MarketInputs ℚ)), (∀ m ∈ ticks, 0 < m.currentPrice) →
      (∀ side, Runs.Meets (advance ⟨side, entry⟩) (Tightens ⟨side, entry⟩) (start entry mult)
        ticks) ∧
        Runs.Always (pairStep entry) (Mirrored entry) (startPair entry mult) ticks := by
  intro h
  obtain ⟨⟨-, -, -, hahead⟩, -⟩ := (h 100 2 [smallProfit] (by decide +kernel)).1 .long
  have hactive : (advance ⟨.long, 100⟩ (start 100 2) smallProfit).breakevenActivated = true := by
    decide +kernel
  have hbehind : ¬Ahead .long 100 (advance ⟨.long, 100⟩ (start 100 2) smallProfit).stopLevel := by
    decide +kernel
  exact hbehind (hahead hactive)

end TB.MirroredStops
