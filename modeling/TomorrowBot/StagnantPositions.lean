import TomorrowBot.DoubleValues
import Mathlib.Data.List.TakeWhile
import Mathlib.Logic.Function.Basic
import Mathlib.Tactic.Linarith

/-!
# Positions that no longer move

A price is taken as a sample only while the position is old enough and at a loss.
A position is reported where the samples of the window are close together. The
prices that were passed since the position was opened are kept track of beside it.
-/

set_option autoImplicit false

namespace TB.StagnantPositions
open TB.CommonTypes TB.DoubleValues Double

structure StagnantPositionConfig (F : Type) where
  stagnantCheckWindowSec : ℤ
  minRangeBps : F
  minPositionAgeSec : ℤ
  lossZoneThresholdBps : F
  hardMaxHoldSec : ℤ
  enabled : Bool

structure PriceSample (F : Type) where
  tsNs : ℤ
  price : F
  deriving DecidableEq

structure PositionTracker (F : Type) where
  openedAtNs : ℤ
  samples : List (PriceSample F)
  alreadyFlagged : Bool

structure DetectorState (F : Type) where
  trackers : Symbol → Option (PositionTracker F)
  observed : Symbol → List (PriceSample F)

structure TickInput (F : Type) where
  symbol : Symbol
  price : F
  now : ℤ
  entryPrice : F
  side : PositionSide

inductive DetectorEvent (F : Type) where
  | opened (symbol : Symbol) (now : ℤ)
  | closed (symbol : Symbol)
  | reset (symbol : Symbol)
  | tick (input : TickInput F)

section Detector
variable {F : Type} [DoubleArith F] (cfg : StagnantPositionConfig F)

def defaultConfig : StagnantPositionConfig F := ⟨180, 12.0, 900, 30.0, 1800, true⟩

def newDetector : DetectorState F := ⟨fun _ => none, fun _ => []⟩

def ValidPrice (price : F) : Prop := 0.0 < price ∧ isfinite price = true

instance : DecidablePred (ValidPrice (F := F)) := fun _ => inferInstanceAs (Decidable (_ ∧ _))

def ageSec (t : PositionTracker F) (now : ℤ) : ℤ := (now - t.openedAtNs).tdiv 1000000000

def windowNs : ℤ := cfg.stagnantCheckWindowSec * 1000000000

def pnlBps (i : TickInput F) : F :=
  match i.side with
  | .long => (i.price - i.entryPrice) / i.entryPrice * 10000.0
  | .short => (i.entryPrice - i.price) / i.entryPrice * 10000.0

def OutOfLossZone (i : TickInput F) : Prop :=
  ValidPrice i.entryPrice ∧ -cfg.lossZoneThresholdBps < pnlBps i

instance (i : TickInput F) : Decidable (OutOfLossZone cfg i) :=
  inferInstanceAs (Decidable (_ ∧ _))

def evict (now : ℤ) (samples : List (PriceSample F)) : List (PriceSample F) :=
  samples.dropWhile (fun s => decide (windowNs cfg < now - s.tsNs))

def lowest (first : F) (samples : List (PriceSample F)) : F :=
  samples.foldl (fun m s => stdMin m s.price) first

def highest (first : F) (samples : List (PriceSample F)) : F :=
  samples.foldl (fun m s => stdMax m s.price) first

def rangeBps (samples : List (PriceSample F)) (price : F) : F :=
  match samples with
  | [] => 0.0
  | s::_ => (highest s.price samples - lowest s.price samples) / price * 10000.0

def judge (t : PositionTracker F) (i : TickInput F) : PositionTracker F × Bool :=
  let samples := evict cfg i.now (t.samples ++ [⟨i.now, i.price⟩])
  if samples.length < 5 then ({ t with samples := samples }, false)
  else if rangeBps samples i.price < cfg.minRangeBps then
    ({ t with samples := samples, alreadyFlagged := true }, true)
  else ({ t with samples := samples }, false)

def tickTracker (t : PositionTracker F) (i : TickInput F) : PositionTracker F × Bool :=
  if t.openedAtNs ≤ 0 ∨ t.alreadyFlagged = true then (t, false)
  else if cfg.hardMaxHoldSec ≤ ageSec t i.now then ({ t with alreadyFlagged := true }, true)
  else if ageSec t i.now < cfg.minPositionAgeSec then (t, false)
  else if OutOfLossZone cfg i then (t, false)
  else judge cfg t i

def observe (s : DetectorState F) (i : TickInput F) : DetectorState F :=
  if ValidPrice i.price then
    { s with
      observed := Function.update s.observed i.symbol
        (s.observed i.symbol ++ [⟨i.now, i.price⟩]) }
  else s

def tick (s : DetectorState F) (i : TickInput F) : DetectorState F × Bool :=
  let s := observe s i
  if cfg.enabled = false ∨ ¬ ValidPrice i.price then (s, false)
  else
    match s.trackers i.symbol with
    | none => (s, false)
    | some t =>
      ({ s with trackers := Function.update s.trackers i.symbol (some (tickTracker cfg t i).1) },
        (tickTracker cfg t i).2)

def step (s : DetectorState F) : DetectorEvent F → DetectorState F
  | .opened symbol now =>
    ⟨Function.update s.trackers symbol (some ⟨now, [], false⟩),
      Function.update s.observed symbol []⟩
  | .closed symbol => { s with trackers := Function.update s.trackers symbol none }
  | .reset symbol =>
    { s with
      trackers := Function.update s.trackers symbol
        ((s.trackers symbol).map (fun t => { t with samples := [], alreadyFlagged := false })) }
  | .tick input => (tick cfg s input).1

def run (es : List (DetectorEvent F)) : DetectorState F := es.foldl (step cfg) newDetector

def passed (observed : List (PriceSample F)) (i : TickInput F) : List (PriceSample F) :=
  observed ++ [⟨i.now, i.price⟩]

def inWindow (observed : List (PriceSample F)) (i : TickInput F) : List (PriceSample F) :=
  (passed observed i).filter (fun s => i.now - s.tsNs ≤ windowNs cfg)

def Close (i : TickInput F) (x y : F) : Prop := (x - y) / i.price * 10000.0 < cfg.minRangeBps

structure Stagnant (observed : List (PriceSample F)) (i : TickInput F) : Prop where
  span : ∃ s ∈ passed observed i, windowNs cfg ≤ i.now - s.tsNs
  range : ∀ x ∈ inWindow cfg observed i, ∀ y ∈ inWindow cfg observed i,
    Close cfg i x.price y.price
  loss : ValidPrice i.entryPrice ∧ pnlBps i ≤ -cfg.lossZoneThresholdBps

def LeftOut (observed samples : List (PriceSample F)) (i : TickInput F) (x : PriceSample F) :
    Prop := x ∈ observed ∧ i.now - x.tsNs ≤ windowNs cfg ∧ x ∉ samples

/-- The first price is as old as the window, no price that was left out is far from another
one of the window, and the loss can be judged. -/
structure Covered (observed samples : List (PriceSample F)) (i : TickInput F) : Prop where
  span : ∃ s ∈ passed observed i, windowNs cfg ≤ i.now - s.tsNs
  leftOut : ∀ x, LeftOut cfg observed samples i x → ∀ y ∈ inWindow cfg observed i,
    Close cfg i x.price y.price ∧ Close cfg i y.price x.price
  entry : ValidPrice i.entryPrice
  threshold : -cfg.lossZoneThresholdBps ≤ -cfg.lossZoneThresholdBps

end Detector

section Window
variable {F : Type} {cfg : StagnantPositionConfig F}

theorem mem_evict {now : ℤ} {samples : List (PriceSample F)} {x : PriceSample F}
    (hx : x ∈ samples) (hrecent : now - x.tsNs ≤ windowNs cfg) : x ∈ evict cfg now samples := by
  unfold evict
  rw [← List.takeWhile_append_dropWhile (p := fun s => decide (windowNs cfg < now - s.tsNs))
    (l := samples), List.mem_append] at hx
  refine hx.resolve_left (fun htake => ?_)
  have hold := List.mem_takeWhile_imp
    (p := fun s : PriceSample F => decide (windowNs cfg < now - s.tsNs)) htake
  exact absurd hrecent (not_le.mpr (of_decide_eq_true hold))

theorem last_mem_evict {now : ℤ} {samples : List (PriceSample F)} {x : PriceSample F}
    (h : evict cfg now (samples ++ [x]) ≠ []) : x ∈ evict cfg now (samples ++ [x]) := by
  have hsuffix : evict cfg now (samples ++ [x]) <:+ samples ++ [x] := List.dropWhile_suffix _
  have hlast := List.getLast_mem h
  rwa [hsuffix.getLast h, List.getLast_concat] at hlast

end Window

section Samples
variable {F : Type} [DoubleArith F] {cfg : StagnantPositionConfig F}

theorem judge_samples (t : PositionTracker F) (i : TickInput F) :
    (judge cfg t i).1.samples = evict cfg i.now (t.samples ++ [⟨i.now, i.price⟩]) := by
  unfold judge
  extract_lets
  split_ifs <;> rfl

theorem tickTracker_samples (cfg : StagnantPositionConfig F) (t : PositionTracker F) (i : TickInput F) :
    (tickTracker cfg t i).1.samples = t.samples ∨ (tickTracker cfg t i).1.samples =
      evict cfg i.now (t.samples ++ [⟨i.now, i.price⟩]) := by
  unfold tickTracker
  split_ifs
  · exact Or.inl rfl
  · exact Or.inl rfl
  · exact Or.inl rfl
  · exact Or.inl rfl
  · exact Or.inr (judge_samples t i)

def Recorded (s : DetectorState F) : Prop :=
  ∀ symbol, (∀ x ∈ s.observed symbol, ValidPrice x.price) ∧
    ∀ t, s.trackers symbol = some t → t.samples ⊆ s.observed symbol

variable {s : DetectorState F}

theorem observe_recorded (h : Recorded s) (i : TickInput F) : Recorded (observe s i) := by
  unfold observe
  split_ifs with hvalid
  · intro symbol
    rcases eq_or_ne symbol i.symbol with rfl | hne
    · simp only [Function.update_self]
      refine ⟨fun x hx => ?_, fun t ht => ?_⟩
      · rcases List.mem_append.mp hx with hold | hnew
        · exact (h i.symbol).1 x hold
        · rw [List.mem_singleton.mp hnew]
          exact hvalid
      · exact List.subset_append_of_subset_left _ ((h i.symbol).2 t ht)
    · simp only [Function.update_of_ne hne]
      exact h symbol
  · exact h

theorem tick_recorded (h : Recorded s) (i : TickInput F) : Recorded (tick cfg s i).1 := by
  have hobserved := observe_recorded h i
  unfold tick
  extract_lets s'
  split_ifs with hrefused
  · exact hobserved
  · split
    · exact hobserved
    · rename_i t ht
      have hvalid : ValidPrice i.price := not_not.mp (fun hv => hrefused (Or.inr hv))
      have hlast : (⟨i.now, i.price⟩ : PriceSample F) ∈ s'.observed i.symbol := by
        simp only [s', observe, if_pos hvalid, Function.update_self]
        exact List.mem_append_right _ (List.mem_singleton_self _)
      intro symbol
      refine ⟨(hobserved symbol).1, fun u hu => ?_⟩
      rcases eq_or_ne symbol i.symbol with rfl | hne
      · simp only [Function.update_self, Option.some.injEq] at hu
        rw [← hu]
        have hkept := (hobserved i.symbol).2 t ht
        rcases tickTracker_samples cfg t i with hsame | hnew
        · rw [hsame]
          exact hkept
        · rw [hnew]
          exact List.Subset.trans (List.dropWhile_subset _)
            (List.append_subset.mpr ⟨hkept, List.cons_subset.mpr ⟨hlast, List.nil_subset _⟩⟩)
      · simp only [Function.update_of_ne hne] at hu
        exact (hobserved symbol).2 u hu

theorem step_recorded (h : Recorded s) (e : DetectorEvent F) : Recorded (step cfg s e) := by
  cases e with
  | opened symbol now =>
    intro other
    rcases eq_or_ne other symbol with rfl | hne
    · simp only [step, Function.update_self]
      refine ⟨fun x hx => absurd hx List.not_mem_nil, fun t ht => ?_⟩
      obtain rfl := Option.some.inj ht
      exact List.Subset.refl _
    · simp only [step, Function.update_of_ne hne]
      exact h other
  | closed symbol =>
    intro other
    refine ⟨(h other).1, fun t ht => ?_⟩
    rcases eq_or_ne other symbol with rfl | hne
    · simp [step] at ht
    · simp only [step, Function.update_of_ne hne] at ht
      exact (h other).2 t ht
  | reset symbol =>
    intro other
    refine ⟨(h other).1, fun t ht => ?_⟩
    rcases eq_or_ne other symbol with rfl | hne
    · simp only [step, Function.update_self] at ht
      obtain ⟨u, -, rfl⟩ := Option.map_eq_some_iff.mp ht
      exact List.nil_subset _
    · simp only [step, Function.update_of_ne hne] at ht
      exact (h other).2 t ht
  | tick input => exact tick_recorded h input

theorem run_recorded (cfg : StagnantPositionConfig F) (es : List (DetectorEvent F)) : Recorded (run cfg es) := by
  have hall : ∀ s : DetectorState F, Recorded s → Recorded (es.foldl (step cfg) s) := by
    induction es with
    | nil => exact fun s hs => hs
    | cons e es ih => exact fun s hs => ih _ (step_recorded hs e)
  exact hall _ (fun symbol => ⟨fun x hx => absurd hx List.not_mem_nil, fun t ht => nomatch ht⟩)

/-- What is known where a report is not of the maximum hold time. -/
theorem report_cases {i : TickInput F} {t : PositionTracker F}
    (ht : s.trackers i.symbol = some t) (hage : ¬ cfg.hardMaxHoldSec ≤ ageSec t i.now)
    (h : (tick cfg s i).2 = true) : ValidPrice i.price ∧ ¬ OutOfLossZone cfg i ∧
      5 ≤ (evict cfg i.now (passed t.samples i)).length ∧
      rangeBps (evict cfg i.now (passed t.samples i)) i.price < cfg.minRangeBps := by
  have htracked : (observe s i).trackers i.symbol = some t := by
    unfold observe
    split_ifs <;> exact ht
  unfold tick at h
  extract_lets s' at h
  split_ifs at h with hrefused
  rw [htracked] at h
  have hvalid : ValidPrice i.price := not_not.mp (fun hv => hrefused (Or.inr hv))
  have hjudge : (tickTracker cfg t i).2 = true := h
  unfold tickTracker at hjudge
  rw [if_neg hage] at hjudge
  split_ifs at hjudge with hidle hyoung hzone
  unfold judge at hjudge
  extract_lets samples at hjudge
  split_ifs at hjudge with hfew hrange
  exact ⟨hvalid, hzone, not_lt.mp hfew, hrange⟩

end Samples

section Range
variable {cfg : StagnantPositionConfig Double} {i : TickInput Double}

theorem validPrice_iff (x : Double) : ValidPrice x ↔ ∃ q : ℚ, x = finite q ∧ 0 < q := by
  unfold ValidPrice
  rw [isfinite_iff, lit_zero]
  constructor
  · rintro ⟨hpos, q, rfl⟩
    exact ⟨q, rfl, (finite_lt 0 q).mp hpos⟩
  · rintro ⟨q, rfl, hq⟩
    exact ⟨(finite_lt 0 q).mpr hq, q, rfl⟩

/-- The lowest and the highest of some prices, in the order that `g` goes down in. -/
theorem extreme_spec (f : Double → Double → Double) (g : ℚ → ℚ → ℚ) (r : ℚ → ℚ → Prop)
    [IsPreorder ℚ r] (hf : ∀ a b, f (finite a) (finite b) = finite (g a b))
    (hleft : ∀ a b, r (g a b) a) (hright : ∀ a b, r (g a b) b)
    (samples : List (PriceSample Double)) (first : ℚ) (h : ∀ s ∈ samples, ValidPrice s.price) :
    ∃ m, r m first ∧ samples.foldl (fun x s => f x s.price) (finite first) = finite m ∧
      ∀ s ∈ samples, ∀ q, s.price = finite q → r m q := by
  induction samples generalizing first with
  | nil => exact ⟨first, refl_of r first, rfl, fun s hs => absurd hs List.not_mem_nil⟩
  | cons s samples ih =>
    obtain ⟨p, hp, -⟩ := (validPrice_iff _).mp (h s List.mem_cons_self)
    obtain ⟨m, hm, heq, hall⟩ := ih (g first p) (fun u hu => h u (List.mem_cons_of_mem s hu))
    refine ⟨m, trans_of r hm (hleft _ _), ?_, fun u hu q hq => ?_⟩
    · rw [List.foldl_cons, hp, hf]
      exact heq
    · rcases List.mem_cons.mp hu with rfl | htail
      · obtain rfl : p = q := Double.finite.inj (hp.symm.trans hq)
        exact trans_of r hm (hright _ _)
      · exact hall u htail q hq

theorem lit_bps : (10000.0 : Double) = finite 10000 := by
  show finite _ = finite 10000
  norm_num

theorem samples_close {samples : List (PriceSample Double)} (hprice : ValidPrice i.price)
    (h : ∀ s ∈ samples, ValidPrice s.price) (hrange : rangeBps samples i.price < cfg.minRangeBps) :
    ∀ x ∈ samples, ∀ y ∈ samples, Close cfg i x.price y.price := by
  intro x hx y hy
  obtain ⟨c, hc, hpos⟩ := (validPrice_iff _).mp hprice
  obtain ⟨a, ha, -⟩ := (validPrice_iff _).mp (h x hx)
  obtain ⟨b, hb, -⟩ := (validPrice_iff _).mp (h y hy)
  cases samples with
  | nil => exact absurd hx List.not_mem_nil
  | cons s rest =>
    obtain ⟨p, hp, -⟩ := (validPrice_iff _).mp (h s List.mem_cons_self)
    obtain ⟨low, -, hlow, hlowest⟩ := extreme_spec stdMin min (· ≤ ·) stdMin_finite min_le_left
      min_le_right (s::rest) p h
    obtain ⟨high, -, hhigh, hhighest⟩ := extreme_spec stdMax max (· ≥ ·) stdMax_finite
      le_max_left le_max_right (s::rest) p h
    rw [← lowest] at hlow
    rw [← highest] at hhigh
    have hspread : a - b ≤ high - low := by
      have hle := hhighest x hx a ha
      have hge := hlowest y hy b hb
      linarith
    have hscaled : (a - b) / c * 10000 ≤ (high - low) / c * 10000 :=
      mul_le_mul_of_nonneg_right (div_le_div_of_nonneg_right hspread hpos.le) (by norm_num)
    have heq : rangeBps (s::rest) i.price = finite ((high - low) / c * 10000) := by
      simp only [rangeBps]
      rw [hp, hlow, hhigh, hc, lit_bps, finite_sub, finite_div _ _ hpos.ne', finite_mul]
    rw [heq] at hrange
    unfold Close
    rw [ha, hb, hc, lit_bps, finite_sub, finite_div _ _ hpos.ne', finite_mul]
    exact lt_of_le_of_lt ((finite_le _ _).mpr hscaled) hrange

theorem pnl_number (hprice : ValidPrice i.price) (hentry : ValidPrice i.entryPrice) :
    isNumber (pnlBps i) = true := by
  obtain ⟨c, hc, -⟩ := (validPrice_iff _).mp hprice
  obtain ⟨e, he, hpos⟩ := (validPrice_iff _).mp hentry
  unfold pnlBps
  split <;> rw [hc, he, lit_bps, finite_sub, finite_div _ _ hpos.ne', finite_mul] <;> rfl

/-- A report is right exactly where the prices that were left out do not contradict it. -/
theorem report_right_iff (cfg : StagnantPositionConfig Double) (es : List (DetectorEvent Double))
    (i : TickInput Double) (t : PositionTracker Double)
    (ht : (run cfg es).trackers i.symbol = some t)
    (hage : ¬ cfg.hardMaxHoldSec ≤ ageSec t i.now) (h : (tick cfg (run cfg es) i).2 = true) :
    Stagnant cfg ((run cfg es).observed i.symbol) i ↔
      Covered cfg ((run cfg es).observed i.symbol) t.samples i := by
  obtain ⟨hprice, hzone, hfew, hrange⟩ := report_cases ht hage h
  obtain ⟨hvalid, hrecorded⟩ := run_recorded cfg es i.symbol
  constructor
  · rintro ⟨hspan, hclose, hentry, hloss⟩
    refine ⟨hspan, fun x hx y hy => ?_, hentry, ?_⟩
    · have hin : x ∈ inWindow cfg ((run cfg es).observed i.symbol) i :=
        List.mem_filter.mpr ⟨List.mem_append_left _ hx.1, decide_eq_true hx.2.1⟩
      exact ⟨hclose x hin y hy, hclose y hy x hin⟩
    · exact (le_self_iff _).mpr (number_of_le hloss).2
  · rintro ⟨hspan, hleft, hentry, hnumber⟩
    refine ⟨hspan, ?_, hentry, ?_⟩
    · have hsamples : ∀ s ∈ evict cfg i.now (passed t.samples i), ValidPrice s.price := by
        intro s hs
        rcases List.mem_append.mp (List.dropWhile_subset _ hs) with hold | hnew
        · exact hvalid s (hrecorded t ht hold)
        · rw [List.mem_singleton.mp hnew]
          exact hprice
      have hkept : ∀ x ∈ inWindow cfg ((run cfg es).observed i.symbol) i,
          x ∈ evict cfg i.now (passed t.samples i) ∨
            LeftOut cfg ((run cfg es).observed i.symbol) t.samples i x := by
        intro x hx
        obtain ⟨hpassed, hrecent⟩ := List.mem_filter.mp hx
        have hwithin := of_decide_eq_true hrecent
        rcases List.mem_append.mp hpassed with hobserved | hnow
        · by_cases hsample : x ∈ t.samples
          · exact Or.inl (mem_evict (List.mem_append_left _ hsample) hwithin)
          · exact Or.inr ⟨hobserved, hwithin, hsample⟩
        · rw [List.mem_singleton.mp hnow]
          refine Or.inl (last_mem_evict (fun hnil => ?_))
          rw [passed, hnil] at hfew
          exact absurd hfew (by decide)
      intro x hx y hy
      rcases hkept x hx with hxs | hxl
      · rcases hkept y hy with hys | hyl
        · exact samples_close hprice hsamples hrange x hxs y hys
        · exact (hleft y hyl x hx).2
      · exact (hleft x hxl y hy).1
    · have hnot : ¬ -cfg.lossZoneThresholdBps < pnlBps i := fun hout => hzone ⟨hentry, hout⟩
      have hthreshold := (le_self_iff _).mp hnumber
      have hpnl := pnl_number hprice hentry
      by_contra hmore
      exact hnot (lt_of_not_le hthreshold hpnl hmore)

end Range

section Sample

def seconds (n : ℤ) : ℤ := n * 1000000000

def longTick (price : ℚ) (n : ℤ) : TickInput Double :=
  ⟨"BTCUSDT", finite price, seconds n, finite 100, .long⟩

def rebound : List (DetectorEvent Double) :=
  [.opened "BTCUSDT" 1, .tick (longTick 99 720), .tick (longTick 101 899)] ++
    [901, 902, 903, 904].map (fun n => .tick (longTick 99 n))

def decline : List (DetectorEvent Double) :=
  .opened "BTCUSDT" 1 :: [901, 946, 991, 1036].map (fun n => .tick (longTick 99 n))

theorem opened_once : (∃ t, (run defaultConfig rebound).trackers "BTCUSDT" = some t ∧
      t.openedAtNs = 1) ∧
    ∃ t, (run defaultConfig decline).trackers "BTCUSDT" = some t ∧ t.openedAtNs = 1 := by
  have hrebound : ((run defaultConfig rebound).trackers "BTCUSDT").map
      PositionTracker.openedAtNs = some 1 := by decide +kernel
  have hdecline : ((run defaultConfig decline).trackers "BTCUSDT").map
      PositionTracker.openedAtNs = some 1 := by decide +kernel
  exact ⟨Option.map_eq_some_iff.mp hrebound, Option.map_eq_some_iff.mp hdecline⟩

theorem decline_right : ∃ t, (run defaultConfig decline).trackers "BTCUSDT" = some t ∧
    (Stagnant defaultConfig ((run defaultConfig decline).observed "BTCUSDT") (longTick 99 1081) ↔
      Covered defaultConfig ((run defaultConfig decline).observed "BTCUSDT") t.samples
        (longTick 99 1081)) := by
  obtain ⟨t, ht, hopened⟩ := opened_once.2
  have hage : ¬ (defaultConfig : StagnantPositionConfig Double).hardMaxHoldSec ≤
      ageSec t (longTick 99 1081).now := by
    rw [ageSec, hopened]
    decide
  exact ⟨t, ht, report_right_iff defaultConfig decline (longTick 99 1081) t ht hage
    (by decide +kernel)⟩

/-- The position is reported although its price has moved by two percent in the window. -/
theorem rebound_wrong : ¬ ∀ (cfg : StagnantPositionConfig Double)
    (es : List (DetectorEvent Double)) (i : TickInput Double) (t : PositionTracker Double),
    (run cfg es).trackers i.symbol = some t → ¬ cfg.hardMaxHoldSec ≤ ageSec t i.now →
      (tick cfg (run cfg es) i).2 = true →
        Stagnant cfg ((run cfg es).observed i.symbol) i := by
  intro hall
  obtain ⟨t, ht, hopened⟩ := opened_once.1
  have hage : ¬ (defaultConfig : StagnantPositionConfig Double).hardMaxHoldSec ≤
      ageSec t (longTick 99 905).now := by
    rw [ageSec, hopened]
    decide
  have hstagnant := hall defaultConfig rebound (longTick 99 905) t ht hage (by decide +kernel)
  have hhigh : ⟨seconds 899, finite 101⟩ ∈
      inWindow defaultConfig ((run defaultConfig rebound).observed "BTCUSDT")
        (longTick 99 905) := by decide +kernel
  have hnow : ⟨seconds 905, finite 99⟩ ∈
      inWindow defaultConfig ((run defaultConfig rebound).observed "BTCUSDT")
        (longTick 99 905) := by decide +kernel
  have hclose := hstagnant.range _ hhigh _ hnow
  unfold Close at hclose
  revert hclose
  decide +kernel

end Sample

end TB.StagnantPositions
