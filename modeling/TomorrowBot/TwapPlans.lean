import TomorrowBot.TwapExecutor
import Mathlib.Tactic.Linarith
import Mathlib.Tactic.FieldSimp
import Mathlib.Tactic.Ring

/-!
# The slices of a plan

The front-loaded quantities are positive and add up to the approved quantity.
The number of slices is capped so that equal slices reach the minimum notional;
the last slice is a fifth smaller than that.
-/

set_option autoImplicit false

namespace TB.TwapPlans
open TB.ExecutionPlanner TB.TwapExecutor TB.TradingContext

structure Splits (plan : TwapOrder) (approvedQty mid minNotional : ℚ) : Prop where
  positive : ∀ slice ∈ plan.slices, 0 < slice.targetQty
  total : (plan.slices.map (fun slice => slice.targetQty)).sum = approvedQty
  minimum : minNotional ≤ approvedQty * mid →
    ∀ slice ∈ plan.slices, minNotional ≤ slice.targetQty * mid

def Room (e : SmartTwapExecutor) (approvedQty liquidity mid : ℚ) : Prop :=
  approvedQty * mid < effectiveMinNotional e ∨ approvedQty < 1e-15 ∨
    wantedSlices e approvedQty liquidity = 1 ∨ maxByNotional e approvedQty mid = 1 ∨
    wantedSlices e approvedQty liquidity * effectiveMinNotional e ≤ 0.8 * (approvedQty * mid) ∨
    maxByNotional e approvedQty mid * effectiveMinNotional e ≤ 0.8 * (approvedQty * mid)

instance (e : SmartTwapExecutor) (approvedQty liquidity mid : ℚ) :
    Decidable (Room e approvedQty liquidity mid) := inferInstanceAs (Decidable (_ ∨ _))

section Quantities

theorem sum_linear (a b : ℚ) (k : ℕ) :
    ((List.range k).map (fun i : ℕ => a - b * (i : ℚ))).sum = a * k - b * (k * (k - 1)) / 2 := by
  induction k with
  | zero => simp
  | succ k ih =>
    rw [List.range_succ, List.map_append, List.sum_append, ih]
    push_cast
    simp only [List.map_cons, List.map_nil, List.sum_cons, List.sum_nil]
    ring

variable (n : ℕ)

theorem cast_pred (hn : 1 ≤ n) : ((n - 1 : ℕ) : ℚ) = n - 1 := by
  rw [Nat.cast_sub hn, Nat.cast_one]

theorem sum_raw (total : ℚ) (hn : 1 ≤ n) :
    ((List.range n).map (fun i => total / n * frontload n i)).sum = total := by
  have hn0 : (n : ℚ) ≠ 0 := by
    exact_mod_cast Nat.one_le_iff_ne_zero.mp hn
  by_cases hone : 1 < n
  · have hpred : (n : ℚ) - 1 ≠ 0 := by
      have : (1 : ℚ) < n := by exact_mod_cast hone
      linarith
    have hlinear : (fun i : ℕ => total / n * frontload n i) =
        fun i : ℕ => total / n * 1.2 - total / n * 0.4 / (n - 1) * (i : ℚ) := by
      funext i
      rw [frontload, if_pos hone, cast_pred n hn]
      ring
    rw [hlinear, sum_linear]
    field_simp
    ring
  · obtain rfl : n = 1 := by omega
    simp [frontload]

def sliceQty (n : ℕ) (total : ℚ) (i : ℕ) : ℚ :=
  if total < 1e-15 then total / n else total / n * frontload n i

theorem sliceQtys_eq (total : ℚ) (hn : 1 ≤ n) (htotal : 0 < total) :
    sliceQtys n total = (List.range n).map (sliceQty n total) := by
  unfold sliceQtys sliceQty
  dsimp only
  rw [sum_raw n total hn]
  split_ifs
  · rw [List.map_map]
    rfl
  · rw [List.map_map]
    refine List.map_congr_left (fun i _ => ?_)
    rw [Function.comp_apply, div_self htotal.ne', mul_one]

theorem sum_sliceQtys (total : ℚ) (hn : 1 ≤ n) :
    ((List.range n).map (sliceQty n total)).sum = total := by
  unfold sliceQty
  split_ifs
  · have hn0 : (n : ℚ) ≠ 0 := by
      exact_mod_cast Nat.one_le_iff_ne_zero.mp hn
    rw [List.map_const', List.sum_replicate, List.length_range, nsmul_eq_mul]
    field_simp
  · exact sum_raw n total hn

theorem frontload_low (n i : ℕ) (hi : i < n) : 0.8 ≤ frontload n i := by
  unfold frontload
  split_ifs with hone
  · have hpos : (0 : ℚ) < (n - 1 : ℕ) := by
      exact_mod_cast Nat.sub_pos_of_lt hone
    have hle : (i : ℚ) ≤ (n - 1 : ℕ) := by
      exact_mod_cast Nat.le_sub_one_of_lt hi
    have hfraction : (1.2 - 0.8) * (i : ℚ) / (n - 1 : ℕ) ≤ 0.4 := by
      rw [div_le_iff₀ hpos]
      linarith
    linarith
  · norm_num

theorem frontload_last (hn : 1 < n) : frontload n (n - 1) = 0.8 := by
  have hpos : ((n - 1 : ℕ) : ℚ) ≠ 0 := by
    exact_mod_cast (Nat.sub_pos_of_lt hn).ne'
  rw [frontload, if_pos hn]
  field_simp
  norm_num

end Quantities

section Count
variable (e : SmartTwapExecutor) (total liquidity mid : ℚ)

theorem minNotional_pos : 0 < effectiveMinNotional e := by
  unfold effectiveMinNotional
  split_ifs with h
  · exact h
  · norm_num [kMinBitgetNotionalUsdt]

theorem one_le_wanted : 1 ≤ wantedSlices e total liquidity := by
  have hlo : 1 ≤ e.config.minSlices := Nat.one_le_iff_ne_zero.mpr e.valid.minSlices
  have hhi := e.valid.maxSlices
  unfold wantedSlices
  dsimp only
  split_ifs <;> omega

theorem numSlices_eq (hmid : 0 < mid) : numSlices e total liquidity mid =
    min (wantedSlices e total liquidity) (maxByNotional e total mid) := by
  unfold numSlices
  dsimp only
  rw [if_pos hmid]
  split_ifs with h
  · exact (min_eq_right h.le).symm
  · exact (min_eq_left (not_lt.mp h)).symm

theorem one_le_numSlices (hmid : 0 < mid) : 1 ≤ numSlices e total liquidity mid := by
  rw [numSlices_eq e total liquidity mid hmid]
  exact le_min (one_le_wanted e total liquidity) (le_max_left _ _)

theorem numSlices_fit (hmid : 0 < mid) (hmin : effectiveMinNotional e ≤ total * mid) :
    numSlices e total liquidity mid * effectiveMinNotional e ≤ total * mid := by
  have hpos := minNotional_pos e
  have hcap : numSlices e total liquidity mid ≤ ⌊total * mid / effectiveMinNotional e⌋₊ := by
    rw [numSlices_eq e total liquidity mid hmid]
    have hone : 1 ≤ ⌊total * mid / effectiveMinNotional e⌋₊ := by
      rw [Nat.one_le_floor_iff, one_le_div hpos]
      exact hmin
    exact le_trans (min_le_right _ _) (max_le hone le_rfl)
  rw [← le_div_iff₀ hpos]
  have hfloor : (⌊total * mid / effectiveMinNotional e⌋₊ : ℚ) ≤
      total * mid / effectiveMinNotional e :=
    Nat.floor_le (div_nonneg (le_trans hpos.le hmin) hpos.le)
  exact le_trans (by exact_mod_cast hcap) hfloor

theorem fewer_fit (m n : ℕ) (bound : ℚ) (hmn : m ≤ n)
    (h : n * effectiveMinNotional e ≤ bound) : m * effectiveMinNotional e ≤ bound :=
  le_trans (mul_le_mul_of_nonneg_right (by exact_mod_cast hmn) (minNotional_pos e).le) h

theorem room_iff (hmid : 0 < mid) : Room e total liquidity mid ↔
    total * mid < effectiveMinNotional e ∨ total < 1e-15 ∨
      numSlices e total liquidity mid = 1 ∨
      numSlices e total liquidity mid * effectiveMinNotional e ≤ 0.8 * (total * mid) := by
  have hwanted := one_le_wanted e total liquidity
  have hcap : 1 ≤ maxByNotional e total mid := le_max_left _ _
  unfold Room
  rw [numSlices_eq e total liquidity mid hmid]
  refine or_congr_right (or_congr_right ⟨?_, ?_⟩)
  · rintro (hone | hone | hfit | hfit)
    · exact .inl (by omega)
    · exact .inl (by omega)
    · exact .inr (fewer_fit e _ _ _ (min_le_left _ _) hfit)
    · exact .inr (fewer_fit e _ _ _ (min_le_right _ _) hfit)
  · rcases min_choice (wantedSlices e total liquidity) (maxByNotional e total mid) with h | h
    · rw [h]
      rintro (hone | hfit)
      · exact .inl hone
      · exact .inr (.inr (.inl hfit))
    · rw [h]
      rintro (hone | hfit)
      · exact .inr (.inl hone)
      · exact .inr (.inr (.inr hfit))

end Count

section Slices

theorem sliceQty_pos (n i : ℕ) (total : ℚ) (hi : i < n) (htotal : 0 < total) :
    0 < sliceQty n total i := by
  have hn : (0 : ℚ) < n := by
    exact_mod_cast Nat.zero_lt_of_lt hi
  have havg : 0 < total / n := div_pos htotal hn
  unfold sliceQty
  split_ifs
  · exact havg
  · exact mul_pos havg (lt_of_lt_of_le (by norm_num) (frontload_low n i hi))

/-- The slices reach a notional that equal slices reach exactly when they are
equal or the last one does. -/
theorem slices_reach_iff (n : ℕ) (total mid least : ℚ) (hn : 1 ≤ n) (htotal : 0 < total)
    (hmid : 0 < mid) (hequal : n * least ≤ total * mid) :
    (∀ i < n, least ≤ sliceQty n total i * mid) ↔
      total < 1e-15 ∨ n = 1 ∨ n * least ≤ 0.8 * (total * mid) := by
  have hn0 : (0 : ℚ) < n := by
    exact_mod_cast hn
  have havg : least ≤ total / n * mid := by
    rw [div_mul_eq_mul_div, le_div_iff₀ hn0, mul_comm]
    exact hequal
  unfold sliceQty
  split_ifs with htiny
  · exact iff_of_true (fun _ _ => havg) (.inl htiny)
  constructor
  · intro h
    by_cases hone : n = 1
    · exact .inr (.inl hone)
    · have hlast := h (n - 1) (by omega)
      rw [frontload_last n (by omega)] at hlast
      refine .inr (.inr ?_)
      have hscaled := mul_le_mul_of_nonneg_left hlast hn0.le
      calc n * least ≤ n * (total / n * 0.8 * mid) := hscaled
        _ = 0.8 * (total * mid) := by
          field_simp
  · rintro (h | rfl | h) i hi
    · exact absurd h htiny
    · obtain rfl : i = 0 := by omega
      simpa [frontload] using hequal
    · have hlow := frontload_low n i hi
      have hlast : least ≤ total / n * 0.8 * mid := by
        rw [show total / n * 0.8 * mid = 0.8 * (total * mid) / n by ring, le_div_iff₀ hn0, mul_comm]
        exact h
      have hposavg : 0 ≤ total / n := (div_pos htotal hn0).le
      exact le_trans hlast (mul_le_mul_of_nonneg_right
        (mul_le_mul_of_nonneg_left hlow hposavg) hmid.le)

end Slices

section Plan
variable (e : SmartTwapExecutor) (seq : ℕ) (intent : TradeIntent ℚ) (snapshot : FeatureSnapshot)
  (approvedQty : ℚ)

theorem mapIdx_range {α β : Type} (n : ℕ) (f : ℕ → α) (g : ℕ → α → β) :
    ((List.range n).map f).mapIdx g = (List.range n).map (fun i => g i (f i)) := by
  apply List.ext_getElem
  · simp
  · intro i hi hi'
    simp

theorem plan_slices (hq : 0 < approvedQty) (hmid : 0 < snapshot.midPrice) :
    (createTwapPlan e seq intent snapshot approvedQty).slices =
      (List.range (numSlices e approvedQty snapshot.immediateLiquidity snapshot.midPrice)).map
        (fun i => plannedSlice (computeAdaptiveInterval e snapshot) i
          (sliceQty (numSlices e approvedQty snapshot.immediateLiquidity snapshot.midPrice)
            approvedQty i)) := by
  unfold createTwapPlan
  rw [if_neg (not_le.mpr hq), sliceQtys_eq _ _ (one_le_numSlices e _ _ _ hmid) hq, mapIdx_range]

/-- A plan splits the approved quantity as claimed if and only if there is room
for the smaller last slice. -/
theorem splits_iff (hq : 0 < approvedQty) (hmid : 0 < snapshot.midPrice) :
    Splits (createTwapPlan e seq intent snapshot approvedQty) approvedQty snapshot.midPrice
        (effectiveMinNotional e) ↔
      Room e approvedQty snapshot.immediateLiquidity snapshot.midPrice := by
  have hn := one_le_numSlices e approvedQty snapshot.immediateLiquidity snapshot.midPrice hmid
  have hslices := plan_slices e seq intent snapshot approvedQty hq hmid
  rw [room_iff e approvedQty snapshot.immediateLiquidity snapshot.midPrice hmid]
  generalize hcount : numSlices e approvedQty snapshot.immediateLiquidity snapshot.midPrice = n
    at hn hslices ⊢
  have hforall : ∀ P : ℚ → Prop, (∀ slice ∈ (createTwapPlan e seq intent snapshot
      approvedQty).slices, P slice.targetQty) ↔ ∀ i < n, P (sliceQty n approvedQty i) := by
    intro P
    rw [hslices]
    simp only [List.forall_mem_map, List.mem_range, plannedSlice]
  have hreach : effectiveMinNotional e ≤ approvedQty * snapshot.midPrice →
      ((∀ i < n, effectiveMinNotional e ≤ sliceQty n approvedQty i * snapshot.midPrice) ↔
        approvedQty < 1e-15 ∨ n = 1 ∨
          n * effectiveMinNotional e ≤ 0.8 * (approvedQty * snapshot.midPrice)) := by
    intro hmin
    have hfit := numSlices_fit e approvedQty snapshot.immediateLiquidity snapshot.midPrice hmid hmin
    rw [hcount] at hfit
    exact slices_reach_iff n approvedQty snapshot.midPrice _ hn hq hmid hfit
  constructor
  · intro h
    by_cases hmin : effectiveMinNotional e ≤ approvedQty * snapshot.midPrice
    · exact .inr ((hreach hmin).mp ((hforall (fun q => _ ≤ q * _)).mp (h.minimum hmin)))
    · exact .inl (not_le.mp hmin)
  · intro h
    constructor
    · exact (hforall (fun q => 0 < q)).mpr (fun i hi => sliceQty_pos n i approvedQty hi hq)
    · rw [hslices, List.map_map]
      exact sum_sliceQtys n approvedQty hn
    · intro hmin
      have hroom := h.resolve_left (not_lt.mpr hmin)
      exact (hforall (fun q => _ ≤ q * _)).mpr ((hreach hmin).mpr hroom)

end Plan

section Minimal

def executor : SmartTwapExecutor where
  config := defaultTwapConfig
  valid := defaultTwapConfig_valid
  minNotionalUsdt := 100

def buy : TradeIntent ℚ :=
  ⟨"s", "BTCUSDT", .buy, .long, .opening, .longEntry, .none, "c", none, none, none, none⟩

def calm : FeatureSnapshot := ⟨100, 1000, 1, false, false⟩

/-- Three coins at 100 make three slices of 120, 100 and 80. -/
theorem last_slice_below_minimum : ¬ ∀ (e : SmartTwapExecutor) (seq : ℕ) (intent : TradeIntent ℚ)
    (snapshot : FeatureSnapshot) (approvedQty : ℚ), 0 < approvedQty → 0 < snapshot.midPrice →
    Splits (createTwapPlan e seq intent snapshot approvedQty) approvedQty snapshot.midPrice
      (effectiveMinNotional e) := by
  intro h
  have hsplits := h executor 0 buy calm 3 (by norm_num) (by norm_num [calm])
  have hminimum := hsplits.minimum (by decide +kernel)
  exact absurd hminimum (by decide +kernel)

theorem splits_iff_six : Splits (createTwapPlan executor 0 buy calm 6) 6 calm.midPrice
      (effectiveMinNotional executor) ↔
    Room executor 6 calm.immediateLiquidity calm.midPrice :=
  splits_iff executor 0 buy calm 6 (by norm_num) (by norm_num [calm])

end Minimal

end TB.TwapPlans
