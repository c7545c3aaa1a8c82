import TomorrowBot.Extremes
import TomorrowBot.RealArithmetic
import TomorrowBot.WeightedBins

/-!
# The volume profile of a window of trades

The prices of the window are divided into levels of one width. The value area
starts at the level with the largest volume and grows by the larger of its two
neighbours until it holds the wanted share of the volume.
-/

set_option autoImplicit false

namespace TB.AdvancedFeatures
open TB.CommonTypes

structure PriceVolume (F : Type) where
  price : F
  volume : F

structure VolumeProfileSnapshot (F : Type) where
  poc : F
  valueAreaHigh : F
  valueAreaLow : F
  valid : Bool

section Profile
variable {F : Type} [DoubleRounding F]

def noProfile : VolumeProfileSnapshot F := ⟨0.0, 0.0, 0.0, false⟩

def minPrice (trades : List (PriceVolume F)) : F :=
  trades.foldl (fun m t => stdMin m t.price) 1e18

def maxPrice (trades : List (PriceVolume F)) : F :=
  trades.foldl (fun m t => stdMax m t.price) 0.0

def levelWidth (trades : List (PriceVolume F)) (numLevels : ℕ) : F :=
  (maxPrice trades - minPrice trades) / ofInt numLevels

def levelIndex (lowest width : F) (numLevels : ℕ) (price : F) : ℕ :=
  min (toInt ((price - lowest) / width)).toNat (numLevels - 1)

def histogram (lowest width : F) (numLevels : ℕ) (trades : List (PriceVolume F)) : List F :=
  trades.foldl
    (fun h t => h.modify (levelIndex lowest width numLevels t.price) (fun v => v + t.volume))
    (List.replicate numLevels 0.0)

def totalVolume (trades : List (PriceVolume F)) : F :=
  trades.foldl (fun total t => total + t.volume) 0.0

def pocScan (histogram : List F) : ℕ × F :=
  histogram.zipIdx.foldl (fun best v => if best.2 < v.1 then (v.2, v.1) else best) (0, 0.0)

structure ValueArea (F : Type) where
  low : ℕ
  high : ℕ
  accumulated : F

def ValueArea.addHigh (h : List F) (a : ValueArea F) : ValueArea F :=
  { a with high := a.high + 1, accumulated := a.accumulated + h.getD (a.high + 1) 0.0 }

def ValueArea.addLow (h : List F) (a : ValueArea F) : ValueArea F :=
  { a with low := a.low - 1, accumulated := a.accumulated + h.getD (a.low - 1) 0.0 }

def Extensible (h : List F) (a : ValueArea F) : Prop := 0 < a.low ∨ a.high < h.length - 1

instance (h : List F) (a : ValueArea F) : Decidable (Extensible h a) :=
  inferInstanceAs (Decidable (_ ∨ _))

def lowNeighbour (h : List F) (a : ValueArea F) : F :=
  if 0 < a.low then h.getD (a.low - 1) 0.0 else 0.0

def highNeighbour (h : List F) (a : ValueArea F) : F :=
  if a.high < h.length - 1 then h.getD (a.high + 1) 0.0 else 0.0

def widen (h : List F) (a : ValueArea F) : ValueArea F :=
  if lowNeighbour h a ≤ highNeighbour h a ∧ a.high < h.length - 1 then a.addHigh h
  else if 0 < a.low then a.addLow h
  else a.addHigh h

def outside (h : List F) (a : ValueArea F) : ℕ := a.low + (h.length - 1 - a.high)

theorem widen_cases (h : List F) (a : ValueArea F) (he : Extensible h a) :
    (a.high < h.length - 1 ∧ widen h a = a.addHigh h) ∨
      (0 < a.low ∧ widen h a = a.addLow h) := by
  unfold widen
  split_ifs with hlarger hlow
  · exact Or.inl ⟨hlarger.2, rfl⟩
  · exact Or.inr ⟨hlow, rfl⟩
  · exact Or.inl ⟨he.resolve_left hlow, rfl⟩

theorem widen_outside (h : List F) (a : ValueArea F) (he : Extensible h a) :
    outside h (widen h a) < outside h a := by
  unfold outside
  rcases widen_cases h a he with ⟨hhigh, hw⟩ | ⟨hlow, hw⟩
  · rw [hw]
    simp only [ValueArea.addHigh]
    omega
  · rw [hw]
    simp only [ValueArea.addLow]
    omega

def expand (h : List F) (target : F) (a : ValueArea F) : ValueArea F :=
  if _hc : a.accumulated < target ∧ Extensible h a then expand h target (widen h a) else a
termination_by outside h a
decreasing_by exact widen_outside h a _hc.2

/-- The expansion ends after some rounds, all of which found the area short of the target
and with a level left outside. -/
theorem expand_rounds (h : List F) (target : F) (a : ValueArea F) :
    ∃ k ≤ outside h a, expand h target a = (widen h)^[k] a ∧
      (∀ j < k, ((widen h)^[j] a).accumulated < target ∧ Extensible h ((widen h)^[j] a)) ∧
        ¬ ((expand h target a).accumulated < target ∧ Extensible h (expand h target a)) := by
  induction a using expand.induct h target with
  | case1 a hc ih =>
    obtain ⟨k, hk, heq, hrounds, hend⟩ := ih
    have hunfold : expand h target a = expand h target (widen h a) := by
      rw [expand, dif_pos hc]
    rw [hunfold]
    refine ⟨k + 1, ?_, heq, ?_, hend⟩
    · exact Nat.succ_le_of_lt (hk.trans_lt (widen_outside h a hc.2))
    · intro j hj
      cases j with
      | zero => exact hc
      | succ j => exact hrounds j (Nat.lt_of_succ_lt_succ hj)
  | case2 a hc =>
    have hunfold : expand h target a = a := by
      rw [expand, dif_neg hc]
    rw [hunfold]
    exact ⟨0, Nat.zero_le _, rfl, fun j hj => absurd hj (Nat.not_lt_zero j), hc⟩

def valueArea (h : List F) (target : F) : ValueArea F :=
  let poc := (pocScan h).1
  expand h target ⟨poc, poc, h.getD poc 0.0⟩

def profileOf (lowest width : F) (poc : ℕ) (a : ValueArea F) : VolumeProfileSnapshot F where
  poc := lowest + (ofInt poc + 0.5) * width
  valueAreaLow := lowest + ofInt a.low * width
  valueAreaHigh := lowest + ofInt (a.high + 1) * width
  valid := true

def computeVolumeProfileSnapshot (trades : List (PriceVolume F)) (numLevels : ℕ)
    (valueAreaPct : F) : VolumeProfileSnapshot F :=
  if trades.length < 50 ∨ numLevels < 2 then noProfile
  else if maxPrice trades ≤ minPrice trades then noProfile
  else
    let width := levelWidth trades numLevels
    if width ≤ 0.0 then noProfile
    else
      let h := histogram (minPrice trades) width numLevels trades
      if totalVolume trades ≤ 0.0 then noProfile
      else
        profileOf (minPrice trades) width (pocScan h).1
          (valueArea h (totalVolume trades * valueAreaPct))

end Profile

section Exact
open WeightedBins

variable (trades : List (PriceVolume ℝ)) (n : ℕ)

theorem minPrice_real :
    minPrice trades = Extremes.least 1e18 (trades.map PriceVolume.price) := by
  rw [← Extremes.foldl_min, List.foldl_map, minPrice]
  simp only [stdMin_real]

theorem maxPrice_real :
    maxPrice trades = Extremes.greatest 0.0 (trades.map PriceVolume.price) := by
  rw [← Extremes.foldl_max, List.foldl_map, maxPrice]
  simp only [stdMax_real]

variable {trades}

theorem minPrice_le {t : PriceVolume ℝ} (ht : t ∈ trades) : minPrice trades ≤ t.price := by
  rw [minPrice_real]
  exact Extremes.least_le_of_mem (List.mem_map_of_mem ht)

theorem le_maxPrice {t : PriceVolume ℝ} (ht : t ∈ trades) : t.price ≤ maxPrice trades := by
  rw [maxPrice_real]
  exact Extremes.le_greatest_of_mem (List.mem_map_of_mem ht)

theorem min_lt_max (h : ∃ t ∈ trades, ∃ u ∈ trades, t.price ≠ u.price) :
    minPrice trades < maxPrice trades := by
  obtain ⟨t, ht, u, hu, hne⟩ := h
  rcases lt_or_gt_of_ne hne with hlt | hgt
  · exact (minPrice_le ht).trans_lt (hlt.trans_le (le_maxPrice hu))
  · exact (minPrice_le hu).trans_lt (hgt.trans_le (le_maxPrice ht))

theorem levelWidth_real : levelWidth trades n = (maxPrice trades - minPrice trades) / n := by
  show _ / ((n : ℤ) : ℝ) = _
  rw [Int.cast_natCast]

theorem levelWidth_pos (h : minPrice trades < maxPrice trades) (hn : 0 < n) :
    0 < levelWidth trades n := by
  rw [levelWidth_real]
  exact div_pos (sub_pos.mpr h) (Nat.cast_pos.mpr hn)

variable (trades)

noncomputable def levelOf (t : PriceVolume ℝ) : ℕ :=
  levelIndex (minPrice trades) (levelWidth trades n) n t.price

noncomputable def lowerEdge (i : ℕ) : ℝ := minPrice trades + i * levelWidth trades n

noncomputable def levels : List ℝ := histogram (minPrice trades) (levelWidth trades n) n trades

theorem levelOf_lt (hn : 0 < n) (t : PriceVolume ℝ) : levelOf trades n t < n :=
  (min_le_right _ _).trans_lt (Nat.sub_lt hn one_pos)

theorem levelOf_floor {t : PriceVolume ℝ} (ht : t ∈ trades)
    (h : minPrice trades < maxPrice trades) (hn : 0 < n) :
    levelOf trades n t = min ⌊(t.price - minPrice trades) / levelWidth trades n⌋₊ (n - 1) := by
  have hquot : 0 ≤ (t.price - minPrice trades) / levelWidth trades n :=
    div_nonneg (sub_nonneg.mpr (minPrice_le ht)) (levelWidth_pos n h hn).le
  have hneg : ¬ (t.price - minPrice trades) / levelWidth trades n < 0.0 := by
    rw [zero_real]
    exact not_lt.mpr hquot
  rw [levelOf, levelIndex, toInt, if_neg hneg]
  rfl

theorem levelOf_edges {t : PriceVolume ℝ} (ht : t ∈ trades)
    (h : minPrice trades < maxPrice trades) (hn : 0 < n) :
    lowerEdge trades n (levelOf trades n t) ≤ t.price ∧
      t.price ≤ lowerEdge trades n (levelOf trades n t + 1) := by
  have hw := levelWidth_pos n h hn
  have hquot : 0 ≤ (t.price - minPrice trades) / levelWidth trades n :=
    div_nonneg (sub_nonneg.mpr (minPrice_le ht)) hw.le
  have htop : (t.price - minPrice trades) / levelWidth trades n ≤ n := by
    rw [div_le_iff₀ hw, levelWidth_real]
    have hpos : (n : ℝ) ≠ 0 := Nat.cast_ne_zero.mpr hn.ne'
    have hwhole : (n : ℝ) * ((maxPrice trades - minPrice trades) / n) =
        maxPrice trades - minPrice trades := by field_simp
    exact (sub_le_sub_right (le_maxPrice ht) _).trans hwhole.ge
  have hlevel := levelOf_floor trades n ht h hn
  constructor
  · have hle : ((levelOf trades n t : ℕ) : ℝ) ≤
        (t.price - minPrice trades) / levelWidth trades n := by
      rw [hlevel]
      exact (Nat.cast_le.mpr (min_le_left _ _)).trans (Nat.floor_le hquot)
    have := (le_div_iff₀ hw).mp hle
    unfold lowerEdge
    linarith
  · have hge : (t.price - minPrice trades) / levelWidth trades n ≤
        ((levelOf trades n t + 1 : ℕ) : ℝ) := by
      rw [hlevel]
      rcases le_total ⌊(t.price - minPrice trades) / levelWidth trades n⌋₊ (n - 1) with hle | hle
      · rw [min_eq_left hle]
        push_cast
        exact (Nat.lt_floor_add_one _).le
      · rw [min_eq_right hle, Nat.sub_add_cancel hn]
        exact htop
    have := (div_le_iff₀ hw).mp hge
    unfold lowerEdge
    linarith

theorem levels_collect : levels trades n =
    collect (levelOf trades n) PriceVolume.volume (List.replicate n 0) trades := by
  unfold levels histogram collect
  rw [zero_real]
  rfl

theorem levels_length : (levels trades n).length = n := by
  rw [levels_collect, collect_length, List.length_replicate]

theorem levels_getD (i : ℕ) (hi : i < n) : (levels trades n).getD i 0 =
    weightAt (levelOf trades n) PriceVolume.volume trades i := by
  have hlt : i < (List.replicate n (0 : ℝ)).length := by rwa [List.length_replicate]
  have hempty : (List.replicate n (0 : ℝ)).getD i 0 = 0 := by
    rw [List.getD_eq_getElem?_getD, List.getElem?_getD_replicate_default_eq]
  rw [levels_collect, collect_getD _ _ _ _ i hlt, hempty, zero_add]

theorem totalVolume_real : totalVolume trades = (trades.map PriceVolume.volume).sum := by
  rw [totalVolume, List.sum_eq_foldl, List.foldl_map, zero_real]

theorem levels_nonneg (hv : ∀ t ∈ trades, 0 < t.volume) (i : ℕ) :
    0 ≤ (levels trades n).getD i 0 := by
  rcases lt_or_ge i n with hi | hi
  · rw [levels_getD trades n i hi]
    apply List.sum_nonneg
    intro v hmem
    obtain ⟨t, ht, rfl⟩ := List.mem_map.mp hmem
    exact (hv t (List.mem_of_mem_filter ht)).le
  · rw [List.getD_eq_default _ _ ((levels_length trades n).trans_le hi)]

theorem pocScan_spec (h : List ℝ) (hne : 0 < h.length) (hnonneg : ∀ i, 0 ≤ h.getD i 0) :
    (pocScan h).1 < h.length ∧ ∀ i < h.length, h.getD i 0 ≤ h.getD (pocScan h).1 0 := by
  have hscan : pocScan h = scanLargest (0, 0) h 0 := by
    unfold pocScan scanLargest
    rw [zero_real]
  obtain ⟨-, hall, hwhere⟩ := scanLargest_spec h (0, 0) 0
  rw [← hscan] at hall hwhere
  have hbound : ∀ i < h.length, h.getD i 0 ≤ (pocScan h).2 := by
    intro i hi
    rw [List.getD_eq_getElem _ _ hi]
    exact hall _ (List.getElem_mem hi)
  rcases hwhere with hzero | ⟨i, hget, hindex⟩
  · rw [hzero]
    refine ⟨hne, fun i hi => ?_⟩
    have hle := hbound i hi
    rw [hzero] at hle
    exact hle.trans (hnonneg 0)
  · rw [Nat.zero_add] at hindex
    obtain ⟨hi, heq⟩ := List.getElem?_eq_some_iff.mp hget
    rw [hindex]
    refine ⟨hi, fun j hj => ?_⟩
    rw [List.getD_eq_getElem _ _ hi, heq]
    exact hbound j hj

structure Tracks (h : List ℝ) (a : ValueArea ℝ) : Prop where
  ordered : a.low ≤ a.high
  inside : a.high < h.length
  volume : a.accumulated = between h a.low a.high

theorem tracks_widen (h : List ℝ) (a : ValueArea ℝ) (ht : Tracks h a) (he : Extensible h a) :
    Tracks h (widen h a) := by
  rcases widen_cases h a he with ⟨hhigh, hw⟩ | ⟨hlow, hw⟩
  · rw [hw]
    refine ⟨ht.ordered.trans (Nat.le_succ _), Nat.add_lt_of_lt_sub hhigh, ?_⟩
    show a.accumulated + h.getD (a.high + 1) 0.0 = between h a.low (a.high + 1)
    rw [between_high h (ht.ordered.trans (Nat.le_succ _)), ht.volume, zero_real]
  · rw [hw]
    refine ⟨(Nat.sub_le _ _).trans ht.ordered, ht.inside, ?_⟩
    show a.accumulated + h.getD (a.low - 1) 0.0 = between h (a.low - 1) a.high
    rw [between_low h hlow ht.ordered, ht.volume, zero_real]

theorem widen_contains (h : List ℝ) (a : ValueArea ℝ) (he : Extensible h a) :
    (widen h a).low ≤ a.low ∧ a.high ≤ (widen h a).high := by
  rcases widen_cases h a he with ⟨-, hw⟩ | ⟨-, hw⟩
  · rw [hw]
    exact ⟨le_rfl, Nat.le_succ _⟩
  · rw [hw]
    exact ⟨Nat.sub_le _ _, le_rfl⟩

theorem tracks_rounds (h : List ℝ) (a : ValueArea ℝ) (ht : Tracks h a) (k : ℕ)
    (he : ∀ j < k, Extensible h ((widen h)^[j] a)) :
    Tracks h ((widen h)^[k] a) ∧ ((widen h)^[k] a).low ≤ a.low ∧
      a.high ≤ ((widen h)^[k] a).high := by
  induction k with
  | zero => exact ⟨ht, le_rfl, le_rfl⟩
  | succ k ih =>
    obtain ⟨htracks, hlow, hhigh⟩ := ih (fun j hj => he j (hj.trans (Nat.lt_succ_self k)))
    have hext := he k (Nat.lt_succ_self k)
    obtain ⟨hlow', hhigh'⟩ := widen_contains h _ hext
    rw [Function.iterate_succ_apply']
    exact ⟨tracks_widen h _ htracks hext, hlow'.trans hlow, hhigh.trans hhigh'⟩

structure AssignsOnce : Prop where
  level : ∀ t ∈ trades, levelOf trades n t < n ∧
    lowerEdge trades n (levelOf trades n t) ≤ t.price ∧
      t.price ≤ lowerEdge trades n (levelOf trades n t + 1)
  volume : ∀ i < n, (levels trades n).getD i 0 =
    weightAt (levelOf trades n) PriceVolume.volume trades i

noncomputable def areaAfter (poc rounds : ℕ) : ValueArea ℝ :=
  (widen (levels trades n))^[rounds] ⟨poc, poc, (levels trades n).getD poc 0⟩

noncomputable def areaVolume (a : ValueArea ℝ) : ℝ := between (levels trades n) a.low a.high

def OneMore (a b : ValueArea ℝ) : Prop :=
  b.low = a.low ∧ b.high = a.high + 1 ∨ b.low + 1 = a.low ∧ b.high = a.high

structure CorrectArea (pct : ℝ) (s : VolumeProfileSnapshot ℝ) (poc rounds : ℕ) : Prop where
  largest : poc < n ∧ ∀ i < n, (levels trades n).getD i 0 ≤ (levels trades n).getD poc 0
  centre : s.poc = (lowerEdge trades n poc + lowerEdge trades n (poc + 1)) / 2
  contains : (areaAfter trades n poc rounds).low ≤ poc ∧
    poc ≤ (areaAfter trades n poc rounds).high ∧ (areaAfter trades n poc rounds).high < n
  edges : s.valueAreaLow = lowerEdge trades n (areaAfter trades n poc rounds).low ∧
    s.valueAreaHigh = lowerEdge trades n ((areaAfter trades n poc rounds).high + 1)
  ordered : s.valueAreaLow ≤ s.poc ∧ s.poc ≤ s.valueAreaHigh
  enough : totalVolume trades * pct ≤ areaVolume trades n (areaAfter trades n poc rounds)
  ends : rounds < n
  grows : ∀ j < rounds, OneMore (areaAfter trades n poc j) (areaAfter trades n poc (j + 1))
  minimal : ∀ j < rounds,
    areaVolume trades n (areaAfter trades n poc j) < totalVolume trades * pct

theorem oneMore_widen (h : List ℝ) (a : ValueArea ℝ) (he : Extensible h a) :
    OneMore a (widen h a) := by
  rcases widen_cases h a he with ⟨-, hw⟩ | ⟨hlow, hw⟩
  · rw [hw]
    exact Or.inl ⟨rfl, rfl⟩
  · rw [hw]
    exact Or.inr ⟨Nat.sub_add_cancel hlow, rfl⟩

variable {trades n}

theorem lowerEdge_mono (h : minPrice trades < maxPrice trades) (hn : 0 < n) {i j : ℕ}
    (hij : i ≤ j) : lowerEdge trades n i ≤ lowerEdge trades n j := by
  have hcast : (i : ℝ) ≤ j := Nat.cast_le.mpr hij
  exact add_le_add_right (mul_le_mul_of_nonneg_right hcast (levelWidth_pos n h hn).le) _

theorem areaVolume_full (hn : 0 < n) (a : ValueArea ℝ) (hinside : a.high < n)
    (hfull : ¬ Extensible (levels trades n) a) : areaVolume trades n a = totalVolume trades := by
  obtain ⟨hlow, hhigh⟩ := not_or.mp hfull
  rw [levels_length] at hhigh
  have hlow0 : a.low = 0 := Nat.eq_zero_of_not_pos hlow
  have htop : a.high = n - 1 := by omega
  rw [areaVolume, hlow0, htop, levels_collect, totalVolume_real]
  exact between_all _ _ trades n (fun t _ => levelOf_lt trades n hn t) hn

/-- A profile that is computed is the profile of the grown area. -/
theorem compute_eq (hlen : 50 ≤ trades.length) (hn : 2 ≤ n)
    (h : minPrice trades < maxPrice trades) (htotal : 0 < totalVolume trades) (pct : ℝ) :
    computeVolumeProfileSnapshot trades n pct =
      profileOf (minPrice trades) (levelWidth trades n) (pocScan (levels trades n)).1
        (valueArea (levels trades n) (totalVolume trades * pct)) := by
  have hwidth : ¬ levelWidth trades n ≤ 0.0 := by
    rw [zero_real, not_le]
    exact levelWidth_pos n h (by omega)
  have hvolume : ¬ totalVolume trades ≤ 0.0 := by
    rw [zero_real, not_le]
    exact htotal
  unfold computeVolumeProfileSnapshot
  rw [if_neg (by omega), if_neg (not_le.mpr h)]
  dsimp only
  rw [if_neg hwidth, if_neg hvolume]
  rfl

theorem profile_edges (trades : List (PriceVolume ℝ)) (n poc : ℕ) (a : ValueArea ℝ) :
    (profileOf (minPrice trades) (levelWidth trades n) poc a).poc =
        (lowerEdge trades n poc + lowerEdge trades n (poc + 1)) / 2 ∧
      (profileOf (minPrice trades) (levelWidth trades n) poc a).valueAreaLow =
          lowerEdge trades n a.low ∧
        (profileOf (minPrice trades) (levelWidth trades n) poc a).valueAreaHigh =
          lowerEdge trades n (a.high + 1) := by
  have hof (i : ℕ) : (ofInt (i : ℤ) : ℝ) = i := Int.cast_natCast i
  have hsucc : (ofInt ((a.high : ℤ) + 1) : ℝ) = ((a.high + 1 : ℕ) : ℝ) := by
    show (((a.high : ℤ) + 1 : ℤ) : ℝ) = _
    push_cast
    rfl
  refine ⟨?_, ?_, ?_⟩
  · simp only [profileOf, lowerEdge, hof]
    push_cast
    ring
  · simp only [profileOf, lowerEdge, hof]
  · simp only [profileOf, lowerEdge, hsucc]

/-- The value area of a window with two prices and positive volumes is correct. -/
theorem value_area_correct (pct : ℝ) (hlen : 50 ≤ trades.length) (hn : 2 ≤ n)
    (hdiffer : ∃ t ∈ trades, ∃ u ∈ trades, t.price ≠ u.price)
    (hvolumes : ∀ t ∈ trades, 0 < t.volume) (hpct : pct ≤ 1) :
    (computeVolumeProfileSnapshot trades n pct).valid = true ∧ AssignsOnce trades n ∧
      ∃ poc rounds, CorrectArea trades n pct (computeVolumeProfileSnapshot trades n pct) poc
        rounds := by
  have hn0 : 0 < n := by omega
  have hlt := min_lt_max hdiffer
  have htotal : 0 < totalVolume trades := by
    rw [totalVolume_real]
    apply List.sum_pos
    · intro v hv
      obtain ⟨t, ht, rfl⟩ := List.mem_map.mp hv
      exact hvolumes t ht
    · intro hempty
      rw [List.map_eq_nil_iff.mp hempty] at hlen
      exact absurd hlen (by decide)
  have hlength := levels_length trades n
  obtain ⟨hpoc, hlargest⟩ := pocScan_spec (levels trades n) (by rw [hlength]; exact hn0)
    (levels_nonneg trades n hvolumes)
  rw [hlength] at hpoc hlargest
  rw [compute_eq hlen hn hlt htotal]
  set poc := (pocScan (levels trades n)).1
  obtain ⟨rounds, hrounds, harea, hshort, hend⟩ := expand_rounds (levels trades n)
    (totalVolume trades * pct) ⟨poc, poc, (levels trades n).getD poc 0⟩
  have hvalue : valueArea (levels trades n) (totalVolume trades * pct) =
      areaAfter trades n poc rounds := by
    rw [areaAfter, ← harea, valueArea, zero_real]
  rw [hvalue]
  rw [harea] at hend
  have hstart : Tracks (levels trades n) ⟨poc, poc, (levels trades n).getD poc 0⟩ :=
    ⟨le_rfl, by rw [hlength]; exact hpoc, (between_self _ poc).symm⟩
  have htracks (k : ℕ) (hk : k ≤ rounds) := tracks_rounds (levels trades n) _ hstart k
    (fun j hj => (hshort j (hj.trans_le hk)).2)
  obtain ⟨htrack, hlow, hhigh⟩ := htracks rounds le_rfl
  obtain ⟨hcentre, hedgeLow, hedgeHigh⟩ := profile_edges trades n poc
    (areaAfter trades n poc rounds)
  refine ⟨rfl, ⟨fun t ht => ⟨levelOf_lt trades n hn0 t, levelOf_edges trades n ht hlt hn0⟩,
    levels_getD trades n⟩, poc, rounds, ?_⟩
  exact {
    largest := ⟨hpoc, hlargest⟩
    centre := hcentre
    contains := ⟨hlow, hhigh, htrack.inside.trans_eq hlength⟩
    edges := ⟨hedgeLow, hedgeHigh⟩
    ordered := by
      have hleft := lowerEdge_mono hlt hn0 hlow
      have hright := lowerEdge_mono hlt hn0 (Nat.succ_le_succ hhigh)
      have hmiddle := lowerEdge_mono hlt hn0 (Nat.le_succ poc)
      rw [hcentre, hedgeLow, hedgeHigh]
      constructor
      · exact le_trans hleft (by linarith)
      · exact le_trans (by linarith) hright
    enough := by
      by_contra hless
      have hfull : ¬ Extensible (levels trades n) (areaAfter trades n poc rounds) := by
        intro hext
        exact hend ⟨htrack.volume.trans_lt (not_le.mp hless), hext⟩
      have hwhole : areaVolume trades n (areaAfter trades n poc rounds) = totalVolume trades :=
        areaVolume_full hn0 _ (htrack.inside.trans_eq hlength) hfull
      rw [hwhole] at hless
      exact hless (mul_le_of_le_one_right htotal.le hpct)
    ends := by
      refine hrounds.trans_lt ?_
      simp only [outside, hlength]
      omega
    grows := by
      intro j hj
      unfold areaAfter
      rw [Function.iterate_succ_apply']
      exact oneMore_widen _ _ (hshort j hj).2
    minimal := by
      intro j hj
      have hbelow := (hshort j hj).1
      rw [(htracks j hj.le).1.volume] at hbelow
      exact hbelow }

def sampleWindow : List (PriceVolume ℝ) := ⟨1 + 1, 1⟩ :: List.replicate 49 ⟨1, 1⟩

theorem value_area_sample :
    (computeVolumeProfileSnapshot sampleWindow 2 1).valid = true ∧ AssignsOnce sampleWindow 2 ∧
      ∃ poc rounds, CorrectArea sampleWindow 2 1 (computeVolumeProfileSnapshot sampleWindow 2 1)
        poc rounds := by
  apply value_area_correct
  · rw [sampleWindow, List.length_cons, List.length_replicate]
  · exact le_rfl
  · have hother : (⟨1, 1⟩ : PriceVolume ℝ) ∈ sampleWindow :=
      List.mem_cons_of_mem _ (List.mem_replicate.mpr ⟨by decide, rfl⟩)
    exact ⟨_, List.mem_cons_self, _, hother, by norm_num⟩
  · intro t ht
    rcases List.mem_cons.mp ht with rfl | hrest
    · exact one_pos
    · rw [List.eq_of_mem_replicate hrest]
      exact one_pos
  · exact le_rfl

end Exact

end TB.AdvancedFeatures
