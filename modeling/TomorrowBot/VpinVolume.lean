import TomorrowBot.RecentEntries
import TomorrowBot.VpinBuckets
import Mathlib.Algebra.Order.BigOperators.Group.List
import Mathlib.Algebra.Order.Floor.Semiring
import Mathlib.Tactic.FieldSimp
import Mathlib.Tactic.Linarith
import Mathlib.Tactic.NormNum
import Mathlib.Tactic.Ring

/-!
# No traded volume is lost between the buckets

A bucket is completed at its target, and its overflow is divided as the bucket
itself. Once the target is known, every trade is in the completed buckets and
the current one.
-/

set_option autoImplicit false

namespace TB.Vpin
open TB.CommonTypes RecentEntries

section Buckets

structure Divided (b : VolumeBucket ℚ) : Prop where
  buy : 0 ≤ b.buyVolume
  sell : 0 ≤ b.sellVolume
  total : b.buyVolume + b.sellVolume = b.totalVolume

variable {b : VolumeBucket ℚ} {target : ℚ}

theorem overflowOf_parts (target : ℚ) (hb : Divided b) (htotal : 0 < b.totalVolume) :
    (overflowOf b target).buyVolume =
        b.buyVolume * ((b.totalVolume - target) / b.totalVolume) ∧
      (overflowOf b target).sellVolume =
        b.sellVolume * ((b.totalVolume - target) / b.totalVolume) ∧
      (overflowOf b target).totalVolume = b.totalVolume - target := by
  have hpos : (0.0 : ℚ) < b.totalVolume := by
    norm_num
    exact htotal
  have hsell : b.sellVolume = b.totalVolume - b.buyVolume := eq_sub_of_add_eq' hb.total
  have hne := htotal.ne'
  simp only [overflowOf, if_pos hpos]
  refine ⟨?_, ?_, trivial⟩
  · ring
  · rw [hsell]
    field_simp

theorem overflowOf_divided (hb : Divided b) (ht : 0 < target) (hle : target ≤ b.totalVolume) :
    Divided (overflowOf b target) := by
  have htotal : 0 < b.totalVolume := ht.trans_le hle
  obtain ⟨hbuy, hsell, hrest⟩ := overflowOf_parts target hb htotal
  have hshare : 0 ≤ (b.totalVolume - target) / b.totalVolume :=
    div_nonneg (sub_nonneg.mpr hle) htotal.le
  constructor
  · rw [hbuy]
    exact mul_nonneg hb.buy hshare
  · rw [hsell]
    exact mul_nonneg hb.sell hshare
  · rw [hbuy, hsell, hrest, ← add_mul, hb.total]
    field_simp

theorem completedBucket_divided (hb : Divided b) (ht : 0 < target)
    (hle : target ≤ b.totalVolume) : Divided (completedBucket b target) := by
  have htotal : 0 < b.totalVolume := ht.trans_le hle
  obtain ⟨hbuy, hsell, hrest⟩ := overflowOf_parts target hb htotal
  have hshare : (b.totalVolume - target) / b.totalVolume ≤ 1 :=
    (div_le_one htotal).mpr (by linarith)
  have hover := (overflowOf_divided hb ht hle).total
  constructor
  · show 0 ≤ b.buyVolume - (overflowOf b target).buyVolume
    rw [hbuy, sub_nonneg]
    exact mul_le_of_le_one_right hb.buy hshare
  · show 0 ≤ b.sellVolume - (overflowOf b target).sellVolume
    rw [hsell, sub_nonneg]
    exact mul_le_of_le_one_right hb.sell hshare
  · show b.buyVolume - (overflowOf b target).buyVolume +
      (b.sellVolume - (overflowOf b target).sellVolume) = target
    rw [hrest] at hover
    linarith [hb.total]

theorem foldl_volumes (f : VolumeBucket ℚ → ℚ) (bs : List (VolumeBucket ℚ)) :
    bs.foldl (fun s b => s + f b) 0.0 = (bs.map f).sum := by
  rw [List.sum_eq_foldl, List.foldl_map]
  norm_num

theorem stdAbs_le {x y : ℚ} (hx : 0 ≤ x) (hy : 0 ≤ y) :
    0 ≤ stdAbs (x - y) ∧ stdAbs (x - y) ≤ x + y := by
  unfold stdAbs
  split_ifs with h
  · constructor <;> linarith
  · constructor <;> linarith

/-- The imbalance of divided buckets is a share of their volume. -/
theorem computeVpin_unit (bs : List (VolumeBucket ℚ)) (h : ∀ b ∈ bs, Divided b) :
    0 ≤ computeVpinFromBuckets bs ∧ computeVpinFromBuckets bs ≤ 1 := by
  have hle : (bs.map (fun b => stdAbs (b.buyVolume - b.sellVolume))).sum ≤
      (bs.map VolumeBucket.totalVolume).sum := by
    apply List.sum_le_sum
    intro b hb
    exact (stdAbs_le (h b hb).buy (h b hb).sell).2.trans_eq (h b hb).total
  have hnonneg : 0 ≤ (bs.map (fun b => stdAbs (b.buyVolume - b.sellVolume))).sum := by
    apply List.sum_nonneg
    intro x hx
    obtain ⟨b, hb, rfl⟩ := List.mem_map.mp hx
    exact (stdAbs_le (h b hb).buy (h b hb).sell).1
  simp only [computeVpinFromBuckets, foldl_volumes]
  split_ifs with hvolume
  · have hpos : 0 < (bs.map VolumeBucket.totalVolume).sum := by
      norm_num at hvolume
      exact hvolume
    exact ⟨div_nonneg hnonneg hpos.le, (div_le_one hpos).mpr hle⟩
  · constructor <;> norm_num

end Buckets

section Filling
variable {numBuckets : ℕ}

structure Filled (numBuckets : ℕ) (s : Buckets ℚ) : Prop where
  target : 0 < s.target
  current : Divided s.current
  whole : ∀ c ∈ s.completed, 0 < c.1 ∧ Divided c.2 ∧ c.2.totalVolume = c.1
  kept : s.buckets = (s.completed.map Prod.snd).rtake numBuckets
  vpin : 0 ≤ s.vpin ∧ s.vpin ≤ 1

def bought (s : Buckets ℚ) : ℚ :=
  (s.completed.map (fun c => c.2.buyVolume)).sum + s.current.buyVolume

def sold (s : Buckets ℚ) : ℚ :=
  (s.completed.map (fun c => c.2.sellVolume)).sum + s.current.sellVolume

theorem pushBucket_rtake (all : List (VolumeBucket ℚ)) (b : VolumeBucket ℚ) :
    pushBucket numBuckets (all.rtake numBuckets) b = (all ++ [b]).rtake numBuckets := by
  have hlen := length_rtake_le numBuckets all
  rw [← rtake_append_rtake]
  generalize all.rtake numBuckets = kept at hlen
  have hlength : (kept ++ [b]).length = kept.length + 1 := List.length_append
  unfold pushBucket
  split_ifs with hfull
  · have hone : (kept ++ [b]).length - numBuckets = 1 := by omega
    rw [List.rtake, hone, List.drop_one]
  · exact (rtake_of_length_le (not_lt.mp hfull)).symm

theorem divided_kept {s : Buckets ℚ} (hs : Filled numBuckets s) {b : VolumeBucket ℚ}
    (hb : b ∈ s.buckets) : Divided b ∧ 0 < b.totalVolume := by
  rw [hs.kept] at hb
  obtain ⟨c, hc, rfl⟩ := List.mem_map.mp ((rtake_sublist numBuckets _).mem hb)
  obtain ⟨hpos, hdivided, htotal⟩ := hs.whole c hc
  exact ⟨hdivided, htotal ▸ hpos⟩

variable (s : Buckets ℚ)

theorem overflowing_iff : Overflowing s ↔ 0 < s.target ∧ s.target ≤ s.current.totalVolume := by
  unfold Overflowing
  norm_num

theorem fillRound_filled (hs : Filled numBuckets s) (ho : Overflowing s) :
    Filled numBuckets (fillRound numBuckets s) := by
  have hle := ((overflowing_iff s).mp ho).2
  have hdone := completedBucket_divided hs.current hs.target hle
  have hwhole : ∀ c ∈ (fillRound numBuckets s).completed,
      0 < c.1 ∧ Divided c.2 ∧ c.2.totalVolume = c.1 := by
    intro c hc
    rcases List.mem_append.mp hc with hold | hnew
    · exact hs.whole c hold
    · rw [List.mem_singleton.mp hnew]
      exact ⟨hs.target, hdone, rfl⟩
  have hkept : (fillRound numBuckets s).buckets =
      ((fillRound numBuckets s).completed.map Prod.snd).rtake numBuckets := by
    simp only [fillRound, List.map_append, List.map_cons, List.map_nil]
    rw [hs.kept]
    exact pushBucket_rtake _ _
  refine ⟨hs.target, overflowOf_divided hs.current hs.target hle, hwhole, hkept, ?_⟩
  simp only [fillRound]
  split_ifs
  · apply computeVpin_unit
    intro b hb
    have hb' : b ∈ (fillRound numBuckets s).buckets := hb
    rw [hkept] at hb'
    obtain ⟨c, hc, rfl⟩ := List.mem_map.mp ((rtake_sublist numBuckets _).mem hb')
    exact (hwhole c hc).2.1
  · exact hs.vpin

theorem fillRound_accounts (numBuckets : ℕ) (s : Buckets ℚ) :
    bought (fillRound numBuckets s) = bought s ∧ sold (fillRound numBuckets s) = sold s ∧
      (fillRound numBuckets s).target = s.target := by
  simp only [bought, sold, fillRound, completedBucket, List.map_append, List.map_cons,
    List.map_nil, List.sum_append, List.sum_cons, List.sum_nil]
  refine ⟨?_, ?_, trivial⟩
  · ring
  · ring

def rounds (s : Buckets ℚ) : ℕ := ⌊s.current.totalVolume / s.target⌋₊

theorem fillRound_rounds (ho : Overflowing s) : rounds (fillRound numBuckets s) < rounds s := by
  obtain ⟨ht, hle⟩ := (overflowing_iff s).mp ho
  have hone : 1 ≤ s.current.totalVolume / s.target := (one_le_div ht).mpr hle
  have hless : (fillRound numBuckets s).current.totalVolume / s.target =
      s.current.totalVolume / s.target - 1 := by
    show (s.current.totalVolume - s.target) / s.target = _
    rw [sub_div, div_self ht.ne']
  have hfloor : 1 ≤ ⌊s.current.totalVolume / s.target⌋₊ := Nat.le_floor (by exact_mod_cast hone)
  have htarget : (fillRound numBuckets s).target = s.target := rfl
  rw [rounds, rounds, htarget, hless, Nat.floor_sub_one]
  omega

theorem addVolume_filled {s : Buckets ℚ} (hs : Filled numBuckets s) {t : Trade ℚ}
    (ht : 0 < t.volume) : Filled numBuckets (addVolume s t) := by
  refine ⟨hs.target, ?_, hs.whole, hs.kept, hs.vpin⟩
  obtain ⟨hbuy, hsell, htotal⟩ := hs.current
  cases h : t.isBuy with
  | true =>
    refine ⟨?_, ?_, ?_⟩ <;> simp only [addVolume, h, if_true]
    · linarith
    · exact hsell
    · linarith
  | false =>
    refine ⟨?_, ?_, ?_⟩ <;> simp only [addVolume, h, Bool.false_eq_true, if_false]
    · exact hbuy
    · linarith
    · linarith

def buyOf (t : Trade ℚ) : ℚ := if t.isBuy then t.volume else 0

def sellOf (t : Trade ℚ) : ℚ := if t.isBuy then 0 else t.volume

theorem addVolume_accounts (t : Trade ℚ) :
    bought (addVolume s t) = bought s + buyOf t ∧ sold (addVolume s t) = sold s + sellOf t := by
  cases h : t.isBuy with
  | true => simp [bought, sold, addVolume, buyOf, sellOf, h, add_assoc]
  | false => simp [bought, sold, addVolume, buyOf, sellOf, h, add_assoc]

/-- What a trade leaves behind: the buckets stay filled, and its volume is in them. -/
theorem fillBucket_spec {s r : Buckets ℚ} (hs : Filled numBuckets s) {t : Trade ℚ}
    (ht : 0 < t.volume) {fuel : ℕ} (h : fillBucket fuel numBuckets s t = some r) :
    Filled numBuckets r ∧ bought r = bought s + buyOf t ∧ sold r = sold s + sellOf t := by
  have hround : ∀ u : Buckets ℚ,
      (Filled numBuckets u ∧ bought u = bought s + buyOf t ∧ sold u = sold s + sellOf t) →
      Overflowing u → Filled numBuckets (fillRound numBuckets u) ∧
        bought (fillRound numBuckets u) = bought s + buyOf t ∧
        sold (fillRound numBuckets u) = sold s + sellOf t := by
    rintro u ⟨hu, hbuy, hsell⟩ ho
    obtain ⟨hbought, hsold, -⟩ := fillRound_accounts numBuckets u
    exact ⟨fillRound_filled u hu ho, hbought.trans hbuy, hsold.trans hsell⟩
  exact (WhileLoops.loop_invariant Overflowing (fillRound numBuckets) hround fuel _ r
    ⟨addVolume_filled hs ht, addVolume_accounts s t⟩ h).1

theorem fillBucket_returns {s : Buckets ℚ} (hs : Filled numBuckets s) {t : Trade ℚ}
    (ht : 0 < t.volume) : ∃ bound r, ∀ fuel ≥ bound, fillBucket fuel numBuckets s t = some r := by
  obtain ⟨r, hr⟩ := WhileLoops.loop_returns Overflowing (fillRound numBuckets)
    (I := Filled numBuckets) rounds fillRound_filled (fun u _ ho => fillRound_rounds u ho)
    (rounds (addVolume s t) + 1) _ (addVolume_filled hs ht) (Nat.lt_succ_self _)
  exact ⟨_, r, fun fuel hfuel => WhileLoops.loop_mono _ _ hfuel hr⟩

end Filling

end TB.Vpin
