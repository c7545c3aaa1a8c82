import TomorrowBot.CappedSelection
import TomorrowBot.RealArithmetic
import TomorrowBot.ScannerEngine

/-!
# The basket that a scan selects

The candidates have been moved out of their list before the basket is
diversified, so no candles are found and only the sectors are looked at. A pair
that is passed over there is in neither list of the result.
-/

set_option autoImplicit false

namespace TB.BasketSelection
open TB.CommonTypes TB.ScannerEngine CappedSelection

variable {F Φ : Type} [DoubleSqrt F]

section Specification

def atTimesOf (other history : List (CandleData F)) : List (CandleData F) :=
  history.filter (fun c => other.any (fun d => d.timestampMs = c.timestampMs))

def correlationAtTimes (a b : List (CandleData F)) : F :=
  computeReturnCorrelation (atTimesOf b a) (atTimesOf a b)

def Uncorrelated (cfg : ScannerConfig F) (candidates : List (MarketSnapshot F))
    (a b : SymbolAnalysis F Φ) : Prop :=
  ∀ sa ∈ candidates, ∀ sb ∈ candidates, sa.symbol = a.symbol → sb.symbol = b.symbol →
    kMinCandles ≤ sa.candles.length → kMinCandles ≤ sb.candles.length →
    stdAbs (correlationAtTimes sa.candles sb.candles) ≤ cfg.maxCorrelationInBasket

def sectorOf (a : SymbolAnalysis F Φ) : Sector := getSector a.symbol

structure Diversified (cfg : ScannerConfig F) (ev : Evaluators F Φ)
    (candidates : List (MarketSnapshot F)) (r : ScannerResult F Φ) : Prop where
  ordered : r.topPairs.Pairwise (fun a b => ¬ a.score.total < b.score.total)
  size : (r.topPairs.length : ℤ) ≤ cfg.topN
  sectors : ∀ s, (r.topPairs.countP (fun a => sectorOf a = s) : ℤ) ≤ cfg.maxPairsPerSector
  uncorrelated : r.topPairs.Pairwise (Uncorrelated cfg candidates)
  accounted : (r.topPairs ++ r.rejectedPairs).Perm (candidates.map (analyse cfg ev))

end Specification

section Chosen

def passing (cfg : ScannerConfig F) (ev : Evaluators F Φ) (candidates : List (MarketSnapshot F)) :
    List (SymbolAnalysis F Φ) :=
  (candidates.map (analyse cfg ev)).filter (fun a => a.filter.passed)

def isTradable (a : SymbolAnalysis F Φ) : Bool := !decide (a.tradeState = .doNotTrade)

def chosen (cfg : ScannerConfig F) (ev : Evaluators F Φ) (sorting : Sorting F Φ)
    (candidates : List (MarketSnapshot F)) : List (SymbolAnalysis F Φ) :=
  ((sorting.sort (passing cfg ev candidates)).filter isTradable).take cfg.topN.toNat

end Chosen

section Selecting

omit [DoubleSqrt F] in
theorem select_topPairs (cfg : ScannerConfig F) (r : ScannerResult F Φ)
    (l : List (SymbolAnalysis F Φ)) : (l.foldl (selectStep cfg) r).topPairs =
      r.topPairs ++ (l.filter isTradable).take (cfg.topN - r.topPairs.length).toNat := by
  induction l generalizing r with
  | nil => simp
  | cons a l ih =>
    rw [List.foldl_cons, ih, selectStep]
    by_cases hfull : cfg.topN ≤ r.topPairs.length
    · have hnone : (cfg.topN - r.topPairs.length).toNat = 0 := by omega
      rw [if_pos (Or.inl hfull)]
      simp only [hnone, List.take_zero]
    · by_cases hstate : a.tradeState = .doNotTrade
      · rw [if_pos (Or.inr hstate), List.filter_cons_of_neg (by simp [isTradable, hstate])]
      · rw [if_neg (by simp [hfull, hstate]), List.filter_cons_of_pos (by simp [isTradable, hstate])]
        have hroom : (cfg.topN - r.topPairs.length).toNat =
            (cfg.topN - (r.topPairs ++ [a]).length).toNat + 1 := by
          rw [List.length_append, List.length_singleton]
          omega
        rw [hroom, List.take_succ_cons, List.append_assoc, List.singleton_append]

omit [DoubleSqrt F] in
theorem select_perm (cfg : ScannerConfig F) (r : ScannerResult F Φ)
    (l : List (SymbolAnalysis F Φ)) :
    ((l.foldl (selectStep cfg) r).topPairs ++ (l.foldl (selectStep cfg) r).rejectedPairs).Perm
      (r.topPairs ++ r.rejectedPairs ++ l) := by
  induction l generalizing r with
  | nil => simp
  | cons a l ih =>
    rw [List.foldl_cons]
    refine (ih _).trans ?_
    rw [selectStep]
    split_ifs
    · simp [List.append_assoc]
    · have hmove : (r.topPairs ++ [a] ++ r.rejectedPairs).Perm
          (r.topPairs ++ r.rejectedPairs ++ [a]) := by
        rw [List.append_assoc, List.append_assoc]
        exact List.Perm.append_left _ List.perm_append_comm
      simpa [List.append_assoc] using hmove.append_right l

end Selecting

section Diversifying

omit [DoubleSqrt F] in
theorem candleMap_moved (candidates : List (MarketSnapshot F))
    (hready : ∀ snap ∈ candidates, isReady snap = true) (symbol : Symbol) :
    candleMap (candidates.map (fun snap => if isReady snap then movedFrom snap else snap)) symbol =
      none := by
  have hempty : (candidates.map (fun snap =>
      if isReady snap then movedFrom snap else snap)).filter (fun s => !s.candles.isEmpty) = [] := by
    rw [List.filter_eq_nil_iff]
    intro s hs
    obtain ⟨snap, hsnap, rfl⟩ := List.mem_map.mp hs
    simp [hready snap hsnap, movedFrom]
  rw [candleMap, hempty]
  rfl

/-- Without candles the greedy selection is the one by sectors. -/
theorem diversify_capped (cfg : ScannerConfig F) (snapshots : List (MarketSnapshot F))
    (hnone : ∀ symbol, candleMap snapshots symbol = none) (s : Selection F Φ)
    (ranked : List (SymbolAnalysis F Φ)) :
    (ranked.foldl (diversifyStep cfg snapshots) s).selected =
      s.selected ++ capped sectorOf cfg.maxPairsPerSector s.sectorCounts ranked := by
  induction ranked generalizing s with
  | nil => simp [capped]
  | cons a ranked ih =>
    have hcorr : tooCorrelated cfg snapshots s.selected a = false := by
      rw [tooCorrelated, hnone]
    rw [List.foldl_cons, ih, capped]
    by_cases hfull : cfg.maxPairsPerSector ≤ s.sectorCounts (getSector a.symbol)
    · rw [if_pos (show _ ≤ s.sectorCounts (sectorOf a) from hfull)]
      simp only [diversifyStep, if_pos hfull]
    · rw [if_neg (show ¬ _ ≤ s.sectorCounts (sectorOf a) from hfull)]
      simp only [diversifyStep, if_neg hfull, hcorr, Bool.false_eq_true, if_false,
        List.append_assoc, List.singleton_append]
      rfl

end Diversifying

section Exactness
variable (cfg : ScannerConfig F) (ev : Evaluators F Φ) (sorting : Sorting F Φ)
  (candidates : List (MarketSnapshot F))

def basketOf : List (SymbolAnalysis F Φ) :=
  let ranked := sorting.sort (passing cfg ev candidates)
  if ranked.length ≤ 1 then ranked
  else capped sectorOf cfg.maxPairsPerSector (fun _ => 0) ranked

theorem scan_basket (hdiv : cfg.enableDiversification = true)
    (hready : ∀ snap ∈ candidates, isReady snap = true) :
    scanCandidates cfg ev sorting candidates =
      (basketOf cfg ev sorting candidates).foldl (selectStep cfg)
        { topPairs := []
          rejectedPairs :=
            (candidates.map (analyse cfg ev)).filter (fun a => !a.filter.passed)
          afterFilterCount := (sorting.sort (passing cfg ev candidates)).length } := by
  have hall : candidates.filter isReady = candidates := List.filter_eq_self.mpr hready
  have hbasket : diversifyBasket cfg (sorting.sort (passing cfg ev candidates))
      (candidates.map (fun snap => if isReady snap then movedFrom snap else snap)) =
      basketOf cfg ev sorting candidates := by
    rw [diversifyBasket, basketOf, hdiv, Bool.not_true, Bool.false_or]
    simp only [decide_eq_true_eq]
    rw [diversify_capped cfg _ (candleMap_moved candidates hready), List.nil_append]
  unfold scanCandidates
  simp only [hall, hdiv, if_true]
  rw [← hbasket]
  rfl

theorem basket_sublist : (basketOf cfg ev sorting candidates).Sublist
    (sorting.sort (passing cfg ev candidates)) := by
  unfold basketOf
  simp only
  split_ifs
  · exact List.Sublist.refl _
  · exact capped_sublist _ _ _ _

def NoneDropped : Prop :=
  (passing cfg ev candidates).length ≤ 1 ∨ ∀ a ∈ passing cfg ev candidates,
    ((passing cfg ev candidates).countP (fun b => sectorOf b = sectorOf a) : ℤ) ≤
      cfg.maxPairsPerSector

theorem basket_kept_iff : basketOf cfg ev sorting candidates =
    sorting.sort (passing cfg ev candidates) ↔ NoneDropped cfg ev candidates := by
  have hperm := sorting.perm (passing cfg ev candidates)
  unfold basketOf NoneDropped
  simp only
  rw [hperm.length_eq]
  split_ifs with hone
  · exact iff_of_true rfl (Or.inl hone)
  · rw [capped_eq_iff, or_iff_right hone]
    constructor
    · intro hle a ha
      rw [← hperm.countP_eq]
      simpa using hle a (hperm.mem_iff.mpr ha)
    · intro hle a ha
      rw [hperm.countP_eq]
      simpa using hle a (hperm.mem_iff.mp ha)

theorem scan_perm (hdiv : cfg.enableDiversification = true)
    (hready : ∀ snap ∈ candidates, isReady snap = true) :
    ((scanCandidates cfg ev sorting candidates).topPairs ++
      (scanCandidates cfg ev sorting candidates).rejectedPairs).Perm
      ((candidates.map (analyse cfg ev)).filter (fun a => !a.filter.passed) ++
        basketOf cfg ev sorting candidates) := by
  rw [scan_basket cfg ev sorting candidates hdiv hready]
  exact select_perm cfg _ _

theorem accounted_iff (hdiv : cfg.enableDiversification = true)
    (hready : ∀ snap ∈ candidates, isReady snap = true) :
    ((scanCandidates cfg ev sorting candidates).topPairs ++
      (scanCandidates cfg ev sorting candidates).rejectedPairs).Perm
      (candidates.map (analyse cfg ev)) ↔ NoneDropped cfg ev candidates := by
  have hscan := scan_perm cfg ev sorting candidates hdiv hready
  have hsplit : ((candidates.map (analyse cfg ev)).filter (fun a => !a.filter.passed) ++
      sorting.sort (passing cfg ev candidates)).Perm (candidates.map (analyse cfg ev)) :=
    (List.Perm.append_left _ (sorting.perm _)).trans
      (List.perm_append_comm.trans (List.filter_append_perm _ _))
  rw [← basket_kept_iff cfg ev sorting candidates]
  constructor
  · intro hacc
    have hlen := (hscan.symm.trans (hacc.trans hsplit.symm)).length_eq
    rw [List.length_append, List.length_append, Nat.add_left_cancel_iff] at hlen
    exact (basket_sublist cfg ev sorting candidates).eq_of_length hlen
  · intro hkept
    rw [hkept] at hscan
    exact hscan.trans hsplit

theorem scan_topPairs (hdiv : cfg.enableDiversification = true)
    (hready : ∀ snap ∈ candidates, isReady snap = true) :
    (scanCandidates cfg ev sorting candidates).topPairs =
      ((basketOf cfg ev sorting candidates).filter isTradable).take cfg.topN.toNat := by
  rw [scan_basket cfg ev sorting candidates hdiv hready, select_topPairs]
  simp

theorem sectors_of_chosen (hkept : basketOf cfg ev sorting candidates =
      sorting.sort (passing cfg ev candidates)) :
    (∀ s, ((chosen cfg ev sorting candidates).countP (fun a => sectorOf a = s) : ℤ) ≤
      cfg.maxPairsPerSector) ↔
    ((chosen cfg ev sorting candidates).length : ℤ) ≤ cfg.maxPairsPerSector ∨
      1 < (passing cfg ev candidates).length := by
  have hperm := sorting.perm (passing cfg ev candidates)
  have hsub : (chosen cfg ev sorting candidates).Sublist
      (sorting.sort (passing cfg ev candidates)) :=
    (List.take_sublist _ _).trans List.filter_sublist
  by_cases hone : 1 < (passing cfg ev candidates).length
  · refine iff_of_true (fun s => ?_) (Or.inr hone)
    unfold basketOf at hkept
    simp only [hperm.length_eq, if_neg (not_le.mpr hone)] at hkept
    have hpos : 0 ≤ cfg.maxPairsPerSector := by
      obtain ⟨a, ha⟩ := List.exists_mem_of_length_pos (lt_trans Nat.zero_lt_one hone)
      have hle := (capped_eq_iff sectorOf _ _ _).mp hkept a (hperm.mem_iff.mpr ha)
      omega
    exact (Nat.cast_le.mpr (hsub.countP_le)).trans
      (countP_le_of_capped sectorOf _ _ hpos hkept s)
  · rw [or_iff_left hone]
    constructor
    · intro hs
      have hlen : (chosen cfg ev sorting candidates).length ≤ 1 :=
        hsub.length_le.trans (hperm.length_eq.trans_le (not_lt.mp hone))
      rcases hc : chosen cfg ev sorting candidates with _ | ⟨a, _ | ⟨b, l⟩⟩
      · have := hs .other
        rw [hc] at this
        simpa using this
      · have := hs (sectorOf a)
        rw [hc] at this
        simpa using this
      · rw [hc] at hlen
        simp at hlen
    · intro hlen s
      exact (Nat.cast_le.mpr List.countP_le_length).trans hlen

/-- A scan is as it should be exactly if no sector goes over its cap before the
selection and no two of the chosen are correlated. -/
theorem diversified_iff (hdiv : cfg.enableDiversification = true)
    (hready : ∀ snap ∈ candidates, isReady snap = true) :
    Diversified cfg ev candidates (scanCandidates cfg ev sorting candidates) ↔
      0 ≤ cfg.topN ∧ NoneDropped cfg ev candidates ∧
      (((chosen cfg ev sorting candidates).length : ℤ) ≤ cfg.maxPairsPerSector ∨
        1 < (passing cfg ev candidates).length) ∧
      (chosen cfg ev sorting candidates).Pairwise (Uncorrelated cfg candidates) := by
  have htop := scan_topPairs cfg ev sorting candidates hdiv hready
  have hacc := accounted_iff cfg ev sorting candidates hdiv hready
  have hkept := basket_kept_iff cfg ev sorting candidates
  constructor
  · intro h
    have hnone := hacc.mp h.accounted
    have hk := hkept.mpr hnone
    rw [hk] at htop
    have hc : (scanCandidates cfg ev sorting candidates).topPairs =
        chosen cfg ev sorting candidates := htop
    refine ⟨le_trans (Int.natCast_nonneg _) h.size, hnone, ?_, ?_⟩
    · rw [← sectors_of_chosen cfg ev sorting candidates hk, ← hc]
      exact h.sectors
    · rw [← hc]
      exact h.uncorrelated
  · rintro ⟨hn, hnone, hcap, huncorrelated⟩
    have hk := hkept.mpr hnone
    rw [hk] at htop
    have hc : (scanCandidates cfg ev sorting candidates).topPairs =
        chosen cfg ev sorting candidates := htop
    exact
      { ordered := by
          rw [hc]
          exact (sorting.descending _).sublist ((List.take_sublist _ _).trans List.filter_sublist)
        size := by
          rw [hc]
          have := List.length_take_le cfg.topN.toNat
            ((sorting.sort (passing cfg ev candidates)).filter isTradable)
          unfold chosen
          omega
        sectors := by
          rw [hc]
          exact (sectors_of_chosen cfg ev sorting candidates hk).mpr hcap
        uncorrelated := by
          rw [hc]
          exact huncorrelated
        accounted := hacc.mpr hnone }

end Exactness

noncomputable section Counterexample

def defaults : ScannerConfig ℝ := ⟨5, 0.6, 0.30, 0.4, true, 0.85, 2⟩

def alike : Evaluators ℝ Unit where
  features _ := ()
  traps _ _ := ⟨0⟩
  filter _ _ _ := ⟨.passed, ""⟩
  score _ _ _ := ⟨0.5, 1, [], []⟩
  bias _ _ _ := ⟨.neutral, 0, []⟩

def byScore : Sorting ℝ Unit where
  sort l := l.mergeSort (fun a b => decide (b.score.total ≤ a.score.total))
  perm l := List.mergeSort_perm l _
  descending l := by
    have h : (l.mergeSort (fun a b => decide (b.score.total ≤ a.score.total))).Pairwise
        (fun a b => decide (b.score.total ≤ a.score.total) = true) := List.pairwise_mergeSort
      (by simpa using fun a b c hab hbc => le_trans hbc hab)
      (by simpa using fun a b => le_total _ _) l
    exact h.imp (fun hab => not_lt.mpr (by simpa using hab))

def candle (t : ℤ) (close : ℝ) : CandleData ℝ := ⟨t, close, close, close, close, 1⟩

def swinging : List (CandleData ℝ) :=
  [candle 0 1, candle 1 2, candle 2 1, candle 3 2, candle 4 1]

def snapshotOf (symbol : Symbol) : MarketSnapshot ℝ :=
  ⟨symbol, 1, 1, 1, 1, 2, 1, 1, 0, 1, 1, 0, 1, ⟨[⟨1, 1⟩], [⟨1, 1⟩], 0⟩, swinging, 6, 2, 5, 0,
    "online", 0⟩

def scanOf (symbols : List Symbol) : ScannerResult ℝ Unit :=
  scanCandidates defaults alike byScore (symbols.map snapshotOf)

theorem snapshotOf_ready (symbols : List Symbol) :
    ∀ snap ∈ symbols.map snapshotOf, isReady snap = true := by
  intro snap hsnap
  obtain ⟨symbol, -, rfl⟩ := List.mem_map.mp hsnap
  rfl

theorem passing_alike (symbols : List Symbol) : passing defaults alike (symbols.map snapshotOf) =
    (symbols.map snapshotOf).map (analyse defaults alike) :=
  List.filter_eq_self.mpr (fun a ha => by
    obtain ⟨snap, -, rfl⟩ := List.mem_map.mp ha
    rfl)

theorem swinging_correlated : correlationAtTimes swinging swinging = 1 := by
  have hsame : atTimesOf swinging swinging = swinging := by
    simp [atTimesOf, swinging, candle]
  have hreturns : pairedReturns swinging swinging =
      [(Real.log 2, Real.log 2), (-Real.log 2, -Real.log 2), (Real.log 2, Real.log 2),
        (-Real.log 2, -Real.log 2)] := by
    simp [pairedReturns, swinging, candle, DoubleExp.log, zero_real,
      not_le.mpr (zero_lt_one' ℝ), not_le.mpr (zero_lt_two' ℝ)]
  have hlarge : 1 / 2 ≤ Real.log 2 := by
    have := Real.one_sub_inv_le_log_of_pos (zero_lt_two' ℝ)
    linarith
  rw [correlationAtTimes, hsame, computeReturnCorrelation, hreturns]
  have hmin : ¬ min swinging.length swinging.length < kMinCandles := by decide
  rw [if_neg hmin, if_neg (by simp)]
  have hsum : ∀ f : ℝ × ℝ → ℝ, sumOf f [(Real.log 2, Real.log 2), (-Real.log 2, -Real.log 2),
      (Real.log 2, Real.log 2), (-Real.log 2, -Real.log 2)] =
      2 * (f (Real.log 2, Real.log 2) + f (-Real.log 2, -Real.log 2)) := by
    intro f
    simp only [sumOf, List.foldl_cons, List.foldl_nil, zero_real]
    ring
  have hm : (ofInt (4 : ℕ) : ℝ) = 4 := by
    show (((4 : ℕ) : ℤ) : ℝ) = 4
    norm_num
  have hvar : (4 : ℝ) * (2 * (Real.log 2 * Real.log 2 + -Real.log 2 * -Real.log 2)) -
      2 * (Real.log 2 + -Real.log 2) * (2 * (Real.log 2 + -Real.log 2)) =
      16 * Real.log 2 ^ 2 := by ring
  have hsquare : (1 / 2 : ℝ) ^ 2 ≤ Real.log 2 ^ 2 := pow_le_pow_left₀ (by norm_num) hlarge 2
  have hpos : (4 : ℝ) ≤ 16 * Real.log 2 ^ 2 := by linarith
  have hdenom : Real.sqrt (16 * Real.log 2 ^ 2 * (16 * Real.log 2 ^ 2)) = 16 * Real.log 2 ^ 2 :=
    Real.sqrt_mul_self (by linarith)
  have hone : 16 * Real.log 2 ^ 2 / (16 * Real.log 2 ^ 2) = 1 := div_self (by linarith)
  unfold pearson
  simp only [hsum, List.length_cons, List.length_nil, Nat.reduceAdd, hm, hvar]
  have hmax : stdMax (0.0 : ℝ) (16 * Real.log 2 ^ 2) = 16 * Real.log 2 ^ 2 := by
    rw [stdMax_real, zero_real]
    exact max_eq_right (by linarith)
  have hsqrt : (DoubleSqrt.sqrt (16 * Real.log 2 ^ 2 * (16 * Real.log 2 ^ 2)) : ℝ) =
      16 * Real.log 2 ^ 2 := hdenom
  have hfinite : ∀ x : ℝ, isfinite x = true := fun _ => rfl
  have hnotsmall : ¬ 16 * Real.log 2 ^ 2 < (1e-9 : ℝ) := by
    rw [not_lt]
    refine le_trans ?_ hpos
    norm_num
  rw [hmax, hsqrt, hone]
  simp only [hfinite, Bool.not_true, Bool.false_or, decide_eq_true_eq, if_neg hnotsmall, if_true]
  rw [one_real, stdClamp_real (by norm_num)]
  norm_num

theorem alike_tradable (symbol : Symbol) :
    isTradable (analyse defaults alike (snapshotOf symbol)) = true := by
  have hstate : (analyse defaults alike (snapshotOf symbol)).tradeState =
      tradeStateOf defaults { analysed alike (snapshotOf symbol) with
        score := ⟨0.5, 1, [], []⟩
        biasConfidence := 0 } := rfl
  have hcalm : isElevated defaults { analysed alike (snapshotOf symbol) with
      score := ⟨0.5, 1, [], []⟩
      biasConfidence := 0 } = false := by
    show decide ((0.6 : ℝ) < 0) = false
    rw [decide_eq_false_iff_not]
    norm_num
  rw [isTradable, hstate, tradeStateOf, hcalm, if_neg Bool.false_ne_true]
  split_ifs <;> rfl

def pairOf : List (MarketSnapshot ℝ) := ["AAAUSDT", "BBBUSDT"].map snapshotOf

theorem chosen_pair : (chosen defaults alike byScore pairOf).Perm
    (pairOf.map (analyse defaults alike)) := by
  have hperm := byScore.perm (passing defaults alike pairOf)
  have hpassing : passing defaults alike pairOf = pairOf.map (analyse defaults alike) :=
    passing_alike _
  rw [hpassing] at hperm
  have hall : (byScore.sort (pairOf.map (analyse defaults alike))).filter isTradable =
      byScore.sort (pairOf.map (analyse defaults alike)) := by
    rw [List.filter_eq_self]
    intro a ha
    obtain ⟨snap, hsnap, rfl⟩ := List.mem_map.mp (hperm.mem_iff.mp ha)
    obtain ⟨symbol, -, rfl⟩ := List.mem_map.mp hsnap
    exact alike_tradable symbol
  have htake : (byScore.sort (pairOf.map (analyse defaults alike))).length ≤
      defaults.topN.toNat := by
    rw [hperm.length_eq]
    decide
  rw [chosen, hpassing, hall, List.take_of_length_le htake]
  exact hperm

theorem pair_correlated (a b : SymbolAnalysis ℝ Unit) (sa sb : MarketSnapshot ℝ) (hsa : sa ∈ pairOf)
    (hsb : sb ∈ pairOf) (ha : sa.symbol = a.symbol) (hb : sb.symbol = b.symbol) :
    ¬ Uncorrelated defaults pairOf a b := by
  intro h
  have hcandles : ∀ snap ∈ pairOf, snap.candles = swinging := by
    intro snap hsnap
    obtain ⟨symbol, -, rfl⟩ := List.mem_map.mp hsnap
    rfl
  have hle := h sa hsa sb hsb ha hb (by rw [hcandles sa hsa]; decide)
    (by rw [hcandles sb hsb]; decide)
  rw [hcandles sa hsa, hcandles sb hsb, swinging_correlated] at hle
  have hone : ¬ stdAbs (1 : ℝ) ≤ 0.85 := by
    rw [stdAbs, if_neg (by norm_num)]
    norm_num
  exact hone hle

/-- Of three candidates of one sector one is in neither list; two candidates whose
histories agree are both selected. -/
theorem basket_not_diversified :
    ¬ Diversified defaults alike (["AAAUSDT", "BBBUSDT", "CCCUSDT"].map snapshotOf)
        (scanOf ["AAAUSDT", "BBBUSDT", "CCCUSDT"]) ∧
      ¬ Diversified defaults alike (["AAAUSDT", "BBBUSDT"].map snapshotOf)
        (scanOf ["AAAUSDT", "BBBUSDT"]) := by
  constructor
  · intro h
    have hnone := (accounted_iff defaults alike byScore _ rfl (snapshotOf_ready _)).mp h.accounted
    rw [NoneDropped, passing_alike] at hnone
    rcases hnone with hone | hle
    · simp at hone
    · have hcount := hle _ (List.mem_cons_self)
      exact absurd hcount (by decide)
  · intro h
    have hnone := (accounted_iff defaults alike byScore _ rfl (snapshotOf_ready _)).mp h.accounted
    have htop := scan_topPairs defaults alike byScore pairOf rfl (snapshotOf_ready _)
    rw [(basket_kept_iff defaults alike byScore pairOf).mpr hnone] at htop
    have huncorrelated : (chosen defaults alike byScore pairOf).Pairwise
        (Uncorrelated defaults pairOf) := by
      rw [chosen, ← htop]
      exact h.uncorrelated
    have hlen : (chosen defaults alike byScore pairOf).length = 2 := chosen_pair.length_eq
    have hfirst := List.pairwise_iff_getElem.mp huncorrelated 0 1 (by omega) (by omega)
      Nat.zero_lt_one
    have hsource : ∀ a ∈ chosen defaults alike byScore pairOf, ∃ snap ∈ pairOf,
        snap.symbol = a.symbol := by
      intro a ha
      obtain ⟨snap, hsnap, rfl⟩ := List.mem_map.mp (chosen_pair.mem_iff.mp ha)
      exact ⟨snap, hsnap, rfl⟩
    obtain ⟨sa, hsa, ha⟩ := hsource _ (List.getElem_mem _)
    obtain ⟨sb, hsb, hb⟩ := hsource _ (List.getElem_mem _)
    exact pair_correlated _ _ sa sb hsa hsb ha hb hfirst

theorem diversified_iff_alike :
    Diversified defaults alike (["AAAUSDT", "BBBUSDT"].map snapshotOf)
        (scanCandidates defaults alike byScore (["AAAUSDT", "BBBUSDT"].map snapshotOf)) ↔
      0 ≤ defaults.topN ∧ NoneDropped defaults alike (["AAAUSDT", "BBBUSDT"].map snapshotOf) ∧
      (((chosen defaults alike byScore (["AAAUSDT", "BBBUSDT"].map snapshotOf)).length : ℤ) ≤
          defaults.maxPairsPerSector ∨
        1 < (passing defaults alike (["AAAUSDT", "BBBUSDT"].map snapshotOf)).length) ∧
      (chosen defaults alike byScore (["AAAUSDT", "BBBUSDT"].map snapshotOf)).Pairwise
        (Uncorrelated defaults (["AAAUSDT", "BBBUSDT"].map snapshotOf)) :=
  diversified_iff defaults alike byScore _ rfl (snapshotOf_ready _)

end Counterexample

end TB.BasketSelection
