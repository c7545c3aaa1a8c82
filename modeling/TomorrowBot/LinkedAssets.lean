import Mathlib.Analysis.Complex.ExponentialBounds
import TomorrowBot.CorrelationMonitor

/-!
# Assets that move together

A correlation is one where the joined returns are on one line. That is so when the
same number of ticks of proportional prices was taken in from both feeds; a feed
that is one tick behind is joined with the returns of other moves.
-/

set_option autoImplicit false

namespace TB.CorrelationMonitor
open TB.CommonTypes TB.Numeric SampleMoments RecentEntries

section Pearson
variable {x y : List ℝ} {window : ℕ}

theorem momentsOf_real (zs : List (ℝ × ℝ)) :
    momentsOf (fun k : ℕ => (ofInt k : ℝ)) 0.0 zs = momentsOf Nat.cast 0 zs := by
  have hnum : (fun k : ℕ => (ofInt k : ℝ)) = Nat.cast := by
    funext k
    exact Int.cast_natCast k
  rw [hnum, zero_real]

/-- A clamped quotient is one where the numerator is not less than the divisor. -/
theorem clamp_eq_one_iff {num den : ℝ} (h : 0 < den) :
    stdClamp (num / den) (-1.0) 1.0 = 1 ↔ den ≤ num := by
  have hone : (1.0 : ℝ) = 1 := one_real
  rw [hone, stdClamp_real (by norm_num), ← one_le_div h]
  constructor
  · intro hmax
    by_contra hless
    have hmin : min (num / den) 1 < 1 := (min_le_left _ _).trans_lt (not_le.mp hless)
    exact absurd hmax (max_lt (by norm_num) hmin).ne
  · intro hge
    rw [min_eq_right hge]
    norm_num

theorem sqrt_div_mul (a b : ℝ) {n : ℝ} (hn : 0 < n) (ha : 0 ≤ a) (hb : 0 ≤ b) :
    √(a / n) * √(b / n) = √a * √b / n := by
  rw [Real.sqrt_div ha, Real.sqrt_div hb, div_mul_div_comm, Real.mul_self_sqrt hn.le]

/-- A correlation that is defined is one where the joined returns are on a line. -/
theorem pearson_one_iff {r : ℝ} (h : computePearson x y window = some r) :
    r = 1 ↔ OnLine Prod.fst Prod.snd (joined x y window) := by
  unfold computePearson at h
  extract_lets n m dn varX varY at h
  split_ifs at h with hfew hflat
  obtain ⟨corr, hcorr, rfl⟩ := Option.map_eq_some_iff.mp h
  obtain ⟨-, -, -, hxx, hyy, hxy⟩ := momentsOf_spec (joined x y window)
  have hm : m = momentsOf Nat.cast 0 (joined x y window) := momentsOf_real _
  have hn : 0 < dn := by
    have hpos : 0 < n := by omega
    show (0 : ℝ) < ((n : ℤ) : ℝ)
    exact_mod_cast hpos
  have heps : (0 : ℝ) < kEpsilon := kEpsilon_pos
  obtain ⟨hvarX, hvarY⟩ := not_or.mp hflat
  have hposX : 0 < varX := heps.trans (not_le.mp hvarX)
  have hposY : 0 < varY := heps.trans (not_le.mp hvarY)
  have hX : 0 < comoment Prod.fst Prod.fst (joined x y window) := by
    rw [← hxx, ← hm]
    exact (div_pos_iff_of_pos_right hn).mp hposX
  have hY : 0 < comoment Prod.snd Prod.snd (joined x y window) := by
    rw [← hyy, ← hm]
    exact (div_pos_iff_of_pos_right hn).mp hposY
  have hden : 0 < √varX * √varY := mul_pos (Real.sqrt_pos.mpr hposX) (Real.sqrt_pos.mpr hposY)
  have hquotient : corr = m.cov / dn / (√varX * √varY) := by
    unfold quotient at hcorr
    split_ifs at hcorr
    exact (Option.some.inj hcorr).symm
  have hmoments : varX = comoment Prod.fst Prod.fst (joined x y window) / dn ∧
      varY = comoment Prod.snd Prod.snd (joined x y window) / dn := by
    rw [← hxx, ← hyy, ← hm]
    exact ⟨rfl, rfl⟩
  rw [← onLine_iff _ _ _ hX hY, hquotient, clamp_eq_one_iff hden, hmoments.1, hmoments.2,
    sqrt_div_mul _ _ hn hX.le hY.le, div_le_div_iff_of_pos_right hn, hm, hxy]

end Pearson

section Snapshots
variable {cfg : CorrelationConfig ℝ} {s : MonitorState ℝ}

def Perfect (snap : CorrelationSnapshot ℝ) : Prop :=
  snap.shortCorrelation = some 1 ∧ snap.longCorrelation = some 1 ∧
    snap.decorrelated = false ∧ snap.correlationBreak = false

def Linked (cfg : CorrelationConfig ℝ) (s : MonitorState ℝ) (asset : String) : Prop :=
  OnLine Prod.fst Prod.snd (joined s.primaryReturns (s.referenceReturns asset) cfg.windowShort) ∧
    OnLine Prod.fst Prod.snd (joined s.primaryReturns (s.referenceReturns asset) cfg.windowLong)

def UsualThresholds (cfg : CorrelationConfig ℝ) : Prop :=
  cfg.decorrelationThreshold ≤ 1 ∧ 0 ≤ cfg.correlationBreakThreshold

theorem stdAbs_one : stdAbs (1 : ℝ) = 1 := if_neg (by norm_num)

theorem stdAbs_zero : stdAbs (0 : ℝ) = 0 := if_neg (lt_irrefl 0)

/-- A snapshot that is valid was made of two correlations that are defined. -/
theorem snapshot_cases {ts : ℤ} {asset : String}
    (h : (snapshotOf cfg s ts asset).1.valid = true) : ∃ sc lc,
      computePearson s.primaryReturns (s.referenceReturns asset) cfg.windowShort = some sc ∧
      computePearson s.primaryReturns (s.referenceReturns asset) cfg.windowLong = some lc ∧
      (snapshotOf cfg s ts asset).1 = ⟨asset, some sc, some lc, sc - lc,
        decide (stdAbs sc < cfg.decorrelationThreshold),
        decide (cfg.correlationBreakThreshold < stdAbs (sc - lc)), true, false⟩ := by
  unfold snapshotOf at h ⊢
  split_ifs at h ⊢
  · exact nomatch h
  · exact nomatch h
  · cases hsc : computePearson s.primaryReturns (s.referenceReturns asset) cfg.windowShort with
    | none =>
      simp only [hsc] at h
      exact nomatch h
    | some sc =>
      cases hlc : computePearson s.primaryReturns (s.referenceReturns asset) cfg.windowLong with
      | none =>
        simp only [hsc, hlc] at h
        exact nomatch h
      | some lc => exact ⟨sc, lc, rfl, rfl, rfl⟩

theorem snapshot_perfect_iff {ts : ℤ} {asset : String}
    (h : (snapshotOf cfg s ts asset).1.valid = true) :
    Perfect (snapshotOf cfg s ts asset).1 ↔ Linked cfg s asset ∧ UsualThresholds cfg := by
  obtain ⟨sc, lc, hsc, hlc, hsnap⟩ := snapshot_cases h
  unfold Linked
  rw [hsnap, ← pearson_one_iff hsc, ← pearson_one_iff hlc]
  unfold Perfect UsualThresholds
  simp only [Option.some.injEq, decide_eq_false_iff_not, not_lt]
  constructor
  · rintro ⟨rfl, rfl, hweak, hbreak⟩
    rw [stdAbs_one] at hweak
    rw [sub_self, stdAbs_zero] at hbreak
    exact ⟨⟨rfl, rfl⟩, hweak, hbreak⟩
  · rintro ⟨⟨rfl, rfl⟩, hweak, hbreak⟩
    rw [stdAbs_one, sub_self, stdAbs_zero]
    exact ⟨rfl, rfl, hweak, hbreak⟩

def Kept (cfg : CorrelationConfig ℝ) (s : MonitorState ℝ) : Prop :=
  ∀ r, s.cache = some r → ∃ ts, r = computeResult cfg s ts

theorem evaluate_result (h : Kept cfg s) (now : ℤ) :
    ∃ ts, (evaluate cfg s now).1 = computeResult cfg s ts := by
  unfold evaluate
  split
  · rename_i r hr
    split_ifs
    · exact ⟨now, rfl⟩
    · exact h r hr
  · exact ⟨now, rfl⟩

theorem evaluate_kept (h : Kept cfg s) (now : ℤ) : Kept cfg (evaluate cfg s now).2 := by
  unfold evaluate
  split
  · rename_i r hr
    split_ifs
    · exact fun r' hr' => ⟨now, (Option.some.inj hr').symm⟩
    · exact h
  · exact fun r' hr' => ⟨now, (Option.some.inj hr').symm⟩

theorem step_kept (h : Kept cfg s) (e : MonitorEvent ℝ) : Kept cfg (step cfg s e) := by
  cases e with
  | primary price now =>
    simp only [step, onPrimaryTick]
    split_ifs
    · exact fun r hr => nomatch hr
    · exact h
  | reference asset price now =>
    simp only [step, onReferenceTick]
    split_ifs
    · exact fun r hr => nomatch hr
    · exact h
  | evaluate now => exact evaluate_kept h now

theorem run_kept (cfg : CorrelationConfig ℝ) (es : List (MonitorEvent ℝ)) : Kept cfg (run cfg es) := by
  induction es using List.reverseRecOn with
  | nil => exact fun r hr => nomatch hr
  | append_singleton es e ih =>
    rw [run, List.foldl_append]
    exact step_kept ih e

end Snapshots

section Buffers
variable (cfg : CorrelationConfig ℝ)

noncomputable def acceptedPrimary : MonitorEvent ℝ → Option ℝ
  | .primary price _ => if IsValidPrice price then some price else none
  | _ => none

noncomputable def acceptedReference (asset : String) : MonitorEvent ℝ → Option ℝ
  | .reference a price _ =>
    if a = asset ∧ IsValidPrice price ∧ a ≠ "" then some price else none
  | _ => none

noncomputable def pushPrice (b : List ℝ × ℝ) (price : ℝ) : List ℝ × ℝ :=
  (pushReturn cfg b.1 b.2 price, price)

noncomputable def bufferOf (prices : List ℝ) : List ℝ × ℝ :=
  prices.foldl (pushPrice cfg) ([], 0)

theorem bufferOf_concat (prices : List ℝ) (p : ℝ) :
    bufferOf cfg (prices ++ [p]) = pushPrice cfg (bufferOf cfg prices) p := by
  simp [bufferOf]

theorem evaluate_buffers (s : MonitorState ℝ) (now : ℤ) :
    (evaluate cfg s now).2 = { s with cache := (evaluate cfg s now).2.cache } := by
  unfold evaluate
  split
  · split_ifs <;> rfl
  · rfl

theorem run_concat (es : List (MonitorEvent ℝ)) (e : MonitorEvent ℝ) :
    run cfg (es ++ [e]) = step cfg (run cfg es) e := by
  simp [run]

theorem run_primary (es : List (MonitorEvent ℝ)) :
    ((run cfg es).primaryReturns, (run cfg es).lastPrimaryPrice) =
      bufferOf cfg (es.filterMap acceptedPrimary) := by
  induction es using List.reverseRecOn with
  | nil => exact congrArg (Prod.mk _) zero_real
  | append_singleton es e ih =>
    rw [run_concat, List.filterMap_append]
    cases e with
    | primary price now =>
      by_cases hvalid : IsValidPrice price
      · have hone : [MonitorEvent.primary price now].filterMap acceptedPrimary = [price] := by
          simp [acceptedPrimary, hvalid]
        rw [hone, bufferOf_concat, ← ih, step, onPrimaryTick, if_pos hvalid]
        rfl
      · have hnone : [MonitorEvent.primary price now].filterMap acceptedPrimary = [] := by
          simp [acceptedPrimary, hvalid]
        rw [hnone, List.append_nil, ← ih, step, onPrimaryTick, if_neg hvalid]
    | reference asset price now =>
      have hnone : [MonitorEvent.reference asset price now].filterMap acceptedPrimary = [] := rfl
      rw [hnone, List.append_nil, ← ih, step, onReferenceTick]
      split_ifs <;> rfl
    | evaluate now =>
      have hnone : [(MonitorEvent.evaluate now : MonitorEvent ℝ)].filterMap acceptedPrimary = [] :=
        rfl
      rw [hnone, List.append_nil, ← ih, step, evaluate_buffers]

theorem run_reference (asset : String) (es : List (MonitorEvent ℝ)) :
    ((run cfg es).referenceReturns asset, (run cfg es).lastReferencePrices asset) =
      bufferOf cfg (es.filterMap (acceptedReference asset)) := by
  induction es using List.reverseRecOn with
  | nil => exact congrArg (Prod.mk _) zero_real
  | append_singleton es e ih =>
    rw [run_concat, List.filterMap_append]
    cases e with
    | primary price now =>
      have hnone : [MonitorEvent.primary price now].filterMap (acceptedReference asset) = [] := rfl
      rw [hnone, List.append_nil, ← ih, step, onPrimaryTick]
      split_ifs <;> rfl
    | reference a price now =>
      by_cases hvalid : IsValidPrice price ∧ a ≠ ""
      · rcases eq_or_ne a asset with rfl | hne
        · have hone : [MonitorEvent.reference a price now].filterMap (acceptedReference a) =
              [price] := by
            simp [acceptedReference, hvalid]
          rw [hone, bufferOf_concat, ← ih, step, onReferenceTick, if_pos hvalid]
          simp only [Function.update_self]
          rfl
        · have hnone : [MonitorEvent.reference a price now].filterMap (acceptedReference asset) =
              [] := by
            simp [acceptedReference, hne]
          rw [hnone, List.append_nil, ← ih, step, onReferenceTick, if_pos hvalid]
          simp only [Function.update_of_ne hne.symm]
      · have hnone : [MonitorEvent.reference a price now].filterMap (acceptedReference asset) =
            [] := by
          simp only [acceptedReference, List.filterMap_cons, List.filterMap_nil,
            if_neg (fun h : a = asset ∧ IsValidPrice price ∧ a ≠ "" => hvalid h.2)]
        rw [hnone, List.append_nil, ← ih, step, onReferenceTick, if_neg hvalid]
    | evaluate now =>
      have hnone : [(MonitorEvent.evaluate now : MonitorEvent ℝ)].filterMap
          (acceptedReference asset) = [] := rfl
      rw [hnone, List.append_nil, ← ih, step, evaluate_buffers]

/-- The returns do not depend on the unit of the prices. -/
theorem bufferOf_scaled {c : ℝ} (hc : 0 < c) (prices : List ℝ) :
    bufferOf cfg (prices.map (c * ·)) =
      ((bufferOf cfg prices).1, c * (bufferOf cfg prices).2) := by
  induction prices using List.reverseRecOn with
  | nil => simp [bufferOf]
  | append_singleton prices p ih =>
    have hratio (last : ℝ) : c * p / (c * last) = p / last := mul_div_mul_left _ _ hc.ne'
    rw [List.map_append, List.map_singleton, bufferOf_concat, ih, bufferOf_concat]
    simp only [pushPrice, pushReturn, zero_real, mul_pos_iff_of_pos_left hc, hratio]

theorem joined_self_onLine (x : List ℝ) (window : ℕ) :
    OnLine Prod.fst Prod.snd (joined x x window) := by
  refine ⟨1, one_pos, 0, fun z hz => ?_⟩
  have hself : ∀ l : List ℝ, l.zip l = l.map (fun a => (a, a)) := fun l => List.zipWith_self
  rw [joined, hself] at hz
  obtain ⟨a, -, rfl⟩ := List.mem_map.mp hz
  ring

/-- As many ticks of proportional prices on either side are linked. -/
theorem linked_of_proportional {asset : String} {es : List (MonitorEvent ℝ)} {c : ℝ} (hc : 0 < c)
    (h : es.filterMap (acceptedReference asset) =
      (es.filterMap acceptedPrimary).map (c * ·)) : Linked cfg (run cfg es) asset := by
  have hprimary := congrArg Prod.fst (run_primary cfg es)
  have hreference := congrArg Prod.fst (run_reference cfg asset es)
  rw [h, bufferOf_scaled cfg hc] at hreference
  have hsame : (run cfg es).referenceReturns asset = (run cfg es).primaryReturns :=
    hreference.trans hprimary.symm
  unfold Linked
  rw [hsame]
  exact ⟨joined_self_onLine _ _, joined_self_onLine _ _⟩

/-- A valid snapshot is perfect exactly where the joined returns are on a line, which they
are when as many ticks of proportional prices were taken in on either side. -/
theorem perfect_iff (es : List (MonitorEvent ℝ)) (now : ℤ) (snap : CorrelationSnapshot ℝ)
    (hmem : snap ∈ (evaluate cfg (run cfg es) now).1.snapshots) (hvalid : snap.valid = true) :
    (Perfect snap ↔ Linked cfg (run cfg es) snap.referenceAsset ∧ UsualThresholds cfg) ∧
      ∀ c > 0, es.filterMap (acceptedReference snap.referenceAsset) =
        (es.filterMap acceptedPrimary).map (c * ·) →
          Linked cfg (run cfg es) snap.referenceAsset := by
  refine ⟨?_, fun c hc h => linked_of_proportional cfg hc h⟩
  obtain ⟨ts, hresult⟩ := evaluate_result (run_kept cfg es) now
  rw [hresult] at hmem
  obtain ⟨pair, hpair, rfl⟩ := List.mem_map.mp hmem
  obtain ⟨asset, -, rfl⟩ := List.mem_map.mp hpair
  have hname : (snapshotOf cfg (run cfg es) ts asset).1.referenceAsset = asset := by
    obtain ⟨sc, lc, -, -, hsnap⟩ := snapshot_cases hvalid
    rw [hsnap]
  rw [hname]
  exact snapshot_perfect_iff hvalid

end Buffers

section Sample

/-- The ticks of two linked assets: the reference tick of a price comes after the primary
one, and before the primary tick that is the second from it. -/
def Interleaved (p : ℕ → ℝ) (c : ℝ) (asset : String) : ℕ → ℕ → List (MonitorEvent ℝ) → Prop
  | _, _, [] => True
  | m, k, .primary price _ :: es =>
    price = p m ∧ m ≤ k + 1 ∧ Interleaved p c asset (m + 1) k es
  | m, k, .reference a price _ :: es =>
    (a = asset → price = c * p k ∧ k < m) ∧
      Interleaved p c asset m (if a = asset then k + 1 else k) es
  | m, k, .evaluate _ :: es => Interleaved p c asset m k es

noncomputable def zigzag (i : ℕ) : ℝ := if i % 2 = 0 then 1 else Real.exp 1

noncomputable def zigzagTicks : List (MonitorEvent ℝ) :=
  (List.range 7).flatMap
    (fun i => [.primary (zigzag i) 1, .reference "BTCUSDT" (zigzag i) 1]) ++
      [.primary (zigzag 7) 1]

theorem zigzag_valid (i : ℕ) : IsValidPrice (zigzag i) := by
  have hlow := Real.add_one_le_exp (1 : ℝ)
  have hhigh := Real.exp_one_lt_three
  unfold IsValidPrice zigzag
  split_ifs
  · exact ⟨rfl, by norm_num [kMinValidPrice], by norm_num [kMaxReasonablePrice]⟩
  · refine ⟨rfl, ?_, ?_⟩
    · norm_num [kMinValidPrice]
      linarith
    · norm_num [kMaxReasonablePrice]
      linarith

theorem zigzag_interleaved : Interleaved zigzag 1 "BTCUSDT" 0 0 zigzagTicks := by
  simp [zigzagTicks, Interleaved, List.range, List.range.loop]

theorem zigzag_up {r : List ℝ} (h : r.length < 110) :
    pushPrice defaultConfig (r, 1) (Real.exp 1) = (r ++ [1], Real.exp 1) := by
  have hpos := Real.exp_pos 1
  have hlog : safeLog (Real.exp 1) = 1 := by
    rw [safeLog, zero_real, if_neg (by simp [isfinite, hpos])]
    exact Real.log_exp 1
  have hkept : (r ++ [(1 : ℝ)]).rtake 110 = r ++ [1] := by
    apply rtake_of_length_le
    rw [List.length_append, List.length_singleton]
    omega
  unfold pushPrice pushReturn
  rw [zero_real, if_pos ⟨one_pos, hpos⟩, div_one, hlog]
  exact congrArg (·, Real.exp 1) hkept

theorem zigzag_down {r : List ℝ} (h : r.length < 110) :
    pushPrice defaultConfig (r, Real.exp 1) 1 = (r ++ [-1], 1) := by
  have hpos := Real.exp_pos 1
  have hlog : safeLog (1 / Real.exp 1) = -1 := by
    rw [safeLog, zero_real, if_neg (by simp [isfinite, hpos]), one_div, ← Real.exp_neg]
    exact Real.log_exp (-1)
  have hkept : (r ++ [(-1 : ℝ)]).rtake 110 = r ++ [-1] := by
    apply rtake_of_length_le
    rw [List.length_append, List.length_singleton]
    omega
  unfold pushPrice pushReturn
  rw [zero_real, if_pos ⟨hpos, one_pos⟩, hlog]
  exact congrArg (·, (1 : ℝ)) hkept

theorem zigzag_start : pushPrice defaultConfig ([], 0) 1 = ([], 1) := by
  simp [pushPrice, pushReturn, zero_real]

theorem accepted_zigzag (i : ℕ) : acceptedPrimary (.primary (zigzag i) 1) = some (zigzag i) ∧
    acceptedPrimary (.reference "BTCUSDT" (zigzag i) 1) = none ∧
    acceptedReference "BTCUSDT" (.reference "BTCUSDT" (zigzag i) 1) = some (zigzag i) ∧
    acceptedReference "BTCUSDT" (.primary (zigzag i) 1) = none :=
  ⟨if_pos (zigzag_valid i), rfl, if_pos ⟨rfl, zigzag_valid i, by decide⟩, rfl⟩

theorem zigzag_buffers :
    (run defaultConfig zigzagTicks).primaryReturns = [1, -1, 1, -1, 1, -1, 1] ∧
      (run defaultConfig zigzagTicks).referenceReturns "BTCUSDT" = [1, -1, 1, -1, 1, -1] := by
  have hprimary : zigzagTicks.filterMap acceptedPrimary =
      [1, Real.exp 1, 1, Real.exp 1, 1, Real.exp 1, 1, Real.exp 1] := by
    simp only [zigzagTicks, List.range, List.range.loop, List.flatMap_cons, List.flatMap_nil,
      List.cons_append, List.nil_append, List.filterMap_cons, List.filterMap_nil, accepted_zigzag]
    simp [zigzag]
  have hreference : zigzagTicks.filterMap (acceptedReference "BTCUSDT") =
      [1, Real.exp 1, 1, Real.exp 1, 1, Real.exp 1, 1] := by
    simp only [zigzagTicks, List.range, List.range.loop, List.flatMap_cons, List.flatMap_nil,
      List.cons_append, List.nil_append, List.filterMap_cons, List.filterMap_nil, accepted_zigzag]
    simp [zigzag]
  have hbuffer := congrArg Prod.fst (run_primary defaultConfig zigzagTicks)
  have hbuffer' := congrArg Prod.fst (run_reference defaultConfig "BTCUSDT" zigzagTicks)
  rw [hprimary] at hbuffer
  rw [hreference] at hbuffer'
  simp [bufferOf, zigzag_start, zigzag_up, zigzag_down] at hbuffer hbuffer'
  exact ⟨hbuffer, hbuffer'⟩

theorem zigzag_pearson (window : ℕ) (h : 6 ≤ window) :
    computePearson [1, -1, 1, -1, 1, -1, 1] ([1, -1, 1, -1, 1, -1] : List ℝ) window =
      some (-1) := by
  have hn : min (min ([1, -1, 1, -1, 1, -1, 1] : List ℝ).length
      ([1, -1, 1, -1, 1, -1] : List ℝ).length) window = 6 := by
    show min (min 7 6) window = 6
    omega
  have hjoined : joined [1, -1, 1, -1, 1, -1, 1] ([1, -1, 1, -1, 1, -1] : List ℝ) window =
      [(-1, 1), (1, -1), (-1, 1), (1, -1), (-1, 1), (1, -1)] := by
    simp only [joined, hn]
    rfl
  obtain ⟨-, -, -, hxx, hyy, hxy⟩ :=
    momentsOf_spec [((-1 : ℝ), (1 : ℝ)), (1, -1), (-1, 1), (1, -1), (-1, 1), (1, -1)]
  have hsix : (ofInt ((6 : ℕ) : ℤ) : ℝ) = 6 := by
    show (((6 : ℕ) : ℤ) : ℝ) = 6
    norm_num
  simp only [computePearson, hn, hjoined, momentsOf_real, hxx, hyy, hxy, hsix]
  norm_num [comoment, total, kEpsilon, DoubleSqrt.sqrt, quotient, stdAbs, stdClamp, isfinite]

theorem zigzag_last : ∃ s : MonitorState ℝ, run defaultConfig zigzagTicks =
    onPrimaryTick defaultConfig
      (onReferenceTick defaultConfig s "BTCUSDT" (zigzag 6) 1) (zigzag 7) 1 := by
  refine ⟨run defaultConfig ((List.range 6).flatMap
    (fun i => [.primary (zigzag i) 1, .reference "BTCUSDT" (zigzag i) 1]) ++
      [.primary (zigzag 6) 1]), ?_⟩
  have hsplit : List.range 7 = List.range 6 ++ [6] := List.range_succ
  rw [zigzagTicks, hsplit, List.flatMap_append]
  simp only [run, List.foldl_append, List.flatMap_cons, List.flatMap_nil, List.foldl_cons,
    List.foldl_nil, step]

theorem zigzag_fresh :
    isStale (run (defaultConfig : CorrelationConfig ℝ) zigzagTicks).lastPrimaryTickNs 1
        5000000000 = false ∧
      isStale ((run (defaultConfig : CorrelationConfig ℝ) zigzagTicks).lastReferenceTickNs
        "BTCUSDT") 1 5000000000 = false ∧
      (run (defaultConfig : CorrelationConfig ℝ) zigzagTicks).cache = none := by
  obtain ⟨s, hs⟩ := zigzag_last
  rw [hs, onPrimaryTick, if_pos (zigzag_valid 7), onReferenceTick,
    if_pos ⟨zigzag_valid 6, by decide⟩]
  simp only [Function.update_self]
  decide

/-- The snapshot after the last primary tick is valid, and its correlations are minus one. -/
theorem zigzag_snapshot : ∃ snap ∈
    (evaluate defaultConfig (run defaultConfig zigzagTicks) 1).1.snapshots,
      snap.valid = true ∧ snap.referenceAsset = "BTCUSDT" ∧ snap.shortCorrelation = some (-1) := by
  obtain ⟨hprimary, hreference⟩ := zigzag_buffers
  obtain ⟨-, hfresh, hcache⟩ := zigzag_fresh
  have hresult : (evaluate defaultConfig (run defaultConfig zigzagTicks) 1).1 =
      computeResult (defaultConfig : CorrelationConfig ℝ) (run defaultConfig zigzagTicks) 1 := by
    rw [evaluate, hcache]
  have hsnap : (snapshotOf (defaultConfig : CorrelationConfig ℝ)
      (run defaultConfig zigzagTicks) 1 "BTCUSDT").1 = ⟨"BTCUSDT", some (-1), some (-1), -1 - -1,
        decide (stdAbs (-1) < (defaultConfig : CorrelationConfig ℝ).decorrelationThreshold),
        decide ((defaultConfig : CorrelationConfig ℝ).correlationBreakThreshold <
          stdAbs (-1 - -1)), true, false⟩ := by
    have hstale : ¬ isStale ((run (defaultConfig : CorrelationConfig ℝ)
        zigzagTicks).lastReferenceTickNs "BTCUSDT") 1
          (defaultConfig : CorrelationConfig ℝ).staleThresholdNs = true :=
      Bool.eq_false_iff.mp hfresh
    have hpearson (window : ℕ) (h : 6 ≤ window) :
        computePearson (run defaultConfig zigzagTicks).primaryReturns
          ((run defaultConfig zigzagTicks).referenceReturns "BTCUSDT") window = some (-1) := by
      rw [hprimary, hreference]
      exact zigzag_pearson window h
    have hshort := hpearson (defaultConfig : CorrelationConfig ℝ).windowShort (by decide)
    have hlong := hpearson (defaultConfig : CorrelationConfig ℝ).windowLong (by decide)
    rw [snapshotOf, if_neg hstale, if_neg (by rw [hprimary, hreference]; decide)]
    simp only [hshort, hlong]
  rw [hresult]
  exact ⟨_, List.mem_map_of_mem List.mem_cons_self, by rw [hsnap], by rw [hsnap], by rw [hsnap]⟩

theorem zigzag_perfect_iff : ∃ snap ∈
    (evaluate defaultConfig (run defaultConfig zigzagTicks) 1).1.snapshots,
      snap.valid = true ∧
        (Perfect snap ↔ Linked defaultConfig (run defaultConfig zigzagTicks)
          snap.referenceAsset ∧ UsualThresholds defaultConfig) := by
  obtain ⟨snap, hmem, hvalid, -, -⟩ := zigzag_snapshot
  exact ⟨snap, hmem, hvalid, (perfect_iff defaultConfig zigzagTicks 1 snap hmem hvalid).1⟩

/-- A reference feed that is one tick behind has a correlation that is not one. -/
theorem lagged_imperfect : ¬ ∀ (cfg : CorrelationConfig ℝ) (p : ℕ → ℝ) (c : ℝ) (asset : String)
    (es : List (MonitorEvent ℝ)) (now : ℤ), (∀ i, 0 < p i) → 0 < c →
    Interleaved p c asset 0 0 es →
    isStale (run cfg es).lastPrimaryTickNs now cfg.staleThresholdNs = false →
    isStale ((run cfg es).lastReferenceTickNs asset) now cfg.staleThresholdNs = false →
    ∀ snap ∈ (evaluate cfg (run cfg es) now).1.snapshots, snap.referenceAsset = asset →
      snap.valid = true → Perfect snap := by
  intro hall
  obtain ⟨snap, hmem, hvalid, hasset, hshort⟩ := zigzag_snapshot
  have hpos : ∀ i, 0 < zigzag i := by
    intro i
    have hmin : (0 : ℝ) < kMinValidPrice := by norm_num [kMinValidPrice]
    exact hmin.trans (zigzag_valid i).2.1
  have hperfect := hall defaultConfig zigzag 1 "BTCUSDT" zigzagTicks 1 hpos one_pos
    zigzag_interleaved zigzag_fresh.1 zigzag_fresh.2.1 snap hmem hasset hvalid
  have hone := hshort.symm.trans hperfect.1
  norm_num at hone

end Sample

end TB.CorrelationMonitor
