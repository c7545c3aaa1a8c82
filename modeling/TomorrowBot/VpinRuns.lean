import TomorrowBot.VpinVolume

/-!
# The volume counted over a run of trades

The first nine trades are only calibrated on. From the tenth on, the buckets
account for every trade, with the target as it is estimated on the way.
-/

set_option autoImplicit false

namespace TB.Vpin
open TB.CommonTypes RecentEntries

section Accounting
variable {numBuckets : ℕ} {ts : List (Trade ℚ)}

structure Accounts (numBuckets : ℕ) (ts : List (Trade ℚ)) (s : Buckets ℚ) : Prop where
  filled : Filled numBuckets s
  bought : bought s = (ts.map buyOf).sum
  sold : sold s = (ts.map sellOf).sum

theorem fillBucket_accounts {s : Buckets ℚ} (hs : Accounts numBuckets ts s) {t : Trade ℚ}
    (ht : 0 < t.volume) : ∃ bound r, (∀ fuel ≥ bound, fillBucket fuel numBuckets s t = some r) ∧
      Accounts numBuckets (ts ++ [t]) r := by
  obtain ⟨bound, r, hr⟩ := fillBucket_returns hs.filled ht
  obtain ⟨hfilled, hbought, hsold⟩ := fillBucket_spec hs.filled ht (hr bound le_rfl)
  refine ⟨bound, r, hr, hfilled, ?_, ?_⟩
  · rw [hbought, hs.bought, List.map_append, List.sum_append]
    simp
  · rw [hsold, hs.sold, List.map_append, List.sum_append]
    simp

theorem started_accounts (numBuckets : ℕ) {target : ℚ} (ht : 0 < target) :
    Accounts numBuckets [] { newBuckets with target := target } := by
  refine ⟨⟨ht, ?_, ?_, ?_, ?_⟩, ?_, ?_⟩
  · constructor <;> norm_num [newBuckets, emptyBucket]
  · intro c hc
    exact absurd hc List.not_mem_nil
  · exact (rtake_of_length_le (Nat.zero_le _)).symm
  · constructor <;> norm_num [newBuckets]
  · norm_num [bought, newBuckets, emptyBucket]
  · norm_num [sold, newBuckets, emptyBucket]

end Accounting

theorem ofInt_pos {n : ℕ} (h : 0 < n) : (0 : ℚ) < ofInt n := by
  show (0 : ℚ) < ((n : ℤ) : ℚ)
  exact_mod_cast h

section Runs
variable {cfg : VpinConfig ℚ} {ts : List (Trade ℚ)} {s : VpinState ℚ} {t : Trade ℚ}

theorem recentAvg_pos {bs : List (VolumeBucket ℚ)} (hne : bs ≠ [])
    (h : ∀ b ∈ bs, 0 < b.totalVolume) : 0 < recentAvg bs := by
  have hlen : 0 < bs.length := List.length_pos_iff.mpr hne
  have hcount : 0 < min 10 bs.length := lt_min (by norm_num) hlen
  have hrecent : (bs.drop (bs.length - min 10 bs.length)).map VolumeBucket.totalVolume ≠ [] := by
    rw [Ne, List.map_eq_nil_iff, List.drop_eq_nil_iff]
    omega
  have hsum : 0 < ((bs.drop (bs.length - min 10 bs.length)).map VolumeBucket.totalVolume).sum := by
    apply List.sum_pos _ _ hrecent
    intro x hx
    obtain ⟨b, hb, rfl⟩ := List.mem_map.mp hx
    exact h b (List.mem_of_mem_drop hb)
  rw [recentAvg, foldl_volumes]
  exact div_pos hsum (ofInt_pos hcount)

theorem recalibrate_accounts {b : Buckets ℚ} {n : ℕ} (h0 : 0 ≤ cfg.adaptiveBlend)
    (h1 : cfg.adaptiveBlend ≤ 1) (hb : Accounts cfg.numBuckets ts b) :
    Accounts cfg.numBuckets ts (recalibrate cfg n b) := by
  unfold recalibrate
  split_ifs with hc
  · refine ⟨⟨?_, hb.filled.current, hb.filled.whole, hb.filled.kept, hb.filled.vpin⟩,
      hb.bought, hb.sold⟩
    have hrecent : 0 < recentAvg b.buckets :=
      recentAvg_pos hc.2.2 (fun x hx => (divided_kept hb.filled hx).2)
    have ht := hb.filled.target
    show 0 < ((1.0 : ℚ) - cfg.adaptiveBlend) * b.target +
      cfg.adaptiveBlend * recentAvg b.buckets
    norm_num
    rcases h0.eq_or_lt with hzero | hpos
    · rw [← hzero]
      linarith
    · exact add_pos_of_nonneg_of_pos (mul_nonneg (sub_nonneg.mpr h1) ht.le)
        (mul_pos hpos hrecent)
  · exact hb

theorem fillAdaptive_accounts (h0 : 0 ≤ cfg.adaptiveBlend) (h1 : cfg.adaptiveBlend ≤ 1)
    (hinterval : cfg.enableAdaptive = true → 0 < cfg.adaptiveRecalInterval)
    (hs : cfg.enableAdaptive = true → Accounts cfg.numBuckets ts s.adaptive)
    (ht : 0 < t.volume) : ∃ bound r, (∀ fuel ≥ bound, fillAdaptive cfg fuel s t = some r) ∧
      (cfg.enableAdaptive = true → Accounts cfg.numBuckets (ts ++ [t]) r) := by
  cases h : cfg.enableAdaptive with
  | false =>
    refine ⟨0, s.adaptive, fun fuel _ => ?_, fun hf => nomatch hf⟩
    rw [fillAdaptive, if_pos h]
  | true =>
    obtain ⟨bound, r, hr, hacc⟩ := fillBucket_accounts
      (recalibrate_accounts (n := s.tradeCount) h0 h1 (hs h)) ht
    refine ⟨bound, r, fun fuel hfuel => ?_, fun _ => hacc⟩
    rw [fillAdaptive, if_neg (by rw [h]; decide), if_neg (hinterval h).ne']
    exact hr fuel hfuel

structure Calibrating (ts : List (Trade ℚ)) (s : VpinState ℚ) : Prop where
  calibrated : s.calibrated = false
  volumes : s.volumesCalibration = ts.map Trade.volume
  canonical : s.canonical = newBuckets
  adaptive : s.adaptive = newBuckets
  ma : s.vpinMa = 0

structure Counting (cfg : VpinConfig ℚ) (ts : List (Trade ℚ)) (s : VpinState ℚ) : Prop where
  calibrated : s.calibrated = true
  canonical : Accounts cfg.numBuckets ts s.canonical
  adaptive : cfg.enableAdaptive = true → Accounts cfg.numBuckets ts s.adaptive
  ma : 0 ≤ s.vpinMa ∧ s.vpinMa ≤ 1

theorem calibrate_early (cfg : VpinConfig ℚ) (t : Trade ℚ) (hs : Calibrating ts s) (hlen : (ts ++ [t]).length < 10) :
    Calibrating (ts ++ [t]) (calibrate cfg s t.volume) := by
  have hfew : (s.volumesCalibration ++ [t.volume]).length < 10 := by
    rw [hs.volumes]
    simpa using hlen
  rw [calibrate, if_neg (by rw [hs.calibrated]; decide)]
  simp only [if_pos hfew]
  exact ⟨hs.calibrated, by rw [hs.volumes, List.map_append]; rfl, hs.canonical, hs.adaptive, hs.ma⟩

theorem calibrate_completes (hs : Calibrating ts s) (hlen : (ts ++ [t]).length = 10)
    (hsize : 0 < cfg.bucketSize) (hpos : ∀ u ∈ ts ++ [t], 0 < u.volume) :
    Counting cfg [] (calibrate cfg s t.volume) := by
  have hvolumes : s.volumesCalibration ++ [t.volume] = (ts ++ [t]).map Trade.volume := by
    rw [hs.volumes, List.map_append]
    rfl
  have hten : ((ts ++ [t]).map Trade.volume).length = 10 := (List.length_map _).trans hlen
  have hsum : 0 < ((ts ++ [t]).map Trade.volume).sum := by
    apply List.sum_pos
    · intro x hx
      obtain ⟨u, hu, rfl⟩ := List.mem_map.mp hx
      exact hpos u hu
    · intro hnil
      rw [hnil] at hten
      exact absurd hten (by decide)
  have htarget : 0 < ((ts ++ [t]).map Trade.volume).foldl (· + ·) 0.0 /
      ofInt ((ts ++ [t]).map Trade.volume).length * (ofInt cfg.bucketSize : ℚ) := by
    have hfold : ((ts ++ [t]).map Trade.volume).foldl (· + ·) (0.0 : ℚ) =
        ((ts ++ [t]).map Trade.volume).sum := by
      rw [List.sum_eq_foldl]
      norm_num
    rw [hfold, hten]
    exact mul_pos (div_pos hsum (ofInt_pos (by norm_num))) (ofInt_pos hsize)
  rw [calibrate, if_neg (by rw [hs.calibrated]; decide), hvolumes]
  simp only [if_neg (hten.trans_ge le_rfl).not_gt]
  rw [if_neg]
  · refine ⟨rfl, ?_, fun _ => ?_, ?_⟩
    · rw [hs.canonical]
      exact started_accounts _ htarget
    · rw [hs.adaptive]
      exact started_accounts _ htarget
    · simp only [hs.ma]
      constructor <;> norm_num
  · rintro ⟨hle, -⟩
    norm_num at hle
    exact absurd htarget (by norm_num; exact hle)

theorem calibrate_done (h : s.calibrated = true) (volume : ℚ) : calibrate cfg s volume = s := by
  rw [calibrate, if_pos h]

structure Usable (cfg : VpinConfig ℚ) : Prop where
  size : 0 < cfg.bucketSize
  nonneg : 0 ≤ cfg.adaptiveBlend
  le_one : cfg.adaptiveBlend ≤ 1
  interval : cfg.enableAdaptive = true → 0 < cfg.adaptiveRecalInterval

theorem smoothed_unit (h : Counting cfg ts s) : 0 ≤ smoothed s ∧ smoothed s ≤ 1 := by
  obtain ⟨hlow, hhigh⟩ := h.ma
  obtain ⟨hzero, hone⟩ := h.canonical.filled.vpin
  unfold smoothed
  norm_num
  split_ifs
  · exact ⟨hzero, hone⟩
  · constructor <;> linarith
  · exact ⟨hlow, hhigh⟩

/-- A trade that finds the calibration done, or completes it, is accounted for. -/
theorem updateVpin_counting {s' : VpinState ℚ} (hcfg : Usable cfg) (ht : 0 < t.volume)
    (h : calibrate cfg { s with tradeCount := s.tradeCount + 1 } t.volume = s')
    (hs : Counting cfg ts s') : ∃ bound r, (∀ fuel ≥ bound, updateVpin cfg fuel s t = some r) ∧
      Counting cfg (ts ++ [t]) r := by
  obtain ⟨n, canonical, hcanonical, hcounted⟩ := fillBucket_accounts hs.canonical ht
  obtain ⟨m, adaptive, hadaptive, hblended⟩ :=
    fillAdaptive_accounts hcfg.nonneg hcfg.le_one hcfg.interval hs.adaptive ht
  let filled : VpinState ℚ := { s' with canonical := canonical, adaptive := adaptive }
  have hfilled : Counting cfg (ts ++ [t]) filled := ⟨hs.calibrated, hcounted, hblended, hs.ma⟩
  refine ⟨max n m, { filled with vpinMa := smoothed filled }, fun fuel hfuel => ?_,
    ⟨hs.calibrated, hcounted, hblended, smoothed_unit hfilled⟩⟩
  rw [updateVpin]
  simp only [h, hs.calibrated, if_true]
  rw [hcanonical fuel (le_of_max_le_left hfuel), hadaptive fuel (le_of_max_le_right hfuel)]
  simp only [Option.bind_eq_bind, Option.bind_some, filled, hs.calibrated]

theorem runVpin_append (fuel : ℕ) :
    runVpin cfg fuel (ts ++ [t]) = (runVpin cfg fuel ts).bind (updateVpin cfg fuel · t) := by
  simp [runVpin, List.foldlM_append]

/-- What a run of trades leaves: the calibration under way, or the trades counted. -/
theorem runVpin_spec (hcfg : Usable cfg) (ts : List (Trade ℚ))
    (hpos : ∀ t ∈ ts, 0 < t.volume) :
    ∃ bound s, (∀ fuel ≥ bound, runVpin cfg fuel ts = some s) ∧
      (ts.length < 10 → Calibrating ts s) ∧ (10 ≤ ts.length → Counting cfg (ts.drop 9) s) := by
  induction ts using List.reverseRecOn with
  | nil =>
    refine ⟨0, newVpin, fun _ _ => rfl, fun _ => ⟨rfl, rfl, rfl, rfl, ?_⟩, fun h => ?_⟩
    · norm_num [newVpin]
    · exact absurd h (by decide)
  | append_singleton ts t ih =>
    obtain ⟨n, s, hrun, hearly, hlate⟩ :=
      ih (fun u hu => hpos u (List.mem_append_left _ hu))
    have ht : 0 < t.volume := hpos t (List.mem_append_right _ (List.mem_singleton_self t))
    have hlength : (ts ++ [t]).length = ts.length + 1 := List.length_append
    by_cases hlen : ts.length < 9
    · have hs : Calibrating ts { s with tradeCount := s.tradeCount + 1 } := by
        obtain ⟨h₁, h₂, h₃, h₄, h₅⟩ := hearly (by omega)
        exact ⟨h₁, h₂, h₃, h₄, h₅⟩
      have hstill := calibrate_early cfg t hs (by omega)
      refine ⟨n, _, fun fuel hfuel => ?_, fun _ => hstill, fun h => by omega⟩
      rw [runVpin_append, hrun fuel hfuel, Option.bind_some, updateVpin]
      simp only [hstill.calibrated, Bool.false_eq_true, if_false]
    · have hdrop : (ts ++ [t]).drop 9 = ts.drop 9 ++ [t] :=
        List.drop_append_of_le_length (not_lt.mp hlen)
      have hs : Counting cfg (ts.drop 9)
          (calibrate cfg { s with tradeCount := s.tradeCount + 1 } t.volume) := by
        rcases (not_lt.mp hlen).eq_or_lt with hnine | hmore
        · obtain ⟨h₁, h₂, h₃, h₄, h₅⟩ := hearly (by omega)
          rw [hnine, List.drop_length]
          exact calibrate_completes ⟨h₁, h₂, h₃, h₄, h₅⟩ (by omega) hcfg.size hpos
        · obtain ⟨h₁, h₂, h₃, h₄⟩ := hlate (by omega)
          rw [calibrate_done (s := { s with tradeCount := s.tradeCount + 1 }) h₁]
          exact ⟨h₁, h₂, h₃, h₄⟩
      obtain ⟨m, r, hupdate, hcounting⟩ := updateVpin_counting hcfg ht rfl hs
      refine ⟨max n m, r, fun fuel hfuel => ?_, fun h => by omega, fun _ => hdrop ▸ hcounting⟩
      rw [runVpin_append, hrun fuel (le_of_max_le_left hfuel), Option.bind_some]
      exact hupdate fuel (le_of_max_le_right hfuel)

structure Conserves (numBuckets : ℕ) (ts : List (Trade ℚ)) (s : Buckets ℚ) : Prop where
  whole : ∀ c ∈ s.completed, c.2.buyVolume + c.2.sellVolume = c.1 ∧ 0 < c.1
  kept : s.buckets = (s.completed.map Prod.snd).rtake numBuckets
  buys : (s.completed.map (fun c => c.2.buyVolume)).sum + s.current.buyVolume =
    (ts.map buyOf).sum
  sells : (s.completed.map (fun c => c.2.sellVolume)).sum + s.current.sellVolume =
    (ts.map sellOf).sum
  vpin : 0 ≤ s.vpin ∧ s.vpin ≤ 1

theorem Accounts.conserves {n : ℕ} {b : Buckets ℚ} (h : Accounts n ts b) : Conserves n ts b := by
  refine ⟨fun c hc => ?_, h.filled.kept, h.bought, h.sold, h.filled.vpin⟩
  obtain ⟨hpos, hdivided, htotal⟩ := h.filled.whole c hc
  exact ⟨hdivided.total.trans htotal, hpos⟩

theorem newBuckets_conserves (n : ℕ) : Conserves n [] newBuckets := by
  have h := (started_accounts n one_pos).conserves
  exact ⟨h.whole, h.kept, h.buys, h.sells, h.vpin⟩

/-- The canonical buckets, and the adaptive ones where they are filled, conserve the
volume from the tenth trade on, and no trade fills them forever. -/
theorem volume_conserved (cfg : VpinConfig ℚ) (hcfg : Usable cfg) (trades : List (Trade ℚ))
    (hpos : ∀ t ∈ trades, 0 < t.volume) :
    ∃ bound s, (∀ fuel ≥ bound, runVpin cfg fuel trades = some s) ∧
      Conserves cfg.numBuckets (trades.drop 9) s.canonical ∧
      (cfg.enableAdaptive = true → Conserves cfg.numBuckets (trades.drop 9) s.adaptive) ∧
      0 ≤ s.vpinMa ∧ s.vpinMa ≤ 1 := by
  obtain ⟨bound, s, hrun, hearly, hlate⟩ := runVpin_spec hcfg trades hpos
  refine ⟨bound, s, hrun, ?_⟩
  by_cases hlen : trades.length < 10
  · obtain ⟨-, -, hcanonical, hadaptive, hma⟩ := hearly hlen
    have hnone : trades.drop 9 = [] := List.drop_eq_nil_of_le (by omega)
    rw [hnone, hcanonical, hadaptive, hma]
    exact ⟨newBuckets_conserves _, fun _ => newBuckets_conserves _, le_rfl, zero_le_one⟩
  · obtain ⟨-, hcanonical, hadaptive, hma⟩ := hlate (by omega)
    exact ⟨hcanonical.conserves, fun h => (hadaptive h).conserves, hma⟩

theorem default_conserves : ∃ bound s,
    (∀ fuel ≥ bound, runVpin defaultVpinConfig fuel (List.replicate 12 ⟨1, true⟩) = some s) ∧
      Conserves 50 ((List.replicate 12 ⟨1, true⟩).drop 9) s.canonical ∧
      (true = true → Conserves 50 ((List.replicate 12 ⟨1, true⟩).drop 9) s.adaptive) ∧
      0 ≤ s.vpinMa ∧ s.vpinMa ≤ 1 :=
  volume_conserved defaultVpinConfig
    ⟨by decide, by norm_num [defaultVpinConfig], by norm_num [defaultVpinConfig],
      fun _ => by decide⟩ (List.replicate 12 ⟨1, true⟩)
    (fun t ht => (List.eq_of_mem_replicate ht).symm ▸ one_pos)

end Runs

section Idle

variable {cfg : VpinConfig ℚ}

theorem fillAdaptive_idle (h : cfg.enableAdaptive = false) (fuel : ℕ)
    (s : VpinState ℚ) (t : Trade ℚ) : fillAdaptive cfg fuel s t = some s.adaptive := if_pos h

theorem calibrate_adaptive (cfg : VpinConfig ℚ) (s : VpinState ℚ) (volume : ℚ) :
    (calibrate cfg s volume).adaptive.current = s.adaptive.current ∧
      (calibrate cfg s volume).adaptive.completed = s.adaptive.completed := by
  unfold calibrate
  extract_lets
  split_ifs <;> exact ⟨rfl, rfl⟩

theorem updateVpin_idle (h : cfg.enableAdaptive = false) {fuel : ℕ}
    {s r : VpinState ℚ} {t : Trade ℚ} (hr : updateVpin cfg fuel s t = some r) :
    r.adaptive.current = s.adaptive.current ∧ r.adaptive.completed = s.adaptive.completed := by
  have hkept := calibrate_adaptive cfg { s with tradeCount := s.tradeCount + 1 } t.volume
  rw [updateVpin] at hr
  simp only [fillAdaptive_idle h, Option.bind_eq_bind, Option.bind_some] at hr
  split_ifs at hr
  · obtain ⟨canonical, -, hsome⟩ := Option.bind_eq_some_iff.mp hr
    rw [← Option.some.inj hsome]
    exact hkept
  · rw [← Option.some.inj hr]
    exact hkept

/-- Adaptive buckets that are not enabled stay empty. -/
theorem adaptive_idle (h : cfg.enableAdaptive = false) {fuel : ℕ}
    {trades : List (Trade ℚ)} {s : VpinState ℚ} (hs : runVpin cfg fuel trades = some s) :
    s.adaptive.current = emptyBucket ∧ s.adaptive.completed = [] := by
  induction trades using List.reverseRecOn generalizing s with
  | nil =>
    obtain rfl := Option.some.inj hs
    exact ⟨rfl, rfl⟩
  | append_singleton ts t ih =>
    rw [runVpin_append] at hs
    obtain ⟨r, hr, hs⟩ := Option.bind_eq_some_iff.mp hs
    obtain ⟨hcurrent, hcompleted⟩ := updateVpin_idle h hs
    obtain ⟨hcurrent', hcompleted'⟩ := ih hr
    exact ⟨hcurrent.trans hcurrent', hcompleted.trans hcompleted'⟩

/-- Of ten buys the tenth is counted in the canonical buckets only. -/
theorem idle_buckets_miss : ¬ ∀ cfg : VpinConfig ℚ, Usable cfg → ∀ trades : List (Trade ℚ),
    (∀ t ∈ trades, 0 < t.volume) → ∃ bound s, (∀ fuel ≥ bound, runVpin cfg fuel trades = some s) ∧
      Conserves cfg.numBuckets (trades.drop 9) s.canonical ∧
      Conserves cfg.numBuckets (trades.drop 9) s.adaptive := by
  intro hall
  let cfg : VpinConfig ℚ := ⟨50, 50, 7/10, false, 100, 3/10⟩
  obtain ⟨bound, s, hrun, -, hadaptive⟩ := hall cfg
    ⟨by decide, by norm_num [cfg], by norm_num [cfg], nofun⟩ (List.replicate 10 ⟨1, true⟩)
    (fun t ht => (List.eq_of_mem_replicate ht).symm ▸ one_pos)
  obtain ⟨hcurrent, hcompleted⟩ := adaptive_idle rfl (hrun bound le_rfl)
  have hbuys := hadaptive.buys
  rw [hcurrent, hcompleted] at hbuys
  norm_num [emptyBucket, buyOf] at hbuys

end Idle

end TB.Vpin
