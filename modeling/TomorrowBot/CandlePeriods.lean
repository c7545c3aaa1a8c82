import TomorrowBot.CandleBuffers

/-!
# The periods of the buffered candles

Neither entry point of a candle buffer compares open times: a message goes into
the last candle while that is live, and begins a candle once it is closed. So a
candle belongs to one period as long as no period begins before the last one
was closed and no message comes for a period that is closed already.
-/

set_option autoImplicit false

namespace TB.CandlePeriods
open TB.CommonTypes TB.DoubleValues TB.BitgetNormalizer TB.CandleBuffers RecentEntries

def timeOf (m : NormalizedCandle) : Timestamp := m.envelope.exchangeTs

section Fields

structure FromMessages (ms : List NormalizedCandle) (c : OhlcvCandle) : Prop where
  opening : ∃ m ∈ ms, c.opening = m.opening
  high : ∃ m ∈ ms, c.high = m.high
  low : ∃ m ∈ ms, c.low = m.low
  close : ∃ m ∈ ms, c.close = m.close
  volume : ∃ m ∈ ms, c.volume = m.volume
  openTime : ∃ m ∈ ms, timeOf m = c.openTime

theorem FromMessages.mono {ms ms' : List NormalizedCandle} {c : OhlcvCandle}
    (h : FromMessages ms c) (hsub : ms ⊆ ms') : FromMessages ms' c := by
  have hmono : ∀ P : NormalizedCandle → Prop, (∃ m ∈ ms, P m) → ∃ m ∈ ms', P m :=
    fun P ⟨m, hm, hp⟩ => ⟨m, hsub hm, hp⟩
  exact ⟨hmono _ h.opening, hmono _ h.high, hmono _ h.low, hmono _ h.close, hmono _ h.volume,
    hmono _ h.openTime⟩

variable (ms : List NormalizedCandle)

theorem toOhlcv_from (m : NormalizedCandle) (hm : m ∈ ms) : FromMessages ms (toOhlcv m) :=
  ⟨⟨m, hm, rfl⟩, ⟨m, hm, rfl⟩, ⟨m, hm, rfl⟩, ⟨m, hm, rfl⟩, ⟨m, hm, rfl⟩, ⟨m, hm, rfl⟩⟩

theorem stdMax_choice (a b : Double) : stdMax a b = a ∨ stdMax a b = b := by
  unfold stdMax
  split_ifs
  · exact .inr rfl
  · exact .inl rfl

theorem stdMin_choice (a b : Double) : stdMin a b = a ∨ stdMin a b = b := by
  unfold stdMin
  split_ifs
  · exact .inr rfl
  · exact .inl rfl

/-- The values of a live candle and of the message it takes in. -/
theorem absorbed_from (last : OhlcvCandle) (m : NormalizedCandle)
    (h : FromMessages ms last) : FromMessages (ms ++ [m]) (absorbed last m) := by
  have hold := h.mono (List.subset_append_left ms [m])
  have hm : m ∈ ms ++ [m] := by simp
  have hhigh : ∃ w ∈ ms ++ [m], stdMax last.high m.high = w.high := by
    rcases stdMax_choice last.high m.high with hc | hc <;> rw [hc]
    · exact hold.high
    · exact ⟨m, hm, rfl⟩
  have hlow : ∃ w ∈ ms ++ [m], stdMin last.low m.low = w.low := by
    rcases stdMin_choice last.low m.low with hc | hc <;> rw [hc]
    · exact hold.low
    · exact ⟨m, hm, rfl⟩
  unfold absorbed
  split_ifs
  · refine ⟨hold.opening, hhigh, hlow, ⟨m, hm, rfl⟩, ?_, hold.openTime⟩
    rcases stdMax_choice last.volume m.volume with hc | hc
    · obtain ⟨w, hw, hv⟩ := hold.volume
      exact ⟨w, hw, hc.trans hv⟩
    · exact ⟨m, hm, hc⟩
  · exact ⟨hold.opening, hhigh, hlow, ⟨m, hm, rfl⟩, ⟨m, hm, rfl⟩, hold.openTime⟩

theorem logOf_from : ∀ c ∈ logOf ms, FromMessages ms c := by
  induction ms using List.reverseRecOn with
  | nil => exact fun c hc => absurd hc (by simp [logOf])
  | append_singleton ms m ih =>
    have hold : ∀ c ∈ logOf ms, FromMessages (ms ++ [m]) c :=
      fun c hc => (ih c hc).mono (List.subset_append_left ms [m])
    have hnew := toOhlcv_from (ms ++ [m]) m (by simp)
    have hstep : logOf (ms ++ [m]) = logStep (logOf ms) m := by simp [logOf]
    rw [hstep]
    rcases List.eq_nil_or_concat (logOf ms) with hnil | ⟨l, last, hlast⟩
    · rw [hnil, logStep_nil]
      simpa using hnew
    · rw [List.concat_eq_append] at hlast
      rw [hlast, logStep_concat]
      rw [hlast] at hold ih
      split_ifs
      · intro c hc
        rcases List.mem_append.mp hc with hc | hc
        · exact hold c hc
        · rw [List.mem_singleton.mp hc]
          exact hnew
      · intro c hc
        rcases List.mem_append.mp hc with hc | hc
        · exact hold c (List.mem_append_left _ hc)
        · rw [List.mem_singleton.mp hc]
          exact absorbed_from ms last m (ih last (by simp))

end Fields

section Periods

def ofTime (t : Timestamp) (ms : List NormalizedCandle) : List NormalizedCandle :=
  ms.filter (fun m => timeOf m = t)

structure Separate (ms : List NormalizedCandle) : Prop where
  increasing : (logOf ms).Pairwise (fun a b => a.openTime < b.openTime)
  alone : ∀ c ∈ logOf ms, logOf (ofTime c.openTime ms) = [c]
  covered : ∀ m ∈ ms, ∃ c ∈ logOf ms, c.openTime = timeOf m

def Fits (l : List OhlcvCandle) (m : NormalizedCandle) : Prop :=
  ∀ last, l.getLast? = some last →
    if last.isClosed then last.openTime ≠ timeOf m else last.openTime = timeOf m

theorem absorbed_openTime (last : OhlcvCandle) (m : NormalizedCandle) :
    (absorbed last m).openTime = last.openTime := by
  unfold absorbed
  split_ifs <;> rfl

theorem ofTime_snoc_ne (t : Timestamp) (ms : List NormalizedCandle) (m : NormalizedCandle)
    (h : timeOf m ≠ t) : ofTime t (ms ++ [m]) = ofTime t ms := by
  simp [ofTime, h]

variable (ms : List NormalizedCandle) (m : NormalizedCandle)

theorem ofTime_snoc_eq : ofTime (timeOf m) (ms ++ [m]) = ofTime (timeOf m) ms ++ [m] := by
  simp [ofTime]

theorem separate_nil : Separate [] :=
  ⟨List.Pairwise.nil, fun c hc => absurd hc (by simp [logOf]), fun m hm => absurd hm (by simp)⟩

theorem separate_begin (h : Separate ms) (hlater : ∀ c ∈ logOf ms, c.openTime < timeOf m)
    (hlog : logOf (ms ++ [m]) = logOf ms ++ [toOhlcv m]) : Separate (ms ++ [m]) := by
  have hfirst : ofTime (timeOf m) ms = [] := by
    rw [ofTime, List.filter_eq_nil_iff]
    intro a ha heq
    obtain ⟨c, hc, htime⟩ := h.covered a ha
    simp only [decide_eq_true_eq] at heq
    exact (hlater c hc).ne (htime.trans heq)
  refine ⟨?_, ?_, ?_⟩
  · rw [hlog, List.pairwise_append]
    refine ⟨h.increasing, List.pairwise_singleton _ _, ?_⟩
    intro a ha b hb
    rw [List.mem_singleton.mp hb]
    exact hlater a ha
  · rw [hlog]
    intro c hc
    rcases List.mem_append.mp hc with hc | hc
    · rw [ofTime_snoc_ne _ _ _ (hlater c hc).ne']
      exact h.alone c hc
    · rw [List.mem_singleton.mp hc]
      show logOf (ofTime (timeOf m) (ms ++ [m])) = _
      rw [ofTime_snoc_eq, hfirst]
      rfl
  · rw [hlog]
    intro a ha
    rcases List.mem_append.mp ha with ha | ha
    · obtain ⟨c, hc, htime⟩ := h.covered a ha
      exact ⟨c, List.mem_append_left _ hc, htime⟩
    · rw [List.mem_singleton.mp ha]
      exact ⟨toOhlcv m, by simp, rfl⟩

theorem separate_absorb
    (l : List OhlcvCandle) (last : OhlcvCandle) (h : Separate ms) (hlast : logOf ms = l ++ [last])
    (hlive : last.isClosed = false) (htime : last.openTime = timeOf m)
    (hlog : logOf (ms ++ [m]) = l ++ [absorbed last m]) : Separate (ms ++ [m]) := by
  obtain ⟨hinc, halone, hcovered⟩ := h
  rw [hlast] at hinc halone hcovered
  obtain ⟨hl, -, hbefore⟩ := List.pairwise_append.mp hinc
  have hearlier : ∀ c ∈ l, c.openTime < timeOf m := fun c hc =>
    htime ▸ hbefore c hc last (by simp)
  refine ⟨?_, ?_, ?_⟩
  · rw [hlog, List.pairwise_append]
    refine ⟨hl, List.pairwise_singleton _ _, ?_⟩
    intro a ha b hb
    rw [List.mem_singleton.mp hb, absorbed_openTime, htime]
    exact hearlier a ha
  · rw [hlog]
    intro c hc
    rcases List.mem_append.mp hc with hc | hc
    · rw [ofTime_snoc_ne _ _ _ (hearlier c hc).ne']
      exact halone c (List.mem_append_left _ hc)
    · rw [List.mem_singleton.mp hc, absorbed_openTime, htime, ofTime_snoc_eq]
      have hown : logOf (ofTime (timeOf m) ms) = [last] := htime ▸ halone last (by simp)
      rw [logOf, List.foldl_append, ← logOf, hown]
      simp [logStep, hlive]
  · rw [hlog]
    intro a ha
    rcases List.mem_append.mp ha with ha | ha
    · obtain ⟨c, hc, hct⟩ := hcovered a ha
      rcases List.mem_append.mp hc with hc | hc
      · exact ⟨c, List.mem_append_left _ hc, hct⟩
      · rw [List.mem_singleton.mp hc] at hct
        exact ⟨absorbed last m, by simp, by rw [absorbed_openTime, hct]⟩
    · rw [List.mem_singleton.mp ha]
      exact ⟨absorbed last m, by simp, by rw [absorbed_openTime, htime]⟩

theorem separate_snoc (h : Separate ms)
    (horder : ∀ a ∈ ms, timeOf a ≤ timeOf m) (hfits : Fits (logOf ms) m) :
    Separate (ms ++ [m]) := by
  have hstep : logOf (ms ++ [m]) = logStep (logOf ms) m := by simp [logOf]
  rcases List.eq_nil_or_concat (logOf ms) with hnil | ⟨l, last, hlast⟩
  · apply separate_begin ms m h
    · rw [hnil]
      exact fun c hc => absurd hc (by simp)
    · rw [hstep, hnil]
      rfl
  · rw [List.concat_eq_append] at hlast
    rw [hlast, logStep_concat] at hstep
    have hfit := hfits last (by simp [hlast])
    rcases hclosed : last.isClosed with _ | _
    · simp only [hclosed, Bool.false_eq_true, if_false] at hfit hstep
      exact separate_absorb ms m l last h hlast hclosed hfit hstep
    · simp only [hclosed, if_true] at hfit hstep
      apply separate_begin ms m h _ (by rw [hstep, hlast])
      obtain ⟨a, ha, hat⟩ := (logOf_from ms last (by simp [hlast])).openTime
      have hlater : last.openTime < timeOf m := lt_of_le_of_ne (hat ▸ horder a ha) hfit
      intro c hc
      have hinc := h.increasing
      rw [hlast] at hinc hc
      rcases List.mem_append.mp hc with hc | hc
      · exact ((List.pairwise_append.mp hinc).2.2 c hc last (by simp)).trans hlater
      · rw [List.mem_singleton.mp hc]
        exact hlater

end Periods

section Runs

/-- What a buffer is for: one candle for each open time, in order, each made of
the messages of its own open time. -/
structure OneCandleEach (key : String) (fed : List NormalizedCandle)
    (candles : List OhlcvCandle) : Prop where
  increasing : candles.Pairwise (fun a b => a.openTime < b.openTime)
  fields : ∀ c ∈ candles, FromMessages (ofTime c.openTime (fedTo key fed)) c
  alone : ∀ c ∈ candles,
    held (Runs.run onCandle newEngine (ofTime c.openTime (fedTo key fed))) key = [c]

def Continues (key : String) (engine : FeatureEngine) (m : NormalizedCandle) : Prop :=
  keyOf m = key → Fits (held engine key) m

instance (l : List OhlcvCandle) (m : NormalizedCandle) : Decidable (Fits l m) :=
  match h : l.getLast? with
  | none => .isTrue (fun last hlast => by simp [h] at hlast)
  | some last =>
    decidable_of_iff (if last.isClosed then last.openTime ≠ timeOf m else last.openTime = timeOf m)
      ⟨fun hfit other hother => by rwa [← Option.some.inj (h.symm.trans hother)],
        fun hfit => hfit last h⟩

instance (key : String) (engine : FeatureEngine) (m : NormalizedCandle) :
    Decidable (Continues key engine m) :=
  inferInstanceAs (Decidable (keyOf m = key → Fits (held engine key) m))

variable (key : String)

theorem ofTime_fedTo (t : Timestamp) (fed : List NormalizedCandle) :
    fedTo key (ofTime t (fedTo key fed)) = ofTime t (fedTo key fed) := by
  rw [fedTo, List.filter_eq_self]
  intro m hm
  exact (List.mem_filter.mp (List.mem_filter.mp hm).1).2

theorem oneCandleEach_of_separate (fed : List NormalizedCandle) (h : Separate (fedTo key fed)) :
    OneCandleEach key fed (held (Runs.run onCandle newEngine fed) key) := by
  rw [held_eq]
  have hsub := rtake_sublist kCapacity (logOf (fedTo key fed))
  have halone : ∀ c ∈ (logOf (fedTo key fed)).rtake kCapacity,
      logOf (ofTime c.openTime (fedTo key fed)) = [c] := fun c hc => h.alone c (hsub.subset hc)
  refine ⟨h.increasing.sublist hsub, ?_, ?_⟩
  · intro c hc
    exact logOf_from _ c (by simp [halone c hc])
  · intro c hc
    rw [held_eq, ofTime_fedTo, halone c hc]
    exact rtake_of_length_le (by simp [kCapacity])

theorem separate_run (cs : List NormalizedCandle)
    (horder : (fedTo key cs).Pairwise (fun a b => timeOf a ≤ timeOf b))
    (hmeets : Runs.Meets onCandle (Continues key) newEngine cs) : Separate (fedTo key cs) := by
  induction cs using List.reverseRecOn with
  | nil => exact separate_nil
  | append_singleton cs m ih =>
    obtain ⟨hbefore, hlast, -⟩ := (Runs.meets_append _ _ _ _ _).mp hmeets
    rw [fedTo, List.filter_append, ← fedTo] at horder ⊢
    obtain ⟨hsorted, -, hle⟩ := List.pairwise_append.mp horder
    have hprev := ih hsorted hbefore
    by_cases hk : keyOf m = key
    · have hone : [m].filter (fun c => keyOf c = key) = [m] := by simp [hk]
      rw [hone] at hle ⊢
      apply separate_snoc _ _ hprev (fun a ha => hle a ha m (by simp))
      have hfit := hlast hk
      rw [held_eq] at hfit
      intro last hl
      exact hfit last ((getLast_rtake (by decide) _).trans hl)
    · have hnone : [m].filter (fun c => keyOf c = key) = [] := by simp [hk]
      rw [hnone, List.append_nil]
      exact hprev

/-- While every message fits, each state of the run holds one candle for each
open time, made of its own messages. -/
theorem one_candle_each (key : String) (cs : List NormalizedCandle)
    (horder : (fedTo key cs).Pairwise (fun a b => timeOf a ≤ timeOf b))
    (hmeets : Runs.Meets onCandle (Continues key) newEngine cs) :
    ∀ fed, fed <+: cs → OneCandleEach key fed (held (Runs.run onCandle newEngine fed) key) := by
  rintro fed ⟨rest, rfl⟩
  apply oneCandleEach_of_separate
  apply separate_run key fed _ ((Runs.meets_append _ _ _ _ _).mp hmeets).1
  rw [fedTo, List.filter_append] at horder
  exact (List.pairwise_append.mp horder).1

def flatCandle (time : Timestamp) (q : ℚ) (closed : Bool) : NormalizedCandle :=
  ⟨⟨time, 0, 0, "BTCUSDT", "bitget", 0⟩, "1m", .finite q, .finite q, .finite q, .finite q,
    .finite q, .finite q, closed⟩

def mixedCandle : OhlcvCandle :=
  ⟨60, .finite 5, .finite 9, .finite 5, .finite 9, .finite 9, true⟩

theorem one_candle_each_twoPeriods :
    OneCandleEach "BTCUSDT:1m"
      [flatCandle 60 5 false, flatCandle 60 7 true, flatCandle 120 6 false]
      (held (Runs.run onCandle newEngine
        [flatCandle 60 5 false, flatCandle 60 7 true, flatCandle 120 6 false]) "BTCUSDT:1m") :=
  one_candle_each "BTCUSDT:1m"
    [flatCandle 60 5 false, flatCandle 60 7 true, flatCandle 120 6 false] (by decide +kernel)
    (by decide +kernel) _ (List.prefix_refl _)

/-- After a missed close the next period goes into the old candle, and a close
that is sent again begins a second candle. -/
theorem missed_close_mixes :
    held (Runs.run onCandle newEngine [flatCandle 60 5 false, flatCandle 120 9 true])
        "BTCUSDT:1m" = [mixedCandle] ∧
      ¬ OneCandleEach "BTCUSDT:1m" [flatCandle 60 5 false, flatCandle 120 9 true]
        (held (Runs.run onCandle newEngine [flatCandle 60 5 false, flatCandle 120 9 true])
          "BTCUSDT:1m") ∧
      ¬ OneCandleEach "BTCUSDT:1m" [flatCandle 60 5 true, flatCandle 60 5 true]
        (held (Runs.run onCandle newEngine [flatCandle 60 5 true, flatCandle 60 5 true])
          "BTCUSDT:1m") := by
  have hmixed : held (Runs.run onCandle newEngine [flatCandle 60 5 false, flatCandle 120 9 true])
      "BTCUSDT:1m" = [mixedCandle] := by decide +kernel
  have htwice : held (Runs.run onCandle newEngine [flatCandle 60 5 true, flatCandle 60 5 true])
      "BTCUSDT:1m" = [toOhlcv (flatCandle 60 5 true), toOhlcv (flatCandle 60 5 true)] := by decide +kernel
  refine ⟨hmixed, ?_, ?_⟩
  · intro h
    rw [hmixed] at h
    obtain ⟨m, hm, hclose⟩ := (h.fields _ (List.mem_singleton.mpr rfl)).close
    have hown : ofTime mixedCandle.openTime (fedTo "BTCUSDT:1m" [flatCandle 60 5 false,
        flatCandle 120 9 true]) = [flatCandle 60 5 false] := by decide +kernel
    rw [hown, List.mem_singleton] at hm
    rw [hm] at hclose
    exact absurd hclose (by decide +kernel)
  · intro h
    rw [htwice] at h
    exact absurd h.increasing (by decide +kernel)

end Runs

end TB.CandlePeriods
