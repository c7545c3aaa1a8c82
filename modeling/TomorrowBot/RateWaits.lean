import TomorrowBot.RateLimiter

/-!
# The budget of a category and the end of a wait

Over every run of the callers, a category stays within its budget for every window
of time, and a caller that no other of its category disturbs gets the next token.
-/

set_option autoImplicit false

namespace TB.RateLimiter
open TokenBuckets

section Runs
variable {σ σ' : LimiterState ℚ} {i : ℕ} {c : RateCategory} {now : ℤ}

theorem run_cons {e : LimiterEvent} {es : List LimiterEvent} (h : run σ (e::es) = some σ') :
    ∃ next, step σ e = some next ∧ run next es = some σ' :=
  Option.bind_eq_some_iff.mp h

variable (es : List LimiterEvent)

theorem run_good (hgood : Good σ) (h : run σ es = some σ') : Good σ' := by
  induction es generalizing σ with
  | nil =>
    obtain rfl := Option.some.inj h
    exact hgood
  | cons e es ih =>
    obtain ⟨next, hstep, hrest⟩ := run_cons h
    obtain ⟨i, c, now, hclock, rfl⟩ := step_round hstep
    exact ih (good_round hgood hclock) hrest

theorem run_accounted {s t : ℚ} (es : List LimiterEvent) (hgood : Good σ)
    (haccounted : Accounted s t σ) (h : run σ es = some σ') : Accounted s t σ' := by
  induction es generalizing σ with
  | nil =>
    obtain rfl := Option.some.inj h
    exact haccounted
  | cons e es ih =>
    obtain ⟨next, hstep, hrest⟩ := run_cons h
    obtain ⟨i, c, now, hclock, rfl⟩ := step_round hstep
    exact ih (good_round hgood hclock) (accounted_round hgood haccounted hclock) hrest

def Alone (i : ℕ) (c : RateCategory) (σ : LimiterState ℚ) : LimiterEvent → Prop
  | .call j path _ => j ≠ i ∧ categorizePath path ≠ c
  | .wake j _ => j ≠ i → ∀ w, σ.waiting j = some w → w.category ≠ c

def AloneRun (i : ℕ) (c : RateCategory) : LimiterState ℚ → List LimiterEvent → Prop
  | _, [] => True
  | σ, e::es => Alone i c σ e ∧ ∀ next, step σ e = some next → AloneRun i c next es

theorem alone_cases {e : LimiterEvent} (ha : Alone i c σ e) (h : step σ e = some σ') :
    (∃ j d now, j ≠ i ∧ d ≠ c ∧ σ.clock ≤ now ∧ σ' = round σ j d now ∧
        ∀ n, e ≠ .wake i n) ∨
      (∃ now w, e = .wake i now ∧ σ.clock ≤ now ∧ σ.waiting i = some w ∧
        σ' = round σ i w.category now) := by
  rcases step_cases h with ⟨j, path, now, rfl, hclock, -, rfl⟩ | ⟨j, now, w, rfl, hclock, hw, rfl⟩
  · exact Or.inl ⟨j, _, now, ha.1, ha.2, hclock, rfl, fun n hn => nomatch hn⟩
  · rcases eq_or_ne j i with rfl | hne
    · exact Or.inr ⟨now, w, rfl, hclock, hw, rfl⟩
    · refine Or.inl ⟨j, _, now, hne, ha hne w hw, hclock, rfl, fun n hn => hne ?_⟩
      exact (LimiterEvent.wake.inj hn).1

theorem round_extends (σ : LimiterState ℚ) (i : ℕ) (c : RateCategory) (now : ℤ) :
    ∃ new, (round σ i c now).grants = σ.grants ++ new := by
  rw [round_log]
  split_ifs
  · exact ⟨_, rfl⟩
  · exact ⟨[], (List.append_nil _).symm⟩

theorem served_stays (hnone : σ.waiting i = none)
    (ha : AloneRun i c σ es) (h : run σ es = some σ') :
    σ'.waiting i = none ∧ ∃ new, σ'.grants = σ.grants ++ new := by
  induction es generalizing σ with
  | nil =>
    obtain rfl := Option.some.inj h
    exact ⟨hnone, [], (List.append_nil _).symm⟩
  | cons e es ih =>
    obtain ⟨next, hstep, hrest⟩ := run_cons h
    rcases alone_cases ha.1 hstep with ⟨j, d, now, hj, -, -, rfl, -⟩ | ⟨now, w, -, -, hw, -⟩
    · obtain ⟨hstill, new, hnew⟩ := ih ((round_asleep hj.symm).trans hnone) (ha.2 _ hstep) hrest
      obtain ⟨first, hfirst⟩ := round_extends σ j d now
      exact ⟨hstill, first ++ new, by rw [hnew, hfirst, List.append_assoc]⟩
    · exact absurd (hnone.symm.trans hw) (by simp)

theorem lone_served {b₀ : Bucket ℚ} {w : Sleeper} (hgood : Good σ)
    (hw : σ.waiting i = some w) (hcategory : w.category = c)
    (hwaits : Waits (budget c) b₀ (level (σ.buckets c))) (ha : AloneRun i c σ es)
    (h : run σ es = some σ') {now : ℤ} (hretry : .wake i now ∈ es)
    (hready : ready (budget c) grain b₀ ≤ seconds now) :
    σ'.waiting i = none ∧ ∃ n new, σ'.grants = σ.grants ++ new ∧ (c, n) ∈ new := by
  induction es generalizing σ w with
  | nil => exact absurd hretry List.not_mem_nil
  | cons e es ih =>
    obtain ⟨next, hstep, hrest⟩ := run_cons h
    rcases alone_cases ha.1 hstep with
      ⟨j, d, n, hj, hd, hclock, rfl, hother⟩ | ⟨n, w', rfl, hclock, hw', rfl⟩
    · have hlater : .wake i now ∈ es :=
        (List.mem_cons.mp hretry).resolve_left (fun heq => hother now heq.symm)
      have hsame : (round σ j d n).buckets c = σ.buckets c := round_other hd.symm
      obtain ⟨hnone, m, new, hnew, hgranted⟩ := ih (good_round hgood hclock)
        ((round_asleep hj.symm).trans hw) hcategory (hsame.symm ▸ hwaits) (ha.2 _ hstep) hrest
        hlater
      obtain ⟨first, hfirst⟩ := round_extends σ j d n
      exact ⟨hnone, m, first ++ new, by rw [hnew, hfirst, List.append_assoc],
        List.mem_append_right _ hgranted⟩
    · obtain rfl : w = w' := Option.some.inj (hw.symm.trans hw')
      rw [hcategory] at hstep hrest
      have hlast : (level (σ.buckets c)).last ≤ seconds n :=
        seconds_mono ((hgood.last c).trans hclock)
      have hdraw := round_draw hgood i c n
      have hwaiting := round_waiting σ i c n
      cases hattempt : (attempt (σ.buckets c) n).2 with
      | none =>
        rw [hattempt] at hwaiting
        obtain ⟨hnone, new, hnew⟩ := served_stays es hwaiting (ha.2 _ hstep) hrest
        have hfirst : (round σ i c n).grants = σ.grants ++ [(c, n)] := by
          rw [round_log, hattempt]
          rfl
        exact ⟨hnone, n, [(c, n)] ++ new, by rw [hnew, hfirst, List.append_assoc],
          List.mem_append_left _ (List.mem_singleton_self _)⟩
      | some ms =>
        rw [hattempt] at hwaiting hdraw
        have hrefused : (draw (budget c) (budget c) grain (level (σ.buckets c))
            (seconds n)).2 = false := by
          rw [hdraw]
          rfl
        have hstill := waits_draw (budget_pos c).le (budget_ge c) hlast hwaits hrefused
        rw [hdraw] at hstill
        have hlater : .wake i now ∈ es := by
          refine (List.mem_cons.mp hretry).resolve_left (fun heq => ?_)
          obtain rfl := (LimiterEvent.wake.inj heq).2
          have hgranted := ready_granted (budget_pos c) grain_pos (budget_ge c) hlast hwaits hready
          rw [hrefused] at hgranted
          exact nomatch hgranted
        obtain ⟨hnone, m, new, hnew, hgranted⟩ := ih (good_round hgood hclock) hwaiting rfl
          hstill (ha.2 _ hstep) hrest hlater
        have hfirst : (round σ i c n).grants = σ.grants := by
          rw [round_log, hattempt]
          rfl
        exact ⟨hnone, m, new, by rw [hnew, hfirst], hgranted⟩

def waitEnd (σ : LimiterState ℚ) (c : RateCategory) : ℚ :=
  seconds σ.clock + 1 / budget c + grain

theorem ready_le_end (h : Good σ) (c : RateCategory) :
    ready (budget c) grain (level (σ.buckets c)) ≤ waitEnd σ c := by
  have hlast : (level (σ.buckets c)).last ≤ seconds σ.clock := seconds_mono (h.last c)
  have hshare : (1 - (level (σ.buckets c)).tokens) / budget c ≤ 1 / budget c :=
    div_le_div_of_nonneg_right (by linarith [(h.within c).1]) (budget_pos c).le
  unfold ready waitEnd
  linarith

/-- A category keeps within its budget and a grain of time, in every window; its tokens are
within the bucket; and a lone caller's wait is over within the time of one token. -/
theorem limiter_sound (made : RateCategory → ℤ) (clock : ℤ) (hmade : ∀ c, made c ≤ clock)
    (es : List LimiterEvent) (σ : LimiterState ℚ)
    (h : run (newLimiter made clock) es = some σ) :
    (∀ c (s t : ℚ), s ≤ t → (grantsIn σ.grants c s t : ℚ) <
      (σ.buckets c).maxTokens + (σ.buckets c).refillRate * (t - s) +
        (σ.buckets c).refillRate * grain) ∧
    (∀ c, 0 ≤ (σ.buckets c).tokens ∧ (σ.buckets c).tokens ≤ (σ.buckets c).maxTokens) ∧
    (∀ i w, σ.waiting i = some w →
      seconds w.deadline ≤ seconds σ.clock + 1 / budget w.category ∧
      ∀ es' σ', AloneRun i w.category σ es' → run σ es' = some σ' → ∀ now, .wake i now ∈ es' →
        waitEnd σ w.category ≤ seconds now →
          σ'.waiting i = none ∧ ∃ n new, σ'.grants = σ.grants ++ new ∧ (w.category, n) ∈ new) := by
  have hgood : Good σ := run_good es (good_new hmade) h
  refine ⟨fun c s t hst => ?_, fun c => ?_, fun i w hw => ⟨?_, ?_⟩⟩
  · obtain ⟨k, -, -, haccount⟩ :=
      run_accounted es (good_new hmade) (accounted_new hmade hst) h c
    rw [(hgood.rates c).1, (hgood.rates c).2]
    exact haccount.bound
  · rw [(hgood.rates c).1]
    exact hgood.within c
  · exact hgood.sleep i w hw
  · intro es' σ' ha hrun now hretry hend
    exact lone_served es' hgood hw rfl waits_self ha hrun hretry
      ((ready_le_end hgood w.category).trans hend)

end Runs

section Sample

def burst : List LimiterEvent :=
  (List.range 10).map (fun i => .call i "/order/place" 900) ++ [.call 10 "/order/place" 100000000]

theorem burst_granted : ∃ σ : LimiterState ℚ, run (newLimiter (fun _ => 0) 0) burst = some σ ∧
    σ.grants = List.replicate 10 (.order, 900) ++ [(.order, 100000000)] := by
  have hmap : (run (newLimiter (F := ℚ) (fun _ => 0) 0) burst).map LimiterState.grants =
      some (List.replicate 10 (.order, 900) ++ [(.order, 100000000)]) := by decide +kernel
  exact Option.map_eq_some_iff.mp hmap

theorem burst_count {σ : LimiterState ℚ}
    (h : σ.grants = List.replicate 10 (.order, 900) ++ [(.order, 100000000)]) :
    grantsIn σ.grants .order (seconds 900) (seconds 100000000) = 11 := by
  rw [h]
  decide +kernel

theorem burst_sound : ∃ σ : LimiterState ℚ, run (newLimiter (fun _ => 0) 0) burst = some σ ∧
    (∀ c (s t : ℚ), s ≤ t → (grantsIn σ.grants c s t : ℚ) <
      (σ.buckets c).maxTokens + (σ.buckets c).refillRate * (t - s) +
        (σ.buckets c).refillRate * grain) ∧
    (∀ c, 0 ≤ (σ.buckets c).tokens ∧ (σ.buckets c).tokens ≤ (σ.buckets c).maxTokens) := by
  obtain ⟨σ, h, -⟩ := burst_granted
  obtain ⟨hwindow, htokens, -⟩ := limiter_sound (fun _ => 0) 0 (fun _ => le_rfl) burst σ h
  exact ⟨σ, h, hwindow, htokens⟩

/-- The eleven requests of the burst are more than a bucket and the refill of their window. -/
theorem burst_exceeds : ¬ ∀ (made : RateCategory → ℤ) (clock : ℤ), (∀ c, made c ≤ clock) →
    ∀ (es : List LimiterEvent) (σ : LimiterState ℚ), run (newLimiter made clock) es = some σ →
      ∀ c (s t : ℚ), s ≤ t → (grantsIn σ.grants c s t : ℚ) ≤
        (σ.buckets c).maxTokens + (σ.buckets c).refillRate * (t - s) := by
  intro hall
  obtain ⟨σ, h, hgrants⟩ := burst_granted
  have hgood : Good σ := run_good burst (good_new (fun _ => le_rfl)) h
  have hle := hall (fun _ => 0) 0 (fun _ => le_rfl) burst σ h .order (seconds 900)
    (seconds 100000000) (seconds_mono (by norm_num))
  rw [burst_count hgrants, (hgood.rates .order).1, (hgood.rates .order).2] at hle
  norm_num [budget, seconds] at hle

end Sample

end TB.RateLimiter
