import TomorrowBot.DoubleFunctions
import TomorrowBot.TokenBuckets
import Mathlib.Data.List.Infix
import Mathlib.Tactic.FieldSimp
import Mathlib.Tactic.NormNum

/-!
# The rate limiter of the REST client

A caller reads the clock and the bucket of its category under one lock, and
sleeps without it where no token is left. Any number of callers may be asleep.
-/

set_option autoImplicit false

namespace TB.RateLimiter
open TB.CommonTypes TokenBuckets

inductive RateCategory where
  | order | query | publicData
  deriving DecidableEq

structure TokenBucket (F : Type) where
  maxTokens : F
  refillRate : F
  tokens : F
  lastRefill : ℤ

structure Sleeper where
  category : RateCategory
  deadline : ℤ

structure LimiterState (F : Type) where
  buckets : RateCategory → TokenBucket F
  waiting : ℕ → Option Sleeper
  clock : ℤ
  grants : List (RateCategory × ℤ)

inductive LimiterEvent where
  | call (i : ℕ) (path : String) (now : ℤ)
  | wake (i : ℕ) (now : ℤ)

def pathHas (path part : String) : Bool := decide (part.toList <:+: path.toList)

def categorizePath (path : String) : RateCategory :=
  if pathHas path "/order/place" ∨ pathHas path "/order/cancel" ∨ pathHas path "/order/batch" ∨
      pathHas path "/order/close" ∨ pathHas path "/order/reversal" then .order
  else if pathHas path "/public/" then .publicData
  else .query

section Limiter
variable {F : Type} [DoubleRounding F]

def newBucket (maxTokens refillRate : F) (made : ℤ) : TokenBucket F :=
  ⟨maxTokens, refillRate, maxTokens, made⟩

def newBuckets (made : RateCategory → ℤ) : RateCategory → TokenBucket F
  | .order => newBucket 10.0 10.0 (made .order)
  | .query => newBucket 20.0 20.0 (made .query)
  | .publicData => newBucket 20.0 20.0 (made .publicData)

def newLimiter (made : RateCategory → ℤ) (clock : ℤ) : LimiterState F :=
  ⟨newBuckets made, fun _ => none, clock, []⟩

def refilled (bucket : TokenBucket F) (now : ℤ) : TokenBucket F :=
  let elapsedSec := ofInt (now - bucket.lastRefill) / 1e9
  if 1e-6 ≤ elapsedSec then
    { bucket with
      tokens := stdMin bucket.maxTokens (bucket.tokens + elapsedSec * bucket.refillRate)
      lastRefill := now }
  else bucket

def waitMs (bucket : TokenBucket F) : ℤ :=
  toInt ((1.0 - bucket.tokens) / bucket.refillRate * 1000.0)

def attempt (bucket : TokenBucket F) (now : ℤ) : TokenBucket F × Option ℤ :=
  let bucket := refilled bucket now
  if 1.0 ≤ bucket.tokens then ({ bucket with tokens := bucket.tokens - 1.0 }, none)
  else (bucket, some (waitMs bucket))

def round (s : LimiterState F) (i : ℕ) (c : RateCategory) (now : ℤ) : LimiterState F :=
  let (bucket, wait) := attempt (s.buckets c) now
  { buckets := Function.update s.buckets c bucket
    waiting := Function.update s.waiting i
      (wait.map (fun ms => ⟨c, now + ms * 1000000⟩))
    clock := now
    grants := if wait.isNone then s.grants ++ [(c, now)] else s.grants }

def step (s : LimiterState F) : LimiterEvent → Option (LimiterState F)
  | .call i path now =>
    if s.clock ≤ now ∧ s.waiting i = none then some (round s i (categorizePath path) now)
    else none
  | .wake i now =>
    match s.waiting i with
    | none => none
    | some w => if s.clock ≤ now ∧ w.deadline ≤ now then some (round s i w.category now) else none

def run (s : LimiterState F) (es : List LimiterEvent) : Option (LimiterState F) :=
  es.foldlM step s

end Limiter

section Reading

def seconds (t : ℤ) : ℚ := t / 10 ^ 9

theorem seconds_mono {t u : ℤ} (h : t ≤ u) : seconds t ≤ seconds u := by
  have hcast : (t : ℚ) ≤ u := Int.cast_le.mpr h
  exact div_le_div_of_nonneg_right hcast (by norm_num)

def grain : ℚ := 1 / 10 ^ 6

theorem grain_pos : 0 < grain := by norm_num [grain]

def level (b : TokenBucket ℚ) : Bucket ℚ := ⟨b.tokens, seconds b.lastRefill⟩

variable (b : TokenBucket ℚ) (now : ℤ)

theorem level_refilled :
    level (refilled b now) = refill b.maxTokens b.refillRate grain (level b) (seconds now) := by
  have helapsed : (ofInt (now - b.lastRefill) : ℚ) / 1e9 = seconds now - (level b).last := by
    show ((now - b.lastRefill : ℤ) : ℚ) / 1e9 = seconds now - seconds b.lastRefill
    unfold seconds
    push_cast
    ring
  have hgrain : (1e-6 : ℚ) = grain := by norm_num [grain]
  unfold refilled
  simp only [helapsed, hgrain]
  unfold refill
  split_ifs
  · rw [stdMin_rat]
    rfl
  · rfl

theorem refilled_rates :
    (refilled b now).maxTokens = b.maxTokens ∧ (refilled b now).refillRate = b.refillRate := by
  unfold refilled
  extract_lets
  split_ifs <;> exact ⟨rfl, rfl⟩

theorem refilled_last {b : TokenBucket ℚ} {now : ℤ} (h : b.lastRefill ≤ now) :
    (refilled b now).lastRefill ≤ now := by
  unfold refilled
  extract_lets
  split_ifs
  · exact le_rfl
  · exact h

theorem attempt_cases : (1 ≤ (refilled b now).tokens ∧
        attempt b now = ({ refilled b now with tokens := (refilled b now).tokens - 1 }, none)) ∨
      ((refilled b now).tokens < 1 ∧
        attempt b now = (refilled b now, some (waitMs (refilled b now)))) := by
  have hone : (1.0 : ℚ) = 1 := by norm_num
  unfold attempt
  simp only [hone]
  split_ifs with h
  · exact Or.inl ⟨h, rfl⟩
  · exact Or.inr ⟨not_le.mp h, rfl⟩

theorem attempt_rates : (attempt b now).1.maxTokens = b.maxTokens ∧
      (attempt b now).1.refillRate = b.refillRate := by
  rcases attempt_cases b now with ⟨-, h⟩ | ⟨-, h⟩ <;> rw [h] <;> exact refilled_rates b now

theorem attempt_last {b : TokenBucket ℚ} {now : ℤ} (h : b.lastRefill ≤ now) :
    (attempt b now).1.lastRefill ≤ now := by
  rcases attempt_cases b now with ⟨-, heq⟩ | ⟨-, heq⟩ <;> rw [heq] <;> exact refilled_last h

theorem attempt_draw : draw b.maxTokens b.refillRate grain (level b) (seconds now) =
      (level (attempt b now).1, (attempt b now).2.isNone) := by
  have hlevel := level_refilled b now
  have htokens : (level (refilled b now)).tokens = (refilled b now).tokens := rfl
  rcases draw_cases b.maxTokens b.refillRate grain (level b) (seconds now) with
    ⟨hone, hdraw⟩ | ⟨hshort, hdraw⟩ <;> rw [← hlevel, htokens] at *
  · rcases attempt_cases b now with ⟨-, h⟩ | ⟨hless, -⟩
    · rw [hdraw, h]
      rfl
    · exact absurd hone (not_le.mpr hless)
  · rcases attempt_cases b now with ⟨hone, -⟩ | ⟨-, h⟩
    · exact absurd hshort (not_lt.mpr hone)
    · rw [hdraw, h]
      rfl

end Reading

section Rounds

def budget : RateCategory → ℚ
  | .order => 10
  | .query => 20
  | .publicData => 20

theorem budget_ge (c : RateCategory) : 1 ≤ budget c := by
  cases c <;> norm_num [budget]

theorem budget_pos (c : RateCategory) : 0 < budget c := one_pos.trans_le (budget_ge c)

def grantsIn (grants : List (RateCategory × ℤ)) (c : RateCategory) (s t : ℚ) : ℕ :=
  (grants.filter (fun g => g.1 = c ∧ s ≤ seconds g.2 ∧ seconds g.2 ≤ t)).length

variable {σ σ' : LimiterState ℚ} {i : ℕ} {c : RateCategory} {now : ℤ}

theorem step_cases {e : LimiterEvent} (h : step σ e = some σ') :
    (∃ i path now, e = .call i path now ∧ σ.clock ≤ now ∧ σ.waiting i = none ∧
        σ' = round σ i (categorizePath path) now) ∨
      (∃ i now w, e = .wake i now ∧ σ.clock ≤ now ∧ σ.waiting i = some w ∧
        σ' = round σ i w.category now) := by
  cases e with
  | call i path now =>
    simp only [step] at h
    split_ifs at h with hready
    exact Or.inl ⟨i, path, now, rfl, hready.1, hready.2, (Option.some.inj h).symm⟩
  | wake i now =>
    simp only [step] at h
    split at h
    · exact nomatch h
    · rename_i w hw
      split_ifs at h with hready
      exact Or.inr ⟨i, now, w, rfl, hready.1, hw, (Option.some.inj h).symm⟩

theorem step_round {e : LimiterEvent} (h : step σ e = some σ') :
    ∃ i c now, σ.clock ≤ now ∧ σ' = round σ i c now := by
  rcases step_cases h with ⟨i, path, now, -, hclock, -, rfl⟩ | ⟨i, now, w, -, hclock, -, rfl⟩
  · exact ⟨i, _, now, hclock, rfl⟩
  · exact ⟨i, _, now, hclock, rfl⟩

theorem round_bucket : (round σ i c now).buckets c = (attempt (σ.buckets c) now).1 :=
  Function.update_self c _ _

theorem round_other {c' : RateCategory} (h : c' ≠ c) :
    (round σ i c now).buckets c' = σ.buckets c' :=
  Function.update_of_ne h _ _

theorem round_waiting (σ : LimiterState ℚ) (i : ℕ) (c : RateCategory) (now : ℤ) :
    (round σ i c now).waiting i =
      (attempt (σ.buckets c) now).2.map (fun ms => ⟨c, now + ms * 1000000⟩) :=
  Function.update_self i _ _

theorem round_asleep {j : ℕ} (h : j ≠ i) : (round σ i c now).waiting j = σ.waiting j :=
  Function.update_of_ne h _ _

theorem round_log : (round σ i c now).grants =
    if (attempt (σ.buckets c) now).2.isNone then σ.grants ++ [(c, now)] else σ.grants := by
  unfold round
  rfl

structure Good (σ : LimiterState ℚ) : Prop where
  rates : ∀ c, (σ.buckets c).maxTokens = budget c ∧ (σ.buckets c).refillRate = budget c
  within : ∀ c, Within (budget c) (level (σ.buckets c))
  last : ∀ c, (σ.buckets c).lastRefill ≤ σ.clock
  sleep : ∀ i w, σ.waiting i = some w →
    seconds w.deadline ≤ seconds σ.clock + 1 / budget w.category

theorem good_new {made : RateCategory → ℤ} {clock : ℤ} (h : ∀ c, made c ≤ clock) :
    Good (newLimiter made clock) := by
  refine ⟨fun c => ?_, fun c => ?_, fun c => ?_, fun i w hw => nomatch hw⟩
  · cases c <;> norm_num [newLimiter, newBuckets, newBucket, budget]
  · cases c <;> norm_num [newLimiter, newBuckets, newBucket, budget, Within, level]
  · cases c <;> exact h _

theorem round_draw (h : Good σ) (i : ℕ) (c : RateCategory) (now : ℤ) :
    draw (budget c) (budget c) grain (level (σ.buckets c)) (seconds now) =
      (level ((round σ i c now).buckets c), (attempt (σ.buckets c) now).2.isNone) := by
  have hdraw := attempt_draw (σ.buckets c) now
  rw [(h.rates c).1, (h.rates c).2] at hdraw
  rw [hdraw, round_bucket]

theorem toInt_le {x : ℚ} (h : 0 ≤ x) : (toInt x : ℚ) ≤ x := by
  have hzero : ¬ x < 0.0 := by
    norm_num
    exact h
  rw [toInt, if_neg hzero]
  exact Int.floor_le x

theorem wait_le {b : TokenBucket ℚ} (hrate : 0 < b.refillRate) (h0 : 0 ≤ b.tokens)
    (h1 : b.tokens < 1) (now : ℤ) :
    seconds (now + waitMs b * 1000000) ≤ seconds now + 1 / b.refillRate := by
  have hone : (1.0 : ℚ) = 1 := by norm_num
  have hthousand : (1000.0 : ℚ) = 1000 := by norm_num
  have hnonneg : 0 ≤ (1 - b.tokens) / b.refillRate * 1000 :=
    mul_nonneg (div_nonneg (by linarith) hrate.le) (by norm_num)
  have hms : (waitMs b : ℚ) ≤ (1 - b.tokens) / b.refillRate * 1000 := by
    unfold waitMs
    rw [hone, hthousand]
    exact toInt_le hnonneg
  have hshare : (1 - b.tokens) / b.refillRate ≤ 1 / b.refillRate :=
    div_le_div_of_nonneg_right (by linarith) hrate.le
  unfold seconds
  push_cast
  rw [add_div]
  linarith

theorem good_round (h : Good σ) (hclock : σ.clock ≤ now) : Good (round σ i c now) := by
  refine ⟨fun d => ?_, fun d => ?_, fun d => ?_, fun j w hw => ?_⟩
  · rcases eq_or_ne d c with rfl | hne
    · rw [round_bucket, (attempt_rates _ _).1, (attempt_rates _ _).2]
      exact h.rates d
    · rw [round_other hne]
      exact h.rates d
  · rcases eq_or_ne d c with rfl | hne
    · have hlast : (level (σ.buckets d)).last ≤ seconds now :=
        seconds_mono ((h.last d).trans hclock)
      have hwithin : Within (budget d)
          (draw (budget d) (budget d) grain (level (σ.buckets d)) (seconds now)).1 :=
        draw_within (budget_pos d).le (budget_pos d).le hlast (h.within d)
      rwa [round_draw h i] at hwithin
    · rw [round_other hne]
      exact h.within d
  · rcases eq_or_ne d c with rfl | hne
    · rw [round_bucket]
      exact attempt_last ((h.last d).trans hclock)
    · rw [round_other hne]
      exact (h.last d).trans hclock
  · rcases eq_or_ne j i with rfl | hne
    · rw [round_waiting] at hw
      rcases attempt_cases (σ.buckets c) now with ⟨-, heq⟩ | ⟨hshort, heq⟩
      · rw [heq] at hw
        exact nomatch hw
      · rw [heq] at hw
        obtain rfl := Option.some.inj hw
        have hrate : (refilled (σ.buckets c) now).refillRate = budget c :=
          (refilled_rates _ _).2.trans (h.rates c).2
        have hwithin : Within (budget c) (level (refilled (σ.buckets c) now)) := by
          rw [level_refilled, (h.rates c).1, (h.rates c).2]
          exact refill_within (budget_pos c).le (budget_pos c).le
            (seconds_mono ((h.last c).trans hclock)) (h.within c)
        have hwait := wait_le (hrate ▸ budget_pos c) hwithin.1 hshort now
        rwa [hrate] at hwait
    · rw [round_asleep hne] at hw
      exact (h.sleep j w hw).trans (add_le_add_left (seconds_mono hclock) _)

theorem grantsIn_append (grants : List (RateCategory × ℤ)) (g : RateCategory × ℤ)
    (c : RateCategory) (s t : ℚ) : grantsIn (grants ++ [g]) c s t =
      grantsIn grants c s t + if g.1 = c ∧ s ≤ seconds g.2 ∧ seconds g.2 ≤ t then 1 else 0 := by
  unfold grantsIn
  rw [List.filter_append, List.length_append]
  split_ifs with h <;> simp [h]

theorem round_grants (c' : RateCategory) (s t : ℚ) :
    grantsIn (round σ i c now).grants c' s t = grantsIn σ.grants c' s t +
      if c' = c then count s t (attempt (σ.buckets c) now).2.isNone (seconds now) else 0 := by
  rw [round_log]
  cases h : (attempt (σ.buckets c) now).2.isNone with
  | true =>
    rw [if_pos rfl, grantsIn_append]
    rcases eq_or_ne c' c with rfl | hne
    · simp [count]
    · simp [hne, hne.symm]
  | false => simp [count]

def Accounted (s t : ℚ) (σ : LimiterState ℚ) : Prop :=
  ∀ c, ∃ k, k ≤ seconds σ.clock ∧ (level (σ.buckets c)).last ≤ k ∧
    Account (budget c) (budget c) grain s t (level (σ.buckets c)) k (grantsIn σ.grants c s t)

theorem accounted_new {made : RateCategory → ℤ} {clock : ℤ} (h : ∀ c, made c ≤ clock) {s t : ℚ}
    (hst : s ≤ t) : Accounted s t (newLimiter made clock) := by
  intro c
  have hgood := good_new h
  exact ⟨_, seconds_mono (hgood.last c), le_rfl,
    account_start (budget_pos c) (budget_pos c) grain_pos hst (hgood.within c).2 rfl⟩

theorem accounted_round {s t : ℚ} (hgood : Good σ) (h : Accounted s t σ)
    (hclock : σ.clock ≤ now) : Accounted s t (round σ i c now) := by
  intro d
  obtain ⟨k, hk, hlast, haccount⟩ := h d
  have hnow : k ≤ seconds now := hk.trans (seconds_mono hclock)
  rw [round_grants]
  rcases eq_or_ne d c with rfl | hne
  · have hread := account_draw (budget_pos d) grain_pos haccount hnow (hlast.trans hnow)
      (hgood.within d)
    have hcurrent : (level ((round σ i d now).buckets d)).last ≤ seconds now := by
      rw [round_bucket]
      exact seconds_mono (attempt_last ((hgood.last d).trans hclock))
    rw [round_draw hgood i] at hread
    rw [if_pos rfl]
    exact ⟨seconds now, le_rfl, hcurrent, hread⟩
  · rw [if_neg hne, Nat.add_zero, round_other hne]
    exact ⟨k, hnow, hlast, haccount⟩

end Rounds

end TB.RateLimiter
