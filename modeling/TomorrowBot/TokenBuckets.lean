import Mathlib.Algebra.Order.Field.Basic
import Mathlib.Tactic.Linarith
import Mathlib.Tactic.Ring

/-!
# Buckets of tokens

A bucket is refilled in proportion to the time that has passed, up to its
capacity, but not for a time shorter than a grain. A reading takes one token
where there is one. What was taken in a window of time is bounded by a full
bucket and by what the window refills.
-/

set_option autoImplicit false

namespace TokenBuckets

structure Bucket (K : Type*) where
  tokens : K
  last : K

variable {K : Type*} [Field K] [LinearOrder K] (capacity rate grain : K)

def refill (b : Bucket K) (now : K) : Bucket K :=
  if grain ≤ now - b.last then ⟨min capacity (b.tokens + (now - b.last) * rate), now⟩ else b

def draw (b : Bucket K) (now : K) : Bucket K × Bool :=
  let b := refill capacity rate grain b now
  if 1 ≤ b.tokens then (⟨b.tokens - 1, b.last⟩, true) else (b, false)

def Within (b : Bucket K) : Prop := 0 ≤ b.tokens ∧ b.tokens ≤ capacity

variable {capacity rate grain} {b : Bucket K} {clock now : K}

theorem refill_last (hl : b.last ≤ now) : (refill capacity rate grain b now).last ≤ now := by
  unfold refill
  split_ifs
  · exact le_rfl
  · exact hl

theorem draw_cases (capacity rate grain : K) (b : Bucket K) (now : K) :
    (1 ≤ (refill capacity rate grain b now).tokens ∧ draw capacity rate grain b now =
        (⟨(refill capacity rate grain b now).tokens - 1,
          (refill capacity rate grain b now).last⟩, true)) ∨
      ((refill capacity rate grain b now).tokens < 1 ∧
        draw capacity rate grain b now = (refill capacity rate grain b now, false)) := by
  unfold draw
  extract_lets
  split_ifs with h
  · exact Or.inl ⟨h, rfl⟩
  · exact Or.inr ⟨not_le.mp h, rfl⟩

theorem draw_last (hl : b.last ≤ now) : (draw capacity rate grain b now).1.last ≤ now := by
  rcases draw_cases capacity rate grain b now with ⟨-, heq⟩ | ⟨-, heq⟩ <;> rw [heq] <;>
    exact refill_last hl

def Waits (rate : K) (b₀ b : Bucket K) : Prop :=
  1 ≤ b.tokens ∨ b.tokens = b₀.tokens + (b.last - b₀.last) * rate

def ready (rate grain : K) (b : Bucket K) : K := b.last + (1 - b.tokens) / rate + grain

variable {b₀ : Bucket K}

theorem waits_self : Waits rate b b := Or.inr (by ring)

section Ordered
variable [IsStrictOrderedRing K]

/-- A bucket is never a grain behind the reading. -/
theorem refill_recent (hg : 0 < grain) :
    now - grain < (refill capacity rate grain b now).last := by
  unfold refill
  split_ifs with h
  · exact sub_lt_self now hg
  · exact sub_lt_comm.mp (not_le.mp h)

theorem refill_within (hr : 0 ≤ rate) (hc : 0 ≤ capacity) (hl : b.last ≤ now)
    (h : Within capacity b) : Within capacity (refill capacity rate grain b now) := by
  unfold refill
  split_ifs
  · have hadd : 0 ≤ (now - b.last) * rate := mul_nonneg (sub_nonneg.mpr hl) hr
    exact ⟨le_min hc (add_nonneg h.1 hadd), min_le_left _ _⟩
  · exact h

theorem refill_gain : (refill capacity rate grain b now).tokens -
    rate * (refill capacity rate grain b now).last ≤ b.tokens - rate * b.last := by
  unfold refill
  split_ifs
  · have hle := min_le_right capacity (b.tokens + (now - b.last) * rate)
    simp only
    linarith
  · exact le_rfl

theorem draw_within (hr : 0 ≤ rate) (hc : 0 ≤ capacity) (hl : b.last ≤ now)
    (h : Within capacity b) : Within capacity (draw capacity rate grain b now).1 := by
  have hrefill : Within capacity (refill capacity rate grain b now) := refill_within hr hc hl h
  rcases draw_cases capacity rate grain b now with ⟨hone, heq⟩ | ⟨-, heq⟩
  · rw [heq]
    exact ⟨sub_nonneg.mpr hone, (sub_le_self _ zero_le_one).trans hrefill.2⟩
  · rw [heq]
    exact hrefill

structure Account (capacity rate grain s t : K) (b : Bucket K) (clock : K) (taken : ℕ) :
    Prop where
  early : clock < s → taken = 0
  inside : s ≤ clock → clock ≤ t → taken + b.tokens < capacity + rate * (b.last - s + grain)
  bound : (taken : K) < capacity + rate * (t - s) + rate * grain

def count (s t : K) (granted : Bool) (now : K) : ℕ :=
  if granted = true ∧ s ≤ now ∧ now ≤ t then 1 else 0

theorem account_start {s t : K} (hc : 0 < capacity) (hr : 0 < rate) (hg : 0 < grain)
    (hst : s ≤ t) (hb : b.tokens ≤ capacity) (hl : b.last = clock) :
    Account capacity rate grain s t b clock 0 := by
  have hwindow : 0 ≤ rate * (t - s) := mul_nonneg hr.le (sub_nonneg.mpr hst)
  have hgrain : 0 < rate * grain := mul_pos hr hg
  refine ⟨fun _ => rfl, fun hs _ => ?_, ?_⟩
  · have hsince : 0 ≤ rate * (clock - s) := mul_nonneg hr.le (sub_nonneg.mpr hs)
    rw [hl, mul_add, Nat.cast_zero]
    linarith
  · rw [Nat.cast_zero]
    linarith

/-- After the refill of a reading in the window, the account covers what is in the bucket. -/
theorem account_refill {s t : K} {taken : ℕ} (hr : 0 < rate) (hg : 0 < grain)
    (h : Account capacity rate grain s t b clock taken) (hclock : clock ≤ now)
    (hb : b.tokens ≤ capacity) (hs : s ≤ now) (ht : now ≤ t) :
    taken + (refill capacity rate grain b now).tokens <
      capacity + rate * ((refill capacity rate grain b now).last - s + grain) := by
  rcases lt_or_ge clock s with hearly | hlate
  · have hfull : (refill capacity rate grain b now).tokens ≤ capacity := by
      unfold refill
      split_ifs
      · exact min_le_left _ _
      · exact hb
    have hnear : now - grain < (refill capacity rate grain b now).last := refill_recent hg
    have hrecent : 0 < (refill capacity rate grain b now).last - s + grain := by linarith
    have hpos := mul_pos hr hrecent
    rw [h.early hearly, Nat.cast_zero]
    linarith
  · have hold := h.inside hlate (hclock.trans ht)
    have hgain : (refill capacity rate grain b now).tokens -
        rate * (refill capacity rate grain b now).last ≤ b.tokens - rate * b.last := refill_gain
    rw [mul_add, mul_sub] at hold ⊢
    linarith

theorem account_draw {s t : K} {taken : ℕ} (hr : 0 < rate) (hg : 0 < grain)
    (h : Account capacity rate grain s t b clock taken) (hclock : clock ≤ now)
    (hl : b.last ≤ now) (hb : Within capacity b) :
    Account capacity rate grain s t (draw capacity rate grain b now).1 now
      (taken + count s t (draw capacity rate grain b now).2 now) := by
  by_cases hwindow : s ≤ now ∧ now ≤ t
  · obtain ⟨hs, ht⟩ := hwindow
    have hrefill := account_refill hr hg h hclock hb.2 hs ht
    have hafter : ((taken + count s t (draw capacity rate grain b now).2 now : ℕ) : K) +
        (draw capacity rate grain b now).1.tokens <
          capacity + rate * ((draw capacity rate grain b now).1.last - s + grain) := by
      rcases draw_cases capacity rate grain b now with ⟨-, heq⟩ | ⟨-, heq⟩
      · rw [heq, count, if_pos ⟨rfl, hs, ht⟩]
        push_cast
        linarith
      · rw [heq, count, if_neg (by simp)]
        exact hrefill
    refine ⟨fun hlt => absurd hs (not_le.mpr hlt), fun _ _ => hafter, ?_⟩
    have hnonneg : 0 ≤ (draw capacity rate grain b now).1.tokens :=
      (draw_within hr.le (hb.1.trans hb.2) hl hb).1
    have hlast : (draw capacity rate grain b now).1.last ≤ t := (draw_last hl).trans ht
    have hend := mul_le_mul_of_nonneg_left hlast hr.le
    rw [mul_add, mul_sub] at hafter
    rw [mul_sub]
    linarith
  · have hnone : count s t (draw capacity rate grain b now).2 now = 0 :=
      if_neg (fun hin => hwindow hin.2)
    rw [hnone, Nat.add_zero]
    refine ⟨fun hlt => h.early (hclock.trans_lt hlt), fun hs ht => absurd ⟨hs, ht⟩ hwindow, h.bound⟩

theorem waits_refill (hr : 0 ≤ rate) (hc : 1 ≤ capacity) (hl : b.last ≤ now)
    (hw : Waits rate b₀ b) (hshort : (refill capacity rate grain b now).tokens < 1) :
    (refill capacity rate grain b now).tokens =
      b₀.tokens + ((refill capacity rate grain b now).last - b₀.last) * rate := by
  have hadd : 0 ≤ (now - b.last) * rate := mul_nonneg (sub_nonneg.mpr hl) hr
  unfold refill at hshort ⊢
  split_ifs at hshort ⊢ with hlong
  · have hroom : b.tokens + (now - b.last) * rate < 1 :=
      (min_lt_iff.mp hshort).resolve_left (not_lt.mpr hc)
    simp only
    rw [min_eq_right (hroom.le.trans hc)]
    rcases hw with hone | hw
    · linarith
    · rw [hw]
      ring
  · exact hw.resolve_left (not_le.mpr hshort)

theorem waits_draw (hr : 0 ≤ rate) (hc : 1 ≤ capacity) (hl : b.last ≤ now)
    (hw : Waits rate b₀ b) (hnone : (draw capacity rate grain b now).2 = false) :
    Waits rate b₀ (draw capacity rate grain b now).1 := by
  rcases draw_cases capacity rate grain b now with ⟨-, heq⟩ | ⟨hshort, heq⟩
  · rw [heq] at hnone
    exact nomatch hnone
  · rw [heq]
    exact Or.inr (waits_refill hr hc hl hw hshort)

theorem ready_granted (hr : 0 < rate) (hg : 0 < grain) (hc : 1 ≤ capacity) (hl : b.last ≤ now)
    (hw : Waits rate b₀ b) (hready : ready rate grain b₀ ≤ now) :
    (draw capacity rate grain b now).2 = true := by
  rcases draw_cases capacity rate grain b now with ⟨-, heq⟩ | ⟨hshort, heq⟩
  · rw [heq]
  · have htokens := waits_refill hr.le hc hl hw hshort
    have hrecent : now - grain < (refill capacity rate grain b now).last := refill_recent hg
    have hspan : (1 - b₀.tokens) / rate ≤
        (refill capacity rate grain b now).last - b₀.last := by
      unfold ready at hready
      linarith
    have hgain := (div_le_iff₀ hr).mp hspan
    linarith

end Ordered

end TokenBuckets
