import TomorrowBot.TwapExecutor
import TomorrowBot.Runs
import Mathlib.Tactic.Linarith
import Mathlib.Tactic.Ring

/-!
# A plan as it is carried out

Slices are dispatched and their fills recorded in any order, with a clock that
does not run backwards. The dispatches are in order and on time on every run;
the order is taken to be completed when the last slice was sent, and the
average price is lost when the filled quantity is not positive.
-/

set_option autoImplicit false

namespace TB.TwapRuns
open TB.CommonTypes TB.ExecutionPlanner TB.TwapExecutor

structure Dispatch where
  index : ℕ
  sentAt : ℤ
  offset : ℤ

structure Session where
  order : TwapOrder
  now : ℤ
  start : Option ℤ
  dispatched : List Dispatch
  costs : List ℚ

inductive TwapOp where
  | getNextSlice (snapshot : FeatureSnapshot) (wait : ℕ)
  | recordSliceFill (sliceIndex : ℕ) (filledQty fillPrice : ℚ)

def taken (t : TwapOrder) (sliceIndex : ℕ) (fillPrice : ℚ) : Bool :=
  (t.slices[sliceIndex]?).any (fun slice => !slice.filled) && decide (0 < fillPrice)

def offsetOf (t : TwapOrder) : ℤ := (t.slices[t.nextSlice]?).elim 0 (fun s => s.scheduledAtMs)

def twapStep (e : SmartTwapExecutor) (s : Session) : TwapOp → Session
  | .getNextSlice snapshot wait =>
    let now := s.now + wait
    let next := getNextSlice e s.order snapshot now
    { s with
      order := next.1
      now := now
      start := if isComplete s.order then s.start else some (s.start.getD now)
      dispatched :=
        if next.2.isSome then s.dispatched ++ [⟨s.order.nextSlice, now, offsetOf s.order⟩]
        else s.dispatched }
  | .recordSliceFill sliceIndex filledQty fillPrice =>
    { s with
      order := recordSliceFill s.order sliceIndex filledQty fillPrice
      costs := if taken s.order sliceIndex fillPrice then
          s.costs.set sliceIndex (fillPrice * filledQty)
        else s.costs }

def startSession (e : SmartTwapExecutor) (seq : ℕ) (intent : TradeIntent ℚ)
    (snapshot : FeatureSnapshot) (approvedQty : ℚ) (now : ℤ) : Session :=
  let plan := createTwapPlan e seq intent snapshot approvedQty
  ⟨plan, now, none, [], plan.slices.map (fun _ => 0)⟩

def filledSum (slices : List TwapSlice) : ℚ :=
  ((slices.filter (fun slice : TwapSlice => slice.filled)).map (fun slice => slice.filledQty)).sum

structure Truthful (s : Session) : Prop where
  complete : s.order.completed = true → ∀ slice ∈ s.order.slices, slice.filled = true
  quantity : s.order.filledQty = filledSum s.order.slices
  cost : s.order.avgFillPrice * s.order.filledQty = s.costs.sum
  ordered : (s.dispatched.map (fun d => d.index)).Pairwise (· < ·)
  onTime : ∀ d ∈ s.dispatched, ∀ t ∈ s.start, d.offset ≤ d.sentAt - t

/-- A dispatch call that finds no slice left finds every slice filled; a recorded
fill leaves a positive quantity, or takes none, or has the average price. -/
def InStep (s : Session) : TwapOp → Prop
  | .getNextSlice _ _ =>
    isComplete s.order = false → s.order.slices.length ≤ s.order.nextSlice →
      ∀ slice ∈ s.order.slices, slice.filled = true
  | .recordSliceFill sliceIndex filledQty fillPrice =>
    taken s.order sliceIndex fillPrice = true →
      0 < s.order.filledQty + filledQty ∨ filledQty = 0 ∨ s.order.avgFillPrice = fillPrice

structure Sound (s : Session) : Prop where
  costs : s.costs.length = s.order.slices.length
  unpaid : ∀ (i : ℕ) (slice : TwapSlice), s.order.slices[i]? = some slice → slice.filled = false →
    s.costs[i]? = some 0
  indices : s.dispatched.map (fun d => d.index) = List.range s.order.nextSlice
  unstarted : s.start = none → s.order.startedAtMs = 0 ∧ s.dispatched = []
  started : ∀ t ∈ s.start, t ≤ s.order.startedAtMs ∧ t ≤ s.now
  onTime : ∀ d ∈ s.dispatched, ∀ t ∈ s.start, d.offset ≤ d.sentAt - t

section Dispatching

def begun (t : TwapOrder) (now : ℤ) : TwapOrder :=
  if t.startedAtMs = 0 then { t with startedAtMs := now } else t

theorem begun_keeps (t : TwapOrder) (now : ℤ) :
    (begun t now).slices = t.slices ∧ (begun t now).nextSlice = t.nextSlice ∧
      (begun t now).completed = t.completed ∧ (begun t now).filledQty = t.filledQty ∧
      (begun t now).avgFillPrice = t.avgFillPrice := by
  unfold begun
  split_ifs <;> exact ⟨rfl, rfl, rfl, rfl, rfl⟩

theorem le_begun (t : TwapOrder) (now start : ℤ) (hstarted : start ≤ t.startedAtMs)
    (hnow : start ≤ now) : start ≤ (begun t now).startedAtMs := by
  unfold begun
  split_ifs
  · exact hnow
  · exact hstarted

inductive Called (e : SmartTwapExecutor) (t : TwapOrder) (snapshot : FeatureSnapshot) (now : ℤ) :
    TwapOrder × Option (StrategyTypes.StrategyIntent ℚ) → Prop where
  | ended (h : t.slices.length ≤ t.nextSlice) :
    Called e t snapshot now ({ begun t now with completed := true }, none)
  | early (slice : TwapSlice) (h : t.slices[t.nextSlice]? = some slice) :
    Called e t snapshot now (begun t now, none)
  | sent (slice : TwapSlice) (h : t.slices[t.nextSlice]? = some slice)
      (hdue : slice.scheduledAtMs ≤ now - (begun t now).startedAtMs) :
    Called e t snapshot now
      ({ begun t now with
          slices := (begun t now).slices.mapIdx (afterDispatch (begun t now).nextSlice slice
            (computeSlicePrice e (begun t now).side sliceUrgency snapshot)
            (computeAdaptiveInterval e snapshot))
          nextSlice := (begun t now).nextSlice + 1 },
        some (sliceIntent e (begun t now) slice snapshot))

theorem getNextSlice_called (e : SmartTwapExecutor) (t : TwapOrder) (snapshot : FeatureSnapshot)
    (now : ℤ) (h : isComplete t = false) :
    Called e t snapshot now (getNextSlice e t snapshot now) := by
  obtain ⟨hslices, hnext, -⟩ := begun_keeps t now
  have hbegun : (if t.startedAtMs = 0 then { t with startedAtMs := now } else t) = begun t now :=
    rfl
  unfold isComplete at h
  rw [getNextSlice, if_neg (by simpa using h)]
  simp only [hbegun]
  cases hslice : (begun t now).slices[(begun t now).nextSlice]? with
  | none =>
    rw [hslices, hnext] at hslice
    exact .ended (List.getElem?_eq_none_iff.mp hslice)
  | some slice =>
    rw [hslices, hnext] at hslice
    by_cases hdue : now - (begun t now).startedAtMs < slice.scheduledAtMs
    · simp only [if_pos hdue]
      exact .early slice hslice
    · simp only [if_neg hdue]
      exact .sent slice hslice (not_lt.mp hdue)

theorem afterDispatch_fill (idx : ℕ) (sent : TwapSlice) (price : ℚ) (intervalMs : ℤ) (i : ℕ)
    (slice : TwapSlice) :
    (afterDispatch idx sent price intervalMs i slice).filled = slice.filled ∧
      (afterDispatch idx sent price intervalMs i slice).filledQty = slice.filledQty := by
  unfold afterDispatch
  split_ifs <;> exact ⟨rfl, rfl⟩

def SameFills (xs ys : List TwapSlice) : Prop :=
  xs.map (fun slice => (slice.filled, slice.filledQty)) =
    ys.map (fun slice => (slice.filled, slice.filledQty))

theorem sameFills_afterDispatch (xs : List TwapSlice) (idx : ℕ) (sent : TwapSlice) (price : ℚ)
    (intervalMs : ℤ) : SameFills (xs.mapIdx (afterDispatch idx sent price intervalMs)) xs := by
  unfold SameFills
  apply List.ext_getElem
  · simp
  · intro i hi hi'
    simp [afterDispatch_fill]

theorem filledSum_eq (xs : List TwapSlice) :
    filledSum xs = (xs.map (fun slice => if slice.filled then slice.filledQty else 0)).sum := by
  unfold filledSum
  induction xs with
  | nil => rfl
  | cons x xs ih =>
    rw [List.filter_cons, List.map_cons, List.sum_cons, ← ih]
    split_ifs
    · rfl
    · exact (zero_add _).symm

variable {xs ys : List TwapSlice}

theorem sameFills_sum (h : SameFills xs ys) : filledSum xs = filledSum ys := by
  have hmap := congrArg (List.map (fun p : Bool × ℚ => if p.1 then p.2 else 0)) h
  rw [List.map_map, List.map_map] at hmap
  rw [filledSum_eq, filledSum_eq]
  exact congrArg List.sum hmap

theorem sameFills_length (h : SameFills xs ys) : xs.length = ys.length := by
  simpa using congrArg List.length h

theorem sameFills_filled (h : SameFills xs ys) :
    (∀ slice ∈ xs, slice.filled = true) ↔ ∀ slice ∈ ys, slice.filled = true := by
  have hmap := congrArg (List.map Prod.fst) h
  rw [List.map_map, List.map_map] at hmap
  have hxs : (∀ slice ∈ xs, slice.filled = true) ↔
      ∀ b ∈ xs.map (Prod.fst ∘ fun slice => (slice.filled, slice.filledQty)), b = true := by
    simp
  have hys : (∀ slice ∈ ys, slice.filled = true) ↔
      ∀ b ∈ ys.map (Prod.fst ∘ fun slice => (slice.filled, slice.filledQty)), b = true := by
    simp
  rw [hxs, hys, hmap]

theorem sameFills_unfilled (h : SameFills xs ys) (i : ℕ)
    (slice : TwapSlice) (hi : xs[i]? = some slice) :
    ∃ slice', ys[i]? = some slice' ∧ slice'.filled = slice.filled := by
  have hget := congrArg (fun l => l[i]?) h
  simp only [List.getElem?_map, hi, Option.map_some] at hget
  obtain ⟨slice', hi', hpair⟩ := Option.map_eq_some_iff.mp hget.symm
  exact ⟨slice', hi', congrArg Prod.fst hpair⟩

end Dispatching

section Steps
variable (e : SmartTwapExecutor)

structure Kept (t u : TwapOrder) (now : ℤ) : Prop where
  fills : SameFills u.slices t.slices
  filledQty : u.filledQty = t.filledQty
  avgFillPrice : u.avgFillPrice = t.avgFillPrice
  startedAtMs : u.startedAtMs = (begun t now).startedAtMs
  completed : u.completed = true ↔ t.completed = true ∨ t.slices.length ≤ t.nextSlice

theorem called_kept (t : TwapOrder) (snapshot : FeatureSnapshot) (now : ℤ)
    (r : TwapOrder × Option (StrategyTypes.StrategyIntent ℚ)) (h : Called e t snapshot now r) :
    Kept t r.1 now := by
  obtain ⟨hslices, hnext, hcompleted, hfilled, havg⟩ := begun_keeps t now
  cases h with
  | ended hover =>
    refine ⟨by rw [SameFills, hslices], hfilled, havg, rfl, ?_⟩
    exact iff_of_true rfl (.inr hover)
  | early slice hslice =>
    have hin := (List.getElem?_eq_some_iff.mp hslice).1
    refine ⟨by rw [SameFills, hslices], hfilled, havg, rfl, ?_⟩
    rw [hcompleted, or_iff_left (not_le.mpr hin)]
  | sent slice hslice hdue =>
    have hin := (List.getElem?_eq_some_iff.mp hslice).1
    refine ⟨?_, hfilled, havg, rfl, ?_⟩
    · rw [hslices]
      exact sameFills_afterDispatch t.slices _ slice _ _
    · exact (by rw [hcompleted] : (begun t now).completed = true ↔ _).trans
        (or_iff_left (not_le.mpr hin)).symm

variable (s : Session)

theorem sound_start (now : ℤ) (hnow : s.now ≤ now) (h : Sound s) :
    s.start.getD now ≤ (begun s.order now).startedAtMs ∧ s.start.getD now ≤ now ∧
      ∀ d ∈ s.dispatched, d.offset ≤ d.sentAt - s.start.getD now := by
  cases hstart : s.start with
  | none =>
    obtain ⟨hzero, hnone⟩ := h.unstarted hstart
    refine ⟨?_, le_rfl, fun d hd => ?_⟩
    · rw [begun, if_pos hzero]
      exact le_rfl
    · rw [hnone] at hd
      exact absurd hd List.not_mem_nil
  | some t =>
    obtain ⟨hstarted, hbefore⟩ := h.started t hstart
    exact ⟨le_begun s.order now t hstarted (le_trans hbefore hnow), le_trans hbefore hnow,
      fun d hd => h.onTime d hd t hstart⟩

theorem unpaid_kept (u : TwapOrder) (h : Sound s)
    (hfills : SameFills u.slices s.order.slices) (i : ℕ) (slice : TwapSlice)
    (hi : u.slices[i]? = some slice) (hunfilled : slice.filled = false) :
    s.costs[i]? = some 0 := by
  obtain ⟨slice', hi', hsame⟩ := sameFills_unfilled hfills i slice hi
  exact h.unpaid i slice' hi' (hsame.trans hunfilled)

def logged (t : TwapOrder) (now : ℤ) (dispatched : List Dispatch)
    (r : TwapOrder × Option (StrategyTypes.StrategyIntent ℚ)) : List Dispatch :=
  if r.2.isSome then dispatched ++ [⟨t.nextSlice, now, offsetOf t⟩] else dispatched

theorem logged_indices (t : TwapOrder) (snapshot : FeatureSnapshot) (now : ℤ)
    (dispatched : List Dispatch) (r : TwapOrder × Option (StrategyTypes.StrategyIntent ℚ))
    (h : Called e t snapshot now r)
    (hlog : dispatched.map (fun d => d.index) = List.range t.nextSlice) :
    (logged t now dispatched r).map (fun d => d.index) = List.range r.1.nextSlice := by
  obtain ⟨-, hnext, -⟩ := begun_keeps t now
  cases h with
  | ended | early => exact hlog.trans (congrArg List.range hnext.symm)
  | sent slice hslice hdue =>
    change (dispatched ++ [_]).map _ = List.range ((begun t now).nextSlice + 1)
    rw [List.map_append, hlog, hnext, List.range_succ]
    rfl

theorem logged_onTime (t : TwapOrder) (snapshot : FeatureSnapshot) (now start : ℤ)
    (dispatched : List Dispatch) (r : TwapOrder × Option (StrategyTypes.StrategyIntent ℚ))
    (h : Called e t snapshot now r) (hstart : start ≤ (begun t now).startedAtMs)
    (hlog : ∀ d ∈ dispatched, d.offset ≤ d.sentAt - start) :
    ∀ d ∈ logged t now dispatched r, d.offset ≤ d.sentAt - start := by
  cases h with
  | ended hover => exact hlog
  | early slice hslice => exact hlog
  | sent slice hslice hdue =>
    intro d hd
    rcases List.mem_append.mp hd with hd | hd
    · exact hlog d hd
    · obtain rfl := List.mem_singleton.mp hd
      have hoffset : offsetOf t = slice.scheduledAtMs := by
        rw [offsetOf, hslice]
        rfl
      change offsetOf t ≤ now - start
      omega

variable (snapshot : FeatureSnapshot) (wait : ℕ)

theorem dispatch_over (h : isComplete s.order = true) :
    twapStep e s (.getNextSlice snapshot wait) = { s with now := s.now + wait } := by
  have hnone : getNextSlice e s.order snapshot (s.now + wait) = (s.order, none) := by
    unfold isComplete at h
    rw [getNextSlice, if_pos (by simpa using h)]
  simp only [twapStep, hnone, h, if_true, Option.isSome_none, Bool.false_eq_true, if_false]

theorem dispatch_called (h : isComplete s.order = false) :
    ∃ r, Called e s.order snapshot (s.now + wait) r ∧
      twapStep e s (.getNextSlice snapshot wait) =
        { s with
          order := r.1
          now := s.now + wait
          start := some (s.start.getD (s.now + wait))
          dispatched := logged s.order (s.now + wait) s.dispatched r } := by
  refine ⟨_, getNextSlice_called e s.order snapshot (s.now + wait) h, ?_⟩
  simp only [twapStep, h, Bool.false_eq_true, if_false]
  rfl

theorem dispatch_sound (h : Sound s) : Sound (twapStep e s (.getNextSlice snapshot wait)) := by
  have hnow : s.now ≤ s.now + wait := by omega
  cases hover : isComplete s.order with
  | true =>
    rw [dispatch_over e s snapshot wait hover]
    exact { h with started := fun t ht => ⟨(h.started t ht).1, le_trans (h.started t ht).2 hnow⟩ }
  | false =>
    obtain ⟨r, hcalled, hstep⟩ := dispatch_called e s snapshot wait hover
    have hkept := called_kept e s.order snapshot _ r hcalled
    obtain ⟨hstarted, hbefore, hontime⟩ := sound_start s (s.now + wait) hnow h
    rw [hstep]
    constructor
    · exact h.costs.trans (sameFills_length hkept.fills).symm
    · exact unpaid_kept s _ h hkept.fills
    · exact logged_indices e s.order snapshot _ _ r hcalled h.indices
    · exact fun hnone => absurd hnone (by simp)
    · intro t ht
      obtain rfl := Option.mem_some_iff.mp ht
      rw [hkept.startedAtMs]
      exact ⟨hstarted, hbefore⟩
    · intro d hd t ht
      obtain rfl := Option.mem_some_iff.mp ht
      exact logged_onTime e s.order snapshot _ _ _ r hcalled hstarted hontime d hd

theorem ordered_of_sound (h : Sound s) :
    (s.dispatched.map (fun d => d.index)).Pairwise (· < ·) := by
  rw [h.indices]
  exact List.pairwise_lt_range

/-- A dispatch call keeps the claims about the order unless it completes the
order with a slice unfilled. -/
theorem dispatch_truthful_iff (hs : Sound s) (h : Truthful s) :
    Truthful (twapStep e s (.getNextSlice snapshot wait)) ↔
      InStep s (.getNextSlice snapshot wait) := by
  have hsound := dispatch_sound e s snapshot wait hs
  cases hover : isComplete s.order with
  | true =>
    refine iff_of_true ?_ (fun hopen => absurd (hover.symm.trans hopen) (by simp))
    rw [dispatch_over e s snapshot wait hover] at hsound ⊢
    exact ⟨h.complete, h.quantity, h.cost, ordered_of_sound _ hsound, hsound.onTime⟩
  | false =>
    obtain ⟨r, hcalled, hstep⟩ := dispatch_called e s snapshot wait hover
    have hkept := called_kept e s.order snapshot _ r hcalled
    have hopen : ¬ s.order.completed = true := by
      unfold isComplete at hover
      rw [Bool.or_eq_false_iff] at hover
      simp [hover.1]
    rw [hstep] at hsound ⊢
    constructor
    · intro htruthful _ hend
      exact (sameFills_filled hkept.fills).mp
        (htruthful.complete (hkept.completed.mpr (.inr hend)))
    · intro hin
      refine ⟨fun hcompleted => ?_, ?_, ?_, ordered_of_sound _ hsound, hsound.onTime⟩
      · have hend := (hkept.completed.mp hcompleted).resolve_left hopen
        exact (sameFills_filled hkept.fills).mpr (hin hover hend)
      · exact hkept.filledQty.trans (h.quantity.trans (sameFills_sum hkept.fills).symm)
      · change r.1.avgFillPrice * r.1.filledQty = s.costs.sum
        rw [hkept.avgFillPrice, hkept.filledQty]
        exact h.cost

end Steps

section Fills

def withFill (t : TwapOrder) (i : ℕ) (slice : TwapSlice) (qty price : ℚ) : TwapOrder :=
  let slices := t.slices.set i { slice with filledQty := qty, filled := true }
  { t with
    slices := slices
    filledQty := t.filledQty + qty
    avgFillPrice :=
      if 0 < t.filledQty + qty then
        (t.avgFillPrice * t.filledQty + price * qty) / (t.filledQty + qty)
      else t.avgFillPrice
    completed := t.completed || (!slices.isEmpty && slices.all (fun s => s.filled)) }

variable (t : TwapOrder)

theorem taken_iff (i : ℕ) (price : ℚ) (slice : TwapSlice) (h : t.slices[i]? = some slice) :
    taken t i price = true ↔ slice.filled = false ∧ 0 < price := by
  simp [taken, h]

theorem record_taken (i : ℕ) (qty price : ℚ) (h : taken t i price = true) :
    ∃ slice, t.slices[i]? = some slice ∧ slice.filled = false ∧
      recordSliceFill t i qty price = withFill t i slice qty price := by
  cases hslice : t.slices[i]? with
  | none => simp [taken, hslice] at h
  | some slice =>
    obtain ⟨hunfilled, hprice⟩ := (taken_iff t i price slice hslice).mp h
    have hgood : ¬ (isfinite price = false ∨ price ≤ 0) := by
      rintro (hnan | hle)
      · exact absurd hnan (by simp [isfinite_rat])
      · exact not_le.mpr hprice hle
    refine ⟨slice, rfl, hunfilled, ?_⟩
    simp only [recordSliceFill, hslice]
    rw [if_neg (by simp [hunfilled]), if_neg hgood]
    rfl

theorem record_refused (i : ℕ) (qty price : ℚ) (h : taken t i price = false) :
    recordSliceFill t i qty price = t := by
  cases hslice : t.slices[i]? with
  | none => simp only [recordSliceFill, hslice]
  | some slice =>
    have hnot : ¬ (slice.filled = false ∧ 0 < price) := by
      rw [← taken_iff t i price slice hslice, h]
      exact Bool.false_ne_true
    simp only [recordSliceFill, hslice]
    cases hfilled : slice.filled with
    | true => rw [if_pos rfl]
    | false =>
      have hprice : price ≤ 0 := not_lt.mp (fun hp => hnot ⟨hfilled, hp⟩)
      rw [if_neg Bool.false_ne_true, if_pos (.inr hprice)]

theorem sum_set (l : List ℚ) (i : ℕ) (a b : ℚ) (h : l[i]? = some b) :
    (l.set i a).sum = l.sum - b + a := by
  obtain ⟨hi, rfl⟩ := List.getElem?_eq_some_iff.mp h
  rw [List.sum_set', dif_pos hi]
  ring

theorem filledSum_set (xs : List TwapSlice) (i : ℕ) (slice : TwapSlice) (qty : ℚ)
    (h : xs[i]? = some slice) (hunfilled : slice.filled = false) :
    filledSum (xs.set i { slice with filledQty := qty, filled := true }) = filledSum xs + qty := by
  rw [filledSum_eq, filledSum_eq, List.map_set, sum_set _ i _ 0]
  · simp
  · simp [h, hunfilled]

/-- The average price times the quantity, behind a fill, is the cost with that
of the fill exactly when the average could be formed. -/
theorem average_iff (avg filled qty price cost : ℚ) (h : avg * filled = cost) :
    (if 0 < filled + qty then (avg * filled + price * qty) / (filled + qty) else avg) *
        (filled + qty) = cost + price * qty ↔
      0 < filled + qty ∨ qty = 0 ∨ avg = price := by
  split_ifs with hpos
  · rw [div_mul_cancel₀ _ hpos.ne', h]
    exact iff_of_true rfl (.inl hpos)
  · rw [or_iff_right hpos, mul_add, h, add_right_inj, mul_eq_mul_right_iff, or_comm]

variable (e : SmartTwapExecutor) (s : Session)

theorem fill_refused (i : ℕ) (qty price : ℚ) (h : taken s.order i price = false) :
    twapStep e s (.recordSliceFill i qty price) = s := by
  simp only [twapStep, record_refused s.order i qty price h, h, Bool.false_eq_true, if_false]

theorem fill_taken (i : ℕ) (qty price : ℚ) (h : taken s.order i price = true) :
    ∃ slice, s.order.slices[i]? = some slice ∧ slice.filled = false ∧
      twapStep e s (.recordSliceFill i qty price) =
        { s with
          order := withFill s.order i slice qty price
          costs := s.costs.set i (price * qty) } := by
  obtain ⟨slice, hslice, hunfilled, hrecord⟩ := record_taken s.order i qty price h
  refine ⟨slice, hslice, hunfilled, ?_⟩
  simp only [twapStep, hrecord, h, if_true]

theorem record_sound (i : ℕ) (qty price : ℚ) (h : Sound s) :
    Sound (twapStep e s (.recordSliceFill i qty price)) := by
  cases htaken : taken s.order i price with
  | false =>
    rw [fill_refused e s i qty price htaken]
    exact h
  | true =>
    obtain ⟨slice, hslice, hunfilled, hstep⟩ := fill_taken e s i qty price htaken
    rw [hstep]
    refine ⟨?_, ?_, h.indices, h.unstarted, h.started, h.onTime⟩
    · simp only [withFill, List.length_set]
      exact h.costs
    · intro j other hj hother
      by_cases hji : i = j
      · subst hji
        have hin := (List.getElem?_eq_some_iff.mp hslice).1
        simp only [withFill, List.getElem?_set_self hin, Option.some.injEq] at hj
        subst hj
        exact absurd hother (by simp)
      · simp only [withFill, List.getElem?_set_ne hji] at hj
        exact (List.getElem?_set_ne hji).trans (h.unpaid j other hj hother)

/-- A recorded fill keeps the claims about the order exactly when the average
price can be formed. -/
theorem record_truthful_iff (i : ℕ) (qty price : ℚ) (hs : Sound s)
    (h : Truthful s) : Truthful (twapStep e s (.recordSliceFill i qty price)) ↔
      InStep s (.recordSliceFill i qty price) := by
  cases htaken : taken s.order i price with
  | false =>
    rw [fill_refused e s i qty price htaken]
    exact iff_of_true h (fun hno => absurd (htaken.symm.trans hno) Bool.false_ne_true)
  | true =>
    obtain ⟨slice, hslice, hunfilled, hstep⟩ := fill_taken e s i qty price htaken
    have hcosts : (s.costs.set i (price * qty)).sum = s.costs.sum + price * qty := by
      rw [sum_set s.costs i _ 0 (hs.unpaid i slice hslice hunfilled), sub_zero]
    have haverage := average_iff s.order.avgFillPrice s.order.filledQty qty price s.costs.sum
      h.cost
    rw [← hcosts] at haverage
    rw [hstep]
    constructor
    · exact fun htruthful _ => haverage.mp htruthful.cost
    · intro hin
      refine ⟨fun hcompleted => ?_, ?_, haverage.mpr (hin htaken), h.ordered, h.onTime⟩
      · rcases Bool.or_eq_true_iff.mp hcompleted with hbefore | hall
        · -- A completed order has no slice without a fill.
          have hfilled := h.complete hbefore slice (List.mem_of_getElem? hslice)
          exact absurd (hunfilled.symm.trans hfilled) Bool.false_ne_true
        · exact List.all_eq_true.mp (Bool.and_eq_true_iff.mp hall).2
      · change s.order.filledQty + qty = _
        rw [h.quantity]
        exact (filledSum_set s.order.slices i slice qty hslice hunfilled).symm

end Fills

section Runs
variable (e : SmartTwapExecutor) (seq : ℕ) (intent : TradeIntent ℚ) (snapshot : FeatureSnapshot)
  (approvedQty : ℚ) (now : ℤ)

theorem step_sound (s : Session) (op : TwapOp) (h : Sound s) : Sound (twapStep e s op) := by
  cases op with
  | getNextSlice snapshot wait => exact dispatch_sound e s snapshot wait h
  | recordSliceFill i qty price => exact record_sound e s i qty price h

theorem step_truthful_iff (s : Session) (op : TwapOp) (hs : Sound s) (h : Truthful s) :
    Truthful (twapStep e s op) ↔ InStep s op := by
  cases op with
  | getNextSlice snapshot wait => exact dispatch_truthful_iff e s snapshot wait hs h
  | recordSliceFill i qty price => exact record_truthful_iff e s i qty price hs h

theorem plan_unfilled : ∀ slice ∈ (createTwapPlan e seq intent snapshot approvedQty).slices,
    slice.filled = false := by
  unfold createTwapPlan
  split_ifs
  · exact fun slice h => absurd h List.not_mem_nil
  · intro slice h
    obtain ⟨i, hi, rfl⟩ := List.mem_mapIdx.mp h
    rfl

structure Fresh (t : TwapOrder) : Prop where
  nextSlice : t.nextSlice = 0
  startedAtMs : t.startedAtMs = 0
  completed : t.completed = false
  filledQty : t.filledQty = 0

theorem plan_fresh : Fresh (createTwapPlan e seq intent snapshot approvedQty) := by
  unfold createTwapPlan
  split_ifs <;> exact ⟨rfl, rfl, rfl, rfl⟩

theorem start_sound : Sound (startSession e seq intent snapshot approvedQty now) := by
  have hfresh := plan_fresh e seq intent snapshot approvedQty
  refine ⟨List.length_map _, ?_, ?_, fun _ => ⟨hfresh.startedAtMs, rfl⟩,
    fun t ht => absurd ht (by simp [startSession]),
    fun d hd => absurd hd (by simp [startSession])⟩
  · intro i slice hi _
    simp only [startSession] at hi ⊢
    rw [List.getElem?_map, hi, Option.map_some]
  · change [] = List.range (createTwapPlan e seq intent snapshot approvedQty).nextSlice
    rw [hfresh.nextSlice]
    rfl

theorem start_truthful : Truthful (startSession e seq intent snapshot approvedQty now) := by
  have hfresh := plan_fresh e seq intent snapshot approvedQty
  have hsound := start_sound e seq intent snapshot approvedQty now
  refine ⟨fun h => ?_, ?_, ?_, ordered_of_sound _ hsound, hsound.onTime⟩
  · exact absurd (hfresh.completed.symm.trans h) Bool.false_ne_true
  · have hnone : ((createTwapPlan e seq intent snapshot approvedQty).slices.filter
        (fun slice => slice.filled)) = [] := by
      rw [List.filter_eq_nil_iff]
      intro slice hslice
      rw [plan_unfilled e seq intent snapshot approvedQty slice hslice]
      exact Bool.false_ne_true
    change (createTwapPlan e seq intent snapshot approvedQty).filledQty = filledSum _
    rw [hfresh.filledQty, filledSum]
    simp only [startSession, hnone, List.map_nil, List.sum_nil]
  · change _ * (createTwapPlan e seq intent snapshot approvedQty).filledQty = _
    rw [hfresh.filledQty, mul_zero]
    simp [startSession]

/-- A plan is carried out as claimed throughout a run if and only if every step
meets the condition. -/
theorem truthful_iff (ops : List TwapOp) :
    Runs.Always (twapStep e) Truthful (startSession e seq intent snapshot approvedQty now) ops ↔
      Runs.Meets (twapStep e) InStep (startSession e seq intent snapshot approvedQty now) ops :=
  Runs.always_iff_meets (twapStep e) (step_sound e) (step_truthful_iff e) _ ops
    (start_sound e seq intent snapshot approvedQty now)
    (start_truthful e seq intent snapshot approvedQty now)

end Runs

section Unfilled

def executor : SmartTwapExecutor where
  config := defaultTwapConfig
  valid := defaultTwapConfig_valid
  minNotionalUsdt := 0

def buy : TradeIntent ℚ :=
  ⟨"s", "BTCUSDT", .buy, .long, .opening, .longEntry, .none, "c", none, none, none, none⟩

def calm : FeatureSnapshot := ⟨100, 1000, 0, false, false⟩

def unfilled : List TwapOp := List.replicate 4 (.getNextSlice calm 1000)

/-- The call after the last slice completes the order. -/
theorem unfilled_completes :
    ¬ Runs.Always (twapStep executor) Truthful (startSession executor 0 buy calm 3 0) unfilled := by
  intro h
  have hend := (Runs.always_last (twapStep executor) h).complete (by decide +kernel)
  exact absurd (List.all_eq_true.mpr hend) (by decide +kernel)

end Unfilled

end TB.TwapRuns
