import TomorrowBot.CascadeDetector

/-!
# Schedules of queries

Two runs see the same ticks and are queried at different times. A query can
change what a later one reports in two ways only: it raised an alarm on an earlier
tick, whose cooldown the later tick falls into, or it raised the alarm of the
tick itself and the feed has gone stale since, so that the cache is not used.
-/

set_option autoImplicit false

namespace TB.CascadeDetector
open TB.CommonTypes TB.Numeric RecentEntries

inductive Query where
  | evaluate
  | isCascadeLikely
  | status

inductive Event (F : Type) where
  | tick (tick : Tick F)
  | query (query : Query) (now ts : ℤ)

def Event.times {F : Type} : Event F → List ℤ
  | .tick t => [t.now]
  | .query _ now ts => [now, ts]

def Event.tick? {F : Type} : Event F → Option (Tick F)
  | .tick t => some t
  | .query .. => none

def Steady {F : Type} (events : List (Event F)) (later : List ℤ) : Prop :=
  (events.flatMap Event.times ++ later).Pairwise (· ≤ ·)

section Runs
variable {F : Type} [DoubleSqrt F] (cfg : CascadeConfig F)

def step (d : Detector F) : Event F → Detector F
  | .tick t => onTick cfg d t
  | .query .evaluate now ts => (evaluate cfg d now ts).2
  | .query .isCascadeLikely now ts => (isCascadeLikely cfg d now ts).2
  | .query .status now ts => (status cfg d now ts).2

def run (d : Detector F) (events : List (Event F)) : Detector F := events.foldl (step cfg) d

def feedOf (ticks : List (Tick F)) : Feed F := ticks.foldl (Feed.onTick cfg) newFeed

def alarm (d : Detector F) : Event F → Option ℤ
  | .tick _ => none
  | .query _ now ts => if raised cfg d now ts then some ts else none

def alarms (d : Detector F) : List (Event F) → List ℤ
  | [] => []
  | event :: events => (alarm cfg d event).toList ++ alarms (step cfg d event) events

def EndedLikely (ticks : List (Tick F)) (t : ℤ) : Prop :=
  ∃ earlier tick later, ticks = earlier ++ tick :: later ∧ tick.Valid ∧ tick.now = t ∧
    (feedOf cfg earlier).Likely cfg

/-- No query before this call could take its alarm: a stale feed is read again after a
full cooldown only, and a window that was likely a cascade ended a cooldown before. -/
def Undisturbed (ticks : List (Tick F)) (now ts : ℤ) : Prop :=
  (feedOf cfg ticks).Likely cfg →
    if isStale (feedOf cfg ticks).lastTickNs now cfg.staleThresholdNs then
      ¬ Cooling cfg now ts
    else ∀ t, EndedLikely cfg ticks t → ¬ Cooling cfg t now

def report (signal : CascadeSignal F) : F × ℤ × Bool :=
  (signal.probability, signal.direction, signal.cascadeImminent)

variable {cfg} {d : Detector F} {f : Feed F} {ticks : List (Tick F)} {last now ts b : ℤ}

theorem assess_probability (last' ts' : ℤ) :
    (assess cfg f last ts).probability = (assess cfg f last' ts').probability := by
  unfold assess
  split_ifs <;> rfl

theorem assess_direction (last' ts' : ℤ) :
    (assess cfg f last ts).direction = (assess cfg f last' ts').direction := by
  unfold assess
  split_ifs <;> rfl

theorem assess_imminent : (assess cfg f last ts).cascadeImminent = true ↔
    f.Likely cfg ∧ ¬ Cooling cfg last ts := by
  unfold assess Feed.Likely
  split_ifs with h
  · simp [emptySignal, not_le.mpr h]
  · simp [not_lt.mp h]

theorem assess_inCooldown : (assess cfg f last ts).inCooldown = true ↔
    f.Likely cfg ∧ Cooling cfg last ts := by
  unfold assess Feed.Likely
  split_ifs with h
  · simp [emptySignal, not_le.mpr h]
  · simp [not_lt.mp h]

def Used (cfg : CascadeConfig F) (d : Detector F) (now : ℤ) (signal : CascadeSignal F) : Prop :=
  d.cachedSignal = some signal ∧ isStale d.feed.lastTickNs now cfg.staleThresholdNs = false ∧
    (signal.inCooldown = true → Cooling cfg d.lastCascadeSignalNs now ∨ d.lastCascadeSignalNs ≤ 0)

omit [DoubleSqrt F] in
theorem usableCache_eq_some {signal : CascadeSignal F} :
    usableCache cfg d now = some signal ↔ Used cfg d now signal := by
  rw [usableCache, Option.filter_eq_some_iff, Used]
  cases signal.inCooldown with
  | false => simp
  | true =>
    simp only [Bool.and_eq_true, Bool.not_eq_true', Bool.and_eq_false_iff, Bool.true_and,
      decide_eq_false_iff_not, Cooling, forall_const]
    apply and_congr_right
    intro _
    apply and_congr_right
    intro _
    omega

theorem evaluate_cases (cfg : CascadeConfig F) (d : Detector F) (now ts : ℤ) :
    (∃ signal, Used cfg d now signal ∧ evaluate cfg d now ts = (signal, d)) ∨
      (usableCache cfg d now = none ∧
        evaluate cfg d now ts = (assess cfg d.feed d.lastCascadeSignalNs ts,
          { d with
            cachedSignal := some (assess cfg d.feed d.lastCascadeSignalNs ts)
            lastCascadeSignalNs :=
              if (assess cfg d.feed d.lastCascadeSignalNs ts).cascadeImminent then ts
              else d.lastCascadeSignalNs })) := by
  unfold evaluate
  cases h : usableCache cfg d now with
  | some signal => exact Or.inl ⟨signal, usableCache_eq_some.mp h, rfl⟩
  | none => exact Or.inr ⟨rfl, rfl⟩

omit [DoubleSqrt F] in
/-- A feed that is not stale lets the cache go for the end of a cooldown only. -/
theorem unused_cooled (hnone : usableCache cfg d now = none)
    (hfresh : isStale d.feed.lastTickNs now cfg.staleThresholdNs = false) :
    d.cachedSignal = none ∨ ∃ signal, d.cachedSignal = some signal ∧ signal.inCooldown = true ∧
      ¬ Cooling cfg d.lastCascadeSignalNs now := by
  cases hc : d.cachedSignal with
  | none => exact Or.inl rfl
  | some signal =>
    right
    have hunused : ¬ Used cfg d now signal := by
      rw [← usableCache_eq_some, hnone]
      exact nofun
    have hcool : ¬ (signal.inCooldown = true →
        Cooling cfg d.lastCascadeSignalNs now ∨ d.lastCascadeSignalNs ≤ 0) :=
      fun h => hunused ⟨hc, hfresh, h⟩
    push Not at hcool
    exact ⟨signal, rfl, hcool.1, hcool.2.1⟩

theorem stale_mono {lastTick threshold : ℤ} (hlast : 0 < lastTick → lastTick ≤ b) (h : b ≤ now)
    (hstale : isStale lastTick b threshold = true) : isStale lastTick now threshold = true := by
  unfold isStale at *
  rw [Bool.or_eq_true, decide_eq_true_eq, decide_eq_true_eq] at *
  omega

theorem feedOf_concat (ticks : List (Tick F)) (t : Tick F) :
    feedOf cfg (ticks ++ [t]) = (feedOf cfg ticks).onTick cfg t := by
  rw [feedOf, feedOf, List.foldl_append]
  rfl

theorem EndedLikely.concat {t : ℤ} (h : EndedLikely cfg ticks t) (tick : Tick F) :
    EndedLikely cfg (ticks ++ [tick]) t := by
  obtain ⟨earlier, ended, later, rfl, hvalid, hnow, hlikely⟩ := h
  exact ⟨earlier, ended, later ++ [tick], by simp, hvalid, hnow, hlikely⟩

def Earlier (cfg : CascadeConfig F) (ticks : List (Tick F)) (last : ℤ) : Prop :=
  0 < last → ∃ t, EndedLikely cfg ticks t ∧ last ≤ t

theorem Earlier.concat (h : Earlier cfg ticks last) (tick : Tick F) :
    Earlier cfg (ticks ++ [tick]) last := by
  intro hpos
  obtain ⟨t, ht, hle⟩ := h hpos
  exact ⟨t, ht.concat tick, hle⟩

structure Observed (cfg : CascadeConfig F) (ticks : List (Tick F)) (b : ℤ) (d : Detector F) :
    Prop where
  feed : d.feed = feedOf cfg ticks
  lastTick : 0 < d.feed.lastTickNs → d.feed.lastTickNs ≤ b
  before : 0 < d.lastCascadeSignalNs → d.lastCascadeSignalNs ≤ b
  origin : Earlier cfg ticks d.lastCascadeSignalNs ∨ (feedOf cfg ticks).Likely cfg
  cached : ∀ signal, d.cachedSignal = some signal →
    ∃ last ts, signal = assess cfg (feedOf cfg ticks) last ts ∧
      (signal.inCooldown = true → last = d.lastCascadeSignalNs)
  unread : d.cachedSignal = none → Earlier cfg ticks d.lastCascadeSignalNs
  cooling : ∀ signal, d.cachedSignal = some signal → signal.inCooldown = true →
    isStale d.feed.lastTickNs b cfg.staleThresholdNs = false →
      Earlier cfg ticks d.lastCascadeSignalNs

theorem observed_new (cfg : CascadeConfig F) (b : ℤ) : Observed cfg [] b newDetector where
  feed := rfl
  lastTick h := absurd h (lt_irrefl 0)
  before h := absurd h (lt_irrefl 0)
  origin := Or.inl fun h => absurd h (lt_irrefl 0)
  cached _ h := nomatch h
  unread _ h := absurd h (lt_irrefl 0)
  cooling _ h := nomatch h

theorem Observed.later (h : Observed cfg ticks b d) (hle : b ≤ now) :
    Observed cfg ticks now d where
  feed := h.feed
  lastTick hpos := (h.lastTick hpos).trans hle
  before hpos := (h.before hpos).trans hle
  origin := h.origin
  cached := h.cached
  unread := h.unread
  cooling signal hc hcool hfresh := by
    apply h.cooling signal hc hcool
    by_contra hstale
    rw [stale_mono h.lastTick hle (Bool.eq_true_of_not_eq_false hstale)] at hfresh
    exact nomatch hfresh

theorem Observed.tick (h : Observed cfg ticks b d) (t : Tick F) (hle : b ≤ t.now) :
    Observed cfg (ticks ++ [t]) t.now (onTick cfg d t) := by
  by_cases hvalid : t.Valid
  · have hearlier : Earlier cfg (ticks ++ [t]) d.lastCascadeSignalNs := by
      rcases h.origin with horigin | hlikely
      · exact horigin.concat t
      · intro hpos
        exact ⟨t.now, ⟨ticks, t, [], rfl, hvalid, rfl, hlikely⟩, (h.before hpos).trans hle⟩
    rw [onTick, if_pos hvalid]
    exact {
      feed := by rw [feedOf_concat, h.feed]
      lastTick := fun _ => by rw [Feed.onTick, if_pos hvalid]
      before := fun hpos => (h.before hpos).trans hle
      origin := Or.inl hearlier
      cached := fun _ hc => nomatch hc
      unread := fun _ => hearlier
      cooling := fun _ hc => nomatch hc }
  · have hsame : onTick cfg d t = d := by rw [onTick, if_neg hvalid]
    have hfeed : feedOf cfg (ticks ++ [t]) = feedOf cfg ticks := by
      rw [feedOf_concat, Feed.onTick, if_neg hvalid]
    have hlater := h.later hle
    rw [hsame]
    exact {
      feed := by rw [hfeed, h.feed]
      lastTick := hlater.lastTick
      before := hlater.before
      origin := by
        rw [hfeed]
        exact h.origin.imp_left (fun horigin => horigin.concat t)
      cached := by
        rw [hfeed]
        exact h.cached
      unread := fun hc => (h.unread hc).concat t
      cooling := fun signal hc hcool hfresh =>
        (hlater.cooling signal hc hcool hfresh).concat t }

/-- The last alarm is an earlier one when the cache is not used and the feed not stale. -/
theorem Observed.unused (h : Observed cfg ticks now d) (hnone : usableCache cfg d now = none)
    (hfresh : isStale d.feed.lastTickNs now cfg.staleThresholdNs = false) :
    Earlier cfg ticks d.lastCascadeSignalNs := by
  rcases unused_cooled hnone hfresh with hc | ⟨signal, hc, hcool, -⟩
  · exact h.unread hc
  · exact h.cooling signal hc hcool hfresh

theorem Observed.evaluate (h : Observed cfg ticks b d) (hnow : b ≤ now) (hts : now ≤ ts) :
    Observed cfg ticks ts (evaluate cfg d now ts).2 := by
  have hread := h.later (hnow.trans hts)
  rcases evaluate_cases cfg d now ts with ⟨signal, -, heq⟩ | ⟨hnone, heq⟩
  · rw [heq]
    exact hread
  · rw [heq]
    have hsignal : ∀ signal, some (assess cfg d.feed d.lastCascadeSignalNs ts) = some signal →
        signal = assess cfg (feedOf cfg ticks) d.lastCascadeSignalNs ts :=
      fun signal hc => by rw [← h.feed]; exact (Option.some_injective _ hc).symm
    cases himminent : (assess cfg d.feed d.lastCascadeSignalNs ts).cascadeImminent with
    | true =>
      have hlikely := assess_imminent.mp himminent
      rw [h.feed] at hlikely
      exact {
        feed := h.feed
        lastTick := hread.lastTick
        before := fun _ => le_rfl
        origin := Or.inr hlikely.1
        cached := fun signal hc => ⟨_, _, hsignal signal hc, fun hcool => by
          rw [hsignal signal hc, assess_inCooldown] at hcool
          exact absurd hcool.2 hlikely.2⟩
        unread := fun hc => nomatch hc
        cooling := fun signal hc hcool _ => by
          rw [hsignal signal hc, assess_inCooldown] at hcool
          exact absurd hcool.2 hlikely.2 }
    | false =>
      exact {
        feed := h.feed
        lastTick := hread.lastTick
        before := hread.before
        origin := h.origin
        cached := fun signal hc => ⟨_, _, hsignal signal hc, fun _ => rfl⟩
        unread := fun hc => nomatch hc
        cooling := fun _ _ _ hfresh => by
          apply (h.later hnow).unused hnone
          by_contra hstale
          have := stale_mono (h.later hnow).lastTick hts (Bool.eq_true_of_not_eq_false hstale)
          exact Bool.false_ne_true (hfresh.symm.trans this) }

theorem step_query (d : Detector F) (q : Query) (now ts : ℤ) :
    step cfg d (.query q now ts) = (TB.CascadeDetector.evaluate cfg d now ts).2 := by
  cases q <;> rfl

/-- One run of ticks and queries, whatever the queries are. -/
theorem Observed.run {events : List (Event F)} {later : List ℤ} (h : Observed cfg ticks b d)
    (hsteady : (b :: (events.flatMap Event.times ++ later)).Pairwise (· ≤ ·)) :
    ∃ e, Observed cfg (ticks ++ events.filterMap Event.tick?) e (run cfg d events) ∧
      (e :: later).Pairwise (· ≤ ·) := by
  induction events generalizing ticks b d with
  | nil =>
    rw [List.filterMap_nil, List.append_nil]
    exact ⟨b, h, hsteady⟩
  | cons event events ih =>
    cases event with
    | tick t =>
      have hle : b ≤ t.now := List.rel_of_pairwise_cons hsteady (by simp [Event.times])
      obtain ⟨e, he, hlater⟩ := ih (h.tick t hle) (List.Pairwise.of_cons hsteady)
      refine ⟨e, ?_, hlater⟩
      rw [List.append_assoc] at he
      exact he
    | query q now ts =>
      have hnow : b ≤ now := List.rel_of_pairwise_cons hsteady (by simp [Event.times])
      have htail := List.Pairwise.of_cons hsteady
      have hts : now ≤ ts := List.rel_of_pairwise_cons htail (by simp)
      obtain ⟨e, he, hlater⟩ := ih (h.evaluate hnow hts) (List.Pairwise.of_cons htail)
      refine ⟨e, ?_, hlater⟩
      rw [← step_query d q now ts] at he
      exact he

/-- Whatever was queried before, the signal is the assessment of the feed at some time. -/
theorem Observed.signal (h : Observed cfg ticks b d) (now ts : ℤ) :
    ∃ last ts', (CascadeDetector.evaluate cfg d now ts).1 =
      assess cfg (feedOf cfg ticks) last ts' := by
  rcases evaluate_cases cfg d now ts with ⟨signal, hused, heq⟩ | ⟨-, heq⟩
  · obtain ⟨last, ts', hsignal, -⟩ := h.cached signal hused.1
    exact ⟨last, ts', by rw [heq, hsignal]⟩
  · exact ⟨_, _, by rw [heq, h.feed]⟩

theorem Observed.not_cooling (h : Observed cfg ticks now d) (hts : now ≤ ts)
    (hundisturbed : Undisturbed cfg ticks now ts) (hlikely : (feedOf cfg ticks).Likely cfg)
    (hnone : usableCache cfg d now = none) : ¬ Cooling cfg d.lastCascadeSignalNs ts := by
  intro hcooling
  have hquiet := hundisturbed hlikely
  have hbefore := h.before hcooling.1
  rw [← h.feed] at hquiet
  unfold Cooling at *
  split_ifs at hquiet with hstale
  · omega
  · obtain ⟨t, ht, hle⟩ := h.unused hnone (Bool.eq_false_of_not_eq_true hstale) hcooling.1
    have := hquiet t ht
    omega

theorem Observed.imminent (h : Observed cfg ticks now d) (hts : now ≤ ts)
    (hundisturbed : Undisturbed cfg ticks now ts) :
    (CascadeDetector.evaluate cfg d now ts).1.cascadeImminent = true ↔
      (feedOf cfg ticks).Likely cfg := by
  rcases evaluate_cases cfg d now ts with ⟨signal, hused, heq⟩ | ⟨hnone, heq⟩
  · rw [heq]
    obtain ⟨last, ts', hsignal, hlast⟩ := h.cached signal hused.1
    constructor
    · intro himminent
      rw [hsignal, assess_imminent] at himminent
      exact himminent.1
    · intro hlikely
      rw [hsignal, assess_imminent]
      refine ⟨hlikely, fun hcooling => ?_⟩
      have hcool : signal.inCooldown = true := by
        rw [hsignal, assess_inCooldown]
        exact ⟨hlikely, hcooling⟩
      rw [hlast hcool] at hcooling
      have hquiet := hundisturbed hlikely
      rw [← h.feed, if_neg (by rw [hused.2.1]; exact Bool.false_ne_true)] at hquiet
      obtain ⟨t, ht, hle⟩ := h.cooling signal hused.1 hcool hused.2.1 hcooling.1
      have hstill := hused.2.2 hcool
      have := hquiet t ht
      unfold Cooling at *
      omega
  · rw [heq, assess_imminent, h.feed]
    exact ⟨fun himminent => himminent.1,
      fun hlikely => ⟨hlikely, h.not_cooling hts hundisturbed hlikely hnone⟩⟩

theorem run_append (d : Detector F) (events events' : List (Event F)) :
    run cfg d (events ++ events') = run cfg (run cfg d events) events' :=
  List.foldl_append

theorem run_query (d : Detector F) (q : Query) (now ts : ℤ) :
    run cfg d [.query q now ts] = (evaluate cfg d now ts).2 := step_query d q now ts

theorem run_ticks (f : Feed F) (last : ℤ) (ticks : List (Tick F)) :
    run cfg ⟨f, last, none⟩ (ticks.map .tick) =
      ⟨ticks.foldl (Feed.onTick cfg) f, last, none⟩ := by
  induction ticks generalizing f with
  | nil => rfl
  | cons t ticks ih =>
    have hstep : step cfg ⟨f, last, none⟩ (.tick t) = ⟨f.onTick cfg t, last, none⟩ := by
      by_cases hvalid : t.Valid
      · rw [step, onTick, if_pos hvalid]
      · rw [step, onTick, if_neg hvalid, Feed.onTick, if_neg hvalid]
    rw [List.map_cons, run, List.foldl_cons, hstep]
    exact ih _

theorem run_new_ticks (ticks : List (Tick F)) :
    run cfg newDetector (ticks.map .tick) = ⟨feedOf cfg ticks, 0, none⟩ :=
  run_ticks newFeed 0 ticks

theorem evaluate_unread (f : Feed F) (last now ts : ℤ) :
    evaluate cfg ⟨f, last, none⟩ now ts = (assess cfg f last ts,
      ⟨f, if (assess cfg f last ts).cascadeImminent then ts else last,
        some (assess cfg f last ts)⟩) := rfl

theorem evaluate_first (hlikely : f.Likely cfg) (now ts : ℤ) :
    evaluate cfg ⟨f, 0, none⟩ now ts =
      (assess cfg f 0 ts, ⟨f, ts, some (assess cfg f 0 ts)⟩) := by
  have himminent : (assess cfg f 0 ts).cascadeImminent = true :=
    assess_imminent.mpr ⟨hlikely, fun h => absurd h.1 (lt_irrefl 0)⟩
  rw [evaluate_unread, if_pos himminent]

theorem stale_taken (hcooling : Cooling cfg now ts)
    (hstale : isStale f.lastTickNs now cfg.staleThresholdNs = true) (signal : CascadeSignal F) :
    (evaluate cfg ⟨f, now, some signal⟩ now ts).1.cascadeImminent = false := by
  rcases evaluate_cases cfg ⟨f, now, some signal⟩ now ts with ⟨signal, hused, -⟩ | ⟨-, heq⟩
  · exact absurd (hstale.symm.trans hused.2.1) nofun
  · rw [heq, ← Bool.not_eq_true, assess_imminent]
    exact fun h => h.2 hcooling

/-- A query of the same tick keeps the cooldown of an earlier tick in the cache. -/
theorem earlier_taken {t : ℤ} (hcooling : Cooling cfg t now)
    (hfresh : isStale f.lastTickNs now cfg.staleThresholdNs = false) :
    (evaluate cfg (evaluate cfg ⟨f, t, none⟩ now now).2 now ts).1.cascadeImminent = false := by
  have hheld : (assess cfg f t now).cascadeImminent = false := by
    rw [← Bool.not_eq_true, assess_imminent]
    exact fun h => h.2 hcooling
  have hused : Used cfg ⟨f, t, some (assess cfg f t now)⟩ now (assess cfg f t now) :=
    ⟨rfl, hfresh, fun _ => Or.inl hcooling⟩
  have hread : (evaluate cfg ⟨f, t, none⟩ now now).2 = ⟨f, t, some (assess cfg f t now)⟩ := by
    rw [evaluate_unread, hheld]
    rfl
  rw [hread, evaluate, usableCache_eq_some.mpr hused]
  exact hheld

def takenBefore (earlier : List (Tick F)) (tick : Tick F) (later : List (Tick F)) (now : ℤ) :
    List (Event F) :=
  earlier.map .tick ++ [.query .status tick.now tick.now] ++ (tick :: later).map .tick ++
    [.query .status now now]

theorem run_valid {tick : Tick F} (hvalid : tick.Valid) (d : Detector F)
    (later : List (Tick F)) : run cfg d ((tick :: later).map .tick) =
      ⟨(tick :: later).foldl (Feed.onTick cfg) d.feed, d.lastCascadeSignalNs, none⟩ := by
  have hstep : step cfg d (.tick tick) =
      ⟨d.feed.onTick cfg tick, d.lastCascadeSignalNs, none⟩ := by
    rw [step, onTick, if_pos hvalid]
  rw [List.map_cons, run, List.foldl_cons, hstep]
  exact run_ticks _ _ later

theorem run_takenBefore {earlier later : List (Tick F)} {tick : Tick F} (hvalid : tick.Valid)
    (hlikely : (feedOf cfg earlier).Likely cfg) (now : ℤ) :
    run cfg newDetector (takenBefore earlier tick later now) =
      (evaluate cfg ⟨feedOf cfg (earlier ++ tick :: later), tick.now, none⟩ now now).2 := by
  have hfeed : feedOf cfg (earlier ++ tick :: later) =
      (tick :: later).foldl (Feed.onTick cfg) (feedOf cfg earlier) := List.foldl_append
  rw [takenBefore, run_append, run_append, run_append, run_new_ticks, run_query,
    run_query, evaluate_first hlikely, run_valid hvalid, hfeed]

theorem raised_iff : raised cfg d now ts = true ↔ usableCache cfg d now = none ∧
    d.feed.Likely cfg ∧ ¬ Cooling cfg d.lastCascadeSignalNs ts := by
  rw [raised, Bool.and_eq_true, Option.isNone_iff_eq_none, assess_imminent]

theorem evaluate_last : (evaluate cfg d now ts).2.lastCascadeSignalNs =
    if raised cfg d now ts then ts else d.lastCascadeSignalNs := by
  unfold evaluate raised
  cases usableCache cfg d now with
  | some signal => rfl
  | none => rfl

theorem onTick_last (t : Tick F) :
    (onTick cfg d t).lastCascadeSignalNs = d.lastCascadeSignalNs := by
  unfold onTick
  split_ifs <;> rfl

/-- Every later alarm leaves the cooldown of the last one alone, and is not before its time. -/
theorem alarms_after {events : List (Event F)}
    (hsteady : (b :: events.flatMap Event.times).Pairwise (· ≤ ·)) :
    (∀ a ∈ alarms cfg d events, b ≤ a) ∧
      (∀ a ∈ alarms cfg d events, 0 < d.lastCascadeSignalNs →
        cfg.cooldownNs ≤ a - d.lastCascadeSignalNs) ∧
      (alarms cfg d events).Pairwise (fun a a' => 0 < a → cfg.cooldownNs ≤ a' - a) := by
  induction events generalizing b d with
  | nil => simp [alarms]
  | cons event events ih =>
    cases event with
    | tick t =>
      have hle : b ≤ t.now := List.rel_of_pairwise_cons hsteady (by simp [Event.times])
      obtain ⟨hbound, hspaced, hpairs⟩ := ih (d := onTick cfg d t) (List.Pairwise.of_cons hsteady)
      rw [onTick_last] at hspaced
      exact ⟨fun a ha => hle.trans (hbound a ha), hspaced, hpairs⟩
    | query q now ts =>
      have hnow : b ≤ now := List.rel_of_pairwise_cons hsteady (by simp [Event.times])
      have htail := List.Pairwise.of_cons hsteady
      have hts : now ≤ ts := List.rel_of_pairwise_cons htail (by simp)
      obtain ⟨hbound, hspaced, hpairs⟩ := ih (d := (evaluate cfg d now ts).2)
        (List.Pairwise.of_cons htail)
      rw [evaluate_last] at hspaced
      rw [alarms, step_query, alarm]
      cases hraised : raised cfg d now ts with
      | false =>
        rw [hraised] at hspaced
        exact ⟨fun a ha => (hnow.trans hts).trans (hbound a ha), hspaced, hpairs⟩
      | true =>
        rw [hraised] at hspaced
        have hcooled := (raised_iff.mp hraised).2.2
        unfold Cooling at hcooled
        simp only [if_true, Option.toList_some, List.singleton_append, List.mem_cons,
          forall_eq_or_imp, List.pairwise_cons] at hspaced ⊢
        refine ⟨⟨hnow.trans hts, fun a ha => (hnow.trans hts).trans (hbound a ha)⟩,
          ⟨fun hpos => by omega, fun a ha hpos => ?_⟩, hspaced, hpairs⟩
        have := hbound a ha
        omega

def SameReports (cfg : CascadeConfig F) (ticks : List (Tick F)) (now ts : ℤ) : Prop :=
  ∀ events events' : List (Event F),
    events.filterMap Event.tick? = ticks → events'.filterMap Event.tick? = ticks →
    Steady events [now, ts] → Steady events' [now, ts] →
      report (evaluate cfg (run cfg newDetector events) now ts).1 =
        report (evaluate cfg (run cfg newDetector events') now ts).1

theorem observed_run (cfg : CascadeConfig F) {events : List (Event F)} {later : List ℤ}
    (h : Steady events later) :
    ∃ e, Observed cfg (events.filterMap Event.tick?) e (run cfg newDetector events) ∧
      (e :: later).Pairwise (· ≤ ·) := by
  cases htimes : events.flatMap Event.times ++ later with
  | nil =>
    have htime : (0 :: (events.flatMap Event.times ++ later)).Pairwise (· ≤ ·) := by
      rw [htimes]
      exact List.pairwise_singleton _ _
    exact (observed_new cfg 0).run htime
  | cons first rest =>
    have htime : (first :: (events.flatMap Event.times ++ later)).Pairwise (· ≤ ·) := by
      rw [Steady, htimes] at h
      rw [htimes, List.pairwise_cons]
      exact ⟨fun t ht => (List.mem_cons.mp ht).elim (fun heq => heq.ge)
        (List.rel_of_pairwise_cons h), h⟩
    exact (observed_new cfg first).run htime

theorem same_window (cfg : CascadeConfig F) {events events' : List (Event F)}
    {later later' : List ℤ}
    (hticks : events.filterMap Event.tick? = events'.filterMap Event.tick?)
    (h : Steady events later) (h' : Steady events' later') (now ts : ℤ) :
    (evaluate cfg (run cfg newDetector events) now ts).1.probability =
        (evaluate cfg (run cfg newDetector events') now ts).1.probability ∧
      (evaluate cfg (run cfg newDetector events) now ts).1.direction =
        (evaluate cfg (run cfg newDetector events') now ts).1.direction := by
  obtain ⟨e, hobserved, -⟩ := observed_run cfg h
  obtain ⟨e', hobserved', -⟩ := observed_run cfg h'
  obtain ⟨last, t, heq⟩ := hobserved.signal now ts
  obtain ⟨last', t', heq'⟩ := hobserved'.signal now ts
  rw [heq, heq', hticks]
  exact ⟨assess_probability last' t', assess_direction last' t'⟩

theorem sameReports_of_undisturbed (hundisturbed : Undisturbed cfg ticks now ts) :
    SameReports cfg ticks now ts := by
  intro events events' hticks hticks' hsteady hsteady'
  have hwindow := same_window cfg (hticks.trans hticks'.symm) hsteady hsteady' now ts
  have himminent : ∀ events : List (Event F), events.filterMap Event.tick? = ticks →
      Steady events [now, ts] →
        ((evaluate cfg (run cfg newDetector events) now ts).1.cascadeImminent = true ↔
          (feedOf cfg ticks).Likely cfg) := by
    intro events hticks hsteady
    obtain ⟨e, hobserved, hlater⟩ := observed_run cfg hsteady
    rw [hticks] at hobserved
    have hnow : e ≤ now := List.rel_of_pairwise_cons hlater (by simp)
    have hts : now ≤ ts := List.rel_of_pairwise_cons (List.Pairwise.of_cons hlater) (by simp)
    exact (hobserved.later hnow).imminent hts hundisturbed
  rw [report, report, hwindow.1, hwindow.2, Bool.eq_iff_iff.mpr
    ((himminent events hticks hsteady).trans (himminent events' hticks' hsteady').symm)]

omit [DoubleSqrt F] in
theorem filterMap_ticks (ticks : List (Tick F)) :
    (ticks.map Event.tick).filterMap Event.tick? = ticks := by
  rw [List.filterMap_map]
  exact List.filterMap_some

omit [DoubleSqrt F] in
theorem times_ticks (ticks : List (Tick F)) :
    (ticks.map Event.tick).flatMap Event.times = ticks.map Tick.now := by
  rw [List.flatMap_map, List.map_eq_flatMap]
  rfl

omit [DoubleSqrt F] in
theorem steady_again (h : Steady (ticks.map .tick) [now, ts]) :
    Steady (ticks.map .tick ++ [.query .status now now]) [now, ts] := by
  unfold Steady at *
  rw [List.flatMap_append, times_ticks] at *
  simp only [List.flatMap_cons, List.flatMap_nil, Event.times, List.append_nil,
    List.pairwise_append, List.pairwise_cons, List.mem_append, List.mem_cons] at *
  grind

omit [DoubleSqrt F] in
theorem steady_takenBefore {earlier later : List (Tick F)} {tick : Tick F}
    (h : Steady ((earlier ++ tick :: later).map .tick) [now, ts]) :
    Steady (takenBefore earlier tick later now) [now, ts] := by
  unfold Steady takenBefore at *
  simp only [List.map_append, List.map_cons, List.flatMap_append, List.flatMap_cons,
    List.flatMap_nil, times_ticks, Event.times, List.append_nil, List.pairwise_append,
    List.pairwise_cons, List.mem_append, List.mem_cons] at *
  grind

omit [DoubleSqrt F] in
theorem filterMap_takenBefore (earlier later : List (Tick F)) (tick : Tick F) (now : ℤ) :
    (takenBefore earlier tick later now).filterMap Event.tick? = earlier ++ tick :: later := by
  rw [takenBefore, List.filterMap_append, List.filterMap_append, List.filterMap_append,
    filterMap_ticks, filterMap_ticks, List.filterMap_cons_none rfl, List.filterMap_cons_none rfl]
  simp

theorem undisturbed_of_sameReports (hsteady : Steady (ticks.map .tick) [now, ts])
    (h : SameReports cfg ticks now ts) : Undisturbed cfg ticks now ts := by
  intro hlikely
  have hfirst : (evaluate cfg (run cfg newDetector (ticks.map .tick)) now ts).1.cascadeImminent =
      true := by
    rw [run_new_ticks, evaluate_first hlikely, assess_imminent]
    exact ⟨hlikely, fun hc => absurd hc.1 (lt_irrefl 0)⟩
  have hsame : ∀ events : List (Event F), events.filterMap Event.tick? = ticks →
      Steady events [now, ts] →
        (evaluate cfg (run cfg newDetector events) now ts).1.cascadeImminent = true := by
    intro events hticks hevents
    have hreport := h _ events (filterMap_ticks ticks) hticks hsteady hevents
    rw [← hfirst]
    exact (congrArg (fun r => r.2.2) hreport).symm
  split_ifs with hstale
  · intro hcooling
    have htaken := hsame (ticks.map .tick ++ [.query .status now now])
      (by rw [List.filterMap_append, filterMap_ticks]; exact List.append_nil _)
      (steady_again hsteady)
    rw [run_append, run_new_ticks, run_query, evaluate_first hlikely,
      stale_taken hcooling hstale] at htaken
    exact Bool.false_ne_true htaken
  · rintro t ⟨earlier, tick, later, rfl, hvalid, rfl, hended⟩ hcooling
    have htaken := hsame _ (filterMap_takenBefore earlier later tick now)
      (steady_takenBefore hsteady)
    rw [run_takenBefore hvalid hended, earlier_taken hcooling (Bool.eq_false_of_not_eq_true hstale)]
      at htaken
    exact Bool.false_ne_true htaken

/-- Queries never change the probability and the direction that a call reports. They leave its
alarm alone exactly when the call is undisturbed by them; and alarms are a cooldown apart. -/
theorem reports_unchanged_iff (cfg : CascadeConfig F) :
    (∀ (ticks : List (Tick F)) (now ts : ℤ), Steady (ticks.map .tick) [now, ts] →
      (SameReports cfg ticks now ts ↔ Undisturbed cfg ticks now ts)) ∧
    (∀ (events events' : List (Event F)) (now ts : ℤ),
      events.filterMap Event.tick? = events'.filterMap Event.tick? →
      Steady events [now, ts] → Steady events' [now, ts] →
        (evaluate cfg (run cfg newDetector events) now ts).1.probability =
            (evaluate cfg (run cfg newDetector events') now ts).1.probability ∧
          (evaluate cfg (run cfg newDetector events) now ts).1.direction =
            (evaluate cfg (run cfg newDetector events') now ts).1.direction) ∧
    ∀ events : List (Event F), Steady events [] →
      (alarms cfg newDetector events).Pairwise (fun a a' => 0 < a → cfg.cooldownNs ≤ a' - a) := by
  refine ⟨fun ticks now ts hsteady => ⟨undisturbed_of_sameReports hsteady,
    sameReports_of_undisturbed⟩, fun events events' now ts hticks h h' =>
    same_window cfg hticks h h' now ts, fun events hsteady => ?_⟩
  cases htimes : events.flatMap Event.times with
  | nil => exact (alarms_after (b := 0) (by simp [htimes])).2.2
  | cons first rest =>
    rw [Steady, htimes, List.append_nil] at hsteady
    apply (alarms_after (b := first) _).2.2
    rw [htimes, List.pairwise_cons]
    exact ⟨fun t ht => (List.mem_cons.mp ht).elim (fun heq => heq.ge)
      (List.rel_of_pairwise_cons hsteady), hsteady⟩

end Runs

section Windows
variable {F : Type} [DoubleSqrt F] {cfg : CascadeConfig F} {ticks : List (Tick F)}

structure Windows (cfg : CascadeConfig F) (ticks : List (Tick F)) (f : Feed F) : Prop where
  prices : f.prices = (ticks.map Tick.price).rtake cfg.lookback
  volumes : f.volumes = (ticks.map Tick.volume).rtake cfg.lookback
  depths : f.depths = (ticks.map fun t => t.bidDepth + t.askDepth).rtake cfg.lookback

theorem windows_feedOf (cfg : CascadeConfig F) (h : ∀ t ∈ ticks, t.Valid) :
    Windows cfg ticks (feedOf cfg ticks) := by
  induction ticks using List.reverseRecOn with
  | nil => exact ⟨by simp [feedOf, newFeed], by simp [feedOf, newFeed], by simp [feedOf, newFeed]⟩
  | append_singleton ticks t ih =>
    have hticks := ih fun t ht => h t (List.mem_append_left _ ht)
    have hvalid : t.Valid := h t (by simp)
    rw [feedOf_concat, Feed.onTick, if_pos hvalid]
    exact {
      prices := by
        rw [hticks.prices, List.map_append, rtake_append_rtake]
        rfl
      volumes := by
        rw [hticks.volumes, List.map_append, rtake_append_rtake]
        rfl
      depths := by
        rw [hticks.depths, List.map_append, rtake_append_rtake]
        rfl }

theorem nextAverage_cons (x : F) (window : List F) (average : F) :
    nextAverage (x :: window) average =
      (x :: window).foldl (· + ·) 0.0 / ofInt (x :: window).length :=
  if_neg (List.cons_ne_nil x window)

theorem averages_feedOf (cfg : CascadeConfig F) (ticks : List (Tick F)) {t : Tick F}
    (hvalid : t.Valid) :
    (feedOf cfg (ticks ++ [t])).lastTickNs = t.now ∧
      (feedOf cfg (ticks ++ [t])).avgVolume =
        nextAverage (feedOf cfg (ticks ++ [t])).volumes (feedOf cfg ticks).avgVolume ∧
      (feedOf cfg (ticks ++ [t])).avgDepth =
        nextAverage (feedOf cfg (ticks ++ [t])).depths (feedOf cfg ticks).avgDepth := by
  rw [feedOf_concat, Feed.onTick, if_pos hvalid]
  exact ⟨rfl, rfl, rfl⟩

end Windows

section Jump
variable {F : Type} [DoubleSqrt F]

def calmTick (now : ℤ) : Tick F := ⟨100.0, 1.0, 10.0, 10.0, now⟩

def jumpTick : Tick F := ⟨101.0, 100.0, 10.0, 10.0, 1500000000⟩

def nextTick : Tick F := ⟨102.0, 100.0, 10.0, 10.0, 1600000000⟩

def calm : List (Tick F) :=
  [calmTick 1000000000, calmTick 1100000000, calmTick 1200000000, calmTick 1300000000,
    calmTick 1400000000]

end Jump

theorem adapted_bounds {f : Feed ℝ} : 0.001 ≤ adaptedVelocityThreshold defaultConfig f ∧
    adaptedVelocityThreshold defaultConfig f ≤ 0.006 := by
  unfold adaptedVelocityThreshold defaultConfig
  dsimp only
  split_ifs with h
  · have hrange : (0.5 : ℝ) ≤ 3.0 := by norm_num
    have hmem := stdClamp_mem hrange (f.rollingVolatility / stdMax 0.003 kEpsilon * 1.0)
    generalize stdClamp (f.rollingVolatility / stdMax 0.003 kEpsilon * 1.0) (0.5 : ℝ) 3.0 = c at *
    obtain ⟨hlow, hhigh⟩ := hmem
    norm_num at hlow hhigh ⊢
    constructor
    · rw [le_div_iff₀ (by linarith)]
      linarith
    · rw [div_le_iff₀ (by linarith)]
      linarith
  · norm_num

/-- A fast window with a high volume is likely a cascade, whatever the volatility. -/
theorem likely_fast {f : Feed ℝ} (hprices : 6 ≤ f.prices.length)
    (hvelocity : 0.006 ≤ |priceVelocity f|) (hvolume : 3 ≤ volumeRatio f)
    (hdepth : 0.3 ≤ depthRatio f) : f.Likely defaultConfig := by
  obtain ⟨hlow, hhigh⟩ := adapted_bounds (f := f)
  have hthreshold : kEpsilon ≤ |adaptedVelocityThreshold defaultConfig f| := by
    rw [abs_of_nonneg (by norm_num at hlow; linarith), kEpsilon]
    norm_num at hlow ⊢
    linarith
  have hscore : velocityScore defaultConfig f = 1 := by
    rw [velocityScore, safeDiv_far hthreshold, stdMin_real, one_real, stdAbs_real]
    apply min_eq_left
    rw [le_div_iff₀ (by norm_num at hlow; linarith)]
    linarith
  have hvolumeScore : volumeScore defaultConfig f = 1 := by
    have hmult : kEpsilon ≤ |(defaultConfig : CascadeConfig ℝ).volumeSpikeMult| := by
      norm_num [kEpsilon, defaultConfig]
    rw [volumeScore, safeDiv_far hmult, stdMin_real, one_real]
    apply min_eq_left
    norm_num [defaultConfig]
    linarith
  have hdepthScore : depthScore defaultConfig f = 0 := by
    have hclamp :
        stdClamp (defaultConfig : CascadeConfig ℝ).depthThinThreshold 0.01 0.99 = 0.3 := by
      rw [stdClamp_real (by norm_num)]
      norm_num [defaultConfig]
    rw [depthScore, hclamp, if_neg (not_lt.mpr hdepth), zero_real]
  refine ⟨hprices, ?_⟩
  have hfinite : ∀ x : ℝ, isfinite x = true := fun _ => rfl
  rw [cascadeScore, hscore, hvolumeScore, hdepthScore, safeClamp, if_pos (hfinite _),
    stdClamp_real (by norm_num)]
  norm_num [defaultConfig]

theorem jump_valid : ∀ t ∈ (calm : List (Tick ℝ)) ++ [jumpTick] ++ [nextTick], t.Valid := by
  intro t ht
  simp only [calm, calmTick, jumpTick, nextTick, List.cons_append, List.nil_append, List.mem_cons,
    List.not_mem_nil, or_false] at ht
  have hfinite : ∀ x : ℝ, isfinite x = true := fun _ => rfl
  rcases ht with rfl | rfl | rfl | rfl | rfl | rfl | rfl <;>
    norm_num [Tick.Valid, IsValidPrice, IsValidVolume, hfinite, kMinValidPrice, kMaxReasonablePrice,
      kMaxReasonableVolume]

theorem likely_end {older : List (Tick ℝ)} {t : Tick ℝ}
    (h : older = calm ∧ t = jumpTick ∨ older = calm ++ [jumpTick] ∧ t = nextTick) :
    (feedOf defaultConfig (older ++ [t])).Likely defaultConfig := by
  have hvalid : ∀ u ∈ older ++ [t], u.Valid := by
    rcases h with ⟨rfl, rfl⟩ | ⟨rfl, rfl⟩
    · exact fun u hu => jump_valid u (List.mem_append_left _ hu)
    · exact jump_valid
  obtain ⟨hprices, hvolumes, hdepths⟩ := windows_feedOf defaultConfig hvalid
  obtain ⟨-, havgVolume, havgDepth⟩ := averages_feedOf defaultConfig older (hvalid t (by simp))
  generalize feedOf defaultConfig (older ++ [t]) = f at *
  rcases h with ⟨rfl, rfl⟩ | ⟨rfl, rfl⟩
  all_goals
    rw [rtake_of_length_le (by simp [calm, defaultConfig])] at hprices hvolumes hdepths
    rw [hvolumes] at havgVolume
    rw [hdepths] at havgDepth
    simp only [calm, calmTick, jumpTick, nextTick, List.cons_append, List.nil_append,
      List.map_cons, List.map_nil] at hprices hvolumes hdepths
    simp only [calm, calmTick, jumpTick, nextTick, List.cons_append, List.nil_append,
      List.map_cons, List.map_nil, nextAverage_cons] at havgVolume havgDepth
    norm_num [ofInt] at hprices hvolumes hdepths havgVolume havgDepth
    apply likely_fast
    · rw [hprices]
      simp
    · rw [priceVelocity, newest, hprices]
      norm_num [entry, safeDiv_real, kEpsilon]
    · rw [volumeRatio, newest, hvolumes, havgVolume]
      norm_num [entry, safeDiv_real, kEpsilon]
    · rw [depthRatio, newest, hdepths, havgDepth]
      norm_num [entry, safeDiv_real, kEpsilon]

theorem steady_jump : Steady (F := ℝ) ((calm ++ [jumpTick] ++ [nextTick]).map .tick)
    [1600000000, 1600000000] := by
  rw [Steady, times_ticks]
  simp [calm, calmTick, jumpTick, nextTick]

/-- A status query on the jump takes the alarm of the next tick. -/
theorem alarm_taken : Steady (F := ℝ) ((calm ++ [jumpTick] ++ [nextTick]).map .tick)
      [1600000000, 1600000000] ∧
    ¬ SameReports (defaultConfig : CascadeConfig ℝ) (calm ++ [jumpTick] ++ [nextTick])
      1600000000 1600000000 := by
  refine ⟨steady_jump, fun h => ?_⟩
  have hquiet := undisturbed_of_sameReports steady_jump h (likely_end (.inr ⟨rfl, rfl⟩))
  have hlast := (averages_feedOf defaultConfig (calm ++ [jumpTick])
    (jump_valid nextTick (by simp))).1
  have hfresh : isStale (nextTick (F := ℝ)).now 1600000000
      (defaultConfig : CascadeConfig ℝ).staleThresholdNs = false := by
    simp [isStale, nextTick, defaultConfig]
  rw [hlast, hfresh, if_neg Bool.false_ne_true] at hquiet
  apply hquiet 1600000000 ⟨calm ++ [jumpTick], nextTick, [], rfl, jump_valid nextTick (by simp),
    rfl, likely_end (.inl ⟨rfl, rfl⟩)⟩
  simp [Cooling, defaultConfig]

/-- Before the jump every schedule of queries reports the same. -/
theorem calm_sameReports :
    SameReports (defaultConfig : CascadeConfig ℝ) calm 1500000000 1500000000 := by
  apply ((reports_unchanged_iff defaultConfig).1 calm 1500000000 1500000000 _).mpr
  · intro hlikely
    have hvalid : ∀ t ∈ (calm : List (Tick ℝ)), t.Valid :=
      fun t ht => jump_valid t (by simp [ht])
    have hlong := hlikely.1
    rw [(windows_feedOf _ hvalid).prices,
      rtake_of_length_le (by simp [calm, defaultConfig])] at hlong
    simp [calm] at hlong
  · rw [Steady, times_ticks]
    simp [calm, calmTick]

end TB.CascadeDetector
