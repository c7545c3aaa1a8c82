import TomorrowBot.EngineFrames

/-!
# Deduplication of intents

The key of an intent is recorded after a successful submission and purged at
the start of a later call. After a successful submission no later call with
its key reaches the submitter within the window, and only a successful
submission blocks a later call.
-/

set_option autoImplicit false

namespace TB.IntentDedup
open TB.CommonTypes TB.PortfolioEngine TB.OrderTypes TB.Orders TB.FillProcessor
open TB.ExecutionPlanner TB.ExecutionEngine TB.EngineBirths TB.EngineFrames

section Purge

variable {F : Type}

/-- An intent survives the purge while it is inside the window. -/
theorem cleanup_lookup (r : OrderRegistry F) (clock : Clock) (windowMs : ℤ) (k : String) :
    (cleanupOldIntents r clock windowMs).recentIntents.lookup k =
      (r.recentIntents.lookup k).filter (fun t => decide (clock.now - t ≤ windowMs * 1000000)) := by
  show (Keyed.purge (fun t => windowMs * 1000000 < clock.now - t) r.recentIntents).lookup k = _
  rw [Keyed.lookup_purge]
  congr 1
  funext t
  rw [← decide_not, decide_eq_decide, not_lt]

end Purge

variable {F : Type} [DoubleArith F]

def isSubmitted : ExecuteOutcome → Bool
  | .submitted _ => true
  | _ => false

structure Recorded (e e' : Engine F) (key : String) (outcome : ExecuteOutcome) : Prop where
  intents : e'.core.registry.recentIntents =
    if isSubmitted outcome then e.core.registry.recentIntents.insert key e'.core.clock.now
    else e.core.registry.recentIntents
  duplicate : outcome ≠ .refused .idempotencyDuplicate
  config : e'.config = e.config

omit [DoubleArith F] in
theorem rejectOrder_intents (c : ExecutionCore F) (order : OrderRecord F) (why reason : String) :
    (rejectOrder c order why reason).registry.recentIntents = c.registry.recentIntents :=
  (updateOrder_intents _ _).trans (transition_intents ..)

variable (e : Engine F)

theorem submitOrder_recorded (order : OrderRecord F) (key : String) (answer : SubmitAnswer F) :
    Recorded e (submitOrder e order key answer).1 key (submitOrder e order key answer).2 := by
  unfold submitOrder
  cases answer with
  | threw =>
    refine ⟨?_, by simp, rfl⟩
    exact (releaseGuard_edits _ order).works.intents.trans (updateOrder_intents _ _)
  | returned result clock =>
    dsimp only
    by_cases hfail : result.success = false
    · rw [if_pos hfail]
      refine ⟨?_, by simp, rfl⟩
      exact (releaseGuard_edits _ order).works.intents.trans
        ((rejectOrder_intents ..).trans (updateOrder_intents _ _))
    · rw [if_neg hfail]
      refine ⟨?_, by simp, rfl⟩
      simp only [isSubmitted, if_true, setRegistry, recordIntent]
      rw [updateOrder_intents, updateOrder_intents]

theorem placeOrder_recorded (order : OrderRecord F) (key : String) (answer : SubmitAnswer F) :
    Recorded e (placeOrder e order key answer).1 key (placeOrder e order key answer).2 := by
  have hmove := transition_intents (registerOrder e.core.registry e.core.clock order)
    e.core.clock order.orderId .pendingAck "Submitting to exchange"
  unfold placeOrder
  dsimp only
  cases ht : transition (registerOrder e.core.registry e.core.clock order) e.core.clock
    order.orderId .pendingAck "Submitting to exchange" with
  | mk r ok =>
    rw [ht] at hmove
    have hr : r.recentIntents = e.core.registry.recentIntents := hmove
    cases ok with
    | false => exact ⟨rfl, by simp, rfl⟩
    | true =>
      have hrejected : ∀ (c : ExecutionCore F) sized why reason, c.registry = r →
          Recorded e (setCore e (rejectOrder c sized why reason)) key
            (.refused .executionFailed) := by
        intro c sized why reason hc
        refine ⟨?_, by simp, rfl⟩
        exact (rejectOrder_intents c sized why reason).trans (hc ▸ hr)
      dsimp only
      split_ifs
      · exact hrejected _ _ _ _ rfl
      · exact hrejected _ _ _ _ rfl
      generalize tryReserveMargin (setCore e (setRegistry e.core r))
        { order with state := OrderState.pendingAck } = out
      obtain ⟨p, sized, ok⟩ := out
      cases ok with
      | false => exact hrejected _ _ _ _ rfl
      | true =>
        have hrecorded := submitOrder_recorded
          (setCore e { setRegistry e.core r with portfolio := p }) sized key answer
        refine ⟨?_, hrecorded.duplicate, hrecorded.config⟩
        have hintents := hrecorded.intents
        simp only [setCore, setRegistry] at hintents ⊢
        rw [hr] at hintents
        exact hintents

def purged (e : Engine F) : Dict Timestamp :=
  (cleanupOldIntents e.core.registry e.core.clock e.config.dedupWindowMs).recentIntents

inductive Called (e e' : Engine F) (key : String) (outcome : ExecuteOutcome) : Prop where
  | invalid (hreached : reachedSubmit outcome = false)
      (hdup : outcome ≠ .refused .idempotencyDuplicate) (he : e' = e)
  | duplicate (hout : outcome = .refused .idempotencyDuplicate) (hkey : key ∈ purged e)
      (hintents : e'.core.registry.recentIntents = purged e)
      (hclock : e'.core.clock = e.core.clock) (hconfig : e'.config = e.config)
  | passed (hdup : outcome ≠ .refused .idempotencyDuplicate) (hkey : key ∉ purged e)
      (hintents : e'.core.registry.recentIntents =
        if isSubmitted outcome then (purged e).insert key e'.core.clock.now else purged e)
      (hconfig : e'.config = e.config)

omit [DoubleArith F] in
theorem validateInputs_error (risk : RiskDecision F) (alpha : ExecutionAlphaResult F)
    (uncertainty : UncertaintyLevel) (err : TbError)
    (h : validateInputs risk alpha uncertainty = .error err) : err ≠ .idempotencyDuplicate := by
  unfold validateInputs at h
  split_ifs at h
  all_goals
    cases h
    decide

theorem execute_called (intent : TradeIntent F) (risk : RiskDecision F)
    (alpha : ExecutionAlphaResult F) (uncertainty : UncertaintyLevel) (answer : SubmitAnswer F) :
    Called e (execute e intent risk alpha uncertainty answer).1 (intentDedupKey intent)
      (execute e intent risk alpha uncertainty answer).2 := by
  unfold execute
  cases hvalid : validateInputs risk alpha uncertainty with
  | error err =>
    refine .invalid rfl ?_ rfl
    intro h
    injection h with h
    exact validateInputs_error risk alpha uncertainty err hvalid h
  | ok _ =>
    dsimp only
    have hdup : isDuplicateIntent (cleanupOldIntents e.core.registry e.core.clock
        e.config.dedupWindowMs) (intentDedupKey intent) =
          decide (intentDedupKey intent ∈ purged e) := rfl
    simp only [setCore, setRegistry, hdup, decide_eq_true_eq]
    by_cases hkey : intentDedupKey intent ∈ purged e
    · rw [if_pos hkey]
      exact .duplicate rfl hkey rfl rfl rfl
    · rw [if_neg hkey]
      split_ifs
      · exact .passed (by simp) hkey rfl rfl
      · have hrecorded := placeOrder_recorded { setCore e (setRegistry e.core (cleanupOldIntents
          e.core.registry e.core.clock e.config.dedupWindowMs)) with nextSeq := e.nextSeq + 1 }
          (createOrderRecord e intent risk
            (plan e.config intent risk alpha (marketContext intent alpha)))
          (intentDedupKey intent) answer
        exact .passed hrecorded.duplicate hkey hrecorded.intents hrecorded.config

section Calls

structure Call (F : Type) where
  intent : TradeIntent F
  time : Timestamp
  outcome : ExecuteOutcome
  done : Timestamp

def callOf (e : Engine F) : EngineOp F → List (Call F)
  | .execute intent risk alpha uncertainty answer =>
      [{ intent := intent
         time := e.core.clock.now
         outcome := (execute e intent risk alpha uncertainty answer).2
         done := (execute e intent risk alpha uncertainty answer).1.core.clock.now }]
  | _ => []

def calls : Engine F → List (EngineOp F) → List (Call F)
  | _, [] => []
  | e, op::ops => callOf e op ++ calls (engineStep e op) ops

def ClockForward (e : Engine F) (op : EngineOp F) : Prop :=
  e.core.clock.now ≤ (engineStep e op).core.clock.now

def SameKey (a b : Call F) : Prop :=
  a.intent.correlationId = b.intent.correlationId ∧ a.intent.symbol = b.intent.symbol

def Within (windowMs : ℤ) (time done : Timestamp) : Prop := time - done ≤ windowMs * 1000000

theorem within_earlier {windowMs : ℤ} {now later done : Timestamp} (h : now ≤ later)
    (hw : Within windowMs later done) : Within windowMs now done :=
  le_trans (sub_le_sub_right h done) hw

theorem within_newer {windowMs : ℤ} {now done newer : Timestamp} (h : done ≤ newer)
    (hw : Within windowMs now done) : Within windowMs now newer :=
  le_trans (sub_le_sub_left h now) hw

structure Remembers (windowMs : ℤ) (past : List (Call F)) (e : Engine F) : Prop where
  config : e.config.dedupWindowMs = windowMs
  ended : ∀ a ∈ past, a.done ≤ e.core.clock.now
  kept : ∀ a ∈ past, isSubmitted a.outcome = true → Within windowMs e.core.clock.now a.done →
    ∃ t, e.core.registry.recentIntents.lookup (intentDedupKey a.intent) = some t ∧ a.done ≤ t
  justified : ∀ key t, e.core.registry.recentIntents.lookup key = some t →
    ∃ a ∈ past, isSubmitted a.outcome = true ∧ intentDedupKey a.intent = key ∧ a.done = t

omit [DoubleArith F] in
theorem purged_lookup (e : Engine F) (windowMs : ℤ) (h : e.config.dedupWindowMs = windowMs)
    (key : String) (t : Timestamp) :
    (purged e).lookup key = some t ↔
      e.core.registry.recentIntents.lookup key = some t ∧ Within windowMs e.core.clock.now t := by
  subst h
  rw [purged, cleanup_lookup, Option.filter_eq_some_iff, decide_eq_true_eq]
  exact Iff.rfl

variable (windowMs : ℤ) (past : List (Call F))

omit [DoubleArith F] in
theorem remembers_purge (e e' : Engine F)
    (h : Remembers windowMs past e) (hclock : e.core.clock.now ≤ e'.core.clock.now)
    (hconfig : e'.config = e.config)
    (hintents : e'.core.registry.recentIntents = purged e) : Remembers windowMs past e' := by
  constructor
  · rw [hconfig]
    exact h.config
  · intro a ha
    exact le_trans (h.ended a ha) hclock
  · intro a ha hs hw
    have hw' := within_earlier hclock hw
    obtain ⟨t, ht, hle⟩ := h.kept a ha hs hw'
    refine ⟨t, ?_, hle⟩
    rw [hintents, purged_lookup e windowMs h.config]
    exact ⟨ht, within_newer hle hw'⟩
  · intro key t ht
    rw [hintents, purged_lookup e windowMs h.config] at ht
    exact h.justified key t ht.1

omit [DoubleArith F] in
theorem remembers_later (e e' : Engine F)
    (h : Remembers windowMs past e) (hclock : e.core.clock.now ≤ e'.core.clock.now)
    (hconfig : e'.config.dedupWindowMs = e.config.dedupWindowMs)
    (hintents : e'.core.registry.recentIntents = e.core.registry.recentIntents) :
    Remembers windowMs past e' := by
  constructor
  · rw [hconfig]
    exact h.config
  · intro a ha
    exact le_trans (h.ended a ha) hclock
  · intro a ha hs hw
    rw [hintents]
    exact h.kept a ha hs (within_earlier hclock hw)
  · rw [hintents]
    exact h.justified

variable (e : Engine F)

omit [DoubleArith F] in
theorem remembers_failed (c : Call F)
    (h : Remembers windowMs past e) (hdone : c.done ≤ e.core.clock.now)
    (hfailed : isSubmitted c.outcome = false) : Remembers windowMs (past ++ [c]) e := by
  constructor
  · exact h.config
  · intro a ha
    rcases List.mem_append.mp ha with ha | ha
    · exact h.ended a ha
    · rw [List.mem_singleton.mp ha]
      exact hdone
  · intro a ha hs
    rcases List.mem_append.mp ha with ha | ha
    · exact h.kept a ha hs
    · rw [List.mem_singleton.mp ha, hfailed] at hs
      exact absurd hs (by simp)
  · intro key t ht
    obtain ⟨a, ha, hs, hk, hd⟩ := h.justified key t ht
    exact ⟨a, List.mem_append_left [c] ha, hs, hk, hd⟩

omit [DoubleArith F] in
theorem remembers_submitted (e e' : Engine F) (c : Call F)
    (h : Remembers windowMs past e) (hclock : e.core.clock.now ≤ e'.core.clock.now)
    (hconfig : e'.config = e.config) (hdone : c.done = e'.core.clock.now)
    (hsubmitted : isSubmitted c.outcome = true)
    (hintents : e'.core.registry.recentIntents =
      (purged e).insert (intentDedupKey c.intent) e'.core.clock.now) :
    Remembers windowMs (past ++ [c]) e' := by
  have hended : ∀ a ∈ past ++ [c], a.done ≤ e'.core.clock.now := by
    intro a ha
    rcases List.mem_append.mp ha with ha | ha
    · exact le_trans (h.ended a ha) hclock
    · rw [List.mem_singleton.mp ha, hdone]
  constructor
  · rw [hconfig]
    exact h.config
  · exact hended
  · intro a ha hs hw
    rw [hintents]
    by_cases hkey : intentDedupKey a.intent = intentDedupKey c.intent
    · rw [hkey, AList.lookup_insert]
      exact ⟨_, rfl, hended a ha⟩
    · rw [AList.lookup_insert_ne hkey]
      rcases List.mem_append.mp ha with ha | ha
      · have hw' := within_earlier hclock hw
        obtain ⟨t, ht, hle⟩ := h.kept a ha hs hw'
        refine ⟨t, ?_, hle⟩
        rw [purged_lookup e windowMs h.config]
        exact ⟨ht, within_newer hle hw'⟩
      · exact absurd (by rw [List.mem_singleton.mp ha]) hkey
  · intro key t ht
    rw [hintents] at ht
    by_cases hkey : key = intentDedupKey c.intent
    · subst hkey
      rw [AList.lookup_insert, Option.some.injEq] at ht
      exact ⟨c, List.mem_append_right past List.mem_cons_self, hsubmitted, rfl, hdone.trans ht⟩
    · rw [AList.lookup_insert_ne hkey, purged_lookup e windowMs h.config] at ht
      obtain ⟨a, ha, hs, hk, hd⟩ := h.justified key t ht.1
      exact ⟨a, List.mem_append_left [c] ha, hs, hk, hd⟩

theorem confirm_config (x : OrderId) (answer : FillAnswer F) :
    (confirm e x answer).config = e.config := by
  unfold confirm
  cases e.awaiting.find? (awaits x) <;> rfl

theorem step_remembers (op : EngineOp F)
    (hclock : ClockForward e op) (h : Remembers windowMs past e) :
    Remembers windowMs (past ++ callOf e op) (engineStep e op) := by
  have hworks := engineStep_works e op
  cases op with
  | execute intent risk alpha uncertainty answer =>
    have hcalled := execute_called e intent risk alpha uncertainty answer
    unfold ClockForward at hclock
    simp only [callOf, engineStep] at hclock ⊢
    generalize execute e intent risk alpha uncertainty answer = out at hcalled hclock ⊢
    cases hcalled with
    | invalid hreached _ he =>
      have hfailed : isSubmitted out.2 = false := by
        cases hout : out.2 with
        | submitted id =>
          rw [hout] at hreached
          exact absurd hreached (by simp [reachedSubmit])
        | _ => rfl
      rw [he]
      exact remembers_failed windowMs past e _ h (le_refl _) hfailed
    | duplicate hout hkey hintents hsame hconfig =>
      have hfailed : isSubmitted out.2 = false := by rw [hout]; rfl
      exact remembers_failed windowMs past _ _
        (remembers_purge windowMs past e _ h hclock hconfig hintents) (le_refl _) hfailed
    | passed _ hkey hintents hconfig =>
      by_cases hsubmitted : isSubmitted out.2 = true
      · rw [if_pos hsubmitted] at hintents
        exact remembers_submitted windowMs past e out.1 _ h hclock hconfig rfl hsubmitted hintents
      · rw [if_neg hsubmitted] at hintents
        rw [Bool.not_eq_true] at hsubmitted
        exact remembers_failed windowMs past _ _
          (remembers_purge windowMs past e _ h hclock hconfig hintents) (le_refl _) hsubmitted
  | isDuplicate intent =>
    simp only [callOf, List.append_nil]
    exact remembers_purge windowMs past e _ h hclock rfl rfl
  | advanceClock clock =>
    simp only [callOf, List.append_nil]
    exact remembers_later windowMs past e _ h hclock rfl rfl
  | confirm x answer =>
    simp only [callOf, List.append_nil]
    apply remembers_later windowMs past e _ h hclock _ hworks.intents
    exact congrArg ExecutionConfig.dedupWindowMs (confirm_config e x answer)
  | _ =>
    simp only [callOf, List.append_nil]
    exact remembers_later windowMs past e _ h hclock rfl hworks.intents

def Stops (windowMs : ℤ) (a b : Call F) : Prop :=
  isSubmitted a.outcome = true → SameKey a b → Within windowMs b.time a.done →
    reachedSubmit b.outcome = false

def Blocks (windowMs : ℤ) (a b : Call F) : Prop :=
  isSubmitted a.outcome = true ∧ intentDedupKey a.intent = intentDedupKey b.intent ∧
    Within windowMs b.time a.done

omit [DoubleArith F] in
theorem sameKey_dedupKey (a b : Call F) (h : SameKey a b) :
    intentDedupKey a.intent = intentDedupKey b.intent := by
  simp only [intentDedupKey, h.1, h.2]

omit [DoubleArith F] in
theorem remembered_purged (h : Remembers windowMs past e) (a : Call F) (ha : a ∈ past)
    (hs : isSubmitted a.outcome = true) (hw : Within windowMs e.core.clock.now a.done) :
    intentDedupKey a.intent ∈ purged e := by
  obtain ⟨t, ht, hle⟩ := h.kept a ha hs hw
  rw [← AList.lookup_isSome, (purged_lookup e windowMs h.config _ t).mpr
    ⟨ht, within_newer hle hw⟩]
  rfl

omit [DoubleArith F] in
/-- A key that is recorded after the purge was submitted inside the window. -/
theorem purged_remembered (h : Remembers windowMs past e) (key : String) (hkey : key ∈ purged e) :
    ∃ a ∈ past, isSubmitted a.outcome = true ∧ intentDedupKey a.intent = key ∧
      Within windowMs e.core.clock.now a.done := by
  rw [← AList.lookup_isSome, Option.isSome_iff_exists] at hkey
  obtain ⟨t, ht⟩ := hkey
  rw [purged_lookup e windowMs h.config] at ht
  obtain ⟨a, ha, hs, hk, hd⟩ := h.justified key t ht.1
  exact ⟨a, ha, hs, hk, hd ▸ ht.2⟩

theorem call_answered
    (h : Remembers windowMs past e) (op : EngineOp F) (b : Call F) (hb : b ∈ callOf e op) :
    (∀ a ∈ past, Stops windowMs a b) ∧
      (b.outcome = .refused .idempotencyDuplicate → ∃ a ∈ past, Blocks windowMs a b) := by
  cases op with
  | execute intent risk alpha uncertainty answer =>
    have hcalled := execute_called e intent risk alpha uncertainty answer
    rw [callOf, List.mem_singleton] at hb
    subst hb
    generalize execute e intent risk alpha uncertainty answer = out at hcalled ⊢
    cases hcalled with
    | invalid hreached hdup _ => exact ⟨fun a _ _ _ _ => hreached, fun hout => absurd hout hdup⟩
    | duplicate hout hkey _ _ _ =>
      constructor
      · intro a _ _ _ _
        show reachedSubmit out.2 = false
        rw [hout]
        rfl
      · intro _
        obtain ⟨a, ha, hs, hk, hw⟩ := purged_remembered windowMs past e h _ hkey
        exact ⟨a, ha, hs, hk, hw⟩
    | passed hdup hkey _ _ =>
      constructor
      · intro a ha hs hsame hw
        have hrecorded := remembered_purged windowMs past e h a ha hs hw
        rw [sameKey_dedupKey a _ hsame] at hrecorded
        exact absurd hrecorded hkey
      · intro hout
        exact absurd hout hdup
  | _ => simp [callOf] at hb

theorem run_answered (ops : List (EngineOp F)) (h : Remembers windowMs past e)
    (hclock : Runs.Meets engineStep ClockForward e ops) (earlier : List (Call F)) (b : Call F)
    (later : List (Call F)) (hcalls : calls e ops = earlier ++ b :: later) :
    (∀ a ∈ past ++ earlier, Stops windowMs a b) ∧ (b.outcome = .refused .idempotencyDuplicate →
      ∃ a ∈ past ++ earlier, Blocks windowMs a b) := by
  induction ops generalizing past e earlier with
  | nil => simp [calls] at hcalls
  | cons op ops ih =>
    rw [calls] at hcalls
    rcases List.append_eq_append_iff.mp hcalls with ⟨rest, hearlier, hrest⟩ | ⟨rest, hof, hrest⟩
    · subst hearlier
      rw [← List.append_assoc]
      exact ih _ _ (step_remembers windowMs past e op hclock.1 h) hclock.2 rest hrest
    · cases rest with
      | nil =>
        have hearlier : callOf e op = earlier := by simpa using hof
        have hgood := ih _ _ (step_remembers windowMs past e op hclock.1 h) hclock.2 [] hrest.symm
        rw [List.append_nil, hearlier] at hgood
        exact hgood
      | cons c rest =>
        obtain ⟨rfl, -⟩ : b = c ∧ later = rest ++ calls (engineStep e op) ops := by
          simpa using hrest
        have hsingle : earlier = [] := by
          have hlen : (callOf e op).length ≤ 1 := by cases op <;> simp [callOf]
          rw [hof, List.length_append, List.length_cons] at hlen
          exact List.length_eq_zero_iff.mp (by omega)
        rw [hsingle, List.append_nil]
        exact call_answered windowMs past e h op b (hof ▸ by simp)

theorem init_remembers (p : Portfolio F) (clock : Clock) (config : ExecutionConfig F)
    (sessionPrefix : String) :
    Remembers config.dedupWindowMs [] (initEngine p clock config sessionPrefix) := by
  constructor
  · rfl
  · intro a ha
    exact absurd ha (List.not_mem_nil)
  · intro a ha
    exact absurd ha (List.not_mem_nil)
  · intro key t ht
    have hnone : (initEngine p clock config sessionPrefix).core.registry.recentIntents.lookup key =
        none := rfl
    rw [hnone] at ht
    exact absurd ht (by simp)

/-- A call made within the window after a submission of its key does not get to
the submitter; a call that submitted nothing blocks none. -/
theorem later_call_answered (p : Portfolio F) (clock : Clock) (config : ExecutionConfig F)
    (sessionPrefix : String) (ops : List (EngineOp F))
    (hclock : Runs.Meets engineStep ClockForward (initEngine p clock config sessionPrefix) ops)
    (earlier : List (Call F)) (b : Call F) (later : List (Call F))
    (hcalls : calls (initEngine p clock config sessionPrefix) ops = earlier ++ b :: later) :
    (∀ a ∈ earlier, isSubmitted a.outcome = true → SameKey a b →
      Within config.dedupWindowMs b.time a.done → reachedSubmit b.outcome = false) ∧
    ((∀ a ∈ earlier, intentDedupKey a.intent = intentDedupKey b.intent →
      Within config.dedupWindowMs b.time a.done → isSubmitted a.outcome = false) →
      b.outcome ≠ .refused .idempotencyDuplicate) := by
  have hanswered := run_answered config.dedupWindowMs [] _ ops
    (init_remembers p clock config sessionPrefix) hclock earlier b later hcalls
  rw [List.nil_append] at hanswered
  refine ⟨hanswered.1, fun hnone hout => ?_⟩
  obtain ⟨a, ha, hs, hk, hw⟩ := hanswered.2 hout
  rw [hnone a ha hk hw] at hs
  exact absurd hs (by simp)

end Calls

section Session

def refusedEntry : EngineOp ℚ :=
  .execute entryIntent ⟨.approved, 1⟩ ⟨true, .postOnly, 0, none, 1⟩ .low
    (.returned ⟨false, "", "busy", 0⟩ ⟨0, 0, 0⟩)

def repeatedEntry : List (EngineOp ℚ) :=
  [refusedEntry, enter .postOnly, enter .postOnly]

theorem repeatedEntry_clock : Runs.Meets engineStep ClockForward startEngine repeatedEntry := by
  refine ⟨?_, ?_, ?_, trivial⟩
  all_goals
    unfold ClockForward
    decide +kernel

theorem repeatedEntry_calls : ∃ a b c : Call ℚ, calls startEngine repeatedEntry = [a, b, c] ∧
    a.outcome = .submitFailed "TB1-1" ∧ b.outcome = .submitted "TB1-2" ∧
    SameKey a b ∧ SameKey b c ∧ a.time = 0 ∧ b.done = 0 ∧ c.time = 0 := by
  iterate 3 apply Exists.intro
  constructor
  · simp only [repeatedEntry, refusedEntry, enter, calls]
    rfl
  · refine ⟨?_, ?_, ⟨rfl, rfl⟩, ⟨rfl, rfl⟩, rfl, ?_, ?_⟩
    all_goals decide +kernel

/-- The repetition of the entry does not get to the submitter. -/
theorem later_call_answered_repeated : ∃ a b c : Call ℚ,
    calls startEngine repeatedEntry = [a, b] ++ c :: [] ∧ reachedSubmit c.outcome = false := by
  obtain ⟨a, b, c, hcalls, -, hb, -, hsame, -, hdone, htime⟩ := repeatedEntry_calls
  refine ⟨a, b, c, hcalls, ?_⟩
  have hanswered := (later_call_answered (initPortfolio 1000) ⟨0, 0, 0⟩ defaultConfig "1"
    repeatedEntry repeatedEntry_clock [a, b] c [] hcalls).1
  apply hanswered b (by simp) (by rw [hb]; rfl) hsame
  rw [Within, hdone, htime]
  decide

/-- The call that failed had reached the submitter, with the key of the submission
after it and at the same time. -/
theorem earlier_call_reached_submit :
    Runs.Meets engineStep ClockForward startEngine repeatedEntry ∧
    ∃ a b c : Call ℚ, calls startEngine repeatedEntry = [a, b, c] ∧
      isSubmitted b.outcome = true ∧ SameKey a b ∧
      |a.time - b.done| ≤ startEngine.config.dedupWindowMs * 1000000 ∧
      reachedSubmit a.outcome = true := by
  obtain ⟨a, b, c, hcalls, ha, hb, hsame, -, htime, hdone, -⟩ := repeatedEntry_calls
  refine ⟨repeatedEntry_clock, a, b, c, hcalls, by rw [hb]; rfl, hsame, ?_, by rw [ha]; rfl⟩
  rw [htime, hdone]
  decide

end Session

end TB.IntentDedup
