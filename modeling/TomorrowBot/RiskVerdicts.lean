import TomorrowBot.RiskEvaluation
import Mathlib.Tactic.Linarith
import Mathlib.Tactic.NormNum
import Mathlib.Tactic.FieldSimp

/-!
# The verdict as a fold of the findings

In exact arithmetic the verdict of the checks is the most severe of what each
returns alone, the size is the smallest, and neither depends on the order of
the checks. The action follows the verdict except where nothing denies and a
check throttles, and where a later lock overwrites the halt.
-/

set_option autoImplicit false

namespace TB.RiskVerdicts
open TB.CommonTypes TB.TradingContext TB.RiskTypes TB.RiskChecks TB.RiskEngine TB.RiskFindings
open TB.RiskEvaluation Extremes
open TB.ExecutionPlanner hiding RiskDecision

section Folding
variable {F : Type} [DoubleArith F] {now : ℤ} {ctx : RiskContext F}

def alone (ctx : RiskContext F) (s : RiskState F) (size : F) (now : ℤ) (c : IRiskCheck F) :
    RiskChecks.RiskDecision F :=
  (c.evaluate ctx s (startDecision size now)).2

theorem evaluate_verdict {c : IRiskCheck F} (hc : CheckSpec now ctx c) (hm : NoMarginData ctx)
    (s : RiskState F) (d : RiskChecks.RiskDecision F) (size : F) (t : ℤ) :
    (c.evaluate ctx s d).2.verdict = max d.verdict (alone ctx s size t c).verdict := by
  obtain ⟨fs, hr⟩ := hc.reports hm s
  have h1 := hr.verdict d
  have h2 := hr.verdict (startDecision size t)
  have h3 : greatest d.verdict (fs.map Finding.verdict) =
      max d.verdict (greatest .approved (fs.map Finding.verdict)) := by
    apply eq_of_forall_ge_iff
    intro v
    rw [max_le_iff, greatest_le_iff, greatest_le_iff]
    simp [approved_le]
  rw [h1, h3]
  exact congrArg (max d.verdict) h2.symm

variable (cs : List (IRiskCheck F))

/-- In any order the verdict is the most severe of what the checks return alone. -/
theorem runChecks_verdict (hs : ∀ c ∈ cs, CheckSpec now ctx c)
    (hm : NoMarginData ctx) (size : F) (t : ℤ) {s s' : RiskState F}
    (d : RiskChecks.RiskDecision F) (hd : Drift now s s')
    (hden : s'.locks ≠ s.locks → d.verdict = .denied) :
    (runChecks ctx cs s' d).2.verdict =
      greatest d.verdict (cs.map (fun c => (alone ctx s size t c).verdict)) := by
  induction cs generalizing s' d with
  | nil => rfl
  | cons c cs ih =>
    have hc := hs c List.mem_cons_self
    have hv : (c.evaluate ctx s' d).2.verdict =
        max d.verdict (alone ctx s size t c).verdict := by
      by_cases hl : s'.locks = s.locks
      · rw [hc.same s s' d hd hl]
        exact evaluate_verdict hc hm s d size t
      · rw [hden hl, max_eq_left (le_denied _)]
        exact eq_denied (hden hl ▸ hc.raises s' d)
    have hnext : (c.evaluate ctx s' d).1.locks ≠ s.locks →
        (c.evaluate ctx s' d).2.verdict = .denied := by
      intro hne
      by_cases hl : (c.evaluate ctx s' d).1.locks = s'.locks
      · rw [hv, hden (hl ▸ hne)]
        exact max_eq_left (le_denied _)
      · exact hc.denies s' d hl
    have hrun := ih (fun x hx => hs x (List.mem_cons_of_mem c hx)) (c.evaluate ctx s' d).2
      (hd.trans now (hc.drifts s' d)) hnext
    rw [hv, greatest_max] at hrun
    exact hrun

/-- The checks leave the original size and the permission alone. -/
theorem Reports.kept {f : RiskChecks.RiskDecision F → RiskChecks.RiskDecision F}
    {fs : List (Finding F)} (hr : Reports f fs) (d : RiskChecks.RiskDecision F) :
    (f d).originalSize = d.originalSize ∧ (f d).allowed = d.allowed := by
  have htake : ∀ (c : Standing F) (x : Finding F),
      (c.take x).originalSize = c.originalSize ∧ (c.take x).allowed = c.allowed := by
    intro c x
    cases x <;> exact ⟨rfl, rfl⟩
  have hfold : ∀ (fs : List (Finding F)) (c : Standing F),
      (fs.foldl Standing.take c).originalSize = c.originalSize ∧
        (fs.foldl Standing.take c).allowed = c.allowed := by
    intro fs
    induction fs with
    | nil => exact fun c => ⟨rfl, rfl⟩
    | cons x fs ih =>
      intro c
      exact ⟨(ih _).1.trans (htake c x).1, (ih _).2.trans (htake c x).2⟩
  have hd := hr d
  exact ⟨(congrArg Standing.originalSize hd).trans (hfold fs _).1,
    (congrArg Standing.allowed hd).trans (hfold fs _).2⟩

theorem runChecks_kept (hs : ∀ c ∈ cs, CheckSpec now ctx c)
    (hm : NoMarginData ctx) (s : RiskState F) (d : RiskChecks.RiskDecision F) :
    (runChecks ctx cs s d).2.originalSize = d.originalSize ∧
      (runChecks ctx cs s d).2.allowed = d.allowed := by
  induction cs generalizing s d with
  | nil => exact ⟨rfl, rfl⟩
  | cons c cs ih =>
    obtain ⟨fs, hr⟩ := (hs c List.mem_cons_self).reports hm s
    have hc := Reports.kept hr d
    have hrun := ih (fun x hx => hs x (List.mem_cons_of_mem c hx)) (c.evaluate ctx s d).1
      (c.evaluate ctx s d).2
    exact ⟨hrun.1.trans hc.1, hrun.2.trans hc.2⟩

theorem Reports.quiet {f : RiskChecks.RiskDecision F → RiskChecks.RiskDecision F}
    {fs : List (Finding F)} (hr : Reports f fs) (d : RiskChecks.RiskDecision F)
    (h : (∀ x ∈ fs, x.mild = true) ∨ (f d).verdict ≠ .denied) :
    (f d).action = d.action ∧ (f d).killSwitchActive = d.killSwitchActive := by
  have hmild : ∀ x ∈ fs, x.mild = true := by
    rcases h with h | h
    · exact h
    · intro x hx
      by_contra hx'
      have hden : x.verdict = .denied := by
        cases x with
        | lock | kill => rfl
        | deny | reduce | throttle => exact absurd rfl hx'
      apply h
      apply eq_denied
      rw [hr.verdict d, ← hden]
      exact le_greatest_of_mem (List.mem_map_of_mem hx)
  have hfold : ∀ (fs : List (Finding F)) (c : Standing F), (∀ x ∈ fs, x.mild = true) →
      (fs.foldl Standing.take c).action = c.action ∧
        (fs.foldl Standing.take c).killSwitchActive = c.killSwitchActive := by
    intro fs
    induction fs with
    | nil => exact fun c _ => ⟨rfl, rfl⟩
    | cons x fs ih =>
      intro c hall
      have hx := hall x List.mem_cons_self
      have hrest := ih (c.take x) (fun y hy => hall y (List.mem_cons_of_mem x hy))
      cases x with
      | lock | kill => exact absurd hx Bool.false_ne_true
      | deny | reduce | throttle => exact hrest
  have hd := hr d
  have hf := hfold fs (standing d) hmild
  exact ⟨(congrArg Standing.action hd).trans hf.1,
    (congrArg Standing.killSwitchActive hd).trans hf.2⟩

theorem runChecks_quiet (hs : ∀ c ∈ cs, CheckSpec now ctx c)
    (hm : NoMarginData ctx) (s : RiskState F) (d : RiskChecks.RiskDecision F)
    (h : (∀ c ∈ cs, c.name ∉ lockingChecks) ∨ (runChecks ctx cs s d).2.verdict ≠ .denied) :
    (runChecks ctx cs s d).2.action = d.action ∧
      (runChecks ctx cs s d).2.killSwitchActive = d.killSwitchActive := by
  induction cs generalizing s d with
  | nil => exact ⟨rfl, rfl⟩
  | cons c cs ih =>
    have hc := hs c List.mem_cons_self
    have hrest : ∀ x ∈ cs, CheckSpec now ctx x := fun x hx => hs x (List.mem_cons_of_mem c hx)
    have hstep : (c.evaluate ctx s d).2.action = d.action ∧
        (c.evaluate ctx s d).2.killSwitchActive = d.killSwitchActive := by
      rcases h with h | h
      · obtain ⟨fs, hmild, hr⟩ := hc.mild hm (h c List.mem_cons_self) s
        exact Reports.quiet hr d (Or.inl hmild)
      · obtain ⟨fs, hr⟩ := hc.reports hm s
        apply Reports.quiet hr d
        refine Or.inr (fun hden => h (eq_denied ?_))
        rw [← hden]
        exact runChecks_raises cs hrest _ _
    have hrun := ih hrest (c.evaluate ctx s d).1 (c.evaluate ctx s d).2
      (h.imp (fun h x hx => h x (List.mem_cons_of_mem c hx)) id)
    exact ⟨hrun.1.trans hstep.1, hrun.2.trans hstep.2⟩

end Folding

section Sizes
variable {now : ℤ} {ctx : RiskContext ℚ}

def proposed (size : ℚ) : Finding ℚ → List ℚ
  | .reduce ratio => [size * stdClamp ratio 0.0 1.0]
  | _ => []

theorem Reports.size {f : RiskChecks.RiskDecision ℚ → RiskChecks.RiskDecision ℚ}
    {fs : List (Finding ℚ)} (hr : Reports f fs) (d : RiskChecks.RiskDecision ℚ) :
    (f d).approvedQuantity =
      least d.approvedQuantity (fs.flatMap (proposed d.originalSize)) := by
  have hfold : ∀ (fs : List (Finding ℚ)) (c : Standing ℚ),
      (fs.foldl Standing.take c).approvedQuantity =
        least c.approvedQuantity (fs.flatMap (proposed c.originalSize)) := by
    intro fs
    induction fs with
    | nil => exact fun c => rfl
    | cons x fs ih =>
      intro c
      cases x with
      | reduce ratio =>
        rw [List.foldl_cons, ih]
        have hcut : cutTo c.originalSize c.approvedQuantity ratio =
            min c.approvedQuantity (c.originalSize * stdClamp ratio 0.0 1.0) :=
          stdMin_rat _ _
        show least (cutTo c.originalSize c.approvedQuantity ratio) _ = _
        rw [hcut, least_min]
        rfl
      | deny | lock | kill | throttle => exact ih _
  exact (congrArg Standing.approvedQuantity (hr d)).trans (hfold fs _)

theorem evaluate_size {c : IRiskCheck ℚ} (hc : CheckSpec now ctx c) (hm : NoMarginData ctx)
    (s : RiskState ℚ) (d : RiskChecks.RiskDecision ℚ) (size : ℚ) (t : ℤ)
    (ho : d.originalSize = size) (hle : d.approvedQuantity ≤ size) :
    (c.evaluate ctx s d).2.approvedQuantity =
      min d.approvedQuantity (alone ctx s size t c).approvedQuantity := by
  obtain ⟨fs, hr⟩ := hc.reports hm s
  have h1 := Reports.size hr d
  have h2 := Reports.size hr (startDecision size t)
  have h3 : least d.approvedQuantity (fs.flatMap (proposed size)) =
      min d.approvedQuantity (least size (fs.flatMap (proposed size))) := by
    apply eq_of_forall_le_iff
    intro x
    rw [le_min_iff, le_least_iff, le_least_iff]
    constructor
    · intro h
      exact ⟨h.1, h.1.trans hle, h.2⟩
    · intro h
      exact ⟨h.1, h.2.2⟩
  rw [h1, ho, h3]
  exact congrArg (min d.approvedQuantity) h2.symm

/-- In any order the size is the smallest of what the checks propose alone. -/
theorem runChecks_size (cs : List (IRiskCheck ℚ)) (hs : ∀ c ∈ cs, CheckSpec now ctx c)
    (hm : NoMarginData ctx) (size : ℚ) (t : ℤ) {s s' : RiskState ℚ}
    (d : RiskChecks.RiskDecision ℚ) (hd : Drift now s s') (ho : d.originalSize = size)
    (hle : d.approvedQuantity ≤ size) :
    (runChecks ctx cs s' d).2.approvedQuantity =
      least d.approvedQuantity (cs.map (fun c => (alone ctx s size t c).approvedQuantity)) := by
  induction cs generalizing s' d with
  | nil => rfl
  | cons c cs ih =>
    have hc := hs c List.mem_cons_self
    have hq : (c.evaluate ctx s' d).2.approvedQuantity =
        min d.approvedQuantity (alone ctx s size t c).approvedQuantity :=
      (hc.size s s' d hd).trans (evaluate_size hc hm s d size t ho hle)
    obtain ⟨fs, hr⟩ := hc.reports hm s'
    have hkept := (Reports.kept hr d).1
    have hrun := ih (fun x hx => hs x (List.mem_cons_of_mem c hx)) (c.evaluate ctx s' d).2
      (hd.trans now (hc.drifts s' d)) (hkept.trans ho)
      (hq ▸ (min_le_left _ _).trans hle)
    rw [hq, least_min] at hrun
    exact hrun

end Sizes

section Actions
variable {F : Type} [DoubleArith F]

def mark (d : RiskChecks.RiskDecision F) : RiskAction × Bool := (d.action, d.killSwitchActive)

def relock (c : Prop) [Decidable c] (action : RiskAction) (m : RiskAction × Bool) :
    RiskAction × Bool :=
  if c then (action, m.2) else m

def lockMark (cfg : ExtendedRiskConfig F) (s : RiskState F) (ctx : RiskContext F)
    (m : RiskAction × Bool) : RiskAction × Bool :=
  relock (budgetSpent cfg s ctx) .denyStrategyLock
    (relock (haltedByLosses cfg ctx.portfolio) .denyAccountLock
      (relock (hardStopReached cfg ctx.portfolio) .emergencyHalt
        (relock (hasStrategyLock s.locks ctx.intent.strategyId) .denyStrategyLock
          (relock (hasSymbolLock s.locks ctx.intent.symbol) .denySymbolLock
            (relock (hasDayLock s.locks) .denyDayLock
              (if hasEmergencyHalt s.locks then (.emergencyHalt, true) else m))))))

theorem relock_other (c : Prop) [Decidable c] (action : RiskAction) (m : RiskAction × Bool)
    (h : action ≠ .emergencyHalt) :
    (relock c action m).1 = .emergencyHalt ↔ ¬ c ∧ m.1 = .emergencyHalt := by
  unfold relock
  split_ifs with hc
  · exact iff_of_false h (fun hm => hm.1 hc)
  · exact (and_iff_right hc).symm

theorem relock_halt (c : Prop) [Decidable c] (m : RiskAction × Bool) :
    (relock c .emergencyHalt m).1 = .emergencyHalt ↔ c ∨ m.1 = .emergencyHalt := by
  unfold relock
  split_ifs with hc
  · exact iff_of_true rfl (.inl hc)
  · exact (or_iff_right hc).symm

theorem mark_lockIf (c : Prop) [Decidable c] (action : RiskAction) (code : String)
    (d : RiskChecks.RiskDecision F) :
    mark (lockIf c action code d) = relock c action (mark d) := by
  unfold lockIf relock
  split_ifs <;> rfl

theorem mark_killSwitch (s : RiskState F) (d : RiskChecks.RiskDecision F) :
    mark (killSwitchCheck s d) =
      if hasEmergencyHalt s.locks then (.emergencyHalt, true) else mark d := by
  unfold killSwitchCheck
  split_ifs <;> rfl

theorem mark_hardStop (cfg : ExtendedRiskConfig F) (s : RiskState F) (ctx : RiskContext F)
    (d : RiskChecks.RiskDecision F) :
    mark (drawdownHardStopCheck cfg s ctx d).2 =
      relock (hardStopReached cfg ctx.portfolio) .emergencyHalt (mark d) := by
  simp only [drawdownHardStopCheck, relock]
  split_ifs <;> rfl

theorem mark_consecutiveLosses (cfg : ExtendedRiskConfig F) (ctx : RiskContext F)
    (d : RiskChecks.RiskDecision F) :
    mark (consecutiveLossesCheck cfg ctx d) =
      relock (haltedByLosses cfg ctx.portfolio) .denyAccountLock (mark d) := by
  have hdeny : ∀ (c : Prop) [Decidable c] (code : String) (sev : F),
      mark (denyIf c code sev d) = mark d := by
    intro c _ code sev
    unfold denyIf deny
    split_ifs <;> rfl
  unfold consecutiveLossesCheck
  refine (mark_lockIf _ _ _ _).trans ?_
  rw [hdeny]
  rfl

theorem mark_perStrategyRisk (cfg : ExtendedRiskConfig F) (s : RiskState F)
    (ctx : RiskContext F) (d : RiskChecks.RiskDecision F) :
    mark (perStrategyRiskCheck cfg s ctx d) =
      relock (budgetSpent cfg s ctx) .denyStrategyLock (mark d) := by
  have h := reports_perStrategyRisk cfg s ctx d
  unfold relock
  split_ifs at h ⊢ with hb
  · exact Prod.ext (congrArg Standing.action h) (congrArg Standing.killSwitchActive h)
  · exact Prod.ext (congrArg Standing.action h) (congrArg Standing.killSwitchActive h)

variable {now : ℤ} {ctx : RiskContext F} (cfg : ExtendedRiskConfig F)

theorem mark_after (before : List (IRiskCheck F)) (c : IRiskCheck F)
    (after : List (IRiskCheck F)) (hs : ∀ x ∈ after, CheckSpec now ctx x)
    (hm : NoMarginData ctx) (hafter : ∀ x ∈ after, x.name ∉ lockingChecks) (s : RiskState F)
    (d : RiskChecks.RiskDecision F) :
    let r := runChecks ctx before s d
    mark (runChecks ctx (before ++ c :: after) s d).2 = mark (c.evaluate ctx r.1 r.2).2 := by
  intro r
  rw [runChecks_append]
  have h := runChecks_quiet after hs hm (c.evaluate ctx r.1 r.2).1 (c.evaluate ctx r.1 r.2).2
    (Or.inl hafter)
  exact Prod.ext h.1 h.2

omit [DoubleArith F] in
theorem quiet_of_names (cs : List (IRiskCheck F))
    (h : ∀ n ∈ cs.map (·.name), n ∉ lockingChecks) : ∀ x ∈ cs, x.name ∉ lockingChecks :=
  fun x hx => h x.name (List.mem_map_of_mem hx)

theorem checks_mark (hm : NoMarginData ctx) (scale : F) (s : RiskState F)
    (d : RiskChecks.RiskDecision F) :
    mark (runChecks ctx (initChecks cfg scale now) s d).2 = lockMark cfg s ctx (mark d) := by
  have hspec := initChecks_spec now ctx cfg scale
  have hsub : ∀ n m, ∀ x ∈ ((initChecks cfg scale now).drop n).take m, CheckSpec now ctx x :=
    fun n m x hx => hspec x (List.mem_of_mem_drop (List.mem_of_mem_take hx))
  have hlocks : mark (runChecks ctx ((initChecks cfg scale now).take 9) s d).2 =
      mark (strategyLockCheck s ctx (symbolLockCheck s ctx (dayLockCheck s
        (killSwitchCheck s d)))) :=
    mark_after ((initChecks cfg scale now).take 3) _ _ (hsub 4 5) hm
      (quiet_of_names _ (by simp [initChecks, lockingChecks])) s d
  have hstop : mark (runChecks ctx ((initChecks cfg scale now).take 16) s d).2 =
      mark (drawdownHardStopCheck cfg (runChecks ctx ((initChecks cfg scale now).take 9) s d).1
        ctx (runChecks ctx ((initChecks cfg scale now).take 9) s d).2).2 :=
    mark_after ((initChecks cfg scale now).take 9) _ _ (hsub 10 6) hm
      (quiet_of_names _ (by simp [initChecks, lockingChecks])) s d
  have hlosses : mark (runChecks ctx ((initChecks cfg scale now).take 19) s d).2 =
      mark (consecutiveLossesCheck cfg ctx
        (runChecks ctx ((initChecks cfg scale now).take 16) s d).2) :=
    mark_after ((initChecks cfg scale now).take 16) _ _ (hsub 17 2) hm
      (quiet_of_names _ (by simp [initChecks, lockingChecks])) s d
  have hstrategy : mark (runChecks ctx (initChecks cfg scale now) s d).2 =
      mark (perStrategyRiskCheck cfg (runChecks ctx ((initChecks cfg scale now).take 19) s d).1
        ctx (runChecks ctx ((initChecks cfg scale now).take 19) s d).2) :=
    mark_after ((initChecks cfg scale now).take 19) _ _ (hsub 20 17) hm
      (quiet_of_names _ (by simp [initChecks, lockingChecks])) s d
  have hdrift := runChecks_drifts ((initChecks cfg scale now).take 19) (hsub 0 19) s d
  have hbudget : budgetSpent cfg (runChecks ctx ((initChecks cfg scale now).take 19) s d).1 ctx =
      budgetSpent cfg s ctx := by
    simp only [budgetSpent, hdrift.strategyBudgets]
  rw [hstrategy, mark_perStrategyRisk, hbudget, hlosses, mark_consecutiveLosses, hstop,
    mark_hardStop, hlocks]
  simp only [strategyLockCheck, symbolLockCheck, dayLockCheck, mark_lockIf, mark_killSwitch,
    lockMark]

end Actions

section Law
variable (cfg : ExtendedRiskConfig ℚ) (e : ProductionRiskEngine ℚ) (now : ℤ)
  (provider : Option Bool) (request : RiskRequest ℚ)

def aloneDecisions : List (RiskChecks.RiskDecision ℚ) :=
  let o := opened e now provider request
  (initChecks cfg o.regimeScaleFactor now).map
    (alone (context o request) o.state request.sizing.approvedQuantity now)

def worstVerdict : RiskVerdict :=
  greatest .approved ((aloneDecisions cfg e now provider request).map (·.verdict))

def smallestSize : ℚ :=
  least request.sizing.approvedQuantity
    ((aloneDecisions cfg e now provider request).map (·.approvedQuantity))

def notionalOf (size : ℚ) : ℚ :=
  size * (request.sizing.approvedNotional / request.sizing.approvedQuantity)

def belowMinimum : Prop :=
  worstVerdict cfg e now provider request = .reduceSize ∧ 0 < request.sizing.approvedQuantity ∧
    notionalOf request (smallestSize cfg e now provider request) < minNotional e

instance : Decidable (belowMinimum cfg e now provider request) := instDecidableAnd

def firedCaps : List ℚ :=
  let notional := request.sizing.approvedNotional
  let scale := (opened e now provider request).regimeScaleFactor
  (if effectiveCap cfg request.portfolio < notional then [effectiveCap cfg request.portfolio]
    else []) ++
  (if ¬ (cfg.regimeAwareLimitsEnabled = false ∨ (1.0 : ℚ) ≤ scale) ∧
      ¬ notional ≤ regimeCap cfg scale then [regimeCap cfg scale] else []) ++
  (if ¬ (request.uncertainty.level ≠ .high ∧ request.uncertainty.level ≠ .extreme) ∧
      ¬ notional ≤ uncertaintyCap cfg request.uncertainty then
    [uncertaintyCap cfg request.uncertainty] else [])

structure VerdictLaw (d : RiskChecks.RiskDecision ℚ) : Prop where
  severest : d.verdict = if belowMinimum cfg e now provider request then .denied
    else worstVerdict cfg e now provider request
  smallest : d.approvedQuantity = smallestSize cfg e now provider request
  bounded : d.approvedQuantity ≤ request.sizing.approvedQuantity
  anyOrder : ∀ l, l.Perm (initChecks cfg (opened e now provider request).regimeScaleFactor now) →
    let r := runChecks (context (opened e now provider request) request) l
      (opened e now provider request).state (startDecision request.sizing.approvedQuantity now)
    r.2.verdict = worstVerdict cfg e now provider request ∧
      r.2.approvedQuantity = smallestSize cfg e now provider request
  allowed : d.allowed = true ↔ d.verdict = .approved ∨ d.verdict = .reduceSize
  allow : d.action = .allow ↔ d.verdict = .approved
  reduced : d.action = .allowWithReducedSize ↔ d.verdict = .reduceSize
  halt : d.killSwitchActive = true → d.action = .emergencyHalt
  caps : d.allowed = true → ∀ cap ∈ firedCaps cfg e now provider request,
    notionalOf request d.approvedQuantity ≤ cap
  minimum : d.verdict = .reduceSize →
    minNotional e ≤ notionalOf request d.approvedQuantity

def haltLast : Prop :=
  let o := opened e now provider request
  ¬ budgetSpent cfg o.state (context o request) ∧ ¬ haltedByLosses cfg request.portfolio ∧
    (hardStopReached cfg request.portfolio ∨
      ¬ hasStrategyLock o.state.locks request.intent.strategyId ∧
        ¬ hasSymbolLock o.state.locks request.intent.symbol ∧ ¬ hasDayLock o.state.locks)

/-- A check throttles only where another one denies, no check reduces a size of zero
unless another one stops the request, and a halt is not overwritten. -/
structure ActionFollows : Prop where
  throttled : .throttled ∈ (aloneDecisions cfg e now provider request).map (·.verdict) →
    .denied ∈ (aloneDecisions cfg e now provider request).map (·.verdict)
  sized : request.sizing.approvedQuantity = 0 →
    .reduceSize ∈ (aloneDecisions cfg e now provider request).map (·.verdict) →
      ∃ v ∈ (aloneDecisions cfg e now provider request).map (·.verdict),
        RiskVerdict.throttled ≤ v
  halt : hasEmergencyHalt (opened e now provider request).state.locks = true →
    haltLast cfg e now provider request

section Facts

theorem noMarginData (o : ProductionRiskEngine ℚ) : NoMarginData (context o request) := by
  show (99.0 : ℚ) ≤ 100.0
  norm_num

theorem anyOrder_outcome (l : List (IRiskCheck ℚ))
    (hl : l.Perm (initChecks cfg (opened e now provider request).regimeScaleFactor now)) :
    let r := runChecks (context (opened e now provider request) request) l
      (opened e now provider request).state (startDecision request.sizing.approvedQuantity now)
    r.2.verdict = worstVerdict cfg e now provider request ∧
      r.2.approvedQuantity = smallestSize cfg e now provider request := by
  have hs : ∀ c ∈ l, CheckSpec now (context (opened e now provider request) request) c :=
    fun c hc => initChecks_spec now _ cfg _ c (hl.mem_iff.mp hc)
  constructor
  · rw [runChecks_verdict l hs (noMarginData request _) request.sizing.approvedQuantity now
      (startDecision request.sizing.approvedQuantity now) (drift_refl now _) (absurd rfl)]
    rw [worstVerdict, aloneDecisions, List.map_map]
    exact greatest_perm _ (hl.map _)
  · rw [runChecks_size l hs (noMarginData request _) request.sizing.approvedQuantity now
      (startDecision request.sizing.approvedQuantity now) (drift_refl now _) rfl le_rfl]
    rw [smallestSize, aloneDecisions, List.map_map]
    exact least_perm _ (hl.map _)

theorem minNotional_pos : 0 < minNotional e := by
  unfold minNotional
  split_ifs with h
  · have h0 : (0.0 : ℚ) = 0 := by norm_num
    exact h0 ▸ h
  · show (0 : ℚ) < 5.5
    norm_num

theorem smallestSize_le : smallestSize cfg e now provider request ≤
    request.sizing.approvedQuantity := least_le _ _

theorem share_eq (r : ℚ) : stdClamp r 0.0 1.0 = if r < 0 then 0 else if 1 < r then 1 else r := by
  have h0 : (0.0 : ℚ) = 0 := by norm_num
  have h1 : (1.0 : ℚ) = 1 := by norm_num
  unfold stdClamp
  rw [h0, h1]

theorem share_nonneg (r : ℚ) : 0 ≤ stdClamp r 0.0 1.0 := by
  rw [share_eq]
  split_ifs with h h'
  · exact le_rfl
  · exact zero_le_one
  · exact not_lt.mp h

theorem share_le (r : ℚ) (h : 0 ≤ r) : stdClamp r 0.0 1.0 ≤ r := by
  rw [share_eq, if_neg (not_lt.mpr h)]
  split_ifs with h'
  · exact le_of_lt h'
  · exact le_rfl

theorem share_zero (r : ℚ) (h : r ≤ 0) : stdClamp r 0.0 1.0 = 0 := by
  rw [share_eq]
  split_ifs with h' h''
  · rfl
  · exact absurd (lt_of_lt_of_le h'' h) (by norm_num)
  · exact le_antisymm h (not_lt.mp h')

theorem mem_alone (c : IRiskCheck ℚ)
    (hc : c ∈ initChecks cfg (opened e now provider request).regimeScaleFactor now) :
    alone (context (opened e now provider request) request) (opened e now provider request).state
      request.sizing.approvedQuantity now c ∈ aloneDecisions cfg e now provider request :=
  List.mem_map_of_mem hc

theorem reduced_alone (c : IRiskCheck ℚ)
    (hc : c ∈ initChecks cfg (opened e now provider request).regimeScaleFactor now) (cap : ℚ)
    (code : String) (d : RiskChecks.RiskDecision ℚ)
    (hd : standing d = standing (startDecision request.sizing.approvedQuantity now))
    (halone : alone (context (opened e now provider request) request)
      (opened e now provider request).state request.sizing.approvedQuantity now c =
        reduce d (cap / request.sizing.approvedNotional) code) :
    .reduceSize ∈ (aloneDecisions cfg e now provider request).map (·.verdict) ∧
      smallestSize cfg e now provider request ≤ request.sizing.approvedQuantity *
        stdClamp (cap / request.sizing.approvedNotional) 0.0 1.0 := by
  have hmem := mem_alone cfg e now provider request c hc
  rw [halone] at hmem
  have hverdict : d.verdict = .approved := congrArg Standing.verdict hd
  have hsize : d.originalSize = request.sizing.approvedQuantity :=
    congrArg Standing.originalSize hd
  constructor
  · refine List.mem_map.mpr ⟨_, hmem, ?_⟩
    show (if d.verdict = .approved then _ else _) = _
    rw [if_pos hverdict]
  · have hle : smallestSize cfg e now provider request ≤
        cutTo d.originalSize d.approvedQuantity (cap / request.sizing.approvedNotional) :=
      least_le_of_mem (List.mem_map.mpr ⟨_, hmem, rfl⟩)
    rw [hsize] at hle
    exact hle.trans ((stdMin_rat _ _).le.trans (min_le_right _ _))

theorem fired_cap (cap : ℚ) (h : cap ∈ firedCaps cfg e now provider request) :
    cap < request.sizing.approvedNotional ∧
      .reduceSize ∈ (aloneDecisions cfg e now provider request).map (·.verdict) ∧
      smallestSize cfg e now provider request ≤ request.sizing.approvedQuantity *
        stdClamp (cap / request.sizing.approvedNotional) 0.0 1.0 := by
  simp only [firedCaps, List.mem_append] at h
  rcases h with (h | h) | h
  · split_ifs at h with hc
    · obtain rfl := List.mem_singleton.mp h
      refine ⟨hc, reduced_alone cfg e now provider request
        ⟨"per_trade_risk_check", fun ctx s d => (s, perTradeRiskCheck cfg ctx d)⟩
        (List.mem_of_getElem? (i := 13) rfl) _ "MAX_NOTIONAL" _ rfl ?_⟩
      exact if_pos hc
    · exact absurd h (List.not_mem_nil)
  · split_ifs at h with hc
    · obtain rfl := List.mem_singleton.mp h
      refine ⟨not_le.mp hc.2, reduced_alone cfg e now provider request
        ⟨"regime_scaled_limits_check", fun ctx s d => (s, regimeScaledLimitsCheck cfg ctx d
          (opened e now provider request).regimeScaleFactor)⟩
        (List.mem_of_getElem? (i := 28) rfl) _ "REGIME_SCALED_LIMIT"
        { startDecision request.sizing.approvedQuantity now with
          regimeScalingFactor := (opened e now provider request).regimeScaleFactor } rfl ?_⟩
      exact (if_neg hc.1).trans (if_neg hc.2)
    · exact absurd h (List.not_mem_nil)
  · split_ifs at h with hc
    · obtain rfl := List.mem_singleton.mp h
      refine ⟨not_le.mp hc.2, reduced_alone cfg e now provider request
        ⟨"uncertainty_limits_check", fun ctx s d => (s, uncertaintyLimitsCheck cfg ctx d)⟩
        (List.mem_of_getElem? (i := 29) rfl) _ "UNCERTAINTY_LIMIT" _ rfl ?_⟩
      exact (if_neg hc.1).trans (if_neg hc.2)
    · exact absurd h (List.not_mem_nil)

theorem law_congr {d d' : RiskChecks.RiskDecision ℚ} (h : standing d = standing d')
    (hl : VerdictLaw cfg e now provider request d) :
    VerdictLaw cfg e now provider request d' := by
  have hv : d.verdict = d'.verdict := congrArg Standing.verdict h
  have ha : d.action = d'.action := congrArg Standing.action h
  have hq : d.approvedQuantity = d'.approvedQuantity := congrArg Standing.approvedQuantity h
  have hp : d.allowed = d'.allowed := congrArg Standing.allowed h
  have hk : d.killSwitchActive = d'.killSwitchActive := congrArg Standing.killSwitchActive h
  exact ⟨hv ▸ hl.severest, hq ▸ hl.smallest, hq ▸ hl.bounded, hl.anyOrder, hp ▸ hv ▸ hl.allowed,
    ha ▸ hv ▸ hl.allow, ha ▸ hv ▸ hl.reduced, hk ▸ ha ▸ hl.halt, hp ▸ hq ▸ hl.caps,
    hv ▸ hq ▸ hl.minimum⟩

theorem checked_fields (ho : request.intent.tradeSide = .opening)
    (d : RiskChecks.RiskDecision ℚ)
    (hd : d = (checked cfg (opened e now provider request) now request).2) :
    d.verdict = worstVerdict cfg e now provider request ∧
      mark d = lockMark cfg (opened e now provider request).state
        (context (opened e now provider request) request) (.allow, false) ∧
      d.approvedQuantity = smallestSize cfg e now provider request ∧ d.allowed = true := by
  have hspec := initChecks_spec now (context (opened e now provider request) request) cfg
    (opened e now provider request).regimeScaleFactor
  have hr : d = (runChecks (context (opened e now provider request) request)
      (initChecks cfg (opened e now provider request).regimeScaleFactor now)
      (opened e now provider request).state
      (startDecision request.sizing.approvedQuantity now)).2 := by
    rw [hd, checked, ho]
    rfl
  rw [hr]
  have houtcome := anyOrder_outcome cfg e now provider request _ (List.Perm.refl _)
  exact ⟨houtcome.1, checks_mark cfg (noMarginData request _) _ _ _, houtcome.2,
    (runChecks_kept _ hspec (noMarginData request _) (opened e now provider request).state
      (startDecision request.sizing.approvedQuantity now)).2⟩

def decided : RiskChecks.RiskDecision ℚ :=
  guardMinNotional (settled cfg e now provider request) request.sizing
    (syncAction (checked cfg (opened e now provider request) now request).2)

theorem evaluate_decided (ho : request.intent.tradeSide = .opening)
    (hq : 0 ≤ request.sizing.approvedQuantity) :
    standing (evaluate cfg e now provider request).2 =
      standing (decided cfg e now provider request) := by
  have hv : ¬ invalidSize request.sizing.approvedQuantity := by
    intro h
    rcases h with h | h
    · exact absurd h (by simp [isfinite_rat])
    · exact absurd hq (not_le.mpr h)
  rw [evaluate_valid cfg e now provider request hv, ho]
  exact finalize_standing _ _ _

theorem settled_minNotional :
    minNotional (settled cfg e now provider request) = minNotional e := by
  have h : (syncProvider e provider now).minNotionalUsdt = e.minNotionalUsdt := by
    match provider with
    | none => rfl
    | some true =>
      unfold syncProvider
      split_ifs <;> rfl
    | some false =>
      unfold syncProvider
      split_ifs <;> rfl
  show (if 0.0 < (syncProvider e provider now).minNotionalUsdt then
    (syncProvider e provider now).minNotionalUsdt else kMinBitgetNotionalUsdt) = _
  rw [h]
  rfl

theorem unmarked (h : worstVerdict cfg e now provider request ≠ .denied) :
    lockMark cfg (opened e now provider request).state
      (context (opened e now provider request) request) (.allow, false) = (.allow, false) := by
  have hv := (anyOrder_outcome cfg e now provider request _ (List.Perm.refl _)).1
  have hq := runChecks_quiet _ (initChecks_spec now _ cfg _) (noMarginData request _)
    (opened e now provider request).state (startDecision request.sizing.approvedQuantity now)
    (Or.inr (fun hd => h (hv ▸ hd)))
  have hm : mark (runChecks (context (opened e now provider request) request)
      (initChecks cfg (opened e now provider request).regimeScaleFactor now)
      (opened e now provider request).state
      (startDecision request.sizing.approvedQuantity now)).2 = _ :=
    checks_mark cfg (noMarginData request _) _ _ _
  exact hm.symm.trans (Prod.ext hq.1 hq.2)

theorem halted_iff :
    (lockMark cfg (opened e now provider request).state
      (context (opened e now provider request) request) (.allow, false)).2 =
        hasEmergencyHalt (opened e now provider request).state.locks := by
  have hrelock : ∀ (c : Prop) [Decidable c] (action : RiskAction) (m : RiskAction × Bool),
      (relock c action m).2 = m.2 := by
    intro c _ action m
    unfold relock
    split_ifs <;> rfl
  simp only [lockMark, hrelock]
  cases hasEmergencyHalt (opened e now provider request).state.locks <;> rfl

theorem haltLast_iff
    (h : hasEmergencyHalt (opened e now provider request).state.locks = true) :
    (lockMark cfg (opened e now provider request).state
      (context (opened e now provider request) request) (.allow, false)).1 = .emergencyHalt ↔
        haltLast cfg e now provider request := by
  rw [lockMark, relock_other _ _ _ (by decide), relock_other _ _ _ (by decide), relock_halt,
    relock_other _ _ _ (by decide), relock_other _ _ _ (by decide),
    relock_other _ _ _ (by decide), if_pos h]
  simp only [and_true]
  exact Iff.rfl

theorem smallestSize_nonneg (hq : 0 ≤ request.sizing.approvedQuantity) :
    0 ≤ smallestSize cfg e now provider request := by
  refine (le_least_iff _ _ _).mpr ⟨hq, ?_⟩
  intro q hmem
  obtain ⟨d, hd, rfl⟩ := List.mem_map.mp hmem
  obtain ⟨c, hc, rfl⟩ := List.mem_map.mp hd
  obtain ⟨fs, hr⟩ := (initChecks_spec now (context (opened e now provider request) request) cfg _
    c hc).reports (noMarginData request _) (opened e now provider request).state
  rw [show (alone _ _ _ _ c).approvedQuantity = _ from Reports.size hr _]
  refine (le_least_iff _ _ _).mpr ⟨hq, ?_⟩
  intro x hx
  obtain ⟨f, hf, hxf⟩ := List.mem_flatMap.mp hx
  cases f with
  | reduce ratio =>
    rw [List.mem_singleton.mp hxf]
    exact mul_nonneg hq (share_nonneg ratio)
  | deny | lock | kill | throttle => exact absurd hxf List.not_mem_nil

theorem notional_le_cap (hq : 0 ≤ request.sizing.approvedQuantity)
    (hmin : minNotional e ≤ notionalOf request (smallestSize cfg e now provider request))
    (cap : ℚ) (h : cap ∈ firedCaps cfg e now provider request) :
    notionalOf request (smallestSize cfg e now provider request) ≤ cap := by
  obtain ⟨hlt, -, hle⟩ := fired_cap cfg e now provider request cap h
  have hpos : 0 < notionalOf request (smallestSize cfg e now provider request) :=
    lt_of_lt_of_le (minNotional_pos e) hmin
  have hsize := smallestSize_nonneg cfg e now provider request hq
  have hunit : 0 < request.sizing.approvedNotional / request.sizing.approvedQuantity :=
    pos_of_mul_pos_right hpos hsize
  have hquantity : 0 < request.sizing.approvedQuantity := by
    apply lt_of_le_of_ne hq
    intro h0
    rw [← h0, div_zero] at hunit
    exact lt_irrefl _ hunit
  have hnotional : 0 < request.sizing.approvedNotional := by
    rw [← div_mul_cancel₀ request.sizing.approvedNotional (ne_of_gt hquantity)]
    exact mul_pos hunit hquantity
  have hcap : 0 < cap := by
    by_contra hneg
    have hshare := share_zero (cap / request.sizing.approvedNotional)
      (div_nonpos_of_nonpos_of_nonneg (not_lt.mp hneg) (le_of_lt hnotional))
    rw [hshare, mul_zero] at hle
    rw [le_antisymm hle hsize, notionalOf, zero_mul] at hpos
    exact lt_irrefl _ hpos
  have hshare := share_le (cap / request.sizing.approvedNotional)
    (le_of_lt (div_pos hcap hnotional))
  calc notionalOf request (smallestSize cfg e now provider request)
      ≤ request.sizing.approvedQuantity * (cap / request.sizing.approvedNotional) *
          (request.sizing.approvedNotional / request.sizing.approvedQuantity) :=
        mul_le_mul_of_nonneg_right
          (hle.trans (mul_le_mul_of_nonneg_left hshare hq)) (le_of_lt hunit)
    _ = cap := by field_simp

end Facts

section Cases

theorem worst_mem (h : worstVerdict cfg e now provider request ≠ .approved) :
    worstVerdict cfg e now provider request ∈
      (aloneDecisions cfg e now provider request).map (·.verdict) :=
  (greatest_mem _ _).resolve_left h

/-- Nothing in the request is overwritten where the worst finding is a denial. -/
theorem follows_denied (h : worstVerdict cfg e now provider request = .denied) :
    ActionFollows cfg e now provider request ↔
      (hasEmergencyHalt (opened e now provider request).state.locks = true →
        haltLast cfg e now provider request) := by
  have hmem := worst_mem cfg e now provider request (by rw [h]; decide)
  rw [h] at hmem
  constructor
  · exact ActionFollows.halt
  · exact fun hh => ⟨fun _ => hmem, fun _ _ => ⟨_, hmem, by decide⟩, hh⟩

theorem no_halt (h : worstVerdict cfg e now provider request ≠ .denied) :
    hasEmergencyHalt (opened e now provider request).state.locks = false := by
  have hm := unmarked cfg e now provider request h
  rw [← halted_iff cfg e now provider request, hm]

theorem worst_le {v : RiskVerdict}
    (h : v ∈ (aloneDecisions cfg e now provider request).map (·.verdict)) :
    v ≤ worstVerdict cfg e now provider request :=
  le_greatest_of_mem h

theorem unguarded (d : RiskChecks.RiskDecision ℚ)
    (hd : d = (checked cfg (opened e now provider request) now request).2)
    (h : d.verdict ≠ .reduceSize) : decided cfg e now provider request = syncAction d := by
  rw [decided, ← hd]
  exact guard_of_ne _ _ _ (by rwa [syncAction_verdict])

theorem not_belowMinimum (h : worstVerdict cfg e now provider request ≠ .reduceSize) :
    ¬ belowMinimum cfg e now provider request :=
  fun hb => h hb.1

theorem law_of_denial {d : RiskChecks.RiskDecision ℚ} (hv : d.verdict = .denied)
    (hp : d.allowed = false) (hq : d.approvedQuantity = smallestSize cfg e now provider request)
    (hworst : belowMinimum cfg e now provider request ∨
      worstVerdict cfg e now provider request = .denied)
    (ha : d.action ≠ .allow) (hr : d.action ≠ .allowWithReducedSize)
    (hk : d.killSwitchActive = true → d.action = .emergencyHalt) :
    VerdictLaw cfg e now provider request d where
  severest := by
    rcases hworst with h | h
    · rw [if_pos h, hv]
    · rw [hv, h]
      exact (ite_self _).symm
  smallest := hq
  bounded := hq.le.trans (smallestSize_le cfg e now provider request)
  anyOrder := anyOrder_outcome cfg e now provider request
  allowed := by simp [hv, hp]
  allow := by simp [hv, ha]
  reduced := by simp [hv, hr]
  halt := hk
  caps := by simp [hp]
  minimum := by simp [hv]

theorem law_denied (ho : request.intent.tradeSide = .opening)
    (h : worstVerdict cfg e now provider request = .denied) :
    VerdictLaw cfg e now provider request (decided cfg e now provider request) ↔
      ActionFollows cfg e now provider request := by
  obtain ⟨d, hd⟩ : ∃ d, d = (checked cfg (opened e now provider request) now request).2 :=
    ⟨_, rfl⟩
  obtain ⟨hv, hm, hq, -⟩ := checked_fields cfg e now provider request ho d hd
  have ha := congrArg Prod.fst hm
  have hden : d.verdict = .denied := hv.trans h
  have hdecided := unguarded cfg e now provider request d hd (by rw [hden]; decide)
  rw [hdecided, follows_denied cfg e now provider request h]
  simp only [syncAction, hden]
  have hbelow := not_belowMinimum cfg e now provider request (by rw [h]; decide)
  have hkill : d.killSwitchActive =
      hasEmergencyHalt (opened e now provider request).state.locks :=
    (congrArg Prod.snd hm).trans (halted_iff cfg e now provider request)
  constructor
  · intro hl hhalt
    have haction := hl.halt (hkill.trans hhalt)
    rw [← haltLast_iff cfg e now provider request hhalt, ← ha]
    by_contra hne
    dsimp only at haction
    split_ifs at haction with hallow
    exact hne haction
  · intro hhalt
    have hne : ∀ a, a = .allow ∨ a = .allowWithReducedSize →
        (if d.action = .allow ∨ d.action = .allowWithReducedSize then RiskAction.deny
          else d.action) ≠ a := by
      intro a hallow
      split_ifs with hc
      · rcases hallow with rfl | rfl <;> decide
      · exact fun heq => hc (heq ▸ hallow)
    refine law_of_denial cfg e now provider request rfl rfl hq (Or.inr h) (hne _ (Or.inl rfl))
      (hne _ (Or.inr rfl)) ?_
    intro hc
    have hh := hkill.symm.trans hc
    have hlast := (haltLast_iff cfg e now provider request hh).mpr (hhalt hh)
    show (if d.action = .allow ∨ d.action = .allowWithReducedSize then RiskAction.deny
      else d.action) = .emergencyHalt
    rw [show d.action = .emergencyHalt from ha.trans hlast]
    rfl

/-- A request that is throttled and not denied keeps the action of an approval. -/
theorem law_throttled (ho : request.intent.tradeSide = .opening)
    (h : worstVerdict cfg e now provider request = .throttled) :
    VerdictLaw cfg e now provider request (decided cfg e now provider request) ↔
      ActionFollows cfg e now provider request := by
  have hmem := worst_mem cfg e now provider request (by rw [h]; decide)
  rw [h] at hmem
  constructor
  · intro hl
    obtain ⟨d, hd⟩ : ∃ d, d = (checked cfg (opened e now provider request) now request).2 :=
      ⟨_, rfl⟩
    obtain ⟨hv, hm, -, -⟩ := checked_fields cfg e now provider request ho d hd
    have hthrottled : d.verdict = .throttled := hv.trans h
    have hdecided := unguarded cfg e now provider request d hd (by rw [hthrottled]; decide)
    rw [hdecided] at hl
    rw [unmarked cfg e now provider request (by rw [h]; decide)] at hm
    have haction : d.action = .allow := congrArg Prod.fst hm
    have hkept : (syncAction d).action = .allow := by
      simp only [syncAction, hthrottled]
      exact haction
    have happroved := hl.allow.mp hkept
    rw [syncAction_verdict, hthrottled] at happroved
    exact absurd happroved (by decide)
  · intro hf
    have hden := worst_le cfg e now provider request (hf.throttled hmem)
    rw [h] at hden
    exact absurd hden (by decide)

theorem follows_mild (h : worstVerdict cfg e now provider request < .throttled) :
    ActionFollows cfg e now provider request ↔
      (request.sizing.approvedQuantity = 0 →
        worstVerdict cfg e now provider request ≠ .reduceSize) := by
  constructor
  · intro hf h0 hr
    have hmem := worst_mem cfg e now provider request (by rw [hr]; decide)
    obtain ⟨v, hv, hle⟩ := hf.sized h0 (hr ▸ hmem)
    exact absurd (hle.trans (worst_le cfg e now provider request hv)) (not_le.mpr h)
  · intro hsized
    have hhalt := no_halt cfg e now provider request (fun hd => absurd (hd ▸ h) (by decide))
    refine ⟨fun ht => ?_, fun h0 hr => ?_, fun hh => ?_⟩
    · exact absurd (worst_le cfg e now provider request ht) (not_le.mpr h)
    · have hle := worst_le cfg e now provider request hr
      refine absurd ?_ (hsized h0)
      cases hw : worstVerdict cfg e now provider request with
      | reduceSize => rfl
      | approved => exact absurd (hw ▸ hle) (by decide)
      | throttled | denied => exact absurd (hw ▸ h) (by decide)
    · exact absurd (hhalt.symm.trans hh) (by decide)

theorem law_approved (ho : request.intent.tradeSide = .opening)
    (h : worstVerdict cfg e now provider request = .approved) :
    VerdictLaw cfg e now provider request (decided cfg e now provider request) ↔
      ActionFollows cfg e now provider request := by
  rw [follows_mild cfg e now provider request (by rw [h]; decide), h]
  refine iff_of_true ?_ (fun _ => by decide)
  obtain ⟨d, hd⟩ : ∃ d, d = (checked cfg (opened e now provider request) now request).2 :=
    ⟨_, rfl⟩
  obtain ⟨hv, hm, hq, -⟩ := checked_fields cfg e now provider request ho d hd
  rw [unmarked cfg e now provider request (by rw [h]; decide)] at hm
  have ha : d.action = .allow := congrArg Prod.fst hm
  have hk : d.killSwitchActive = false := congrArg Prod.snd hm
  have happroved : d.verdict = .approved := hv.trans h
  have hsync : decided cfg e now provider request = { d with allowed := true } := by
    rw [unguarded cfg e now provider request d hd (by rw [happroved]; decide), syncAction,
      happroved]
  have hbelow := not_belowMinimum cfg e now provider request (by rw [h]; decide)
  rw [hsync]
  exact {
    severest := by rw [if_neg hbelow]; exact hv
    smallest := hq
    bounded := hq.le.trans (smallestSize_le cfg e now provider request)
    anyOrder := anyOrder_outcome cfg e now provider request
    allowed := by simp [happroved]
    allow := by simp [happroved, ha]
    reduced := by simp [happroved, ha]
    halt := by simp [hk]
    caps := by
      intro _ cap hcap
      have hle := worst_le cfg e now provider request
        (fired_cap cfg e now provider request cap hcap).2.1
      rw [h] at hle
      exact absurd hle (by decide)
    minimum := by simp [happroved] }

theorem law_reduced (ho : request.intent.tradeSide = .opening)
    (hq0 : 0 ≤ request.sizing.approvedQuantity)
    (h : worstVerdict cfg e now provider request = .reduceSize) :
    VerdictLaw cfg e now provider request (decided cfg e now provider request) ↔
      ActionFollows cfg e now provider request := by
  rw [follows_mild cfg e now provider request (by rw [h]; decide)]
  obtain ⟨d, hd⟩ : ∃ d, d = (checked cfg (opened e now provider request) now request).2 :=
    ⟨_, rfl⟩
  obtain ⟨hv, hm, hq, hp⟩ := checked_fields cfg e now provider request ho d hd
  rw [unmarked cfg e now provider request (by rw [h]; decide)] at hm
  have hk : d.killSwitchActive = false := congrArg Prod.snd hm
  have hreduced : d.verdict = .reduceSize := hv.trans h
  have hsync : decided cfg e now provider request =
      guardMinNotional (settled cfg e now provider request) request.sizing
        { d with action := .allowWithReducedSize } := by
    rw [decided, ← hd]
    simp only [syncAction, hreduced]
  have h0 : (0.0 : ℚ) = 0 := by norm_num
  have hguard : (d.verdict = .reduceSize ∧ (0.0 : ℚ) < request.sizing.approvedQuantity ∧
      d.approvedQuantity * (request.sizing.approvedNotional / request.sizing.approvedQuantity) <
        minNotional (settled cfg e now provider request)) ↔
      belowMinimum cfg e now provider request := by
    rw [belowMinimum, hv, hq, settled_minNotional, h0]
    rfl
  by_cases hbelow : belowMinimum cfg e now provider request
  · -- the guard denies
    refine iff_of_true ?_ (fun hzero => absurd hbelow.2.1 (by rw [hzero]; exact lt_irrefl _))
    rw [hsync, guardMinNotional, if_pos (hguard.mpr hbelow)]
    exact law_of_denial cfg e now provider request rfl rfl hq (Or.inl hbelow)
      (show RiskAction.deny ≠ .allow by decide)
      (show RiskAction.deny ≠ .allowWithReducedSize by decide)
      (fun hc => absurd (hk.symm.trans hc) (by decide))
  · have hkept : decided cfg e now provider request =
        { d with action := .allowWithReducedSize } := by
      rw [hsync, guardMinNotional, if_neg (fun hc => hbelow (hguard.mp hc))]
    rw [hkept]
    constructor
    · intro hl hzero
      have hmin := hl.minimum hreduced
      rw [notionalOf, hzero, div_zero, mul_zero] at hmin
      exact absurd (minNotional_pos e) (not_lt.mpr hmin)
    · intro hsized
      have hpos : 0 < request.sizing.approvedQuantity :=
        lt_of_le_of_ne hq0 (fun hzero => hsized hzero.symm h)
      have hmin : minNotional e ≤ notionalOf request (smallestSize cfg e now provider request) :=
        not_lt.mp (fun hlt => hbelow ⟨h, hpos, hlt⟩)
      exact {
        severest := by rw [if_neg hbelow]; exact hv
        smallest := hq
        bounded := hq.le.trans (smallestSize_le cfg e now provider request)
        anyOrder := anyOrder_outcome cfg e now provider request
        allowed := by simp [hreduced, hp]
        allow := by simp [hreduced]
        reduced := by simp [hreduced]
        halt := by simp [hk]
        caps := fun _ cap hcap =>
          hq ▸ notional_le_cap cfg e now provider request hq0 hmin cap hcap
        minimum := fun _ => hq ▸ hmin }

end Cases

/-- The decision on an opening request is the fold of what the checks return alone
exactly where its action follows the verdict. -/
theorem verdict_is_worst_finding (ho : request.intent.tradeSide = .opening)
    (hq : 0 ≤ request.sizing.approvedQuantity) :
    VerdictLaw cfg e now provider request (evaluate cfg e now provider request).2 ↔
      ActionFollows cfg e now provider request := by
  have hs := evaluate_decided cfg e now provider request ho hq
  have hl : VerdictLaw cfg e now provider request (evaluate cfg e now provider request).2 ↔
      VerdictLaw cfg e now provider request (decided cfg e now provider request) :=
    ⟨law_congr cfg e now provider request hs, law_congr cfg e now provider request hs.symm⟩
  rw [hl]
  cases h : worstVerdict cfg e now provider request with
  | denied => exact law_denied cfg e now provider request ho h
  | throttled => exact law_throttled cfg e now provider request ho h
  | reduceSize => exact law_reduced cfg e now provider request ho hq h
  | approved => exact law_approved cfg e now provider request ho h

theorem verdict_is_worst_finding_calm :
    VerdictLaw defaultRiskConfig initialEngine 1 none (calmRequest "BTCUSDT")
      (evaluate defaultRiskConfig initialEngine 1 none (calmRequest "BTCUSDT")).2 ↔
      ActionFollows defaultRiskConfig initialEngine 1 none (calmRequest "BTCUSDT") :=
  verdict_is_worst_finding defaultRiskConfig initialEngine 1 none (calmRequest "BTCUSDT") rfl
    (by decide +kernel)

def haltedLockedDay : ProductionRiskEngine ℚ :=
  { (initialEngine : ProductionRiskEngine ℚ) with
    state := { (initialState : RiskState ℚ) with
      locks := [⟨.emergencyHalt, "", 1, 0⟩, ⟨.dayLock, "", 1, 0⟩] } }

/-- The lock on the day overwrites the halt of the kill switch. -/
theorem halt_overwritten :
    ¬ ∀ (cfg : ExtendedRiskConfig ℚ) (e : ProductionRiskEngine ℚ) (now : ℤ)
      (provider : Option Bool) (request : RiskRequest ℚ),
      request.intent.tradeSide = .opening → 0 ≤ request.sizing.approvedQuantity →
        VerdictLaw cfg e now provider request (evaluate cfg e now provider request).2 := by
  intro h
  have hlaw := h defaultRiskConfig haltedLockedDay 1 none (calmRequest "BTCUSDT") rfl
    (by decide +kernel)
  exact absurd (hlaw.halt (by decide +kernel)) (by decide +kernel)

end Law

end TB.RiskVerdicts
