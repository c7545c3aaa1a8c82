import TomorrowBot.PipelineReconciliation

/-!
# Which legs the periodic reconciliation touches

The reaction to a leg that exists only locally closes the leg of the same side
of the pipeline's own symbol and releases its bracket. So a missing leg of
another symbol takes a healthy leg of this symbol with it, unless that leg is
missing as well or there is nothing to close and to release.
-/

set_option autoImplicit false

namespace TB.ReconciledLegs
open TB.CommonTypes TB.PortfolioEngine TB.PortfolioKeys TB.ReconciliationTypes
open TB.ProtectiveBracketManager TB.PipelineReconciliation
open TB.ReconciliationEngine hiding makeKey

section Statement
variable {F : Type} [DoubleArith F]

def listed (eps : List (ExchangeOpenPositionInfo F)) (symbol : Symbol) (side : Side) :
    Option (ExchangeOpenPositionInfo F) :=
  eps.reverse.find? (fun ep => ep.symbol == symbol && ep.side == side)

def lacks (eps : List (ExchangeOpenPositionInfo F)) (pos : Position F) : Bool :=
  !decide (pos.size < 1e-12) && (listed eps pos.symbol pos.side).isNone

def sizeDiffers (cfg : ReconciliationConfig F) (eps : List (ExchangeOpenPositionInfo F))
    (pos : Position F) : Bool :=
  !decide (pos.size < 1e-12) && (listed eps pos.symbol pos.side).any
    (fun ep => decide (sizeTolerance cfg ep.size < stdAbs (ep.size - pos.size)))

def counts (cfg : ReconciliationConfig F) (eps : List (ExchangeOpenPositionInfo F))
    (pos : Position F) : Bool :=
  lacks eps pos || cfg.autoResolveStateMismatches && sizeDiffers cfg eps pos

def missing (answers : ExchangeAnswers F) (pos : Position F) : Prop :=
  ∃ eps, answers.openPositions = some eps ∧ lacks eps pos = true

def Reported (ms : List MismatchRecord) (symbol : Symbol) (ps : PositionSide) : Prop :=
  ∃ m ∈ ms, m.type = .positionExistsOnlyLocally ∧ m.symbol = symbol ∧ m.positionSide = some ps

def legAndBracket (s : Pipeline F) (symbol : Symbol) (ps : PositionSide) :
    Option (Position F) × Option (BracketState F) :=
  (getPositionSide s.portfolio symbol ps, s.brackets.lookup (makeKey symbol ps))

structure OnlyReported (symbol : Symbol) (answers : ExchangeAnswers F) (ms : List MismatchRecord)
    (s next : Pipeline F) : Prop where
  closed : ∀ other ps, (legAndBracket s other ps).1 ≠ none →
    (legAndBracket next other ps).1 = none → Reported ms other ps
  released : ∀ other ps, (legAndBracket s other ps).2 ≠ none →
    (legAndBracket next other ps).2 = none → Reported ms other ps
  onExchange : ∀ eps, answers.openPositions = some eps → ∀ ep ∈ eps,
    legAndBracket next ep.symbol (sideToPositionSide ep.side) =
      legAndBracket s ep.symbol (sideToPositionSide ep.side)
  otherSymbols : ∀ other ps, other ≠ symbol → ¬ Reported ms other ps →
    legAndBracket next other ps = legAndBracket s other ps

def Harmless (env : PipelineEnv F) (answers : ExchangeAnswers F) (s : Pipeline F)
    (side : Side) : Prop :=
  (∃ own ∈ snapshotPositions s.portfolio,
    missing answers own ∧ own.symbol = env.symbol ∧ own.side = side) ∨
  getPositionSide s.portfolio env.symbol (sideToPositionSide side) = none ∧
    releasable s.brackets env.symbol (sideToPositionSide side) = false

def StrangersHarmless (env : PipelineEnv F) (answers : ExchangeAnswers F) (s : Pipeline F) :
    Prop :=
  ∀ eps, answers.openPositions = some eps → ∀ i pos,
    (snapshotPositions s.portfolio)[i]? = some pos → lacks eps pos = true →
    pos.symbol ≠ env.symbol →
    (((snapshotPositions s.portfolio).take i).countP (counts env.reconciliation eps) : ℤ) <
      env.reconciliation.maxAutoResolutionsPerRun →
    Harmless env answers s pos.side

end Statement

section Report
variable {F : Type} [DoubleArith F]

theorem key_legs (symbol other : Symbol) :
    ReconciliationEngine.makeKey symbol .buy ≠ ReconciliationEngine.makeKey other .sell := by
  intro h
  have hl := congrArg (fun s => s.toList.getLast?) h
  simp [ReconciliationEngine.makeKey, String.toList_append] at hl

theorem key_iff (symbol other : Symbol) (side otherSide : Side) :
    ReconciliationEngine.makeKey symbol side = ReconciliationEngine.makeKey other otherSide ↔
      symbol = other ∧ side = otherSide := by
  constructor
  · intro h
    cases side <;> cases otherSide
    · exact ⟨String.append_left_inj _ |>.mp h, rfl⟩
    · exact absurd h (key_legs symbol other)
    · exact absurd h.symm (key_legs other symbol)
    · exact ⟨String.append_left_inj _ |>.mp h, rfl⟩
  · rintro ⟨rfl, rfl⟩
    rfl

def byKey (eps : List (ExchangeOpenPositionInfo F)) : Dict (ExchangeOpenPositionInfo F) :=
  Keyed.indexBy (fun ep => some (ReconciliationEngine.makeKey ep.symbol ep.side)) eps

omit [DoubleArith F] in
theorem lookup_byKey (eps : List (ExchangeOpenPositionInfo F)) (symbol : Symbol) (side : Side) :
    (byKey eps).lookup (ReconciliationEngine.makeKey symbol side) =
      listed eps symbol side := by
  unfold byKey listed
  rw [Keyed.lookup_indexBy]
  congr 1
  funext ep
  rw [Bool.eq_iff_iff, decide_eq_true_iff, Option.some.injEq, key_iff, Bool.and_eq_true,
    beq_iff_eq, beq_iff_eq]

def ownMismatch (cfg : ReconciliationConfig F) (now : Timestamp)
    (eps : List (ExchangeOpenPositionInfo F)) (own : Position F) : Option MismatchRecord :=
  if lacks eps own then some (positionMismatch now .positionExistsOnlyLocally own.symbol own.side)
  else if sizeDiffers cfg eps own then
    some (positionMismatch now .quantityMismatch own.symbol own.side)
  else none

variable (cfg : ReconciliationConfig F) (now : Timestamp)

theorem reconcilePosition_spec
    (eps : List (ExchangeOpenPositionInfo F)) (s : PositionPass) (own : Position F) :
    (reconcilePosition cfg now (byKey eps) s own).mismatches =
      s.mismatches ++ (ownMismatch cfg now eps own).toList := by
  unfold reconcilePosition ownMismatch lacks sizeDiffers
  rw [lookup_byKey]
  by_cases hz : own.size < 1e-12
  · simp [hz]
  rcases listed eps own.symbol own.side with _ | ep
  · simp [hz]
  · by_cases hd : sizeTolerance cfg ep.size < stdAbs (ep.size - own.size) <;> simp [hz, hd]

theorem reconcilePosition_fold
    (positions : List (Position F)) (eps : List (ExchangeOpenPositionInfo F)) (s : PositionPass) :
    (positions.foldl (reconcilePosition cfg now (byKey eps)) s).mismatches =
      s.mismatches ++ positions.filterMap (ownMismatch cfg now eps) := by
  induction positions generalizing s with
  | nil => simp
  | cons own positions ih =>
    rw [List.foldl_cons, ih, reconcilePosition_spec]
    rcases h : ownMismatch cfg now eps own with _ | m <;> simp [h]

theorem reconcilePositions_eq
    (positions : List (Position F)) (eps : List (ExchangeOpenPositionInfo F)) :
    ∃ rest, reconcilePositions cfg now positions eps =
        positions.filterMap (ownMismatch cfg now eps) ++ rest ∧
      ∀ m ∈ rest, m.type = .positionExistsOnlyOnExchange := by
  refine ⟨_, by rw [reconcilePositions, ← byKey, reconcilePosition_fold, List.nil_append], ?_⟩
  intro m hm
  obtain ⟨ep, -, rfl⟩ := List.mem_map.mp hm
  rfl

omit [DoubleArith F] in
theorem listed_none (eps : List (ExchangeOpenPositionInfo F)) (symbol : Symbol) (side : Side) :
    listed eps symbol side = none ↔ ∀ ep ∈ eps, ¬ (ep.symbol = symbol ∧ ep.side = side) := by
  simp [listed]

end Report

section Resolution
variable {F : Type} [DoubleArith F]

def about (m : MismatchRecord) : MismatchType × Symbol × Option PositionSide :=
  (m.type, m.symbol, m.positionSide)

variable (cfg : ReconciliationConfig F)

omit [DoubleArith F] in
theorem tryAutoResolve_about (m : MismatchRecord) : about (tryAutoResolve cfg m).1 = about m := by
  rcases m with ⟨type, symbol, id, action, resolved, detected, side⟩
  cases type <;> simp [tryAutoResolve, resolveAs, alertOperator, about] <;> split_ifs <;> simp

variable (ms : List MismatchRecord)

theorem reported_about (symbol : Symbol) (ps : PositionSide) :
    Reported ms symbol ps ↔ (.positionExistsOnlyLocally, symbol, some ps) ∈ ms.map about := by
  simp [Reported, about]

omit [DoubleArith F] in
theorem resolveFrom_stop (c : ℕ)
    (h : cfg.maxAutoResolutionsPerRun ≤ c) : (resolveFrom cfg c ms).1 = ms := by
  rcases ms with _ | ⟨m, ms⟩
  · rfl
  · simp [resolveFrom, h]

omit [DoubleArith F] in
theorem resolveFrom_cons (m : MismatchRecord)
    (ms : List MismatchRecord) (c : ℕ) (h : ¬ cfg.maxAutoResolutionsPerRun ≤ c) :
    (resolveFrom cfg c (m :: ms)).1 = (tryAutoResolve cfg m).1 ::
      (resolveFrom cfg (if (tryAutoResolve cfg m).2 then c + 1 else c) ms).1 := by
  rw [resolveFrom, if_neg h]

omit [DoubleArith F] in
theorem resolveFrom_about (c : ℕ) : (resolveFrom cfg c ms).1.map about = ms.map about := by
  induction ms generalizing c with
  | nil => rfl
  | cons m ms ih =>
    by_cases h : cfg.maxAutoResolutionsPerRun ≤ c
    · rw [resolveFrom_stop cfg _ c h]
    · rw [resolveFrom_cons cfg m ms c h, List.map_cons, List.map_cons, ih, tryAutoResolve_about]

omit [DoubleArith F] in
theorem reported_resolveFrom (c : ℕ) (symbol : Symbol) (ps : PositionSide) :
    Reported (resolveFrom cfg c ms).1 symbol ps ↔ Reported ms symbol ps := by
  rw [reported_about, reported_about, resolveFrom_about]

def Acts (m : MismatchRecord) (ps : PositionSide) : Prop :=
  m.resolved = true ∧ m.resolvedBy = .updateLocalState ∧ m.type = .positionExistsOnlyLocally ∧
    m.positionSide = some ps

variable (now : Timestamp) (eps : List (ExchangeOpenPositionInfo F))

theorem ownMismatch_acts (own : Position F) (m : MismatchRecord)
    (hm : ownMismatch cfg now eps own = some m) (ps : PositionSide) :
    ¬ Acts m ps ∧ (tryAutoResolve cfg m).2 = counts cfg eps own ∧
      (Acts (tryAutoResolve cfg m).1 ps ↔
        lacks eps own = true ∧ sideToPositionSide own.side = ps) := by
  unfold ownMismatch at hm
  split_ifs at hm with hl hd
  · rw [← Option.some.inj hm]
    simp [Acts, positionMismatch, mismatch, tryAutoResolve, resolveAs, counts, hl]
  · rw [← Option.some.inj hm]
    by_cases ha : cfg.autoResolveStateMismatches = true <;>
      simp [Acts, positionMismatch, mismatch, tryAutoResolve, resolveAs, alertOperator, counts,
        hl, hd, ha]

theorem ownMismatch_none (own : Position F) (h : ownMismatch cfg now eps own = none) :
    lacks eps own = false ∧ counts cfg eps own = false := by
  unfold ownMismatch at h
  split_ifs at h with hl hd
  simp [counts, hl, hd]

omit [DoubleArith F] in
theorem rest_never_acts (rest : List MismatchRecord) (c : ℕ)
    (hrest : ∀ m ∈ rest, m.type ≠ .positionExistsOnlyLocally) (ps : PositionSide) :
    ¬ ∃ m ∈ (resolveFrom cfg c rest).1, Acts m ps := by
  rintro ⟨m, hm, -, -, ht, hp⟩
  have hrep : Reported (resolveFrom cfg c rest).1 m.symbol ps := ⟨m, hm, ht, rfl, hp⟩
  obtain ⟨m', hm', ht', -⟩ := (reported_resolveFrom cfg rest c m.symbol ps).mp hrep
  exact hrest m' hm' ht'

omit [DoubleArith F] in
theorem within_cons (p : Position F → Prop) (q : Position F → Bool) (max : ℤ) (c : ℕ)
    (own : Position F) (positions : List (Position F)) :
    (∃ i pos, (own :: positions)[i]? = some pos ∧ p pos ∧
        ((c + ((own :: positions).take i).countP q : ℕ) : ℤ) < max) ↔
      (p own ∧ (c : ℤ) < max) ∨
        ∃ i pos, positions[i]? = some pos ∧ p pos ∧
          (((if q own then c + 1 else c) + (positions.take i).countP q : ℕ) : ℤ) < max := by
  have hcount : ∀ i, c + ((own :: positions).take (i + 1)).countP q =
      (if q own then c + 1 else c) + (positions.take i).countP q := by
    intro i
    rw [List.take_succ_cons, List.countP_cons]
    split_ifs <;> omega
  constructor
  · rintro ⟨i, pos, hpos, hp, hlt⟩
    rcases i with _ | i
    · have heq : own = pos := by simpa using hpos
      exact .inl ⟨heq ▸ hp, by simpa using hlt⟩
    · rw [hcount] at hlt
      exact .inr ⟨i, pos, by simpa using hpos, hp, hlt⟩
  · rintro (⟨hp, hlt⟩ | ⟨i, pos, hpos, hp, hlt⟩)
    · exact ⟨0, own, rfl, hp, by simpa using hlt⟩
    · exact ⟨i + 1, pos, by simpa using hpos, hp, by rw [hcount]; exact hlt⟩

theorem reports_never_act (positions : List (Position F))
    (rest : List MismatchRecord) (hrest : ∀ m ∈ rest, m.type ≠ .positionExistsOnlyLocally)
    (ps : PositionSide) :
    ¬ ∃ m ∈ positions.filterMap (ownMismatch cfg now eps) ++ rest, Acts m ps := by
  rintro ⟨m, hm, hacts⟩
  rcases List.mem_append.mp hm with hown | hr
  · obtain ⟨own, -, hown⟩ := List.mem_filterMap.mp hown
    exact (ownMismatch_acts cfg now eps own m hown ps).1 hacts
  · exact hrest m hr hacts.2.2.1

/-- A missing leg leads to an action exactly within the limit of resolutions. -/
theorem acts_iff (rest : List MismatchRecord)
    (hrest : ∀ m ∈ rest, m.type ≠ .positionExistsOnlyLocally) (ps : PositionSide)
    (positions : List (Position F)) (c : ℕ) :
    (∃ m ∈ (resolveFrom cfg c (positions.filterMap (ownMismatch cfg now eps) ++ rest)).1,
        Acts m ps) ↔
      ∃ i pos, positions[i]? = some pos ∧
        (lacks eps pos = true ∧ sideToPositionSide pos.side = ps) ∧
        ((c + (positions.take i).countP (counts cfg eps) : ℕ) : ℤ) <
          cfg.maxAutoResolutionsPerRun := by
  induction positions generalizing c with
  | nil =>
    simp only [List.filterMap_nil, List.nil_append, rest_never_acts cfg rest c hrest ps,
      false_iff]
    rintro ⟨i, pos, hpos, -⟩
    simp at hpos
  | cons own positions ih =>
    by_cases h : cfg.maxAutoResolutionsPerRun ≤ c
    · rw [resolveFrom_stop cfg _ c h]
      simp only [reports_never_act cfg now eps _ rest hrest ps, false_iff]
      rintro ⟨i, pos, -, -, hlt⟩
      omega
    have hlt : (c : ℤ) < cfg.maxAutoResolutionsPerRun := not_le.mp h
    rw [within_cons]
    rcases hm : ownMismatch cfg now eps own with _ | m
    · obtain ⟨hl, hc⟩ := ownMismatch_none cfg now eps own hm
      rw [List.filterMap_cons_none hm, ih, hl, hc]
      simp
    · obtain ⟨hno, hc, hacts⟩ := ownMismatch_acts cfg now eps own m hm ps
      rw [List.filterMap_cons_some hm, List.cons_append, resolveFrom_cons cfg m _ c h, hc,
        List.exists_mem_cons_iff, hacts, ih]
      simp [hlt]

end Resolution

section Reaction
variable {F : Type} [DoubleArith F]

instance (m : MismatchRecord) (ps : PositionSide) : Decidable (Acts m ps) := by
  unfold Acts
  infer_instance

def cleared (x : Option (Position F) × Option (BracketState F)) :
    Option (Position F) × Option (BracketState F) :=
  (none, x.2.filter (fun b => b.released))

omit [DoubleArith F] in
theorem cleared_cleared (x : Option (Position F) × Option (BracketState F)) :
    cleared (cleared x) = cleared x := by
  rcases x with ⟨a, _ | b⟩
  · rfl
  · rcases h : b.released with _ | _ <;> simp [cleared, Option.filter, h]

def Sided (ms : List MismatchRecord) : Prop :=
  ∀ m ∈ ms, m.type = .positionExistsOnlyLocally → m.positionSide ≠ none

omit [DoubleArith F] in
theorem released_lookup (ex : PlanExchange F) (brackets : Dict (BracketState F))
    (symbol : Symbol) (ps : PositionSide) :
    (release ex brackets symbol ps).brackets.lookup (makeKey symbol ps) =
      (brackets.lookup (makeKey symbol ps)).filter (fun b => b.released) := by
  rw [release_lookup, releasable]
  rcases brackets.lookup (makeKey symbol ps) with _ | b
  · rfl
  · rcases h : b.released with _ | _ <;> simp [Option.filter, h]

variable (env : PipelineEnv F)

theorem updateLocalState_spec (s : Pipeline F) (m : MismatchRecord)
    (side : PositionSide) (hside : m.positionSide = some side) (symbol : Symbol)
    (ps : PositionSide) :
    legAndBracket (updateLocalState env s m) symbol ps =
      if symbol = env.symbol ∧ side = ps then cleared (legAndBracket s symbol ps)
      else legAndBracket s symbol ps := by
  have hview : legAndBracket (updateLocalState env s m) symbol ps =
      ((closePositionSide s.portfolio env.symbol side
          (pnlEstimate side (getPositionSide s.portfolio env.symbol side))).positions.lookup
          (makePosKey symbol ps),
        (release env.plans s.brackets env.symbol side).brackets.lookup (makeKey symbol ps)) := by
    unfold updateLocalState legAndBracket getPositionSide resetTrailingState resetHedgeState
      closeLocally
    rw [hside]
    by_cases h : s.hedge.active = true <;> simp [h]
  rw [hview]
  by_cases h : symbol = env.symbol ∧ side = ps
  · obtain ⟨rfl, rfl⟩ := h
    rw [if_pos ⟨rfl, rfl⟩, closePositionSide_lookup, released_lookup]
    rfl
  · have hkey : makePosKey symbol ps ≠ makePosKey env.symbol side := by
      intro hk
      obtain ⟨h1, h2⟩ := makePosKey_injective _ _ _ _ hk
      exact h ⟨h1, h2.symm⟩
    rw [if_neg h, closePositionSide_lookup_ne _ _ _ _ _ hkey,
      release_lookup_ne _ _ _ _ _ (by rwa [makeKey_eq, makeKey_eq])]
    rfl

theorem react_spec (s : Pipeline F) (m : MismatchRecord)
    (hside : m.type = .positionExistsOnlyLocally → m.positionSide ≠ none) (symbol : Symbol)
    (ps : PositionSide) :
    legAndBracket (react env s m) symbol ps =
      if symbol = env.symbol ∧ Acts m ps then cleared (legAndBracket s symbol ps)
      else legAndBracket s symbol ps := by
  by_cases hr : m.resolved = true
  swap
  · simp [react, Acts, hr]
  by_cases ha : m.resolvedBy = .updateLocalState
  swap
  · rcases h : m.resolvedBy with _ | _ | _ | _ | _ | _ <;>
      first | exact absurd h ha | simp [react, Acts, hr, h, legAndBracket]
  by_cases ht : m.type = .positionExistsOnlyLocally
  · obtain ⟨side, hs⟩ := Option.ne_none_iff_exists'.mp (hside ht)
    have hreact : react env s m = updateLocalState env s m := by
      simp [react, hr, ha, ht]
    rw [hreact, updateLocalState_spec env s m side hs]
    simp [Acts, hr, ha, ht, hs]
  · simp [react, Acts, hr, ha, ht]

/-- A reaction clears the legs of the pipeline's symbol whose side some acting
mismatch has, and no other leg. -/
theorem reactions_spec (ms : List MismatchRecord) (hs : Sided ms)
    (s : Pipeline F) (symbol : Symbol) (ps : PositionSide) :
    legAndBracket (ms.foldl (react env) s) symbol ps =
      if symbol = env.symbol ∧ ∃ m ∈ ms, Acts m ps then cleared (legAndBracket s symbol ps)
      else legAndBracket s symbol ps := by
  induction ms generalizing s with
  | nil => simp
  | cons m ms ih =>
    rw [List.foldl_cons, ih (fun m' hm' => hs m' (List.mem_cons_of_mem m hm')),
      react_spec env s m (hs m List.mem_cons_self)]
    by_cases h : symbol = env.symbol ∧ Acts m ps
    · by_cases h' : ∃ m ∈ ms, Acts m ps
      · simp [h, h', cleared_cleared]
      · simp [h, h']
    · by_cases h' : symbol = env.symbol
      · have hno : ¬ Acts m ps := fun ha => h ⟨h', ha⟩
        simp [h', hno]
      · simp [h']

end Reaction

section Result
variable {F : Type} [DoubleArith F]

theorem balances_type (cfg : ReconciliationConfig F) (now : Timestamp) (cash : F)
    (balances : Option (List (ExchangePositionInfo F))) (m : MismatchRecord)
    (hm : m ∈ (balancesFound cfg now cash balances).1) : m.type = .balanceMismatch := by
  rcases balances with _ | ebs
  · cases hm
  · change m ∈ reconcileBalance cfg now cash ebs at hm
    unfold reconcileBalance at hm
    split at hm
    · cases hm
    · rw [List.mem_singleton.mp (List.mem_ite_nil_right.mp hm).2]
      rfl

variable (env : PipelineEnv F) (clock : RunClock) (answers : ExchangeAnswers F) (s : Pipeline F)

/-- The report before anything is resolved: the local positions, then mismatches
that are not about a leg missing on the exchange. -/
theorem report_shape : ∃ rest, (positionReport env clock answers s).mismatches =
        (resolveFrom env.reconciliation 0 (answers.openPositions.toList.flatMap
          (fun eps => (snapshotPositions s.portfolio).filterMap
            (ownMismatch env.reconciliation clock.positions eps)) ++ rest)).1 ∧
      ∀ m ∈ rest, m.type ≠ .positionExistsOnlyLocally := by
  have hbalance : ∀ m ∈ (balancesFound env.reconciliation clock.balance
      s.portfolio.cashLedger.totalCash answers.accountBalances).1,
      m.type ≠ .positionExistsOnlyLocally := by
    intro m hm
    rw [balances_type _ _ _ _ m hm]
    decide
  rcases h : answers.openPositions with _ | eps
  · refine ⟨_, ?_, hbalance⟩
    rw [positionReport, reconcilePositionsAndBalance, h]
    rfl
  · obtain ⟨orphans, heq, htype⟩ := reconcilePositions_eq env.reconciliation clock.positions
      (snapshotPositions s.portfolio) eps
    refine ⟨orphans ++ (balancesFound env.reconciliation clock.balance
      s.portfolio.cashLedger.totalCash answers.accountBalances).1, ?_, ?_⟩
    · simp only [positionReport, reconcilePositionsAndBalance, autoResolveMismatches,
        finalizeResult, positionsFound, h, heq, Option.toList_some, List.flatMap_singleton,
        List.append_assoc]
    · intro m hm
      rcases List.mem_append.mp hm with ho | hb
      · rw [htype m ho]
        decide
      · exact hbalance m hb

theorem reported_iff (symbol : Symbol) (ps : PositionSide) :
    Reported (positionReport env clock answers s).mismatches symbol ps ↔
      ∃ own ∈ snapshotPositions s.portfolio, missing answers own ∧ own.symbol = symbol ∧
        sideToPositionSide own.side = ps := by
  obtain ⟨rest, hshape, hrest⟩ := report_shape env clock answers s
  rw [hshape, reported_resolveFrom]
  constructor
  · rintro ⟨m, hm, ht, hs, hp⟩
    rcases List.mem_append.mp hm with hm | hm
    · obtain ⟨eps, heps, hm⟩ := List.mem_flatMap.mp hm
      obtain ⟨own, hown, hm⟩ := List.mem_filterMap.mp hm
      unfold ownMismatch at hm
      split_ifs at hm with hl hd
      · rw [← Option.some.inj hm] at hs hp
        exact ⟨own, hown, ⟨eps, Option.mem_toList.mp heps, hl⟩, hs, Option.some.inj hp⟩
      · rw [← Option.some.inj hm] at ht
        cases ht
    · exact absurd ht (hrest m hm)
  · rintro ⟨own, hown, ⟨eps, heps, hl⟩, hs, hp⟩
    refine ⟨positionMismatch clock.positions .positionExistsOnlyLocally own.symbol own.side,
      List.mem_append_left _ (List.mem_flatMap.mpr ⟨eps, by simp [heps],
        List.mem_filterMap.mpr ⟨own, hown, ?_⟩⟩), rfl, hs, congrArg some hp⟩
    rw [ownMismatch, if_pos hl]

theorem acting_iff (ps : PositionSide) :
    (∃ m ∈ (positionReport env clock answers s).mismatches, Acts m ps) ↔
      ∃ eps, answers.openPositions = some eps ∧ ∃ i pos,
        (snapshotPositions s.portfolio)[i]? = some pos ∧
        (lacks eps pos = true ∧ sideToPositionSide pos.side = ps) ∧
        (((snapshotPositions s.portfolio).take i).countP (counts env.reconciliation eps) : ℤ) <
          env.reconciliation.maxAutoResolutionsPerRun := by
  obtain ⟨rest, hshape, hrest⟩ := report_shape env clock answers s
  rw [hshape]
  rcases answers.openPositions with _ | eps
  · simp only [Option.toList_none, List.flatMap_nil, List.nil_append, reduceCtorEq, false_and,
      exists_false, iff_false]
    exact rest_never_acts env.reconciliation rest 0 hrest ps
  · rw [Option.toList_some, List.flatMap_singleton, acts_iff _ _ _ _ hrest]
    simp

theorem report_sided : Sided (positionReport env clock answers s).mismatches := by
  obtain ⟨rest, hshape, hrest⟩ := report_shape env clock answers s
  intro m hm ht hp
  have hmem := List.mem_map_of_mem (f := about) hm
  rw [hshape, resolveFrom_about] at hmem
  obtain ⟨m', hm', heq⟩ := List.mem_map.mp hmem
  have ht' : m'.type = .positionExistsOnlyLocally := (congrArg (fun x => x.1) heq).trans ht
  have hp' : m'.positionSide = none := (congrArg (fun x => x.2.2) heq).trans hp
  rcases List.mem_append.mp hm' with hown | hr
  · obtain ⟨eps, -, hown⟩ := List.mem_flatMap.mp hown
    obtain ⟨own, -, hown⟩ := List.mem_filterMap.mp hown
    unfold ownMismatch at hown
    split_ifs at hown
    all_goals
      rw [← Option.some.inj hown] at hp'
      cases hp'
  · exact hrest m' hr ht'

theorem sideToPositionSide_injective : Function.Injective sideToPositionSide := by
  intro a b h
  cases a <;> cases b <;> first | rfl | cases h

omit [DoubleArith F] in
theorem cleared_bracket (symbol : Symbol) (ps : PositionSide) :
    (releasable s.brackets symbol ps = true → (legAndBracket s symbol ps).2 ≠ none ∧
      (cleared (legAndBracket s symbol ps)).2 = none) ∧
    (releasable s.brackets symbol ps = false →
      (cleared (legAndBracket s symbol ps)).2 = (legAndBracket s symbol ps).2) := by
  unfold releasable cleared legAndBracket
  rcases s.brackets.lookup (makeKey symbol ps) with _ | b
  · simp
  · rcases h : b.released with _ | _ <;> simp [Option.filter, h]

variable (nowNs : ℤ)

theorem idle_same (clock : RunClock)
    (answers : ExchangeAnswers F) (s : Pipeline F) (hdue : reconciliationDue s nowNs ≠ true) :
    runPositionReconciliation env nowNs clock answers s = s := by
  simp [runPositionReconciliation, hdue]

theorem legs_after (clock : RunClock)
    (answers : ExchangeAnswers F) (s : Pipeline F) (hdue : reconciliationDue s nowNs = true)
    (other : Symbol) (ps : PositionSide) :
    legAndBracket (runPositionReconciliation env nowNs clock answers s) other ps =
      if other = env.symbol ∧
          ∃ m ∈ (positionReport env clock answers s).mismatches, Acts m ps then
        cleared (legAndBracket s other ps)
      else legAndBracket s other ps := by
  rw [runPositionReconciliation, if_pos hdue,
    reactions_spec env _ (report_sided env clock answers s)]
  rfl

/-- A missing leg within the limit clears the leg of the pipeline's symbol, which
only a report about that leg excuses. -/
theorem harmless_of_onlyReported (clock : RunClock)
    (answers : ExchangeAnswers F) (s : Pipeline F) (hdue : reconciliationDue s nowNs = true)
    (h : OnlyReported env.symbol answers (positionReport env clock answers s).mismatches s
      (runPositionReconciliation env nowNs clock answers s))
    (side : Side)
    (hact : ∃ m ∈ (positionReport env clock answers s).mismatches,
      Acts m (sideToPositionSide side)) : Harmless env answers s side := by
  by_cases hown : ∃ own ∈ snapshotPositions s.portfolio,
      missing answers own ∧ own.symbol = env.symbol ∧ own.side = side
  · exact .inl hown
  have hnot : ¬ Reported (positionReport env clock answers s).mismatches env.symbol
      (sideToPositionSide side) := by
    rw [reported_iff]
    rintro ⟨own, hmem, hmiss, hsym, hside⟩
    exact hown ⟨own, hmem, hmiss, hsym, sideToPositionSide_injective hside⟩
  have hafter := legs_after env nowNs clock answers s hdue env.symbol (sideToPositionSide side)
  rw [if_pos ⟨rfl, hact⟩] at hafter
  right
  constructor
  · by_contra hheld
    exact hnot (h.closed _ _ hheld (by rw [hafter]; rfl))
  · by_contra hrel
    obtain ⟨hheld, hgone⟩ := (cleared_bracket s env.symbol (sideToPositionSide side)).1
      (by simpa using hrel)
    exact hnot (h.released _ _ hheld (by rw [hafter]; exact hgone))

theorem unreported_kept (clock : RunClock)
    (answers : ExchangeAnswers F) (s : Pipeline F) (hdue : reconciliationDue s nowNs = true)
    (h : StrangersHarmless env answers s) (other : Symbol) (ps : PositionSide)
    (hnot : ¬ Reported (positionReport env clock answers s).mismatches other ps) :
    legAndBracket (runPositionReconciliation env nowNs clock answers s) other ps =
      legAndBracket s other ps := by
  rw [legs_after env nowNs clock answers s hdue]
  split_ifs with hc
  swap
  · rfl
  obtain ⟨rfl, hact⟩ := hc
  obtain ⟨eps, heps, i, pos, hpos, ⟨hl, rfl⟩, hlt⟩ := (acting_iff env clock answers s ps).mp hact
  have hmem := List.mem_of_getElem? hpos
  have hown : ∀ own ∈ snapshotPositions s.portfolio, missing answers own →
      own.symbol = env.symbol → own.side ≠ pos.side := by
    intro own ho hmiss hsym hside
    exact hnot ((reported_iff env clock answers s _ _).mpr ⟨own, ho, hmiss, hsym, by rw [hside]⟩)
  have hne : pos.symbol ≠ env.symbol := fun hsym => hown pos hmem ⟨eps, heps, hl⟩ hsym rfl
  rcases h eps heps i pos hpos hl hne hlt with ⟨own, ho, hmiss, hsym, hside⟩ | ⟨hleg, hrel⟩
  · exact absurd hside (hown own ho hmiss hsym)
  · exact Prod.ext hleg.symm ((cleared_bracket s env.symbol _).2 hrel)

/-- A leg the exchange lists is never reported. -/
theorem listed_unreported (eps : List (ExchangeOpenPositionInfo F))
    (heps : answers.openPositions = some eps) (ep : ExchangeOpenPositionInfo F) (hep : ep ∈ eps) :
    ¬ Reported (positionReport env clock answers s).mismatches ep.symbol
      (sideToPositionSide ep.side) := by
  rw [reported_iff]
  rintro ⟨own, -, ⟨eps', heps', hl⟩, hsym, hside⟩
  obtain rfl := Option.some.inj (heps.symm.trans heps')
  rw [lacks, Bool.and_eq_true, Option.isNone_iff_eq_none, listed_none] at hl
  exact hl.2 ep hep ⟨hsym.symm, (sideToPositionSide_injective hside).symm⟩

/-- Only reported legs lose their place or their bracket exactly when, at a
reconciliation that is due, the missing legs of other symbols are harmless. -/
theorem onlyReported_iff (env : PipelineEnv F) (nowNs : ℤ) (clock : RunClock)
    (answers : ExchangeAnswers F) (s : Pipeline F) :
    OnlyReported env.symbol answers (positionReport env clock answers s).mismatches s
        (runPositionReconciliation env nowNs clock answers s) ↔
      (reconciliationDue s nowNs = true → StrangersHarmless env answers s) := by
  constructor
  · intro h hdue eps heps i pos hpos hl _ hlt
    exact harmless_of_onlyReported env nowNs clock answers s hdue h pos.side
      ((acting_iff env clock answers s _).mpr ⟨eps, heps, i, pos, hpos, ⟨hl, rfl⟩, hlt⟩)
  · intro h
    have hsame : ∀ other ps,
        ¬ Reported (positionReport env clock answers s).mismatches other ps →
        legAndBracket (runPositionReconciliation env nowNs clock answers s) other ps =
          legAndBracket s other ps := by
      intro other ps hnot
      by_cases hdue : reconciliationDue s nowNs = true
      · exact unreported_kept env nowNs clock answers s hdue (h hdue) other ps hnot
      · rw [idle_same env nowNs clock answers s hdue]
    constructor
    · intro other ps hheld hgone
      by_contra hnot
      exact hheld (hsame other ps hnot ▸ hgone)
    · intro other ps hheld hgone
      by_contra hnot
      exact hheld (hsame other ps hnot ▸ hgone)
    · intro eps heps ep hep
      exact hsame _ _ (listed_unreported env clock answers s eps heps ep hep)
    · intro other ps _ hnot
      exact hsame other ps hnot

def heldLong (symbol : Symbol) : Position ℚ where
  symbol := symbol
  side := .buy
  positionSide := .long
  size := 1
  avgEntryPrice := 100
  currentPrice := 110
  notional := 110
  unrealizedPnl := 10
  unrealizedPnlPct := 10
  accumulatedFunding := 0
  strategyId := "s"
  openedAt := 1
  updatedAt := 1

def twoSymbols : Pipeline ℚ where
  portfolio := openPosition (openPosition (initPortfolio 1000) 1 (heldLong "BTCUSDT")) 1
    (heldLong "ETHUSDT")
  brackets := ∅
  currentPositionSide := .long
  hedge := ⟨false, 0, 0, 0, 0⟩
  trailing := ⟨110, 100, 95, false, false, false, 1, 2, 1, 0⟩
  reconciliationNeedsResync := false
  lastPosBalanceReconciliationNs := 0
  closedResults := []
  cancels := []

def bitcoinPipeline : PipelineEnv ℚ where
  symbol := "BTCUSDT"
  atrStopMultiplier := 2
  reconciliation := ⟨true, false, false, 1 / 2, 1, 10⟩
  plans := ⟨fun _ => some [], fun _ => true⟩

def bitcoinOnly : ExchangeAnswers ℚ :=
  ⟨some [⟨"BTCUSDT", .buy, .long, 1, 100, 110, 110, 10⟩], none⟩

/-- The leg of "BTCUSDT" is on the exchange and is closed locally, because the
leg of "ETHUSDT" is not. -/
theorem healthy_leg_closed :
    ¬ ∀ (env : PipelineEnv ℚ) (nowNs : ℤ) (clock : RunClock) (answers : ExchangeAnswers ℚ)
        (s : Pipeline ℚ),
      OnlyReported env.symbol answers (positionReport env clock answers s).mismatches s
        (runPositionReconciliation env nowNs clock answers s) := by
  intro h
  have hleg := (h bitcoinPipeline 1 ⟨1, 1, 1, 1⟩ bitcoinOnly twoSymbols).onExchange _ rfl
    ⟨"BTCUSDT", .buy, .long, 1, 100, 110, 110, 10⟩ (by simp)
  revert hleg
  decide +kernel

end Result

end TB.ReconciledLegs
