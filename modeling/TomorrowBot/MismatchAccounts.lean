import TomorrowBot.PositionDifferences

/-!
# What becomes of the mismatches of one reconciliation

Mismatches are resolved or handed to the operator one after the other until
the limit of resolutions is reached; those after it stay as they were reported.
-/

set_option autoImplicit false

namespace TB.MismatchAccounts
open TB.CommonTypes TB.OrderTypes TB.PortfolioEngine
open TB.ReconciliationTypes TB.ReconciliationEngine TB.ReconciledLegs

def Fresh (m : MismatchRecord) : Prop := m.resolved = false ∧ m.resolvedBy = .noAction

def resolvable {F : Type} (cfg : ReconciliationConfig F) : MismatchType → Bool
  | .stateMismatch | .quantityMismatch => cfg.autoResolveStateMismatches
  | .orderExistsOnlyOnExchange => cfg.autoCancelOrphanOrders
  | .positionExistsOnlyOnExchange => cfg.autoCloseOrphanPositions
  | .orderExistsOnlyLocally | .positionExistsOnlyLocally => true
  | .balanceMismatch => false

def Resolved (m : MismatchRecord) : Prop := m.resolved = true ∧ m.resolvedBy ≠ .noAction

def Escalated (m : MismatchRecord) : Prop := m.resolved = false ∧ m.resolvedBy = .alertOperator

instance (m : MismatchRecord) : Decidable (Resolved m) := inferInstanceAs (Decidable (_ ∧ _))

instance (m : MismatchRecord) : Decidable (Escalated m) := inferInstanceAs (Decidable (_ ∧ _))

structure AccountedFor {F : Type} (cfg : ReconciliationConfig F) (reported : List MismatchRecord)
    (r : ReconciliationResult) : Prop where
  same : r.mismatches.map about = reported.map about
  each : ∀ m ∈ r.mismatches, Resolved m ∨ Escalated m
  escalated : r.operatorEscalated = r.mismatches.countP (fun m => Escalated m)
  resolved : r.autoResolved = r.mismatches.countP (fun m => Resolved m)
  limit : (r.autoResolved : ℤ) ≤ cfg.maxAutoResolutionsPerRun

section Pass
variable {F : Type} (cfg : ReconciliationConfig F)

def WithinLimit (ms : List MismatchRecord) : Prop :=
  0 ≤ cfg.maxAutoResolutionsPerRun ∧ ∀ before m after, ms = before ++ m :: after →
    (before.countP (fun m => resolvable cfg m.type) : ℤ) < cfg.maxAutoResolutionsPerRun

def resolution : MismatchType → ResolutionAction
  | .stateMismatch | .quantityMismatch => .syncFromExchange
  | .orderExistsOnlyOnExchange => .cancelOnExchange
  | .positionExistsOnlyOnExchange => .closeOnExchange
  | .orderExistsOnlyLocally | .positionExistsOnlyLocally => .updateLocalState
  | .balanceMismatch => .alertOperator

theorem resolution_ne (type : MismatchType) : resolution type ≠ .noAction := by
  cases type <;> decide

variable (m : MismatchRecord)

theorem tryAutoResolve_eq : tryAutoResolve cfg m =
      if resolvable cfg m.type then resolveAs m (resolution m.type) else alertOperator m := by
  unfold tryAutoResolve resolvable resolution
  cases m.type <;> rfl

theorem tryAutoResolve_done : (tryAutoResolve cfg m).2 = resolvable cfg m.type := by
  rw [tryAutoResolve_eq]
  split_ifs with h
  · exact h.symm
  · exact (Bool.not_eq_true _ ▸ h).symm

theorem tryAutoResolve_resolved (hm : m.resolved = false) :
    Resolved (tryAutoResolve cfg m).1 ↔ resolvable cfg m.type = true := by
  rw [tryAutoResolve_eq]
  split_ifs with h
  · simp [resolveAs, Resolved, resolution_ne, h]
  · simp [alertOperator, Resolved, hm, h]

theorem tryAutoResolve_escalated (hm : m.resolved = false) :
    Escalated (tryAutoResolve cfg m).1 ↔ resolvable cfg m.type = false := by
  rw [tryAutoResolve_eq]
  split_ifs with h
  · simp [resolveAs, Escalated, h]
  · simp [alertOperator, Escalated, hm, h]

theorem fresh_untouched (h : Fresh m) : ¬ (Resolved m ∨ Escalated m) := by
  simp [Resolved, Escalated, h.1, h.2]

def WithinFrom (count : ℕ) (ms : List MismatchRecord) : Prop :=
  ∀ before m after, ms = before ++ m :: after →
    (count + before.countP (fun m => resolvable cfg m.type) : ℤ) < cfg.maxAutoResolutionsPerRun

theorem withinFrom_cons (count : ℕ) (m : MismatchRecord) (ms : List MismatchRecord) :
    WithinFrom cfg count (m :: ms) ↔ (count : ℤ) < cfg.maxAutoResolutionsPerRun ∧
      WithinFrom cfg (if (tryAutoResolve cfg m).2 then count + 1 else count) ms := by
  rw [tryAutoResolve_done]
  constructor
  · intro h
    refine ⟨by simpa using h [] m ms rfl, ?_⟩
    intro before x after hsplit
    have hx := h (m :: before) x after (by rw [hsplit]; rfl)
    rw [List.countP_cons] at hx
    split_ifs at hx ⊢ <;> push_cast at hx ⊢ <;> omega
  · rintro ⟨hcount, hrest⟩ before x after hsplit
    rcases before with _ | ⟨b, before⟩
    · simpa using hcount
    · rw [List.cons_append, List.cons.injEq] at hsplit
      obtain ⟨rfl, htail⟩ := hsplit
      have hx := hrest before x after htail
      rw [List.countP_cons]
      split_ifs at hx ⊢ <;> push_cast at hx ⊢ <;> omega

variable (ms : List MismatchRecord)

theorem resolveFrom_count (hfresh : ∀ m ∈ ms, Fresh m) (count : ℕ) : (resolveFrom cfg count ms).2 =
      count + (resolveFrom cfg count ms).1.countP (fun m => Resolved m) := by
  induction ms generalizing count with
  | nil => simp [resolveFrom]
  | cons m ms ih =>
    have hm := hfresh m List.mem_cons_self
    have hms : ∀ x ∈ ms, Fresh x := fun x hx => hfresh x (List.mem_cons_of_mem m hx)
    by_cases hlimit : cfg.maxAutoResolutionsPerRun ≤ count
    · have hnone : (m :: ms).countP (fun m => decide (Resolved m)) = 0 := by
        rw [List.countP_eq_zero]
        intro x hx hr
        exact fresh_untouched x (hfresh x hx) (.inl (of_decide_eq_true hr))
      simp [resolveFrom, hlimit, hnone]
    · have hdone := tryAutoResolve_done cfg m
      have hres := tryAutoResolve_resolved cfg m hm.1
      simp only [resolveFrom, if_neg hlimit, List.countP_cons, ih hms]
      by_cases h : resolvable cfg m.type = true
      · simp only [hdone, h, if_true, decide_eq_true (hres.mpr h)]
        omega
      · simp only [hdone, h, decide_eq_false (mt hres.mp h), Bool.false_eq_true, if_false]
        omega

/-- Every mismatch of a pass is accounted for exactly when the limit lets the
pass reach the last one. -/
theorem resolveFrom_each (hfresh : ∀ m ∈ ms, Fresh m) (count : ℕ) :
    (∀ m ∈ (resolveFrom cfg count ms).1, Resolved m ∨ Escalated m) ↔
      WithinFrom cfg count ms := by
  induction ms generalizing count with
  | nil => simp [resolveFrom, WithinFrom]
  | cons m ms ih =>
    have hm := hfresh m List.mem_cons_self
    rw [withinFrom_cons]
    by_cases hlimit : cfg.maxAutoResolutionsPerRun ≤ count
    · have hleft : ¬ ∀ x ∈ m :: ms, Resolved x ∨ Escalated x :=
        fun h => fresh_untouched m hm (h m List.mem_cons_self)
      simp [resolveFrom, hlimit, -List.mem_cons, hleft, not_lt.mpr hlimit]
    · have hfirst : Resolved (tryAutoResolve cfg m).1 ∨ Escalated (tryAutoResolve cfg m).1 := by
        rw [tryAutoResolve_resolved cfg m hm.1, tryAutoResolve_escalated cfg m hm.1]
        cases resolvable cfg m.type <;> simp
      rw [resolveFrom, if_neg hlimit, List.forall_mem_cons,
        ih (fun x hx => hfresh x (List.mem_cons_of_mem m hx))]
      simp [hfirst, not_le.mp hlimit]

theorem resolveFrom_limit (count : ℕ) (h : (count : ℤ) ≤ cfg.maxAutoResolutionsPerRun) :
    ((resolveFrom cfg count ms).2 : ℤ) ≤ cfg.maxAutoResolutionsPerRun := by
  induction ms generalizing count with
  | nil => exact h
  | cons m ms ih =>
    by_cases hlimit : cfg.maxAutoResolutionsPerRun ≤ count
    · simpa [resolveFrom, hlimit] using h
    · rw [resolveFrom, if_neg hlimit]
      apply ih
      split_ifs <;> push_cast <;> omega

end Pass

section Run
variable {F : Type} (cfg : ReconciliationConfig F)

/-- Every mismatch is resolved or handed to the operator, and counted as such,
if and only if the limit is not reached before the last one. -/
theorem accountedFor_iff (r : ReconciliationResult) (hfresh : ∀ m ∈ r.mismatches, Fresh m) :
    AccountedFor cfg r.mismatches (autoResolveMismatches cfg r) ↔
      WithinLimit cfg r.mismatches := by
  have heach := resolveFrom_each cfg r.mismatches hfresh 0
  have hwithin : WithinFrom cfg 0 r.mismatches ↔ ∀ before m after,
      r.mismatches = before ++ m :: after →
        (before.countP (fun m => resolvable cfg m.type) : ℤ) < cfg.maxAutoResolutionsPerRun := by
    simp [WithinFrom]
  constructor
  · intro h
    have hcount : (0 : ℤ) ≤ (autoResolveMismatches cfg r).autoResolved := Int.natCast_nonneg _
    exact ⟨hcount.trans h.limit, hwithin.mp (heach.mp h.each)⟩
  · rintro ⟨hpos, hrest⟩
    refine ⟨resolveFrom_about cfg r.mismatches 0, heach.mpr (hwithin.mpr hrest), ?_, ?_,
      resolveFrom_limit cfg r.mismatches 0 hpos⟩
    · apply List.countP_congr
      intro m _
      rw [Bool.and_eq_true, Bool.not_eq_true', beq_iff_eq, decide_eq_true_iff]
      rfl
    · exact (resolveFrom_count cfg r.mismatches hfresh 0).trans (Nat.zero_add _)

end Run

section Comparison
variable {F : Type} [DoubleArith F] (cfg : ReconciliationConfig F) (now : Timestamp)

omit [DoubleArith F] in
theorem mismatch_fresh (type : MismatchType) (symbol : Symbol) (orderId : OrderId)
    (side : Option PositionSide) : Fresh (mismatch now type symbol orderId side) := ⟨rfl, rfl⟩

omit [DoubleArith F] in
theorem fresh_if (c : Prop) [Decidable c] {m : MismatchRecord} (hm : Fresh m) :
    ∀ x ∈ (if c then [m] else []), Fresh x := by
  intro x hx
  split_ifs at hx
  · exact List.mem_singleton.mp hx ▸ hm
  · exact nomatch hx

theorem reconcileOrder_fresh (byId byClientId : Dict (ExchangeOrderInfo F)) (s : OrderPass)
    (own : OrderRecord F) (hs : ∀ m ∈ s.mismatches, Fresh m) :
    ∀ m ∈ (reconcileOrder now byId byClientId s own).mismatches, Fresh m := by
  unfold reconcileOrder
  split_ifs
  · exact hs
  rcases findOnExchange byId byClientId own with _ | ⟨found, matchedId⟩
  · exact List.forall_mem_append.mpr
      ⟨hs, List.forall_mem_singleton.mpr (mismatch_fresh now _ _ _ _)⟩
  · exact List.forall_mem_append.mpr ⟨List.forall_mem_append.mpr
      ⟨hs, fresh_if _ (mismatch_fresh now _ _ _ _)⟩, fresh_if _ (mismatch_fresh now _ _ _ _)⟩

/-- What the comparison of orders reports, before anything is resolved. -/
theorem reconcileOrders_fresh (localOrders : List (OrderRecord F))
    (exchangeOrders : List (ExchangeOrderInfo F)) :
    ∀ m ∈ reconcileOrders now localOrders exchangeOrders, Fresh m := by
  refine List.forall_mem_append.mpr ⟨?_, List.forall_mem_map.mpr fun eo _ =>
    mismatch_fresh now _ _ _ _⟩
  refine List.foldlRecOn localOrders _
    (motive := fun s : OrderPass => ∀ m ∈ s.mismatches, Fresh m) ?_ ?_
  · exact fun m hm => nomatch hm
  · exact fun s hs own _ => reconcileOrder_fresh now _ _ s own hs

theorem reconcilePosition_fresh (byKey : Dict (ExchangeOpenPositionInfo F)) (s : PositionPass)
    (own : Position F) (hs : ∀ m ∈ s.mismatches, Fresh m) :
    ∀ m ∈ (reconcilePosition cfg now byKey s own).mismatches, Fresh m := by
  unfold reconcilePosition
  split_ifs
  · exact hs
  rcases byKey.lookup (makeKey own.symbol own.side) with _ | ep
  · exact List.forall_mem_append.mpr
      ⟨hs, List.forall_mem_singleton.mpr (mismatch_fresh now _ _ _ _)⟩
  · exact List.forall_mem_append.mpr ⟨hs, fresh_if _ (mismatch_fresh now _ _ _ _)⟩

theorem reconcilePositions_fresh (localPositions : List (Position F))
    (exchangePositions : List (ExchangeOpenPositionInfo F)) :
    ∀ m ∈ reconcilePositions cfg now localPositions exchangePositions, Fresh m := by
  refine List.forall_mem_append.mpr ⟨?_, List.forall_mem_map.mpr fun ep _ =>
    mismatch_fresh now _ _ _ _⟩
  refine List.foldlRecOn localPositions _
    (motive := fun s : PositionPass => ∀ m ∈ s.mismatches, Fresh m) ?_ ?_
  · exact fun m hm => nomatch hm
  · exact fun s hs own _ => reconcilePosition_fresh cfg now _ s own hs

theorem reconcileBalance_fresh (localCash : F)
    (exchangeBalances : List (ExchangePositionInfo F)) :
    ∀ m ∈ reconcileBalance cfg now localCash exchangeBalances, Fresh m := by
  unfold reconcileBalance
  split
  · exact fun m hm => nomatch hm
  · exact fresh_if _ (mismatch_fresh now _ _ _ _)

/-- All that one reconciliation of positions and balance hands to the resolution. -/
theorem found_fresh (clock : RunClock) (answers : ExchangeAnswers F)
    (localPositions : List (Position F)) (localCash : F) :
    ∀ m ∈ (positionsFound cfg clock.positions localPositions answers.openPositions).1 ++
      (balancesFound cfg clock.balance localCash answers.accountBalances).1, Fresh m := by
  refine List.forall_mem_append.mpr ⟨?_, ?_⟩
  · cases answers.openPositions with
    | none => exact fun m hm => nomatch hm
    | some eps => exact reconcilePositions_fresh cfg clock.positions localPositions eps
  · cases answers.accountBalances with
    | none => exact fun m hm => nomatch hm
    | some ebs => exact reconcileBalance_fresh cfg clock.balance localCash ebs

end Comparison

section Limited

def oneResolution : ReconciliationConfig ℚ := ⟨true, true, true, 1, 1, 1⟩

def report (ms : List MismatchRecord) : ReconciliationResult :=
  ⟨.success, ms, 0, 0, 0, 0, 0, 0, 0⟩

def legAndBalance : ReconciliationResult :=
  report [mismatch 0 .positionExistsOnlyLocally "BTCUSDT" "" (some .long),
    mismatch 0 .balanceMismatch "USDT" "" none]

theorem legAndBalance_fresh : ∀ m ∈ legAndBalance.mismatches, Fresh m := by
  intro m hm
  simp only [legAndBalance, report, List.mem_cons, List.not_mem_nil, or_false] at hm
  rcases hm with rfl | rfl <;> exact mismatch_fresh 0 _ _ _ _

/-- The balance stays without an action once the leg has used up the limit. -/
theorem balance_unaccounted : ¬ AccountedFor oneResolution legAndBalance.mismatches
    (autoResolveMismatches oneResolution legAndBalance) := by
  intro h
  have hbalance := h.each (mismatch 0 .balanceMismatch "USDT" "" none) (by decide +kernel)
  exact absurd hbalance (by decide)

theorem accountedFor_iff_legAndBalance :
    AccountedFor oneResolution legAndBalance.mismatches
        (autoResolveMismatches oneResolution legAndBalance) ↔
      WithinLimit oneResolution legAndBalance.mismatches :=
  accountedFor_iff oneResolution legAndBalance legAndBalance_fresh

end Limited

end TB.MismatchAccounts
