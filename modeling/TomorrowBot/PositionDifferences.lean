import TomorrowBot.ReconciledLegs

/-!
# What the comparison of positions reports

A local leg is looked up among the entries that the exchange lists, whatever
their size; the entries without a local leg are reported when they are not
dust. So each difference of the two sets of legs is reported once, and a leg
that the exchange lists with size zero counts as a difference in quantity.
-/

set_option autoImplicit false

namespace TB.PositionDifferences
open TB.CommonTypes TB.PortfolioEngine TB.ReconciliationTypes TB.ReconciledLegs
open TB.ReconciliationEngine

section Statement
variable {F : Type} [DoubleArith F]

def isReport (type : MismatchType) (symbol : Symbol) (side : Side) (m : MismatchRecord) : Bool :=
  m.type == type && m.symbol == symbol && m.positionSide == some (sideToPositionSide side)

def ReportedOnce (ms : List MismatchRecord) (type : MismatchType) (symbol : Symbol) (side : Side)
    (c : Prop) : Prop :=
  (c → ms.countP (isReport type symbol side) = 1) ∧
    (¬ c → ms.countP (isReport type symbol side) = 0)

structure Held (positions : List (Position F)) (symbol : Symbol) (side : Side)
    (own : Position F) : Prop where
  mem : own ∈ positions
  symbol : own.symbol = symbol
  side : own.side = side
  size : ¬ own.size < 1e-12

omit [DoubleArith F] in
structure Listed (eps : List (ExchangeOpenPositionInfo F)) (symbol : Symbol) (side : Side)
    (ep : ExchangeOpenPositionInfo F) : Prop where
  mem : ep ∈ eps
  symbol : ep.symbol = symbol
  side : ep.side = side

def Dust (ep : ExchangeOpenPositionInfo F) : Prop := ep.size < 1e-12

instance (ep : ExchangeOpenPositionInfo F) : Decidable (Dust ep) := DoubleArith.decLt _ _

def Differ (cfg : ReconciliationConfig F) (own : Position F) (ep : ExchangeOpenPositionInfo F) :
    Prop :=
  sizeTolerance cfg ep.size < stdAbs (ep.size - own.size)

structure LegReports (cfg : ReconciliationConfig F) (there : ExchangeOpenPositionInfo F → Prop)
    (positions : List (Position F)) (eps : List (ExchangeOpenPositionInfo F))
    (ms : List MismatchRecord) : Prop where
  onlyLocally : ∀ symbol side, ReportedOnce ms .positionExistsOnlyLocally symbol side
    ((∃ own, Held positions symbol side own) ∧ ¬ ∃ ep, Listed eps symbol side ep ∧ there ep)
  onlyOnExchange : ∀ symbol side, ReportedOnce ms .positionExistsOnlyOnExchange symbol side
    ((∃ ep, Listed eps symbol side ep ∧ ¬ Dust ep) ∧ ¬ ∃ own, Held positions symbol side own)
  quantity : ∀ symbol side, ReportedOnce ms .quantityMismatch symbol side
    (∃ own ep, Held positions symbol side own ∧ Listed eps symbol side ep ∧ there ep ∧
      Differ cfg own ep)
  nothingElse : ∀ m ∈ ms, ∃ type symbol side, isReport type symbol side m = true ∧
    type ∈ [.positionExistsOnlyLocally, .positionExistsOnlyOnExchange, .quantityMismatch]
  agree : ms = [] → ∀ symbol side,
    (∀ own, Held positions symbol side own → ∃ ep, Listed eps symbol side ep ∧ there ep ∧
      ¬ Differ cfg own ep) ∧
    (∀ ep, Listed eps symbol side ep → ¬ Dust ep → ∃ own, Held positions symbol side own ∧
      ¬ Differ cfg own ep)

def OnePerLeg {β : Type} (leg : β → Symbol × Side) (xs : List β) : Prop :=
  Keyed.DistinctKeys (fun x => some (leg x)) xs

def ownLeg (own : Position F) : Symbol × Side := (own.symbol, own.side)

def listedLeg (ep : ExchangeOpenPositionInfo F) : Symbol × Side := (ep.symbol, ep.side)

end Statement

section Pass
variable {F : Type} [DoubleArith F] (cfg : ReconciliationConfig F) (now : Timestamp)

def joined (eps : List (ExchangeOpenPositionInfo F)) (own : Position F) : Bool :=
  !decide (own.size < 1e-12) && (listed eps own.symbol own.side).isSome

theorem reconcilePosition_matched (eps : List (ExchangeOpenPositionInfo F)) (s : PositionPass)
    (own : Position F) :
    (reconcilePosition cfg now (byKey eps) s own).matchedKeys =
      if joined eps own then makeKey own.symbol own.side :: s.matchedKeys else s.matchedKeys := by
  unfold reconcilePosition joined
  rw [lookup_byKey]
  by_cases hz : own.size < 1e-12
  · simp [hz]
  · rcases listed eps own.symbol own.side with _ | ep <;> simp [hz]

theorem matchedKeys_iff (eps : List (ExchangeOpenPositionInfo F)) (positions : List (Position F))
    (s : PositionPass) (key : String) :
    key ∈ (positions.foldl (reconcilePosition cfg now (byKey eps)) s).matchedKeys ↔
      key ∈ s.matchedKeys ∨
        ∃ own ∈ positions, joined eps own = true ∧ makeKey own.symbol own.side = key := by
  induction positions generalizing s with
  | nil => simp
  | cons own positions ih =>
    rw [List.foldl_cons, ih, reconcilePosition_matched]
    by_cases h : joined eps own = true
    · simp only [h, if_true, List.mem_cons, exists_eq_or_imp, true_and]
      rw [or_comm (a := key = _), or_assoc, eq_comm (a := key)]
    · simp [h]

def orphan (positions : List (Position F)) (ep : ExchangeOpenPositionInfo F) : Bool :=
  !decide (ep.size < 1e-12) && !positions.any (fun own =>
    !decide (own.size < 1e-12) && own.symbol == ep.symbol && own.side == ep.side)

theorem orphan_iff (positions : List (Position F)) (ep : ExchangeOpenPositionInfo F) :
    orphan positions ep = true ↔
      ¬ Dust ep ∧ ¬ ∃ own, Held positions ep.symbol ep.side own := by
  have hany : (positions.any (fun own => !decide (own.size < 1e-12) && own.symbol == ep.symbol &&
      own.side == ep.side)) = true ↔ ∃ own, Held positions ep.symbol ep.side own := by
    simp only [List.any_eq_true, Bool.and_eq_true, Bool.not_eq_true', decide_eq_false_iff_not,
      beq_iff_eq]
    exact ⟨fun ⟨own, hm, ⟨hz, hs⟩, hside⟩ => ⟨own, hm, hs, hside, hz⟩,
      fun ⟨own, hm, hs, hside, hz⟩ => ⟨own, hm, ⟨hz, hs⟩, hside⟩⟩
  rw [orphan, Bool.and_eq_true, Bool.not_eq_true', Bool.not_eq_true', ← hany, Bool.not_eq_true,
    decide_eq_false_iff_not, Dust]

theorem reconcilePositions_spec (positions : List (Position F))
    (eps : List (ExchangeOpenPositionInfo F)) :
    reconcilePositions cfg now positions eps = positions.filterMap (ownMismatch cfg now eps) ++
      (eps.filter (orphan positions)).map
        (fun ep => positionMismatch now .positionExistsOnlyOnExchange ep.symbol ep.side) := by
  have hown : (positions.foldl (reconcilePosition cfg now (byKey eps)) ⟨[], []⟩).mismatches =
      positions.filterMap (ownMismatch cfg now eps) := by
    rw [reconcilePosition_fold, List.nil_append]
  rw [reconcilePositions, ← byKey, hown]
  congr 2
  apply List.filter_congr
  intro ep hep
  have hlisted : (listed eps ep.symbol ep.side).isSome = true := by
    rw [Option.isSome_iff_ne_none]
    exact fun h => (listed_none eps ep.symbol ep.side).mp h ep hep ⟨rfl, rfl⟩
  have hmatched : makeKey ep.symbol ep.side ∈
      (positions.foldl (reconcilePosition cfg now (byKey eps)) ⟨[], []⟩).matchedKeys ↔
        ∃ own, Held positions ep.symbol ep.side own := by
    rw [matchedKeys_iff]
    simp only [List.not_mem_nil, false_or, key_iff, joined, Bool.and_eq_true, Bool.not_eq_true',
      decide_eq_false_iff_not]
    constructor
    · rintro ⟨own, hm, ⟨hz, -⟩, hs, hside⟩
      exact ⟨own, hm, hs, hside, hz⟩
    · rintro ⟨own, hm, hs, hside, hz⟩
      refine ⟨own, hm, ⟨hz, ?_⟩, hs, hside⟩
      rw [hs, hside]
      exact hlisted
  rw [Bool.eq_iff_iff, orphan_iff, ← hmatched, Dust]
  simp [and_comm]

end Pass

section Counts
variable {F : Type} [DoubleArith F] (cfg : ReconciliationConfig F) (now : Timestamp)

theorem side_injective {a b : Side} (h : sideToPositionSide a = sideToPositionSide b) : a = b := by
  cases a <;> cases b <;> first | rfl | cases h

theorem isReport_iff (type type' : MismatchType) (symbol symbol' : Symbol) (side side' : Side) :
    isReport type symbol side (positionMismatch now type' symbol' side') = true ↔
      type' = type ∧ symbol' = symbol ∧ side' = side := by
  simp only [isReport, positionMismatch, mismatch, Bool.and_eq_true, beq_iff_eq,
    Option.some.injEq, and_assoc]
  exact and_congr_right fun _ => and_congr_right fun _ =>
    ⟨fun h => side_injective h, fun h => by rw [h]⟩

theorem ownMismatch_iff (eps : List (ExchangeOpenPositionInfo F)) (own : Position F)
    (type : MismatchType) (symbol : Symbol) (side : Side) :
    (ownMismatch cfg now eps own).any (isReport type symbol side) = true ↔
      (own.symbol = symbol ∧ own.side = side) ∧
        (type = .positionExistsOnlyLocally ∧ lacks eps own = true ∨
          type = .quantityMismatch ∧ lacks eps own = false ∧ sizeDiffers cfg eps own = true) := by
  unfold ownMismatch
  by_cases hl : lacks eps own = true
  · simp only [hl, if_true, Option.any_some, isReport_iff]
    tauto
  · rw [if_neg hl]
    rw [Bool.not_eq_true] at hl
    by_cases hd : sizeDiffers cfg eps own = true
    · simp only [hd, hl, if_true, Option.any_some, isReport_iff]
      tauto
    · simp [hd, hl]

variable (positions : List (Position F)) (eps : List (ExchangeOpenPositionInfo F))

theorem reports_count (type : MismatchType) (symbol : Symbol) (side : Side) :
    (reconcilePositions cfg now positions eps).countP (isReport type symbol side) =
      positions.countP (fun own => (ownMismatch cfg now eps own).any (isReport type symbol side)) +
        eps.countP (fun ep => orphan positions ep && decide (type = .positionExistsOnlyOnExchange) &&
          ep.symbol == symbol && ep.side == side) := by
  rw [reconcilePositions_spec, List.countP_append, List.countP_filterMap, List.countP_map,
    List.countP_filter]
  congr 1
  · apply List.countP_congr
    intro own _
    cases ownMismatch cfg now eps own <;> simp
  · apply List.countP_congr
    intro ep _
    simp only [Function.comp, Bool.and_eq_true, isReport_iff, decide_eq_true_eq, beq_iff_eq]
    tauto

omit [DoubleArith F] in
/-- Among entries that are listed once each, the last one for a leg is the only one. -/
theorem listed_of_one (he : OnePerLeg listedLeg eps)
    (symbol : Symbol) (side : Side) (ep : ExchangeOpenPositionInfo F) :
    listed eps symbol side = some ep ↔ Listed eps symbol side ep := by
  have hiff := Keyed.lookup_indexBy_iff (fun ep => some (listedLeg ep)) eps he (symbol, side) ep
  rw [Keyed.lookup_indexBy] at hiff
  have hfind : eps.reverse.find? (fun ep => decide (some (listedLeg ep) = some (symbol, side))) =
      listed eps symbol side := by
    unfold listed
    congr 1
    funext x
    rw [Bool.eq_iff_iff, decide_eq_true_iff]
    simp [listedLeg]
  rw [hfind] at hiff
  rw [hiff]
  exact ⟨fun ⟨hm, hk⟩ => ⟨hm, by simpa [listedLeg] using congrArg (Option.map Prod.fst) hk,
    by simpa [listedLeg] using congrArg (Option.map Prod.snd) hk⟩,
    fun h => ⟨h.mem, by rw [listedLeg, h.symbol, h.side]⟩⟩

theorem lacks_iff (own : Position F) : lacks eps own = true ↔
      ¬ own.size < 1e-12 ∧ ¬ ∃ ep, Listed eps own.symbol own.side ep := by
  simp only [lacks, Bool.and_eq_true, Bool.not_eq_true', decide_eq_false_iff_not,
    Option.isNone_iff_eq_none, listed_none]
  refine and_congr_right fun _ => ?_
  constructor
  · rintro h ⟨ep, hl⟩
    exact h ep hl.mem ⟨hl.symbol, hl.side⟩
  · intro h ep hm hk
    exact h ⟨ep, hm, hk.1, hk.2⟩

theorem sizeDiffers_iff (he : OnePerLeg listedLeg eps) (own : Position F) :
    sizeDiffers cfg eps own = true ↔ ¬ own.size < 1e-12 ∧
      ∃ ep, Listed eps own.symbol own.side ep ∧ Differ cfg own ep := by
  simp only [sizeDiffers, Bool.and_eq_true, Bool.not_eq_true', decide_eq_false_iff_not,
    Option.any_eq_true, decide_eq_true_eq]
  refine and_congr_right fun _ => ?_
  constructor
  · rintro ⟨ep, hl, hd⟩
    exact ⟨ep, (listed_of_one eps he _ _ ep).mp hl, hd⟩
  · rintro ⟨ep, hl, hd⟩
    exact ⟨ep, (listed_of_one eps he _ _ ep).mpr hl, hd⟩

theorem own_reports
    (hp : OnePerLeg ownLeg positions) (type : MismatchType) (symbol : Symbol) (side : Side)
    (htype : type ≠ .positionExistsOnlyOnExchange) (c : Prop)
    (hc : (∃ own ∈ positions,
      (ownMismatch cfg now eps own).any (isReport type symbol side) = true) ↔ c) :
    ReportedOnce (reconcilePositions cfg now positions eps) type symbol side c := by
  have hcount := Keyed.DistinctKeys.countP hp (symbol, side)
    (fun own => (ownMismatch cfg now eps own).any (isReport type symbol side)) (by
      intro own h
      obtain ⟨⟨hs, hside⟩, -⟩ := (ownMismatch_iff cfg now eps own type symbol side).mp h
      rw [ownLeg, hs, hside])
  have hzero : eps.countP (fun ep => orphan positions ep &&
      decide (type = .positionExistsOnlyOnExchange) && ep.symbol == symbol && ep.side == side) =
        0 := by
    rw [List.countP_eq_zero]
    simp [htype]
  rw [ReportedOnce, reports_count, hzero, Nat.add_zero, ← hc]
  exact hcount

theorem orphan_reports (he : OnePerLeg listedLeg eps) (symbol : Symbol) (side : Side) :
    ReportedOnce (reconcilePositions cfg now positions eps) .positionExistsOnlyOnExchange symbol
      side ((∃ ep, Listed eps symbol side ep ∧ ¬ Dust ep) ∧
        ¬ ∃ own, Held positions symbol side own) := by
  have hzero : positions.countP (fun own => (ownMismatch cfg now eps own).any
      (isReport .positionExistsOnlyOnExchange symbol side)) = 0 := by
    rw [List.countP_eq_zero]
    intro own _ h
    obtain ⟨-, ⟨ht, -⟩ | ⟨ht, -⟩⟩ := (ownMismatch_iff cfg now eps own _ symbol side).mp h
    · cases ht
    · cases ht
  have hcount := Keyed.DistinctKeys.countP he (symbol, side)
    (fun ep => orphan positions ep &&
      decide (MismatchType.positionExistsOnlyOnExchange = .positionExistsOnlyOnExchange) &&
      ep.symbol == symbol && ep.side == side) (by
      intro ep h
      simp only [Bool.and_eq_true, beq_iff_eq] at h
      rw [listedLeg, h.1.2, h.2])
  have hiff : (∃ ep ∈ eps, (orphan positions ep &&
      decide (MismatchType.positionExistsOnlyOnExchange = .positionExistsOnlyOnExchange) &&
      ep.symbol == symbol && ep.side == side) = true) ↔
        (∃ ep, Listed eps symbol side ep ∧ ¬ Dust ep) ∧
          ¬ ∃ own, Held positions symbol side own := by
    simp only [Bool.and_eq_true, beq_iff_eq, decide_true, and_true, orphan_iff]
    constructor
    · rintro ⟨ep, hm, ⟨⟨hd, hnone⟩, rfl⟩, rfl⟩
      exact ⟨⟨ep, ⟨hm, rfl, rfl⟩, hd⟩, hnone⟩
    · rintro ⟨⟨ep, ⟨hm, rfl, rfl⟩, hd⟩, hnone⟩
      exact ⟨ep, hm, ⟨⟨hd, hnone⟩, rfl⟩, rfl⟩
  rw [ReportedOnce, reports_count, hzero, Nat.zero_add, ← hiff]
  exact hcount

theorem agree_of_empty
    (he : OnePerLeg listedLeg eps) (h : reconcilePositions cfg now positions eps = [])
    (symbol : Symbol) (side : Side) :
    (∀ own, Held positions symbol side own → ∃ ep, Listed eps symbol side ep ∧
      ¬ Differ cfg own ep) ∧
    (∀ ep, Listed eps symbol side ep → ¬ Dust ep → ∃ own, Held positions symbol side own ∧
      ¬ Differ cfg own ep) := by
  rw [reconcilePositions_spec, List.append_eq_nil_iff, List.filterMap_eq_nil_iff,
    List.map_eq_nil_iff, List.filter_eq_nil_iff] at h
  obtain ⟨hown, horphan⟩ := h
  have hkept : ∀ own, Held positions symbol side own → ∃ ep, Listed eps symbol side ep ∧
      ¬ Differ cfg own ep := by
    intro own hheld
    have hnone := hown own hheld.mem
    have hlacks : ¬ lacks eps own = true := by
      intro hl
      simp [ownMismatch, hl] at hnone
    have hdiffers : ¬ sizeDiffers cfg eps own = true := by
      intro hd
      simp [ownMismatch, hlacks, hd] at hnone
    rw [lacks_iff, hheld.symbol, hheld.side] at hlacks
    rw [sizeDiffers_iff cfg eps he, hheld.symbol, hheld.side] at hdiffers
    obtain ⟨ep, hl⟩ := not_not.mp (fun hn => hlacks ⟨hheld.size, hn⟩)
    exact ⟨ep, hl, fun hd => hdiffers ⟨hheld.size, ep, hl, hd⟩⟩
  refine ⟨hkept, ?_⟩
  intro ep hl hd
  have hnot := horphan ep hl.mem
  rw [orphan_iff, hl.symbol, hl.side] at hnot
  obtain ⟨own, hheld⟩ := not_not.mp (fun hn => hnot ⟨hd, hn⟩)
  obtain ⟨ep', hl', hsame⟩ := hkept own hheld
  have heq : ep' = ep := by
    have h₁ := (listed_of_one eps he symbol side ep').mpr hl'
    rw [(listed_of_one eps he symbol side ep).mpr hl] at h₁
    exact (Option.some.inj h₁).symm
  exact ⟨own, hheld, heq ▸ hsame⟩

theorem report_types : ∀ m ∈ reconcilePositions cfg now positions eps, ∃ type symbol side,
      isReport type symbol side m = true ∧
        type ∈ [.positionExistsOnlyLocally, .positionExistsOnlyOnExchange, .quantityMismatch] := by
  intro m hm
  rw [reconcilePositions_spec, List.mem_append, List.mem_filterMap, List.mem_map] at hm
  rcases hm with ⟨own, -, h⟩ | ⟨ep, -, rfl⟩
  · unfold ownMismatch at h
    split_ifs at h
    · cases h
      exact ⟨_, _, _, (isReport_iff now _ _ _ _ _ _).mpr ⟨rfl, rfl, rfl⟩, by simp⟩
    · cases h
      exact ⟨_, _, _, (isReport_iff now _ _ _ _ _ _).mpr ⟨rfl, rfl, rfl⟩, by simp⟩
  · exact ⟨_, _, _, (isReport_iff now _ _ _ _ _ _).mpr ⟨rfl, rfl, rfl⟩, by simp⟩

/-- Every difference between the legs held and the entries listed is reported
once, under the leg's own symbol and side, and nothing else is. -/
theorem legs_reported (positions : List (Position F)) (eps : List (ExchangeOpenPositionInfo F))
    (hp : OnePerLeg ownLeg positions) (he : OnePerLeg listedLeg eps) :
    LegReports cfg (fun _ => True) positions eps (reconcilePositions cfg now positions eps) := by
  refine ⟨?_, orphan_reports cfg now positions eps he, ?_, report_types cfg now positions eps, ?_⟩
  · intro symbol side
    apply own_reports cfg now positions eps hp _ symbol side (by decide)
    simp only [ownMismatch_iff, lacks_iff]
    constructor
    · rintro ⟨own, hm, ⟨rfl, rfl⟩, ⟨-, hz, hnone⟩ | ⟨ht, -⟩⟩
      · exact ⟨⟨own, hm, rfl, rfl, hz⟩, fun ⟨ep, hl, _⟩ => hnone ⟨ep, hl⟩⟩
      · cases ht
    · rintro ⟨⟨own, hm, rfl, rfl, hz⟩, hnone⟩
      exact ⟨own, hm, ⟨rfl, rfl⟩, .inl ⟨trivial, hz, fun ⟨ep, hl⟩ => hnone ⟨ep, hl, trivial⟩⟩⟩
  · intro symbol side
    apply own_reports cfg now positions eps hp _ symbol side (by decide)
    simp only [ownMismatch_iff, sizeDiffers_iff cfg eps he]
    constructor
    · rintro ⟨own, hm, ⟨rfl, rfl⟩, ⟨ht, -⟩ | ⟨-, -, hz, ep, hl, hd⟩⟩
      · cases ht
      · exact ⟨own, ep, ⟨hm, rfl, rfl, hz⟩, hl, trivial, hd⟩
    · rintro ⟨own, ep, ⟨hm, rfl, rfl, hz⟩, hl, -, hd⟩
      refine ⟨own, hm, ⟨rfl, rfl⟩, .inr ⟨trivial, ?_, hz, ep, hl, hd⟩⟩
      rw [← Bool.not_eq_true, lacks_iff]
      exact fun h => h.2 ⟨ep, hl⟩
  · intro h symbol side
    simpa only [true_and] using agree_of_empty cfg now positions eps he h symbol side

end Counts

section ZeroListed

def zeroConfig : ReconciliationConfig ℚ := ⟨true, true, true, 1, 1, 10⟩

def heldLong : Position ℚ where
  symbol := "BTCUSDT"
  side := .buy
  positionSide := .long
  size := 1
  avgEntryPrice := 100
  currentPrice := 100
  notional := 100
  unrealizedPnl := 0
  unrealizedPnlPct := 0
  accumulatedFunding := 0
  strategyId := "s"
  openedAt := 0
  updatedAt := 0

def listedZero : ExchangeOpenPositionInfo ℚ := ⟨"BTCUSDT", .buy, .long, 0, 100, 100, 0, 0⟩

/-- A leg that the exchange lists with size zero is not reported as held only
locally. -/
theorem zero_listed : ¬ LegReports zeroConfig (fun ep => ¬ Dust ep) [heldLong] [listedZero]
    (reconcilePositions zeroConfig 0 [heldLong] [listedZero]) := by
  intro h
  have hone := (h.onlyLocally "BTCUSDT" .buy).1 ⟨⟨heldLong, by simp, rfl, rfl, by decide +kernel⟩, by
    rintro ⟨ep, hl, hd⟩
    obtain rfl := List.mem_singleton.mp hl.mem
    exact hd (by decide +kernel)⟩
  exact absurd hone (by decide +kernel)

theorem legs_reported_zero : LegReports zeroConfig (fun _ => True) [heldLong] [listedZero]
    (reconcilePositions zeroConfig 0 [heldLong] [listedZero]) :=
  legs_reported zeroConfig 0 [heldLong] [listedZero] (List.pairwise_singleton _ _)
    (List.pairwise_singleton _ _)

end ZeroListed

end TB.PositionDifferences
