import TomorrowBot.ReconciliationEngine

/-!
# What the reconciliation of orders reports

A local order is matched by the exchange's order that carries its exchange id
or, if there is none, by the one that carries its order id as client id. The
reports about local orders are exact. A report about an order of the exchange
is suppressed by the exchange id alone, and an order may have none: one matched
order without an id hides every other order without an id.
-/

set_option autoImplicit false

namespace TB.OrderReconciliation
open TB.CommonTypes TB.OrderTypes TB.ReconciliationTypes TB.ReconciliationEngine

section Statement
variable {F : Type} [DoubleArith F]

def carriesExchangeId (own : OrderRecord F) (eo : ExchangeOrderInfo F) : Bool :=
  own.exchangeOrderId != "" && eo.orderId == own.exchangeOrderId

def carriesClientId (own : OrderRecord F) (eo : ExchangeOrderInfo F) : Bool :=
  own.orderId != "" && eo.clientOrderId == own.orderId

def matched (exchange : List (ExchangeOrderInfo F)) (own : OrderRecord F)
    (eo : ExchangeOrderInfo F) : Bool :=
  !isTerminal own.state &&
    (carriesExchangeId own eo ||
      !exchange.any (carriesExchangeId own) && carriesClientId own eo)

def toReport (exchange : List (ExchangeOrderInfo F)) (own : OrderRecord F) :
    MismatchType → Bool
  | .orderExistsOnlyLocally =>
      !isTerminal own.state &&
        !exchange.any (fun eo => carriesExchangeId own eo || carriesClientId own eo)
  | .stateMismatch => exchange.any (fun eo => matched exchange own eo && activityDiffers own eo)
  | .quantityMismatch => exchange.any (fun eo => matched exchange own eo && filledDiffers own eo)
  | _ => false

def orphan (locals : List (OrderRecord F)) (exchange : List (ExchangeOrderInfo F))
    (eo : ExchangeOrderInfo F) : Bool :=
  !locals.any (fun own => matched exchange own eo)

def ofType (type : MismatchType) (ms : List MismatchRecord) : List MismatchRecord :=
  ms.filter (fun m => m.type == type)

structure Reconciled (now : Timestamp) (locals : List (OrderRecord F))
    (exchange : List (ExchangeOrderInfo F)) (ms : List MismatchRecord) : Prop where
  aboutLocals : ∀ type, type ≠ .orderExistsOnlyOnExchange →
    ofType type ms = (locals.filter (fun own => toReport exchange own type)).map
      (orderMismatch now type)
  aboutExchange : ofType .orderExistsOnlyOnExchange ms =
    (exchange.filter (orphan locals exchange)).map (orphanOrder now)
  onceLocally : ∀ type, type ≠ .orderExistsOnlyOnExchange →
    ((ofType type ms).map (fun m => m.orderId)).Nodup
  onceOnExchange : Keyed.DistinctKeys (fun m => nonEmpty m.orderId)
    (ofType .orderExistsOnlyOnExchange ms)

structure DistinctIds (exchange : List (ExchangeOrderInfo F)) : Prop where
  byId : Keyed.DistinctKeys (fun eo => nonEmpty eo.orderId) exchange
  byClientId : Keyed.DistinctKeys (fun eo => nonEmpty eo.clientOrderId) exchange

def BlankIdsMatched (locals : List (OrderRecord F)) (exchange : List (ExchangeOrderInfo F)) :
    Prop :=
  ∀ own ∈ locals, ∀ eo ∈ exchange, matched exchange own eo = true → eo.orderId = "" →
    ∀ other ∈ exchange, other.orderId = "" → orphan locals exchange other = false

end Statement

section Join
variable {F : Type} {exchange : List (ExchangeOrderInfo F)}

theorem nonEmpty_eq_some (id k : OrderId) : nonEmpty id = some k ↔ id ≠ "" ∧ id = k := by
  unfold nonEmpty
  by_cases h : id = "" <;> simp [h]

theorem lookup_indexed {key : ExchangeOrderInfo F → OrderId}
    (hd : Keyed.DistinctKeys (fun eo => nonEmpty (key eo)) exchange) (id : OrderId)
    (eo : ExchangeOrderInfo F) :
    (nonEmpty id).bind
        (fun id => (Keyed.indexBy (fun eo => nonEmpty (key eo)) exchange).lookup id) = some eo ↔
      eo ∈ exchange ∧ (id != "" && key eo == id) = true := by
  rw [Option.bind_eq_some_iff]
  simp only [Keyed.lookup_indexBy_iff _ _ hd, nonEmpty_eq_some, Bool.and_eq_true, bne_iff_ne,
    beq_iff_eq]
  constructor
  · rintro ⟨k, ⟨hne, rfl⟩, hm, -, hk⟩
    exact ⟨hm, hne, hk⟩
  · rintro ⟨hm, hne, hk⟩
    exact ⟨id, ⟨hne, rfl⟩, hm, hk ▸ hne, hk⟩

theorem lookup_exchangeById (hd : DistinctIds exchange) (own : OrderRecord F)
    (eo : ExchangeOrderInfo F) :
    (nonEmpty own.exchangeOrderId).bind (fun id => (exchangeById exchange).lookup id) = some eo ↔
      eo ∈ exchange ∧ carriesExchangeId own eo = true :=
  lookup_indexed hd.byId own.exchangeOrderId eo

theorem lookup_exchangeByClientId (hd : DistinctIds exchange) (own : OrderRecord F)
    (eo : ExchangeOrderInfo F) :
    (nonEmpty own.orderId).bind (fun id => (exchangeByClientId exchange).lookup id) = some eo ↔
      eo ∈ exchange ∧ carriesClientId own eo = true :=
  lookup_indexed hd.byClientId own.orderId eo

def found (exchange : List (ExchangeOrderInfo F)) (own : OrderRecord F) :
    Option (ExchangeOrderInfo F × OrderId) :=
  findOnExchange (exchangeById exchange) (exchangeByClientId exchange) own

theorem found_of_exchangeId (hd : DistinctIds exchange) (own : OrderRecord F)
    (eo : ExchangeOrderInfo F) (he : eo ∈ exchange) (hc : carriesExchangeId own eo = true) :
    found exchange own = some (eo, eo.orderId) := by
  have hid : eo.orderId = own.exchangeOrderId := by
    rw [carriesExchangeId, Bool.and_eq_true, beq_iff_eq] at hc
    exact hc.2
  unfold found findOnExchange
  rw [(lookup_exchangeById hd own eo).mpr ⟨he, hc⟩, hid]

theorem lookup_absent (hd : DistinctIds exchange) (own : OrderRecord F)
    (hno : exchange.any (carriesExchangeId own) = false) :
    (nonEmpty own.exchangeOrderId).bind (fun id => (exchangeById exchange).lookup id) = none := by
  rw [Option.eq_none_iff_forall_ne_some]
  intro e h
  obtain ⟨he, hc⟩ := (lookup_exchangeById hd own e).mp h
  exact List.any_eq_false.mp hno e he hc

theorem found_of_clientId (hd : DistinctIds exchange) (own : OrderRecord F)
    (eo : ExchangeOrderInfo F) (hno : exchange.any (carriesExchangeId own) = false)
    (he : eo ∈ exchange) (hc : carriesClientId own eo = true) :
    found exchange own = some (eo, eo.orderId) := by
  unfold found findOnExchange
  rw [lookup_absent hd own hno, (lookup_exchangeByClientId hd own eo).mpr ⟨he, hc⟩]

theorem found_absent (hd : DistinctIds exchange) (own : OrderRecord F)
    (hno : exchange.any (carriesExchangeId own) = false)
    (hcl : exchange.any (carriesClientId own) = false) : found exchange own = none := by
  have hclient : (nonEmpty own.orderId).bind
      (fun id => (exchangeByClientId exchange).lookup id) = none := by
    rw [Option.eq_none_iff_forall_ne_some]
    intro e h
    obtain ⟨he, hc⟩ := (lookup_exchangeByClientId hd own e).mp h
    exact List.any_eq_false.mp hcl e he hc
  unfold found findOnExchange
  rw [lookup_absent hd own hno, hclient]

/-- What is found for a live order is the order it is matched with, marked
under that order's exchange id. -/
theorem found_iff (hd : DistinctIds exchange) (own : OrderRecord F)
    (hlive : isTerminal own.state = false) (eo : ExchangeOrderInfo F) (id : OrderId) :
    found exchange own = some (eo, id) ↔
      eo ∈ exchange ∧ matched exchange own eo = true ∧ id = eo.orderId := by
  constructor
  · intro h
    by_cases hany : exchange.any (carriesExchangeId own) = true
    · obtain ⟨e, he, hc⟩ := List.any_eq_true.mp hany
      rw [found_of_exchangeId hd own e he hc, Option.some.injEq, Prod.mk.injEq] at h
      obtain ⟨rfl, rfl⟩ := h
      exact ⟨he, by simp [matched, hlive, hc], rfl⟩
    have hno : exchange.any (carriesExchangeId own) = false := by simpa using hany
    by_cases hcl : exchange.any (carriesClientId own) = true
    · obtain ⟨e, he, hc⟩ := List.any_eq_true.mp hcl
      rw [found_of_clientId hd own e hno he hc, Option.some.injEq, Prod.mk.injEq] at h
      obtain ⟨rfl, rfl⟩ := h
      exact ⟨he, by simp [matched, hlive, hno, hc], rfl⟩
    · rw [found_absent hd own hno (by simpa using hcl)] at h
      cases h
  · rintro ⟨he, hm, rfl⟩
    unfold matched at hm
    rw [hlive, Bool.not_false, Bool.true_and, Bool.or_eq_true, Bool.and_eq_true,
      Bool.not_eq_true'] at hm
    rcases hm with hx | ⟨hno, hc⟩
    · exact found_of_exchangeId hd own eo he hx
    · exact found_of_clientId hd own eo hno he hc

theorem exists_matched (own : OrderRecord F) (hlive : isTerminal own.state = false) :
    exchange.any (matched exchange own) =
      exchange.any (fun eo => carriesExchangeId own eo || carriesClientId own eo) := by
  rcases h : exchange.any (carriesExchangeId own) with _ | _
  · have heq : ∀ eo ∈ exchange, matched exchange own eo =
        (carriesExchangeId own eo || carriesClientId own eo) := fun eo _ => by
      simp [matched, hlive, h]
    rw [Bool.eq_iff_iff, List.any_eq_true, List.any_eq_true]
    exact ⟨fun ⟨e, he, hm⟩ => ⟨e, he, heq e he ▸ hm⟩, fun ⟨e, he, hm⟩ => ⟨e, he, heq e he ▸ hm⟩⟩
  · obtain ⟨e, he, hc⟩ := List.any_eq_true.mp h
    rw [List.any_eq_true.mpr ⟨e, he, by simp [matched, hlive, hc]⟩,
      List.any_eq_true.mpr ⟨e, he, by simp [hc]⟩]

theorem found_none (hd : DistinctIds exchange) (own : OrderRecord F)
    (hlive : isTerminal own.state = false) :
    found exchange own = none ↔ exchange.any (matched exchange own) = false := by
  rw [Option.eq_none_iff_forall_ne_some, List.any_eq_false]
  constructor
  · intro h eo he hm
    exact h (eo, eo.orderId) ((found_iff hd own hlive eo _).mpr ⟨he, hm, rfl⟩)
  · rintro h ⟨eo, id⟩ hf
    obtain ⟨he, hm, -⟩ := (found_iff hd own hlive eo id).mp hf
    exact h eo he hm

theorem matched_terminal (own : OrderRecord F) (hterm : isTerminal own.state = true)
    (eo : ExchangeOrderInfo F) : matched exchange own eo = false := by
  simp [matched, hterm]

theorem any_matched_and (hd : DistinctIds exchange) (own : OrderRecord F)
    (eo : ExchangeOrderInfo F) (he : eo ∈ exchange) (hm : matched exchange own eo = true)
    (p : ExchangeOrderInfo F → Bool) :
    exchange.any (fun e => matched exchange own e && p e) = p eo := by
  have hlive : isTerminal own.state = false := by
    by_contra h
    rw [matched_terminal own (by simpa using h)] at hm
    cases hm
  have hf := (found_iff hd own hlive eo _).mpr ⟨he, hm, rfl⟩
  rw [Bool.eq_iff_iff, List.any_eq_true]
  constructor
  · rintro ⟨e, hmem, h⟩
    obtain ⟨hme, hp⟩ := Bool.and_eq_true_iff.mp h
    have hf' := (found_iff hd own hlive e _).mpr ⟨hmem, hme, rfl⟩
    rw [hf, Option.some.injEq, Prod.mk.injEq] at hf'
    exact hf'.1 ▸ hp
  · intro hp
    exact ⟨eo, he, by simp [hm, hp]⟩

end Join

section Pass
variable {F : Type} [DoubleArith F] {exchange : List (ExchangeOrderInfo F)}

def ownReports (now : Timestamp) (exchange : List (ExchangeOrderInfo F)) (own : OrderRecord F) :
    List MismatchRecord :=
  if isTerminal own.state then []
  else
    match found exchange own with
    | none => [orderMismatch now .orderExistsOnlyLocally own]
    | some (eo, _) =>
      (if activityDiffers own eo then [orderMismatch now .stateMismatch own] else []) ++
        (if filledDiffers own eo then [orderMismatch now .quantityMismatch own] else [])

def ownMark (exchange : List (ExchangeOrderInfo F)) (own : OrderRecord F) : Option OrderId :=
  if isTerminal own.state then none else (found exchange own).map (fun f => f.2)

variable (now : Timestamp)

theorem reconcileOrder_spec (s : OrderPass) (own : OrderRecord F) :
    reconcileOrder now (exchangeById exchange) (exchangeByClientId exchange) s own =
      ⟨s.mismatches ++ ownReports now exchange own,
        (ownMark exchange own).toList ++ s.matchedExchangeIds⟩ := by
  unfold reconcileOrder ownReports ownMark found
  by_cases h : isTerminal own.state = true
  · simp [h]
  · rcases findOnExchange (exchangeById exchange) (exchangeByClientId exchange) own with
      _ | ⟨eo, id⟩
    · simp [h]
    · simp [h]

variable (locals : List (OrderRecord F))

theorem run_spec (s : OrderPass) :
    locals.foldl (reconcileOrder now (exchangeById exchange) (exchangeByClientId exchange)) s =
      ⟨s.mismatches ++ locals.flatMap (ownReports now exchange),
        (locals.filterMap (ownMark exchange)).reverse ++ s.matchedExchangeIds⟩ := by
  induction locals generalizing s with
  | nil => simp
  | cons own locals ih =>
    rw [List.foldl_cons, reconcileOrder_spec, ih]
    rcases h : ownMark exchange own with _ | id
    · simp [h]
    · simp [h]

theorem reconcileOrders_eq : reconcileOrders now locals exchange =
      locals.flatMap (ownReports now exchange) ++
        (exchange.filter
          (fun eo => !(locals.filterMap (ownMark exchange)).contains eo.orderId)).map
          (orphanOrder now) := by
  unfold reconcileOrders
  rw [run_spec]
  simp

/-- The reports of one type about one order: exactly the due one. -/
theorem ofType_ownReports (hd : DistinctIds exchange) (own : OrderRecord F) (type : MismatchType) :
    ofType type (ownReports now exchange own) =
      if toReport exchange own type then [orderMismatch now type own] else [] := by
  by_cases hterm : isTerminal own.state = true
  · have hno : toReport exchange own type = false := by
      cases type <;> simp [toReport, hterm, matched]
    simp [ownReports, hterm, hno, ofType]
  have hlive : isTerminal own.state = false := by simpa using hterm
  rcases h : found exchange own with _ | ⟨eo, id⟩
  · have hany := (found_none hd own hlive).mp h
    have hm : ∀ eo ∈ exchange, matched exchange own eo = false := by
      simpa using hany
    rw [exists_matched own hlive] at hany
    have hp : ∀ p : ExchangeOrderInfo F → Bool,
        exchange.any (fun eo => matched exchange own eo && p eo) = false := by
      intro p
      rw [List.any_eq_false]
      intro eo he
      simp [hm eo he]
    cases type <;>
      simp [ownReports, hlive, h, ofType, toReport, hany, hp, orderMismatch, mismatch]
  · obtain ⟨he, hm, -⟩ := (found_iff hd own hlive eo id).mp h
    have hany : exchange.any (fun eo => carriesExchangeId own eo || carriesClientId own eo) =
        true := by
      rw [← exists_matched own hlive]
      exact List.any_eq_true.mpr ⟨eo, he, hm⟩
    have hp := any_matched_and hd own eo he hm
    cases type <;> by_cases ha : activityDiffers own eo = true <;>
      by_cases hq : filledDiffers own eo = true <;>
      simp [ownReports, hlive, h, ofType, toReport, hany, hp, orderMismatch, mismatch, ha, hq]

omit [DoubleArith F] in
theorem flatMap_singleton_if (xs : List (OrderRecord F)) (c : OrderRecord F → Bool)
    (g : OrderRecord F → MismatchRecord) :
    xs.flatMap (fun x => if c x then [g x] else []) = (xs.filter c).map g := by
  induction xs with
  | nil => rfl
  | cons x xs ih =>
    by_cases h : c x = true <;> simp [h, ih]

/-- Reports about local orders are exact whatever the ids. -/
theorem reports_aboutLocals
    (hd : DistinctIds exchange) (type : MismatchType) (ht : type ≠ .orderExistsOnlyOnExchange) :
    ofType type (reconcileOrders now locals exchange) =
      (locals.filter (fun own => toReport exchange own type)).map (orderMismatch now type) := by
  have hnone : ofType type ((exchange.filter (fun eo =>
      !(locals.filterMap (ownMark exchange)).contains eo.orderId)).map (orphanOrder now)) = [] := by
    rw [ofType, List.filter_eq_nil_iff]
    intro m hm
    obtain ⟨eo, -, rfl⟩ := List.mem_map.mp hm
    simpa [orphanOrder, mismatch] using Ne.symm ht
  rw [reconcileOrders_eq, ofType, List.filter_append, ← ofType, ← ofType, hnone, List.append_nil,
    ← flatMap_singleton_if, ofType, List.filter_flatMap]
  exact List.flatMap_congr fun own _ => ofType_ownReports now hd own type

theorem reports_aboutExchange (hd : DistinctIds exchange) :
    ofType .orderExistsOnlyOnExchange (reconcileOrders now locals exchange) =
      (exchange.filter (fun eo =>
        !(locals.filterMap (ownMark exchange)).contains eo.orderId)).map (orphanOrder now) := by
  have hnone : ofType .orderExistsOnlyOnExchange
      (locals.flatMap (ownReports now exchange)) = [] := by
    rw [ofType, List.filter_flatMap, List.flatMap_eq_nil_iff]
    intro own _
    rw [← ofType, ofType_ownReports now hd]
    rfl
  have hall : ∀ es : List (ExchangeOrderInfo F),
      ofType .orderExistsOnlyOnExchange (es.map (orphanOrder now)) = es.map (orphanOrder now) := by
    intro es
    rw [ofType, List.filter_eq_self]
    intro m hm
    obtain ⟨eo, -, rfl⟩ := List.mem_map.mp hm
    rfl
  rw [reconcileOrders_eq, ofType, List.filter_append, ← ofType, ← ofType, hnone, List.nil_append,
    hall]

omit [DoubleArith F] in
theorem marked_iff (hd : DistinctIds exchange) (id : OrderId) :
    (locals.filterMap (ownMark exchange)).contains id = true ↔
      ∃ own ∈ locals, ∃ eo ∈ exchange, matched exchange own eo = true ∧ eo.orderId = id := by
  rw [List.contains_iff_mem, List.mem_filterMap]
  constructor
  · rintro ⟨own, hown, hmark⟩
    unfold ownMark at hmark
    split_ifs at hmark with hterm
    obtain ⟨⟨eo, k⟩, hf, rfl⟩ := Option.map_eq_some_iff.mp hmark
    obtain ⟨he, hm, hk⟩ := (found_iff hd own (by simpa using hterm) eo k).mp hf
    exact ⟨own, hown, eo, he, hm, hk.symm⟩
  · rintro ⟨own, hown, eo, he, hm, rfl⟩
    have hlive : isTerminal own.state = false := by
      by_contra h
      rw [matched_terminal own (by simpa using h)] at hm
      cases hm
    refine ⟨own, hown, ?_⟩
    rw [ownMark, (found_iff hd own hlive eo _).mpr ⟨he, hm, rfl⟩]
    simp [hlive]

end Pass

section Result
variable {F : Type}

theorem orphan_false (locals : List (OrderRecord F)) (exchange : List (ExchangeOrderInfo F))
    (eo : ExchangeOrderInfo F) :
    orphan locals exchange eo = false ↔ ∃ own ∈ locals, matched exchange own eo = true := by
  simp [orphan]

theorem unmarked_iff_orphan (locals : List (OrderRecord F)) (exchange : List (ExchangeOrderInfo F))
    (hd : DistinctIds exchange) (hb : BlankIdsMatched locals exchange) (eo : ExchangeOrderInfo F)
    (he : eo ∈ exchange) :
    (!(locals.filterMap (ownMark exchange)).contains eo.orderId) = orphan locals exchange eo := by
  have hiff : (locals.filterMap (ownMark exchange)).contains eo.orderId = true ↔
      ∃ own ∈ locals, matched exchange own eo = true := by
    rw [marked_iff locals hd]
    constructor
    · rintro ⟨own, hown, other, ho, hm, hid⟩
      by_cases hne : eo.orderId = ""
      · exact (orphan_false locals exchange eo).mp
          (hb own hown other ho hm (hid.trans hne) eo he hne)
      · have hsame : other = eo := hd.byId.eq ho he ((nonEmpty_eq_some _ _).mpr ⟨hid ▸ hne, hid⟩)
          ((nonEmpty_eq_some _ _).mpr ⟨hne, rfl⟩)
        exact ⟨own, hown, hsame ▸ hm⟩
    · rintro ⟨own, hown, hm⟩
      exact ⟨own, hown, eo, he, hm, rfl⟩
  rcases h : orphan locals exchange eo with _ | _
  · rw [hiff.mpr ((orphan_false locals exchange eo).mp h)]
    rfl
  · rcases hc : (locals.filterMap (ownMark exchange)).contains eo.orderId with _ | _
    · rfl
    · rw [(orphan_false locals exchange eo).mpr (hiff.mp hc)] at h
      cases h

/-- The reports are sound, complete and without repetition exactly when no
match without an exchange id leaves another order without one unmatched. -/
theorem reconciled_iff [DoubleArith F] (now : Timestamp) (locals : List (OrderRecord F))
    (exchange : List (ExchangeOrderInfo F)) (hl : (locals.map (fun own => own.orderId)).Nodup)
    (hd : DistinctIds exchange) :
    Reconciled now locals exchange (reconcileOrders now locals exchange) ↔
      BlankIdsMatched locals exchange := by
  constructor
  · intro h own hown eo he hm hblank other ho hoblank
    by_contra horphan
    have hmem : orphanOrder now other ∈
        ofType .orderExistsOnlyOnExchange (reconcileOrders now locals exchange) := by
      rw [h.aboutExchange]
      exact List.mem_map_of_mem (List.mem_filter.mpr ⟨ho, by simpa using horphan⟩)
    rw [reports_aboutExchange now locals hd] at hmem
    obtain ⟨e, hfe, hrec⟩ := List.mem_map.mp hmem
    have hid : e.orderId = "" := (congrArg MismatchRecord.orderId hrec).trans hoblank
    have hmarked := (marked_iff locals hd e.orderId).mpr
      ⟨own, hown, eo, he, hm, hblank.trans hid.symm⟩
    have hunmarked := (List.mem_filter.mp hfe).2
    rw [hmarked] at hunmarked
    cases hunmarked
  · intro hb
    have hx : ofType .orderExistsOnlyOnExchange (reconcileOrders now locals exchange) =
        (exchange.filter (orphan locals exchange)).map (orphanOrder now) := by
      rw [reports_aboutExchange now locals hd]
      congr 1
      exact List.filter_congr fun eo he => unmarked_iff_orphan locals exchange hd hb eo he
    have hown := fun type ht => reports_aboutLocals now locals hd type ht
    exact {
      aboutLocals := hown
      aboutExchange := hx
      onceLocally := fun type ht => by
        rw [hown type ht, List.map_map]
        exact (List.filter_sublist.map _).nodup hl
      onceOnExchange := by
        rw [hx]
        exact List.pairwise_map.mpr (hd.byId.filter _) }

def quoted (orderId clientOrderId : OrderId) : ExchangeOrderInfo ℚ where
  orderId := orderId
  clientOrderId := clientOrderId
  symbol := "BTCUSDT"
  side := .buy
  positionSide := .long
  tradeSide := .opening
  orderType := .limit
  price := 100
  originalQuantity := 1
  filledQuantity := 0
  status := "live"
  createdAt := 1

def resting (orderId exchangeOrderId : OrderId) : OrderRecord ℚ where
  orderId := orderId
  exchangeOrderId := exchangeOrderId
  symbol := "BTCUSDT"
  side := .buy
  positionSide := .long
  tradeSide := .opening
  orderType := .limit
  tif := .goodTillCancel
  price := 100
  originalQuantity := 1
  filledQuantity := 0
  remainingQuantity := 1
  avgFillPrice := 0
  state := .opened
  strategyId := "s"
  correlationId := "c"
  createdAt := 1
  lastUpdated := 1
  rejectionReason := ""
  executionInfo := ⟨[], .allowPartial, orderId, 0, 0, 0⟩
  attachedTpSl := ⟨0, 0, .fillPrice⟩

theorem distinctIds_pair (a b : ExchangeOrderInfo ℚ)
    (hid : ∀ k, nonEmpty a.orderId = some k → nonEmpty b.orderId ≠ some k)
    (hcl : ∀ k, nonEmpty a.clientOrderId = some k → nonEmpty b.clientOrderId ≠ some k) :
    DistinctIds [a, b] :=
  ⟨List.pairwise_pair.mpr hid, List.pairwise_pair.mpr hcl⟩

/-- The order "B" of the exchange is nobody's and goes unreported: the order
"A", which is matched, has no exchange id either. -/
theorem blank_orphan_hidden :
    ¬ ∀ (now : Timestamp) (locals : List (OrderRecord ℚ)) (exchange : List (ExchangeOrderInfo ℚ)),
      (locals.map (fun own => own.orderId)).Nodup → DistinctIds exchange →
        Reconciled now locals exchange (reconcileOrders now locals exchange) := by
  intro h
  have hd : DistinctIds [quoted "" "A", quoted "" "B"] := by
    apply distinctIds_pair
    · intro k hk
      cases hk
    · intro k hk
      rw [← hk]
      decide
  have hx := (h 1 [resting "A" ""] _ (by decide) hd).aboutExchange
  revert hx
  decide +kernel

theorem reconciled_iff_visible :
    Reconciled 1 [resting "A" "X1"] [quoted "X1" "A", quoted "" "B"]
        (reconcileOrders 1 [resting "A" "X1"] [quoted "X1" "A", quoted "" "B"]) ↔
      BlankIdsMatched [resting "A" "X1"] [quoted "X1" "A", quoted "" "B"] :=
  reconciled_iff 1 [resting "A" "X1"] [quoted "X1" "A", quoted "" "B"] (by decide)
    (distinctIds_pair _ _ (by intro k hk; rw [← hk]; decide) (by intro k hk; rw [← hk]; decide))

end Result

end TB.OrderReconciliation
