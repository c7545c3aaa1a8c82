import Mathlib.Data.List.Dedup
import TomorrowBot.RecoveryTruth

/-!
# The full recovery and the pairs it infers

After the recovery of the positions the pending orders and the trigger orders
are read, and the recovered positions of each symbol are taken for a pair. The
source groups the positions by a hash map; the symbols stand here in the order
in which they last appear. The result is also kept for a later reading, which
no step of the recovery uses.
-/

set_option autoImplicit false

namespace TB.FullRecovery
open TB.CommonTypes TB.PortfolioEngine TB.ReconciliationTypes TB.RecoveryService TB.RecoveryTruth

inductive PendingResolution where
  | adopted
  | needsCancel

structure RecoveredPendingOrder (F : Type) where
  orderId : OrderId
  symbol : Symbol
  side : Side
  positionSide : PositionSide
  price : F
  remainingQty : F
  isReduceOnly : Bool
  exchangeOrderId : OrderId
  resolution : PendingResolution

inductive TriggerResolution where
  | verifiedActive
  | orphanTrigger

structure RecoveredProtectiveOrder (F : Type) where
  orderId : OrderId
  symbol : Symbol
  positionSide : PositionSide
  triggerPrice : F
  isTp : Bool
  stillActive : Bool
  resolution : TriggerResolution

inductive InferredState where
  | primaryPlusHedge
  | primaryOnly
  | unknown
  deriving DecidableEq

structure RecoveredPairState (F : Type) where
  symbol : Symbol
  hasPrimary : Bool
  hasHedge : Bool
  primarySide : Side
  primarySize : F
  hedgeSize : F
  primaryEntryPrice : F
  hedgeEntryPrice : F
  inferredState : InferredState
  deriving DecidableEq

structure ExtendedRecoveryResult (F : Type) where
  base : RecoveryResult F
  pendingOrders : List (RecoveredPendingOrder F)
  protectiveOrders : List (RecoveredProtectiveOrder F)
  pairStates : List (RecoveredPairState F)
  pendingOrdersAdopted : ℕ
  pendingOrdersCancelled : ℕ
  protectiveOrdersVerified : ℕ
  pairStatesRestored : ℕ

section Model
variable {F : Type} [DoubleArith F]

def recoveredPending (ord : ExchangeOrderInfo F) : RecoveredPendingOrder F where
  orderId := ord.orderId
  symbol := ord.symbol
  side := ord.side
  positionSide :=
    match ord.tradeSide with
    | .opening => if ord.side = .buy then .long else .short
    | .closing => if ord.side = .buy then .short else .long
  price := ord.price
  remainingQty := ord.originalQuantity - ord.filledQuantity
  isReduceOnly := ord.tradeSide = .closing
  exchangeOrderId := ord.clientOrderId
  resolution := if ord.tradeSide = .closing then .adopted else .needsCancel

def addPending (ext : ExtendedRecoveryResult F) (ord : ExchangeOrderInfo F) :
    ExtendedRecoveryResult F :=
  let rpo := recoveredPending ord
  { ext with
    pendingOrders := ext.pendingOrders ++ [rpo]
    pendingOrdersAdopted := ext.pendingOrdersAdopted + if rpo.isReduceOnly then 1 else 0
    pendingOrdersCancelled := ext.pendingOrdersCancelled + if rpo.isReduceOnly then 0 else 1 }

def warnBase (ext : ExtendedRecoveryResult F) : ExtendedRecoveryResult F :=
  { ext with base := { ext.base with warnings := ext.base.warnings + 1 } }

def addTrigger (ext : ExtendedRecoveryResult F) (trig : ExchangeOrderInfo F) :
    ExtendedRecoveryResult F :=
  let leg : PositionSide := if trig.side = .sell then .long else .short
  let isClosingLong := decide (trig.side = .sell ∧ leg = .long)
  let isClosingShort := decide (trig.side = .buy ∧ leg = .short)
  let rpr := fun resolution : TriggerResolution =>
    RecoveredProtectiveOrder.mk trig.orderId trig.symbol leg trig.price false true resolution
  if isClosingLong || isClosingShort then
    { ext with
      protectiveOrders := ext.protectiveOrders ++ [rpr .verifiedActive]
      protectiveOrdersVerified := ext.protectiveOrdersVerified + 1 }
  else
    warnBase { ext with protectiveOrders := ext.protectiveOrders ++ [rpr .orphanTrigger] }

def newPair (symbol : Symbol) : RecoveredPairState F :=
  ⟨symbol, false, false, .buy, 0, 0, 0, 0, .unknown⟩

def addLeg (rps : RecoveredPairState F) (pos : RecoveredPosition F) : RecoveredPairState F :=
  match pos.side with
  | .buy =>
    { rps with
      hasPrimary := true
      primarySide := .buy
      primarySize := pos.size
      primaryEntryPrice := pos.avgEntryPrice }
  | .sell =>
    if rps.hasPrimary then
      { rps with
        hasHedge := true
        hedgeSize := pos.size
        hedgeEntryPrice := pos.avgEntryPrice }
    else
      { rps with
        hasPrimary := true
        primarySide := .sell
        primarySize := pos.size
        primaryEntryPrice := pos.avgEntryPrice }

def inferState (rps : RecoveredPairState F) : InferredState :=
  if rps.hasPrimary && rps.hasHedge then .primaryPlusHedge
  else if rps.hasPrimary then .primaryOnly else .unknown

def inferPair (symbol : Symbol) (positions : List (RecoveredPosition F)) :
    RecoveredPairState F :=
  let rps := positions.foldl addLeg (newPair symbol)
  { rps with inferredState := inferState rps }

def inferPairs (positions : List (RecoveredPosition F)) : List (RecoveredPairState F) :=
  (positions.map (·.symbol)).dedup.map
    (fun symbol => inferPair symbol (positions.filter (fun pos => pos.symbol = symbol)))

structure OrderAnswers (F : Type) where
  openOrders : Option (List (ExchangeOrderInfo F))
  triggerOrders : Option (List (ExchangeOrderInfo F))

def newExtended (base : RecoveryResult F) : ExtendedRecoveryResult F :=
  ⟨base, [], [], [], 0, 0, 0, 0⟩

def recoverFullState (cfg : RecoveryConfig F) (store : PersistenceLayer F)
    (answers : ExchangeAnswers F) (orders : OrderAnswers F) (now finished : Timestamp)
    (s : Recovery F) : Recovery F × ExtendedRecoveryResult F :=
  let s := recoverOnStartup cfg store answers now finished s
  let ext := newExtended s.lastResult
  if s.lastResult.status = .failed then (s, ext)
  else
    let ext := match orders.openOrders with
      | some found => found.foldl addPending ext
      | none => warnBase ext
    let ext := match orders.triggerOrders with
      | some found => found.foldl addTrigger ext
      | none => warnBase ext
    let pairs := inferPairs ext.base.recoveredPositions
    (s, { ext with
      pairStates := pairs
      pairStatesRestored := pairs.length
      base := { ext.base with status := finalizeStatus ext.base.errors ext.base.warnings } })

end Model

section Pairs
variable {F : Type} [DoubleArith F]

structure OpenLeg (F : Type) where
  symbol : Symbol
  side : Side
  size : F
  price : F

def recoveredLeg (pos : RecoveredPosition F) : OpenLeg F :=
  ⟨pos.symbol, pos.side, pos.size, pos.avgEntryPrice⟩

def listedLeg (info : ExchangeOpenPositionInfo F) : OpenLeg F :=
  ⟨info.symbol, info.side, info.size, info.entryPrice⟩

def legsAt (legs : List (OpenLeg F)) (symbol : Symbol) : List (OpenLeg F) :=
  legs.filter (fun leg => leg.symbol = symbol)

def legOn (legs : List (OpenLeg F)) (symbol : Symbol) (side : Side) : Option (OpenLeg F) :=
  (legsAt legs symbol).find? (fun leg => leg.side = side)

def OnePerSide (legs : List (OpenLeg F)) : Prop :=
  legs.Pairwise (fun a b => a.symbol = b.symbol → a.side ≠ b.side)

def LongFirst (legs : List (OpenLeg F)) : Prop :=
  legs.Pairwise (fun a b => a.symbol = b.symbol → ¬ (a.side = .sell ∧ b.side = .buy))

def expectedPair (legs : List (OpenLeg F)) (symbol : Symbol) : Option (RecoveredPairState F) :=
  match legOn legs symbol .buy, legOn legs symbol .sell with
  | some long, some short =>
    some ⟨symbol, true, true, .buy, long.size, short.size, long.price, short.price,
      .primaryPlusHedge⟩
  | some long, none =>
    some ⟨symbol, true, false, .buy, long.size, 0, long.price, 0, .primaryOnly⟩
  | none, some short =>
    some ⟨symbol, true, false, .sell, short.size, 0, short.price, 0, .primaryOnly⟩
  | none, none => none

def pairAt (pairs : List (RecoveredPairState F)) (symbol : Symbol) :
    Option (RecoveredPairState F) :=
  pairs.find? (fun rps => rps.symbol = symbol)

omit [DoubleArith F] in
theorem addLeg_symbol (rps : RecoveredPairState F) (pos : RecoveredPosition F) :
    (addLeg rps pos).symbol = rps.symbol := by
  unfold addLeg
  cases pos.side with
  | buy => rfl
  | sell =>
    dsimp only
    split_ifs <;> rfl

theorem inferPair_symbol (symbol : Symbol) (positions : List (RecoveredPosition F)) :
    (inferPair symbol positions).symbol = symbol := by
  have hfold : ∀ rps : RecoveredPairState F,
      (positions.foldl addLeg rps).symbol = rps.symbol := by
    induction positions with
    | nil => exact fun _ => rfl
    | cons pos positions ih => exact fun rps => (ih _).trans (addLeg_symbol rps pos)
  exact hfold (newPair symbol)

/-- The pair of a symbol is inferred from the positions of that symbol. -/
theorem pairAt_inferPairs (positions : List (RecoveredPosition F)) (symbol : Symbol) :
    pairAt (inferPairs positions) symbol =
      if positions.filter (fun pos => pos.symbol = symbol) = [] then none
      else some (inferPair symbol (positions.filter (fun pos => pos.symbol = symbol))) := by
  have hmem : (positions.filter (fun pos => pos.symbol = symbol) = []) ↔
      symbol ∉ (positions.map (·.symbol)).dedup := by
    simp [List.filter_eq_nil_iff]
  have hfind : ∀ symbols : List Symbol, pairAt (symbols.map (fun sym =>
      inferPair sym (positions.filter (fun pos => pos.symbol = sym)))) symbol =
        if symbol ∈ symbols then
          some (inferPair symbol (positions.filter (fun pos => pos.symbol = symbol)))
        else none := by
    intro symbols
    induction symbols with
    | nil => rfl
    | cons sym symbols ih =>
      rw [pairAt, List.map_cons, List.find?_cons, inferPair_symbol]
      by_cases hsym : sym = symbol
      · simp [hsym]
      · have hne : ¬ symbol = sym := Ne.symm hsym
        simp only [hsym, decide_false, List.mem_cons, hne, false_or]
        exact ih
  rw [inferPairs, hfind, ← ite_not]
  exact if_congr hmem.symm rfl rfl

theorem two_sides {a b c : Side} (hab : a ≠ b) (hac : a ≠ c) : b = c := by
  cases a <;> cases b <;> cases c <;> simp at hab hac ⊢

theorem inferPair_expected_iff (symbol : Symbol) (ps : List (RecoveredPosition F))
    (hsym : ∀ pos ∈ ps, pos.symbol = symbol) (hone : ps.Pairwise (fun a b => a.side ≠ b.side)) :
    (if ps = [] then none else some (inferPair symbol ps)) =
        expectedPair (ps.map recoveredLeg) symbol ↔
      ps.Pairwise (fun a b => ¬ (a.side = .sell ∧ b.side = .buy)) := by
  match ps with
  | [] => simp [expectedPair, legOn, legsAt]
  | [a] =>
    have ha : a.symbol = symbol := hsym a (by simp)
    rcases hs : a.side <;>
      simp [inferPair, addLeg, newPair, inferState, expectedPair, legOn, legsAt, recoveredLeg, ha,
        hs]
  | [a, b] =>
    have ha : a.symbol = symbol := hsym a (by simp)
    have hb : b.symbol = symbol := hsym b (by simp)
    have hne : a.side ≠ b.side := by simpa using hone
    rcases hs : a.side <;> rcases ht : b.side <;>
      simp [inferPair, addLeg, newPair, inferState, expectedPair, legOn, legsAt, recoveredLeg, ha,
        hb, hs, ht] at hne ⊢
  | a :: b :: c :: rest =>
    simp only [List.pairwise_cons, List.mem_cons] at hone
    have hab := hone.1 b (.inl rfl)
    have hac := hone.1 c (.inr (.inl rfl))
    have hbc := hone.2.1 c (.inl rfl)
    exact absurd (two_sides hab hac) hbc

omit [DoubleArith F] in
theorem legsAt_recovered (rs : List (RecoveredPosition F)) (symbol : Symbol) :
    legsAt (rs.map recoveredLeg) symbol =
      (rs.filter (fun pos => pos.symbol = symbol)).map recoveredLeg := by
  rw [legsAt, List.filter_map]
  rfl

theorem expectedPair_legsAt (legs : List (OpenLeg F)) (symbol : Symbol) :
    expectedPair (legsAt legs symbol) symbol = expectedPair legs symbol := by
  have hat : legsAt (legsAt legs symbol) symbol = legsAt legs symbol := by
    simp [legsAt, List.filter_filter]
  unfold expectedPair legOn
  rw [hat]

theorem inferPairs_expected_iff (rs : List (RecoveredPosition F))
    (hone : OnePerSide (rs.map recoveredLeg)) :
    (∀ symbol, pairAt (inferPairs rs) symbol = expectedPair (rs.map recoveredLeg) symbol) ↔
      LongFirst (rs.map recoveredLeg) := by
  have hsides : rs.Pairwise (fun a b => a.symbol = b.symbol → a.side ≠ b.side) :=
    List.pairwise_map.mp hone
  have hat : ∀ symbol, pairAt (inferPairs rs) symbol =
        expectedPair (rs.map recoveredLeg) symbol ↔
      (rs.filter (fun pos => pos.symbol = symbol)).Pairwise
        (fun a b => ¬ (a.side = .sell ∧ b.side = .buy)) := by
    intro symbol
    rw [pairAt_inferPairs, ← expectedPair_legsAt, legsAt_recovered]
    apply inferPair_expected_iff
    · intro pos hpos
      simpa using (List.mem_filter.mp hpos).2
    · rw [List.pairwise_filter]
      refine hsides.imp ?_
      intro a b hab ha hb
      simp only [decide_eq_true_eq] at ha hb
      exact hab (ha.trans hb.symm)
  have hlong : LongFirst (rs.map recoveredLeg) ↔
      ∀ symbol, (rs.filter (fun pos => pos.symbol = symbol)).Pairwise
        (fun a b => ¬ (a.side = .sell ∧ b.side = .buy)) := by
    rw [LongFirst, List.pairwise_map]
    simp only [List.pairwise_filter, decide_eq_true_eq]
    constructor
    · intro h symbol
      exact h.imp (fun hab ha hb => hab (ha.trans hb.symm))
    · intro h
      rw [List.pairwise_iff_forall_sublist]
      intro a b hsub heq
      exact (List.pairwise_iff_forall_sublist.mp (h a.symbol)) hsub rfl heq.symm
  rw [hlong]
  exact forall_congr' hat

omit [DoubleArith F] in
theorem find_perm (xs ys : List (OpenLeg F)) (q : OpenLeg F → Bool) (h : xs.Perm ys)
    (hone : xs.Pairwise (fun a b => ¬ (q a = true ∧ q b = true))) :
    xs.find? q = ys.find? q := by
  rw [← List.head?_filter, ← List.head?_filter]
  have hperm : (xs.filter q).Perm (ys.filter q) := h.filter q
  have hshort : (xs.filter q).Pairwise (fun _ _ => False) := by
    rw [List.pairwise_filter]
    exact hone.imp (fun hab ha hb => hab ⟨ha, hb⟩)
  match hf : xs.filter q with
  | [] =>
    rw [hf] at hperm
    rw [List.nil_perm.mp hperm]
  | [a] =>
    rw [hf] at hperm
    rw [List.singleton_perm.mp hperm]
  | a :: b :: rest =>
    rw [hf] at hshort
    exact ((List.pairwise_cons.mp hshort).1 b (by simp)).elim

theorem expectedPair_perm (legs legs' : List (OpenLeg F)) (h : legs.Perm legs')
    (hone : OnePerSide legs) (symbol : Symbol) :
    expectedPair legs symbol = expectedPair legs' symbol := by
  have hon : ∀ side, legOn legs symbol side = legOn legs' symbol side := by
    intro side
    apply find_perm _ _ _ (h.filter _)
    rw [List.pairwise_filter]
    refine hone.imp ?_
    intro a b hab ha hb hsides
    simp only [decide_eq_true_eq] at ha hb hsides
    exact hab (ha.trans hb.symm) (hsides.1.trans hsides.2.symm)
  unfold expectedPair
  rw [hon, hon]

end Pairs

section Startup
variable {F : Type} [DoubleArith F]

def openLegs (cfg : RecoveryConfig F) (infos : List (ExchangeOpenPositionInfo F)) :
    List (OpenLeg F) :=
  (infos.filter (accepted cfg)).map listedLeg

variable (cfg : RecoveryConfig F) (now : Timestamp)

theorem syncPosition_leg (s : Recovery F) (info : ExchangeOpenPositionInfo F) :
    recoveredLeg (syncPosition cfg now s info).2 = listedLeg info ∧
      (syncPosition cfg now s info).1.lastResult.errors = s.lastResult.errors := by
  unfold syncPosition
  dsimp only
  split
  · split_ifs
    · split <;> exact ⟨rfl, rfl⟩
    · exact ⟨rfl, rfl⟩
    · exact ⟨rfl, rfl⟩
  · split_ifs <;> exact ⟨rfl, rfl⟩

theorem syncPositions_legs (infos : List (ExchangeOpenPositionInfo F)) (s : Recovery F) :
    (syncPositions cfg now s infos).2.map recoveredLeg = openLegs cfg infos ∧
      (syncPositions cfg now s infos).1.lastResult.errors = s.lastResult.errors := by
  induction infos generalizing s with
  | nil => exact ⟨rfl, rfl⟩
  | cons info infos ih =>
    have hskip : (!matchesSymbolFilter cfg info.symbol || isDust cfg info) =
        !accepted cfg info := by
      simp [accepted]
    simp only [syncPositions, hskip]
    by_cases ha : accepted cfg info = true
    · obtain ⟨hleg, herrors⟩ := syncPosition_leg cfg now s info
      obtain ⟨ihlegs, iherrors⟩ := ih (syncPosition cfg now s info).1
      simp only [ha, Bool.not_true, Bool.false_eq_true, if_false, List.map_cons, openLegs,
        List.filter_cons_of_pos ha]
      exact ⟨by rw [hleg, ihlegs, openLegs], by rw [iherrors, herrors]⟩
    · simp only [ha, Bool.not_false, if_true, openLegs, List.filter_cons_of_neg ha]
      exact ih s

theorem syncPositionsFromExchange_legs
    (balances : List (ExchangePositionInfo F)) (infos : List (ExchangeOpenPositionInfo F))
    (s : Recovery F) :
    let synced := syncPositionsFromExchange cfg ⟨some balances, some infos⟩ now s
    synced.2.1.map recoveredLeg = openLegs cfg infos ∧
      synced.1.lastResult.errors = s.lastResult.errors ∧ synced.2.2 = balances := by
  cases infos with
  | nil => exact ⟨rfl, rfl, rfl⟩
  | cons info infos =>
    obtain ⟨hlegs, herrors⟩ := syncPositions_legs cfg now (info :: infos) s
    exact ⟨hlegs, herrors, rfl⟩

/-- Reading the balance keeps what was recovered, and only a missing one is an error. -/
theorem extractUsdtBalance_kept (balances : List (ExchangePositionInfo F)) (s : Recovery F) :
    (extractUsdtBalance balances s).1.lastResult.recoveredPositions =
        s.lastResult.recoveredPositions ∧
      (extractUsdtBalance balances s).1.lastResult.errors = s.lastResult.errors +
        if balances.find? (fun info => info.symbol = kUsdtSymbol) = none then 1 else 0 := by
  rcases hfound : balances.find? (fun info => info.symbol = kUsdtSymbol) with _ | info
  · simp only [extractUsdtBalance, hfound]
    exact ⟨rfl, rfl⟩
  · simp only [extractUsdtBalance, hfound, reduceCtorEq, if_false, Nat.add_zero]
    split_ifs
    · exact ⟨rfl, rfl⟩
    · exact ⟨rfl, rfl⟩

theorem finalizeStatus_failed (errors warnings : ℕ) :
    finalizeStatus errors warnings = .failed ↔ 0 < errors := by
  unfold finalizeStatus
  split_ifs with h <;> simp [h]

theorem syncWithExchange_legs (now finished : Timestamp)
    (balances : List (ExchangePositionInfo F)) (infos : List (ExchangeOpenPositionInfo F))
    (s : Recovery F) :
    (syncWithExchange cfg ⟨some balances, some infos⟩ now finished
        s).lastResult.recoveredPositions.map recoveredLeg = openLegs cfg infos ∧
      ((syncWithExchange cfg ⟨some balances, some infos⟩ now finished
        s).lastResult.status = .failed ↔ 0 < s.lastResult.errors ∨
          balances.find? (fun info => info.symbol = kUsdtSymbol) = none) := by
  obtain ⟨hlegs, herrors, hbalances⟩ := syncPositionsFromExchange_legs cfg now balances infos s
  simp only [syncWithExchange, finish, hbalances, finalizeStatus_failed]
  obtain ⟨hkept, hread⟩ := extractUsdtBalance_kept balances
    { (syncPositionsFromExchange cfg ⟨some balances, some infos⟩ now s).1 with
      lastResult := { (syncPositionsFromExchange cfg ⟨some balances, some infos⟩ now
        s).1.lastResult with recoveredPositions :=
          (syncPositionsFromExchange cfg ⟨some balances, some infos⟩ now s).2.1 } }
  refine ⟨?_, ?_⟩
  · rw [hkept]
    exact hlegs
  · rw [hread]
    dsimp only
    rw [herrors]
    split_ifs with hnone
    · simp [hnone]
    · simp [hnone]

variable (store : PersistenceLayer F)

theorem recoverOnStartup_cases
    (now finished : Timestamp) (s : Recovery F) (hon : cfg.enabled = true) :
    (∃ t, ∀ answers, recoverOnStartup cfg store answers now finished s =
      syncWithExchange cfg answers now finished t) ∨
    ∀ answers, (recoverOnStartup cfg store answers now finished s).lastResult.status =
      .failed := by
  unfold recoverOnStartup
  simp only [hon, Bool.not_true, Bool.false_eq_true, if_false]
  split_ifs
  · exact .inl ⟨_, fun _ => rfl⟩
  · exact .inr (fun _ => rfl)
  · exact .inl ⟨_, fun _ => rfl⟩
  · exact .inl ⟨_, fun _ => rfl⟩

theorem recoverFullState_pairs
    (answers : ExchangeAnswers F) (orders : OrderAnswers F) (now finished : Timestamp)
    (s : Recovery F)
    (hok : (recoverOnStartup cfg store answers now finished s).lastResult.status ≠ .failed) :
    (recoverFullState cfg store answers orders now finished s).2.pairStates =
      inferPairs (recoverOnStartup cfg store answers now finished
        s).lastResult.recoveredPositions := by
  have hpending : ∀ (found : List (ExchangeOrderInfo F)) (ext : ExtendedRecoveryResult F),
      (found.foldl addPending ext).base = ext.base := by
    intro found
    induction found with
    | nil => exact fun _ => rfl
    | cons ord found ih => exact fun ext => ih (addPending ext ord)
  have htrigger : ∀ (found : List (ExchangeOrderInfo F)) (ext : ExtendedRecoveryResult F),
      (found.foldl addTrigger ext).base.recoveredPositions = ext.base.recoveredPositions := by
    intro found
    induction found with
    | nil => exact fun _ => rfl
    | cons trig found ih =>
      intro ext
      refine (ih (addTrigger ext trig)).trans ?_
      unfold addTrigger
      dsimp only
      split_ifs <;> rfl
  unfold recoverFullState
  simp only [if_neg hok]
  congr 1
  rcases orders.triggerOrders with _ | triggers
  · rcases orders.openOrders with _ | found
    · rfl
    · simp only [warnBase, hpending]
      rfl
  · rcases orders.openOrders with _ | found
    · simp only [htrigger]
      rfl
    · simp only [htrigger, hpending]
      rfl

/-- Whether the recovery fails is not decided by the open positions; one that
does not fail recovers the open legs. -/
theorem recoverOnStartup_legs
    (balances : List (ExchangePositionInfo F)) (now finished : Timestamp) (s : Recovery F)
    (hon : cfg.enabled = true) (infos : List (ExchangeOpenPositionInfo F))
    (hok : (recoverOnStartup cfg store ⟨some balances, some infos⟩ now finished
      s).lastResult.status ≠ .failed) (infos' : List (ExchangeOpenPositionInfo F)) :
    (recoverOnStartup cfg store ⟨some balances, some infos'⟩ now finished
        s).lastResult.status ≠ .failed ∧
      (recoverOnStartup cfg store ⟨some balances, some infos'⟩ now finished
        s).lastResult.recoveredPositions.map recoveredLeg = openLegs cfg infos' := by
  rcases recoverOnStartup_cases cfg store now finished s hon with ⟨t, ht⟩ | hfail
  · have hleft := syncWithExchange_legs cfg now finished balances infos t
    have hright := syncWithExchange_legs cfg now finished balances infos' t
    rw [ht] at hok ⊢
    refine ⟨?_, hright.1⟩
    rw [Ne, hright.2]
    rwa [Ne, hleft.2] at hok
  · exact absurd (hfail _) hok

/-- The pairs do not depend on the order of the answer, and are the open ones,
exactly when both orders list every long before the short of its symbol. -/
theorem pairs_order_iff (cfg : RecoveryConfig F) (store : PersistenceLayer F)
    (balances : List (ExchangePositionInfo F)) (orders : OrderAnswers F)
    (now finished : Timestamp) (s : Recovery F) (infos infos' : List (ExchangeOpenPositionInfo F))
    (hon : cfg.enabled = true)
    (hok : (recoverOnStartup cfg store ⟨some balances, some infos⟩ now finished
      s).lastResult.status ≠ .failed)
    (hperm : infos.Perm infos') (hone : OnePerSide (infos.map listedLeg)) :
    let pairs := fun listed =>
      (recoverFullState cfg store ⟨some balances, some listed⟩ orders now finished
        s).2.pairStates
    (∀ symbol, pairAt (pairs infos) symbol = pairAt (pairs infos') symbol ∧
        pairAt (pairs infos) symbol = expectedPair (openLegs cfg infos) symbol) ↔
      LongFirst (openLegs cfg infos) ∧ LongFirst (openLegs cfg infos') := by
  intro pairs
  have hopen : (openLegs cfg infos).Perm (openLegs cfg infos') :=
    (hperm.filter (accepted cfg)).map listedLeg
  have hsides : OnePerSide (openLegs cfg infos) :=
    List.Pairwise.sublist (List.filter_sublist.map listedLeg) hone
  have hsides' : OnePerSide (openLegs cfg infos') := by
    refine (List.Perm.pairwise_iff ?_ hopen).mp hsides
    exact fun {a b} hab hba => (hab hba.symm).symm
  have hpairs : ∀ listed, OnePerSide (openLegs cfg listed) →
      ((∀ symbol, pairAt (pairs listed) symbol = expectedPair (openLegs cfg listed) symbol) ↔
        LongFirst (openLegs cfg listed)) := by
    intro listed hlisted
    obtain ⟨hstatus, hlegs⟩ := recoverOnStartup_legs cfg store balances now finished s hon infos
      hok listed
    have hinfer : pairs listed = inferPairs (recoverOnStartup cfg store
        ⟨some balances, some listed⟩ now finished s).lastResult.recoveredPositions :=
      recoverFullState_pairs cfg store _ orders now finished s hstatus
    rw [hinfer, ← hlegs]
    apply inferPairs_expected_iff
    rw [hlegs]
    exact hlisted
  rw [← hpairs infos hsides, ← hpairs infos' hsides']
  constructor
  · intro h
    refine ⟨fun symbol => (h symbol).2, fun symbol => ?_⟩
    rw [← (h symbol).1, (h symbol).2, expectedPair_perm _ _ hopen hsides]
  · rintro ⟨h, h'⟩ symbol
    refine ⟨?_, h symbol⟩
    rw [h, h', expectedPair_perm _ _ hopen hsides]

def hedgedLong : ExchangeOpenPositionInfo ℚ := ⟨"BTCUSDT", .buy, .long, 2, 100, 100, 200, 0⟩

def hedgingShort : ExchangeOpenPositionInfo ℚ := ⟨"BTCUSDT", .sell, .short, 1, 100, 100, 100, 0⟩

def pairsListed (infos : List (ExchangeOpenPositionInfo ℚ)) : List (RecoveredPairState ℚ) :=
  (recoverFullState ⟨true, false, 5, ""⟩ ⟨false, ⟨[], 0⟩, none, true⟩
    ⟨some [⟨"USDT", 1000, 0, 1000⟩], some infos⟩ ⟨some [], some []⟩ 7 9
    ⟨initPortfolio 1000, newResult .notStarted⟩).2.pairStates

theorem pairs_order_iff_hedged :
    (∀ symbol, pairAt (pairsListed [hedgedLong, hedgingShort]) symbol =
        pairAt (pairsListed [hedgingShort, hedgedLong]) symbol ∧
      pairAt (pairsListed [hedgedLong, hedgingShort]) symbol =
        expectedPair (openLegs ⟨true, false, 5, ""⟩ [hedgedLong, hedgingShort]) symbol) ↔
      LongFirst (openLegs ⟨true, false, 5, ""⟩ [hedgedLong, hedgingShort]) ∧
        LongFirst (openLegs ⟨true, false, 5, ""⟩ [hedgingShort, hedgedLong]) :=
  pairs_order_iff ⟨true, false, 5, ""⟩ ⟨false, ⟨[], 0⟩, none, true⟩ [⟨"USDT", 1000, 0, 1000⟩]
    ⟨some [], some []⟩ 7 9 ⟨initPortfolio 1000, newResult .notStarted⟩
    [hedgedLong, hedgingShort] [hedgingShort, hedgedLong] rfl (by decide +kernel) (.swap _ _ _)
    (by simp [OnePerSide, listedLeg, hedgedLong, hedgingShort])

/-- With the short first a hedged pair is recovered as a lone long. -/
theorem short_first_loses_hedge :
    pairAt (pairsListed [hedgingShort, hedgedLong]) "BTCUSDT" =
        some ⟨"BTCUSDT", true, false, .buy, 2, 0, 100, 0, .primaryOnly⟩ ∧
      pairAt (pairsListed [hedgingShort, hedgedLong]) "BTCUSDT" ≠
        pairAt (pairsListed [hedgedLong, hedgingShort]) "BTCUSDT" := by
  decide +kernel

end Startup

end TB.FullRecovery
