import TomorrowBot.OrphanCleanup

/-!
# The two orders of a bracket

The take-profit and the stop-loss of a bracket are treated alike. Each section
of a verification keeps the position of the bracket and says which orders it
remembers afterwards; recovery fills both places from the listed orders.
-/

set_option autoImplicit false

namespace TB.BracketOrders
open TB.CommonTypes TB.ProtectiveBracketManager

inductive Role where
  | takeProfit
  | stopLoss
  deriving DecidableEq, Repr

instance (P : Role → Prop) [DecidablePred P] : Decidable (∀ role, P role) :=
  decidable_of_iff (P .takeProfit ∧ P .stopLoss)
    ⟨fun h role => match role with
      | .takeProfit => h.1
      | .stopLoss => h.2,
      fun h => ⟨h _, h _⟩⟩

section Places
variable {F : Type} [DoubleArith F]

def roleId : Role → BracketState F → OrderId
  | .takeProfit, b => b.tpOrderId
  | .stopLoss, b => b.slOrderId

def rolePrice : Role → BracketState F → F
  | .takeProfit, b => b.tpPrice
  | .stopLoss, b => b.slPrice

def roleKind : Role → PlanOrderKind
  | .takeProfit => .profitPlan
  | .stopLoss => .lossPlan

def roleOrder : Role → PlanOrderInfo F → Bool
  | .takeProfit => isProfitOrder
  | .stopLoss => isLossOrder

def roleMatch : Role → BracketState F → PlanOrderInfo F → Bool
  | .takeProfit => isTpOrder
  | .stopLoss => isSlOrder

def foundId : Role → FoundOrders → OrderId
  | .takeProfit, found => found.tpId
  | .stopLoss, found => found.slId

def firstMatch (role : Role) (symbol : Symbol) (ps : PositionSide) (b : BracketState F)
    (plans : List (PlanOrderInfo F)) : Option (PlanOrderInfo F) :=
  plans.find? (fun p => isLegOrder symbol ps p && roleMatch role b p && p.orderId != "")

def HasOrder (role : Role) (symbol : Symbol) (ps : PositionSide)
    (plans : List (PlanOrderInfo F)) : Prop :=
  ∃ p, newest (roleOrder role) symbol ps plans = some p ∧ p.orderId ≠ ""

structure Listing (cfg : ProtectiveBracketConfig) (ex : PlanExchange F) (now : Timestamp)
    (symbol : Symbol) (ps : PositionSide) (brackets : Dict (BracketState F))
    (copy : BracketState F) (plans : List (PlanOrderInfo F)) : Prop where
  active : activeBracket brackets (makeKey symbol ps) = some copy
  allowed : mayVerify cfg now copy = true
  listed : ex.getOpenPlanOrders symbol = some plans

structure SamePosition (b c : BracketState F) : Prop where
  symbol : c.symbol = b.symbol
  side : c.positionSide = b.positionSide
  price : ∀ role, rolePrice role c = rolePrice role b

variable (role : Role) (symbol : Symbol) (ps : PositionSide) (b : BracketState F)

variable (found : FoundOrders)

theorem foundId_findStep (p : PlanOrderInfo F) : foundId role (findStep symbol ps b found p) =
      if isLegOrder symbol ps p = true ∧ roleMatch role b p = true ∧ foundId role found = "" then
        p.orderId
      else foundId role found := by
  unfold findStep
  by_cases hl : isLegOrder symbol ps p = true
  · cases role <;> by_cases ht : isTpOrder b p = true <;> by_cases hs : isSlOrder b p = true <;>
      by_cases htp : found.tpId = "" <;> by_cases hsl : found.slId = "" <;>
      simp [hl, ht, hs, htp, hsl, foundId, roleMatch]
  · simp [hl]

variable (plans : List (PlanOrderInfo F))

theorem findSteps (found : FoundOrders) : foundId role (plans.foldl (findStep symbol ps b) found) =
      if foundId role found = "" then
        (firstMatch role symbol ps b plans).elim "" (fun p => p.orderId)
      else foundId role found := by
  induction plans generalizing found with
  | nil => by_cases h : foundId role found = "" <;> simp [h, firstMatch]
  | cons p plans ih =>
    rw [List.foldl_cons, ih, foundId_findStep]
    by_cases hf : foundId role found = ""
    · by_cases hm : isLegOrder symbol ps p = true ∧ roleMatch role b p = true
      · by_cases hid : p.orderId = "" <;> simp [hf, hm, hid, firstMatch]
      · rcases not_and_or.mp hm with hm | hm <;> simp [hf, hm, firstMatch]
    · simp [hf]

theorem foundId_findOrders : foundId role (findOrders symbol ps b plans) =
      (firstMatch role symbol ps b plans).elim "" (fun p => p.orderId) := by
  rw [findOrders, findSteps, if_pos (by cases role <;> rfl)]

theorem found_order (h : foundId role (findOrders symbol ps b plans) ≠ "") :
    ∃ p ∈ plans, firstMatch role symbol ps b plans = some p ∧
      foundId role (findOrders symbol ps b plans) = p.orderId ∧
      isLegOrder symbol ps p = true ∧ roleMatch role b p = true := by
  rw [foundId_findOrders] at *
  cases hfirst : firstMatch role symbol ps b plans with
  | none => simp [hfirst] at h
  | some p =>
    have hp := List.find?_some hfirst
    simp only [Bool.and_eq_true] at hp
    exact ⟨p, List.mem_of_find?_eq_some hfirst, rfl, rfl, hp.1.1, hp.1.2⟩

theorem roleMatch_price (p : PlanOrderInfo F)
    (h : roleMatch role b p = true) : pricesMatch p.triggerPrice (rolePrice role b) = true := by
  cases role with
  | takeProfit | stopLoss => exact (Bool.and_eq_true_iff.mp h).2

omit [DoubleArith F] in
theorem newer_cases (best : Option (PlanOrderInfo F)) (p q : PlanOrderInfo F)
    (h : newer best p = some q) : q = p ∨ best = some q := by
  cases best with
  | none => exact .inl (Option.some.inj h).symm
  | some r =>
    unfold newer at h
    dsimp only at h
    split_ifs at h
    · exact .inl (Option.some.inj h).symm
    · exact .inr h

omit [DoubleArith F] in
theorem newest_mem (select : PlanOrderInfo F → Bool) (symbol : Symbol) (ps : PositionSide)
    (plans : List (PlanOrderInfo F)) (q : PlanOrderInfo F)
    (h : newest select symbol ps plans = some q) :
    q ∈ plans ∧ isLegOrder symbol ps q = true ∧ select q = true := by
  have hfold : ∀ (l : List (PlanOrderInfo F)) best, l.foldl newer best = some q →
      q ∈ l ∨ best = some q := by
    intro l
    induction l with
    | nil => exact fun best hb => .inr hb
    | cons p l ih =>
      intro best hb
      rcases ih _ hb with hq | hq
      · exact .inl (List.mem_cons_of_mem p hq)
      · rcases newer_cases best p q hq with rfl | hq
        · exact .inl List.mem_cons_self
        · exact .inr hq
  rcases hfold _ none h with hq | hq
  · obtain ⟨hmem, hsel⟩ := List.mem_filter.mp hq
    exact ⟨hmem, Bool.and_eq_true_iff.mp hsel⟩
  · cases hq

omit [DoubleArith F] in
theorem same_refl : SamePosition b b := ⟨rfl, rfl, fun _ => rfl⟩

omit [DoubleArith F] in
theorem same_trans {b c d : BracketState F} (h : SamePosition b c) (k : SamePosition c d) :
    SamePosition b d :=
  ⟨k.symbol.trans h.symbol, k.side.trans h.side, fun role => (k.price role).trans (h.price role)⟩

omit [DoubleArith F] in
theorem adoptTp_same (b : BracketState F) : SamePosition b (adoptTp found b) := by
  unfold adoptTp
  by_cases h : found.tpId ≠ "" ∧ b.tpOrderId = ""
  · rw [if_pos h]
    exact ⟨rfl, rfl, fun role => by cases role <;> rfl⟩
  · rw [if_neg h]
    exact same_refl b

omit [DoubleArith F] in
theorem adoptSl_same (b : BracketState F) : SamePosition b (adoptSl found b) := by
  unfold adoptSl
  by_cases h : found.slId ≠ "" ∧ b.slOrderId = ""
  · rw [if_pos h]
    exact ⟨rfl, rfl, fun role => by cases role <;> rfl⟩
  · rw [if_neg h]
    exact same_refl b

def counted (now : Timestamp) (b : BracketState F) : BracketState F :=
  { b with verifyAttempts := b.verifyAttempts + 1, lastVerifiedAtNs := now }

theorem writeBack_same (now : Timestamp) (found : FoundOrders) (b : BracketState F) :
    SamePosition b (writeBack now found b) := by
  have hcounted : SamePosition b (counted now b) := ⟨rfl, rfl, fun role => by cases role <;> rfl⟩
  have hadopted := same_trans (adoptTp_same found (counted now b))
    (adoptSl_same found (adoptTp found (counted now b)))
  have hverified : SamePosition (adoptSl found (adoptTp found (counted now b)))
      (writeBack now found b) := ⟨rfl, rfl, fun role => by cases role <;> rfl⟩
  exact same_trans (same_trans hcounted hadopted) hverified

omit [DoubleArith F] in
theorem roleId_adoptTp (b : BracketState F) : roleId .takeProfit (adoptTp found b) =
        (if foundId .takeProfit found ≠ "" ∧ roleId .takeProfit b = "" then
          foundId .takeProfit found else roleId .takeProfit b) ∧
      roleId .stopLoss (adoptTp found b) = roleId .stopLoss b := by
  unfold adoptTp
  by_cases h : found.tpId ≠ "" ∧ b.tpOrderId = ""
  · rw [if_pos h]
    exact ⟨(if_pos h).symm, rfl⟩
  · rw [if_neg h]
    exact ⟨(if_neg h).symm, rfl⟩

omit [DoubleArith F] in
theorem roleId_adoptSl (b : BracketState F) : roleId .stopLoss (adoptSl found b) =
        (if foundId .stopLoss found ≠ "" ∧ roleId .stopLoss b = "" then
          foundId .stopLoss found else roleId .stopLoss b) ∧
      roleId .takeProfit (adoptSl found b) = roleId .takeProfit b := by
  unfold adoptSl
  by_cases h : found.slId ≠ "" ∧ b.slOrderId = ""
  · rw [if_pos h]
    exact ⟨(if_pos h).symm, rfl⟩
  · rw [if_neg h]
    exact ⟨(if_neg h).symm, rfl⟩

theorem roleId_writeBack (now : Timestamp) (found : FoundOrders) (b : BracketState F) :
    roleId role (writeBack now found b) =
      if foundId role found ≠ "" ∧ roleId role b = "" then foundId role found
      else roleId role b := by
  obtain ⟨htp, hsl⟩ := roleId_adoptTp found (counted now b)
  obtain ⟨hsl', htp'⟩ := roleId_adoptSl found (adoptTp found (counted now b))
  cases role with
  | takeProfit => exact htp'.trans htp
  | stopLoss =>
    rw [hsl] at hsl'
    exact hsl'

variable (cfg : ProtectiveBracketConfig) (now : Timestamp)

omit [DoubleArith F] in
theorem noteFallback_same (succeeded : Bool)
    (b : BracketState F) : SamePosition b (noteFallback cfg now succeeded b) := by
  cases succeeded with
  | true => exact ⟨rfl, rfl, fun role => by cases role <;> rfl⟩
  | false => exact ⟨rfl, rfl, fun role => by cases role <;> rfl⟩

omit [DoubleArith F] in
theorem roleId_noteFallback (succeeded : Bool) (b : BracketState F) :
    roleId role (noteFallback cfg now succeeded b) = roleId role b := by
  cases succeeded <;> cases role <;> rfl

theorem conclude_same : SamePosition b (conclude b) :=
  ⟨rfl, rfl, fun role => by cases role <;> rfl⟩

theorem roleId_conclude : roleId role (conclude b) = roleId role b := by
  cases role <;> rfl

def recorded (p : Placed F) (b : BracketState F) : BracketState F :=
  (if p.kind = .lossPlan then recordSl p.id else recordTp p.id) b

omit [DoubleArith F] in
theorem recorded_same (p : Placed F) (b : BracketState F) : SamePosition b (recorded p b) := by
  unfold recorded
  split_ifs
  · exact ⟨rfl, rfl, fun role => by cases role <;> rfl⟩
  · exact ⟨rfl, rfl, fun role => by cases role <;> rfl⟩

omit [DoubleArith F] in
/-- An order is recorded in the place of its kind; the other place is kept. -/
theorem roleId_recorded (role other : Role) (p : Placed F) (b : BracketState F)
    (hk : p.kind = roleKind other) :
    roleId role (recorded p b) = if role = other then p.id else roleId role b := by
  unfold recorded
  rw [hk]
  cases role <;> cases other <;> rfl

theorem mem_fallback (kind : PlanOrderKind) (needed : Bool) (placing : Placing)
    (ex : BracketExchange F) (copy : BracketState F) (price : F) (p : Placed F)
    (h : p ∈ fallback kind needed placing ex copy price) :
    p.kind = kind ∧ p.order = standalonePlan placing copy price ∧
      (ex.submitPlanOrder p.order).success = true ∧
      p.id = (ex.submitPlanOrder p.order).exchangeOrderId := by
  unfold fallback at h
  dsimp only at h
  by_cases hn : (needed && placeStandalonePlan ex placing copy price != "") = true
  · rw [if_pos hn, List.mem_singleton] at h
    subst h
    have hne : placeStandalonePlan ex placing copy price ≠ "" := by
      simpa using (Bool.and_eq_true_iff.mp hn).2
    refine ⟨rfl, rfl, ?_⟩
    show (ex.submitPlanOrder (standalonePlan placing copy price)).success = true ∧
      placeStandalonePlan ex placing copy price = _
    unfold placeStandalonePlan at *
    by_cases hbad : ¬ 0.0 < price ∨ isfinite price = false
    · rw [if_pos hbad] at hne
      exact absurd rfl hne
    · rw [if_neg hbad] at hne ⊢
      cases hsuccess : (ex.submitPlanOrder (standalonePlan placing copy price)).success with
      | true => exact ⟨rfl, by simp [hsuccess]⟩
      | false => simp [hsuccess] at hne
  · rw [if_neg hn] at h
    cases h

theorem fallback_nodup (kind : PlanOrderKind) (needed : Bool) (placing : Placing)
    (ex : BracketExchange F) (copy : BracketState F) (price : F) :
    ((fallback kind needed placing ex copy price).map (fun p => p.id)).Nodup := by
  unfold fallback
  dsimp only
  split_ifs
  · exact List.nodup_singleton _
  · exact List.nodup_nil

/-- A successful verification leaves a bracket whose wanted orders are all there. -/
theorem complete_result (ex : BracketExchange F)
    (now : Timestamp) (placings : Placings) (key : String) (copy : BracketState F)
    (found : FoundOrders) (brackets : Dict (BracketState F))
    (h : (completeVerification cfg ex now placings key copy found brackets).result = true) :
    ∃ b, (completeVerification cfg ex now placings key copy found brackets).brackets.lookup key =
        some b ∧ tpCovered b = true ∧ slCovered b = true := by
  unfold completeVerification at *
  cases hactive : activeBracket brackets key with
  | none => simp [hactive] at h
  | some current =>
    rw [hactive] at h
    dsimp only at h ⊢
    obtain ⟨b, hb, hv⟩ := (Option.any_eq_true _ _).mp h
    refine ⟨b, hb, ?_⟩
    rw [Keyed.lookup_modify_self] at hb
    obtain ⟨c, -, rfl⟩ := Option.map_eq_some_iff.mp hb
    exact Bool.and_eq_true_iff.mp hv

def countAttempt (b : BracketState F) : BracketState F :=
  { b with verifyAttempts := b.verifyAttempts + 1 }

/-- A verification stops early, counts a failed attempt, or completes with what
was listed. -/
theorem verify_cases (ex : BracketExchange F) (now : Timestamp)
    (placings : Placings) (symbol : Symbol) (ps : PositionSide) (brackets : Dict (BracketState F)) :
    verifyBrackets cfg ex now placings symbol ps brackets = ⟨brackets, false, []⟩ ∨
    verifyBrackets cfg ex now placings symbol ps brackets =
      ⟨Keyed.modify brackets (makeKey symbol ps) countAttempt, false, []⟩ ∨
    ∃ copy plans, Listing cfg ex.toPlanExchange now symbol ps brackets copy plans ∧
      verifyBrackets cfg ex now placings symbol ps brackets =
        completeVerification cfg ex now placings (makeKey symbol ps) copy
          (findOrders symbol ps copy plans) brackets := by
  unfold verifyBrackets
  dsimp only
  cases hactive : activeBracket brackets (makeKey symbol ps) with
  | none => exact .inl rfl
  | some copy =>
    cases hmay : mayVerify cfg now copy with
    | false => exact .inl (by simp [hmay])
    | true =>
      right
      cases hplans : ex.getOpenPlanOrders symbol with
      | none => exact .inl (by simp [hmay]; rfl)
      | some plans => exact .inr ⟨copy, plans, ⟨hactive, hmay, hplans⟩, by simp [hmay]⟩

theorem role_recovered (plans : List (PlanOrderInfo F)) :
    roleId role (recoveredBracket symbol ps now plans) =
        (newest (roleOrder role) symbol ps plans).elim "" (fun p => p.orderId) ∧
      rolePrice role (recoveredBracket symbol ps now plans) =
        (newest (roleOrder role) symbol ps plans).elim 0.0 (fun p => p.triggerPrice) := by
  unfold recoveredBracket
  cases role with
  | takeProfit =>
    show _ = (newest isProfitOrder symbol ps plans).elim _ _ ∧
      _ = (newest isProfitOrder symbol ps plans).elim _ _
    cases newest isProfitOrder symbol ps plans <;> cases newest isLossOrder symbol ps plans <;>
      exact ⟨rfl, rfl⟩
  | stopLoss =>
    show _ = (newest isLossOrder symbol ps plans).elim _ _ ∧
      _ = (newest isLossOrder symbol ps plans).elim _ _
    cases newest isProfitOrder symbol ps plans <;> cases newest isLossOrder symbol ps plans <;>
      exact ⟨rfl, rfl⟩

theorem recovered_position (plans : List (PlanOrderInfo F)) :
    (recoveredBracket symbol ps now plans).symbol = symbol ∧
      (recoveredBracket symbol ps now plans).positionSide = ps := by
  unfold recoveredBracket
  cases newest isProfitOrder symbol ps plans <;> cases newest isLossOrder symbol ps plans <;>
    exact ⟨rfl, rfl⟩

theorem recovered_has (plans : List (PlanOrderInfo F)) :
    roleId role (recoveredBracket symbol ps now plans) ≠ "" ↔ HasOrder role symbol ps plans := by
  rw [(role_recovered role symbol ps now plans).1, HasOrder]
  cases newest (roleOrder role) symbol ps plans with
  | none => simp
  | some p => simp

omit [DoubleArith F] in
theorem verified_same : SamePosition b { b with verified := true } :=
  ⟨rfl, rfl, fun role => by cases role <;> rfl⟩

omit [DoubleArith F] in
theorem roleId_verified : roleId role { b with verified := true } = roleId role b := by
  cases role <;> rfl

/-- A property of the stored brackets that a recovered one has is kept. -/
theorem all_recoverOne (P : String → BracketState F → Prop) (ex : PlanExchange F)
    (now : Timestamp) (brackets : Dict (BracketState F)) (position : Symbol × PositionSide)
    (h : Keyed.All P brackets)
    (hnew : ∀ plans, ex.getOpenPlanOrders position.1 = some plans →
      (recoveredBracket position.1 position.2 now plans).tpOrderId ≠ "" ∨
        (recoveredBracket position.1 position.2 now plans).slOrderId ≠ "" →
      P (makeKey position.1 position.2)
        { recoveredBracket position.1 position.2 now plans with verified := true }) :
    Keyed.All P (recoverOne ex now brackets position) := by
  unfold recoverOne
  dsimp only
  by_cases hkey : (brackets.lookup (makeKey position.1 position.2)).isSome = true
  · rw [if_pos hkey]
    exact h
  · rw [if_neg hkey]
    cases hplans : ex.getOpenPlanOrders position.1 with
    | none => exact h
    | some plans =>
      dsimp only
      split_ifs with hids
      · exact Keyed.all_insert P _ _ _ h (hnew plans hplans hids)
      · exact h

omit [DoubleArith F] in
theorem all_release (P : String → BracketState F → Prop) (ex : PlanExchange F)
    (brackets : Dict (BracketState F)) (symbol : Symbol) (ps : PositionSide)
    (h : Keyed.All P brackets) : Keyed.All P (release ex brackets symbol ps).brackets := by
  unfold release
  cases brackets.lookup (makeKey symbol ps) with
  | none => exact h
  | some b =>
    dsimp only
    split_ifs
    · exact h
    · exact Keyed.all_erase _ _ _ h

end Places

end TB.BracketOrders
