import TomorrowBot.DoubleValues
import TomorrowBot.BracketOrders
import TomorrowBot.Runs

/-!
# What stands behind a verified bracket

Every order a bracket remembers was placed for it or was listed by the exchange.
The record of all placed and listed orders is kept beside the brackets. A
bracket takes an order for its own by the price and by a kind that a take-profit
and a stop-loss share, so it can remember one order in both places.
-/

set_option autoImplicit false

namespace TB.VerifiedBrackets
open TB.CommonTypes TB.ProtectiveBracketManager TB.DoubleValues TB.BracketOrders

section System
variable {F : Type} [DoubleArith F]

structure Desk (F : Type) where
  brackets : Dict (BracketState F)
  placed : List (Placed F)
  listed : List (PlanOrderInfo F)

def start : Desk F := ⟨∅, [], []⟩

inductive BracketOp (F : Type) where
  | opened (symbol : Symbol) (ps : PositionSide) (entryPrice size tpPrice slPrice : F)
      (now : Timestamp)
  | verify (ex : BracketExchange F) (now : Timestamp) (placings : Placings) (symbol : Symbol)
      (ps : PositionSide)
  | recover (ex : PlanExchange F) (now : Timestamp) (openPositions : List (Symbol × PositionSide))
  | release (ex : PlanExchange F) (symbol : Symbol) (ps : PositionSide)

def deskStep (cfg : ProtectiveBracketConfig) (s : Desk F) : BracketOp F → Desk F
  | .opened symbol ps entryPrice size tpPrice slPrice now =>
    { s with brackets :=
        (onPositionOpened symbol ps entryPrice size tpPrice slPrice now s.brackets).brackets }
  | .verify ex now placings symbol ps =>
    let verified := verifyBrackets cfg ex now placings symbol ps s.brackets
    ⟨verified.brackets, s.placed ++ verified.placed,
      s.listed ++ listedOrders ex.toPlanExchange symbol⟩
  | .recover ex now openPositions =>
    ⟨recoverFromExchange ex now openPositions s.brackets, s.placed,
      s.listed ++ openPositions.flatMap (fun position => listedOrders ex position.1)⟩
  | .release ex symbol ps => { s with brackets := (release ex s.brackets symbol ps).brackets }

inductive Backs (s : Desk F) (role : Role) (b : BracketState F) (id : OrderId) : Prop where
  | placed (p : Placed F) (mem : p ∈ s.placed) (named : p.id = id)
      (kind : p.kind = roleKind role) (symbol : p.order.record.symbol = b.symbol)
      (side : p.order.record.positionSide = b.positionSide)
      (price : p.order.planParams.triggerPrice = rolePrice role b)
  | listed (p : PlanOrderInfo F) (mem : p ∈ s.listed) (named : p.orderId = id)
      (leg : isLegOrder b.symbol b.positionSide p = true) (kind : roleOrder role p = true)
      (price : p.triggerPrice = rolePrice role b ∨
        pricesMatch p.triggerPrice (rolePrice role b) = true)

def Genuine (s : Desk F) (b : BracketState F) : Prop :=
  b.tpOrderId ≠ b.slOrderId ∧ ∀ role, Backs s role b (roleId role b)

/-- A verification that succeeds leaves a bracket with two real orders, and a
recovered bracket is verified only when both orders were found. -/
def BracketLaw (cfg : ProtectiveBracketConfig) (s : Desk F) : BracketOp F → Prop
  | .verify ex now placings symbol ps =>
    (verifyBrackets cfg ex now placings symbol ps s.brackets).result = true →
      ∃ b, (deskStep cfg s (.verify ex now placings symbol ps)).brackets.lookup
          (makeKey symbol ps) = some b ∧
        (0.0 < b.tpPrice → 0.0 < b.slPrice →
          Genuine (deskStep cfg s (.verify ex now placings symbol ps)) b)
  | .recover ex now openPositions =>
    ∀ key b, s.brackets.lookup key = none →
      (deskStep cfg s (.recover ex now openPositions)).brackets.lookup key = some b →
      b.verified = true → ∀ role, roleId role b ≠ "" ∧
        Backs (deskStep cfg s (.recover ex now openPositions)) role b (roleId role b)
  | _ => True

abbrev Ledger := OrderId → PlanOrderKind × String

def Lists (ledger : Ledger) (ex : PlanExchange F) : Prop :=
  ∀ symbol plans, ex.getOpenPlanOrders symbol = some plans →
    ∀ p ∈ plans, ledger p.orderId = (p.kind, p.planType)

structure Issues (ledger : Ledger) (placed : List (Placed F)) (ex : BracketExchange F) :
    Prop where
  normal : ∀ order, (ex.submitPlanOrder order).success = true →
    (ledger (ex.submitPlanOrder order).exchangeOrderId).1 = .normalPlan
  fresh : ∀ order, (ex.submitPlanOrder order).success = true →
    ∀ p ∈ placed, p.id ≠ (ex.submitPlanOrder order).exchangeOrderId
  own : ∀ one two, (ex.submitPlanOrder one).success = true →
    (ex.submitPlanOrder two).success = true → one.record.orderId ≠ two.record.orderId →
    (ex.submitPlanOrder one).exchangeOrderId ≠ (ex.submitPlanOrder two).exchangeOrderId

def DistinctIds (ledger : Ledger) (s : Desk F) : BracketOp F → Prop
  | .verify ex _ placings _ _ => Lists ledger ex.toPlanExchange ∧ Issues ledger s.placed ex ∧
      placings.sl.clientOrderId ≠ placings.tp.clientOrderId
  | .recover ex _ _ => Lists ledger ex
  | _ => True

def Sound (cfg : ProtectiveBracketConfig) (s : Desk F) : BracketOp F → Prop
  | .verify ex now _ symbol ps => ∀ copy plans,
      Listing cfg ex.toPlanExchange now symbol ps s.brackets copy plans →
      ∀ role p, roleId role copy = "" → firstMatch role symbol ps copy plans = some p →
        roleOrder role p = true
  | .recover ex _ openPositions => ∀ position ∈ openPositions,
      s.brackets.lookup (makeKey position.1 position.2) = none →
      ∀ plans, ex.getOpenPlanOrders position.1 = some plans →
        (HasOrder .takeProfit position.1 position.2 plans ↔
          HasOrder .stopLoss position.1 position.2 plans)
  | _ => True

end System

section Scan
variable {F : Type} [DoubleArith F]

def Backed (s : Desk F) (key : String) (b : BracketState F) : Prop :=
  key = makeKey b.symbol b.positionSide ∧
    ∀ role, roleId role b ≠ "" → Backs s role b (roleId role b)

theorem backs_congr {s : Desk F} {role : Role} {b c : BracketState F} {id : OrderId}
    (h : SamePosition b c) (hb : Backs s role b id) : Backs s role c id := by
  cases hb with
  | placed p mem named kind symbol side price =>
    exact .placed p mem named kind (symbol.trans h.symbol.symm) (side.trans h.side.symm)
      (price.trans (h.price role).symm)
  | listed p mem named leg kind price =>
    apply Backs.listed p mem named _ kind
    · rw [h.price role]
      exact price
    · rw [h.symbol, h.side]
      exact leg

theorem backs_mono {s t : Desk F} {role : Role} {b : BracketState F} {id : OrderId}
    (hp : s.placed ⊆ t.placed) (hl : s.listed ⊆ t.listed) (h : Backs s role b id) :
    Backs t role b id := by
  cases h with
  | placed p mem named kind symbol side price =>
    exact .placed p (hp mem) named kind symbol side price
  | listed p mem named leg kind price => exact .listed p (hl mem) named leg kind price

theorem backed_mono {s t : Desk F} {key : String} {b : BracketState F}
    (hp : s.placed ⊆ t.placed) (hl : s.listed ⊆ t.listed) (h : Backed s key b) :
    Backed t key b :=
  ⟨h.1, fun role hne => backs_mono hp hl (h.2 role hne)⟩

end Scan

section Verification
variable {F : Type} [DoubleArith F] (s : Desk F)

theorem backs_fallback (role : Role) (needed : Bool) (placing : Placing)
    (ex : BracketExchange F) (copy : BracketState F) (p : Placed F) (hs : p ∈ s.placed)
    (h : p ∈ fallback (roleKind role) needed placing ex copy (rolePrice role copy)) :
    Backs s role copy p.id := by
  obtain ⟨hkind, horder, -, -⟩ := mem_fallback _ _ _ _ _ _ _ h
  apply Backs.placed p hs rfl hkind
  · rw [horder]
    rfl
  · rw [horder]
    rfl
  · rw [horder]
    rfl

def Tracks (s : Desk F) (key : String) (copy : BracketState F) (k : String)
    (b : BracketState F) : Prop :=
  Backed s k b ∧ (k = key → SamePosition copy b)

variable (key : String) (copy : BracketState F)

theorem tracks_modify (brackets : Dict (BracketState F)) (f : BracketState F → BracketState F)
    (h : Keyed.All (Tracks s key copy) brackets) (hf : ∀ b, SamePosition b (f b))
    (hid : ∀ b role, roleId role (f b) = roleId role b ∨
      Backs s role copy (roleId role (f b))) :
    Keyed.All (Tracks s key copy) (Keyed.modify brackets key f) := by
  apply Keyed.all_modify _ _ _ _ h
  rintro b ⟨⟨hkey, hids⟩, hsame⟩
  have hcopy := same_trans (hsame rfl) (hf b)
  refine ⟨⟨?_, ?_⟩, fun _ => hcopy⟩
  · rw [hkey, (hf b).symbol, (hf b).side]
  · intro role hne
    rcases hid b role with heq | hback
    · rw [heq] at hne ⊢
      exact backs_congr (hf b) (hids role hne)
    · exact backs_congr hcopy hback

theorem tracks_recordPlaced (placed : List (Placed F))
    (hplaced : ∀ p ∈ placed, ∃ role, p.kind = roleKind role ∧ Backs s role copy p.id)
    (brackets : Dict (BracketState F)) (h : Keyed.All (Tracks s key copy) brackets) :
    Keyed.All (Tracks s key copy) (placed.foldl (recordPlaced key) brackets) := by
  induction placed generalizing brackets with
  | nil => exact h
  | cons p placed ih =>
    apply ih (fun q hq => hplaced q (List.mem_cons_of_mem p hq))
    obtain ⟨other, hkind, hback⟩ := hplaced p List.mem_cons_self
    apply tracks_modify s key copy brackets (recorded p) h (recorded_same p)
    intro b role
    rw [roleId_recorded role other p b hkind]
    by_cases hr : role = other
    · subst hr
      rw [if_pos rfl]
      exact .inr hback
    · rw [if_neg hr]
      exact .inl rfl

theorem tracks_writeBack (now : Timestamp) (found : FoundOrders) (hcopy : Backed s key copy)
    (hfound : ∀ role, roleId role copy = "" → foundId role found ≠ "" →
      Backs s role copy (foundId role found)) :
    Tracks s key copy key (writeBack now found copy) := by
  have hsame := writeBack_same now found copy
  refine ⟨⟨?_, ?_⟩, fun _ => hsame⟩
  · rw [hcopy.1, hsame.symbol, hsame.side]
  · intro role hne
    apply backs_congr hsame
    rw [roleId_writeBack] at hne ⊢
    by_cases h : foundId role found ≠ "" ∧ roleId role copy = ""
    · rw [if_pos h]
      exact hfound role h.2 h.1
    · rw [if_neg h] at hne ⊢
      exact hcopy.2 role hne

theorem tracks_complete (cfg : ProtectiveBracketConfig) (ex : BracketExchange F)
    (now : Timestamp) (placings : Placings) (key : String) (copy : BracketState F)
    (found : FoundOrders) (brackets : Dict (BracketState F)) (s : Desk F)
    (hactive : activeBracket brackets key = some copy) (hb : Keyed.All (Backed s) brackets)
    (hfound : ∀ role, roleId role copy = "" → foundId role found ≠ "" →
      Backs s role copy (foundId role found))
    (hplaced : (completeVerification cfg ex now placings key copy found brackets).placed ⊆
      s.placed) :
    Keyed.All (Backed s)
      (completeVerification cfg ex now placings key copy found brackets).brackets := by
  have hlook : brackets.lookup key = some copy := (Option.filter_eq_some_iff.mp hactive).1
  unfold completeVerification at *
  rw [hactive] at hplaced ⊢
  dsimp only at hplaced ⊢
  have hstart : Keyed.All (Tracks s key copy) brackets := by
    intro k b hk
    refine ⟨hb k b hk, ?_⟩
    rintro rfl
    rw [hlook] at hk
    rw [← Option.some.inj hk]
    exact same_refl copy
  have hwritten := Keyed.all_modify (Tracks s key copy) brackets key
    (fun _ => writeBack now found copy) hstart
    (fun _ _ => tracks_writeBack s key copy now found (hb key copy hlook) hfound)
  have hrecorded := tracks_recordPlaced s key copy _ (by
    intro p hp
    rcases List.mem_append.mp hp with hsl | htp
    · exact ⟨.stopLoss, (mem_fallback _ _ _ _ _ _ _ hsl).1,
        backs_fallback s .stopLoss _ _ ex copy p (hplaced hp) hsl⟩
    · exact ⟨.takeProfit, (mem_fallback _ _ _ _ _ _ _ htp).1,
        backs_fallback s .takeProfit _ _ ex copy p (hplaced hp) htp⟩) _ hwritten
  have hconclude : ∀ m, Keyed.All (Tracks s key copy) m →
      Keyed.All (Backed s) (Keyed.modify m key conclude) := by
    intro m hm k b hk
    exact (tracks_modify s key copy m conclude hm conclude_same
      (fun b role => .inl (roleId_conclude role b)) k b hk).1
  apply hconclude
  split_ifs
  · exact tracks_modify s key copy _ _ hrecorded (noteFallback_same cfg now _)
      (fun b role => .inl (roleId_noteFallback role cfg now _ b))
  · exact hrecorded

end Verification

section Steps
variable {F : Type} [DoubleArith F]

structure DeskInv (ledger : Ledger) (s : Desk F) : Prop where
  backed : Keyed.All (Backed s) s.brackets
  distinct : (s.placed.map (fun p => p.id)).Nodup
  normal : ∀ p ∈ s.placed, (ledger p.id).1 = .normalPlan
  named : ∀ p ∈ s.listed, ledger p.orderId = (p.kind, p.planType)

variable (ledger : Ledger)

omit [DoubleArith F] in
theorem order_roles (p q : PlanOrderInfo F) (hid : p.orderId = q.orderId)
    (hp : ledger p.orderId = (p.kind, p.planType)) (hq : ledger q.orderId = (q.kind, q.planType))
    (hprofit : isProfitOrder p = true) : isLossOrder q = false := by
  have hpq : (p.kind, p.planType) = (q.kind, q.planType) := by
    rw [← hp, ← hq, hid]
  obtain ⟨hkind, htype⟩ := Prod.mk.inj hpq
  unfold isProfitOrder at hprofit
  unfold isLossOrder
  rw [← hkind, ← htype]
  cases hk : p.kind <;> simp [hk] at hprofit ⊢
  rcases hprofit with h | h <;> simp [h]

omit [DoubleArith F] in
theorem roleOrder_kind (role : Role) (p : PlanOrderInfo F) (h : roleOrder role p = true) :
    p.kind ≠ .normalPlan := by
  intro hk
  cases role <;> simp [roleOrder, isProfitOrder, isLossOrder, hk] at h

theorem distinct_of_backs (s : Desk F) (b : BracketState F) (h : DeskInv ledger s)
    (htp : Backs s .takeProfit b b.tpOrderId) (hsl : Backs s .stopLoss b b.slOrderId) :
    b.tpOrderId ≠ b.slOrderId := by
  intro heq
  rw [heq] at htp
  cases htp with
  | placed p mem named kind =>
    cases hsl with
    | placed q qmem qnamed qkind =>
      have hpq := List.inj_on_of_nodup_map h.distinct mem qmem (named.trans qnamed.symm)
      rw [hpq, qkind] at kind
      cases kind
    | listed q qmem qnamed qleg qkind =>
      have hledger := h.normal p mem
      rw [named, ← qnamed, h.named q qmem] at hledger
      exact roleOrder_kind .stopLoss q qkind hledger
  | listed p mem named leg kind =>
    cases hsl with
    | placed q qmem qnamed qkind =>
      have hledger := h.normal q qmem
      rw [qnamed, ← named, h.named p mem] at hledger
      exact roleOrder_kind .takeProfit p kind hledger
    | listed q qmem qnamed qleg qkind =>
      have hno := order_roles ledger p q (named.trans qnamed.symm) (h.named p mem)
        (h.named q qmem) kind
      rw [show isLossOrder q = true from qkind] at hno
      cases hno

theorem complete_issued (old : List (Placed F)) (cfg : ProtectiveBracketConfig)
    (ex : BracketExchange F) (now : Timestamp) (placings : Placings) (key : String)
    (copy : BracketState F) (found : FoundOrders) (brackets : Dict (BracketState F))
    (hissues : Issues ledger old ex) (hown : placings.sl.clientOrderId ≠ placings.tp.clientOrderId) :
    ((completeVerification cfg ex now placings key copy found brackets).placed.map
        (fun p => p.id)).Nodup ∧
      ∀ p ∈ (completeVerification cfg ex now placings key copy found brackets).placed,
        (ledger p.id).1 = .normalPlan ∧ ∀ q ∈ old, q.id ≠ p.id := by
  unfold completeVerification
  cases activeBracket brackets key with
  | none => simp
  | some current =>
    dsimp only
    constructor
    · rw [List.map_append]
      apply List.Nodup.append (fallback_nodup _ _ _ _ _ _) (fallback_nodup _ _ _ _ _ _)
      intro id hsl htp
      obtain ⟨p, hp, rfl⟩ := List.mem_map.mp hsl
      obtain ⟨q, hq, hid⟩ := List.mem_map.mp htp
      obtain ⟨-, hporder, hpok, hpid⟩ := mem_fallback _ _ _ _ _ _ _ hp
      obtain ⟨-, hqorder, hqok, hqid⟩ := mem_fallback _ _ _ _ _ _ _ hq
      apply hissues.own p.order q.order hpok hqok
      · rw [hporder, hqorder]
        exact hown
      · rw [← hpid, ← hqid]
        exact hid.symm
    · intro p hp
      obtain ⟨-, -, hok, hid⟩ : _ ∧ _ ∧ (ex.submitPlanOrder p.order).success = true ∧
          p.id = (ex.submitPlanOrder p.order).exchangeOrderId := by
        rcases List.mem_append.mp hp with h | h
        · have hf := mem_fallback _ _ _ _ _ _ _ h
          exact ⟨trivial, trivial, hf.2.2⟩
        · have hf := mem_fallback _ _ _ _ _ _ _ h
          exact ⟨trivial, trivial, hf.2.2⟩
      rw [hid]
      exact ⟨hissues.normal p.order hok, hissues.fresh p.order hok⟩

omit [DoubleArith F] in
theorem listed_named (ex : PlanExchange F) (symbol : Symbol)
    (h : Lists ledger ex) (p : PlanOrderInfo F) (hp : p ∈ listedOrders ex symbol) :
    ledger p.orderId = (p.kind, p.planType) := by
  unfold listedOrders at hp
  cases hplans : ex.getOpenPlanOrders symbol with
  | none => simp [hplans] at hp
  | some plans =>
    rw [hplans] at hp
    exact h symbol plans hplans p hp

theorem found_backs (s : Desk F) (cfg : ProtectiveBracketConfig) (ex : PlanExchange F)
    (now : Timestamp) (symbol : Symbol) (ps : PositionSide) (brackets : Dict (BracketState F))
    (copy : BracketState F) (plans : List (PlanOrderInfo F)) (t : Desk F)
    (hlist : Listing cfg ex now symbol ps brackets copy plans)
    (hcopy : Backed s (makeKey symbol ps) copy)
    (ht : listedOrders ex symbol ⊆ t.listed)
    (hsound : ∀ role p, roleId role copy = "" → firstMatch role symbol ps copy plans = some p →
      roleOrder role p = true) (role : Role) (hempty : roleId role copy = "")
    (hne : foundId role (findOrders symbol ps copy plans) ≠ "") :
    Backs t role copy (foundId role (findOrders symbol ps copy plans)) := by
  obtain ⟨p, hmem, hfirst, hid, hleg, hmatch⟩ := found_order role symbol ps copy plans hne
  obtain ⟨hsymbol, hside⟩ := makeKey_injective _ _ _ _ hcopy.1
  rw [hid]
  apply Backs.listed p _ rfl _ (hsound role p hempty hfirst) (.inr (roleMatch_price role copy p hmatch))
  · apply ht
    rw [listedOrders, hlist.listed]
    exact hmem
  · rw [← hsymbol, ← hside]
    exact hleg

theorem countAttempt_backed (s : Desk F) (key : String) (b : BracketState F) (h : Backed s key b) :
    Backed s key (countAttempt b) := by
  have hsame : SamePosition b (countAttempt b) := ⟨rfl, rfl, fun role => by cases role <;> rfl⟩
  have hid : ∀ role, roleId role (countAttempt b) = roleId role b := by
    intro role
    cases role <;> rfl
  refine ⟨h.1, fun role hne => ?_⟩
  rw [hid role] at hne ⊢
  exact backs_congr hsame (h.2 role hne)

variable (cfg : ProtectiveBracketConfig) (s : Desk F)

theorem verify_backed (ex : BracketExchange F)
    (now : Timestamp) (placings : Placings) (symbol : Symbol) (ps : PositionSide)
    (h : Keyed.All (Backed s) s.brackets)
    (hs : Sound cfg s (.verify ex now placings symbol ps)) :
    Keyed.All (Backed (deskStep cfg s (.verify ex now placings symbol ps)))
      (verifyBrackets cfg ex now placings symbol ps s.brackets).brackets := by
  have hmono : Keyed.All (Backed (deskStep cfg s (.verify ex now placings symbol ps)))
      s.brackets := fun k b hk =>
    backed_mono (List.subset_append_left _ _) (List.subset_append_left _ _) (h k b hk)
  have hplaced : (verifyBrackets cfg ex now placings symbol ps s.brackets).placed ⊆
      (deskStep cfg s (.verify ex now placings symbol ps)).placed :=
    List.subset_append_right _ _
  rcases verify_cases cfg ex now placings symbol ps s.brackets with
    hstop | hcount | ⟨copy, plans, hlist, hdone⟩
  · rw [hstop]
    exact hmono
  · rw [hcount]
    exact Keyed.all_modify _ _ _ _ hmono (countAttempt_backed _ _)
  · rw [hdone] at hplaced ⊢
    have hlook := (Option.filter_eq_some_iff.mp hlist.active).1
    exact tracks_complete cfg ex now placings _ copy _ s.brackets _ hlist.active hmono
      (found_backs s cfg ex.toPlanExchange now symbol ps s.brackets copy plans _ hlist
        (h _ copy hlook) (List.subset_append_right _ _) (hs copy plans hlist)) hplaced

theorem inv_verify
    (ex : BracketExchange F) (now : Timestamp) (placings : Placings) (symbol : Symbol)
    (ps : PositionSide) (h : DeskInv ledger s)
    (hd : DistinctIds ledger s (.verify ex now placings symbol ps))
    (hs : Sound cfg s (.verify ex now placings symbol ps)) :
    DeskInv ledger (deskStep cfg s (.verify ex now placings symbol ps)) := by
  obtain ⟨hlists, hissues, hown⟩ := hd
  have hnew : ((verifyBrackets cfg ex now placings symbol ps s.brackets).placed.map
        (fun p => p.id)).Nodup ∧
      ∀ p ∈ (verifyBrackets cfg ex now placings symbol ps s.brackets).placed,
        (ledger p.id).1 = .normalPlan ∧ ∀ q ∈ s.placed, q.id ≠ p.id := by
    rcases verify_cases cfg ex now placings symbol ps s.brackets with
      hstop | hcount | ⟨copy, plans, -, hdone⟩
    · simp [hstop]
    · simp [hcount]
    · rw [hdone]
      exact complete_issued ledger s.placed cfg ex now placings _ copy _ s.brackets hissues hown
  constructor
  · exact verify_backed cfg s ex now placings symbol ps h.backed hs
  · show ((s.placed ++ _).map (fun p => p.id)).Nodup
    rw [List.map_append]
    apply List.Nodup.append h.distinct hnew.1
    intro id hold hid
    obtain ⟨q, hq, rfl⟩ := List.mem_map.mp hold
    obtain ⟨p, hp, heq⟩ := List.mem_map.mp hid
    exact (hnew.2 p hp).2 q hq heq.symm
  · intro p hp
    rcases List.mem_append.mp hp with hp | hp
    · exact h.normal p hp
    · exact (hnew.2 p hp).1
  · intro p hp
    rcases List.mem_append.mp hp with hp | hp
    · exact h.named p hp
    · exact listed_named ledger ex.toPlanExchange symbol hlists p hp

theorem recovered_backs (t : Desk F) (role : Role) (symbol : Symbol) (ps : PositionSide)
    (now : Timestamp) (plans : List (PlanOrderInfo F)) (ht : plans ⊆ t.listed)
    (h : HasOrder role symbol ps plans) :
    Backs t role (recoveredBracket symbol ps now plans)
      (roleId role (recoveredBracket symbol ps now plans)) := by
  obtain ⟨p, hp, -⟩ := h
  obtain ⟨hid, hprice⟩ := role_recovered role symbol ps now plans
  obtain ⟨hsymbol, hside⟩ := recovered_position symbol ps now plans
  obtain ⟨hmem, hleg, hkind⟩ := newest_mem (roleOrder role) symbol ps plans p hp
  rw [hp] at hid hprice
  apply Backs.listed p (ht hmem) hid.symm _ hkind (.inl hprice.symm)
  rw [hsymbol, hside]
  exact hleg

def Recovers (s t : Desk F) (key : String) (b : BracketState F) : Prop :=
  Backed t key b ∧ (s.brackets.lookup key = none → ∀ role, roleId role b ≠ "")

/-- A bracket recovered from listed orders is backed, and has both orders when the
listing has both or none. -/
theorem recoverOne_recovers (s t : Desk F) (ex : PlanExchange F) (now : Timestamp)
    (position : Symbol × PositionSide) (m : Dict (BracketState F))
    (hlisted : ∀ plans, ex.getOpenPlanOrders position.1 = some plans → plans ⊆ t.listed)
    (hs : s.brackets.lookup (makeKey position.1 position.2) = none → ∀ plans,
      ex.getOpenPlanOrders position.1 = some plans →
      (HasOrder .takeProfit position.1 position.2 plans ↔
        HasOrder .stopLoss position.1 position.2 plans))
    (hm : Keyed.All (Recovers s t) m) : Keyed.All (Recovers s t) (recoverOne ex now m position) := by
  apply all_recoverOne _ ex now m position hm
  intro plans hplans hids
  have hsub := hlisted plans hplans
  obtain ⟨hsymbol, hside⟩ := recovered_position position.1 position.2 now plans
  refine ⟨⟨?_, ?_⟩, ?_⟩
  · show _ = makeKey (recoveredBracket _ _ now plans).symbol _
    rw [hsymbol]
    exact congrArg _ hside.symm
  · intro role hne
    rw [roleId_verified] at hne ⊢
    exact backs_congr (verified_same _) (recovered_backs _ role _ _ now plans hsub
      ((recovered_has role _ _ now plans).mp hne))
  · intro hnone role
    have hboth := hs hnone plans hplans
    rw [roleId_verified, recovered_has]
    rcases hids with htp | hsl
    · have hprofit := (recovered_has .takeProfit _ _ now plans).mp htp
      cases role with
      | takeProfit => exact hprofit
      | stopLoss => exact hboth.mp hprofit
    · have hloss := (recovered_has .stopLoss _ _ now plans).mp hsl
      cases role with
      | takeProfit => exact hboth.mpr hloss
      | stopLoss => exact hloss

theorem recover_recovers (ex : PlanExchange F)
    (now : Timestamp) (openPositions : List (Symbol × PositionSide))
    (h : Keyed.All (Backed s) s.brackets) (hs : Sound cfg s (.recover ex now openPositions)) :
    Keyed.All (Recovers s (deskStep cfg s (.recover ex now openPositions)))
      (deskStep cfg s (.recover ex now openPositions)).brackets := by
  have hstart : Keyed.All (Recovers s (deskStep cfg s (.recover ex now openPositions)))
      s.brackets := by
    intro k b hk
    refine ⟨backed_mono (List.Subset.refl s.placed) (List.subset_append_left _ _) (h k b hk), ?_⟩
    intro hnone
    rw [hk] at hnone
    cases hnone
  have hlisted : ∀ position ∈ openPositions, ∀ plans,
      ex.getOpenPlanOrders position.1 = some plans →
      plans ⊆ (deskStep cfg s (.recover ex now openPositions)).listed := by
    intro position hmem plans hplans p hp
    apply List.mem_append_right
    apply List.mem_flatMap.mpr
    refine ⟨position, hmem, ?_⟩
    rw [listedOrders, hplans]
    exact hp
  exact List.foldlRecOn openPositions (recoverOne ex now) hstart
    (fun m hm position hmem => recoverOne_recovers s _ ex now position m (hlisted position hmem)
      (hs position hmem) hm)

theorem inv_deskStep
    (op : BracketOp F) (h : DeskInv ledger s) (hop : DistinctIds ledger s op ∧ Sound cfg s op) :
    DeskInv ledger (deskStep cfg s op) := by
  cases op with
  | opened symbol ps entryPrice size tpPrice slPrice now =>
    have hnew : Backed s (makeKey symbol ps)
        (newBracket symbol ps entryPrice size tpPrice slPrice now) := by
      refine ⟨rfl, fun role hne => ?_⟩
      cases role <;> exact absurd rfl hne
    have hall := Keyed.all_insert _ _ _ _ h.backed hnew
    exact ⟨fun k b hk => backed_mono (List.Subset.refl s.placed) (List.Subset.refl s.listed)
      (hall k b hk), h.distinct, h.normal, h.named⟩
  | verify ex now placings symbol ps =>
    exact inv_verify ledger cfg s ex now placings symbol ps h hop.1 hop.2
  | recover ex now openPositions =>
    have hrecovers := recover_recovers cfg s ex now openPositions h.backed hop.2
    refine ⟨fun k b hk => (hrecovers k b hk).1, h.distinct, h.normal, ?_⟩
    intro p hp
    rcases List.mem_append.mp hp with hp | hp
    · exact h.named p hp
    · obtain ⟨position, -, hp⟩ := List.mem_flatMap.mp hp
      exact listed_named ledger ex position.1 hop.1 p hp
  | release ex symbol ps =>
    have hall := all_release (Backed s) ex s.brackets symbol ps h.backed
    exact ⟨fun k b hk => backed_mono (List.Subset.refl s.placed) (List.Subset.refl s.listed)
      (hall k b hk), h.distinct, h.normal, h.named⟩

theorem inv_start : DeskInv ledger (start : Desk F) where
  backed := Keyed.all_empty _
  distinct := List.nodup_nil
  normal := by simp [start]
  named := by simp [start]

theorem genuine_of_inv (key : String) (b : BracketState F)
    (h : DeskInv ledger s) (hb : s.brackets.lookup key = some b) (hids : ∀ role, roleId role b ≠ "") :
    Genuine s b := by
  have hbacks : ∀ role, Backs s role b (roleId role b) :=
    fun role => (h.backed key b hb).2 role (hids role)
  exact ⟨distinct_of_backs ledger s b h (hbacks .takeProfit) (hbacks .stopLoss), hbacks⟩

end Steps

section Law

theorem ids_of_covered (b : BracketState Double) (htp : tpCovered b = true)
    (hsl : slCovered b = true) (hpos : 0.0 < b.tpPrice) (hneg : 0.0 < b.slPrice) (role : Role) :
    roleId role b ≠ "" := by
  have hnonzero : ∀ x : Double, 0.0 < x → isZero x = false := by
    intro x hx
    have hx' := ((Double.lt_iff _ _).mp hx).2
    simp [isZero, hx']
  rw [tpCovered, hnonzero _ hpos] at htp
  rw [slCovered, hnonzero _ hneg] at hsl
  cases role with
  | takeProfit => simpa [roleId] using htp
  | stopLoss => simpa [roleId] using hsl

theorem law_of_inv (ledger : Ledger) (cfg : ProtectiveBracketConfig) (s : Desk Double)
    (op : BracketOp Double) (h : DeskInv ledger s)
    (hop : DistinctIds ledger s op ∧ Sound cfg s op) : BracketLaw cfg s op := by
  cases op with
  | verify ex now placings symbol ps =>
    intro hresult
    have hinv := inv_verify ledger cfg s ex now placings symbol ps h hop.1 hop.2
    rcases verify_cases cfg ex now placings symbol ps s.brackets with
      hstop | hcount | ⟨copy, plans, -, hdone⟩
    · simp [hstop] at hresult
    · simp [hcount] at hresult
    · rw [hdone] at hresult
      obtain ⟨b, hb, htp, hsl⟩ := complete_result cfg ex now placings _ copy _ s.brackets hresult
      have hlook : (deskStep cfg s (.verify ex now placings symbol ps)).brackets.lookup
          (makeKey symbol ps) = some b := by
        show (verifyBrackets cfg ex now placings symbol ps s.brackets).brackets.lookup _ = _
        rw [hdone]
        exact hb
      refine ⟨b, hlook, fun hpos hneg => ?_⟩
      exact genuine_of_inv ledger _ _ b hinv hlook (ids_of_covered b htp hsl hpos hneg)
  | recover ex now openPositions =>
    intro key b hnone hlook _ role
    obtain ⟨hbacked, hids⟩ := recover_recovers cfg s ex now openPositions h.backed hop.2 key b hlook
    exact ⟨hids hnone role, hbacked.2 role (hids hnone role)⟩
  | _ => trivial

/-- In every run whose adopted orders have the kind of their place and whose
recoveries find both orders or none, a verified bracket has two real orders. -/
theorem verified_bracket_genuine (ledger : Ledger) (cfg : ProtectiveBracketConfig)
    (ops : List (BracketOp Double))
    (hd : Runs.Meets (deskStep cfg) (DistinctIds ledger) start ops)
    (hs : Runs.Meets (deskStep cfg) (Sound cfg) start ops) :
    Runs.Meets (deskStep cfg) (BracketLaw cfg) start ops :=
  Runs.meets_of_invariant (deskStep cfg) (inv_deskStep ledger cfg)
    (law_of_inv ledger cfg) start ops (inv_start ledger) (Runs.meets_and (deskStep cfg) start ops hd hs)

def exampleConfig : ProtectiveBracketConfig := ⟨3000, 6, 3, 60000⟩

def examplePlacings : Placings := ⟨⟨"3001", 4000000000⟩, ⟨"3002", 4000000000⟩⟩

def listingExchange (plans : List (PlanOrderInfo Double)) : BracketExchange Double :=
  ⟨⟨fun _ => some plans, fun _ => true⟩, fun _ => ⟨false, "", "refused", 0⟩⟩

def profitOrder : PlanOrderInfo Double :=
  ⟨"2001", "", "BTCUSDT", .long, .posTpsl, .finite 60200, .finite 0, .finite 0.01, "mark_price",
    "pos_profit", 1⟩

def lossOrder : PlanOrderInfo Double :=
  ⟨"2002", "", "BTCUSDT", .long, .posTpsl, .finite 59100, .finite 0, .finite 0.01, "mark_price",
    "pos_loss", 1⟩

def exampleLedger : Ledger := fun id =>
  if id = "2001" then (.posTpsl, "pos_profit")
  else if id = "2002" then (.posTpsl, "pos_loss")
  else (.normalPlan, "normal_plan")

def openedAt (slPrice : ℚ) : BracketOp Double :=
  .opened "BTCUSDT" .long (.finite 60000) (.finite 0.01) (.finite 60200) (.finite slPrice) 0

def verifyWith (plans : List (PlanOrderInfo Double)) : BracketOp Double :=
  .verify (listingExchange plans) 4000000000 examplePlacings "BTCUSDT" .long

theorem listing_distinct (s : Desk Double) (plans : List (PlanOrderInfo Double))
    (h : plans ⊆ [profitOrder, lossOrder]) :
    DistinctIds exampleLedger s (verifyWith plans) := by
  refine ⟨?_, ⟨?_, ?_, ?_⟩, by decide⟩
  · intro symbol listed hlisted p hp
    rw [← Option.some.inj hlisted] at hp
    have hmem := h hp
    simp only [List.mem_cons, List.not_mem_nil, or_false] at hmem
    rcases hmem with rfl | rfl
    · rfl
    · rfl
  · intro order hok
    cases hok
  · intro order hok
    cases hok
  · intro one two hok
    cases hok

/-- Orders far enough apart are adopted each in its place. -/
theorem verified_bracket_genuine_apart :
    Runs.Meets (deskStep exampleConfig) (BracketLaw exampleConfig) start
      [openedAt 59100, verifyWith [profitOrder, lossOrder]] := by
  apply verified_bracket_genuine exampleLedger
  · exact ⟨trivial, listing_distinct _ _ (List.Subset.refl _), trivial⟩
  · refine ⟨trivial, ?_, trivial⟩
    rintro copy plans ⟨hactive, -, hlisted⟩ role p - hfirst
    have hcopy : some copy = some (newBracket "BTCUSDT" .long (.finite 60000) (.finite 0.01)
        (.finite 60200) (.finite 59100) 0) := hactive.symm
    rw [← Option.some.inj hlisted, Option.some.inj hcopy] at hfirst
    cases role with
    | takeProfit =>
      have hp : some p = some profitOrder := hfirst.symm.trans (by decide +kernel)
      rw [Option.some.inj hp]
      decide
    | stopLoss =>
      have hp : some p = some lossOrder := hfirst.symm.trans (by decide +kernel)
      rw [Option.some.inj hp]
      decide

/-- With a stop within one percent of the profit price the one listed order is
adopted in both places, and the bracket is verified without a stop. -/
theorem profit_order_adopted_twice :
    ¬ ∀ (ledger : Ledger) (cfg : ProtectiveBracketConfig) (ops : List (BracketOp Double)),
      Runs.Meets (deskStep cfg) (DistinctIds ledger) start ops →
        Runs.Meets (deskStep cfg) (BracketLaw cfg) start ops := by
  intro h
  have hmeets := h exampleLedger exampleConfig [openedAt 59800, verifyWith [profitOrder]]
    ⟨trivial, listing_distinct _ _ (by simp), trivial⟩
  obtain ⟨b, hb, hlaw⟩ := hmeets.2.1 (by decide +kernel)
  have hlook : ((deskStep exampleConfig (deskStep exampleConfig start (openedAt 59800))
      (verifyWith [profitOrder])).brackets.lookup (makeKey "BTCUSDT" .long)).map
        (fun b => (b.tpOrderId, b.slOrderId, b.tpPrice, b.slPrice)) =
      some ("2001", "2001", .finite 60200, .finite 59800) := by decide +kernel
  have hids := Option.some.inj ((congrArg (Option.map _) hb).symm.trans hlook)
  simp only [Prod.mk.injEq] at hids
  obtain ⟨htp, hsl, htpPrice, hslPrice⟩ := hids
  have hgenuine := hlaw (by rw [htpPrice]; decide +kernel) (by rw [hslPrice]; decide +kernel)
  exact hgenuine.1 (htp.trans hsl.symm)

end Law

end TB.VerifiedBrackets
