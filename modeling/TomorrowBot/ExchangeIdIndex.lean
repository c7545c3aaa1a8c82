import TomorrowBot.OrderRegistry
import TomorrowBot.Runs

/-!
# The index by exchange id

The registry finds an order by its exchange id through an index that is
written when an exchange id appears and cut when an order is dropped. The
index agrees with a scan of the stored orders as long as its entries point at
orders that carry their id, and every carried id has an entry.
-/

set_option autoImplicit false

namespace TB.ExchangeIdIndex
open TB.CommonTypes TB.OrderTypes TB.Orders

inductive RegistryOp (F : Type) where
  | registerOrder (clock : Clock) (order : OrderRecord F)
  | updateOrder (order : OrderRecord F)
  | transition (clock : Clock) (orderId : OrderId) (newState : OrderState) (reason : String)
  | forceTransition (clock : Clock) (orderId : OrderId) (newState : OrderState)
      (reason : String)
  | cleanupTerminalOrders (clock : Clock) (maxAgeNs : ℤ)

variable {F : Type}

def registryStep (r : OrderRegistry F) : RegistryOp F → OrderRegistry F
  | .registerOrder clock order => registerOrder r clock order
  | .updateOrder order => updateOrder r order
  | .transition clock id newState reason => (transition r clock id newState reason).1
  | .forceTransition clock id newState reason => forceTransition r clock id newState reason
  | .cleanupTerminalOrders clock maxAge => cleanupTerminalOrders r clock maxAge

def scan (r : OrderRegistry F) (x : OrderId) : List (OrderRecord F) :=
  (r.orders.entries.map Sigma.snd).filter (fun o => o.exchangeOrderId = x)

def ScanAgrees (r : OrderRegistry F) : Prop :=
  ∀ x, x ≠ "" → (scan r x).length ≤ 1 → getOrderByExchangeId r x = (scan r x).head?

structure Indexed (r : OrderRegistry F) : Prop where
  named : "" ∉ r.exchangeIdIndex
  points : ∀ x id, r.exchangeIdIndex.lookup x = some id →
    ∃ o, r.orders.lookup id = some o ∧ o.exchangeOrderId = x
  covers : ∀ id o, r.orders.lookup id = some o → o.exchangeOrderId ≠ "" →
    o.exchangeOrderId ∈ r.exchangeIdIndex

variable (r : OrderRegistry F)

theorem mem_scan (x : OrderId) (o : OrderRecord F) :
    o ∈ scan r x ↔ ∃ id, r.orders.lookup id = some o ∧ o.exchangeOrderId = x := by
  unfold scan
  rw [List.mem_filter, List.mem_map, decide_eq_true_eq]
  constructor
  · rintro ⟨⟨⟨id, _⟩, he, rfl⟩, hx⟩
    exact ⟨id, AList.mem_lookup_iff.mpr he, hx⟩
  · rintro ⟨id, hl, hx⟩
    exact ⟨⟨⟨id, o⟩, AList.mem_lookup_iff.mp hl, rfl⟩, hx⟩

theorem scan_agrees (h : Indexed r) : ScanAgrees r := by
  intro x hx hone
  cases hl : r.exchangeIdIndex.lookup x with
  | none =>
    have hempty : scan r x = [] := by
      rw [List.eq_nil_iff_forall_not_mem]
      intro o ho
      obtain ⟨id, hid, rfl⟩ := (mem_scan r x o).mp ho
      exact AList.lookup_eq_none.mp hl (h.covers id o hid hx)
    rw [getOrderByExchangeId, hl, hempty]
    rfl
  | some id =>
    obtain ⟨o, ho, hox⟩ := h.points x id hl
    have hmem : o ∈ scan r x := (mem_scan r x o).mpr ⟨id, ho, hox⟩
    have hscan : scan r x = [o] := by
      cases hs : scan r x with
      | nil => exact absurd (hs ▸ hmem) (by simp)
      | cons first rest =>
        rw [hs, List.length_cons] at hone
        have hrest : rest = [] := List.length_eq_zero_iff.mp (by omega)
        subst hrest
        rw [hs, List.mem_singleton] at hmem
        rw [hmem]
    rw [getOrderByExchangeId, hl, hscan]
    exact ho

section Steps

theorem empty_indexed : Indexed (emptyRegistry : OrderRegistry F) :=
  ⟨by simp [emptyRegistry], fun x id h => absurd h (by simp [emptyRegistry]),
    fun id o h => absurd h (by simp [emptyRegistry])⟩

theorem indexed_modify (r s : OrderRegistry F) (id : OrderId) (f : OrderRecord F → OrderRecord F)
    (hf : ∀ o, (f o).exchangeOrderId = o.exchangeOrderId)
    (hi : s.exchangeIdIndex = r.exchangeIdIndex) (ho : s.orders = Keyed.modify r.orders id f)
    (h : Indexed r) : Indexed s := by
  have hcarry : ∀ j o, s.orders.lookup j = some o →
      ∃ o', r.orders.lookup j = some o' ∧ o.exchangeOrderId = o'.exchangeOrderId := by
    intro j o hj
    rw [ho] at hj
    by_cases hji : j = id
    · subst hji
      rw [Keyed.lookup_modify_self] at hj
      obtain ⟨o', ho', rfl⟩ := Option.map_eq_some_iff.mp hj
      exact ⟨o', ho', hf o'⟩
    · rw [Keyed.lookup_modify_ne _ _ _ _ hji] at hj
      exact ⟨o, hj, rfl⟩
  constructor
  · rw [hi]
    exact h.named
  · intro x j hx
    rw [hi] at hx
    obtain ⟨o, hj, hox⟩ := h.points x j hx
    by_cases hji : j = id
    · subst hji
      refine ⟨f o, ?_, (hf o).trans hox⟩
      rw [ho, Keyed.lookup_modify_self, hj, Option.map_some]
    · refine ⟨o, ?_, hox⟩
      rw [ho, Keyed.lookup_modify_ne _ _ _ _ hji]
      exact hj
  · intro j o hj hne
    obtain ⟨o', hj', hx⟩ := hcarry j o hj
    rw [hi, hx]
    exact h.covers j o' hj' (hx ▸ hne)

variable (r : OrderRegistry F) (clock : Clock)

theorem transition_indexed (id : OrderId)
    (newState : OrderState) (reason : String) (h : Indexed r) :
    Indexed (transition r clock id newState reason).1 := by
  unfold transition
  cases r.fsms.lookup id with
  | none => exact h
  | some fsm =>
    cases ht : OrderFsm.transition fsm clock newState reason with
    | none => simpa only [ht] using h
    | some fsm' =>
      simp only [ht]
      exact indexed_modify r _ id (setState clock newState) (fun _ => rfl) rfl rfl h

theorem forceTransition_indexed (id : OrderId)
    (newState : OrderState) (reason : String) (h : Indexed r) :
    Indexed (forceTransition r clock id newState reason) := by
  unfold forceTransition
  cases r.fsms.lookup id with
  | none => exact h
  | some fsm => exact indexed_modify r _ id (setState clock newState) (fun _ => rfl) rfl rfl h

theorem lookup_indexExchangeId (index : Dict OrderId) (order : OrderRecord F) (x : OrderId) :
    (indexExchangeId index order).lookup x =
      if order.exchangeOrderId ≠ "" ∧ x = order.exchangeOrderId then some order.orderId
      else index.lookup x := by
  unfold indexExchangeId
  by_cases hnamed : order.exchangeOrderId ≠ ""
  · rw [if_pos hnamed]
    by_cases hx : x = order.exchangeOrderId
    · rw [if_pos ⟨hnamed, hx⟩, hx, AList.lookup_insert]
    · rw [if_neg (fun h => hx h.2), AList.lookup_insert_ne hx]
  · rw [if_neg hnamed, if_neg (fun h => hnamed h.1)]

/-- An order whose exchange id is indexed when the orders under its id, before
or after, carry it; the one before leaves no entry behind. -/
theorem indexed_store (r s : OrderRegistry F) (order : OrderRecord F)
    (hi : s.exchangeIdIndex = indexExchangeId r.exchangeIdIndex order)
    (hself : ∃ o, s.orders.lookup order.orderId = some o ∧
      o.exchangeOrderId = order.exchangeOrderId)
    (hothers : ∀ id, id ≠ order.orderId → s.orders.lookup id = r.orders.lookup id)
    (hleft : ∀ o, r.orders.lookup order.orderId = some o →
      o.exchangeOrderId = order.exchangeOrderId ∨ o.exchangeOrderId = "" ∨
        r.exchangeIdIndex.lookup o.exchangeOrderId ≠ some order.orderId)
    (h : Indexed r) : Indexed s := by
  have hindex : ∀ x, s.exchangeIdIndex.lookup x =
      if order.exchangeOrderId ≠ "" ∧ x = order.exchangeOrderId then some order.orderId
      else r.exchangeIdIndex.lookup x := by
    intro x
    rw [hi, lookup_indexExchangeId]
  obtain ⟨self, hs, hsx⟩ := hself
  constructor
  · rw [← AList.lookup_eq_none, hindex, if_neg (fun h => h.1 h.2.symm)]
    exact AList.lookup_eq_none.mpr h.named
  · intro x id hx
    rw [hindex] at hx
    split_ifs at hx with hown
    · obtain rfl := Option.some.inj hx
      exact ⟨self, hs, hsx.trans hown.2.symm⟩
    · obtain ⟨o, ho, hox⟩ := h.points x id hx
      have hxne : x ≠ "" := by
        rintro rfl
        exact h.named (AList.lookup_isSome.mp (by rw [hx]; rfl))
      by_cases hid : id = order.orderId
      · subst hid
        rcases hleft o ho with hsame | hnone | helse
        · exact absurd ⟨hsame ▸ hox ▸ hxne, hox.symm.trans hsame⟩ hown
        · exact absurd (hox.symm.trans hnone) hxne
        · exact absurd (hox ▸ hx) helse
      · exact ⟨o, (hothers id hid).trans ho, hox⟩
  · intro id o ho hne
    rw [← AList.lookup_isSome, hindex]
    split_ifs with hown
    · rfl
    · by_cases hid : id = order.orderId
      · subst hid
        rw [hs, Option.some.injEq] at ho
        subst ho
        exact absurd ⟨hsx ▸ hne, hsx⟩ hown
      · rw [hothers id hid] at ho
        exact AList.lookup_isSome.mpr (h.covers id o ho hne)

/-- A second registration of an id brings no other exchange id. -/
theorem registerOrder_indexed (order : OrderRecord F)
    (hagain : order.exchangeOrderId = "" ∨ ∀ o, r.orders.lookup order.orderId = some o →
      o.exchangeOrderId = order.exchangeOrderId)
    (h : Indexed r) : Indexed (registerOrder r clock order) := by
  by_cases hknown : order.orderId ∈ r.orders
  · have horders : (registerOrder r clock order).orders = r.orders := if_pos hknown
    rcases hagain with hempty | hsame
    · -- Nothing is indexed and nothing is stored.
      have hindex : (registerOrder r clock order).exchangeIdIndex = r.exchangeIdIndex :=
        if_neg (fun hne => hne hempty)
      refine ⟨?_, ?_, ?_⟩
      · rw [hindex]
        exact h.named
      · rw [hindex, horders]
        exact h.points
      · rw [hindex, horders]
        exact h.covers
    · obtain ⟨o, ho⟩ := (Keyed.mem_iff_lookup _ _).mp hknown
      refine indexed_store r _ order rfl ⟨o, ?_, hsame o ho⟩ (fun id _ => ?_)
        (fun o' ho' => .inl (hsame o' ho')) h
      · rw [horders]
        exact ho
      · rw [horders]
  · have horders : (registerOrder r clock order).orders = r.orders.insert order.orderId order :=
      if_neg hknown
    have hnew := AList.lookup_eq_none.mpr hknown
    refine indexed_store r _ order rfl ⟨order, ?_, rfl⟩ (fun id hid => ?_)
      (fun o ho => absurd (hnew.symm.trans ho) (by simp)) h
    · rw [horders]
      exact AList.lookup_insert _
    · rw [horders]
      exact AList.lookup_insert_ne hid

theorem updateOrder_indexed (order : OrderRecord F)
    (hleft : ∀ o, r.orders.lookup order.orderId = some o →
      o.exchangeOrderId = order.exchangeOrderId ∨ o.exchangeOrderId = "" ∨
        r.exchangeIdIndex.lookup o.exchangeOrderId ≠ some order.orderId)
    (h : Indexed r) : Indexed (updateOrder r order) := by
  unfold updateOrder
  split_ifs with hknown
  · exact indexed_store r _ order rfl ⟨order, AList.lookup_insert _, rfl⟩
      (fun id hid => AList.lookup_insert_ne hid) hleft h
  · exact h

def expired (clock : Clock) (maxAgeNs : ℤ) (o : OrderRecord F) : Prop :=
  isTerminal o.state = true ∧ maxAgeNs < clock.now - o.lastUpdated

instance (clock : Clock) (maxAgeNs : ℤ) (o : OrderRecord F) :
    Decidable (expired clock maxAgeNs o) := inferInstanceAs (Decidable (_ ∧ _))

structure Dropped (r s : OrderRegistry F) (gone : Sigma (fun _ : OrderId => OrderRecord F) → Prop) :
    Prop where
  orders : ∀ id o, s.orders.lookup id = some o ↔
    r.orders.lookup id = some o ∧ ∀ e, gone e → e.1 ≠ id
  index : ∀ x id, s.exchangeIdIndex.lookup x = some id ↔
    r.exchangeIdIndex.lookup x = some id ∧ ∀ e, gone e → e.2.exchangeOrderId ≠ "" →
      e.2.exchangeOrderId ≠ x

theorem dropOrder_dropped (e : Sigma (fun _ : OrderId => OrderRecord F)) :
    Dropped r (dropOrder r e.1 e.2) (fun d => d = e) := by
  constructor
  · intro id o
    simp only [dropOrder, Keyed.lookup_erase_iff, forall_eq]
  · intro x id
    by_cases hnamed : e.2.exchangeOrderId ≠ ""
    · simp only [dropOrder, if_pos hnamed, Keyed.lookup_erase_iff, forall_eq]
      exact ⟨fun h => ⟨h.1, fun _ => h.2⟩, fun h => ⟨h.1, h.2 hnamed⟩⟩
    · simp only [dropOrder, if_neg hnamed, forall_eq]
      exact ⟨fun h => ⟨h, fun hne => absurd hne hnamed⟩, And.left⟩

theorem Dropped.then {r s t : OrderRegistry F}
    {p q : Sigma (fun _ : OrderId => OrderRecord F) → Prop}
    (h : Dropped r s p) (k : Dropped s t q) : Dropped r t (fun e => p e ∨ q e) := by
  constructor
  · intro id o
    rw [k.orders, h.orders]
    simp only [or_imp, forall_and, and_assoc]
  · intro x id
    rw [k.index, h.index]
    simp only [or_imp, forall_and, and_assoc]

theorem dropped_none : Dropped r r (fun _ => False) :=
  ⟨fun _ _ => ⟨fun h => ⟨h, fun _ h => h.elim⟩, And.left⟩,
    fun _ _ => ⟨fun h => ⟨h, fun _ h => h.elim⟩, And.left⟩⟩

theorem Dropped.congr {r s : OrderRegistry F}
    {p q : Sigma (fun _ : OrderId => OrderRecord F) → Prop} (h : Dropped r s p)
    (hpq : ∀ e, p e ↔ q e) : Dropped r s q := by
  obtain rfl : p = q := funext (fun d => propext (hpq d))
  exact h

variable (maxAgeNs : ℤ)

theorem fold_dropped (es : List (Sigma (fun _ : OrderId => OrderRecord F))) (r : OrderRegistry F) :
    Dropped r (es.foldl (fun r e =>
      if isTerminal e.2.state ∧ maxAgeNs < clock.now - e.2.lastUpdated then dropOrder r e.1 e.2
      else r) r) (fun e => e ∈ es ∧ expired clock maxAgeNs e.2) := by
  induction es generalizing r with
  | nil => exact (dropped_none r).congr (fun e => by simp)
  | cons e es ih =>
    rw [List.foldl_cons]
    split_ifs with hexp
    · have hboth := (dropOrder_dropped r e).then (ih (dropOrder r e.1 e.2))
      refine hboth.congr (fun d => ?_)
      constructor
      · rintro (rfl | ⟨hd, hx⟩)
        · exact ⟨List.mem_cons_self, hexp⟩
        · exact ⟨List.mem_cons_of_mem e hd, hx⟩
      · rintro ⟨hd, hx⟩
        rcases List.mem_cons.mp hd with rfl | hd
        · exact .inl rfl
        · exact .inr ⟨hd, hx⟩
    · refine (ih r).congr (fun d => ?_)
      constructor
      · exact fun h => ⟨List.mem_cons_of_mem e h.1, h.2⟩
      · rintro ⟨hd, hx⟩
        rcases List.mem_cons.mp hd with rfl | hd
        · exact absurd hx hexp
        · exact ⟨hd, hx⟩

theorem cleanup_dropped : Dropped r (cleanupTerminalOrders r clock maxAgeNs)
      (fun e => r.orders.lookup e.1 = some e.2 ∧ expired clock maxAgeNs e.2) :=
  (fold_dropped clock maxAgeNs r.orders.entries r).congr
    (fun _ => and_congr_left' AList.mem_lookup_iff.symm)

/-- An order that stays keeps its entry when no dropped order shares its
exchange id. -/
theorem cleanup_indexed
    (hshared : ∀ gone stays o o', r.orders.lookup gone = some o → expired clock maxAgeNs o →
      o.exchangeOrderId ≠ "" → r.orders.lookup stays = some o' → ¬ expired clock maxAgeNs o' →
        o.exchangeOrderId ≠ o'.exchangeOrderId)
    (h : Indexed r) : Indexed (cleanupTerminalOrders r clock maxAgeNs) := by
  have hd := cleanup_dropped r clock maxAgeNs
  constructor
  · rw [← AList.lookup_eq_none, Option.eq_none_iff_forall_ne_some]
    intro id hid
    have hold := ((hd.index "" id).mp hid).1
    exact absurd (hold.symm.trans (AList.lookup_eq_none.mpr h.named)) (by simp)
  · intro x id hx
    obtain ⟨hold, hkept⟩ := (hd.index x id).mp hx
    obtain ⟨o, ho, hox⟩ := h.points x id hold
    refine ⟨o, (hd.orders id o).mpr ⟨ho, ?_⟩, hox⟩
    rintro ⟨j, o'⟩ ⟨ho', hexp⟩ rfl
    -- The entry would have gone with the order it points at.
    obtain rfl : o' = o := Option.some.inj (ho'.symm.trans ho)
    have hxne : x ≠ "" := by
      rintro rfl
      exact h.named (AList.lookup_isSome.mp (by rw [hold]; rfl))
    exact hkept ⟨j, o'⟩ ⟨ho', hexp⟩ (hox ▸ hxne) hox
  · intro id o ho hne
    obtain ⟨hold, hkept⟩ := (hd.orders id o).mp ho
    have hstays : ¬ expired clock maxAgeNs o := fun hexp => hkept ⟨id, o⟩ ⟨hold, hexp⟩ rfl
    obtain ⟨target, ht⟩ := Option.isSome_iff_exists.mp
      (AList.lookup_isSome.mpr (h.covers id o hold hne))
    refine AList.lookup_isSome.mp (Option.isSome_iff_exists.mpr ⟨target, ?_⟩)
    refine (hd.index _ _).mpr ⟨ht, ?_⟩
    rintro ⟨j, o'⟩ ⟨ho', hexp⟩ hne'
    exact hshared j id o' o ho' hexp hne' hold hstays

end Steps

/-- A second registration of an order brings no other exchange id, an update
leaves no entry of a replaced exchange id behind, and the cleanup drops no order
that shares its exchange id with one that stays. -/
def InStep (r : OrderRegistry F) : RegistryOp F → Prop
  | .registerOrder _ order =>
    order.exchangeOrderId = "" ∨ ∀ o, r.orders.lookup order.orderId = some o →
      o.exchangeOrderId = order.exchangeOrderId
  | .updateOrder order =>
    ∀ o, r.orders.lookup order.orderId = some o →
      o.exchangeOrderId = order.exchangeOrderId ∨ o.exchangeOrderId = "" ∨
        r.exchangeIdIndex.lookup o.exchangeOrderId ≠ some order.orderId
  | .cleanupTerminalOrders clock maxAge =>
    ∀ gone stays o o', r.orders.lookup gone = some o → expired clock maxAge o →
      o.exchangeOrderId ≠ "" → r.orders.lookup stays = some o' → ¬ expired clock maxAge o' →
        o.exchangeOrderId ≠ o'.exchangeOrderId
  | .transition .. => True
  | .forceTransition .. => True

theorem step_indexed (op : RegistryOp F) (h : Indexed r)
    (hop : InStep r op) : Indexed (registryStep r op) := by
  cases op with
  | registerOrder clock order => exact registerOrder_indexed r clock order hop h
  | updateOrder order => exact updateOrder_indexed r order hop h
  | transition clock id newState reason => exact transition_indexed r clock id newState reason h
  | forceTransition clock id newState reason =>
    exact forceTransition_indexed r clock id newState reason h
  | cleanupTerminalOrders clock maxAge => exact cleanup_indexed r clock maxAge hop h

/-- Over every run whose operations are in step with the index the lookup by
exchange id finds what a scan finds. -/
theorem index_agrees (ops : List (RegistryOp F))
    (hm : Runs.Meets registryStep InStep emptyRegistry ops) :
    Runs.Always registryStep ScanAgrees emptyRegistry ops :=
  Runs.always_mono registryStep scan_agrees emptyRegistry ops
    (Runs.always_of_meets registryStep step_indexed emptyRegistry ops empty_indexed hm)

section Reassigned

def resting (exchangeId : OrderId) : OrderRecord ℚ where
  orderId := "TB1-1"
  exchangeOrderId := exchangeId
  symbol := "BTCUSDT"
  side := .buy
  positionSide := .long
  tradeSide := .opening
  orderType := .limit
  tif := .goodTillCancel
  price := 100
  originalQuantity := 1
  filledQuantity := 0
  remainingQuantity := 1
  avgFillPrice := 0
  state := .new
  strategyId := "s"
  correlationId := "c"
  createdAt := 0
  lastUpdated := 0
  rejectionReason := ""
  executionInfo := ⟨[], .waitForFull, "TB1-1", 0, 100, 0⟩
  attachedTpSl := ⟨0, 0, .markPrice⟩

def wholeLife : List (RegistryOp ℚ) :=
  [.registerOrder ⟨0, 0, 0⟩ (resting ""), .updateOrder (resting "9001"),
    .forceTransition ⟨1, 1, 0⟩ "TB1-1" .cancelled "", .cleanupTerminalOrders ⟨10, 10, 0⟩ 5]

theorem wholeLife_inStep : Runs.Meets registryStep InStep emptyRegistry wholeLife := by
  refine ⟨.inl rfl, ?_, trivial, ?_, trivial⟩
  · intro o ho
    obtain rfl : resting "" = o := Option.some.inj ho
    exact .inr (.inl rfl)
  · -- Only one order is stored, and it goes.
    intro gone stays o o' ho hexp hne ho' hstays
    have hmem := AList.mem_lookup_iff.mp ho
    have hmem' := AList.mem_lookup_iff.mp ho'
    have hone : (Runs.run registryStep emptyRegistry (wholeLife.take 3)).orders.entries =
        [⟨"TB1-1", setState ⟨1, 1, 0⟩ .cancelled (resting "9001")⟩] := rfl
    rw [show registryStep _ _ = Runs.run registryStep emptyRegistry (wholeLife.take 3) from rfl,
      hone, List.mem_singleton] at hmem hmem'
    obtain rfl : o' = setState ⟨1, 1, 0⟩ .cancelled (resting "9001") :=
      eq_of_heq (Sigma.mk.inj hmem').2
    exact absurd ⟨rfl, by decide⟩ hstays

theorem index_agrees_wholeLife : Runs.Always registryStep ScanAgrees emptyRegistry wholeLife :=
  index_agrees wholeLife wholeLife_inStep

def renamed : List (RegistryOp ℚ) :=
  [.registerOrder ⟨0, 0, 0⟩ (resting ""), .updateOrder (resting "9001"),
    .updateOrder (resting "9002")]

/-- The entry of the replaced exchange id still finds the order. -/
theorem renamed_stale : ¬ Runs.Always registryStep ScanAgrees emptyRegistry renamed := by
  intro h
  have hagrees := Runs.always_last registryStep h "9001" (by decide) (by decide +kernel)
  exact absurd (congrArg Option.isSome hagrees) (by decide +kernel)

end Reassigned

end TB.ExchangeIdIndex
