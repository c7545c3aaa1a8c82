import TomorrowBot.ExchangeQueries

/-!
# What a successful query returns

An answer that fails or cannot be read makes the query for orders and the one
for positions fail. Otherwise every order that the answer lists is returned,
and every position whose size and mark price it gives.
-/

set_option autoImplicit false

namespace TB.ReturnedEntries
open TB.CommonTypes TB.DoubleValues TB.RestClient TB.ExchangeQueries JsonText

def Answered (r : RestResponse Double) (data : Value Double) : Prop :=
  r.success = true ∧ ∃ root, r.body = some (.object root) ∧
    jsonStr root "code" = "00000" ∧ find root "data" = some data

theorem bind_ok_iff {ε α β : Type} (x : Except ε α) (f : α → Except ε β) (b : β) :
    (x >>= f) = .ok b ↔ ∃ a, x = .ok a ∧ f a = .ok b := by
  cases x with
  | error e => exact ⟨fun h => (nomatch h), fun ⟨a, ha, _⟩ => (nomatch ha)⟩
  | ok a => exact ⟨fun h => ⟨a, rfl, h⟩, fun ⟨c, hc, hf⟩ => Except.ok.inj hc ▸ hf⟩

theorem orThrow_ok_iff {α : Type} (x : Option α) (a : α) : orThrow x = .ok a ↔ x = some a := by
  cases x with
  | none => exact ⟨fun h => (nomatch h), fun h => (nomatch h)⟩
  | some b => exact ⟨fun h => congrArg some (Except.ok.inj h), fun h => congrArg _ (Option.some.inj h)⟩

theorem error_ite_ok_iff {ε α : Type} (c : Prop) [Decidable c] (e : ε) (x : Except ε α) (a : α) :
    (if c then .error e else x) = .ok a ↔ ¬c ∧ x = .ok a := by
  split_ifs with hc
  · exact ⟨fun h => (nomatch h), fun h => absurd hc h.1⟩
  · exact ⟨fun h => ⟨hc, h⟩, fun h => h.2⟩

theorem asObject_bind_iff (body : Option (Value Double)) (obj : Object) :
    body.bind Value.asObject = some obj ↔ body = some (.object obj) := by
  cases body with
  | none => exact ⟨fun h => (nomatch h), fun h => (nomatch h)⟩
  | some v =>
    rw [Option.bind_some, asObject_iff]
    exact ⟨congrArg some, Option.some.inj⟩

theorem answerData_ok_iff (r : RestResponse Double) (data : Value Double) :
    answerData r = .ok data ↔ Answered r data := by
  rw [answerData, Answered, error_ite_ok_iff, bind_ok_iff, Bool.not_eq_false]
  refine and_congr_right (fun _ => exists_congr (fun root => ?_))
  rw [orThrow_ok_iff, asObject_bind_iff, error_ite_ok_iff, orThrow_ok_iff, ne_eq, not_not]

theorem entries_some_iff (items : List (Value Double)) (es : List Object) :
    entries items = some es ↔ items = es.map .object := by
  rw [entries]
  induction items generalizing es with
  | nil =>
    rw [List.mapM_nil]
    cases es with
    | nil => exact ⟨fun _ => rfl, fun _ => rfl⟩
    | cons e es => exact ⟨fun h => (nomatch h), fun h => (nomatch h)⟩
  | cons v items ih =>
    rw [List.mapM_cons]
    constructor
    · intro h
      obtain ⟨e, he, hrest⟩ := Option.bind_eq_some_iff.mp h
      obtain ⟨rest, hr, hes⟩ := Option.bind_eq_some_iff.mp hrest
      rw [← Option.some.inj hes, List.map_cons, (asObject_iff v e).mp he, (ih rest).mp hr]
    · intro h
      cases es with
      | nil => exact (nomatch h)
      | cons e es =>
        obtain ⟨hv, hitems⟩ := List.cons.inj h
        rw [(asObject_iff v e).mpr hv, (ih es).mpr hitems]
        rfl

def ListsOrders (r : RestResponse Double) (ids : List OrderId) : Prop :=
  ∃ obj, Answered r (.object obj) ∧
    (find obj "entrustedList" = some .null ∧ ids = [] ∨
      ∃ items, find obj "entrustedList" = some (.array items) ∧
        ∀ id ∈ ids, ∃ e, Value.object e ∈ items ∧ jsonStr e "orderId" = id)

def ReadableOrders (r : RestResponse Double) : Prop :=
  ∃ obj, Answered r (.object obj) ∧
    ∀ items, find obj "entrustedList" = some (.array items) →
      ∀ v ∈ items, ∃ e, v = Value.object e

structure HeldPosition where
  symbol : Symbol
  positionSide : PositionSide

def IsPosition (p : HeldPosition) (e : Object) : Prop :=
  jsonStr e "symbol" = p.symbol ∧
    (if jsonStr e "holdSide" = "short" then .short else .long) = p.positionSide

def Priced (nearest : ℚ → Option ℚ) (e : Object) : Prop :=
  0.0 < jsonDbl nearest e "total" ∧ ¬jsonDbl nearest e "markPrice" ≤ 0.0

def ListsPositions (r : RestResponse Double) (Given : Object → Prop) (ps : List HeldPosition) :
    Prop :=
  ∃ items, Answered r (.array items) ∧
    ∀ p ∈ ps, ∃ e, Value.object e ∈ items ∧ IsPosition p e ∧ Given e

def ReadablePositions (r : RestResponse Double) : Prop :=
  ∃ items, Answered r (.array items) ∧ ∀ v ∈ items, ∃ e, v = Value.object e

def ListsPlans (r : RestResponse Double) (ids : List OrderId) : Prop :=
  ∃ data, Answered r data ∧
    ∀ id ∈ ids, ∃ items e, planItems data = some items ∧ Value.object e ∈ items ∧
      jsonStr e "orderId" = id

theorem answered_unique {r : RestResponse Double} {a b : Value Double} (ha : Answered r a)
    (hb : Answered r b) : a = b :=
  Except.ok.inj (((answerData_ok_iff r a).mpr ha).symm.trans ((answerData_ok_iff r b).mpr hb))

theorem asArray_iff (v : Value Double) (items : List (Value Double)) :
    v.asArray = some items ↔ v = .array items := by
  cases v <;> simp [Value.asArray]

variable (q : QueryAdapter) (symbol : Symbol)

theorem openOrders_ok (infos : List ExchangeOrderInfo) (h : getOpenOrders q symbol = .ok infos) :
    ReadableOrders (ordersAnswer q symbol) ∧
      ∀ ids, ListsOrders (ordersAnswer q symbol) ids →
        ∀ id ∈ ids, ∃ info ∈ infos, info.orderId = id := by
  rw [getOpenOrders, bind_ok_iff] at h
  obtain ⟨data, hdata, h⟩ := h
  rw [bind_ok_iff] at h
  obtain ⟨obj, hobj, h⟩ := h
  rw [answerData_ok_iff] at hdata
  rw [orThrow_ok_iff, asObject_iff] at hobj
  subst hobj
  cases hlist : (find obj "entrustedList").bind Value.asArray with
  | none =>
    have hno : ∀ items, find obj "entrustedList" ≠ some (.array items) := by
      intro items hitems
      rw [hitems] at hlist
      exact (nomatch hlist)
    refine ⟨⟨obj, hdata, fun items hitems => absurd hitems (hno items)⟩, ?_⟩
    rintro ids ⟨other, hother, hids⟩ id hid
    obtain rfl := Value.object.inj (answered_unique hdata hother)
    obtain ⟨-, rfl⟩ | ⟨items, hitems, -⟩ := hids
    · exact absurd hid List.not_mem_nil
    · exact absurd hitems (hno items)
  | some items =>
    rw [hlist] at h
    obtain ⟨es, hes, hinfos⟩ := (bind_ok_iff _ _ _).mp h
    rw [orThrow_ok_iff, entries_some_iff] at hes
    obtain ⟨v, hv, hitems⟩ := Option.bind_eq_some_iff.mp hlist
    rw [asArray_iff] at hitems
    rw [hitems, hes] at hv
    refine ⟨⟨obj, hdata, fun other hother v hv' => ?_⟩, ?_⟩
    · obtain rfl := Value.array.inj (Option.some.inj (hv.symm.trans hother))
      obtain ⟨e, -, rfl⟩ := List.mem_map.mp hv'
      exact ⟨e, rfl⟩
    · rintro ids ⟨other, hother, hids⟩ id hid
      obtain rfl := Value.object.inj (answered_unique hdata hother)
      obtain ⟨hnull, -⟩ | ⟨listed, hlisted, hall⟩ := hids
      · exact absurd (hv.symm.trans hnull) (by simp)
      · obtain rfl := Value.array.inj (Option.some.inj (hv.symm.trans hlisted))
        obtain ⟨e, he, hid'⟩ := hall id hid
        obtain ⟨e', he', heq⟩ := List.mem_map.mp he
        obtain rfl := Value.object.inj heq
        rw [← Except.ok.inj hinfos]
        exact ⟨parseOrder q.nearest e', List.mem_map_of_mem he', hid'⟩

theorem openPositions_ok
    (infos : List ExchangeOpenPositionInfo) (h : getOpenPositions q symbol = .ok infos) :
    ReadablePositions (positionsAnswer q symbol) ∧
      ∀ ps, ListsPositions (positionsAnswer q symbol) (Priced q.nearest) ps →
        ∀ p ∈ ps, ∃ info ∈ infos, info.symbol = p.symbol ∧ info.positionSide = p.positionSide := by
  rw [getOpenPositions, bind_ok_iff] at h
  obtain ⟨positions, hpositions, hinfos⟩ := h
  rw [getPositions, bind_ok_iff] at hpositions
  obtain ⟨data, hdata, h⟩ := hpositions
  rw [bind_ok_iff] at h
  obtain ⟨items, hitems, h⟩ := h
  rw [bind_ok_iff] at h
  obtain ⟨es, hes, hpos⟩ := h
  rw [answerData_ok_iff] at hdata
  rw [orThrow_ok_iff, asArray_iff] at hitems
  rw [orThrow_ok_iff, entries_some_iff] at hes
  subst hitems hes
  refine ⟨⟨es.map .object, hdata, fun v hv => ?_⟩, ?_⟩
  · obtain ⟨e, -, rfl⟩ := List.mem_map.mp hv
    exact ⟨e, rfl⟩
  · rintro ps ⟨other, hother, hall⟩ p hp
    obtain rfl := Value.array.inj (answered_unique hdata hother)
    obtain ⟨e, he, ⟨hsymbol, hside⟩, htotal, hmark⟩ := hall p hp
    obtain ⟨e', he', heq⟩ := List.mem_map.mp he
    obtain rfl := Value.object.inj heq
    have hsize : ¬jsonDbl q.nearest e' "total" ≤ 0.0 := fun hle => ((Double.lt_iff _ _).mp htotal).2 hle
    refine ⟨openPosition (parseFuturesPosition q.nearest e'), ?_, hsymbol, hside⟩
    rw [← Except.ok.inj hinfos, ← Except.ok.inj hpos]
    refine List.mem_map_of_mem (List.mem_filter.mpr ⟨List.mem_filter.mpr
      ⟨List.mem_map_of_mem he', decide_eq_true htotal⟩, decide_eq_true ?_⟩)
    exact not_or.mpr ⟨hmark, hsize⟩

theorem fetchPlans_lists (planType : String)
    (ids : List OrderId) (h : ListsPlans (plansAnswer q symbol planType) ids) (id : OrderId)
    (hid : id ∈ ids) : ∃ info ∈ fetchPlans q symbol planType, info.orderId = id := by
  obtain ⟨data, hdata, hall⟩ := h
  obtain ⟨items, e, hitems, he, hid'⟩ := hall id hid
  refine ⟨parsePlanOrder q.nearest e, ?_, hid'⟩
  rw [fetchPlans, (answerData_ok_iff _ _).mpr hdata]
  show _ ∈ (((planItems data).getD []).filterMap Value.asObject).map _
  rw [hitems, Option.getD_some]
  exact List.mem_map_of_mem (List.mem_filterMap.mpr ⟨.object e, he, rfl⟩)

/-- A query for orders or positions fails when its answer does, and returns every order
and every priced position that the answer lists; the query for plan orders returns every
plan order that its two answers list. -/
theorem listed_returned (q : QueryAdapter) (symbol : Symbol) :
    (∀ infos, getOpenOrders q symbol = .ok infos →
      ReadableOrders (ordersAnswer q symbol) ∧
        ∀ ids, ListsOrders (ordersAnswer q symbol) ids →
          ∀ id ∈ ids, ∃ info ∈ infos, info.orderId = id) ∧
    (∀ infos, getOpenPositions q symbol = .ok infos →
      ReadablePositions (positionsAnswer q symbol) ∧
        ∀ ps, ListsPositions (positionsAnswer q symbol) (Priced q.nearest) ps →
          ∀ p ∈ ps, ∃ info ∈ infos, info.symbol = p.symbol ∧ info.positionSide = p.positionSide) ∧
    (∀ infos, getOpenPlanOrders q symbol = .ok infos →
      ∀ normal tpsl, ListsPlans (plansAnswer q symbol "normal_plan") normal →
        ListsPlans (plansAnswer q symbol "profit_loss") tpsl →
          ∀ id ∈ normal ++ tpsl, ∃ info ∈ infos, info.orderId = id) := by
  refine ⟨openOrders_ok q symbol, openPositions_ok q symbol, ?_⟩
  intro infos h normal tpsl hnormal htpsl id hid
  rw [← Except.ok.inj h]
  rcases List.mem_append.mp hid with hid | hid
  · obtain ⟨info, hinfo, heq⟩ := fetchPlans_lists q symbol _ normal hnormal id hid
    exact ⟨info, List.mem_append_left _ hinfo, heq⟩
  · obtain ⟨info, hinfo, heq⟩ := fetchPlans_lists q symbol _ tpsl htpsl id hid
    exact ⟨info, List.mem_append_right _ hinfo, heq⟩

def unpricedEntry : Object :=
  [("symbol", .string "BTCUSDT"), ("holdSide", .string "long"), ("total", .string "1")]

def unpricedAnswer : HttpAnswer Double where
  status := 200
  body := some (.object [("code", .string "00000"), ("data", .array [.object unpricedEntry])])

def unpricedQueries : QueryAdapter where
  nearest := some
  futuresConfig := {}
  retryMax := 3
  arrivals _ _ _ := .ok unpricedAnswer

/-- A position without a mark price is left out of a successful answer. -/
theorem unpriced_position_dropped :
    ¬∀ (q : QueryAdapter) (symbol : Symbol) (infos : List ExchangeOpenPositionInfo)
      (ps : List HeldPosition), getOpenPositions q symbol = .ok infos →
      ListsPositions (positionsAnswer q symbol) (fun e => jsonDbl q.nearest e "total" ≠ 0.0) ps →
      ∀ p ∈ ps, ∃ info ∈ infos, info.symbol = p.symbol ∧ info.positionSide = p.positionSide := by
  intro h
  have hlength : (getOpenPositions unpricedQueries "BTCUSDT").map List.length = .ok 0 := by
    decide +kernel
  obtain ⟨infos, hinfos⟩ : ∃ infos, getOpenPositions unpricedQueries "BTCUSDT" = .ok infos := by
    cases hq : getOpenPositions unpricedQueries "BTCUSDT" with
    | error e => exact (nomatch hq ▸ hlength)
    | ok infos => exact ⟨infos, rfl⟩
  rw [hinfos] at hlength
  obtain rfl := List.length_eq_zero_iff.mp (Except.ok.inj hlength)
  have hanswer : Answered (positionsAnswer unpricedQueries "BTCUSDT")
      (.array [.object unpricedEntry]) := ⟨rfl, _, rfl, rfl, rfl⟩
  obtain ⟨info, hinfo, -⟩ := h unpricedQueries "BTCUSDT" [] [⟨"BTCUSDT", .long⟩] hinfos
    ⟨_, hanswer, fun p hp => ⟨unpricedEntry, List.mem_singleton_self _, by
      rw [List.mem_singleton.mp hp]
      exact ⟨⟨rfl, rfl⟩, by decide +kernel⟩⟩⟩ ⟨"BTCUSDT", .long⟩ (List.mem_singleton_self _)
  exact List.not_mem_nil hinfo

end TB.ReturnedEntries
