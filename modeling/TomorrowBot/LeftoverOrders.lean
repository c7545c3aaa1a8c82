import TomorrowBot.OrderSubmitter

/-!
# Orders left by a failed submission

The exchange accepts at most one order per client order id and answers a
repeated one with an error. Any request and any answer may be lost. A
submission is taken to have failed although its order exists when the answer
to the request that placed it did not arrive.
-/

set_option autoImplicit false

namespace TB.LeftoverOrders
open TB.CommonTypes TB.ProtectiveBracketManager TB.RestClient TB.OrderSubmitter
open JsonText

variable {F : Type}

inductive Fate where
  | live
  | filled
  | cancelled
  deriving DecidableEq

structure ExchangeOrder where
  orderId : OrderId
  clientOid : String
  fate : Fate
  deriving DecidableEq

structure Exchange where
  orders : List ExchangeOrder

structure Refusal (F : Type) where
  answer : HttpAnswer F
  refuses : ∀ obj, answer.body = some (.object obj) → find obj "code" ≠ some (.string "00000")

inductive Reaction (F : Type) where
  | refuse (refusal : Refusal F)
  | accept (fate : Fate)

def acceptance (orderId clientOid : String) : HttpAnswer F where
  status := 200
  body := some (.object
    [("code", .string "00000"), ("msg", .string "success"),
      ("data", .object [("orderId", .string orderId), ("clientOid", .string clientOid)])])

def Known (ex : Exchange) (clientOid : String) : Prop :=
  clientOid ≠ "" ∧ ∃ order ∈ ex.orders, order.clientOid = clientOid

instance (ex : Exchange) (clientOid : String) : Decidable (Known ex clientOid) :=
  inferInstanceAs (Decidable (_ ∧ _))

def placed (ex : Exchange) (clientOid : String) : Reaction F → Option ExchangeOrder
  | .refuse _ => none
  | .accept fate =>
    if Known ex clientOid then none
    else some ⟨"X" ++ toString ex.orders.length, clientOid, fate⟩

def receive (duplicate : Refusal F) (clientOid : String) (ex : Exchange) (reaction : Reaction F) :
    Exchange × HttpAnswer F :=
  match reaction with
  | .refuse refusal => (ex, if Known ex clientOid then duplicate.answer else refusal.answer)
  | .accept fate =>
    match placed ex clientOid (.accept fate : Reaction F) with
    | none => (ex, duplicate.answer)
    | some order => (⟨ex.orders ++ [order]⟩, acceptance order.orderId clientOid)

inductive Transport (F : Type) where
  | requestLost (what : String)
  | responseLost (what : String) (reaction : Reaction F)
  | serverError (answer : HttpAnswer F) (server : 500 ≤ answer.status ∧ answer.status < 600)
      (reaction : Reaction F)
  | delivered (reaction : Reaction F)

def arrives (duplicate : Refusal F) (clientOid : String) (ex : Exchange) :
    Transport F → Exchange × Except String (HttpAnswer F)
  | .requestLost what => (ex, .error what)
  | .responseLost what reaction => ((receive duplicate clientOid ex reaction).1, .error what)
  | .serverError answer _ reaction => ((receive duplicate clientOid ex reaction).1, .ok answer)
  | .delivered reaction =>
    ((receive duplicate clientOid ex reaction).1, .ok (receive duplicate clientOid ex reaction).2)

section Call
variable (duplicate : Refusal F) (clientOid : String) (transport : ℕ → Transport F)

def send (ex : Exchange) (i : ℕ) : Exchange × RestResponse F :=
  ((arrives duplicate clientOid ex (transport i)).1,
    executeOnce (arrives duplicate clientOid ex (transport i)).2)

def placedBy (ex : Exchange) : Transport F → Option ExchangeOrder
  | .requestLost _ => none
  | .responseLost _ reaction => placed ex clientOid reaction
  | .serverError _ _ reaction => placed ex clientOid reaction
  | .delivered reaction => placed ex clientOid reaction

def Transport.Delivered : Transport F → Prop
  | .delivered _ => True
  | _ => False

/-- Each attempt that is made places no order, or its answer is delivered, or the order is
cancelled by then and no other attempt has placed one. -/
def Heard : ℕ → ℕ → Bool → Exchange → Prop
  | 0, _, _, _ => True
  | n+1, i, earlier, ex =>
    (∀ order ∈ placedBy clientOid ex (transport i),
      earlier = false ∧ ((transport i).Delivered ∨ order.fate = .cancelled)) ∧
    (isFinal (send duplicate clientOid transport ex i).2 = false →
      Heard n (i + 1) (earlier || (placedBy clientOid ex (transport i)).isSome)
        (send duplicate clientOid transport ex i).1)

end Call

def created (before after : Exchange) : List ExchangeOrder :=
  after.orders.drop before.orders.length

def NoLeftover (before after : Exchange) (success : Bool) : Prop :=
  (success = false → ∀ order ∈ created before after, order.fate = .cancelled) ∧
    (created before after).length ≤ 1

def Accepted (response : RestResponse F) (submitted : F) : Prop :=
  (readAnswer response submitted).success = true

theorem not_accepted_of_failure (response : RestResponse F) (submitted : F)
    (h : response.success = false) : ¬Accepted response submitted := by
  rw [Accepted, readAnswer, if_pos h]
  exact Bool.false_ne_true

theorem not_accepted_of_code (response : RestResponse F) (submitted : F)
    (h : ∀ obj, response.body = some (.object obj) → find obj "code" ≠ some (.string "00000")) :
    ¬Accepted response submitted := by
  rw [Accepted, readAnswer]
  split_ifs
  · exact Bool.false_ne_true
  · cases hbody : response.body.bind Value.asObject with
    | none => exact Bool.false_ne_true
    | some obj =>
      have hobj : response.body = some (.object obj) := by
        obtain ⟨v, hv, hm⟩ := Option.bind_eq_some_iff.mp hbody
        rw [hv, (asObject_iff v obj).mp hm]
      cases hcode : answerCode obj with
      | none => simp [hcode, failed]
      | some answer =>
        obtain ⟨code, msg⟩ := answer
        have hne : code ≠ "00000" := by
          rintro rfl
          obtain ⟨c, hc, hrest⟩ := Option.bind_eq_some_iff.mp hcode
          obtain ⟨v, hv, hs⟩ := Option.bind_eq_some_iff.mp hc
          have hcc : c = "00000" := by
            cases hmsg : find obj "msg" with
            | none =>
              rw [hmsg] at hrest
              exact congrArg Prod.fst (Option.some.inj hrest)
            | some m =>
              rw [hmsg] at hrest
              obtain ⟨t, -, ht⟩ := Option.map_eq_some_iff.mp hrest
              exact congrArg Prod.fst ht
          exact h obj hobj (by rw [hv, (asString_iff v c).mp hs, hcc])
        simp [hcode, hne, failed]

theorem accepted_acceptance (orderId clientOid : String) (submitted : F) :
    Accepted (executeOnce (.ok (acceptance orderId clientOid))) submitted := rfl

section Steps
variable (duplicate : Refusal F) (clientOid : String) (ex : Exchange)

theorem receive_orders (reaction : Reaction F) :
    (receive duplicate clientOid ex reaction).1.orders =
      ex.orders ++ (placed ex clientOid reaction).toList := by
  cases reaction with
  | refuse refusal => simp [receive, placed]
  | accept fate =>
    rw [receive]
    cases placed ex clientOid (.accept fate : Reaction F) <;> simp

theorem arrives_orders (t : Transport F) : (arrives duplicate clientOid ex t).1.orders =
      ex.orders ++ (placedBy clientOid ex t).toList := by
  cases t with
  | requestLost what => simp [arrives, placedBy]
  | responseLost what reaction => exact receive_orders duplicate clientOid ex reaction
  | serverError answer server reaction => exact receive_orders duplicate clientOid ex reaction
  | delivered reaction => exact receive_orders duplicate clientOid ex reaction

/-- Only the delivered answer to a request that placed an order is an acceptance. -/
theorem accepted_iff (t : Transport F) (submitted : F) :
    Accepted (executeOnce (arrives duplicate clientOid ex t).2) submitted ↔
      t.Delivered ∧ (placedBy clientOid ex t).isSome = true := by
  cases t with
  | requestLost | responseLost =>
    exact ⟨fun h => absurd h (not_accepted_of_failure _ _ rfl), fun h => h.1.elim⟩
  | serverError answer server reaction =>
    refine ⟨fun h => absurd h (not_accepted_of_failure _ _ ?_), fun h => h.1.elim⟩
    show decide (200 ≤ answer.status ∧ answer.status < 300) = false
    exact decide_eq_false (by omega)
  | delivered reaction =>
    have hrefused : ∀ refusal : Refusal F,
        ¬Accepted (executeOnce (.ok refusal.answer)) submitted :=
      fun refusal => not_accepted_of_code _ _ refusal.refuses
    rw [arrives, placedBy]
    cases reaction with
    | refuse refusal =>
      refine ⟨fun h => absurd h ?_, fun h => absurd h.2 Bool.false_ne_true⟩
      rw [receive]
      split_ifs
      · exact hrefused duplicate
      · exact hrefused refusal
    | accept fate =>
      rw [receive]
      cases placed ex clientOid (.accept fate : Reaction F) with
      | none =>
        exact ⟨fun h => absurd h (hrefused duplicate), fun h => absurd h.2 Bool.false_ne_true⟩
      | some order =>
        exact ⟨fun _ => ⟨trivial, rfl⟩, fun _ => accepted_acceptance _ _ _⟩

end Steps

section Loop
variable (duplicate : Refusal F) (clientOid : String) (transport : ℕ → Transport F)

theorem send_orders (ex : Exchange) (i : ℕ) :
    (send duplicate clientOid transport ex i).1.orders =
      ex.orders ++ (placedBy clientOid ex (transport i)).toList :=
  arrives_orders duplicate clientOid ex (transport i)

theorem final_of_accepted (response : RestResponse F) (submitted : F)
    (h : Accepted response submitted) : isFinal response = true := by
  have hs : response.success = true := by
    by_contra hno
    exact not_accepted_of_failure response submitted (Bool.not_eq_true _ ▸ hno) h
  rw [isFinal, hs]
  rfl

/-- The exchange only gains orders during the attempts. -/
theorem attempts_grow (n i : ℕ) (ex : Exchange) (last : RestResponse F) :
    ex.orders <+: (attempts (send duplicate clientOid transport) n i ex last).1.orders :=
  attempts_invariant (send duplicate clientOid transport)
    (P := fun after => ex.orders <+: after.orders)
    (fun s i h => by rw [send_orders]; exact h.trans (List.prefix_append _ _)) n i ex last
    (List.prefix_refl _)

theorem attempts_accepted (n i : ℕ) (ex : Exchange) (last : RestResponse F) (submitted : F)
    (hlast : ¬Accepted last submitted)
    (h : Accepted (attempts (send duplicate clientOid transport) n i ex last).2 submitted) :
    ex.orders.length <
      (attempts (send duplicate clientOid transport) n i ex last).1.orders.length := by
  induction n generalizing i ex last with
  | zero => exact absurd h hlast
  | succ n ih =>
    have horders := send_orders duplicate clientOid transport ex i
    rw [attempts] at h ⊢
    split_ifs at h ⊢ with hfinal
    · obtain ⟨-, hplaced⟩ := (accepted_iff duplicate clientOid ex (transport i) submitted).mp h
      obtain ⟨order, horder⟩ := Option.isSome_iff_exists.mp hplaced
      rw [horders, horder]
      simp
    · have hnot : ¬Accepted (send duplicate clientOid transport ex i).2 submitted :=
        fun hacc => hfinal (final_of_accepted _ submitted hacc)
      refine lt_of_le_of_lt ?_ (ih (i + 1) _ _ hnot h)
      rw [horders, List.length_append]
      exact Nat.le_add_right _ _

structure Progress (before ex : Exchange) (earlier : Bool) : Prop where
  grown : before.orders <+: ex.orders
  cancelled : ∀ order ∈ created before ex, order.fate = .cancelled
  single : (created before ex).length ≤ 1
  earlier : earlier = false ↔ created before ex = []

theorem created_append (before ex after : Exchange) (more : List ExchangeOrder)
    (hgrown : before.orders <+: ex.orders) (h : after.orders = ex.orders ++ more) :
    created before after = created before ex ++ more := by
  rw [created, created, h, List.drop_append_of_le_length hgrown.length_le]

theorem created_grow (before ex after : Exchange) (hgrown : before.orders <+: ex.orders)
    (h : ex.orders <+: after.orders) : created before ex <+: created before after := by
  obtain ⟨more, hmore⟩ := h
  rw [created_append before ex after more hgrown hmore.symm]
  exact List.prefix_append _ _

def Leaves (before : Exchange) (submitted : F) (call : Exchange × RestResponse F) : Prop :=
  NoLeftover before call.1 (readAnswer call.2 submitted).success

variable (before : Exchange) (submitted : F)

theorem leaves_of_progress (call : Exchange × RestResponse F)
    (earlier : Bool) (h : Progress before call.1 earlier) : Leaves before submitted call :=
  ⟨fun _ => h.cancelled, h.single⟩

variable (n i : ℕ) (ex : Exchange) (last : RestResponse F)

theorem sent_grow : (send duplicate clientOid transport ex i).1.orders <+:
      (attempts (send duplicate clientOid transport) (n + 1) i ex last).1.orders := by
  rw [attempts]
  split_ifs
  · exact List.prefix_refl _
  · exact attempts_grow duplicate clientOid transport n (i + 1) _ _

theorem sent_created (before ex : Exchange) (i : ℕ) (hgrown : before.orders <+: ex.orders) :
    created before (send duplicate clientOid transport ex i).1 =
      created before ex ++ (placedBy clientOid ex (transport i)).toList :=
  created_append before ex _ _ hgrown (send_orders duplicate clientOid transport ex i)

theorem sent_grown (before ex : Exchange) (i : ℕ) (hgrown : before.orders <+: ex.orders) :
    before.orders <+: (send duplicate clientOid transport ex i).1.orders := by
  rw [send_orders]
  exact hgrown.trans (List.prefix_append _ _)

theorem leaves_next (earlier : Bool) (last : RestResponse F)
    (hnext : Progress before (send duplicate clientOid transport ex i).1 earlier)
    (ih : Leaves before submitted (attempts (send duplicate clientOid transport) n (i + 1)
        (send duplicate clientOid transport ex i).1 (send duplicate clientOid transport ex i).2) ↔
      Heard duplicate clientOid transport n (i + 1) earlier
        (send duplicate clientOid transport ex i).1) :
    Leaves before submitted (attempts (send duplicate clientOid transport) (n + 1) i ex last) ↔
      (isFinal (send duplicate clientOid transport ex i).2 = false →
        Heard duplicate clientOid transport n (i + 1) earlier
          (send duplicate clientOid transport ex i).1) := by
  rw [attempts]
  split_ifs with hfinal
  · exact ⟨fun _ hno => absurd (hfinal.symm.trans hno) (Ne.symm Bool.false_ne_true),
      fun _ => leaves_of_progress before submitted _ earlier hnext⟩
  · rw [ih]
    exact ⟨fun h _ => h, fun h => h (Bool.not_eq_true _ ▸ hfinal)⟩

variable (order : ExchangeOrder)

/-- An acceptance that arrives ends the call with its one order. -/
theorem leaves_delivered (hgrown : before.orders <+: ex.orders)
    (hplaced : placedBy clientOid ex (transport i) = some order)
    (hdelivered : (transport i).Delivered) (hfirst : created before ex = []) :
    isFinal (send duplicate clientOid transport ex i).2 = true ∧
      Leaves before submitted (attempts (send duplicate clientOid transport) (n + 1) i ex last) := by
  have hacc : Accepted (send duplicate clientOid transport ex i).2 submitted :=
    (accepted_iff duplicate clientOid ex (transport i) submitted).mpr
      ⟨hdelivered, by rw [hplaced]; rfl⟩
  have hfinal := final_of_accepted _ submitted hacc
  have hcreated := sent_created duplicate clientOid transport before ex i hgrown
  rw [hfirst, hplaced, List.nil_append, Option.toList_some] at hcreated
  refine ⟨hfinal, ?_⟩
  rw [attempts, if_pos hfinal]
  refine ⟨fun hno => absurd (hno.symm.trans hacc) Bool.false_ne_true, ?_⟩
  rw [hcreated]
  exact le_rfl

/-- An order whose acceptance does not arrive is left over, or another is placed beside it. -/
theorem not_leaves_unheard (hgrown : before.orders <+: ex.orders)
    (hplaced : placedBy clientOid ex (transport i) = some order)
    (hlost : ¬(transport i).Delivered) (halive : order.fate ≠ .cancelled) :
    ¬Leaves before submitted
      (attempts (send duplicate clientOid transport) (n + 1) i ex last) := by
  have hnot : ¬Accepted (send duplicate clientOid transport ex i).2 submitted :=
    fun hacc => hlost ((accepted_iff duplicate clientOid ex (transport i) submitted).mp hacc).1
  have hcreated := sent_created duplicate clientOid transport before ex i hgrown
  have hsent := sent_grown duplicate clientOid transport before ex i hgrown
  have hmem : order ∈ created before (send duplicate clientOid transport ex i).1 := by
    rw [hcreated, hplaced]
    exact List.mem_append_right _ (List.mem_singleton_self order)
  rintro ⟨hfailed, hone⟩
  have hkept := created_grow before _ _ hsent (sent_grow duplicate clientOid transport n i ex last)
  by_cases hacc : Accepted
      (attempts (send duplicate clientOid transport) (n + 1) i ex last).2 submitted
  · have hmore : (send duplicate clientOid transport ex i).1.orders.length <
        (attempts (send duplicate clientOid transport) (n + 1) i ex last).1.orders.length := by
      rw [attempts] at hacc ⊢
      split_ifs at hacc ⊢
      · exact absurd hacc hnot
      · exact attempts_accepted duplicate clientOid transport n (i + 1) _ _ submitted hnot hacc
    have hfirst : 0 < (created before (send duplicate clientOid transport ex i).1).length :=
      List.length_pos_of_mem hmem
    rw [created, List.length_drop] at hone hfirst
    omega
  · rw [Accepted, Bool.not_eq_true] at hacc
    exact halive (hfailed hacc order (hkept.subset hmem))

theorem not_leaves_second (hgrown : before.orders <+: ex.orders)
    (hplaced : placedBy clientOid ex (transport i) = some order)
    (hearlier : created before ex ≠ []) :
    ¬Leaves before submitted
      (attempts (send duplicate clientOid transport) (n + 1) i ex last) := by
  rintro ⟨-, hone⟩
  have hcreated := sent_created duplicate clientOid transport before ex i hgrown
  have hkept := created_grow before _ _
    (sent_grown duplicate clientOid transport before ex i hgrown)
    (sent_grow duplicate clientOid transport n i ex last)
  have hlen := hkept.length_le
  have hfirst := List.length_pos_iff.mpr hearlier
  rw [hcreated, hplaced, List.length_append, Option.toList_some, List.length_singleton] at hlen
  omega

theorem leaves_iff_heard
    (earlier : Bool) (last : RestResponse F) (hp : Progress before ex earlier) :
    Leaves before submitted (attempts (send duplicate clientOid transport) n i ex last) ↔
      Heard duplicate clientOid transport n i earlier ex := by
  induction n generalizing i ex earlier last with
  | zero => exact ⟨fun _ => trivial, fun _ => leaves_of_progress before submitted _ earlier hp⟩
  | succ n ih =>
    have hcreated := sent_created duplicate clientOid transport before ex i hp.grown
    have hgrown := sent_grown duplicate clientOid transport before ex i hp.grown
    rw [Heard]
    cases hplaced : placedBy clientOid ex (transport i) with
    | none =>
      rw [hplaced, Option.toList_none, List.append_nil] at hcreated
      have hnext : Progress before (send duplicate clientOid transport ex i).1
          (earlier || (none : Option ExchangeOrder).isSome) :=
        ⟨hgrown, hcreated ▸ hp.cancelled, hcreated ▸ hp.single, by
          rw [hcreated, Option.isSome_none, Bool.or_false]
          exact hp.earlier⟩
      rw [leaves_next duplicate clientOid transport before submitted n i ex _ last hnext
        (ih (i + 1) _ _ _ hnext)]
      exact ⟨fun h => ⟨fun order ho => absurd ho (Option.not_mem_none order), h⟩, fun h => h.2⟩
    | some order =>
      by_cases hfirst : created before ex = []
      · have hearlier := hp.earlier.mpr hfirst
        by_cases hdelivered : (transport i).Delivered
        · obtain ⟨hfinal, hleaves⟩ := leaves_delivered duplicate clientOid transport before submitted
            n i ex last order hp.grown hplaced hdelivered hfirst
          exact ⟨fun _ => ⟨fun _ _ => ⟨hearlier, Or.inl hdelivered⟩,
              fun hno => absurd (hfinal.symm.trans hno) (Ne.symm Bool.false_ne_true)⟩,
            fun _ => hleaves⟩
        by_cases hcancelled : order.fate = .cancelled
        · rw [hplaced, hfirst, List.nil_append, Option.toList_some] at hcreated
          have hnext : Progress before (send duplicate clientOid transport ex i).1
              (earlier || (some order).isSome) := by
            refine ⟨hgrown, ?_, ?_, ?_⟩ <;> rw [hcreated]
            · intro o ho
              rw [List.mem_singleton.mp ho]
              exact hcancelled
            · exact le_rfl
            · simp
          rw [leaves_next duplicate clientOid transport before submitted n i ex _ last hnext
            (ih (i + 1) _ _ _ hnext)]
          refine ⟨fun h => ⟨fun o ho => ?_, h⟩, fun h => h.2⟩
          rw [← Option.mem_some_iff.mp ho]
          exact ⟨hearlier, Or.inr hcancelled⟩
        · have hleft := not_leaves_unheard duplicate clientOid transport before submitted n i ex
            last order hp.grown hplaced hdelivered hcancelled
          refine ⟨fun h => absurd h hleft, fun h => ?_⟩
          obtain hd | hc := (h.1 order rfl).2
          · exact absurd hd hdelivered
          · exact absurd hc hcancelled
      · have hleft := not_leaves_second duplicate clientOid transport before submitted n i ex
          last order hp.grown hplaced hfirst
        exact ⟨fun h => absurd h hleft,
          fun h => absurd (hp.earlier.mp (h.1 order rfl).1) hfirst⟩

end Loop

theorem progress_start (ex : Exchange) : Progress ex ex false := by
  have hnone : created ex ex = [] := List.drop_length
  refine ⟨List.prefix_refl _, ?_, ?_, ?_⟩ <;> rw [hnone]
  · exact fun order ho => absurd ho List.not_mem_nil
  · exact Nat.zero_le 1
  · simp

section Submission
variable [CommonTypes.DoubleRounding F]

def post (duplicate : Refusal F) (transport : ℕ → Transport F) (retryMax : ℤ)
    (request : Request F) (ex : Exchange) : Exchange × RestResponse F :=
  execute (send duplicate request.clientOid transport) retryMax ex

def AllHeard (config : FuturesConfig) (rules : ExchangeSymbolRules F) (duplicate : Refusal F)
    (transport : ℕ → Transport F) (retryMax : ℤ) (ex : Exchange) (order : PlanOrder F) : Prop :=
  ∀ request ∈ buildRequest config rules order,
    Heard duplicate request.clientOid transport (retryMax + 1).toNat 0 false ex

/-- Exactly when no attempt places an order without its acceptance arriving (unless the
order is cancelled and no other is placed), a failed submission leaves no order and no
submission places two. -/
theorem no_leftover_iff (config : FuturesConfig) (rules : ExchangeSymbolRules F)
    (duplicate : Refusal F) (transport : ℕ → Transport F) (retryMax : ℤ) (ex : Exchange)
    (order : PlanOrder F) :
    NoLeftover ex
        (submitOrder config rules (post duplicate transport retryMax) ex order).1
        (submitOrder config rules (post duplicate transport retryMax) ex order).2.success ↔
      AllHeard config rules duplicate transport retryMax ex order := by
  rw [submitOrder, AllHeard]
  cases buildRequest config rules order with
  | none =>
    have hstart := progress_start ex
    exact ⟨fun _ request hr => absurd hr (Option.not_mem_none request),
      fun _ => ⟨fun _ => hstart.cancelled, hstart.single⟩⟩
  | some request =>
    have hiff := leaves_iff_heard duplicate request.clientOid transport ex
      (floorQuantity rules order.record.originalQuantity) (retryMax + 1).toNat 0 ex false {}
      (progress_start ex)
    constructor
    · intro h r hr
      rw [← Option.mem_some_iff.mp hr]
      exact hiff.mp h
    · exact fun h => hiff.mpr (h request rfl)

end Submission

def marketOrder : PlanOrder ℚ where
  record :=
    { orderId := "TB1-1"
      exchangeOrderId := ""
      symbol := "BTCUSDT"
      side := .buy
      positionSide := .long
      tradeSide := .opening
      orderType := .market
      tif := .immediateOrCancel
      price := 0
      originalQuantity := 1
      filledQuantity := 0
      remainingQuantity := 1
      avgFillPrice := 0
      state := .pendingAck
      strategyId := ""
      correlationId := ""
      createdAt := 0
      lastUpdated := 0
      rejectionReason := ""
      executionInfo := ⟨[], .waitForFull, "TB1-1", 0, 0, 0⟩
      attachedTpSl := ⟨0, 0, .markPrice⟩ }
  planParams := ⟨0, .markPrice, 0⟩

def duplicateClientOid : Refusal ℚ where
  answer :=
    { status := 400
      body := some (.object [("code", .string "40786"), ("msg", .string "Duplicate clientOid")]) }
  refuses := by
    rintro obj hobj
    obtain rfl := Value.object.inj (Option.some.inj hobj).symm
    rw [find_here _ _ _ (by rw [find_there _ _ _ _ (by decide), find_nil])]
    intro h
    exact absurd (Value.string.inj (Option.some.inj h)) (by decide)

def firstAnswerLost : ℕ → Transport ℚ
  | 0 => .responseLost "end of stream" (.accept .filled)
  | _ => .delivered (.accept .filled)

/-- The repetition of a request that was accepted is refused, and the order is filled. -/
theorem filled_order_left :
    ¬∀ (config : FuturesConfig) (rules : ExchangeSymbolRules ℚ) (duplicate : Refusal ℚ)
      (transport : ℕ → Transport ℚ) (retryMax : ℤ) (ex : Exchange) (order : PlanOrder ℚ),
      NoLeftover ex
        (submitOrder config rules (post duplicate transport retryMax) ex order).1
        (submitOrder config rules (post duplicate transport retryMax) ex order).2.success := by
  intro h
  obtain ⟨hfailed, -⟩ := h {} ⟨6, 2, 0, 0⟩ duplicateClientOid firstAnswerLost 3 ⟨[]⟩ marketOrder
  have hcancelled := hfailed (by decide +kernel) ⟨"X0", "TB1-1", .filled⟩ (by decide +kernel)
  exact Fate.noConfusion hcancelled

end TB.LeftoverOrders
