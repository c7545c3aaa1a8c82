import TomorrowBot.BracketOrders
import TomorrowBot.Runs

/-!
# Calls on one leg whose sections interleave

Every call runs as a thread of sections. A section works on the brackets under
the lock, or is one call of the exchange, which succeeds; between two sections
other threads run. A thread carries the copies it took. The exchange has its
live plan orders; it attaches orders to entries and may remove any order.
-/

set_option autoImplicit false

namespace TB.BracketThreads
open TB.CommonTypes TB.ProtectiveBracketManager TB.BracketOrders

inductive Call (F : Type) where
  | onPositionOpened (entryPrice size tpPrice slPrice : F) (now : Timestamp)
  | verifyBrackets (now : Timestamp)
  | release

inductive Thread (F : Type) where
  | registering (entryPrice size tpPrice slPrice : F) (now : Timestamp)
  | cancelling (cancels : List PlanCancel)
  | copying (now : Timestamp)
  | listing (now : Timestamp) (copy : BracketState F) (position : ℕ)
  | adopting (now : Timestamp) (copy : BracketState F) (position : ℕ) (found : FoundOrders)
  | placing (now : Timestamp) (copy : BracketState F) (position : ℕ) (todo : List Role)
      (succeeded : Bool)
  | recording (now : Timestamp) (copy : BracketState F) (position : ℕ) (role : Role)
      (id : OrderId) (todo : List Role)
  | concluding
  | taking
  | seeking (b : BracketState F)
  | revoking (cancels : List PlanCancel)
  | done
  deriving DecidableEq

structure Answer where
  placing : Placing
  id : OrderId

inductive Event (F : Type) where
  | call (c : Call F)
  | run (i : ℕ) (answer : Answer)
  | attach (p : PlanOrderInfo F) (position : ℕ)
  | vanish (id : OrderId)

structure World (F : Type) where
  brackets : Dict (BracketState F)
  live : List (PlanOrderInfo F)
  threads : List (Thread F)
  closed : Bool
  opened : Option (BracketState F)
  positions : ℕ
  owner : OrderId → Option ℕ

section Sections
variable {F : Type} [DoubleArith F]

def start : World F := ⟨∅, [], [], false, none, 0, fun _ => none⟩

omit [DoubleArith F] in
def exchangeOf (live : List (PlanOrderInfo F)) : PlanExchange F where
  getOpenPlanOrders symbol := some (live.filter (fun p => p.symbol == symbol))
  cancelPlanOrder c := live.any (fun p => p.orderId == c.orderId)

def accepting (live : List (PlanOrderInfo F)) (id : OrderId) : BracketExchange F where
  toPlanExchange := exchangeOf live
  submitPlanOrder order := ⟨true, id, "", order.record.originalQuantity⟩

omit [DoubleArith F] in
def cancelOrder (live : List (PlanOrderInfo F)) (id : OrderId) : List (PlanOrderInfo F) :=
  live.filter (fun p => p.orderId != id)

def standaloneInfo (order : PlanOrder F) (id : OrderId) : PlanOrderInfo F where
  orderId := id
  clientOrderId := order.record.orderId
  symbol := order.record.symbol
  positionSide := order.record.positionSide
  kind := .normalPlan
  triggerPrice := order.planParams.triggerPrice
  executePrice := order.planParams.executePrice
  size := order.record.originalQuantity
  triggerType := "mark_price"
  planType := "normal_plan"
  createdAtMs := order.record.createdAt.tdiv 1000000

omit [DoubleArith F] in
def recordRole : Role → OrderId → BracketState F → BracketState F
  | .stopLoss, id => recordSl id
  | .takeProfit, id => recordTp id

omit [DoubleArith F] in
def needed (need : NeedFallback) : List Role :=
  (if need.sl then [.stopLoss] else []) ++ (if need.tp then [.takeProfit] else [])

omit [DoubleArith F] in
def afterAdopting (now : Timestamp) (copy : BracketState F) (position : ℕ) :
    List Role → Thread F
  | [] => .concluding
  | todo => .placing now copy position todo false

omit [DoubleArith F] in
def takeBracket (key : String) (brackets : Dict (BracketState F)) :
    Dict (BracketState F) × Thread F :=
  match activeBracket brackets key with
  | none => (brackets, .done)
  | some b => (Keyed.modify brackets key (fun b => { b with released := true }), .seeking b)

def registerSection (symbol : Symbol) (ps : PositionSide)
    (entryPrice size tpPrice slPrice : F) (now : Timestamp) (w : World F) :
    World F × Thread F :=
  let registered := onPositionOpened symbol ps entryPrice size tpPrice slPrice now w.brackets
  ({ w with
      brackets := registered.brackets
      closed := false
      opened := some (newBracket symbol ps entryPrice size tpPrice slPrice now)
      positions := w.positions + 1 }, .cancelling registered.cancels)

omit [DoubleArith F] in
def copySection (cfg : ProtectiveBracketConfig) (key : String) (now : Timestamp) (w : World F) :
    Thread F :=
  match activeBracket w.brackets key with
  | none => .done
  | some copy => if mayVerify cfg now copy then .listing now copy w.positions else .done

def adoptSection (cfg : ProtectiveBracketConfig) (key : String) (now : Timestamp)
    (copy : BracketState F) (position : ℕ) (found : FoundOrders) (w : World F) :
    World F × Thread F :=
  match activeBracket w.brackets key with
  | none => (w, .done)
  | some current =>
    let written := writeBack now found current
    ({ w with brackets := Keyed.modify w.brackets key (fun _ => written) },
      afterAdopting now copy position (needed (needFallback cfg written)))

def placeSection (answer : Answer) (now : Timestamp) (copy : BracketState F) (position : ℕ)
    (role : Role) (todo : List Role) (succeeded : Bool) (w : World F) : World F × Thread F :=
  let id := placeStandalonePlan (accepting w.live answer.id) answer.placing copy
    (rolePrice role copy)
  if id = "" then (w, .placing now copy position todo succeeded)
  else
    ({ w with
        live := w.live ++
          [standaloneInfo (standalonePlan answer.placing copy (rolePrice role copy)) id]
        owner := Function.update w.owner id (some position) },
      .recording now copy position role id todo)

def runSection (cfg : ProtectiveBracketConfig) (symbol : Symbol) (ps : PositionSide)
    (answer : Answer) (w : World F) : Thread F → World F × Thread F
  | .registering entryPrice size tpPrice slPrice now =>
    registerSection symbol ps entryPrice size tpPrice slPrice now w
  | .cancelling [] => (w, .done)
  | .cancelling (c :: cancels) =>
    ({ w with live := cancelOrder w.live c.orderId }, .cancelling cancels)
  | .copying now => (w, copySection cfg (makeKey symbol ps) now w)
  | .listing now copy position =>
    (w, .adopting now copy position
      (findOrders symbol ps copy (listedOrders (exchangeOf w.live) symbol)))
  | .adopting now copy position found =>
    adoptSection cfg (makeKey symbol ps) now copy position found w
  | .placing now _ _ [] succeeded =>
    ({ w with
        brackets := Keyed.modify w.brackets (makeKey symbol ps) (noteFallback cfg now succeeded) },
      .concluding)
  | .placing now copy position (role :: todo) succeeded =>
    placeSection answer now copy position role todo succeeded w
  | .recording now copy position role id todo =>
    ({ w with brackets := Keyed.modify w.brackets (makeKey symbol ps) (recordRole role id) },
      .placing now copy position todo true)
  | .concluding =>
    ({ w with brackets := Keyed.modify w.brackets (makeKey symbol ps) conclude }, .done)
  | .taking =>
    let taken := takeBracket (makeKey symbol ps) w.brackets
    ({ w with brackets := taken.1, closed := true }, taken.2)
  | .seeking b => (w, .revoking (releaseCancels (exchangeOf w.live) symbol ps b))
  | .revoking [] => ({ w with brackets := w.brackets.erase (makeKey symbol ps) }, .done)
  | .revoking (c :: cancels) =>
    ({ w with live := cancelOrder w.live c.orderId }, .revoking cancels)
  | .done => (w, .done)

omit [DoubleArith F] in
def threadOf : Call F → Thread F
  | .onPositionOpened entryPrice size tpPrice slPrice now =>
    .registering entryPrice size tpPrice slPrice now
  | .verifyBrackets now => .copying now
  | .release => .taking

omit [DoubleArith F] in
def openedAfter (w : World F) : Call F → Option (BracketState F)
  | .release => none
  | _ => w.opened

def runThread (cfg : ProtectiveBracketConfig) (symbol : Symbol) (ps : PositionSide) (i : ℕ)
    (answer : Answer) (w : World F) : World F :=
  match w.threads[i]? with
  | none => w
  | some t =>
    let after := runSection cfg symbol ps answer w t
    { after.1 with threads := w.threads.set i after.2 }

def worldStep (cfg : ProtectiveBracketConfig) (symbol : Symbol) (ps : PositionSide)
    (w : World F) : Event F → World F
  | .call c => { w with threads := w.threads ++ [threadOf c], opened := openedAfter w c }
  | .run i answer => runThread cfg symbol ps i answer w
  | .attach p position =>
    { w with
      live := w.live ++ [p]
      closed := w.closed && !(isLegOrder symbol ps p && decide (w.positions < position))
      owner := Function.update w.owner p.orderId (some position) }
  | .vanish id => { w with live := cancelOrder w.live id }

def Quiet (w : World F) : Prop := ∀ t ∈ w.threads, t = .done

end Sections

section Running
variable {F : Type} [DoubleArith F]

theorem runThread_none (cfg : ProtectiveBracketConfig) (symbol : Symbol) (ps : PositionSide)
    (i : ℕ) (answer : Answer) (w : World F) (h : w.threads[i]? = none) :
    runThread cfg symbol ps i answer w = w := by
  rw [runThread, h]

theorem runThread_some (cfg : ProtectiveBracketConfig) (symbol : Symbol) (ps : PositionSide)
    (i : ℕ) (answer : Answer) (w : World F) (t : Thread F) (h : w.threads[i]? = some t) :
    runThread cfg symbol ps i answer w =
      { (runSection cfg symbol ps answer w t).1 with
        threads := w.threads.set i (runSection cfg symbol ps answer w t).2 } := by
  rw [runThread, h]

omit [DoubleArith F] in
theorem mem_cancelOrder (live : List (PlanOrderInfo F)) (id : OrderId) (p : PlanOrderInfo F) :
    p ∈ cancelOrder live id ↔ p ∈ live ∧ p.orderId ≠ id := by
  simp [cancelOrder]

theorem placeSection_cases (answer : Answer) (now : Timestamp) (copy : BracketState F)
    (position : ℕ) (role : Role) (todo : List Role) (succeeded : Bool) (w : World F) :
    placeSection answer now copy position role todo succeeded w =
        (w, .placing now copy position todo succeeded) ∨
      (0.0 < rolePrice role copy ∧ isfinite (rolePrice role copy) = true ∧ answer.id ≠ "" ∧
        placeSection answer now copy position role todo succeeded w =
          ({ w with
              live := w.live ++ [standaloneInfo
                (standalonePlan answer.placing copy (rolePrice role copy)) answer.id]
              owner := Function.update w.owner answer.id (some position) },
            .recording now copy position role answer.id todo)) := by
  unfold placeSection placeStandalonePlan
  by_cases hbad : ¬ 0.0 < rolePrice role copy ∨ isfinite (rolePrice role copy) = false
  · left
    simp [hbad]
  · simp only [if_neg hbad, accepting, if_true]
    by_cases hempty : answer.id = ""
    · left
      simp [hempty]
    · right
      rw [if_neg hempty]
      obtain ⟨hprice, hfinite⟩ := not_or.mp hbad
      exact ⟨not_not.mp hprice, Bool.eq_true_of_not_eq_false hfinite, hempty, rfl⟩

end Running

end TB.BracketThreads
