import TomorrowBot.BracketThreads

/-!
# A call that nothing interrupts

A call whose sections run one after the other changes the brackets and the live
orders as the method does, with the exchange that lists these orders.
-/

set_option autoImplicit false

namespace TB.BracketCalls
open TB.CommonTypes TB.ProtectiveBracketManager
open TB.BracketOrders TB.BracketThreads

section Solo
variable {F : Type} [DoubleArith F]

def solo (cfg : ProtectiveBracketConfig) (symbol : Symbol) (ps : PositionSide)
    (reply : Thread F → Answer) : ℕ → World F × Thread F → World F × Thread F
  | 0, s => s
  | n + 1, s => solo cfg symbol ps reply n (runSection cfg symbol ps (reply s.2) s.1 s.2)

def Leads (cfg : ProtectiveBracketConfig) (symbol : Symbol) (ps : PositionSide)
    (reply : Thread F → Answer) (s t : World F × Thread F) : Prop :=
  ∃ n, solo cfg symbol ps reply n s = t

variable (cfg : ProtectiveBracketConfig) (symbol : Symbol) (ps : PositionSide)
  (reply : Thread F → Answer)

theorem leads_refl (s : World F × Thread F) : Leads cfg symbol ps reply s s := ⟨0, rfl⟩

theorem leads_step {s t : World F × Thread F}
    (h : Leads cfg symbol ps reply (runSection cfg symbol ps (reply s.2) s.1 s.2) t) :
    Leads cfg symbol ps reply s t := by
  obtain ⟨n, hn⟩ := h
  exact ⟨n + 1, hn⟩

theorem runSection_threads (answer : Answer) (w : World F) (t : Thread F)
    (threads : List (Thread F)) :
    runSection cfg symbol ps answer { w with threads := threads } t =
      ({ (runSection cfg symbol ps answer w t).1 with threads := threads },
        (runSection cfg symbol ps answer w t).2) := by
  cases t with
  | adopting now copy position found =>
    show adoptSection _ _ _ _ _ _ _ = _
    unfold runSection adoptSection
    dsimp only
    cases activeBracket w.brackets (makeKey symbol ps) <;> rfl
  | placing now copy position todo succeeded =>
    cases todo with
    | nil => rfl
    | cons role todo =>
      show placeSection _ _ _ _ _ _ _ _ = _
      unfold runSection placeSection
      dsimp only
      split_ifs <;> rfl
  | cancelling cancels => cases cancels <;> rfl
  | revoking cancels => cases cancels <;> rfl
  | _ => rfl

theorem solo_threads (n : ℕ) (w : World F) (t : Thread F) (threads : List (Thread F)) :
    solo cfg symbol ps reply n ({ w with threads := threads }, t) =
      ({ (solo cfg symbol ps reply n (w, t)).1 with threads := threads },
        (solo cfg symbol ps reply n (w, t)).2) := by
  induction n generalizing w t with
  | zero => rfl
  | succ n ih =>
    show solo cfg symbol ps reply n (runSection cfg symbol ps (reply t) _ t) = _
    rw [runSection_threads, ih]
    rfl

/-- Solo sections are steps of the world in which the other threads stand still. -/
theorem solo_run (n i : ℕ) (w : World F) (t : Thread F) (h : w.threads[i]? = some t) :
    ∃ answers : List Answer, Runs.run (worldStep cfg symbol ps) w (answers.map (Event.run i)) =
      { (solo cfg symbol ps reply n (w, t)).1 with
        threads := w.threads.set i (solo cfg symbol ps reply n (w, t)).2 } := by
  obtain ⟨hi, hget⟩ := List.getElem?_eq_some_iff.mp h
  induction n generalizing w t with
  | zero =>
    use []
    have hset : w.threads.set i t = w.threads := by
      rw [← hget]
      exact List.set_getElem_self hi
    show w = { w with threads := w.threads.set i t }
    rw [hset]
  | succ n ih =>
    let after := runSection cfg symbol ps (reply t) w t
    let next : World F := { after.1 with threads := w.threads.set i after.2 }
    have hstep : runThread cfg symbol ps i (reply t) w = next :=
      runThread_some cfg symbol ps i (reply t) w t h
    have hi' : i < next.threads.length := by
      show i < (w.threads.set i after.2).length
      rwa [List.length_set]
    have hget' : next.threads[i] = after.2 := List.getElem_set_self hi'
    obtain ⟨answers, hrun⟩ := ih next after.2 (List.getElem?_eq_some_iff.mpr ⟨hi', hget'⟩) hi' hget'
    use reply t :: answers
    show Runs.run _ (runThread cfg symbol ps i (reply t) w) _ = _
    rw [hstep, hrun, solo_threads]
    dsimp only [next]
    rw [List.set_set]
    rfl

end Solo

section Calls
variable {F : Type} [DoubleArith F]

omit [DoubleArith F] in
def cancelOrders (live : List (PlanOrderInfo F)) (cancels : List PlanCancel) :
    List (PlanOrderInfo F) :=
  cancels.foldl (fun live c => cancelOrder live c.orderId) live

omit [DoubleArith F] in
def naming (live : List (PlanOrderInfo F)) (name : PlanOrder F → OrderId) : BracketExchange F where
  toPlanExchange := exchangeOf live
  submitPlanOrder order := ⟨true, name order, "", order.record.originalQuantity⟩

omit [DoubleArith F] in
def rolePlacing (placings : Placings) : Role → Placing
  | .takeProfit => placings.tp
  | .stopLoss => placings.sl

def namingReply (name : PlanOrder F → OrderId) (placings : Placings) : Thread F → Answer
  | .placing _ copy _ (role :: _) _ =>
    ⟨rolePlacing placings role,
      name (standalonePlan (rolePlacing placings role) copy (rolePrice role copy))⟩
  | _ => ⟨⟨"", 0⟩, ""⟩

def called (cfg : ProtectiveBracketConfig) (symbol : Symbol) (ps : PositionSide)
    (name : PlanOrder F → OrderId) (placings : Placings) (w : World F) :
    Call F → Dict (BracketState F) × List (PlanOrderInfo F)
  | .onPositionOpened entryPrice size tpPrice slPrice now =>
    let opened := onPositionOpened symbol ps entryPrice size tpPrice slPrice now w.brackets
    (opened.brackets, cancelOrders w.live opened.cancels)
  | .verifyBrackets now =>
    let verified := verifyBrackets cfg (naming w.live name) now placings symbol ps w.brackets
    (verified.brackets, w.live ++ verified.placed.map (fun p => standaloneInfo p.order p.id))
  | .release =>
    let released := release (exchangeOf w.live) w.brackets symbol ps
    (released.brackets, cancelOrders w.live released.cancels)

def Arrives (cfg : ProtectiveBracketConfig) (symbol : Symbol) (ps : PositionSide)
    (reply : Thread F → Answer) (s : World F × Thread F) (t : Thread F)
    (brackets : Dict (BracketState F)) (live : List (PlanOrderInfo F)) : Prop :=
  ∃ w, Leads cfg symbol ps reply s (w, t) ∧ w.brackets = brackets ∧ w.live = live

variable (cfg : ProtectiveBracketConfig) (symbol : Symbol) (ps : PositionSide)
  (reply : Thread F → Answer)

theorem arrives_step {s : World F × Thread F} {t : Thread F} {brackets : Dict (BracketState F)}
    {live : List (PlanOrderInfo F)}
    (h : Arrives cfg symbol ps reply (runSection cfg symbol ps (reply s.2) s.1 s.2) t brackets
      live) : Arrives cfg symbol ps reply s t brackets live := by
  obtain ⟨w, hw, hb, hl⟩ := h
  exact ⟨w, leads_step cfg symbol ps reply hw, hb, hl⟩

theorem cancelling_arrives (cancels : List PlanCancel) (w : World F) :
    Arrives cfg symbol ps reply (w, .cancelling cancels) .done w.brackets
      (cancelOrders w.live cancels) := by
  induction cancels generalizing w with
  | nil => exact ⟨w, ⟨1, rfl⟩, rfl, rfl⟩
  | cons c cancels ih =>
    apply arrives_step
    exact ih { w with live := cancelOrder w.live c.orderId }

theorem revoking_arrives (cancels : List PlanCancel) (w : World F) :
    Arrives cfg symbol ps reply (w, .revoking cancels) .done
      (w.brackets.erase (makeKey symbol ps)) (cancelOrders w.live cancels) := by
  induction cancels generalizing w with
  | nil => exact ⟨_, ⟨1, rfl⟩, rfl, rfl⟩
  | cons c cancels ih =>
    apply arrives_step
    exact ih { w with live := cancelOrder w.live c.orderId }

omit [DoubleArith F] in
theorem erase_modify (brackets : Dict (BracketState F)) (key : String)
    (f : BracketState F → BracketState F) :
    (Keyed.modify brackets key f).erase key = brackets.erase key := by
  unfold Keyed.modify
  cases brackets.lookup key with
  | none => rfl
  | some b =>
    apply AList.ext
    show List.kerase key (⟨key, f b⟩ :: List.kerase key brackets.entries) = _
    exact List.kerase_cons_eq rfl

variable (name : PlanOrder F → OrderId) (placings : Placings)

theorem release_arrives (w : World F) : Arrives cfg symbol ps reply (w, .taking) .done
      (called cfg symbol ps name placings w .release).1
      (called cfg symbol ps name placings w .release).2 := by
  apply arrives_step
  dsimp only [called]
  unfold release runSection takeBracket activeBracket
  cases hb : w.brackets.lookup (makeKey symbol ps) with
  | none => exact ⟨_, leads_refl cfg symbol ps reply _, rfl, rfl⟩
  | some b =>
    cases hr : b.released with
    | true =>
      simp only [Option.filter_some, hr, Bool.not_true]
      exact ⟨_, leads_refl cfg symbol ps reply _, rfl, rfl⟩
    | false =>
      simp only [Option.filter_some, hr, Bool.not_false]
      apply arrives_step
      obtain ⟨w', hw, hbrackets, hlive⟩ := revoking_arrives cfg symbol ps reply
        (releaseCancels (exchangeOf w.live) symbol ps b) { w with
          brackets := Keyed.modify w.brackets (makeKey symbol ps)
            (fun b => { b with released := true })
          closed := true }
      rw [erase_modify] at hbrackets
      exact ⟨w', hw, hbrackets, hlive⟩

def placedFor (name : PlanOrder F → OrderId) (placings : Placings) (copy : BracketState F)
    (live : List (PlanOrderInfo F)) (todo : List Role) : List (Placed F) :=
  todo.flatMap (fun role => fallback (roleKind role) true (rolePlacing placings role)
    (naming live name) copy (rolePrice role copy))

omit [DoubleArith F] in
theorem recordPlaced_role (key : String) (brackets : Dict (BracketState F)) (role : Role)
    (order : PlanOrder F) (id : OrderId) :
    recordPlaced key brackets ⟨roleKind role, order, id⟩ =
      Keyed.modify brackets key (recordRole role id) := by
  cases role <;> rfl

theorem placed_name (copy : BracketState F) (live live' : List (PlanOrderInfo F)) (role : Role) :
    placeStandalonePlan (accepting live
        (name (standalonePlan (rolePlacing placings role) copy (rolePrice role copy))))
      (rolePlacing placings role) copy (rolePrice role copy) =
    placeStandalonePlan (naming live' name) (rolePlacing placings role) copy
      (rolePrice role copy) := rfl

variable (now : Timestamp) (copy : BracketState F)

theorem placing_arrives (position : ℕ) (live : List (PlanOrderInfo F)) (todo : List Role)
    (succeeded : Bool) (w : World F) :
    Arrives cfg symbol ps (namingReply name placings)
      (w, .placing now copy position todo succeeded) .done
      (Keyed.modify (Keyed.modify
        ((placedFor name placings copy live todo).foldl (recordPlaced (makeKey symbol ps)) w.brackets)
        (makeKey symbol ps)
        (noteFallback cfg now (succeeded || !(placedFor name placings copy live todo).isEmpty)))
        (makeKey symbol ps) conclude)
      (w.live ++ (placedFor name placings copy live todo).map
        (fun p => standaloneInfo p.order p.id)) := by
  induction todo generalizing w succeeded with
  | nil =>
    have hnone : placedFor name placings copy live [] = [] := rfl
    rw [hnone, List.isEmpty_nil, Bool.not_true, Bool.or_false, List.map_nil, List.append_nil]
    exact ⟨_, ⟨2, rfl⟩, rfl, rfl⟩
  | cons role todo ih =>
    have hcons : placedFor name placings copy live (role :: todo) =
        fallback (roleKind role) true (rolePlacing placings role) (naming live name) copy
          (rolePrice role copy) ++ placedFor name placings copy live todo := rfl
    rw [hcons]
    apply arrives_step
    show Arrives _ _ _ _ (placeSection _ _ _ _ _ _ _ _) _ _ _
    unfold placeSection fallback
    dsimp only [namingReply]
    rw [placed_name name placings copy w.live live role]
    cases hid : decide (placeStandalonePlan (naming live name) (rolePlacing placings role) copy
        (rolePrice role copy) = "") with
    | true =>
      have hempty := of_decide_eq_true hid
      simp only [hempty, bne_self_eq_false, Bool.and_false]
      exact ih succeeded w
    | false =>
      have hne := of_decide_eq_false hid
      rw [if_neg hne]
      simp only [bne_iff_ne.mpr hne, Bool.and_self, if_true]
      apply arrives_step
      obtain ⟨w', hw, hbrackets, hlive⟩ := ih true _
      refine ⟨w', hw, ?_, ?_⟩
      · rw [hbrackets, List.singleton_append, List.foldl_cons, recordPlaced_role]
        rw [List.isEmpty_cons, Bool.true_or, Bool.not_false, Bool.or_true]
      · rw [hlive, List.singleton_append, List.map_cons, ← List.append_cons]

theorem placedFor_needed (live : List (PlanOrderInfo F)) (need : NeedFallback) :
    placedFor name placings copy live (needed need) =
      fallback .lossPlan need.sl placings.sl (naming live name) copy copy.slPrice ++
        fallback .profitPlan need.tp placings.tp (naming live name) copy copy.tpPrice := by
  obtain ⟨sl, tp⟩ := need
  cases sl <;> cases tp <;> simp [needed, placedFor, fallback, roleKind, rolePlacing, rolePrice]

omit [DoubleArith F] in
theorem needed_isEmpty (need : NeedFallback) :
    (needed need).isEmpty = !(need.sl || need.tp) := by
  obtain ⟨sl, tp⟩ := need
  cases sl <;> cases tp <;> rfl

theorem adopting_arrives (position : ℕ) (found : FoundOrders) (w : World F) :
    Arrives cfg symbol ps (namingReply name placings) (w, .adopting now copy position found) .done
      (completeVerification cfg (naming w.live name) now placings (makeKey symbol ps) copy found
        w.brackets).brackets
      (w.live ++ (completeVerification cfg (naming w.live name) now placings (makeKey symbol ps)
        copy found w.brackets).placed.map (fun p => standaloneInfo p.order p.id)) := by
  apply arrives_step
  show Arrives _ _ _ _ (adoptSection _ _ _ _ _ _ _) _ _ _
  unfold adoptSection completeVerification
  cases activeBracket w.brackets (makeKey symbol ps) with
  | none =>
    rw [List.map_nil, List.append_nil]
    exact ⟨w, leads_refl cfg symbol ps _ _, rfl, rfl⟩
  | some current =>
    dsimp only
    rw [← placedFor_needed]
    have hneeded := needed_isEmpty (needFallback cfg (writeBack now found current))
    cases hneed : needed (needFallback cfg (writeBack now found current)) with
    | nil =>
      rw [hneed, List.isEmpty_nil, eq_comm, Bool.not_eq_true'] at hneeded
      rw [hneeded, show placedFor name placings copy w.live [] = [] from rfl, List.map_nil,
        List.append_nil]
      exact ⟨_, ⟨1, rfl⟩, rfl, rfl⟩
    | cons role todo =>
      rw [hneed, List.isEmpty_cons, eq_comm, Bool.not_eq_false'] at hneeded
      rw [hneeded, if_pos rfl]
      obtain ⟨w', hw, hbrackets, hlive⟩ := placing_arrives cfg symbol ps name placings now copy
        position w.live (role :: todo) false { w with
          brackets := Keyed.modify w.brackets (makeKey symbol ps)
            (fun _ => writeBack now found current) }
      rw [Bool.false_or] at hbrackets
      exact ⟨w', hw, hbrackets, hlive⟩

theorem opening_arrives (entryPrice size tpPrice slPrice : F) (now : Timestamp)
    (name : PlanOrder F → OrderId) (placings : Placings) (w : World F) :
    Arrives cfg symbol ps reply (w, .registering entryPrice size tpPrice slPrice now) .done
      (called cfg symbol ps name placings w
        (.onPositionOpened entryPrice size tpPrice slPrice now)).1
      (called cfg symbol ps name placings w
        (.onPositionOpened entryPrice size tpPrice slPrice now)).2 := by
  apply arrives_step
  exact cancelling_arrives cfg symbol ps reply _ _

theorem verify_arrives (name : PlanOrder F → OrderId) (placings : Placings) (w : World F) :
    Arrives cfg symbol ps (namingReply name placings) (w, .copying now) .done
      (called cfg symbol ps name placings w (.verifyBrackets now)).1
      (called cfg symbol ps name placings w (.verifyBrackets now)).2 := by
  apply arrives_step
  show Arrives _ _ _ _ (w, copySection cfg (makeKey symbol ps) now w) _ _ _
  dsimp only [called]
  unfold verifyBrackets copySection
  dsimp only
  cases activeBracket w.brackets (makeKey symbol ps) with
  | none =>
    rw [List.map_nil, List.append_nil]
    exact ⟨w, leads_refl cfg symbol ps _ _, rfl, rfl⟩
  | some copy =>
    dsimp only
    cases mayVerify cfg now copy with
    | false =>
      rw [Bool.not_false, if_pos rfl, if_neg Bool.false_ne_true, List.map_nil, List.append_nil]
      exact ⟨w, leads_refl cfg symbol ps _ _, rfl, rfl⟩
    | true =>
      rw [Bool.not_true, if_neg Bool.false_ne_true, if_pos rfl]
      apply arrives_step
      exact adopting_arrives cfg symbol ps name placings now copy w.positions _ w

/-- A call that runs without others changes the brackets and the live orders as the
method does. -/
theorem call_alone (w : World F) (c : Call F) : ∃ answers : List Answer, ∃ w' : World F,
      Runs.run (worldStep cfg symbol ps) w
        (.call c :: answers.map (Event.run w.threads.length)) = w' ∧
      w'.threads = w.threads ++ [.done] ∧
      (w'.brackets, w'.live) = called cfg symbol ps name placings w c := by
  let start : World F := { w with threads := w.threads ++ [threadOf c], opened := openedAfter w c }
  have harrives : Arrives cfg symbol ps (namingReply name placings) (start, threadOf c) .done
      (called cfg symbol ps name placings start c).1
      (called cfg symbol ps name placings start c).2 := by
    cases c with
    | onPositionOpened entryPrice size tpPrice slPrice now =>
      exact opening_arrives cfg symbol ps _ entryPrice size tpPrice slPrice now name placings start
    | verifyBrackets now => exact verify_arrives cfg symbol ps now name placings start
    | release => exact release_arrives cfg symbol ps _ name placings start
  obtain ⟨w', ⟨n, hn⟩, hbrackets, hlive⟩ := harrives
  have hthread : start.threads[w.threads.length]? = some (threadOf c) :=
    List.getElem?_concat_length
  obtain ⟨answers, hrun⟩ :=
    solo_run cfg symbol ps (namingReply name placings) n w.threads.length start _ hthread
  rw [hn] at hrun
  refine ⟨answers, _, hrun, ?_, ?_⟩
  · show (w.threads ++ [threadOf c]).set w.threads.length .done = _
    rw [List.set_append_right _ _ (le_refl _), Nat.sub_self]
    rfl
  · have hsame : called cfg symbol ps name placings start c =
        called cfg symbol ps name placings w c := by
      cases c <;> rfl
    rw [← hsame]
    exact Prod.ext hbrackets hlive

end Calls

end TB.BracketCalls
