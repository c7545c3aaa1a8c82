import TomorrowBot.BracketVerification

/-!
# The cleanup of plan orders that no bracket tracks

While a position is open, the cleanup cancels every plan order of its symbol
whose identifier no bracket remembers. A bracket remembers its orders only once
they were verified, and a symbol can have a second leg, so an order that
protects an open leg is spared exactly when it is tracked or nothing is.
-/

set_option autoImplicit false

namespace TB.ProtectiveBracketManager
open TB.CommonTypes

section Cleanup
variable {F : Type}

def activeOf (brackets : Dict (BracketState F)) (symbol : Symbol) : List (BracketState F) :=
  (brackets.entries.map (fun e => e.2)).filter (fun b => b.symbol == symbol && !b.released)

def trackedIds (actives : List (BracketState F)) : List OrderId :=
  (actives.flatMap (fun b => [b.tpOrderId, b.slOrderId])).filter (fun id => id != "")

def orphanCancel (symbol : Symbol) (p : PlanOrderInfo F) : PlanCancel :=
  ⟨p.orderId, symbol, planTypeOrNormal p.planType⟩

def isOrphan (symbol : Symbol) (tracked : List OrderId) (p : PlanOrderInfo F) : Bool :=
  p.symbol == symbol && !tracked.contains p.orderId

structure Cleanup where
  cancels : List PlanCancel
  cancelled : ℕ

def cleanupOrphansForSymbol (ex : PlanExchange F) (brackets : Dict (BracketState F))
    (symbol : Symbol) (hasOpenPosition : Bool) : Cleanup :=
  match ex.getOpenPlanOrders symbol with
  | none => ⟨[], 0⟩
  | some plans =>
    let actives := activeOf brackets symbol
    if hasOpenPosition && actives.isEmpty then ⟨[], 0⟩
    else
      let orphans := plans.filter (isOrphan symbol (trackedIds actives))
      let cancels := orphans.map (orphanCancel symbol)
      ⟨cancels, cancels.countP ex.cancelPlanOrder⟩

def listedOrders (ex : PlanExchange F) (symbol : Symbol) : List (PlanOrderInfo F) :=
  (ex.getOpenPlanOrders symbol).getD []

def protects (symbol : Symbol) (openLeg : PositionSide → Bool) (closes : PlanOrderInfo F → Bool)
    (p : PlanOrderInfo F) : Bool :=
  p.symbol == symbol && openLeg p.positionSide && closes p

def SparesProtection (ex : PlanExchange F) (brackets : Dict (BracketState F)) (symbol : Symbol)
    (openLeg : PositionSide → Bool) (closes : PlanOrderInfo F → Bool) : Prop :=
  ∀ p ∈ listedOrders ex symbol, protects symbol openLeg closes p = true →
    orphanCancel symbol p ∉ (cleanupOrphansForSymbol ex brackets symbol true).cancels

def ProtectionTracked (ex : PlanExchange F) (brackets : Dict (BracketState F)) (symbol : Symbol)
    (openLeg : PositionSide → Bool) (closes : PlanOrderInfo F → Bool) : Prop :=
  activeOf brackets symbol = [] ∨
    ∀ p ∈ listedOrders ex symbol, protects symbol openLeg closes p = true →
      p.orderId ∈ trackedIds (activeOf brackets symbol)

theorem mem_activeOf (brackets : Dict (BracketState F)) (key : String) (b : BracketState F)
    (h : brackets.lookup key = some b) (hr : b.released = false) :
    b ∈ activeOf brackets b.symbol := by
  apply List.mem_filter.mpr
  constructor
  · exact List.mem_map.mpr ⟨⟨key, b⟩, AList.mem_lookup_iff.mp h, rfl⟩
  · simp [hr]

variable (ex : PlanExchange F) (brackets : Dict (BracketState F)) (symbol : Symbol)

theorem cleanup_blind (h : activeOf brackets symbol = []) :
    (cleanupOrphansForSymbol ex brackets symbol true).cancels = [] := by
  unfold cleanupOrphansForSymbol
  cases ex.getOpenPlanOrders symbol with
  | none => rfl
  | some plans => simp [h]

theorem cleanup_cancels (hasOpenPosition : Bool) (h : activeOf brackets symbol ≠ []) :
    (cleanupOrphansForSymbol ex brackets symbol hasOpenPosition).cancels =
      ((listedOrders ex symbol).filter (isOrphan symbol (trackedIds (activeOf brackets symbol)))).map
        (orphanCancel symbol) := by
  unfold cleanupOrphansForSymbol listedOrders
  cases ex.getOpenPlanOrders symbol with
  | none => rfl
  | some plans => simp [h]

theorem orphan_of_cancel (p : PlanOrderInfo F) (h : activeOf brackets symbol ≠ [])
    (hc : orphanCancel symbol p ∈ (cleanupOrphansForSymbol ex brackets symbol true).cancels) :
    p.orderId ∉ trackedIds (activeOf brackets symbol) := by
  rw [cleanup_cancels ex brackets symbol true h] at hc
  obtain ⟨q, hq, heq⟩ := List.mem_map.mp hc
  have hid : q.orderId = p.orderId := congrArg PlanCancel.orderId heq
  have horphan := (List.mem_filter.mp hq).2
  rw [isOrphan, hid] at horphan
  simpa using (Bool.and_eq_true_iff.mp horphan).2

theorem cancel_of_orphan (p : PlanOrderInfo F) (h : activeOf brackets symbol ≠ [])
    (hp : p ∈ listedOrders ex symbol) (hs : p.symbol = symbol)
    (hn : p.orderId ∉ trackedIds (activeOf brackets symbol)) :
    orphanCancel symbol p ∈ (cleanupOrphansForSymbol ex brackets symbol true).cancels := by
  rw [cleanup_cancels ex brackets symbol true h]
  apply List.mem_map_of_mem
  apply List.mem_filter.mpr
  exact ⟨hp, by simp [isOrphan, hs, hn]⟩

/-- Cleanup with an open position spares the protection of every open leg
exactly when it sees no bracket of the symbol or all protecting orders are tracked. -/
theorem cleanup_spares_iff (ex : PlanExchange F) (brackets : Dict (BracketState F))
    (symbol : Symbol) (openLeg : PositionSide → Bool) (closes : PlanOrderInfo F → Bool) :
    SparesProtection ex brackets symbol openLeg closes ↔
      ProtectionTracked ex brackets symbol openLeg closes := by
  by_cases hactive : activeOf brackets symbol = []
  · constructor
    · intro _
      exact .inl hactive
    · intro _ p _ _
      rw [cleanup_blind ex brackets symbol hactive]
      exact List.not_mem_nil
  · constructor
    · intro hspares
      right
      intro p hp hprotects
      by_contra hn
      have hs : p.symbol = symbol := by
        have h := hprotects
        simp only [protects, Bool.and_eq_true, beq_iff_eq] at h
        exact h.1.1
      exact hspares p hp hprotects (cancel_of_orphan ex brackets symbol p hactive hp hs hn)
    · intro htracked p hp hprotects hc
      have hall := htracked.resolve_left hactive
      exact orphan_of_cancel ex brackets symbol p hactive hc (hall p hp hprotects)

end Cleanup

section Registration
variable {F : Type} [DoubleArith F]

theorem registration_exposes (ex : PlanExchange F) (brackets : Dict (BracketState F))
    (symbol : Symbol) (ps : PositionSide) (entryPrice size tpPrice slPrice : F) (now : Timestamp)
    (p : PlanOrderInfo F) (hp : p ∈ listedOrders ex symbol) (hs : p.symbol = symbol)
    (hn : ∀ key b, key ≠ makeKey symbol ps → brackets.lookup key = some b →
      p.orderId ≠ b.tpOrderId ∧ p.orderId ≠ b.slOrderId) :
    orphanCancel symbol p ∈ (cleanupOrphansForSymbol ex
      (onPositionOpened symbol ps entryPrice size tpPrice slPrice now brackets).brackets
      symbol true).cancels := by
  have hnew : (onPositionOpened symbol ps entryPrice size tpPrice slPrice now
      brackets).brackets.lookup (makeKey symbol ps) =
        some (newBracket symbol ps entryPrice size tpPrice slPrice now) := AList.lookup_insert _
  have hmem := mem_activeOf _ _ _ hnew rfl
  apply cancel_of_orphan ex _ symbol p (List.ne_nil_of_mem hmem) hp hs
  intro htracked
  obtain ⟨hid, hne⟩ := List.mem_filter.mp htracked
  obtain ⟨b, hb, hids⟩ := List.mem_flatMap.mp hid
  obtain ⟨e, he, rfl⟩ := List.mem_map.mp (List.mem_filter.mp hb).1
  have hlook : (onPositionOpened symbol ps entryPrice size tpPrice slPrice now
      brackets).brackets.lookup e.1 = some e.2 := AList.mem_lookup_iff.mpr he
  by_cases hkey : e.1 = makeKey symbol ps
  · rw [hkey, hnew] at hlook
    rw [← Option.some.inj hlook] at hids
    simp [newBracket] at hids
    simp [hids] at hne
  · have hold : brackets.lookup e.1 = some e.2 := by
      rw [← hlook]
      exact (AList.lookup_insert_ne hkey).symm
    have hfree := hn e.1 e.2 hkey hold
    simp [hfree.1, hfree.2] at hids

end Registration

section Example

def attachedOrders : List (PlanOrderInfo ℚ) :=
  [⟨"2001", "", "BTCUSDT", .long, .posTpsl, 60480, 0, 0.01, "mark_price", "pos_profit", 1⟩,
    ⟨"2002", "", "BTCUSDT", .long, .posTpsl, 59100, 0, 0.01, "mark_price", "pos_loss", 1⟩]

/-- A registered bracket that was not verified yet lets its own stop be cancelled. -/
theorem unverified_protection_cancelled :
    ¬ ∀ (ex : PlanExchange ℚ) (brackets : Dict (BracketState ℚ)) (symbol : Symbol)
      (openLeg : PositionSide → Bool) (closes : PlanOrderInfo ℚ → Bool),
      SparesProtection ex brackets symbol openLeg closes := by
  intro h
  have hspares := h ⟨fun _ => some attachedOrders, fun _ => true⟩
    (onPositionOpened "BTCUSDT" .long 60000 0.01 60480 59100 1 ∅).brackets "BTCUSDT"
    (fun ps => ps == .long) (fun _ => true)
    ⟨"2002", "", "BTCUSDT", .long, .posTpsl, 59100, 0, 0.01, "mark_price", "pos_loss", 1⟩
    (by decide +kernel) (by decide +kernel)
  revert hspares
  decide +kernel

end Example

end TB.ProtectiveBracketManager
