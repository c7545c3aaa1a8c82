import TomorrowBot.DualLegManager

/-!
# The execution of a pair

The coordinator sizes the two legs, lets the manager enter or close them and
remembers a leg that was left without its partner. It closes such a leg later,
for the symbol of the last pair that was entered or closed.
-/

set_option autoImplicit false

namespace TB.DualLeg
open TB.CommonTypes

structure PairExecutionCoordinator (F : Type) where
  attachServerTpsl : Bool
  dualLegMgr : Option (DualLegManager F)
  orphanDetected : Bool
  orphanSide : PositionSide
  orphanDetectTimeNs : ℤ
  activeSymbol : Option Symbol

structure EntryTimes where
  started : Timestamp
  entered : Timestamp
  finished : Timestamp

structure PairEntryExecResult (F : Type) where
  success : Bool
  longOrderId : String
  shortOrderId : String
  longFillQty : F
  shortFillQty : F
  fillSkewNs : ℤ
  error : String

structure PairCloseExecResult (F : Type) where
  success : Bool
  netRealizedPnl : F
  error : String

structure Executed (F R : Type) where
  coordinator : PairExecutionCoordinator F
  result : R
  sent : List (Request F)

section Coordinator
variable {F : Type} [DoubleArith F]

def entryFailed (error : String) : PairEntryExecResult F := ⟨false, "", "", 0, 0, 0, error⟩

omit [DoubleArith F] in
def hasOrphanLeg (c : PairExecutionCoordinator F) : Bool := c.orphanDetected

omit [DoubleArith F] in
def orphaned (c : PairExecutionCoordinator F) (side : PositionSide) (now : Timestamp) :
    PairExecutionCoordinator F :=
  { c with orphanDetected := true, orphanSide := side, orphanDetectTimeNs := now }

def legSpec (c : PairExecutionCoordinator F) (m : DualLegManager F) (side : PositionSide)
    (size entryPriceHint : F) : LegSpec F :=
  let tpsl := if c.attachServerTpsl then computeTpsl m.config entryPriceHint side else (0, 0)
  ⟨size, entryPriceHint, tpsl.1, tpsl.2⟩

def executePairEntry (ex : Submitter F) (times : EntryTimes) (hedgeRatio : F) (symbol : Symbol)
    (baseSize entryPriceHint : F) (c : PairExecutionCoordinator F) :
    Executed F (PairEntryExecResult F) :=
  match c.dualLegMgr with
  | none => ⟨c, entryFailed "DualLegManager not available", []⟩
  | some m =>
    let hedgeSize := baseSize * hedgeRatio
    let pair := enterPair ex times.entered symbol (legSpec c m .long baseSize entryPriceHint)
      (legSpec c m .short hedgeSize entryPriceHint) m
    let next := { c with dualLegMgr := some pair.manager }
    if !pair.result.success then
      let left := pair.manager.longLeg.state
      let next := if left = .active ∨ left = .pendingEntry then orphaned next .long times.finished
        else next
      ⟨next, entryFailed pair.result.error, pair.sent⟩
    else
      ⟨{ next with activeSymbol := some symbol, orphanDetected := false },
        ⟨true, pair.result.longLeg.exchangeOrderId, pair.result.shortLeg.exchangeOrderId, baseSize,
          hedgeSize, times.finished - times.started, ""⟩, pair.sent⟩

def executePairClose (ex : Submitter F) (now : Timestamp) (symbol : Symbol) (netPairPnlBps : F)
    (c : PairExecutionCoordinator F) : Executed F (PairCloseExecResult F) :=
  match c.dualLegMgr with
  | none => ⟨c, ⟨false, 0, "DualLegManager not available"⟩, []⟩
  | some m =>
    let closed := closeBoth ex symbol m
    let next := { c with dualLegMgr := some closed.manager, activeSymbol := some symbol }
    if !closed.result then
      let long := closed.manager.longLeg.state
      let short := closed.manager.shortLeg.state
      let next :=
        if long = .active ∧ short ≠ .active then orphaned next .long now
        else if short = .active ∧ long ≠ .active then orphaned next .short now
        else next
      ⟨next, ⟨false, 0, "close_both failed"⟩, closed.sent⟩
    else ⟨{ next with orphanDetected := false }, ⟨true, netPairPnlBps, ""⟩, closed.sent⟩

def closeActiveLeg (ex : Submitter F) (symbol : Symbol) (side : PositionSide)
    (m : DualLegManager F) : Option (Outcome F Bool) :=
  if (leg m side).state = .active ∧ 0 < (leg m side).size then
    some (closeLeg ex symbol side (leg m side).size m)
  else none

def closeSingleLeg (ex : Submitter F) (side : PositionSide) (c : PairExecutionCoordinator F) :
    Executed F Bool :=
  match c.dualLegMgr, c.activeSymbol with
  | some m, some symbol =>
    match closeActiveLeg ex symbol side m with
    | some closed => ⟨{ c with dualLegMgr := some closed.manager }, closed.result, closed.sent⟩
    | none => ⟨c, false, []⟩
  | _, _ => ⟨c, false, []⟩

def cleanupOrphanLeg (ex : Submitter F) (c : PairExecutionCoordinator F) : Executed F Unit :=
  if !c.orphanDetected then ⟨c, (), []⟩
  else
    match c.dualLegMgr, c.activeSymbol with
    | some m, some symbol =>
      match closeActiveLeg ex symbol c.orphanSide m with
      | some closed =>
        ⟨{ c with dualLegMgr := some closed.manager, orphanDetected := !closed.result }, (),
          closed.sent⟩
      | none => ⟨{ c with orphanDetected := false }, (), []⟩
    | _, _ => ⟨c, (), []⟩

theorem executePairClose_success (ex : Submitter F) (now : Timestamp) (symbol : Symbol)
    (netPairPnlBps : F) (c : PairExecutionCoordinator F) :
    ((executePairClose ex now symbol netPairPnlBps c).result.success = true ↔
      ∃ m, c.dualLegMgr = some m ∧ (closeBoth ex symbol m).result = true) ∧
    ((executePairClose ex now symbol netPairPnlBps c).result.success = true →
      hasOrphanLeg (executePairClose ex now symbol netPairPnlBps c).coordinator = false) := by
  unfold executePairClose
  rcases c.dualLegMgr with _ | m
  · simp
  cases hclosed : (closeBoth ex symbol m).result with
  | false => simp [hclosed]
  | true => simp [hclosed, hasOrphanLeg]

theorem closeActiveLeg_sent (ex : Submitter F) (symbol : Symbol) (side : PositionSide)
    (m : DualLegManager F) {closed : Outcome F Bool}
    (h : closeActiveLeg ex symbol side m = some closed) :
    (leg m side).state = .active ∧
      closed.sent = [.submit (closeOrder symbol side (leg m side).size)] := by
  unfold closeActiveLeg at h
  split_ifs at h with hactive
  obtain rfl := Option.some.inj h
  exact ⟨hactive.1, closeLeg_sent ex symbol side _ m⟩

theorem closeSingleLeg_sent (ex : Submitter F) (side : PositionSide)
    (c : PairExecutionCoordinator F) (h : (closeSingleLeg ex side c).result = true) :
    ∃ m symbol, c.dualLegMgr = some m ∧ c.activeSymbol = some symbol ∧
      (leg m side).state = .active ∧
        (closeSingleLeg ex side c).sent =
          [.submit (closeOrder symbol side (leg m side).size)] := by
  unfold closeSingleLeg at h ⊢
  split at h
  · rename_i m symbol hm hs
    cases hclose : closeActiveLeg ex symbol side m with
    | none => simp [hclose] at h
    | some closed =>
      obtain ⟨hactive, hsent⟩ := closeActiveLeg_sent ex symbol side m hclose
      exact ⟨m, symbol, hm, hs, hactive, by simpa only [hm, hs, hclose] using hsent⟩
  · exact nomatch h

/-- The cleanup sends at most the close of the remembered leg. -/
theorem cleanupOrphanLeg_sent (ex : Submitter F) (c : PairExecutionCoordinator F) :
    (cleanupOrphanLeg ex c).sent = [] ∨
      ∃ m symbol, c.dualLegMgr = some m ∧ (leg m c.orphanSide).state = .active ∧
        (cleanupOrphanLeg ex c).sent =
          [.submit (closeOrder symbol c.orphanSide (leg m c.orphanSide).size)] := by
  unfold cleanupOrphanLeg
  split
  · exact .inl rfl
  split
  · rename_i m symbol hm hs
    cases hclose : closeActiveLeg ex symbol c.orphanSide m with
    | none => exact .inl rfl
    | some closed =>
      obtain ⟨hactive, hsent⟩ := closeActiveLeg_sent ex symbol c.orphanSide m hclose
      exact .inr ⟨m, symbol, hm, hactive, hsent⟩
  · exact .inl rfl

end Coordinator

end TB.DualLeg
