import TomorrowBot.EventRoundTrip

/-!
# The portfolio snapshot and its restoration

The snapshot lists the legs and the base capital. The restoration into a new
portfolio opens the legs at their entry prices over that capital. The legs are
compared key by key, the equity as the engine reports it.
-/

set_option autoImplicit false

namespace TB.SnapshotRoundTrip
open TB.CommonTypes TB.PortfolioEngine TB.PortfolioKeys TB.PortfolioEquity TB.RecoveryService
open TB.PortfolioJournal TB.EventRoundTrip JsonText

structure LegView where
  symbol : Symbol
  side : Side
  size : ℚ
  avgEntryPrice : ℚ
  strategyId : StrategyId
  openedAt : Timestamp

def legView (pos : Position ℚ) : LegView :=
  ⟨pos.symbol, pos.side, pos.size, pos.avgEntryPrice, pos.strategyId, pos.openedAt⟩

def SameLegs (p q : Portfolio ℚ) : Prop :=
  ∀ key, (p.positions.lookup key).map legView = (q.positions.lookup key).map legView

def Stamped (p : Portfolio ℚ) : Prop :=
  ∀ e ∈ p.positions.entries, Reading e.2.openedAt ∧ Reading e.2.updatedAt

def restored (symbol : Symbol) (p : Portfolio ℚ) (written now : Timestamp) (capital : ℚ) :
    Portfolio ℚ :=
  (restorePayload now (initPortfolio capital) (portfolioSnapshotJson symbol p written)).1

def Kept (pos : Position ℚ) : Prop := pos.symbol ≠ "" ∧ 0 < pos.size

instance (pos : Position ℚ) : Decidable (Kept pos) := inferInstanceAs (Decidable (_ ∧ _))

def reopened (now : Timestamp) (pos : Position ℚ) : Position ℚ :=
  { restoredPosition pos.symbol pos.side pos.size pos.avgEntryPrice pos.strategyId pos.openedAt
      now with notional := pos.avgEntryPrice * pos.size }

def restoredLeg (now : Timestamp) (pos : Position ℚ) : Position ℚ :=
  recalculatePositionPnl (freshLeg now (reopened now pos))

variable (now : Timestamp) (pos : Position ℚ)

theorem restoredLeg_view : legView (restoredLeg now pos) = legView pos := by
  unfold restoredLeg recalculatePositionPnl
  dsimp only
  split_ifs <;> rfl

theorem restoredLeg_unrealized : (restoredLeg now pos).unrealizedPnl = 0 := by
  have hm : legMark (freshLeg now (reopened now pos)) =
      markedPnl pos.side pos.avgEntryPrice pos.avgEntryPrice pos.size 0 := rfl
  rw [restoredLeg, recalculate_unrealized, hm, markedPnl]
  split_ifs
  · rfl
  · cases pos.side <;> simp [pricePnl]

theorem sideOfText_sideText (side : Side) : sideOfText (sideText side) = side := by
  cases side <;> simp [sideOfText, sideText]

theorem snapshotPosition_members (hs : Reading pos.openedAt) :
    snapshotPosition now (positionMembers pos) =
      some (if Kept pos then some (reopened now pos) else none) := by
  have hopened : Signed pos.openedAt := hs.2
  by_cases hsym : pos.symbol = ""
  · simp [snapshotPosition, positionMembers, WalWriter.readText, Value.asString, hsym, Kept]
  · by_cases hsize : pos.size ≤ 0
    · have hk : ¬ Kept pos := fun h => absurd h.2 (not_lt.mpr hsize)
      simp [snapshotPosition, positionMembers, WalWriter.readText, readDouble, Value.asString,
        Value.asDouble, hsize, hk]
    · have hk : Kept pos := ⟨hsym, not_le.mp hsize⟩
      simp [snapshotPosition, positionMembers, WalWriter.readText, readTextOr, readDouble,
        snapshotOpenedAt, Value.asString, Value.asDouble, Value.asInt64, hsym, hsize, hk, hopened,
        sideOfText_sideText, reopened]

def restoredAt (now : Timestamp) (l : List (Sigma fun _ : String => Position ℚ))
    (q : Portfolio ℚ) (key : String) : Option (Position ℚ) :=
  match l.dlookup key with
  | none => q.positions.lookup key
  | some pos => if Kept pos then some (restoredLeg now pos) else q.positions.lookup key

variable (q : Portfolio ℚ)

theorem openPosition_free (now : Timestamp) (key : String) (pos : Position ℚ)
    (hkey : OwnKey key pos) (hfree : q.positions.lookup key = none) :
    openPosition q now (reopened now pos) = storeLeg q key (restoredLeg now pos) := by
  have hk : makePosKey (reopened now pos).symbol (sideToPositionSide (reopened now pos).side) =
      key := hkey.symm
  have hl : q.positions.lookup (makePosKey (reopened now pos).symbol
      (sideToPositionSide (reopened now pos).side)) = none := by
    rw [hk]
    exact hfree
  simp only [openPosition, hl, hk]
  rfl

theorem storeLeg_unrealized (key : String) (pos : Position ℚ)
    (hfree : q.positions.lookup key = none) (hz : pos.unrealizedPnl = 0) :
    Keyed.total (·.unrealizedPnl) (storeLeg q key pos).positions =
      Keyed.total (·.unrealizedPnl) q.positions := by
  rw [storeLeg, Keyed.total_insert_sub, Keyed.weightAt_none _ _ _ hfree, hz, add_zero, sub_zero]

theorem restored_equity (now : Timestamp) (key : String) (pos : Position ℚ)
    (hfree : q.positions.lookup key = none) :
    equity (storeLeg q key (restoredLeg now pos)) = equity q := by
  have htotal := storeLeg_unrealized q key (restoredLeg now pos) hfree
    (restoredLeg_unrealized now pos)
  unfold equity
  rw [htotal]
  rfl

theorem restoredAt_kept (l : List (Sigma fun _ : String => Position ℚ))
    (q : Portfolio ℚ) (k : String) (pos : Position ℚ) (habsent : l.dlookup k = none)
    (hkept : Kept pos) (key : String) :
    restoredAt now l (storeLeg q k (restoredLeg now pos)) key =
      restoredAt now (⟨k, pos⟩ :: l) q key := by
  by_cases hkk : key = k
  · subst hkk
    simp [restoredAt, habsent, hkept, storeLeg]
  · simp only [restoredAt, List.dlookup_cons_ne l ⟨k, pos⟩ hkk, storeLeg,
      AList.lookup_insert_ne hkk]

theorem restoredAt_dropped (l : List (Sigma fun _ : String => Position ℚ))
    (q : Portfolio ℚ) (k : String) (pos : Position ℚ) (habsent : l.dlookup k = none)
    (hkept : ¬ Kept pos) (key : String) :
    restoredAt now l q key = restoredAt now (⟨k, pos⟩ :: l) q key := by
  by_cases hkk : key = k
  · subst hkk
    simp [restoredAt, habsent, hkept]
  · simp only [restoredAt, List.dlookup_cons_ne l ⟨k, pos⟩ hkk]

/-- The legs are opened one after the other; base capital, realised and
unrealised results stay as they are. -/
theorem restorePositions_spec (l : List (Sigma fun _ : String => Position ℚ)) (q : Portfolio ℚ)
    (hnodup : l.NodupKeys) (hkeys : ∀ e ∈ l, OwnKey e.1 e.2)
    (hfree : ∀ e ∈ l, q.positions.lookup e.1 = none)
    (hstamps : ∀ e ∈ l, Reading e.2.openedAt) :
    (∀ key, (restorePositions now q
        (l.map (fun e => .object (positionMembers e.2)))).1.positions.lookup key =
      restoredAt now l q key) ∧
    equity (restorePositions now q (l.map (fun e => .object (positionMembers e.2)))).1 =
      equity q := by
  induction l generalizing q with
  | nil => exact ⟨fun key => rfl, rfl⟩
  | cons e l ih =>
    obtain ⟨k, pos⟩ := e
    obtain ⟨hk, hnodup⟩ := List.nodupKeys_cons.mp hnodup
    have hkeys' : ∀ e ∈ l, OwnKey e.1 e.2 := fun e he => hkeys e (List.mem_cons_of_mem _ he)
    have hstamps' : ∀ e ∈ l, Reading e.2.openedAt :=
      fun e he => hstamps e (List.mem_cons_of_mem _ he)
    have hfree' : ∀ e ∈ l, q.positions.lookup e.1 = none :=
      fun e he => hfree e (List.mem_cons_of_mem _ he)
    have hown : OwnKey k pos := hkeys ⟨k, pos⟩ List.mem_cons_self
    have hfreek : q.positions.lookup k = none := hfree ⟨k, pos⟩ List.mem_cons_self
    have hsnap := snapshotPosition_members now pos (hstamps ⟨k, pos⟩ List.mem_cons_self)
    have habsent : l.dlookup k = none := List.dlookup_eq_none.mpr hk
    rw [List.map_cons, restorePositions, hsnap]
    by_cases hkept : Kept pos
    · have hne : ∀ e ∈ l, e.1 ≠ k := by
        intro e he heq
        have hmem := List.mem_keys_of_mem he
        rw [heq] at hmem
        exact hk hmem
      have hstored : ∀ e ∈ l,
          (storeLeg q k (restoredLeg now pos)).positions.lookup e.1 = none := by
        intro e he
        rw [storeLeg, AList.lookup_insert_ne (hne e he)]
        exact hfree' e he
      obtain ⟨ihl, ihe⟩ := ih (storeLeg q k (restoredLeg now pos)) hnodup hkeys' hstored hstamps'
      rw [if_pos hkept]
      dsimp only
      rw [openPosition_free q now k pos hown hfreek]
      constructor
      · intro key
        rw [ihl key, restoredAt_kept now l q k pos habsent hkept]
      · rw [ihe, restored_equity q now k pos hfreek]
    · obtain ⟨ihl, ihe⟩ := ih q hnodup hkeys' hfree' hstamps'
      rw [if_neg hkept]
      constructor
      · intro key
        show (restorePositions now q
          (l.map (fun e => .object (positionMembers e.2)))).1.positions.lookup key = _
        rw [ihl key, restoredAt_dropped now l q k pos habsent hkept]
      · exact ihe

theorem positions_printable (l : List (Sigma fun _ : String => Position ℚ))
    (h : ∀ e ∈ l, Reading e.2.openedAt ∧ Reading e.2.updatedAt) :
    ItemsPrintable (l.map (fun e => Value.object (positionMembers e.2))) := by
  induction l with
  | nil => trivial
  | cons e l ih =>
    obtain ⟨hopened, hupdated⟩ := h e List.mem_cons_self
    refine ⟨?_, ih (fun e he => h e (List.mem_cons_of_mem _ he))⟩
    show MembersPrintable _
    simp [positionMembers, MembersPrintable, Value.Printable, reading_inRange _ hopened,
      reading_inRange _ hupdated]

theorem positions_depth (l : List (Sigma fun _ : String => Position ℚ)) :
    itemsDepth (l.map (fun e => Value.object (positionMembers e.2))) ≤ 1 := by
  induction l with
  | nil => simp [itemsDepth]
  | cons e l ih =>
    have hd : (Value.object (positionMembers e.2)).depth = 1 := by
      simp [positionMembers, Value.depth, membersDepth]
    rw [List.map_cons, itemsDepth, hd]
    omega

variable (symbol : Symbol) (p : Portfolio ℚ)

theorem parse_snapshot (written : Timestamp) (hp : Stamped p) (hw : Reading written) :
    parse (portfolioSnapshotJson symbol p written) =
      some (.object (snapshotMembers symbol p written)) := by
  apply parse_render
  · show MembersPrintable _
    simp only [snapshotMembers, MembersPrintable, Value.Printable, true_and, and_true,
      reading_inRange written hw]
    exact positions_printable _ hp
  · have hd := positions_depth p.positions.entries
    simp only [snapshotMembers, positionValues, Value.depth, membersDepth, maxDepth]
    omega

/-- A capital that is not positive makes the restoration stop at once. -/
theorem restored_eq (written now : Timestamp) (capital : ℚ)
    (hp : Stamped p) (hw : Reading written) :
    restored symbol p written now capital =
      if 0 < p.totalCapital then
        (restorePositions now (setCapital (initPortfolio capital) p.totalCapital)
          (p.positions.entries.map (fun e => .object (positionMembers e.2)))).1
      else initPortfolio capital := by
  have hcapital : restoreCapital (initPortfolio capital) (snapshotMembers symbol p written) =
      if 0 < p.totalCapital then some (setCapital (initPortfolio capital) p.totalCapital)
      else none := by
    simp [restoreCapital, snapshotMembers, Value.asDouble, isfinite_rat]
  have hpositions : find (snapshotMembers symbol p written) "positions" =
      some (.array (positionValues p)) := by
    simp [snapshotMembers]
  rw [restored, restorePayload, parse_snapshot symbol p written hp hw]
  simp only [Option.bind_some, Value.asObject, hcapital]
  by_cases hc : 0 < p.totalCapital
  · simp only [if_pos hc, hpositions]
    rfl
  · simp only [if_neg hc]

def Restorable (p : Portfolio ℚ) (capital : ℚ) : Prop :=
  if 0 < p.totalCapital then
    (∀ e ∈ p.positions.entries, Kept e.2) ∧
      p.realizedPnlToday + Keyed.total (·.unrealizedPnl) p.positions = 0
  else p.positions.entries = [] ∧ equity p = capital

theorem lookup_of_entry (e : Sigma fun _ : String => Position ℚ)
    (he : e ∈ p.positions.entries) : p.positions.lookup e.1 = some e.2 :=
  AList.mem_lookup_iff.mpr he

theorem sameLegs_iff (p r : Portfolio ℚ) (now : Timestamp)
    (hr : ∀ key, r.positions.lookup key =
      (p.positions.lookup key).bind (fun pos => if Kept pos then some (restoredLeg now pos)
        else none)) :
    SameLegs r p ↔ ∀ e ∈ p.positions.entries, Kept e.2 := by
  constructor
  · intro h e he
    have hkey := h e.1
    rw [hr, lookup_of_entry p e he, Option.bind_some] at hkey
    by_contra hk
    rw [if_neg hk] at hkey
    exact absurd hkey (by simp)
  · intro h key
    rw [hr]
    rcases hl : p.positions.lookup key with _ | pos
    · rfl
    · have hk : Kept pos := h ⟨key, pos⟩ (AList.mem_lookup_iff.mp hl)
      rw [Option.bind_some, if_pos hk, Option.map_some, Option.map_some, restoredLeg_view]

theorem sameLegs_init (capital : ℚ) :
    SameLegs (initPortfolio capital) p ↔ p.positions.entries = [] := by
  constructor
  · intro h
    rw [List.eq_nil_iff_forall_not_mem]
    intro e he
    have hkey := h e.1
    rw [lookup_of_entry p e he] at hkey
    exact absurd hkey (by simp [initPortfolio])
  · intro h key
    have hl : p.positions.lookup key = none := by
      show p.positions.entries.dlookup key = none
      rw [h]
      rfl
    rw [hl]
    rfl

theorem restored_iff (written now : Timestamp) (capital : ℚ)
    (hk : WellKeyed p) (hp : Stamped p) (hw : Reading written) :
    (SameLegs (restored symbol p written now capital) p ∧
      equity (restored symbol p written now capital) = equity p) ↔ Restorable p capital := by
  rw [restored_eq symbol p written now capital hp hw, Restorable]
  by_cases hc : 0 < p.totalCapital
  · rw [if_pos hc, if_pos hc]
    let q := setCapital (initPortfolio capital) p.totalCapital
    have hempty : ∀ key, q.positions.lookup key = none := fun key => AList.lookup_empty key
    have hq : equity q = p.totalCapital := by
      simp [q, equity, setCapital, initPortfolio, totalUnrealized, Keyed.total]
    obtain ⟨hlegs, heq⟩ := restorePositions_spec now p.positions.entries q p.positions.nodupKeys
      (fun e he => hk e.1 e.2 (lookup_of_entry p e he)) (fun e _ => hempty e.1)
      (fun e he => (hp e he).1)
    have hlegs' : ∀ key, (restorePositions now q (p.positions.entries.map
        (fun e => .object (positionMembers e.2)))).1.positions.lookup key =
        (p.positions.lookup key).bind (fun pos => if Kept pos then some (restoredLeg now pos)
          else none) := by
      intro key
      have hkey := hlegs key
      rw [restoredAt, hempty] at hkey
      rw [hkey]
      show _ = (p.positions.entries.dlookup key).bind _
      cases p.positions.entries.dlookup key <;> rfl
    rw [sameLegs_iff p _ now hlegs', heq, hq]
    have hequity : p.totalCapital = equity p ↔
        p.realizedPnlToday + Keyed.total (·.unrealizedPnl) p.positions = 0 := by
      rw [equity, add_assoc]
      exact left_eq_add
    rw [hequity]
  · rw [if_neg hc, if_neg hc]
    have hequity : equity (initPortfolio capital) = capital := by
      simp [equity, initPortfolio, Keyed.total]
    rw [sameLegs_init, hequity]
    exact and_congr_right (fun _ => eq_comm)

/-- Over every run of the engine: the snapshot brings back the same legs and the
same equity exactly if the base capital is positive, every leg has a name and
a size and the realised and unrealised results cancel; or, without a positive
capital, if there is no leg and the new portfolio starts with the equity. -/
theorem snapshot_restored_iff (start : ℚ) (ops : List (PortfolioOp ℚ)) (symbol : Symbol)
    (written now : Timestamp) (capital : ℚ)
    (hp : Stamped (Runs.run portfolioStep (initPortfolio start) ops)) (hw : Reading written) :
    (SameLegs (restored symbol (Runs.run portfolioStep (initPortfolio start) ops) written now
        capital) (Runs.run portfolioStep (initPortfolio start) ops) ∧
      equity (restored symbol (Runs.run portfolioStep (initPortfolio start) ops) written now
        capital) = equity (Runs.run portfolioStep (initPortfolio start) ops)) ↔
    Restorable (Runs.run portfolioStep (initPortfolio start) ops) capital :=
  restored_iff symbol _ written now capital (run_wellKeyed start ops) hp hw

section Profit

def wonTrade : List (PortfolioOp ℚ) :=
  [.openPosition 1 (restoredPosition "BTCUSDT" .buy 1 100 "scalp" 1 1),
    .closePositionSide "BTCUSDT" .long 10]

def afterTrade : Portfolio ℚ := Runs.run portfolioStep (initPortfolio 1000) wonTrade

theorem afterTrade_stamped : Stamped afterTrade := by
  have hempty : afterTrade.positions.entries = [] := by decide +kernel
  intro e he
  rw [hempty] at he
  exact absurd he List.not_mem_nil

/-- The profit of the day is not in the snapshot. -/
theorem profit_not_restored :
    ¬ ∀ (start : ℚ) (ops : List (PortfolioOp ℚ)) (symbol : Symbol) (written now : Timestamp)
      (capital : ℚ), Stamped (Runs.run portfolioStep (initPortfolio start) ops) →
      Reading written →
      SameLegs (restored symbol (Runs.run portfolioStep (initPortfolio start) ops) written now
          capital) (Runs.run portfolioStep (initPortfolio start) ops) ∧
        equity (restored symbol (Runs.run portfolioStep (initPortfolio start) ops) written now
          capital) = equity (Runs.run portfolioStep (initPortfolio start) ops) := by
  intro h
  have hr := h 1000 wonTrade "BTCUSDT" 2 3 0 afterTrade_stamped ⟨by decide, by decide⟩
  rw [restored_iff "BTCUSDT" _ 2 3 0 (run_wellKeyed 1000 wonTrade) afterTrade_stamped
    ⟨by decide, by decide⟩] at hr
  have hcapital : (0 : ℚ) < afterTrade.totalCapital := by decide +kernel
  have hresult : afterTrade.realizedPnlToday +
      Keyed.total (·.unrealizedPnl) afterTrade.positions = 10 := by decide +kernel
  have hzero := ((if_pos hcapital).mp hr).2
  exact absurd (hresult.symm.trans hzero) (by decide)

theorem snapshot_restored_iff_wonTrade :
    (SameLegs (restored "BTCUSDT" (Runs.run portfolioStep (initPortfolio 1000) wonTrade) 2 3 0)
        (Runs.run portfolioStep (initPortfolio 1000) wonTrade) ∧
      equity (restored "BTCUSDT" (Runs.run portfolioStep (initPortfolio 1000) wonTrade) 2 3 0) =
        equity (Runs.run portfolioStep (initPortfolio 1000) wonTrade)) ↔
    Restorable (Runs.run portfolioStep (initPortfolio 1000) wonTrade) 0 :=
  snapshot_restored_iff 1000 wonTrade "BTCUSDT" 2 3 0 afterTrade_stamped ⟨by decide, by decide⟩

end Profit

end TB.SnapshotRoundTrip
