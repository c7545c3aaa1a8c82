import TomorrowBot.PortfolioEquity
import TomorrowBot.RecoveryService

/-!
# Snapshots that are refused

The capital and the positions of a snapshot are applied while it is read. An
accessor that throws ends the reading and takes nothing back, so a refused
snapshot leaves the portfolio alone when nothing came before the entry that
throws: no new capital and no position.
-/

set_option autoImplicit false

namespace TB.SnapshotRefusals
open TB.CommonTypes TB.PortfolioEngine TB.RecoveryService JsonText

section Reading
variable {F : Type} [DoubleArith F]

def throws (now : Timestamp) : Value F → Bool
  | .object d => (snapshotPosition now d).isNone
  | _ => false

def opens (now : Timestamp) : Value F → Option (Position F)
  | .object d => (snapshotPosition now d).join
  | _ => none

def readBefore (now : Timestamp) (vs : List (Value F)) : List (Value F) :=
  vs.takeWhile (fun v => !throws now v)

def UsableCapital (obj : Members F) : Prop :=
  ∀ v, find obj "total_capital" = some v →
    ∃ c, v.asDouble = some c ∧ isfinite c = true ∧ 0 < c

structure HoldsCapital (p : Portfolio F) (equity : F) : Prop where
  synced : p.capitalSyncedFromExchange = true
  capital : p.totalCapital = equity - p.realizedPnlToday - totalUnrealized p
  peak : p.peakEquity < equity → p.peakEquity = equity
  cash : p.cashLedger.totalCash = p.totalCapital
  available : p.cashLedger.availableCash = p.totalCapital - p.cashLedger.reservedForOrders

/-- Where an entry of the list throws, the capital of the snapshot is the
portfolio's own and the entries before it open nothing. -/
def NothingApplied (now : Timestamp) (p : Portfolio F) (payload : Text F) : Prop :=
  ∀ obj vs, (parse payload).bind Value.asObject = some obj → UsableCapital obj →
    find obj "positions" = some (.array vs) → (∃ v ∈ vs, throws now v = true) →
    (∀ v c, find obj "total_capital" = some v → v.asDouble = some c → HoldsCapital p c) ∧
    ∀ v ∈ readBefore now vs, opens now v = none

def RefusedUnchanged (store : PersistenceLayer F) (now : Timestamp) (s : Recovery F) : Prop :=
  (restoreFromSnapshot store now s).2 = false →
    (restoreFromSnapshot store now s).1.portfolio = s.portfolio

def SafeSnapshot (store : PersistenceLayer F) (now : Timestamp) (s : Recovery F) : Prop :=
  ∀ entry, store.enabled = true → store.snapshot = some entry →
    NothingApplied now s.portfolio entry.payloadJson

theorem setCapital_self_iff (p : Portfolio F) (equity : F) :
    setCapital p equity = p ↔ HoldsCapital p equity := by
  constructor
  · intro h
    have hpeak := congrArg Portfolio.peakEquity h
    have hsynced : p.capitalSyncedFromExchange = true :=
      (congrArg Portfolio.capitalSyncedFromExchange h).symm
    have hcapital := congrArg Portfolio.totalCapital h
    have hcash := congrArg (fun q => q.cashLedger.totalCash) h
    have havailable := congrArg (fun q => q.cashLedger.availableCash) h
    simp only [setCapital] at hpeak hcapital hcash havailable
    refine ⟨hsynced, hcapital.symm, ?_, ?_, ?_⟩
    · intro hlt
      rw [hsynced] at hpeak
      simpa [hlt] using hpeak.symm
    · rw [← hcash, ← hcapital]
    · rw [← havailable, hcapital]
  · rintro ⟨hsynced, hcapital, hpeak, hcash, havailable⟩
    rcases p with ⟨capital, leverage, peak, synced, today, trades, losses, positions, cash, orders,
      fees, gross⟩
    rcases cash with ⟨total, available, reserved, accrued, cashGross, cashNet⟩
    simp only at hsynced hcapital hpeak hcash havailable
    subst hsynced hcash havailable
    simp only [setCapital, ← hcapital, Bool.not_true, Bool.false_eq_true, if_false]
    split_ifs with hlt
    · rw [hpeak hlt]
    · rfl

variable (now : Timestamp) (p : Portfolio F)

theorem restorePositions_cons (v : Value F) (vs : List (Value F)) :
    restorePositions now p (v :: vs) =
      if throws now v then (p, false)
      else restorePositions now ((opens now v).elim p (openPosition p now)) vs := by
  cases v with
  | object d =>
    rcases hread : snapshotPosition now d with _ | _ | pos <;>
      simp [restorePositions, throws, opens, hread]
  | _ => rfl

/-- The list is read to its end unless an entry throws; what the entries before
that one open is open. -/
theorem restorePositions_eq (vs : List (Value F)) : restorePositions now p vs =
      (((readBefore now vs).filterMap (opens now)).foldl (openPosition · now ·) p,
        !vs.any (throws now)) := by
  induction vs generalizing p with
  | nil => rfl
  | cons v vs ih =>
    rw [restorePositions_cons]
    by_cases hthrow : throws now v = true
    · simp [readBefore, hthrow]
    · rcases hopen : opens now v with _ | pos
      · simp [readBefore, hthrow, hopen, ih]
      · simp [readBefore, hthrow, hopen, ih]

theorem restoreCapital_some (p q : Portfolio F) (obj : Members F)
    (h : restoreCapital p obj = some q) : UsableCapital obj ∧ q.positions = p.positions ∧
      (q = p ↔ ∀ v c, find obj "total_capital" = some v → v.asDouble = some c →
        HoldsCapital p c) := by
  unfold restoreCapital at h
  rcases hfound : find obj "total_capital" with _ | v
  · rw [hfound] at h
    cases h
    exact ⟨fun v hv => by simp [hfound] at hv, rfl, by simp⟩
  · rcases hread : v.asDouble with _ | c
    · simp [hfound, hread] at h
    · simp only [hfound, hread, Option.bind_eq_bind, Option.bind_some, Option.ite_none_right_eq_some,
        Bool.and_eq_true, decide_eq_true_eq, Option.some.injEq] at h
      obtain ⟨hok, rfl⟩ := h
      refine ⟨?_, rfl, ?_⟩
      · intro w hw
        cases hfound.symm.trans hw
        exact ⟨c, hread, hok⟩
      · rw [setCapital_self_iff]
        constructor
        · intro hholds w d hw hd
          cases hw
          cases hread.symm.trans hd
          exact hholds
        · exact fun hall => hall v c rfl hread

theorem restoreCapital_usable (obj : Members F) (h : UsableCapital obj) :
    ∃ q, restoreCapital p obj = some q := by
  unfold restoreCapital
  rcases hfound : find obj "total_capital" with _ | v
  · exact ⟨p, rfl⟩
  · obtain ⟨c, hread, hfinite, hpos⟩ := h v hfound
    exact ⟨setCapital p c, by simp [hread, hfinite, hpos]⟩

theorem restorePayload_unchanged (payload : Text F)
    (h : NothingApplied now p payload) (hfail : (restorePayload now p payload).2 = false) :
    (restorePayload now p payload).1 = p := by
  unfold restorePayload at hfail ⊢
  rcases hobj : (parse payload).bind Value.asObject with _ | obj
  · rfl
  · rw [hobj] at hfail
    rcases hcap : restoreCapital p obj with _ | q
    · simp only [hcap]
    · simp only [hcap] at hfail ⊢
      obtain ⟨husable, -, hsame⟩ := restoreCapital_some p q obj hcap
      split at hfail
      case h_1 vs hvs =>
        rw [restorePositions_eq] at hfail
        obtain ⟨hholds, hnone⟩ := h obj vs hobj husable hvs (by simpa using hfail)
        have hopened : (readBefore now vs).filterMap (opens now) = [] :=
          List.filterMap_eq_nil_iff.mpr hnone
        rw [restorePositions_eq, hopened]
        exact hsame.mpr hholds
      case h_2 => cases hfail

theorem refusedUnchanged_iff_payload (store : PersistenceLayer F) (now : Timestamp)
    (s : Recovery F) : RefusedUnchanged store now s ↔
      ∀ entry, store.enabled = true → store.snapshot = some entry →
        (restorePayload now s.portfolio entry.payloadJson).2 = false →
        (restorePayload now s.portfolio entry.payloadJson).1 = s.portfolio := by
  unfold RefusedUnchanged restoreFromSnapshot
  by_cases henabled : store.enabled = true
  · rcases store.snapshot with _ | entry
    · simp [henabled]
    · rcases hread : (restorePayload now s.portfolio entry.payloadJson).2
      · simp [henabled, hread]
      · simp [henabled, hread]
  · simp [henabled]

end Reading

section Exact

def heldSize (p : Portfolio ℚ) (key : String) : ℚ :=
  (p.positions.lookup key).elim 0 (fun leg => max leg.size 0)

def keyOf (pos : Position ℚ) : String := makePosKey pos.symbol (sideToPositionSide pos.side)

theorem heldSize_storeLeg (p : Portfolio ℚ) (key : String) (leg : Position ℚ) (k : String) :
    heldSize (storeLeg p key leg) k = if k = key then max leg.size 0 else heldSize p k := by
  unfold heldSize storeLeg
  split_ifs with hk
  · rw [hk, AList.lookup_insert]
    rfl
  · rw [AList.lookup_insert_ne hk]

/-- Every position that is opened adds its size under its key. -/
theorem heldSize_openPosition (p : Portfolio ℚ) (now : Timestamp) (pos : Position ℚ)
    (hs : 0 < pos.size) (k : String) :
    heldSize (openPosition p now pos) k =
      heldSize p k + if k = keyOf pos then pos.size else 0 := by
  have hadd : ∀ leg : Position ℚ, max leg.size 0 = heldSize p (keyOf pos) + pos.size →
      heldSize (storeLeg p (keyOf pos) leg) k =
        heldSize p k + if k = keyOf pos then pos.size else 0 := by
    intro leg hleg
    rw [heldSize_storeLeg]
    split_ifs with hk
    · rw [hleg, hk]
    · rw [add_zero]
  have hkey : makePosKey pos.symbol (sideToPositionSide pos.side) = keyOf pos := rfl
  rcases hfound : p.positions.lookup (makePosKey pos.symbol (sideToPositionSide pos.side)) with
    _ | existing
  · simp only [openPosition, hfound, hkey]
    rw [hkey] at hfound
    apply hadd
    simp [heldSize, hfound, freshLeg, hs.le]
  · by_cases hex : 0 < existing.size
    · simp only [openPosition, hfound, hkey, if_pos hex]
      rw [hkey] at hfound
      apply hadd
      have htotal : 0 < existing.size + pos.size := add_pos hex hs
      simp [heldSize, hfound, addToLeg, htotal, htotal.le, hex.le]
    · simp only [openPosition, hfound, hkey, if_neg hex]
      rw [hkey] at hfound
      apply hadd
      simp [heldSize, hfound, freshLeg, hs.le, not_lt.mp hex]

variable (now : Timestamp)

theorem heldSize_mono (ps : List (Position ℚ)) (p : Portfolio ℚ)
    (hs : ∀ pos ∈ ps, 0 < pos.size) (k : String) :
    heldSize p k ≤ heldSize (ps.foldl (openPosition · now ·) p) k := by
  induction ps generalizing p with
  | nil => exact le_rfl
  | cons pos ps ih =>
    obtain ⟨hpos, hrest⟩ := List.forall_mem_cons.mp hs
    have hstep : heldSize p k ≤ heldSize (openPosition p now pos) k := by
      rw [heldSize_openPosition p now pos hpos]
      split_ifs <;> linarith
    exact hstep.trans (ih (openPosition p now pos) hrest)

theorem opened_seen (ps : List (Position ℚ)) (p q : Portfolio ℚ)
    (hs : ∀ pos ∈ ps, 0 < pos.size) (hq : q.positions = p.positions)
    (h : ps.foldl (openPosition · now ·) q = p) : ps = [] := by
  cases ps with
  | nil => rfl
  | cons pos ps =>
    obtain ⟨hpos, hrest⟩ := List.forall_mem_cons.mp hs
    have hgrown := heldSize_openPosition q now pos hpos (keyOf pos)
    have hmono := heldSize_mono now ps (openPosition q now pos) hrest (keyOf pos)
    have hsame : heldSize q (keyOf pos) = heldSize p (keyOf pos) := by
      rw [heldSize, heldSize, hq]
    rw [List.foldl_cons] at h
    rw [h, hgrown, if_pos rfl, hsame] at hmono
    linarith

theorem opens_size (v : Value ℚ) (pos : Position ℚ)
    (h : opens now v = some pos) : 0 < pos.size := by
  cases v with
  | object d =>
    have hread : snapshotPosition now d = some (some pos) := Option.join_eq_some_iff.mp h
    simp only [snapshotPosition, Option.bind_eq_bind, Option.bind_eq_some_iff] at hread
    obtain ⟨sym, -, hread⟩ := hread
    split_ifs at hread
    · cases hread
    · obtain ⟨size, -, hread⟩ := Option.bind_eq_some_iff.mp hread
      split_ifs at hread with hsize
      · cases hread
      · obtain ⟨price, -, side, -, strategyId, -, openedAt, -, hread⟩ := by
          simpa only [Option.bind_eq_some_iff] using hread
        cases hread
        exact not_le.mp hsize
  | _ => cases h

theorem restorePayload_unchanged_iff (p : Portfolio ℚ) (payload : Text ℚ) :
    ((restorePayload now p payload).2 = false → (restorePayload now p payload).1 = p) ↔
      NothingApplied now p payload := by
  refine ⟨?_, fun h => restorePayload_unchanged now p payload h⟩
  intro h obj vs hobj husable hvs hthrow
  obtain ⟨q, hcap⟩ := restoreCapital_usable p obj husable
  obtain ⟨-, hpositions, hsame⟩ := restoreCapital_some p q obj hcap
  simp only [restorePayload, hobj, hcap, hvs, restorePositions_eq] at h
  have hfold := h (by simpa using hthrow)
  have hsizes : ∀ pos ∈ (readBefore now vs).filterMap (opens now), 0 < pos.size := by
    intro pos hmem
    obtain ⟨v, -, hv⟩ := List.mem_filterMap.mp hmem
    exact opens_size now v pos hv
  have hnone := opened_seen now _ p q hsizes hpositions hfold
  rw [hnone] at hfold
  exact ⟨hsame.mp hfold, List.filterMap_eq_nil_iff.mp hnone⟩

/-- A failed restoration changes nothing when nothing was applied before the entry
that throws, whatever the arithmetic; in exact arithmetic only then. -/
theorem refused_unchanged_iff (now : Timestamp) :
    (∀ (F : Type) [DoubleArith F] (store : PersistenceLayer F) (s : Recovery F),
      SafeSnapshot store now s → RefusedUnchanged store now s) ∧
    ∀ (store : PersistenceLayer ℚ) (s : Recovery ℚ),
      RefusedUnchanged store now s ↔ SafeSnapshot store now s := by
  refine ⟨?_, ?_⟩
  · intro F _ store s h
    rw [refusedUnchanged_iff_payload]
    exact fun entry henabled hsnap => restorePayload_unchanged now _ _ (h entry henabled hsnap)
  · intro store s
    rw [refusedUnchanged_iff_payload]
    exact forall_congr' fun entry => forall_congr' fun henabled => forall_congr' fun hsnap =>
      restorePayload_unchanged_iff now s.portfolio entry.payloadJson

def wholeCapital : Value ℚ := .object [("total_capital", .int 250)]

theorem refused_unchanged_iff_wholeCapital :
    RefusedUnchanged ⟨true, ⟨[], 0⟩, some ⟨1, 0, render wholeCapital⟩, true⟩ 7
      ⟨initPortfolio 1000, newResult .inProgress⟩ := by
  have hparse : parse (render wholeCapital) = some wholeCapital := by
    apply parse_render
    · simp [wholeCapital, Value.Printable, MembersPrintable, InRange]
    · decide +kernel
  refine ((refused_unchanged_iff 7).2 _ _).mpr ?_
  intro entry _ hsnap obj vs hobj husable
  cases hsnap
  rw [hparse] at hobj
  cases hobj
  obtain ⟨c, hread, -⟩ := husable (.int 250) (by simp)
  cases hread

def halfRead : Value ℚ :=
  .object [("total_capital", .double 250),
    ("positions", .array
      [.object [("symbol", .string "BTCUSDT"), ("size", .double 2), ("avg_entry_price", .double 100)],
        .object [("symbol", .string "ETHUSDT"), ("size", .int 1)]])]

def halfReadStore : PersistenceLayer ℚ :=
  ⟨true, ⟨[], 0⟩, some ⟨1, 0, render halfRead⟩, true⟩

/-- The new capital and the first position stay although the restoration fails. -/
theorem half_read_applied : ¬ ∀ (store : PersistenceLayer ℚ) (now : Timestamp) (s : Recovery ℚ),
    RefusedUnchanged store now s := by
  intro h
  have hparse : parse (render halfRead) = some halfRead := by
    apply parse_render
    · simp [halfRead, Value.Printable, MembersPrintable, ItemsPrintable, InRange]
    · decide +kernel
  have hpayload := (refusedUnchanged_iff_payload halfReadStore 7
    ⟨initPortfolio 1000, newResult .inProgress⟩).mp (h _ _ _) _ rfl rfl
  simp only [restorePayload, hparse] at hpayload
  have hcapital := congrArg Portfolio.totalCapital (hpayload (by decide +kernel))
  exact absurd hcapital (by decide +kernel)

end Exact

end TB.SnapshotRefusals
