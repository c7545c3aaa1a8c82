import TomorrowBot.PortfolioEngine
import TomorrowBot.Runs

/-!
# What an operation can do to a leg

Every operation leaves a leg alone, erases it, or stores a recalculated leg;
only a synchronisation stores a leg as the exchange gave it. A property of
legs that survives recalculation holds of every leg of a run. That a leg is
stored under the key of its own symbol and side is such a property.
-/

set_option autoImplicit false

namespace TB.PortfolioKeys
open TB.CommonTypes TB.PortfolioEngine

variable {F : Type} [DoubleArith F]

structure LegProperty (P : String → Position F → Prop) : Prop where
  fresh : ∀ now pos, P (makePosKey pos.symbol (sideToPositionSide pos.side))
    (recalculatePositionPnl (freshLeg now pos))
  kept : ∀ key e pos, P key e → pos.symbol = e.symbol → pos.side = e.side →
    P key (recalculatePositionPnl pos)

section Operations
variable {P : String → Position F → Prop} (p : Portfolio F)

theorem refreshPeak_positions : (refreshPeak p).positions = p.positions := by
  unfold refreshPeak
  split_ifs <;> rfl

variable (now : Timestamp)

theorem updatePrice_lookup (s : Symbol) (price : F) (ps : PositionSide) :
    (updatePrice p now s price).positions.lookup (makePosKey s ps) =
      (p.positions.lookup (makePosKey s ps)).map (repriceLeg now price) := by
  have hne : makePosKey s .long ≠ makePosKey s .short := makePosKey_legs s s
  unfold updatePrice
  dsimp only
  split_ifs with h
  · rw [refreshPeak_positions]
    cases ps with
    | long => rw [Keyed.lookup_modify_ne _ _ _ _ hne, Keyed.lookup_modify_self]
    | short => rw [Keyed.lookup_modify_self, Keyed.lookup_modify_ne _ _ _ _ hne.symm]
  · obtain ⟨hl, hs⟩ := not_or.mp h
    cases ps with
    | long => rw [AList.lookup_eq_none.mpr hl]; rfl
    | short => rw [AList.lookup_eq_none.mpr hs]; rfl

theorem updatePrice_lookup_ne (s other : Symbol) (price : F) (ps : PositionSide) (h : other ≠ s) :
    (updatePrice p now s price).positions.lookup (makePosKey other ps) =
      p.positions.lookup (makePosKey other ps) := by
  have hl : makePosKey other ps ≠ makePosKey s .long :=
    fun hk => h (makePosKey_injective _ _ _ _ hk).1
  have hs : makePosKey other ps ≠ makePosKey s .short :=
    fun hk => h (makePosKey_injective _ _ _ _ hk).1
  unfold updatePrice
  dsimp only
  split_ifs
  · rw [refreshPeak_positions, Keyed.lookup_modify_ne _ _ _ _ hs,
      Keyed.lookup_modify_ne _ _ _ _ hl]
  · rfl

theorem closePositionSide_lookup (symbol : Symbol) (ps : PositionSide) (pnl : F) :
    (closePositionSide p symbol ps pnl).positions.lookup (makePosKey symbol ps) = none := by
  unfold closePositionSide
  dsimp only
  split_ifs with h
  · rw [closeLeg, refreshPeak_positions]
    exact AList.lookup_erase _ _
  · exact AList.lookup_eq_none.mpr h

theorem closePositionSide_lookup_ne (symbol : Symbol) (ps : PositionSide)
    (pnl : F) (key : String) (h : key ≠ makePosKey symbol ps) :
    (closePositionSide p symbol ps pnl).positions.lookup key = p.positions.lookup key := by
  unfold closePositionSide
  dsimp only
  split_ifs
  · rw [closeLeg, refreshPeak_positions]
    exact AList.lookup_erase_ne h
  · rfl

theorem openPosition_lookup_ne (pos : Position F)
    (key : String) (h : key ≠ makePosKey pos.symbol (sideToPositionSide pos.side)) :
    (openPosition p now pos).positions.lookup key = p.positions.lookup key := by
  rcases hl : p.positions.lookup (makePosKey pos.symbol (sideToPositionSide pos.side)) with _ | e
  · simp only [openPosition, hl]
    exact AList.lookup_insert_ne h
  · simp only [openPosition, hl]
    split_ifs <;> exact AList.lookup_insert_ne h

theorem openPosition_legs (hP : LegProperty P) (p : Portfolio F) (now : Timestamp)
    (pos : Position F) (hp : Keyed.All P p.positions) :
    Keyed.All P (openPosition p now pos).positions := by
  unfold openPosition
  dsimp only
  cases h : p.positions.lookup (makePosKey pos.symbol (sideToPositionSide pos.side)) with
  | none => exact Keyed.all_insert P _ _ _ hp (hP.fresh now pos)
  | some e =>
    have ha : (addToLeg e now pos).symbol = e.symbol ∧ (addToLeg e now pos).side = e.side := by
      unfold addToLeg
      dsimp only
      split_ifs
      · exact ⟨rfl, rfl⟩
      · exact ⟨rfl, rfl⟩
    dsimp only
    split_ifs
    · exact Keyed.all_insert P _ _ _ hp (hP.kept _ e _ (hp _ e h) ha.1 ha.2)
    · exact Keyed.all_insert P _ _ _ hp (hP.fresh now pos)

theorem updatePrice_legs (hP : LegProperty P) (p : Portfolio F) (now : Timestamp) (s : Symbol)
    (x : F) (hp : Keyed.All P p.positions) : Keyed.All P (updatePrice p now s x).positions := by
  have hr : ∀ key pos, P key pos → P key (repriceLeg now x pos) :=
    fun key pos h => hP.kept key pos _ h rfl rfl
  unfold updatePrice
  dsimp only
  split_ifs
  · rw [refreshPeak_positions]
    exact Keyed.all_modify P _ _ _ (Keyed.all_modify P _ _ _ hp (hr _)) (hr _)
  · exact hp

theorem fundLeg_legs (hP : LegProperty P) (p : Portfolio F) (key : String) (a : F)
    (hp : Keyed.All P p.positions) : Keyed.All P (fundLeg p key a).positions := by
  unfold fundLeg
  cases h : p.positions.lookup key with
  | none => exact hp
  | some pos =>
    dsimp only
    split_ifs
    · exact hp
    · exact Keyed.all_insert P _ _ _ hp (hP.kept key pos _ (hp key pos h) rfl rfl)

theorem closeLeg_legs (key : String) (x : F)
    (hp : Keyed.All P p.positions) : Keyed.All P (closeLeg p key x).positions := by
  rw [closeLeg, refreshPeak_positions]
  exact Keyed.all_erase P _ key hp

theorem reduceLeg_legs (hP : LegProperty P) (p : Portfolio F) (now : Timestamp) (key : String)
    (pos : Position F) (q c x : F) (hp : Keyed.All P p.positions)
    (h : p.positions.lookup key = some pos) :
    Keyed.All P (reduceLeg p now key pos q c x).1.positions := by
  unfold reduceLeg
  dsimp only
  rw [refreshPeak_positions]
  split_ifs
  · exact Keyed.all_erase P _ key hp
  · exact Keyed.all_insert P _ _ _ hp (hP.kept key pos _ (hp key pos h) rfl rfl)

theorem syncPosition_legs (hP : LegProperty P) (p : Portfolio F) (now : Timestamp) (s : Symbol)
    (ps : PositionSide) (a b c d : F) (t : Timestamp) (hp : Keyed.All P p.positions)
    (hx : makePosKey s ps ∉ p.positions →
      P (makePosKey s ps) (exchangeLeg now s ps a b c d t)) :
    Keyed.All P (syncPositionFromExchange p now s ps a b c d t).positions := by
  unfold syncPositionFromExchange
  dsimp only
  cases h : p.positions.lookup (makePosKey s ps) with
  | none => exact Keyed.all_insert P _ _ _ hp (hx (AList.lookup_eq_none.mp h))
  | some pos => exact Keyed.all_insert P _ _ _ hp (hP.kept _ pos _ (hp _ pos h) rfl rfl)

/-- An operation keeps a leg property, if the leg of a first synchronisation
has it. -/
theorem step_legs (hP : LegProperty P) (p : Portfolio F) (op : PortfolioOp F)
    (hp : Keyed.All P p.positions)
    (hx : ∀ now s ps a b c d t, op = .syncPositionFromExchange now s ps a b c d t →
      makePosKey s ps ∉ p.positions →
      P (makePosKey s ps) (exchangeLeg now s ps a b c d t)) :
    Keyed.All P (portfolioStep p op).positions := by
  have hends := step_ends p (P := fun q => Keyed.All P q.positions) hp
    (fun key x => closeLeg_legs p key x hp)
    fun now key pos q c x => reduceLeg_legs hP p now key pos q c x hp
  cases op with
  | openPosition now pos => exact openPosition_legs hP p now pos hp
  | updatePrice now s x => exact updatePrice_legs hP p now s x hp
  | recordFundingPayment s f => exact fundLeg_legs hP _ _ _ (fundLeg_legs hP p _ _ hp)
  | closePosition | closePositionSide | reducePosition | reducePositionSide => exact hends _ trivial
  | reserveCash now id s side notional fee strategy =>
    simp only [portfolioStep, reserveCash]
    split_ifs
    · exact hp
    · exact hp
  | releaseCash id =>
    simp only [portfolioStep, releaseCash]
    cases p.pendingOrders.lookup id with
    | none => exact hp
    | some info => exact hp
  | syncPositionFromExchange now s ps a b c d t =>
    exact syncPosition_legs hP p now s ps a b c d t hp (hx now s ps a b c d t rfl)
  | addRealizedPnl | resetDaily | setCapital | setLeverage | recordFee => exact hp

end Operations

def OwnKey (key : String) (pos : Position F) : Prop :=
  key = makePosKey pos.symbol (sideToPositionSide pos.side)

def WellKeyed (p : Portfolio F) : Prop := Keyed.All OwnKey p.positions

theorem recalculate_ownKey (key : String) (pos : Position F) :
    OwnKey key (recalculatePositionPnl pos) ↔ OwnKey key pos := by
  unfold OwnKey recalculatePositionPnl
  dsimp only
  split_ifs <;> exact Iff.rfl

theorem ownKey_legProperty : LegProperty (F := F) OwnKey where
  fresh now pos := (recalculate_ownKey _ _).mpr rfl
  kept key e pos h hsymbol hside := by
    rw [recalculate_ownKey, OwnKey, hsymbol, hside]
    exact h

theorem exchangeLeg_ownKey (now : Timestamp) (s : Symbol) (ps : PositionSide) (a b c d : F)
    (t : Timestamp) : OwnKey (makePosKey s ps) (exchangeLeg now s ps a b c d t) := by
  cases ps <;> rfl

theorem run_wellKeyed (c : F) (ops : List (PortfolioOp F)) :
    WellKeyed (Runs.run portfolioStep (initPortfolio c) ops) := by
  apply Runs.invariant_run portfolioStep (C := fun _ _ => True)
  · intro p op hp _
    exact step_legs ownKey_legProperty p op hp
      (fun now s ps a b c d t _ _ => exchangeLeg_ownKey now s ps a b c d t)
  · exact Keyed.all_empty _
  · exact Runs.meets_true _ _ _

end TB.PortfolioKeys
