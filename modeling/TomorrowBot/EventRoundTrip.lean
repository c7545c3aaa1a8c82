import TomorrowBot.AverageCost
import TomorrowBot.JournalReplay
import TomorrowBot.PortfolioJournal

/-!
# Position and fee events through the journal

The pipeline and the fill processor write events without an envelope; the
replay reads them by other member names. What the replay makes of each event
is computed from its text, and compared with the event that was written.
-/

set_option autoImplicit false

namespace TB.EventRoundTrip
open TB.CommonTypes TB.EventJournal TB.PortfolioEngine TB.PortfolioKeys TB.AverageCost
open TB.RecoveryService TB.JournalReplay TB.PortfolioJournal JsonText

def Reading (t : Timestamp) : Prop := -2 ^ 63 ≤ t ∧ t < 2 ^ 63

theorem reading_inRange (t : Timestamp) (h : Reading t) : InRange t :=
  ⟨h.1, lt_trans h.2 (by norm_num)⟩

section Events
variable {F : Type} [DoubleArith F]

def replayEntries (now : Timestamp) (p : Portfolio F) (entries : List (JournalEntry F)) :
    Portfolio F :=
  (entries.foldl (replayStep now) ⟨⟨p, newResult .inProgress⟩, 0, 0, 0⟩).service.portfolio

variable (now : Timestamp)

theorem replayEntries_run (p : Portfolio F) (entries : List (JournalEntry F)) :
    replayEntries now p entries =
      Runs.run portfolioStep p (entries.filterMap (appliedOp now)) :=
  replay_run now entries _

omit [DoubleArith F] in
theorem membersPrintable_append (ms ns : Members F) (hm : MembersPrintable ms)
    (hn : MembersPrintable ns) : MembersPrintable (ms ++ ns) := by
  induction ms with
  | nil => exact hn
  | cons m ms ih => exact ⟨hm.1, ih hm.2⟩

theorem parse_positionEvent (eventType : String) (symbol : Symbol) (ps : PositionSide)
    (price pnl size : F) (strategyId : StrategyId) (now openedAt : Timestamp)
    (hnow : Reading now) (hopened : Reading openedAt) :
    parse (positionEventJson eventType symbol ps price pnl size strategyId now openedAt) =
      some (.object
        (positionEventMembers eventType symbol ps price pnl size strategyId now openedAt)) := by
  apply parse_render
  · show MembersPrintable _
    apply membersPrintable_append
    · simp [MembersPrintable, Value.Printable, reading_inRange now hnow]
    · split_ifs
      · simp [MembersPrintable, Value.Printable, reading_inRange openedAt hopened]
      · trivial
  · unfold positionEventMembers
    split_ifs <;> simp [Value.depth, membersDepth, maxDepth]

variable (entry : JournalEntry F)

/-- An entry without envelope is decided by its event alone. -/
theorem appliedOp_bare (obj : Members F)
    (type : String) (hp : parse entry.payloadJson = some (.object obj))
    (hnone : find obj "wal_type" = none) (hevent : find obj "event" = some (.string type)) :
    appliedOp now entry = opOf (replayEvent now entry type obj) := by
  ext op
  rw [appliedOp_iff]
  constructor
  · rintro ⟨obj', type', d, hp', hpres, ho⟩
    rw [hp, Option.some.injEq, Value.object.injEq] at hp'
    subst hp'
    cases hpres with
    | envelope _ htype => rw [hnone] at htype; exact absurd htype (by simp)
    | bare _ hevent' =>
      rw [hevent, Option.some.injEq, Value.string.injEq] at hevent'
      rw [hevent']
      exact ho
  · intro ho
    exact ⟨obj, type, obj, hp, .bare hnone hevent, ho⟩

theorem appliedOp_opened (symbol : Symbol)
    (ps : PositionSide) (price size : F) (strategyId : StrategyId) (written openedAt : Timestamp)
    (hwritten : Reading written) (hopened : Reading openedAt) (hprice : 0 < price)
    (hentry : entry.payloadJson =
      positionEventJson "PositionOpened" symbol ps price 0 size strategyId written openedAt) :
    appliedOp now entry =
      if symbol = "" then none
      else some (.openPosition now (restoredPosition symbol .buy 0 price strategyId openedAt now)) := by
  have hp := parse_positionEvent "PositionOpened" symbol ps price 0 size strategyId written openedAt
    hwritten hopened
  rw [← hentry] at hp
  have hs : Signed openedAt := hopened.2
  rw [appliedOp_bare now entry _ "PositionOpened" hp (by simp [positionEventMembers])
    (by simp [positionEventMembers])]
  by_cases hsym : symbol = ""
  · subst hsym
    simp [replayEvent, WalWriter.readText, readDouble, positionEventMembers, Value.asString,
      Value.asDouble, opOf]
  · simp [replayEvent, replayOpened, replayOpenedAt, WalWriter.readText, readTextOr, readDouble,
      positionEventMembers, Value.asString, Value.asDouble, Value.asInt64, opOf, hsym, hprice, hs,
      sideOfText]

theorem appliedOp_closed (symbol : Symbol)
    (ps : PositionSide) (price pnl : F) (strategyId : StrategyId) (written openedAt : Timestamp)
    (hwritten : Reading written) (hopened : Reading openedAt)
    (hentry : entry.payloadJson =
      positionEventJson "PositionClosed" symbol ps price pnl 0 strategyId written openedAt) :
    appliedOp now entry =
      if symbol = "" then none else some (.closePositionSide symbol ps pnl) := by
  have hp := parse_positionEvent "PositionClosed" symbol ps price pnl 0 strategyId written openedAt
    hwritten hopened
  rw [← hentry] at hp
  have hleg : legOfText (PortfolioJournal.legText ps) = ps := by
    cases ps <;> simp [legOfText, PortfolioJournal.legText]
  rw [appliedOp_bare now entry _ "PositionClosed" hp (by simp [positionEventMembers])
    (by simp [positionEventMembers])]
  by_cases hsym : symbol = ""
  · subst hsym
    simp [replayEvent, WalWriter.readText, readDouble, positionEventMembers, Value.asString,
      Value.asDouble, opOf]
  · simp [replayEvent, replayClosed, WalWriter.readText, readDouble, positionEventMembers,
      Value.asString, Value.asDouble, opOf, hsym, hleg]

end Events

section Fees

theorem fee_object (symbol : Symbol) (orderId : OrderId) (fee fillPrice fillQty : ℚ)
    (ts : Timestamp) :
    feeEventJson symbol orderId fee fillPrice fillQty ts = objectText
      [("event", quoted "FeeCharged"), ("symbol", .char '"' :: text symbol ++ [.char '"']),
        ("order_id", .char '"' :: text orderId ++ [.char '"']), ("fee", fixed8 fee),
        ("fill_price", fixed8 fillPrice), ("fill_qty", fixed8 fillQty), ("ts", intText ts)] := by
  have hq : (quoted "FeeCharged" : Text ℚ) = .char '"' :: text "FeeCharged" ++ [.char '"'] :=
    quoted_plain _ (by decide +kernel)
  rw [hq]
  simp [feeEventJson, objectText, membersText, memberText, quoted, text, chars, escapeChar]

def NamesContained (symbol : Symbol) (orderId : OrderId) : Prop :=
  (literal ℚ symbol = true ∧ literal ℚ orderId = true) ∨
    ∀ (fee fillPrice fillQty : ℚ) (ts : Timestamp),
      parse (feeEventJson symbol orderId fee fillPrice fillQty ts) = none

theorem parse_feeEvent (symbol : Symbol) (orderId : OrderId) (fee fillPrice fillQty : ℚ)
    (ts : Timestamp) (hts : Reading ts) (hs : literal ℚ symbol = true)
    (ho : literal ℚ orderId = true) :
    ∃ s o, parse (feeEventJson symbol orderId fee fillPrice fillQty ts) =
      some (.object [("event", .string "FeeCharged"), ("symbol", .string s),
        ("order_id", .string o), ("fee", .double (rounded8 fee)),
        ("fill_price", .double (rounded8 fillPrice)), ("fill_qty", .double (rounded8 fillQty)),
        ("ts", .int ts)]) := by
  obtain ⟨s, hs⟩ := reads_literal symbol hs
  obtain ⟨o, ho⟩ := reads_literal orderId ho
  refine ⟨s, o, ?_⟩
  rw [fee_object]
  apply parse_of_reads
  · apply reads_object
    apply readMembers_cons _ _ _ _ _ (reads_quoted "FeeCharged")
    apply readMembers_cons _ _ _ _ _ hs
    apply readMembers_cons _ _ _ _ _ ho
    apply readMembers_cons _ _ _ _ _ (reads_number _)
    apply readMembers_cons _ _ _ _ _ (reads_number _)
    apply readMembers_cons _ _ _ _ _ (reads_number _)
    exact readMembers_cons _ _ _ _ _ (reads_int ts (reading_inRange ts hts)) readMembers_nil
  · simp [Value.depth, membersDepth, maxDepth]

/-- The replay looks for an amount and charges nothing. -/
theorem appliedOp_fee (now : Timestamp) (entry : JournalEntry ℚ) (symbol : Symbol)
    (orderId : OrderId) (fee fillPrice fillQty : ℚ) (ts : Timestamp) (hts : Reading ts)
    (hn : NamesContained symbol orderId)
    (hentry : entry.payloadJson = feeEventJson symbol orderId fee fillPrice fillQty ts) :
    appliedOp now entry = none ∨ appliedOp now entry = some (.recordFee 0) := by
  rcases hn with ⟨hs, ho⟩ | hbroken
  · obtain ⟨s, o, hp⟩ := parse_feeEvent symbol orderId fee fillPrice fillQty ts hts hs ho
    rw [← hentry] at hp
    rw [appliedOp_bare now entry _ "FeeCharged" hp (by simp) (by simp)]
    by_cases hsym : s = ""
    · left
      simp [replayEvent, WalWriter.readText, readDouble, Value.asString, opOf, hsym]
    · right
      simp [replayEvent, WalWriter.readText, readDouble, Value.asString, opOf, hsym]
  · left
    rw [Option.eq_none_iff_forall_ne_some]
    intro op h
    obtain ⟨obj, -, -, hp, -⟩ := (appliedOp_iff now entry op).mp h
    rw [hentry, hbroken] at hp
    exact absurd hp (by simp)

theorem recordFee_zero (p : Portfolio ℚ) : recordFee p 0 = p := by
  simp [recordFee]

end Fees

section RoundTrips

def IsOpened (e : JournalEntry ℚ) (symbol : Symbol) (ps : PositionSide) (price size : ℚ) : Prop :=
  ∃ strategyId written openedAt, Reading written ∧ Reading openedAt ∧
    e.payloadJson =
      positionEventJson "PositionOpened" symbol ps price 0 size strategyId written openedAt

def IsClosed (e : JournalEntry ℚ) (symbol : Symbol) (ps : PositionSide) : Prop :=
  ∃ price pnl strategyId written openedAt, Reading written ∧ Reading openedAt ∧
    e.payloadJson =
      positionEventJson "PositionClosed" symbol ps price pnl 0 strategyId written openedAt

def IsFee (e : JournalEntry ℚ) (fee : ℚ) : Prop :=
  ∃ symbol orderId fillPrice fillQty ts, Reading ts ∧ NamesContained symbol orderId ∧
    e.payloadJson = feeEventJson symbol orderId fee fillPrice fillQty ts

def OpensLeg (now : Timestamp) (p : Portfolio ℚ) (e : JournalEntry ℚ) (symbol : Symbol)
    (ps : PositionSide) (size : ℚ) : Prop :=
  ∃ leg, getPositionSide (replayEntries now p [e]) symbol ps = some leg ∧
    leg.symbol = symbol ∧ sideToPositionSide leg.side = ps ∧ leg.size = size

def LeavesFlat (now : Timestamp) (opened closed : JournalEntry ℚ) (symbol : Symbol)
    (ps : PositionSide) : Prop :=
  ∀ p, getPositionSide (replayEntries now p [opened, closed]) symbol ps = none ∧
    ∀ key, key ≠ makePosKey symbol ps →
      (replayEntries now p [opened, closed]).positions.lookup key = p.positions.lookup key

variable (now : Timestamp) (e : JournalEntry ℚ) (symbol : Symbol) (ps : PositionSide)

theorem replay_opened (price size : ℚ) (ho : IsOpened e symbol ps price size) (hprice : 0 < price) :
    ∃ strategyId openedAt, appliedOp now e =
      if symbol = "" then none
      else some (.openPosition now
        (restoredPosition symbol .buy 0 price strategyId openedAt now)) := by
  obtain ⟨strategyId, written, openedAt, hw, hop, he⟩ := ho
  exact ⟨strategyId, openedAt,
    appliedOp_opened now e symbol ps price size strategyId written openedAt hw hop hprice he⟩

theorem replay_closed (hc : IsClosed e symbol ps) : ∃ pnl, appliedOp now e =
      if symbol = "" then none else some (.closePositionSide symbol ps pnl) := by
  obtain ⟨price, pnl, strategyId, written, openedAt, hw, hop, he⟩ := hc
  exact ⟨pnl, appliedOp_closed now e symbol ps price pnl strategyId written openedAt hw hop he⟩

/-- An opening never restores its leg: a long one comes back empty, a short one
not at all. -/
theorem opened_never_restored (price size : ℚ) (ho : IsOpened e symbol ps price size)
    (hprice : 0 < price) (hsize : 0 < size) (p : Portfolio ℚ)
    (hflat : getPositionSide p symbol ps = none) : ¬ OpensLeg now p e symbol ps size := by
  rintro ⟨leg, hleg, -, -, hsz⟩
  obtain ⟨strategyId, openedAt, happ⟩ := replay_opened now e symbol ps price size ho hprice
  rw [replayEntries_run, List.filterMap_cons, happ] at hleg
  by_cases hsym : symbol = ""
  · rw [if_pos hsym] at hleg
    change getPositionSide p symbol ps = some leg at hleg
    rw [hflat] at hleg
    exact absurd hleg (by simp)
  · rw [if_neg hsym] at hleg
    let pos := restoredPosition symbol .buy (0 : ℚ) price strategyId openedAt now
    change (openPosition p now pos).positions.lookup (makePosKey symbol ps) = some leg at hleg
    cases ps with
    | long =>
      have hl := openPosition_lookup p now pos
      have hkey : makePosKey pos.symbol (sideToPositionSide pos.side) =
        makePosKey symbol .long := rfl
      have hopened : openedLeg p now pos = freshLeg now pos := by
        have hnone : p.positions.lookup (makePosKey symbol .long) = none := hflat
        rw [openedLeg, hkey, hnone]
      rw [hkey, hopened, hleg, Option.some.injEq] at hl
      rw [hl, PortfolioEquity.recalculate_size] at hsz
      change (0 : ℚ) = size at hsz
      exact absurd hsz (ne_of_lt hsize)
    | short =>
      have hne : makePosKey symbol .short ≠
          makePosKey pos.symbol (sideToPositionSide pos.side) :=
        (makePosKey_legs symbol symbol).symm
      rw [openPosition_lookup_ne p now pos _ hne] at hleg
      change getPositionSide p symbol .short = some leg at hleg
      rw [hflat] at hleg
      exact absurd hleg (by simp)

theorem fee_charged_iff (fee : ℚ) (hf : IsFee e fee)
    (p : Portfolio ℚ) : replayEntries now p [e] = recordFee p fee ↔ fee = 0 := by
  obtain ⟨symbol, orderId, fillPrice, fillQty, ts, hts, hn, he⟩ := hf
  have hp : replayEntries now p [e] = p := by
    rw [replayEntries_run, List.filterMap_cons]
    rcases appliedOp_fee now e symbol orderId fee fillPrice fillQty ts hts hn he with h | h
    · rw [h]
      rfl
    · rw [h]
      exact recordFee_zero p
  rw [hp]
  constructor
  · intro h
    have hfees := congrArg Portfolio.feesAccruedToday h
    change p.feesAccruedToday = p.feesAccruedToday + fee at hfees
    exact left_eq_add.mp hfees
  · rintro rfl
    exact (recordFee_zero p).symm

def holding (symbol : Symbol) (ps : PositionSide) : Portfolio ℚ :=
  storeLeg (initPortfolio 0) (makePosKey symbol ps)
    (restoredPosition symbol .buy 1 1 "" 0 0)

theorem leaves_flat_iff (opened closed : JournalEntry ℚ) (symbol : Symbol)
    (ps : PositionSide) (price size : ℚ) (ho : IsOpened opened symbol ps price size)
    (hc : IsClosed closed symbol ps) (hprice : 0 < price) :
    LeavesFlat now opened closed symbol ps ↔ symbol ≠ "" ∧ ps = .long := by
  obtain ⟨strategyId, openedAt, happ⟩ := replay_opened now opened symbol ps price size ho hprice
  obtain ⟨pnl, hclose⟩ := replay_closed now closed symbol ps hc
  by_cases hsym : symbol = ""
  · -- neither event is applied, so an open leg stays open
    have hrun : ∀ p, replayEntries now p [opened, closed] = p := by
      intro p
      rw [replayEntries_run]
      simp only [List.filterMap_cons, happ, hclose, if_pos hsym, List.filterMap_nil]
      rfl
    constructor
    · intro h
      have hflat := (h (holding symbol ps)).1
      rw [hrun] at hflat
      have hheld : getPositionSide (holding symbol ps) symbol ps ≠ none := by
        rw [getPositionSide, holding, storeLeg, AList.lookup_insert]
        simp
      exact absurd hflat hheld
    · intro h
      exact absurd hsym h.1
  let pos := restoredPosition symbol .buy (0 : ℚ) price strategyId openedAt now
  have hrun : ∀ p, replayEntries now p [opened, closed] =
      closePositionSide (openPosition p now pos) symbol ps pnl := by
    intro p
    rw [replayEntries_run]
    simp only [List.filterMap_cons, happ, hclose, if_neg hsym, List.filterMap_nil]
    rfl
  have hkey : makePosKey pos.symbol (sideToPositionSide pos.side) = makePosKey symbol .long := rfl
  cases ps with
  | long =>
    constructor
    · intro _
      exact ⟨hsym, rfl⟩
    · intro _ p
      rw [hrun]
      refine ⟨closePositionSide_lookup _ symbol .long pnl, ?_⟩
      intro key hne
      rw [closePositionSide_lookup_ne _ symbol .long pnl key hne, openPosition_lookup_ne]
      rw [hkey]
      exact hne
  | short =>
    constructor
    · intro h
      -- the opening left an empty long leg behind
      have hlong := (h (initPortfolio 0)).2 (makePosKey symbol .long)
        (makePosKey_legs symbol symbol)
      rw [hrun, closePositionSide_lookup_ne _ _ _ _ _ (makePosKey_legs symbol symbol), ← hkey,
        openPosition_lookup] at hlong
      exact absurd hlong (by simp [initPortfolio])
    · intro h
      exact absurd h.2 (by simp)

/-- What survives the journal: no opening with a positive size and price; a fee
exactly when it is zero; and an opening with its close is neutral exactly for
the long leg of a named symbol. -/
theorem events_survive_iff (now : Timestamp) (opened closed charged : JournalEntry ℚ)
    (symbol : Symbol) (ps : PositionSide) (price size fee : ℚ)
    (ho : IsOpened opened symbol ps price size) (hc : IsClosed closed symbol ps)
    (hf : IsFee charged fee) (hprice : 0 < price) (hsize : 0 < size) :
    (∀ p, getPositionSide p symbol ps = none → ¬ OpensLeg now p opened symbol ps size) ∧
    (∀ p, replayEntries now p [charged] = recordFee p fee ↔ fee = 0) ∧
    (LeavesFlat now opened closed symbol ps ↔ symbol ≠ "" ∧ ps = .long) :=
  ⟨fun p hflat => opened_never_restored now opened symbol ps price size ho hprice hsize p hflat,
    fun p => fee_charged_iff now charged fee hf p,
    leaves_flat_iff now opened closed symbol ps price size ho hc hprice⟩

end RoundTrips

section Short

def entryOf (payload : Text ℚ) : JournalEntry ℚ := ⟨1, .portfolioChange, 1, "", "", payload⟩

def shortOpened : JournalEntry ℚ :=
  entryOf (positionEventJson "PositionOpened" "BTCUSDT" .short 100 0 2 "scalp" 1 1)

def shortClosed : JournalEntry ℚ :=
  entryOf (positionEventJson "PositionClosed" "BTCUSDT" .short 90 20 0 "scalp" 2 2)

def halfFee : JournalEntry ℚ := entryOf (feeEventJson "BTCUSDT" "A1" (1 / 2) 100 2 1)

theorem shortOpened_isOpened : IsOpened shortOpened "BTCUSDT" .short 100 2 :=
  ⟨"scalp", 1, 1, ⟨by decide, by decide⟩, ⟨by decide, by decide⟩, rfl⟩

theorem shortClosed_isClosed : IsClosed shortClosed "BTCUSDT" .short :=
  ⟨90, 20, "scalp", 2, 2, ⟨by decide, by decide⟩, ⟨by decide, by decide⟩, rfl⟩

theorem halfFee_isFee : IsFee halfFee (1 / 2) :=
  ⟨"BTCUSDT", "A1", 100, 2, 1, ⟨by decide, by decide⟩,
    .inl ⟨by decide +kernel, by decide +kernel⟩, rfl⟩

/-- An opened short of 2 is not restored, a fee of one half is not charged, and
the short opened and closed leaves a long leg behind. -/
theorem short_not_restored :
    (¬ ∀ (now : Timestamp) (e : JournalEntry ℚ) (symbol : Symbol) (ps : PositionSide)
      (price size : ℚ), IsOpened e symbol ps price size → 0 < price → 0 < size →
      ∀ p, getPositionSide p symbol ps = none → OpensLeg now p e symbol ps size) ∧
    (¬ ∀ (now : Timestamp) (e : JournalEntry ℚ) (fee : ℚ), IsFee e fee →
      ∀ p, replayEntries now p [e] = recordFee p fee) ∧
    ¬ ∀ (now : Timestamp) (opened closed : JournalEntry ℚ) (symbol : Symbol) (ps : PositionSide)
      (price size : ℚ), IsOpened opened symbol ps price size → IsClosed closed symbol ps →
      0 < price → LeavesFlat now opened closed symbol ps := by
  refine ⟨?_, ?_, ?_⟩
  · intro h
    have hopen := h 3 shortOpened "BTCUSDT" .short 100 2 shortOpened_isOpened (by norm_num)
      (by norm_num) (initPortfolio 0) rfl
    exact opened_never_restored 3 shortOpened "BTCUSDT" .short 100 2 shortOpened_isOpened
      (by norm_num) (by norm_num) (initPortfolio 0) rfl hopen
  · intro h
    have hfee := (fee_charged_iff 3 halfFee (1 / 2) halfFee_isFee (initPortfolio 0)).mp
      (h 3 halfFee (1 / 2) halfFee_isFee (initPortfolio 0))
    exact absurd hfee (by norm_num)
  · intro h
    have hflat := (leaves_flat_iff 3 shortOpened shortClosed "BTCUSDT" .short 100 2
      shortOpened_isOpened shortClosed_isClosed (by norm_num)).mp
      (h 3 shortOpened shortClosed "BTCUSDT" .short 100 2 shortOpened_isOpened
        shortClosed_isClosed (by norm_num))
    exact absurd hflat.2 (by simp)

theorem events_survive_iff_short :
    (∀ p, getPositionSide p "BTCUSDT" .short = none →
      ¬ OpensLeg 3 p shortOpened "BTCUSDT" .short 2) ∧
    (∀ p, replayEntries 3 p [halfFee] = recordFee p (1 / 2) ↔ (1 / 2 : ℚ) = 0) ∧
    (LeavesFlat 3 shortOpened shortClosed "BTCUSDT" .short ↔
      "BTCUSDT" ≠ "" ∧ PositionSide.short = .long) :=
  events_survive_iff 3 shortOpened shortClosed halfFee "BTCUSDT" .short 100 2 (1 / 2)
    shortOpened_isOpened shortClosed_isClosed halfFee_isFee (by norm_num) (by norm_num)

end Short

end TB.EventRoundTrip
