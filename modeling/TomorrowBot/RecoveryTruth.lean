import TomorrowBot.SnapshotRoundTrip

/-!
# The exchange as the truth after a recovery

A recovery first brings back what was persisted, then takes over the positions
the exchange lists and settles the capital on its balance. The state before the
exchange is asked is a function of the portfolio, the snapshot and the journal.
What holds after one recovery and what a second one changes is stated in terms
of these states.
-/

set_option autoImplicit false

namespace TB.RecoveryTruth
open TB.CommonTypes TB.EventJournal TB.PortfolioEngine TB.PortfolioEquity TB.ReconciliationTypes
open TB.RecoveryService TB.JournalReplay

section States
variable {F : Type} [DoubleArith F]

def restoredPortfolio (store : PersistenceLayer F) (now : Timestamp) (p : Portfolio F) :
    Portfolio F × Bool :=
  if !store.enabled then (p, false)
  else
    match store.snapshot with
    | none => (p, false)
    | some entry => restorePayload now p entry.payloadJson

def replayedPortfolio (store : PersistenceLayer F) (now : Timestamp) (p : Portfolio F) :
    Portfolio F :=
  match store.snapshot with
  | none => p
  | some entry =>
    match query store.journal entry.createdAt now (some .portfolioChange) store.answered with
    | .error _ => p
    | .ok entries => Runs.run portfolioStep p (entries.filterMap (appliedOp now))

def persisted (store : PersistenceLayer F) (now : Timestamp) (p : Portfolio F) : Portfolio F :=
  let restored := restoredPortfolio store now p
  if restored.2 then replayedPortfolio store now restored.1 else restored.1

def accepted (cfg : RecoveryConfig F) (info : ExchangeOpenPositionInfo F) : Bool :=
  matchesSymbolFilter cfg info.symbol && !isDust cfg info

def keptOpening (p : Portfolio F) (now : Timestamp) (info : ExchangeOpenPositionInfo F) :
    Timestamp :=
  match getPositionSide p info.symbol (sideToPositionSide info.side) with
  | some known => if known.side = info.side then known.openedAt else now
  | none => now

def takeOver (now : Timestamp) (p : Portfolio F) (info : ExchangeOpenPositionInfo F) :
    Portfolio F :=
  syncFromInfo p now info (keptOpening p now info)

def takenOver (cfg : RecoveryConfig F) (now : Timestamp) (p : Portfolio F)
    (infos : List (ExchangeOpenPositionInfo F)) : Portfolio F :=
  (infos.filter (accepted cfg)).foldl (takeOver now) p

def settleCapital (p : Portfolio F) (balance : F) : Portfolio F :=
  if kCapitalSyncThresholdUsdt < stdAbs (balance - p.totalCapital) then setCapital p balance else p

theorem restoreFromSnapshot_spec (store : PersistenceLayer F) (now : Timestamp)
    (s : Recovery F) :
    (restoreFromSnapshot store now s).1.portfolio = (restoredPortfolio store now s.portfolio).1 ∧
    (restoreFromSnapshot store now s).2 = (restoredPortfolio store now s.portfolio).2 ∧
    (restoreFromSnapshot store now s).1.lastResult.errors = s.lastResult.errors := by
  unfold restoreFromSnapshot restoredPortfolio
  by_cases he : store.enabled = true
  swap
  · simp [he]
  rcases hs : store.snapshot with _ | entry
  · simp [he]
  · by_cases hr : (restorePayload now s.portfolio entry.payloadJson).2 = true
    · simp [he, hr, Recovery.say]
    · simp [he, hr]

theorem replayStep_errors (now : Timestamp) (s : Replay F) (e : JournalEntry F) :
    (replayStep now s e).service.lastResult.errors = s.service.lastResult.errors := by
  unfold replayStep
  rcases replayEntry now e with _ | ⟨_ | _⟩ | ⟨_, _⟩ <;> rfl

theorem replay_errors (now : Timestamp) (entries : List (JournalEntry F)) (s : Replay F) :
    (entries.foldl (replayStep now) s).service.lastResult.errors =
      s.service.lastResult.errors := by
  induction entries generalizing s with
  | nil => rfl
  | cons e entries ih => rw [List.foldl_cons, ih, replayStep_errors]

theorem replayAfter_spec (store : PersistenceLayer F) (now : Timestamp) (s : Recovery F)
    (he : store.enabled = true) :
    (replayAfter store now s).portfolio = replayedPortfolio store now s.portfolio ∧
    (replayAfter store now s).lastResult.errors = s.lastResult.errors := by
  unfold replayAfter replayedPortfolio
  rcases store.snapshot with _ | entry
  · exact ⟨rfl, rfl⟩
  simp only [replayJournalAfterSnapshot, he, Bool.not_true, Bool.false_eq_true, if_false]
  rcases query store.journal entry.createdAt now (some .portfolioChange) store.answered with
    _ | entries
  · exact ⟨rfl, rfl⟩
  · have hp := replay_run now entries ⟨s, 0, 0, 0⟩
    have hr := replay_errors now entries ⟨s, 0, 0, 0⟩
    dsimp only
    split_ifs
    all_goals
      generalize entries.foldl (replayStep now) ⟨s, 0, 0, 0⟩ = replayed at hp hr ⊢
      exact ⟨hp, hr⟩

variable (cfg : RecoveryConfig F) (now : Timestamp)

theorem syncPosition_spec (s : Recovery F)
    (info : ExchangeOpenPositionInfo F) (hoff : cfg.closeOrphanPositions = false) :
    (syncPosition cfg now s info).1.portfolio = takeOver now s.portfolio info ∧
    (syncPosition cfg now s info).1.lastResult.errors = s.lastResult.errors := by
  unfold syncPosition takeOver keptOpening
  rcases getPositionSide s.portfolio info.symbol (sideToPositionSide info.side) with _ | known
  · simp [hoff, Recovery.say, Recovery.warn]
  · by_cases hs : known.side = info.side
    · rcases hq : quantityResolution info known with ⟨a, b⟩ | _ | _ | _ <;>
        simp [hs, hq, Recovery.say, Recovery.warn]
    · simp [hs, hoff, Recovery.say, Recovery.warn]

theorem syncPositions_spec (infos : List (ExchangeOpenPositionInfo F)) (s : Recovery F)
    (hoff : cfg.closeOrphanPositions = false) :
    (syncPositions cfg now s infos).1.portfolio = takenOver cfg now s.portfolio infos ∧
    (syncPositions cfg now s infos).1.lastResult.errors = s.lastResult.errors := by
  induction infos generalizing s with
  | nil => exact ⟨rfl, rfl⟩
  | cons info infos ih =>
    by_cases ha : accepted cfg info = true
    · have hskip : (!matchesSymbolFilter cfg info.symbol || isDust cfg info) = false := by
        rw [accepted, Bool.and_eq_true] at ha
        simp_all
      obtain ⟨hp, he⟩ := syncPosition_spec cfg now s info hoff
      obtain ⟨ihp, ihe⟩ := ih (syncPosition cfg now s info).1
      simp only [syncPositions, hskip, Bool.false_eq_true, if_false, takenOver,
        List.filter_cons_of_pos ha, List.foldl_cons]
      exact ⟨by rw [ihp, hp, takenOver], by rw [ihe, he]⟩
    · have hskip : (!matchesSymbolFilter cfg info.symbol || isDust cfg info) = true := by
        rw [accepted, Bool.and_eq_true] at ha
        cases hm : matchesSymbolFilter cfg info.symbol <;> simp_all
      obtain ⟨ihp, ihe⟩ := ih s
      simp only [syncPositions, hskip, if_true, takenOver, List.filter_cons_of_neg ha]
      exact ⟨ihp, ihe⟩

theorem syncPositionsFromExchange_spec
    (balances : List (ExchangePositionInfo F)) (infos : List (ExchangeOpenPositionInfo F))
    (s : Recovery F) (hoff : cfg.closeOrphanPositions = false) :
    (syncPositionsFromExchange cfg ⟨some balances, some infos⟩ now s).1.portfolio =
      takenOver cfg now s.portfolio infos ∧
    (syncPositionsFromExchange cfg ⟨some balances, some infos⟩ now s).1.lastResult.errors =
      s.lastResult.errors ∧
    (syncPositionsFromExchange cfg ⟨some balances, some infos⟩ now s).2.2 = balances := by
  cases infos with
  | nil => exact ⟨rfl, rfl, rfl⟩
  | cons info infos =>
    obtain ⟨hp, he⟩ := syncPositions_spec cfg now (info :: infos) s hoff
    exact ⟨hp, he, rfl⟩

theorem extractUsdtBalance_spec (balances : List (ExchangePositionInfo F)) (s : Recovery F)
    (usdt : ExchangePositionInfo F)
    (hb : balances.find? (fun info => info.symbol = kUsdtSymbol) = some usdt) :
    (extractUsdtBalance balances s).1.portfolio =
      settleCapital s.portfolio (usdt.available + usdt.frozen) ∧
    (extractUsdtBalance balances s).1.lastResult.errors = s.lastResult.errors := by
  simp only [extractUsdtBalance, hb, settleCapital]
  split_ifs
  · exact ⟨rfl, rfl⟩
  · exact ⟨rfl, rfl⟩

theorem syncWithExchange_spec (now finished : Timestamp)
    (balances : List (ExchangePositionInfo F)) (infos : List (ExchangeOpenPositionInfo F))
    (s : Recovery F) (usdt : ExchangePositionInfo F) (hoff : cfg.closeOrphanPositions = false)
    (hb : balances.find? (fun info => info.symbol = kUsdtSymbol) = some usdt) :
    (syncWithExchange cfg ⟨some balances, some infos⟩ now finished s).portfolio =
      settleCapital (takenOver cfg now s.portfolio infos) (usdt.available + usdt.frozen) ∧
    (syncWithExchange cfg ⟨some balances, some infos⟩ now finished s).lastResult.errors =
      s.lastResult.errors := by
  obtain ⟨hp, he, hbal⟩ := syncPositionsFromExchange_spec cfg now balances infos s hoff
  simp only [syncWithExchange, finish, hbal]
  obtain ⟨hxp, hxe⟩ := extractUsdtBalance_spec balances
    { (syncPositionsFromExchange cfg ⟨some balances, some infos⟩ now s).1 with
      lastResult := { (syncPositionsFromExchange cfg ⟨some balances, some infos⟩ now
        s).1.lastResult with recoveredPositions :=
          (syncPositionsFromExchange cfg ⟨some balances, some infos⟩ now s).2.1 } } usdt hb
  rw [hp] at hxp
  rw [he] at hxe
  exact ⟨hxp, hxe⟩

/-- A recovery without errors: the persisted state, the positions of the
exchange, its balance. -/
theorem recoverOnStartup_spec (store : PersistenceLayer F)
    (now finished : Timestamp) (balances : List (ExchangePositionInfo F))
    (infos : List (ExchangeOpenPositionInfo F)) (s : Recovery F) (usdt : ExchangePositionInfo F)
    (hon : cfg.enabled = true) (hoff : cfg.closeOrphanPositions = false)
    (hb : balances.find? (fun info => info.symbol = kUsdtSymbol) = some usdt)
    (hok : (recoverOnStartup cfg store ⟨some balances, some infos⟩ now finished
      s).lastResult.errors = 0) :
    (recoverOnStartup cfg store ⟨some balances, some infos⟩ now finished s).portfolio =
      settleCapital (takenOver cfg now (persisted store now s.portfolio) infos)
        (usdt.available + usdt.frozen) := by
  obtain ⟨hp, hr, he⟩ := restoreFromSnapshot_spec store now
    { s with lastResult := newResult .inProgress }
  have hsync := fun t => (syncWithExchange_spec cfg now finished balances infos t usdt hoff hb).1
  simp only [recoverOnStartup, hon, Bool.not_true, Bool.false_eq_true, if_false] at hok ⊢
  by_cases hrest : (restoredPortfolio store now s.portfolio).2 = true
  · have henabled : store.enabled = true := by
      by_contra hn
      rw [Bool.not_eq_true] at hn
      simp [restoredPortfolio, hn] at hrest
    have hrep := (replayAfter_spec store now
      (Recovery.say (restoreFromSnapshot store now
        { s with lastResult := newResult .inProgress }).1 .snapshotRestoredSuccessfully)
      henabled).1
    rw [if_pos (hr.trans hrest), hsync, hrep, persisted, if_pos hrest]
    show settleCapital (takenOver cfg now (replayedPortfolio store now
      (restoreFromSnapshot store now _).1.portfolio) infos) _ = _
    rw [hp]
  · have hrest' : ¬ (restoreFromSnapshot store now
        { s with lastResult := newResult .inProgress }).2 = true := by
      rw [hr]
      exact hrest
    rw [if_neg hrest'] at hok ⊢
    rw [persisted, if_neg hrest]
    by_cases henabled : store.enabled = true
    · rw [if_pos henabled] at hok ⊢
      by_cases hj : journalWithoutSnapshot store now = true
      · rw [if_pos hj] at hok
        exact absurd hok (Nat.succ_ne_zero _)
      · rw [if_neg hj, hsync]
        show settleCapital (takenOver cfg now (restoreFromSnapshot store now _).1.portfolio
          infos) _ = _
        rw [hp]
    · rw [if_neg henabled, hsync]
      show settleCapital (takenOver cfg now (restoreFromSnapshot store now _).1.portfolio
        infos) _ = _
      rw [hp]

end States

section Legs

def legSize (pos : Position ℚ) : ℚ × ℚ := (pos.size, pos.avgEntryPrice)

def infoSize (info : ExchangeOpenPositionInfo ℚ) : ℚ × ℚ := (info.size, info.entryPrice)

def isLeg (symbol : Symbol) (ps : PositionSide) (info : ExchangeOpenPositionInfo ℚ) : Bool :=
  info.symbol = symbol && sideToPositionSide info.side = ps

def listed (cfg : RecoveryConfig ℚ) (infos : List (ExchangeOpenPositionInfo ℚ))
    (symbol : Symbol) (ps : PositionSide) : List (ExchangeOpenPositionInfo ℚ) :=
  (infos.filter (accepted cfg)).filter (isLeg symbol ps)

def LegsExact (cfg : RecoveryConfig ℚ) (infos : List (ExchangeOpenPositionInfo ℚ))
    (p : Portfolio ℚ) : Prop :=
  ∀ symbol ps, matchesSymbolFilter cfg symbol = true →
    ∀ v, (getPositionSide p symbol ps).map legSize = some v ↔
      ∃ info ∈ listed cfg infos symbol ps, infoSize info = v

def OneEach (cfg : RecoveryConfig ℚ) (infos : List (ExchangeOpenPositionInfo ℚ)) : Prop :=
  ∀ symbol ps, ∀ i ∈ listed cfg infos symbol ps, ∀ j ∈ listed cfg infos symbol ps,
    infoSize i = infoSize j

def NoStray (cfg : RecoveryConfig ℚ) (infos : List (ExchangeOpenPositionInfo ℚ))
    (p : Portfolio ℚ) : Prop :=
  ∀ symbol ps, matchesSymbolFilter cfg symbol = true → listed cfg infos symbol ps = [] →
    getPositionSide p symbol ps = none

variable (now : Timestamp)

theorem takeOver_self (p : Portfolio ℚ) (info : ExchangeOpenPositionInfo ℚ) :
    (getPositionSide (takeOver now p info) info.symbol (sideToPositionSide info.side)).map
      legSize = some (infoSize info) := by
  unfold takeOver syncFromInfo syncPositionFromExchange getPositionSide
  dsimp only
  rcases p.positions.lookup (makePosKey info.symbol (sideToPositionSide info.side)) with _ | pos
  · simp only [storeLeg, AList.lookup_insert, Option.map_some]
    rfl
  · simp only [storeLeg, AList.lookup_insert, Option.map_some, legSize, recalculate_size,
      recalculate_entry]
    rfl

theorem takeOver_other (p : Portfolio ℚ) (info : ExchangeOpenPositionInfo ℚ)
    (symbol : Symbol) (ps : PositionSide) (h : isLeg symbol ps info = false) :
    getPositionSide (takeOver now p info) symbol ps = getPositionSide p symbol ps := by
  have hne : makePosKey symbol ps ≠ makePosKey info.symbol (sideToPositionSide info.side) := by
    intro hk
    obtain ⟨rfl, rfl⟩ := makePosKey_injective _ _ _ _ hk
    simp [isLeg] at h
  unfold takeOver syncFromInfo syncPositionFromExchange getPositionSide
  dsimp only
  rcases p.positions.lookup (makePosKey info.symbol (sideToPositionSide info.side)) with _ | pos
  · exact AList.lookup_insert_ne hne
  · exact AList.lookup_insert_ne hne

theorem takeOver_legs (l : List (ExchangeOpenPositionInfo ℚ))
    (p : Portfolio ℚ) (symbol : Symbol) (ps : PositionSide) :
    (getPositionSide (l.foldl (takeOver now) p) symbol ps).map legSize =
      ((l.filter (isLeg symbol ps)).getLast?.map infoSize).or
        ((getPositionSide p symbol ps).map legSize) := by
  induction l generalizing p with
  | nil => rfl
  | cons info l ih =>
    rw [List.foldl_cons, ih]
    by_cases hi : isLeg symbol ps info = true
    · have hself : (getPositionSide (takeOver now p info) symbol ps).map legSize =
          some (infoSize info) := by
        have hleg := hi
        simp only [isLeg, Bool.and_eq_true, decide_eq_true_eq] at hleg
        rw [← hleg.1, ← hleg.2]
        exact takeOver_self now p info
      rw [List.filter_cons_of_pos hi, hself, List.getLast?_cons]
      cases (l.filter (isLeg symbol ps)).getLast? <;> rfl
    · rw [Bool.not_eq_true] at hi
      rw [takeOver_other now p info symbol ps hi, List.filter_cons_of_neg (by simp [hi])]

variable (cfg : RecoveryConfig ℚ)

theorem accepted_matches (infos : List (ExchangeOpenPositionInfo ℚ))
    (symbol : Symbol) (ps : PositionSide) (info : ExchangeOpenPositionInfo ℚ)
    (h : info ∈ listed cfg infos symbol ps) : matchesSymbolFilter cfg symbol = true := by
  obtain ⟨hm, hl⟩ := List.mem_filter.mp h
  obtain ⟨-, ha⟩ := List.mem_filter.mp hm
  rw [accepted, Bool.and_eq_true] at ha
  simp only [isLeg, Bool.and_eq_true, decide_eq_true_eq] at hl
  rw [← hl.1]
  exact ha.1

/-- A leg the exchange lists is taken over; one it does not list stays. -/
theorem takenOver_listed (now : Timestamp) (p : Portfolio ℚ)
    (infos : List (ExchangeOpenPositionInfo ℚ)) (h1 : OneEach cfg infos) (symbol : Symbol)
    (ps : PositionSide) (info : ExchangeOpenPositionInfo ℚ)
    (hi : info ∈ listed cfg infos symbol ps) :
    (getPositionSide (takenOver cfg now p infos) symbol ps).map legSize =
      some (infoSize info) := by
  have hne : listed cfg infos symbol ps ≠ [] := List.ne_nil_of_mem hi
  have hlast : (listed cfg infos symbol ps).getLast? =
      some ((listed cfg infos symbol ps).getLast hne) := List.getLast?_eq_some_getLast hne
  have hlegs := takeOver_legs now (infos.filter (accepted cfg)) p symbol ps
  rw [takenOver, hlegs]
  show ((listed cfg infos symbol ps).getLast?.map infoSize).or _ = _
  rw [hlast, Option.map_some, Option.some_or,
    h1 symbol ps _ (List.getLast_mem hne) info hi]

theorem takenOver_unlisted (now : Timestamp) (p : Portfolio ℚ)
    (infos : List (ExchangeOpenPositionInfo ℚ)) (symbol : Symbol) (ps : PositionSide)
    (hl : listed cfg infos symbol ps = []) :
    (getPositionSide (takenOver cfg now p infos) symbol ps).map legSize =
      (getPositionSide p symbol ps).map legSize := by
  have hlegs := takeOver_legs now (infos.filter (accepted cfg)) p symbol ps
  rw [takenOver, hlegs]
  show ((listed cfg infos symbol ps).getLast?.map infoSize).or _ = _
  rw [hl]
  rfl

/-- The legs are the exchange's exactly if it lists each once and no local leg
is missing from its list. -/
theorem legsExact_iff (now : Timestamp) (p : Portfolio ℚ)
    (infos : List (ExchangeOpenPositionInfo ℚ)) :
    LegsExact cfg infos (takenOver cfg now p infos) ↔ OneEach cfg infos ∧ NoStray cfg infos p := by
  constructor
  · intro h
    constructor
    · intro symbol ps i hi j hj
      have hm := accepted_matches cfg infos symbol ps i hi
      have hvi := (h symbol ps hm (infoSize i)).mpr ⟨i, hi, rfl⟩
      have hvj := (h symbol ps hm (infoSize j)).mpr ⟨j, hj, rfl⟩
      rw [hvi] at hvj
      exact Option.some.inj hvj
    · intro symbol ps hm hl
      rcases hp : getPositionSide p symbol ps with _ | pos
      · rfl
      have hun := takenOver_unlisted cfg now p infos symbol ps hl
      rw [hp, Option.map_some] at hun
      obtain ⟨info, hi, -⟩ := (h symbol ps hm (legSize pos)).mp hun
      rw [hl] at hi
      exact absurd hi List.not_mem_nil
  · rintro ⟨h1, h2⟩ symbol ps hm v
    rcases hl : listed cfg infos symbol ps with _ | ⟨info, rest⟩
    · rw [takenOver_unlisted cfg now p infos symbol ps hl, h2 symbol ps hm hl]
      simp
    · have hi : info ∈ listed cfg infos symbol ps := by
        rw [hl]
        exact List.mem_cons_self
      rw [takenOver_listed cfg now p infos h1 symbol ps info hi, Option.some.injEq, ← hl]
      constructor
      · rintro rfl
        exact ⟨info, hi, rfl⟩
      · rintro ⟨j, hj, rfl⟩
        exact h1 symbol ps info hi j hj

end Legs

section Capital

def results (p : Portfolio ℚ) : ℚ := p.realizedPnlToday + totalUnrealized p

def settled (balance capital results : ℚ) : ℚ :=
  if kCapitalSyncThresholdUsdt < |balance - capital| then balance - results else capital

theorem settleCapital_capital (p : Portfolio ℚ) (balance : ℚ) :
    (settleCapital p balance).totalCapital = settled balance p.totalCapital (results p) := by
  unfold settleCapital settled
  rw [stdAbs_rat]
  split_ifs
  · show balance - p.realizedPnlToday - totalUnrealized p = balance - results p
    rw [results, sub_sub]
  · rfl

theorem settleCapital_positions (p : Portfolio ℚ) (balance : ℚ) :
    (settleCapital p balance).positions = p.positions := by
  unfold settleCapital
  split_ifs <;> rfl

theorem takeOver_capital (now : Timestamp) (p : Portfolio ℚ)
    (info : ExchangeOpenPositionInfo ℚ) :
    (takeOver now p info).totalCapital = p.totalCapital := by
  unfold takeOver syncFromInfo syncPositionFromExchange
  dsimp only
  rcases p.positions.lookup (makePosKey info.symbol (sideToPositionSide info.side)) with _ | pos <;>
    rfl

theorem takenOver_capital (cfg : RecoveryConfig ℚ) (now : Timestamp) (p : Portfolio ℚ)
    (infos : List (ExchangeOpenPositionInfo ℚ)) :
    (takenOver cfg now p infos).totalCapital = p.totalCapital := by
  unfold takenOver
  generalize infos.filter (accepted cfg) = l
  induction l generalizing p with
  | nil => rfl
  | cons info l ih => rw [List.foldl_cons, ih, takeOver_capital]

/-- The capital ends within the threshold exactly if it was there before or the
results, which the settlement subtracts, are within it. -/
theorem settled_iff (balance capital results : ℚ) :
    |settled balance capital results - balance| ≤ kCapitalSyncThresholdUsdt ↔
      |balance - capital| ≤ kCapitalSyncThresholdUsdt ∨ |results| ≤ kCapitalSyncThresholdUsdt := by
  unfold settled
  by_cases h : kCapitalSyncThresholdUsdt < |balance - capital|
  · rw [if_pos h, sub_sub_cancel_left, abs_neg]
    constructor
    · exact Or.inr
    · rintro (hc | hr)
      · exact absurd hc (not_le.mpr h)
      · exact hr
  · rw [if_neg h, abs_sub_comm]
    have hle := not_lt.mp h
    exact ⟨fun _ => .inl hle, fun _ => hle⟩

end Capital

section Truth

def Truth (cfg : RecoveryConfig ℚ) (infos : List (ExchangeOpenPositionInfo ℚ)) (balance : ℚ)
    (p : Portfolio ℚ) : Prop :=
  LegsExact cfg infos p ∧ |p.totalCapital - balance| ≤ kCapitalSyncThresholdUsdt

def Unchanged (cfg : RecoveryConfig ℚ) (p q : Portfolio ℚ) : Prop :=
  (∀ symbol ps, matchesSymbolFilter cfg symbol = true →
    (getPositionSide q symbol ps).map legSize = (getPositionSide p symbol ps).map legSize) ∧
  q.totalCapital = p.totalCapital

def Settles (cfg : RecoveryConfig ℚ) (infos : List (ExchangeOpenPositionInfo ℚ)) (balance : ℚ)
    (now : Timestamp) (before : Portfolio ℚ) : Prop :=
  OneEach cfg infos ∧ NoStray cfg infos before ∧
    (|balance - before.totalCapital| ≤ kCapitalSyncThresholdUsdt ∨
      |results (takenOver cfg now before infos)| ≤ kCapitalSyncThresholdUsdt)

/-- What a second recovery needs: the persisted state brings no leg that the
exchange does not list, and the capital settles where it is. -/
def Stays (cfg : RecoveryConfig ℚ) (infos : List (ExchangeOpenPositionInfo ℚ)) (balance : ℚ)
    (now : Timestamp) (capital : ℚ) (before : Portfolio ℚ) : Prop :=
  NoStray cfg infos before ∧
    settled balance before.totalCapital (results (takenOver cfg now before infos)) = capital

def Recoverable (cfg : RecoveryConfig ℚ) (store : PersistenceLayer ℚ)
    (infos : List (ExchangeOpenPositionInfo ℚ)) (balance : ℚ) (now again : Timestamp)
    (p first : Portfolio ℚ) : Prop :=
  if cfg.enabled then
    Settles cfg infos balance now (persisted store now p) ∧
      Stays cfg infos balance again first.totalCapital (persisted store again first)
  else Truth cfg infos balance p

theorem truth_iff (cfg : RecoveryConfig ℚ) (infos : List (ExchangeOpenPositionInfo ℚ))
    (balance : ℚ) (now : Timestamp) (before : Portfolio ℚ) :
    Truth cfg infos balance (settleCapital (takenOver cfg now before infos) balance) ↔
      Settles cfg infos balance now before := by
  have hlegs : LegsExact cfg infos (settleCapital (takenOver cfg now before infos) balance) ↔
      LegsExact cfg infos (takenOver cfg now before infos) := by
    unfold LegsExact getPositionSide
    rw [settleCapital_positions]
  rw [Truth, Settles, hlegs, legsExact_iff, settleCapital_capital, settled_iff,
    takenOver_capital, and_assoc]

theorem unchanged_iff (cfg : RecoveryConfig ℚ) (infos : List (ExchangeOpenPositionInfo ℚ))
    (balance : ℚ) (again : Timestamp) (first before : Portfolio ℚ)
    (h1 : OneEach cfg infos) (hf : LegsExact cfg infos first) :
    Unchanged cfg first (settleCapital (takenOver cfg again before infos) balance) ↔
      Stays cfg infos balance again first.totalCapital before := by
  have hpos : ∀ symbol ps, getPositionSide (settleCapital (takenOver cfg again before infos)
      balance) symbol ps = getPositionSide (takenOver cfg again before infos) symbol ps := by
    intro symbol ps
    unfold getPositionSide
    rw [settleCapital_positions]
  have hflat : ∀ symbol ps, matchesSymbolFilter cfg symbol = true →
      listed cfg infos symbol ps = [] → (getPositionSide first symbol ps).map legSize = none := by
    intro symbol ps hm hl
    rw [Option.eq_none_iff_forall_ne_some]
    intro v hv
    obtain ⟨info, hi, -⟩ := (hf symbol ps hm v).mp hv
    rw [hl] at hi
    exact absurd hi List.not_mem_nil
  rw [Unchanged, Stays, settleCapital_capital, takenOver_capital]
  apply and_congr_left
  intro _
  constructor
  · intro h symbol ps hm hl
    have hv := h symbol ps hm
    rw [hpos, takenOver_unlisted cfg again before infos symbol ps hl, hflat symbol ps hm hl,
      Option.map_eq_none_iff] at hv
    exact hv
  · intro h symbol ps hm
    rw [hpos]
    rcases hl : listed cfg infos symbol ps with _ | ⟨info, rest⟩
    · rw [takenOver_unlisted cfg again before infos symbol ps hl, h symbol ps hm hl,
        hflat symbol ps hm hl]
      rfl
    · have hi : info ∈ listed cfg infos symbol ps := by
        rw [hl]
        exact List.mem_cons_self
      rw [takenOver_listed cfg again before infos h1 symbol ps info hi,
        (hf symbol ps hm (infoSize info)).mpr ⟨info, hi, rfl⟩]

/-- For all snapshots, journals, portfolios and answers with a balance: after a
recovery without errors the portfolio agrees with the exchange, and a second
one changes nothing, exactly if the persisted state has no stray leg, its
capital or its results are within the threshold, and the same holds on top of
the first recovery. -/
theorem exchange_truth_iff (cfg : RecoveryConfig ℚ) (store : PersistenceLayer ℚ)
    (balances : List (ExchangePositionInfo ℚ)) (infos : List (ExchangeOpenPositionInfo ℚ))
    (usdt : ExchangePositionInfo ℚ) (now finished again ended : Timestamp) (s : Recovery ℚ)
    (hoff : cfg.closeOrphanPositions = false)
    (hb : balances.find? (fun info => info.symbol = kUsdtSymbol) = some usdt)
    (hfirst : (recoverOnStartup cfg store ⟨some balances, some infos⟩ now finished
      s).lastResult.errors = 0)
    (hsecond : (recoverOnStartup cfg store ⟨some balances, some infos⟩ again ended
      (recoverOnStartup cfg store ⟨some balances, some infos⟩ now finished
        s)).lastResult.errors = 0) :
    (Truth cfg infos (usdt.available + usdt.frozen)
        (recoverOnStartup cfg store ⟨some balances, some infos⟩ now finished s).portfolio ∧
      Unchanged cfg
        (recoverOnStartup cfg store ⟨some balances, some infos⟩ now finished s).portfolio
        (recoverOnStartup cfg store ⟨some balances, some infos⟩ again ended
          (recoverOnStartup cfg store ⟨some balances, some infos⟩ now finished s)).portfolio) ↔
    Recoverable cfg store infos (usdt.available + usdt.frozen) now again s.portfolio
      (recoverOnStartup cfg store ⟨some balances, some infos⟩ now finished s).portfolio := by
  by_cases hon : cfg.enabled = true
  · rw [Recoverable, if_pos hon]
    have hp1 := recoverOnStartup_spec cfg store now finished balances infos s usdt hon hoff hb hfirst
    have hp2 := recoverOnStartup_spec cfg store again ended balances infos _ usdt hon hoff hb hsecond
    generalize recoverOnStartup cfg store ⟨some balances, some infos⟩ now finished s = r at *
    rw [hp2]
    have htruth := truth_iff cfg infos (usdt.available + usdt.frozen) now
      (persisted store now s.portfolio)
    rw [← hp1] at htruth
    rw [htruth]
    apply and_congr_right
    intro hs
    have hexact : LegsExact cfg infos r.portfolio := (htruth.mpr hs).1
    exact unchanged_iff cfg infos _ again r.portfolio _ hs.1 hexact
  · rw [Recoverable, if_neg hon]
    rw [Bool.not_eq_true] at hon
    have hsame : ∀ t end_ s, (recoverOnStartup cfg store ⟨some balances, some infos⟩ t end_
        s).portfolio = s.portfolio := by
      intro t end_ s
      simp [recoverOnStartup, hon, Recovery.say]
    rw [hsame, hsame, hsame]
    constructor
    · exact And.left
    · intro h
      exact ⟨h, fun _ _ _ => rfl, rfl⟩

end Truth

section Stray

def openConfig : RecoveryConfig ℚ := ⟨true, false, 5, ""⟩

def noStore : PersistenceLayer ℚ := ⟨false, ⟨[], 0⟩, none, true⟩

def thousand : ExchangePositionInfo ℚ := ⟨"USDT", 900, 100, 1000⟩

def strayLong : Recovery ℚ :=
  ⟨openPosition (initPortfolio 1000) 1 (restoredPosition "BTCUSDT" .buy 1 100 "scalp" 1 1),
    newResult .notStarted⟩

def startStray (s : Recovery ℚ) (now finished : Timestamp) : Recovery ℚ :=
  recoverOnStartup openConfig noStore ⟨some [thousand], some []⟩ now finished s

/-- The exchange has no position, the local leg stays. -/
theorem stray_leg_stays :
    ¬ ∀ (cfg : RecoveryConfig ℚ) (store : PersistenceLayer ℚ)
      (balances : List (ExchangePositionInfo ℚ)) (infos : List (ExchangeOpenPositionInfo ℚ))
      (usdt : ExchangePositionInfo ℚ) (now finished : Timestamp) (s : Recovery ℚ),
      cfg.closeOrphanPositions = false →
      balances.find? (fun info => info.symbol = kUsdtSymbol) = some usdt →
      (recoverOnStartup cfg store ⟨some balances, some infos⟩ now finished
        s).lastResult.errors = 0 →
      Truth cfg infos (usdt.available + usdt.frozen)
        (recoverOnStartup cfg store ⟨some balances, some infos⟩ now finished s).portfolio := by
  intro h
  have hb : [thousand].find? (fun info => info.symbol = kUsdtSymbol) = some thousand := by
    decide +kernel
  have hok : (startStray strayLong 2 3).lastResult.errors = 0 := by decide +kernel
  have ht := h openConfig noStore [thousand] [] thousand 2 3 strayLong rfl hb hok
  rw [recoverOnStartup_spec openConfig noStore 2 3 [thousand] [] strayLong thousand rfl rfl hb hok,
    truth_iff] at ht
  have hflat := ht.2.1 "BTCUSDT" .long rfl rfl
  have hheld : (getPositionSide (persisted noStore 2 strayLong.portfolio) "BTCUSDT"
      .long).isSome = true := by
    decide +kernel
  rw [hflat] at hheld
  exact absurd hheld (by decide)

theorem exchange_truth_iff_stray :
    (Truth openConfig [] (thousand.available + thousand.frozen)
        (startStray strayLong 2 3).portfolio ∧
      Unchanged openConfig (startStray strayLong 2 3).portfolio
        (startStray (startStray strayLong 2 3) 4 5).portfolio) ↔
    Recoverable openConfig noStore [] (thousand.available + thousand.frozen) 2 4
      strayLong.portfolio (startStray strayLong 2 3).portfolio :=
  exchange_truth_iff openConfig noStore [thousand] [] thousand 2 3 4 5 strayLong rfl
    (by decide +kernel) (by decide +kernel) (by decide +kernel)

end Stray

end TB.RecoveryTruth
