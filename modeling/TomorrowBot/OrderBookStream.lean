import TomorrowBot.DoubleValues
import TomorrowBot.OrderBook
import TomorrowBot.Runs

/-!
# The local order book as the fold of the accepted stream

Beside the book a run keeps the last accepted snapshot and the deltas accepted
since. What these messages say about a price is a function of the levels in
their order. A level is skipped when its price is not positive; the comparison
that finds this out lets a price through that is not a number.
-/

set_option autoImplicit false

namespace TB.OrderBookStream
open TB.CommonTypes TB.DoubleValues TB.DoubleValues.Double TB.OrderBook

section Stream

inductive BookOp where
  | applySnapshot (snap : NormalizedOrderBook Double)
  | applyDelta (delta : NormalizedOrderBook Double)
  | requestResync
  | checkStaleness (now : Timestamp) (staleThresholdNs : ℤ)

structure Feed where
  book : LocalOrderBook Double
  accepted : Option (NormalizedOrderBook Double × List (NormalizedOrderBook Double))

def start (symbol : Symbol) : Feed := ⟨OrderBook.init symbol, none⟩

def snapshotAccepted (b : LocalOrderBook Double) (snap : NormalizedOrderBook Double) : Bool :=
  snap.envelope.symbol == b.symbol && (applySnapshot b snap).quality == .valid

def feedStep (s : Feed) : BookOp → Feed
  | .applySnapshot snap =>
    ⟨applySnapshot s.book snap,
      if snapshotAccepted s.book snap then some (snap, []) else s.accepted⟩
  | .applyDelta delta =>
    ⟨(applyDelta s.book delta).book,
      if (applyDelta s.book delta).accepted then
        s.accepted.map (fun a => (a.1, a.2 ++ [delta]))
      else s.accepted⟩
  | .requestResync => ⟨requestResync s.book, s.accepted⟩
  | .checkStaleness now threshold => ⟨(checkStaleness s.book now threshold).1, s.accepted⟩

abbrev Levels := Double → Option Double

def setLevel (v : Levels) (lvl : BookLevel Double) : Levels := fun p =>
  if lvl.price = p ∧ 0 < p then
    if lvl.size = 0 then none else if 0 < lvl.size then some lvl.size else v p
  else v p

def setLevels (v : Levels) (levels : List (BookLevel Double)) : Levels := levels.foldl setLevel v

def levelsOf (side : NormalizedOrderBook Double → List (BookLevel Double))
    (snap : NormalizedOrderBook Double) (deltas : List (NormalizedOrderBook Double)) : Levels :=
  deltas.foldl (fun v delta => setLevels v (side delta)) (setLevels (fun _ => none) (side snap))

def Shows (m : List (Double × Double)) (v : Levels) : Prop :=
  ∀ p size, (p, size) ∈ m ↔ v p = some size

structure Follows (symbol : Symbol) (snap : NormalizedOrderBook Double)
    (deltas : List (NormalizedOrderBook Double)) : Prop where
  snapshotSymbol : snap.envelope.symbol = symbol
  deltaSymbols : ∀ d ∈ deltas, d.envelope.symbol = symbol
  consecutive : ∀ i d, deltas[i]? = some d → d.sequence = snap.sequence + UInt64.ofNat (i + 1)

def Live (b : LocalOrderBook Double) : Prop := b.quality = .valid ∨ b.quality = .stale

def Broken (b : LocalOrderBook Double) : Prop :=
  b.quality = .uninitialized ∨ b.quality = .desynced

def Ordered (side : BookSide) (m : List (Double × Double)) : Prop :=
  m.Pairwise (fun a b => priceBefore side a.1 b.1 = true)

structure StreamLaw (s : Feed) : Prop where
  folded : Live s.book → ∃ snap deltas, s.accepted = some (snap, deltas) ∧
    Follows s.book.symbol snap deltas ∧
    Shows s.book.bids (levelsOf (fun msg => msg.bids) snap deltas) ∧
    Shows s.book.asks (levelsOf (fun msg => msg.asks) snap deltas)
  ordered : Ordered .bid s.book.bids ∧ Ordered .ask s.book.asks
  positive : ∀ e ∈ s.book.bids ++ s.book.asks, 0 < e.1 ∧ 0 < e.2
  uncrossed : Live s.book → ∀ bid ∈ s.book.bids, ∀ ask ∈ s.book.asks, bid.1 < ask.1
  frozen : Broken s.book → ∀ delta, applyDelta s.book delta = refused s.book
  brokenUntil : Broken s.book → ∀ ops, Broken (Runs.run feedStep s ops).book ∨
    ∃ before snap rest, ops = before ++ .applySnapshot snap :: rest ∧
      snapshotAccepted (Runs.run feedStep s before).book snap = true

def reached (b : LocalOrderBook Double) : BookOp → List (BookLevel Double)
  | .applySnapshot snap => if snap.envelope.symbol = b.symbol then snap.bids ++ snap.asks else []
  | .applyDelta delta =>
    if (b.quality = .valid ∨ b.quality = .stale) ∧ delta.envelope.symbol = b.symbol ∧
        delta.sequence = b.lastSequence + 1 then delta.bids ++ delta.asks else []
  | _ => []

def Numeric (s : Feed) (op : BookOp) : Prop :=
  ∀ lvl ∈ reached s.book op, 0 ≤ lvl.size → isNumber lvl.price = true

end Stream

section Levels

structure SideInv (side : BookSide) (m : List (Double × Double)) : Prop where
  sorted : SortedEntries.SortedOn (priceBefore side) (fun p => (0 : Double) < p) m
  sizes : ∀ e ∈ m, 0 < e.2

variable (side : BookSide)

theorem priceBefore_order :
    SortedEntries.OrderOn (priceBefore (F := Double) side) (fun p => (0 : Double) < p) := by
  have hconn : ∀ a b : Double, 0 < a → 0 < b → ¬ a < b → ¬ b < a → a = b := by
    intro a b ha hb hab hba
    have hna := (number_of_lt ha).2
    have hnb := (number_of_lt hb).2
    have h1 : b ≤ a := by
      by_contra h
      exact hab (lt_of_not_le hna hnb h)
    have h2 : a ≤ b := by
      by_contra h
      exact hba (lt_of_not_le hnb hna h)
    exact le_antisymm h2 h1
  cases side
  · exact {
      irrefl := fun a _ => decide_eq_false (lt_irrefl a)
      trans := fun a b c h k => decide_eq_true
        (lt_trans (of_decide_eq_true k) (of_decide_eq_true h))
      connected := fun a b ha hb h k => hconn a b ha hb (of_decide_eq_false k)
        (of_decide_eq_false h) }
  · exact {
      irrefl := fun a _ => decide_eq_false (lt_irrefl a)
      trans := fun a b c h k => decide_eq_true
        (lt_trans (of_decide_eq_true h) (of_decide_eq_true k))
      connected := fun a b ha hb h k => hconn a b ha hb (of_decide_eq_false h)
        (of_decide_eq_false k) }

theorem doubleEq_iff (a b : Double) :
    doubleEq a b = true ↔ a = b ∧ isNumber a = true := by
  unfold doubleEq
  rw [Bool.and_eq_true, decide_eq_true_iff, decide_eq_true_iff]
  constructor
  · rintro ⟨h, k⟩
    exact ⟨le_antisymm h k, (number_of_le h).1⟩
  · rintro ⟨rfl, hn⟩
    exact ⟨(le_self_iff a).mpr hn, (le_self_iff a).mpr hn⟩

theorem size_eq_zero (x : Double) : doubleEq x 0 = true ↔ x = 0 := by
  rw [doubleEq_iff]
  constructor
  · exact fun h => h.1
  · rintro rfl
    exact ⟨rfl, rfl⟩

theorem setLevel_skipped (v : Levels) (lvl : BookLevel Double)
    (h : lvl.price ≤ 0 ∨ lvl.size ≠ 0 ∧ ¬ 0 < lvl.size) : setLevel v lvl = v := by
  funext p
  unfold setLevel
  split_ifs with hp hz hs
  · obtain ⟨rfl, hpos⟩ := hp
    rcases h with hle | ⟨hne, -⟩
    · exact absurd hle ((lt_iff _ _).mp hpos).2
    · exact absurd hz hne
  · obtain ⟨rfl, hpos⟩ := hp
    rcases h with hle | ⟨-, hno⟩
    · exact absurd hle ((lt_iff _ _).mp hpos).2
    · exact absurd hs hno
  · rfl
  · rfl

theorem setLevel_removed (v : Levels) (lvl : BookLevel Double) (hp : 0 < lvl.price)
    (hs : lvl.size = 0) (p : Double) :
    setLevel v lvl p = if p = lvl.price then none else v p := by
  unfold setLevel
  by_cases h : p = lvl.price
  · simp [h, hp, hs]
  · simp [h, Ne.symm h]

theorem setLevel_assigned (v : Levels) (lvl : BookLevel Double) (hp : 0 < lvl.price)
    (hs : 0 < lvl.size) (p : Double) :
    setLevel v lvl p = if p = lvl.price then some lvl.size else v p := by
  have hne : lvl.size ≠ 0 := fun h => lt_irrefl 0 (h ▸ hs)
  unfold setLevel
  by_cases h : p = lvl.price
  · simp [h, hp, hs, hne]
  · simp [h, Ne.symm h]

theorem applyLevelSimple_spec (m : List (Double × Double)) (v : Levels)
    (lvl : BookLevel Double) (hn : 0 ≤ lvl.size → isNumber lvl.price = true)
    (hm : SideInv side m) (hv : Shows m v) :
    SideInv side (applyLevelSimple side m lvl) ∧
      Shows (applyLevelSimple side m lvl) (setLevel v lvl) := by
  have ho := priceBefore_order side
  unfold applyLevelSimple
  by_cases hp : lvl.price ≤ 0
  · rw [if_pos hp, setLevel_skipped v lvl (.inl hp)]
    exact ⟨hm, hv⟩
  rw [if_neg hp]
  by_cases hz : lvl.size = 0
  · have hpos : 0 < lvl.price := lt_of_not_le rfl
      (hn (hz ▸ (le_self_iff 0).mpr rfl)) hp
    rw [if_pos ((size_eq_zero _).mpr hz)]
    refine ⟨⟨SortedEntries.sortedOn_erase _ m hm.sorted, ?_⟩, ?_⟩
    · intro e he
      exact hm.sizes e ((SortedEntries.erase_sublist _ m).subset he)
    · intro p size
      rw [SortedEntries.mem_erase ho _ hpos m hm.sorted, setLevel_removed v lvl hpos hz]
      by_cases h : p = lvl.price
      · simp [h]
      · simpa [h] using hv p size
  rw [if_neg (fun h => hz ((size_eq_zero _).mp h))]
  by_cases hs : 0 < lvl.size
  · have hpos : 0 < lvl.price := lt_of_not_le rfl
      (hn ((lt_iff _ _).mp hs).1) hp
    rw [if_pos hs]
    refine ⟨⟨SortedEntries.sortedOn_insertOrAssign ho _ _ hpos m hm.sorted, ?_⟩, ?_⟩
    · intro e he
      rcases (SortedEntries.mem_insertOrAssign ho _ _ hpos m hm.sorted e).mp he with rfl | ⟨-, hmem⟩
      · exact hs
      · exact hm.sizes e hmem
    · intro p size
      rw [SortedEntries.mem_insertOrAssign ho _ _ hpos m hm.sorted,
        setLevel_assigned v lvl hpos hs]
      by_cases h : p = lvl.price
      · simp [h, eq_comm]
      · simpa [h] using hv p size
  · rw [if_neg hs, setLevel_skipped v lvl (.inr ⟨hz, hs⟩)]
    exact ⟨hm, hv⟩

theorem applyBookLevelsSimple_spec (levels : List (BookLevel Double))
    (m : List (Double × Double)) (v : Levels)
    (hn : ∀ lvl ∈ levels, 0 ≤ lvl.size → isNumber lvl.price = true)
    (hm : SideInv side m) (hv : Shows m v) :
    SideInv side (applyBookLevelsSimple side m levels) ∧
      Shows (applyBookLevelsSimple side m levels) (setLevels v levels) := by
  induction levels generalizing m v with
  | nil => exact ⟨hm, hv⟩
  | cons lvl levels ih =>
    obtain ⟨hm', hv'⟩ := applyLevelSimple_spec side m v lvl (hn lvl List.mem_cons_self) hm hv
    exact ih _ _ (fun l hl => hn l (List.mem_cons_of_mem lvl hl)) hm' hv'

theorem applyLevelWithEvents_fst (ts : Timestamp)
    (s : List (Double × Double) × BookEventBatch Double) (lvl : BookLevel Double) :
    (applyLevelWithEvents side ts s lvl).1 = applyLevelSimple side s.1 lvl := by
  unfold applyLevelWithEvents applyLevelSimple
  dsimp only
  split_ifs
  · rfl
  · rcases h : SortedEntries.find (priceBefore side) lvl.price s.1 with _ | old
    · exact (SortedEntries.erase_of_find _ _ h).symm
    · rfl
  · rcases SortedEntries.find (priceBefore side) lvl.price s.1 with _ | old <;> rfl
  · rfl

theorem applyBookLevelsWithEvents_fst (ts : Timestamp)
    (levels : List (BookLevel Double)) (m : List (Double × Double))
    (batch : BookEventBatch Double) :
    (applyBookLevelsWithEvents side ts m levels batch).1 = applyBookLevelsSimple side m levels := by
  unfold applyBookLevelsWithEvents applyBookLevelsSimple
  induction levels generalizing m batch with
  | nil => rfl
  | cons lvl levels ih =>
    rw [List.foldl_cons, List.foldl_cons, ← applyLevelWithEvents_fst side ts (m, batch)]
    exact ih _ _

theorem uncrossed_of_best (bids asks : List (Double × Double)) (hb : SideInv .bid bids)
    (ha : SideInv .ask asks) (h : detectCrossedBook bids asks = false) :
    ∀ bid ∈ bids, ∀ ask ∈ asks, bid.1 < ask.1 := by
  rcases bids with _ | ⟨b, bids⟩
  · intro bid hbid
    cases hbid
  rcases asks with _ | ⟨a, asks⟩
  · intro bid _ ask hask
    cases hask
  have hbest : b.1 < a.1 := by
    have hb0 := hb.sorted.keys b List.mem_cons_self
    have ha0 := ha.sorted.keys a List.mem_cons_self
    exact lt_of_not_le (number_of_lt hb0).2 (number_of_lt ha0).2 (of_decide_eq_false h)
  have hbid : ∀ bid ∈ b :: bids, bid.1 < a.1 := by
    intro bid hm
    rcases List.mem_cons.mp hm with rfl | hm
    · exact hbest
    · exact lt_trans (of_decide_eq_true (hb.sorted.first bid hm)) hbest
  intro bid hm ask hk
  rcases List.mem_cons.mp hk with rfl | hk
  · exact hbid bid hm
  · exact lt_trans (hbid bid hm) (of_decide_eq_true (ha.sorted.first ask hk))

end Levels

section Operations

variable (b : LocalOrderBook Double)

theorem not_live_of_broken (h : Broken b) : ¬ Live b := by
  rintro (hv | hv) <;> rcases h with h | h <;> rw [h] at hv <;> cases hv

def snapshotBook (b : LocalOrderBook Double) (snap : NormalizedOrderBook Double) :
    LocalOrderBook Double :=
  { b with
    bids := applyBookLevelsSimple .bid [] snap.bids
    asks := applyBookLevelsSimple .ask [] snap.asks
    lastSequence := snap.sequence
    lastUpdated := snap.envelope.processedTs }

theorem applySnapshot_spec (snap : NormalizedOrderBook Double)
    (hs : snap.envelope.symbol = b.symbol) :
    applySnapshot b snap = { snapshotBook b snap with
      quality := if detectCrossedBook (snapshotBook b snap).bids (snapshotBook b snap).asks then
        .desynced else .valid } := by
  unfold applySnapshot
  rw [if_neg (not_not.mpr hs)]
  rfl

theorem snapshotAccepted_iff (snap : NormalizedOrderBook Double) :
    snapshotAccepted b snap = true ↔ snap.envelope.symbol = b.symbol ∧
      detectCrossedBook (snapshotBook b snap).bids (snapshotBook b snap).asks = false := by
  unfold snapshotAccepted
  by_cases hs : snap.envelope.symbol = b.symbol
  · rw [applySnapshot_spec b snap hs]
    rcases h : detectCrossedBook (snapshotBook b snap).bids (snapshotBook b snap).asks with
      _ | _ <;> simp [hs]
  · simp [hs]

def deltaBook (b : LocalOrderBook Double) (delta : NormalizedOrderBook Double) :
    LocalOrderBook Double :=
  { b with
    bids := applyBookLevelsSimple .bid b.bids delta.bids
    asks := applyBookLevelsSimple .ask b.asks delta.asks
    lastSequence := delta.sequence
    lastUpdated := delta.envelope.processedTs }

theorem applyNext_spec (delta : NormalizedOrderBook Double) :
    (applyNext b delta).book = { deltaBook b delta with
        quality := if detectCrossedBook (deltaBook b delta).bids (deltaBook b delta).asks then
          .desynced else .valid } ∧
      (applyNext b delta).accepted =
        !detectCrossedBook (deltaBook b delta).bids (deltaBook b delta).asks := by
  unfold applyNext deltaBook
  simp only [applyBookLevelsWithEvents_fst]
  by_cases h : detectCrossedBook (applyBookLevelsSimple .bid b.bids delta.bids)
      (applyBookLevelsSimple .ask b.asks delta.asks) = true
  · simp [h, refused]
  · simp [h]

def Continues (b : LocalOrderBook Double) (delta : NormalizedOrderBook Double) : Prop :=
  Live b ∧ delta.envelope.symbol = b.symbol ∧ delta.sequence = b.lastSequence + 1

theorem applyDelta_cases (delta : NormalizedOrderBook Double) : applyDelta b delta = refused b ∨
    applyDelta b delta = refused { b with quality := .desynced } ∨
    Continues b delta ∧ applyDelta b delta = applyNext b delta := by
  unfold applyDelta
  split_ifs with hq hs hn
  · exact .inl rfl
  · exact .inl rfl
  · exact .inr (.inl rfl)
  · refine .inr (.inr ⟨⟨?_, not_not.mp hs, not_not.mp hn⟩, rfl⟩)
    rcases h : b.quality with _ | _ | _ | _
    · exact .inl h
    · exact .inr h
    · exact absurd (.inr h) hq
    · exact absurd (.inl h) hq

theorem broken_refuses (h : Broken b)
    (delta : NormalizedOrderBook Double) : applyDelta b delta = refused b :=
  if_pos h

theorem checkStaleness_cases (now : Timestamp) (threshold : ℤ) :
    (checkStaleness b now threshold).1 = b ∨
      b.quality = .valid ∧ (checkStaleness b now threshold).1 = { b with quality := .stale } := by
  unfold checkStaleness
  split_ifs with hq hs
  · exact .inl rfl
  · exact .inr ⟨not_not.mp hq, rfl⟩
  · exact .inl rfl

theorem broken_step (s : Feed) (op : BookOp) (h : Broken s.book)
    (hop : ∀ snap, op = .applySnapshot snap → snapshotAccepted s.book snap = false) :
    Broken (feedStep s op).book := by
  cases op with
  | applySnapshot snap =>
    have hno := hop snap rfl
    by_cases hs : snap.envelope.symbol = s.book.symbol
    · have hcross : detectCrossedBook (snapshotBook s.book snap).bids
          (snapshotBook s.book snap).asks = true := by
        by_contra hc
        rw [(snapshotAccepted_iff s.book snap).mpr ⟨hs, by simpa using hc⟩] at hno
        cases hno
      show Broken (applySnapshot s.book snap)
      rw [applySnapshot_spec s.book snap hs, hcross]
      exact .inr rfl
    · show Broken (applySnapshot s.book snap)
      rwa [applySnapshot, if_pos hs]
  | applyDelta delta =>
    show Broken (applyDelta s.book delta).book
    rw [broken_refuses s.book h]
    exact h
  | requestResync => exact .inl rfl
  | checkStaleness now threshold =>
    show Broken (checkStaleness s.book now threshold).1
    rcases checkStaleness_cases s.book now threshold with heq | ⟨hv, -⟩
    · rwa [heq]
    · exact absurd (.inl hv) (not_live_of_broken s.book h)

theorem broken_run (ops : List BookOp) (s : Feed) (h : Broken s.book) :
    Broken (Runs.run feedStep s ops).book ∨
      ∃ before snap rest, ops = before ++ .applySnapshot snap :: rest ∧
        snapshotAccepted (Runs.run feedStep s before).book snap = true := by
  induction ops generalizing s with
  | nil => exact .inl h
  | cons op ops ih =>
    by_cases hop : ∀ snap, op = .applySnapshot snap → snapshotAccepted s.book snap = false
    · rcases ih (feedStep s op) (broken_step s op h hop) with hb | ⟨before, snap, rest, rfl, ha⟩
      · exact .inl hb
      · exact .inr ⟨op :: before, snap, rest, rfl, ha⟩
    · simp only [not_forall, Bool.not_eq_false] at hop
      obtain ⟨snap, rfl, ha⟩ := hop
      exact .inr ⟨[], snap, ops, rfl, ha⟩

end Operations

section Invariant

structure StreamInv (s : Feed) : Prop where
  bids : SideInv .bid s.book.bids
  asks : SideInv .ask s.book.asks
  live : Live s.book → ∃ snap deltas, s.accepted = some (snap, deltas) ∧
    Follows s.book.symbol snap deltas ∧
    s.book.lastSequence = snap.sequence + UInt64.ofNat deltas.length ∧
    Shows s.book.bids (levelsOf (fun msg => msg.bids) snap deltas) ∧
    Shows s.book.asks (levelsOf (fun msg => msg.asks) snap deltas) ∧
    detectCrossedBook s.book.bids s.book.asks = false

theorem sideInv_nil (side : BookSide) : SideInv side [] :=
  ⟨SortedEntries.sortedOn_nil, by simp⟩

theorem shows_nil : Shows [] (fun _ => none) := by
  intro p size
  simp

theorem inv_start (symbol : Symbol) : StreamInv (start symbol) :=
  ⟨sideInv_nil .bid, sideInv_nil .ask, fun h => absurd h (not_live_of_broken _ (.inl rfl))⟩

variable (s : Feed)

theorem inv_applySnapshot (hi : StreamInv s) (snap : NormalizedOrderBook Double)
    (hn : Numeric s (.applySnapshot snap)) : StreamInv (feedStep s (.applySnapshot snap)) := by
  by_cases hs : snap.envelope.symbol = s.book.symbol
  swap
  · have hsame : feedStep s (.applySnapshot snap) = s := by
      have hno : snapshotAccepted s.book snap = false := by
        simp [snapshotAccepted, hs]
      simp [feedStep, applySnapshot, hs, hno]
    rwa [hsame]
  have hnum : ∀ lvl ∈ snap.bids ++ snap.asks, 0 ≤ lvl.size → isNumber lvl.price = true := by
    simpa [Numeric, reached, hs] using hn
  obtain ⟨hb, hvb⟩ := applyBookLevelsSimple_spec .bid snap.bids [] _
    (fun l hl => hnum l (List.mem_append_left _ hl)) (sideInv_nil .bid) shows_nil
  obtain ⟨ha, hva⟩ := applyBookLevelsSimple_spec .ask snap.asks [] _
    (fun l hl => hnum l (List.mem_append_right _ hl)) (sideInv_nil .ask) shows_nil
  have hbook := applySnapshot_spec s.book snap hs
  have hacc := snapshotAccepted_iff s.book snap
  rcases hc : detectCrossedBook (snapshotBook s.book snap).bids (snapshotBook s.book snap).asks
    with _ | _
  · rw [hc] at hbook
    have hstep : feedStep s (.applySnapshot snap) =
        ⟨{ snapshotBook s.book snap with quality := .valid }, some (snap, [])⟩ := by
      rw [feedStep, hbook, if_pos (hacc.mpr ⟨hs, hc⟩)]
      rfl
    rw [hstep]
    exact ⟨hb, ha, fun _ => ⟨snap, [], rfl, ⟨hs, by simp, by simp⟩, by simp [snapshotBook],
      hvb, hva, hc⟩⟩
  · rw [hc] at hbook
    have hstep : (feedStep s (.applySnapshot snap)).book =
        { snapshotBook s.book snap with quality := .desynced } := hbook
    exact ⟨by rw [hstep]; exact hb, by rw [hstep]; exact ha,
      fun h => absurd h (not_live_of_broken _ (.inr (by rw [hstep])))⟩

theorem follows_append (symbol : Symbol) (snap delta : NormalizedOrderBook Double)
    (deltas : List (NormalizedOrderBook Double)) (h : Follows symbol snap deltas)
    (hs : delta.envelope.symbol = symbol)
    (hq : delta.sequence = snap.sequence + UInt64.ofNat (deltas.length + 1)) :
    Follows symbol snap (deltas ++ [delta]) := by
  refine ⟨h.snapshotSymbol, ?_, ?_⟩
  · intro d hd
    rcases List.mem_append.mp hd with hd | hd
    · exact h.deltaSymbols d hd
    · rw [List.mem_singleton.mp hd]
      exact hs
  · intro i d hd
    by_cases hi : i < deltas.length
    · rw [List.getElem?_append_left hi] at hd
      exact h.consecutive i d hd
    · rw [List.getElem?_append_right (not_lt.mp hi)] at hd
      have hzero : i - deltas.length = 0 := by
        by_contra hne
        obtain ⟨k, hk⟩ := Nat.exists_eq_succ_of_ne_zero hne
        rw [hk] at hd
        simp at hd
      have hil : i = deltas.length := by omega
      rw [hzero] at hd
      have hdd : delta = d := by simpa using hd
      rw [← hdd, hq, hil]

theorem levelsOf_append (side : NormalizedOrderBook Double → List (BookLevel Double))
    (snap delta : NormalizedOrderBook Double) (deltas : List (NormalizedOrderBook Double)) :
    levelsOf side snap (deltas ++ [delta]) =
      setLevels (levelsOf side snap deltas) (side delta) := by
  simp [levelsOf]

theorem inv_continued (hi : StreamInv s) (delta : NormalizedOrderBook Double)
    (hn : Numeric s (.applyDelta delta)) (hcont : Continues s.book delta)
    (h : applyDelta s.book delta = applyNext s.book delta) :
    StreamInv (feedStep s (.applyDelta delta)) := by
  obtain ⟨hlive, hs, hq⟩ := hcont
  obtain ⟨snap, deltas, hacc, hf, hseq, hvb, hva, -⟩ := hi.live hlive
  have hreached : reached s.book (.applyDelta delta) = delta.bids ++ delta.asks :=
    if_pos ⟨hlive, hs, hq⟩
  have hnum : ∀ lvl ∈ delta.bids ++ delta.asks, 0 ≤ lvl.size → isNumber lvl.price = true :=
    fun l hl => hn l (hreached ▸ hl)
  obtain ⟨hb, hvb'⟩ := applyBookLevelsSimple_spec .bid delta.bids s.book.bids _
    (fun l hl => hnum l (List.mem_append_left _ hl)) hi.bids hvb
  obtain ⟨ha, hva'⟩ := applyBookLevelsSimple_spec .ask delta.asks s.book.asks _
    (fun l hl => hnum l (List.mem_append_right _ hl)) hi.asks hva
  obtain ⟨hbook, haccepted⟩ := applyNext_spec s.book delta
  have hnext : delta.sequence = snap.sequence + UInt64.ofNat (deltas.length + 1) := by
    rw [hq, hseq, UInt64.ofNat_add, ← UInt64.add_assoc]
    rfl
  rcases hc : detectCrossedBook (deltaBook s.book delta).bids (deltaBook s.book delta).asks
    with _ | _
  · rw [hc] at hbook haccepted
    have hstep : feedStep s (.applyDelta delta) =
        ⟨{ deltaBook s.book delta with quality := .valid }, some (snap, deltas ++ [delta])⟩ := by
      simp [feedStep, h, hbook, haccepted, hacc]
    have hlen : (deltas ++ [delta]).length = deltas.length + 1 := by simp
    rw [hstep]
    exact ⟨hb, ha, fun _ => ⟨snap, deltas ++ [delta], rfl,
      follows_append _ snap delta deltas hf hs hnext, hlen ▸ hnext,
      levelsOf_append _ snap delta deltas ▸ hvb', levelsOf_append _ snap delta deltas ▸ hva', hc⟩⟩
  · rw [hc] at hbook
    have hstep : (feedStep s (.applyDelta delta)).book =
        { deltaBook s.book delta with quality := .desynced } := by
      rw [feedStep, h, hbook]
      rfl
    exact ⟨by rw [hstep]; exact hb, by rw [hstep]; exact ha,
      fun hl => absurd hl (not_live_of_broken _ (.inr (by rw [hstep])))⟩

theorem inv_applyDelta (hi : StreamInv s) (delta : NormalizedOrderBook Double)
    (hn : Numeric s (.applyDelta delta)) : StreamInv (feedStep s (.applyDelta delta)) := by
  rcases applyDelta_cases s.book delta with h | h | ⟨hcont, h⟩
  · have hstep : feedStep s (.applyDelta delta) = s := by
      simp [feedStep, h, refused]
    rwa [hstep]
  · have hstep : feedStep s (.applyDelta delta) =
        ⟨{ s.book with quality := .desynced }, s.accepted⟩ := by
      simp [feedStep, h, refused]
    rw [hstep]
    exact ⟨hi.bids, hi.asks, fun hl => absurd hl (not_live_of_broken _ (.inr rfl))⟩
  · exact inv_continued s hi delta hn hcont h

theorem inv_step (op : BookOp) (hi : StreamInv s) (hn : Numeric s op) :
    StreamInv (feedStep s op) := by
  cases op with
  | applySnapshot snap => exact inv_applySnapshot s hi snap hn
  | applyDelta delta => exact inv_applyDelta s hi delta hn
  | requestResync =>
    exact ⟨sideInv_nil .bid, sideInv_nil .ask,
      fun h => absurd h (not_live_of_broken _ (.inl rfl))⟩
  | checkStaleness now threshold =>
    rcases checkStaleness_cases s.book now threshold with h | ⟨hv, h⟩
    · have hstep : feedStep s (.checkStaleness now threshold) = s := by
        simp [feedStep, h]
      rwa [hstep]
    · have hstep : feedStep s (.checkStaleness now threshold) =
          ⟨{ s.book with quality := .stale }, s.accepted⟩ := by
        simp [feedStep, h]
      rw [hstep]
      exact ⟨hi.bids, hi.asks, fun _ => hi.live (.inl hv)⟩

theorem law_of_inv (hi : StreamInv s) : StreamLaw s where
  folded h := by
    obtain ⟨snap, deltas, hacc, hf, -, hvb, hva, -⟩ := hi.live h
    exact ⟨snap, deltas, hacc, hf, hvb, hva⟩
  ordered := ⟨hi.bids.sorted.sorted, hi.asks.sorted.sorted⟩
  positive e he := by
    rcases List.mem_append.mp he with he | he
    · exact ⟨hi.bids.sorted.keys e he, hi.bids.sizes e he⟩
    · exact ⟨hi.asks.sorted.keys e he, hi.asks.sizes e he⟩
  uncrossed h := by
    obtain ⟨_, _, -, -, -, -, -, hc⟩ := hi.live h
    exact uncrossed_of_best s.book.bids s.book.asks hi.bids hi.asks hc
  frozen := broken_refuses s.book
  brokenUntil h ops := broken_run ops s h

/-- In every run whose applied levels have prices that are numbers, a live book
is the fold of the accepted stream, and only a snapshot revives a broken one. -/
theorem stream_law (symbol : Symbol) (ops : List BookOp)
    (hn : Runs.Meets feedStep Numeric (start symbol) ops) :
    StreamLaw (Runs.run feedStep (start symbol) ops) :=
  law_of_inv _ (Runs.invariant_run feedStep inv_step (start symbol) ops (inv_start symbol) hn)

instance (s : Feed) (op : BookOp) : Decidable (Numeric s op) :=
  inferInstanceAs (Decidable (∀ lvl ∈ reached s.book op, 0 ≤ lvl.size → isNumber lvl.price = true))

def bookMessage (updateType : BookUpdateType) (sequence : UInt64)
    (bids asks : List (BookLevel Double)) : NormalizedOrderBook Double :=
  ⟨⟨1, 1, 1, "BTCUSDT", "bitget", 0⟩, updateType, bids, asks, sequence⟩

/-- A bid whose price is not a number makes a book that is neither crossed nor
uncrossed, and it passes for valid. -/
theorem nan_bid_stored :
    ¬ ∀ (symbol : Symbol) (ops : List BookOp),
      StreamLaw (Runs.run feedStep (start symbol) ops) := by
  intro h
  have hbook := (h "BTCUSDT" [.applySnapshot (bookMessage .snapshot 7 [⟨.nan, .finite 1⟩]
    [⟨.finite 100, .finite 1⟩])]).uncrossed (.inl (by decide +kernel))
    (.nan, .finite 1) (by decide +kernel) (.finite 100, .finite 1) (by decide +kernel)
  revert hbook
  decide +kernel

theorem stream_law_two_messages :
    StreamLaw (Runs.run feedStep (start "BTCUSDT")
      [.applySnapshot (bookMessage .snapshot 7 [⟨.finite 99, .finite 1⟩]
        [⟨.finite 100, .finite 1⟩]),
      .applyDelta (bookMessage .delta 8 [⟨.finite 99, .finite 0⟩, ⟨.finite 98, .finite 2⟩] [])]) :=
  stream_law "BTCUSDT" _ ⟨by decide +kernel, by decide +kernel, trivial⟩

end Invariant

end TB.OrderBookStream
