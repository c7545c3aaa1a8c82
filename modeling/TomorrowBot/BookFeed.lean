import TomorrowBot.NormalizedEvents
import TomorrowBot.OrderBookStream

/-!
# The exchange's book and the local one

The exchange sends its book and then what changes in it. The normalizer looks at
one message at a time and drops a message that names one side only or whose first
bid reaches its first ask. Such a message can be a correct change of a correct
book; dropping it leaves a gap. When every change names both sides in order, the
local book stays the exchange's.
-/

set_option autoImplicit false

namespace TB.BookFeed
open TB.CommonTypes TB.DoubleValues TB.DoubleValues.Double TB.OrderBook TB.OrderBookStream
open TB.BitgetNormalizer TB.NormalizedEvents

section Feeds

@[ext]
structure ExchangeBook where
  bids : Levels
  asks : Levels

def noLevels : Levels := fun _ => none

def namedLevels (nearest : ℚ → Option ℚ) (raw : List RawBookLevel) : List (BookLevel Double) :=
  raw.map (readLevel nearest)

def bookOf (nearest : ℚ → Option ℚ) (snap : RawOrderBook) : ExchangeBook :=
  ⟨setLevels noLevels (namedLevels nearest snap.bids),
    setLevels noLevels (namedLevels nearest snap.asks)⟩

def updated (nearest : ℚ → Option ℚ) (x : ExchangeBook) (raw : RawOrderBook) : ExchangeBook :=
  ⟨setLevels x.bids (namedLevels nearest raw.bids), setLevels x.asks (namedLevels nearest raw.asks)⟩

structure Proper (x : ExchangeBook) : Prop where
  bid : ∃ p size, x.bids p = some size
  ask : ∃ p size, x.asks p = some size
  uncrossed : ∀ b a, x.bids b ≠ none → x.asks a ≠ none → b < a

structure Message where
  raw : RawOrderBook
  receivedNs : Timestamp
  processedTs : UInt64 → Timestamp

structure Stream where
  normalizer : Normalizer
  book : LocalOrderBook Double
  exchange : ExchangeBook
  sequence : UInt64

def contextOf (nearest : ℚ → Option ℚ) (msg : Message) : Context :=
  ⟨nearest, msg.receivedNs, msg.processedTs⟩

def consume (b : LocalOrderBook Double) : Option (NormalizedOrderBook Double) →
    LocalOrderBook Double
  | none => b
  | some ev => if ev.updateType = .snapshot then applySnapshot b ev else (applyDelta b ev).book

def receive (nearest : ℚ → Option ℚ) (s : Stream) (msg : Message) (x : ExchangeBook) : Stream :=
  let parsed := parseOrderBook (contextOf nearest msg) msg.raw s.normalizer
  ⟨parsed.1, consume s.book parsed.2, x, msg.raw.sequence⟩

def streamStep (nearest : ℚ → Option ℚ) (s : Stream) (msg : Message) : Stream :=
  receive nearest s msg (updated nearest s.exchange msg.raw)

def opened (nearest : ℚ → Option ℚ) (n : Normalizer) (b : LocalOrderBook Double)
    (snap : Message) : Stream :=
  receive nearest ⟨n, b, ⟨noLevels, noLevels⟩, 0⟩ snap (bookOf nearest snap.raw)

structure InStep (s : Stream) : Prop where
  valid : s.book.quality = .valid
  bids : Shows s.book.bids s.exchange.bids
  asks : Shows s.book.asks s.exchange.asks

def GoodLevel (lvl : BookLevel Double) : Prop := Positive lvl.price ∧ NonNegative lvl.size

structure CorrectSnapshot (nearest : ℚ → Option ℚ) (symbol : Symbol) (raw : RawOrderBook) :
    Prop where
  action : updateTypeOf raw.action = some .snapshot
  symbol : raw.symbol = symbol
  levels : ∀ lvl ∈ namedLevels nearest raw.bids ++ namedLevels nearest raw.asks,
    Positive lvl.price ∧ Positive lvl.size
  proper : Proper (bookOf nearest raw)

structure CorrectUpdate (nearest : ℚ → Option ℚ) (s : Stream) (msg : Message) : Prop where
  action : updateTypeOf msg.raw.action = some .delta
  symbol : msg.raw.symbol = s.book.symbol
  sequence : msg.raw.sequence = s.sequence + 1
  levels : ∀ lvl ∈ namedLevels nearest msg.raw.bids ++ namedLevels nearest msg.raw.asks,
    GoodLevel lvl
  proper : Proper (updated nearest s.exchange msg.raw)

def NamesBoth (nearest : ℚ → Option ℚ) (_ : Stream) (msg : Message) : Prop :=
  ∃ bid bids ask asks, namedLevels nearest msg.raw.bids = bid :: bids ∧
    namedLevels nearest msg.raw.asks = ask :: asks ∧ bid.price < ask.price

def Changes (nearest : ℚ → Option ℚ) (s : Stream) (msg : Message) : Prop :=
  updated nearest s.exchange msg.raw ≠ s.exchange

end Feeds

section Messages

variable (nearest : ℚ → Option ℚ)

theorem readLevels_named (raw : List RawBookLevel)
    (h : ∀ lvl ∈ namedLevels nearest raw, 0.0 < lvl.price) :
    readLevels nearest raw = namedLevels nearest raw := by
  apply List.filter_eq_self.mpr
  intro lvl hlvl
  have hpos := ((lt_iff _ _).mp (h lvl hlvl)).2
  simpa using hpos

theorem refused_iff (s : Stream) (msg : Message)
    (h : ∀ lvl ∈ namedLevels nearest msg.raw.bids ++ namedLevels nearest msg.raw.asks,
      0.0 < lvl.price) :
    bookRefused (readLevels nearest msg.raw.bids) (readLevels nearest msg.raw.asks) = false ↔
      NamesBoth nearest s msg := by
  rw [readLevels_named nearest _ (fun l hl => h l (List.mem_append_left _ hl)),
    readLevels_named nearest _ (fun l hl => h l (List.mem_append_right _ hl))]
  unfold NamesBoth
  cases hb : namedLevels nearest msg.raw.bids with
  | nil => simp [bookRefused]
  | cons bid bids =>
    cases ha : namedLevels nearest msg.raw.asks with
    | nil => simp [bookRefused]
    | cons ask asks =>
      have hbn := (number_of_lt (h bid (by simp [hb]))).2
      have han := (number_of_lt (h ask (by simp [ha]))).2
      rw [bookRefused, decide_eq_false_iff_not]
      constructor
      · intro hno
        exact ⟨bid, bids, ask, asks, rfl, rfl, lt_of_not_le hbn han hno⟩
      · rintro ⟨bid', bids', ask', asks', heqb, heqa, hlt⟩
        rw [(List.cons.inj heqb).1, (List.cons.inj heqa).1]
        exact ((lt_iff _ _).mp hlt).2

theorem parse_dropped (s : Stream) (msg : Message)
    (h : bookRefused (readLevels nearest msg.raw.bids) (readLevels nearest msg.raw.asks) = true) :
    (parseOrderBook (contextOf nearest msg) msg.raw s.normalizer).2 = none := by
  unfold parseOrderBook
  dsimp only
  cases updateTypeOf msg.raw.action with
  | none => rfl
  | some updateType =>
    dsimp only
    rw [show (contextOf nearest msg).nearest = nearest from rfl, h]
    rfl

theorem parse_kept (s : Stream) (msg : Message)
    (updateType : BookUpdateType) (hu : updateTypeOf msg.raw.action = some updateType)
    (h : bookRefused (readLevels nearest msg.raw.bids) (readLevels nearest msg.raw.asks) = false) :
    ∃ ev, (parseOrderBook (contextOf nearest msg) msg.raw s.normalizer).2 = some ev ∧
      ev.updateType = updateType ∧ ev.envelope.symbol = msg.raw.symbol ∧
      ev.sequence = msg.raw.sequence ∧ ev.bids = readLevels nearest msg.raw.bids ∧
      ev.asks = readLevels nearest msg.raw.asks := by
  unfold parseOrderBook
  dsimp only
  rw [hu, show (contextOf nearest msg).nearest = nearest from rfl]
  dsimp only
  rw [h]
  exact ⟨_, rfl, rfl, rfl, rfl, rfl, rfl⟩

end Messages

section Books

theorem number_of_positive (x : Double) (h : Positive x) : isNumber x = true :=
  number_of_finite x h.1

theorem zero_lt_of_positive (x : Double) (h : Positive x) : 0 < x := by
  have hlt := h.2
  rw [zero_literal] at hlt
  exact hlt

theorem uncrossed_of_proper (bids asks : List (Double × Double)) (x : ExchangeBook)
    (hb : Shows bids x.bids) (ha : Shows asks x.asks) (hp : Proper x) :
    detectCrossedBook bids asks = false := by
  cases bids with
  | nil => rfl
  | cons bid bids =>
    cases asks with
    | nil => rfl
    | cons ask asks =>
      have hbid : x.bids bid.1 ≠ none := by
        rw [(hb bid.1 bid.2).mp List.mem_cons_self]
        simp
      have hask : x.asks ask.1 ≠ none := by
        rw [(ha ask.1 ask.2).mp List.mem_cons_self]
        simp
      have hlt := hp.uncrossed bid.1 ask.1 hbid hask
      exact decide_eq_false ((lt_iff _ _).mp hlt).2

variable (levels : List (BookLevel Double))

/-- A price is in the table after levels if it was before or one of them names it. -/
theorem setLevels_subset (v : Levels) (p : Double)
    (h : setLevels v levels p ≠ none) : v p ≠ none ∨ ∃ lvl ∈ levels, lvl.price = p := by
  induction levels generalizing v with
  | nil => exact .inl h
  | cons lvl levels ih =>
    rcases ih (setLevel v lvl) h with hv | ⟨l, hl, hp⟩
    · by_cases hp : lvl.price = p
      · exact .inr ⟨lvl, List.mem_cons_self, hp⟩
      · left
        simpa [setLevel, hp] using hv
    · exact .inr ⟨l, List.mem_cons_of_mem lvl hl, hp⟩

/-- Levels with a size never remove a price. -/
theorem setLevels_keeps (v : Levels) (p : Double)
    (h : ∀ lvl ∈ levels, Positive lvl.price ∧ Positive lvl.size) (hv : v p ≠ none) :
    setLevels v levels p ≠ none := by
  induction levels generalizing v with
  | nil => exact hv
  | cons lvl levels ih =>
    apply ih _ (fun l hl => h l (List.mem_cons_of_mem lvl hl))
    obtain ⟨hprice, hsize⟩ := h lvl List.mem_cons_self
    rw [setLevel_assigned v lvl (zero_lt_of_positive _ hprice) (zero_lt_of_positive _ hsize)]
    by_cases hp : p = lvl.price
    · simp [hp]
    · simpa [hp] using hv

theorem setLevels_names (v : Levels) (h : ∀ lvl ∈ levels, Positive lvl.price ∧ Positive lvl.size) :
    ∀ lvl ∈ levels, setLevels v levels lvl.price ≠ none := by
  induction levels generalizing v with
  | nil =>
    intro lvl hlvl
    cases hlvl
  | cons first levels ih =>
    intro lvl hlvl
    have hrest := fun l hl => h l (List.mem_cons_of_mem first hl)
    rcases List.mem_cons.mp hlvl with rfl | hlvl
    · obtain ⟨hprice, hsize⟩ := h lvl List.mem_cons_self
      apply setLevels_keeps levels _ lvl.price hrest
      rw [setLevel_assigned v lvl (zero_lt_of_positive _ hprice) (zero_lt_of_positive _ hsize)]
      simp
    · exact ih _ hrest lvl hlvl

variable (nearest : ℚ → Option ℚ)

theorem snapshot_namesBoth (symbol : Symbol) (s : Stream)
    (snap : Message) (h : CorrectSnapshot nearest symbol snap.raw) : NamesBoth nearest s snap := by
  obtain ⟨-, -, hlevels, hproper⟩ := h
  have hbids := setLevels_names (namedLevels nearest snap.raw.bids) noLevels
    (fun l hl => hlevels l (List.mem_append_left _ hl))
  have hasks := setLevels_names (namedLevels nearest snap.raw.asks) noLevels
    (fun l hl => hlevels l (List.mem_append_right _ hl))
  unfold NamesBoth
  cases hb : namedLevels nearest snap.raw.bids with
  | nil =>
    obtain ⟨p, size, hp⟩ := hproper.bid
    simp [bookOf, hb, setLevels, noLevels] at hp
  | cons bid bids =>
    cases ha : namedLevels nearest snap.raw.asks with
    | nil =>
      obtain ⟨p, size, hp⟩ := hproper.ask
      simp [bookOf, ha, setLevels, noLevels] at hp
    | cons ask asks =>
      refine ⟨bid, bids, ask, asks, rfl, rfl, ?_⟩
      exact hproper.uncrossed bid.price ask.price (hbids bid (by simp [hb])) (hasks ask (by simp [ha]))

structure FeedInv (s : Stream) : Prop where
  bids : SideInv .bid s.book.bids
  asks : SideInv .ask s.book.asks
  inStep : InStep s
  sequence : s.book.lastSequence = s.sequence

theorem levels_follow (side : BookSide) (m : List (Double × Double)) (v : Levels)
    (levels : List (BookLevel Double)) (h : ∀ lvl ∈ levels, Positive lvl.price)
    (hm : SideInv side m) (hv : Shows m v) :
    SideInv side (applyBookLevelsSimple side m levels) ∧
      Shows (applyBookLevelsSimple side m levels) (setLevels v levels) :=
  applyBookLevelsSimple_spec side levels m v
    (fun lvl hlvl _ => number_of_positive _ (h lvl hlvl)) hm hv

/-- A message with both sides in order reaches the local book with all its levels. -/
theorem parse_both (s : Stream) (msg : Message)
    (updateType : BookUpdateType) (hu : updateTypeOf msg.raw.action = some updateType)
    (hprice : ∀ lvl ∈ namedLevels nearest msg.raw.bids ++ namedLevels nearest msg.raw.asks,
      Positive lvl.price) (hboth : NamesBoth nearest s msg) :
    ∃ ev, (parseOrderBook (contextOf nearest msg) msg.raw s.normalizer).2 = some ev ∧
      ev.updateType = updateType ∧ ev.envelope.symbol = msg.raw.symbol ∧
      ev.sequence = msg.raw.sequence ∧ ev.bids = namedLevels nearest msg.raw.bids ∧
      ev.asks = namedLevels nearest msg.raw.asks := by
  have hkept := (refused_iff nearest s msg (fun l hl => (hprice l hl).2)).mpr hboth
  obtain ⟨ev, hev, htype, hsymbol, hseq, hbids, hasks⟩ :=
    parse_kept nearest s msg updateType hu hkept
  rw [readLevels_named nearest _ (fun l hl => (hprice l (List.mem_append_left _ hl)).2)] at hbids
  rw [readLevels_named nearest _ (fun l hl => (hprice l (List.mem_append_right _ hl)).2)] at hasks
  exact ⟨ev, hev, htype, hsymbol, hseq, hbids, hasks⟩

theorem uncrossed_followed (raw : RawOrderBook) (x : ExchangeBook)
    (bids asks : List (Double × Double))
    (hprice : ∀ lvl ∈ namedLevels nearest raw.bids ++ namedLevels nearest raw.asks,
      Positive lvl.price)
    (hb : SideInv .bid bids) (hvb : Shows bids x.bids) (ha : SideInv .ask asks)
    (hva : Shows asks x.asks) (hproper : Proper (updated nearest x raw)) :
    detectCrossedBook (applyBookLevelsSimple .bid bids (namedLevels nearest raw.bids))
      (applyBookLevelsSimple .ask asks (namedLevels nearest raw.asks)) = false := by
  have hbShows := (levels_follow .bid bids x.bids (namedLevels nearest raw.bids)
    (fun l hl => hprice l (List.mem_append_left _ hl)) hb hvb).2
  have haShows := (levels_follow .ask asks x.asks (namedLevels nearest raw.asks)
    (fun l hl => hprice l (List.mem_append_right _ hl)) ha hva).2
  exact uncrossed_of_proper _ _ (updated nearest x raw) hbShows haShows hproper

/-- A valid book with the levels of both sides is in step with the exchange's. -/
theorem inv_followed (raw : RawOrderBook) (x : ExchangeBook)
    (bids asks : List (Double × Double)) (t : Stream)
    (hprice : ∀ lvl ∈ namedLevels nearest raw.bids ++ namedLevels nearest raw.asks,
      Positive lvl.price)
    (hb : SideInv .bid bids) (hvb : Shows bids x.bids) (ha : SideInv .ask asks)
    (hva : Shows asks x.asks) (hx : t.exchange = updated nearest x raw)
    (hbids : t.book.bids = applyBookLevelsSimple .bid bids (namedLevels nearest raw.bids))
    (hasks : t.book.asks = applyBookLevelsSimple .ask asks (namedLevels nearest raw.asks))
    (hvalid : t.book.quality = .valid) (hseq : t.book.lastSequence = t.sequence) :
    FeedInv t := by
  obtain ⟨hbInv, hbShows⟩ := levels_follow .bid bids x.bids (namedLevels nearest raw.bids)
    (fun l hl => hprice l (List.mem_append_left _ hl)) hb hvb
  obtain ⟨haInv, haShows⟩ := levels_follow .ask asks x.asks (namedLevels nearest raw.asks)
    (fun l hl => hprice l (List.mem_append_right _ hl)) ha hva
  constructor
  · rw [hbids]
    exact hbInv
  · rw [hasks]
    exact haInv
  · constructor
    · exact hvalid
    · rw [hbids, hx]
      exact hbShows
    · rw [hasks, hx]
      exact haShows
  · exact hseq

theorem inv_opened (n : Normalizer) (b : LocalOrderBook Double)
    (snap : Message) (h : CorrectSnapshot nearest b.symbol snap.raw) :
    FeedInv (opened nearest n b snap) := by
  have hprice : ∀ lvl ∈ namedLevels nearest snap.raw.bids ++ namedLevels nearest snap.raw.asks,
      Positive lvl.price := fun lvl hlvl => (h.levels lvl hlvl).1
  have hboth := snapshot_namesBoth nearest b.symbol ⟨n, b, ⟨noLevels, noLevels⟩, 0⟩ snap h
  obtain ⟨ev, hev, htype, hsymbol, hseq, hbids, hasks⟩ :=
    parse_both nearest ⟨n, b, ⟨noLevels, noLevels⟩, 0⟩ snap .snapshot h.action hprice hboth
  have huncrossed := uncrossed_followed nearest snap.raw ⟨noLevels, noLevels⟩ [] [] hprice
    (sideInv_nil .bid) shows_nil (sideInv_nil .ask) shows_nil h.proper
  have hbook : (opened nearest n b snap).book = { snapshotBook b ev with quality := .valid } := by
    show consume b (parseOrderBook (contextOf nearest snap) snap.raw n).2 = _
    rw [hev, consume, if_pos htype, applySnapshot_spec b ev (hsymbol.trans h.symbol)]
    rw [show (snapshotBook b ev).bids = applyBookLevelsSimple .bid [] ev.bids from rfl,
      show (snapshotBook b ev).asks = applyBookLevelsSimple .ask [] ev.asks from rfl,
      hbids, hasks, huncrossed]
    rfl
  apply inv_followed nearest snap.raw ⟨noLevels, noLevels⟩ [] [] _ hprice (sideInv_nil .bid)
    shows_nil (sideInv_nil .ask) shows_nil rfl
  · rw [hbook, ← hbids]
    rfl
  · rw [hbook, ← hasks]
    rfl
  · rw [hbook]
  · rw [hbook]
    exact hseq

theorem inv_streamStep (s : Stream) (msg : Message) (hi : FeedInv s)
    (h : CorrectUpdate nearest s msg) (hboth : NamesBoth nearest s msg) :
    FeedInv (streamStep nearest s msg) := by
  have hprice : ∀ lvl ∈ namedLevels nearest msg.raw.bids ++ namedLevels nearest msg.raw.asks,
      Positive lvl.price := fun lvl hlvl => (h.levels lvl hlvl).1
  obtain ⟨ev, hev, htype, hsymbol, hseq, hbids, hasks⟩ :=
    parse_both nearest s msg .delta h.action hprice hboth
  have huncrossed := uncrossed_followed nearest msg.raw s.exchange _ _ hprice hi.bids
    hi.inStep.bids hi.asks hi.inStep.asks h.proper
  have hnext : applyDelta s.book ev = applyNext s.book ev := by
    have hsequence : ev.sequence = s.book.lastSequence + 1 := by
      rw [hseq, h.sequence, hi.sequence]
    rw [applyDelta, if_neg (by simp [hi.inStep.valid]), if_neg (by simp [hsymbol, h.symbol]),
      if_neg (by simp [hsequence])]
  have hbook : (streamStep nearest s msg).book = { deltaBook s.book ev with quality := .valid } := by
    show consume s.book (parseOrderBook (contextOf nearest msg) msg.raw s.normalizer).2 = _
    rw [hev, consume, if_neg (by simp [htype]), hnext, (applyNext_spec s.book ev).1]
    rw [show (deltaBook s.book ev).bids = applyBookLevelsSimple .bid s.book.bids ev.bids from rfl,
      show (deltaBook s.book ev).asks = applyBookLevelsSimple .ask s.book.asks ev.asks from rfl,
      hbids, hasks, huncrossed]
    rfl
  apply inv_followed nearest msg.raw s.exchange _ _ _ hprice hi.bids hi.inStep.bids hi.asks
    hi.inStep.asks rfl
  · rw [hbook, ← hbids]
    rfl
  · rw [hbook, ← hasks]
    rfl
  · rw [hbook]
  · rw [hbook]
    exact hseq

/-- A list of entries shows one table only. -/
theorem shows_unique (m : List (Double × Double)) (v w : Levels) (hv : Shows m v)
    (hw : Shows m w) : v = w := by
  funext p
  ext size
  rw [← hv p size, ← hw p size]

/-- Where the local book stays the exchange's, every change named both sides in order. -/
theorem namesBoth_of_inStep (s : Stream) (msg : Message)
    (hs : InStep s) (hs' : InStep (streamStep nearest s msg))
    (h : CorrectUpdate nearest s msg ∧ Changes nearest s msg) : NamesBoth nearest s msg := by
  have hprice : ∀ lvl ∈ namedLevels nearest msg.raw.bids ++ namedLevels nearest msg.raw.asks,
      0.0 < lvl.price := fun lvl hlvl => (h.1.levels lvl hlvl).1.2
  by_contra hno
  have hdropped : bookRefused (readLevels nearest msg.raw.bids)
      (readLevels nearest msg.raw.asks) = true := by
    by_contra hkept
    exact hno ((refused_iff nearest s msg hprice).mp (by simpa using hkept))
  have hbook : (streamStep nearest s msg).book = s.book := by
    show consume s.book (parseOrderBook (contextOf nearest msg) msg.raw s.normalizer).2 = _
    rw [parse_dropped nearest s msg hdropped]
    rfl
  have hbids := shows_unique _ _ _ hs.bids (hbook ▸ hs'.bids)
  have hasks := shows_unique _ _ _ hs.asks (hbook ▸ hs'.asks)
  exact h.2 (ExchangeBook.ext hbids.symm hasks.symm)

end Books

section Runs

/-- A correct stream whose changes all name both sides in order keeps the local
book valid and the exchange's; a stream that makes a difference at each change
does so only then. -/
theorem correct_stream (nearest : ℚ → Option ℚ) (n : Normalizer) (b : LocalOrderBook Double)
    (snap : Message) (updates : List Message) (hsnap : CorrectSnapshot nearest b.symbol snap.raw)
    (hupdates : Runs.Meets (streamStep nearest) (CorrectUpdate nearest)
      (opened nearest n b snap) updates) :
    (Runs.Meets (streamStep nearest) (NamesBoth nearest) (opened nearest n b snap) updates →
      Runs.Always (streamStep nearest) InStep (opened nearest n b snap) updates) ∧
    (Runs.Meets (streamStep nearest) (Changes nearest) (opened nearest n b snap) updates →
      Runs.Always (streamStep nearest) InStep (opened nearest n b snap) updates →
      Runs.Meets (streamStep nearest) (NamesBoth nearest) (opened nearest n b snap) updates) := by
  constructor
  · intro hboth
    have hmeets := Runs.meets_and (streamStep nearest) _ _ hupdates hboth
    have halways := Runs.always_of_meets (streamStep nearest)
      (fun s msg hi hc => inv_streamStep nearest s msg hi hc.1 hc.2) _ _
      (inv_opened nearest n b snap hsnap) hmeets
    exact Runs.always_mono (streamStep nearest) (fun _ hi => hi.inStep) _ _ halways
  · intro hchanges halways
    exact Runs.meets_of_steps (streamStep nearest) (namesBoth_of_inStep nearest) _ _ halways
      (Runs.meets_and (streamStep nearest) _ _ hupdates hchanges)

def bookMessage (action : String) (sequence : UInt64) (bids asks : List RawBookLevel) : Message :=
  ⟨⟨"BTCUSDT", action, bids, asks, 0, sequence⟩, 0, fun _ => 0⟩

def firstBook : Message := bookMessage "snapshot" 1 [⟨"100", "1"⟩] [⟨"101", "1"⟩]

def bothSides : Message := bookMessage "update" 2 [⟨"100", "2"⟩] [⟨"101", "3"⟩]

def nextSides : Message := bookMessage "update" 3 [⟨"100", "3"⟩] [⟨"101", "2"⟩]

def bidOnly : Message := bookMessage "update" 2 [⟨"100", "2"⟩] []

def firstStream : Stream := opened some ⟨[], 0, 0⟩ (OrderBook.init "BTCUSDT") firstBook

structure SinglePrices (x : ExchangeBook) : Prop where
  bids : ∀ p, x.bids p ≠ none → p = .finite 100
  asks : ∀ p, x.asks p ≠ none → p = .finite 101
  bid : x.bids (.finite 100) ≠ none
  ask : x.asks (.finite 101) ≠ none

theorem SinglePrices.proper {x : ExchangeBook} (h : SinglePrices x) : Proper x := by
  constructor
  · exact ⟨_, Option.ne_none_iff_exists'.mp h.bid⟩
  · exact ⟨_, Option.ne_none_iff_exists'.mp h.ask⟩
  · intro b a hbid hask
    rw [h.bids b hbid, h.asks a hask]
    decide

theorem single_price (levels : List (BookLevel Double)) (v : Levels) (price : Double)
    (hv : ∀ p, v p ≠ none → p = price) (h : ∀ lvl ∈ levels, lvl.price = price) :
    ∀ p, setLevels v levels p ≠ none → p = price := by
  intro p hp
  rcases setLevels_subset levels v p hp with hold | ⟨lvl, hlvl, hprice⟩
  · exact hv p hold
  · rw [← hprice]
    exact h lvl hlvl

theorem named_samples : (namedLevels some firstBook.raw.bids = [⟨.finite 100, .finite 1⟩] ∧
    namedLevels some firstBook.raw.asks = [⟨.finite 101, .finite 1⟩]) ∧
      namedLevels some bothSides.raw.bids = [⟨.finite 100, .finite 2⟩] ∧
        namedLevels some bothSides.raw.asks = [⟨.finite 101, .finite 3⟩] ∧
          namedLevels some bidOnly.raw.bids = [⟨.finite 100, .finite 2⟩] ∧
            namedLevels some nextSides.raw.bids = [⟨.finite 100, .finite 3⟩] ∧
              namedLevels some nextSides.raw.asks = [⟨.finite 101, .finite 2⟩] := by
  decide +kernel

theorem positive_samples : Positive (.finite 100) ∧ Positive (.finite 101) ∧
    Positive (.finite 1) ∧ Positive (.finite 2) ∧ Positive (.finite 3) := by
  unfold Positive
  decide +kernel

theorem prices_apart : (.finite 100 : Double) < .finite 101 := by
  decide

theorem first_sizes : firstStream.exchange.bids (.finite 100) = some (.finite 1) ∧
    firstStream.exchange.asks (.finite 101) = some (.finite 1) ∧
      firstStream.book.symbol = "BTCUSDT" := by
  decide +kernel

theorem first_single : SinglePrices firstStream.exchange := by
  obtain ⟨⟨hb, ha⟩, -⟩ := named_samples
  constructor
  · exact single_price _ noLevels _ (fun p hp => absurd rfl hp) (by rw [hb]; simp)
  · exact single_price _ noLevels _ (fun p hp => absurd rfl hp) (by rw [ha]; simp)
  · simp [first_sizes.1]
  · simp [first_sizes.2.1]

theorem first_correct : CorrectSnapshot some "BTCUSDT" firstBook.raw := by
  obtain ⟨⟨hb, ha⟩, -⟩ := named_samples
  obtain ⟨hbid, hask, hone, -⟩ := positive_samples
  constructor
  · rfl
  · rfl
  · rw [hb, ha]
    intro lvl hlvl
    rcases List.mem_append.mp hlvl with hl | hl
    · rw [List.mem_singleton.mp hl]
      exact ⟨hbid, hone⟩
    · rw [List.mem_singleton.mp hl]
      exact ⟨hask, hone⟩
  · exact first_single.proper

structure NewSizes (msg : Message) : Prop where
  bids : ∀ lvl ∈ namedLevels some msg.raw.bids, lvl.price = .finite 100 ∧ Positive lvl.size
  asks : ∀ lvl ∈ namedLevels some msg.raw.asks, lvl.price = .finite 101 ∧ Positive lvl.size

theorem SinglePrices.updated {x : ExchangeBook} (h : SinglePrices x) {msg : Message}
    (hn : NewSizes msg) : SinglePrices (updated some x msg.raw) := by
  obtain ⟨hbid, hask, -⟩ := positive_samples
  constructor
  · exact single_price _ _ _ h.bids (fun lvl hl => (hn.bids lvl hl).1)
  · exact single_price _ _ _ h.asks (fun lvl hl => (hn.asks lvl hl).1)
  · exact setLevels_keeps _ _ _
      (fun lvl hl => ⟨(hn.bids lvl hl).1 ▸ hbid, (hn.bids lvl hl).2⟩) h.bid
  · exact setLevels_keeps _ _ _
      (fun lvl hl => ⟨(hn.asks lvl hl).1 ▸ hask, (hn.asks lvl hl).2⟩) h.ask

theorem sizes_correct (s : Stream) (hs : SinglePrices s.exchange) (msg : Message)
    (haction : updateTypeOf msg.raw.action = some .delta)
    (hsymbol : msg.raw.symbol = s.book.symbol) (hseq : msg.raw.sequence = s.sequence + 1)
    (hn : NewSizes msg) : CorrectUpdate some s msg := by
  obtain ⟨hbid, hask, -⟩ := positive_samples
  refine ⟨haction, hsymbol, hseq, fun lvl hlvl => ?_, (hs.updated hn).proper⟩
  rcases List.mem_append.mp hlvl with hl | hl
  · obtain ⟨hprice, hsize⟩ := hn.bids lvl hl
    exact ⟨hprice ▸ hbid, hsize.1, le_of_lt hsize.2⟩
  · obtain ⟨hprice, hsize⟩ := hn.asks lvl hl
    exact ⟨hprice ▸ hask, hsize.1, le_of_lt hsize.2⟩

theorem sample_sizes : NewSizes bothSides ∧ NewSizes nextSides ∧ NewSizes bidOnly := by
  obtain ⟨-, hbids, hasks, hbid, hbids', hasks'⟩ := named_samples
  obtain ⟨-, -, -, htwo, hthree⟩ := positive_samples
  refine ⟨⟨?_, ?_⟩, ⟨?_, ?_⟩, ⟨?_, fun lvl hlvl => nomatch hlvl⟩⟩
  · exact hbids ▸ List.forall_mem_singleton.mpr ⟨rfl, htwo⟩
  · exact hasks ▸ List.forall_mem_singleton.mpr ⟨rfl, hthree⟩
  · exact hbids' ▸ List.forall_mem_singleton.mpr ⟨rfl, hthree⟩
  · exact hasks' ▸ List.forall_mem_singleton.mpr ⟨rfl, htwo⟩
  · exact hbid ▸ List.forall_mem_singleton.mpr ⟨rfl, htwo⟩

theorem bothSides_correct : CorrectUpdate some firstStream bothSides :=
  sizes_correct firstStream first_single bothSides rfl first_sizes.2.2.symm rfl sample_sizes.1

theorem nextSides_correct : CorrectUpdate some (streamStep some firstStream bothSides) nextSides :=
  sizes_correct _ (first_single.updated sample_sizes.1) nextSides rfl (by decide +kernel) rfl
    sample_sizes.2.1

theorem bidOnly_correct : CorrectUpdate some firstStream bidOnly :=
  sizes_correct firstStream first_single bidOnly rfl first_sizes.2.2.symm rfl sample_sizes.2.2

theorem correct_stream_bothSides :
    Runs.Always (streamStep some) InStep firstStream [bothSides, nextSides] := by
  obtain ⟨-, hbids, hasks, -, hbids', hasks'⟩ := named_samples
  apply (correct_stream some ⟨[], 0, 0⟩ (OrderBook.init "BTCUSDT") firstBook
    [bothSides, nextSides] first_correct ⟨bothSides_correct, nextSides_correct, trivial⟩).1
  exact ⟨⟨⟨.finite 100, .finite 2⟩, [], ⟨.finite 101, .finite 3⟩, [], hbids, hasks,
    prices_apart⟩, ⟨⟨.finite 100, .finite 3⟩, [], ⟨.finite 101, .finite 2⟩, [], hbids', hasks',
    prices_apart⟩, trivial⟩

/-- A correct change of the bid's size alone is dropped and the local book keeps the
old size. -/
theorem bid_change_lost :
    ¬ ∀ (nearest : ℚ → Option ℚ) (n : Normalizer) (b : LocalOrderBook Double) (snap : Message)
      (updates : List Message), CorrectSnapshot nearest b.symbol snap.raw →
      Runs.Meets (streamStep nearest) (CorrectUpdate nearest) (opened nearest n b snap) updates →
      Runs.Always (streamStep nearest) InStep (opened nearest n b snap) updates := by
  intro h
  have halways := h some ⟨[], 0, 0⟩ (OrderBook.init "BTCUSDT") firstBook [bidOnly] first_correct
    ⟨bidOnly_correct, trivial⟩
  have hbids := halways.2.bids
  have hlocal : (Double.finite 100, Double.finite 1) ∈
      (streamStep some firstStream bidOnly).book.bids ∧
        (streamStep some firstStream bidOnly).exchange.bids (.finite 100) = some (.finite 2) ∧
          some (Double.finite 2) ≠ some (.finite 1) := by
    decide +kernel
  obtain ⟨hkept, hsent, hchanged⟩ := hlocal
  exact absurd (hsent.symm.trans ((hbids _ _).mp hkept)) hchanged

end Runs

end TB.BookFeed
