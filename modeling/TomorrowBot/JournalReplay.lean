import TomorrowBot.RecoveryService
import TomorrowBot.WalHistory

/-!
# The replay of the journal against the committed events

A committed intent stands for one operation on the portfolio, with its numbers
read as numbers. The replay decides from the record of the commit alone. Entry
by entry, what it applies is compared with the event of the intent that the
entry commits, over any history of the log writer.
-/

set_option autoImplicit false

namespace TB.JournalReplay
open TB.CommonTypes TB.EventJournal TB.PortfolioEngine TB.WalWriter TB.WalRecords TB.WalHistory
open TB.RecoveryService JsonText

section Events
variable {F : Type} [DoubleArith F]

def asNumber : Value F → Option F
  | .double x => some x
  | .int n => some (scientific (decide (n < 0)) n.natAbs 0)
  | _ => none

def numberAt (d : Members F) (key : String) : F := ((find d key).bind asNumber).getD 0

def textAt (fallback : String) (d : Members F) (key : String) : String :=
  ((find d key).bind Value.asString).getD fallback

def eventOpenedAt (now stamp : Timestamp) (d : Members F) : Timestamp :=
  ((find d "opened_at_ns").bind Value.asInt64).getD
    (if (find d "timestamp").isSome then stamp else now)

def openedEvent (now stamp : Timestamp) (d : Members F) : Position F :=
  restoredPosition (textAt "" d "symbol") (sideOfText (textAt "Buy" d "side"))
    (numberAt d "amount") (numberAt d "price") (textAt "" d "strategy_id")
    (eventOpenedAt now stamp d) now

def eventOp (now stamp : Timestamp) (type : WalEntryType) (d : Members F) :
    Option (PortfolioOp F) :=
  match type with
  | .positionOpened =>
    if textAt "" d "symbol" ≠ "" ∧ 0 < numberAt d "price" then
      some (.openPosition now (openedEvent now stamp d))
    else none
  | .positionClosed =>
    if textAt "" d "symbol" ≠ "" then
      some (.closePositionSide (textAt "" d "symbol")
        (legOfText (textAt (textAt "" d "side") d "position_side")) (numberAt d "pnl"))
    else none
  | .balanceSync =>
    if 0 < numberAt d "amount" then some (.setCapital (numberAt d "amount")) else none
  | _ => none

def isEvent (type : WalEntryType) : Bool := journalTypeFor type = .portfolioChange

structure EventData (d : Members F) : Prop where
  symbol : ∃ s, find d "symbol" = some (.string s)
  side : ∃ s, find d "side" = some (.string s)
  amount : ∃ v x, find d "amount" = some v ∧ asNumber v = some x
  price : ∃ v x, find d "price" = some v ∧ asNumber v = some x
  pnl : ∃ v x, find d "pnl" = some v ∧ asNumber v = some x

def isDouble (d : Members F) (key : String) : Bool := ((find d key).bind Value.asDouble).isSome

def isTextOrAbsent (d : Members F) (key : String) : Bool :=
  (find d key).all (fun v => v.asString.isSome)

def isTimeOrAbsent (d : Members F) (key : String) : Bool :=
  (find d key).all (fun v => v.asInt64.isSome)

def legible (type : WalEntryType) (d : Members F) : Bool :=
  isDouble d "amount" && isDouble d "price" &&
    match type with
    | .positionOpened => isTextOrAbsent d "strategy_id" && isTimeOrAbsent d "opened_at_ns"
    | .positionClosed => isDouble d "pnl" && isTextOrAbsent d "position_side"
    | _ => true

def opOf (r : Option (Replayed F)) : Option (PortfolioOp F) :=
  match r with
  | some (.applied op _) => op
  | _ => none

def appliedOp (now : Timestamp) (entry : JournalEntry F) : Option (PortfolioOp F) :=
  opOf (replayEntry now entry)

omit [DoubleArith F] in
theorem opOf_bind {α : Type} (x : Option α) (f : α → Option (Replayed F)) :
    opOf (x.bind f) = x.bind (fun a => opOf (f a)) := by
  cases x <;> rfl

variable (d : Members F) (key : String)

/-- A number that is there reads as itself if it is a double and throws if not. -/
theorem readDouble_number (h : ∃ v x, find d key = some v ∧ asNumber v = some x) :
    readDouble d key = if isDouble d key then some (numberAt d key) else none := by
  obtain ⟨v, x, hv, hx⟩ := h
  rw [readDouble, isDouble, numberAt, hv]
  cases v <;> simp_all [Value.asDouble, asNumber]

omit [DoubleArith F] in
theorem readText_text (h : isTextOrAbsent d key = true) :
    readText d key = some (textAt "" d key) := by
  rw [isTextOrAbsent] at h
  rw [readText, textAt]
  rcases hv : find d key with _ | v
  · rfl
  · rw [hv, Option.all_some, Option.isSome_iff_exists] at h
    obtain ⟨s, hs⟩ := h
    simp [hs]

omit [DoubleArith F] in
theorem readText_other (h : isTextOrAbsent d key = false) : readText d key = none := by
  rw [isTextOrAbsent] at h
  rw [readText]
  rcases hv : find d key with _ | v
  · rw [hv] at h
    exact absurd h (by simp)
  · rw [hv, Option.all_some] at h
    cases hs : v.asString with
    | none => simpa using hs
    | some s => simp [hs] at h

omit [DoubleArith F] in
theorem isText_of_string
    (h : ∃ s, find d key = some (.string s)) : isTextOrAbsent d key = true := by
  obtain ⟨s, hs⟩ := h
  rw [isTextOrAbsent, hs]
  rfl

variable (now : Timestamp) (entry : JournalEntry F)

omit [DoubleArith F] in
theorem replayOpenedAt_time (d : Members F) : replayOpenedAt now entry d =
      if isTimeOrAbsent d "opened_at_ns" then some (eventOpenedAt now entry.timestamp d)
      else none := by
  rw [replayOpenedAt, isTimeOrAbsent, eventOpenedAt]
  rcases hv : find d "opened_at_ns" with _ | v
  · by_cases ht : (find d "timestamp").isSome = true <;> simp [ht]
  · cases hn : v.asInt64 <;> simp [hn]

theorem replayOpened_op (d : Members F)
    (sym : Symbol) (amount price : F) (hside : ∃ s, find d "side" = some (.string s)) :
    opOf (replayOpened now entry d sym amount price) =
      if isTextOrAbsent d "strategy_id" && isTimeOrAbsent d "opened_at_ns" then
        some (.openPosition now (restoredPosition sym (sideOfText (textAt "Buy" d "side")) amount
          price (textAt "" d "strategy_id") (eventOpenedAt now entry.timestamp d) now))
      else none := by
  obtain ⟨side, hs⟩ := hside
  have hread : readTextOr "Buy" d "side" = some (textAt "Buy" d "side") := by
    simp [readTextOr, textAt, hs, Value.asString]
  simp only [replayOpened, Option.bind_eq_bind, hread, Option.bind_some, replayOpenedAt_time]
  by_cases hk : isTextOrAbsent d "strategy_id" = true
  · rw [readText_text d _ hk, hk]
    by_cases ht : isTimeOrAbsent d "opened_at_ns" = true
    · simp [ht, opOf]
    · simp [ht, opOf]
  · rw [Bool.not_eq_true] at hk
    rw [readText_other d _ hk, hk]
    rfl

theorem replayClosed_op (d : Members F) (sym : Symbol)
    (hpnl : ∃ v x, find d "pnl" = some v ∧ asNumber v = some x)
    (hside : ∃ s, find d "side" = some (.string s)) :
    opOf (replayClosed d sym) =
      if isDouble d "pnl" && isTextOrAbsent d "position_side" then
        some (.closePositionSide sym (legOfText (textAt (textAt "" d "side") d "position_side"))
          (numberAt d "pnl"))
      else none := by
  obtain ⟨side, hs⟩ := hside
  simp only [replayClosed, Option.bind_eq_bind, readDouble_number d "pnl" hpnl]
  by_cases hp : isDouble d "pnl" = true
  · rw [if_pos hp, Option.bind_some, hp, Bool.true_and]
    rcases hv : find d "position_side" with _ | v
    · simp [hs, isTextOrAbsent, textAt, hv, Value.asString, opOf]
    · cases ht : v.asString <;> simp [isTextOrAbsent, textAt, hv, ht, opOf]
  · rw [if_neg hp]
    simp [hp, opOf]

/-- The reader applies the event where every member it asks for has the kind it
expects, and nothing elsewhere. -/
theorem replayEvent_op (type : WalEntryType)
    (d : Members F) (ht : isEvent type = true) (hd : EventData d) :
    opOf (replayEvent now entry type.toString d) =
      if legible type d then eventOp now entry.timestamp type d else none := by
  have hsym := readText_text d "symbol" (isText_of_string d _ hd.symbol)
  simp only [replayEvent, Option.bind_eq_bind, hsym, Option.bind_some,
    readDouble_number d _ hd.amount, readDouble_number d _ hd.price]
  by_cases ha : isDouble d "amount" = true
  swap
  · simp [ha, legible, opOf]
  by_cases hp : isDouble d "price" = true
  swap
  · simp [ha, hp, legible, opOf]
  rw [if_pos ha, if_pos hp, Option.bind_some, Option.bind_some]
  cases type with
  | positionOpened =>
    by_cases hc : textAt "" d "symbol" ≠ "" ∧ 0 < numberAt d "price"
    · rw [if_pos ⟨rfl, hc⟩, replayOpened_op now entry d _ _ _ hd.side]
      simp only [legible, ha, hp, Bool.true_and, eventOp, if_pos hc]
      rfl
    · rw [if_neg (fun h => hc h.2)]
      simp [WalEntryType.toString, opOf, eventOp, hc]
  | positionClosed =>
    by_cases hc : textAt "" d "symbol" ≠ ""
    · rw [if_neg (by simp [WalEntryType.toString]), if_pos ⟨rfl, hc⟩,
        replayClosed_op d _ hd.pnl hd.side]
      simp only [legible, ha, hp, Bool.true_and, eventOp, if_pos hc]
    · rw [if_neg (by simp [WalEntryType.toString]), if_neg (fun h => hc h.2)]
      simp [WalEntryType.toString, opOf, eventOp, hc]
  | balanceSync =>
    simp [WalEntryType.toString, legible, ha, hp, opOf, eventOp]
  | _ => simp [isEvent, journalTypeFor] at ht

def isDoubleOrAbsent (d : Members F) (key : String) : Bool :=
  (find d key).all (fun v => v.asDouble.isSome)

/-- The data of an event that changes the portfolio: its members have the kinds that are asked
for, and its names and numbers let it through. -/
def Acts (type : String) (d : Members F) : Prop :=
  (isTextOrAbsent d "symbol" = true ∧ isDoubleOrAbsent d "amount" = true ∧
    isDoubleOrAbsent d "price" = true) ∧
  ((type = "PositionOpened" ∧ textAt "" d "symbol" ≠ "" ∧ 0 < numberAt d "price" ∧
      isTextOrAbsent d "side" = true ∧ isTextOrAbsent d "strategy_id" = true ∧
      isTimeOrAbsent d "opened_at_ns" = true) ∨
    (type = "PositionClosed" ∧ textAt "" d "symbol" ≠ "" ∧ isDoubleOrAbsent d "pnl" = true ∧
      ((find d "position_side").or (find d "side")).all (fun v => v.asString.isSome) = true) ∨
    (type = "FeeCharged" ∧ textAt "" d "symbol" ≠ "") ∨
    ((type = "CapitalSynced" ∨ type = "BalanceSync") ∧ 0 < numberAt d "amount"))

theorem readDouble_eq (d : Members F) (key : String) :
    readDouble d key = if isDoubleOrAbsent d key then some (numberAt d key) else none := by
  rw [readDouble, isDoubleOrAbsent, numberAt]
  rcases find d key with _ | v
  · rfl
  · cases v <;> rfl

omit [DoubleArith F] in
theorem readText_eq (d : Members F) (key : String) :
    readText d key = if isTextOrAbsent d key then some (textAt "" d key) else none := by
  by_cases h : isTextOrAbsent d key = true
  · rw [if_pos h, readText_text d key h]
  · rw [if_neg h, readText_other d key (Bool.not_eq_true _ ▸ h)]

theorem replayOpened_acts (now : Timestamp) (entry : JournalEntry F) (d : Members F)
    (sym : Symbol) (amount price : F) :
    (opOf (replayOpened now entry d sym amount price)).isSome = true ↔
      isTextOrAbsent d "side" = true ∧ isTextOrAbsent d "strategy_id" = true ∧
        isTimeOrAbsent d "opened_at_ns" = true := by
  have hside : (readTextOr "Buy" d "side").isSome = isTextOrAbsent d "side" := by
    rw [readTextOr, isTextOrAbsent]
    cases find d "side" <;> rfl
  simp only [replayOpened, Option.bind_eq_bind, readText_eq, replayOpenedAt_time, ← hside]
  cases readTextOr "Buy" d "side" <;> cases isTextOrAbsent d "strategy_id" <;>
    cases isTimeOrAbsent d "opened_at_ns" <;> simp [opOf]

theorem replayClosed_acts (d : Members F) (sym : Symbol) :
    (opOf (replayClosed d sym)).isSome = true ↔ isDoubleOrAbsent d "pnl" = true ∧
      ((find d "position_side").or (find d "side")).all (fun v => v.asString.isSome) = true := by
  simp only [replayClosed, Option.bind_eq_bind, readDouble_eq]
  by_cases hp : isDoubleOrAbsent d "pnl" = true
  · rw [if_pos hp, Option.bind_some]
    rcases (find d "position_side").or (find d "side") with _ | v
    · simp [hp, opOf]
    · cases hv : v.asString <;> simp [hp, hv, opOf]
  · simp [hp, opOf]

theorem replayEvent_acts (now : Timestamp) (entry : JournalEntry F) (type : String)
    (d : Members F) : (opOf (replayEvent now entry type d)).isSome = true ↔ Acts type d := by
  simp only [replayEvent, Option.bind_eq_bind, readText_eq, readDouble_eq, Acts]
  by_cases hread : isTextOrAbsent d "symbol" = true ∧ isDoubleOrAbsent d "amount" = true ∧
      isDoubleOrAbsent d "price" = true
  swap
  · rw [iff_false_right (fun h => hread h.1)]
    rcases hs : isTextOrAbsent d "symbol" with _ | _
    · simp [opOf]
    rcases ha : isDoubleOrAbsent d "amount" with _ | _
    · simp [opOf]
    rcases hp : isDoubleOrAbsent d "price" with _ | _
    · simp [opOf]
    exact absurd ⟨hs, ha, hp⟩ hread
  simp only [hread, and_self, true_and, if_true, Option.bind_some]
  by_cases ho : type = "PositionOpened" ∧ textAt "" d "symbol" ≠ "" ∧ 0 < numberAt d "price"
  · rw [if_pos ho, replayOpened_acts]
    simp [ho]
  rw [if_neg ho]
  by_cases hc : type = "PositionClosed" ∧ textAt "" d "symbol" ≠ ""
  · rw [if_pos hc, replayClosed_acts]
    simp [hc]
  rw [if_neg hc]
  by_cases hf : type = "FeeCharged" ∧ textAt "" d "symbol" ≠ ""
  · simp [hf, opOf]
  rw [if_neg hf]
  by_cases hr : type = "CashReserved"
  · simp [hr, opOf]
  rw [if_neg hr]
  by_cases hb : type = "CapitalSynced" ∨ type = "BalanceSync"
  · by_cases hpos : 0 < numberAt d "amount"
    · simp [hb, hpos, opOf]
    · rcases hb with rfl | rfl <;> simp [hpos, opOf]
  · rw [if_neg hb, iff_false_right]
    · simp [opOf]
    · rintro (⟨h, h', h'', -⟩ | ⟨h, h', -⟩ | h | h)
      · exact ho ⟨h, h', h''⟩
      · exact hc ⟨h, h'⟩
      · exact hf h
      · exact hb h.1

inductive Presents (obj : Members F) (type : String) : Members F → Prop
  | envelope (d : Members F) (htype : find obj "wal_type" = some (.string type))
      (hrollback : readFlag obj "rollback" = some false)
      (hcommitted : find obj "committed" = none ∨ find obj "committed" = some (.bool true))
      (hdata : find obj "data" = some (.object d)) : Presents obj type d
  | bare (hnone : find obj "wal_type" = none)
      (hevent : find obj "event" = some (.string type)) : Presents obj type obj

variable (obj : Members F) (t : Value F)

omit [DoubleArith F] in
theorem skipUncommitted_op : opOf (skipUncommitted obj t) = none := by
  rw [skipUncommitted, Option.bind_eq_bind, opOf_bind, Option.bind_eq_none_iff]
  intro seq _
  rw [Option.bind_eq_bind, opOf_bind, Option.bind_eq_none_iff]
  intro type _
  rfl

variable (op : PortfolioOp F)

theorem replayCommitted_op : opOf (replayCommitted now entry obj t) = some op ↔
      ∃ type d, t = .string type ∧ find obj "data" = some (.object d) ∧
        opOf (replayEvent now entry type d) = some op := by
  rw [replayCommitted, Option.bind_eq_bind, opOf_bind, Option.bind_eq_some_iff]
  constructor
  · rintro ⟨type, ht, h⟩
    rw [asString_iff] at ht
    rcases hd : find obj "data" with _ | v
    · simp [hd, opOf] at h
    · cases v with
      | object d => exact ⟨type, d, ht, rfl, by simpa only [hd] using h⟩
      | _ => simp [hd, opOf] at h
  · rintro ⟨type, d, rfl, hd, h⟩
    exact ⟨type, rfl, by simpa only [hd] using h⟩

theorem replayEnvelope_op : opOf (replayEnvelope now entry obj t) = some op ↔
      readFlag obj "rollback" = some false ∧
        (find obj "committed" = none ∨ find obj "committed" = some (.bool true)) ∧
        opOf (replayCommitted now entry obj t) = some op := by
  rcases hr : readFlag obj "rollback" with _ | _ | _
  · simp [replayEnvelope, hr, opOf]
  swap
  · simp [replayEnvelope, hr, opOf]
  rcases hc : find obj "committed" with _ | v
  · simp [replayEnvelope, hr, hc]
  cases v with
  | bool b => cases b <;> simp [replayEnvelope, hr, hc, Value.asBool, skipUncommitted_op]
  | _ => simp [replayEnvelope, hr, hc, Value.asBool, opOf]

theorem appliedOp_unread
    (hno : ∀ obj, parse entry.payloadJson ≠ some (.object obj)) : appliedOp now entry = none := by
  rw [Option.eq_none_iff_forall_ne_some]
  intro op h
  rw [appliedOp, replayEntry] at h
  split_ifs at h
  · exact absurd h (by simp [opOf])
  · rw [Option.bind_eq_bind, opOf_bind, Option.bind_eq_some_iff] at h
    obtain ⟨v, hv, h⟩ := h
    rw [Option.bind_eq_bind, opOf_bind, Option.bind_eq_some_iff] at h
    obtain ⟨obj, ho, -⟩ := h
    rw [asObject_iff] at ho
    exact absurd (ho ▸ hv) (hno obj)

theorem parsed_nonempty
    (hp : parse entry.payloadJson = some (.object obj)) : entry.payloadJson.isEmpty = false := by
  rcases hx : entry.payloadJson with _ | ⟨c, r⟩
  · rw [hx] at hp
    simp [parse, parseValue, skipBlanks] at hp
  · rfl

/-- An object presents an event the reader accepts exactly if it is applied. -/
theorem appliedOp_object (hp : parse entry.payloadJson = some (.object obj)) (op : PortfolioOp F) :
    appliedOp now entry = some op ↔
      ∃ type d, Presents obj type d ∧ opOf (replayEvent now entry type d) = some op := by
  simp only [appliedOp, replayEntry, parsed_nonempty entry obj hp, Bool.false_eq_true, if_false,
    Option.bind_eq_bind, hp, Option.bind_some, Value.asObject]
  rcases ht : find obj "wal_type" with _ | t
  · rcases he : find obj "event" with _ | event
    · constructor
      · intro h
        exact absurd h (by simp [opOf])
      · rintro ⟨type, d, hpres, -⟩
        cases hpres with
        | envelope _ htype => rw [ht] at htype; exact absurd htype (by simp)
        | bare _ hevent => rw [he] at hevent; exact absurd hevent (by simp)
    · show opOf (Option.bind event.asString _) = some op ↔ _
      rw [opOf_bind, Option.bind_eq_some_iff]
      constructor
      · rintro ⟨type, hs, h⟩
        rw [asString_iff] at hs
        subst hs
        exact ⟨type, obj, .bare ht he, h⟩
      · rintro ⟨type, d, hpres, h⟩
        cases hpres with
        | envelope _ htype => rw [ht] at htype; exact absurd htype (by simp)
        | bare _ hevent =>
          rw [he, Option.some.injEq] at hevent
          exact ⟨type, by rw [hevent]; rfl, h⟩
  · show opOf (replayEnvelope now entry obj t) = some op ↔ _
    rw [replayEnvelope_op, replayCommitted_op]
    constructor
    · rintro ⟨hr, hc, type, d, rfl, hd, h⟩
      exact ⟨type, d, .envelope d ht hr hc hd, h⟩
    · rintro ⟨type, d, hpres, h⟩
      cases hpres with
      | envelope _ htype hr hc hd =>
        rw [ht, Option.some.injEq] at htype
        exact ⟨hr, hc, type, d, htype, hd, h⟩
      | bare hnone _ => rw [ht] at hnone; exact absurd hnone (by simp)

/-- An entry is applied exactly where its text presents an event that the
reader accepts. -/
theorem appliedOp_iff : appliedOp now entry = some op ↔
      ∃ obj type d, parse entry.payloadJson = some (.object obj) ∧ Presents obj type d ∧
        opOf (replayEvent now entry type d) = some op := by
  by_cases hobj : ∃ obj, parse entry.payloadJson = some (.object obj)
  · obtain ⟨obj, hp⟩ := hobj
    rw [appliedOp_object now entry obj hp]
    constructor
    · rintro ⟨type, d, hpres, h⟩
      exact ⟨obj, type, d, hp, hpres, h⟩
    · rintro ⟨other, type, d, ho, hpres, h⟩
      rw [hp, Option.some.injEq, Value.object.injEq] at ho
      exact ⟨type, d, ho ▸ hpres, h⟩
  · have hno := not_exists.mp hobj
    rw [appliedOp_unread now entry hno]
    constructor
    · intro h
      cases h
    · rintro ⟨obj, -, -, hp, -⟩
      exact absurd hp (hno obj)

end Events

section Records
variable {F : Type} [DoubleArith F]

theorem presents_wrap (seq : ℕ) (wt : WalEntryType) (committed : Bool) (ms : Members F)
    (type : String) (d : Members F) :
    Presents (envelope seq wt committed (.object ms)) type d ↔
      committed = true ∧ type = wt.toString ∧ d = ms := by
  have hdata : find (envelope seq wt committed (.object ms)) "data" = some (.object ms) := by
    simp [envelope]
  have hcom : find (envelope seq wt committed (Value.object ms)) "committed" =
      some (.bool committed) := by
    simp [envelope]
  constructor
  · intro h
    cases h with
    | envelope _ htype _ hc hd =>
      rw [envelope_type, Option.some.injEq, Value.string.injEq] at htype
      rw [hdata, Option.some.injEq, Value.object.injEq] at hd
      rw [hcom] at hc
      exact ⟨by simpa using hc, htype.symm, hd.symm⟩
    | bare hnone =>
      rw [envelope_type] at hnone
      exact absurd hnone (by simp)
  · rintro ⟨rfl, rfl, rfl⟩
    exact .envelope d (envelope_type ..) (envelope_rollback ..) (.inr hcom) hdata

theorem appliedOp_wrap (now : Timestamp) (entry : JournalEntry F) (seq : ℕ)
    (wt : WalEntryType) (committed : Bool) (data : Text F) (ms : Members F)
    (hentry : entry.payloadJson = wrapWalJson seq wt committed data)
    (hdata : parse data = some (.object ms)) (ht : isEvent wt = true) (hd : EventData ms) :
    appliedOp now entry =
      if committed = true ∧ (Value.object ms).depth < maxDepth ∧ legible wt ms = true then
        eventOp now entry.timestamp wt ms
      else none := by
  have hp := parse_wrap seq wt committed data ms hdata
  have hop := replayEvent_op now entry wt ms ht hd
  ext op
  rw [appliedOp_iff, hentry, hp]
  by_cases hm : (Value.object ms).depth < maxDepth
  · rw [if_pos hm]
    simp only [Option.some.injEq, Value.object.injEq, hm, true_and]
    constructor
    · rintro ⟨obj, type, d, rfl, hpres, h⟩
      rw [presents_wrap] at hpres
      obtain ⟨rfl, rfl, rfl⟩ := hpres
      rw [hop] at h
      simpa using h
    · intro h
      by_cases hc : committed = true ∧ legible wt ms = true
      · rw [if_pos hc] at h
        refine ⟨_, wt.toString, ms, rfl, (presents_wrap ..).mpr ⟨hc.1, rfl, rfl⟩, ?_⟩
        rw [hop, if_pos hc.2, h]
      · rw [if_neg hc] at h
        exact absurd h (by simp)
  · simp [hm]

/-- A rollback whose reason leaves its string literal and goes on with members of its own: one
that takes the rollback back, and the data of an event that acts. -/
def Forged (seq : ℕ) (wt : WalEntryType) (reason : String) : Prop :=
  ∃ (obj : Members F) (type : String) (d : Members F),
    parse (rollbackJson seq wt reason) = some (.object obj) ∧
      find obj "wal_type" = some (.string type) ∧ find obj "rollback" = some (.bool false) ∧
      (find obj "committed" = none ∨ find obj "committed" = some (.bool true)) ∧
      find obj "data" = some (.object d) ∧ Acts type d

theorem appliedOp_rollback_iff (now : Timestamp) (entry : JournalEntry F) (seq : ℕ)
    (wt : WalEntryType) (reason : String)
    (hentry : entry.payloadJson = rollbackJson seq wt reason) :
    appliedOp now entry = none ↔ ¬ Forged (F := F) seq wt reason := by
  rw [← not_iff_not, not_not, ← ne_eq, Option.ne_none_iff_exists']
  constructor
  · rintro ⟨op, h⟩
    obtain ⟨obj, type, d, hp, hpres, hop⟩ := (appliedOp_iff now entry op).mp h
    rw [hentry] at hp
    obtain ⟨rest, hobj⟩ := rollback_begins seq wt reason obj hp
    have hacts : Acts type d := (replayEvent_acts now entry type d).mp (by rw [hop]; rfl)
    cases hpres with
    | envelope _ htype hr hc hd =>
      refine ⟨obj, type, d, hp, htype, ?_, hc, hd, hacts⟩
      rw [readFlag] at hr
      rcases hv : find obj "rollback" with _ | v
      · rw [hobj] at hv
        cases hrest : find rest "rollback" <;> simp [find, hrest] at hv
      · rw [hv] at hr
        cases v <;> simp_all [Value.asBool]
    | bare hnone _ =>
      rw [hobj] at hnone
      cases hrest : find rest "wal_type" <;> simp [find, hrest] at hnone
  · rintro ⟨obj, type, d, hp, htype, hr, hc, hd, hacts⟩
    obtain ⟨op, hop⟩ := Option.isSome_iff_exists.mp ((replayEvent_acts now entry type d).mpr hacts)
    refine ⟨op, (appliedOp_iff now entry op).mpr ⟨obj, type, d, hentry ▸ hp, ?_, hop⟩⟩
    exact .envelope d htype (by rw [readFlag, hr]; rfl) hc hd

/-- A reason that stays in its string literal forges nothing. -/
theorem literal_not_forged (seq : ℕ) (wt : WalEntryType) (reason : String)
    (h : literal F reason = true) : ¬ Forged (F := F) seq wt reason := by
  rintro ⟨obj, type, d, hp, -, hr, -⟩
  obtain ⟨s, hs⟩ := parse_rollback (F := F) seq wt reason h
  rw [hs, Option.some.injEq, Value.object.injEq] at hp
  rw [← hp] at hr
  simp [rollbackEnvelope] at hr

end Records

section Histories
variable {F : Type} [DoubleArith F]

def recordKey (r : Record F) : ℕ × ℕ := (r.session, r.seq)

def EventPayload (payload : Text F) : Prop :=
  ∃ ms, parse payload = some (.object ms) ∧ EventData ms

def EventCall : WalOp F → Prop
  | .writeIntent _ type payload _ _ _ _ _ => isEvent type = true → EventPayload payload
  | _ => True

def Logged (e : JournalEntry F) (r : Record F) : Prop :=
  e.payloadJson = recordText r ∧ e.type = journalTypeFor r.type

def IntentOf (rs : List (Record F)) (key : ℕ × ℕ) (type : WalEntryType) (data : Text F) : Prop :=
  ∃ i ∈ rs, isIntent i = true ∧ recordKey i = key ∧ i.type = type ∧ i.data = data

def OpenEntry (rs : List (Record F)) (session k : ℕ) (entry : WalEntry F) : Prop :=
  IntentOf rs (session, k) (pendingType entry) entry.payloadJson ∧
    ∀ r ∈ rs, isOutcome r = true → recordKey r ≠ (session, k)

structure Journalled (h : History F) : Prop where
  logged : List.Forall₂ (Logged) h.writer.journal.entries h.records
  pending : Keyed.All (OpenEntry h.records h.session) h.writer.pendingEntries
  payloads : ∀ i ∈ h.records, isIntent i = true → isEvent i.type = true → EventPayload i.data
  answers : ∀ r ∈ h.records, isOutcome r = true → IntentOf h.records (recordKey r) r.type r.data
  checkpoints : ∀ r ∈ h.records, r.kind = .checkpoint → r.type = .recoveryCheckpoint
  intents : ((h.records.filter isIntent).map recordKey).Nodup
  outcomes : ((h.records.filter isOutcome).map recordKey).Nodup

omit [DoubleArith F] in
theorem intentOf_append (rs : List (Record F)) (r : Record F) (key : ℕ × ℕ)
    (type : WalEntryType) (data : Text F) (h : IntentOf rs key type data) :
    IntentOf (rs ++ [r]) key type data := by
  obtain ⟨i, hi, hrest⟩ := h
  exact ⟨i, List.mem_append_left [r] hi, hrest⟩

omit [DoubleArith F] in
theorem openEntry_append (rs : List (Record F)) (r : Record F) (session k : ℕ)
    (entry : WalEntry F) (h : OpenEntry rs session k entry)
    (hr : isOutcome r = true → recordKey r ≠ (session, k)) :
    OpenEntry (rs ++ [r]) session k entry := by
  refine ⟨intentOf_append rs r _ _ _ h.1, ?_⟩
  intro s hs ho
  rcases List.mem_append.mp hs with hs | hs
  · exact h.2 s hs ho
  · rw [List.mem_singleton] at hs
    subst hs
    exact hr ho

omit [DoubleArith F] in
theorem nodup_filter_append (p : Record F → Bool) (rs : List (Record F)) (r : Record F)
    (h : ((rs.filter p).map recordKey).Nodup)
    (hr : p r = true → ∀ s ∈ rs, p s = true → recordKey s ≠ recordKey r) :
    (((rs ++ [r]).filter p).map recordKey).Nodup := by
  rw [List.filter_append, List.map_append]
  by_cases hp : p r = true
  · rw [List.filter_cons_of_pos hp, List.filter_nil, List.map_singleton,
      List.nodup_append]
    refine ⟨h, List.nodup_singleton _, ?_⟩
    intro k hk l hl
    rw [List.mem_singleton] at hl
    subst hl
    obtain ⟨s, hs, rfl⟩ := List.mem_map.mp hk
    exact hr hp s (List.mem_filter.mp hs).1 (List.mem_filter.mp hs).2
  · rw [List.filter_cons_of_neg hp, List.filter_nil, List.map_nil, List.append_nil]
    exact h

theorem journalled_kept (h k : History F) (hj : Journalled h)
    (hr : k.records = h.records) (he : k.writer.journal.entries = h.writer.journal.entries)
    (hp : Keyed.All (OpenEntry h.records k.session) k.writer.pendingEntries) :
    Journalled k where
  logged := by
    rw [hr, he]
    exact hj.logged
  pending := by
    rw [hr]
    exact hp
  payloads := by
    rw [hr]
    exact hj.payloads
  answers := by
    rw [hr]
    exact hj.answers
  checkpoints := by
    rw [hr]
    exact hj.checkpoints
  intents := by
    rw [hr]
    exact hj.intents
  outcomes := by
    rw [hr]
    exact hj.outcomes

/-- A call that left one record: an intent with a number of its own, the
outcome of an intent without one, or a checkpoint. -/
theorem journalled_append (h k : History F)
    (hj : Journalled h) (r : Record F) (e : JournalEntry F)
    (hr : k.records = h.records ++ [r])
    (he : k.writer.journal.entries = h.writer.journal.entries ++ [e])
    (hl : Logged e r)
    (hp : Keyed.All (OpenEntry (h.records ++ [r]) k.session) k.writer.pendingEntries)
    (hpay : isIntent r = true → isEvent r.type = true → EventPayload r.data)
    (hans : isOutcome r = true → IntentOf h.records (recordKey r) r.type r.data)
    (hck : r.kind = .checkpoint → r.type = .recoveryCheckpoint)
    (hint : isIntent r = true → ∀ s ∈ h.records, isIntent s = true → recordKey s ≠ recordKey r)
    (hout : isOutcome r = true →
      ∀ s ∈ h.records, isOutcome s = true → recordKey s ≠ recordKey r) :
    Journalled k where
  logged := by
    rw [hr, he]
    exact List.rel_append hj.logged (.cons hl .nil)
  pending := by
    rw [hr]
    exact hp
  payloads := by
    intro i hi
    rw [hr, List.mem_append, List.mem_singleton] at hi
    rcases hi with hi | rfl
    · exact hj.payloads i hi
    · exact hpay
  answers := by
    intro s hs ho
    rw [hr] at hs ⊢
    apply intentOf_append
    rw [List.mem_append, List.mem_singleton] at hs
    rcases hs with hs | rfl
    · exact hj.answers s hs ho
    · exact hans ho
  checkpoints := by
    intro s hs
    rw [hr, List.mem_append, List.mem_singleton] at hs
    rcases hs with hs | rfl
    · exact hj.checkpoints s hs
    · exact hck
  intents := by
    rw [hr]
    exact nodup_filter_append isIntent h.records r hj.intents hint
  outcomes := by
    rw [hr]
    exact nodup_filter_append isOutcome h.records r hj.outcomes hout

variable (h : History F)

omit [DoubleArith F] in
/-- What stays pending once an outcome was recorded has another number. -/
theorem pending_answered (r : Record F) (seq : ℕ)
    (hp : Keyed.All (OpenEntry h.records h.session) h.writer.pendingEntries)
    (hr : recordKey r = (h.session, seq)) :
    Keyed.All (OpenEntry (h.records ++ [r]) h.session) (h.writer.pendingEntries.erase seq) := by
  intro k entry hl
  by_cases hk : k = seq
  · subst hk
    rw [AList.lookup_erase] at hl
    exact absurd hl (by simp)
  · rw [AList.lookup_erase_ne hk] at hl
    apply openEntry_append h.records r h.session k entry (hp k entry hl)
    intro _ he
    rw [hr, Prod.mk.injEq] at he
    exact hk he.2.symm

omit [DoubleArith F] in
theorem pending_recorded (r : Record F) (hr : isOutcome r = false)
    (hp : Keyed.All (OpenEntry h.records h.session) h.writer.pendingEntries) :
    Keyed.All (OpenEntry (h.records ++ [r]) h.session) h.writer.pendingEntries := by
  intro k entry hl
  apply openEntry_append h.records r h.session k entry (hp k entry hl)
  intro ho
  rw [hr] at ho
  exact absurd ho (by simp)

omit [DoubleArith F] in
theorem key_fresh (hn : Numbered h) (s : Record F) (hs : s ∈ h.records) :
    recordKey s ≠ (h.session, h.writer.walSequence + 1) := by
  intro he
  rw [recordKey, Prod.mk.injEq] at he
  have := hn.below s hs he.1
  omega

theorem intent_journalled (hj : Journalled h)
    (hn : Numbered h) (c : Clock) (type : WalEntryType) (payload : Text F) (orderId : OrderId)
    (symbol : Symbol) (strategyId : StrategyId) (correlationId : CorrelationId)
    (hp : isEvent type = true → EventPayload payload) :
    Journalled
      (historyStep h (.writeIntent c type payload orderId symbol strategyId correlationId true)) := by
  let r : Record F := ⟨h.session, h.writer.walSequence + 1, type, .intent, payload⟩
  apply journalled_append h _ hj r _ rfl rfl ⟨rfl, rfl⟩
  · apply Keyed.all_insert
    · exact pending_recorded h r rfl hj.pending
    · refine ⟨⟨r, List.mem_append_right _ List.mem_cons_self, rfl, rfl, rfl, rfl⟩, ?_⟩
      intro s hs ho
      rcases List.mem_append.mp hs with hs | hs
      · exact key_fresh h hn s hs
      · rw [List.mem_singleton] at hs
        subst hs
        exact absurd ho (by simp [r, isOutcome])
  · intro _ ht
    exact hp ht
  · intro ho
    exact absurd ho (by simp [r, isOutcome])
  · intro hk
    exact absurd hk (by simp [r])
  · intro _ s hs _
    exact key_fresh h hn s hs
  · intro ho
    exact absurd ho (by simp [r, isOutcome])

theorem outcome_journalled
    (hj : Journalled h) {c : Clock} {seq : ℕ} {stored : Bool} {kind : Kind}
    {op : WalOp F} (hop : Closes c seq stored kind op) :
    Journalled (historyStep h op) := by
  have hs := session_outcome h hop
  rcases outcome_cases h hop with ⟨hr, he, -, hp⟩ | ⟨entry, hl, hr, hw⟩
  · apply journalled_kept h _ hj
    · exact (congrArg (h.records ++ ·) hr).trans (List.append_nil _)
    · exact he
    · rw [hs]
      exact hp _ (fun _ _ hk => hk) hj.pending
  obtain ⟨hintent, hopen⟩ := hj.pending seq entry hl
  have he : (writerStep h.writer op).journal.entries = _ :=
    congrArg (fun w : Writer F => w.journal.entries) hw
  rw [append_stored] at he
  apply journalled_append h _ hj _ _ (congrArg (h.records ++ ·) hr) he
    ⟨rfl, rfl⟩
  · rw [hs]
    show Keyed.All _ (writerStep h.writer op).pendingEntries
    rw [hw]
    exact pending_answered h _ seq hj.pending rfl
  · intro hi
    cases hop <;> exact absurd hi (by simp [isIntent])
  · intro _
    exact hintent
  · intro hk
    cases hop <;> exact absurd hk (by simp)
  · intro hi
    cases hop <;> exact absurd hi (by simp [isIntent])
  · intro _ s hm ho
    exact hopen s hm ho

theorem historyStep_journalled (op : WalOp F)
    (hi : Numbered h ∧ Journalled h) (hw : EventCall op) :
    Numbered (historyStep h op) ∧ Journalled (historyStep h op) := by
  obtain ⟨hn, hj⟩ := hi
  refine ⟨historyStep_numbered h op hn, ?_⟩
  cases op with
  | writeIntent c type payload orderId symbol strategyId correlationId stored =>
    cases stored with
    | false => exact journalled_kept h _ hj (List.append_nil _) rfl hj.pending
    | true => exact intent_journalled h hj hn c type payload _ _ _ _ hw
  | commit c seq stored => exact outcome_journalled h hj .commit
  | rollback c seq reason stored => exact outcome_journalled h hj (.rollback reason)
  | writeCheckpoint c snapshot stored =>
    cases stored with
    | false => exact journalled_kept h _ hj (List.append_nil _) rfl hj.pending
    | true =>
      let r : Record F :=
        ⟨h.session, h.writer.walSequence + 1, .recoveryCheckpoint, .checkpoint, snapshot⟩
      apply journalled_append h _ hj r _ rfl rfl ⟨rfl, rfl⟩
      · exact pending_recorded h r rfl hj.pending
      · intro hk
        exact absurd hk (by simp [r, isIntent])
      · intro hk
        exact absurd hk (by simp [r, isOutcome])
      · intro _
        rfl
      · intro hk
        exact absurd hk (by simp [r, isIntent])
      · intro hk
        exact absurd hk (by simp [r, isOutcome])
  | restart => exact journalled_kept h _ hj (List.append_nil _) rfl (Keyed.all_empty _)

theorem firstSession_journalled : Journalled (firstSession : History F) where
  logged := .nil
  pending := Keyed.all_empty _
  payloads := by
    intro i hi
    exact absurd hi List.not_mem_nil
  answers := by
    intro r hr
    exact absurd hr List.not_mem_nil
  checkpoints := by
    intro r hr
    exact absurd hr List.not_mem_nil
  intents := List.nodup_nil
  outcomes := List.nodup_nil

theorem history_journalled (ops : List (WalOp F))
    (hw : ∀ op ∈ ops, EventCall op) : Journalled (history ops) := by
  have h0 : Numbered (firstSession : History F) := history_numbered []
  have hrun := Runs.invariant_run historyStep
    (I := fun h => Numbered h ∧ Journalled h) (C := fun _ op => EventCall op)
    (fun h op hi hc => historyStep_journalled h op hi hc) firstSession ops
    ⟨h0, firstSession_journalled⟩
    (Runs.meets_of_forall historyStep _ firstSession ops (fun op ho _ => hw op ho))
  exact hrun.2

end Histories

section Exactness
variable {F : Type} [DoubleArith F]

def intentOf (rs : List (Record F)) (r : Record F) : Option (Record F) :=
  rs.find? (fun i => isIntent i && decide (recordKey i = recordKey r))

def committedEvent (now : Timestamp) (rs : List (Record F)) (x : JournalEntry F × Record F) :
    Option (PortfolioOp F) :=
  if x.2.kind = .commit then
    (intentOf rs x.2).bind (fun i => eventOp now x.1.timestamp i.type (dataMembers i.data))
  else none

def portfolioEntries (h : History F) : List (JournalEntry F × Record F) :=
  (h.writer.journal.entries.zip h.records).filter (fun x => x.1.type = .portfolioChange)

def InWindow (first now : Timestamp) (entry : JournalEntry F) : Prop :=
  first ≤ entry.timestamp ∧ entry.timestamp ≤ now

instance (first now : Timestamp) (entry : JournalEntry F) : Decidable (InWindow first now entry) :=
  inferInstanceAs (Decidable (_ ∧ _))

def replayedOp (first now : Timestamp) (entry : JournalEntry F) : Option (PortfolioOp F) :=
  if InWindow first now entry then appliedOp now entry else none

/-- Entry by entry the replay applies what was committed and nothing else. -/
def ReplayExact (first now : Timestamp) (h : History F) : Prop :=
  (portfolioEntries h).map (fun x => replayedOp first now x.1) =
    (portfolioEntries h).map (committedEvent now h.records)

/-- A commit that stands for something is stamped in the window, its data has room for the
envelope and the members the reader asks for in the kinds it expects; a rollback in the window
forges no event. -/
def Readable (first now : Timestamp) (x : JournalEntry F × Record F) : Prop :=
  match x.2.kind with
  | .commit =>
      eventOp now x.1.timestamp x.2.type (dataMembers x.2.data) = none ∨
        InWindow first now x.1 ∧ (Value.object (dataMembers x.2.data)).depth < maxDepth ∧
          legible x.2.type (dataMembers x.2.data) = true
  | .rollback reason => InWindow first now x.1 → ¬ Forged (F := F) x.2.seq x.2.type reason
  | _ => True

variable (h : History F)

/-- No two intents of a history share their key, so an outcome finds its own. -/
theorem intentOf_outcome (hj : Journalled h)
    (r : Record F) (hr : r ∈ h.records) (ho : isOutcome r = true) :
    ∃ i ∈ h.records, isIntent i = true ∧ intentOf h.records r = some i ∧ i.type = r.type ∧
      i.data = r.data := by
  obtain ⟨i, hi, hk, hkey, ht, hd⟩ := hj.answers r hr ho
  obtain ⟨j, hf⟩ : ∃ j, intentOf h.records r = some j := by
    rw [← Option.isSome_iff_exists, intentOf, List.find?_isSome]
    exact ⟨i, hi, by simp [hk, hkey]⟩
  have hjm : j ∈ h.records := List.mem_of_find?_eq_some hf
  have hjp := List.find?_some hf
  rw [Bool.and_eq_true, decide_eq_true_eq] at hjp
  have hji : j = i := List.inj_on_of_nodup_map hj.intents
    (List.mem_filter.mpr ⟨hjm, hjp.1⟩) (List.mem_filter.mpr ⟨hi, hk⟩) (hjp.2.trans hkey.symm)
  exact ⟨j, hjm, hjp.1, hf, by rw [hji, ht], by rw [hji, hd]⟩

theorem entry_logged
    (hj : Journalled h) (x : JournalEntry F × Record F) (hx : x ∈ portfolioEntries h) :
    Logged x.1 x.2 ∧ x.2 ∈ h.records ∧ isEvent x.2.type = true := by
  obtain ⟨hz, ht⟩ := List.mem_filter.mp hx
  have hl : Logged x.1 x.2 := (List.forall₂_iff_zip.mp hj.logged).2 hz
  rw [decide_eq_true_eq] at ht
  refine ⟨hl, (List.of_mem_zip hz).2, ?_⟩
  rw [isEvent, ← hl.2, ht]
  rfl

/-- One entry: the replay applies what the entry stands for exactly where the
entry is readable. -/
theorem entry_exact_iff (first now : Timestamp) (h : History F)
    (hj : Journalled h) (x : JournalEntry F × Record F) (hx : x ∈ portfolioEntries h) :
    replayedOp first now x.1 = committedEvent now h.records x ↔ Readable first now x := by
  obtain ⟨⟨htext, -⟩, hr, hev⟩ := entry_logged h hj x hx
  obtain ⟨e, ⟨session, seq, type, kind, data⟩⟩ := x
  have hpayload : ∀ i ∈ h.records, isIntent i = true → i.type = type → i.data = data →
      EventPayload data := by
    rintro i hi hk rfl rfl
    exact hj.payloads i hi hk hev
  cases kind with
  | intent =>
    obtain ⟨ms, hms, hd⟩ := hpayload _ hr rfl rfl rfl
    have happ := appliedOp_wrap now e seq type false data ms htext hms hev hd
    simp [replayedOp, happ, committedEvent, Readable]
  | commit =>
    obtain ⟨i, hi, hk, hf, hit, hid⟩ := intentOf_outcome h hj _ hr rfl
    obtain ⟨ms, hms, hd⟩ := hpayload i hi hk hit hid
    have hdm : dataMembers data = ms := by simp [dataMembers, hms, Value.asObject]
    have happ := appliedOp_wrap now e seq type true data ms htext hms hev hd
    have hcom : committedEvent now h.records (e, ⟨session, seq, type, .commit, data⟩) =
        eventOp now e.timestamp type ms := by
      rw [committedEvent, if_pos rfl, hf, Option.bind_some, hit, hid, hdm]
    rw [hcom, replayedOp, happ, ← ite_and]
    simp only [true_and, Readable, hdm]
    by_cases hc : InWindow first now e ∧ (Value.object ms).depth < maxDepth ∧
        legible type ms = true
    · simp [hc]
    · rw [if_neg hc]
      simp only [hc, or_false]
      exact eq_comm
  | rollback reason =>
    have happ := appliedOp_rollback_iff now e seq type reason htext
    simp only [replayedOp, committedEvent, Readable, reduceCtorEq, if_false]
    split_ifs with hwindow <;> simp [hwindow, happ]
  | checkpoint =>
    have ht := hj.checkpoints _ hr rfl
    simp only at ht
    subst ht
    exact absurd hev (by simp [isEvent, journalTypeFor])

theorem replay_run (now : Timestamp) (entries : List (JournalEntry F)) (s : Replay F) :
    (entries.foldl (replayStep now) s).service.portfolio =
      Runs.run portfolioStep s.service.portfolio (entries.filterMap (appliedOp now)) := by
  induction entries generalizing s with
  | nil => rfl
  | cons e entries ih =>
    rw [List.foldl_cons, ih]
    rcases he : replayEntry now e with _ | ⟨_ | _⟩ | ⟨_ | op, b⟩ <;>
      simp [replayStep, appliedOp, he, opOf, Recovery.warn, Runs.run]

theorem portfolioEntries_query (first now : Timestamp) (hj : Journalled h) :
    query h.writer.journal first now (some .portfolioChange) true =
      .ok (((portfolioEntries h).map Prod.fst).filter (fun e => InWindow first now e)) := by
  have hfst : (h.writer.journal.entries.zip h.records).map Prod.fst = h.writer.journal.entries :=
    List.map_fst_zip hj.logged.length_eq.le
  have hfilter : (portfolioEntries h).map Prod.fst =
      h.writer.journal.entries.filter (fun e => decide (e.type = .portfolioChange)) := by
    rw [portfolioEntries]
    conv_rhs => rw [← hfst, List.filter_map]
    rfl
  rw [query, if_pos rfl, hfilter, List.filter_filter]
  congr 1
  apply List.filter_congr
  intro e _
  by_cases hw : InWindow first now e
  · simp [hw, hw.1, hw.2]
  · simp only [InWindow, not_and_or] at hw
    rcases hw with hw | hw <;> simp [InWindow, hw]

def committedOps (now : Timestamp) (h : History F) : List (PortfolioOp F) :=
  (portfolioEntries h).filterMap (committedEvent now h.records)

def replayHistory (first now : Timestamp) (h : History F) (s : Recovery F) : Recovery F :=
  (replayJournalAfterSnapshot ⟨true, h.writer.journal, none, true⟩ now s first).1

theorem replayHistory_run (first now : Timestamp) (h : History F) (hj : Journalled h)
    (s : Recovery F) :
    (replayHistory first now h s).portfolio =
      Runs.run portfolioStep s.portfolio
        ((portfolioEntries h).filterMap (fun x => replayedOp first now x.1)) := by
  have hq := portfolioEntries_query h first now hj
  simp only [replayHistory, replayJournalAfterSnapshot, Bool.not_true, Bool.false_eq_true,
    if_false, hq, Recovery.say, Recovery.warn, replay_run, List.filterMap_filter,
    List.filterMap_map]
  congr 2
  funext x
  simp [replayedOp]

theorem filterMap_of_map {α β : Type} (l : List α) (f g : α → Option β)
    (h : l.map f = l.map g) : l.filterMap f = l.filterMap g := by
  rw [List.map_inj_left] at h
  exact List.filterMap_congr h

/-- For every history of the log writer after the snapshot and every reading of the clock: no
intent is answered twice; the replay runs the operations it applies; these are, entry by entry,
the events that were committed if and only if every commit and rollback is readable; and then
the portfolio changes exactly as the committed events change it. -/
theorem replay_exact_iff (ops : List (WalOp F)) (first now : Timestamp)
    (hw : ∀ op ∈ ops, EventCall op) :
    ((((history ops).records.filter isOutcome).map recordKey).Nodup) ∧
    (∀ s, (replayHistory first now (history ops) s).portfolio =
      Runs.run portfolioStep s.portfolio
        ((portfolioEntries (history ops)).filterMap (fun x => replayedOp first now x.1))) ∧
    (ReplayExact first now (history ops) ↔
      ∀ x ∈ portfolioEntries (history ops), Readable first now x) ∧
    ((∀ x ∈ portfolioEntries (history ops), Readable first now x) →
      ∀ s, (replayHistory first now (history ops) s).portfolio =
        Runs.run portfolioStep s.portfolio (committedOps now (history ops))) ∧
    ∀ seq wt reason, literal F reason = true → ¬ Forged (F := F) seq wt reason := by
  have hj := history_journalled ops hw
  have hiff : ReplayExact first now (history ops) ↔
      ∀ x ∈ portfolioEntries (history ops), Readable first now x := by
    rw [ReplayExact, List.map_inj_left]
    constructor
    · intro h x hx
      exact (entry_exact_iff first now _ hj x hx).mp (h x hx)
    · intro h x hx
      exact (entry_exact_iff first now _ hj x hx).mpr (h x hx)
  refine ⟨hj.outcomes, replayHistory_run first now _ hj, hiff, ?_, literal_not_forged⟩
  intro hread s
  rw [replayHistory_run first now _ hj, committedOps,
    filterMap_of_map _ _ _ (hiff.mpr hread)]

end Exactness

section Integral

def wholeMembers : Members ℚ :=
  [("symbol", .string "BTCUSDT"), ("side", .string "Buy"), ("amount", .int 100),
    ("price", .double 1), ("pnl", .double 0)]

def wholeBalance : Text ℚ := render (.object wholeMembers)

theorem wholeBalance_payload : EventPayload wholeBalance := by
  refine ⟨wholeMembers, ?_, ?_⟩
  · apply parse_render
    · simp [wholeMembers, Value.Printable, MembersPrintable, InRange]
    · decide
  · exact ⟨⟨"BTCUSDT", by simp [wholeMembers]⟩, ⟨"Buy", by simp [wholeMembers]⟩,
      ⟨.int 100, _, by simp [wholeMembers], rfl⟩, ⟨.double 1, _, by simp [wholeMembers], rfl⟩,
      ⟨.double 0, _, by simp [wholeMembers], rfl⟩⟩

def syncedBalance : List (WalOp ℚ) :=
  [.writeIntent ⟨1, 1, 1⟩ .balanceSync wholeBalance "" "BTCUSDT" "" "" true,
    .commit ⟨2, 2, 2⟩ 1 true]

theorem syncedBalance_calls : ∀ op ∈ syncedBalance, EventCall op := by
  intro op ho
  simp only [syncedBalance, List.mem_cons, List.not_mem_nil, or_false] at ho
  rcases ho with rfl | rfl
  · exact fun _ => wholeBalance_payload
  · trivial

def emptyBooks : Recovery ℚ := ⟨initPortfolio 0, newResult .inProgress⟩

/-- The committed balance is lost: its amount is no double. -/
theorem whole_amount_lost :
    ¬ ∀ (ops : List (WalOp ℚ)) (first now : Timestamp), (∀ op ∈ ops, EventCall op) →
      ∀ s, (replayHistory first now (history ops) s).portfolio =
        Runs.run portfolioStep s.portfolio (committedOps now (history ops)) := by
  intro h
  have hs := congrArg Portfolio.totalCapital (h syncedBalance 0 9 syncedBalance_calls emptyBooks)
  have h0 : (replayHistory 0 9 (history syncedBalance) emptyBooks).portfolio.totalCapital = 0 := by
    decide +kernel
  have h1 : (Runs.run portfolioStep emptyBooks.portfolio
      (committedOps 9 (history syncedBalance))).totalCapital = 100 := by
    decide +kernel
  rw [h0, h1] at hs
  exact absurd hs (by decide)

theorem replay_exact_iff_whole :
    ((((history syncedBalance).records.filter isOutcome).map recordKey).Nodup) ∧
    (∀ s, (replayHistory 0 9 (history syncedBalance) s).portfolio =
      Runs.run portfolioStep s.portfolio
        ((portfolioEntries (history syncedBalance)).filterMap (fun x => replayedOp 0 9 x.1))) ∧
    (ReplayExact 0 9 (history syncedBalance) ↔
      ∀ x ∈ portfolioEntries (history syncedBalance), Readable 0 9 x) ∧
    ((∀ x ∈ portfolioEntries (history syncedBalance), Readable 0 9 x) →
      ∀ s, (replayHistory 0 9 (history syncedBalance) s).portfolio =
        Runs.run portfolioStep s.portfolio (committedOps 9 (history syncedBalance))) ∧
    ∀ seq wt reason, literal ℚ reason = true → ¬ Forged (F := ℚ) seq wt reason :=
  replay_exact_iff syncedBalance 0 9 syncedBalance_calls

end Integral

end TB.JournalReplay
