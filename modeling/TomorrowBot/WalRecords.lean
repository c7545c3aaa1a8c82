import TomorrowBot.WalWriter

/-!
# What a record of the log reads as

A record is the text one call left in the journal. Read back, it is the
envelope the writer meant, unless its sequence number leaves the signed
range, its data is nested too deeply for the envelope, or the reason of a
rollback is not the inside of a string literal.
-/

set_option autoImplicit false

namespace TB.WalRecords
open TB.CommonTypes TB.WalWriter JsonText

inductive Kind where
  | intent
  | commit
  | rollback (reason : String)
  | checkpoint
  deriving DecidableEq

structure Record (F : Type) where
  session : ℕ
  seq : ℕ
  type : WalEntryType
  kind : Kind
  data : Text F
  deriving DecidableEq

variable {F : Type}

def recordText (r : Record F) : Text F :=
  match r.kind with
  | .intent => wrapWalJson r.seq r.type false r.data
  | .commit => wrapWalJson r.seq r.type true r.data
  | .rollback reason => rollbackJson r.seq r.type reason
  | .checkpoint => wrapWalJson r.seq r.type true r.data

def isIntent (r : Record F) : Bool := r.kind = .intent

def isOutcome (r : Record F) : Bool :=
  match r.kind with
  | .commit | .rollback _ => true
  | _ => false

section Envelope
variable [OfScientific F] [Neg F]

def envelope (seq : ℕ) (type : WalEntryType) (committed : Bool) (data : Value F) : Members F :=
  [("wal_seq", natValue seq), ("wal_type", .string type.toString),
    ("committed", .bool committed), ("data", data)]

def rollbackEnvelope (seq : ℕ) (type : WalEntryType) (reason : String) : Members F :=
  [("wal_seq", natValue seq), ("wal_type", .string type.toString), ("rollback", .bool true),
    ("reason", .string reason)]

omit [OfScientific F] [Neg F] in
theorem quoted_type (type : WalEntryType) :
    (quoted type.toString : Text F) = .char '"' :: text type.toString ++ [.char '"'] := by
  apply quoted_plain
  cases type <;> decide +kernel

variable (seq : ℕ) (type : WalEntryType) (committed : Bool)

omit [OfScientific F] [Neg F] in
theorem wrap_object (data : Text F) : wrapWalJson seq type committed data = objectText
      [("wal_seq", natText seq), ("wal_type", quoted type.toString),
        ("committed", text (if committed then "true" else "false")), ("data", data)] := by
  rw [quoted_type]
  simp [wrapWalJson, objectText, membersText, memberText, quoted, text, chars, escapeChar]

variable (reason : String)

omit [OfScientific F] [Neg F] in
theorem rollback_object : (rollbackJson seq type reason : Text F) = objectText
      [("wal_seq", natText seq), ("wal_type", quoted type.toString), ("rollback", text "true"),
        ("reason", .char '"' :: text reason ++ [.char '"'])] := by
  rw [quoted_type]
  simp [rollbackJson, objectText, membersText, memberText, quoted, text, chars, escapeChar]

theorem wrap_reads (data : Text F) (v : Value F) (h : Reads data v) :
    Reads (wrapWalJson seq type committed data) (.object (envelope seq type committed v)) := by
  rw [wrap_object]
  apply reads_object
  apply readMembers_cons _ _ _ _ _ (reads_natText seq)
  apply readMembers_cons _ _ _ _ _ (reads_quoted type.toString)
  apply readMembers_cons _ _ _ _ _ (reads_bool committed)
  exact readMembers_cons _ _ _ _ _ h readMembers_nil

theorem rollback_reads (h : literal F reason = true) :
    ∃ s, Reads (rollbackJson seq type reason : Text F)
      (.object (rollbackEnvelope seq type s)) := by
  obtain ⟨s, hs⟩ := reads_literal reason h
  refine ⟨s, ?_⟩
  rw [rollback_object]
  apply reads_object
  apply readMembers_cons _ _ _ _ _ (reads_natText seq)
  apply readMembers_cons _ _ _ _ _ (reads_quoted type.toString)
  apply readMembers_cons _ _ _ _ _ (reads_bool true)
  exact readMembers_cons _ _ _ _ _ hs readMembers_nil

/-- The writer's own members come first in the record of a rollback, whatever its reason. -/
theorem rollback_begins (obj : Members F)
    (h : parse (rollbackJson seq type reason : Text F) = some (.object obj)) :
    ∃ rest, obj = ("wal_seq", natValue seq) :: ("wal_type", .string type.toString) ::
      ("rollback", .bool true) :: rest := by
  let tail : Text F := memberText "reason" (.char '"' :: text reason ++ [.char '"']) ++ [.char '}']
  let later : Text F := memberText "wal_type" (quoted type.toString) ++ .char ',' ::
    (memberText "rollback" (text "true") ++ .char ',' :: tail)
  have htext : rollbackJson seq type reason =
      .char '{' :: (memberText "wal_seq" (natText seq) ++ .char ',' :: later) := by
    rw [rollback_object]
    simp [objectText, membersText, later, tail]
  have hbegin : expect '}' (memberText "wal_seq" (natText seq) ++ .char ',' :: later) = none := by
    simp [memberText, quoted, expect, skipBlanks, isBlank]
  have htrue : Reads (text "true" : Text F) (.bool true) := reads_bool true
  have hb : isBlank '{' = false := by decide
  simp only [parse, Option.bind_eq_bind, Option.bind_eq_some_iff] at h
  obtain ⟨⟨v, r⟩, hv, hx⟩ := h
  split_ifs at hx
  rw [Option.some.injEq] at hx
  dsimp only at hx
  subst hx
  simp only [htext, List.length_cons, parseValue, skipBlanks, hb, Bool.false_eq_true, if_false,
    hbegin] at hv
  obtain ⟨x, hparse, hobj⟩ := Option.map_eq_some_iff.mp hv
  simp only [Prod.mk.injEq, Value.object.injEq] at hobj
  obtain ⟨rfl, -⟩ := hobj
  have hlater : later.length = (memberText "wal_type" (quoted type.toString) : Text F).length +
      ((memberText "rollback" (text "true") : Text F).length + (tail.length + 1) + 1) := by
    simp [later]
  obtain ⟨y, hy, rfl⟩ := members_begin_with _ _ _ _ _ _ (reads_natText seq)
    (by simp only [List.length_append, List.length_cons]; omega) hparse
  obtain ⟨z, hz, rfl⟩ := members_begin_with _ _ _ _ _ _ (reads_quoted type.toString)
    (by simp only [List.length_append, List.length_cons]; omega) hy
  obtain ⟨w, -, rfl⟩ := members_begin_with _ _ _ _ _ _ htrue
    (by simp only [List.length_append, List.length_cons]; omega) hz
  exact ⟨w.1, rfl⟩

variable (v : Value F)

theorem envelope_seq : find (envelope seq type committed v) "wal_seq" = some (natValue seq) := by
  simp [envelope]

theorem envelope_type :
    find (envelope seq type committed v) "wal_type" = some (.string type.toString) := by
  simp [envelope]

theorem envelope_committed :
    readFlag (envelope seq type committed v) "committed" = some committed := by
  simp [envelope, readFlag, Value.asBool]

theorem envelope_rollback : readFlag (envelope seq type committed v) "rollback" = some false := by
  simp [envelope, readFlag]

theorem envelope_depth : (Value.object (envelope seq type committed v)).depth = v.depth + 1 := by
  simp [envelope, Value.depth, membersDepth, natValue_depth]

theorem rollbackEnvelope_depth :
    (Value.object (rollbackEnvelope seq type reason : Members F)).depth ≤ maxDepth := by
  simp [rollbackEnvelope, Value.depth, membersDepth, natValue_depth, maxDepth]

theorem parse_wrap (data : Text F) (ms : Members F) (h : parse data = some (.object ms)) :
    parse (wrapWalJson seq type committed data) =
      if (Value.object ms).depth < maxDepth then
        some (.object (envelope seq type committed (.object ms)))
      else none := by
  have hr := wrap_reads seq type committed data _ (reads_object_of_parse data ms h)
  have hd := envelope_depth seq type committed (Value.object ms)
  by_cases hm : (Value.object ms).depth < maxDepth
  · rw [if_pos hm]
    exact parse_of_reads _ _ hr (by omega)
  · rw [if_neg hm]
    exact parse_too_deep _ _ hr (by omega)

omit [OfScientific F] [Neg F] in
theorem wrap_isEmpty (data : Text F) : (wrapWalJson seq type committed data).isEmpty = false := by
  simp [wrapWalJson, text, chars]

omit [OfScientific F] [Neg F] in
theorem rollback_isEmpty : (rollbackJson seq type reason : Text F).isEmpty = false := by
  simp [rollbackJson, text, chars]

theorem toUnsigned_nat (n : ℕ) (h : Signed n) : toUnsigned n = n := by
  unfold toUnsigned
  unfold Signed at h
  omega

theorem resolvedSeq_broken (payload : Text F) (he : payload.isEmpty = false)
    (hp : parse payload = none) : resolvedSeq payload = none := by
  simp [resolvedSeq, he, hp]

theorem resolvedSeq_object (payload : Text F) (obj : Members F) (n : ℕ) (c r : Bool)
    (he : payload.isEmpty = false) (hp : parse payload = some (.object obj))
    (hn : find obj "wal_seq" = some (natValue n)) (hc : readFlag obj "committed" = some c)
    (hr : readFlag obj "rollback" = some r) :
    resolvedSeq payload =
      if Signed n then some (if c || r then some n else none) else none := by
  simp only [resolvedSeq, he, hp, Bool.false_eq_true, if_false, Option.bind_eq_bind,
    Option.bind_some, Value.asObject, hn, natValue_asInt64]
  by_cases hs : Signed n
  · simp only [if_pos hs, Option.bind_some, hc, hr, toUnsigned_nat n hs]
  · simp only [if_neg hs, Option.bind_none]

variable (resolved : List ℕ)

theorem openIntent_object (payload : Text F) (obj : Members F) (n : ℕ)
    (v : Value F) (c r : Bool) (he : payload.isEmpty = false)
    (hp : parse payload = some (.object obj)) (hs : Signed n)
    (hn : find obj "wal_seq" = some (natValue n)) (ht : find obj "wal_type" = some v)
    (hc : readFlag obj "committed" = some c) (hr : readFlag obj "rollback" = some r) :
    openIntent resolved payload =
      if !c && !r && !resolved.contains n then
        (dataNames obj).map (fun names => some
          { walSequence := n
            type := none
            payloadJson := payload
            correlationId := ""
            orderId := names.2
            symbol := names.1
            strategyId := ""
            writtenAt := 0
            committed := false })
      else some none := by
  simp only [openIntent, he, hp, Bool.false_eq_true, if_false, Option.bind_eq_bind,
    Option.bind_some, Value.asObject, hn, ht, natValue_asInt64, if_pos hs, hc, hr,
    toUnsigned_nat n hs]
  split_ifs
  · cases dataNames obj <;> rfl
  · rfl

theorem resolvedSeq_wrap (data : Text F) (ms : Members F) (h : parse data = some (.object ms)) :
    resolvedSeq (wrapWalJson seq type committed data) =
      if Signed seq ∧ (Value.object ms).depth < maxDepth then
        some (if committed then some seq else none)
      else none := by
  have he := wrap_isEmpty seq type committed data
  have hp := parse_wrap seq type committed data ms h
  by_cases hd : (Value.object ms).depth < maxDepth
  · rw [if_pos hd] at hp
    rw [resolvedSeq_object _ _ seq committed false he hp (envelope_seq ..)
      (envelope_committed ..) (envelope_rollback ..), Bool.or_false]
    simp only [hd, and_true]
  · rw [if_neg hd] at hp
    rw [resolvedSeq_broken _ he hp, if_neg (fun h => hd h.2)]

/-- The reason stays inside its string literal or breaks the record; it adds
no member of its own to it. -/
def Contained (F : Type) [OfScientific F] [Neg F] (reason : String) : Prop :=
  literal F reason = true ∨
    ∀ (seq : ℕ) (type : WalEntryType), parse (rollbackJson seq type reason : Text F) = none

theorem parse_rollback (h : literal F reason = true) :
    ∃ s, parse (rollbackJson seq type reason : Text F) =
      some (.object (rollbackEnvelope seq type s)) := by
  obtain ⟨s, hs⟩ := rollback_reads (F := F) seq type reason h
  exact ⟨s, parse_of_reads _ _ hs (rollbackEnvelope_depth seq type s)⟩

theorem rollback_seq :
    find (rollbackEnvelope seq type reason : Members F) "wal_seq" = some (natValue seq) := by
  simp [rollbackEnvelope]

theorem rollback_type : find (rollbackEnvelope seq type reason : Members F) "wal_type" =
      some (.string type.toString) := by
  simp [rollbackEnvelope]

theorem rollback_committed :
    readFlag (rollbackEnvelope seq type reason : Members F) "committed" = some false := by
  simp [rollbackEnvelope, readFlag]

theorem rollback_rollback :
    readFlag (rollbackEnvelope seq type reason : Members F) "rollback" = some true := by
  simp [rollbackEnvelope, readFlag, Value.asBool]

theorem resolvedSeq_rollback (h : Contained F reason) :
    resolvedSeq (rollbackJson seq type reason : Text F) =
      if Signed seq ∧ literal F reason = true then some (some seq) else none := by
  have he := rollback_isEmpty (F := F) seq type reason
  by_cases hl : literal F reason = true
  · obtain ⟨s, hs⟩ := parse_rollback seq type reason hl
    rw [resolvedSeq_object _ _ seq false true he hs (rollback_seq seq type s)
      (rollback_committed seq type s) (rollback_rollback seq type s)]
    simp [hl]
  · rw [resolvedSeq_broken _ he (h.resolve_left hl seq type), if_neg (fun h => hl h.2)]

def dataMembers (t : Text F) : Members F := ((parse t).bind Value.asObject).getD []

def WellFormed (r : Record F) : Prop :=
  match r.kind with
  | .rollback reason => Contained F reason
  | _ => ∃ ms, parse r.data = some (.object ms)

def readable (r : Record F) : Bool :=
  Signed r.seq &&
    match r.kind with
    | .rollback reason => literal F reason
    | _ => (Value.object (dataMembers r.data)).depth < maxDepth

def names (r : Record F) : Option (Symbol × OrderId) := readNames (dataMembers r.data)

def report (r : Record F) : WalEntry F where
  walSequence := r.seq
  type := none
  payloadJson := recordText r
  correlationId := ""
  orderId := ((names r).getD ("", "")).2
  symbol := ((names r).getD ("", "")).1
  strategyId := ""
  writtenAt := 0
  committed := false

/-- The first scan reads a well-formed record as what it is, or not at all. -/
theorem resolvedSeq_record (r : Record F) (hw : WellFormed r) :
    resolvedSeq (recordText r) =
      if readable r then some (if isIntent r then none else some r.seq) else none := by
  obtain ⟨session, seq, type, kind, data⟩ := r
  cases kind with
  | rollback reason =>
    rw [recordText, resolvedSeq_rollback seq type reason hw]
    simp [readable, isIntent]
  | intent =>
    obtain ⟨ms, hms⟩ := hw
    rw [recordText, resolvedSeq_wrap seq type false data ms hms]
    simp [readable, isIntent, dataMembers, hms, Value.asObject]
  | commit | checkpoint =>
    obtain ⟨ms, hms⟩ := hw
    rw [recordText, resolvedSeq_wrap seq type true data ms hms]
    simp [readable, isIntent, dataMembers, hms, Value.asObject]

theorem envelope_names (ms : Members F) :
    dataNames (envelope seq type committed (.object ms)) = readNames ms := by
  simp [dataNames, envelope]

theorem openIntent_wrap (seq : ℕ) (type : WalEntryType) (committed : Bool)
    (data : Text F) (ms : Members F) (h : parse data = some (.object ms)) (hs : Signed seq)
    (hd : (Value.object ms).depth < maxDepth) :
    openIntent resolved (wrapWalJson seq type committed data) =
      if !committed && !resolved.contains seq then
        (readNames ms).map (fun names => some
          { walSequence := seq
            type := none
            payloadJson := wrapWalJson seq type committed data
            correlationId := ""
            orderId := names.2
            symbol := names.1
            strategyId := ""
            writtenAt := 0
            committed := false })
      else some none := by
  have hp := parse_wrap seq type committed data ms h
  rw [if_pos hd] at hp
  rw [openIntent_object resolved _ _ seq _ committed false (wrap_isEmpty ..) hp hs
    (envelope_seq ..) (envelope_type ..) (envelope_committed ..) (envelope_rollback ..),
    envelope_names, Bool.not_false, Bool.and_true]

/-- The second scan reports exactly the intents whose number is not resolved. -/
theorem openIntent_record (r : Record F) (hw : WellFormed r) (hr : readable r = true) :
    openIntent resolved (recordText r) =
      if isIntent r && !resolved.contains r.seq then
        (names r).map (fun _ => some (report r))
      else some none := by
  obtain ⟨session, seq, type, kind, data⟩ := r
  rw [readable, Bool.and_eq_true, decide_eq_true_eq] at hr
  obtain ⟨hs, hr⟩ := hr
  cases kind with
  | rollback reason =>
    obtain ⟨s, hp⟩ := parse_rollback (F := F) seq type reason hr
    rw [recordText, openIntent_object resolved _ _ seq _ false true (rollback_isEmpty ..) hp hs
      (rollback_seq ..) (rollback_type ..) (rollback_committed ..) (rollback_rollback ..)]
    simp [isIntent]
  | intent =>
    obtain ⟨ms, hms⟩ := hw
    have hd : dataMembers data = ms := by simp [dataMembers, hms, Value.asObject]
    simp only [hd, decide_eq_true_eq] at hr
    rw [recordText, openIntent_wrap resolved seq type false data ms hms hs hr]
    simp only [isIntent, names, hd, report, recordText]
    cases readNames ms <;> rfl
  | commit | checkpoint =>
    obtain ⟨ms, hms⟩ := hw
    have hd : dataMembers data = ms := by simp [dataMembers, hms, Value.asObject]
    simp only [hd, decide_eq_true_eq] at hr
    rw [recordText, openIntent_wrap resolved seq type true data ms hms hs hr]
    simp [isIntent]

end Envelope

end TB.WalRecords
