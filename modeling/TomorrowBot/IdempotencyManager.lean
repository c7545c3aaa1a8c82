import TomorrowBot.CommonTypes
import TomorrowBot.Runs

/-!
# The client ids that were sent

An id is remembered with the reading of the clock at which it was first marked,
and forgotten by a cleanup once that reading is out of the window. Marking an
id that is remembered does not move its reading, so an id that is sent again
near the end of its window is forgotten too early. Readings are whole
milliseconds.
-/

set_option autoImplicit false

namespace TB.Idempotency
open TB.CommonTypes

section Model

structure IdempotencyConfig where
  dedupWindowMs : ℤ

structure IdempotencyManager where
  sentIds : Dict ℤ

def newManager : IdempotencyManager := ⟨∅⟩

def nowMs (now : Timestamp) : ℤ := now.tdiv 1000000

def isDuplicate (m : IdempotencyManager) (clientOrderId : String) : Bool :=
  decide (clientOrderId ∈ m.sentIds)

def markSent (now : Timestamp) (m : IdempotencyManager) (clientOrderId : String) :
    IdempotencyManager :=
  if clientOrderId ∈ m.sentIds then m else ⟨m.sentIds.insert clientOrderId (nowMs now)⟩

def cutoff (cfg : IdempotencyConfig) (now : Timestamp) : ℤ := nowMs now - cfg.dedupWindowMs

def cleanupExpired (cfg : IdempotencyConfig) (now : Timestamp) (m : IdempotencyManager) :
    IdempotencyManager :=
  ⟨Keyed.purge (fun t => t < cutoff cfg now) m.sentIds⟩

inductive IdempotencyOp where
  | markSent (now : Timestamp) (clientOrderId : String)
  | isDuplicate (now : Timestamp) (clientOrderId : String)
  | cleanupExpired (now : Timestamp)

def IdempotencyOp.at : IdempotencyOp → Timestamp
  | .markSent now _ | .isDuplicate now _ | .cleanupExpired now => now

def idempotencyStep (cfg : IdempotencyConfig) (m : IdempotencyManager) :
    IdempotencyOp → IdempotencyManager
  | .markSent now id => markSent now m id
  | .isDuplicate _ _ => m
  | .cleanupExpired now => cleanupExpired cfg now m

end Model

section History

def markOf (id : String) : IdempotencyOp → Option ℤ
  | .markSent now sent => if sent = id then some (nowMs now) else none
  | _ => none

def marksOf (ops : List IdempotencyOp) (id : String) : List ℤ := ops.filterMap (markOf id)

structure Sending where
  manager : IdempotencyManager
  calls : List IdempotencyOp

def start : Sending := ⟨newManager, []⟩

def sendingStep (cfg : IdempotencyConfig) (s : Sending) (op : IdempotencyOp) : Sending :=
  ⟨idempotencyStep cfg s.manager op, s.calls ++ [op]⟩

structure KnownInWindow (cfg : IdempotencyConfig) (s : Sending) : Prop where
  known : ∀ id now, (∀ op ∈ s.calls, op.at ≤ now) →
    (∃ t ∈ marksOf s.calls id, nowMs now - t ≤ cfg.dedupWindowMs) →
    isDuplicate s.manager id = true
  forgotten : ∀ now, s.calls.getLast? = some (.cleanupExpired now) → ∀ id,
    (∀ t ∈ marksOf s.calls id, cfg.dedupWindowMs < nowMs now - t) →
    isDuplicate s.manager id = false

/-- A cleanup finds no id whose stored reading is out of the window although the
id was marked again within it. -/
def NotRemarked (cfg : IdempotencyConfig) (s : Sending) : IdempotencyOp → Prop
  | .cleanupExpired now => ∀ id stored, s.manager.sentIds.lookup id = some stored →
      stored < cutoff cfg now → ∀ t ∈ marksOf s.calls id, t < cutoff cfg now
  | _ => True

def Later (s : Sending) (op : IdempotencyOp) : Prop := ∀ o ∈ s.calls, o.at ≤ op.at

def StoredMarks (s : Sending) : Prop :=
  ∀ id stored, s.manager.sentIds.lookup id = some stored → stored ∈ marksOf s.calls id

end History

section Steps
variable {cfg : IdempotencyConfig} {s : Sending}

theorem nowMs_mono {t u : Timestamp} (h : t ≤ u) : nowMs t ≤ nowMs u :=
  Int.tdiv_le_tdiv (by decide) h

theorem isDuplicate_iff (m : IdempotencyManager) (id : String) :
    isDuplicate m id = true ↔ ∃ t, m.sentIds.lookup id = some t := by
  rw [isDuplicate, decide_eq_true_eq, Keyed.mem_iff_lookup]

theorem marksOf_snoc (calls : List IdempotencyOp) (op : IdempotencyOp) (id : String) :
    marksOf (calls ++ [op]) id = marksOf calls id ++ (markOf id op).toList := by
  rw [marksOf, List.filterMap_append]
  rfl

variable (now : Timestamp)

theorem markSent_lookup (m : IdempotencyManager) (sent id : String) :
    (markSent now m sent).sentIds.lookup id =
      if sent = id then (m.sentIds.lookup id).or (some (nowMs now)) else m.sentIds.lookup id := by
  unfold markSent
  by_cases hsent : sent = id
  · subst hsent
    rw [if_pos rfl]
    split_ifs with hmem
    · obtain ⟨t, ht⟩ := (Keyed.mem_iff_lookup _ _).mp hmem
      rw [ht]
      rfl
    · rw [AList.lookup_insert, AList.lookup_eq_none.mpr hmem]
      rfl
  · rw [if_neg hsent]
    split_ifs
    · rfl
    · exact AList.lookup_insert_ne (Ne.symm hsent)

theorem cleanupExpired_lookup (m : IdempotencyManager) (id : String) (t : ℤ) :
    (cleanupExpired cfg now m).sentIds.lookup id = some t ↔
      m.sentIds.lookup id = some t ∧ cutoff cfg now ≤ t := by
  rw [cleanupExpired, Keyed.lookup_purge, Option.filter_eq_some_iff]
  simp

theorem storedMarks_step (op : IdempotencyOp) (h : StoredMarks s) :
    StoredMarks (sendingStep cfg s op) := by
  intro id stored hstored
  simp only [sendingStep, marksOf_snoc]
  cases op with
  | markSent now sent =>
    simp only [sendingStep, idempotencyStep, markSent_lookup] at hstored
    by_cases hsent : sent = id
    · simp only [hsent, if_true, Option.or_eq_some_iff] at hstored
      rcases hstored with hold | ⟨-, hnew⟩
      · exact List.mem_append_left _ (h id stored hold)
      · simp [markOf, hsent, Option.some.inj hnew]
    · rw [if_neg hsent] at hstored
      exact List.mem_append_left _ (h id stored hstored)
  | isDuplicate now asked => exact List.mem_append_left _ (h id stored hstored)
  | cleanupExpired now =>
    simp only [sendingStep, idempotencyStep, cleanupExpired_lookup] at hstored
    exact List.mem_append_left _ (h id stored hstored.1)

theorem known_mark (sent : String) (h : KnownInWindow cfg s) :
    KnownInWindow cfg (sendingStep cfg s (.markSent now sent)) := by
  constructor
  · intro id later hcalls hmark
    rw [isDuplicate_iff]
    simp only [sendingStep, idempotencyStep, markSent_lookup]
    by_cases hsent : sent = id
    · rw [if_pos hsent]
      cases s.manager.sentIds.lookup id with
      | none => exact ⟨nowMs now, rfl⟩
      | some t => exact ⟨t, rfl⟩
    · rw [if_neg hsent, ← isDuplicate_iff]
      apply h.known id later (fun op hop => hcalls op (List.mem_append_left _ hop))
      simpa [sendingStep, marksOf_snoc, markOf, hsent] using hmark
  · intro later hlast
    simp [sendingStep] at hlast

theorem known_ask (asked : String) (h : KnownInWindow cfg s) :
    KnownInWindow cfg (sendingStep cfg s (.isDuplicate now asked)) := by
  constructor
  · intro id later hcalls hmark
    apply h.known id later (fun op hop => hcalls op (List.mem_append_left _ hop))
    simpa [sendingStep, marksOf_snoc, markOf] using hmark
  · intro later hlast
    simp [sendingStep] at hlast

theorem known_cleanup_iff (hstored : StoredMarks s)
    (hlater : Later s (.cleanupExpired now)) (h : KnownInWindow cfg s) :
    KnownInWindow cfg (sendingStep cfg s (.cleanupExpired now)) ↔
      NotRemarked cfg s (.cleanupExpired now) := by
  have hmarks : ∀ id, marksOf (s.calls ++ [.cleanupExpired now]) id = marksOf s.calls id := by
    intro id
    rw [marksOf_snoc]
    exact List.append_nil _
  constructor
  · intro hafter id stored hlook hold t ht
    by_contra hrecent
    have hdup := hafter.known id now
      (by
        intro op hop
        rcases List.mem_append.mp hop with hop | hop
        · exact hlater op hop
        · rw [List.mem_singleton.mp hop]
          exact le_rfl)
      ⟨t, by simpa only [sendingStep, hmarks] using ht, by unfold cutoff at hrecent; omega⟩
    obtain ⟨u, hu⟩ := (isDuplicate_iff _ _).mp hdup
    simp only [sendingStep, idempotencyStep, cleanupExpired_lookup] at hu
    rw [hlook, Option.some.injEq] at hu
    omega
  · intro hremark
    constructor
    · rintro id later hcalls ⟨t, ht, hwindow⟩
      simp only [sendingStep, hmarks] at ht
      have hnow : nowMs now ≤ nowMs later := nowMs_mono (hcalls (.cleanupExpired now) (by
        simp [sendingStep]))
      have hbefore := h.known id now hlater ⟨t, ht, by omega⟩
      obtain ⟨stored, hlook⟩ := (isDuplicate_iff _ _).mp hbefore
      rw [isDuplicate_iff]
      refine ⟨stored, ?_⟩
      simp only [sendingStep, idempotencyStep, cleanupExpired_lookup]
      refine ⟨hlook, ?_⟩
      by_contra hold
      have hgone := hremark id stored hlook (not_le.mp hold) t ht
      unfold cutoff at hgone
      omega
    · intro later hlast id hold
      simp only [sendingStep, List.getLast?_concat, Option.some.injEq,
        IdempotencyOp.cleanupExpired.injEq] at hlast
      subst hlast
      rw [← Bool.not_eq_true, isDuplicate_iff]
      rintro ⟨t, ht⟩
      simp only [sendingStep, idempotencyStep, cleanupExpired_lookup] at ht
      have hmark := hold t (by simpa only [sendingStep, hmarks] using hstored id t ht.1)
      unfold cutoff at ht
      omega

theorem known_step_iff (op : IdempotencyOp) (hstored : StoredMarks s) (hlater : Later s op)
    (h : KnownInWindow cfg s) : KnownInWindow cfg (sendingStep cfg s op) ↔ NotRemarked cfg s op := by
  cases op with
  | markSent now sent => exact iff_of_true (known_mark now sent h) trivial
  | isDuplicate now asked => exact iff_of_true (known_ask now asked h) trivial
  | cleanupExpired now => exact known_cleanup_iff now hstored hlater h

theorem later_of_sorted (ops : List IdempotencyOp) (s : Sending)
    (hs : ∀ o ∈ s.calls, ∀ op ∈ ops, o.at ≤ op.at)
    (hsorted : ops.Pairwise (fun a b => a.at ≤ b.at)) :
    Runs.Meets (sendingStep cfg) Later s ops := by
  induction ops generalizing s with
  | nil => trivial
  | cons op ops ih =>
    obtain ⟨hop, hrest⟩ := List.pairwise_cons.mp hsorted
    refine ⟨fun o ho => hs o ho op List.mem_cons_self, ih _ ?_ hrest⟩
    intro o ho b hb
    rcases List.mem_append.mp ho with ho | ho
    · exact hs o ho b (List.mem_cons_of_mem op hb)
    · rw [List.mem_singleton.mp ho]
      exact hop b hb

end Steps

section Runs

theorem known_start (cfg : IdempotencyConfig) : KnownInWindow cfg start :=
  ⟨fun _ _ _ ⟨_, h, _⟩ => absurd h (by simp [start, marksOf]),
    fun _ h => absurd h (by simp [start])⟩

/-- Under a clock that does not go back, ids are known for their whole window in
every state of a run exactly when no cleanup of it finds an id marked again. -/
theorem known_in_window_iff (cfg : IdempotencyConfig) (ops : List IdempotencyOp)
    (hclock : ops.Pairwise (fun a b => a.at ≤ b.at)) :
    Runs.Always (sendingStep cfg) (KnownInWindow cfg) start ops ↔
      Runs.Meets (sendingStep cfg) (NotRemarked cfg) start ops := by
  apply Runs.always_iff_meets_given (sendingStep cfg) (J := StoredMarks) (D := Later)
  · exact fun s op hs _ => storedMarks_step op hs
  · exact fun s op hs hl h => known_step_iff op hs hl h
  · exact fun id stored h => absurd h (by simp [start, newManager])
  · exact known_start cfg
  · exact later_of_sorted ops start (fun o ho => absurd ho (by simp [start])) hclock

def remarked : List IdempotencyOp :=
  [.markSent 0 "tb_1", .markSent 90000000 "tb_1", .cleanupExpired 150000000]

theorem known_in_window_iff_once :
    Runs.Always (sendingStep ⟨100⟩) (KnownInWindow ⟨100⟩) start [.markSent 0 "tb_1"] ↔
      Runs.Meets (sendingStep ⟨100⟩) (NotRemarked ⟨100⟩) start [.markSent 0 "tb_1"] :=
  known_in_window_iff ⟨100⟩ [.markSent 0 "tb_1"] (by decide)

/-- Sixty milliseconds after it was marked again the id is forgotten. -/
theorem remarked_forgotten :
    ¬ KnownInWindow ⟨100⟩ (Runs.run (sendingStep ⟨100⟩) start remarked) := by
  intro h
  have hdup := h.known "tb_1" 150000000 (by decide +kernel) ⟨90, by decide +kernel, by decide⟩
  exact absurd hdup (by decide +kernel)

end Runs

section Issuing

structure Issuer where
  manager : IdempotencyManager
  sequence : UInt64

def generateClientOrderId (clientIdPrefix : String) (now : Timestamp) (symbol : Symbol)
    (side : Side) (strategyId : StrategyId) (i : Issuer) : Issuer × String :=
  ({ i with sequence := i.sequence + 1 },
    clientIdPrefix ++ "_" ++ strategyId ++ "_" ++ symbol ++ "_" ++
      (if side = .buy then "B" else "S") ++ "_" ++ toString (nowMs now) ++ "_" ++
      toString i.sequence.toNat)

inductive IssuerOp where
  | generateClientOrderId (now : Timestamp) (symbol : Symbol) (side : Side)
      (strategyId : StrategyId)
  | call (op : IdempotencyOp)

structure Issuing where
  issuer : Issuer
  issued : List String

def newIssuing : Issuing := ⟨⟨newManager, 0⟩, []⟩

def issuingStep (cfg : IdempotencyConfig) (clientIdPrefix : String) (s : Issuing) :
    IssuerOp → Issuing
  | .generateClientOrderId now symbol side strategyId =>
    let r := generateClientOrderId clientIdPrefix now symbol side strategyId s.issuer
    ⟨r.1, s.issued ++ [r.2]⟩
  | .call op => { s with issuer.manager := idempotencyStep cfg s.issuer.manager op }

def OwnMarks (s : Issuing) : IssuerOp → Prop
  | .call (.markSent _ id) => id ∈ s.issued
  | _ => True

def lastPart (id : String) : List Char := (id.toList.reverse.takeWhile (· ≠ '_')).reverse

theorem lastPart_generated (clientIdPrefix : String) (now : Timestamp) (symbol : Symbol)
    (side : Side) (strategyId : StrategyId) (i : Issuer) :
    lastPart (generateClientOrderId clientIdPrefix now symbol side strategyId i).2 =
      Nat.toDigits 10 i.sequence.toNat := by
  have hdigits : ∀ c ∈ (Nat.toDigits 10 i.sequence.toNat).reverse, decide (c ≠ '_') = true := by
    intro c hc
    have hdigit := Nat.isDigit_of_mem_toDigits (by decide) (by decide) (List.mem_reverse.mp hc)
    rw [decide_eq_true_eq]
    rintro rfl
    exact absurd hdigit (by decide)
  have hnumber : (toString i.sequence.toNat).toList = Nat.toDigits 10 i.sequence.toNat :=
    Nat.toList_repr
  simp only [lastPart, generateClientOrderId, String.toList_append, hnumber,
    List.reverse_append, List.takeWhile_append_of_pos hdigits]
  simp

theorem toDigits_injective {j k : ℕ} (h : Nat.toDigits 10 j = Nat.toDigits 10 k) : j = k := by
  have hvalue := congrArg (fun ds => Nat.ofDigitChars 10 ds 0) h
  simpa only [Nat.ofDigitChars_ten_toDigits] using hvalue

structure Numbered (s : Issuing) : Prop where
  sequence : s.issuer.sequence.toNat = s.issued.length % 2 ^ 64
  numbers : s.issued.map lastPart =
    (List.range s.issued.length).map fun k => Nat.toDigits 10 (k % 2 ^ 64)
  known : ∀ id, isDuplicate s.issuer.manager id = true → id ∈ s.issued

theorem numbered_step (cfg : IdempotencyConfig) (clientIdPrefix : String) (s : Issuing)
    (op : IssuerOp) (h : Numbered s) (hown : OwnMarks s op) :
    Numbered (issuingStep cfg clientIdPrefix s op) := by
  cases op with
  | generateClientOrderId now symbol side strategyId =>
    refine ⟨?_, ?_, fun id hid => List.mem_append_left _ (h.known id hid)⟩
    · simp only [issuingStep, generateClientOrderId, UInt64.toNat_add, h.sequence,
        List.length_append, List.length_singleton]
      exact Nat.mod_add_mod _ _ _
    · simp only [issuingStep, List.map_append, List.length_append, List.length_singleton,
        List.range_succ, h.numbers, List.map_singleton, lastPart_generated, h.sequence]
  | call op =>
    refine ⟨h.sequence, h.numbers, fun id hid => ?_⟩
    cases op with
    | isDuplicate now asked => exact h.known id hid
    | markSent now sent =>
      obtain ⟨t, ht⟩ := (isDuplicate_iff _ _).mp hid
      simp only [issuingStep, idempotencyStep, markSent_lookup] at ht
      by_cases hsent : sent = id
      · exact hsent ▸ hown
      · rw [if_neg hsent] at ht
        exact h.known id ((isDuplicate_iff _ _).mpr ⟨t, ht⟩)
    | cleanupExpired now =>
      obtain ⟨t, ht⟩ := (isDuplicate_iff _ _).mp hid
      simp only [issuingStep, idempotencyStep, cleanupExpired_lookup] at ht
      exact h.known id ((isDuplicate_iff _ _).mpr ⟨t, ht.1⟩)

/-- As long as fewer than 2^64 ids were handed out they are pairwise different, and the
next one, for any order at any reading of the clock, is none of them and not known. -/
theorem issued_fresh (cfg : IdempotencyConfig) (clientIdPrefix : String) (ops : List IssuerOp)
    (hown : Runs.Meets (issuingStep cfg clientIdPrefix) OwnMarks newIssuing ops)
    (hfew : (Runs.run (issuingStep cfg clientIdPrefix) newIssuing ops).issued.length < 2 ^ 64) :
    let s := Runs.run (issuingStep cfg clientIdPrefix) newIssuing ops
    s.issued.Nodup ∧ ∀ now symbol side strategyId,
      let id := (generateClientOrderId clientIdPrefix now symbol side strategyId s.issuer).2
      id ∉ s.issued ∧ isDuplicate s.issuer.manager id = false := by
  intro s
  have h : Numbered s := Runs.invariant_run (issuingStep cfg clientIdPrefix)
    (fun s op hs hop => numbered_step cfg clientIdPrefix s op hs hop) newIssuing ops
    ⟨rfl, rfl, fun id hid => absurd hid (by simp [newIssuing, newManager, isDuplicate])⟩ hown
  have hnumber : ∀ k < s.issued.length, k % 2 ^ 64 = k :=
    fun k hk => Nat.mod_eq_of_lt (hk.trans hfew)
  constructor
  · apply List.Nodup.of_map lastPart
    rw [h.numbers]
    refine List.Nodup.map_on ?_ List.nodup_range
    intro j hj k hk hjk
    rw [hnumber j (List.mem_range.mp hj), hnumber k (List.mem_range.mp hk)] at hjk
    exact toDigits_injective hjk
  · intro now symbol side strategyId id
    have hnew : id ∉ s.issued := by
      intro hold
      have hpart : lastPart id ∈ s.issued.map lastPart := List.mem_map_of_mem hold
      rw [h.numbers, lastPart_generated, h.sequence, Nat.mod_eq_of_lt hfew] at hpart
      obtain ⟨k, hk, hkey⟩ := List.mem_map.mp hpart
      have hlt := List.mem_range.mp hk
      rw [hnumber k hlt] at hkey
      exact absurd (toDigits_injective hkey) (Nat.ne_of_lt hlt)
    exact ⟨hnew, Bool.eq_false_iff.mpr fun hdup => hnew (h.known id hdup)⟩

def sentOnce : List IssuerOp :=
  [.generateClientOrderId 0 "BTCUSDT" .buy "scalp", .call (.markSent 0 "tb_scalp_BTCUSDT_B_0_0")]

theorem issued_fresh_once :
    let s := Runs.run (issuingStep ⟨100⟩ "tb") newIssuing sentOnce
    s.issued = ["tb_scalp_BTCUSDT_B_0_0"] ∧ isDuplicate s.issuer.manager
      (generateClientOrderId "tb" 0 "BTCUSDT" .buy "scalp" s.issuer).2 = false :=
  ⟨by decide +kernel, ((issued_fresh ⟨100⟩ "tb" sentOnce
    ⟨trivial, by unfold OwnMarks; decide +kernel, trivial⟩ (by decide +kernel)).2
      0 "BTCUSDT" .buy "scalp").2⟩

end Issuing

end TB.Idempotency
