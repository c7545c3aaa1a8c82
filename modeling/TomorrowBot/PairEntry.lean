import TomorrowBot.PairExecutionCoordinator

/-!
# A pair that could not be entered

An accepted entry order leaves exposure until its cancellation is accepted or a
close of its whole size is. A failed entry gives the long leg up whatever the
exchange answers to the attempt to undo it, and so forgets a leg of which both
the cancellation and the close were refused.
-/

set_option autoImplicit false

namespace TB.PairEntry
open TB.CommonTypes TB.OrderTypes TB.DualLeg

section Exposure
variable {F : Type} [DoubleArith F]

omit [DoubleArith F] in
def Opened (ex : Submitter F) (sent : List (Request F)) (order : OrderRecord F) : Prop :=
  .submit order ∈ sent ∧ order.tradeSide = .opening ∧ (ex.submitOrder order).success = true

def counterOrder (order : OrderRecord F) : OrderRecord F :=
  closeOrder order.symbol order.positionSide order.originalQuantity

def Undone (ex : Submitter F) (sent : List (Request F)) (order : OrderRecord F) : Prop :=
  (.cancel (ex.submitOrder order).exchangeOrderId order.symbol ∈ sent ∧
      ex.cancelOrder (ex.submitOrder order).exchangeOrderId order.symbol = true) ∨
    .submit (counterOrder order) ∈ sent ∧ (ex.submitOrder (counterOrder order)).success = true

def Flat (ex : Submitter F) (sent : List (Request F)) : Prop :=
  ∀ order, Opened ex sent order → Undone ex sent order

def Recoverable (ex : Submitter F) (sent : List (Request F)) (c : PairExecutionCoordinator F) :
    Prop :=
  hasOrphanLeg c = true ∧ ∀ order, Opened ex sent order → ¬ Undone ex sent order →
    ∀ later : Submitter F, (later.submitOrder (counterOrder order)).success = true →
      (cleanupOrphanLeg later c).sent = [.submit (counterOrder order)]

/-- The long leg is accepted, the short leg refused, and neither the cancellation
of the long leg nor its close is accepted. -/
def Stranded (ex : Submitter F) (long short : OrderRecord F) : Prop :=
  (ex.submitOrder long).success = true ∧ (ex.submitOrder short).success = false ∧
    ex.cancelOrder (ex.submitOrder long).exchangeOrderId long.symbol = false ∧
    (ex.submitOrder (counterOrder long)).success = false

def longEntry (c : PairExecutionCoordinator F) (m : DualLegManager F) (symbol : Symbol)
    (baseSize hint : F) : OrderRecord F :=
  entryOrder m.config symbol .long (legSpec c m .long baseSize hint)

def shortEntry (c : PairExecutionCoordinator F) (m : DualLegManager F) (symbol : Symbol)
    (hedgeSize hint : F) : OrderRecord F :=
  entryOrder m.config symbol .short (legSpec c m .short hedgeSize hint)

end Exposure

section Entry
variable {F : Type} [DoubleArith F] (ex : Submitter F)

theorem unwindLong_manager (symbol : Symbol) (size : F) (id : OrderId) (m : DualLegManager F) :
    (unwindLong ex symbol size id m).manager = { m with longLeg := idleLeg } := by
  unfold unwindLong closeLeg
  dsimp only
  split_ifs <;> rfl

theorem unwindLong_sent (symbol : Symbol) (size : F) (id : OrderId) (m : DualLegManager F) :
    (unwindLong ex symbol size id m).sent = .cancel id symbol ::
      if ex.cancelOrder id symbol then [] else [.submit (closeOrder symbol .long size)] := by
  unfold unwindLong
  split_ifs
  · rfl
  · exact congrArg _ (closeLeg_sent ex symbol .long size m)

variable (now : Timestamp) (symbol : Symbol) (long short : LegSpec F) (m : DualLegManager F)

theorem enterPair_longRefused
    (hl : (ex.submitOrder (entryOrder m.config symbol .long long)).success = false) :
    (enterPair ex now symbol long short m).result.success = false ∧
      (enterPair ex now symbol long short m).manager = m ∧
      (enterPair ex now symbol long short m).sent =
        [.submit (entryOrder m.config symbol .long long)] := by
  unfold enterPair
  simp [hl]

theorem enterPair_shortRefused
    (hl : (ex.submitOrder (entryOrder m.config symbol .long long)).success = true)
    (hs : (ex.submitOrder (entryOrder m.config symbol .short short)).success = false) :
    (enterPair ex now symbol long short m).result.success = false ∧
      (enterPair ex now symbol long short m).manager = { m with longLeg := idleLeg } ∧
      (enterPair ex now symbol long short m).sent =
        [.submit (entryOrder m.config symbol .long long),
          .submit (entryOrder m.config symbol .short short)] ++
        (unwindLong ex symbol long.size
          (ex.submitOrder (entryOrder m.config symbol .long long)).exchangeOrderId m).sent := by
  unfold enterPair
  simp [hl, hs, unwindLong_manager, unwindLong_sent]

theorem enterPair_accepted
    (hl : (ex.submitOrder (entryOrder m.config symbol .long long)).success = true)
    (hs : (ex.submitOrder (entryOrder m.config symbol .short short)).success = true) :
    (enterPair ex now symbol long short m).result.success = true := by
  unfold enterPair
  simp [hl, hs]

theorem enterPair_manager
    (hl : (ex.submitOrder (entryOrder m.config symbol .long long)).success = true)
    (hs : (ex.submitOrder (entryOrder m.config symbol .short short)).success = true) :
    (enterPair ex now symbol long short m).manager = { m with
      longLeg := enteredLeg m.longLeg .long long now
        (ex.submitOrder (entryOrder m.config symbol .long long)).exchangeOrderId
      shortLeg := enteredLeg m.shortLeg .short short now
        (ex.submitOrder (entryOrder m.config symbol .short short)).exchangeOrderId } := by
  unfold enterPair
  simp [hl, hs]

end Entry

section Failure
variable {F : Type} [DoubleArith F] (ex : Submitter F) (times : EntryTimes)

theorem executePairEntry_sent (ratio : F) (symbol : Symbol)
    (baseSize hint : F) (c : PairExecutionCoordinator F) (m : DualLegManager F)
    (hm : c.dualLegMgr = some m) :
    (executePairEntry ex times ratio symbol baseSize hint c).sent =
        (enterPair ex times.entered symbol (legSpec c m .long baseSize hint)
          (legSpec c m .short (baseSize * ratio) hint) m).sent ∧
      (executePairEntry ex times ratio symbol baseSize hint c).result.success =
        (enterPair ex times.entered symbol (legSpec c m .long baseSize hint)
          (legSpec c m .short (baseSize * ratio) hint) m).result.success := by
  unfold executePairEntry
  rw [hm]
  dsimp only
  rcases (enterPair ex times.entered symbol (legSpec c m .long baseSize hint)
    (legSpec c m .short (baseSize * ratio) hint) m).result.success with _ | _
  · exact ⟨rfl, rfl⟩
  · exact ⟨rfl, rfl⟩

theorem executePairEntry_idle (ratio : F)
    (symbol : Symbol) (baseSize hint : F) (c : PairExecutionCoordinator F) (m : DualLegManager F)
    (hm : c.dualLegMgr = some m)
    (hf : (enterPair ex times.entered symbol (legSpec c m .long baseSize hint)
      (legSpec c m .short (baseSize * ratio) hint) m).result.success = false)
    (hidle : (enterPair ex times.entered symbol (legSpec c m .long baseSize hint)
      (legSpec c m .short (baseSize * ratio) hint) m).manager = { m with longLeg := idleLeg }) :
    (executePairEntry ex times ratio symbol baseSize hint c).coordinator =
      { c with dualLegMgr := some { m with longLeg := idleLeg } } := by
  unfold executePairEntry
  rw [hm]
  dsimp only
  rw [hf, hidle]
  rfl

theorem not_recoverable (sent : List (Request F))
    (c : PairExecutionCoordinator F) (m : DualLegManager F)
    (hm : c.dualLegMgr = some { m with longLeg := idleLeg }) (order : OrderRecord F)
    (hside : order.positionSide = .long) (ho : Opened ex sent order)
    (hu : ¬ Undone ex sent order) : ¬ Recoverable ex sent c := by
  rintro ⟨-, hclean⟩
  have hsent := hclean order ho hu
    ⟨fun _ => ⟨true, "", "", 0⟩, fun _ _ => true⟩ rfl
  rcases cleanupOrphanLeg_sent ⟨fun _ => ⟨true, "", "", 0⟩, fun _ _ => true⟩ c with
    hnone | ⟨m', symbol, hm', hactive, hone⟩
  · rw [hnone] at hsent
    cases hsent
  have hmm : m' = { m with longLeg := idleLeg } := Option.some.inj (hm'.symm.trans hm)
  rcases hc : c.orphanSide with _ | _
  · rw [hc, hmm] at hactive
    cases hactive
  · rw [hone, hc] at hsent
    have horders := Request.submit.inj (List.singleton_inj.mp hsent)
    have hsides := congrArg OrderRecord.positionSide horders
    have hlong : (counterOrder order).positionSide = .long := hside
    rw [hlong] at hsides
    cases hsides

theorem flat_shortRefused (long short : OrderRecord F)
    (hs : (ex.submitOrder short).success = false) (sent : List (Request F))
    (hsent : sent = [.submit long, .submit short,
      .cancel (ex.submitOrder long).exchangeOrderId long.symbol] ++
      if ex.cancelOrder (ex.submitOrder long).exchangeOrderId long.symbol then []
      else [.submit (counterOrder long)]) (hn : ¬ Stranded ex long short) : Flat ex sent := by
  intro order ⟨hmem, hopen, hacc⟩
  have hlong : order = long := by
    rw [hsent] at hmem
    rcases List.mem_append.mp hmem with hmem | hmem
    · simp only [List.mem_cons, Request.submit.injEq, reduceCtorEq, List.not_mem_nil,
        or_false] at hmem
      rcases hmem with h | h
      · exact h
      · rw [h, hs] at hacc
        cases hacc
    · split_ifs at hmem
      · cases hmem
      · have hclose := Request.submit.inj (List.mem_singleton.mp hmem)
        rw [hclose] at hopen
        cases hopen
  rw [hlong] at hacc ⊢
  unfold Undone
  rw [hsent]
  rcases hc : ex.cancelOrder (ex.submitOrder long).exchangeOrderId long.symbol with _ | _
  · right
    have hclosed : (ex.submitOrder (counterOrder long)).success = true := by
      by_contra hno
      exact hn ⟨hacc, hs, hc, by simpa using hno⟩
    exact ⟨by simp, hclosed⟩
  · left
    exact ⟨by simp, rfl⟩

theorem stranded_open (long short : OrderRecord F)
    (hopen : long.tradeSide = .opening) (hn : Stranded ex long short) (sent : List (Request F))
    (hsent : .submit long ∈ sent) : Opened ex sent long ∧ ¬ Undone ex sent long := by
  obtain ⟨hacc, -, hcancel, hclose⟩ := hn
  apply And.intro ⟨hsent, hopen, hacc⟩
  rintro (⟨-, h⟩ | ⟨-, h⟩)
  · rw [hcancel] at h
    cases h
  · rw [hclose] at h
    cases h

/-- An entry whose long leg was refused sent nothing that was accepted. -/
theorem flat_longRefused (long : OrderRecord F)
    (hl : (ex.submitOrder long).success = false) : Flat ex [.submit long] := by
  rintro order ⟨hmem, -, hacc⟩
  rw [Request.submit.inj (List.mem_singleton.mp hmem), hl] at hacc
  cases hacc

theorem entry_shortRefused_iff (ratio : F)
    (symbol : Symbol) (baseSize hint : F) (c : PairExecutionCoordinator F) (m : DualLegManager F)
    (hc : c.dualLegMgr = some m)
    (hl : (ex.submitOrder (longEntry c m symbol baseSize hint)).success = true)
    (hs : (ex.submitOrder (shortEntry c m symbol (baseSize * ratio) hint)).success = false) :
    ((executePairEntry ex times ratio symbol baseSize hint c).result.success = false →
      Flat ex (executePairEntry ex times ratio symbol baseSize hint c).sent ∨
        Recoverable ex (executePairEntry ex times ratio symbol baseSize hint c).sent
          (executePairEntry ex times ratio symbol baseSize hint c).coordinator) ↔
      ¬ Stranded ex (longEntry c m symbol baseSize hint)
        (shortEntry c m symbol (baseSize * ratio) hint) := by
  obtain ⟨hsent, hres⟩ := executePairEntry_sent ex times ratio symbol baseSize hint c m hc
  rw [hsent, hres]
  obtain ⟨hf, hidle, hall⟩ := enterPair_shortRefused ex times.entered symbol _ _ m hl hs
  have hsplit : (enterPair ex times.entered symbol (legSpec c m .long baseSize hint)
      (legSpec c m .short (baseSize * ratio) hint) m).sent = _ :=
    hall.trans (congrArg _ (unwindLong_sent ex symbol _ _ m))
  constructor
  · intro h hstranded
    have hlong : Request.submit (longEntry c m symbol baseSize hint) ∈ (enterPair ex times.entered
        symbol (legSpec c m .long baseSize hint) (legSpec c m .short (baseSize * ratio) hint)
        m).sent := by
      rw [hsplit]
      exact List.mem_cons_self
    obtain ⟨hopen, hleft⟩ := stranded_open ex _ _ rfl hstranded _ hlong
    rcases h hf with hflat | hrec
    · exact hleft (hflat _ hopen)
    · rw [executePairEntry_idle ex times ratio symbol baseSize hint c m hc hf hidle] at hrec
      exact not_recoverable ex _ _ m rfl _ rfl hopen hleft hrec
  · intro hn _
    exact .inl (flat_shortRefused ex _ _ hs _ hsplit hn)

/-- A failed entry leaves nothing open or a leg that can be cleaned up, exactly
unless the long leg is stranded. -/
theorem entry_managed_iff (ex : Submitter F) (times : EntryTimes) (ratio : F) (symbol : Symbol)
    (baseSize hint : F) (c : PairExecutionCoordinator F) :
    ((executePairEntry ex times ratio symbol baseSize hint c).result.success = false →
      Flat ex (executePairEntry ex times ratio symbol baseSize hint c).sent ∨
        Recoverable ex (executePairEntry ex times ratio symbol baseSize hint c).sent
          (executePairEntry ex times ratio symbol baseSize hint c).coordinator) ↔
      ∀ m ∈ c.dualLegMgr, ¬ Stranded ex (longEntry c m symbol baseSize hint)
        (shortEntry c m symbol (baseSize * ratio) hint) := by
  rcases hc : c.dualLegMgr with _ | m
  · have hsent : (executePairEntry ex times ratio symbol baseSize hint c).sent = [] := by
      unfold executePairEntry
      rw [hc]
    apply iff_of_true
    · intro _
      left
      rw [hsent]
      rintro order ⟨hmem, -⟩
      cases hmem
    · simp
  obtain ⟨hsent, hres⟩ := executePairEntry_sent ex times ratio symbol baseSize hint c m hc
  simp only [Option.mem_some, forall_eq']
  rcases hl : (ex.submitOrder (longEntry c m symbol baseSize hint)).success with _ | _
  · obtain ⟨-, -, hone⟩ := enterPair_longRefused ex times.entered symbol _
      (legSpec c m .short (baseSize * ratio) hint) m hl
    rw [hsent, hres]
    apply iff_of_true
    · intro _
      rw [hone]
      exact .inl (flat_longRefused ex _ hl)
    · rintro ⟨hacc, -⟩
      rw [hl] at hacc
      cases hacc
  rcases hs : (ex.submitOrder (shortEntry c m symbol (baseSize * ratio) hint)).success with _ | _
  · exact entry_shortRefused_iff ex times ratio symbol baseSize hint c m hc hl hs
  · rw [hsent, hres]
    apply iff_of_true
    · rw [enterPair_accepted ex times.entered symbol _ _ m hl hs]
      intro h
      cases h
    · rintro ⟨-, hno, -⟩
      rw [hs] at hno
      cases hno

def onlyLongAccepted : Submitter ℚ :=
  ⟨fun order => ⟨order.positionSide == .long && order.tradeSide == .opening, "1001", "refused",
    order.originalQuantity⟩, fun _ _ => false⟩

def freshCoordinator : PairExecutionCoordinator ℚ :=
  ⟨true, some (init ⟨0.8, 1.5, true⟩), false, .long, 0, none⟩

omit [DoubleArith F] in
/-- The long leg is filled, its close is refused, and nothing remembers it. -/
theorem stranded_leg_forgotten :
    ¬ ∀ (ex : Submitter ℚ) (times : EntryTimes) (ratio : ℚ) (symbol : Symbol) (baseSize hint : ℚ)
      (c : PairExecutionCoordinator ℚ),
      (executePairEntry ex times ratio symbol baseSize hint c).result.success = false →
      Flat ex (executePairEntry ex times ratio symbol baseSize hint c).sent ∨
        Recoverable ex (executePairEntry ex times ratio symbol baseSize hint c).sent
          (executePairEntry ex times ratio symbol baseSize hint c).coordinator := by
  intro h
  have hfail : (executePairEntry onlyLongAccepted ⟨1, 2, 3⟩ 1 "BTCUSDT" 0.01 60000
      freshCoordinator).result.success = false := by decide +kernel
  have horphan : hasOrphanLeg (executePairEntry onlyLongAccepted ⟨1, 2, 3⟩ 1 "BTCUSDT" 0.01 60000
      freshCoordinator).coordinator = false := by decide +kernel
  rcases h onlyLongAccepted ⟨1, 2, 3⟩ 1 "BTCUSDT" 0.01 60000 freshCoordinator hfail with
    hflat | ⟨hrec, -⟩
  · have hstranded : Stranded onlyLongAccepted
        (longEntry freshCoordinator (init ⟨0.8, 1.5, true⟩) "BTCUSDT" 0.01 60000)
        (shortEntry freshCoordinator (init ⟨0.8, 1.5, true⟩) "BTCUSDT" (0.01 * 1) 60000) :=
      ⟨rfl, rfl, rfl, rfl⟩
    have hlong : Request.submit (longEntry freshCoordinator (init ⟨0.8, 1.5, true⟩) "BTCUSDT"
        0.01 60000) ∈ (executePairEntry onlyLongAccepted ⟨1, 2, 3⟩ 1 "BTCUSDT" 0.01 60000
          freshCoordinator).sent := List.mem_cons_self
    obtain ⟨hopen, hleft⟩ := stranded_open onlyLongAccepted _ _ rfl hstranded _ hlong
    exact hleft (hflat _ hopen)
  · rw [horphan] at hrec
    cases hrec

end Failure

end TB.PairEntry
