import TomorrowBot.EngineBirths
import Mathlib.Tactic.FieldSimp

/-!
# The size an order is cut to

An opening order whose margin does not fit is cut to the available cash less a
twentieth. The cut is affordable exactly when it makes the order smaller; the
remaining quantity of the record is not cut with it.
-/

set_option autoImplicit false

namespace TB.MarginDownsizing
open TB.CommonTypes TB.PortfolioEngine TB.OrderTypes TB.ExecutionEngine

structure Opening (order : OrderRecord ℚ) : Prop where
  tradeSide : order.tradeSide = .opening
  price : 0 < order.price
  quantity : 0 < order.originalQuantity
  remaining : order.remainingQuantity = order.originalQuantity

def required (e : Engine ℚ) (notional : ℚ) : ℚ :=
  notional / e.leverage + notional * kDefaultTakerFeePct

def notionalOf (order : OrderRecord ℚ) : ℚ := order.originalQuantity * order.price

def available (e : Engine ℚ) : ℚ := e.core.portfolio.cashLedger.availableCash

def cutNotional (e : Engine ℚ) : ℚ := available e * e.leverage * 0.95

structure ReservedFor (p q : Portfolio ℚ) (id : OrderId) (cash : ℚ) : Prop where
  pending : ∃ info, q.pendingOrders.lookup id = some info ∧ info.reservedCash = cash
  reserved : q.cashLedger.reservedForOrders = p.cashLedger.reservedForOrders + cash
  available : q.cashLedger.availableCash = p.cashLedger.availableCash - cash

structure Afforded (e : Engine ℚ) (order : OrderRecord ℚ) (p : Portfolio ℚ)
    (sized : OrderRecord ℚ) : Prop where
  price : sized.price = order.price
  positive : 0 < sized.originalQuantity
  bounded : sized.originalQuantity ≤ order.originalQuantity
  minimum : e.config.minNotionalUsdt ≤ notionalOf sized
  reserved : ReservedFor e.core.portfolio p order.orderId (required e (notionalOf sized))
  solvent : 0 ≤ p.cashLedger.availableCash

def SizedRight (e : Engine ℚ) (order : OrderRecord ℚ) : Prop :=
  match tryReserveMargin e order with
  | (p, sized, true) =>
    Afforded e order p sized ∧ sized.remainingQuantity = sized.originalQuantity
  | (p, _, false) => p = e.core.portfolio

def CutToFit (e : Engine ℚ) (order : OrderRecord ℚ) : Prop :=
  e.config.minNotionalUsdt ≤ notionalOf order ∧
    available e < required e (notionalOf order) ∧ 0 < available e ∧
    e.config.minNotionalUsdt ≤ cutNotional e ∧ 0.95 * (1 + e.leverage * kDefaultTakerFeePct) ≤ 1

instance (e : Engine ℚ) (order : OrderRecord ℚ) : Decidable (CutToFit e order) :=
  inferInstanceAs (Decidable (_ ∧ _))

section Reservation

theorem reserveCash_fits (p : Portfolio ℚ) (now : Timestamp) (id : OrderId) (s : Symbol)
    (side : Side) (margin fee : ℚ) (strategy : StrategyId)
    (h : margin + fee ≤ p.cashLedger.availableCash) :
    ∃ q, reserveCash p now id s side margin fee strategy = (q, true) ∧
      ReservedFor p q id (margin + fee) := by
  unfold reserveCash
  dsimp only
  rw [if_neg (not_lt.mpr h)]
  exact ⟨_, rfl, ⟨_, AList.lookup_insert _, rfl⟩, rfl, rfl⟩

theorem reserveCash_short (p : Portfolio ℚ) (now : Timestamp) (id : OrderId) (s : Symbol)
    (side : Side) (margin fee : ℚ) (strategy : StrategyId)
    (h : p.cashLedger.availableCash < margin + fee) :
    reserveCash p now id s side margin fee strategy = (p, false) :=
  if_pos h

theorem solvent_of_reserved (p q : Portfolio ℚ) (id : OrderId) (cash : ℚ)
    (h : ReservedFor p q id cash) (hc : cash ≤ p.cashLedger.availableCash) :
    0 ≤ q.cashLedger.availableCash := by
  rw [h.available]
  exact sub_nonneg.mpr hc

end Reservation

section Sizing
variable (e : Engine ℚ) (order : OrderRecord ℚ)

theorem notional_pos (ho : Opening order) : 0 < notionalOf order := mul_pos ho.quantity ho.price

theorem requires_margin (ho : Opening order) : ¬ requiresMarginReserve order = false := by
  simp [requiresMarginReserve, ho.tradeSide]

theorem notional_not_zero (ho : Opening order) : ¬ order.originalQuantity * order.price ≤ 0 :=
  not_le.mpr (notional_pos order ho)

theorem reserve_small (ho : Opening order) (hmin : notionalOf order < e.config.minNotionalUsdt) :
    tryReserveMargin e order = (e.core.portfolio, order, false) := by
  have hsmall : order.originalQuantity * order.price < e.config.minNotionalUsdt := hmin
  unfold tryReserveMargin
  simp only [if_pos ho.price, if_neg (requires_margin order ho),
    if_neg (notional_not_zero order ho), if_pos hsmall]

theorem reserve_whole (ho : Opening order)
    (hmin : ¬ notionalOf order < e.config.minNotionalUsdt)
    (hfit : required e (notionalOf order) ≤ available e) :
    ∃ p, tryReserveMargin e order = (p, order, true) ∧
      ReservedFor e.core.portfolio p order.orderId (required e (notionalOf order)) := by
  have hlarge : ¬ order.originalQuantity * order.price < e.config.minNotionalUsdt := hmin
  obtain ⟨p, hp, hreserved⟩ := reserveCash_fits e.core.portfolio e.core.clock.now order.orderId
    order.symbol order.side (order.originalQuantity * order.price / e.leverage)
    (order.originalQuantity * order.price * kDefaultTakerFeePct) order.strategyId hfit
  refine ⟨p, ?_, hreserved⟩
  unfold tryReserveMargin
  simp only [if_pos ho.price, if_neg (requires_margin order ho),
    if_neg (notional_not_zero order ho), if_neg hlarge, hp]

theorem reserve_hopeless (ho : Opening order)
    (hmin : ¬ notionalOf order < e.config.minNotionalUsdt)
    (hshort : available e < required e (notionalOf order))
    (hcut : available e ≤ 0 ∨ cutNotional e < e.config.minNotionalUsdt) :
    tryReserveMargin e order = (e.core.portfolio, order, false) := by
  have hlarge : ¬ order.originalQuantity * order.price < e.config.minNotionalUsdt := hmin
  have hfirst := reserveCash_short e.core.portfolio e.core.clock.now order.orderId order.symbol
    order.side (order.originalQuantity * order.price / e.leverage)
    (order.originalQuantity * order.price * kDefaultTakerFeePct) order.strategyId hshort
  unfold tryReserveMargin
  simp only [if_pos ho.price, if_neg (requires_margin order ho),
    if_neg (notional_not_zero order ho), if_neg hlarge, hfirst]
  by_cases hused : e.core.portfolio.cashLedger.availableCash ≤ 0
  · rw [if_pos (.inl hused)]
  · have hless : e.core.portfolio.cashLedger.availableCash * e.leverage * 0.95 <
        e.config.minNotionalUsdt := hcut.resolve_left hused
    rw [if_neg (not_or.mpr ⟨hused, not_le.mpr ho.price⟩), if_pos hless]

/-- The other orders are cut and their margin is asked for once more. -/
theorem reserve_cut (ho : Opening order)
    (hmin : ¬ notionalOf order < e.config.minNotionalUsdt)
    (hshort : available e < required e (notionalOf order)) (hcash : 0 < available e)
    (hcut : ¬ cutNotional e < e.config.minNotionalUsdt) :
    tryReserveMargin e order =
      ((reserveCash e.core.portfolio e.core.clock.now order.orderId order.symbol order.side
          (cutNotional e / e.leverage) (cutNotional e * kDefaultTakerFeePct) order.strategyId).1,
        { order with originalQuantity := cutNotional e / order.price },
        (reserveCash e.core.portfolio e.core.clock.now order.orderId order.symbol order.side
          (cutNotional e / e.leverage) (cutNotional e * kDefaultTakerFeePct)
          order.strategyId).2) := by
  have hlarge : ¬ order.originalQuantity * order.price < e.config.minNotionalUsdt := hmin
  have hfirst := reserveCash_short e.core.portfolio e.core.clock.now order.orderId order.symbol
    order.side (order.originalQuantity * order.price / e.leverage)
    (order.originalQuantity * order.price * kDefaultTakerFeePct) order.strategyId hshort
  have hused : ¬ e.core.portfolio.cashLedger.availableCash ≤ 0 := not_le.mpr hcash
  have hmore : ¬ e.core.portfolio.cashLedger.availableCash * e.leverage * 0.95 <
      e.config.minNotionalUsdt := hcut
  have hback : e.core.portfolio.cashLedger.availableCash * e.leverage * 0.95 / order.price *
      order.price = cutNotional e := div_mul_cancel₀ _ (ne_of_gt ho.price)
  unfold tryReserveMargin
  simp only [if_pos ho.price, if_neg (requires_margin order ho),
    if_neg (notional_not_zero order ho), if_neg hlarge, hfirst]
  rw [if_neg (not_or.mpr ⟨hused, not_le.mpr ho.price⟩), if_neg hmore, hback]
  rfl

theorem required_cut (hl : 1 ≤ e.leverage) :
    required e (cutNotional e) =
      available e * (0.95 * (1 + e.leverage * kDefaultTakerFeePct)) := by
  have hne : e.leverage ≠ 0 := ne_of_gt (lt_of_lt_of_le one_pos hl)
  unfold required cutNotional
  field_simp

theorem cut_smaller (ho : Opening order) (hl : 1 ≤ e.leverage)
    (hfit : required e (cutNotional e) ≤ available e)
    (hshort : available e < required e (notionalOf order)) :
    cutNotional e / order.price < order.originalQuantity := by
  have hfee : (0 : ℚ) < kDefaultTakerFeePct := by norm_num [kDefaultTakerFeePct]
  have hlev : 0 < e.leverage := lt_of_lt_of_le one_pos hl
  have hunit : 0 < 1 / e.leverage + kDefaultTakerFeePct := add_pos (one_div_pos.mpr hlev) hfee
  have hlinear : ∀ n : ℚ, required e n = n * (1 / e.leverage + kDefaultTakerFeePct) := by
    intro n
    unfold required
    ring
  rw [div_lt_iff₀ ho.price]
  apply lt_of_mul_lt_mul_right _ hunit.le
  rw [← hlinear, show order.originalQuantity * order.price = notionalOf order from rfl, ← hlinear]
  exact lt_of_le_of_lt hfit hshort

theorem afforded_whole (p : Portfolio ℚ) (ho : Opening order)
    (hmin : ¬ notionalOf order < e.config.minNotionalUsdt)
    (hfit : required e (notionalOf order) ≤ available e)
    (hreserved : ReservedFor e.core.portfolio p order.orderId (required e (notionalOf order))) :
    Afforded e order p order :=
  ⟨rfl, ho.quantity, le_rfl, not_lt.mp hmin, hreserved, solvent_of_reserved _ p _ _ hreserved hfit⟩

theorem afforded_cut (p : Portfolio ℚ) (ho : Opening order) (hl : 1 ≤ e.leverage)
    (hshort : available e < required e (notionalOf order)) (hcash : 0 < available e)
    (hcut : ¬ cutNotional e < e.config.minNotionalUsdt)
    (hfit : required e (cutNotional e) ≤ available e)
    (hreserved : ReservedFor e.core.portfolio p order.orderId (required e (cutNotional e))) :
    Afforded e order p { order with originalQuantity := cutNotional e / order.price } := by
  have hlev : 0 < e.leverage := lt_of_lt_of_le one_pos hl
  have hpos : 0 < cutNotional e := mul_pos (mul_pos hcash hlev) (by norm_num)
  have hback : notionalOf { order with originalQuantity := cutNotional e / order.price } =
      cutNotional e := div_mul_cancel₀ _ (ne_of_gt ho.price)
  refine ⟨rfl, div_pos hpos ho.price, (cut_smaller e order ho hl hfit hshort).le, ?_, ?_,
    solvent_of_reserved _ p _ _ hreserved hfit⟩
  · rw [hback]
    exact not_lt.mp hcut
  · rw [hback]
    exact hreserved

/-- A reservation affords the order it sizes, and misses the remaining quantity
when it cuts the order; one that fails leaves the portfolio alone. -/
theorem reservation_cases (ho : Opening order) (hl : 1 ≤ e.leverage) :
    (∃ p sized, tryReserveMargin e order = (p, sized, true) ∧ Afforded e order p sized ∧
      (sized.remainingQuantity = sized.originalQuantity ↔ ¬ CutToFit e order)) ∨
    (∃ sized, tryReserveMargin e order = (e.core.portfolio, sized, false) ∧
      ¬ CutToFit e order) := by
  by_cases hmin : notionalOf order < e.config.minNotionalUsdt
  · exact .inr ⟨order, reserve_small e order ho hmin, fun hcut => absurd hcut.1 (not_le.mpr hmin)⟩
  by_cases hfit : required e (notionalOf order) ≤ available e
  · obtain ⟨p, hp, hreserved⟩ := reserve_whole e order ho hmin hfit
    exact .inl ⟨p, order, hp, afforded_whole e order p ho hmin hfit hreserved,
      fun _ hcut => absurd hcut.2.1 (not_lt.mpr hfit), fun _ => ho.remaining⟩
  have hshort : available e < required e (notionalOf order) := not_le.mp hfit
  by_cases hhopeless : available e ≤ 0 ∨ cutNotional e < e.config.minNotionalUsdt
  · refine .inr ⟨order, reserve_hopeless e order ho hmin hshort hhopeless, fun hcut => ?_⟩
    rcases hhopeless with hused | hless
    · exact absurd hcut.2.2.1 (not_lt.mpr hused)
    · exact absurd hcut.2.2.2.1 (not_le.mpr hless)
  obtain ⟨hused, hcut⟩ := not_or.mp hhopeless
  have hcash : 0 < available e := not_le.mp hused
  rw [reserve_cut e order ho hmin hshort hcash hcut]
  have hscale := required_cut e hl
  by_cases hfee : 0.95 * (1 + e.leverage * kDefaultTakerFeePct) ≤ 1
  · -- The cut order fits and is smaller, and the remaining quantity is not touched.
    have hsmaller : required e (cutNotional e) ≤ available e := by
      rw [hscale]
      exact mul_le_of_le_one_right hcash.le hfee
    obtain ⟨p, hp, hreserved⟩ := reserveCash_fits e.core.portfolio e.core.clock.now order.orderId
      order.symbol order.side (cutNotional e / e.leverage) (cutNotional e * kDefaultTakerFeePct)
      order.strategyId hsmaller
    rw [hp]
    refine .inl ⟨p, _, rfl,
      afforded_cut e order p ho hl hshort hcash hcut hsmaller hreserved, ?_, ?_⟩
    · intro hremaining
      have hlt := cut_smaller e order ho hl hsmaller hshort
      rw [← ho.remaining] at hlt
      exact absurd hremaining (ne_of_gt hlt)
    · exact fun h => absurd ⟨not_lt.mp hmin, hshort, hcash, not_lt.mp hcut, hfee⟩ h
  · -- The cut order would be larger than the one asked for, and is refused.
    have hlarger : available e < required e (cutNotional e) := by
      rw [hscale]
      exact lt_mul_of_one_lt_right hcash (not_le.mp hfee)
    rw [reserveCash_short e.core.portfolio e.core.clock.now order.orderId order.symbol order.side
      (cutNotional e / e.leverage) (cutNotional e * kDefaultTakerFeePct) order.strategyId hlarger]
    exact .inr ⟨_, rfl, fun h => hfee h.2.2.2.2⟩

theorem not_cut_of_sized (ho : Opening order) (hl : 1 ≤ e.leverage)
    (hright : SizedRight e order) : ¬ CutToFit e order := by
  unfold SizedRight at hright
  rcases reservation_cases e order ho hl with ⟨p, sized, h, -, hiff⟩ | ⟨sized, h, hcut⟩
  · rw [h] at hright
    exact hiff.mp hright.2
  · exact hcut

/-- The reservation of an opening order sizes the whole record if and only if
the order is not cut to fit: the remaining quantity keeps the size asked for. -/
theorem sized_right_iff (ho : Opening order) (hl : 1 ≤ e.leverage) :
    SizedRight e order ↔ ¬ CutToFit e order := by
  refine ⟨not_cut_of_sized e order ho hl, fun hcut => ?_⟩
  unfold SizedRight
  rcases reservation_cases e order ho hl with ⟨p, sized, h, hafforded, hiff⟩ | ⟨sized, h, -⟩
  · rw [h]
    exact ⟨hafforded, hiff.mpr hcut⟩
  · rw [h]

end Sizing

section Cut
open EngineBirths ExecutionPlanner

def advice : ExecutionAlphaResult ℚ := ⟨true, .aggressive, 1, none, 1⟩

def largeEntry : OrderRecord ℚ :=
  createOrderRecord startEngine entryIntent ⟨.approved, 20⟩
    (plan startEngine.config entryIntent ⟨.approved, 20⟩ advice (marketContext entryIntent advice))

theorem largeEntry_cut : 0 < largeEntry.price ∧ 0 < largeEntry.originalQuantity ∧
    1 ≤ startEngine.leverage ∧ 0 ≤ startEngine.config.minNotionalUsdt ∧
      CutToFit startEngine largeEntry := by
  decide +kernel

theorem largeEntry_opening : Opening largeEntry := by
  obtain ⟨hprice, hquantity, -⟩ := largeEntry_cut
  exact ⟨rfl, hprice, hquantity, rfl⟩

/-- Nine and a half coins are bought, and twenty remain to be filled. -/
theorem cut_keeps_remaining : ¬ ∀ (e : Engine ℚ) (order : OrderRecord ℚ), Opening order →
    1 ≤ e.leverage → 0 ≤ e.config.minNotionalUsdt → SizedRight e order := by
  intro h
  obtain ⟨-, -, hleverage, hnotional, hcut⟩ := largeEntry_cut
  have hright := h startEngine largeEntry largeEntry_opening hleverage hnotional
  exact not_cut_of_sized _ _ largeEntry_opening hleverage hright hcut

theorem sized_right_iff_large : SizedRight startEngine largeEntry ↔
    ¬ CutToFit startEngine largeEntry :=
  sized_right_iff startEngine largeEntry largeEntry_opening largeEntry_cut.2.2.1

end Cut

end TB.MarginDownsizing
