import TomorrowBot.BracketThreads

/-!
# Orders left behind by the release of a bracket

A release cancels the orders its bracket remembers, and the preset ones it finds
when the bracket remembers none. An order is left behind when it is neither, or
when a verification places it after the release took the bracket.
-/

set_option autoImplicit false

namespace TB.BracketTeardown
open TB.CommonTypes TB.ProtectiveBracketManager
open TB.BracketOrders TB.BracketThreads

section Teardown
variable {F : Type} [DoubleArith F]

def Releases (symbol : Symbol) (ps : PositionSide) (b : BracketState F) (p : PlanOrderInfo F) :
    Prop :=
  b.tpOrderId = "" ∧ b.slOrderId = "" ∧ isPresetOf symbol ps p = true ∨
    p.orderId ≠ "" ∧ (p.orderId = b.tpOrderId ∨ p.orderId = b.slOrderId)

def Dooms (symbol : Symbol) (ps : PositionSide) (p : PlanOrderInfo F) : Thread F → Prop
  | .cancelling cancels => ∃ c ∈ cancels, c.orderId = p.orderId
  | .revoking cancels => ∃ c ∈ cancels, c.orderId = p.orderId
  | .seeking b => Releases symbol ps b p
  | _ => False

def Doomed (symbol : Symbol) (ps : PositionSide) (w : World F) (p : PlanOrderInfo F) : Prop :=
  ∃ t ∈ w.threads, Dooms symbol ps p t

/-- Once all calls have returned after a release that began after the last entry
and the last registration, no order of the leg is live. -/
def NothingLeft (symbol : Symbol) (ps : PositionSide) (w : World F) : Prop :=
  w.closed = true → Quiet w → ∀ p ∈ w.live, isLegOrder symbol ps p = false

/-- A release begins when every live order of the leg is one it cancels or one a
running call is about to cancel, and no order is placed once a release began. An
order is attached to no position whose release began. -/
def SoundSection (symbol : Symbol) (ps : PositionSide) (w : World F) : Thread F → Prop
  | .taking => ∀ p ∈ w.live, isLegOrder symbol ps p = true → Doomed symbol ps w p ∨
      ∃ b ∈ activeBracket w.brackets (makeKey symbol ps), Releases symbol ps b p
  | .placing _ copy _ (role :: _) _ => w.closed = true →
      ¬ (0.0 < rolePrice role copy ∧ isfinite (rolePrice role copy) = true)
  | _ => True

def Sound (symbol : Symbol) (ps : PositionSide) (w : World F) : Event F → Prop
  | .run i _ => ∀ t ∈ w.threads[i]?, SoundSection symbol ps w t
  | .attach p position =>
    w.closed = true → isLegOrder symbol ps p = true → w.positions < position
  | _ => True

def TeardownInv (symbol : Symbol) (ps : PositionSide) (w : World F) : Prop :=
  w.closed = true → ∀ p ∈ w.live, isLegOrder symbol ps p = true → Doomed symbol ps w p

omit [DoubleArith F] in
theorem mem_cancelPlan (symbol : Symbol) (id : OrderId) (planType : String) (h : id ≠ "") :
    ∃ c ∈ cancelPlan symbol id planType, c.orderId = id := by
  rw [cancelPlan, if_neg h]
  exact ⟨_, List.mem_singleton.mpr rfl, rfl⟩

omit [DoubleArith F] in
theorem releases_cancel (symbol : Symbol) (ps : PositionSide) (live : List (PlanOrderInfo F))
    (b : BracketState F) (p : PlanOrderInfo F) (hp : p ∈ live) (h : Releases symbol ps b p) :
    ∃ c ∈ releaseCancels (exchangeOf live) symbol ps b, c.orderId = p.orderId := by
  unfold releaseCancels
  rcases h with ⟨htp, hsl, hpreset⟩ | ⟨hne, hid⟩
  · have hs : p.symbol = symbol := by
      simp only [isPresetOf, Bool.and_eq_true, beq_iff_eq] at hpreset
      exact hpreset.1.1
    refine ⟨⟨p.orderId, symbol, planTypeOrNormal p.planType⟩, ?_, rfl⟩
    apply List.mem_append_left
    apply List.mem_append_left
    rw [presetCancels, if_pos ⟨htp, hsl⟩]
    apply List.mem_map.mpr
    exact ⟨p, List.mem_filter.mpr ⟨List.mem_filter.mpr ⟨hp, by simp [hs]⟩, hpreset⟩, rfl⟩
  · rcases hid with htp | hsl
    · obtain ⟨c, hc, hcid⟩ := mem_cancelPlan symbol b.tpOrderId b.tpPlanType (htp ▸ hne)
      exact ⟨c, List.mem_append_left _ (List.mem_append_right _ hc), hcid.trans htp.symm⟩
    · obtain ⟨c, hc, hcid⟩ := mem_cancelPlan symbol b.slOrderId b.slPlanType (hsl ▸ hne)
      exact ⟨c, List.mem_append_right _ hc, hcid.trans hsl.symm⟩

omit [DoubleArith F] in
theorem doomed_set (symbol : Symbol) (ps : PositionSide) (w : World F) (i : ℕ) (t t' : Thread F)
    (p : PlanOrderInfo F) (h : w.threads[i]? = some t)
    (ht : Dooms symbol ps p t → Dooms symbol ps p t') (hd : Doomed symbol ps w p) :
    ∃ u ∈ w.threads.set i t', Dooms symbol ps p u := by
  obtain ⟨u, hu, hdu⟩ := hd
  obtain ⟨j, hj⟩ := List.mem_iff_getElem?.mp hu
  by_cases hij : i = j
  · subst hij
    rw [h] at hj
    have hlt : i < w.threads.length := (List.getElem?_eq_some_iff.mp h).1
    refine ⟨t', ?_, ht (Option.some.inj hj ▸ hdu)⟩
    exact List.mem_iff_getElem?.mpr ⟨i, List.getElem?_set_self hlt⟩
  · refine ⟨u, ?_, hdu⟩
    exact List.mem_iff_getElem?.mpr ⟨j, by rw [List.getElem?_set_ne hij, hj]⟩

structure Quiets (symbol : Symbol) (ps : PositionSide) (w : World F) (t : Thread F)
    (after : World F × Thread F) : Prop where
  closed : after.1.closed = true → w.closed = true
  live : after.1.closed = true → ∀ p ∈ after.1.live, p ∈ w.live ∧
    (Dooms symbol ps p t → Dooms symbol ps p after.2)

theorem quiets_register (symbol : Symbol) (ps : PositionSide)
    (entryPrice size tpPrice slPrice : F) (now : Timestamp) (w : World F) (t : Thread F) :
    Quiets symbol ps w t (registerSection symbol ps entryPrice size tpPrice slPrice now w) where
  closed h := by cases h
  live h := by cases h

omit [DoubleArith F] in
theorem quiets_cancel (symbol : Symbol) (ps : PositionSide) (w : World F) (c : PlanCancel)
    (cancels : List PlanCancel) (t t' : Thread F)
    (ht : ∀ p, Dooms symbol ps p t → ∃ d ∈ c :: cancels, d.orderId = p.orderId)
    (ht' : ∀ p, (∃ d ∈ cancels, d.orderId = p.orderId) → Dooms symbol ps p t') :
    Quiets symbol ps w t ({ w with live := cancelOrder w.live c.orderId }, t') where
  closed h := h
  live := by
    intro _ p hp
    obtain ⟨hmem, hne⟩ := (mem_cancelOrder w.live c.orderId p).mp hp
    refine ⟨hmem, fun hdoom => ht' p ?_⟩
    obtain ⟨d, hd, hid⟩ := ht p hdoom
    rcases List.mem_cons.mp hd with rfl | hd
    · exact absurd hid.symm hne
    · exact ⟨d, hd, hid⟩

omit [DoubleArith F] in
/-- A section of a call that cancels nothing only has to leave the exchange alone. -/
theorem quiets_other (symbol : Symbol) (ps : PositionSide) (w v : World F) (t t' : Thread F)
    (hlive : v.live = w.live) (hclosed : v.closed = w.closed)
    (ht : ∀ p, ¬ Dooms symbol ps p t) : Quiets symbol ps w t (v, t') where
  closed h := hclosed ▸ h
  live _ p hp := ⟨hlive ▸ hp, fun hdoom => absurd hdoom (ht p)⟩

variable (cfg : ProtectiveBracketConfig) (symbol : Symbol) (ps : PositionSide)

theorem quiets_adopt
    (now : Timestamp) (copy : BracketState F) (position : ℕ) (found : FoundOrders) (w : World F) :
    Quiets symbol ps w (.adopting now copy position found)
      (adoptSection cfg (makeKey symbol ps) now copy position found w) := by
  unfold adoptSection
  cases activeBracket w.brackets (makeKey symbol ps) with
  | none => exact quiets_other symbol ps w w _ _ rfl rfl (fun _ => id)
  | some current => exact quiets_other symbol ps w _ _ _ rfl rfl (fun _ => id)

theorem quiets_place (answer : Answer) (now : Timestamp)
    (copy : BracketState F) (position : ℕ) (role : Role) (todo : List Role) (succeeded : Bool)
    (w : World F)
    (hs : SoundSection symbol ps w (.placing now copy position (role :: todo) succeeded)) :
    Quiets symbol ps w (.placing now copy position (role :: todo) succeeded)
      (placeSection answer now copy position role todo succeeded w) := by
  rcases placeSection_cases answer now copy position role todo succeeded w with
    hnone | ⟨hprice, hfinite, -, hplaced⟩
  · rw [hnone]
    exact quiets_other symbol ps w w _ _ rfl rfl (fun _ => id)
  · rw [hplaced]
    have hopen : w.closed ≠ true := fun hclosed => hs hclosed ⟨hprice, hfinite⟩
    exact ⟨fun h => h, fun h => absurd h hopen⟩

/-- Every section but the one that takes the bracket cancels, or leaves alone,
what was about to be cancelled. -/
theorem quiets_section (answer : Answer) (w : World F) (t : Thread F) (ht : t ≠ .taking)
    (hs : SoundSection symbol ps w t) :
    Quiets symbol ps w t (runSection cfg symbol ps answer w t) := by
  cases t with
  | registering => exact quiets_register symbol ps _ _ _ _ _ w _
  | cancelling cancels =>
    cases cancels with
    | nil => exact quiets_other symbol ps w w _ _ rfl rfl (by simp [Dooms])
    | cons c cancels =>
      exact quiets_cancel symbol ps w c cancels _ _ (fun _ => id) (fun _ => id)
  | copying | listing => exact quiets_other symbol ps w w _ _ rfl rfl (fun _ => id)
  | adopting now copy position found =>
    exact quiets_adopt cfg symbol ps now copy position found w
  | placing now copy position todo succeeded =>
    cases todo with
    | nil => exact quiets_other symbol ps w _ _ _ rfl rfl (fun _ => id)
    | cons role todo =>
      exact quiets_place symbol ps answer now copy position role todo succeeded w hs
  | recording | concluding => exact quiets_other symbol ps w _ _ _ rfl rfl (fun _ => id)
  | taking => exact absurd rfl ht
  | seeking b =>
    exact ⟨fun h => h, fun _ p hp => ⟨hp, releases_cancel symbol ps w.live b p hp⟩⟩
  | revoking cancels =>
    cases cancels with
    | nil => exact quiets_other symbol ps w _ _ _ rfl rfl (by simp [Dooms])
    | cons c cancels =>
      exact quiets_cancel symbol ps w c cancels _ _ (fun _ => id) (fun _ => id)
  | done => exact quiets_other symbol ps w w _ _ rfl rfl (fun _ => id)

/-- The section that takes the bracket, run when its orders are known. -/
theorem inv_taking (i : ℕ) (answer : Answer) (w : World F) (h : w.threads[i]? = some .taking)
    (hs : SoundSection symbol ps w .taking) :
    TeardownInv symbol ps (runThread cfg symbol ps i answer w) := by
  rw [runThread_some cfg symbol ps i answer w .taking h]
  intro _ p hp hleg
  rcases hs p hp hleg with hdoomed | ⟨b, hb, hreleases⟩
  · exact doomed_set symbol ps w i .taking _ p h (fun hno => hno.elim) hdoomed
  · have hlt : i < w.threads.length := (List.getElem?_eq_some_iff.mp h).1
    refine ⟨.seeking b, ?_, hreleases⟩
    have hnext : (runSection cfg symbol ps answer w .taking).2 = .seeking b := by
      show (takeBracket (makeKey symbol ps) w.brackets).2 = _
      rw [takeBracket, hb]
    rw [hnext]
    exact List.mem_iff_getElem?.mpr ⟨i, List.getElem?_set_self hlt⟩

theorem inv_runThread (i : ℕ) (answer : Answer) (w : World F) (hi : TeardownInv symbol ps w)
    (hs : Sound symbol ps w (.run i answer)) :
    TeardownInv symbol ps (runThread cfg symbol ps i answer w) := by
  cases h : w.threads[i]? with
  | none =>
    rw [runThread_none cfg symbol ps i answer w h]
    exact hi
  | some t =>
    by_cases ht : t = .taking
    · subst ht
      exact inv_taking cfg symbol ps i answer w h (hs .taking h)
    · have hq := quiets_section cfg symbol ps answer w t ht (hs t h)
      rw [runThread_some cfg symbol ps i answer w t h]
      intro hclosed p hp hleg
      obtain ⟨hmem, hkeep⟩ := hq.live hclosed p hp
      exact doomed_set symbol ps w i t _ p h hkeep (hi (hq.closed hclosed) p hmem hleg)

theorem inv_step
    (w : World F) (e : Event F) (hi : TeardownInv symbol ps w) (hs : Sound symbol ps w e) :
    TeardownInv symbol ps (worldStep cfg symbol ps w e) := by
  cases e with
  | call c =>
    intro hclosed p hp hleg
    obtain ⟨t, ht, hdoom⟩ := hi hclosed p hp hleg
    exact ⟨t, List.mem_append_left _ ht, hdoom⟩
  | run i answer => exact inv_runThread cfg symbol ps i answer w hi hs
  | attach p position =>
    intro hclosed q hq hleg
    obtain ⟨hwas, hother⟩ := Bool.and_eq_true_iff.mp hclosed
    rcases List.mem_append.mp hq with hq | hq
    · exact hi hwas q hq hleg
    · rw [List.mem_singleton.mp hq] at hleg
      have hnext := hs hwas hleg
      simp [hleg, hnext] at hother
  | vanish id =>
    intro hclosed p hp hleg
    exact hi hclosed p ((mem_cancelOrder w.live id p).mp hp).1 hleg

omit [DoubleArith F] in
theorem nothingLeft_of_inv (w : World F)
    (hi : TeardownInv symbol ps w) : NothingLeft symbol ps w := by
  intro hclosed hquiet p hp
  by_contra hleg
  obtain ⟨t, ht, hdoom⟩ := hi hclosed p hp (Bool.eq_true_of_not_eq_false hleg)
  rw [hquiet t ht] at hdoom
  exact hdoom

/-- In every interleaving whose releases begin when the orders of the leg are
known to them, and that places no order after such a beginning, closing a
position leaves no order of its leg behind. -/
theorem closing_leaves_nothing (cfg : ProtectiveBracketConfig) (symbol : Symbol)
    (ps : PositionSide) (events : List (Event F))
    (hs : Runs.Meets (worldStep cfg symbol ps) (Sound symbol ps) start events) :
    Runs.Always (worldStep cfg symbol ps) (NothingLeft symbol ps) start events :=
  Runs.always_mono (worldStep cfg symbol ps) (nothingLeft_of_inv symbol ps) start events
    (Runs.always_of_meets (worldStep cfg symbol ps) (inv_step cfg symbol ps) start events
      (fun h => by cases h) hs)

end Teardown

section Schedules

instance (symbol : Symbol) (ps : PositionSide) (b : BracketState ℚ) (p : PlanOrderInfo ℚ) :
    Decidable (Releases symbol ps b p) :=
  inferInstanceAs (Decidable (_ ∨ _))

instance (symbol : Symbol) (ps : PositionSide) (p : PlanOrderInfo ℚ) (t : Thread ℚ) :
    Decidable (Dooms symbol ps p t) :=
  match t with
  | .cancelling cancels => inferInstanceAs (Decidable (∃ c ∈ cancels, c.orderId = p.orderId))
  | .revoking cancels => inferInstanceAs (Decidable (∃ c ∈ cancels, c.orderId = p.orderId))
  | .seeking b => inferInstanceAs (Decidable (Releases symbol ps b p))
  | .registering .. | .copying _ | .listing .. | .adopting .. | .placing .. | .recording ..
  | .concluding | .taking | .done => inferInstanceAs (Decidable False)

instance (symbol : Symbol) (ps : PositionSide) (w : World ℚ) (p : PlanOrderInfo ℚ) :
    Decidable (Doomed symbol ps w p) :=
  inferInstanceAs (Decidable (∃ t ∈ w.threads, Dooms symbol ps p t))

instance (symbol : Symbol) (ps : PositionSide) (w : World ℚ) (t : Thread ℚ) :
    Decidable (SoundSection symbol ps w t) :=
  match t with
  | .taking => inferInstanceAs (Decidable (∀ p ∈ w.live, isLegOrder symbol ps p = true →
      Doomed symbol ps w p ∨
        ∃ b ∈ activeBracket w.brackets (makeKey symbol ps), Releases symbol ps b p))
  | .placing _ copy _ (role :: _) _ => inferInstanceAs (Decidable (w.closed = true →
      ¬ (0.0 < rolePrice role copy ∧ isfinite (rolePrice role copy) = true)))
  | .placing _ _ _ [] _ | .registering .. | .cancelling _ | .copying _ | .listing ..
  | .adopting .. | .recording .. | .concluding | .seeking _ | .revoking _ | .done =>
    inferInstanceAs (Decidable True)

instance (symbol : Symbol) (ps : PositionSide) (w : World ℚ) (e : Event ℚ) :
    Decidable (Sound symbol ps w e) :=
  match e with
  | .run i _ => inferInstanceAs (Decidable (∀ t ∈ w.threads[i]?, SoundSection symbol ps w t))
  | .attach p position => inferInstanceAs (Decidable (w.closed = true →
      isLegOrder symbol ps p = true → w.positions < position))
  | .call _ | .vanish _ => inferInstanceAs (Decidable True)

def atOnce : ProtectiveBracketConfig := ⟨0, 1, 3, 60000⟩

def runs (i : ℕ) (id : OrderId) : Event ℚ := .run i ⟨⟨id, 2000000⟩, id⟩

def opening : List (Event ℚ) :=
  [.call (.onPositionOpened 60000 0.01 60480 59100 0), runs 0 "", runs 0 ""]

def presetSchedule : List (Event ℚ) :=
  attachedOrders.map (fun p => .attach p 1) ++ opening ++
    [.call (.verifyBrackets 1000000), runs 1 "", runs 1 "", runs 1 "", runs 1 "",
      .call .release, runs 2 "", runs 2 "", runs 2 "", runs 2 "", runs 2 ""]

theorem closing_leaves_nothing_preset :
    Runs.Always (worldStep atOnce "BTCUSDT" .long) (NothingLeft "BTCUSDT" .long) start
        presetSchedule ∧
      (Runs.run (worldStep atOnce "BTCUSDT" .long) start presetSchedule).closed = true :=
  ⟨closing_leaves_nothing atOnce "BTCUSDT" .long presetSchedule (by decide +kernel),
    by decide +kernel⟩

/-- A verification has decided to place the missing orders when the position is
released; it places them after the release. -/
def lateFallback : List (Event ℚ) :=
  opening ++ [.call (.verifyBrackets 1000000), runs 1 "", runs 1 "", runs 1 "",
    .call .release, runs 2 "", runs 2 "", runs 2 "",
    runs 1 "3001", runs 1 "", runs 1 "3002", runs 1 "", runs 1 "", runs 1 ""]

theorem fallback_left_behind :
    ¬ ∀ (cfg : ProtectiveBracketConfig) (symbol : Symbol) (ps : PositionSide)
      (events : List (Event ℚ)),
      Runs.Always (worldStep cfg symbol ps) (NothingLeft symbol ps) start events := by
  intro h
  have hlast := Runs.always_last _ (h atOnce "BTCUSDT" .long lateFallback)
  have hleft : ∃ p ∈ (Runs.run (worldStep atOnce "BTCUSDT" .long) start lateFallback).live,
      isLegOrder "BTCUSDT" .long p = true := by decide +kernel
  obtain ⟨p, hp, hleg⟩ := hleft
  have hno := hlast (by decide +kernel) (by
    show ∀ t ∈ (Runs.run (worldStep atOnce "BTCUSDT" .long) start lateFallback).threads, t = .done
    decide +kernel) p hp
  rw [hleg] at hno
  cases hno

end Schedules

end TB.BracketTeardown
