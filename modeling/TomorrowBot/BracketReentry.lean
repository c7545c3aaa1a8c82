import TomorrowBot.BracketThreads

/-!
# The bracket of a position that reopens a leg

A release erases by key, and a verification writes by key, long after they took
their copies. The bracket registered in between survives with its own orders as
long as no section of an earlier release runs on it and every identifier written
into it belongs to an order of its own position.
-/

set_option autoImplicit false

namespace TB.BracketReentry
open TB.CommonTypes TB.ProtectiveBracketManager
open TB.BracketOrders TB.BracketThreads

section Reentry
variable {F : Type} [DoubleArith F]

def listActive (brackets : Dict (BracketState F)) : List (BracketState F) :=
  (brackets.entries.map (fun e => e.2)).filter (fun b => !b.released)

def Own (w : World F) (id : OrderId) : Prop := w.owner id = some w.positions

structure Intact (w : World F) (opened b : BracketState F) : Prop where
  symbol : b.symbol = opened.symbol
  side : b.positionSide = opened.positionSide
  tpPrice : b.tpPrice = opened.tpPrice
  slPrice : b.slPrice = opened.slPrice
  own : ∀ role, roleId role b = "" ∨ Own w (roleId role b)

/-- Once all calls have returned, with no release called since the registration, the
registered bracket is active. -/
def Survives (w : World F) : Prop :=
  Quiet w → ∀ opened, w.opened = some opened → ∃ b ∈ listActive w.brackets, Intact w opened b

/-- No section of an earlier release takes or erases a registered bracket, and what
a verification writes into it are orders of its own position. -/
def SoundSection (symbol : Symbol) (ps : PositionSide) (w : World F) : Thread F → Prop
  | .taking => w.opened = none
  | .revoking [] => w.opened = none
  | .adopting _ _ _ found => w.opened.isSome = true →
      ∀ b ∈ activeBracket w.brackets (makeKey symbol ps), ∀ role, roleId role b = "" →
        foundId role found ≠ "" → Own w (foundId role found)
  | .recording _ _ _ _ id _ => w.opened.isSome = true → Own w id
  | _ => True

def Sound (symbol : Symbol) (ps : PositionSide) (w : World F) : Event F → Prop
  | .run i _ => ∀ t ∈ w.threads[i]?, SoundSection symbol ps w t
  | _ => True

def placesOrder : Thread F → Bool
  | .placing _ _ _ (_ :: _) _ => true
  | _ => false

def FreshIds (w : World F) : Event F → Prop
  | .attach p _ => w.owner p.orderId = none
  | .run i answer => ∀ t ∈ w.threads[i]?, placesOrder t = true → w.owner answer.id = none
  | _ => True

def ReentryInv (symbol : Symbol) (ps : PositionSide) (w : World F) : Prop :=
  ∀ opened, w.opened = some opened → ∃ b, activeBracket w.brackets (makeKey symbol ps) = some b ∧
    Intact w opened b

omit [DoubleArith F] in
theorem intact_mono {w v : World F} {opened b : BracketState F}
    (h : ∀ id, Own w id → Own v id) (hb : Intact w opened b) : Intact v opened b :=
  ⟨hb.symbol, hb.side, hb.tpPrice, hb.slPrice, fun role => (hb.own role).imp id (h _)⟩

omit [DoubleArith F] in
theorem intact_section {w : World F} {opened b c : BracketState F} (hb : Intact w opened b)
    (hsame : SamePosition b c)
    (hids : ∀ role, roleId role c = roleId role b ∨ Own w (roleId role c)) :
    Intact w opened c where
  symbol := hsame.symbol.trans hb.symbol
  side := hsame.side.trans hb.side
  tpPrice := (hsame.price .takeProfit).trans hb.tpPrice
  slPrice := (hsame.price .stopLoss).trans hb.slPrice
  own role := by
    rcases hids role with heq | hown
    · rw [heq]
      exact hb.own role
    · exact .inr hown

omit [DoubleArith F] in
theorem active_modify (brackets : Dict (BracketState F)) (key : String)
    (f : BracketState F → BracketState F) (hf : ∀ b, (f b).released = b.released) :
    activeBracket (Keyed.modify brackets key f) key = (activeBracket brackets key).map f := by
  unfold activeBracket
  rw [Keyed.lookup_modify_self]
  cases brackets.lookup key with
  | none => rfl
  | some b => cases hr : b.released <;> simp [Option.filter_some, hf, hr]

omit [DoubleArith F] in
/-- What a section does to the stored brackets that a registered one survives. -/
theorem inv_modify (symbol : Symbol) (ps : PositionSide) (w v : World F)
    (f : BracketState F → BracketState F) (hi : ReentryInv symbol ps w)
    (hbrackets : v.brackets = Keyed.modify w.brackets (makeKey symbol ps) f)
    (hopened : v.opened = w.opened) (hown : ∀ id, Own w id → Own v id)
    (hf : ∀ b, (f b).released = b.released) (hsame : ∀ b, SamePosition b (f b))
    (hids : w.opened.isSome = true → ∀ b ∈ activeBracket w.brackets (makeKey symbol ps),
      ∀ role, roleId role (f b) = roleId role b ∨ Own w (roleId role (f b))) :
    ReentryInv symbol ps v := by
  intro opened ho
  rw [hopened] at ho
  obtain ⟨b, hb, hintact⟩ := hi opened ho
  refine ⟨f b, ?_, ?_⟩
  · rw [hbrackets, active_modify _ _ f hf, hb]
    rfl
  · exact intact_mono hown (intact_section hintact (hsame b) (hids (by simp [ho]) b hb))

omit [DoubleArith F] in
theorem inv_frame (symbol : Symbol) (ps : PositionSide) (w v : World F)
    (hi : ReentryInv symbol ps w) (hbrackets : v.brackets = w.brackets)
    (hopened : v.opened = w.opened) (hown : ∀ id, Own w id → Own v id) :
    ReentryInv symbol ps v := by
  intro opened ho
  obtain ⟨b, hb, hintact⟩ := hi opened (hopened ▸ ho)
  exact ⟨b, hbrackets ▸ hb, intact_mono hown hintact⟩

theorem inv_register (symbol : Symbol) (ps : PositionSide)
    (entryPrice size tpPrice slPrice : F) (now : Timestamp) (w : World F) :
    ReentryInv symbol ps
      (registerSection symbol ps entryPrice size tpPrice slPrice now w).1 := by
  intro opened ho
  rw [← Option.some.inj ho]
  refine ⟨newBracket symbol ps entryPrice size tpPrice slPrice now, ?_, rfl, rfl, rfl, rfl, ?_⟩
  · show activeBracket (w.brackets.insert _ _) _ = _
    rw [activeBracket, AList.lookup_insert]
    rfl
  · intro role
    cases role <;> exact .inl rfl

theorem writeBack_released (now : Timestamp) (found : FoundOrders) (b : BracketState F) :
    (writeBack now found b).released = b.released := by
  unfold writeBack adoptTp adoptSl
  dsimp only
  split_ifs <;> rfl

variable (cfg : ProtectiveBracketConfig)

omit [DoubleArith F] in
theorem noteFallback_released (now : Timestamp) (succeeded : Bool) (b : BracketState F) :
    (noteFallback cfg now succeeded b).released = b.released := by
  cases succeeded <;> rfl

omit [DoubleArith F] in
theorem recordRole_released (role : Role) (id : OrderId) (b : BracketState F) :
    (recordRole role id b).released = b.released := by
  cases role <;> rfl

omit [DoubleArith F] in
theorem recordRole_same (role : Role) (id : OrderId) (b : BracketState F) :
    SamePosition b (recordRole role id b) := by
  cases role <;> exact ⟨rfl, rfl, fun other => by cases other <;> rfl⟩

omit [DoubleArith F] in
theorem roleId_recordRole (role other : Role) (id : OrderId) (b : BracketState F) :
    roleId other (recordRole role id b) = if other = role then id else roleId other b := by
  cases role <;> cases other <;> rfl

variable (symbol : Symbol) (ps : PositionSide)

/-- Adopting only own orders keeps the registered bracket intact. -/
theorem inv_adopt
    (now : Timestamp) (copy : BracketState F) (position : ℕ) (found : FoundOrders) (w : World F)
    (hi : ReentryInv symbol ps w)
    (hs : SoundSection symbol ps w (.adopting now copy position found)) :
    ReentryInv symbol ps (adoptSection cfg (makeKey symbol ps) now copy position found w).1 := by
  unfold adoptSection
  cases hactive : activeBracket w.brackets (makeKey symbol ps) with
  | none => exact hi
  | some current =>
    intro opened ho
    obtain ⟨b, hb, hintact⟩ := hi opened ho
    have hcurrent : current = b := Option.some.inj (hactive.symm.trans hb)
    subst hcurrent
    refine ⟨writeBack now found current, ?_, ?_⟩
    · have hlook : w.brackets.lookup (makeKey symbol ps) = some current :=
        (Option.filter_eq_some_iff.mp hb).1
      have hopen := (Option.filter_eq_some_iff.mp hb).2
      show activeBracket (Keyed.modify w.brackets _ _) _ = _
      rw [activeBracket, Keyed.lookup_modify_self, hlook]
      simpa [writeBack_released] using hopen
    · have hopened : w.opened = some opened := ho
      have hids : ∀ role, roleId role (writeBack now found current) = roleId role current ∨
          Own w (roleId role (writeBack now found current)) := by
        intro role
        rw [roleId_writeBack]
        by_cases h : foundId role found ≠ "" ∧ roleId role current = ""
        · rw [if_pos h]
          exact .inr (hs (by rw [hopened]; rfl) current hb role h.2 h.1)
        · rw [if_neg h]
          exact .inl rfl
      have hw := intact_section hintact (writeBack_same now found current) hids
      exact ⟨hw.symbol, hw.side, hw.tpPrice, hw.slPrice, hw.own⟩

omit [DoubleArith F] in
theorem own_update (w v : World F) (id : OrderId) (position : ℕ) (hfresh : w.owner id = none)
    (hv : v.owner = Function.update w.owner id (some position)) (hp : v.positions = w.positions)
    (other : OrderId) (h : Own w other) : Own v other := by
  have hne : other ≠ id := by
    rintro rfl
    rw [Own, hfresh] at h
    cases h
  rw [Own, hv, hp, Function.update_of_ne hne]
  exact h

theorem inv_place (answer : Answer) (now : Timestamp)
    (copy : BracketState F) (position : ℕ) (role : Role) (todo : List Role) (succeeded : Bool)
    (w : World F) (hi : ReentryInv symbol ps w) (hfresh : w.owner answer.id = none) :
    ReentryInv symbol ps (placeSection answer now copy position role todo succeeded w).1 := by
  rcases placeSection_cases answer now copy position role todo succeeded w with
    hnone | ⟨-, -, -, hplaced⟩
  · rw [hnone]
    exact hi
  · rw [hplaced]
    exact inv_frame symbol ps w _ hi rfl rfl
      (own_update w _ answer.id position hfresh rfl rfl)

variable (w : World F)

omit [DoubleArith F] in
theorem inv_released (h : w.opened = none) : ReentryInv symbol ps w := by
  intro opened ho
  rw [h] at ho
  cases ho

theorem inv_section (answer : Answer) (w : World F) (t : Thread F) (hi : ReentryInv symbol ps w)
    (hs : SoundSection symbol ps w t)
    (hfresh : placesOrder t = true → w.owner answer.id = none) :
    ReentryInv symbol ps (runSection cfg symbol ps answer w t).1 := by
  cases t with
  | registering entryPrice size tpPrice slPrice now =>
    exact inv_register symbol ps entryPrice size tpPrice slPrice now w
  | cancelling cancels =>
    cases cancels with
    | nil => exact hi
    | cons c cancels => exact inv_frame symbol ps w _ hi rfl rfl (fun _ h => h)
  | copying => exact hi
  | listing => exact hi
  | adopting now copy position found =>
    exact inv_adopt cfg symbol ps now copy position found w hi hs
  | placing now copy position todo succeeded =>
    cases todo with
    | nil =>
      exact inv_modify symbol ps w _ (noteFallback cfg now succeeded) hi rfl rfl (fun _ h => h)
        (noteFallback_released cfg now succeeded) (noteFallback_same cfg now succeeded)
        (fun _ b _ role => .inl (roleId_noteFallback role cfg now succeeded b))
    | cons role todo =>
      exact inv_place symbol ps answer now copy position role todo succeeded w hi
        (hfresh rfl)
  | recording now copy position role id todo =>
    have hids : w.opened.isSome = true → ∀ b ∈ activeBracket w.brackets (makeKey symbol ps),
        ∀ other, roleId other (recordRole role id b) = roleId other b ∨
          Own w (roleId other (recordRole role id b)) := by
      intro ho b _ other
      rw [roleId_recordRole]
      by_cases hr : other = role
      · rw [if_pos hr]
        exact .inr (hs ho)
      · rw [if_neg hr]
        exact .inl rfl
    exact inv_modify symbol ps w _ (recordRole role id) hi rfl rfl (fun _ h => h)
      (recordRole_released role id) (recordRole_same role id) hids
  | concluding =>
    exact inv_modify symbol ps w _ conclude hi rfl rfl (fun _ h => h) (fun _ => rfl)
      conclude_same (fun _ b _ role => .inl (roleId_conclude role b))
  | taking =>
    exact inv_released symbol ps _ hs
  | seeking b => exact hi
  | revoking cancels =>
    cases cancels with
    | nil =>
      exact inv_released symbol ps _ hs
    | cons c cancels => exact inv_frame symbol ps w _ hi rfl rfl (fun _ h => h)
  | done => exact hi

theorem inv_step (e : Event F) (hi : ReentryInv symbol ps w)
    (he : FreshIds w e ∧ Sound symbol ps w e) :
    ReentryInv symbol ps (worldStep cfg symbol ps w e) := by
  cases e with
  | call c =>
    cases c with
    | onPositionOpened | verifyBrackets => exact inv_frame symbol ps w _ hi rfl rfl (fun _ h => h)
    | release =>
      intro opened ho
      cases ho
  | run i answer =>
    show ReentryInv symbol ps (runThread cfg symbol ps i answer w)
    cases h : w.threads[i]? with
    | none =>
      rw [runThread_none cfg symbol ps i answer w h]
      exact hi
    | some t =>
      rw [runThread_some cfg symbol ps i answer w t h]
      have hsection := inv_section cfg symbol ps answer w t hi (he.2 t h) (he.1 t h)
      exact inv_frame symbol ps _ _ hsection rfl rfl (fun _ h => h)
  | attach p position =>
    exact inv_frame symbol ps w _ hi rfl rfl (own_update w _ p.orderId position he.1 rfl rfl)
  | vanish id => exact inv_frame symbol ps w _ hi rfl rfl (fun _ h => h)

omit [DoubleArith F] in
theorem survives_of_inv (hi : ReentryInv symbol ps w) : Survives w := by
  intro _ opened ho
  obtain ⟨b, hb, hintact⟩ := hi opened ho
  obtain ⟨hlook, hopen⟩ := Option.filter_eq_some_iff.mp hb
  refine ⟨b, ?_, hintact⟩
  apply List.mem_filter.mpr
  exact ⟨List.mem_map.mpr ⟨⟨makeKey symbol ps, b⟩, AList.mem_lookup_iff.mp hlook, rfl⟩, hopen⟩

/-- In every interleaving that keeps earlier releases and foreign orders from the
registered bracket, the bracket of the position opened last survives. -/
theorem reopened_bracket_survives (cfg : ProtectiveBracketConfig) (symbol : Symbol)
    (ps : PositionSide) (events : List (Event F))
    (hd : Runs.Meets (worldStep cfg symbol ps) FreshIds start events)
    (hs : Runs.Meets (worldStep cfg symbol ps) (Sound symbol ps) start events) :
    Runs.Always (worldStep cfg symbol ps) Survives start events :=
  Runs.always_mono (worldStep cfg symbol ps) (survives_of_inv symbol ps) start events
    (Runs.always_of_meets (worldStep cfg symbol ps) (inv_step cfg symbol ps) start events
      (fun _ ho => by cases ho) (Runs.meets_and (worldStep cfg symbol ps) start events hd hs))

end Reentry

section Schedules

instance (w : World ℚ) (id : OrderId) : Decidable (Own w id) :=
  inferInstanceAs (Decidable (w.owner id = some w.positions))

instance (symbol : Symbol) (ps : PositionSide) (w : World ℚ) (t : Thread ℚ) :
    Decidable (SoundSection symbol ps w t) :=
  match t with
  | .taking | .revoking [] => inferInstanceAs (Decidable (w.opened = none))
  | .adopting _ _ _ found => inferInstanceAs (Decidable (w.opened.isSome = true →
      ∀ b ∈ activeBracket w.brackets (makeKey symbol ps), ∀ role, roleId role b = "" →
        foundId role found ≠ "" → Own w (foundId role found)))
  | .recording _ _ _ _ id _ =>
    inferInstanceAs (Decidable (w.opened.isSome = true → Own w id))
  | .registering .. | .cancelling _ | .copying _ | .listing .. | .placing .. | .concluding
  | .seeking _ | .revoking (_ :: _) | .done => inferInstanceAs (Decidable True)

instance (symbol : Symbol) (ps : PositionSide) (w : World ℚ) (e : Event ℚ) :
    Decidable (Sound symbol ps w e) :=
  match e with
  | .run i _ => inferInstanceAs (Decidable (∀ t ∈ w.threads[i]?, SoundSection symbol ps w t))
  | .attach .. | .call _ | .vanish _ => inferInstanceAs (Decidable True)

instance (w : World ℚ) (e : Event ℚ) : Decidable (FreshIds w e) :=
  match e with
  | .attach p _ => inferInstanceAs (Decidable (w.owner p.orderId = none))
  | .run i answer => inferInstanceAs (Decidable (∀ t ∈ w.threads[i]?,
      placesOrder t = true → w.owner answer.id = none))
  | .call _ | .vanish _ => inferInstanceAs (Decidable True)

def patient : ProtectiveBracketConfig := ⟨0, 6, 3, 60000⟩

def advance (i : ℕ) : Event ℚ := .run i ⟨⟨"", 0⟩, ""⟩

def openAt (entry tp sl : ℚ) : Event ℚ := .call (.onPositionOpened entry 0.01 tp sl 0)

def reopenedOrders : List (PlanOrderInfo ℚ) :=
  [⟨"2003", "", "BTCUSDT", .long, .posTpsl, 61480, 0, 0.01, "mark_price", "pos_profit", 2⟩,
    ⟨"2004", "", "BTCUSDT", .long, .posTpsl, 60100, 0, 0.01, "mark_price", "pos_loss", 2⟩]

def orderlySchedule : List (Event ℚ) :=
  [openAt 60000 60480 59100, advance 0, advance 0,
    .call .release, advance 1, advance 1, advance 1] ++
  reopenedOrders.map (fun p => .attach p 2) ++
  [openAt 61000 61480 60100, advance 2, advance 2,
    .call (.verifyBrackets 1000000), advance 3, advance 3, advance 3, advance 3]

theorem reopened_bracket_survives_orderly :
    Runs.Always (worldStep patient "BTCUSDT" .long) Survives start orderlySchedule ∧
      (Runs.run (worldStep patient "BTCUSDT" .long) start orderlySchedule).opened.isSome = true :=
  ⟨reopened_bracket_survives patient "BTCUSDT" .long orderlySchedule (by decide +kernel)
    (by decide +kernel), by decide +kernel⟩

def crossedSchedule : List (Event ℚ) :=
  [openAt 60000 60480 59100, advance 0, advance 0,
    .call .release, advance 1, openAt 61000 61480 60100, advance 2, advance 2,
    advance 1, advance 1]

theorem reopened_bracket_erased :
    ¬ ∀ (cfg : ProtectiveBracketConfig) (symbol : Symbol) (ps : PositionSide)
      (events : List (Event ℚ)), Runs.Meets (worldStep cfg symbol ps) FreshIds start events →
      Runs.Always (worldStep cfg symbol ps) Survives start events := by
  intro h
  have hlast := Runs.always_last _
    (h patient "BTCUSDT" .long crossedSchedule (by decide +kernel))
  have hempty : listActive
      (Runs.run (worldStep patient "BTCUSDT" .long) start crossedSchedule).brackets = [] := by
    decide +kernel
  have hopened : (Runs.run (worldStep patient "BTCUSDT" .long) start crossedSchedule).opened =
      some (newBracket "BTCUSDT" .long 61000 0.01 61480 60100 0) := by decide +kernel
  obtain ⟨b, hb, -⟩ := hlast (by
    show ∀ t ∈ (Runs.run (worldStep patient "BTCUSDT" .long) start crossedSchedule).threads,
      t = .done
    decide +kernel) _ hopened
  rw [hempty] at hb
  cases hb

end Schedules

end TB.BracketReentry
