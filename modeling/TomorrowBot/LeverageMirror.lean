import TomorrowBot.LeverageCache

/-!
# The leverage cache as a mirror of the exchange

Every cached value is the exchange's, as long as no request changes a side that is
cached with another value. A request without a side changes every side, and one
whose answer is lost changes its side without the cache.
-/

set_option autoImplicit false

namespace TB.LeverageCache
open TB.CommonTypes

section Keys

theorem split_first {c : Char} (x x' z z' : List Char) (hx : c ∉ x) (hx' : c ∉ x')
    (h : x ++ c :: z = x' ++ c :: z') : x = x' ∧ z = z' := by
  induction x generalizing x' with
  | nil =>
    cases x' with
    | nil => exact ⟨rfl, (List.cons.inj h).2⟩
    | cons d x' => exact absurd (List.cons.inj h).1 (fun heq => hx' (heq ▸ List.mem_cons_self))
  | cons d x ih =>
    cases x' with
    | nil => exact absurd (List.cons.inj h).1 (fun heq => hx (heq ▸ List.mem_cons_self))
    | cons d' x' =>
      obtain ⟨rfl, htail⟩ := List.cons.inj h
      obtain ⟨rfl, hz⟩ := ih x' (fun hm => hx (List.mem_cons_of_mem _ hm))
        (fun hm => hx' (List.mem_cons_of_mem _ hm)) htail
      exact ⟨rfl, hz⟩

/-- A symbol without a colon is found again in the key. -/
theorem cacheKey_inj {symbol symbol' : Symbol} {side side' : String}
    (h : ':' ∉ symbol.toList) (h' : ':' ∉ symbol'.toList)
    (heq : cacheKey symbol side = cacheKey symbol' side') : symbol = symbol' ∧ side = side' := by
  have hkey : ∀ (a : Symbol) (b : String), (cacheKey a b).toList = a.toList ++ ':' :: b.toList := by
    intro a b
    simp [cacheKey]
  have hlist := congrArg String.toList heq
  rw [hkey, hkey] at hlist
  obtain ⟨hsymbol, hside⟩ := split_first _ _ _ _ h h' hlist
  exact ⟨String.toList_inj.mp hsymbol, String.toList_inj.mp hside⟩

end Keys

section Requests
variable {marginMode : String} {c : LeverageCall}

structure Applies (c : LeverageCall) (top n : ℕ) : Prop where
  pos : 1 ≤ n
  le : n ≤ top
  applied : (c.answers n).applied = true
  tooHigh : ∀ m, n < m → m ≤ top → verdict (c.answers m) = .tooHigh

theorem tooHigh_code {a : Answer} (h : verdict a = .tooHigh) : a.code.isSome = true := by
  unfold verdict at h
  split_ifs at h with h1 h2
  · rw [h2]
    rfl
  · split at h
    · exact nomatch h
    · rename_i code hcode
      rw [hcode]
      rfl

theorem tooHigh_not_applied {a : Answer} (hh : Honest a) (h : verdict a = .tooHigh) :
    a.applied = false :=
  hh.2 (tooHigh_code h) (by rw [h]; decide)

theorem tryLeverage_cases (marginMode : String) (hh : ∀ v, Honest (c.answers v)) (top : ℕ)
    (exchange : String → String → ℤ) :
    (tryLeverage marginMode c top exchange).2.1 ≤ top ∧
      ((∃ n, Applies c top n ∧ (tryLeverage marginMode c top exchange).2.2 =
            apply marginMode c n exchange ∧
          ((verdict (c.answers n) = .accepted ∧
              (tryLeverage marginMode c top exchange).1 = some (n : ℤ) ∧
              0 < (tryLeverage marginMode c top exchange).2.1) ∨
            (verdict (c.answers n) ≠ .accepted ∧
              (tryLeverage marginMode c top exchange).1 = none))) ∨
        ((tryLeverage marginMode c top exchange).2.2 = exchange ∧
          (tryLeverage marginMode c top exchange).1 = none)) := by
  induction top with
  | zero => exact ⟨le_rfl, Or.inr ⟨rfl, rfl⟩⟩
  | succ n ih =>
    have hlast : ∀ m, n + 1 < m → m ≤ n + 1 → verdict (c.answers m) = .tooHigh :=
      fun m hlt hle => absurd hlt (not_lt.mpr hle)
    rw [tryLeverage]
    cases hv : verdict (c.answers ((n + 1 : ℕ) : ℤ)) with
    | accepted =>
      have ha := (hh _).1 hv
      simp only [ha, if_true]
      exact ⟨Nat.succ_le_succ (Nat.zero_le n), Or.inl ⟨n + 1, ⟨Nat.succ_le_succ (Nat.zero_le n),
        le_rfl, ha, hlast⟩, rfl, Or.inl ⟨hv, rfl, Nat.one_pos⟩⟩⟩
    | failed =>
      cases ha : (c.answers ((n + 1 : ℕ) : ℤ)).applied with
      | true =>
        exact ⟨Nat.succ_le_succ (Nat.zero_le n), Or.inl ⟨n + 1, ⟨Nat.succ_le_succ (Nat.zero_le n),
          le_rfl, ha, hlast⟩, rfl, Or.inr ⟨by rw [hv]; decide, rfl⟩⟩⟩
      | false => exact ⟨Nat.succ_le_succ (Nat.zero_le n), Or.inr ⟨rfl, rfl⟩⟩
    | tooHigh =>
      have ha := tooHigh_not_applied (hh _) hv
      obtain ⟨hsent, hcases⟩ := ih
      simp only [ha, Bool.false_eq_true, if_false]
      refine ⟨Nat.succ_le_succ hsent, ?_⟩
      rcases hcases with ⟨k, hk, hexchange, htaken⟩ | hnone
      · refine Or.inl ⟨k, ⟨hk.pos, hk.le.trans (Nat.le_succ n), hk.applied, fun m hlt hle => ?_⟩,
          hexchange, ?_⟩
        · rcases hle.eq_or_lt with rfl | hless
          · exact hv
          · exact hk.tooHigh m hlt (Nat.lt_succ_iff.mp hless)
        · rcases htaken with ⟨hacc, hsome, -⟩ | hnot
          · exact Or.inl ⟨hacc, hsome, Nat.succ_pos _⟩
          · exact Or.inr hnot
      · exact Or.inr hnone

variable {n : ℤ} {exchange : String → String → ℤ}

def Affected (marginMode : String) (c : LeverageCall) (side : String) : Prop :=
  carriesSide marginMode c.holdSide = true → side = c.holdSide ∨ side = ""

theorem apply_other {symbol : Symbol} (h : symbol ≠ c.symbol) :
    apply marginMode c n exchange symbol = exchange symbol :=
  Function.update_of_ne h _ _

theorem apply_side (side : String) : apply marginMode c n exchange c.symbol side =
    if carriesSide marginMode c.holdSide = true ∧ side ≠ c.holdSide then exchange c.symbol side
    else n := by
  unfold apply
  rw [Function.update_self]
  cases h : carriesSide marginMode c.holdSide with
  | false => simp
  | true =>
    rcases eq_or_ne side c.holdSide with rfl | hne
    · simp
    · simp [hne]

theorem apply_has : Has (apply marginMode c n exchange) c.symbol c.holdSide n := by
  unfold Has
  split_ifs with hempty
  · intro side
    rw [apply_side, if_neg]
    rintro ⟨hcarries, -⟩
    simp [carriesSide, hempty] at hcarries
  · rw [apply_side, if_neg (fun h => h.2 rfl)]

theorem apply_keeps {side : String} {w : ℤ} (h : Has exchange c.symbol side w)
    (hsame : Affected marginMode c side → w = n) :
    Has (apply marginMode c n exchange) c.symbol side w := by
  unfold Has at h ⊢
  split_ifs at h ⊢ with hempty
  · obtain rfl := hsame (fun _ => Or.inr hempty)
    intro other
    rw [apply_side]
    split_ifs
    · exact h other
    · rfl
  · rw [apply_side]
    split_ifs with hkeep
    · exact h
    · refine (hsame (fun hcarries => Or.inl ?_)).symm
      by_contra hne
      exact hkeep ⟨hcarries, hne⟩

end Requests

section Calls
variable {marginMode : String} {s : LeverageState} {c : LeverageCall}

def Mirror (s : LeverageState) : Prop :=
  ∀ (symbol : Symbol) (side : String) (v : ℤ), ':' ∉ symbol.toList →
    s.leverageCache (cacheKey symbol side) = some v → Has s.exchange symbol side v

/-- The request that is applied, if any, leaves every side that is cached with its value; the
side of the call may get another one where the request is accepted. -/
structure Undisturbed (marginMode : String) (s : LeverageState) (c : LeverageCall) : Prop where
  symbol : ':' ∉ c.symbol.toList
  sides : s.leverageCache (cacheKey c.symbol c.holdSide) ≠ some (limited s c) →
    ∀ n, Applies c (limited s c).toNat n → ∀ side, Affected marginMode c side →
      ∀ w, s.leverageCache (cacheKey c.symbol side) = some w →
        w = n ∨ (side = c.holdSide ∧ verdict (c.answers n) = .accepted)

theorem limited_le (s : LeverageState) (c : LeverageCall) : limited s c ≤ c.leverage := by
  unfold limited
  split
  · split_ifs with h
    · exact h.le
    · exact le_rfl
  · exact le_rfl

theorem mirror_kept (hm : Mirror s) (hu : Undisturbed marginMode s c)
    (hmiss : s.leverageCache (cacheKey c.symbol c.holdSide) ≠ some (limited s c)) {n : ℕ}
    (hn : Applies c (limited s c).toNat n) {symbol : Symbol} {side : String} {v : ℤ}
    (hsymbol : ':' ∉ symbol.toList)
    (hcached : s.leverageCache (cacheKey symbol side) = some v)
    (hold : symbol = c.symbol → side = c.holdSide → verdict (c.answers n) ≠ .accepted) :
    Has (apply marginMode c n s.exchange) symbol side v := by
  have hhas := hm symbol side v hsymbol hcached
  rcases eq_or_ne symbol c.symbol with rfl | hne
  · apply apply_keeps hhas
    intro haffected
    rcases hu.sides hmiss n hn side haffected v hcached with hsame | ⟨hside, haccepted⟩
    · exact hsame
    · exact absurd haccepted (hold rfl hside)
  · unfold Has at hhas ⊢
    rw [apply_other hne]
    exact hhas

theorem setLeverage_miss (marginMode : String)
    (hmiss : s.leverageCache (cacheKey c.symbol c.holdSide) ≠ some (limited s c)) :
    setLeverage marginMode s c =
      match (tryLeverage marginMode c (limited s c).toNat s.exchange).1 with
      | none => ⟨false, (tryLeverage marginMode c (limited s c).toNat s.exchange).2.1,
          { s with exchange := (tryLeverage marginMode c (limited s c).toNat s.exchange).2.2 }⟩
      | some value => ⟨true, (tryLeverage marginMode c (limited s c).toNat s.exchange).2.1,
          { exchange := (tryLeverage marginMode c (limited s c).toNat s.exchange).2.2
            leverageCache := Function.update s.leverageCache (cacheKey c.symbol c.holdSide)
              (some value)
            maxLeverageCache := if value ≠ limited s c then
              Function.update s.maxLeverageCache c.symbol (some value)
            else s.maxLeverageCache }⟩ := by
  rw [setLeverage]
  exact if_neg hmiss

/-- A call whose applied request disturbs no cached side keeps the mirror, and its result is
as it should be. -/
theorem setLeverage_faithful (hh : ∀ v, Honest (c.answers v)) (hm : Mirror s)
    (hu : Undisturbed marginMode s c) :
    Faithful marginMode s c ∧ Mirror (setLeverage marginMode s c).state := by
  by_cases hhit : s.leverageCache (cacheKey c.symbol c.holdSide) = some (limited s c)
  · have hresult : setLeverage marginMode s c = ⟨true, 0, s⟩ := by
      rw [setLeverage]
      exact if_pos hhit
    have hhas := hm c.symbol c.holdSide _ hu.symbol hhit
    refine ⟨⟨fun _ => ⟨_, limited_le s c, ?_, ?_⟩, fun _ _ => hhas, ?_⟩, ?_⟩ <;> rw [hresult]
    · exact hhit
    · exact hhas
    · exact Nat.zero_le _
    · exact hm
  · have hsymbol := hu.symbol
    obtain ⟨hsent, hcases⟩ := tryLeverage_cases marginMode hh
      (limited s c).toNat s.exchange
    have hbound : (limited s c).toNat ≤ c.leverage.toNat :=
      Int.toNat_le_toNat (limited_le s c)
    have hresult := setLeverage_miss marginMode hhit
    rcases hcases with ⟨n, hn, hexchange, htaken⟩ | ⟨hexchange, hnone⟩
    · rcases htaken with ⟨haccepted, hsome, hpos⟩ | ⟨hnot, hnone⟩
      · rw [hsome] at hresult
        have hle : (n : ℤ) ≤ c.leverage := by
          have hn1 := hn.pos
          have hn2 := hn.le
          have hlimited := limited_le s c
          omega
        refine ⟨⟨fun _ => ⟨n, hle, ?_, ?_⟩, fun _ hzero => ?_, ?_⟩, ?_⟩
        · rw [hresult]
          exact Function.update_self _ _ _
        · rw [hresult]
          simp only [hexchange]
          exact apply_has
        · rw [hresult] at hzero
          exact absurd hzero hpos.ne'
        · rw [hresult]
          exact hsent.trans hbound
        · rw [hresult]
          intro symbol side v hcolon hcached
          simp only [hexchange] at hcached ⊢
          by_cases hkey : cacheKey symbol side = cacheKey c.symbol c.holdSide
          · obtain ⟨rfl, rfl⟩ := cacheKey_inj hcolon hsymbol hkey
            rw [Function.update_self] at hcached
            obtain rfl := Option.some.inj hcached
            exact apply_has
          · rw [Function.update_of_ne hkey] at hcached
            refine mirror_kept hm hu hhit hn hcolon hcached (fun hsame hside => ?_)
            exact absurd (by rw [hsame, hside]) hkey
      · rw [hnone] at hresult
        refine ⟨⟨fun htrue => ?_, fun htrue => ?_, ?_⟩, ?_⟩
        · rw [hresult] at htrue
          exact nomatch htrue
        · rw [hresult] at htrue
          exact nomatch htrue
        · rw [hresult]
          exact hsent.trans hbound
        · rw [hresult]
          intro symbol side v hcolon hcached
          simp only [hexchange]
          exact mirror_kept hm hu hhit hn hcolon hcached (fun _ _ => hnot)
    · rw [hnone] at hresult
      refine ⟨⟨fun htrue => ?_, fun htrue => ?_, ?_⟩, ?_⟩
      · rw [hresult] at htrue
        exact nomatch htrue
      · rw [hresult] at htrue
        exact nomatch htrue
      · rw [hresult]
        exact hsent.trans hbound
      · rw [hresult, hexchange]
        exact hm

theorem mirror_new (exchange : String → String → ℤ) : Mirror (newSubmitter exchange) :=
  fun _ _ _ _ h => nomatch h

def UndisturbedRun (marginMode : String) : LeverageState → List LeverageCall → Prop
  | _, [] => True
  | s, c::cs => Undisturbed marginMode s c ∧
      UndisturbedRun marginMode (setLeverage marginMode s c).state cs

def FaithfulRun (marginMode : String) : LeverageState → List LeverageCall → Prop
  | _, [] => True
  | s, c::cs => Faithful marginMode s c ∧
      FaithfulRun marginMode (setLeverage marginMode s c).state cs

theorem run_faithful (cs : List LeverageCall) (hh : ∀ c ∈ cs, ∀ v, Honest (c.answers v))
    (hm : Mirror s) (hu : UndisturbedRun marginMode s cs) :
    FaithfulRun marginMode s cs ∧ Mirror (run marginMode s cs) := by
  induction cs generalizing s with
  | nil => exact ⟨trivial, hm⟩
  | cons c cs ih =>
    obtain ⟨hfaithful, hmirror⟩ := setLeverage_faithful (hh c List.mem_cons_self) hm hu.1
    obtain ⟨hrest, hend⟩ := ih (fun d hd => hh d (List.mem_cons_of_mem c hd)) hmirror hu.2
    exact ⟨⟨hfaithful, hrest⟩, hend⟩

/-- From an empty cache, every call of an undisturbed run is faithful, and the caches mirror
the exchange after it. -/
theorem leverage_mirrored (marginMode : String) (exchange : String → String → ℤ)
    (cs : List LeverageCall) (hh : ∀ c ∈ cs, ∀ v, Honest (c.answers v))
    (hu : UndisturbedRun marginMode (newSubmitter exchange) cs) :
    FaithfulRun marginMode (newSubmitter exchange) cs ∧
      Mirror (run marginMode (newSubmitter exchange) cs) :=
  run_faithful cs hh (mirror_new exchange) hu

end Calls

section Sample

def acceptedAnswer : Answer := ⟨true, false, some "00000", true⟩

theorem acceptedAnswer_honest : Honest acceptedAnswer :=
  ⟨fun _ => rfl, fun _ h => absurd rfl h⟩

def callFor (holdSide : String) (leverage : ℤ) : LeverageCall :=
  ⟨"BTCUSDT", leverage, holdSide, fun _ => acceptedAnswer⟩

theorem callFor_honest (holdSide : String) (leverage v : ℤ) :
    Honest ((callFor holdSide leverage).answers v) := acceptedAnswer_honest

/-- Requests with a side leave the other one as it is. -/
theorem isolated_mirrored :
    FaithfulRun "isolated" (newSubmitter (fun _ _ => 0)) [callFor "long" 10, callFor "short" 5] ∧
      Mirror (run "isolated" (newSubmitter (fun _ _ => 0))
        [callFor "long" 10, callFor "short" 5]) := by
  apply leverage_mirrored
  · intro c hc v
    simp only [List.mem_cons, List.not_mem_nil, or_false] at hc
    rcases hc with rfl | rfl <;> exact callFor_honest _ _ v
  · refine ⟨⟨by decide +kernel, fun _ n _ side _ w hw => nomatch hw⟩,
      ⟨by decide +kernel, fun _ n _ side haffected w hw => ?_⟩, trivial⟩
    have hother : ∀ other ∈ ["short", ""],
        (setLeverage "isolated" (newSubmitter (fun _ _ => 0))
          (callFor "long" 10)).state.leverageCache (cacheKey "BTCUSDT" other) = none := by
      decide +kernel
    have hnone := hother side (by
      rcases haffected (by decide) with rfl | rfl
      · exact List.mem_cons_self
      · exact List.mem_cons_of_mem _ List.mem_cons_self)
    exact nomatch hnone.symm.trans hw

def crossedCalls : List LeverageCall := [callFor "long" 10, callFor "short" 5, callFor "long" 10]

/-- Without a side in the request, the cached leverage of the other side goes stale. -/
theorem crossed_stale : ¬ ∀ (marginMode : String) (exchange : String → String → ℤ)
    (cs : List LeverageCall), (∀ c ∈ cs, ∀ v, Honest (c.answers v)) →
      FaithfulRun marginMode (newSubmitter exchange) cs := by
  intro hall
  have hhonest : ∀ c ∈ crossedCalls, ∀ v, Honest (c.answers v) := by
    intro c hc v
    simp only [crossedCalls, List.mem_cons, List.not_mem_nil, or_false] at hc
    rcases hc with rfl | rfl | rfl <;> exact callFor_honest _ _ v
  obtain ⟨-, -, hthird, -⟩ := hall "crossed" (fun _ _ => 0) crossedCalls hhonest
  have hhas := hthird.silent (by decide +kernel) (by decide +kernel)
  revert hhas
  rw [Has, if_neg (by decide)]
  decide +kernel

end Sample

end TB.LeverageCache
