import TomorrowBot.Runs
import Mathlib.Data.Int.Notation
import Mathlib.Logic.Function.Basic

/-!
# The file logger and its rotation

A call that finds the file full closes it, moves the files on by one number without
the mutex, and opens a new one. Each file operation is a step of its own, between
which the other threads log.
-/

set_option autoImplicit false

namespace TB.LogRotation

abbrev Line := List UInt8

def newline : UInt8 := 10

abbrev Files := ℕ → Option (List Line)

structure FileLogger where
  minLevel : ℤ
  maxFileSize : ℕ
  maxRotatedFiles : ℕ
  currentSize : ℕ
  isOpen : Bool
  files : Files

structure LogEvent where
  level : ℤ
  formatted : Line

inductive LogThread where
  | idle
  | waiting (formatted : Line)
  | rotating (formatted : Line) (i : ℕ)
  | reopening (formatted : Line)
  deriving DecidableEq

def rename (files : Files) (src dst : ℕ) : Files :=
  match files src with
  | some c => Function.update (Function.update files src none) dst (some c)
  | none => files

def moveFile (files : Files) (maxRot i : ℕ) : Files :=
  if i = 0 then rename files 0 1
  else if i = maxRot then Function.update files i none
  else rename files i (i + 1)

def write (l : FileLogger) (formatted : Line) : FileLogger :=
  { l with
    files := Function.update l.files 0
      (some ((l.files 0).getD [] ++ formatted.splitOn newline))
    currentSize := l.currentSize + formatted.length + 1 }

def needsRotation (l : FileLogger) : Bool :=
  l.maxFileSize != 0 && decide (l.maxFileSize ≤ l.currentSize)

def logLocked (l : FileLogger) (formatted : Line) : FileLogger × LogThread :=
  if !l.isOpen then (l, .idle)
  else if needsRotation l then
    ({ l with
      isOpen := false
      currentSize := 0 }, .rotating formatted l.maxRotatedFiles)
  else (write l formatted, .idle)

def reopen (l : FileLogger) (formatted : Line) : FileLogger :=
  write { l with
    isOpen := true
    files := Function.update l.files 0 (some []) } formatted

structure World where
  logger : FileLogger
  threads : ℕ → LogThread
  due : List Line
  deleted : List Line
  before : Files

inductive Event where
  | setLevel (level : ℤ)
  | call (t : ℕ) (event : LogEvent)
  | enter (t : ℕ)
  | move (t : ℕ)
  | reopen (t : ℕ)

def World.become (w : World) (t : ℕ) (thread : LogThread) : World :=
  { w with threads := Function.update w.threads t thread }

def removed (l : FileLogger) (i : ℕ) : List Line :=
  if i = l.maxRotatedFiles ∧ i ≠ 0 then (l.files i).getD [] else []

def step (w : World) : Event → World
  | .setLevel level => { w with logger := { w.logger with minLevel := level } }
  | .call t event =>
    match w.threads t with
    | .idle =>
      if event.level < w.logger.minLevel then w else w.become t (.waiting event.formatted)
    | _ => w
  | .enter t =>
    match w.threads t with
    | .waiting formatted =>
      let r := logLocked w.logger formatted
      let due := if r.2 = .idle then w.due ++ [formatted] else w.due
      let before := if r.2 = .idle then w.before else w.logger.files
      { w.become t r.2 with
        logger := r.1
        due := due
        before := before }
    | _ => w
  | .move t =>
    match w.threads t with
    | .rotating formatted i =>
      let next := if i = 0 then LogThread.reopening formatted else .rotating formatted (i - 1)
      { w.become t next with
        logger := { w.logger with files := moveFile w.logger.files w.logger.maxRotatedFiles i }
        deleted := w.deleted ++ removed w.logger i }
    | _ => w
  | .reopen t =>
    match w.threads t with
    | .reopening formatted =>
      { w.become t .idle with
        logger := reopen w.logger formatted
        due := w.due ++ [formatted] }
    | _ => w

def lines (files : Files) : ℕ → List Line
  | 0 => []
  | n + 1 => (files n).getD [] ++ lines files n

def archive (l : FileLogger) : List Line := lines l.files (l.maxRotatedFiles + 1)

def constructed (l : FileLogger) : World where
  logger := { l with isOpen := true }
  threads _ := .idle
  due := archive l
  deleted := []
  before := l.files

section Layout
variable {files before : Files} {maxRot i n : ℕ}

theorem lines_congr {f g : Files} (h : ∀ j < n, f j = g j) : lines f n = lines g n := by
  induction n with
  | zero => rfl
  | succ n ih =>
    show (f n).getD [] ++ lines f n = (g n).getD [] ++ lines g n
    rw [h n (Nat.lt_succ_self n), ih fun j hj => h j (Nat.lt_succ_of_lt hj)]

theorem rename_src (hne : n ≠ i) : rename files i n i = none := by
  unfold rename
  cases hsrc : files i with
  | none => exact hsrc
  | some c => simp [Function.update_of_ne hne.symm]

theorem rename_dst (hfree : files n = none) : rename files i n n = files i := by
  unfold rename
  cases hsrc : files i with
  | none => exact hfree
  | some c => exact Function.update_self ..

theorem rename_other {j : ℕ} (hi : j ≠ i) (hn : j ≠ n) : rename files i n j = files j := by
  unfold rename
  cases files i with
  | none => rfl
  | some c => simp [Function.update_of_ne hi, Function.update_of_ne hn]

/-- A file moved to a free number next to its own leaves the lines as they are. -/
theorem lines_rename (hfree : files (i + 1) = none) (h : i + 1 < n) :
    lines (rename files i (i + 1)) n = lines files n := by
  induction n with
  | zero => omega
  | succ n ih =>
    rcases Nat.lt_or_eq_of_le (Nat.le_of_lt_succ h) with hlt | rfl
    · show (rename files i (i + 1) n).getD [] ++ _ = (files n).getD [] ++ _
      rw [rename_other (by omega) (by omega), ih hlt]
    · show (rename files i (i + 1) (i + 1)).getD [] ++
          ((rename files i (i + 1) i).getD [] ++ lines _ i) =
        (files (i + 1)).getD [] ++ ((files i).getD [] ++ lines files i)
      rw [rename_dst hfree, rename_src (by omega), hfree,
        lines_congr fun j hj => rename_other (by omega) (by omega)]
      rfl

theorem lines_remove :
    (files n).getD [] ++ lines (Function.update files n none) (n + 1) = lines files (n + 1) := by
  have hbelow : lines (Function.update files n none) n = lines files n :=
    lines_congr fun j hj => Function.update_of_ne (by omega) _ _
  show _ ++ ((Function.update files n none n).getD [] ++ _) = (files n).getD [] ++ _
  rw [Function.update_self, hbelow]
  rfl

theorem lines_write (added : List Line) :
    lines (Function.update files 0 (some ((files 0).getD [] ++ added))) (n + 1) =
      lines files (n + 1) ++ added := by
  induction n with
  | zero =>
    show (Function.update files 0 _ 0).getD [] ++ [] = ((files 0).getD [] ++ []) ++ added
    rw [Function.update_self]
    simp
  | succ n ih =>
    show (Function.update files 0 _ (n + 1)).getD [] ++ lines _ (n + 1) =
      ((files (n + 1)).getD [] ++ lines files (n + 1)) ++ added
    rw [ih, Function.update_of_ne (by omega), List.append_assoc]

structure Layout (before files : Files) (maxRot i : ℕ) : Prop where
  below : ∀ j ≤ i, files j = before j
  free : i < maxRot → files (i + 1) = none
  moved : ∀ j, i < j → j < maxRot → files (j + 1) = before j

structure Moved (before files : Files) (maxRot : ℕ) : Prop where
  path : files 0 = none
  moved : ∀ j < maxRot, files (j + 1) = before j

theorem layout_start (files : Files) (maxRot : ℕ) : Layout files files maxRot maxRot :=
  ⟨fun _ _ => rfl, fun h => absurd h (Nat.lt_irrefl _), fun _ h h' => absurd h (by omega)⟩

theorem layout_move (h : Layout before files maxRot (i + 1)) :
    Layout before (moveFile files maxRot (i + 1)) maxRot i := by
  unfold moveFile
  rw [if_neg (Nat.succ_ne_zero i)]
  by_cases hmax : i + 1 = maxRot
  · rw [if_pos hmax]
    refine ⟨fun j hj => ?_, fun _ => Function.update_self .., fun j h1 h2 => absurd h1 (by omega)⟩
    rw [Function.update_of_ne (by omega)]
    exact h.below j (by omega)
  · rw [if_neg hmax]
    refine ⟨fun j hj => ?_, fun _ => rename_src (by omega), fun j h1 h2 => ?_⟩
    · rw [rename_other (by omega) (by omega)]
      exact h.below j (by omega)
    · rcases Nat.lt_or_eq_of_le (Nat.succ_le_of_lt h1) with hlt | rfl
      · rw [rename_other (by omega) (by omega)]
        exact h.moved j hlt h2
      · rw [rename_dst (h.free (by omega))]
        exact h.below _ (Nat.le_refl _)

theorem layout_last (h : Layout before files maxRot 0) (hmax : 0 < maxRot) :
    Moved before (moveFile files maxRot 0) maxRot := by
  unfold moveFile
  rw [if_pos rfl]
  refine ⟨rename_src (by omega), fun j hj => ?_⟩
  rcases Nat.eq_zero_or_pos j with rfl | hpos
  · rw [rename_dst (h.free hmax)]
    exact h.below 0 (Nat.le_refl 0)
  · rw [rename_other (by omega) (by omega)]
    exact h.moved j hpos hj

/-- An operation of the rotation takes away the lines of the oldest file at most. -/
theorem lines_moveFile (h : Layout before files maxRot i) (hi : i ≤ maxRot) (hmax : 0 < maxRot) :
    (if i = maxRot ∧ i ≠ 0 then (files i).getD [] else []) ++
      lines (moveFile files maxRot i) (maxRot + 1) = lines files (maxRot + 1) := by
  unfold moveFile
  rcases Nat.eq_zero_or_pos i with rfl | hpos
  · rw [if_neg (fun hc => hc.2 rfl), if_pos rfl]
    exact lines_rename (h.free hmax) (by omega)
  · rw [if_neg (Nat.ne_of_gt hpos)]
    by_cases hlast : i = maxRot
    · rw [if_pos ⟨hlast, (Nat.ne_of_gt hpos)⟩, if_pos hlast, ← hlast]
      exact lines_remove
    · rw [if_neg (fun hc => hlast hc.1), if_neg hlast]
      exact lines_rename (h.free (by omega)) (by omega)

theorem moveFile_beyond {j : ℕ} (hi : i ≤ maxRot) (hmax : 0 < maxRot) (hj : maxRot < j) :
    moveFile files maxRot i j = files j := by
  unfold moveFile
  split_ifs
  · exact rename_other (by omega) (by omega)
  · exact Function.update_of_ne (by omega) _ _
  · exact rename_other (by omega) (by omega)

end Layout

section Runs
variable {w : World}

def Busy : LogThread → Prop
  | .idle => False
  | .waiting _ => False
  | .rotating _ _ => True
  | .reopening _ => True

inductive Phase (w : World) : Prop where
  | writing (hopen : w.logger.isOpen = true) (hfree : ∀ t, ¬ Busy (w.threads t))
  | rotating (t : ℕ) (formatted : Line) (i : ℕ) (hclosed : w.logger.isOpen = false)
      (ht : w.threads t = .rotating formatted i) (hfree : ∀ u, u ≠ t → ¬ Busy (w.threads u))
      (hi : i ≤ w.logger.maxRotatedFiles)
      (hlayout : Layout w.before w.logger.files w.logger.maxRotatedFiles i)
  | reopening (t : ℕ) (formatted : Line) (hclosed : w.logger.isOpen = false)
      (ht : w.threads t = .reopening formatted) (hfree : ∀ u, u ≠ t → ¬ Busy (w.threads u))
      (hmoved : Moved w.before w.logger.files w.logger.maxRotatedFiles)

theorem become_self (w : World) (t : ℕ) (thread : LogThread) :
    (w.become t thread).threads t = thread := Function.update_self ..

theorem become_other {t u : ℕ} (h : u ≠ t) (thread : LogThread) :
    (w.become t thread).threads u = w.threads u := Function.update_of_ne h _ _

theorem not_busy_become {t u : ℕ} {thread : LogThread} (hthread : ¬ Busy thread)
    (h : u ≠ t → ¬ Busy (w.threads u)) : ¬ Busy ((w.become t thread).threads u) := by
  by_cases hu : u = t
  · subst hu
    rwa [become_self]
  · rw [become_other hu]
    exact h hu

theorem phase_become {t : ℕ} {thread : LogThread} (ht : ¬ Busy (w.threads t))
    (hthread : ¬ Busy thread) (h : Phase w) : Phase (w.become t thread) := by
  cases h with
  | writing hopen hfree => exact .writing hopen fun u => not_busy_become hthread fun _ => hfree u
  | rotating u formatted i hclosed hu hfree hi hlayout =>
    have hne : u ≠ t := fun heq => ht (heq ▸ hu ▸ trivial)
    exact .rotating u formatted i hclosed ((become_other hne thread).trans hu)
      (fun v hv => not_busy_become hthread fun _ => hfree v hv) hi hlayout
  | reopening u formatted hclosed hu hfree hmoved =>
    have hne : u ≠ t := fun heq => ht (heq ▸ hu ▸ trivial)
    exact .reopening u formatted hclosed ((become_other hne thread).trans hu)
      (fun v hv => not_busy_become hthread fun _ => hfree v hv) hmoved

structure Kept (w₀ w : World) : Prop where
  phase : Phase w
  count : w.logger.maxRotatedFiles = w₀.logger.maxRotatedFiles
  beyond : ∀ i, w₀.logger.maxRotatedFiles < i → w.logger.files i = w₀.logger.files i

variable {w₀ : World} (hmax : 0 < w₀.logger.maxRotatedFiles)

theorem write_beyond (l : FileLogger) (formatted : Line) {i : ℕ} (h : 0 < i) :
    (write l formatted).files i = l.files i := Function.update_of_ne (Nat.ne_of_gt h) _ _

variable {t : ℕ}

theorem kept_become {thread : LogThread} (ht : ¬ Busy (w.threads t))
    (hthread : ¬ Busy thread) (h : Kept w₀ w) : Kept w₀ (w.become t thread) :=
  ⟨phase_become ht hthread h.phase, h.count, h.beyond⟩

variable {l : FileLogger}

theorem logLocked_closed (h : l.isOpen = false) (formatted : Line) :
    logLocked l formatted = (l, .idle) := by
  simp [logLocked, h]

theorem logLocked_full (hopen : l.isOpen = true)
    (hfull : needsRotation l = true) (formatted : Line) :
    logLocked l formatted =
      ({ l with
        isOpen := false
        currentSize := 0 }, .rotating formatted l.maxRotatedFiles) := by
  simp [logLocked, hopen, hfull]

theorem logLocked_room (hopen : l.isOpen = true)
    (hroom : needsRotation l = false) (formatted : Line) :
    logLocked l formatted = (write l formatted, .idle) := by
  simp [logLocked, hopen, hroom]

theorem call_cases (w : World) (t : ℕ) (event : LogEvent) :
    step w (.call t event) = w ∨
      (w.threads t = .idle ∧
        step w (.call t event) = w.become t (.waiting event.formatted)) := by
  cases ht : w.threads t with
  | idle =>
    by_cases hlevel : event.level < w.logger.minLevel
    · exact .inl (by simp [step, ht, hlevel])
    · exact .inr ⟨rfl, by simp [step, ht, hlevel]⟩
  | waiting | rotating | reopening => exact .inl (by simp [step, ht])

variable {formatted : Line}

/-- A call that gets the mutex finds the logger closed, full, or with room for its line. -/
theorem enter_cases (ht : w.threads t = .waiting formatted) :
    (w.logger.isOpen = false ∧ step w (.enter t) =
      { w.become t .idle with due := w.due ++ [formatted] }) ∨
    (w.logger.isOpen = true ∧ needsRotation w.logger = true ∧ step w (.enter t) =
      { w.become t (.rotating formatted w.logger.maxRotatedFiles) with
        logger := { w.logger with
          isOpen := false
          currentSize := 0 }
        before := w.logger.files }) ∨
    (w.logger.isOpen = true ∧ needsRotation w.logger = false ∧ step w (.enter t) =
      { w.become t .idle with
        logger := write w.logger formatted
        due := w.due ++ [formatted] }) := by
  cases hopen : w.logger.isOpen with
  | false => exact .inl ⟨rfl, by simp [step, ht, logLocked_closed hopen, World.become]⟩
  | true =>
    cases hfull : needsRotation w.logger with
    | true => exact .inr (.inl ⟨rfl, rfl, by
        simp [step, ht, logLocked_full hopen hfull, World.become]⟩)
    | false => exact .inr (.inr ⟨rfl, rfl, by
        simp [step, ht, logLocked_room hopen hfull, World.become]⟩)

theorem enter_other (ht : ∀ formatted, w.threads t ≠ .waiting formatted) :
    step w (.enter t) = w := by
  cases hthread : w.threads t with
  | waiting formatted => exact absurd hthread (ht formatted)
  | idle | rotating | reopening => simp [step, hthread]

theorem step_move {i : ℕ} (ht : w.threads t = .rotating formatted i) : step w (.move t) =
      { w.become t (if i = 0 then .reopening formatted else .rotating formatted (i - 1)) with
        logger := { w.logger with files := moveFile w.logger.files w.logger.maxRotatedFiles i }
        deleted := w.deleted ++ removed w.logger i } := by
  simp [step, ht]

theorem move_other (ht : ∀ formatted i, w.threads t ≠ .rotating formatted i) :
    step w (.move t) = w := by
  cases hthread : w.threads t with
  | rotating formatted i => exact absurd hthread (ht formatted i)
  | idle | waiting | reopening => simp [step, hthread]

theorem step_reopen (ht : w.threads t = .reopening formatted) : step w (.reopen t) =
      { w.become t .idle with
        logger := reopen w.logger formatted
        due := w.due ++ [formatted] } := by
  simp [step, ht]

theorem reopen_other (ht : ∀ formatted, w.threads t ≠ .reopening formatted) :
    step w (.reopen t) = w := by
  cases hthread : w.threads t with
  | reopening formatted => exact absurd hthread (ht formatted)
  | idle | waiting | rotating => simp [step, hthread]

theorem phase_open (h : Phase w) (hopen : w.logger.isOpen = true) (t : ℕ) :
    ¬ Busy (w.threads t) := by
  cases h with
  | writing _ hf => exact hf t
  | rotating _ _ _ hc => exact absurd (hopen.symm.trans hc) (by decide)
  | reopening _ _ hc => exact absurd (hopen.symm.trans hc) (by decide)

theorem phase_congr {v : World} (h : Phase w) (hl : v.logger.isOpen = w.logger.isOpen)
    (hn : v.logger.maxRotatedFiles = w.logger.maxRotatedFiles)
    (hfiles : v.logger.files = w.logger.files) (ht : v.threads = w.threads)
    (hb : v.before = w.before) : Phase v := by
  cases h with
  | writing ho hf => exact .writing (hl.trans ho) fun t => ht ▸ hf t
  | rotating u f i hc hu hf hi hlayout =>
    exact .rotating u f i (hl.trans hc) (ht ▸ hu) (fun t => ht ▸ hf t) (hn ▸ hi)
      (by rw [hb, hfiles, hn]; exact hlayout)
  | reopening u f hc hu hf hm =>
    exact .reopening u f (hl.trans hc) (ht ▸ hu) (fun t => ht ▸ hf t)
      (by rw [hb, hfiles, hn]; exact hm)

theorem enter_kept (h : Kept w₀ w) (t : ℕ) : Kept w₀ (step w (.enter t)) := by
  by_cases hwait : ∃ formatted, w.threads t = .waiting formatted
  · obtain ⟨formatted, ht⟩ := hwait
    have hdone : Kept w₀ (w.become t .idle) := kept_become (ht ▸ not_false) not_false h
    rcases enter_cases ht with ⟨_, hstep⟩ | ⟨hopen, _, hstep⟩ | ⟨hopen, _, hstep⟩ <;> rw [hstep]
    · exact ⟨phase_congr hdone.phase rfl rfl rfl rfl rfl, h.count, h.beyond⟩
    · have hfree := phase_open h.phase hopen
      refine ⟨.rotating t formatted w.logger.maxRotatedFiles rfl (become_self w t _)
        (fun u hu => ?_) (Nat.le_refl _) (layout_start _ _), h.count, h.beyond⟩
      show ¬ Busy ((w.become t _).threads u)
      rw [become_other hu]
      exact hfree u
    · have hfree := phase_open h.phase hopen
      exact ⟨.writing hopen fun u => not_busy_become not_false fun _ => hfree u, h.count,
        fun i hi => (write_beyond _ _ (by omega)).trans (h.beyond i hi)⟩
  · rwa [enter_other fun formatted ht => hwait ⟨formatted, ht⟩]

theorem phase_mover {t i : ℕ} {formatted : Line} (h : Phase w)
    (ht : w.threads t = .rotating formatted i) :
    w.logger.isOpen = false ∧ (∀ u, u ≠ t → ¬ Busy (w.threads u)) ∧
      i ≤ w.logger.maxRotatedFiles ∧
      Layout w.before w.logger.files w.logger.maxRotatedFiles i := by
  have hbusy : Busy (w.threads t) := ht ▸ trivial
  cases h with
  | writing _ hf => exact absurd hbusy (hf t)
  | reopening u f hc hu hf hm =>
    by_cases htu : t = u
    · subst htu
      exact LogThread.noConfusion (ht.symm.trans hu)
    · exact absurd hbusy (hf t htu)
  | rotating u f j hc hu hf hi hl =>
    by_cases htu : t = u
    · subst htu
      obtain ⟨-, rfl⟩ := LogThread.rotating.inj (ht.symm.trans hu)
      exact ⟨hc, hf, hi, hl⟩
    · exact absurd hbusy (hf t htu)

theorem phase_reopener (h : Phase w) (ht : w.threads t = .reopening formatted) :
    w.logger.isOpen = false ∧ (∀ u, u ≠ t → ¬ Busy (w.threads u)) ∧
      Moved w.before w.logger.files w.logger.maxRotatedFiles := by
  have hbusy : Busy (w.threads t) := ht ▸ trivial
  cases h with
  | writing _ hf => exact absurd hbusy (hf t)
  | rotating u f j hc hu hf hi hl =>
    by_cases htu : t = u
    · subst htu
      exact LogThread.noConfusion (ht.symm.trans hu)
    · exact absurd hbusy (hf t htu)
  | reopening u f hc hu hf hm =>
    by_cases htu : t = u
    · subst htu
      exact ⟨hc, hf, hm⟩
    · exact absurd hbusy (hf t htu)

include hmax in
theorem move_kept (h : Kept w₀ w) (t : ℕ) : Kept w₀ (step w (.move t)) := by
  by_cases hmove : ∃ formatted i, w.threads t = .rotating formatted i
  · obtain ⟨formatted, i, ht⟩ := hmove
    obtain ⟨hc, hf, hi, hl⟩ := phase_mover h.phase ht
    have hcount := h.count
    have hpos : 0 < w.logger.maxRotatedFiles := hcount ▸ hmax
    have hothers : ∀ (thread : LogThread), ∀ u, u ≠ t →
        ¬ Busy ((w.become t thread).threads u) := by
      intro thread u hu
      rw [become_other hu]
      exact hf u hu
    have hbeyond : ∀ k, w₀.logger.maxRotatedFiles < k →
        moveFile w.logger.files w.logger.maxRotatedFiles i k = w₀.logger.files k :=
      fun k hk => (moveFile_beyond hi hpos (by omega)).trans (h.beyond k hk)
    rw [step_move ht]
    cases i with
    | zero =>
      exact ⟨.reopening t formatted hc (become_self w t _) (hothers _)
        (layout_last hl hpos), hcount, hbeyond⟩
    | succ i =>
      exact ⟨.rotating t formatted i hc (become_self w t _) (hothers _)
        (Nat.le_of_succ_le hi) (layout_move hl), hcount, hbeyond⟩
  · rwa [move_other fun formatted i ht => hmove ⟨formatted, i, ht⟩]

theorem reopen_kept (h : Kept w₀ w) (t : ℕ) : Kept w₀ (step w (.reopen t)) := by
  by_cases hopens : ∃ formatted, w.threads t = .reopening formatted
  · obtain ⟨formatted, ht⟩ := hopens
    obtain ⟨-, hothers, -⟩ := phase_reopener h.phase ht
    rw [step_reopen ht]
    refine ⟨.writing rfl fun u => not_busy_become not_false fun hu => hothers u hu, h.count,
      fun i hi => ?_⟩
    exact (write_beyond _ _ (by omega)).trans
      ((Function.update_of_ne (by omega) _ _).trans (h.beyond i hi))
  · rwa [reopen_other fun formatted ht => hopens ⟨formatted, ht⟩]

include hmax in
theorem step_kept (h : Kept w₀ w) (e : Event) : Kept w₀ (step w e) := by
  cases e with
  | setLevel level =>
    exact ⟨phase_congr h.phase rfl rfl rfl rfl rfl, h.count, h.beyond⟩
  | call t event =>
    rcases call_cases w t event with hsame | ⟨hidle, hstep⟩
    · rwa [hsame]
    · rw [hstep]
      exact kept_become (hidle ▸ not_false) not_false h
  | enter t => exact enter_kept h t
  | move t => exact move_kept hmax h t
  | reopen t => exact reopen_kept h t

def Complete (w : World) : Prop := w.deleted ++ archive w.logger = w.due

/-- Nobody else has closed the file that the call finds, and the text has no line break. -/
def Safe (w : World) : Event → Prop
  | .enter t =>
    match w.threads t with
    | .waiting formatted =>
      w.logger.isOpen = true ∧ (needsRotation w.logger = false → newline ∉ formatted)
    | _ => True
  | .reopen t =>
    match w.threads t with
    | .reopening formatted => newline ∉ formatted
    | _ => True
  | _ => True

instance (w : World) : DecidablePred (Safe w)
  | .setLevel _ => inferInstanceAs (Decidable True)
  | .call _ _ => inferInstanceAs (Decidable True)
  | .move _ => inferInstanceAs (Decidable True)
  | .enter t => by
    unfold Safe
    dsimp only
    split <;> infer_instance
  | .reopen t => by
    unfold Safe
    dsimp only
    split <;> infer_instance

theorem splitOn_eq_self_iff : formatted.splitOn newline = [formatted] ↔ newline ∉ formatted := by
  refine ⟨fun h hmem => ?_, List.splitOn_eq_singleton⟩
  obtain ⟨front, back, rfl⟩ := List.append_of_mem hmem
  have hlen := congrArg List.length h
  rw [List.splitOn_append_cons_self, List.length_append] at hlen
  have hfront := List.length_pos_of_ne_nil (List.splitOn_ne_nil newline front)
  have hback := List.length_pos_of_ne_nil (List.splitOn_ne_nil newline back)
  simp at hlen
  omega

theorem archive_write (l : FileLogger) (formatted : Line) :
    archive (write l formatted) = archive l ++ formatted.splitOn newline := lines_write _

theorem archive_reopen {l : FileLogger} (hpath : l.files 0 = none) (formatted : Line) :
    archive (reopen l formatted) = archive l ++ formatted.splitOn newline := by
  have hempty : lines (Function.update l.files 0 (some [])) (l.maxRotatedFiles + 1) =
      lines l.files (l.maxRotatedFiles + 1) := by
    have h : lines (Function.update l.files 0 (some ((l.files 0).getD [] ++ [])))
        (l.maxRotatedFiles + 1) = lines l.files (l.maxRotatedFiles + 1) ++ [] := lines_write []
    rwa [hpath, List.append_nil (lines _ _)] at h
  exact (archive_write _ _).trans (congrArg (· ++ _) hempty)

theorem complete_written {kept due : List Line} (h : kept = due) (formatted : Line) :
    kept ++ formatted.splitOn newline = due ++ [formatted] ↔ newline ∉ formatted := by
  rw [h, List.append_cancel_left_eq, splitOn_eq_self_iff]

theorem enter_complete (h : Complete w) (t : ℕ) :
    Complete (step w (.enter t)) ↔ Safe w (.enter t) := by
  by_cases hwait : ∃ formatted, w.threads t = .waiting formatted
  · obtain ⟨formatted, ht⟩ := hwait
    have hsafe : Safe w (.enter t) ↔ w.logger.isOpen = true ∧
        (needsRotation w.logger = false → newline ∉ formatted) := by
      simp only [Safe, ht]
    rw [hsafe]
    rcases enter_cases ht with ⟨hopen, hstep⟩ | ⟨hopen, hfull, hstep⟩ | ⟨hopen, hroom, hstep⟩ <;>
      rw [hstep, hopen]
    · have hlost : ¬ w.deleted ++ archive w.logger = w.due ++ [formatted] := by
        rw [h]
        simp
      exact ⟨fun hc => absurd hc hlost, fun hc => absurd hc.1 (by decide)⟩
    · exact ⟨fun _ => ⟨rfl, fun hroom => absurd (hfull.symm.trans hroom) (by decide)⟩,
        fun _ => h⟩
    · have hwritten := complete_written h formatted
      rw [List.append_assoc, ← archive_write] at hwritten
      exact hwritten.trans ⟨fun hc => ⟨rfl, fun _ => hc⟩, fun hc => hc.2 hroom⟩
  · have hsame := enter_other fun formatted ht => hwait ⟨formatted, ht⟩
    rw [hsame]
    refine ⟨fun _ => ?_, fun _ => h⟩
    unfold Safe
    dsimp only
    split
    · next formatted ht => exact absurd ⟨formatted, ht⟩ hwait
    · trivial

include hmax in
theorem move_complete (hk : Kept w₀ w) (h : Complete w) (t : ℕ) :
    Complete (step w (.move t)) := by
  by_cases hmove : ∃ formatted i, w.threads t = .rotating formatted i
  · obtain ⟨formatted, i, ht⟩ := hmove
    obtain ⟨-, -, hi, hl⟩ := phase_mover hk.phase ht
    have hlines := lines_moveFile hl hi (hk.count ▸ hmax)
    rw [step_move ht]
    show (w.deleted ++ removed w.logger i) ++ lines _ _ = w.due
    rw [List.append_assoc]
    exact (congrArg (w.deleted ++ ·) hlines).trans h
  · rwa [move_other fun formatted i ht => hmove ⟨formatted, i, ht⟩]

theorem reopen_complete (hk : Kept w₀ w) (h : Complete w) (t : ℕ) :
    Complete (step w (.reopen t)) ↔ Safe w (.reopen t) := by
  by_cases hopens : ∃ formatted, w.threads t = .reopening formatted
  · obtain ⟨formatted, ht⟩ := hopens
    obtain ⟨-, -, hmoved⟩ := phase_reopener hk.phase ht
    have hsafe : Safe w (.reopen t) ↔ newline ∉ formatted := by simp only [Safe, ht]
    have hwritten := complete_written h formatted
    rw [List.append_assoc, ← archive_reopen hmoved.path] at hwritten
    rw [hsafe, step_reopen ht]
    exact hwritten
  · have hsame := reopen_other fun formatted ht => hopens ⟨formatted, ht⟩
    rw [hsame]
    refine ⟨fun _ => ?_, fun _ => h⟩
    unfold Safe
    dsimp only
    split
    · next formatted ht => exact absurd ⟨formatted, ht⟩ hopens
    · trivial

include hmax in
theorem step_complete (hk : Kept w₀ w) (h : Complete w) (e : Event) :
    Complete (step w e) ↔ Safe w e := by
  cases e with
  | setLevel level => exact iff_of_true h trivial
  | call t event =>
    refine iff_of_true ?_ trivial
    rcases call_cases w t event with hsame | ⟨-, hstep⟩
    · rwa [hsame]
    · rw [hstep]
      exact h
  | enter t => exact enter_complete h t
  | move t => exact iff_of_true (move_complete hmax hk h t) trivial
  | reopen t => exact reopen_complete hk h t

structure Lossless (w₀ w : World) : Prop where
  complete : Complete w
  moved : ∀ t formatted, w.threads t = .reopening formatted →
    ∀ i < w₀.logger.maxRotatedFiles, w.logger.files (i + 1) = w.before i
  beyond : ∀ i, w₀.logger.maxRotatedFiles < i → w.logger.files i = w₀.logger.files i

def OnlyCurrent (w : World) : Event → Prop
  | .move _ => True
  | e => ∀ i, 0 < i → (step w e).logger.files i = w.logger.files i

theorem kept_constructed (l : FileLogger) : Kept (constructed l) (constructed l) :=
  ⟨.writing rfl fun _ => not_false, rfl, fun _ _ => rfl⟩

theorem lossless_iff (hk : Kept w₀ w) : Lossless w₀ w ↔ Complete w := by
  refine ⟨Lossless.complete, fun h => ⟨h, fun t formatted ht i hi => ?_, hk.beyond⟩⟩
  obtain ⟨-, -, hmoved⟩ := phase_reopener hk.phase ht
  exact hmoved.moved i (hk.count ▸ hi)

theorem step_onlyCurrent (w : World) (e : Event) : OnlyCurrent w e := by
  cases e with
  | setLevel level => exact fun _ _ => rfl
  | call t event =>
    rcases call_cases w t event with hsame | ⟨-, hstep⟩
    · exact fun _ _ => by rw [hsame]
    · exact fun _ _ => by rw [hstep]; rfl
  | enter t =>
    intro i hi
    by_cases hwait : ∃ formatted, w.threads t = .waiting formatted
    · obtain ⟨formatted, ht⟩ := hwait
      rcases enter_cases ht with ⟨_, hstep⟩ | ⟨_, _, hstep⟩ | ⟨_, _, hstep⟩ <;> rw [hstep]
      · rfl
      · exact write_beyond w.logger formatted hi
    · rw [enter_other fun formatted ht => hwait ⟨formatted, ht⟩]
  | move t => trivial
  | reopen t =>
    intro i hi
    by_cases hopens : ∃ formatted, w.threads t = .reopening formatted
    · obtain ⟨formatted, ht⟩ := hopens
      rw [step_reopen ht]
      exact (write_beyond _ formatted hi).trans (Function.update_of_ne (Nat.ne_of_gt hi) _ _)
    · rw [reopen_other fun formatted ht => hopens ⟨formatted, ht⟩]

end Runs

/-- A run from a constructed logger loses nothing exactly when no call takes the mutex
while another one rotates, and no text that is written has a line break. -/
theorem rotation_lossless_iff (l : FileLogger) (hmax : 1 ≤ l.maxRotatedFiles)
    (events : List Event) :
    Runs.Meets step OnlyCurrent (constructed l) events ∧
      (Runs.Always step (Lossless (constructed l)) (constructed l) events ↔
        Runs.Meets step Safe (constructed l) events) := by
  refine ⟨Runs.meets_of_forall step _ _ events fun e _ w => step_onlyCurrent w e, ?_⟩
  have hpos : 0 < (constructed l).logger.maxRotatedFiles := hmax
  have hkept : ∀ w e, Kept (constructed l) w → Kept (constructed l) (step w e) :=
    fun w e h => step_kept hpos h e
  refine Runs.always_iff_meets step hkept (fun w e hk h => ?_) _ events (kept_constructed l)
    ⟨rfl, fun _ _ ht => LogThread.noConfusion ht, fun _ _ => rfl⟩
  rw [lossless_iff (hkept w e hk)]
  exact step_complete hpos hk h.complete e

def fullLogger : FileLogger where
  minLevel := 2
  maxFileSize := 10
  maxRotatedFiles := 1
  currentSize := 12
  isOpen := true
  files i := if i = 0 then some [[65], [66]] else none

def info (formatted : Line) : LogEvent := ⟨2, formatted⟩

def inTurn : List Event :=
  [.call 0 (info [67]), .enter 0, .move 0, .move 0, .reopen 0, .call 1 (info [68]), .enter 1]

def amidRotation : List Event :=
  [.call 0 (info [67]), .call 1 (info [68]), .enter 0, .move 0, .enter 1, .move 0, .reopen 0]

theorem rotation_lossless_in_turn :
    Runs.Always step (Lossless (constructed fullLogger)) (constructed fullLogger) inTurn :=
  (rotation_lossless_iff fullLogger (by decide) inTurn).2.mpr (by decide)

/-- The text of the second thread is in no file when both calls have returned. -/
theorem rotation_drops_line :
    (Runs.run step (constructed fullLogger) amidRotation).due = [[65], [66], [68], [67]] ∧
      (Runs.run step (constructed fullLogger) amidRotation).deleted = [] ∧
      archive (Runs.run step (constructed fullLogger) amidRotation).logger =
        [[65], [66], [67]] ∧
      (∀ t, t < 2 →
        (Runs.run step (constructed fullLogger) amidRotation).threads t = .idle) ∧
      ¬ Runs.Always step (Lossless (constructed fullLogger)) (constructed fullLogger)
        amidRotation := by
  refine ⟨by decide, by decide, by decide, by decide, fun h => ?_⟩
  have hlast := (Runs.always_last step h).complete
  exact absurd hlast (by unfold Complete; decide)

end TB.LogRotation
