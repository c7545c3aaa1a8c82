import TomorrowBot.RingBuffers

/-!
# Pushes and clears of the ring

A ring that is cleared forgets where it was, and is written from its first slot
again over what the slots still hold. The list it stands for is what was
pushed since the last clear, and every way of reading the ring reads the end
of that list.
-/

set_option autoImplicit false

namespace TB.RingBuffers
open CircularSlots RecentEntries
variable {α β : Type}

namespace RingBuffer

def fresh (data : ℕ → α) : RingBuffer α := ⟨data, 0, 0⟩

def size (r : RingBuffer α) : ℕ := r.count

def clear (r : RingBuffer α) : RingBuffer α := { r with head := 0, count := 0 }

def readBack (capacity : ℕ) (r : RingBuffer α) : Except String α :=
  if r.count = 0 then .error "RingBuffer::back() called on empty buffer"
  else .ok (r.back capacity)

def front (capacity : ℕ) (r : RingBuffer α) : Except String α :=
  if r.count = 0 then .error "RingBuffer::front() called on empty buffer"
  else .ok (r.get capacity 0)

def copyStart (r : RingBuffer α) (n : ℕ) : ℕ := if r.count > n then r.count - n else 0

def toVectorOf (capacity : ℕ) (r : RingBuffer α) (n : ℕ) : List α :=
  let n := min n r.count
  let start := r.copyStart n
  (List.range' start (r.count - start)).map (r.get capacity)

def writeAll (output : List β) (value : ℕ → β) : ℕ → List β
  | 0 => output
  | n + 1 => (writeAll output value n).set n (value n)

def extractField (capacity : ℕ) (r : RingBuffer α) (blank : β) (output : List β)
    (field : α → β) (n : ℕ) : List β :=
  let n := min n r.count
  let start := r.copyStart n
  writeAll ((output.take n).rightpad n blank) (fun i => field (r.get capacity (start + i))) n

inductive Call (α : Type)
  | push (value : α)
  | clear

def call (capacity : ℕ) (r : RingBuffer α) : Call α → RingBuffer α
  | .push value => r.push capacity value
  | .clear => r.clear

def run (capacity : ℕ) (r : RingBuffer α) (calls : List (Call α)) : RingBuffer α :=
  calls.foldl (call capacity) r

def pushed (l : List α) : Call α → List α
  | .push value => l ++ [value]
  | .clear => []

def sinceClear (calls : List (Call α)) : List α := calls.foldl pushed []

variable {capacity : ℕ} {r : RingBuffer α} {l : List α}

theorem holds_fresh (capacity : ℕ) (data : ℕ → α) : Holds capacity (fresh data) [] :=
  ⟨kept_nil capacity data, by simp [fresh], by simp [fresh]⟩

theorem holds_clear (r : RingBuffer α) : Holds capacity r.clear [] :=
  ⟨kept_nil capacity r.data, by simp [clear], by simp [clear]⟩

theorem holds_call (h : Holds capacity r l) (c : Call α) :
    Holds capacity (call capacity r c) (pushed l c) := by
  cases c with
  | push value => exact holds_push h value
  | clear => exact holds_clear r

theorem holds_run (h : Holds capacity r l) (calls : List (Call α)) :
    Holds capacity (run capacity r calls) (calls.foldl pushed l) := by
  induction calls generalizing r l with
  | nil => exact h
  | cons c calls ih => exact ih (holds_call h c)

theorem Holds.get_eq (h : Holds capacity r l) (i : ℕ) (hi : i < r.size) :
    (l.rtake r.size)[i]? = some (r.get capacity i) := by
  rw [size, h.count] at hi
  have hindex : l.length - min l.length capacity + i < l.length := by omega
  have hkept := h.kept _ hindex (by omega)
  rw [get, h.slotOf_eq, hkept, size, h.count, List.rtake, List.getElem?_drop,
    List.getElem?_eq_getElem hindex]

theorem Holds.rtake_size (h : Holds capacity r l) : l.rtake r.size = l.rtake capacity := by
  rw [size, h.count, List.rtake, List.rtake]
  congr 1
  omega

theorem Holds.map_get (h : Holds capacity r l) {n : ℕ} (hn : n ≤ r.size) :
    (List.range n).map (fun i => r.get capacity (r.size - n + i)) = l.rtake n := by
  have hsize : r.size ≤ l.length := by rw [size, h.count]; exact Nat.min_le_left _ _
  apply List.ext_getElem
  · simp [List.rtake]
    omega
  · intro i hi hi'
    simp only [List.length_map, List.length_range] at hi
    have hget := h.get_eq (r.size - n + i) (by omega)
    rw [List.rtake, List.getElem?_drop] at hget
    simp only [List.getElem_map, List.getElem_range, List.rtake, List.getElem_drop]
    rw [List.getElem?_eq_getElem (by omega)] at hget
    rw [← Option.some_inj, ← hget]
    congr 2
    omega

theorem copyStart_eq (r : RingBuffer α) (n : ℕ) : r.copyStart n = r.size - n := by
  unfold copyStart size
  split_ifs <;> omega

theorem Holds.toVectorOf_eq (h : Holds capacity r l) (n : ℕ) :
    r.toVectorOf capacity n = l.rtake (min n r.size) := by
  rw [← h.map_get (Nat.min_le_right n r.size), toVectorOf, copyStart_eq,
    List.range'_eq_map_range, List.map_map, ← size, Nat.sub_sub_self (Nat.min_le_right n r.size)]
  rfl

/-- The indices that are written leave nothing of what was there. -/
theorem writeAll_eq (output : List β) (value : ℕ → β) (n : ℕ) (hn : n ≤ output.length) :
    writeAll output value n = (List.range n).map value ++ output.drop n := by
  induction n with
  | zero => simp [writeAll]
  | succ n ih =>
    rw [writeAll, ih (by omega), List.set_append_right _ _ (by simp), List.length_map,
      List.length_range, Nat.sub_self, List.drop_eq_getElem_cons (by omega), List.set_cons_zero,
      List.range_succ, List.map_append, List.append_assoc]
    rfl

theorem Holds.extractField_eq (h : Holds capacity r l) (blank : β) (output : List β)
    (field : α → β) (n : ℕ) :
    r.extractField capacity blank output field n = (l.rtake (min n r.size)).map field := by
  have hlength : ((output.take (min n r.size)).rightpad (min n r.size) blank).length =
      min n r.size := by
    rw [List.rightpad, List.length_append, List.length_replicate, List.length_take]
    omega
  change writeAll ((output.take (min n r.size)).rightpad (min n r.size) blank) _
    (min n r.size) = _
  rw [writeAll_eq _ _ _ hlength.ge, List.drop_of_length_le hlength.le, List.append_nil,
    ← h.map_get (Nat.min_le_right n r.size), List.map_map]
  simp only [copyStart_eq]
  rfl

theorem Holds.readBack_eq (h : Holds capacity r l) (hc : 0 < capacity) :
    r.readBack capacity =
      ((l.rtake r.size).getLast?).elim
        (.error "RingBuffer::back() called on empty buffer") .ok := by
  rcases List.eq_nil_or_concat l with rfl | ⟨older, last, rfl⟩
  · simp [readBack, h.count]
  · rw [List.concat_eq_append] at h ⊢
    have hcount : r.count ≠ 0 := by
      rw [h.count, List.length_append, List.length_singleton]
      omega
    rw [readBack, if_neg hcount, h.back_eq hc, h.rtake_size, getLast_rtake hc]
    simp

theorem Holds.front_eq (h : Holds capacity r l) :
    r.front capacity =
      ((l.rtake r.size).head?).elim
        (.error "RingBuffer::front() called on empty buffer") .ok := by
  by_cases hcount : r.count = 0
  · simp [front, hcount, size]
  · rw [front, if_neg hcount, List.head?_eq_getElem?, h.get_eq 0 (Nat.pos_of_ne_zero hcount)]
    rfl

/-- After any pushes and clears the ring is the list of the last pushes since
the last clear, whichever way it is read. -/
theorem ring_last_pushes (hc : 0 < capacity) (data : ℕ → α) (calls : List (Call α)) :
    let r := run capacity (fresh data) calls
    let l := (sinceClear calls).rtake r.size
    r.size = min capacity (sinceClear calls).length ∧
      (∀ i, i < r.size → l[i]? = some (r.get capacity i)) ∧
      r.readBack capacity =
        l.getLast?.elim (.error "RingBuffer::back() called on empty buffer") .ok ∧
      r.front capacity =
        l.head?.elim (.error "RingBuffer::front() called on empty buffer") .ok ∧
      (∀ n, r.toVectorOf capacity n = (sinceClear calls).rtake (min n r.size)) ∧
      ∀ (β : Type) (blank : β) (output : List β) (field : α → β) (n : ℕ),
        r.extractField capacity blank output field n =
          ((sinceClear calls).rtake (min n r.size)).map field := by
  intro r l
  have h : Holds capacity r (sinceClear calls) := holds_run (holds_fresh capacity data) calls
  refine ⟨?_, h.get_eq, h.readBack_eq hc, h.front_eq, h.toVectorOf_eq, ?_⟩
  · rw [size, h.count, Nat.min_comm]
  · intro β blank output field n
    exact h.extractField_eq blank output field n

theorem ring_three_of_four :
    let r := run 3 (fresh fun _ => 0) [.push 7, .clear, .push 1, .push 2, .push 3, .push 4]
    r.toVectorOf 3 2 = [3, 4] :=
  ((ring_last_pushes (by decide : 0 < 3) (fun _ => 0)
    [.push 7, .clear, .push 1, .push 2, .push 3, .push 4]).2.2.2.2.1 2).trans (by decide)

end RingBuffer

end TB.RingBuffers
