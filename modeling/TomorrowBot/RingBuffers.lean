import TomorrowBot.CircularSlots

/-!
# The ring buffer

A fixed number of slots, written in a circle. What is read from the ring, from
the oldest entry on, is the end of the list of everything that was pushed.
-/

set_option autoImplicit false

namespace TB.RingBuffers
open CircularSlots
variable {α : Type}

structure RingBuffer (α : Type) where
  data : ℕ → α
  head : ℕ
  count : ℕ

namespace RingBuffer

def push (capacity : ℕ) (r : RingBuffer α) (value : α) : RingBuffer α where
  data := Function.update r.data r.head value
  head := (r.head + 1) % capacity
  count := if r.count < capacity then r.count + 1 else r.count

def startIndex (capacity : ℕ) (r : RingBuffer α) : ℕ :=
  if r.count < capacity then 0 else r.head

def slotOf (capacity : ℕ) (r : RingBuffer α) (idx : ℕ) : ℕ :=
  (r.startIndex capacity + idx) % capacity

def get (capacity : ℕ) (r : RingBuffer α) (idx : ℕ) : α := r.data (r.slotOf capacity idx)

def back (capacity : ℕ) (r : RingBuffer α) : α := r.get capacity (r.count - 1)

def setBack (capacity : ℕ) (r : RingBuffer α) (value : α) : RingBuffer α :=
  { r with data := Function.update r.data (r.slotOf capacity (r.count - 1)) value }

def empty (r : RingBuffer α) : Bool := r.count = 0

def toVector (capacity : ℕ) (r : RingBuffer α) : List α :=
  (List.range r.count).map (r.get capacity)

structure Holds (capacity : ℕ) (r : RingBuffer α) (l : List α) : Prop where
  kept : Kept capacity r.data l
  head : r.head = l.length % capacity
  count : r.count = min l.length capacity

variable {capacity : ℕ} {r : RingBuffer α} {l : List α}

theorem holds_push (h : Holds capacity r l) (x : α) :
    Holds capacity (r.push capacity x) (l ++ [x]) := by
  refine ⟨?_, ?_, ?_⟩
  · rw [push, h.head]
    exact kept_push h.kept x
  · simp [push, h.head]
  · simp only [push, h.count, List.length_append, List.length_singleton]
    split_ifs <;> omega

theorem Holds.slotOf_eq (h : Holds capacity r l) (i : ℕ) :
    r.slotOf capacity i = (l.length - min l.length capacity + i) % capacity := by
  unfold slotOf startIndex
  rw [h.count, h.head]
  split_ifs with hfree
  · congr 1
    omega
  · rw [← Nat.add_mod_right (l.length - min l.length capacity + i) capacity, Nat.mod_add_mod]
    congr 1
    omega

theorem Holds.slotOf_back {y : α} (h : Holds capacity r (l ++ [y])) (hc : 0 < capacity) :
    r.slotOf capacity (r.count - 1) = l.length % capacity := by
  have hcount := h.count
  rw [List.length_append, List.length_singleton] at hcount
  rw [h.slotOf_eq, List.length_append, List.length_singleton]
  congr 1
  omega

theorem Holds.back_eq {y : α} (h : Holds capacity r (l ++ [y])) (hc : 0 < capacity) :
    r.back capacity = y := by
  have hkept := h.kept l.length (by simp) (by simp; omega)
  rw [back, get, h.slotOf_back hc, hkept]
  simp

theorem holds_setBack {y : α} (h : Holds capacity r (l ++ [y])) (hc : 0 < capacity) (x : α) :
    Holds capacity (r.setBack capacity x) (l ++ [x]) := by
  refine ⟨?_, ?_, ?_⟩
  · rw [setBack, h.slotOf_back hc]
    exact kept_amend h.kept x
  · simpa [setBack] using h.head
  · simpa [setBack] using h.count

theorem Holds.empty_iff (h : Holds capacity r l) (hc : 0 < capacity) :
    r.empty = true ↔ l = [] := by
  rw [RingBuffer.empty, h.count, decide_eq_true_eq, ← List.length_eq_zero_iff]
  omega

theorem Holds.toVector_eq (h : Holds capacity r l) : r.toVector capacity = l.rtake capacity := by
  rw [toVector, h.count, ← kept_recent h.kept]
  apply List.map_congr_left
  intro i _
  rw [get, h.slotOf_eq]

end RingBuffer

end TB.RingBuffers
