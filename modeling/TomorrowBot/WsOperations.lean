import Mathlib.Data.Int.Notation
import Mathlib.Data.List.Basic

/-!
# Asynchronous operations of websocket streams

An operation belongs to the stream it was started on. Replacing or destroying
the stream does not take its operations back: they complete later, as
aborted. Operations of one kind on one stream are not told apart.
-/

set_option autoImplicit false

namespace TB.WsOperations

inductive OpKind where
  | resolve
  | tcpConnect
  | sslHandshake
  | wsHandshake
  | read
  | write
  deriving DecidableEq, Repr

structure Op where
  kind : OpKind
  stream : ℕ
  deriving DecidableEq, Repr

inductive ErrorCode where
  | success
  | operationAborted
  | failed
  deriving DecidableEq, Repr

def Op.errorCode (op : Op) (current : Option ℕ) (ec : ErrorCode) : ErrorCode :=
  if op.kind = .resolve ∨ current = some op.stream then ec else .operationAborted

def Op.isAttempt (op : Op) : Bool := op.kind ≠ .read && op.kind ≠ .write

def attempts (pending : List Op) : List Op := pending.filter Op.isAttempt

theorem errorCode_own (op : Op) (k : ℕ) (ec : ErrorCode) (h : op.stream = k) :
    op.errorCode (some k) ec = ec := by
  simp [Op.errorCode, h]

theorem errorCode_stale (op : Op) (current : Option ℕ) (ec : ErrorCode)
    (ha : op.isAttempt = false) (h : current ≠ some op.stream) :
    op.errorCode current ec = .operationAborted := by
  have hk : op.kind ≠ .resolve := by
    intro hk
    simp [Op.isAttempt, hk] at ha
  simp [Op.errorCode, hk, h]

theorem read_or_write (op : Op) (k : ℕ) (hs : op.stream = k) (ha : op.isAttempt = false) :
    op = ⟨.read, k⟩ ∨ op = ⟨.write, k⟩ := by
  obtain ⟨kind, stream⟩ := op
  obtain rfl : stream = k := hs
  cases kind <;> simp_all [Op.isAttempt]

theorem attempts_eq_nil (pending : List Op) (h : ∀ op ∈ pending, op.isAttempt = false) :
    attempts pending = [] := by
  simpa [attempts] using h

theorem attempts_append (pending rest : List Op) :
    attempts (pending ++ rest) = attempts pending ++ attempts rest :=
  List.filter_append ..

theorem attempts_erase (pending : List Op) (op : Op) :
    attempts (pending.erase op) = (attempts pending).erase op := List.erase_filter.symm

section Written
variable {M : Type}

def writtenOn (k : ℕ) (written : List (ℕ × M)) : List M :=
  (written.filter (fun p => p.1 = k)).map Prod.snd

theorem writtenOn_self (k : ℕ) (written : List (ℕ × M)) (m : M) :
    writtenOn k (written ++ [(k, m)]) = writtenOn k written ++ [m] := by
  simp [writtenOn]

theorem writtenOn_other (k l : ℕ) (written : List (ℕ × M)) (m : M) (h : l ≠ k) :
    writtenOn k (written ++ [(l, m)]) = writtenOn k written := by
  simp [writtenOn, h]

end Written

end TB.WsOperations
