import Phrasebook.Text.Basic

/-!
A lock that many threads may hold for reading or one for writing. A thread that reads may enter
again and again; a thread that waits to write keeps new readers out. The lock changes in atomic
steps. Acquiring for writing has two: the writer is registered, and later it is let in or gives up.
-/
namespace Phrasebook

structure Lock (Thread : Type) where
  readers : List (Thread × Nat) := []
  writer : Option Thread := none
  waiting : Nat := 0
deriving DecidableEq, Repr

namespace Lock

variable {Thread : Type} [DecidableEq Thread]

/-- Why a thread may not even wait. -/
inductive Refusal
  | readWhileWriting
  | writeWhileReading
  | writeWhileWriting
  | notReading
  | notWriting
deriving DecidableEq, Repr

def Refusal.message : Refusal → Text
  | readWhileWriting => "Cannot acquire read lock while holding write lock"
  | writeWhileReading => "Cannot upgrade read lock to write lock"
  | writeWhileWriting => "Cannot acquire write lock: already holding write lock"
  | notReading => "Thread does not hold read lock"
  | notWriting => "Thread does not hold write lock"

def depth? (lock : Lock Thread) (thread : Thread) : Option Nat := lock.readers.lookup thread

def setDepth (thread : Thread) (depth : Nat) : List (Thread × Nat) → List (Thread × Nat)
  | [] => []
  | entry :: rest =>
    if entry.1 = thread then (thread, depth) :: rest else entry :: setDepth thread depth rest

inductive Answer (Thread : Type)
  | granted (lock : Lock Thread)
  | wait
  | refused (reason : Refusal)
deriving Repr

def acquireRead (lock : Lock Thread) (thread : Thread) : Answer Thread :=
  match lock.depth? thread with
  | some depth => .granted { lock with readers := setDepth thread (depth + 1) lock.readers }
  | none =>
    if lock.writer = some thread then .refused .readWhileWriting
    else if lock.writer ≠ none ∨ 0 < lock.waiting then .wait
    else .granted { lock with readers := lock.readers ++ [(thread, 1)] }

def registerWriter (lock : Lock Thread) (thread : Thread) : Except Refusal (Lock Thread) :=
  if (lock.depth? thread).isSome then .error .writeWhileReading
  else if lock.writer = some thread then .error .writeWhileWriting
  else .ok { lock with waiting := lock.waiting + 1 }

def admitWriter? (lock : Lock Thread) (thread : Thread) : Option (Lock Thread) :=
  if lock.readers = [] ∧ lock.writer = none then
    some { lock with writer := some thread, waiting := lock.waiting - 1 }
  else none

def withdrawWriter (lock : Lock Thread) : Lock Thread := { lock with waiting := lock.waiting - 1 }

def releaseRead (lock : Lock Thread) (thread : Thread) : Except Refusal (Lock Thread) :=
  match lock.depth? thread with
  | none => .error .notReading
  | some depth =>
    if 1 < depth then .ok { lock with readers := setDepth thread (depth - 1) lock.readers }
    else .ok { lock with readers := lock.readers.filter (·.1 ≠ thread) }

def releaseWrite (lock : Lock Thread) (thread : Thread) : Except Refusal (Lock Thread) :=
  if lock.writer = some thread then .ok { lock with writer := none } else .error .notWriting

theorem releaseRead_acquireRead {thread : Thread} {waiting : Nat} {lock : Lock Thread}
    (h : acquireRead ⟨[], none, waiting⟩ thread = .granted lock) :
    lock.releaseRead thread = .ok ⟨[], none, waiting⟩ := by
  simp only [acquireRead, depth?, List.lookup_nil] at h
  split at h
  · simp at h
  · split at h
    · simp at h
    · obtain rfl := Answer.granted.inj h
      simp [releaseRead, depth?]

end Lock
end Phrasebook
