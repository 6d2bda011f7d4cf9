import Phrasebook.Lock.Threads
import Mathlib.Data.List.Nodup

/-!
Runs of a lock under the atomic steps of any number of threads, in any order. The history of a run
is kept beside it, the latest step first, and from the history alone one can tell who is inside,
how often, and who waits.
-/
namespace Phrasebook.Lock

inductive Deed
  /-- It enters for reading, anew or once more. -/
  | reads
  /-- It enters for writing without having to wait. -/
  | writes
  /-- It cannot enter for writing yet and is counted among those who wait. -/
  | registers
  /-- Having waited to write, it is let in. -/
  | admitted
  /-- Having waited to write, it gives up. -/
  | withdraws
  | stopsReading
  | stopsWriting
  /-- It is refused, is not ready to wait any longer, or named a senseless timeout. -/
  | fails (failure : Failure)
deriving DecidableEq

def Deed.Finishes : Deed → Prop
  | admitted | withdraws => True
  | _ => False

instance : DecidablePred Deed.Finishes
  | .admitted | .withdraws => isTrue trivial
  | .reads | .writes | .registers | .stopsReading | .stopsWriting | .fails _ => isFalse id

abbrev History (Thread : Type) := List (Thread × Deed)

variable {Thread : Type} [DecidableEq Thread] {history : History Thread} {lock later : Lock Thread}
  {thread : Thread} {deed : Deed}

/-- What the lock becomes by a deed of a thread. A thread that waits to read leaves no trace in the
lock: it asks again whenever it is woken, and it has read or failed only in the end. -/
inductive Step (lock : Lock Thread) (thread : Thread) : Deed → Lock Thread → Prop
  | reads {later : Lock Thread} (h : lock.acquireRead thread = .granted later) :
      Step lock thread .reads later
  | writes {registered later : Lock Thread} (h : lock.registerWriter thread = .ok registered)
      (hentry : registered.admitWriter? thread = some later) : Step lock thread .writes later
  | registers {registered : Lock Thread} (h : lock.registerWriter thread = .ok registered)
      (hentry : registered.admitWriter? thread = none) : Step lock thread .registers registered
  | admitted {later : Lock Thread} (h : lock.admitWriter? thread = some later) :
      Step lock thread .admitted later
  | withdraws : Step lock thread .withdraws lock.withdrawWriter
  | stopsReading {later : Lock Thread} (h : lock.releaseRead thread = .ok later) :
      Step lock thread .stopsReading later
  | stopsWriting {later : Lock Thread} (h : lock.releaseWrite thread = .ok later) :
      Step lock thread .stopsWriting later
  | badTimeout {timeout : Option Number} {failure : Failure}
      (h : patience timeout = .error failure) : Step lock thread (.fails failure) lock
  | readRefused {reason : Refusal} (h : lock.acquireRead thread = .refused reason) :
      Step lock thread (.fails (.refused reason)) lock
  | readTimedOut (h : lock.acquireRead thread = .wait) :
      Step lock thread (.fails (.timedOut .read)) lock
  | writeRefused {reason : Refusal} (h : lock.registerWriter thread = .error reason) :
      Step lock thread (.fails (.refused reason)) lock
  /-- A thread that is not ready to wait at all registers and gives up in one step. -/
  | writeTimedOut {registered : Lock Thread} (h : lock.registerWriter thread = .ok registered)
      (hentry : registered.admitWriter? thread = none) :
      Step lock thread (.fails (.timedOut .write)) registered.withdrawWriter
  | notReading {reason : Refusal} (h : lock.releaseRead thread = .error reason) :
      Step lock thread (.fails (.refused reason)) lock
  | notWriting {reason : Refusal} (h : lock.releaseWrite thread = .error reason) :
      Step lock thread (.fails (.refused reason)) lock

/-- The threads that have registered to write and were neither let in nor gave up. -/
def unfinished : History Thread → List Thread
  | [] => []
  | (thread, .registers) :: earlier => thread :: unfinished earlier
  | (thread, .admitted) :: earlier => (unfinished earlier).erase thread
  | (thread, .withdraws) :: earlier => (unfinished earlier).erase thread
  | _ :: earlier => unfinished earlier

/-- A thread that waits to write does nothing but be let in or give up, and no other thread does
either. -/
inductive Run : History Thread → Lock Thread → Prop
  | start : Run [] {}
  | step {history : History Thread} {lock later : Lock Thread} {thread : Thread} {deed : Deed}
      (run : Run history lock) (hfree : thread ∈ unfinished history ↔ deed.Finishes)
      (h : Step lock thread deed later) : Run ((thread, deed) :: history) later

def Reading (history : History Thread) (thread : Thread) : Prop :=
  history.count (thread, .stopsReading) < history.count (thread, .reads)

def Writing (history : History Thread) (thread : Thread) : Prop :=
  history.count (thread, .stopsWriting) <
    history.count (thread, .writes) + history.count (thread, .admitted)

theorem count_step (thread other : Thread) (deed done : Deed) (history : History Thread) :
    ((thread, deed) :: history).count (other, done) =
      history.count (other, done) + if thread = other ∧ deed = done then 1 else 0 := by
  simp [List.count_cons]

theorem lookup_cons_eq (reader other : Thread) (depth : Nat) (rest : List (Thread × Nat)) :
    ((reader, depth) :: rest).lookup other =
      if other = reader then some depth else rest.lookup other := by
  rw [List.lookup_cons]
  by_cases h : other = reader
  · simp [h]
  · simp [h, beq_eq_false_iff_ne.2 h]

theorem lookup_eq_some_iff {readers : List (Thread × Nat)} (h : (readers.map Prod.fst).Nodup)
    (depth : Nat) : readers.lookup thread = some depth ↔ (thread, depth) ∈ readers := by
  induction readers with
  | nil => simp
  | cons entry rest ih =>
    obtain ⟨reader, count⟩ := entry
    obtain ⟨hnew, hrest⟩ := List.nodup_cons.1 h
    rw [lookup_cons_eq, List.mem_cons, Prod.mk.injEq, ← ih hrest]
    by_cases hreader : thread = reader
    · subst hreader
      have hnone : rest.lookup thread ≠ some depth := fun hsome =>
        hnew (List.mem_map.2 ⟨_, (ih hrest).1 hsome, rfl⟩)
      simp [hnone, eq_comm]
    · simp [hreader]

theorem lookup_setDepth {readers : List (Thread × Nat)} (h : (readers.lookup thread).isSome)
    (depth : Nat) (other : Thread) :
    (setDepth thread depth readers).lookup other =
      if other = thread then some depth else readers.lookup other := by
  induction readers with
  | nil => simp at h
  | cons entry rest ih =>
    obtain ⟨reader, count⟩ := entry
    by_cases hreader : reader = thread
    · subst hreader
      simp only [setDepth, if_true, lookup_cons_eq]
      split <;> rfl
    · rw [lookup_cons_eq, if_neg (Ne.symm hreader)] at h
      simp only [setDepth, hreader, if_false, lookup_cons_eq, ih h]
      by_cases hother : other = reader
      · simp [hother, hreader]
      · simp [hother]

theorem keys_setDepth (thread : Thread) (depth : Nat) (readers : List (Thread × Nat)) :
    (setDepth thread depth readers).map Prod.fst = readers.map Prod.fst := by
  induction readers with
  | nil => rfl
  | cons entry rest ih =>
    by_cases h : entry.1 = thread <;> simp [setDepth, h, ih]

theorem lookup_leave (thread other : Thread) (readers : List (Thread × Nat)) :
    (readers.filter (·.1 ≠ thread)).lookup other =
      if other = thread then none else readers.lookup other := by
  induction readers with
  | nil => simp
  | cons entry rest ih =>
    obtain ⟨reader, count⟩ := entry
    rw [List.filter_cons]
    by_cases hreader : reader = thread
    · subst hreader
      simp only [ne_eq, not_true_eq_false, decide_false, Bool.false_eq_true, if_false, ih,
        lookup_cons_eq]
      split <;> rfl
    · simp only [ne_eq, hreader, not_false_eq_true, decide_true, if_true, lookup_cons_eq, ih]
      by_cases hother : other = reader
      · simp [hother, hreader]
      · simp [hother]

theorem acquireRead_eq_granted_iff : lock.acquireRead thread = .granted later ↔
    (∃ depth, lock.depth? thread = some depth ∧
      later = { lock with readers := setDepth thread (depth + 1) lock.readers }) ∨
    (lock.depth? thread = none ∧ lock.writer = none ∧ lock.waiting = 0 ∧
      later = { lock with readers := lock.readers ++ [(thread, 1)] }) := by
  unfold acquireRead
  cases hdepth : lock.depth? thread with
  | some depth => simp [eq_comm]
  | none =>
    cases hwriter : lock.writer with
    | some writer => by_cases h : writer = thread <;> simp [h]
    | none => by_cases h : lock.waiting = 0 <;> simp [h, Nat.pos_iff_ne_zero, eq_comm]

theorem registerWriter_eq_ok_iff : lock.registerWriter thread = .ok later ↔
    lock.depth? thread = none ∧ lock.writer ≠ some thread ∧
      later = { lock with waiting := lock.waiting + 1 } := by
  unfold registerWriter
  cases lock.depth? thread with
  | some depth => simp
  | none => by_cases h : lock.writer = some thread <;> simp [h, eq_comm]

/-- Giving up undoes the registration. -/
theorem withdrawWriter_registerWriter (h : lock.registerWriter thread = .ok later) :
    later.withdrawWriter = lock := by
  obtain ⟨-, -, rfl⟩ := registerWriter_eq_ok_iff.1 h
  rfl

omit [DecidableEq Thread] in
theorem admitWriter?_eq_some_iff : lock.admitWriter? thread = some later ↔
    lock.readers = [] ∧ lock.writer = none ∧
      later = { lock with writer := some thread, waiting := lock.waiting - 1 } := by
  unfold admitWriter?
  by_cases h : lock.readers = [] ∧ lock.writer = none
  · simp [h, eq_comm]
  · simp only [h, if_false, reduceCtorEq, false_iff]
    exact fun hall => h ⟨hall.1, hall.2.1⟩

omit [DecidableEq Thread] in
theorem admitWriter?_eq_none_iff : lock.admitWriter? thread = none ↔
    ¬(lock.readers = [] ∧ lock.writer = none) := by
  simp [admitWriter?]

theorem releaseRead_eq_ok_iff : lock.releaseRead thread = .ok later ↔
    ∃ depth, lock.depth? thread = some depth ∧
      later = { lock with
        readers := if 1 < depth then setDepth thread (depth - 1) lock.readers
          else lock.readers.filter (·.1 ≠ thread) } := by
  unfold releaseRead
  cases lock.depth? thread with
  | none => simp
  | some depth => by_cases h : 1 < depth <;> simp [h, eq_comm]

theorem releaseWrite_eq_ok_iff : lock.releaseWrite thread = .ok later ↔
    lock.writer = some thread ∧ later = { lock with writer := none } := by
  unfold releaseWrite
  by_cases h : lock.writer = some thread <;> simp [h, eq_comm]

/-- Entering for reading counts for the thread that enters, and for no other. -/
theorem depth?_acquireRead (h : lock.acquireRead thread = .granted later) (other : Thread) :
    later.depth? other =
      if other = thread then some ((lock.depth? thread).getD 0 + 1) else lock.depth? other := by
  obtain ⟨depth, hown, rfl⟩ | ⟨hown, -, -, rfl⟩ := acquireRead_eq_granted_iff.1 h
  · rw [depth?, lookup_setDepth (by rw [← depth?, hown]; rfl), hown]
    rfl
  · rw [depth?, List.lookup_append, lookup_cons_eq, hown, ← depth?]
    by_cases hother : other = thread
    · simp [hother, hown]
    · simp [hother]

/-- Only the outermost stop makes a thread leave. -/
theorem depth?_releaseRead (h : lock.releaseRead thread = .ok later) {depth : Nat}
    (hown : lock.depth? thread = some depth) (other : Thread) :
    later.depth? other =
      if other = thread then if 1 < depth then some (depth - 1) else none
      else lock.depth? other := by
  obtain ⟨held, hheld, rfl⟩ := releaseRead_eq_ok_iff.1 h
  obtain rfl := Option.some.inj (hheld.symm.trans hown)
  by_cases hdepth : 1 < held
  · simp only [hdepth, if_true]
    rw [depth?, lookup_setDepth (by rw [← depth?, hown]; rfl)]
    rfl
  · simp only [hdepth, if_false]
    rw [depth?, lookup_leave]
    rfl

theorem nodup_keys_acquireRead (h : lock.acquireRead thread = .granted later)
    (hkeys : (lock.readers.map Prod.fst).Nodup) : (later.readers.map Prod.fst).Nodup := by
  obtain ⟨depth, -, rfl⟩ | ⟨hown, -, -, rfl⟩ := acquireRead_eq_granted_iff.1 h
  · rw [keys_setDepth]
    exact hkeys
  · have hnew : thread ∉ lock.readers.map Prod.fst := by
      intro hmem
      obtain ⟨entry, hentry, hthread⟩ := List.mem_map.1 hmem
      have := List.lookup_eq_none_iff.1 hown entry hentry
      simp [hthread] at this
    rw [List.map_append]
    exact hkeys.append (List.nodup_singleton thread) (by simpa using hnew)

theorem nodup_keys_releaseRead (h : lock.releaseRead thread = .ok later)
    (hkeys : (lock.readers.map Prod.fst).Nodup) : (later.readers.map Prod.fst).Nodup := by
  obtain ⟨depth, -, rfl⟩ := releaseRead_eq_ok_iff.1 h
  by_cases hdepth : 1 < depth
  · simp only [hdepth, if_true, keys_setDepth]
    exact hkeys
  · simp only [hdepth, if_false]
    exact hkeys.sublist (List.filter_sublist.map Prod.fst)

end Phrasebook.Lock
