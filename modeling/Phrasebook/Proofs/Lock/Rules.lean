import Phrasebook.Proofs.Lock.Steps

/-!
What every run of a lock keeps: the lock agrees with the history of the run, and readers and a
writer are never inside together. An attempt that failed is as if it had not been made, even where
its registration kept others waiting for a while.
-/
namespace Phrasebook.Lock

variable {Thread : Type} [DecidableEq Thread] {history : History Thread} {lock later : Lock Thread}
  {thread : Thread} {deed : Deed}

/-- The lock agrees with the history of its steps. -/
structure Accounts (history : History Thread) (lock : Lock Thread) : Prop where
  exclusive : lock.writer ≠ none → lock.readers = []
  keys : (lock.readers.map Prod.fst).Nodup
  positive : ∀ thread depth, lock.depth? thread = some depth → 0 < depth
  depth : ∀ thread, (lock.depth? thread).getD 0 + history.count (thread, .stopsReading) =
    history.count (thread, .reads)
  writer : ∀ thread,
    (if lock.writer = some thread then 1 else 0) + history.count (thread, .stopsWriting) =
      history.count (thread, .writes) + history.count (thread, .admitted)
  waiting : lock.waiting = (unfinished history).length
  once : (unfinished history).Nodup

namespace Accounts

theorem writer_eq_none (accounts : Accounts history lock) {depth : Nat}
    (h : lock.depth? thread = some depth) : lock.writer = none := by
  by_contra hwriter
  rw [depth?, accounts.exclusive hwriter] at h
  simp at h

theorem depth?_eq_some_iff (accounts : Accounts history lock) {depth : Nat} :
    lock.depth? thread = some depth ↔
      0 < depth ∧ depth + history.count (thread, .stopsReading) =
        history.count (thread, .reads) := by
  have hcount := accounts.depth thread
  cases hdepth : lock.depth? thread with
  | none =>
    rw [hdepth, Option.getD_none] at hcount
    simp only [reduceCtorEq, false_iff]
    omega
  | some held =>
    have hpositive := accounts.positive thread held hdepth
    rw [hdepth, Option.getD_some] at hcount
    rw [Option.some.injEq]
    omega

theorem mem_readers_iff (accounts : Accounts history lock) {depth : Nat} :
    (thread, depth) ∈ lock.readers ↔
      0 < depth ∧ depth + history.count (thread, .stopsReading) =
        history.count (thread, .reads) := by
  rw [← lookup_eq_some_iff accounts.keys, ← depth?, accounts.depth?_eq_some_iff]

/-- The readers of the lock are those that have not left as often as they entered. -/
theorem reading_iff (accounts : Accounts history lock) :
    Reading history thread ↔ ∃ depth, lock.depth? thread = some depth := by
  simp only [accounts.depth?_eq_some_iff, Reading]
  constructor
  · intro h
    exact ⟨history.count (thread, .reads) - history.count (thread, .stopsReading), by omega⟩
  · rintro ⟨depth, hpositive, hcount⟩
    omega

theorem writer_eq_some_iff (accounts : Accounts history lock) :
    lock.writer = some thread ↔ Writing history thread := by
  have hcount := accounts.writer thread
  unfold Writing
  split at hcount
  · next h => exact ⟨fun _ => by omega, fun _ => h⟩
  · next h => exact ⟨fun h' => absurd h' h, fun _ => by omega⟩

theorem start : Accounts ([] : History Thread) {} := by
  constructor <;> simp [unfinished, depth?]

/-- A deed that changes the depth of one reader while nobody writes. -/
theorem of_readers (accounts : Accounts history lock) {depth : Option Nat}
    (hdeed : deed = .reads ∨ deed = .stopsReading) (hnobody : lock.writer = none)
    (hwriter : later.writer = lock.writer) (hwaiting : later.waiting = lock.waiting)
    (hkeys : (later.readers.map Prod.fst).Nodup)
    (hdepth : ∀ other, later.depth? other = if other = thread then depth else lock.depth? other)
    (hpositive : ∀ count, depth = some count → 0 < count)
    (hcount : depth.getD 0 + ((thread, deed) :: history).count (thread, .stopsReading) =
      ((thread, deed) :: history).count (thread, .reads)) :
    Accounts ((thread, deed) :: history) later where
  exclusive := fun h => absurd (hwriter.trans hnobody) h
  keys := hkeys
  positive := by
    intro other count h
    rw [hdepth] at h
    split at h
    · exact hpositive count h
    · exact accounts.positive other count h
  depth := by
    intro other
    rw [hdepth]
    split
    · next hother =>
      subst hother
      exact hcount
    · next hother => simpa [count_step, Ne.symm hother] using accounts.depth other
  writer := by
    intro other
    rw [hwriter]
    obtain rfl | rfl := hdeed <;> simpa [count_step] using accounts.writer other
  waiting := by
    rw [hwaiting]
    obtain rfl | rfl := hdeed <;> exact accounts.waiting
  once := by obtain rfl | rfl := hdeed <;> exact accounts.once

theorem reads (accounts : Accounts history lock) (h : lock.acquireRead thread = .granted later) :
    Accounts ((thread, .reads) :: history) later := by
  have hframe : lock.writer = none ∧ later.writer = lock.writer ∧
      later.waiting = lock.waiting := by
    obtain ⟨depth, hown, rfl⟩ | ⟨-, hwriter, -, rfl⟩ := acquireRead_eq_granted_iff.1 h
    · exact ⟨accounts.writer_eq_none hown, rfl, rfl⟩
    · exact ⟨hwriter, rfl, rfl⟩
  obtain ⟨hnobody, hwriter, hwaiting⟩ := hframe
  have hcount := accounts.depth thread
  apply accounts.of_readers (.inl rfl) hnobody hwriter hwaiting
    (nodup_keys_acquireRead h accounts.keys) (depth?_acquireRead h)
  · intro count hsome
    have := Option.some.inj hsome
    omega
  · simp only [count_step, Option.getD_some, reduceCtorEq, and_false, and_self, if_true, if_false]
    omega

theorem stopsReading (accounts : Accounts history lock) (h : lock.releaseRead thread = .ok later) :
    Accounts ((thread, .stopsReading) :: history) later := by
  have hkeys := nodup_keys_releaseRead h accounts.keys
  obtain ⟨depth, hown, hlater⟩ := releaseRead_eq_ok_iff.1 h
  have hpositive := accounts.positive thread depth hown
  have hcount := accounts.depth thread
  rw [hown] at hcount
  apply accounts.of_readers (.inr rfl) (accounts.writer_eq_none hown) _ _ hkeys
    (depth?_releaseRead h hown)
  · intro count hsome
    split at hsome
    · have := Option.some.inj hsome
      omega
    · simp at hsome
  · simp only [count_step, reduceCtorEq, and_false, and_self, if_true, if_false]
    simp only [Option.getD_some] at hcount
    split
    · simp only [Option.getD_some]
      omega
    · simp only [Option.getD_none]
      omega
  · rw [hlater]
  · rw [hlater]

/-- A deed that changes who writes, or who waits to, while nobody reads. -/
theorem of_writer (accounts : Accounts history lock) {writer : Option Thread} {waiting : Nat}
    (hdeed : deed ≠ .reads ∧ deed ≠ .stopsReading) (hempty : lock.readers = [])
    (hwriter : ∀ other, (if writer = some other then 1 else 0) +
      ((thread, deed) :: history).count (other, .stopsWriting) =
        ((thread, deed) :: history).count (other, .writes) +
          ((thread, deed) :: history).count (other, .admitted))
    (hwaiting : waiting = (unfinished ((thread, deed) :: history)).length)
    (honce : (unfinished ((thread, deed) :: history)).Nodup) :
    Accounts ((thread, deed) :: history) { lock with writer, waiting } where
  exclusive := fun _ => hempty
  keys := accounts.keys
  positive := accounts.positive
  depth := by
    intro other
    simpa [depth?, count_step, hdeed] using accounts.depth other
  writer := hwriter
  waiting := hwaiting
  once := honce

/-- Only the thread that enters has entered for writing more often than it has left. -/
theorem writer_enters (accounts : Accounts history lock) (hnobody : lock.writer = none)
    (hdeed : deed = .writes ∨ deed = .admitted) (other : Thread) :
    (if some thread = some other then 1 else 0) +
      ((thread, deed) :: history).count (other, .stopsWriting) =
        ((thread, deed) :: history).count (other, .writes) +
          ((thread, deed) :: history).count (other, .admitted) := by
  have hcount := accounts.writer other
  rw [hnobody] at hcount
  by_cases hother : thread = other
  · obtain rfl | rfl := hdeed <;> simp [hother] at hcount ⊢ <;> omega
  · simpa [count_step, hother] using hcount

theorem writes (accounts : Accounts history lock) {registered : Lock Thread}
    (h : lock.registerWriter thread = .ok registered)
    (hentry : registered.admitWriter? thread = some later) :
    Accounts ((thread, .writes) :: history) later := by
  obtain ⟨-, -, rfl⟩ := registerWriter_eq_ok_iff.1 h
  obtain ⟨hempty, hnobody, rfl⟩ := admitWriter?_eq_some_iff.1 hentry
  apply accounts.of_writer (by simp) hempty (accounts.writer_enters hnobody (.inl rfl))
  · exact accounts.waiting
  · exact accounts.once

theorem admitted (accounts : Accounts history lock) (hwaits : thread ∈ unfinished history)
    (h : lock.admitWriter? thread = some later) :
    Accounts ((thread, .admitted) :: history) later := by
  obtain ⟨hempty, hnobody, rfl⟩ := admitWriter?_eq_some_iff.1 h
  apply accounts.of_writer (by simp) hempty (accounts.writer_enters hnobody (.inr rfl))
  · rw [unfinished, List.length_erase_of_mem hwaits, ← accounts.waiting]
  · exact accounts.once.erase thread

theorem mem_unfinished_admitted (accounts : Accounts history lock) {other : Thread} :
    other ∈ unfinished ((thread, .admitted) :: history) ↔
      other ≠ thread ∧ other ∈ unfinished history :=
  accounts.once.mem_erase_iff

theorem stopsWriting (accounts : Accounts history lock)
    (h : lock.releaseWrite thread = .ok later) :
    Accounts ((thread, .stopsWriting) :: history) later := by
  obtain ⟨hown, rfl⟩ := releaseWrite_eq_ok_iff.1 h
  have hempty : lock.readers = [] := accounts.exclusive (by simp [hown])
  apply accounts.of_writer (by simp) hempty
  · intro other
    have hcount := accounts.writer other
    rw [hown] at hcount
    by_cases hother : thread = other
    · simp [hother] at hcount ⊢
      omega
    · simpa [count_step, hother] using hcount
  · exact accounts.waiting
  · exact accounts.once

/-- A deed that changes only how many wait. -/
theorem of_waiting (accounts : Accounts history lock) {waiting : Nat}
    (hdeed : deed ∉ [.reads, .stopsReading, .writes, .admitted, .stopsWriting])
    (hwaiting : waiting = (unfinished ((thread, deed) :: history)).length)
    (honce : (unfinished ((thread, deed) :: history)).Nodup) :
    Accounts ((thread, deed) :: history) { lock with waiting } where
  exclusive := accounts.exclusive
  keys := accounts.keys
  positive := accounts.positive
  depth := by
    intro other
    simp only [List.mem_cons, not_or] at hdeed
    simpa [depth?, count_step, hdeed] using accounts.depth other
  writer := by
    intro other
    simp only [List.mem_cons, not_or] at hdeed
    simpa [count_step, hdeed] using accounts.writer other
  waiting := hwaiting
  once := honce

theorem registers (accounts : Accounts history lock) (hfree : thread ∉ unfinished history)
    (h : lock.registerWriter thread = .ok later) :
    Accounts ((thread, .registers) :: history) later := by
  obtain ⟨-, -, rfl⟩ := registerWriter_eq_ok_iff.1 h
  apply accounts.of_waiting (by simp)
  · rw [unfinished, List.length_cons, ← accounts.waiting]
  · exact List.nodup_cons.2 ⟨hfree, accounts.once⟩

theorem withdraws (accounts : Accounts history lock) (hwaits : thread ∈ unfinished history) :
    Accounts ((thread, .withdraws) :: history) lock.withdrawWriter := by
  apply accounts.of_waiting (by simp)
  · rw [unfinished, List.length_erase_of_mem hwaits, ← accounts.waiting]
  · exact accounts.once.erase thread

theorem fails (accounts : Accounts history lock) (failure : Failure) :
    Accounts ((thread, .fails failure) :: history) lock :=
  accounts.of_waiting (by simp) accounts.waiting accounts.once

/-- Every deed keeps the accounts. -/
theorem step (accounts : Accounts history lock)
    (hfree : thread ∈ unfinished history ↔ deed.Finishes) (h : Step lock thread deed later) :
    Accounts ((thread, deed) :: history) later := by
  cases h with
  | reads h => exact accounts.reads h
  | writes h hentry => exact accounts.writes h hentry
  | registers h hentry => exact accounts.registers hfree.1 h
  | admitted h => exact accounts.admitted (hfree.2 trivial) h
  | withdraws => exact accounts.withdraws (hfree.2 trivial)
  | stopsReading h => exact accounts.stopsReading h
  | stopsWriting h => exact accounts.stopsWriting h
  | writeTimedOut h hentry =>
    rw [withdrawWriter_registerWriter h]
    exact accounts.fails _
  | badTimeout | readRefused | readTimedOut | writeRefused | notReading | notWriting =>
    exact accounts.fails _

end Accounts

theorem Run.accounts (run : Run history lock) : Accounts history lock := by
  induction run with
  | start => exact .start
  | step _ hfree h accounts => exact accounts.step hfree h

end Phrasebook.Lock
