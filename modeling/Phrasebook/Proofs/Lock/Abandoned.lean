import Phrasebook.Proofs.Lock.Rules

/-!
Attempts on a lock that come to nothing. Most of them fail at once and change nothing. A writer
that gives up has been counted for a while, and kept new readers out; still its wait can be struck
from the history, for whatever the others did meanwhile they could have done without it.
-/
namespace Phrasebook.Lock

variable {Thread : Type} [DecidableEq Thread] {history : History Thread}
  {lock later other : Lock Thread} {thread : Thread} {deed : Deed}

def Deed.Succeeds : Deed → Prop
  | withdraws | fails _ => False
  | _ => True

/-- The history without the attempts that came to nothing: neither those that failed at once, nor
a registration that was withdrawn, nor its withdrawal. -/
def effective : History Thread → History Thread
  | [] => []
  | (_, .fails _) :: earlier => effective earlier
  | (thread, .withdraws) :: earlier => (effective earlier).erase (thread, .registers)
  | step :: earlier => step :: effective earlier

theorem unfinished_erase (history : History Thread) (thread : Thread) :
    unfinished (history.erase (thread, .registers)) = (unfinished history).erase thread := by
  induction history with
  | nil => rfl
  | cons step earlier ih =>
    obtain ⟨other, deed⟩ := step
    by_cases hstep : (other, deed) = (thread, .registers)
    · obtain ⟨rfl, rfl⟩ := Prod.mk.inj hstep
      rw [List.erase_cons_head, unfinished, List.erase_cons_head]
    · rw [List.erase_cons_tail (by simpa using hstep)]
      cases deed with
      | registers =>
        have hother : other ≠ thread := fun h => hstep (by rw [h])
        rw [unfinished, unfinished, ih, List.erase_cons_tail (by simpa using hother)]
      | admitted => rw [unfinished, unfinished, ih, List.erase_comm]
      | withdraws => rw [unfinished, unfinished, ih, List.erase_comm]
      | reads | writes | stopsReading | stopsWriting | fails => exact ih

theorem unfinished_effective (history : History Thread) :
    unfinished (effective history) = unfinished history := by
  induction history with
  | nil => rfl
  | cons step earlier ih =>
    obtain ⟨thread, deed⟩ := step
    cases deed with
    | registers => rw [effective, unfinished, unfinished, ih] <;> simp
    | admitted => rw [effective, unfinished, unfinished, ih] <;> simp
    | withdraws => rw [effective, unfinished_erase, unfinished, ih]
    | reads | writes | stopsReading | stopsWriting | fails => exact ih

theorem succeeds_of_mem_effective {step : Thread × Deed} (h : step ∈ effective history) :
    step.2.Succeeds := by
  induction history with
  | nil => simp [effective] at h
  | cons last earlier ih =>
    obtain ⟨thread, deed⟩ := last
    cases deed with
    | fails failure => exact ih h
    | withdraws => exact ih (List.mem_of_mem_erase h)
    | reads | writes | registers | admitted | stopsReading | stopsWriting =>
      obtain rfl | h := List.mem_cons.1 h
      · trivial
      · exact ih h

theorem Step.eq_of_fails {failure : Failure} (h : Step lock thread (.fails failure) later) :
    later = lock := by
  cases h with
  | writeTimedOut h hentry => exact withdrawWriter_registerWriter h
  | badTimeout | readRefused | readTimedOut | writeRefused | notReading | notWriting => rfl

/-- Whoever succeeds while some writers wait succeeds as well if one of them does not. -/
theorem Step.of_fewer_waiting (h : Step lock thread deed later) (hdeed : deed.Succeeds)
    (hwaiting : 0 < lock.waiting) :
    Step { lock with waiting := lock.waiting - 1 } thread deed
      { later with waiting := later.waiting - 1 } := by
  cases h with
  | reads h =>
    obtain ⟨depth, hown, rfl⟩ | ⟨-, -, hnone, -⟩ := acquireRead_eq_granted_iff.1 h
    · exact .reads (acquireRead_eq_granted_iff.2 (.inl ⟨depth, hown, rfl⟩))
    · omega
  | writes h hentry =>
    obtain ⟨hown, hwriter, rfl⟩ := registerWriter_eq_ok_iff.1 h
    obtain ⟨hempty, hnobody, rfl⟩ := admitWriter?_eq_some_iff.1 hentry
    refine .writes (registerWriter_eq_ok_iff.2 ⟨hown, hwriter, rfl⟩)
      (admitWriter?_eq_some_iff.2 ⟨hempty, hnobody, ?_⟩)
    rfl
  | registers h hentry =>
    obtain ⟨hown, hwriter, rfl⟩ := registerWriter_eq_ok_iff.1 h
    have hfull := admitWriter?_eq_none_iff.1 hentry
    have hcount : lock.waiting + 1 - 1 = lock.waiting - 1 + 1 := by omega
    refine .registers (registerWriter_eq_ok_iff.2 ⟨hown, hwriter, ?_⟩)
      (admitWriter?_eq_none_iff.2 hfull)
    exact congrArg (fun waiting => { lock with waiting }) hcount
  | admitted h =>
    obtain ⟨hempty, hnobody, rfl⟩ := admitWriter?_eq_some_iff.1 h
    exact .admitted (admitWriter?_eq_some_iff.2 ⟨hempty, hnobody, rfl⟩)
  | stopsReading h =>
    obtain ⟨depth, hown, rfl⟩ := releaseRead_eq_ok_iff.1 h
    exact .stopsReading (releaseRead_eq_ok_iff.2 ⟨depth, hown, rfl⟩)
  | stopsWriting h =>
    obtain ⟨hown, rfl⟩ := releaseWrite_eq_ok_iff.1 h
    exact .stopsWriting (releaseWrite_eq_ok_iff.2 ⟨hown, rfl⟩)
  | withdraws | badTimeout | readRefused | readTimedOut | writeRefused | writeTimedOut
  | notReading | notWriting => exact hdeed.elim

/-- A wait that is not over can be struck from a history in which all deeds succeed. -/
theorem Run.without_wait (run : Run history lock) (hall : ∀ step ∈ history, step.2.Succeeds)
    (hwaits : thread ∈ unfinished history) :
    Run (history.erase (thread, .registers)) { lock with waiting := lock.waiting - 1 } := by
  induction run with
  | start => simp [unfinished] at hwaits
  | @step earlier lock later other deed run hfree h ih =>
    have hsucceeds : deed.Succeeds := hall (other, deed) (List.mem_cons_self ..)
    by_cases hstep : (other, deed) = (thread, .registers)
    · obtain ⟨rfl, rfl⟩ := Prod.mk.inj hstep
      cases h with
      | registers h hentry =>
        obtain ⟨-, -, rfl⟩ := registerWriter_eq_ok_iff.1 h
        rw [List.erase_cons_head]
        exact run
    · have hboth : other ≠ thread ∧ thread ∈ unfinished earlier := by
        cases deed with
        | registers =>
          have hother : thread ≠ other := fun h => hstep (by rw [h])
          exact ⟨hother.symm, (List.mem_cons.1 hwaits).resolve_left hother⟩
        | admitted => exact (run.accounts.mem_unfinished_admitted.1 hwaits).imp Ne.symm id
        | reads | writes | stopsReading | stopsWriting =>
          exact ⟨fun h => hfree.1 (h ▸ hwaits), hwaits⟩
        | withdraws | fails => exact hsucceeds.elim
      obtain ⟨hother, hwaits⟩ := hboth
      have hwaiting : 0 < lock.waiting := by
        rw [run.accounts.waiting]
        exact List.length_pos_of_mem hwaits
      have hrest := ih (fun step hmem => hall step (List.mem_cons_of_mem _ hmem)) hwaits
      rw [List.erase_cons_tail (by simpa using hstep)]
      refine hrest.step ?_ (h.of_fewer_waiting hsucceeds hwaiting)
      rw [unfinished_erase, List.mem_erase_of_ne hother]
      exact hfree

/-- The attempts that succeeded lead to the same lock by themselves. -/
theorem Run.effective (run : Run history lock) : Run (effective history) lock := by
  induction run with
  | start => exact .start
  | @step earlier lock later thread deed _ hfree h ih =>
    rw [← unfinished_effective] at hfree
    cases deed with
    | fails failure =>
      obtain rfl := h.eq_of_fails
      exact ih
    | withdraws =>
      cases h
      exact ih.without_wait (fun _ => succeeds_of_mem_effective) (hfree.2 trivial)
    | reads | writes | registers | admitted | stopsReading | stopsWriting =>
      exact ih.step hfree h

theorem Step.unique (h : Step lock thread deed later) (h' : Step lock thread deed other) :
    later = other := by
  cases h with
  | reads h =>
    cases h' with
    | reads h' => exact Answer.granted.inj (h.symm.trans h')
  | writes h hentry =>
    cases h' with
    | writes h' hentry' =>
      obtain rfl := Except.ok.inj (h.symm.trans h')
      exact Option.some.inj (hentry.symm.trans hentry')
  | registers h =>
    cases h' with
    | registers h' => exact Except.ok.inj (h.symm.trans h')
  | admitted h =>
    cases h' with
    | admitted h' => exact Option.some.inj (h.symm.trans h')
  | withdraws =>
    cases h'
    rfl
  | stopsReading h =>
    cases h' with
    | stopsReading h' => exact Except.ok.inj (h.symm.trans h')
  | stopsWriting h =>
    cases h' with
    | stopsWriting h' => exact Except.ok.inj (h.symm.trans h')
  | writeTimedOut h =>
    rw [withdrawWriter_registerWriter h]
    exact h'.eq_of_fails.symm
  | badTimeout | readRefused | readTimedOut | writeRefused | notReading | notWriting =>
    exact h'.eq_of_fails.symm

/-- The history tells all of the lock. -/
theorem Run.unique (run : Run history lock) (run' : Run history other) : lock = other := by
  induction run generalizing other with
  | start =>
    cases run'
    rfl
  | step _ _ h ih =>
    cases run' with
    | step run' _ h' =>
      obtain rfl := ih run'
      exact h.unique h'

/-- Readers and a writer are never inside together, nor are two writers. The lock records each
reader with the number of its entries less that of its exits, and counts the writers that wait;
nobody starts to read while a writer is inside or waits. Attempts that come to nothing might as
well not have been made: one that fails at once leaves the lock as it is, and the others by
themselves lead to this lock and to no other. -/
theorem Run.excludes_and_accounts (run : Run history lock) :
    (lock.writer ≠ none → lock.readers = []) ∧
    (∀ thread, lock.writer = some thread ↔ Writing history thread) ∧
    (∀ thread other, Writing history thread → ¬Reading history other) ∧
    (∀ thread other, Writing history thread → Writing history other → thread = other) ∧
    (lock.readers.map Prod.fst).Nodup ∧
    (∀ thread depth, (thread, depth) ∈ lock.readers ↔
      0 < depth ∧ depth + history.count (thread, .stopsReading) =
        history.count (thread, .reads)) ∧
    lock.waiting = (unfinished history).length ∧
    (∀ thread later, Step lock thread .reads later → ¬Reading history thread →
      lock.writer = none ∧ unfinished history = []) ∧
    (∀ thread failure later, Step lock thread (.fails failure) later → later = lock) ∧
    ∀ other, Run (Lock.effective history) other ↔ other = lock := by
  have accounts := run.accounts
  refine ⟨accounts.exclusive, fun thread => accounts.writer_eq_some_iff, ?_, ?_, accounts.keys,
    fun thread depth => accounts.mem_readers_iff, accounts.waiting, ?_, ?_, ?_⟩
  · intro thread other hwriting hreading
    obtain ⟨depth, hdepth⟩ := accounts.reading_iff.1 hreading
    have hwriter := accounts.writer_eq_some_iff.2 hwriting
    rw [accounts.writer_eq_none hdepth] at hwriter
    simp at hwriter
  · intro thread other hthread hother
    rw [← accounts.writer_eq_some_iff] at hthread hother
    exact Option.some.inj (hthread.symm.trans hother)
  · intro thread later h hreading
    cases h with
    | reads h =>
      obtain ⟨depth, hdepth, -⟩ | ⟨-, hwriter, hwaiting, -⟩ := acquireRead_eq_granted_iff.1 h
      · exact absurd (accounts.reading_iff.2 ⟨depth, hdepth⟩) hreading
      · rw [accounts.waiting] at hwaiting
        exact ⟨hwriter, List.length_eq_zero_iff.1 hwaiting⟩
  · intro thread failure later h
    exact h.eq_of_fails
  · intro other
    constructor
    · intro run'
      exact run'.unique run.effective
    · rintro rfl
      exact run.effective

/-- While one thread reads, and enters once more, a second waits to write and a third waits for
the second. Both give up; then the third reads, stops, and stops once too often. -/
def crossing : History Nat :=
  [(1, .stopsReading), (3, .fails (.refused .notReading)), (3, .stopsReading), (3, .reads),
    (2, .withdraws), (3, .fails (.timedOut .read)), (1, .fails (.refused .writeWhileReading)),
    (1, .reads), (2, .registers), (1, .reads)]

theorem run_crossing : Run crossing { readers := [(1, 1)] } := by
  have h : Run (crossing.drop 9) { readers := [(1, 1)] } := .step .start (by decide) (.reads rfl)
  have h : Run (crossing.drop 8) { readers := [(1, 1)], waiting := 1 } :=
    .step h (by decide) (.registers rfl rfl)
  have h : Run (crossing.drop 7) { readers := [(1, 2)], waiting := 1 } :=
    .step h (by decide) (.reads rfl)
  have h : Run (crossing.drop 6) { readers := [(1, 2)], waiting := 1 } :=
    .step h (by decide) (.writeRefused rfl)
  have h : Run (crossing.drop 5) { readers := [(1, 2)], waiting := 1 } :=
    .step h (by decide) (.readTimedOut rfl)
  have h : Run (crossing.drop 4) { readers := [(1, 2)] } := .step h (by decide) .withdraws
  have h : Run (crossing.drop 3) { readers := [(1, 2), (3, 1)] } :=
    .step h (by decide) (.reads rfl)
  have h : Run (crossing.drop 2) { readers := [(1, 2)] } :=
    .step h (by decide) (.stopsReading rfl)
  have h : Run (crossing.drop 1) { readers := [(1, 2)] } := .step h (by decide) (.notReading rfl)
  exact .step h (by decide) (.stopsReading rfl)

theorem excludes_and_accounts_crossing :
    Run crossing { readers := [(1, 1)] } ∧
    (∀ thread, ¬Writing crossing thread) ∧
    (∀ thread depth, (thread, depth) ∈ [(1, 1)] ↔
      0 < depth ∧ depth + crossing.count (thread, .stopsReading) =
        crossing.count (thread, .reads)) ∧
    Run [(1, .stopsReading), (3, .stopsReading), (3, .reads), (1, .reads), (1, .reads)]
      { readers := [(1, 1)] } := by
  obtain ⟨-, hwriting, -, -, -, hreaders, -, -, -, hsame⟩ := run_crossing.excludes_and_accounts
  refine ⟨run_crossing, ?_, hreaders, (hsame _).2 rfl⟩
  intro thread h
  exact absurd ((hwriting thread).2 h) (by simp)

end Phrasebook.Lock
