import Phrasebook.Proofs.Lock.Abandoned

/-!
Named threads under command make runs of their lock. A command is a few atomic steps: those of the
thread that obeys it, and those of the blocked threads that can go on afterwards.
-/
namespace Phrasebook.Lock

/-- The history leads to the lock of the threads, and the threads that wait to write by the history
are those that are blocked so. -/
structure Traced (history : History Text) (threads : Threads) : Prop where
  run : Run history threads.lock
  blocked : ∀ name, (name, Mode.write) ∈ threads.blocked ↔ name ∈ unfinished history
  names : (threads.blocked.map Prod.fst).Nodup

/-- What a thread has done is some deeds of its own, and one failing deed if it failed. -/
def Obeyed (history : History Text) (name : Text) (result : Threads × Option Outcome) : Prop :=
  ∃ deeds : List Deed, Traced (deeds.map (name, ·) ++ history) result.1 ∧
    ∀ failure, result.2 = some (.error failure) → deeds = [.fails failure]

namespace Traced

variable {history : History Text} {threads : Threads} {name : Text} {mode : Mode}

theorem start : Traced [] {} := ⟨.start, by simp [unfinished], by simp⟩

/-- What a thread holds by its own reckoning is of no matter to the lock. -/
theorem withStack (traced : Traced history threads) (name : Text) (modes : List Mode) :
    Traced history (threads.withStack name modes) :=
  ⟨traced.run, traced.blocked, traced.names⟩

section Free

variable (hfree : name ∉ threads.blocked.map Prod.fst)
include hfree

theorem not_mem_unfinished (traced : Traced history threads) : name ∉ unfinished history := by
  rw [← traced.blocked]
  exact fun hmem => hfree (List.mem_map.2 ⟨_, hmem, rfl⟩)

/-- A deed before which and after which the thread does not wait. -/
theorem deed (traced : Traced history threads) {deed : Deed}
    (hdeed : ¬deed.Finishes ∧ deed ≠ .registers) {later : Lock Text}
    (h : Step threads.lock name deed later) :
    Traced ((name, deed) :: history) { threads with lock := later } where
  run := traced.run.step (by simp [traced.not_mem_unfinished hfree, hdeed.1]) h
  blocked := by
    intro other
    cases deed with
    | registers => exact absurd rfl hdeed.2
    | admitted | withdraws => exact absurd trivial hdeed.1
    | reads | writes | stopsReading | stopsWriting | fails => exact traced.blocked other
  names := traced.names

/-- Entering the lock is one deed more in the history. -/
theorem entered (traced : Traced history threads) {deed : Deed}
    (hdeed : ¬deed.Finishes ∧ deed ≠ .registers) {later : Lock Text}
    (h : Step threads.lock name deed later) (mode : Mode) :
    Traced ((name, deed) :: history) (threads.entered name mode later) :=
  (traced.deed hfree hdeed h).withStack name (mode :: threads.stack name)

theorem fails (traced : Traced history threads) {failure : Failure}
    (h : Step threads.lock name (.fails failure) threads.lock) :
    Obeyed history name (threads, some (.error failure)) := by
  refine ⟨[.fails failure], traced.deed hfree ⟨id, by simp⟩ h, ?_⟩
  rintro _ ⟨⟩
  rfl

theorem nodup_names_block (traced : Traced history threads) (mode : Mode) :
    ((threads.blocked ++ [(name, mode)]).map Prod.fst).Nodup := by
  rw [List.map_append]
  exact traced.names.append (List.nodup_singleton name) (by simpa using hfree)

theorem enter_read (traced : Traced history threads) (patience : Patience) :
    Obeyed history name (threads.enter name .read patience) := by
  simp only [Threads.enter]
  cases h : threads.lock.acquireRead name with
  | granted later =>
    exact ⟨[.reads], traced.entered hfree ⟨id, by simp⟩ (.reads h) .read, by simp⟩
  | refused reason => exact traced.fails hfree (.readRefused h)
  | wait =>
    cases patience with
    | impatient => exact traced.fails hfree (.readTimedOut h)
    | patient =>
      refine ⟨[], ⟨traced.run, ?_, traced.nodup_names_block hfree .read⟩, by simp [Threads.waits]⟩
      intro other
      simpa [Threads.waits] using traced.blocked other

theorem enter_write (traced : Traced history threads) (patience : Patience) :
    Obeyed history name (threads.enter name .write patience) := by
  cases h : threads.lock.registerWriter name with
  | error reason =>
    simp only [Threads.enter, h]
    exact traced.fails hfree (.writeRefused h)
  | ok registered =>
    cases hentry : registered.admitWriter? name with
    | some later =>
      simp only [Threads.enter, h, hentry]
      exact ⟨[.writes], traced.entered hfree ⟨id, by simp⟩ (.writes h hentry) .write, by simp⟩
    | none =>
      simp only [Threads.enter, h, hentry]
      cases patience with
      | impatient =>
        have hstep := Step.writeTimedOut h hentry
        rw [hstep.eq_of_fails] at hstep
        exact traced.fails hfree hstep
      | patient =>
        refine ⟨[.registers], ⟨traced.run.step ?_ (.registers h hentry), ?_,
          traced.nodup_names_block hfree .write⟩, by simp [Threads.waits]⟩
        · simp [traced.not_mem_unfinished hfree, Deed.Finishes]
        · intro other
          simp [Threads.waits, unfinished, traced.blocked, or_comm]

theorem release (traced : Traced history threads) (mode : Mode) :
    Obeyed history name ((threads.release name mode).map id some) := by
  cases mode with
  | read =>
    simp only [Threads.release]
    cases h : threads.lock.releaseRead name with
    | error reason => exact traced.fails hfree (.notReading h)
    | ok later =>
      exact ⟨[.stopsReading], traced.deed hfree ⟨id, by simp⟩ (.stopsReading h), by simp⟩
  | write =>
    simp only [Threads.release]
    cases h : threads.lock.releaseWrite name with
    | error reason => exact traced.fails hfree (.notWriting h)
    | ok later =>
      exact ⟨[.stopsWriting], traced.deed hfree ⟨id, by simp⟩ (.stopsWriting h), by simp⟩

/-- A thread that is not blocked does by atomic steps what it is told to. -/
theorem obey (traced : Traced history threads) (command : Command) :
    Obeyed history name (threads.obey name command) := by
  cases command with
  | enter mode timeout =>
    simp only [Threads.obey]
    cases h : patience timeout with
    | error failure => exact traced.fails hfree (.badTimeout h)
    | ok patience =>
      cases mode with
      | read => exact traced.enter_read hfree patience
      | write => exact traced.enter_write hfree patience
  | leave =>
    simp only [Threads.obey]
    cases threads.stack name with
    | nil => exact ⟨[], traced, by simp⟩
    | cons mode modes =>
      have hstack : name ∉ (threads.withStack name modes).blocked.map Prod.fst := hfree
      exact release hstack (traced.withStack name modes) mode
  | release mode => exact traced.release hfree mode

/-- A command that fails leaves the lock as it is. -/
theorem lock_of_failure (traced : Traced history threads) {command : Command} {failure : Failure}
    (h : (threads.obey name command).2 = some (.error failure)) :
    (threads.obey name command).1.lock = threads.lock := by
  obtain ⟨deeds, hobeyed, hfailed⟩ := traced.obey hfree command
  obtain rfl := hfailed failure h
  cases hobeyed.run with
  | step run _ hstep =>
    obtain rfl := run.unique traced.run
    exact hstep.eq_of_fails

end Free

/-- A blocked thread that can go on does so by one atomic step. -/
theorem goOn (traced : Traced history threads) {later : Lock Text}
    (hblocked : (name, mode) ∈ threads.blocked)
    (h : Threads.admit? threads.lock name mode = some later) :
    ∃ deed, Traced ((name, deed) :: history)
      (Threads.entered { threads with blocked := threads.blocked.filter (· ≠ (name, mode)) }
        name mode later) := by
  have hnames := traced.names.sublist
    ((List.filter_sublist (p := (· ≠ (name, mode)))).map Prod.fst)
  cases mode with
  | read =>
    have hgranted : threads.lock.acquireRead name = .granted later := by
      rw [Threads.admit?] at h
      split at h
      · next hgranted => rw [hgranted, Option.some.inj h]
      · simp at h
    refine ⟨.reads, traced.run.step ?_ (.reads hgranted), ?_, hnames⟩
    · have hnot : (name, Mode.write) ∉ threads.blocked := fun hwrite => by
        have := List.inj_on_of_nodup_map traced.names hblocked hwrite rfl
        simp at this
      simpa [← traced.blocked, Deed.Finishes] using hnot
    · intro other
      simpa [Threads.entered, Threads.withStack, unfinished] using traced.blocked other
  | write =>
    refine ⟨.admitted, traced.run.step ?_ (.admitted h), ?_, hnames⟩
    · simp [← traced.blocked, hblocked, Deed.Finishes]
    · intro other
      rw [traced.run.accounts.mem_unfinished_admitted, ← traced.blocked]
      simp [Threads.entered, Threads.withStack, and_comm]

/-- Whoever is let in after a command goes in by an atomic step. -/
theorem wake (traced : Traced history threads) {candidates : List (Text × Mode)}
    (hblocked : candidates ⊆ threads.blocked) (hnodup : candidates.Nodup) :
    ∃ steps : History Text, Traced (steps ++ history) (threads.wake candidates).1 := by
  induction candidates generalizing threads history with
  | nil => exact ⟨[], traced⟩
  | cons candidate others ih =>
    obtain ⟨name, mode⟩ := candidate
    obtain ⟨hnew, hothers⟩ := List.nodup_cons.1 hnodup
    obtain ⟨hmem, hblocked⟩ := List.cons_subset.1 hblocked
    cases h : Threads.admit? threads.lock name mode with
    | none =>
      simp only [Threads.wake, h]
      exact ih traced hblocked hothers
    | some later =>
      obtain ⟨deed, hentered⟩ := traced.goOn hmem h
      have hrest : others ⊆ threads.blocked.filter (· ≠ (name, mode)) := by
        intro other hother
        have hne : other ≠ (name, mode) := fun heq => hnew (heq ▸ hother)
        exact List.mem_filter.2 ⟨hblocked hother, by simpa using hne⟩
      obtain ⟨steps, htraced⟩ := ih hentered hrest hothers
      refine ⟨steps ++ [(name, deed)], ?_⟩
      rw [List.append_assoc]
      simp only [Threads.wake, h]
      exact htraced

/-- A command to a thread that is not blocked is carried out in atomic steps. -/
theorem step (traced : Traced history threads) (hfree : name ∉ threads.blocked.map Prod.fst)
    (command : Command) :
    ∃ steps : History Text, Traced (steps ++ history) (threads.step name command).1 := by
  obtain ⟨deeds, hobeyed, -⟩ := traced.obey hfree command
  obtain ⟨steps, hwoken⟩ := hobeyed.wake (List.Subset.refl _) hobeyed.names.of_map
  exact ⟨steps ++ deeds.map (name, ·), by rw [List.append_assoc]; exact hwoken⟩

end Traced

/-- The threads that commands lead to, none of which is given to a blocked thread. -/
inductive Commanded : Threads → Prop
  | start : Commanded {}
  | step {threads : Threads} {name : Text} (commanded : Commanded threads) (command : Command)
      (hfree : name ∉ threads.blocked.map Prod.fst) : Commanded (threads.step name command).1

/-- Whatever is commanded, the lock of the threads is one that atomic steps lead to. -/
theorem Commanded.exists_traced {threads : Threads} (commanded : Commanded threads) :
    ∃ history, Traced history threads := by
  induction commanded with
  | start => exact ⟨[], .start⟩
  | step _ command hfree ih =>
    obtain ⟨history, traced⟩ := ih
    obtain ⟨steps, htraced⟩ := traced.step hfree command
    exact ⟨steps ++ history, htraced⟩

end Phrasebook.Lock
