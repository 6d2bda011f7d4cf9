import Phrasebook.Lock.Basic
import Phrasebook.Number

/-!
Named threads that share a lock. Each keeps a stack of what it has acquired and leaves in the
reverse order. A thread that has to wait is blocked until others make way; whoever can go on after
a command does so before the next one is given.
-/
namespace Phrasebook.Lock

inductive Mode
  | read
  | write
deriving DecidableEq, Repr

def Mode.name : Mode → Text
  | read => "read"
  | write => "write"

inductive Command
  | enter (mode : Mode) (timeout : Option Number)
  | leave
  | release (mode : Mode)
deriving DecidableEq, Repr

inductive Failure
  | badTimeout (timeout : Number)
  | timedOut (mode : Mode)
  | refused (reason : Refusal)
deriving DecidableEq, Repr

def Failure.message : Failure → Text
  | badTimeout timeout =>
    match timeout.text with
    | .ok written => "Timeout must be non-negative, got " ++ written
    | .error e => e.message
  | timedOut mode => "Timed out waiting for " ++ mode.name ++ " lock"
  | refused reason => reason.message

/-- How long a thread is ready to wait: not at all, or as long as it takes. -/
inductive Patience
  | impatient
  | patient
deriving DecidableEq, Repr

/-- A negative timeout makes no sense, and a timeout of nothing means not to wait. -/
def patience (timeout : Option Number) : Except Failure Patience :=
  match timeout with
  | none => .ok .patient
  | some number =>
    match number.point with
    | .error _ => .error (.badTimeout number)
    | .ok place =>
      if place.lt (.ofInt 0) then .error (.badTimeout number)
      else if place.same (.ofInt 0) then .ok .impatient
      else .ok .patient

abbrev Outcome := Except Failure Unit

structure Threads where
  lock : Lock Text := {}
  held : List (Text × List Mode) := []
  blocked : List (Text × Mode) := []
deriving DecidableEq, Repr

namespace Threads

def stack (threads : Threads) (name : Text) : List Mode := (threads.held.lookup name).getD []

def withStack (threads : Threads) (name : Text) (modes : List Mode) : Threads :=
  { threads with held := (name, modes) :: threads.held.filter (·.1 ≠ name) }

def entered (threads : Threads) (name : Text) (mode : Mode) (lock : Lock Text) : Threads :=
  { threads.withStack name (mode :: threads.stack name) with lock }

def waits (threads : Threads) (name : Text) (mode : Mode) (patience : Patience)
    (meanwhile : Lock Text) : Threads × Option Outcome :=
  match patience with
  | .impatient => (threads, some (.error (.timedOut mode)))
  | .patient =>
    ({ threads with lock := meanwhile, blocked := threads.blocked ++ [(name, mode)] }, none)

def enter (threads : Threads) (name : Text) (mode : Mode) (patience : Patience) :
    Threads × Option Outcome :=
  match mode with
  | .read =>
    match threads.lock.acquireRead name with
    | .granted lock => (threads.entered name .read lock, some (.ok ()))
    | .wait => threads.waits name .read patience threads.lock
    | .refused reason => (threads, some (.error (.refused reason)))
  | .write =>
    match threads.lock.registerWriter name with
    | .error reason => (threads, some (.error (.refused reason)))
    | .ok registered =>
      match registered.admitWriter? name with
      | some lock => (threads.entered name .write lock, some (.ok ()))
      | none => threads.waits name .write patience registered

def release (threads : Threads) (name : Text) (mode : Mode) : Threads × Outcome :=
  let released := match mode with
    | .read => threads.lock.releaseRead name
    | .write => threads.lock.releaseWrite name
  match released with
  | .error reason => (threads, .error (.refused reason))
  | .ok lock => ({ threads with lock }, .ok ())

/-- What a thread does on command; no outcome means that it waits. -/
def obey (threads : Threads) (name : Text) : Command → Threads × Option Outcome
  | .enter mode timeout =>
    match Lock.patience timeout with
    | .error failure => (threads, some (.error failure))
    | .ok patience => threads.enter name mode patience
  | .leave =>
    match threads.stack name with
    | [] => (threads, none)
    | mode :: modes =>
      let (threads, outcome) := (threads.withStack name modes).release name mode
      (threads, some outcome)
  | .release mode =>
    let (threads, outcome) := threads.release name mode
    (threads, some outcome)

def admit? (lock : Lock Text) (name : Text) : Mode → Option (Lock Text)
  | .read =>
    match lock.acquireRead name with
    | .granted lock => some lock
    | _ => none
  | .write => lock.admitWriter? name

def wake (threads : Threads) : List (Text × Mode) → Threads × List Text
  | [] => (threads, [])
  | (name, mode) :: others =>
    match admit? threads.lock name mode with
    | none => threads.wake others
    | some lock =>
      let freed := { threads with blocked := threads.blocked.filter (· ≠ (name, mode)) }
      let (threads, woken) := (freed.entered name mode lock).wake others
      (threads, name :: woken)

def byName (a b : Text × Outcome) : Bool := Text.le a.1 b.1

/-- Give a thread a command. The outcomes are of all commands that are finished now, by the name
of the thread. -/
def step (threads : Threads) (name : Text) (command : Command) :
    Threads × List (Text × Outcome) :=
  let (threads, outcome) := threads.obey name command
  let own := outcome.toList.map fun o => (name, o)
  let (threads, woken) := threads.wake threads.blocked
  (threads, (own ++ woken.map fun n => (n, Except.ok ())).mergeSort byName)

def waitingNames (threads : Threads) : List Text :=
  (threads.blocked.map Prod.fst).mergeSort Text.le

end Threads
end Phrasebook.Lock
