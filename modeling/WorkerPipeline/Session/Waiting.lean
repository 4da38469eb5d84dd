import WorkerPipeline.Session.Basic

set_option autoImplicit false

/-! # Waiting for results

A waiter looks at the ledger when it starts and whenever it is polled after a registration. If the
result has not arrived, the wait goes on until its time is up. A result that has arrived counts
even if the time is up as well.
-/

namespace WorkerPipeline

namespace Session

def deadline? (s : Session) (w : Waiter) : Option Nat :=
  s.orchestrator.settings.timeout.map (w.start + ·)

/-- Whether the time of a waiter is up. -/
def isExpired (s : Session) (w : Waiter) : Bool :=
  match s.deadline? w with
  | some d => decide (d ≤ s.clock)
  | none => false

/-- Whether something was registered since a waiter looked at the ledger. -/
def hasNews (s : Session) (w : Waiter) : Bool :=
  decide (w.seen ≠ some s.orchestrator.registrations)

/-- Whether a waiter has a reason to be polled. -/
def isWoken (s : Session) (w : Waiter) : Bool := s.hasNews w || s.isExpired w

inductive WaitState where
  | arrived
  | timedOut
  | pending (w : Waiter)
deriving DecidableEq

/-- The state of a waiter that has not found its result. -/
def unanswered (s : Session) (w : Waiter) : WaitState :=
  if s.isExpired w then .timedOut else .pending w

def pollWaiter (s : Session) (w : Waiter) : WaitState × Session :=
  if s.hasNews w then
    if s.orchestrator.ledger.available w.task w.worker then (.arrived, s)
    else
      (s.unanswered { w with seen := some s.orchestrator.registrations },
        s.note (.waiting w.worker w.task))
  else (s.unanswered w, s)

/-- A waiter that starts now. -/
def newWaiter (s : Session) (worker : Worker) (task : TaskId) : Waiter :=
  { worker, task, start := s.clock }

/-! ## Waiting until the end -/

/-- Waits for a result. Without a bound on the wait there may be no end to it. -/
def wait (s : Session) (worker : Worker) (task : TaskId) : Option (Except Error Unit) × Session :=
  match s.pollWaiter (s.newWaiter worker task) with
  | (.arrived, s) => (some (.ok ()), s)
  | (.timedOut, s) => (some (.error (.waitTimedOut worker task)), s)
  | (.pending w, s) =>
    match s.deadline? w with
    | none => (none, s)
    | some d => (some (.error (.waitTimedOut worker task)), { s with clock := d })

/-- The task whose result somebody asks for without naming one. -/
def latestTask (s : Session) (worker : Worker) : Except Error TaskId :=
  if worker.isTracked then
    match s.orchestrator.ledger.last with
    | some task => .ok task
    | none => .error .noTasks
  else .error (.unknownWorker worker)

def fetchResult (s : Session) (task : TaskId) (worker : Worker) : Except Error WorkerResult :=
  s.orchestrator.fetchResult task worker

/-- The result of a worker: of a given task at once, otherwise of the latest task as soon as it
arrives. -/
def result (s : Session) (task : Option TaskId) (worker : Worker) :
    Option (Except Error WorkerResult) × Session :=
  match task with
  | some task =>
    (some (if worker.isTracked then s.fetchResult task worker else .error (.unknownWorker worker)),
      s)
  | none =>
    match s.latestTask worker with
    | .error e => (some (.error e), s)
    | .ok task =>
      match s.wait worker task with
      | (none, s) => (none, s)
      | (some (.error e), s) => (some (.error e), s)
      | (some (.ok ()), s) => (some (s.fetchResult task worker), s)

/-! ## Waiters that are polled -/

/-- What a poll says: `none` is a waiter that goes on waiting. -/
abbrev Answer := Option (Except Error WorkerResult)

/-- Polls a waiter and keeps it under its name if it goes on waiting. -/
def advanceWaiter (s : Session) (name : String) (w : Waiter) : Answer × Session :=
  match s.pollWaiter w with
  | (.arrived, s) =>
    (some (s.fetchResult w.task w.worker), { s with waiters := s.waiters.erase name })
  | (.timedOut, s) =>
    (some (.error (.waitTimedOut w.worker w.task)), { s with waiters := s.waiters.erase name })
  | (.pending w, s) => (none, { s with waiters := s.waiters.insert name w })

/-- Starts a waiter for the latest task under a name and polls it once. A waiter that had the
name before is gone. -/
def spawn (s : Session) (name : String) (worker : Worker) : Answer × Session :=
  let s := { s with waiters := s.waiters.erase name }
  match s.latestTask worker with
  | .error e => (some (.error e), s)
  | .ok task => s.advanceWaiter name (s.newWaiter worker task)

/-- Polls the waiter of a name, and says whether it was woken. -/
def poll (s : Session) (name : String) : Option (Bool × Answer) × Session :=
  match s.waiters.get? name with
  | none => (none, s)
  | some w =>
    let (answer, polled) := s.advanceWaiter name w
    (some (s.isWoken w, answer), polled)

end Session

end WorkerPipeline
