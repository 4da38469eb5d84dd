import WorkerPipeline.Orchestrator.Event
import WorkerPipeline.Orchestrator.Request

set_option autoImplicit false

/-! # Sessions

A session is an orchestrator with its event loop, a clock that moves only when it is told to, and
the callers that wait for results.
-/

namespace WorkerPipeline

inductive LoopState where
  | idle
  | running
  | finished
deriving DecidableEq, Inhabited

/-- Somebody who waits for the result of a worker. `seen` is the number of registrations at the
time of the last look at the ledger, if there was one. -/
structure Waiter where
  worker : Worker
  task : TaskId
  start : Nat
  seen : Option Nat := none
deriving DecidableEq, Inhabited

structure Session where
  orchestrator : Orchestrator := {}
  loop : LoopState := .idle
  /-- The time in milliseconds. -/
  clock : Nat := 0
  waiters : Table String Waiter := ∅
deriving Inhabited

namespace Session

def new (settings : Settings) (hub : Hub) : Session := { orchestrator := .new settings hub }

def note (s : Session) (n : Notice) : Session := { s with orchestrator := s.orchestrator.note n }

/-- Changes the orchestrator and leaves the rest. -/
def withOrchestrator (s : Session) (o : Orchestrator) : Session := { s with orchestrator := o }

def withHub (s : Session) (hub : Hub) : Session :=
  s.withOrchestrator { s.orchestrator with hub }

/-- The notices since the journal was cleared last, oldest first. -/
def notices (s : Session) : List Notice := s.orchestrator.journal.reverse

def clearJournal (s : Session) : Session :=
  { s with orchestrator := { s.orchestrator with journal := [] } }

/-! ## The event loop -/

/-- The loop writes a line when it runs for the first time. -/
def start (s : Session) : Session :=
  match s.loop with
  | .idle => { s.note .loopStarted with loop := .running }
  | _ => s

/-- Lets the loop handle what is on the channel, unless it is finished. -/
def pump (s : Session) : Session :=
  match s.loop with
  | .finished => s
  | _ => { s.start with orchestrator := s.start.orchestrator.drain }

/-- Ends the loop. Nothing can be announced after that. -/
def finish (s : Session) : Session :=
  let hub := s.orchestrator.hub
  { s.note (.loopStopped .shutdownRequested) with loop := .finished }.withHub
    { hub with channel := { hub.channel with closed := true } }

/-- Pumps, asks the loop to stop and lets it do so. -/
def stop (s : Session) : Session :=
  match s.loop with
  | .finished => s
  | _ => s.pump.finish

/-- A separate run of the loop over events that are given, on a channel that closes after them. -/
def runEvents (s : Session) (events : List Event) : Session :=
  let s := s.note .loopStarted
  { s with orchestrator := s.orchestrator.handleAll events }.note (.loopStopped .eventsClosed)

/-! ## Submissions and deliveries -/

def submit (s : Session) (input : Submission) : Except Error TaskId × Session :=
  let (outcome, o) := s.orchestrator.submit input
  (outcome, s.withOrchestrator o)

def deliver (s : Session) (worker : Worker) (output : Output) :
    Except TransportFault Unit × Session :=
  let (outcome, hub) := s.orchestrator.hub.deliver worker output
  (outcome, s.withHub hub)

def reportStatus (s : Session) (worker : Worker) (status : WorkerStatus) :
    Except TransportFault Unit × Session :=
  match s.orchestrator.hub.reportStatus worker status with
  | .error fault => (.error fault, s)
  | .ok hub => (.ok (), s.withHub hub)

end Session

end WorkerPipeline
