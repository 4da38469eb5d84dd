import WorkerPipeline.FollowUp
import WorkerPipeline.Orchestrator.Submission

set_option autoImplicit false

/-! # Handling events

A status goes into the registry and an output into the ledger. The carbon footprint of a task
continues the chain of iterations when it arrives for the first time; a failure to do so is
written into the journal and stops nothing.
-/

namespace WorkerPipeline

namespace Orchestrator

/-- The submission that continues the chain after the carbon footprint of a task. -/
def nextSubmission? (o : Orchestrator) (task : TaskId) (output : Output) :
    Except Error (Option Submission) :=
  match output.extra with
  | .error e => .error (.dataError e)
  | .ok carbon =>
    if carbon.requestsMore then
      match o.hub.fetch .orchestrator task with
      | some (.userInput input) => (Submission.followUp? task carbon input).mapError .dataError
      | _ => .error (.notFound .orchestrator task)
    else .ok none

def continueChain (o : Orchestrator) (task : TaskId) (output : Output) : Orchestrator :=
  match o.nextSubmission? task output with
  | .error e => o.note (.chainFailed task e)
  | .ok none => o
  | .ok (some s) =>
    match o.submit s with
    | (.error e, o) => o.note (.chainFailed task e)
    | (.ok next, o) => o.note (.chainContinued task next)

/-- Whether an arrival lets the chain go on: it is the first carbon footprint of its task. -/
def closesIteration (o : Orchestrator) (worker : Worker) (task : TaskId) : Bool :=
  decide (worker = .carbonFootprint) && o.ledger.isNew task worker

def onOutput (o : Orchestrator) (a : Arrival) : Orchestrator :=
  match a.task with
  | none => o.note (.outputIgnored a.worker)
  | some task =>
    let registered := (o.registerResult task a.worker).note (.outputReceived a.worker task)
    if o.closesIteration a.worker task then registered.continueChain task a.output
    else registered

def handle (o : Orchestrator) : Event → Orchestrator
  | .statusChanged c => o.onStatus c
  | .newOutput a => o.onOutput a

def handleAll (o : Orchestrator) (events : List Event) : Orchestrator := events.foldl handle o

/-- Takes all events from the channel and handles them. -/
def drain (o : Orchestrator) : Orchestrator :=
  { o with hub := { o.hub with channel := { o.hub.channel with events := [] } } }.handleAll
    o.hub.channel.events

end Orchestrator

end WorkerPipeline
