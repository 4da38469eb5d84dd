import WorkerPipeline.Message.Configuration
import WorkerPipeline.Message.Event
import WorkerPipeline.Error

set_option autoImplicit false

/-! # The hub

The hub stands between the orchestrator and the workers. It gives out task ids, holds the
published inputs and the delivered outputs, and announces on a channel what the workers report.
Where the workers are simulated, publishing a task gives each tracked worker a job.
-/

namespace WorkerPipeline

/-- Work of a simulated worker. A job is begun once; from then on it is due at a time. -/
structure Job where
  worker : Worker
  task : TaskId
  input : UserInput
  due : Option Nat := none
deriving DecidableEq, Inhabited

/-- The channel of events: those announced and not yet taken, oldest first. -/
structure Channel where
  events : List Event := []
  closed : Bool := false
deriving DecidableEq, Inhabited

structure Hub where
  nextProblem : UInt32 := 1
  allocated : Table TaskId Unit := ∅
  inputs : Table TaskId UserInput := ∅
  outputs : Table (Worker × TaskId) Output := ∅
  /-- The published tasks, oldest first. -/
  published : List TaskId := []
  /-- The requests received, oldest first. -/
  requests : List ConfigurationRequest := []
  rejecting : Bool := false
  simulated : Bool := false
  jobs : List Job := []
  channel : Channel := {}
  responder : ConfigurationRequest → ConfigurationResponse := fun r => r.accept r.configuration
deriving Inhabited

namespace Hub

/-! ## Allocation -/

/-- A template that bears a task id. -/
def templateFor (task : TaskId) (u : UserInput) : UserInput := { u with task := some task }

/-- The first task of the next problem, with a template and the hub that knows of it. -/
def allocateTask (h : Hub) : TaskId × UserInput × Hub :=
  let task := TaskId.first h.nextProblem
  (task, templateFor task {},
    { h with
      nextProblem := h.nextProblem + 1
      allocated := h.allocated.insert task () })

/-- The task after a base, with the base's input as template. A task is allocated once only. -/
def allocateIteration (h : Hub) (base : TaskId) : Except TransportFault (TaskId × UserInput × Hub) :=
  match base.next? with
  | none => .error (.iterationsUsedUp base.problem)
  | some task =>
    if h.allocated.contains task then .error (.alreadyAllocated task)
    else .ok (task, templateFor task ((h.inputs.get? base).getD {}),
      { h with allocated := h.allocated.insert task () })

/-! ## Publication -/

/-- The jobs that a published task gives to the simulated workers. -/
def jobsFor (task : TaskId) (input : UserInput) : List Job :=
  Worker.tracked.map fun worker => { worker, task, input }

def publish (h : Hub) (task : TaskId) (input : UserInput) : Except TransportFault Hub :=
  if h.rejecting then .error (.publishRejected task)
  else .ok
    { h with
      inputs := h.inputs.insert task input
      published := h.published ++ [task]
      jobs := if h.simulated then h.jobs ++ jobsFor task input else h.jobs }

/-! ## Payloads -/

/-- What a node has produced for a task. The orchestrator's product is the input. -/
def fetch (h : Hub) (worker : Worker) (task : TaskId) : Option Output :=
  match worker with
  | .orchestrator => (h.inputs.get? task).map .userInput
  | _ => h.outputs.get? (worker, task)

/-! ## Announcements -/

def announce (h : Hub) (e : Event) : Except TransportFault Hub :=
  if h.channel.closed then .error .eventsClosed
  else .ok { h with channel := { h.channel with events := h.channel.events ++ [e] } }

def reportStatus (h : Hub) (worker : Worker) (status : WorkerStatus) : Except TransportFault Hub :=
  h.announce (.statusChanged ⟨worker, status⟩)

/-- Keeps an output that names its task. -/
def store (h : Hub) (worker : Worker) (output : Output) : Hub :=
  match output.task with
  | some task => { h with outputs := h.outputs.insert (worker, task) output }
  | none => h

/-- The event that announces an output. -/
def arrival (worker : Worker) (output : Output) : Event := .newOutput ⟨worker, output.task, output⟩

/-- Stores an output and announces it. It stays stored also where it cannot be announced. -/
def deliver (h : Hub) (worker : Worker) (output : Output) : Except TransportFault Unit × Hub :=
  match (h.store worker output).announce (arrival worker output) with
  | .error fault => (.error fault, h.store worker output)
  | .ok h => (.ok (), h)

/-! ## Requests -/

/-- Takes a request and answers it. -/
def answer (h : Hub) (request : ConfigurationRequest) : ConfigurationResponse × Hub :=
  (h.responder request, { h with requests := h.requests ++ [request] })

end Hub

end WorkerPipeline
