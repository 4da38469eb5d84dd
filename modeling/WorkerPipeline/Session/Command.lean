import WorkerPipeline.Session.Waiting

set_option autoImplicit false

/-! # Commands of a session

A command is one thing that a caller, a worker or the hub's owner does in a session. It changes
the session and is answered. A run is a list of commands.
-/

namespace WorkerPipeline

inductive Command where
  | submit (s : Submission)
  | deliver (worker : Worker) (output : Output)
  | deliverStatus (worker : Worker) (status : WorkerStatus)
  | pump
  | stop
  | runEvents (events : List Event)
  | handle (e : Event)
  | register (task : TaskId) (worker : Worker)
  | available (task : TaskId) (worker : Worker)
  | record (task : TaskId)
  | status (worker : Option Worker)
  | result (task : Option TaskId) (worker : Worker)
  | wait (task : TaskId) (worker : Worker)
  | spawn (name : String) (worker : Worker)
  | poll (name : String)
  | elapse (ms : Nat)
  | reject (on : Bool)
  | request (text : String)
  | configRequest (text : String)
  | requests
  | published
  | publishedInput (task : TaskId)
  | allocateTask
  | allocateIteration (base : TaskId)
  | publish (task : TaskId) (input : UserInput)
  | fetch (worker : Worker) (task : TaskId)

/-- What a command is answered with. -/
inductive Reply where
  | done
  | failed (e : Error)
  | blocked
  | gone
  | flag (b : Bool)
  | text (s : String)
  | json (j : Json)
  | task (t : TaskId)
  | tasks (l : List TaskId)
  | record (r : Option TaskRecord)
  | result (r : WorkerResult)
  | arrived
  | polled (woken : Bool) (answer : Session.Answer)
  | loop (finished : Bool)
  | stopped (wasFinished : Bool)
  | closed
  | response (r : ConfigurationResponse)
  | requests (l : List ConfigurationRequest)
  | input (u : Option UserInput)
  | template (t : TaskId) (u : UserInput)
  | output (o : Option Output)

namespace Reply

/-- The answer to a command that may fail. -/
def ofExcept {α : Type} (reply : α → Reply) : Except Error α → Reply
  | .ok a => reply a
  | .error e => failed e

/-- The answer to a command to the hub. -/
def ofTransport {α : Type} (reply : α → Reply) (r : Except TransportFault α) : Reply :=
  ofExcept reply (r.mapError .transportFailure)

/-- The answer to a command that may not come to an end. -/
def ofAnswer {α : Type} (reply : α → Reply) : Option (Except Error α) → Reply
  | none => blocked
  | some r => ofExcept reply r

end Reply

namespace Session

def isFinished (s : Session) : Bool := decide (s.loop = .finished)

/-- Carries a command out. -/
def apply (s : Session) : Command → Reply × Session
  | .submit input =>
    let (outcome, s) := s.submit input
    (.ofExcept .task outcome, s)
  | .deliver worker output =>
    let (outcome, s) := s.deliver worker output
    (.ofTransport (fun _ => .done) outcome, s)
  | .deliverStatus worker status =>
    let (outcome, s) := s.reportStatus worker status
    (.ofTransport (fun _ => .done) outcome, s)
  | .pump => (.loop s.isFinished, s.pump)
  | .stop => (.stopped s.isFinished, s.stop)
  | .runEvents events => (.closed, s.runEvents events)
  | .handle e => (.done, s.withOrchestrator (s.orchestrator.handle e))
  | .register task worker =>
    (.flag (s.orchestrator.ledger.isNew task worker),
      s.withOrchestrator (s.orchestrator.registerResult task worker))
  | .available task worker => (.flag (s.orchestrator.ledger.available task worker), s)
  | .record task => (.record (s.orchestrator.ledger.record? task), s)
  | .status worker => (.ofExcept (fun r => .text r.text) (s.orchestrator.status worker), s)
  | .result task worker =>
    let (answer, s) := s.result task worker
    (.ofAnswer .result answer, s)
  | .wait task worker =>
    let (answer, s) := s.wait worker task
    (.ofAnswer (fun _ => .arrived) answer, s)
  | .spawn name worker =>
    let (answer, s) := s.spawn name worker
    (.polled false answer, s)
  | .poll name =>
    match s.poll name with
    | (none, s) => (.gone, s)
    | (some (woken, answer), s) => (.polled woken answer, s)
  | .elapse ms => (.done, { s with clock := s.clock + ms })
  | .reject on => (.done, s.withHub { s.orchestrator.hub with rejecting := on })
  | .request text =>
    let (outcome, o) := s.orchestrator.sendRequest text
    (.ofExcept .response outcome, s.withOrchestrator o)
  | .configRequest text =>
    let (outcome, o) := s.orchestrator.configRequest text
    (.ofExcept .json outcome, s.withOrchestrator o)
  | .requests => (.requests s.orchestrator.hub.requests, s)
  | .published => (.tasks s.orchestrator.hub.published, s)
  | .publishedInput task => (.input (s.orchestrator.hub.inputs.get? task), s)
  | .allocateTask =>
    let (task, template, hub) := s.orchestrator.hub.allocateTask
    (.template task template, s.withHub hub)
  | .allocateIteration base =>
    match s.orchestrator.hub.allocateIteration base with
    | .error fault => (.failed (.transportFailure fault), s)
    | .ok (task, template, hub) => (.template task template, s.withHub hub)
  | .publish task input =>
    match s.orchestrator.hub.publish task input with
    | .error fault => (.failed (.transportFailure fault), s)
    | .ok hub => (.done, s.withHub hub)
  | .fetch worker task => (.output (s.orchestrator.hub.fetch worker task), s)

/-- The session after a list of commands. -/
def run (s : Session) (commands : List Command) : Session :=
  commands.foldl (fun s c => (s.apply c).2) s

end Session

end WorkerPipeline
