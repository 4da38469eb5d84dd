import WorkerPipeline.Hub
import WorkerPipeline.Ledger.Basic
import WorkerPipeline.Notice
import WorkerPipeline.Registry
import WorkerPipeline.Routing
import WorkerPipeline.Settings

set_option autoImplicit false

/-! # The orchestrator

The orchestrator submits tasks to a hub, keeps a ledger of the results that arrive, knows the
statuses of the workers and relays configuration requests. It counts the registrations of
results, so that somebody who waits can tell whether to look again, and writes a journal.
-/

namespace WorkerPipeline

structure Orchestrator where
  settings : Settings := {}
  ledger : Ledger := {}
  registry : Registry := {}
  transactions : Transactions := {}
  hub : Hub := {}
  /-- How often a result was registered, new or not. -/
  registrations : Nat := 0
  /-- The notices, newest first. -/
  journal : List Notice := []
deriving Inhabited

/-- The result of a worker as it is handed out: its fields, with the extra data decoded. -/
structure WorkerResult where
  worker : Worker
  task : TaskId
  data : Json
deriving Inhabited

def WorkerResult.json (r : WorkerResult) : Json :=
  .obj [("worker", Worker.codec.encode r.worker), ("task_id", TaskId.codec.encode r.task),
    ("data", r.data)]

namespace Orchestrator

def new (settings : Settings) (hub : Hub) : Orchestrator :=
  { settings, hub, ledger := .new settings.retention }

def note (o : Orchestrator) (n : Notice) : Orchestrator := { o with journal := n :: o.journal }

/-- Writes that the records of problems are gone. -/
def noteEvicted (o : Orchestrator) (problems : List UInt32) : Orchestrator :=
  { o with journal := (problems.map .problemEvicted).reverse ++ o.journal }

/-! ## Registering -/

def registerTask (o : Orchestrator) (task : TaskId) : Orchestrator :=
  { o.noteEvicted (o.ledger.evicted task) with ledger := o.ledger.registerTask task }

/-- Registers a result, and says so if there was nothing to mark. -/
def registerResult (o : Orchestrator) (task : TaskId) (worker : Worker) : Orchestrator :=
  let registered := { o.noteEvicted (o.ledger.evicted task) with
    ledger := o.ledger.registerResult task worker
    registrations := o.registrations + 1 }
  if o.ledger.isNew task worker then registered
  else registered.note (.duplicateResult worker task)

def onStatus (o : Orchestrator) (c : StatusChange) : Orchestrator :=
  { o with registry := o.registry.report c.worker c.status }.note
    (.statusReceived c.worker c.status)

/-! ## Questions -/

/-- The status of one tracked worker, or all that were reported. -/
def status (o : Orchestrator) : Option Worker → Except Error StatusReport
  | none => .ok (.all o.registry.statuses)
  | some worker =>
    if worker.isTracked then .ok (.single worker (o.registry.status worker))
    else .error (.unknownWorker worker)

/-- The result of a worker for a task, if the hub has its output and the extra data decode. -/
def fetchResult (o : Orchestrator) (task : TaskId) (worker : Worker) :
    Except Error WorkerResult :=
  match o.hub.fetch worker task with
  | none => .error (.notFound worker task)
  | some output =>
    match output.resultJson with
    | .error e => .error (.dataError e)
    | .ok data => .ok { worker, task, data }

end Orchestrator

end WorkerPipeline
