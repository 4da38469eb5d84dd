import WorkerPipeline.Error

set_option autoImplicit false

/-! # Notices

What the orchestrator and the simulated workers write into the journal. A notice names what has
happened; its line has a level, a message and fields, the first of which is nearly always the node
that writes it.
-/

namespace WorkerPipeline

inductive Level where
  | debug
  | info
  | warn
  | error
deriving DecidableEq

def Level.name : Level → String
  | .debug => "DEBUG"
  | .info => "INFO"
  | .warn => "WARN"
  | .error => "ERROR"

inductive StopReason where
  | shutdownRequested
  | eventsClosed
deriving DecidableEq

def StopReason.text : StopReason → String
  | .shutdownRequested => "shutdown requested"
  | .eventsClosed => "node runtime closed its event channel"

inductive Notice where
  | loopStarted
  | loopStopped (reason : StopReason)
  | statusReceived (worker : Worker) (status : WorkerStatus)
  | outputIgnored (worker : Worker)
  | outputReceived (worker : Worker) (task : TaskId)
  | duplicateResult (worker : Worker) (task : TaskId)
  | chainContinued (task next : TaskId)
  | chainFailed (task : TaskId) (e : Error)
  | baseMoved (base candidate : TaskId)
  | taskPublished (task : TaskId)
  | waiting (worker : Worker) (task : TaskId)
  | requestSent (transaction : UInt32) (worker : Worker)
  | requestUnroutable (transaction : UInt32) (configuration : String)
  | problemEvicted (problem : UInt32)
  | workerFailed (worker : Worker) (task : TaskId) (e : Error)
deriving DecidableEq

namespace Notice

def level : Notice → Level
  | outputIgnored _ | duplicateResult _ _ | baseMoved _ _ | waiting _ _ | requestSent _ _
  | problemEvicted _ | workerFailed _ _ _ => .debug
  | requestUnroutable _ _ => .warn
  | chainFailed _ _ => .error
  | _ => .info

def message : Notice → String
  | loopStarted => "🚀 Starting orchestrator event loop"
  | loopStopped reason => "🛑 Shutting down: " ++ reason.text
  | statusReceived worker status =>
    worker.description ++ " node status " ++ status.name ++ " received"
  | outputIgnored worker => "Ignoring " ++ worker.name ++ " output without task id"
  | outputReceived worker _ => worker.description ++ " node output received"
  | duplicateResult worker task => "Duplicate " ++ worker.name ++ " result for task " ++ task.text
  | chainContinued task next => "🔁 Task " ++ task.text ++ " continues as " ++ next.text
  | chainFailed task e =>
    "❌ Iteration chain after task " ++ task.text ++ " failed: " ++ e.message
  | baseMoved base candidate =>
    "Problem already at " ++ base.text ++ ", iterating from there instead of " ++ candidate.text
  | taskPublished task => "📤 Published task " ++ task.text
  | waiting worker task => "Waiting for " ++ worker.name ++ " result of task " ++ task.text
  | requestSent transaction worker =>
    "Sending configuration request " ++ toString transaction.toNat ++ " to " ++ worker.name
  | requestUnroutable transaction configuration =>
    "No worker handles configuration request " ++ toString transaction.toNat ++ ": " ++
      configuration
  | problemEvicted _ => "Evicted task records of problem"
  | workerFailed _ task e =>
    "Simulated worker failed on task " ++ task.text ++ ": " ++ e.message

/-- The node that writes the notice. -/
def node : Notice → Worker
  | workerFailed worker _ _ => worker
  | _ => .orchestrator

def fields (n : Notice) : List (String × String) :=
  match n with
  | problemEvicted problem => [("problem_id", toString problem.toNat)]
  | outputReceived _ task => [("node", n.node.name), ("task_id", task.text)]
  | chainFailed _ e => [("node", n.node.name), ("error", e.message)]
  | n => [("node", n.node.name)]

end Notice

end WorkerPipeline
