import WorkerPipeline.Message.Configuration
import WorkerPipeline.TaskId
import WorkerPipeline.Worker.Name

set_option autoImplicit false

/-! # Errors

An error names its cause; its text is a function of the cause. Causes that other parts report in
words of their own are kept as `other`.
-/

namespace WorkerPipeline

/-! ## Errors in data -/

inductive DataError where
  | name (e : NameError)
  | invalidExtra (reason : String)
  | serialization (reason : String)
deriving DecidableEq

def NameError.message : NameError → String
  | .unknownWorker input => "Unknown worker: " ++ input
  | .unknownStatus input => "Unknown worker status: " ++ input

def DataError.message : DataError → String
  | .name e => e.message
  | .invalidExtra reason => "Invalid extra data: " ++ reason
  | .serialization reason => "Serialization failed: " ++ reason

/-! ## Causes -/

/-- Why a submission is refused before anything is done. -/
inductive InputFault where
  | blankDescription
  | iterationWithoutProblem
  | problemWithoutIteration
  | other (text : String)
deriving DecidableEq

def InputFault.text : InputFault → String
  | .blankDescription => "problem_short_description must not be empty"
  | .iterationWithoutProblem => "previous_iteration given without extra.previous_problem_id"
  | .problemWithoutIteration => "extra.previous_problem_id given without previous_iteration"
  | .other text => text

/-- What goes wrong between the orchestrator and the nodes. -/
inductive TransportFault where
  | publishRejected (task : TaskId)
  | alreadyAllocated (task : TaskId)
  | iterationsUsedUp (problem : UInt32)
  | eventsClosed
  | wrongReply (transaction expected : UInt32)
  | requestRejected (worker : Worker) (transaction : UInt32) (code : ErrorCode)
  | other (text : String)
deriving DecidableEq

def TransportFault.text : TransportFault → String
  | .publishRejected task => "publish of task " ++ task.text ++ " rejected"
  | .alreadyAllocated task => "task " ++ task.text ++ " is already allocated"
  | .iterationsUsedUp problem =>
    "problem " ++ toString problem.toNat ++ " has no iterations left"
  | .eventsClosed => "orchestrator event channel closed"
  | .wrongReply transaction expected =>
    "reply for transaction " ++ toString transaction.toNat ++ " received for request " ++
      toString expected.toNat
  | .requestRejected worker transaction code =>
    worker.name ++ " rejected configuration request " ++ toString transaction.toNat ++ " (" ++
      code.label ++ ")"
  | .other text => text

/-- What is wrong with a setting. -/
inductive SettingFault where
  | invalidValue (key value : String)
  | belowOne (key : String)
  | other (text : String)
deriving DecidableEq

def SettingFault.text : SettingFault → String
  | .invalidValue key value => key ++ " has invalid value '" ++ value ++ "'"
  | .belowOne key => key ++ " must be at least 1"
  | .other text => text

/-! ## Errors of the orchestrator -/

inductive Error where
  | invalidInput (fault : InputFault)
  | unknownWorker (worker : Worker)
  | routingFailure (configuration : String)
  | transportFailure (fault : TransportFault)
  | notFound (worker : Worker) (task : TaskId)
  | noTasks
  | waitTimedOut (worker : Worker) (task : TaskId)
  | configurationError (fault : SettingFault)
  | dataError (e : DataError)
  | jsonError (reason : String)
deriving DecidableEq

namespace Error

/-- The short name of the sort of error. -/
def kind : Error → String
  | invalidInput _ => "invalid_input"
  | unknownWorker _ => "unknown_worker"
  | routingFailure _ => "routing_failure"
  | transportFailure _ => "transport_failure"
  | notFound _ _ => "not_found"
  | noTasks => "no_tasks"
  | waitTimedOut _ _ => "wait_timed_out"
  | configurationError _ => "configuration_error"
  | dataError _ => "shared_error"
  | jsonError _ => "json_error"

def message : Error → String
  | invalidInput fault => "Invalid input: " ++ fault.text
  | unknownWorker worker => "No results to show for " ++ worker.name
  | routingFailure configuration => "No worker handles configuration request: " ++ configuration
  | transportFailure fault => "Node runtime failure: " ++ fault.text
  | notFound worker task => "No " ++ worker.name ++ " data found for task " ++ task.text
  | noTasks => "No task has been submitted yet"
  | waitTimedOut worker task =>
    "Timed out waiting for " ++ worker.name ++ " result of task " ++ task.text
  | configurationError fault => "Configuration error: " ++ fault.text
  | dataError e => "Shared component error: " ++ e.message
  | jsonError reason => "JSON serialization error: " ++ reason

end Error

end WorkerPipeline
