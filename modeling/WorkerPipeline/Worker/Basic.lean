import WorkerPipeline.Json.Codec
import WorkerPipeline.Table

set_option autoImplicit false

/-! # Workers and their statuses

The six workers of the pipeline are tracked: the results of a task are theirs. The orchestrator
itself and the unknown node take part in messages only. Each has a number, a tag for JSON, a name
for texts and a description for readers.
-/

namespace WorkerPipeline

inductive Worker where
  | appRequirements
  | carbonFootprint
  | hwConstraints
  | hwProvider
  | mlModelMetadata
  | mlModelProvider
  | orchestrator
  | unknown
deriving DecidableEq, Inhabited

namespace Worker

def all : List Worker :=
  [appRequirements, carbonFootprint, hwConstraints, hwProvider, mlModelMetadata, mlModelProvider,
    orchestrator, unknown]

/-- The number six is not given. -/
def id : Worker → UInt32
  | appRequirements => 0
  | carbonFootprint => 1
  | hwConstraints => 2
  | hwProvider => 3
  | mlModelMetadata => 4
  | mlModelProvider => 5
  | orchestrator => 7
  | unknown => 8

/-- The worker of a number; every number that is not given is the unknown node's. -/
def ofId (n : UInt32) : Worker := (all.find? fun w => w.id == n).getD unknown

def isTracked : Worker → Bool
  | orchestrator | unknown => false
  | _ => true

/-- The workers whose results a task waits for. -/
def tracked : List Worker := all.filter isTracked

def tag : Worker → String
  | appRequirements => "APP_REQUIREMENTS"
  | carbonFootprint => "CARBON_FOOTPRINT"
  | hwConstraints => "HW_CONSTRAINTS"
  | hwProvider => "HW_PROVIDER"
  | mlModelMetadata => "ML_MODEL_METADATA"
  | mlModelProvider => "ML_MODEL_PROVIDER"
  | orchestrator => "ORCHESTRATOR"
  | unknown => "UNKNOWN"

def name : Worker → String
  | appRequirements => "app_requirements"
  | carbonFootprint => "carbon_footprint"
  | hwConstraints => "hw_constraints"
  | hwProvider => "hw_provider"
  | mlModelMetadata => "ml_model_metadata"
  | mlModelProvider => "ml_model_provider"
  | orchestrator => "orchestrator"
  | unknown => "unknown"

def description : Worker → String
  | appRequirements => "Application-level requirements"
  | carbonFootprint => "Carbontracker"
  | hwConstraints => "HW Constraints for inference"
  | hwProvider => "HW Provider"
  | mlModelMetadata => "ML Model Metadata"
  | mlModelProvider => "ML Model Provider"
  | orchestrator => "Orchestrator"
  | unknown => "Unknown node"

def codec : Codec Worker := .named tag all

theorem mem_all (w : Worker) : w ∈ all := by
  cases w <;> decide

theorem mem_tracked {w : Worker} : w ∈ tracked ↔ w.isTracked = true := by
  simp [tracked, mem_all]

theorem id_inj {v w : Worker} (h : v.id = w.id) : v = w := by
  revert h; cases v <;> cases w <;> decide

@[simp] theorem ofId_id (w : Worker) : ofId w.id = w := by
  cases w <;> decide

/-- Workers are ordered by their number. -/
instance : Key Worker := Key.ofInjective id id_inj

end Worker

inductive WorkerStatus where
  | inactive
  | error
  | idle
  | initializing
  | running
  | terminating
deriving DecidableEq, Inhabited

namespace WorkerStatus

def all : List WorkerStatus := [inactive, error, idle, initializing, running, terminating]

/-- The number of a status is its place in the list. -/
def ofId? (n : UInt32) : Option WorkerStatus := all[n.toNat]?

/-- The name is used in texts and in JSON alike. -/
def name : WorkerStatus → String
  | inactive => "INACTIVE"
  | error => "ERROR"
  | idle => "IDLE"
  | initializing => "INITIALIZING"
  | running => "RUNNING"
  | terminating => "TERMINATING"

def codec : Codec WorkerStatus := .named name all

end WorkerStatus

end WorkerPipeline
