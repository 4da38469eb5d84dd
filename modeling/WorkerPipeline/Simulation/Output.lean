import WorkerPipeline.Error
import WorkerPipeline.Message.Output
import WorkerPipeline.Simulation.Quantity
import WorkerPipeline.Text.Blank
import WorkerPipeline.Text.Case

set_option autoImplicit false

/-! # Outputs of simulated workers

Each tracked worker answers an input with an output of its kind. Most of them hand the extra data
on as they are; the carbon footprint adds the model of this iteration to those that the next one
has to avoid.
-/

namespace WorkerPipeline

namespace Simulation

/-- The model that is suggested for an iteration. -/
def modelName (task : TaskId) (input : UserInput) : String :=
  (if input.brief.modality = "" then "generic" else input.brief.modality) ++ "-candidate-" ++
    toString task.iteration.toNat

/-- The extra data of the carbon footprint. -/
def carbonExtra (extra : Extra) (model : String) : Extra :=
  { numOutputs := extra.numOutputs, modelRestrains := extra.modelRestrains ++ [model] }

/-- The memory that an input allows. -/
def memoryLimit (extra : Extra) : UInt32 := extra.maxMemoryFootprint.getD 100

/-- What a worker produces, given the extra data of the input; only tracked workers do. -/
def product? (readings : Readings) (worker : Worker) (task : TaskId) (input : UserInput)
    (extra : Extra) : Option Output :=
  match worker with
  | .appRequirements => some <| .appRequirements {
      task := some task
      requirements := ["serve '" ++ input.brief.shortDescription ++ "'"]
      extraData := input.extraData }
  | .carbonFootprint => some <| .carbonFootprint {
      task := some task
      footprint := readings .carbonFootprint
      energyConsumption := readings .energyConsumption
      intensity := readings .carbonIntensity
      extraData := (carbonExtra extra (modelName task input)).encode }
  | .hwConstraints => some <| .hwConstraints {
      task := some task
      maxMemoryFootprint := memoryLimit extra
      extraData := input.extraData }
  | .hwProvider => some <| .hwResource {
      task := some task
      description := extra.hardwareRequired.getD ""
      powerConsumption := readings .powerConsumption
      latency := readings .latency
      modelFootprint := readings .modelFootprint
      maxFootprint := .ofNat (memoryLimit extra).toNat
      extraData := input.extraData }
  | .mlModelMetadata => some <| .mlModelMetadata {
      task := some task
      keywords := (Text.words input.brief.shortDescription).map Text.lower
      metadata := [input.brief.modality]
      extraData := input.extraData }
  | .mlModelProvider => some <| .mlModel {
      task := some task
      model := modelName task input
      inputBatch := input.brief.inputs
      targetLatency := readings .targetLatency
      extraData := input.extraData }
  | .orchestrator | .unknown => none

/-- The answer of a simulated worker to an input. -/
def output (readings : Readings) (worker : Worker) (task : TaskId) (input : UserInput) :
    Except Error Output :=
  match Extra.decode input.extraData with
  | .error e => .error (.dataError e)
  | .ok extra =>
    match product? readings worker task input extra with
    | some o => .ok o
    | none => .error (.unknownWorker worker)

/-- A product is of the worker's own kind and bears the task. -/
theorem product?_eq_some {readings : Readings} {worker : Worker} {task : TaskId}
    {input : UserInput} {extra : Extra} {o : Output}
    (h : product? readings worker task input extra = some o) :
    o.worker = worker ∧ o.task = some task := by
  cases worker <;> cases h <;> exact ⟨rfl, rfl⟩

theorem product?_isSome (readings : Readings) (worker : Worker) (task : TaskId)
    (input : UserInput) (extra : Extra) :
    (product? readings worker task input extra).isSome = worker.isTracked := by
  cases worker <;> rfl

end Simulation

end WorkerPipeline
