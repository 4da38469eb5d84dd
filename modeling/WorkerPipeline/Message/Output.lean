import WorkerPipeline.Message.Input

set_option autoImplicit false

/-! # Outputs

Every worker has a kind of output of its own; the input of a task counts as an output of the
orchestrator. In JSON the member `kind` tells them apart, beside the fields of the output.
-/

namespace WorkerPipeline

-- Blocks are compared as the core library does it, whatever other instances are in scope.
attribute [local instance (high)] ByteArray.instDecidableEq

structure AppRequirements where
  task : Option TaskId := none
  requirements : List String := []
  extraData : ByteArray := .empty
deriving DecidableEq, Inhabited

structure CarbonFootprint where
  task : Option TaskId := none
  footprint : Binary64 := .zero
  energyConsumption : Binary64 := .zero
  intensity : Binary64 := .zero
  extraData : ByteArray := .empty
deriving DecidableEq, Inhabited

structure HwConstraints where
  task : Option TaskId := none
  maxMemoryFootprint : UInt32 := 0
  extraData : ByteArray := .empty
deriving DecidableEq, Inhabited

structure HwResource where
  task : Option TaskId := none
  description : String := ""
  powerConsumption : Binary64 := .zero
  latency : Binary64 := .zero
  modelFootprint : Binary64 := .zero
  maxFootprint : Binary64 := .zero
  extraData : ByteArray := .empty
deriving DecidableEq, Inhabited

structure MlModelMetadata where
  task : Option TaskId := none
  keywords : List String := []
  metadata : List String := []
  extraData : ByteArray := .empty
deriving DecidableEq, Inhabited

structure MlModel where
  task : Option TaskId := none
  model : String := ""
  path : String := ""
  properties : String := ""
  propertiesPath : String := ""
  inputBatch : List String := []
  targetLatency : Binary64 := .zero
  extraData : ByteArray := .empty
deriving DecidableEq, Inhabited

inductive Output where
  | appRequirements (o : AppRequirements)
  | carbonFootprint (o : CarbonFootprint)
  | hwConstraints (o : HwConstraints)
  | hwResource (o : HwResource)
  | mlModelMetadata (o : MlModelMetadata)
  | mlModel (o : MlModel)
  | userInput (o : UserInput)
deriving DecidableEq, Inhabited

/-! ## Fields -/

def AppRequirements.record : Codec.Record AppRequirements where
  fields := [
    .of "task_id" (.option TaskId.codec) task (fun v o => { o with task := v }) false,
    .of "app_requirements" (.list .string) requirements
      (fun v o => { o with requirements := v }) false,
    .of "extra_data" .bytes extraData (fun v o => { o with extraData := v }) false]
  blank := {}
  defaults := true

def CarbonFootprint.record : Codec.Record CarbonFootprint where
  fields := [
    .of "task_id" (.option TaskId.codec) task (fun v o => { o with task := v }) false,
    .of "carbon_footprint" .binary64 footprint (fun v o => { o with footprint := v }) false,
    .of "energy_consumption" .binary64 energyConsumption
      (fun v o => { o with energyConsumption := v }) false,
    .of "carbon_intensity" .binary64 intensity (fun v o => { o with intensity := v }) false,
    .of "extra_data" .bytes extraData (fun v o => { o with extraData := v }) false]
  blank := {}
  defaults := true

def HwConstraints.record : Codec.Record HwConstraints where
  fields := [
    .of "task_id" (.option TaskId.codec) task (fun v o => { o with task := v }) false,
    .of "max_memory_footprint" .uint32 maxMemoryFootprint
      (fun v o => { o with maxMemoryFootprint := v }) false,
    .of "extra_data" .bytes extraData (fun v o => { o with extraData := v }) false]
  blank := {}
  defaults := true

def HwResource.record : Codec.Record HwResource where
  fields := [
    .of "task_id" (.option TaskId.codec) task (fun v o => { o with task := v }) false,
    .of "hw_description" .string description (fun v o => { o with description := v }) false,
    .of "power_consumption" .binary64 powerConsumption
      (fun v o => { o with powerConsumption := v }) false,
    .of "latency" .binary64 latency (fun v o => { o with latency := v }) false,
    .of "memory_footprint_of_ml_model" .binary64 modelFootprint
      (fun v o => { o with modelFootprint := v }) false,
    .of "max_hw_memory_footprint" .binary64 maxFootprint
      (fun v o => { o with maxFootprint := v }) false,
    .of "extra_data" .bytes extraData (fun v o => { o with extraData := v }) false]
  blank := {}
  defaults := true

def MlModelMetadata.record : Codec.Record MlModelMetadata where
  fields := [
    .of "task_id" (.option TaskId.codec) task (fun v o => { o with task := v }) false,
    .of "keywords" (.list .string) keywords (fun v o => { o with keywords := v }) false,
    .of "ml_model_metadata" (.list .string) metadata (fun v o => { o with metadata := v }) false,
    .of "extra_data" .bytes extraData (fun v o => { o with extraData := v }) false]
  blank := {}
  defaults := true

def MlModel.record : Codec.Record MlModel where
  fields := [
    .of "task_id" (.option TaskId.codec) task (fun v o => { o with task := v }) false,
    .of "model" .string model (fun v o => { o with model := v }) false,
    .of "model_path" .string path (fun v o => { o with path := v }) false,
    .of "model_properties" .string properties (fun v o => { o with properties := v }) false,
    .of "model_properties_path" .string propertiesPath
      (fun v o => { o with propertiesPath := v }) false,
    .of "input_batch" (.list .string) inputBatch (fun v o => { o with inputBatch := v }) false,
    .of "target_latency" .binary64 targetLatency (fun v o => { o with targetLatency := v }) false,
    .of "extra_data" .bytes extraData (fun v o => { o with extraData := v }) false]
  blank := {}
  defaults := true

namespace Output

/-! ## Common parts -/

/-- The worker whose kind of output this is. -/
def worker : Output → Worker
  | appRequirements _ => .appRequirements
  | carbonFootprint _ => .carbonFootprint
  | hwConstraints _ => .hwConstraints
  | hwResource _ => .hwProvider
  | mlModelMetadata _ => .mlModelMetadata
  | mlModel _ => .mlModelProvider
  | userInput _ => .orchestrator

def task : Output → Option TaskId
  | appRequirements o => o.task
  | carbonFootprint o => o.task
  | hwConstraints o => o.task
  | hwResource o => o.task
  | mlModelMetadata o => o.task
  | mlModel o => o.task
  | userInput o => o.task

def extraData : Output → ByteArray
  | appRequirements o => o.extraData
  | carbonFootprint o => o.extraData
  | hwConstraints o => o.extraData
  | hwResource o => o.extraData
  | mlModelMetadata o => o.extraData
  | mlModel o => o.extraData
  | userInput o => o.extraData

def extra (o : Output) : Except DataError Extra := Extra.decode o.extraData

/-! ## JSON -/

/-- The value of the member `kind`. -/
def kind : Output → String
  | appRequirements _ => "app_requirements"
  | carbonFootprint _ => "carbon_footprint"
  | hwConstraints _ => "hw_constraints"
  | hwResource _ => "hw_resource"
  | mlModelMetadata _ => "ml_model_metadata"
  | mlModel _ => "ml_model"
  | userInput _ => "user_input"

/-- The fields of the output, without its kind. -/
def members : Output → List (String × Json)
  | appRequirements o => AppRequirements.record.members o
  | carbonFootprint o => CarbonFootprint.record.members o
  | hwConstraints o => HwConstraints.record.members o
  | hwResource o => HwResource.record.members o
  | mlModelMetadata o => MlModelMetadata.record.members o
  | mlModel o => MlModel.record.members o
  | userInput o => UserInput.record.members o

/-- Reads the fields of an output of a given kind. -/
def ofFields? (kind : String) (fields : Json) : Option Output :=
  match kind with
  | "app_requirements" => (AppRequirements.record.codec.decode? fields).map appRequirements
  | "carbon_footprint" => (CarbonFootprint.record.codec.decode? fields).map carbonFootprint
  | "hw_constraints" => (HwConstraints.record.codec.decode? fields).map hwConstraints
  | "hw_resource" => (HwResource.record.codec.decode? fields).map hwResource
  | "ml_model_metadata" => (MlModelMetadata.record.codec.decode? fields).map mlModelMetadata
  | "ml_model" => (MlModel.record.codec.decode? fields).map mlModel
  | "user_input" => (UserInput.record.codec.decode? fields).map userInput
  | _ => none

/-- The kind is searched among all members, so every member has to be readable, also one that no
field bears. In an array the kind comes first. -/
def ofJson? (j : Json) : Option Output :=
  if !j.isReadable then none
  else match j with
    | .obj members =>
      match members.filter fun m => m.1 == "kind" with
      | [(_, .str kind)] => ofFields? kind (.obj (members.filter fun m => m.1 != "kind"))
      | _ => none
    | .arr (.str kind :: elements) => ofFields? kind (.arr elements)
    | _ => none

def codec : Codec Output where
  encode o := .obj (("kind", .str o.kind) :: o.members)
  decode? := ofJson?

/-- The fields of the output, with the extra data decoded. -/
def resultMembers (o : Output) (extra : Extra) : List (String × Json) :=
  o.members.map fun (name, j) => (name, if name == "extra_data" then Extra.codec.encode extra else j)

/-- The output as a result. It is a free value, so its members are in order. -/
def resultJson (o : Output) : Except DataError Json :=
  o.extra.map fun extra => (Json.obj (o.resultMembers extra)).canonical

end Output

end WorkerPipeline
