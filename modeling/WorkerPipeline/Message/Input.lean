import WorkerPipeline.Message.Extra

set_option autoImplicit false

/-! # Task inputs

A caller hands in a `Submission`; the workers receive a `UserInput`, in which the extra data is a
block of bytes and the task has its id. Both hold the same `Brief`, the description of the
problem. A submission may continue an earlier task: it then names the problem in its extra data
and the iteration beside it.
-/

namespace WorkerPipeline

-- Blocks are compared as the core library does it, whatever other instances are in scope.
attribute [local instance (high)] ByteArray.instDecidableEq

/-- What is asked for. -/
structure Brief where
  modality : String := ""
  shortDescription : String := ""
  definition : String := ""
  inputs : List String := []
  outputs : List String := []
  minimumSamples : UInt32 := 0
  maximumSamples : UInt32 := 0
  optimizeManually : Bool := false
  optimizeAutomatically : Bool := false
  desiredFootprint : Binary64 := .zero
  continent : String := ""
  region : String := ""
deriving DecidableEq, Inhabited

structure UserInput where
  task : Option TaskId := none
  brief : Brief := {}
  previousIteration : UInt32 := 0
  extraData : ByteArray := .empty
deriving DecidableEq, Inhabited

structure Submission where
  brief : Brief := {}
  previousIteration : Option UInt32 := none
  extra : Extra := {}
deriving Inhabited

/-! ## JSON -/

namespace Brief

/-- A field of the brief, as a field of a message that contains one. -/
def field {α β : Type} (getBrief : α → Brief) (setBrief : Brief → α → α) (name : String)
    (c : Codec β) (get : Brief → β) (set : β → Brief → Brief) : Codec.Field α :=
  .of name c (fun a => get (getBrief a)) (fun v a => setBrief (set v (getBrief a)) a) false

section

variable {α : Type} (getBrief : α → Brief) (setBrief : Brief → α → α)

/-- The fields up to the bounds of the samples. -/
def leadingFields : List (Codec.Field α) := [
  field getBrief setBrief "modality" .string modality fun v b => { b with modality := v },
  field getBrief setBrief "problem_short_description" .string shortDescription
    fun v b => { b with shortDescription := v },
  field getBrief setBrief "problem_definition" .string definition
    fun v b => { b with definition := v },
  field getBrief setBrief "inputs" (.list .string) inputs fun v b => { b with inputs := v },
  field getBrief setBrief "outputs" (.list .string) outputs fun v b => { b with outputs := v },
  field getBrief setBrief "minimum_samples" .uint32 minimumSamples
    fun v b => { b with minimumSamples := v },
  field getBrief setBrief "maximum_samples" .uint32 maximumSamples
    fun v b => { b with maximumSamples := v },
  field getBrief setBrief "optimize_carbon_footprint_manual" .bool optimizeManually
    fun v b => { b with optimizeManually := v }]

/-- The fields from the automatic optimisation on. -/
def trailingFields : List (Codec.Field α) := [
  field getBrief setBrief "optimize_carbon_footprint_auto" .bool optimizeAutomatically
    fun v b => { b with optimizeAutomatically := v },
  field getBrief setBrief "desired_carbon_footprint" .binary64 desiredFootprint
    fun v b => { b with desiredFootprint := v },
  field getBrief setBrief "geo_location_continent" .string continent
    fun v b => { b with continent := v },
  field getBrief setBrief "geo_location_region" .string region fun v b => { b with region := v }]

end

end Brief

namespace UserInput

def record : Codec.Record UserInput where
  fields :=
    .of "task_id" (.option TaskId.codec) task (fun v u => { u with task := v }) false ::
    (Brief.leadingFields brief fun v u => { u with brief := v }) ++
    .of "previous_iteration" .uint32 previousIteration
      (fun v u => { u with previousIteration := v }) false ::
    (Brief.trailingFields brief fun v u => { u with brief := v }) ++
    [.of "extra_data" .bytes extraData (fun v u => { u with extraData := v }) false]
  blank := {}
  defaults := true

def codec : Codec UserInput := record.codec

end UserInput

namespace Submission

def record : Codec.Record Submission where
  fields :=
    (Brief.leadingFields brief fun v s => { s with brief := v }) ++
    (Brief.trailingFields brief fun v s => { s with brief := v }) ++
    [.of "previous_iteration" (.option .uint32) previousIteration
      (fun v s => { s with previousIteration := v }) false,
    .of "extra" Extra.codec extra (fun v s => { s with extra := v }) false]
  blank := {}
  defaults := true

def codec : Codec Submission := record.codec

/-! ## From submission to input and back -/

/-- The task that the submission continues, if it names one completely. -/
def predecessor? (s : Submission) : Option TaskId :=
  match s.extra.previousProblem, s.previousIteration with
  | some problem, some iteration => some ⟨problem, iteration⟩
  | _, _ => none

/-- The extra data with the hardware and the memory filled in where they are missing. -/
def completeExtra (s : Submission) (hardware : String) (memory : UInt32) : Extra :=
  { s.extra with
    hardwareRequired := some (s.extra.hardwareRequired.getD hardware)
    maxMemoryFootprint := some (s.extra.maxMemoryFootprint.getD memory) }

/-- Writes the submission over a template. -/
def fill (s : Submission) (template : UserInput) (task : TaskId) (hardware : String)
    (memory : UInt32) : UserInput :=
  { template with
    task := some task
    brief := s.brief
    previousIteration := s.previousIteration.getD 0
    extraData := (s.completeExtra hardware memory).encode }

/-- Rebuilds a submission. The iteration counts only if a problem is named with it. -/
def ofUserInput (u : UserInput) : Except DataError Submission := do
  let extra ← Extra.decode u.extraData
  return {
    brief := u.brief
    previousIteration := extra.previousProblem.map fun _ => u.previousIteration
    extra }

/-- Every field of a template is overwritten. -/
theorem fill_template (s : Submission) (u v : UserInput) (task : TaskId) (hardware : String)
    (memory : UInt32) : s.fill u task hardware memory = s.fill v task hardware memory := rfl

end Submission

end WorkerPipeline
