import WorkerPipeline.Error
import WorkerPipeline.Json.Printer
import WorkerPipeline.Json.Reader

set_option autoImplicit false

/-! # Extra data

Inputs and outputs carry a block of bytes beside their own fields: a JSON object with eight
members that this library interprets and any number of others, which it keeps and writes back, so
that the workers can exchange hints. A block without content is the empty object.
-/

namespace WorkerPipeline

structure Extra where
  hardwareRequired : Option String := none
  maxMemoryFootprint : Option UInt32 := none
  goal : Option String := none
  numOutputs : Option UInt32 := none
  modelRestrains : List String := []
  previousProblem : Option UInt32 := none
  datasetType : Option String := none
  datasetPath : Option String := none
  other : FreeObject := ∅
deriving Inhabited

namespace Extra

/-- The members that are interpreted. A list without elements is left out. -/
def record : Codec.Record Extra where
  fields := [
    .optional "hardware_required" .string hardwareRequired
      fun v e => { e with hardwareRequired := v },
    .optional "max_memory_footprint" .uint32 maxMemoryFootprint
      fun v e => { e with maxMemoryFootprint := v },
    .optional "goal" .string goal fun v e => { e with goal := v },
    .optional "num_outputs" .uint32 numOutputs fun v e => { e with numOutputs := v },
    { name := "model_restrains"
      required := false
      write e := if e.modelRestrains.isEmpty then none else some (Json.strings e.modelRestrains)
      read j e := j.asStrings?.map fun v => { e with modelRestrains := v } },
    .optional "previous_problem_id" .uint32 previousProblem
      fun v e => { e with previousProblem := v },
    .optional "type" .string datasetType fun v e => { e with datasetType := v },
    .optional "dataset_path" .string datasetPath fun v e => { e with datasetPath := v }]
  blank := {}
  defaults := true

/-- The members of an object that are not interpreted. -/
def rest (members : List (String × Json)) : List (String × Json) :=
  members.filter fun m => !record.knows m.1

def ofMembers? (members : List (String × Json)) : Option Extra := do
  let e ← record.ofMembers? members
  let other ← FreeObject.ofMembers? (rest members)
  return { e with other }

/-- The interpreted members first, then the others in order. -/
def members (e : Extra) : List (String × Json) := record.members e ++ e.other.members

def codec : Codec Extra where
  encode e := .obj e.members
  decode?
    | .obj members => ofMembers? members
    | _ => none

/-! ## Blocks of bytes -/

/-- Blanks, tabs, line feeds, form feeds and carriage returns. -/
def isFiller (b : UInt8) : Bool := b == 32 || b == 9 || b == 10 || b == 12 || b == 13

/-- A block that holds nothing. -/
def isEmptyBlock (block : ByteArray) : Bool := block.data.all isFiller

def text (e : Extra) : String := (codec.encode e).render

def encode (e : Extra) : ByteArray := e.text.toUTF8

def decode? (block : ByteArray) : Option Extra :=
  if isEmptyBlock block then some {}
  else do codec.decode? (← Json.read? (← String.fromUTF8? block))

def decode (block : ByteArray) : Except DataError Extra :=
  match decode? block with
  | some e => .ok e
  | none => .error (.invalidExtra "not a JSON object with members of the expected types")

/-- Whether another output is asked for, beyond the one at hand. -/
def requestsMore (e : Extra) : Bool :=
  match e.numOutputs with
  | some n => decide (1 < n)
  | none => false

theorem decode_eq_ok_iff {block : ByteArray} {e : Extra} :
    decode block = .ok e ↔ decode? block = some e := by
  unfold decode
  cases decode? block <;> simp

end Extra

end WorkerPipeline
