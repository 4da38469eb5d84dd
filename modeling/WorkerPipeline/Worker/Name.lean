import WorkerPipeline.Text.Blank
import WorkerPipeline.Text.Case
import WorkerPipeline.Text.Numeral
import WorkerPipeline.Worker.Basic

set_option autoImplicit false

/-! # Workers and statuses named by people

Case does not count in a name, blanks around it are dropped, and in a worker's name a hyphen or a
space may stand for an underscore. Some workers have a second name, and each can be given by its
number; the unknown node can be named in neither way.
-/

namespace WorkerPipeline

/-- A text that names nothing; it is kept as it was given. -/
inductive NameError where
  | unknownWorker (input : String)
  | unknownStatus (input : String)
deriving DecidableEq

namespace Worker

/-- The names that are accepted, after normalisation. -/
def accepted : List (String × Worker) :=
  [("app_requirements", appRequirements),
    ("carbon_footprint", carbonFootprint), ("carbontracker", carbonFootprint),
    ("hw_constraints", hwConstraints),
    ("hw_provider", hwProvider), ("hw_resources", hwProvider),
    ("ml_model_metadata", mlModelMetadata),
    ("ml_model_provider", mlModelProvider), ("ml_model", mlModelProvider),
    ("orchestrator", orchestrator)]

/-- A hyphen or a space becomes an underscore. -/
def joint (c : Char) : Char := if c = '-' ∨ c = ' ' then '_' else c

/-- The form in which names are compared. -/
def normalName (s : String) : String := String.ofList ((Text.lower (Text.trim s)).toList.map joint)

/-- The worker of a number that is given to a worker other than the unknown node. -/
def ofNumeral? (s : String) : Option Worker :=
  match Text.countBelow? UInt32.size s with
  | none => none
  | some n => if ofId (.ofNat n) = unknown then none else some (ofId (.ofNat n))

def parse (s : String) : Except NameError Worker :=
  match accepted.lookup (normalName s) with
  | some w => .ok w
  | none =>
    match ofNumeral? (normalName s) with
    | some w => .ok w
    | none => .error (.unknownWorker s)

end Worker

namespace WorkerStatus

def parse (s : String) : Except NameError WorkerStatus :=
  match all.find? fun status => status.name == Text.capitals (Text.trim s) with
  | some status => .ok status
  | none => .error (.unknownStatus s)

end WorkerStatus

end WorkerPipeline
