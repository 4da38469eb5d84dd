import WorkerPipeline.Message.Input

set_option autoImplicit false

/-! # Follow-up submissions

The carbon footprint closes an iteration. If its extra data ask for more than one output, the
problem goes on: the input of the task is submitted once more as a continuation, with one output
fewer to produce and with the models that the carbon footprint excludes.
-/

namespace WorkerPipeline

/-- The outputs that remain after the one at hand, if any do. -/
def Extra.remainingOutputs? (e : Extra) : Option UInt32 :=
  match e.numOutputs with
  | some n => if 1 < n then some (n - 1) else none
  | none => none

namespace Submission

/-- Continues a task: its models are excluded by the carbon footprint's list, unless that is
empty. -/
def continuing (s : Submission) (task : TaskId) (remaining : UInt32) (excluded : List String) :
    Submission :=
  { s with
    previousIteration := some task.iteration
    extra :=
      { s.extra with
        previousProblem := some task.problem
        numOutputs := some remaining
        modelRestrains := if excluded.isEmpty then s.extra.modelRestrains else excluded } }

/-- The submission that follows a task, given the extra data of its carbon footprint and its
input. The input is looked at only if an output remains to be produced. -/
def followUp? (task : TaskId) (carbon : Extra) (input : UserInput) :
    Except DataError (Option Submission) :=
  match carbon.remainingOutputs? with
  | none => .ok none
  | some remaining =>
    (ofUserInput input).map fun s => some (s.continuing task remaining carbon.modelRestrains)

theorem predecessor?_continuing (s : Submission) (task : TaskId) (remaining : UInt32)
    (excluded : List String) :
    (s.continuing task remaining excluded).predecessor? = some task := rfl

end Submission

theorem Extra.remainingOutputs?_isSome (e : Extra) :
    e.remainingOutputs?.isSome = e.requestsMore := by
  unfold Extra.remainingOutputs? Extra.requestsMore
  cases e.numOutputs with
  | none => rfl
  | some n => by_cases h : 1 < n <;> simp [h]

end WorkerPipeline
