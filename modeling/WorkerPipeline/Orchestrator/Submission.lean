import WorkerPipeline.Orchestrator.Basic

set_option autoImplicit false

/-! # Submitting a task

A submission is checked, gets a task id and a template from the hub, is written over the template
and published. The ledger reserves the task before it is published, because results may come at
once, and takes the reservation back if the hub refuses.
-/

namespace WorkerPipeline

/-- What is wrong with a submission by itself. -/
def Submission.fault? (s : Submission) : Option InputFault :=
  if Text.isBlankText s.brief.shortDescription then some .blankDescription
  else match s.previousIteration, s.extra.previousProblem with
    | some _, none => some .iterationWithoutProblem
    | none, some _ => some .problemWithoutIteration
    | _, _ => none

namespace Orchestrator

/-- Writes that a continuation starts from another task than its candidate. -/
def noteBase (o : Orchestrator) (base candidate : TaskId) : Orchestrator :=
  if base = candidate then o else o.note (.baseMoved base candidate)

/-- A task id and a template for a submission. -/
def allocate (o : Orchestrator) (s : Submission) :
    Except TransportFault (TaskId × UserInput) × Orchestrator :=
  match s.predecessor? with
  | none =>
    let (task, template, hub) := o.hub.allocateTask
    (.ok (task, template), { o with hub })
  | some candidate =>
    let base := o.ledger.base candidate
    match o.hub.allocateIteration base with
    | .error fault => (.error fault, o.noteBase base candidate)
    | .ok (task, template, hub) => (.ok (task, template), { o.noteBase base candidate with hub })

/-- The input that is published for a submission. -/
def fill (o : Orchestrator) (s : Submission) (template : UserInput) (task : TaskId) : UserInput :=
  s.fill template task o.settings.hardware o.settings.memory

/-- Publishes an input under a reservation. -/
def publish (o : Orchestrator) (task : TaskId) (input : UserInput) :
    Except TransportFault TaskId × Orchestrator :=
  let ledger := o.ledger.reserve task
  match o.hub.publish task input with
  | .error fault => (.error fault, { o with ledger := ledger.release task })
  | .ok hub => (.ok task, ({ o with ledger, hub }.registerTask task).note (.taskPublished task))

/-- **Submission.** The id of the published task, or the reason why there is none. -/
def submit (o : Orchestrator) (s : Submission) : Except Error TaskId × Orchestrator :=
  match s.fault? with
  | some fault => (.error (.invalidInput fault), o)
  | none =>
    match o.allocate s with
    | (.error fault, o) => (.error (.transportFailure fault), o)
    | (.ok (task, template), o) =>
      match o.publish task (o.fill s template task) with
      | (.error fault, o) => (.error (.transportFailure fault), o)
      | (.ok task, o) => (.ok task, o)

end Orchestrator

end WorkerPipeline
