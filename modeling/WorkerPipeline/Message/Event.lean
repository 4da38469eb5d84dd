import WorkerPipeline.Message.Output

set_option autoImplicit false

/-! # Events

What the node runtime tells the orchestrator: that a worker has a new status, or that it has an
output. An output's event names the task by itself, whatever the output says.
-/

namespace WorkerPipeline

structure StatusChange where
  worker : Worker
  status : WorkerStatus
deriving DecidableEq, Inhabited

structure Arrival where
  worker : Worker
  task : Option TaskId
  output : Output
deriving DecidableEq, Inhabited

inductive Event where
  | statusChanged (c : StatusChange)
  | newOutput (a : Arrival)
deriving DecidableEq, Inhabited

namespace Event

def changeRecord : Codec.Record StatusChange where
  fields := [
    .of "worker" Worker.codec StatusChange.worker (fun v c => { c with worker := v }) true,
    .of "status" WorkerStatus.codec StatusChange.status (fun v c => { c with status := v }) true]
  blank := ⟨.unknown, .inactive⟩
  defaults := false

def arrivalRecord : Codec.Record Arrival where
  fields := [
    .of "worker" Worker.codec Arrival.worker (fun v a => { a with worker := v }) true,
    .of "task_id" (.option TaskId.codec) Arrival.task (fun v a => { a with task := v }) false,
    .of "output" Output.codec Arrival.output (fun v a => { a with output := v }) true]
  blank := ⟨.unknown, none, .userInput {}⟩
  defaults := false

/-- An event is an object with one member, whose name is the sort of event. -/
def codec : Codec Event where
  encode
    | statusChanged c => .obj [("StatusChanged", changeRecord.codec.encode c)]
    | newOutput a => .obj [("NewOutput", arrivalRecord.codec.encode a)]
  decode?
    | .obj [("StatusChanged", j)] => (changeRecord.codec.decode? j).map statusChanged
    | .obj [("NewOutput", j)] => (arrivalRecord.codec.decode? j).map newOutput
    | _ => none

end Event

end WorkerPipeline
