import WorkerPipeline.Worker.Basic

set_option autoImplicit false

/-! # Statuses of the workers

The registry holds the status that each worker reported last. A worker that has not reported is
inactive. A status report is a text about one worker or about all that have reported.
-/

namespace WorkerPipeline

structure Registry where
  statuses : Table Worker WorkerStatus := ∅
deriving DecidableEq, Inhabited

namespace Registry

def report (r : Registry) (worker : Worker) (status : WorkerStatus) : Registry :=
  ⟨r.statuses.insert worker status⟩

def status (r : Registry) (worker : Worker) : WorkerStatus :=
  (r.statuses.get? worker).getD .inactive

theorem status_report (r : Registry) (v w : Worker) (status : WorkerStatus) :
    (r.report v status).status w = if v = w then status else r.status w := by
  unfold Registry.status report
  rw [Table.get?_insert]
  by_cases h : v = w <;> simp [h]

end Registry

inductive StatusReport where
  | single (worker : Worker) (status : WorkerStatus)
  | all (statuses : Table Worker WorkerStatus)

namespace StatusReport

def line (worker : Worker) (status : WorkerStatus) : String :=
  worker.description ++ " node status " ++ status.name ++ "\n"

/-- The lines are in the order of the workers. -/
def text : StatusReport → String
  | single worker status => line worker status
  | all statuses =>
    if statuses.isEmpty then "No nodes have reported their status yet.\n"
    else String.join (statuses.entries.map fun e => line e.1 e.2)

end StatusReport

end WorkerPipeline
