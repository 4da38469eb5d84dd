import WorkerPipeline.Orchestrator.Basic
import WorkerPipeline.Proofs.Message.Result

set_option autoImplicit false

/-! # Fetching a result

The outcome of fetching a result is told by the output that the hub has for the worker and the task
(`fetches_fetchResult`). It does not depend on the ledger: whether a result has arrived is another
matter.
-/

namespace WorkerPipeline

/-- The outcome of fetching the result of a worker for a task, where this output is stored: nothing
is found if there is none, the error of the extra data if they do not decode, and otherwise an
object that shows the output. -/
structure Fetches (stored : Option Output) (w : Worker) (t : TaskId)
    (outcome : Except Error WorkerResult) : Prop where
  notFound : outcome = .error (.notFound w t) ↔ stored = none
  undecodable : ∀ e, outcome = .error (.dataError e) ↔ ∃ o, stored = some o ∧ o.extra = .error e
  shown : ∀ o e, stored = some o → o.extra = .ok e →
    ∃ m, outcome = .ok ⟨w, t, .obj m⟩ ∧ o.resultJson = .ok (.obj m) ∧ o.Shows e m

namespace Orchestrator

variable {o : Orchestrator} {output : Output} {w : Worker} {t : TaskId}

theorem fetchResult_of_none (h : o.hub.fetch w t = none) :
    o.fetchResult t w = .error (.notFound w t) := by
  rw [fetchResult, h]

theorem fetchResult_of_error (h : o.hub.fetch w t = some output) {e : DataError}
    (he : output.extra = .error e) : o.fetchResult t w = .error (.dataError e) := by
  have hjson : output.resultJson = .error e := by
    rw [Output.resultJson, he]
    rfl
  simp only [fetchResult, h, hjson]

theorem fetchResult_of_ok (h : o.hub.fetch w t = some output) {data : Json}
    (hdata : output.resultJson = .ok data) : o.fetchResult t w = .ok ⟨w, t, data⟩ := by
  simp only [fetchResult, h, hdata]

/-- **What is fetched** is told by what the hub has. -/
theorem fetches_fetchResult (o : Orchestrator) (t : TaskId) (w : Worker) :
    Fetches (o.hub.fetch w t) w t (o.fetchResult t w) := by
  cases hfetch : o.hub.fetch w t with
  | none =>
      rw [fetchResult_of_none hfetch]
      constructor <;> simp
  | some output =>
      cases hextra : output.extra with
      | error e =>
          rw [fetchResult_of_error hfetch hextra]
          constructor
          · simp
          · simp [hextra]
          · rintro output' e' houtput he
            cases houtput
            cases hextra.symm.trans he
      | ok e =>
          obtain ⟨m, hjson, hshows⟩ := Output.exists_shows hextra
          rw [fetchResult_of_ok hfetch hjson]
          constructor
          · simp
          · simp [hextra]
          · rintro output' e' houtput he
            cases houtput
            cases hextra.symm.trans he
            exact ⟨m, rfl, hjson, hshows⟩

end Orchestrator

end WorkerPipeline
