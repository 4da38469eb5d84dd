import Mathlib.Data.List.Induction
import WorkerPipeline.Ledger.Lemmas

set_option autoImplicit false

/-! # Histories of a ledger

A history is the list of steps that a ledger has gone through. Of the four kinds of step two touch
a task: they make it known and may move the latest task on (`last_apply`, `latest_apply`). The
other two, reserving and releasing, concern records only.
-/

namespace WorkerPipeline

namespace Ledger

/-! ## Touched tasks -/

/-- The task that a step makes known. -/
def Step.touched? : Step → Option TaskId
  | .registerTask t | .registerResult t _ => some t
  | .reserve _ | .release _ => none

/-- The tasks that a history has made known. -/
def touched (steps : List Step) : List TaskId := steps.filterMap Step.touched?

theorem mem_touched {steps : List Step} {t : TaskId} :
    t ∈ touched steps ↔ .registerTask t ∈ steps ∨ ∃ w, .registerResult t w ∈ steps := by
  rw [touched, List.mem_filterMap]
  constructor
  · rintro ⟨s, hs, ht⟩
    cases s with
    | reserve u => cases ht
    | release u => cases ht
    | registerTask u => cases ht; exact .inl hs
    | registerResult u w => cases ht; exact .inr ⟨w, hs⟩
  · rintro (hs | ⟨w, hs⟩)
    · exact ⟨_, hs, rfl⟩
    · exact ⟨_, hs, rfl⟩

theorem touched_concat (steps : List Step) (s : Step) :
    touched (steps ++ [s]) = touched steps ++ s.touched?.toList := by
  rw [touched, List.filterMap_append]
  cases h : s.touched? <;> simp [touched, h]

theorem mem_touched_concat {steps : List Step} {s : Step} {t : TaskId} :
    t ∈ touched (steps ++ [s]) ↔ t ∈ touched steps ∨ s.touched? = some t := by
  rw [touched_concat, List.mem_append, Option.mem_toList]

/-! ## Registered results -/

/-- The result that a step registers. -/
def Step.result? : Step → Option (TaskId × Worker)
  | .registerResult t w => some (t, w)
  | .reserve _ | .release _ | .registerTask _ => none

/-- The results that a history has registered, oldest first and with repetitions. -/
def results (steps : List Step) : List (TaskId × Worker) := steps.filterMap Step.result?

theorem mem_results {steps : List Step} {t : TaskId} {w : Worker} :
    (t, w) ∈ results steps ↔ .registerResult t w ∈ steps := by
  rw [results, List.mem_filterMap]
  constructor
  · rintro ⟨s, hs, hr⟩
    cases s with
    | reserve u => cases hr
    | release u => cases hr
    | registerTask u => cases hr
    | registerResult u v => cases hr; exact hs
  · intro hs
    exact ⟨_, hs, rfl⟩

theorem results_append (a b : List Step) : results (a ++ b) = results a ++ results b :=
  List.filterMap_append

/-! ## Runs -/

theorem run_append (l : Ledger) (a b : List Step) : l.run (a ++ b) = (l.run a).run b :=
  List.foldl_append

theorem run_concat (l : Ledger) (steps : List Step) (s : Step) :
    l.run (steps ++ [s]) = (l.run steps).apply s := by
  simp [run]

theorem limit_release (l : Ledger) (t : TaskId) : (l.release t).limit = l.limit := by
  unfold release
  split <;> rfl

theorem limit_apply (l : Ledger) (s : Step) : (l.apply s).limit = l.limit := by
  cases s with
  | reserve t => rfl
  | release t => exact limit_release l t
  | registerTask t => rfl
  | registerResult t w => exact limit_registerResult l t w

/-- The limit never changes. -/
theorem limit_run (l : Ledger) (steps : List Step) : (l.run steps).limit = l.limit := by
  induction steps using List.reverseRecOn with
  | nil => rfl
  | append_singleton steps s ih => rw [run_concat, limit_apply, ih]

/-! ## The latest tasks -/

theorem last_release (l : Ledger) (t : TaskId) : (l.release t).last = l.last := by
  unfold release
  split <;> rfl

theorem latest_release (l : Ledger) (t : TaskId) : (l.release t).latest = l.latest := by
  unfold release
  split <;> rfl

/-- Only a touched task can become the latest of all. -/
theorem last_apply (l : Ledger) (s : Step) :
    (l.apply s).last =
      match s.touched? with
      | some t => (l.touch t).last
      | none => l.last := by
  cases s with
  | reserve t => rfl
  | release t => exact last_release l t
  | registerTask t => rfl
  | registerResult t w => exact last_registerResult l t w

/-- Only touching a task changes what is known of the problems. -/
theorem latest_apply (l : Ledger) (s : Step) :
    (l.apply s).latest =
      match s.touched? with
      | some t => (l.touch t).latest
      | none => l.latest := by
  cases s with
  | reserve t => rfl
  | release t => exact latest_release l t
  | registerTask t => rfl
  | registerResult t w => exact latest_registerResult l t w

/-! ## Records -/

theorem record?_reserve (l : Ledger) (t u : TaskId) :
    (l.reserve t).record? u = if t = u then some ((l.record? t).getD (.new t)) else l.record? u :=
  Table.get?_insertIfNew l.records t u (.new t)

/-- A task that is not known loses its record when it is released. -/
theorem record?_release (l : Ledger) (t u : TaskId) :
    (l.release t).record? u = if u = t ∧ l.isKnown t = false then none else l.record? u := by
  unfold release
  cases hk : l.isKnown t with
  | true => simp
  | false =>
      rw [if_neg Bool.false_ne_true]
      simp only [and_true]
      exact Table.get?_erase l.records t u

theorem available_eq_true_iff {l : Ledger} {t : TaskId} {w : Worker} :
    l.available t w = true ↔ ∃ r, l.record? t = some r ∧ r.has w = true := by
  unfold available
  cases l.record? t <;> simp

end Ledger

end WorkerPipeline
