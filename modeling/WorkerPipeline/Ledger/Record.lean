import WorkerPipeline.TaskId
import WorkerPipeline.Worker.Basic

set_option autoImplicit false

/-! # Records of tasks

The record of a task says for each tracked worker whether its result has arrived.
-/

namespace WorkerPipeline

structure TaskRecord where
  task : TaskId
  arrived : Table Worker Bool
deriving DecidableEq, Inhabited

namespace TaskRecord

/-- A record without arrivals. -/
def new (task : TaskId) : TaskRecord :=
  ⟨task, .ofList (Worker.tracked.map fun w => (w, false))⟩

/-- A worker without a slot never arrives. -/
def has (r : TaskRecord) (w : Worker) : Bool := (r.arrived.get? w).getD false

def isComplete (r : TaskRecord) : Bool := r.arrived.values.all id

/-- The workers whose result is outstanding, in order. -/
def pending (r : TaskRecord) : List Worker :=
  (r.arrived.entries.filter fun e => !e.2).map Prod.fst

/-- Whether a worker has a slot and its result is outstanding. -/
def awaits (r : TaskRecord) (w : Worker) : Bool := r.arrived.get? w == some false

def mark (r : TaskRecord) (w : Worker) : TaskRecord := { r with arrived := r.arrived.insert w true }

/-- There is a slot for each tracked worker and no other. -/
def HasSlots (r : TaskRecord) : Prop := r.arrived.keys = Worker.tracked

@[simp] theorem has_new (task : TaskId) (w : Worker) : (new task).has w = false := by
  cases w <;> rfl

theorem has_mark (r : TaskRecord) (v w : Worker) :
    (r.mark v).has w = (decide (v = w) || r.has w) := by
  unfold has mark
  rw [Table.get?_insert]
  by_cases h : v = w <;> simp [h]

/-! ## Records with their slots -/

theorem hasSlots_new (task : TaskId) : (new task).HasSlots := rfl

theorem HasSlots.isSome_get? {r : TaskRecord} (h : r.HasSlots) (w : Worker) :
    (r.arrived.get? w).isSome = w.isTracked := by
  rw [Bool.eq_iff_iff, ← Table.mem_keys, h, Worker.mem_tracked]

/-- A slot that awaits its result belongs to a tracked worker whose result has not arrived. -/
theorem HasSlots.awaits_iff {r : TaskRecord} (h : r.HasSlots) (w : Worker) :
    r.awaits w = true ↔ w.isTracked = true ∧ r.has w = false := by
  rw [← h.isSome_get? w, awaits, has]
  cases r.arrived.get? w with
  | none => simp
  | some b => cases b <;> simp

/-- A worker without a slot has no result. -/
theorem HasSlots.isTracked_of_has {r : TaskRecord} (h : r.HasSlots) {w : Worker}
    (hw : r.has w = true) : w.isTracked = true := by
  rw [← h.isSome_get? w]
  unfold has at hw
  cases hg : r.arrived.get? w with
  | none => rw [hg] at hw; cases hw
  | some b => rfl

theorem HasSlots.mark {r : TaskRecord} (h : r.HasSlots) {w : Worker} (hw : r.awaits w = true) :
    (r.mark w).HasSlots := by
  have hget : r.arrived.get? w = some false := by simpa [awaits] using hw
  exact (Table.keys_insert_of_get? hget).trans h

theorem HasSlots.entries_arrived {r : TaskRecord} (h : r.HasSlots) :
    r.arrived.entries = Worker.tracked.map fun w => (w, r.has w) := by
  rw [r.arrived.entries_eq_map false, h]
  rfl

theorem HasSlots.isComplete_iff {r : TaskRecord} (h : r.HasSlots) :
    r.isComplete = true ↔ ∀ w, w.isTracked = true → r.has w = true := by
  simp [isComplete, Table.values, h.entries_arrived, ← Worker.mem_tracked]

theorem HasSlots.pending_eq {r : TaskRecord} (h : r.HasSlots) :
    r.pending = Worker.tracked.filter fun w => !r.has w := by
  simp [pending, h.entries_arrived, List.filter_map, Function.comp_def]

/-- A record with its slots is determined by its task and by the results that have arrived. -/
theorem HasSlots.ext {r s : TaskRecord} (hr : r.HasSlots) (hs : s.HasSlots)
    (htask : r.task = s.task) (hhas : ∀ w, r.has w = s.has w) : r = s := by
  have harrived : r.arrived.entries = s.arrived.entries := by
    rw [hr.entries_arrived, hs.entries_arrived]
    simp [hhas]
  cases r
  cases s
  simp only [mk.injEq]
  refine ⟨htask, Table.ext fun w => ?_⟩
  rw [Table.get?, Table.get?, harrived]

end TaskRecord

end WorkerPipeline
