import WorkerPipeline.Json.Codec
import WorkerPipeline.Table

set_option autoImplicit false

/-! # Task ids

A task is one iteration of a problem. Iterations of one problem are ordered; tasks of different
problems are not comparable. As keys of tables, tasks are ordered by problem and then by
iteration.
-/

namespace WorkerPipeline

structure TaskId where
  problem : UInt32
  iteration : UInt32
deriving DecidableEq, Inhabited

namespace TaskId

def first (problem : UInt32) : TaskId := ⟨problem, 0⟩

/-- The next iteration of the same problem, unless the iterations are used up. -/
def next? (t : TaskId) : Option TaskId :=
  if t.iteration.toNat + 1 < UInt32.size then some ⟨t.problem, t.iteration + 1⟩ else none

def sameProblem (t u : TaskId) : Bool := t.problem == u.problem

/-- Compares iterations of one problem. -/
def compare? (t u : TaskId) : Option Ordering :=
  if t.problem = u.problem then some (compare t.iteration u.iteration) else none

instance : LT TaskId := ⟨fun t u => t.problem = u.problem ∧ t.iteration < u.iteration⟩

instance : LE TaskId := ⟨fun t u => t.problem = u.problem ∧ t.iteration ≤ u.iteration⟩

instance (t u : TaskId) : Decidable (t < u) :=
  inferInstanceAs (Decidable (t.problem = u.problem ∧ t.iteration < u.iteration))

instance (t u : TaskId) : Decidable (t ≤ u) :=
  inferInstanceAs (Decidable (t.problem = u.problem ∧ t.iteration ≤ u.iteration))

def text (t : TaskId) : String :=
  "\x7b" ++ toString t.problem.toNat ++ ", " ++ toString t.iteration.toNat ++ "\x7d"

def record : Codec.Record TaskId where
  fields := [
    .of "problem_id" .uint32 problem (fun p t => { t with problem := p }) true,
    .of "iteration_id" .uint32 iteration (fun i t => { t with iteration := i }) true]
  blank := ⟨0, 0⟩
  defaults := false

def codec : Codec TaskId := record.codec

instance : Key TaskId := Key.ofInjective (fun t => (t.problem, t.iteration)) fun {t u} h => by
  cases t; cases u; cases h; rfl

theorem lt_iff {t u : TaskId} : t < u ↔ t.problem = u.problem ∧ t.iteration < u.iteration := Iff.rfl

theorem lt_of_next? {t u : TaskId} (h : t.next? = some u) : t < u := by
  unfold next? at h
  split at h
  · rename_i hsize
    cases h
    refine lt_iff.mpr ⟨rfl, ?_⟩
    rw [UInt32.lt_iff_toNat_lt, UInt32.toNat_add, UInt32.toNat_one, Nat.mod_eq_of_lt hsize]
    exact Nat.lt_succ_self _
  · cases h

theorem before_iff {t u : TaskId} :
    Key.before t u ↔ t.problem.toNat < u.problem.toNat ∨
      (t.problem = u.problem ∧ t.iteration.toNat < u.iteration.toNat) := Iff.rfl

end TaskId

end WorkerPipeline
