import WorkerPipeline.Ledger.Record

set_option autoImplicit false

/-! # The ledger of results

The ledger keeps the records of tasks, the task that is the latest of all and the latest task of
each problem. A task becomes known by being registered, or by a result that refers to it; before
it is published it can be reserved, which gives it a record only. With a retention limit, the
problems with the lowest ids are dropped, but neither the problem of the latest task nor the one
just touched.
-/

namespace WorkerPipeline

structure Ledger where
  records : Table TaskId TaskRecord := ∅
  last : Option TaskId := none
  /-- The highest known iteration of each problem. -/
  latest : Table UInt32 TaskId := ∅
  limit : Option Nat := none
deriving DecidableEq, Inhabited

namespace Ledger

/-! ## Questions -/

def record? (l : Ledger) (t : TaskId) : Option TaskRecord := l.records.get? t

/-- Whether the result of a worker has arrived. -/
def available (l : Ledger) (t : TaskId) (w : Worker) : Bool :=
  match l.record? t with
  | some r => r.has w
  | none => false

/-- The task that a continuation of the candidate has to follow: the problem may have moved on. -/
def base (l : Ledger) (candidate : TaskId) : TaskId :=
  match l.latest.get? candidate.problem with
  | some t => if candidate.iteration < t.iteration then t else candidate
  | none => candidate

/-- Whether a task, or a later one of its problem, was registered. -/
def isKnown (l : Ledger) (t : TaskId) : Bool :=
  match l.latest.get? t.problem with
  | some u => decide (t.iteration ≤ u.iteration)
  | none => false

/-! ## Reserving -/

/-- Gives a task a record, unless it has one. -/
def reserve (l : Ledger) (t : TaskId) : Ledger :=
  { l with records := l.records.insertIfNew t (.new t) }

/-- Takes a reservation back. A known task keeps its record. -/
def release (l : Ledger) (t : TaskId) : Ledger :=
  if l.isKnown t then l else { l with records := l.records.erase t }

/-! ## Touching a task -/

/-- Whether a task takes the place of the one that was the latest. -/
def supersedes (t : TaskId) : Option TaskId → Bool
  | none => true
  | some u => decide (u.problem < t.problem) || decide (u < t)

def advance (l : Ledger) (t : TaskId) : Ledger :=
  { l with
    last := if supersedes t l.last then some t else l.last
    latest :=
      match l.latest.get? t.problem with
      | none => l.latest.insert t.problem t
      | some u => if u < t then l.latest.insert t.problem t else l.latest }

/-- The problems that are kept whatever the limit: the one just touched and that of the latest
task. -/
def isProtected (l : Ledger) (touched p : UInt32) : Bool :=
  decide (p = touched) || decide (l.last.map TaskId.problem = some p)

/-- The problems beyond the limit, lowest first. -/
def surplus (l : Ledger) (touched : UInt32) : List UInt32 :=
  match l.limit with
  | none => []
  | some limit =>
    (l.latest.keys.filter fun p => !l.isProtected touched p).take (l.latest.size - limit)

def drop (l : Ledger) (problems : List UInt32) : Ledger :=
  { l with
    records := l.records.filterKeys fun t => !decide (t.problem ∈ problems)
    latest := l.latest.filterKeys fun p => !decide (p ∈ problems) }

/-- The ledger with a task known and recorded, before anything is dropped. -/
def enroll (l : Ledger) (t : TaskId) : Ledger := (l.advance t).reserve t

/-- The problems that are dropped when a task is touched. -/
def evicted (l : Ledger) (t : TaskId) : List UInt32 := (l.enroll t).surplus t.problem

def touch (l : Ledger) (t : TaskId) : Ledger := (l.enroll t).drop (l.evicted t)

/-! ## Registering -/

def registerTask (l : Ledger) (t : TaskId) : Ledger := l.touch t

/-- Whether a result is new. Workers without a slot have no results. -/
def isNew (l : Ledger) (t : TaskId) (w : Worker) : Bool :=
  match (l.touch t).record? t with
  | some r => r.awaits w
  | none => false

def mark (l : Ledger) (t : TaskId) (w : Worker) : Ledger :=
  match l.record? t with
  | some r => if r.awaits w then { l with records := l.records.insert t (r.mark w) } else l
  | none => l

/-- Marks a result as arrived. -/
def registerResult (l : Ledger) (t : TaskId) (w : Worker) : Ledger := (l.touch t).mark t w

/-! ## Histories -/

/-- What can be done to a ledger. -/
inductive Step where
  | reserve (task : TaskId)
  | release (task : TaskId)
  | registerTask (task : TaskId)
  | registerResult (task : TaskId) (worker : Worker)
deriving DecidableEq

def apply (l : Ledger) : Step → Ledger
  | .reserve t => l.reserve t
  | .release t => l.release t
  | .registerTask t => l.registerTask t
  | .registerResult t w => l.registerResult t w

def run (l : Ledger) (steps : List Step) : Ledger := steps.foldl apply l

/-- An empty ledger with a limit. -/
def new (limit : Option Nat) : Ledger := { limit }

/-! ## Small laws -/

theorem available_reserve (l : Ledger) (t u : TaskId) (w : Worker) :
    (l.reserve t).available u w = l.available u w := by
  unfold available record? reserve
  rw [Table.get?_insertIfNew]
  by_cases h : t = u
  · subst h
    cases hr : l.records.get? t <;> simp
  · simp [h]

theorem latest_reserve (l : Ledger) (t : TaskId) : (l.reserve t).latest = l.latest := rfl

theorem supersedes_some {t u : TaskId} :
    supersedes t (some u) = true ↔ Key.before u t := by
  simp only [supersedes, Bool.or_eq_true, decide_eq_true_eq, TaskId.before_iff, TaskId.lt_iff]
  exact Iff.rfl

end Ledger

end WorkerPipeline
