import WorkerPipeline.Session.Waiting
import WorkerPipeline.Simulation.Output

set_option autoImplicit false

/-! # Running simulated workers

A job goes through two moments. When it is begun the worker reports that it is running; when it
is due, the worker delivers its output and reports that it is idle, or reports an error if it
cannot make sense of the input. Between these moments the event loop handles what was announced,
and the carbon footprint of a task may then put new jobs on the list. How long a job takes and
what it reads is a matter of chance; `settle` runs a session until nothing is left to do.
-/

namespace WorkerPipeline

-- Sums begin at the zero of the core library, whatever other instances are in scope.
attribute [local instance (high)] Zero.ofOfNat0

/-- What is left to chance: the duration of each job and the figures it comes up with. -/
structure Chance where
  delay : Job → Nat
  readings : Job → Readings

/-- How fast simulated workers are, in milliseconds. -/
structure Pace where
  least : Nat := 5
  most : Nat := 50
deriving DecidableEq, Inhabited

namespace Pace

/-- A time between the least and the most, both included. -/
def jitter (p : Pace) (draw : UInt32) : Nat :=
  p.least + (max p.most p.least - p.least + 1) * draw.toNat / UInt32.size

/-- The carbon footprint closes an iteration, so it takes longer than the other workers. -/
def delay (p : Pace) (worker : Worker) (draw : UInt32) : Nat :=
  match worker with
  | .carbonFootprint => p.most + p.jitter draw
  | _ => p.jitter draw

end Pace

/-- The chance that draws make: one draw for the duration and one for each figure. -/
def Chance.ofDraws (p : Pace) (draw : Worker → TaskId → Option Quantity → UInt32) : Chance where
  delay j := p.delay j.worker (draw j.worker j.task none)
  readings j q := q.reading (draw j.worker j.task (some q))

/-! ## Announcements that may be lost -/

namespace Hub

/-- Reports a status; on a closed channel the report is lost. -/
def tryReport (h : Hub) (worker : Worker) (status : WorkerStatus) : Hub :=
  match h.reportStatus worker status with
  | .ok h => h
  | .error _ => h

/-! ## The moments of a job -/

/-- Begins a job: from now on it is due after its delay. -/
def beginJob (chance : Chance) (now : Nat) (h : Hub) (j : Job) : Hub :=
  { h with jobs := h.jobs ++ [{ j with due := some (now + chance.delay j) }] }.tryReport j.worker
    .running

/-- Begins the jobs that are not begun, and keeps the others on the list. -/
def beginJobs (chance : Chance) (now : Nat) (h : Hub) : Hub :=
  let (new, begun) := h.jobs.partition fun j => j.due.isNone
  new.foldl (beginJob chance now) { h with jobs := begun }

/-- Delivers what a job has produced. The worker is idle once its output is announced. -/
def deliverProduct (h : Hub) (worker : Worker) (output : Output) : Hub :=
  match h.deliver worker output with
  | (.ok (), h) => h.tryReport worker .idle
  | (.error _, h) => h

end Hub

/-- The job that is due first, and the others. Of several the first on the list counts. -/
def Job.earliest? : List Job → Option (Job × List Job)
  | [] => none
  | j :: js =>
    match earliest? js with
    | none => some (j, [])
    | some (k, rest) => if j.due.getD 0 ≤ k.due.getD 0 then some (j, js) else some (k, j :: rest)

/-- Ends a job: the output is delivered or an error reported. -/
def Orchestrator.finishJob (o : Orchestrator) (chance : Chance) (j : Job) : Orchestrator :=
  match Simulation.output (chance.readings j) j.worker j.task j.input with
  | .ok output => { o with hub := o.hub.deliverProduct j.worker output }
  | .error e =>
    { o with hub := o.hub.tryReport j.worker .error }.note (.workerFailed j.worker j.task e)

/-! ## Running until all is quiet -/

/-- The number of jobs that a number of outputs still leads to, beyond those on the list. -/
def Extra.jobsToCome (e : Extra) : Nat := 6 * ((e.numOutputs.getD 1).toNat - 1)

/-- The number of jobs that a job stands for: itself and those that its output leads to. -/
def Job.workload (j : Job) : Nat :=
  match j.worker, Extra.decode? j.input.extraData with
  | .carbonFootprint, some e => 1 + e.jobsToCome
  | _, _ => 1

/-- The number of jobs that an event leads to. -/
def Event.workload : Event → Nat
  | .newOutput a =>
    match a.worker, Extra.decode? a.output.extraData with
    | .carbonFootprint, some e => e.jobsToCome
    | _, _ => 0
  | .statusChanged _ => 0

/-- A bound on the number of jobs that are to be ended. -/
def Hub.workload (h : Hub) : Nat :=
  (h.jobs.map Job.workload).sum + (h.channel.events.map Event.workload).sum

namespace Session

/-- Handles what was announced and begins the jobs that came of it. -/
def prepare (s : Session) (chance : Chance) : Session :=
  let s := s.pump
  (s.withHub (s.orchestrator.hub.beginJobs chance s.clock)).pump

/-- Waits for a job, ends it and leaves the others. -/
def finishJob (s : Session) (chance : Chance) (j : Job) (others : List Job) : Session :=
  let s := s.withHub { s.orchestrator.hub with jobs := others }
  { s with
    orchestrator := s.orchestrator.finishJob chance j
    clock := max s.clock (j.due.getD 0) }

/-- Ends as many jobs as are allowed. -/
def settleWithin (chance : Chance) : Nat → Session → Session
  | 0, s => s.prepare chance
  | fuel + 1, s =>
    let s := s.prepare chance
    match Job.earliest? s.orchestrator.hub.jobs with
    | none => s
    | some (j, others) => settleWithin chance fuel (s.finishJob chance j others)

/-- Runs a session until nothing is left to do. -/
def settle (s : Session) (chance : Chance) : Session :=
  settleWithin chance s.orchestrator.hub.workload s

/-- Whether a job is due only after the time of a waiter is up. -/
def isTooLate (s : Session) (w : Waiter) (j : Job) : Bool :=
  match s.deadline? w with
  | some d => decide (d < j.due.getD 0)
  | none => false

/-- Ends as many jobs as are allowed, until a result has arrived or can no longer arrive in
time. -/
def awaitWithin (chance : Chance) (w : Waiter) : Nat → Session → Except Error Unit × Session
  | 0, s => (.error (.waitTimedOut w.worker w.task), s)
  | fuel + 1, s =>
    let s := s.prepare chance
    if s.orchestrator.ledger.available w.task w.worker then (.ok (), s)
    else if s.isExpired w then (.error (.waitTimedOut w.worker w.task), s)
    else
      match Job.earliest? s.orchestrator.hub.jobs with
      | none => (.error (.waitTimedOut w.worker w.task), s)
      | some (j, others) =>
        if s.isTooLate w j then (.error (.waitTimedOut w.worker w.task), s)
        else awaitWithin chance w fuel (s.finishJob chance j others)

/-- Runs a session until a result has arrived. -/
def await (s : Session) (chance : Chance) (worker : Worker) (task : TaskId) :
    Except Error Unit × Session :=
  awaitWithin chance (s.newWaiter worker task) (s.orchestrator.hub.workload + 1) s

end Session

end WorkerPipeline
