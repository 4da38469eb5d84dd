import WorkerPipeline.CommandLine.Arguments
import WorkerPipeline.Simulation.Schedule

set_option autoImplicit false

/-! # A run from the command line

One problem goes through the simulated workers. The results of every iteration are printed as
they are waited for, then the statuses of the workers, then the answer to a configuration request
if one was made.
-/

namespace WorkerPipeline.CommandLine

/-- What a run has printed, and the error that ended it. -/
structure Run where
  results : List WorkerResult := []
  report : Option String := none
  reply : Option Json := none
  failure : Option Error := none
deriving Inhabited

namespace Run

def exitCode (r : Run) : Nat := if r.failure.isSome then 1 else 0

def text (r : Run) : String :=
  String.join (r.results.map fun result => result.json.renderPretty ++ "\n") ++
    r.report.getD "" ++ (r.reply.map fun j => j.renderPretty ++ "\n").getD ""

end Run

/-! ## Preparation -/

/-- The bound on a wait where none is set, in milliseconds. -/
def defaultTimeout : Nat := 30000

/-- The argument goes before the environment. There is always a bound on a wait. -/
def settings (a : Arguments) (lookup : String → Option String) : Except Error Settings :=
  match Settings.ofLookup lookup with
  | .error fault => .error (.configurationError fault)
  | .ok s =>
    .ok { s with timeout := some ((a.resultTimeout.or s.timeout).getD defaultTimeout) }

/-- At least one output is asked for. -/
def numOutputs (a : Arguments) : UInt32 := if a.numOutputs = 0 then 1 else a.numOutputs

def submission (a : Arguments) : Submission where
  brief := { shortDescription := a.problem, modality := a.modality }
  extra := { goal := a.goal, numOutputs := some (numOutputs a) }

/-- The pace of the simulated workers. -/
def pace (a : Arguments) : Pace := ⟨0, a.workerDelay⟩

/-! ## The stages of a run -/

/-- A run under way: what it has printed, and the session behind it. -/
structure Progress where
  run : Run := {}
  session : Session
deriving Inhabited

namespace Progress

def hasFailed (p : Progress) : Bool := p.run.failure.isSome

def fail (p : Progress) (e : Error) (s : Session) : Progress :=
  ⟨{ p.run with failure := some e }, s⟩

/-- Waits for a result and prints it. A run that has failed does nothing more. -/
def collect (chance : Chance) (task : TaskId) (p : Progress) (worker : Worker) : Progress :=
  if p.hasFailed then p
  else
    match p.session.await chance worker task with
    | (.error e, s) => p.fail e s
    | (.ok (), s) =>
      match s.fetchResult task worker with
      | .error e => p.fail e s
      | .ok result => ⟨{ p.run with results := p.run.results ++ [result] }, s⟩

/-- Collects the results of a number of iterations, from a given one on. -/
def collectFrom (chance : Chance) (task : TaskId) : Nat → Progress → Progress
  | 0, p => p
  | n + 1, p =>
    if p.hasFailed then p
    else collectFrom chance { task with iteration := task.iteration + 1 } n
      (Worker.tracked.foldl (collect chance task) p)

/-- Prints the statuses and asks what is to be asked. -/
def close (a : Arguments) (p : Progress) : Run :=
  if p.hasFailed then p.run
  else
    let statuses := p.session.orchestrator.registry.statuses
    let run := { p.run with report := some (StatusReport.text (.all statuses)) }
    match a.configRequest with
    | none => run
    | some text =>
      match p.session.orchestrator.configRequest text with
      | (.error e, _) => { run with failure := some e }
      | (.ok reply, _) => { run with reply := some reply }

end Progress

/-- Runs one problem with given settings. -/
def runWith (a : Arguments) (settings : Settings) (chance : Chance) : Run :=
  match (Session.new settings { simulated := true }).submit (submission a) with
  | (.error e, _) => { failure := some e }
  | (.ok task, s) =>
    (Progress.collectFrom chance { task with iteration := 0 } (numOutputs a).toNat
      { session := s }).close a

/-- A run as it is asked for by the arguments and the environment. -/
def run (a : Arguments) (lookup : String → Option String) (chance : Chance) : Run :=
  match settings a lookup with
  | .error e => { failure := some e }
  | .ok settings => runWith a settings chance

end WorkerPipeline.CommandLine
