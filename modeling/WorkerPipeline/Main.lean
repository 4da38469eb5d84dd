import WorkerPipeline.CommandLine.Run

set_option autoImplicit false

/-! # The program

Reads the arguments and the environment, lets chance decide what the simulated workers do, and
prints what a run has printed.
-/

namespace WorkerPipeline.CommandLine

/-- Draws that a seed determines. -/
def drawFrom (seed : Nat) (worker : Worker) (task : TaskId) (quantity : Option Quantity) :
    UInt32 :=
  let figure := match quantity with
    | none => 0
    | some q => 1 + Quantity.all.idxOf q
  let place := (worker.id.toNat * 8 + figure) * UInt64.size + task.problem.toNat * UInt32.size +
    task.iteration.toNat
  .ofNat (randNat (mkStdGen (hash (seed, place)).toNat) 0 (UInt32.size - 1)).1

end WorkerPipeline.CommandLine

open WorkerPipeline

def main (arguments : List String) : IO UInt32 := do
  match CommandLine.read arguments with
  | .error halt =>
    if halt = .help then IO.print halt.message else IO.eprint halt.message
    return halt.exitCode.toUInt32
  | .ok a =>
    let environment ← Settings.keys.filterMapM fun key => do return (← IO.getEnv key).map (key, ·)
    let seed ← IO.rand 0 (UInt32.size - 1)
    let run := CommandLine.run a (fun key => environment.lookup key)
      (.ofDraws (CommandLine.pace a) (CommandLine.drawFrom seed))
    IO.print run.text
    if let some e := run.failure then IO.eprintln ("Error: " ++ e.message)
    return run.exitCode.toUInt32
