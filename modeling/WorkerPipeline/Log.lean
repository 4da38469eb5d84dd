set_option autoImplicit false

/-! # The form of the log

The log is filtered by a directive that names a level for each part of the program, and every
line begins with the time of day.
-/

namespace WorkerPipeline.Log

/-- The parts of the program that write a log. -/
def parts : List String := ["orchestrator", "shared"]

/-- The same level for every part; without a level it is `info`. -/
def filterDirective (level : Option String) : String :=
  ",".intercalate (parts.map fun part => part ++ "=" ++ level.getD "info")

/-- A number in decimal, filled up with zeros in front. -/
def padded (width n : Nat) : String :=
  let digits := Nat.toDigits 10 n
  String.ofList (List.replicate (width - digits.length) '0' ++ digits)

/-- The time of day of a moment in milliseconds: hours, minutes and seconds to three places. -/
def timeOfDay (ms : Nat) : String :=
  padded 2 (ms / 3600000 % 24) ++ ":" ++ padded 2 (ms / 60000 % 60) ++ ":" ++
    padded 2 (ms / 1000 % 60) ++ "." ++ padded 3 (ms % 1000)

end WorkerPipeline.Log
