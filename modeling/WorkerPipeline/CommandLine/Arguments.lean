import WorkerPipeline.Text.Numeral

set_option autoImplicit false

/-! # Arguments

The arguments are parameters with values, written `--name value` or `--name=value`. Each may be
given once. A value that starts with a hyphen has to be attached, as it is taken for a parameter
otherwise. Arguments are read from left to right; the first fault ends the reading, and so does
`--help`.
-/

namespace WorkerPipeline.CommandLine

structure Arguments where
  logLevel : String := "info"
  problem : String := "Classify customer churn"
  modality : String := "tabular"
  numOutputs : UInt32 := 1
  goal : Option String := none
  /-- The bound on each wait, in milliseconds. -/
  resultTimeout : Option Nat := none
  /-- The greatest delay of a simulated worker, in milliseconds. -/
  workerDelay : Nat := 200
  configRequest : Option String := none
deriving DecidableEq, Inhabited

/-- Why the reading of arguments ends early. -/
inductive Halt where
  | help
  | unexpected (argument : String)
  | repeated (name : String)
  | missingValue (name : String)
  | invalidValue (name value : String)
deriving DecidableEq

/-! ## Numbers -/

/-- A number with an optional sign. A minus sign is good for zero only. -/
def signedCount? : List Char → Option Nat
  | '-' :: cs => (Text.digits? cs).filter (· == 0)
  | cs => Text.count? cs

/-- A number of outputs. -/
def outputs? (value : String) : Option UInt32 :=
  ((signedCount? value.toList).filter fun n => decide (n < UInt32.size)).map UInt32.ofNat

/-- A time in milliseconds. -/
def milliseconds? (value : String) : Option Nat := Text.countBelow? UInt64.size value

/-! ## Parameters -/

/-- A parameter puts its value into the arguments, if it can read it. -/
structure Parameter where
  name : String
  help : String
  set : String → Arguments → Option Arguments

/-- A parameter whose value is any text. -/
def Parameter.text (name help : String) (set : String → Arguments → Arguments) : Parameter :=
  ⟨name, help, fun value a => some (set value a)⟩

/-- A parameter whose value has to be read. -/
def Parameter.read {α : Type} (name help : String) (read? : String → Option α)
    (set : α → Arguments → Arguments) : Parameter :=
  ⟨name, help, fun value a => (read? value).map (set · a)⟩

def parameters : List Parameter := [
  .text "log-level" "Log level (trace, debug, info, warn, error)"
    fun v a => { a with logLevel := v },
  .text "problem" "Short description of the problem to solve" fun v a => { a with problem := v },
  .text "modality" "Input modality of the problem" fun v a => { a with modality := v },
  .read "num-outputs" "Number of model suggestions to produce, one for each iteration" outputs?
    fun v a => { a with numOutputs := v },
  .text "goal" "Goal passed to the model provider" fun v a => { a with goal := some v },
  .read "result-timeout-ms" "Bound on each wait for a result in milliseconds" milliseconds?
    fun v a => { a with resultTimeout := some v },
  .read "worker-delay-ms" "Maximum delay of simulated workers in milliseconds" milliseconds?
    fun v a => { a with workerDelay := v },
  .text "config-request" "Configuration request to send once the results are in"
    fun v a => { a with configRequest := some v }]

/-! ## Reading -/

/-- What an argument looks like by itself. -/
inductive Token where
  | terminator
  | long (name : String) (value : Option String)
  | short (letter : Char)
  | plain
deriving DecidableEq

/-- A single hyphen is plain text. -/
def Token.ofArgument (argument : String) : Token :=
  match argument.toList with
  | ['-', '-'] => .terminator
  | '-' :: '-' :: cs =>
    .long (String.ofList (cs.takeWhile (· != '=')))
      (match cs.dropWhile (· != '=') with
      | [] => none
      | _ :: value => some (String.ofList value))
  | '-' :: c :: _ => .short c
  | _ => .plain

/-- Gives a parameter a value. -/
def Parameter.assign (p : Parameter) (value : String) (a : Arguments) : Except Halt Arguments :=
  match p.set value a with
  | some a => .ok a
  | none => .error (.invalidValue p.name value)

/-- The parameter of a name, unless it has been given already. -/
def parameter (seen : List String) (argument name : String) : Except Halt Parameter :=
  match parameters.find? fun p => p.name == name with
  | none => .error (if name = "help" ∧ argument = "--help" then .help else .unexpected argument)
  | some p => if name ∈ seen then .error (.repeated name) else .ok p

/-- Reads arguments after some parameters were seen. -/
def readAfter (seen : List String) (a : Arguments) : List String → Except Halt Arguments
  | [] => .ok a
  | argument :: rest =>
    match Token.ofArgument argument with
    | .plain => .error (.unexpected argument)
    | .short c => .error (if c = 'h' then .help else .unexpected argument)
    | .terminator =>
      match rest with
      | [] => .ok a
      | next :: _ => .error (.unexpected next)
    | .long name (some value) => do
      let p ← parameter seen argument name
      readAfter (name :: seen) (← p.assign value a) rest
    | .long name none => do
      let p ← parameter seen argument name
      match rest with
      | [] => .error (.missingValue name)
      | value :: rest =>
        if Token.ofArgument value = .plain then
          readAfter (name :: seen) (← p.assign value a) rest
        else .error (.missingValue name)

def read (arguments : List String) : Except Halt Arguments := readAfter [] {} arguments

/-! ## Texts -/

def usage : String :=
  "Submits a problem to the ML pipeline workers and collects their results\n\n" ++
    String.join (parameters.map fun p => "  --" ++ p.name ++ " <VALUE>  " ++ p.help ++ "\n")

def Halt.message : Halt → String
  | .help => usage
  | .unexpected argument => "error: unexpected argument '" ++ argument ++ "' found\n"
  | .repeated name => "error: the argument '--" ++ name ++ "' cannot be used multiple times\n"
  | .missingValue name => "error: a value is required for '--" ++ name ++ "'\n"
  | .invalidValue name value =>
    "error: invalid value '" ++ value ++ "' for '--" ++ name ++ "'\n"

/-- Asking for help is no fault. -/
def Halt.exitCode : Halt → Nat
  | .help => 0
  | _ => 2

end WorkerPipeline.CommandLine
