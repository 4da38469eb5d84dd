import WorkerPipeline.Error
import WorkerPipeline.Text.Blank
import WorkerPipeline.Text.Numeral

set_option autoImplicit false

/-! # Settings

What the orchestrator fills into a submission, how long it waits for a result and how many
problems it remembers. Settings are looked up by key; a key without a value leaves the default.
-/

namespace WorkerPipeline

structure Settings where
  hardware : String := "PIM_AI_1chip"
  memory : UInt32 := 100
  /-- The bound on a wait, in milliseconds. -/
  timeout : Option Nat := none
  /-- The number of problems whose records are kept. -/
  retention : Option Nat := none
deriving DecidableEq, Inhabited

namespace Settings

def hardwareKey : String := "ORCHESTRATOR_DEFAULT_HARDWARE"

def memoryKey : String := "ORCHESTRATOR_DEFAULT_MAX_MEMORY_FOOTPRINT"

def timeoutKey : String := "ORCHESTRATOR_RESULT_TIMEOUT_MS"

def retentionKey : String := "ORCHESTRATOR_MAX_TRACKED_PROBLEMS"

def keys : List String := [hardwareKey, memoryKey, timeoutKey, retentionKey]

/-- A number under a key, if there is one: blanks around it do not count. -/
def number? (lookup : String → Option String) (bound : Nat) (key : String) :
    Except SettingFault (Option Nat) :=
  match lookup key with
  | none => .ok none
  | some value =>
    match Text.countBelow? bound (Text.trim value) with
    | some n => .ok (some n)
    | none => .error (.invalidValue key value)

/-- A blank name of hardware counts as none. -/
def hardwareOf (lookup : String → Option String) : String :=
  match (lookup hardwareKey).map Text.trim with
  | none | some "" => ({} : Settings).hardware
  | some name => name

/-- Reads the settings in a fixed order; the first fault is reported. -/
def ofLookup (lookup : String → Option String) : Except SettingFault Settings := do
  let memory ← number? lookup UInt32.size memoryKey
  let timeout ← number? lookup UInt64.size timeoutKey
  let retention ← number? lookup UInt64.size retentionKey
  if retention = some 0 then throw (.belowOne retentionKey)
  return {
    hardware := hardwareOf lookup
    memory := (memory.map UInt32.ofNat).getD ({} : Settings).memory
    timeout
    retention }

end Settings

end WorkerPipeline
