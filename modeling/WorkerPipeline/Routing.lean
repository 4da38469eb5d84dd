import WorkerPipeline.Worker.Basic

set_option autoImplicit false

/-! # Routing of configuration requests

A configuration request goes to the worker that one of its keywords stands for. Each request has
a transaction number, so that the answer can be matched with it.
-/

namespace WorkerPipeline

namespace Routing

/-- Keywords and their workers. The first keyword that occurs decides. -/
def keywords : List (String × Worker) :=
  [("hardwares", .hwProvider),
    ("modality", .mlModelMetadata), ("in_out_modalities", .mlModelMetadata),
    ("metrics", .mlModelMetadata), ("model_info", .mlModelMetadata),
    ("problem_from_modality", .mlModelMetadata), ("dataset_path", .mlModelMetadata),
    ("goal", .mlModelProvider), ("model_from_goal", .mlModelProvider)]

/-- Whether a list occurs in another without a gap. -/
def occursIn (pattern : List Char) : List Char → Bool
  | [] => pattern.isEmpty
  | c :: cs => pattern.isPrefixOf (c :: cs) || occursIn pattern cs

/-- The worker that a text is meant for; without a keyword it is the unknown node. -/
def route (configuration : String) : Worker :=
  match keywords.find? fun k => occursIn k.1.toList configuration.toList with
  | some (_, worker) => worker
  | none => .unknown

end Routing

/-- The counter of transactions. It holds the number given last. -/
structure Transactions where
  last : UInt32 := 0
deriving DecidableEq, Inhabited

namespace Transactions

/-- Numbers start at one and begin again at one when they are used up. -/
def next (t : Transactions) : Transactions := ⟨if t.last + 1 = 0 then 1 else t.last + 1⟩

theorem next_of_lt {t : Transactions} (h : t.last.toNat + 1 < UInt32.size) :
    t.next.last.toNat = t.last.toNat + 1 := by
  have hadd : (t.last + 1).toNat = t.last.toNat + 1 := by
    rw [UInt32.toNat_add, UInt32.toNat_one, Nat.mod_eq_of_lt h]
  have hne : ¬ t.last + 1 = 0 := by
    intro h0
    have := congrArg UInt32.toNat h0
    rw [hadd, UInt32.toNat_zero] at this
    omega
  simp [next, hne, hadd]

end Transactions

end WorkerPipeline
