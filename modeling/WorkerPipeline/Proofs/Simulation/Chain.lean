import WorkerPipeline.Orchestrator.Event
import WorkerPipeline.Proofs.Message.ExtraData
import WorkerPipeline.Simulation.Output

set_option autoImplicit false

/-! # The chain of a submission

A fresh submission that asks for `n` outputs leads to `n` tasks of one problem, each with an input
of its own. What these inputs are does not depend on the order in which the workers answer: after
the carbon footprint of an iteration the next input differs in the iteration it follows, in the
number of outputs and in the models that are excluded (`followUp?_input`).
-/

namespace WorkerPipeline

/-- A submission that starts a problem of its own and is accepted. -/
structure Submission.IsFresh (s : Submission) : Prop where
  described : Text.isBlankText s.brief.shortDescription = false
  iteration : s.previousIteration = none
  problem : s.extra.previousProblem = none

/-- The number of outputs that are asked for. Nobody asks for none. -/
def Submission.outputCount (s : Submission) : Nat := max 1 (s.extra.numOutputs.getD 1).toNat

/-- The model that is suggested for an iteration. -/
def Submission.candidate (s : Submission) (i : Nat) : String :=
  (if s.brief.modality = "" then "generic" else s.brief.modality) ++ "-candidate-" ++ toString i

/-- The extra data can be encoded and decoded again and again. -/
def Extra.Lasts (e : Extra) : Prop := e.Within Number.Lasts

theorem Extra.Lasts.decode?_encode {e : Extra} (h : e.Lasts) : decode? e.encode = some e.reread :=
  Extra.decode?_encode (h.mono fun _ hn => hn.isLegible)

theorem Extra.Lasts.reread {e : Extra} (h : e.Lasts) : e.reread.Lasts :=
  Extra.Within.reread (fun _ h => h.reread) h

theorem Extra.Lasts.of_other_eq {e f : Extra} (h : e.Lasts) (heq : f.other = e.other) : f.Lasts :=
  Extra.Within.of_other_eq h heq

/-- The extra data of every carbon footprint decode. -/
theorem Simulation.decode?_carbonExtra (e : Extra) (model : String) :
    Extra.decode? (carbonExtra e model).encode = some (carbonExtra e model) := by
  have hwithin : (carbonExtra e model).Within Number.IsLegible :=
    ⟨fun _ h => (List.not_mem_nil h).elim, trivial⟩
  rw [Extra.decode?_encode hwithin]
  rfl

/-- The problem that a fresh submission starts, and the defaults that fill the submission up. -/
structure Chain where
  problem : UInt32
  submission : Submission
  hardware : String
  memory : UInt32

namespace Chain

variable (c : Chain)

def length : Nat := c.submission.outputCount

def task (i : Nat) : TaskId := ⟨c.problem, UInt32.ofNat i⟩

/-- The number of outputs that an iteration is told to produce. -/
def outputsAt (i : Nat) : Option UInt32 :=
  if i = 0 then c.submission.extra.numOutputs else some (UInt32.ofNat (c.length - i))

/-- The extra data in the input of an iteration. -/
def extra (i : Nat) : Extra where
  hardwareRequired := some (c.submission.extra.hardwareRequired.getD c.hardware)
  maxMemoryFootprint := some (c.submission.extra.maxMemoryFootprint.getD c.memory)
  goal := c.submission.extra.goal
  numOutputs := c.outputsAt i
  modelRestrains := c.submission.extra.modelRestrains ++ (List.range i).map c.submission.candidate
  previousProblem := if i = 0 then none else some c.problem
  datasetType := c.submission.extra.datasetType
  datasetPath := c.submission.extra.datasetPath
  other := Nat.iterate FreeObject.reread i c.submission.extra.other

/-- The input of an iteration. -/
def input (i : Nat) : UserInput where
  task := some (c.task i)
  brief := c.submission.brief
  previousIteration := UInt32.ofNat (i - 1)
  extraData := (c.extra i).encode

/-- The submission that follows an iteration. -/
def continuation (i : Nat) : Submission where
  brief := c.submission.brief
  previousIteration := some (UInt32.ofNat i)
  extra := { (c.extra i).reread with
    previousProblem := some c.problem
    numOutputs := c.outputsAt (i + 1)
    modelRestrains :=
      c.submission.extra.modelRestrains ++ (List.range (i + 1)).map c.submission.candidate }

/-- The extra data that the carbon footprint of an iteration carries. -/
def carbonExtra (i : Nat) : Extra :=
  Simulation.carbonExtra (c.extra i).reread (c.submission.candidate i)

/-! ## Tasks -/

theorem length_pos : 0 < c.length := Nat.le_max_left _ _

theorem length_lt : c.length < UInt32.size := by
  have hn := (c.submission.extra.numOutputs.getD 1).toNat_lt
  show max 1 (c.submission.extra.numOutputs.getD 1).toNat < 2 ^ 32
  omega

theorem toNat_ofNat {i : Nat} (h : i < UInt32.size) : (UInt32.ofNat i).toNat = i := by
  rw [UInt32.toNat_ofNat', Nat.mod_eq_of_lt h]

theorem task_inj {i k : Nat} (hi : i < UInt32.size) (hk : k < UInt32.size)
    (h : c.task i = c.task k) : i = k := by
  have hiteration : UInt32.ofNat i = UInt32.ofNat k := congrArg TaskId.iteration h
  rw [← toNat_ofNat hi, ← toNat_ofNat hk, hiteration]

@[simp] theorem problem_task (i : Nat) : (c.task i).problem = c.problem := rfl

theorem task_ne {t : TaskId} (h : t.problem ≠ c.problem) {i : Nat} : c.task i ≠ t := by
  rintro rfl
  exact h rfl

/-- The tasks are in the order of their iterations. -/
theorem before_task_iff {i k : Nat} (hi : i < UInt32.size) (hk : k < UInt32.size) :
    Key.before (c.task i) (c.task k) ↔ i < k := by
  rw [TaskId.before_iff]
  show c.problem.toNat < c.problem.toNat ∨ (c.problem = c.problem ∧
    (UInt32.ofNat i).toNat < (UInt32.ofNat k).toNat) ↔ i < k
  rw [toNat_ofNat hi, toNat_ofNat hk]
  simp

theorem next?_task {i : Nat} (h : i + 1 < UInt32.size) :
    (c.task i).next? = some (c.task (i + 1)) := by
  have hi : (UInt32.ofNat i).toNat = i := toNat_ofNat (by omega)
  have hsucc : UInt32.ofNat i + 1 = UInt32.ofNat (i + 1) := by
    rw [← UInt32.toNat_inj, UInt32.toNat_add, hi, toNat_ofNat h]
    exact Nat.mod_eq_of_lt h
  rw [TaskId.next?, if_pos (by show (UInt32.ofNat i).toNat + 1 < UInt32.size; omega)]
  show some (TaskId.mk c.problem (UInt32.ofNat i + 1)) = _
  rw [hsucc]
  rfl

theorem modelName_input {i : Nat} (h : i < UInt32.size) :
    Simulation.modelName (c.task i) (c.input i) = c.submission.candidate i := by
  unfold Simulation.modelName Submission.candidate
  show _ ++ toString (UInt32.ofNat i).toNat = _
  rw [toNat_ofNat h]
  rfl

/-! ## The number of outputs -/

/-- An iteration after which more is to come is told how much. -/
theorem outputsAt_eq {i : Nat} (h : i + 1 < c.length) :
    c.outputsAt i = some (UInt32.ofNat (c.length - i)) := by
  unfold outputsAt
  by_cases hi : i = 0
  · -- the first input holds the number that was submitted
    subst hi
    unfold length Submission.outputCount at *
    cases hn : c.submission.extra.numOutputs with
    | none =>
        rw [hn] at h
        exact absurd h (by decide)
    | some n =>
        rw [hn, Option.getD_some] at h
        have hmax : max 1 n.toNat - 0 = n.toNat := by omega
        rw [if_pos rfl, Option.getD_some, hmax, UInt32.ofNat_toNat]
  · rw [if_neg hi]

theorem outputsAt_succ {i : Nat} (h : i + 1 < c.length) :
    c.outputsAt (i + 1) = some (UInt32.ofNat (c.length - i) - 1) := by
  have hlength := c.length_lt
  have hsub : UInt32.ofNat (c.length - i) - 1 = UInt32.ofNat (c.length - (i + 1)) := by
    rw [← UInt32.toNat_inj, UInt32.toNat_sub_of_le, toNat_ofNat (by omega),
      toNat_ofNat (by omega)]
    · rfl
    · rw [UInt32.le_iff_toNat_le, toNat_ofNat (by omega)]
      show 1 ≤ _
      omega
  rw [outputsAt, if_neg (Nat.succ_ne_zero i), hsub]

/-- More is asked for until the last iteration. -/
theorem remainingOutputs?_extra {i : Nat} (hi : i < c.length) {e : Extra}
    (he : e.numOutputs = c.outputsAt i) :
    e.remainingOutputs? = if i + 1 < c.length then c.outputsAt (i + 1) else none := by
  have hlength := c.length_lt
  unfold Extra.remainingOutputs?
  rw [he]
  by_cases h : i + 1 < c.length
  · have hmore : 1 < UInt32.ofNat (c.length - i) := by
      rw [UInt32.lt_iff_toNat_lt, toNat_ofNat (by omega)]
      show 1 < _
      omega
    rw [if_pos h, c.outputsAt_succ h, c.outputsAt_eq h]
    exact if_pos hmore
  · rw [if_neg h, outputsAt]
    by_cases hzero : i = 0
    · -- one output was asked for, or none, or there is no number
      subst hzero
      rw [if_pos rfl]
      unfold length Submission.outputCount at h
      cases hn : c.submission.extra.numOutputs with
      | none => rfl
      | some n =>
          rw [hn, Option.getD_some] at h
          refine if_neg ?_
          rw [UInt32.lt_iff_toNat_lt]
          show ¬ 1 < n.toNat
          omega
    · rw [if_neg hzero, show c.length - i = 1 by omega]
      rfl

/-! ## Extra data -/

theorem reread_other (i : Nat) : (c.extra i).other.reread = (c.extra (i + 1)).other :=
  (Function.iterate_succ_apply' FreeObject.reread i c.submission.extra.other).symm

variable {c}

theorem lasts_extra (h : c.submission.extra.Lasts) (i : Nat) : (c.extra i).Lasts := by
  induction i with
  | zero => exact h.of_other_eq rfl
  | succ i ih => exact ih.reread.of_other_eq (c.reread_other i).symm

theorem decode?_input (h : c.submission.extra.Lasts) (i : Nat) :
    Extra.decode? (c.input i).extraData = some (c.extra i).reread := by
  simp only [input]
  exact (lasts_extra h i).decode?_encode

/-- The extra data of a carbon footprint hold nothing but what the next iteration needs. -/
theorem decode?_carbonExtra (i : Nat) :
    Extra.decode? (c.carbonExtra i).encode = some (c.carbonExtra i) :=
  Simulation.decode?_carbonExtra _ _

/-! ## The next input -/

/-- **The submission that follows an iteration**, if more outputs are asked for. -/
theorem followUp?_input (h : c.submission.extra.Lasts) {i : Nat} (hi : i + 1 < c.length) :
    Submission.followUp? (c.task i) (c.carbonExtra i) (c.input i) =
      .ok (some (c.continuation i)) := by
  have hremaining :
      (c.carbonExtra i).remainingOutputs? = some (UInt32.ofNat (c.length - i) - 1) := by
    rw [c.remainingOutputs?_extra (Nat.lt_of_succ_lt hi) rfl, if_pos hi, c.outputsAt_succ hi]
  have hinput : Submission.ofUserInput (c.input i) =
      .ok {
        brief := c.submission.brief
        previousIteration := (c.extra i).previousProblem.map fun _ => UInt32.ofNat (i - 1)
        extra := (c.extra i).reread } := by
    rw [Submission.ofUserInput, Extra.decode_eq_ok_iff.mpr (decode?_input h i)]
    rfl
  have hnonempty : (c.carbonExtra i).modelRestrains.isEmpty = false := by
    simp [carbonExtra, Simulation.carbonExtra]
  rw [Submission.followUp?, hremaining, hinput]
  show Except.ok (some _) = _
  rw [Submission.continuing, hnonempty, ← c.outputsAt_succ hi]
  simp only [carbonExtra, Simulation.carbonExtra, continuation, task, Extra.reread, extra,
    List.range_succ, List.map_append, List.append_assoc, List.map_cons, List.map_nil]
  rfl

theorem fault?_continuation (h : c.submission.IsFresh) (i : Nat) :
    (c.continuation i).fault? = none := by
  unfold Submission.fault?
  rw [show (c.continuation i).brief = c.submission.brief from rfl, h.described]
  rfl

theorem predecessor?_continuation (i : Nat) : (c.continuation i).predecessor? = some (c.task i) :=
  rfl

theorem fill_continuation (i : Nat) (template : UserInput) :
    (c.continuation i).fill template (c.task (i + 1)) c.hardware c.memory = c.input (i + 1) := by
  have hextra : (c.continuation i).completeExtra c.hardware c.memory = c.extra (i + 1) := by
    simp only [Submission.completeExtra, continuation, Extra.reread, c.reread_other i]
    rfl
  rw [Submission.fill, hextra]
  rfl

/-- The first input is the submission itself with its defaults. -/
theorem fill_submission (h : c.submission.IsFresh) (template : UserInput) :
    c.submission.fill template (c.task 0) c.hardware c.memory = c.input 0 := by
  have hextra : c.submission.completeExtra c.hardware c.memory = c.extra 0 := by
    simp only [Submission.completeExtra, extra, outputsAt, if_pos, List.range_zero, List.map_nil,
      List.append_nil, ← h.problem]
    rfl
  rw [Submission.fill, hextra, h.iteration]
  rfl

end Chain

end WorkerPipeline
