import WorkerPipeline.Proofs.Session.History

set_option autoImplicit false

/-! # Submissions that fail

A submission that fails publishes nothing. It leaves the ledger as it was with one exception
(`failed_submission`): where a result of a later iteration has come before the problem was started,
the first task of the problem counts as known, and the record that was reserved for it stays.
-/

namespace WorkerPipeline

namespace Orchestrator

/-- The hub rejects a new problem whose first task counts as known although it has no record: a
later iteration of the problem is known. -/
structure LeavesRecord (o : Orchestrator) (s : Submission) : Prop where
  valid : s.fault? = none
  fresh : s.predecessor? = none
  rejecting : o.hub.rejecting = true
  known : o.ledger.isKnown (.first o.hub.nextProblem) = true
  unrecorded : o.ledger.record? (.first o.hub.nextProblem) = none

variable {o : Orchestrator} {s : Submission} {e : Error}

theorem hub_submit_of_error (h : (o.submit s).1 = .error e) :
    o.hub.Keeps (o.submit s).2.hub := by
  have hsubmits := o.submits s
  rw [h] at hsubmits
  cases hsubmits with
  | refused _ hhub => exact .of_eq hhub
  | rejected _ halloc => exact halloc.keeps

/-- A rejected task leaves the ledger as it was, unless it leaves a record. -/
theorem release_reserve_of_allocates {t : TaskId} {hub : Hub} (ho : o.ledger.Tidy)
    (halloc : o.Allocates s t hub) (hvalid : s.fault? = none) (hrejecting : o.hub.rejecting = true)
    (hleaves : ¬ o.LeavesRecord s) : (o.ledger.reserve t).release t = o.ledger := by
  cases halloc with
  | next _ hnext =>
      exact ho.release_reserve (ho.consistent.isKnown_eq_false_of_next?_base hnext)
  | fresh hp =>
      cases hknown : o.ledger.isKnown (.first o.hub.nextProblem) with
      | false => exact ho.release_reserve hknown
      | true =>
          rw [Ledger.release_reserve_of_isKnown hknown]
          cases hrecord : o.ledger.record? (.first o.hub.nextProblem) with
          | none => exact absurd ⟨hvalid, hp, hrejecting, hknown, hrecord⟩ hleaves
          | some r => exact Ledger.reserve_of_recorded (by rw [hrecord]; rfl)

theorem ledger_submit_of_error (ho : o.ledger.Tidy) (h : (o.submit s).1 = .error e)
    (hleaves : ¬ o.LeavesRecord s) : (o.submit s).2.ledger = o.ledger := by
  have hsubmits := o.submits s
  rw [h] at hsubmits
  cases hsubmits with
  | refused haside => exact haside.ledger
  | rejected hvalid halloc hrejecting hledger =>
      rw [hledger, release_reserve_of_allocates ho halloc hvalid hrejecting hleaves]

/-- Where a record is left, it is a blank one and the only change. -/
theorem LeavesRecord.ledger_submit (h : o.LeavesRecord s) :
    (o.submit s).2.ledger =
      { o.ledger with
        records := o.ledger.records.insert (.first o.hub.nextProblem)
          (.new (.first o.hub.nextProblem)) } := by
  have hfirst : o.Allocates s (.first o.hub.nextProblem) o.hub.allocateTask.2.2 := .fresh h.fresh
  have hsubmits := o.submits s
  generalize o.submit s = submitted at hsubmits ⊢
  obtain ⟨outcome, o'⟩ := submitted
  cases hsubmits with
  | refused _ _ hnone => exact absurd hfirst (hnone h.valid _ _)
  | rejected _ halloc _ hledger =>
      rw [hledger, (halloc.unique hfirst).1, Ledger.release_reserve_of_isKnown h.known,
        Ledger.reserve_of_unrecorded h.unrecorded]
  | accepted _ _ haccepting =>
      rw [h.rejecting] at haccepting
      cases haccepting

end Orchestrator

namespace Session

/-- **A submission that fails** publishes nothing and stores no input, whatever the reason and the
session. The ledger is what it was before, unless the submission leaves a record. -/
theorem failed_submission (settings : Settings) (hub : Hub) (commands : List Command)
    (input : Submission) {e : Error}
    (hfailed : (((new settings hub).run commands).submit input).1 = .error e) :
    let before := ((new settings hub).run commands).orchestrator
    let after := (((new settings hub).run commands).submit input).2.orchestrator
    after.hub.published = before.hub.published ∧ after.hub.inputs = before.hub.inputs ∧
    (¬ before.LeavesRecord input → after.ledger = before.ledger) ∧
    (before.LeavesRecord input → after.ledger =
      { before.ledger with
        records := before.ledger.records.insert (.first before.hub.nextProblem)
          (.new (.first before.hub.nextProblem)) }) := by
  intro before after
  have hkeeps := Orchestrator.hub_submit_of_error hfailed
  have htidy : before.ledger.Tidy := tidy_run settings hub commands
  exact ⟨hkeeps.published, hkeeps.inputs, Orchestrator.ledger_submit_of_error htidy hfailed,
    Orchestrator.LeavesRecord.ledger_submit⟩

/-- A continuation that would have followed a stray result is rejected. -/
theorem failed_submission_continuation :
    let commands : List Command :=
      [.submit { brief := { shortDescription := "count the cells" } },
        .register ⟨1, 2⟩ .hwProvider, .reject true]
    let input : Submission :=
      { brief := { shortDescription := "count the cells" }
        previousIteration := some 0
        extra := { previousProblem := some 1 } }
    let before := ((new {} {}).run commands).orchestrator
    let submitted := ((new {} {}).run commands).submit input
    submitted.1 = .error (.transportFailure (.publishRejected ⟨1, 3⟩)) ∧
    submitted.2.orchestrator.hub.published = before.hub.published ∧
    submitted.2.orchestrator.hub.inputs = before.hub.inputs ∧
    submitted.2.orchestrator.ledger = before.ledger := by
  intro commands input before submitted
  have hfailed : submitted.1 = .error (.transportFailure (.publishRejected ⟨1, 3⟩)) := by
    decide +kernel
  obtain ⟨hpublished, hinputs, hledger, -⟩ := failed_submission {} {} commands input hfailed
  exact ⟨hfailed, hpublished, hinputs, hledger fun h => nomatch h.fresh⟩

/-- A late iteration of a problem is heard of before the problem is started. When the hub then
rejects the first one, the ledger has a record that it did not have before. -/
theorem failed_submission_leaves_record :
    let commands : List Command :=
      [.deliver .hwProvider (.hwResource { task := some ⟨1, 5⟩ }), .pump, .reject true]
    let s := (new {} {}).run commands
    let submitted := s.submit { brief := { shortDescription := "count the cells" } }
    submitted.1 = .error (.transportFailure (.publishRejected ⟨1, 0⟩)) ∧
    s.orchestrator.ledger.record? ⟨1, 0⟩ = none ∧
    submitted.2.orchestrator.ledger.record? ⟨1, 0⟩ = some (.new ⟨1, 0⟩) ∧
    submitted.2.orchestrator.ledger ≠ s.orchestrator.ledger := by
  intro commands s submitted
  have hbefore : s.orchestrator.ledger.record? ⟨1, 0⟩ = none := by decide +kernel
  have hafter : submitted.2.orchestrator.ledger.record? ⟨1, 0⟩ = some (.new ⟨1, 0⟩) := by
    decide +kernel
  refine ⟨by decide +kernel, hbefore, hafter, fun heq => ?_⟩
  rw [heq, hbefore] at hafter
  cases hafter

end Session

end WorkerPipeline
