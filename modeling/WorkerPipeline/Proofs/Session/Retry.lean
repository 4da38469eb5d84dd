import WorkerPipeline.Proofs.Session.Refusal
import WorkerPipeline.Proofs.Session.Succession

set_option autoImplicit false

/-! # Submitting again what was rejected

When the hub rejects a publication, the ledger takes its reservation back and the hub keeps the
task allocated. So a new problem gets another number when it is submitted again, but a continuation
does not get another iteration. The ledger is as before and names the same base, and the hub refuses
the task after it as one that exists (`retry_after_rejection`).
-/

namespace WorkerPipeline

namespace Orchestrator

variable {o : Orchestrator} {s : Submission} {t : TaskId}

/-- The orchestrator with a hub that accepts publications. -/
def accepting (o : Orchestrator) : Orchestrator :=
  { o with hub := { o.hub with rejecting := false } }

/-- What is rejected has no fault and was given a task. -/
theorem allocates_of_rejected
    (h : (o.submit s).1 = .error (.transportFailure (.publishRejected t))) :
    s.fault? = none ∧ ∃ u hub, o.Allocates s u hub := by
  have hvalid : s.fault? = none := by
    cases hfault : s.fault? with
    | none => rfl
    | some fault =>
        unfold submit at h
        rw [hfault] at h
        cases h
  refine ⟨hvalid, ?_⟩
  cases hp : s.predecessor? with
  | none => exact ⟨_, _, .fresh hp⟩
  | some candidate =>
      -- the hub's own objections to a continuation are not rejections
      cases hnext : (o.ledger.base candidate).next? with
      | none =>
          rw [(submit_usedUp hvalid hp hnext).1] at h
          cases h
      | some u =>
          cases hfree : o.hub.allocated.contains u with
          | true =>
              rw [(submit_taken hvalid hp hnext hfree).1] at h
              cases h
          | false => exact ⟨_, _, .next hp hnext hfree⟩

/-- The task of a rejected submission is allocated all the same. -/
theorem hub_submit_of_rejected
    (h : (o.submit s).1 = .error (.transportFailure (.publishRejected t))) :
    o.Allocates s t (o.submit s).2.hub := by
  obtain ⟨hvalid, u, hub, halloc⟩ := allocates_of_rejected h
  have hsubmits := o.submits s
  rw [h] at hsubmits
  cases hsubmits with
  | refused _ _ hnone => exact absurd halloc (hnone hvalid u hub)
  | rejected _ hrejected => exact hrejected

/-- A new problem that was rejected gets the next number. -/
theorem retry_fresh (h : (o.submit s).1 = .error (.transportFailure (.publishRejected t)))
    (hp : s.predecessor? = none) :
    ((o.submit s).2.accepting.submit s).1 = .ok (.first (t.problem + 1)) ∧
    ((o.submit s).2.accepting.submit s).2.hub.published =
      o.hub.published ++ [.first (t.problem + 1)] := by
  have hvalid := (allocates_of_rejected h).1
  have halloc := hub_submit_of_rejected h
  have hkept := (hub_submit_of_error h).published
  generalize (o.submit s).2 = o' at halloc hkept ⊢
  have hnumber : o'.accepting.hub.nextProblem = t.problem + 1 := by
    obtain ⟨hub, ledger⟩ := o'
    cases halloc with
    | fresh => rfl
    | next hp' =>
        rw [hp] at hp'
        cases hp'
  obtain ⟨o'', hsubmit, -⟩ := submit_fresh (o := o'.accepting) hvalid hp rfl
  have hpublished := published_submit o'.accepting s
  rw [hsubmit, hnumber] at hpublished ⊢
  refine ⟨rfl, hpublished.trans ?_⟩
  show o'.hub.published ++ _ = _
  rw [hkept]
  rfl

/-- A continuation that was rejected is given the same task, which is taken now. -/
theorem retry_continuation (ho : o.ledger.Tidy)
    (h : (o.submit s).1 = .error (.transportFailure (.publishRejected t))) {candidate : TaskId}
    (hp : s.predecessor? = some candidate) :
    ((o.submit s).2.accepting.submit s).1 = .error (.transportFailure (.alreadyAllocated t)) ∧
    ((o.submit s).2.accepting.submit s).2.ledger = o.ledger ∧
    ((o.submit s).2.accepting.submit s).2.hub.published = o.hub.published := by
  have hvalid := (allocates_of_rejected h).1
  have halloc := hub_submit_of_rejected h
  have hkept := (hub_submit_of_error h).published
  -- the reservation is taken back, so the base is what it was, and so is the task after it
  have hledger : (o.submit s).2.ledger = o.ledger :=
    ledger_submit_of_error ho h fun hleaves => by rw [hleaves.fresh] at hp; cases hp
  have hnext := (halloc.of_predecessor hp).1
  have htaken := (halloc.contains_iff t).mpr (.inl rfl)
  generalize (o.submit s).2 = o' at hkept hledger htaken ⊢
  rw [← hledger] at hnext
  obtain ⟨hanswer, hledger', hhub⟩ := submit_taken (o := o'.accepting) hvalid hp hnext htaken
  exact ⟨hanswer, hledger'.trans hledger, (congrArg Hub.published hhub).trans hkept⟩

end Orchestrator

namespace Session

/-- **What was rejected is submitted again** as soon as the hub accepts publications. A new problem
is published then, and a continuation fails because of the task that its first attempt has left
allocated. -/
theorem retry_after_rejection (settings : Settings) (hub : Hub) (commands : List Command)
    {input : Submission} {t : TaskId}
    (hrejected : (((new settings hub).run commands).submit input).1 =
      .error (.transportFailure (.publishRejected t))) :
    let before := ((new settings hub).run commands).orchestrator
    let refused := (((new settings hub).run commands).submit input).2
    let retried := (refused.apply (.reject false)).2.submit input
    let after := retried.2.orchestrator
    (input.predecessor? = none → retried.1 = .ok (.first (t.problem + 1)) ∧
      after.hub.published = before.hub.published ++ [.first (t.problem + 1)]) ∧
    (input.predecessor?.isSome →
      retried.1 = .error (.transportFailure (.alreadyAllocated t)) ∧
      after.ledger = before.ledger ∧ after.hub.published = before.hub.published) := by
  intro before refused retried after
  refine ⟨fun hp => Orchestrator.retry_fresh hrejected hp, fun hsome => ?_⟩
  obtain ⟨candidate, hp⟩ := Option.isSome_iff_exists.mp hsome
  exact Orchestrator.retry_continuation (tidy_run settings hub commands) hrejected hp

/-- A problem that was rejected as the first one becomes the second one. -/
theorem retry_after_rejection_fresh :
    let rejected := ((new {} {}).run [.reject true]).submit cells
    rejected.1 = .error (.transportFailure (.publishRejected ⟨1, 0⟩)) ∧
    ((rejected.2.apply (.reject false)).2.submit cells).1 = .ok ⟨2, 0⟩ := by
  intro rejected
  have hrejected : rejected.1 = .error (.transportFailure (.publishRejected ⟨1, 0⟩)) := by
    decide +kernel
  obtain ⟨hfresh, -⟩ := retry_after_rejection {} {} [.reject true] hrejected
  exact ⟨hrejected, (hfresh rfl).1⟩

/-- The second task of a problem is rejected once and then refused as one that exists. -/
theorem retry_of_continuation_fails :
    let rejected := ((new {} {}).run [.submit cells, .reject true]).submit cellsAgain
    rejected.1 = .error (.transportFailure (.publishRejected ⟨1, 1⟩)) ∧
    ((rejected.2.apply (.reject false)).2.submit cellsAgain).1 =
      .error (.transportFailure (.alreadyAllocated ⟨1, 1⟩)) := by
  decide +kernel

end Session

end WorkerPipeline
