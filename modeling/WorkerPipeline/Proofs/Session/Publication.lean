import WorkerPipeline.Proofs.Orchestrator.Continuation
import WorkerPipeline.Proofs.Session.History

set_option autoImplicit false

/-! # What outputs publish

In a session that remembers all problems, an output is answered by one publication at most, and
whether there is one depends on the list of all registrations and on what the hub has to offer
(`output_accounting`).
-/

namespace WorkerPipeline

namespace Session

open Orchestrator

section

variable {settings : Settings} (hretention : settings.retention = none) (hub : Hub)
  (commands : List Command)

include hretention

/-- In a session without a limit, a result is missing as long as it was not registered. -/
theorem available_carbonFootprint_eq_false_iff (t : TaskId) :
    ((new settings hub).run commands).orchestrator.ledger.available t .carbonFootprint = false ↔
      (t, .carbonFootprint) ∉ (new settings hub).registered commands := by
  rw [← Bool.not_eq_true, available_run_iff hub commands hretention]
  constructor
  · intro h hmem
    exact h ⟨rfl, hmem⟩
  · intro h hmem
    exact h hmem.2

theorem prolongs_run_iff (a : Arrival) (t next : TaskId) :
    ((new settings hub).run commands).orchestrator.Prolongs a t next ↔
      a.task = some t ∧ a.worker = .carbonFootprint ∧
        (t, .carbonFootprint) ∉ (new settings hub).registered commands ∧
        ((new settings hub).run commands).orchestrator.hub.Continues t
          (((new settings hub).run commands).orchestrator.ledger.frontier t) a.output next := by
  rw [← available_carbonFootprint_eq_false_iff hretention]
  constructor
  · intro h
    exact ⟨h.task, h.worker, h.first, h.continues⟩
  · rintro ⟨htask, hworker, hfirst, hcontinues⟩
    exact ⟨htask, hworker, hfirst, hcontinues⟩

/-- The result that an output brings is available as soon as the output was handled. -/
theorem available_handle {a : Arrival} {t : TaskId} (htask : a.task = some t)
    (hw : a.worker.isTracked = true) :
    (((new settings hub).run commands).orchestrator.handle (.newOutput a)).ledger.available t
      a.worker = true := by
  have hrun := available_run_iff hub (commands ++ [.handle (.newOutput a)]) hretention t a.worker
  rw [run_append] at hrun
  refine hrun.mpr ⟨hw, ?_⟩
  rw [registered_append]
  refine List.mem_append_right _ (List.mem_append_left _ ?_)
  show (t, a.worker) ∈ (a.task.map fun t => (t, a.worker)).toList
  rw [htask]
  exact List.mem_cons_self

end

/-- **An output publishes one task or none.** Handling an output appends one task to the published
ones if it is a carbon footprint, no carbon footprint of its task was registered before in any way,
and the hub has what it takes to let the task follow the frontier of its problem; it appends that
task then. Otherwise neither the published tasks nor the stored inputs change. The answer is the
same in either case, and the result of a tracked worker is available afterwards. -/
theorem output_accounting {settings : Settings} (hretention : settings.retention = none)
    (hub : Hub) (commands : List Command) (a : Arrival) :
    let s := (new settings hub).run commands
    let handled := s.apply (.handle (.newOutput a))
    let before := s.orchestrator.hub
    let after := handled.2.orchestrator.hub
    handled.1 = .done ∧
    (∀ next, after.published = before.published ++ [next] ↔
      ∃ t, a.task = some t ∧ a.worker = .carbonFootprint ∧
        (t, .carbonFootprint) ∉ (new settings hub).registered commands ∧
        before.Continues t (s.orchestrator.ledger.frontier t) a.output next) ∧
    ((∃ next u, after.published = before.published ++ [next] ∧
        after.inputs = before.inputs.insert next u) ∨
      after.published = before.published ∧ after.inputs = before.inputs) ∧
    ∀ t, a.task = some t → a.worker.isTracked = true →
      handled.2.orchestrator.ledger.available t a.worker = true := by
  intro s handled before after
  have htidy : s.orchestrator.ledger.Tidy := tidy_run settings hub commands
  have hcases := hub_onOutput htidy.consistent a
  refine ⟨rfl, fun next => ?_, ?_, fun t => available_handle hretention hub commands⟩
  · refine Iff.trans ?_ (exists_congr fun t => prolongs_run_iff hretention hub commands a t next)
    rcases hcases with ⟨t, next', h, happends⟩ | ⟨hnone, hkeeps⟩
    · constructor
      · intro heq
        have hnext := List.append_cancel_left (happends.published.symm.trans heq)
        cases hnext
        exact ⟨t, h⟩
      · rintro ⟨t', h'⟩
        rw [h'.unique h]
        exact happends.published
    · constructor
      · intro heq
        have hlonger : s.orchestrator.hub.published = s.orchestrator.hub.published ++ [next] :=
          hkeeps.published.symm.trans heq
        simp at hlonger
      · rintro ⟨t, h⟩
        exact absurd h (hnone t next)
  · rcases hcases with ⟨-, next, -, happends⟩ | ⟨-, hkeeps⟩
    · obtain ⟨u, hinputs⟩ := happends.inputs
      exact .inl ⟨next, u, happends.published, hinputs⟩
    · exact .inr ⟨hkeeps.published, hkeeps.inputs⟩

/-- Three outputs are asked for. A stray result has moved the frontier to the second iteration, so
the third one follows. -/
theorem output_accounting_stray :
    let commands : List Command :=
      [.submit { brief := { shortDescription := "count the cells" } },
        .register ⟨1, 2⟩ .hwProvider]
    let a : Arrival :=
      { worker := .carbonFootprint
        task := some ⟨1, 0⟩
        output := .carbonFootprint { extraData := Extra.encode { numOutputs := some 3 } } }
    let s := (new {} {}).run commands
    let handled := s.apply (.handle (.newOutput a))
    ({} : Settings).retention = none ∧
    s.orchestrator.hub.Continues ⟨1, 0⟩ (s.orchestrator.ledger.frontier ⟨1, 0⟩) a.output ⟨1, 3⟩ ∧
    handled.2.orchestrator.hub.published = [⟨1, 0⟩, ⟨1, 3⟩] ∧
    handled.2.orchestrator.ledger.available ⟨1, 0⟩ .carbonFootprint = true := by
  intro commands a s handled
  have hretention : ({} : Settings).retention = none := rfl
  obtain ⟨-, hpublished, -, havailable⟩ := output_accounting hretention {} commands a
  have hbefore : s.orchestrator.hub.published = [⟨1, 0⟩] := by decide +kernel
  have hafter : handled.2.orchestrator.hub.published = [⟨1, 0⟩, ⟨1, 3⟩] := by decide +kernel
  obtain ⟨t, htask, -, -, hcontinues⟩ := (hpublished ⟨1, 3⟩).mp
    (hafter.trans (congrArg (fun l => l ++ [(⟨1, 3⟩ : TaskId)]) hbefore.symm))
  cases htask
  exact ⟨rfl, hcontinues, hafter, havailable ⟨1, 0⟩ rfl rfl⟩

end Session

end WorkerPipeline
