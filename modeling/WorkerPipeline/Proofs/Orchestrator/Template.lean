import WorkerPipeline.Proofs.Orchestrator.Fidelity

set_option autoImplicit false

/-! # What is published for a submission

The hub hands out a template with a task, and for a continuation it holds the input of the base. The
submission is written over it, so the published input is the same whatever the template was
(`published_as_submitted`). If the extra data can be read back, the submission is found in it again,
with the hardware and the memory of the settings where it names none.
-/

namespace WorkerPipeline

namespace Submission

/-- Writing a submission over a template and rebuilding it undo each other but for the hardware and
the memory. -/
theorem rebuilt_of_within {s : Submission} (hpaired : s.IsPaired)
    (hextra : s.extra.Within Number.ReadsBack) (template : UserInput) (t : TaskId)
    (hardware : String) (memory : UInt32) :
    ofUserInput (s.fill template t hardware memory) =
      .ok { s with extra := s.completeExtra hardware memory } := by
  have hwithin : (s.completeExtra hardware memory).Within Number.ReadsBack :=
    hextra.of_other_eq rfl
  have hreread : (s.completeExtra hardware memory).reread = s.completeExtra hardware memory :=
    Extra.reread_of_readsBack ⟨_, hwithin.nested⟩
  rw [fill_template s template {} t hardware memory]
  refine hpaired.rebuilt t ?_
  rw [Extra.decode?_encode (hwithin.mono fun _ h => h.lasts.isLegible), hreread]

end Submission

namespace Orchestrator

open Submission

variable {o : Orchestrator} {s : Submission} {t : TaskId}

/-- Where a submission is answered with a task, there is an input published for it. -/
theorem exists_publishes (h : (o.submit s).1 = .ok t) : ∃ u, o.Publishes s t u := by
  have hsubmits := o.submits s
  rw [h] at hsubmits
  cases hsubmits with
  | accepted _ _ _ _ hhub =>
      refine ⟨o.fill s {} t, h, ?_⟩
      rw [hhub]
      exact Table.get?_insert_self _ _ _

/-- **What is published is what was submitted**, where the extra data can be read back. A submission
that is answered with a task has left an input for it in which nothing comes from the template, and
what is rebuilt from that input differs from what was submitted in the defaults that were filled in.
The same is true of any submission that is written over a template, if it names its predecessor
completely or not at all. -/
theorem published_as_submitted (o : Orchestrator) {s : Submission}
    (hextra : s.extra.Within Number.ReadsBack) :
    (∀ t, (o.submit s).1 = .ok t → ∃ u, (o.submit s).2.hub.inputs.get? t = some u ∧
      u.task = some t ∧
      (∀ template, s.fill template t o.settings.hardware o.settings.memory = u) ∧
      ofUserInput u = .ok { s with
        extra := { s.extra with
          hardwareRequired := some (s.extra.hardwareRequired.getD o.settings.hardware)
          maxMemoryFootprint := some (s.extra.maxMemoryFootprint.getD o.settings.memory) } }) ∧
    (s.IsPaired → ∀ t hardware memory template,
      (∀ template', s.fill template' t hardware memory = s.fill template t hardware memory) ∧
      ofUserInput (s.fill template t hardware memory) = .ok { s with
        extra := { s.extra with
          hardwareRequired := some (s.extra.hardwareRequired.getD hardware)
          maxMemoryFootprint := some (s.extra.maxMemoryFootprint.getD memory) } }) := by
  constructor
  · intro t hanswer
    obtain ⟨u, hpublishes⟩ := exists_publishes hanswer
    obtain ⟨hvalid, rfl⟩ := hpublishes.input_eq
    exact ⟨_, hpublishes.input, rfl, fun template => fill_template s template {} t _ _,
      rebuilt_of_within (isPaired_of_valid hvalid) hextra {} t _ _⟩
  · intro hpaired t hardware memory template
    exact ⟨fun template' => fill_template s template' template t hardware memory,
      rebuilt_of_within hpaired hextra template t hardware memory⟩

/-- A continuation that names a batch size and says little else. -/
def terse : Submission where
  brief := { shortDescription := "count the cells" }
  previousIteration := some 0
  extra := {
    previousProblem := some 1
    other := ⟨[("batch", .num (.int 32))], .cons nofun .nil, trivial, trivial⟩ }

/-- The input of the first task asks for five samples and names a goal. Nothing of that is left in
the second one, nor when it is the template for other defaults. -/
theorem published_as_submitted_terse :
    let o := ((Orchestrator.new { hardware := "cpu", memory := 7 } {}).submit threefold).2
    ∃ first u, o.hub.inputs.get? ⟨1, 0⟩ = some first ∧ first.brief.minimumSamples = 5 ∧
      (o.submit terse).1 = .ok ⟨1, 1⟩ ∧ (o.submit terse).2.hub.inputs.get? ⟨1, 1⟩ = some u ∧
      u.brief = terse.brief ∧
      ofUserInput u = .ok { terse with
        extra := { terse.extra with
          hardwareRequired := some "cpu"
          maxMemoryFootprint := some 7 } } ∧
      ofUserInput (terse.fill first ⟨1, 1⟩ "gpu" 9) = .ok { terse with
        extra := { terse.extra with
          hardwareRequired := some "gpu"
          maxMemoryFootprint := some 9 } } := by
  intro o
  have hextra : terse.extra.Within Number.ReadsBack := ⟨by decide, by decide +kernel⟩
  have hanswer : (o.submit terse).1 = .ok ⟨1, 1⟩ := by decide +kernel
  obtain ⟨hpublished, hfilled⟩ := published_as_submitted o hextra
  obtain ⟨u, hstored, -, hfill, hrebuilt⟩ := hpublished _ hanswer
  have hfirst : (o.hub.inputs.get? ⟨1, 0⟩).map (fun u => u.brief.minimumSamples) = some 5 := by
    decide +kernel
  obtain ⟨first, hfirst, hsamples⟩ := Option.map_eq_some_iff.mp hfirst
  have hbrief : u.brief = terse.brief := by rw [← hfill {}]; rfl
  obtain ⟨-, hother⟩ := hfilled (by decide) ⟨1, 1⟩ "gpu" 9 first
  exact ⟨first, u, hfirst, hsamples, hanswer, hstored, hbrief, hrebuilt, hother⟩

end Orchestrator

end WorkerPipeline
