import WorkerPipeline.Proofs.Message.Completion
import WorkerPipeline.Proofs.Orchestrator.Continuation

set_option autoImplicit false

/-! # What a chain of follow-ups carries along

The input of a follow-up is built from the input of the task that it follows. What is rebuilt from
the two inputs differs in the predecessor, in the number of outputs and in the models that are
excluded, and in nothing else. So every iteration of a chain carries what was submitted first
(`chain_fidelity`), whatever the carbon footprints say and however the settings of the orchestrator
change in between: the hardware and the memory are filled in once, and then the submission is
`Settled`.
-/

namespace WorkerPipeline

/-! ## What is carried -/

namespace Submission

/-- What was submitted later agrees with what was submitted first, apart from the predecessor, the
number of outputs and the models that are excluded. -/
structure Carries (r r' : Submission) : Prop where
  brief : r'.brief = r.brief
  hardwareRequired : r'.extra.hardwareRequired = r.extra.hardwareRequired
  maxMemoryFootprint : r'.extra.maxMemoryFootprint = r.extra.maxMemoryFootprint
  goal : r'.extra.goal = r.extra.goal
  datasetType : r'.extra.datasetType = r.extra.datasetType
  datasetPath : r'.extra.datasetPath = r.extra.datasetPath
  other : r'.extra.other = r.extra.other

theorem Carries.refl (r : Submission) : r.Carries r := ⟨rfl, rfl, rfl, rfl, rfl, rfl, rfl⟩

theorem Carries.trans {r r' r'' : Submission} (h : r.Carries r') (h' : r'.Carries r'') :
    r.Carries r'' where
  brief := h'.brief.trans h.brief
  hardwareRequired := h'.hardwareRequired.trans h.hardwareRequired
  maxMemoryFootprint := h'.maxMemoryFootprint.trans h.maxMemoryFootprint
  goal := h'.goal.trans h.goal
  datasetType := h'.datasetType.trans h.datasetType
  datasetPath := h'.datasetPath.trans h.datasetPath
  other := h'.other.trans h.other

theorem carries_continuing (r : Submission) (t : TaskId) (remaining : UInt32)
    (excluded : List String) : r.Carries (r.continuing t remaining excluded) :=
  ⟨rfl, rfl, rfl, rfl, rfl, rfl, rfl⟩

/-! ## Publishing and rebuilding -/

/-- Nothing is left to fill in, and what is published can be rebuilt. -/
structure Settled (r : Submission) : Prop where
  readable : r.extra.IsReadable
  numbers : r.extra.NumbersReadBack
  hardware : ∃ hardware, r.extra.hardwareRequired = some hardware
  memory : ∃ memory, r.extra.maxMemoryFootprint = some memory

theorem Settled.continuing {r : Submission} (h : r.Settled) (t : TaskId) (remaining : UInt32)
    (excluded : List String) : (r.continuing t remaining excluded).Settled where
  readable := Extra.Within.of_other_eq h.readable rfl
  numbers := h.numbers
  hardware := h.hardware
  memory := h.memory

theorem Settled.completeExtra_eq {r : Submission} (h : r.Settled) (hardware : String)
    (memory : UInt32) : r.completeExtra hardware memory = r.extra := by
  obtain ⟨hardware', hhardware⟩ := h.hardware
  obtain ⟨memory', hmemory⟩ := h.memory
  have hsame : (⟨r.extra.hardwareRequired, r.extra.maxMemoryFootprint, r.extra.goal,
      r.extra.numOutputs, r.extra.modelRestrains, r.extra.previousProblem, r.extra.datasetType,
      r.extra.datasetPath, r.extra.other⟩ : Extra) = r.extra := rfl
  rw [hhardware, hmemory] at hsame
  rw [completeExtra, hhardware, hmemory]
  exact hsame

/-- The predecessor is named completely or not at all. -/
def IsPaired (s : Submission) : Prop :=
  s.previousIteration.isSome = s.extra.previousProblem.isSome

instance (s : Submission) : Decidable s.IsPaired := inferInstanceAs (Decidable (_ = _))

theorem isPaired_of_valid {s : Submission} (h : s.fault? = none) : s.IsPaired := by
  unfold fault? at h
  unfold IsPaired
  split at h
  · cases h
  · cases hiteration : s.previousIteration <;> cases hproblem : s.extra.previousProblem <;>
      simp [hiteration, hproblem] at h ⊢

/-- The iteration is found again where a problem is named with it. -/
theorem IsPaired.previousIteration_eq {s : Submission} (h : s.IsPaired) :
    (s.extra.previousProblem.map fun _ => s.previousIteration.getD 0) = s.previousIteration := by
  unfold IsPaired at h
  cases hiteration : s.previousIteration with
  | none =>
      rw [hiteration] at h
      have hproblem : s.extra.previousProblem = none := by
        rw [← Option.not_isSome_iff_eq_none, ← h]
        exact Bool.false_ne_true
      rw [hproblem]
      rfl
  | some iteration =>
      rw [hiteration] at h
      obtain ⟨problem, hproblem⟩ := Option.isSome_iff_exists.mp h.symm
      rw [hproblem]
      rfl

theorem extraData_fill (s : Submission) (template : UserInput) (t : TaskId) (hardware : String)
    (memory : UInt32) : (s.fill template t hardware memory).extraData =
      (s.completeExtra hardware memory).encode := by
  rw [fill]

theorem ofUserInput_fill {s : Submission} {t : TaskId} {hardware : String} {memory : UInt32}
    {e : Extra} (h : Extra.decode? (s.completeExtra hardware memory).encode = some e) :
    ofUserInput (s.fill {} t hardware memory) = .ok {
      brief := s.brief
      previousIteration := e.previousProblem.map fun _ => s.previousIteration.getD 0
      extra := e } := by
  refine ofUserInput_eq_ok_iff.mpr ⟨e, ?_, rfl⟩
  rw [extraData_fill, Extra.decode_eq_ok_iff.mpr h]

/-- What was submitted is rebuilt with the hardware and the memory filled in, if the extra data are
read as they were written. -/
theorem IsPaired.rebuilt {s : Submission} (h : s.IsPaired) (t : TaskId) {hardware : String}
    {memory : UInt32} (hdecode : Extra.decode? (s.completeExtra hardware memory).encode =
      some (s.completeExtra hardware memory)) :
    ofUserInput (s.fill {} t hardware memory) =
      .ok { s with extra := s.completeExtra hardware memory } := by
  rw [ofUserInput_fill hdecode]
  show Except.ok (Submission.mk s.brief
    (s.extra.previousProblem.map fun _ => s.previousIteration.getD 0) _) = _
  rw [h.previousIteration_eq]

theorem rebuilt_of_readable {s : Submission} (hvalid : s.fault? = none)
    (hreadable : s.extra.IsReadable) (hnumbers : s.extra.NumbersReadBack) (t : TaskId)
    (hardware : String) (memory : UInt32) :
    ofUserInput (s.fill {} t hardware memory) =
      .ok { s with extra := s.completeExtra hardware memory } := by
  have hreadable : (s.completeExtra hardware memory).IsReadable :=
    Extra.Within.of_other_eq hreadable rfl
  exact (isPaired_of_valid hvalid).rebuilt t
    (Extra.decode?_encode_of_readsBack hreadable hnumbers)

/-- Where a published input can be rebuilt, nothing is left to fill in. -/
theorem settled_of_rebuilt {s r : Submission} {t : TaskId} {hardware : String} {memory : UInt32}
    (h : ofUserInput (s.fill {} t hardware memory) = .ok r) (hnumbers : r.extra.NumbersReadBack) :
    r.Settled := by
  obtain ⟨e, hdecode, hr⟩ := ofUserInput_eq_ok_iff.mp h
  rw [extraData_fill, Extra.decode_eq_ok_iff] at hdecode
  have he : r.extra = e := congrArg extra hr
  rw [← he] at hdecode
  have hhardware : (s.completeExtra hardware memory).hardwareRequired =
      some (s.extra.hardwareRequired.getD hardware) := by rw [completeExtra]
  have hmemory : (s.completeExtra hardware memory).maxMemoryFootprint =
      some (s.extra.maxMemoryFootprint.getD memory) := by rw [completeExtra]
  obtain ⟨hhardware, hmemory⟩ := Extra.required_of_decode?_encode hhardware hmemory hdecode
  exact {
    readable := Extra.isReadable_of_decode? hdecode
    numbers := hnumbers
    hardware := ⟨_, hhardware⟩
    memory := ⟨_, hmemory⟩ }

/-- A settled submission is rebuilt as it is. -/
theorem Settled.rebuilt {r : Submission} (h : r.Settled) (hvalid : r.fault? = none) (t : TaskId)
    (hardware : String) (memory : UInt32) :
    ofUserInput (r.fill {} t hardware memory) = .ok r := by
  rw [rebuilt_of_readable hvalid h.readable h.numbers, h.completeExtra_eq]

end Submission

/-! ## Chains of follow-ups -/

namespace Orchestrator

open Submission

variable {o : Orchestrator} {s : Submission} {a : Arrival} {first t next : TaskId}
  {u₀ u v : UserInput}

/-- A submission is answered with a task, for which this input is published. -/
structure Publishes (o : Orchestrator) (s : Submission) (t : TaskId) (u : UserInput) : Prop where
  answer : (o.submit s).1 = .ok t
  input : (o.submit s).2.hub.inputs.get? t = some u

/-- The hub holds an input for a task, an output of which arrives. Handling it publishes the next
task with its input. -/
structure Extends (o : Orchestrator) (a : Arrival) (t : TaskId) (u : UserInput) (next : TaskId)
    (v : UserInput) : Prop where
  task : a.task = some t
  input : o.hub.inputs.get? t = some u
  published : (o.handle (.newOutput a)).hub.published = o.hub.published ++ [next]
  stored : (o.handle (.newOutput a)).hub.inputs.get? next = some v

/-- The tasks of a chain with their inputs. Each follows the one before in whatever state the
orchestrator is when the output arrives. -/
inductive Leads (first : TaskId) (u₀ : UserInput) : TaskId → UserInput → Prop
  | start : Leads first u₀ first u₀
  | extend {o : Orchestrator} {a : Arrival} {t next : TaskId} {u v : UserInput}
      (h : Leads first u₀ t u) (hextends : o.Extends a t u next v) : Leads first u₀ next v

/-- What is published for a submission is the submission, written over a template. -/
theorem Publishes.input_eq (h : o.Publishes s t u) :
    s.fault? = none ∧ u = s.fill {} t o.settings.hardware o.settings.memory := by
  obtain ⟨hanswer, hinput⟩ := h
  have hsubmits := o.submits s
  generalize o.submit s = submitted at hsubmits hanswer hinput
  obtain ⟨outcome, o'⟩ := submitted
  cases hsubmits with
  | refused => cases hanswer
  | rejected => cases hanswer
  | accepted hvalid _ _ _ hhub =>
      cases hanswer
      rw [hhub] at hinput
      have hstored : (some (o.fill s {} t) : Option UserInput) = some u := by
        rw [← hinput]
        exact (Table.get?_insert_self _ _ _).symm
      exact ⟨hvalid, (Option.some.inj hstored).symm⟩

/-- Where one task more is published after a carbon footprint, a continuation was submitted. -/
theorem publishes_of_continueChain {output : Output}
    (hpublished : (o.continueChain t output).hub.published = o.hub.published ++ [next])
    (hinput : (o.continueChain t output).hub.inputs.get? next = some v) :
    ∃ s, o.nextSubmission? t output = .ok (some s) ∧ o.Publishes s next v := by
  by_cases hsome : ∃ s, o.nextSubmission? t output = .ok (some s)
  · obtain ⟨s, hs⟩ := hsome
    rw [hub_continueChain_of_submission hs] at hpublished hinput
    -- what is published is what the submission is answered with
    rw [published_submit, List.append_right_inj] at hpublished
    refine ⟨s, hs, ?_, hinput⟩
    cases hanswer : (o.submit s).1 with
    | error e =>
        rw [hanswer] at hpublished
        cases hpublished
    | ok t' =>
        rw [hanswer] at hpublished
        cases hpublished
        rfl
  · rw [hub_continueChain_of_none fun s hs => hsome ⟨s, hs⟩] at hpublished
    exact absurd (List.self_eq_append_right.mp hpublished) (List.cons_ne_nil _ _)

/-- **What extends a chain** is a carbon footprint that asks for more. The task that follows is
published for what is rebuilt from the input. -/
theorem Extends.publishes (h : o.Extends a t u next v) :
    a.worker = .carbonFootprint ∧ ∃ r e n, ofUserInput u = .ok r ∧ a.output.extra = .ok e ∧
      e.numOutputs = some n ∧ 1 < n ∧
      ∃ o' : Orchestrator, o'.Publishes (r.continuing t (n - 1) e.modelRestrains) next v := by
  have hpublished := h.published
  have hstored := h.stored
  rw [handle, onOutput, h.task] at hpublished hstored
  dsimp only at hpublished hstored
  -- the chain goes on from the hub as it was before the result was registered
  have hhub : ((o.registerResult t a.worker).note (.outputReceived a.worker t)).hub = o.hub :=
    hub_registerResult t a.worker
  generalize (o.registerResult t a.worker).note (.outputReceived a.worker t) = registered
    at hhub hpublished hstored
  by_cases hcloses : o.closesIteration a.worker t = true
  · rw [if_pos hcloses] at hpublished hstored
    rw [← hhub] at hpublished
    obtain ⟨s, hs, hpublishes⟩ := publishes_of_continueChain hpublished hstored
    obtain ⟨e, n, w, r, he, hn, hlt, hw, hr, rfl⟩ := nextSubmission?_eq_some_iff.mp hs
    rw [hhub, h.input] at hw
    cases hw
    have hworker : a.worker = .carbonFootprint :=
      of_decide_eq_true (Bool.and_eq_true_iff.mp hcloses).1
    exact ⟨hworker, r, e, n, hr, he, hn, hlt, registered, hpublishes⟩
  · rw [if_neg hcloses, hhub] at hpublished
    exact absurd (List.self_eq_append_right.mp hpublished) (List.cons_ne_nil _ _)

/-- What was submitted first, and a later iteration of its chain: either can be rebuilt if the other
can. -/
structure Descends (u₀ u : UserInput) : Prop where
  forth : ∀ r₀, ofUserInput u₀ = .ok r₀ → ∃ r, ofUserInput u = .ok r ∧ r.Settled ∧ r₀.Carries r
  back : ∀ r, ofUserInput u = .ok r → ∃ r₀, ofUserInput u₀ = .ok r₀

theorem Descends.settled (h : Descends u₀ u) {r : Submission} (hr : ofUserInput u = .ok r) :
    r.Settled := by
  obtain ⟨r₀, hr₀⟩ := h.back r hr
  obtain ⟨r', hr', hsettled, -⟩ := h.forth r₀ hr₀
  cases hr.symm.trans hr'
  exact hsettled

/-- The first input of a chain. -/
theorem Publishes.descends (h : o.Publishes s t u)
    (hnumbers : ∀ r, ofUserInput u = .ok r → r.extra.NumbersReadBack) : Descends u u where
  forth r hr := by
    obtain ⟨-, rfl⟩ := h.input_eq
    exact ⟨r, hr, settled_of_rebuilt hr (hnumbers r hr), .refl r⟩
  back r hr := ⟨r, hr⟩

/-- The task that follows is rebuilt as it was submitted. -/
theorem Publishes.rebuilt_continuing {r : Submission} {remaining : UInt32} {excluded : List String}
    (h : o.Publishes (r.continuing t remaining excluded) next v) (hr : r.Settled) :
    ofUserInput v = .ok (r.continuing t remaining excluded) := by
  obtain ⟨hvalid, rfl⟩ := h.input_eq
  exact (hr.continuing t remaining excluded).rebuilt hvalid _ _ _

theorem Descends.extend (h : Descends u₀ u) (hextends : o.Extends a t u next v) :
    Descends u₀ v := by
  obtain ⟨-, r, e, n, hr, -, -, -, o', hpublishes⟩ := hextends.publishes
  have hsettled := h.settled hr
  have hv := hpublishes.rebuilt_continuing hsettled
  refine ⟨fun r₀ hr₀ => ?_, fun _ _ => h.back r hr⟩
  obtain ⟨r', hr', -, hcarries⟩ := h.forth r₀ hr₀
  cases hr.symm.trans hr'
  exact ⟨_, hv, hsettled.continuing t _ _, hcarries.trans (r.carries_continuing t _ _)⟩

/-- Along a chain everything descends from the first input. -/
theorem Leads.descends (h : Leads first u₀ t u) (hfirst : Descends u₀ u₀) : Descends u₀ u := by
  -- nothing is known of the states in which the outputs arrive, nor has it to be
  induction h with
  | start => exact hfirst
  | extend _ hextends ih => exact ih.extend hextends

/-- **Nothing is lost along a chain.** Let the numbers in the extra data of the first input read
back. What is rebuilt after each follow-up is what was rebuilt before it, with the predecessor, the
number of outputs and the excluded models changed. So each iteration carries what the first input
holds; and that is what was submitted, with the hardware and the memory filled in. -/
theorem chain_fidelity (hfirst : o.Publishes s first u₀)
    (hnumbers : ∀ r, ofUserInput u₀ = .ok r → r.extra.NumbersReadBack)
    (hchain : Leads first u₀ t u) :
    (∀ (o' : Orchestrator) (a : Arrival) (next : TaskId) (v : UserInput),
      o'.Extends a t u next v → ∃ r e n, ofUserInput u = .ok r ∧
        a.worker = .carbonFootprint ∧ a.output.extra = .ok e ∧ e.numOutputs = some n ∧ 1 < n ∧
        ofUserInput v = .ok { r with
          previousIteration := some t.iteration
          extra := { r.extra with
            previousProblem := some t.problem
            numOutputs := some (n - 1)
            modelRestrains :=
              if e.modelRestrains = [] then r.extra.modelRestrains else e.modelRestrains } }) ∧
    (∀ r₀, ofUserInput u₀ = .ok r₀ → ∃ r, ofUserInput u = .ok r ∧ r₀.Carries r) ∧
    (s.extra.IsReadable → s.extra.NumbersReadBack → ofUserInput u₀ = .ok { s with
      extra := s.completeExtra o.settings.hardware o.settings.memory }) := by
  have hdescends := hchain.descends (hfirst.descends hnumbers)
  refine ⟨fun o' a next v hextends => ?_, fun r₀ hr₀ => ?_, fun hreadable hreads => ?_⟩
  · obtain ⟨hworker, r, e, n, hr, he, hn, hlt, o'', hpublishes⟩ := hextends.publishes
    refine ⟨r, e, n, hr, hworker, he, hn, hlt, ?_⟩
    rw [hpublishes.rebuilt_continuing (hdescends.settled hr)]
    simp only [continuing, List.isEmpty_iff]
  · obtain ⟨r, hr, -, hcarries⟩ := hdescends.forth r₀ hr₀
    exact ⟨r, hr, hcarries⟩
  · obtain ⟨hvalid, rfl⟩ := hfirst.input_eq
    exact rebuilt_of_readable hvalid hreadable hreads first _ _

/-- Three outputs are asked for. -/
def threefold : Submission where
  brief := { shortDescription := "count the cells", minimumSamples := 5 }
  extra := { goal := some "few false alarms", numOutputs := some 3 }

/-- A carbon footprint of the first task. Its extra data name a goal and a hardware of their own. -/
def diverting : Arrival where
  worker := .carbonFootprint
  task := some ⟨1, 0⟩
  output := .carbonFootprint {
    task := some ⟨1, 0⟩
    extraData := Extra.encode {
      numOutputs := some 2, hardwareRequired := some "gpu", goal := some "speed",
      modelRestrains := ["resnet"] } }

/-- The second iteration has the goal of the first and the hardware that was filled in there. -/
theorem chain_fidelity_threefold :
    let o : Orchestrator := .new { hardware := "cpu" } {}
    ∃ u₀ u r, o.Publishes threefold ⟨1, 0⟩ u₀ ∧ Leads ⟨1, 0⟩ u₀ ⟨1, 1⟩ u ∧
      ofUserInput u = .ok r ∧ r.brief = threefold.brief ∧
      r.extra.goal = threefold.extra.goal ∧ r.extra.hardwareRequired = some "cpu" := by
  intro o
  have hfirst : o.Publishes threefold ⟨1, 0⟩ (o.fill threefold {} ⟨1, 0⟩) :=
    ⟨by decide +kernel, by decide +kernel⟩
  have hreadable : threefold.extra.IsReadable := ⟨fun _ h => (List.not_mem_nil h).elim, trivial⟩
  have hreads : threefold.extra.NumbersReadBack := ⟨0, trivial⟩
  have hrebuilt := rebuilt_of_readable (s := threefold) (by decide +kernel) hreadable hreads ⟨1, 0⟩
    o.settings.hardware o.settings.memory
  have hnumbers (r : Submission) (hr : ofUserInput (o.fill threefold {} ⟨1, 0⟩) = .ok r) :
      r.extra.NumbersReadBack := by
    cases hrebuilt.symm.trans hr
    exact hreads
  have hhandled :
      let hub := ((o.submit threefold).2.handle (.newOutput diverting)).hub
      hub.published = [⟨1, 0⟩, ⟨1, 1⟩] ∧ (hub.inputs.get? ⟨1, 1⟩).isSome = true := by
    decide +kernel
  obtain ⟨v, hstored⟩ := Option.isSome_iff_exists.mp hhandled.2
  have hextends : (o.submit threefold).2.Extends diverting ⟨1, 0⟩ (o.fill threefold {} ⟨1, 0⟩)
      ⟨1, 1⟩ v := ⟨rfl, hfirst.input, hhandled.1, hstored⟩
  have hchain : Leads ⟨1, 0⟩ (o.fill threefold {} ⟨1, 0⟩) ⟨1, 1⟩ v := .extend .start hextends
  obtain ⟨-, hcarried, -⟩ := chain_fidelity hfirst hnumbers hchain
  obtain ⟨r, hr, hcarries⟩ := hcarried _ hrebuilt
  exact ⟨_, v, r, hfirst, hchain, hr, hcarries.brief, hcarries.goal, hcarries.hardwareRequired⟩

end Orchestrator

end WorkerPipeline
