import WorkerPipeline.Orchestrator.Event

set_option autoImplicit false

/-! # What the operations of the orchestrator change

Notices aside, registering a result changes the ledger alone, and a submission that is accepted
changes the ledger and the hub in one way: the task is registered under a reservation and its input
is published (`submit_fresh`, `submit_continuation`).
-/

namespace WorkerPipeline

/-- The hub with the input of a task published. -/
def Hub.withInput (h : Hub) (t : TaskId) (u : UserInput) : Hub :=
  { h with
    inputs := h.inputs.insert t u
    published := h.published ++ [t]
    jobs := if h.simulated then h.jobs ++ Hub.jobsFor t u else h.jobs }

/-- From one state of a hub to another nothing is published and no input stored. -/
structure Hub.Keeps (h h' : Hub) : Prop where
  published : h'.published = h.published
  inputs : h'.inputs = h.inputs

/-- From one state of a hub to another one task is published and its input stored. -/
structure Hub.Appends (h h' : Hub) (t : TaskId) : Prop where
  published : h'.published = h.published ++ [t]
  inputs : ∃ u, h'.inputs = h.inputs.insert t u

theorem Hub.Keeps.of_eq {h h' : Hub} (heq : h' = h) : h.Keeps h' :=
  ⟨congrArg Hub.published heq, congrArg Hub.inputs heq⟩

theorem Hub.Keeps.appends_withInput {h h' : Hub} (hkeeps : h.Keeps h') (t : TaskId)
    (u : UserInput) : h.Appends (h'.withInput t u) t where
  published := congrArg (· ++ [t]) hkeeps.published
  inputs := ⟨u, congrArg (Table.insert · t u) hkeeps.inputs⟩

/-- A tracked worker is asked for what was delivered in its name. -/
theorem Hub.fetch_of_isTracked (h : Hub) {w : Worker} (htracked : w.isTracked = true)
    (t : TaskId) : h.fetch w t = h.outputs.get? (w, t) := by
  cases w with
  | orchestrator | unknown => cases htracked
  | _ => rfl

namespace Orchestrator

variable {o : Orchestrator}

/-! ## Results -/

theorem hub_registerResult (t : TaskId) (w : Worker) : (o.registerResult t w).hub = o.hub := by
  unfold registerResult
  split <;> rfl

theorem settings_registerResult (t : TaskId) (w : Worker) :
    (o.registerResult t w).settings = o.settings := by
  unfold registerResult
  split <;> rfl

theorem ledger_registerResult (t : TaskId) (w : Worker) :
    (o.registerResult t w).ledger = o.ledger.registerResult t w := by
  unfold registerResult
  split <;> rfl

/-! ## Submissions -/

theorem settings_noteBase (base candidate : TaskId) :
    (o.noteBase base candidate).settings = o.settings := by
  unfold noteBase
  split <;> rfl

theorem ledger_noteBase (base candidate : TaskId) :
    (o.noteBase base candidate).ledger = o.ledger := by
  unfold noteBase
  split <;> rfl

theorem hub_noteBase (base candidate : TaskId) : (o.noteBase base candidate).hub = o.hub := by
  unfold noteBase
  split <;> rfl

theorem publish_eq_of_accepting (t : TaskId) (u : UserInput) (h : o.hub.rejecting = false) :
    o.publish t u = (.ok t,
      ({ o with ledger := o.ledger.reserve t, hub := o.hub.withInput t u }.registerTask t).note
        (.taskPublished t)) := by
  unfold publish Hub.publish
  rw [if_neg (by rw [h]; exact Bool.false_ne_true)]
  rfl

theorem publish_of_accepting (t : TaskId) (u : UserInput) (h : o.hub.rejecting = false) :
    ∃ o', o.publish t u = (.ok t, o') ∧ o'.settings = o.settings ∧
      o'.ledger = (o.ledger.reserve t).registerTask t ∧ o'.hub = o.hub.withInput t u :=
  ⟨_, publish_eq_of_accepting t u h, rfl, rfl, rfl⟩

theorem submit_of_allocate {s : Submission} {t : TaskId} {template : UserInput}
    {o' : Orchestrator} (hfault : s.fault? = none)
    (hallocate : o.allocate s = (.ok (t, template), o')) (haccepting : o'.hub.rejecting = false) :
    ∃ o'', o.submit s = (.ok t, o'') ∧ o''.settings = o'.settings ∧
      o''.ledger = (o'.ledger.reserve t).registerTask t ∧
      o''.hub = o'.hub.withInput t (o'.fill s {} t) := by
  obtain ⟨o'', hpublish, hsettings, hledger, hhub⟩ :=
    o'.publish_of_accepting t (o'.fill s template t) haccepting
  refine ⟨o'', ?_, hsettings, hledger, ?_⟩
  · unfold submit
    rw [hfault]
    simp only [hallocate, hpublish]
  · rw [hhub]
    rfl

/-- A submission that starts a problem. -/
theorem submit_fresh {s : Submission} (hfault : s.fault? = none) (hp : s.predecessor? = none)
    (haccepting : o.hub.rejecting = false) :
    ∃ o', o.submit s = (.ok (.first o.hub.nextProblem), o') ∧ o'.settings = o.settings ∧
      o'.ledger = (o.ledger.reserve (.first o.hub.nextProblem)).registerTask
        (.first o.hub.nextProblem) ∧
      o'.hub = (o.hub.allocateTask.2.2).withInput (.first o.hub.nextProblem)
        (o.fill s {} (.first o.hub.nextProblem)) := by
  have hallocate : o.allocate s = (.ok (o.hub.allocateTask.1, o.hub.allocateTask.2.1),
      { o with hub := o.hub.allocateTask.2.2 }) := by
    rw [allocate, hp]
  exact submit_of_allocate hfault hallocate haccepting

/-- A submission that continues a problem. -/
theorem submit_continuation {s : Submission} {candidate t : TaskId} (hfault : s.fault? = none)
    (hp : s.predecessor? = some candidate)
    (hnext : (o.ledger.base candidate).next? = some t)
    (hnew : o.hub.allocated.contains t = false) (haccepting : o.hub.rejecting = false) :
    ∃ o', o.submit s = (.ok t, o') ∧ o'.settings = o.settings ∧
      o'.ledger = (o.ledger.reserve t).registerTask t ∧
      o'.hub = Hub.withInput { o.hub with allocated := o.hub.allocated.insert t () } t
        (o.fill s {} t) := by
  have hiteration : o.hub.allocateIteration (o.ledger.base candidate) =
      .ok (t, Hub.templateFor t ((o.hub.inputs.get? (o.ledger.base candidate)).getD {}),
        { o.hub with allocated := o.hub.allocated.insert t () }) := by
    rw [Hub.allocateIteration, hnext]
    exact if_neg (by rw [hnew]; exact Bool.false_ne_true)
  have hallocate : o.allocate s =
      (.ok (t, Hub.templateFor t ((o.hub.inputs.get? (o.ledger.base candidate)).getD {})),
        { o.noteBase (o.ledger.base candidate) candidate with
          hub := { o.hub with allocated := o.hub.allocated.insert t () } }) := by
    rw [allocate, hp]
    simp only [hiteration]
  obtain ⟨o', hsubmit, hsettings, hledger, hhub⟩ :=
    submit_of_allocate hfault hallocate haccepting
  refine ⟨o', hsubmit, hsettings.trans (settings_noteBase _ _), ?_, ?_⟩
  · -- to note that another base was taken changes neither the ledger nor the settings
    rw [hledger]
    show ((o.noteBase _ candidate).ledger.reserve t).registerTask t = _
    rw [ledger_noteBase]
  · rw [hhub]
    show Hub.withInput _ t (s.fill {} t (o.noteBase _ candidate).settings.hardware
      (o.noteBase _ candidate).settings.memory) = _
    rw [settings_noteBase]
    rfl

/-- A continuation for which the hub has no task changes neither the ledger nor the hub. -/
theorem submit_of_fault {s : Submission} {candidate : TaskId} {fault : TransportFault}
    (hvalid : s.fault? = none) (hp : s.predecessor? = some candidate)
    (hfault : o.hub.allocateIteration (o.ledger.base candidate) = .error fault) :
    (o.submit s).1 = .error (.transportFailure fault) ∧ (o.submit s).2.ledger = o.ledger ∧
      (o.submit s).2.hub = o.hub := by
  have hallocate : o.allocate s =
      (.error fault, o.noteBase (o.ledger.base candidate) candidate) := by
    rw [allocate, hp]
    simp only [hfault]
  have hsubmit : o.submit s = (.error (.transportFailure fault),
      o.noteBase (o.ledger.base candidate) candidate) := by
    unfold submit
    rw [hvalid]
    simp only [hallocate]
  rw [hsubmit]
  exact ⟨rfl, ledger_noteBase _ _, hub_noteBase _ _⟩

theorem submit_usedUp {s : Submission} {candidate : TaskId} (hvalid : s.fault? = none)
    (hp : s.predecessor? = some candidate) (hnext : (o.ledger.base candidate).next? = none) :
    (o.submit s).1 =
        .error (.transportFailure (.iterationsUsedUp (o.ledger.base candidate).problem)) ∧
      (o.submit s).2.ledger = o.ledger ∧ (o.submit s).2.hub = o.hub := by
  refine submit_of_fault hvalid hp ?_
  rw [Hub.allocateIteration, hnext]

theorem submit_taken {s : Submission} {candidate t : TaskId} (hvalid : s.fault? = none)
    (hp : s.predecessor? = some candidate) (hnext : (o.ledger.base candidate).next? = some t)
    (htaken : o.hub.allocated.contains t = true) :
    (o.submit s).1 = .error (.transportFailure (.alreadyAllocated t)) ∧
      (o.submit s).2.ledger = o.ledger ∧ (o.submit s).2.hub = o.hub := by
  refine submit_of_fault hvalid hp ?_
  rw [Hub.allocateIteration, hnext]
  exact if_pos htaken

end Orchestrator

end WorkerPipeline
