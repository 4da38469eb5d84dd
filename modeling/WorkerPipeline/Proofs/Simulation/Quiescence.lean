import WorkerPipeline.Proofs.Json.Legible
import WorkerPipeline.Proofs.Message.Completion
import WorkerPipeline.Proofs.Orchestrator.Fidelity
import WorkerPipeline.Proofs.Orchestrator.Surroundings
import WorkerPipeline.Proofs.Session.Batching
import WorkerPipeline.Proofs.Simulation.Settling

set_option autoImplicit false

/-! # Simulated workers come to rest

Whatever simulated workers do is a sequence of turns: an event is handled, jobs are begun or a job
is ended. No turn adds to the workload, and every job that is ended takes something from it: a
carbon footprint may lead to the jobs of one more task, but these were counted when it was produced
(`Turn.workload_add_le`). So every session comes to rest (`Live.settle`), and what no turn destroys
holds when all is quiet.
-/

namespace WorkerPipeline

-- Sums begin at the zero of the core library, whatever other instances are in scope.
attribute [local instance (high)] Zero.ofOfNat0

/-! ## Inputs that follow -/

theorem Submission.isLegible_of_ofUserInput {u : UserInput} {s : Submission}
    (h : ofUserInput u = .ok s) : s.extra.Within Number.IsLegible := by
  obtain ⟨e, he, rfl⟩ := ofUserInput_eq_ok_iff.mp h
  have hreadable : e.IsReadable := Extra.isReadable_of_decode? (Extra.decode_eq_ok_iff.mp he)
  exact hreadable.mono fun _ hn => hn.isLegible

/-- The extra data of the input that follows decode, since those that it is built from did. -/
theorem Submission.decode?_fill_continuing {s : Submission}
    (hlegible : s.extra.Within Number.IsLegible) (t : TaskId) (remaining : UInt32)
    (excluded : List String) (template : UserInput) (next : TaskId) (hardware : String)
    (memory : UInt32) :
    ∃ e, Extra.decode? ((s.continuing t remaining excluded).fill template next hardware
      memory).extraData = some e ∧ e.numOutputs = some remaining := by
  have hother : ((s.continuing t remaining excluded).completeExtra hardware memory).other =
      s.extra.other := rfl
  have hdecode := Extra.decode?_encode (hlegible.of_other_eq hother)
  rw [extraData_fill]
  exact ⟨_, hdecode, rfl⟩

/-- An output leads to another input: it is a carbon footprint that asks for more, and the input
asks for one output fewer. -/
structure Arrival.LeadsTo (a : Arrival) (u : UserInput) : Prop where
  worker : a.worker = .carbonFootprint
  extra : ∃ carbon e n, Extra.decode? a.output.extraData = some carbon ∧
    carbon.numOutputs = some n ∧ 1 < n ∧ Extra.decode? u.extraData = some e ∧
    e.numOutputs = some (n - 1)

namespace Orchestrator

variable {o : Orchestrator}

/-! ## Jobs that come of an event -/

theorem Allocates.jobs {s : Submission} {t : TaskId} {hub : Hub} (h : o.Allocates s t hub) :
    hub.jobs = o.hub.jobs := by
  cases h <;> rfl

theorem jobs_submit (o : Orchestrator) (s : Submission) :
    (o.submit s).2.hub.jobs = o.hub.jobs ∨ ∃ next,
      (o.submit s).2.hub.jobs = o.hub.jobs ++ Hub.jobsFor next (o.fill s {} next) := by
  have hsubmits := o.submits s
  generalize o.submit s = submitted at hsubmits ⊢
  obtain ⟨outcome, o'⟩ := submitted
  cases hsubmits with
  | refused _ hhub => exact .inl (congrArg Hub.jobs hhub)
  | rejected _ halloc => exact .inl halloc.jobs
  | @accepted t hub _ _ halloc _ _ hhub =>
      have hjobs : o'.hub.jobs = if hub.simulated then
          hub.jobs ++ Hub.jobsFor t (o.fill s {} t) else hub.jobs := congrArg Hub.jobs hhub
      rw [hjobs, halloc.jobs]
      split
      · exact .inr ⟨t, rfl⟩
      · exact .inl rfl

theorem jobs_continueChain (o : Orchestrator) (t : TaskId) {a : Arrival}
    (hworker : a.worker = .carbonFootprint) :
    (o.continueChain t a.output).hub.jobs = o.hub.jobs ∨ ∃ next u, a.LeadsTo u ∧
      (o.continueChain t a.output).hub.jobs = o.hub.jobs ++ Hub.jobsFor next u := by
  by_cases hsome : ∃ s, o.nextSubmission? t a.output = .ok (some s)
  · obtain ⟨s, hs⟩ := hsome
    obtain ⟨carbon, n, u, s₀, hcarbon, hn, hlt, -, hs₀, rfl⟩ := nextSubmission?_eq_some_iff.mp hs
    rw [hub_continueChain_of_submission hs]
    refine (o.jobs_submit _).imp_right fun ⟨next, hjobs⟩ => ⟨next, _, ⟨hworker, ?_⟩, hjobs⟩
    obtain ⟨e, he, hremaining⟩ := Submission.decode?_fill_continuing
      (Submission.isLegible_of_ofUserInput hs₀) t (n - 1) carbon.modelRestrains {} next
      o.settings.hardware o.settings.memory
    exact ⟨carbon, e, n, Extra.decode_eq_ok_iff.mp hcarbon, hn, hlt, he, hremaining⟩
  · rw [hub_continueChain_of_none fun s hs => hsome ⟨s, hs⟩]
    exact .inl rfl

theorem jobs_onOutput (o : Orchestrator) (a : Arrival) :
    (o.onOutput a).hub.jobs = o.hub.jobs ∨ ∃ next u, a.LeadsTo u ∧
      (o.onOutput a).hub.jobs = o.hub.jobs ++ Hub.jobsFor next u := by
  unfold onOutput
  cases a.task with
  | none => exact .inl rfl
  | some t =>
      dsimp only
      have hhub : ((o.registerResult t a.worker).note (.outputReceived a.worker t)).hub = o.hub :=
        hub_registerResult t a.worker
      generalize (o.registerResult t a.worker).note (.outputReceived a.worker t) = registered
        at hhub
      rw [← hhub]
      cases hcloses : o.closesIteration a.worker t with
      | false => exact .inl rfl
      | true =>
          have hworker : a.worker = .carbonFootprint :=
            of_decide_eq_true (Bool.and_eq_true_iff.mp hcloses).1
          exact registered.jobs_continueChain t hworker

/-- **An event** brings the jobs of one task that its output leads to, or none. -/
theorem jobs_handle (o : Orchestrator) (e : Event) :
    (o.handle e).hub.jobs = o.hub.jobs ∨ ∃ a next u, e = .newOutput a ∧ a.LeadsTo u ∧
      (o.handle e).hub.jobs = o.hub.jobs ++ Hub.jobsFor next u := by
  cases e with
  | statusChanged c => exact .inl rfl
  | newOutput a =>
      exact (o.jobs_onOutput a).imp_right fun ⟨next, u, hleads, hjobs⟩ =>
        ⟨a, next, u, rfl, hleads, hjobs⟩

/-! ## The end of a job -/

/-- Ending a job without a product reports an error. -/
theorem finishJob_of_error (chance : Chance) {j : Job} {fault : Error}
    (hlistening : o.hub.channel.closed = false)
    (houtput : Simulation.output (chance.readings j) j.worker j.task j.input = .error fault) :
    ∃ journal, o.finishJob chance j =
      { o with
        hub := { o.hub with
          channel := { o.hub.channel with
            events := o.hub.channel.events ++ [.statusChanged ⟨j.worker, .error⟩] } }
        journal } := by
  unfold finishJob
  simp only [houtput, Hub.tryReport, Hub.reportStatus, Hub.announce, hlistening,
    Bool.false_eq_true, if_false]
  exact ⟨_, rfl⟩

end Orchestrator

/-- A worker answers with a product, or it fails; a tracked worker fails only where the extra data
do not decode. -/
theorem Simulation.output_cases (readings : Readings) (w : Worker) (t : TaskId) (u : UserInput) :
    (∃ e o, Extra.decode? u.extraData = some e ∧ product? readings w t u e = some o ∧
      output readings w t u = .ok o) ∨
    ∃ fault, output readings w t u = .error fault ∧
      (w.isTracked = true → Extra.decode? u.extraData = none) := by
  unfold output
  cases hdecode : Extra.decode? u.extraData with
  | none =>
      rw [Extra.decode, hdecode]
      exact .inr ⟨_, rfl, fun _ => rfl⟩
  | some e =>
      rw [Extra.decode_eq_ok_iff.mpr hdecode]
      dsimp only
      have htracked := product?_isSome readings w t u e
      cases hproduct : product? readings w t u e with
      | some o => exact .inl ⟨e, o, rfl, hproduct, rfl⟩
      | none =>
          rw [hproduct] at htracked
          refine .inr ⟨_, rfl, fun h => ?_⟩
          rw [h] at htracked
          cases htracked

/-! ## The workload -/

theorem Job.workload_pos (j : Job) : 1 ≤ j.workload := by
  unfold workload
  split
  · exact Nat.le_add_right 1 _
  · exact Nat.le_refl 1

/-- The workload of lists of jobs and events. -/
def workload (jobs : List Job) (events : List Event) : Nat :=
  (jobs.map Job.workload).sum + (events.map Event.workload).sum

theorem workload_cons (j : Job) (jobs : List Job) (events : List Event) :
    workload (j :: jobs) events = j.workload + workload jobs events := by
  rw [workload, workload, List.map_cons, List.sum_cons, Nat.add_assoc]

theorem length_le_workload (jobs : List Job) (events : List Event) :
    jobs.length ≤ workload jobs events := by
  induction jobs with
  | nil => exact Nat.zero_le _
  | cons j jobs ih =>
      have hpos := j.workload_pos
      rw [List.length_cons, workload_cons]
      omega

/-- When jobs are due does not matter. -/
theorem workload_of_perm {jobs jobs' : List Job} (events : List Event)
    (h : (jobs'.map Job.order).Perm (jobs.map Job.order)) :
    workload jobs' events = workload jobs events := by
  have hmap (jobs : List Job) : jobs.map Job.workload =
      (jobs.map Job.order).map fun e => Job.workload ⟨e.1, e.2.1, e.2.2, none⟩ := by
    rw [List.map_map]
    rfl
  rw [workload, workload, hmap, hmap, (h.map _).sum_nat]

theorem workload_append_events (jobs : List Job) (events events' : List Event) :
    workload jobs (events ++ events') =
      workload jobs events + (events'.map Event.workload).sum := by
  rw [workload, workload, List.map_append, List.sum_append_nat, Nat.add_assoc]

/-- Statuses lead to no jobs. -/
theorem workload_reports (jobs : List Job) (status : WorkerStatus) :
    ((jobs.map fun j => Event.statusChanged ⟨j.worker, status⟩).map Event.workload).sum = 0 := by
  induction jobs with
  | nil => rfl
  | cons j jobs ih =>
      rw [List.map_cons, List.map_cons, List.sum_cons, ih]
      rfl

/-- The jobs that an output leads to were counted when it was produced. -/
theorem Arrival.LeadsTo.workload {a : Arrival} {u : UserInput} (h : a.LeadsTo u) (t : TaskId) :
    ((Hub.jobsFor t u).map Job.workload).sum ≤ (Event.newOutput a).workload := by
  obtain ⟨carbon, e, n, hcarbon, hn, hlt, he, hremaining⟩ := h.extra
  have hevent : (Event.newOutput a).workload = carbon.jobsToCome := by
    unfold Event.workload
    simp only [h.worker, hcarbon]
  have hless : (n - 1).toNat = n.toNat - 1 :=
    UInt32.toNat_sub_of_le _ _ (UInt32.le_of_lt hlt)
  have hmore : 1 < n.toNat := UInt32.lt_iff_toNat_lt.mp hlt
  rw [Session.workload_jobsFor he, hevent, Extra.jobsToCome, Extra.jobsToCome, hn, hremaining]
  simp only [Option.getD_some, hless]
  omega

/-- The product of a job leads to no more than the job did. -/
theorem Simulation.workload_product {readings : Readings} {j : Job} {e : Extra} {output : Output}
    (hdecode : Extra.decode? j.input.extraData = some e)
    (hproduct : product? readings j.worker j.task j.input e = some output) :
    (Event.newOutput ⟨j.worker, some j.task, output⟩).workload + 1 ≤ j.workload := by
  by_cases hcarbon : j.worker = .carbonFootprint
  · rw [hcarbon] at hproduct
    cases hproduct
    unfold Event.workload Job.workload
    simp only [hcarbon, hdecode, Output.extraData, decode?_carbonExtra]
    exact Nat.le_of_eq (Nat.add_comm _ _)
  · have hnone : (Event.newOutput ⟨j.worker, some j.task, output⟩).workload = 0 := by
      unfold Event.workload
      split
      · rename_i heq
        cases heq
        split
        · rename_i hworker _
          exact absurd hworker hcarbon
        · rfl
      · rfl
    rw [hnone]
    exact j.workload_pos

/-! ## Turns -/

namespace Orchestrator

/-- **A turn** of simulated workers and of the loop that they report to. The lists hold the events
that are still to be handled before and after it, and the number is that of the jobs it ends. -/
inductive Turn : Orchestrator → List Event → Nat → Orchestrator → List Event → Prop
  /-- What is handled is not what the channel holds, but what it is known to have held. -/
  | aside (o : Orchestrator) (pending events : List Event) (journal : List Notice) :
      Turn o pending 0
        { o with hub := { o.hub with channel := { o.hub.channel with events } }, journal } pending
  | handle (o : Orchestrator) (e : Event) (pending : List Event) :
      Turn o (e :: pending) 0 (o.handle e) pending
  | start {o : Orchestrator} (pending : List Event) {jobs new : List Job}
      (hperm : (jobs.map Job.order).Perm (o.hub.jobs.map Job.order)) (hnew : new ⊆ o.hub.jobs) :
      Turn o pending 0 { o with hub := { o.hub with jobs } }
        (pending ++ new.map fun j => .statusChanged ⟨j.worker, .running⟩)
  | deliver {o : Orchestrator} (pending : List Event) {j : Job} {others : List Job} {e : Extra}
      {readings : Readings} {output : Output} (hperm : o.hub.jobs.Perm (j :: others))
      (hdecode : Extra.decode? j.input.extraData = some e)
      (hproduct : Simulation.product? readings j.worker j.task j.input e = some output) :
      Turn o pending 1
        { o with hub := { o.hub with
            jobs := others
            outputs := o.hub.outputs.insert (j.worker, j.task) output } }
        (pending ++ [.newOutput ⟨j.worker, some j.task, output⟩, .statusChanged ⟨j.worker, .idle⟩])
  | fail {o : Orchestrator} (pending : List Event) {j : Job} {others : List Job}
      (hperm : o.hub.jobs.Perm (j :: others))
      (hdecode : j.worker.isTracked = true → Extra.decode? j.input.extraData = none) :
      Turn o pending 1 { o with hub := { o.hub with jobs := others } }
        (pending ++ [.statusChanged ⟨j.worker, .error⟩])

/-- Any number of turns. -/
inductive Turns (o : Orchestrator) (pending : List Event) : Nat → Orchestrator → List Event → Prop
  | refl : Turns o pending 0 o pending
  | tail {n k : Nat} {o' o'' : Orchestrator} {pending' pending'' : List Event}
      (h : Turns o pending n o' pending') (hlast : Turn o' pending' k o'' pending'') :
      Turns o pending (n + k) o'' pending''

variable {o o' o'' : Orchestrator} {pending pending' pending'' : List Event} {n k : Nat}

theorem Turn.turns (h : Turn o pending n o' pending') : o.Turns pending n o' pending' := by
  have hturns := Turns.tail .refl h
  rwa [Nat.zero_add] at hturns

theorem Turns.trans (h : o.Turns pending n o' pending') (h' : o'.Turns pending' k o'' pending'') :
    o.Turns pending (n + k) o'' pending'' := by
  induction h' with
  | refl => exact h
  | tail _ hlast ih => rw [← Nat.add_assoc]; exact ih.tail hlast

/-- What no turn destroys holds after all of them if it held before. -/
theorem Turns.preserves {P : Orchestrator → List Event → Prop}
    (hturn : ∀ {o pending n o' pending'}, Turn o pending n o' pending' → P o pending →
      P o' pending')
    (h : o.Turns pending n o' pending') (ho : P o pending) : P o' pending' := by
  induction h with
  | refl => exact ho
  | tail _ hlast ih => exact hturn hlast ih

/-- **A turn** takes the jobs that it ends from the workload, and adds nothing to it. -/
theorem Turn.workload_add_le (h : Turn o pending n o' pending') :
    workload o'.hub.jobs pending' + n ≤ workload o.hub.jobs pending := by
  cases h with
  | aside => exact Nat.le_refl _
  | handle e =>
      rcases o.jobs_handle e with hjobs | ⟨a, next, u, rfl, hleads, hjobs⟩
      · rw [hjobs, workload, workload, List.map_cons, List.sum_cons]
        omega
      · have hcounted := hleads.workload next
        rw [hjobs, workload, workload, List.map_append, List.sum_append_nat, List.map_cons,
          List.sum_cons]
        omega
  | start _ hperm =>
      rw [workload_append_events, workload_reports, workload_of_perm _ hperm]
      exact Nat.le_refl _
  | @deliver _ j others _ _ output hperm hdecode hproduct =>
      have hcounted := Simulation.workload_product hdecode hproduct
      rw [workload_append_events, workload_of_perm pending (hperm.map Job.order), workload_cons]
      show workload others pending +
        ((Event.newOutput ⟨j.worker, some j.task, output⟩).workload + (0 + 0)) + 1 ≤ _
      omega
  | @fail _ j others hperm =>
      have hpos := j.workload_pos
      rw [workload_append_events, workload_of_perm pending (hperm.map Job.order), workload_cons]
      show workload others pending + (0 + 0) + 1 ≤ _
      omega

theorem Turns.workload_add_le (h : o.Turns pending n o' pending') :
    workload o'.hub.jobs pending' + n ≤ workload o.hub.jobs pending := by
  induction h with
  | refl => exact Nat.le_refl _
  | tail _ hlast ih =>
      have hlast := hlast.workload_add_le
      omega

/-- To handle events takes a turn for each of them. -/
theorem turns_handleAll (o : Orchestrator) (events pending : List Event) :
    o.Turns (events ++ pending) 0 (o.handleAll events) pending := by
  induction events generalizing o with
  | nil => exact .refl
  | cons e events ih => exact (Turn.handle o e (events ++ pending)).turns.trans (ih (o.handle e))

end Orchestrator

/-! ## Sessions -/

namespace Session

variable {s : Session}

/-- The events that are still to be handled. -/
def pending (s : Session) : List Event := s.orchestrator.hub.channel.events

/-- From one session to another there are turns that end a number of jobs. -/
def Turns (s : Session) (n : Nat) (s' : Session) : Prop :=
  s.orchestrator.Turns s.pending n s'.orchestrator s'.pending

/-- A live session in which nothing is left to do. -/
structure Quiet (s : Session) : Prop extends Live s where
  jobs : s.orchestrator.hub.jobs = []
  pending : s.pending = []

theorem Live.pending_pump (h : s.Live) : s.pump.pending = [] := by
  rw [h.pump_eq]
  exact congrArg Channel.events s.start.orchestrator.hub_parts_drain.2

theorem Live.turns_pump (h : s.Live) : s.Turns 0 s.pump := by
  obtain ⟨-, journal, heq⟩ := s.pump_eq h.loop
  have hhandled := Orchestrator.turns_handleAll { s.orchestrator with
    hub := { s.orchestrator.hub with channel := { s.orchestrator.hub.channel with events := [] } }
    journal } s.pending []
  rw [List.append_nil] at hhandled
  rw [Turns, h.pending_pump, heq]
  exact (Orchestrator.Turn.aside s.orchestrator s.pending [] journal).turns.trans hhandled

/-- To begin jobs is a turn. -/
theorem Live.turns_beginJobs (h : s.Live) (chance : Chance) (now : Nat) :
    (s.withHub (s.orchestrator.hub.beginJobs chance now)).Live ∧
      s.Turns 0 (s.withHub (s.orchestrator.hub.beginJobs chance now)) := by
  obtain ⟨jobs, new, heq, hperm, hnew⟩ := Chain.beginJobs_eq chance now h.channel
  rw [heq]
  refine ⟨⟨h.loop, h.channel⟩, ?_⟩
  have hstart := Orchestrator.Turn.start s.pending hperm hnew
  exact hstart.turns.trans (Orchestrator.Turn.aside _ _ _ _).turns

/-- **A round** handles all that was announced and ends no job. -/
theorem Live.prepare (h : s.Live) (chance : Chance) :
    (s.prepare chance).Live ∧ (s.prepare chance).pending = [] ∧ s.Turns 0 (s.prepare chance) := by
  obtain ⟨hbegun, hturns⟩ := h.pump.turns_beginJobs chance s.pump.clock
  exact ⟨hbegun.pump, hbegun.pending_pump, (h.turns_pump.trans hturns).trans hbegun.turns_pump⟩

/-- To end a job is a turn. -/
theorem Live.finishJob (h : s.Live) (chance : Chance) {j : Job} {others : List Job}
    (hj : Job.earliest? s.orchestrator.hub.jobs = some (j, others)) :
    (s.finishJob chance j others).Live ∧ s.Turns 1 (s.finishJob chance j others) := by
  have hperm := Chain.perm_of_earliest? hj
  have horchestrator : (s.finishJob chance j others).orchestrator = Orchestrator.finishJob
      { s.orchestrator with hub := { s.orchestrator.hub with jobs := others } } chance j := rfl
  rcases Simulation.output_cases (chance.readings j) j.worker j.task j.input with
    ⟨e, output, hdecode, hproduct, houtput⟩ | ⟨fault, houtput, hdecode⟩
  · have heq := Chain.finishJob_of_output (o := { s.orchestrator with
      hub := { s.orchestrator.hub with jobs := others } }) chance h.channel houtput
      (Simulation.product?_eq_some hproduct).2
    rw [← horchestrator] at heq
    have hdeliver := Orchestrator.Turn.deliver s.pending hperm hdecode hproduct
    refine ⟨⟨h.loop, ?_⟩, ?_⟩
    · rw [heq]
      exact h.channel
    · rw [Turns, pending, pending, heq]
      exact hdeliver.turns.trans (Orchestrator.Turn.aside _ _ _ _).turns
  · obtain ⟨journal, heq⟩ := Orchestrator.finishJob_of_error (o := { s.orchestrator with
      hub := { s.orchestrator.hub with jobs := others } }) chance h.channel houtput
    rw [← horchestrator] at heq
    have hfail := Orchestrator.Turn.fail s.pending hperm hdecode
    refine ⟨⟨h.loop, ?_⟩, ?_⟩
    · rw [heq]
      exact h.channel
    · rw [Turns, pending, pending, heq]
      exact hfail.turns.trans (Orchestrator.Turn.aside _ _ _ _).turns

theorem Live.settleWithin (h : s.Live) (chance : Chance) (fuel : Nat)
    (hfuel : workload s.orchestrator.hub.jobs s.pending ≤ fuel) :
    (settleWithin chance fuel s).Quiet ∧ ∃ n, s.Turns n (settleWithin chance fuel s) := by
  induction fuel generalizing s with
  | zero =>
      obtain ⟨hlive, hpending, hturns⟩ := h.prepare chance
      -- no work was left, so no job is
      have hleft := hturns.workload_add_le
      have hlength := length_le_workload (s.prepare chance).orchestrator.hub.jobs
        (s.prepare chance).pending
      have hjobs : (s.prepare chance).orchestrator.hub.jobs = [] :=
        List.length_eq_zero_iff.mp (by omega)
      exact ⟨⟨hlive, hjobs, hpending⟩, 0, hturns⟩
  | succ fuel ih =>
      obtain ⟨hlive, hpending, hturns⟩ := h.prepare chance
      rw [Session.settleWithin]
      cases hj : Job.earliest? (s.prepare chance).orchestrator.hub.jobs with
      | none => exact ⟨⟨hlive, Chain.earliest?_eq_none.mp hj, hpending⟩, 0, hturns⟩
      | some r =>
          obtain ⟨hlive', hturn⟩ := hlive.finishJob chance hj
          have hturns' := hturns.trans hturn
          have hleft := hturns'.workload_add_le
          obtain ⟨hquiet, n, hrest⟩ := ih hlive' (by omega)
          exact ⟨hquiet, _, hturns'.trans hrest⟩

/-- **Every live session settles**, whatever its jobs and however long they take. -/
theorem Live.settle (h : s.Live) (chance : Chance) :
    (s.settle chance).Quiet ∧ ∃ n, s.Turns n (s.settle chance) :=
  h.settleWithin chance _ (Nat.le_refl _)

end Session

end WorkerPipeline
