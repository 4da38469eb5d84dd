import WorkerPipeline.Proofs.Simulation.Progress

set_option autoImplicit false

/-! # Running until all is quiet

A session in which one chain is in progress settles: every round handles what was announced, begins
new jobs and ends one job, and the number of jobs that are left bounds the number of rounds. When
nothing is left to do the chain is complete (`settle_complete`).
-/

namespace WorkerPipeline

-- Sums begin at the zero of the core library, whatever other instances are in scope.
attribute [local instance (high)] Zero.ofOfNat0

namespace Session

variable {c : Chain} {base : Orchestrator} {before : List TaskId} {k : Nat} {s : Session}

/-- The outputs that are announced on the channel. -/
def announced (s : Session) : List Arrival :=
  s.orchestrator.hub.channel.events.filterMap Event.arrival?

/-- A chain is in progress, and the event loop is not finished. -/
structure InProgress (c : Chain) (base : Orchestrator) (before : List TaskId) (k : Nat)
    (s : Session) : Prop where
  loop : s.loop ≠ .finished
  progress : c.Progress base before k s.orchestrator s.announced

/-! ## One round -/

theorem pump_eq (h : s.loop ≠ .finished) :
    s.pump.loop = .running ∧ ∃ journal, s.pump.orchestrator =
      Orchestrator.handleAll { s.orchestrator with
        hub := { s.orchestrator.hub with
          channel := { s.orchestrator.hub.channel with events := [] } }
        journal } s.orchestrator.hub.channel.events := by
  unfold pump start
  cases hloop : s.loop with
  | idle => exact ⟨rfl, _, rfl⟩
  | running => exact ⟨hloop, _, rfl⟩
  | finished => exact absurd hloop h

theorem InProgress.pump (hfresh : c.submission.IsFresh) (hlasts : c.submission.extra.Lasts)
    (hp : InProgress c base before k s) :
    ∃ k', InProgress c base before k' s.pump ∧ s.pump.orchestrator.hub.channel.events = [] ∧
      c.workLeft k' s.pump.orchestrator = c.workLeft k s.orchestrator := by
  obtain ⟨hloop, journal, heq⟩ := pump_eq hp.loop
  obtain ⟨k', hprogress, hchannel, hleft⟩ :=
    (hp.progress.withEvents [] journal).handleAll hfresh hlasts
  rw [← heq] at hprogress hchannel hleft
  have hempty : s.pump.orchestrator.hub.channel.events = [] := congrArg Channel.events hchannel
  refine ⟨k', ⟨?_, ?_⟩, hempty, hleft⟩
  · rw [hloop]
    exact nofun
  · rw [announced, hempty]
    exact hprogress

/-- **A round** takes all announcements from the channel and ends no job. -/
theorem InProgress.prepare (hfresh : c.submission.IsFresh) (hlasts : c.submission.extra.Lasts)
    (chance : Chance) (hp : InProgress c base before k s) :
    ∃ k', InProgress c base before k' (s.prepare chance) ∧
      (s.prepare chance).orchestrator.hub.channel.events = [] ∧
      c.workLeft k' (s.prepare chance).orchestrator = c.workLeft k s.orchestrator := by
  obtain ⟨k', hp', -, hleft⟩ := hp.pump hfresh hlasts
  obtain ⟨hprogress, hleft'⟩ := hp'.progress.beginJobs chance s.pump.clock
  have hbegun : InProgress c base before k'
      (s.pump.withHub (s.pump.orchestrator.hub.beginJobs chance s.pump.clock)) :=
    ⟨hp'.loop, hprogress⟩
  obtain ⟨k'', hp'', hempty, hleft''⟩ := hbegun.pump hfresh hlasts
  exact ⟨k'', hp'', hempty, hleft''.trans (hleft'.trans hleft)⟩

theorem InProgress.finishJob (hlasts : c.submission.extra.Lasts) (chance : Chance) {j : Job}
    {others : List Job} (hp : InProgress c base before k s)
    (hj : Job.earliest? s.orchestrator.hub.jobs = some (j, others)) :
    InProgress c base before k (s.finishJob chance j others) ∧
      c.workLeft k (s.finishJob chance j others).orchestrator + 1 = c.workLeft k s.orchestrator := by
  obtain ⟨o', heq, hprogress, hleft⟩ := hp.progress.finishJob hlasts chance hj
  have horchestrator : (s.finishJob chance j others).orchestrator = o' := heq
  rw [← horchestrator] at hprogress hleft
  exact ⟨⟨hp.loop, hprogress⟩, hleft⟩

/-! ## All rounds -/

/-- Nothing is left to do, and all iterations of the chain are done. -/
structure IsComplete (c : Chain) (base : Orchestrator) (before : List TaskId) (s : Session) :
    Prop where
  loop : s.loop ≠ .finished
  jobs : s.orchestrator.hub.jobs = []
  events : s.orchestrator.hub.channel.events = []
  running : c.Running base before (c.length - 1) s.orchestrator []

/-- Without jobs and announcements the chain has come to its end. -/
theorem InProgress.isComplete (hp : InProgress c base before k s)
    (hjobs : s.orchestrator.hub.jobs = []) (hevents : s.orchestrator.hub.channel.events = []) :
    IsComplete c base before s := by
  have hrunning : c.Running base before k s.orchestrator [] := by
    have h := hp.progress.toRunning
    rw [announced, hevents] at h
    exact h
  have htracked : Worker.carbonFootprint.isTracked = true := rfl
  -- the carbon footprint of the current iteration has arrived, so it is the last one
  have hcarbon := (hrunning.work.complete hjobs htracked (Nat.lt_succ_self k)).1
  have hend := hp.progress.caughtUp hcarbon
  refine ⟨hp.loop, hjobs, hevents, ?_⟩
  rw [show c.length - 1 = k by omega]
  exact hrunning

theorem InProgress.settleWithin (hfresh : c.submission.IsFresh)
    (hlasts : c.submission.extra.Lasts) (chance : Chance) (fuel : Nat)
    (hp : InProgress c base before k s) (hfuel : c.workLeft k s.orchestrator ≤ fuel) :
    IsComplete c base before (settleWithin chance fuel s) := by
  induction fuel generalizing k s with
  | zero =>
      obtain ⟨k', hp', hevents, hleft⟩ := hp.prepare hfresh hlasts chance
      -- no work was left, so no job is
      refine hp'.isComplete ?_ hevents
      have hnone : (s.prepare chance).orchestrator.hub.jobs.length = 0 := by
        unfold Chain.workLeft at hleft hfuel
        omega
      exact List.length_eq_zero_iff.mp hnone
  | succ fuel ih =>
      obtain ⟨k', hp', hevents, hleft⟩ := hp.prepare hfresh hlasts chance
      rw [Session.settleWithin]
      cases hj : Job.earliest? (s.prepare chance).orchestrator.hub.jobs with
      | none => exact hp'.isComplete (Chain.earliest?_eq_none.mp hj) hevents
      | some r =>
          obtain ⟨hp'', hleft'⟩ := hp'.finishJob hlasts chance hj
          exact ih hp'' (by omega)

/-- The jobs of a task stand for themselves and for those that its carbon footprint leads to. -/
theorem workload_jobsFor {u : UserInput} {e : Extra} (hdecode : Extra.decode? u.extraData = some e)
    (t : TaskId) : ((Hub.jobsFor t u).map Job.workload).sum = 6 + e.jobsToCome := by
  have hcarbon : (Job.mk .carbonFootprint t u none).workload = 1 + e.jobsToCome := by
    unfold Job.workload
    simp only [hdecode]
  show 1 + ((Job.mk .carbonFootprint t u none).workload + (1 + (1 + (1 + (1 + 0))))) = _
  rw [hcarbon]
  omega

/-- The jobs of the first iteration stand for all jobs of the chain. -/
theorem workload_of_first (hlasts : c.submission.extra.Lasts) {h : Hub}
    (hjobs : h.jobs = Hub.jobsFor (c.task 0) (c.input 0)) (hevents : h.channel.events = []) :
    h.workload = 6 * c.length := by
  have hcome : (c.extra 0).reread.jobsToCome = 6 * (c.length - 1) := by
    show 6 * ((c.submission.extra.numOutputs.getD 1).toNat - 1) = _
    unfold Chain.length Submission.outputCount
    omega
  have hpos := c.length_pos
  rw [Hub.workload, hjobs, hevents, workload_jobsFor (Chain.decode?_input hlasts 0), hcome]
  show 6 + 6 * (c.length - 1) + 0 = _
  omega

/-- **A session settles** after a submission, with the chain complete. -/
theorem InProgress.settle (hfresh : c.submission.IsFresh) (hlasts : c.submission.extra.Lasts)
    (chance : Chance) (hp : InProgress c base before 0 s)
    (hjobs : s.orchestrator.hub.jobs = Hub.jobsFor (c.task 0) (c.input 0))
    (hevents : s.orchestrator.hub.channel.events = []) :
    IsComplete c base before (s.settle chance) := by
  refine hp.settleWithin hfresh hlasts chance _ ?_
  have hpos := c.length_pos
  rw [workload_of_first hlasts hjobs hevents, Chain.workLeft, hjobs]
  show 6 + 6 * (c.length - (0 + 1)) ≤ _
  omega

end Session

end WorkerPipeline
