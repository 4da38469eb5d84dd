import WorkerPipeline.Proofs.Orchestrator.Effects
import WorkerPipeline.Proofs.Simulation.Work

set_option autoImplicit false

/-! # The progress of a chain

`Running` gathers what holds of the orchestrator while the chain of one submission is worked on;
`Progress` adds that the chain has not been forgotten: it is at its last iteration or still waits
for a carbon footprint. Every event that is handled and every job that is ended keeps `Progress`;
the only step that leads to the next iteration is the carbon footprint of the current one.
-/

namespace WorkerPipeline

namespace Chain

variable {c : Chain} {n k : Nat} {h h' : Hub} {before : List TaskId}

/-! ## The hub -/

/-- The hub after the first `n` iterations were published behind the earlier tasks. -/
structure HubAt (c : Chain) (before : List TaskId) (n : Nat) (h : Hub) : Prop where
  accepting : h.rejecting = false
  simulated : h.simulated = true
  listening : h.channel.closed = false
  published : h.published = before ++ (List.range n).map c.task
  inputs : ∀ i < n, h.inputs.get? (c.task i) = some (c.input i)
  unallocated : ∀ i, n ≤ i → i < UInt32.size → h.allocated.contains (c.task i) = false

/-- Nothing that belongs to another problem has changed. -/
structure HubFrame (c : Chain) (h h' : Hub) : Prop where
  nextProblem : h'.nextProblem = h.nextProblem
  allocated : ∀ t, t.problem ≠ c.problem → h'.allocated.get? t = h.allocated.get? t
  inputs : ∀ t, t.problem ≠ c.problem → h'.inputs.get? t = h.inputs.get? t
  outputs : ∀ w t, t.problem ≠ c.problem → h'.outputs.get? (w, t) = h.outputs.get? (w, t)

theorem HubFrame.refl (c : Chain) (h : Hub) : c.HubFrame h h :=
  ⟨rfl, fun _ _ => rfl, fun _ _ => rfl, fun _ _ _ => rfl⟩

theorem HubFrame.trans {h'' : Hub} (hf : c.HubFrame h h') (hf' : c.HubFrame h' h'') :
    c.HubFrame h h'' where
  nextProblem := hf'.nextProblem.trans hf.nextProblem
  allocated t ht := (hf'.allocated t ht).trans (hf.allocated t ht)
  inputs t ht := (hf'.inputs t ht).trans (hf.inputs t ht)
  outputs w t ht := (hf'.outputs w t ht).trans (hf.outputs w t ht)

/-- The hub with the next iteration allocated and published. -/
def nextHub (c : Chain) (n : Nat) (h : Hub) : Hub :=
  Hub.withInput { h with allocated := h.allocated.insert (c.task n) () } (c.task n) (c.input n)

theorem HubAt.publish (hh : c.HubAt before n h) (hn : n < UInt32.size) :
    c.HubAt before (n + 1) (c.nextHub n h) where
  accepting := hh.accepting
  simulated := hh.simulated
  listening := hh.listening
  published := by
    show h.published ++ [c.task n] = _
    rw [hh.published, List.range_succ, List.map_append, List.append_assoc]
    rfl
  inputs i hi := by
    show (h.inputs.insert (c.task n) (c.input n)).get? (c.task i) = _
    by_cases heq : i = n
    · rw [heq, Table.get?_insert_self]
    · rw [Table.get?_insert_of_ne fun htask => heq (c.task_inj (by omega) hn htask.symm)]
      exact hh.inputs i (by omega)
  unallocated i hi hsize := by
    have hne : c.task n ≠ c.task i := fun htask => by
      have := c.task_inj hn hsize htask
      omega
    show ((h.allocated.insert (c.task n) ()).get? (c.task i)).isSome = false
    rw [Table.get?_insert_of_ne hne]
    exact hh.unallocated i (by omega) hsize

theorem frame_nextHub (n : Nat) (h : Hub) : c.HubFrame h (c.nextHub n h) where
  nextProblem := rfl
  allocated _ ht := Table.get?_insert_of_ne (c.task_ne ht)
  inputs _ ht := Table.get?_insert_of_ne (c.task_ne ht)
  outputs _ _ _ := rfl

theorem jobs_nextHub (hh : c.HubAt before n h) :
    (c.nextHub n h).jobs = h.jobs ++ Hub.jobsFor (c.task n) (c.input n) :=
  if_pos hh.simulated

/-! ## The orchestrator -/

variable {base o o' : Orchestrator} {pending : List Arrival}

/-- Nothing that belongs to another problem has changed. -/
structure Frame (c : Chain) (o o' : Orchestrator) : Prop where
  settings : o'.settings = o.settings
  ledger : c.LedgerFrame o.ledger o'.ledger
  hub : c.HubFrame o.hub o'.hub

/-- The chain is at iteration `k`. The base is where the chain started. -/
structure Running (c : Chain) (base : Orchestrator) (before : List TaskId) (k : Nat)
    (o : Orchestrator) (pending : List Arrival) : Prop where
  hardware : o.settings.hardware = c.hardware
  memory : o.settings.memory = c.memory
  hub : c.HubAt before (k + 1) o.hub
  ledger : c.KnownTo k o.ledger
  work : c.WorkAt (k + 1) o.ledger o.hub pending
  frame : c.Frame base o

/-- The chain is at iteration `k`, and goes on if it has to. -/
structure Progress (c : Chain) (base : Orchestrator) (before : List TaskId) (k : Nat)
    (o : Orchestrator) (pending : List Arrival) : Prop
    extends c.Running base before k o pending where
  caughtUp : o.ledger.available (c.task k) .carbonFootprint = true → k + 1 = c.length

/-- Notices, statuses and counters do not matter. -/
theorem Running.congr (hr : c.Running base before k o pending)
    (hsettings : o'.settings = o.settings)
    (hledger : o'.ledger = o.ledger) (hhub : o'.hub = o.hub) :
    c.Running base before k o' pending where
  hardware := hsettings ▸ hr.hardware
  memory := hsettings ▸ hr.memory
  hub := hhub ▸ hr.hub
  ledger := hledger ▸ hr.ledger
  work := by rw [hledger, hhub]; exact hr.work
  frame := ⟨hsettings.trans hr.frame.settings, hledger ▸ hr.frame.ledger, hhub ▸ hr.frame.hub⟩

theorem Progress.congr (hp : c.Progress base before k o pending)
    (hsettings : o'.settings = o.settings) (hledger : o'.ledger = o.ledger)
    (hhub : o'.hub = o.hub) : c.Progress base before k o' pending where
  toRunning := hp.toRunning.congr hsettings hledger hhub
  caughtUp := hledger ▸ hp.caughtUp

/-! ## Registering a result -/

theorem Running.registerResult {a : Arrival} {i : Nat}
    (hr : c.Running base before k o (a :: pending)) (hi : i < k + 1)
    (htask : a.task = some (c.task i)) (htracked : a.worker.isTracked = true) :
    c.Running base before k (o.registerResult (c.task i) a.worker) pending where
  hardware := by rw [Orchestrator.settings_registerResult]; exact hr.hardware
  memory := by rw [Orchestrator.settings_registerResult]; exact hr.memory
  hub := by rw [Orchestrator.hub_registerResult]; exact hr.hub
  ledger := by
    rw [Orchestrator.ledger_registerResult]
    exact hr.ledger.registerResult (Nat.le_of_lt_succ hi) htracked
  work := by
    rw [Orchestrator.ledger_registerResult, Orchestrator.hub_registerResult]
    refine hr.work.register fun t w => ?_
    rw [hr.ledger.available_registerResult a.worker t w htracked]
    congr 1
    rw [decide_eq_decide, Arrival.subject, htask, Prod.mk.injEq, Option.some.injEq]
    exact and_comm
  frame := {
    settings := (Orchestrator.settings_registerResult _ _).trans hr.frame.settings
    ledger := by
      rw [Orchestrator.ledger_registerResult]
      exact hr.frame.ledger.trans (hr.ledger.frame_registerResult i a.worker)
    hub := by
      rw [Orchestrator.hub_registerResult]
      exact hr.frame.hub }

/-! ## The next iteration -/

theorem Running.next (hr : c.Running base before k o pending) (hk : k + 1 < c.length)
    (hcarbon : o.ledger.available (c.task k) .carbonFootprint = true)
    (hsettings : o'.settings = o.settings)
    (hledger : o'.ledger = (o.ledger.reserve (c.task (k + 1))).registerTask (c.task (k + 1)))
    (hhub : o'.hub = c.nextHub (k + 1) o.hub) : c.Progress base before (k + 1) o' pending := by
  have hlength := c.length_lt
  have hnew (w : Worker) : o'.ledger.available (c.task (k + 1)) w = false := by
    rw [hledger, hr.ledger.available_registerTask]
    exact hr.ledger.available_next hk w
  exact {
    hardware := hsettings ▸ hr.hardware
    memory := hsettings ▸ hr.memory
    hub := hhub ▸ hr.hub.publish (by omega)
    ledger := hledger ▸ hr.ledger.registerTask hk hcarbon
    work := by
      refine hr.work.publish (by omega) ?_ (hhub ▸ rfl) (fun i hi w => ?_) hnew
      · rw [hhub]
        exact jobs_nextHub hr.hub
      · rw [hledger]
        exact hr.ledger.available_registerTask (k + 1) (c.task i) w
    frame := {
      settings := hsettings.trans hr.frame.settings
      ledger := hledger ▸ hr.frame.ledger.trans (hr.ledger.frame_registerTask (k + 1))
      hub := hhub ▸ hr.frame.hub.trans (frame_nextHub (k + 1) o.hub) }
    caughtUp := by
      rw [hnew]
      exact nofun }

/-- What the carbon footprint of the current iteration leads to. -/
theorem nextSubmission?_of_product (hlasts : c.submission.extra.Lasts) (hk : k < c.length)
    (hinput : o.hub.inputs.get? (c.task k) = some (c.input k)) {output : Output}
    (hproduct : c.IsProduct k .carbonFootprint output) :
    o.nextSubmission? (c.task k) output =
      .ok (if k + 1 < c.length then some (c.continuation k) else none) := by
  have hlength := c.length_lt
  have hextra := hproduct.extra_carbonFootprint (by omega)
  have hmore : (c.carbonExtra k).requestsMore =
      decide (k + 1 < c.length) := by
    rw [← Extra.remainingOutputs?_isSome, c.remainingOutputs?_extra hk rfl]
    by_cases hnext : k + 1 < c.length
    · rw [if_pos hnext, c.outputsAt_succ hnext]
      simp [hnext]
    · simp [hnext]
  unfold Orchestrator.nextSubmission?
  simp only [hextra, hmore]
  by_cases hnext : k + 1 < c.length
  · have hfetch : o.hub.fetch .orchestrator (c.task k) = some (.userInput (c.input k)) := by
      rw [Hub.fetch, hinput]
      rfl
    simp only [hnext, decide_true, if_true, hfetch, followUp?_input hlasts hnext]
    rfl
  · simp [hnext]

/-- **The chain goes on** after the carbon footprint of the current iteration, if another one is
to come. -/
theorem Running.continueChain (hfresh : c.submission.IsFresh) (hlasts : c.submission.extra.Lasts)
    (hr : c.Running base before k o pending)
    (hcarbon : o.ledger.available (c.task k) .carbonFootprint = true) {output : Output}
    (hproduct : c.IsProduct k .carbonFootprint output) :
    ∃ k', c.Progress base before k' (o.continueChain (c.task k) output) pending ∧
      (o.continueChain (c.task k) output).hub.channel = o.hub.channel ∧
      (o.continueChain (c.task k) output).hub.jobs.length + 6 * (c.length - (k' + 1)) =
        o.hub.jobs.length + 6 * (c.length - (k + 1)) := by
  have hk := hr.ledger.lt_length
  have hlength := c.length_lt
  have hnext := nextSubmission?_of_product hlasts hk (hr.hub.inputs k (Nat.lt_succ_self k)) hproduct
  unfold Orchestrator.continueChain
  rw [hnext]
  by_cases hmore : k + 1 < c.length
  · -- the current task is the latest of the problem, so the next one comes right behind it
    have hbase : o.ledger.base (c.task k) = c.task k := by
      rw [Ledger.base, problem_task, hr.ledger.latest]
      exact if_neg (UInt32.lt_irrefl _)
    obtain ⟨o', hsubmit, hsettings, hledger, hhub⟩ := Orchestrator.submit_continuation
      (fault?_continuation hfresh k) (predecessor?_continuation k)
      (by rw [hbase]; exact c.next?_task (by omega))
      (hr.hub.unallocated (k + 1) (Nat.le_refl _) (by omega)) hr.hub.accepting
    have hfill : o.fill (c.continuation k) {} (c.task (k + 1)) = c.input (k + 1) := by
      rw [Orchestrator.fill, hr.hardware, hr.memory]
      exact fill_continuation k {}
    rw [hfill] at hhub
    have hprogress := hr.next hmore hcarbon hsettings hledger hhub
    simp only [if_pos hmore, hsubmit]
    refine ⟨k + 1, hprogress.congr rfl rfl rfl, ?_, ?_⟩
    · show o'.hub.channel = _
      rw [hhub]
      rfl
    · -- the six jobs that are new were counted as jobs to come
      show o'.hub.jobs.length + _ = _
      rw [hhub, show Hub.withInput _ _ _ = c.nextHub (k + 1) o.hub from rfl, jobs_nextHub hr.hub,
        List.length_append, show (Hub.jobsFor _ _).length = 6 from rfl]
      omega
  · rw [if_neg hmore]
    exact ⟨k, ⟨hr, fun _ => by omega⟩, rfl, rfl⟩

/-! ## Handling events -/

/-- The number of jobs that are still to be ended. -/
def workLeft (c : Chain) (k : Nat) (o : Orchestrator) : Nat :=
  o.hub.jobs.length + 6 * (c.length - (k + 1))

theorem Progress.onOutput (hfresh : c.submission.IsFresh) (hlasts : c.submission.extra.Lasts)
    {a : Arrival} (hp : c.Progress base before k o (a :: pending)) :
    ∃ k', c.Progress base before k' (o.onOutput a) pending ∧
      (o.onOutput a).hub.channel = o.hub.channel ∧
      c.workLeft k' (o.onOutput a) = c.workLeft k o := by
  obtain ⟨i, hi, htask, hproduct, htracked, hawaited⟩ := hp.work.awaited
  have hnew : o.ledger.isNew (c.task i) a.worker = true :=
    (hp.ledger.consistent.isNew_iff (c.task i) a.worker).mpr ⟨htracked, hawaited⟩
  have hr : c.Running base before k
      ((o.registerResult (c.task i) a.worker).note (.outputReceived a.worker (c.task i))) pending :=
    (hp.toRunning.registerResult hi htask htracked).congr rfl rfl rfl
  unfold Orchestrator.onOutput
  simp only [htask, Orchestrator.closesIteration, hnew, Bool.and_true]
  by_cases hw : a.worker = .carbonFootprint
  · -- only the current iteration still waits for its carbon footprint
    have hik : i = k := by
      rcases Nat.lt_or_ge i k with hlt | hge
      · rw [hw, hp.ledger.continued i hlt] at hawaited
        cases hawaited
      · omega
    subst hik
    have hcarbon : ((o.registerResult (c.task i) a.worker).note
        (.outputReceived a.worker (c.task i))).ledger.available (c.task i) .carbonFootprint =
          true := by
      show (o.registerResult (c.task i) a.worker).ledger.available _ _ = true
      rw [Orchestrator.ledger_registerResult,
        hp.ledger.available_registerResult a.worker _ _ htracked]
      simp [hw]
    rw [hw] at hproduct
    simp only [hw, decide_true, if_true] at hr hcarbon ⊢
    obtain ⟨k', hprogress, hchannel, hleft⟩ := hr.continueChain hfresh hlasts hcarbon hproduct
    refine ⟨k', hprogress, hchannel.trans ?_, hleft.trans ?_⟩
    · exact congrArg Hub.channel (Orchestrator.hub_registerResult _ _)
    · show (o.registerResult (c.task i) .carbonFootprint).hub.jobs.length + _ = _
      rw [Orchestrator.hub_registerResult]
      rfl
  · -- the other workers do not close an iteration
    have hledger : (o.registerResult (c.task i) a.worker).ledger.available (c.task k)
        .carbonFootprint = o.ledger.available (c.task k) .carbonFootprint := by
      rw [Orchestrator.ledger_registerResult,
        hp.ledger.available_registerResult a.worker _ _ htracked]
      simp [hw]
    simp only [hw, decide_false, Bool.false_eq_true, if_false]
    refine ⟨k, ⟨hr, fun hcarbon => hp.caughtUp (hledger.symm.trans hcarbon)⟩, ?_, ?_⟩
    · exact congrArg Hub.channel (Orchestrator.hub_registerResult _ _)
    · show (o.registerResult (c.task i) a.worker).hub.jobs.length + _ = _
      rw [Orchestrator.hub_registerResult]
      rfl

/-- **Handling all events** that were announced. -/
theorem Progress.handleAll (hfresh : c.submission.IsFresh) (hlasts : c.submission.extra.Lasts)
    {events : List Event} (hp : c.Progress base before k o (events.filterMap Event.arrival?)) :
    ∃ k', c.Progress base before k' (o.handleAll events) [] ∧
      (o.handleAll events).hub.channel = o.hub.channel ∧
      c.workLeft k' (o.handleAll events) = c.workLeft k o := by
  induction events generalizing k o with
  | nil => exact ⟨k, hp, rfl, rfl⟩
  | cons e events ih =>
      cases e with
      | statusChanged s => exact ih (hp.congr rfl rfl rfl)
      | newOutput a =>
          obtain ⟨k', hp', hchannel, hleft⟩ := Progress.onOutput hfresh hlasts hp
          obtain ⟨k'', hp'', hchannel', hleft'⟩ := ih hp'
          exact ⟨k'', hp'', hchannel'.trans hchannel, hleft'.trans hleft⟩

/-! ## Jobs -/

/-- Jobs, outputs and announcements are no matter of the published tasks. -/
theorem HubAt.of_work (hh : c.HubAt before n h) (jobs : List Job)
    (outputs : Table (Worker × TaskId) Output) (events : List Event) :
    c.HubAt before n
      { h with jobs, outputs, channel := { h.channel with events } } :=
  ⟨hh.accepting, hh.simulated, hh.listening, hh.published, hh.inputs, hh.unallocated⟩

/-- What is pending is not what the channel holds, but what it is known to have held. -/
theorem Progress.withEvents (hp : c.Progress base before k o pending) (events : List Event)
    (journal : List Notice) :
    c.Progress base before k
      { o with hub := { o.hub with channel := { o.hub.channel with events } }, journal } pending where
  hardware := hp.hardware
  memory := hp.memory
  hub := hp.hub.of_work o.hub.jobs o.hub.outputs events
  ledger := hp.ledger
  work := hp.work.of_perm (.refl _) rfl
  frame := ⟨hp.frame.settings, hp.frame.ledger, hp.frame.hub.nextProblem, hp.frame.hub.allocated,
    hp.frame.hub.inputs, hp.frame.hub.outputs⟩
  caughtUp := hp.caughtUp

theorem beginJob_eq (chance : Chance) (now : Nat) (hlistening : h.channel.closed = false)
    (j : Job) :
    h.beginJob chance now j =
      { h with
        jobs := h.jobs ++ [{ j with due := some (now + chance.delay j) }]
        channel := { h.channel with
          events := h.channel.events ++ [.statusChanged ⟨j.worker, .running⟩] } } := by
  unfold Hub.beginJob Hub.tryReport Hub.reportStatus Hub.announce
  simp only [hlistening, Bool.false_eq_true, if_false]

/-- Each job that is begun is reported to be running. -/
theorem foldl_beginJob_eq (chance : Chance) (now : Nat) (new : List Job)
    (hlistening : h.channel.closed = false) :
    ∃ jobs, new.foldl (Hub.beginJob chance now) h =
        { h with
          jobs
          channel := { h.channel with
            events := h.channel.events ++
              new.map fun j => .statusChanged ⟨j.worker, .running⟩ } } ∧
      (jobs.map Job.order).Perm ((h.jobs ++ new).map Job.order) := by
  induction new generalizing h with
  | nil => exact ⟨h.jobs, by simp, by rw [List.append_nil]⟩
  | cons j new ih =>
      obtain ⟨jobs, heq, hperm⟩ := ih
        (h := { h with
          jobs := h.jobs ++ [{ j with due := some (now + chance.delay j) }]
          channel := { h.channel with
            events := h.channel.events ++ [.statusChanged ⟨j.worker, .running⟩] } }) hlistening
      refine ⟨jobs, ?_, ?_⟩
      · rw [List.foldl_cons, beginJob_eq chance now hlistening, heq]
        simp
      · refine hperm.trans (List.Perm.of_eq ?_)
        simp [Job.order]

/-- Beginning jobs changes when they are due and adds reports of statuses to the channel. -/
theorem beginJobs_eq (chance : Chance) (now : Nat) (hlistening : h.channel.closed = false) :
    ∃ jobs new, h.beginJobs chance now =
        { h with
          jobs
          channel := { h.channel with
            events := h.channel.events ++
              new.map fun j => .statusChanged ⟨j.worker, .running⟩ } } ∧
      (jobs.map Job.order).Perm (h.jobs.map Job.order) ∧ new ⊆ h.jobs := by
  obtain ⟨jobs, heq, hperm⟩ := foldl_beginJob_eq chance now
    (h.jobs.partition fun j => j.due.isNone).1
    (h := { h with jobs := (h.jobs.partition fun j => j.due.isNone).2 }) hlistening
  refine ⟨jobs, _, heq, hperm.trans (List.Perm.map _ ?_), ?_⟩
  · rw [List.partition_eq_filter_filter]
    exact List.perm_append_comm.trans (List.filter_append_perm _ h.jobs)
  · rw [List.partition_eq_filter_filter]
    exact List.filter_sublist.subset

theorem Progress.beginJobs (chance : Chance) (now : Nat)
    (hp : c.Progress base before k o (o.hub.channel.events.filterMap Event.arrival?)) :
    c.Progress base before k { o with hub := o.hub.beginJobs chance now }
        ((o.hub.beginJobs chance now).channel.events.filterMap Event.arrival?) ∧
      c.workLeft k { o with hub := o.hub.beginJobs chance now } = c.workLeft k o := by
  obtain ⟨jobs, new, heq, hperm, -⟩ := beginJobs_eq chance now hp.hub.listening
  have harrivals : (o.hub.beginJobs chance now).channel.events.filterMap Event.arrival? =
      o.hub.channel.events.filterMap Event.arrival? := by
    have hreports : (new.map fun j => Event.statusChanged ⟨j.worker, .running⟩).filterMap
        Event.arrival? = [] := by
      rw [List.filterMap_eq_nil_iff]
      intro e he
      obtain ⟨j, -, rfl⟩ := List.mem_map.mp he
      rfl
    rw [heq]
    show (o.hub.channel.events ++ _).filterMap _ = _
    rw [List.filterMap_append, hreports, List.append_nil]
  rw [harrivals, heq]
  constructor
  · exact {
      hardware := hp.hardware
      memory := hp.memory
      hub := hp.hub.of_work jobs o.hub.outputs _
      ledger := hp.ledger
      work := hp.work.of_perm hperm rfl
      frame := ⟨hp.frame.settings, hp.frame.ledger,
        ⟨hp.frame.hub.nextProblem, hp.frame.hub.allocated, hp.frame.hub.inputs,
          hp.frame.hub.outputs⟩⟩
      caughtUp := hp.caughtUp }
  · show jobs.length + _ = _
    rw [workLeft, show jobs.length = o.hub.jobs.length by simpa using hperm.length_eq]

theorem earliest?_eq_none {jobs : List Job} : Job.earliest? jobs = none ↔ jobs = [] := by
  cases jobs with
  | nil => exact ⟨fun _ => rfl, fun _ => rfl⟩
  | cons j jobs =>
      rw [Job.earliest?]
      cases Job.earliest? jobs with
      | none => simp
      | some r =>
          simp only
          split <;> simp

/-- The earliest job and the others are all there are. -/
theorem perm_of_earliest? {jobs others : List Job} {j : Job}
    (h : Job.earliest? jobs = some (j, others)) : jobs.Perm (j :: others) := by
  induction jobs generalizing j others with
  | nil => cases h
  | cons i jobs ih =>
      rw [Job.earliest?] at h
      cases hrest : Job.earliest? jobs with
      | none =>
          rw [earliest?_eq_none.mp hrest] at h ⊢
          cases h
          exact .refl _
      | some r =>
          simp only [hrest] at h
          split at h
          · cases h
            exact .refl _
          · cases h
            exact ((ih hrest).cons i).trans (.swap _ i _)

/-- Ending a job stores and announces what the worker has produced. -/
theorem finishJob_of_output (chance : Chance) {j : Job} {output : Output}
    (hlistening : o.hub.channel.closed = false)
    (houtput : Simulation.output (chance.readings j) j.worker j.task j.input = .ok output)
    (htask : output.task = some j.task) :
    o.finishJob chance j =
      { o with hub := { o.hub with
          outputs := o.hub.outputs.insert (j.worker, j.task) output
          channel := { o.hub.channel with
            events := o.hub.channel.events ++
              [.newOutput ⟨j.worker, some j.task, output⟩, .statusChanged ⟨j.worker, .idle⟩] } } } := by
  have hstore : o.hub.store j.worker output =
      { o.hub with outputs := o.hub.outputs.insert (j.worker, j.task) output } := by
    rw [Hub.store, htask]
  have harrival : Hub.arrival j.worker output = .newOutput ⟨j.worker, some j.task, output⟩ := by
    rw [Hub.arrival, htask]
  unfold Orchestrator.finishJob Hub.deliverProduct Hub.deliver
  simp only [houtput, hstore, harrival, Hub.announce, Hub.tryReport, Hub.reportStatus, hlistening,
    Bool.false_eq_true, if_false, List.append_assoc]
  rfl

/-- Ending a job of the chain stores and announces a product. -/
theorem finishJob_eq (hlasts : c.submission.extra.Lasts) (chance : Chance) {j : Job} {i : Nat}
    (hlistening : o.hub.channel.closed = false) (htask : j.task = c.task i)
    (hinput : j.input = c.input i) (htracked : j.worker.isTracked = true) :
    ∃ output, c.IsProduct i j.worker output ∧ o.finishJob chance j =
      { o with hub := { o.hub with
          outputs := o.hub.outputs.insert (j.worker, j.task) output
          channel := { o.hub.channel with
            events := o.hub.channel.events ++
              [.newOutput ⟨j.worker, some j.task, output⟩, .statusChanged ⟨j.worker, .idle⟩] } } } := by
  have hsome := Simulation.product?_isSome (chance.readings j) j.worker (c.task i) (c.input i)
    (c.extra i).reread
  rw [htracked, Option.isSome_iff_exists] at hsome
  obtain ⟨output, hproduct⟩ := hsome
  have houtput : Simulation.output (chance.readings j) j.worker j.task j.input = .ok output := by
    have hdecode := Extra.decode_eq_ok_iff.mpr (decode?_input hlasts i)
    rw [htask, hinput, Simulation.output, hdecode]
    simp only [hproduct]
  have hnamed : output.task = some j.task := by
    rw [(Simulation.product?_eq_some hproduct).2, htask]
  exact ⟨output, ⟨_, hproduct⟩, finishJob_of_output chance hlistening houtput hnamed⟩

theorem Progress.finishJob (hlasts : c.submission.extra.Lasts) (chance : Chance) {j : Job}
    {others : List Job}
    (hp : c.Progress base before k o (o.hub.channel.events.filterMap Event.arrival?))
    (hj : Job.earliest? o.hub.jobs = some (j, others)) :
    ∃ o', Orchestrator.finishJob { o with hub := { o.hub with jobs := others } } chance j = o' ∧
      c.Progress base before k o' (o'.hub.channel.events.filterMap Event.arrival?) ∧
      c.workLeft k o' + 1 = c.workLeft k o := by
  have hlength := c.length_lt
  have hk := hp.ledger.lt_length
  have hperm := perm_of_earliest? hj
  have hmem : j ∈ o.hub.jobs := hperm.mem_iff.mpr List.mem_cons_self
  obtain ⟨i, hi, htask, hinput⟩ := hp.work.jobs j hmem
  have htracked : j.worker.isTracked = true := by
    have hsubject : (j.worker, some j.task) ∈ outstanding o.hub.jobs
        (o.hub.channel.events.filterMap Event.arrival?) :=
      List.mem_append_left _ (List.mem_map_of_mem hmem)
    exact ((hp.work.mem_outstanding j.worker j.task).mp hsubject).1
  obtain ⟨output, hproduct, heq⟩ := finishJob_eq (o := { o with hub := { o.hub with jobs := others } })
    hlasts chance hp.hub.listening htask hinput htracked
  refine ⟨_, heq, ?_, ?_⟩
  · simp only [List.filterMap_append]
    exact {
      hardware := hp.hardware
      memory := hp.memory
      hub := hp.hub.of_work others _ _
      ledger := hp.ledger
      work := hp.work.finish (by omega) hi hperm rfl htask hproduct
      frame := ⟨hp.frame.settings, hp.frame.ledger, hp.frame.hub.nextProblem,
        hp.frame.hub.allocated, hp.frame.hub.inputs, fun w t ht => by
          have hne : (j.worker, j.task) ≠ (w, t) := fun heq =>
            c.task_ne ht (htask.symm.trans (Prod.mk.inj heq).2)
          rw [Table.get?_insert_of_ne hne]
          exact hp.frame.hub.outputs w t ht⟩
      caughtUp := hp.caughtUp }
  · show others.length + _ + 1 = o.hub.jobs.length + _
    rw [hperm.length_eq, List.length_cons]
    omega

end Chain

end WorkerPipeline
