import WorkerPipeline.Proofs.Simulation.Settling

set_option autoImplicit false

/-! # One submission after the other

A session with simulated workers takes fresh submissions one after the other and runs until it is
quiet after each. Every submission then has its block of tasks, with the inputs and the results
that belong to them, and the ledger has complete records of the newest problems.
-/

namespace WorkerPipeline

/-- The problems of the submissions are numbered from the first one on. -/
def problemAt (start : UInt32) (j : Nat) : UInt32 := start + UInt32.ofNat j

/-- The tasks that a submission leads to. -/
def Submission.block (s : Submission) (problem : UInt32) : List TaskId :=
  (List.range s.outputCount).map fun i => ⟨problem, UInt32.ofNat i⟩

namespace Chain

variable {c d : Chain}

/-- The inputs and the outputs of all iterations are at the hub. -/
structure Served (c : Chain) (h : Hub) : Prop where
  inputs : ∀ i < c.length, h.inputs.get? (c.task i) = some (c.input i)
  outputs : ∀ w, w.isTracked = true → ∀ i < c.length,
    ∃ o, h.outputs.get? (w, c.task i) = some o ∧ c.IsProduct i w o

/-- The ledger has complete records of all iterations. -/
structure Kept (c : Chain) (l : Ledger) : Prop where
  latest : l.latest.get? c.problem = some (c.task (c.length - 1))
  recorded : ∀ t, t.problem = c.problem → ((l.record? t).isSome ↔ ∃ i < c.length, t = c.task i)
  available : ∀ w, w.isTracked = true → ∀ i < c.length, l.available (c.task i) w = true

/-- Another chain does not touch the inputs and outputs. -/
theorem Served.of_frame {h h' : Hub} (hs : c.Served h) (hf : d.HubFrame h h')
    (hne : c.problem ≠ d.problem) : c.Served h' where
  inputs i hi := (hf.inputs (c.task i) hne).trans (hs.inputs i hi)
  outputs w htracked i hi := by
    rw [hf.outputs w (c.task i) hne]
    exact hs.outputs w htracked i hi

/-- Only what the ledger knows of the problem matters. -/
theorem Kept.congr {l l' : Ledger} (hk : c.Kept l)
    (hlatest : l'.latest.get? c.problem = l.latest.get? c.problem)
    (hrecord : ∀ t, t.problem = c.problem → l'.record? t = l.record? t) : c.Kept l' where
  latest := hlatest.trans hk.latest
  recorded t ht := by
    rw [hrecord t ht]
    exact hk.recorded t ht
  available w htracked i hi := by
    rw [Ledger.available, hrecord (c.task i) rfl]
    exact hk.available w htracked i hi

/-- A chain that has come to its end is served and kept. -/
theorem Running.served {base o : Orchestrator} {before : List TaskId}
    (hr : c.Running base before (c.length - 1) o []) (hjobs : o.hub.jobs = []) :
    c.Served o.hub := by
  have hpos := c.length_pos
  exact {
    inputs := fun i hi => hr.hub.inputs i (by omega)
    outputs := fun w htracked i hi => (hr.work.complete hjobs htracked (by omega)).2 }

theorem Running.kept {base o : Orchestrator} {before : List TaskId}
    (hr : c.Running base before (c.length - 1) o []) (hjobs : o.hub.jobs = []) :
    c.Kept o.ledger := by
  have hpos := c.length_pos
  exact {
    latest := hr.ledger.latest
    recorded := by
      intro t ht
      rw [hr.ledger.recorded t ht]
      constructor
      · rintro ⟨i, hi, rfl⟩
        exact ⟨i, by omega, rfl⟩
      · rintro ⟨i, hi, rfl⟩
        exact ⟨i, by omega, rfl⟩
    available := fun w htracked i hi => (hr.work.complete hjobs htracked (by omega)).1 }

end Chain

/-- The tasks that a list of submissions leads to. -/
def blocks (start : UInt32) (submissions : List Submission) : List TaskId :=
  submissions.zipIdx.flatMap fun e => e.1.block (problemAt start e.2)

namespace Session

/-- Submits one input after the other and runs the session after each until nothing is left to
do. -/
def submitEach (chance : Chance) :
    List Submission → Session → List (Except Error TaskId) × Session
  | [], s => ([], s)
  | input :: inputs, s =>
    let (outcome, s) := s.submit input
    let (outcomes, s) := submitEach chance inputs (s.settle chance)
    (outcome :: outcomes, s)

/-- The chain of the submission at a place of the list. -/
def chainAt (settings : Settings) (start : UInt32) (j : Nat) (input : Submission) : Chain :=
  ⟨problemAt start j, input, settings.hardware, settings.memory⟩

/-- What holds after some submissions were taken and all is quiet. -/
structure Fulfilled (settings : Settings) (start : UInt32) (done : List Submission) (s : Session) :
    Prop where
  configured : s.orchestrator.settings = settings
  loop : s.loop ≠ .finished
  accepting : s.orchestrator.hub.rejecting = false
  simulated : s.orchestrator.hub.simulated = true
  listening : s.orchestrator.hub.channel.closed = false
  jobs : s.orchestrator.hub.jobs = []
  events : s.orchestrator.hub.channel.events = []
  nextProblem : s.orchestrator.hub.nextProblem = problemAt start done.length
  published : s.orchestrator.hub.published = blocks start done
  allocated : ∀ t, s.orchestrator.hub.allocated.contains t = true →
    ∃ j < done.length, t.problem = problemAt start j
  served : ∀ j input, done[j]? = some input →
    (chainAt settings start j input).Served s.orchestrator.hub
  consistent : s.orchestrator.ledger.Consistent
  limit : s.orchestrator.ledger.limit = settings.retention
  last : s.orchestrator.ledger.last = (blocks start done).getLast?
  keys : s.orchestrator.ledger.latest.keys =
    Ledger.newestWithin settings.retention ((List.range done.length).map (problemAt start))
  recorded : ∀ t, (s.orchestrator.ledger.record? t).isSome →
    t.problem ∈ s.orchestrator.ledger.latest.keys
  kept : ∀ j input, done[j]? = some input →
    problemAt start j ∈ s.orchestrator.ledger.latest.keys →
    (chainAt settings start j input).Kept s.orchestrator.ledger

variable {settings : Settings} {start : UInt32} {done : List Submission} {s : Session}

theorem toNat_problemAt {j : Nat} (h : start.toNat + j < UInt32.size) :
    (problemAt start j).toNat = start.toNat + j := by
  rw [problemAt, UInt32.toNat_add, Chain.toNat_ofNat (by omega), Nat.mod_eq_of_lt h]

theorem blocks_append (start : UInt32) (done : List Submission) (input : Submission) :
    blocks start (done ++ [input]) =
      blocks start done ++ input.block (problemAt start done.length) := by
  simp [blocks, List.zipIdx_append]

theorem getLast?_blocks_append (start : UInt32) (done : List Submission) (input : Submission) :
    (blocks start (done ++ [input])).getLast? =
      some ⟨problemAt start done.length, UInt32.ofNat (input.outputCount - 1)⟩ := by
  have hpos : 0 < input.outputCount := Nat.le_max_left _ _
  rw [blocks_append, List.getLast?_append, Submission.block, List.getLast?_map,
    List.getLast?_range, if_neg (by omega)]
  rfl

/-- An input of a list with one more is the last one or one of those before. -/
theorem getElem?_concat_cases {input earlier : Submission} {j : Nat}
    (h : (done ++ [input])[j]? = some earlier) :
    (j = done.length ∧ earlier = input) ∨ done[j]? = some earlier := by
  rcases Nat.lt_trichotomy j done.length with hlt | rfl | hgt
  · rw [List.getElem?_append_left hlt] at h
    exact .inr h
  · rw [List.getElem?_concat_length] at h
    exact .inl ⟨rfl, (Option.some.inj h).symm⟩
  · have hnone : (done ++ [input])[j]? = none :=
      List.getElem?_eq_none (by rw [List.length_append, List.length_singleton]; omega)
    rw [hnone] at h
    cases h

/-! ## The beginning -/

theorem fulfilled_new (settings : Settings) (start : UInt32)
    (responder : ConfigurationRequest → ConfigurationResponse) :
    Fulfilled settings start [] (.new settings
      { nextProblem := start, simulated := true, responder }) where
  configured := rfl
  loop := nofun
  accepting := rfl
  simulated := rfl
  listening := rfl
  jobs := rfl
  events := rfl
  nextProblem := (UInt32.add_zero start).symm
  published := rfl
  allocated _ h := by cases h
  served _ _ h := by cases h
  consistent := Ledger.consistent_new settings.retention
  limit := rfl
  last := rfl
  keys := by
    show [] = _
    cases settings.retention with
    | none => rfl
    | some limit => simp [Ledger.newestWithin]
  recorded _ h := by cases h
  kept _ _ h := by cases h

/-! ## The next submission -/

section

variable {input : Submission}

/-- The chain that a further submission starts. -/
abbrev nextChain (settings : Settings) (start : UInt32) (done : List Submission)
    (input : Submission) : Chain :=
  chainAt settings start done.length input

theorem problemAt_lt {i j : Nat} (hij : i < j) (h : start.toNat + j < UInt32.size) :
    problemAt start i < problemAt start j := by
  rw [UInt32.lt_iff_toNat_lt, toNat_problemAt (by omega), toNat_problemAt h]
  omega

theorem Fulfilled.newest (hf : Fulfilled settings start done s) (input : Submission)
    (hwrap : start.toNat + done.length < UInt32.size) :
    ∀ p ∈ s.orchestrator.ledger.latest.keys, p < (nextChain settings start done input).problem := by
  intro p hp
  rw [hf.keys] at hp
  obtain ⟨j, hj, rfl⟩ := List.mem_map.mp (Ledger.mem_of_mem_newestWithin hp)
  exact problemAt_lt (List.mem_range.mp hj) hwrap

/-- The orchestrator has taken a further submission: it has published the first task of the next
chain, and the ledger has registered it. -/
structure Begun (settings : Settings) (start : UInt32) (done : List Submission)
    (input : Submission) (s : Session) (o : Orchestrator) : Prop where
  configured : o.settings = settings
  ledger : o.ledger =
    (s.orchestrator.ledger.reserve ((nextChain settings start done input).task 0)).registerTask
      ((nextChain settings start done input).task 0)
  hub : o.hub = (nextChain settings start done input).nextHub 0
    { s.orchestrator.hub with nextProblem := problemAt start (done.length + 1) }

theorem Fulfilled.submit (hf : Fulfilled settings start done s) (hfresh : input.IsFresh) :
    ∃ o, s.submit input =
        (.ok ((nextChain settings start done input).task 0), s.withOrchestrator o) ∧
      Begun settings start done input s o := by
  have hfault : input.fault? = none := by
    rw [Submission.fault?, if_neg (by rw [hfresh.described]; exact Bool.false_ne_true),
      hfresh.iteration, hfresh.problem]
  have hpredecessor : input.predecessor? = none := by
    rw [Submission.predecessor?, hfresh.problem]
  obtain ⟨o, hsubmit, hsettings, hledger, hhub⟩ :=
    Orchestrator.submit_fresh hfault hpredecessor hf.accepting
  have hnext : s.orchestrator.hub.nextProblem + 1 = problemAt start (done.length + 1) := by
    rw [hf.nextProblem, problemAt, problemAt, UInt32.ofNat_add, ← UInt32.add_assoc]
    rfl
  have hfirst : TaskId.first s.orchestrator.hub.nextProblem =
      (nextChain settings start done input).task 0 := by
    rw [hf.nextProblem]
    rfl
  rw [hfirst] at hsubmit hledger hhub
  -- what the hub is given is the input of the chain
  refine ⟨o, ?_, hsettings.trans hf.configured, hledger, ?_⟩
  · rw [Session.submit, hsubmit]
  · rw [hhub, Orchestrator.fill, hf.configured, ← hnext, Chain.nextHub,
      ← Chain.fill_submission hfresh {}, Hub.allocateTask, hfirst]
    rfl

variable {o : Orchestrator}

/-- Before its first task nothing of the next chain is at the hub. -/
theorem Fulfilled.hubAt (hf : Fulfilled settings start done s) (input : Submission)
    (hwrap : start.toNat + done.length < UInt32.size) :
    (nextChain settings start done input).HubAt (blocks start done) 0
      { s.orchestrator.hub with nextProblem := problemAt start (done.length + 1) } where
  accepting := hf.accepting
  simulated := hf.simulated
  listening := hf.listening
  published := by simpa using hf.published
  inputs i hi := absurd hi (Nat.not_lt_zero i)
  unallocated := by
    intro i _ _
    cases hallocated : s.orchestrator.hub.allocated.contains _ with
    | false => rfl
    | true =>
        -- the problems of all allocated tasks are older
        obtain ⟨j, hj, heq⟩ := hf.allocated _ hallocated
        exact absurd heq (UInt32.ne_of_lt (problemAt_lt hj hwrap)).symm

theorem Begun.available (hb : Begun settings start done input s o)
    (hf : Fulfilled settings start done s) (hwrap : start.toNat + done.length < UInt32.size)
    (w : Worker) :
    o.ledger.available ((nextChain settings start done input).task 0) w = false := by
  rw [hb.ledger]
  exact Chain.KnownTo.available_first (hf.newest input hwrap) hf.recorded w

theorem Begun.jobs (hb : Begun settings start done input s o)
    (hf : Fulfilled settings start done s) (hwrap : start.toNat + done.length < UInt32.size) :
    o.hub.jobs = Hub.jobsFor ((nextChain settings start done input).task 0)
      ((nextChain settings start done input).input 0) := by
  rw [hb.hub, Chain.jobs_nextHub (hf.hubAt input hwrap)]
  show s.orchestrator.hub.jobs ++ _ = _
  rw [hf.jobs, List.nil_append]

theorem Begun.events (hb : Begun settings start done input s o)
    (hf : Fulfilled settings start done s) : o.hub.channel.events = [] := by
  rw [hb.hub]
  exact hf.events

/-- The next chain is in progress as soon as the submission is taken. -/
theorem Begun.inProgress (hb : Begun settings start done input s o)
    (hf : Fulfilled settings start done s) (hwrap : start.toNat + done.length < UInt32.size) :
    InProgress (nextChain settings start done input) o (blocks start done) 0
      (s.withOrchestrator o) := by
  have hat := hf.hubAt input hwrap
  have hwork : (nextChain settings start done input).WorkAt 1 o.ledger o.hub [] := by
    have hzero := Chain.workAt_zero (c := nextChain settings start done input)
      (l := s.orchestrator.ledger) (h := s.orchestrator.hub) hf.jobs
    refine hzero.publish (by decide) ?_ (hb.hub ▸ rfl) ?_ (hb.available hf hwrap)
    · rw [hb.jobs hf hwrap, hf.jobs, List.nil_append]
    · intro i hi
      exact absurd hi (Nat.not_lt_zero i)
  have hannounced : (s.withOrchestrator o).announced = [] := by
    show o.hub.channel.events.filterMap _ = []
    rw [hb.events hf]
    rfl
  refine ⟨hf.loop, ?_⟩
  rw [hannounced]
  exact {
    hardware := congrArg Settings.hardware hb.configured
    memory := congrArg Settings.memory hb.configured
    hub := by
      show (nextChain settings start done input).HubAt (blocks start done) 1 o.hub
      rw [hb.hub]
      exact hat.publish (by decide)
    ledger := by
      show (nextChain settings start done input).KnownTo 0 o.ledger
      rw [hb.ledger]
      exact .first hf.consistent (hf.newest input hwrap) hf.recorded
    work := hwork
    frame := ⟨rfl, .refl _ _, .refl _ _⟩
    caughtUp := by
      show o.ledger.available _ _ = true → _
      rw [hb.available hf hwrap]
      exact nofun }

/-! ## When all is quiet again

The frames say what the next chain leaves as it was: at the hub everything of the earlier problems,
and in the ledger what it knows of those that are still among the newest. -/

section

variable {h : Hub} {l : Ledger}

theorem Fulfilled.allocated_next (hf : Fulfilled settings start done s)
    (hframe : (nextChain settings start done input).HubFrame
      { s.orchestrator.hub with nextProblem := problemAt start (done.length + 1) } h)
    {t : TaskId} (ht : h.allocated.contains t = true) :
    ∃ j < done.length + 1, t.problem = problemAt start j := by
  by_cases hproblem : t.problem = (nextChain settings start done input).problem
  · exact ⟨done.length, Nat.lt_succ_self _, hproblem⟩
  · have hold : s.orchestrator.hub.allocated.contains t = true := by
      rw [Table.contains, hframe.allocated t hproblem] at ht
      exact ht
    obtain ⟨j, hj, hproblem⟩ := hf.allocated t hold
    exact ⟨j, by omega, hproblem⟩

theorem Fulfilled.served_next (hf : Fulfilled settings start done s)
    (hwrap : start.toNat + done.length < UInt32.size)
    (hframe : (nextChain settings start done input).HubFrame
      { s.orchestrator.hub with nextProblem := problemAt start (done.length + 1) } h)
    {j : Nat} {earlier : Submission} (hj : done[j]? = some earlier) :
    (chainAt settings start j earlier).Served h := by
  have hne : problemAt start j ≠ (nextChain settings start done input).problem :=
    UInt32.ne_of_lt (problemAt_lt (List.getElem?_eq_some_iff.mp hj).1 hwrap)
  have hserved : (chainAt settings start j earlier).Served
      { s.orchestrator.hub with nextProblem := problemAt start (done.length + 1) } :=
    ⟨(hf.served j earlier hj).inputs, (hf.served j earlier hj).outputs⟩
  exact hserved.of_frame hframe hne

theorem Fulfilled.keys_next (hf : Fulfilled settings start done s)
    (hwrap : start.toNat + done.length < UInt32.size)
    (hframe : (nextChain settings start done input).LedgerFrame
      ((s.orchestrator.ledger.reserve ((nextChain settings start done input).task 0)).registerTask
        ((nextChain settings start done input).task 0)) l) :
    l.latest.keys = Ledger.newestWithin settings.retention
      ((List.range (done.length + 1)).map (problemAt start)) := by
  rw [hframe.keys, Chain.KnownTo.keys_first hf.consistent (hf.newest input hwrap), hf.limit, hf.keys,
    Ledger.newestWithin_append, List.range_succ, List.map_append]
  rfl

theorem Fulfilled.recorded_next (hf : Fulfilled settings start done s)
    (hwrap : start.toNat + done.length < UInt32.size)
    (hframe : (nextChain settings start done input).LedgerFrame
      ((s.orchestrator.ledger.reserve ((nextChain settings start done input).task 0)).registerTask
        ((nextChain settings start done input).task 0)) l)
    {t : TaskId} (hother : t.problem ≠ (nextChain settings start done input).problem)
    (ht : (l.record? t).isSome) : t.problem ∈ l.latest.keys := by
  rw [hframe.records t hother,
    Chain.KnownTo.record?_first (hf.newest input hwrap) hf.recorded hother] at ht
  rw [hframe.keys]
  split at ht
  · assumption
  · cases ht

/-- Of the earlier problems, those that are not dropped are kept. -/
theorem Fulfilled.kept_next (hf : Fulfilled settings start done s)
    (hwrap : start.toNat + done.length < UInt32.size)
    (hframe : (nextChain settings start done input).LedgerFrame
      ((s.orchestrator.ledger.reserve ((nextChain settings start done input).task 0)).registerTask
        ((nextChain settings start done input).task 0)) l)
    {j : Nat} {earlier : Submission} (hj : done[j]? = some earlier)
    (hkept : problemAt start j ∈ l.latest.keys) : (chainAt settings start j earlier).Kept l := by
  have hnewest := hf.newest input hwrap
  have hlt : j < done.length := (List.getElem?_eq_some_iff.mp hj).1
  have hne : problemAt start j ≠ (nextChain settings start done input).problem :=
    UInt32.ne_of_lt (problemAt_lt hlt hwrap)
  rw [hframe.keys] at hkept
  -- a problem that is tracked now and is not the new one was tracked before
  have hbefore : problemAt start j ∈ s.orchestrator.ledger.latest.keys := by
    rw [Chain.KnownTo.keys_first hf.consistent hnewest] at hkept
    rcases List.mem_append.mp (Ledger.mem_of_mem_newestWithin hkept) with hmem | hmem
    · exact hmem
    · exact absurd (List.mem_singleton.mp hmem) hne
  refine (hf.kept j earlier hj hbefore).congr ?_ fun t ht => ?_
  · exact (hframe.latest _ hne).trans (Chain.KnownTo.latest_first hne hkept)
  · have hother : t.problem ≠ (nextChain settings start done input).problem := ht ▸ hne
    rw [hframe.records t hother, Chain.KnownTo.record?_first hnewest hf.recorded hother, ht]
    exact if_pos hkept

end

/-- When the next chain is complete, all submissions are fulfilled. -/
theorem Begun.fulfilled (hb : Begun settings start done input s o)
    (hf : Fulfilled settings start done s) (hwrap : start.toNat + done.length < UInt32.size)
    {s' : Session}
    (hcomplete : IsComplete (nextChain settings start done input) o (blocks start done) s') :
    Fulfilled settings start (done ++ [input]) s' := by
  have hrunning := hcomplete.running
  have hhubFrame := hrunning.frame.hub
  rw [hb.hub] at hhubFrame
  have hframe := (Chain.frame_nextHub 0 _).trans hhubFrame
  have hledgerFrame := hrunning.frame.ledger
  rw [hb.ledger] at hledgerFrame
  have hlength : (done ++ [input]).length = done.length + 1 := List.length_append
  exact {
    configured := hrunning.frame.settings.trans hb.configured
    loop := hcomplete.loop
    accepting := hrunning.hub.accepting
    simulated := hrunning.hub.simulated
    listening := hrunning.hub.listening
    jobs := hcomplete.jobs
    events := hcomplete.events
    nextProblem := by rw [hframe.nextProblem, hlength]
    published := by
      have hcount : (nextChain settings start done input).length - 1 + 1 = input.outputCount :=
        Nat.sub_add_cancel (Chain.length_pos _)
      rw [hrunning.hub.published, hcount, blocks_append]
      rfl
    allocated := by
      rw [hlength]
      exact fun t ht => hf.allocated_next hframe ht
    served := by
      intro j earlier hj
      rcases getElem?_concat_cases hj with ⟨rfl, rfl⟩ | hold
      · exact hrunning.served hcomplete.jobs
      · exact hf.served_next hwrap hframe hold
    consistent := hrunning.ledger.consistent
    limit := hledgerFrame.limit.trans hf.limit
    last := by
      rw [hrunning.ledger.last, getLast?_blocks_append]
      rfl
    keys := by
      rw [hlength]
      exact hf.keys_next hwrap hledgerFrame
    recorded := by
      intro t ht
      by_cases hproblem : t.problem = (nextChain settings start done input).problem
      · rw [Table.mem_keys, hproblem, hrunning.ledger.latest]
        rfl
      · exact hf.recorded_next hwrap hledgerFrame hproblem ht
    kept := by
      intro j earlier hj hkept
      rcases getElem?_concat_cases hj with ⟨rfl, rfl⟩ | hold
      · exact hrunning.kept hcomplete.jobs
      · exact hf.kept_next hwrap hledgerFrame hold hkept }

/-- **One more submission** is fulfilled when all is quiet again. -/
theorem Fulfilled.settle (hf : Fulfilled settings start done s)
    (hwrap : start.toNat + done.length < UInt32.size) (hfresh : input.IsFresh)
    (hlasts : input.extra.Lasts) (chance : Chance) :
    (s.submit input).1 = .ok ((nextChain settings start done input).task 0) ∧
      Fulfilled settings start (done ++ [input]) ((s.submit input).2.settle chance) := by
  obtain ⟨o, hsubmit, hb⟩ := hf.submit hfresh
  have hcomplete := (hb.inProgress hf hwrap).settle hfresh hlasts chance (hb.jobs hf hwrap)
    (hb.events hf)
  rw [hsubmit]
  exact ⟨rfl, hb.fulfilled hf hwrap hcomplete⟩

end

end Session

end WorkerPipeline
