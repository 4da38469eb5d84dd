import WorkerPipeline.Proofs.Ledger.Unlimited
import WorkerPipeline.Proofs.Orchestrator.Moves
import WorkerPipeline.Proofs.Simulation.Quiescence

set_option autoImplicit false

/-! # Simulated workers answer all or nothing

A task that is published gives each tracked worker a job, and whether these jobs succeed depends on
the extra data of the input alone. If they decode, the results of all six workers arrive, and so do
those of the tasks that follow, since the extra data of their inputs decode as well (`Answering`).
If they do not, nothing but a status comes of any job (`Failing`). In either case a worker without a
job has reported last how its job ended.
-/

namespace WorkerPipeline

/-! ## Ledgers without a limit -/

/-- The ledger comes of a history without a limit. -/
def Ledger.Unlimited (l : Ledger) : Prop := ∃ steps, l = (Ledger.new none).run steps

theorem Ledger.Unlimited.consistent {l : Ledger} (h : l.Unlimited) : l.Consistent := by
  obtain ⟨steps, rfl⟩ := h
  exact consistent_run none steps

/-- Where the results of all tracked workers have arrived, the record is complete. -/
theorem Ledger.Consistent.isComplete_of_available {l : Ledger} (hl : l.Consistent) {t : TaskId}
    (h : ∀ w, w.isTracked = true → l.available t w = true) :
    ∃ r, l.record? t = some r ∧ r.isComplete = true := by
  obtain ⟨r, hr, -⟩ := available_eq_true_iff.mp (h .carbonFootprint rfl)
  refine ⟨r, hr, (hl.record_slots hr).isComplete_iff.mpr fun w hw => ?_⟩
  have havailable := h w hw
  rw [available, hr] at havailable
  exact havailable

namespace Orchestrator

variable {o : Orchestrator}

/-- **An event** makes the result available that it reports, and takes none away. -/
theorem ledger_handle (hl : o.ledger.Unlimited) (e : Event) :
    (o.handle e).ledger.Unlimited ∧ ∀ t w, (o.handle e).ledger.available t w = true ↔
      o.ledger.available t w = true ∨ w.isTracked = true ∧ e.result? = some (t, w) := by
  obtain ⟨steps, hsteps⟩ := hl
  obtain ⟨new, hresults, hledger⟩ := (o.moves_handle e).ledger
  rw [hsteps, ← Ledger.run_append] at hledger
  refine ⟨⟨steps ++ new, hledger⟩, fun t w => ?_⟩
  have hnew : .registerResult t w ∈ new ↔ e.result? = some (t, w) := by
    rw [← Ledger.mem_results, hresults, Option.mem_toList]
  rw [hledger, hsteps, Ledger.available_run_iff, Ledger.available_run_iff, List.mem_append, hnew,
    and_or_left]

end Orchestrator

/-! ## Statuses -/

namespace Registry

/-- What an event tells about a status is put down. -/
def receive (r : Registry) : Event → Registry
  | .statusChanged c => r.report c.worker c.status
  | .newOutput _ => r

/-- The status of a worker when all events are handled. -/
def statusAfter (r : Registry) (events : List Event) (w : Worker) : WorkerStatus :=
  (events.foldl receive r).status w

variable (r : Registry) (events : List Event) (w : Worker)

theorem statusAfter_concat_report (v : Worker) (status : WorkerStatus) :
    r.statusAfter (events ++ [.statusChanged ⟨v, status⟩]) w =
      if v = w then status else r.statusAfter events w := by
  rw [statusAfter, List.foldl_append]
  exact status_report _ v w status

theorem statusAfter_concat_output (a : Arrival) :
    r.statusAfter (events ++ [.newOutput a]) w = r.statusAfter events w := by
  rw [statusAfter, List.foldl_append]
  rfl

/-- The reports about other workers do not matter. -/
theorem statusAfter_append_reports {jobs : List Job} (status : WorkerStatus)
    (h : ∀ j ∈ jobs, j.worker ≠ w) :
    r.statusAfter (events ++ jobs.map fun j => .statusChanged ⟨j.worker, status⟩) w =
      r.statusAfter events w := by
  induction jobs generalizing events with
  | nil => rw [List.map_nil, List.append_nil]
  | cons j jobs ih =>
      rw [List.map_cons, List.append_cons, ih _ fun k hk => h k (List.mem_cons_of_mem j hk),
        statusAfter_concat_report, if_neg (h j List.mem_cons_self)]

end Registry

/-- Jobs that are begun are the same jobs. -/
theorem Job.exists_mem_of_perm {jobs jobs' : List Job}
    (h : (jobs.map Job.order).Perm (jobs'.map Job.order)) {j : Job} (hj : j ∈ jobs) :
    ∃ k ∈ jobs', k.worker = j.worker ∧ k.task = j.task ∧ k.input = j.input := by
  obtain ⟨k, hk, horder⟩ := List.mem_map.mp (h.mem_iff.mp (List.mem_map_of_mem hj))
  exact ⟨k, hk, by simpa [Job.order] using horder⟩

namespace Orchestrator

variable {o : Orchestrator} {pending : List Event}

theorem registry_handle (o : Orchestrator) (e : Event) :
    (o.handle e).registry = o.registry.receive e := by
  have h := congrArg Surroundings.registry (o.surroundings_handle e)
  cases e <;> exact h

theorem outputs_handle (o : Orchestrator) (e : Event) :
    (o.handle e).hub.outputs = o.hub.outputs := by
  have h := congrArg Surroundings.outputs (o.surroundings_handle e)
  cases e <;> exact h

/-- A worker has a job, or its status will be the given one when all events are handled. -/
def Leaves (o : Orchestrator) (pending : List Event) (status : WorkerStatus) (w : Worker) : Prop :=
  (∃ j ∈ o.hub.jobs, j.worker = w) ∨ o.registry.statusAfter pending w = status

namespace Leaves

variable {status : WorkerStatus} {w : Worker}

theorem handle {e : Event} (h : o.Leaves (e :: pending) status w)
    (hjobs : o.hub.jobs ⊆ (o.handle e).hub.jobs) : (o.handle e).Leaves pending status w := by
  rcases h with ⟨j, hj, hw⟩ | h
  · exact .inl ⟨j, hjobs hj, hw⟩
  · refine .inr ?_
    rw [registry_handle]
    exact h

/-- A worker that begins a job has one. -/
theorem start {jobs new : List Job} (h : o.Leaves pending status w)
    (hperm : (jobs.map Job.order).Perm (o.hub.jobs.map Job.order)) (hnew : new ⊆ o.hub.jobs) :
    Leaves { o with hub := { o.hub with jobs } }
      (pending ++ new.map fun j => .statusChanged ⟨j.worker, .running⟩) status w := by
  by_cases hjob : ∃ j ∈ o.hub.jobs, j.worker = w
  · obtain ⟨j, hj, rfl⟩ := hjob
    obtain ⟨k, hk, hworker, -⟩ := Job.exists_mem_of_perm hperm.symm hj
    exact .inl ⟨k, hk, hworker⟩
  · refine .inr ?_
    rw [Registry.statusAfter_append_reports]
    · exact h.resolve_left hjob
    · exact fun j hj hw => hjob ⟨j, hnew hj, hw⟩

theorem output (h : o.Leaves pending status w) (a : Arrival) :
    o.Leaves (pending ++ [.newOutput a]) status w := by
  rw [Leaves, Registry.statusAfter_concat_output]
  exact h

/-- The worker whose job ends reports the status, and the others have the jobs they had. -/
theorem finish {o' : Orchestrator} {j : Job} (h : o.Leaves pending status w)
    (hperm : o.hub.jobs.Perm (j :: o'.hub.jobs)) (hregistry : o'.registry = o.registry) :
    o'.Leaves (pending ++ [.statusChanged ⟨j.worker, status⟩]) status w := by
  rw [Leaves, hregistry, Registry.statusAfter_concat_report]
  by_cases hself : j.worker = w
  · exact .inr (if_pos hself)
  · rw [if_neg hself]
    refine h.imp_left ?_
    rintro ⟨k, hk, hw⟩
    rcases List.mem_cons.mp (hperm.mem_iff.mp hk) with rfl | hk
    · exact absurd hw hself
    · exact ⟨k, hk, hw⟩

theorem status_eq (h : o.Leaves [] status w) (hjobs : o.hub.jobs = []) :
    o.registry.status w = status := by
  refine h.resolve_left ?_
  rintro ⟨j, hj, -⟩
  rw [hjobs] at hj
  cases hj

end Leaves

/-! ## Inputs that decode -/

variable {t : TaskId}

/-- What is left to do for the result of a worker: its job is to be ended, or its output, which is
stored, to be handled, or nothing at all. -/
inductive Awaited (o : Orchestrator) (pending : List Event) (t : TaskId) (w : Worker) : Prop
  | job {j : Job} (hj : j ∈ o.hub.jobs) (hworker : j.worker = w) (htask : j.task = t)
  | event {a : Arrival} (ha : .newOutput a ∈ pending) (hworker : a.worker = w)
      (htask : a.task = some t) (hstored : (o.hub.outputs.get? (w, t)).isSome)
  | done (havailable : o.ledger.available t w = true)
      (hstored : (o.hub.outputs.get? (w, t)).isSome)

theorem Awaited.congr {o' : Orchestrator} {w : Worker} (h : o.Awaited pending t w)
    (hjobs : o'.hub.jobs = o.hub.jobs) (houtputs : o'.hub.outputs = o.hub.outputs)
    (hledger : o'.ledger = o.ledger) : o'.Awaited pending t w := by
  cases h with
  | job hj hworker htask => exact .job (hjobs ▸ hj) hworker htask
  | event ha hworker htask hstored => exact .event ha hworker htask (houtputs ▸ hstored)
  | done havailable hstored => exact .done (hledger ▸ havailable) (houtputs ▸ hstored)

/-- **All workers answer**: every job has an input that decodes, and the results for a task are on
their way. -/
structure Answering (t : TaskId) (o : Orchestrator) (pending : List Event) : Prop where
  unlimited : o.ledger.Unlimited
  jobs : ∀ j ∈ o.hub.jobs, j.worker.isTracked = true ∧
    ∃ e, Extra.decode? j.input.extraData = some e
  stored : ∀ {w output}, o.hub.outputs.get? (w, t) = some output →
    w.isTracked = true ∧ output.worker = w ∧ output.task = some t
  awaited : ∀ w, w.isTracked = true → o.Awaited pending t w
  status : ∀ w, w.isTracked = true → o.Leaves pending .idle w

theorem Answering.handle {e : Event} (h : Answering t o (e :: pending)) :
    Answering t (o.handle e) pending := by
  obtain ⟨hunlimited, havailable⟩ := ledger_handle h.unlimited e
  have houtputs := o.outputs_handle e
  have hjobs : o.hub.jobs ⊆ (o.handle e).hub.jobs ∧ ∀ j ∈ (o.handle e).hub.jobs,
      j.worker.isTracked = true ∧ ∃ e, Extra.decode? j.input.extraData = some e := by
    rcases o.jobs_handle e with heq | ⟨a, next, u, -, hleads, heq⟩
    · rw [heq]
      exact ⟨List.Subset.refl _, h.jobs⟩
    · obtain ⟨-, e', -, -, -, -, he', -⟩ := hleads.extra
      rw [heq]
      refine ⟨List.subset_append_left _ _, fun j hj => ?_⟩
      rcases List.mem_append.mp hj with hj | hj
      · exact h.jobs j hj
      · obtain ⟨w, hw, rfl⟩ := List.mem_map.mp hj
        exact ⟨Worker.mem_tracked.mp hw, e', he'⟩
  exact {
    unlimited := hunlimited
    jobs := hjobs.2
    stored := by
      rw [houtputs]
      exact h.stored
    awaited := by
      intro w hw
      cases h.awaited w hw with
      | job hj hworker htask => exact .job (hjobs.1 hj) hworker htask
      | @event a ha hworker htask hstored =>
          rw [← houtputs] at hstored
          rcases List.mem_cons.mp ha with rfl | ha
          · -- the output is handled now
            have hresult : (Event.newOutput a).result? = some (t, w) := by
              rw [Event.result?, htask, hworker]
              rfl
            exact .done ((havailable t w).mpr (.inr ⟨hw, hresult⟩)) hstored
          · exact .event ha hworker htask hstored
      | done hold hstored =>
          rw [← houtputs] at hstored
          exact .done ((havailable t w).mpr (.inl hold)) hstored
    status := fun w hw => (h.status w hw).handle hjobs.1 }

theorem Answering.start {jobs new : List Job} (h : Answering t o pending)
    (hperm : (jobs.map Job.order).Perm (o.hub.jobs.map Job.order)) (hnew : new ⊆ o.hub.jobs) :
    Answering t { o with hub := { o.hub with jobs } }
      (pending ++ new.map fun j => .statusChanged ⟨j.worker, .running⟩) where
  unlimited := h.unlimited
  jobs j hj := by
    obtain ⟨k, hk, hworker, -, hinput⟩ := Job.exists_mem_of_perm hperm hj
    rw [← hworker, ← hinput]
    exact h.jobs k hk
  stored := h.stored
  awaited w hw := by
    cases h.awaited w hw with
    | job hj hworker htask =>
        obtain ⟨k, hk, hworker', htask', -⟩ := Job.exists_mem_of_perm hperm.symm hj
        exact .job hk (hworker'.trans hworker) (htask'.trans htask)
    | event ha hworker htask hstored =>
        exact .event (List.mem_append_left _ ha) hworker htask hstored
    | done havailable hstored => exact .done havailable hstored
  status w hw := (h.status w hw).start hperm hnew

theorem Answering.deliver {j : Job} {others : List Job} {e : Extra} {readings : Readings}
    {output : Output} (h : Answering t o pending) (hperm : o.hub.jobs.Perm (j :: others))
    (hproduct : Simulation.product? readings j.worker j.task j.input e = some output) :
    Answering t
      { o with hub := { o.hub with
          jobs := others
          outputs := o.hub.outputs.insert (j.worker, j.task) output } }
      (pending ++ [.newOutput ⟨j.worker, some j.task, output⟩,
        .statusChanged ⟨j.worker, .idle⟩]) := by
  have hold {w : Worker} (hstored : (o.hub.outputs.get? (w, t)).isSome) :
      ((o.hub.outputs.insert (j.worker, j.task) output).get? (w, t)).isSome := by
    rw [Table.get?_insert]
    split
    · rfl
    · exact hstored
  exact {
    unlimited := h.unlimited
    jobs := fun k hk => h.jobs k (hperm.mem_iff.mpr (List.mem_cons_of_mem j hk))
    stored := by
      intro w stored hstored
      by_cases hself : (j.worker, j.task) = (w, t)
      · obtain ⟨rfl, rfl⟩ := Prod.mk.inj hself
        rw [Table.get?_insert_self] at hstored
        cases hstored
        exact ⟨(h.jobs j (hperm.mem_iff.mpr List.mem_cons_self)).1,
          Simulation.product?_eq_some hproduct⟩
      · rw [Table.get?_insert_of_ne hself] at hstored
        exact h.stored hstored
    awaited := by
      intro w hw
      cases h.awaited w hw with
      | @job k hk hworker htask =>
          rcases List.mem_cons.mp (hperm.mem_iff.mp hk) with rfl | hk
          · -- this job ends now
            refine .event (List.mem_append_right _ List.mem_cons_self) hworker
              (congrArg some htask) ?_
            rw [← hworker, ← htask, Table.get?_insert_self]
            rfl
          · exact .job hk hworker htask
      | event ha hworker htask hstored =>
          exact .event (List.mem_append_left _ ha) hworker htask (hold hstored)
      | done havailable hstored => exact .done havailable (hold hstored)
    status := by
      intro w hw
      rw [List.append_cons]
      exact ((h.status w hw).output _).finish hperm rfl }

/-- **A turn** leaves all workers answering. -/
theorem Turn.answering {n : Nat} {o' : Orchestrator} {pending' : List Event}
    (h : Turn o pending n o' pending') (ho : Answering t o pending) : Answering t o' pending' := by
  cases h with
  | aside =>
      exact ⟨ho.unlimited, ho.jobs, ho.stored, fun w hw => (ho.awaited w hw).congr rfl rfl rfl,
        ho.status⟩
  | handle e => exact ho.handle
  | start _ hperm hnew => exact ho.start hperm hnew
  | deliver _ hperm _ hproduct => exact ho.deliver hperm hproduct
  | fail _ hperm hdecode =>
      -- the input of every job decodes
      obtain ⟨htracked, e, he⟩ := ho.jobs _ (hperm.mem_iff.mpr List.mem_cons_self)
      rw [hdecode htracked] at he
      cases he

/-- Where nothing is left to do, a tracked worker has answered. -/
theorem Answering.answered (h : Answering t o []) (hjobs : o.hub.jobs = []) {w : Worker}
    (hw : w.isTracked = true) :
    o.ledger.available t w = true ∧ ∃ output, o.hub.outputs.get? (w, t) = some output ∧
      output.worker = w ∧ output.task = some t := by
  cases h.awaited w hw with
  | job hj =>
      rw [hjobs] at hj
      cases hj
  | event ha => cases ha
  | done havailable hstored =>
      obtain ⟨output, houtput⟩ := Option.isSome_iff_exists.mp hstored
      exact ⟨havailable, output, houtput, (h.stored houtput).2⟩

/-! ## Inputs that do not decode -/

/-- **All workers fail**: no job has an input that decodes, and nothing has come of the jobs that
have ended but statuses. -/
structure Failing (base o : Orchestrator) (pending : List Event) : Prop where
  jobs : ∀ j ∈ o.hub.jobs, j.worker.isTracked = true ∧ Extra.decode? j.input.extraData = none
  events : ∀ a, .newOutput a ∉ pending
  ledger : o.ledger = base.ledger
  published : o.hub.published = base.hub.published
  outputs : o.hub.outputs = base.hub.outputs
  status : ∀ w, w.isTracked = true → o.Leaves pending .error w

variable {base : Orchestrator}

theorem Failing.handle {e : Event} (h : Failing base o (e :: pending)) :
    Failing base (o.handle e) pending := by
  cases e with
  | newOutput a => exact absurd List.mem_cons_self (h.events a)
  | statusChanged c =>
      have hstatus (w : Worker) (hw : w.isTracked = true) :=
        (h.status w hw).handle (List.Subset.refl _)
      exact ⟨h.jobs, fun a ha => h.events a (List.mem_cons_of_mem _ ha), h.ledger,
        h.published, h.outputs, hstatus⟩

theorem Failing.start {jobs new : List Job} (h : Failing base o pending)
    (hperm : (jobs.map Job.order).Perm (o.hub.jobs.map Job.order)) (hnew : new ⊆ o.hub.jobs) :
    Failing base { o with hub := { o.hub with jobs } }
      (pending ++ new.map fun j => .statusChanged ⟨j.worker, .running⟩) where
  jobs j hj := by
    obtain ⟨k, hk, hworker, -, hinput⟩ := Job.exists_mem_of_perm hperm hj
    rw [← hworker, ← hinput]
    exact h.jobs k hk
  events a ha := by
    rcases List.mem_append.mp ha with ha | ha
    · exact h.events a ha
    · obtain ⟨j, -, hj⟩ := List.mem_map.mp ha
      cases hj
  ledger := h.ledger
  published := h.published
  outputs := h.outputs
  status w hw := (h.status w hw).start hperm hnew

theorem Failing.fail {j : Job} {others : List Job} (h : Failing base o pending)
    (hperm : o.hub.jobs.Perm (j :: others)) :
    Failing base { o with hub := { o.hub with jobs := others } }
      (pending ++ [.statusChanged ⟨j.worker, .error⟩]) where
  jobs k hk := h.jobs k (hperm.mem_iff.mpr (List.mem_cons_of_mem j hk))
  events a ha := by
    rcases List.mem_append.mp ha with ha | ha
    · exact h.events a ha
    · cases List.mem_singleton.mp ha
  ledger := h.ledger
  published := h.published
  outputs := h.outputs
  status w hw := (h.status w hw).finish hperm rfl

/-- **A turn** leaves all workers failing. -/
theorem Turn.failing {n : Nat} {o' : Orchestrator} {pending' : List Event}
    (h : Turn o pending n o' pending') (ho : Failing base o pending) :
    Failing base o' pending' := by
  cases h with
  | aside => exact ⟨ho.jobs, ho.events, ho.ledger, ho.published, ho.outputs, ho.status⟩
  | handle e => exact ho.handle
  | start _ hperm hnew => exact ho.start hperm hnew
  | deliver _ hperm hdecode =>
      -- no input of a job decodes
      have hnone := (ho.jobs _ (hperm.mem_iff.mpr List.mem_cons_self)).2
      rw [hnone] at hdecode
      cases hdecode
  | fail _ hperm => exact ho.fail hperm

end Orchestrator

/-! ## A task that is published -/

namespace Session

variable {s : Session} {t : TaskId} {u : UserInput}

theorem apply_publish_of_accepting (h : s.orchestrator.hub.rejecting = false) :
    (s.apply (.publish t u)).2 = s.withHub (s.orchestrator.hub.withInput t u) := by
  unfold apply Hub.publish
  dsimp only
  rw [if_neg (by rw [h]; exact Bool.false_ne_true)]
  rfl

/-- Where nothing was left to do, the jobs are those of the task that is published. -/
theorem Quiet.mem_jobs_iff (h : s.Quiet) (hsimulated : s.orchestrator.hub.simulated = true)
    {j : Job} : j ∈ (s.orchestrator.hub.withInput t u).jobs ↔
      j.worker.isTracked = true ∧ j.task = t ∧ j.input = u ∧ j.due = none := by
  have hjobs : (s.orchestrator.hub.withInput t u).jobs = Hub.jobsFor t u := by
    show (if _ then _ else _) = _
    rw [if_pos hsimulated, h.jobs, List.nil_append]
  rw [hjobs, Hub.jobsFor, List.mem_map]
  constructor
  · rintro ⟨w, hw, rfl⟩
    exact ⟨Worker.mem_tracked.mp hw, rfl, rfl, rfl⟩
  · obtain ⟨w, t', u', due⟩ := j
    rintro ⟨hw, rfl, rfl, rfl⟩
    exact ⟨w, Worker.mem_tracked.mpr hw, rfl⟩

/-- The job of a tracked worker. -/
theorem Quiet.mem_jobs (h : s.Quiet) (hsimulated : s.orchestrator.hub.simulated = true)
    {w : Worker} (hw : w.isTracked = true) :
    ⟨w, t, u, none⟩ ∈ (s.orchestrator.hub.withInput t u).jobs :=
  (h.mem_jobs_iff hsimulated).mpr ⟨hw, rfl, rfl, rfl⟩

theorem Quiet.answering (h : s.Quiet) (hsimulated : s.orchestrator.hub.simulated = true)
    (hunlimited : s.orchestrator.ledger.Unlimited)
    (hnew : ∀ w, s.orchestrator.hub.outputs.get? (w, t) = none) {e : Extra}
    (hdecode : Extra.decode u.extraData = .ok e) :
    Orchestrator.Answering t
      { s.orchestrator with hub := s.orchestrator.hub.withInput t u } [] where
  unlimited := hunlimited
  jobs j hj := by
    obtain ⟨hworker, -, hinput, -⟩ := (h.mem_jobs_iff hsimulated).mp hj
    rw [hinput]
    exact ⟨hworker, e, Extra.decode_eq_ok_iff.mp hdecode⟩
  stored {w output} houtput := by
    have hnone : s.orchestrator.hub.outputs.get? (w, t) = some output := houtput
    rw [hnew] at hnone
    cases hnone
  awaited _ hw := .job (h.mem_jobs hsimulated hw) rfl rfl
  status _ hw := .inl ⟨_, h.mem_jobs hsimulated hw, rfl⟩

theorem Quiet.failing (h : s.Quiet) (hsimulated : s.orchestrator.hub.simulated = true)
    {fault : DataError} (hdecode : Extra.decode u.extraData = .error fault) :
    Orchestrator.Failing { s.orchestrator with hub := s.orchestrator.hub.withInput t u }
      { s.orchestrator with hub := s.orchestrator.hub.withInput t u } [] where
  jobs j hj := by
    obtain ⟨hworker, -, hinput, -⟩ := (h.mem_jobs_iff hsimulated).mp hj
    rw [hinput]
    refine ⟨hworker, ?_⟩
    cases hsome : Extra.decode? u.extraData with
    | none => rfl
    | some e =>
        rw [Extra.decode_eq_ok_iff.mpr hsome] at hdecode
        cases hdecode
  events _ ha := List.not_mem_nil ha
  ledger := rfl
  published := rfl
  outputs := rfl
  status _ hw := .inl ⟨_, h.mem_jobs hsimulated hw, rfl⟩

/-- **Simulated workers answer all or nothing.** Where nothing is left to do and the ledger has no
limit, a task is published of which the hub has no output. Whatever the bytes of its extra data are
and however long the workers take, the session comes to rest again. If the extra data decode, each
tracked worker has its own output for the task stored and is idle, nobody else has one, and the
record of the task is complete. If they do not, there is no output for the task, the ledger is what
it was, nothing else is published, and every tracked worker has reported an error. -/
theorem answers_all_or_nothing (hquiet : s.Quiet)
    (hsimulated : s.orchestrator.hub.simulated = true)
    (haccepting : s.orchestrator.hub.rejecting = false)
    (hunlimited : s.orchestrator.ledger.Unlimited)
    (hnew : ∀ w, s.orchestrator.hub.outputs.get? (w, t) = none) (u : UserInput)
    (chance : Chance) :
    let s' := (s.apply (.publish t u)).2.settle chance
    s'.Quiet ∧
      (∀ e, Extra.decode u.extraData = .ok e →
        (∀ w, w.isTracked = true →
          (∃ output, s'.orchestrator.hub.outputs.get? (w, t) = some output ∧ output.worker = w ∧
            output.task = some t) ∧ s'.orchestrator.registry.status w = .idle) ∧
        (∀ w, w.isTracked = false → s'.orchestrator.hub.outputs.get? (w, t) = none) ∧
        ∃ r, s'.orchestrator.ledger.record? t = some r ∧ r.isComplete = true) ∧
      ∀ fault, Extra.decode u.extraData = .error fault →
        (∀ w, s'.orchestrator.hub.outputs.get? (w, t) = none) ∧
          s'.orchestrator.ledger = s.orchestrator.ledger ∧
          s'.orchestrator.hub.published = s.orchestrator.hub.published ++ [t] ∧
          ∀ w, w.isTracked = true → s'.orchestrator.registry.status w = .error := by
  rw [apply_publish_of_accepting haccepting]
  intro s'
  have hlive : (s.withHub (s.orchestrator.hub.withInput t u)).Live :=
    ⟨hquiet.loop, hquiet.channel⟩
  have hpending : (s.withHub (s.orchestrator.hub.withInput t u)).pending = [] := hquiet.pending
  obtain ⟨hquiet', n, hturns⟩ : s'.Quiet ∧ ∃ n, Turns _ n s' := hlive.settle chance
  rw [Turns, hpending, hquiet'.pending] at hturns
  refine ⟨hquiet', fun e hdecode => ?_, fun fault hdecode => ?_⟩
  · have hanswering := hturns.preserves Orchestrator.Turn.answering
      (hquiet.answering hsimulated hunlimited hnew hdecode)
    refine ⟨fun w hw => ⟨?_, ?_⟩, fun w hw => ?_, ?_⟩
    · exact (hanswering.answered hquiet'.jobs hw).2
    · exact (hanswering.status w hw).status_eq hquiet'.jobs
    · cases houtput : s'.orchestrator.hub.outputs.get? (w, t) with
      | none => rfl
      | some output =>
          rw [(hanswering.stored houtput).1] at hw
          cases hw
    · exact hanswering.unlimited.consistent.isComplete_of_available fun w hw =>
        (hanswering.answered hquiet'.jobs hw).1
  · have hfailing := hturns.preserves Orchestrator.Turn.failing (hquiet.failing hsimulated hdecode)
    refine ⟨fun w => ?_, hfailing.ledger, hfailing.published, fun w hw => ?_⟩
    · rw [hfailing.outputs]
      exact hnew w
    · exact (hfailing.status w hw).status_eq hquiet'.jobs

/-- The first input asks for two outputs; the extra data of the second break off. -/
theorem answers_all_or_nothing_brokenOff :
    let s := new {} { simulated := true }
    let hinted : UserInput :=
      { brief := { shortDescription := "count the cells" }
        extraData := Extra.encode { numOutputs := some 2 } }
    let broken : UserInput := { hinted with extraData := "\x7b\"num_outputs\": 2".toUTF8 }
    let chance := Chance.ofDraws {} fun _ _ _ => 0
    ((s.apply (.publish ⟨7, 0⟩ hinted)).2.settle chance).orchestrator.registry.status
        .carbonFootprint = .idle ∧
      (∃ r, ((s.apply (.publish ⟨7, 0⟩ hinted)).2.settle chance).orchestrator.ledger.record?
        ⟨7, 0⟩ = some r ∧ r.isComplete = true) ∧
      ((s.apply (.publish ⟨7, 0⟩ broken)).2.settle chance).orchestrator.registry.status
        .carbonFootprint = .error ∧
      ((s.apply (.publish ⟨7, 0⟩ broken)).2.settle chance).orchestrator.hub.published =
        [⟨7, 0⟩] := by
  intro s hinted broken chance
  have hquiet : s.Quiet := ⟨⟨nofun, rfl⟩, rfl, rfl⟩
  have hnew (w : Worker) : s.orchestrator.hub.outputs.get? (w, ⟨7, 0⟩) = none :=
    Table.get?_empty _
  have hanswers (u : UserInput) :=
    answers_all_or_nothing hquiet rfl rfl ⟨[], rfl⟩ hnew u chance
  have hreads : (Extra.decode? hinted.extraData).isSome = true := by decide +kernel
  obtain ⟨e, he⟩ := Option.isSome_iff_exists.mp hreads
  have hbroken : Extra.decode? broken.extraData = none := by
    rw [← Option.isNone_iff_eq_none]
    decide +kernel
  have hfault : ∃ fault, Extra.decode broken.extraData = .error fault := by
    rw [Extra.decode, hbroken]
    exact ⟨_, rfl⟩
  obtain ⟨fault, hfault⟩ := hfault
  obtain ⟨hall, -, hcomplete⟩ := (hanswers hinted).2.1 e (Extra.decode_eq_ok_iff.mpr he)
  obtain ⟨-, -, hpublished, herror⟩ := (hanswers broken).2.2 fault hfault
  exact ⟨(hall .carbonFootprint rfl).2, hcomplete, herror .carbonFootprint rfl, hpublished⟩

end Session

end WorkerPipeline
