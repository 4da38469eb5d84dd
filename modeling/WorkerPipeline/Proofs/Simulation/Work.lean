import Mathlib.Data.List.Nodup
import WorkerPipeline.Proofs.Simulation.Bookkeeping
import WorkerPipeline.Simulation.Schedule

set_option autoImplicit false

/-! # Outstanding work

A result of a simulated worker is first a job, then an output that is stored and announced, and at
last a flag in the ledger. At any time each result of a published iteration is at one of these
stages: `WorkAt` says so by listing the results that are not in the ledger yet, each of them once.
Its lemmas follow a result from stage to stage.
-/

namespace WorkerPipeline

/-! ## What is outstanding -/

/-- The result that a job is to produce. -/
def Job.subject (j : Job) : Worker × Option TaskId := (j.worker, some j.task)

/-- The result that is announced. -/
def Arrival.subject (a : Arrival) : Worker × Option TaskId := (a.worker, a.task)

/-- The output that an event announces. -/
def Event.arrival? : Event → Option Arrival
  | .newOutput a => some a
  | .statusChanged _ => none

/-- The results that are worked on or announced. -/
def outstanding (jobs : List Job) (arrivals : List Arrival) : List (Worker × Option TaskId) :=
  jobs.map Job.subject ++ arrivals.map Arrival.subject

/-- What a job is about, whenever it is due. -/
def Job.order (j : Job) : Worker × TaskId × UserInput := (j.worker, j.task, j.input)

theorem subject_eq_of_order (jobs : List Job) :
    jobs.map Job.subject = (jobs.map Job.order).map fun e => (e.1, some e.2.1) := by
  rw [List.map_map]
  rfl

namespace Chain

variable {c : Chain} {n : Nat} {l : Ledger} {h : Hub} {pending : List Arrival}

/-- An output that a simulated worker can come up with for an iteration. -/
def IsProduct (c : Chain) (i : Nat) (w : Worker) (o : Output) : Prop :=
  ∃ readings, Simulation.product? readings w (c.task i) (c.input i) (c.extra i).reread = some o

/-- The carbon footprint tells what the next iteration needs. -/
theorem IsProduct.extra_carbonFootprint {i : Nat} {o : Output}
    (h : c.IsProduct i .carbonFootprint o) (hi : i < UInt32.size) : o.extra = .ok (c.carbonExtra i) := by
  obtain ⟨readings, hreadings⟩ := h
  cases hreadings
  rw [Output.extra, Extra.decode_eq_ok_iff, ← c.decode?_carbonExtra i, carbonExtra,
    ← c.modelName_input hi]
  rfl

/-- The extra data of every product can be decoded. -/
theorem IsProduct.extra (hlasts : c.submission.extra.Lasts) {i : Nat} (hi : i < UInt32.size)
    {w : Worker} {o : Output} (h : c.IsProduct i w o) : ∃ e, o.extra = .ok e := by
  have hinput : Extra.decode (c.input i).extraData = .ok (c.extra i).reread :=
    Extra.decode_eq_ok_iff.mpr (decode?_input hlasts i)
  by_cases hw : w = .carbonFootprint
  · subst hw
    exact ⟨_, h.extra_carbonFootprint hi⟩
  · -- all but the carbon footprint hand the extra data on as they are
    obtain ⟨readings, hreadings⟩ := h
    generalize c.input i = u at hreadings hinput
    refine ⟨_, Eq.trans ?_ hinput⟩
    cases w with
    | carbonFootprint => exact absurd rfl hw
    | orchestrator | unknown => cases hreadings
    | appRequirements | hwConstraints | hwProvider | mlModelMetadata | mlModelProvider =>
        cases hreadings
        rfl

/-- The stages of the results of the first `n` iterations, with the outputs that are announced. -/
structure WorkAt (c : Chain) (n : Nat) (l : Ledger) (h : Hub) (pending : List Arrival) : Prop where
  nodup : (outstanding h.jobs pending).Nodup
  mem_outstanding : ∀ w t, (w, some t) ∈ outstanding h.jobs pending ↔
    w.isTracked = true ∧ (∃ i < n, t = c.task i) ∧ l.available t w = false
  jobs : ∀ j ∈ h.jobs, ∃ i < n, j.task = c.task i ∧ j.input = c.input i
  arrivals : ∀ a ∈ pending, ∃ i < n, a.task = some (c.task i) ∧ c.IsProduct i a.worker a.output
  stored : ∀ w, w.isTracked = true → ∀ i < n, (w, some (c.task i)) ∉ h.jobs.map Job.subject →
    ∃ o, h.outputs.get? (w, c.task i) = some o ∧ c.IsProduct i w o

theorem workAt_zero (hjobs : h.jobs = []) : c.WorkAt 0 l h [] where
  nodup := by simp [outstanding, hjobs]
  mem_outstanding w t := by simp [outstanding, hjobs]
  jobs j hj := by simp [hjobs] at hj
  arrivals a ha := by cases ha
  stored w hw i hi := absurd hi (Nat.not_lt_zero i)

namespace WorkAt

/-! ## Publishing -/

theorem subject_jobsFor (t : TaskId) (u : UserInput) :
    (Hub.jobsFor t u).map Job.subject = Worker.tracked.map fun w => (w, some t) := by
  rw [Hub.jobsFor, List.map_map]
  rfl

theorem mem_subjects {w : Worker} {t u : TaskId} :
    (w, some t) ∈ Worker.tracked.map (fun v => (v, some u)) ↔ w.isTracked = true ∧ t = u := by
  rw [List.mem_map]
  constructor
  · rintro ⟨v, hv, heq⟩
    cases heq
    exact ⟨Worker.mem_tracked.mp hv, rfl⟩
  · rintro ⟨htracked, rfl⟩
    exact ⟨w, Worker.mem_tracked.mpr htracked, rfl⟩

theorem outstanding_append_jobsFor (jobs : List Job) (t : TaskId) (u : UserInput)
    (pending : List Arrival) :
    (outstanding (jobs ++ Hub.jobsFor t u) pending).Perm
      (Worker.tracked.map (fun w => (w, some t)) ++ outstanding jobs pending) := by
  rw [outstanding, outstanding, List.map_append, subject_jobsFor, ← List.append_assoc]
  exact List.perm_append_comm.append_right _

/-- The next iteration brings a job for each tracked worker. -/
theorem publish (hw : c.WorkAt n l h pending) {l' : Ledger} {h' : Hub} (hn : n < UInt32.size)
    (hjobs : h'.jobs = h.jobs ++ Hub.jobsFor (c.task n) (c.input n))
    (houtputs : h'.outputs = h.outputs)
    (hold : ∀ i < n, ∀ w, l'.available (c.task i) w = l.available (c.task i) w)
    (hnew : ∀ w, l'.available (c.task n) w = false) : c.WorkAt (n + 1) l' h' pending := by
  have hne (i : Nat) (hi : i < n) : c.task i ≠ c.task n := by
    intro heq
    have := c.task_inj (by omega) hn heq
    omega
  have hperm := outstanding_append_jobsFor h.jobs (c.task n) (c.input n) pending
  rw [← hjobs] at hperm
  have hnot (w : Worker) : (w, some (c.task n)) ∉ outstanding h.jobs pending := by
    rw [hw.mem_outstanding]
    rintro ⟨-, ⟨i, hi, heq⟩, -⟩
    exact hne i hi heq.symm
  exact {
    nodup := by
      rw [hperm.nodup_iff, List.nodup_append]
      refine ⟨?_, hw.nodup, ?_⟩
      · exact List.Nodup.map (fun v w heq => (Prod.mk.inj heq).1) (by decide)
      · rintro s hs s' hs' rfl
        obtain ⟨w, -, rfl⟩ := List.mem_map.mp hs
        exact hnot w hs'
    mem_outstanding := by
      intro w t
      rw [hperm.mem_iff, List.mem_append, mem_subjects, hw.mem_outstanding]
      constructor
      · rintro (⟨htracked, rfl⟩ | ⟨htracked, ⟨i, hi, rfl⟩, havailable⟩)
        · exact ⟨htracked, ⟨n, Nat.lt_succ_self n, rfl⟩, hnew w⟩
        · exact ⟨htracked, ⟨i, by omega, rfl⟩, (hold i hi w).trans havailable⟩
      · rintro ⟨htracked, ⟨i, hi, rfl⟩, havailable⟩
        rcases Nat.lt_or_ge i n with hlt | hge
        · exact .inr ⟨htracked, ⟨i, hlt, rfl⟩, (hold i hlt w).symm.trans havailable⟩
        · exact .inl ⟨htracked, by rw [show i = n by omega]⟩
    jobs := by
      intro j hj
      rw [hjobs, List.mem_append] at hj
      rcases hj with hj | hj
      · obtain ⟨i, hi, hjob⟩ := hw.jobs j hj
        exact ⟨i, by omega, hjob⟩
      · obtain ⟨w, -, rfl⟩ := List.mem_map.mp hj
        exact ⟨n, Nat.lt_succ_self n, rfl, rfl⟩
    arrivals := by
      intro a ha
      obtain ⟨i, hi, harrival⟩ := hw.arrivals a ha
      exact ⟨i, by omega, harrival⟩
    stored := by
      intro w htracked i hi hnojob
      rw [hjobs, List.map_append, List.mem_append, not_or, subject_jobsFor, mem_subjects] at hnojob
      -- all workers still have a job for iteration `n`
      have hlt : i < n := by
        rcases Nat.lt_or_ge i n with hlt | hge
        · exact hlt
        · exact absurd ⟨htracked, by rw [show i = n by omega]⟩ hnojob.2
      rw [houtputs]
      exact hw.stored w htracked i hlt hnojob.1 }

/-! ## Beginning and ending a job -/

/-- When a job is due and where it is on the list does not matter. -/
theorem of_perm (hw : c.WorkAt n l h pending) {h' : Hub}
    (hperm : (h'.jobs.map Job.order).Perm (h.jobs.map Job.order))
    (houtputs : h'.outputs = h.outputs) : c.WorkAt n l h' pending := by
  have hsubject : (h'.jobs.map Job.subject).Perm (h.jobs.map Job.subject) := by
    rw [subject_eq_of_order, subject_eq_of_order]
    exact hperm.map _
  have houtstanding : (outstanding h'.jobs pending).Perm (outstanding h.jobs pending) :=
    hsubject.append_right _
  exact {
    nodup := houtstanding.nodup_iff.mpr hw.nodup
    mem_outstanding := fun w t => houtstanding.mem_iff.trans (hw.mem_outstanding w t)
    jobs := by
      intro j hj
      obtain ⟨k, hk, horder⟩ := List.mem_map.mp (hperm.mem_iff.mp (List.mem_map_of_mem hj))
      obtain ⟨i, hi, htask, hinput⟩ := hw.jobs k hk
      have htask' : k.task = j.task := congrArg (fun e => e.2.1) horder
      have hinput' : k.input = j.input := congrArg (fun e => e.2.2) horder
      exact ⟨i, hi, htask'.symm.trans htask, hinput'.symm.trans hinput⟩
    arrivals := hw.arrivals
    stored := by
      intro w htracked i hi hnojob
      rw [houtputs]
      exact hw.stored w htracked i hi fun hjob => hnojob (hsubject.mem_iff.mpr hjob) }

/-- A job that is ended leaves the list; its output is stored and announced. -/
theorem finish (hw : c.WorkAt n l h pending) (hn : n ≤ UInt32.size) {h' : Hub} {j : Job} {o : Output}
    {i : Nat} (hi : i < n) (hperm : h.jobs.Perm (j :: h'.jobs))
    (houtputs : h'.outputs = h.outputs.insert (j.worker, j.task) o) (htask : j.task = c.task i)
    (ho : c.IsProduct i j.worker o) :
    c.WorkAt n l h' (pending ++ [⟨j.worker, some j.task, o⟩]) := by
  have hsubject : (h.jobs.map Job.subject).Perm (j.subject :: h'.jobs.map Job.subject) :=
    hperm.map _
  have houtstanding : (outstanding h'.jobs (pending ++ [⟨j.worker, some j.task, o⟩])).Perm
      (outstanding h.jobs pending) := by
    rw [outstanding, outstanding, List.map_append, ← List.append_assoc]
    exact (List.perm_append_singleton j.subject _).trans (hsubject.append_right _).symm
  exact {
    nodup := houtstanding.nodup_iff.mpr hw.nodup
    mem_outstanding := fun w t => houtstanding.mem_iff.trans (hw.mem_outstanding w t)
    jobs := fun k hk => hw.jobs k (hperm.mem_iff.mpr (List.mem_cons_of_mem j hk))
    arrivals := by
      intro a ha
      rcases List.mem_append.mp ha with ha | ha
      · exact hw.arrivals a ha
      · rw [List.mem_singleton.mp ha]
        exact ⟨i, hi, congrArg some htask, ho⟩
    stored := by
      intro w htracked k hk hnojob
      rw [houtputs]
      by_cases hself : (j.worker, j.task) = (w, c.task k)
      · obtain ⟨rfl, htask'⟩ := Prod.mk.inj hself
        have hik : i = k := c.task_inj (by omega) (by omega) (htask.symm.trans htask')
        subst hik
        exact ⟨o, by rw [hself, Table.get?_insert_self], ho⟩
      · -- any other output was stored before, since its job is not the one that ends
        rw [Table.get?_insert_of_ne hself]
        refine hw.stored w htracked k hk fun hjob => ?_
        rcases List.mem_cons.mp (hsubject.mem_iff.mp hjob) with heq | hjob
        · obtain ⟨rfl, htask'⟩ := Prod.mk.inj heq
          exact hself (by rw [Option.some.inj htask'])
        · exact hnojob hjob }

/-! ## Registering -/

/-- An output that is announced is new to the ledger. -/
theorem awaited {a : Arrival} (hw : c.WorkAt n l h (a :: pending)) :
    ∃ i < n, a.task = some (c.task i) ∧ c.IsProduct i a.worker a.output ∧
      a.worker.isTracked = true ∧ l.available (c.task i) a.worker = false := by
  obtain ⟨i, hi, htask, hproduct⟩ := hw.arrivals a List.mem_cons_self
  have hmem : (a.worker, some (c.task i)) ∈ outstanding h.jobs (a :: pending) := by
    rw [← htask]
    exact List.mem_append_right _ List.mem_cons_self
  obtain ⟨htracked, -, havailable⟩ := (hw.mem_outstanding a.worker (c.task i)).mp hmem
  exact ⟨i, hi, htask, hproduct, htracked, havailable⟩

/-- Once an output is registered it is not outstanding any more. -/
theorem register {a : Arrival} (hw : c.WorkAt n l h (a :: pending)) {l' : Ledger}
    (hl : ∀ t w, l'.available t w =
      (decide (a.subject = (w, some t)) || l.available t w)) :
    c.WorkAt n l' h pending := by
  have hperm : (outstanding h.jobs (a :: pending)).Perm (a.subject :: outstanding h.jobs pending) :=
    List.perm_middle
  have hnodup := List.nodup_cons.mp (hperm.nodup_iff.mp hw.nodup)
  exact {
    nodup := hnodup.2
    mem_outstanding := by
      intro w t
      have hmem := (hperm.mem_iff (a := (w, some t))).symm.trans (hw.mem_outstanding w t)
      rw [List.mem_cons] at hmem
      rw [hl]
      -- it was outstanding once, so it is no longer
      by_cases hself : a.subject = (w, some t)
      · simp only [hself, decide_true, Bool.true_or, Bool.true_eq_false, and_false, iff_false]
        exact hself ▸ hnodup.1
      · simp only [hself, decide_false, Bool.false_or]
        rw [← hmem]
        exact ⟨.inr, fun h => h.resolve_left (Ne.symm hself)⟩
    jobs := hw.jobs
    arrivals := fun b hb => hw.arrivals b (List.mem_cons_of_mem a hb)
    stored := hw.stored }

/-- Where no job and no announcement is left, everything has arrived and is stored. -/
theorem complete (hw : c.WorkAt n l h []) (hjobs : h.jobs = []) {w : Worker}
    (htracked : w.isTracked = true) {i : Nat} (hi : i < n) :
    l.available (c.task i) w = true ∧
      ∃ o, h.outputs.get? (w, c.task i) = some o ∧ c.IsProduct i w o := by
  constructor
  · cases havailable : l.available (c.task i) w with
    | true => rfl
    | false =>
        have hmem := (hw.mem_outstanding w (c.task i)).mpr ⟨htracked, ⟨i, hi, rfl⟩, havailable⟩
        rw [outstanding, hjobs] at hmem
        cases hmem
  · refine hw.stored w htracked i hi ?_
    rw [hjobs]
    exact List.not_mem_nil

end WorkAt

end Chain

end WorkerPipeline
