import WorkerPipeline.Proofs.Session.Numbering

set_option autoImplicit false

/-! # The order of publications

Without a limit every published task stays known in the ledger, and the task after the base of a
continuation is not known, so it is beyond all published tasks of its problem. The first task of a
problem could come too late only if another task of it was published before; that needs a caller
who continues a problem that was not started. So where the callers do not, the iterations of every
problem are published in order, whatever results and allocations come in between
(`publication_order`).
-/

namespace WorkerPipeline

/-- The task that a caller wants to continue. -/
def Command.continued? : Command → Option TaskId
  | .submit s => s.predecessor?
  | _ => none

namespace Ledger

variable {l : Ledger} {t u : TaskId}

/-- A task that is not known is beyond those of its problem that are. -/
theorem lt_of_isKnown (hu : l.isKnown u = true) (ht : l.isKnown t = false)
    (hproblem : u.problem = t.problem) : u.iteration < t.iteration := by
  obtain ⟨v, hv, hle⟩ := isKnown_iff.mp hu
  rw [hproblem] at hv
  simp only [isKnown, hv, decide_eq_false_iff_not, UInt32.not_le] at ht
  exact UInt32.lt_of_le_of_lt hle ht

theorem isKnown_touch_of_limit_none (hlimit : l.limit = none) (h : l.isKnown u = true) :
    (l.touch t).isKnown u = true := by
  refine isKnown_touch h ?_
  rw [evicted_of_limit_none t hlimit]
  exact List.not_mem_nil

theorem isKnown_release (l : Ledger) (t u : TaskId) : (l.release t).isKnown u = l.isKnown u := by
  rw [isKnown, latest_release]
  rfl

end Ledger

namespace Orchestrator

/-- Nothing is evicted, the published tasks are known and their problems were started, and the
iterations of each problem were published in order. -/
structure Ordered (o : Orchestrator) : Prop where
  consistent : o.ledger.Consistent
  limit : o.ledger.limit = none
  known : ∀ t ∈ o.hub.published, o.ledger.isKnown t = true
  started : ∀ t ∈ o.hub.published, o.hub.allocated.contains (.first t.problem) = true
  stored : ∀ t, (o.hub.inputs.get? t).isSome → t ∈ o.hub.published
  increasing : o.hub.published.Pairwise fun t u =>
    t.problem = u.problem → t.iteration < u.iteration

variable {o o' : Orchestrator} {s : Submission} {t : TaskId} {hub : Hub}

/-! ## Where nothing is published -/

theorem Ordered.of_keeps (ho : o.Ordered) (hkeeps : o.hub.Keeps o'.hub)
    (hallocated : ∀ t, o.hub.allocated.contains t = true → o'.hub.allocated.contains t = true)
    (hconsistent : o'.ledger.Consistent) (hlimit : o'.ledger.limit = none)
    (hknown : ∀ t, o.ledger.isKnown t = true → o'.ledger.isKnown t = true) : o'.Ordered where
  consistent := hconsistent
  limit := hlimit
  known := by
    rw [hkeeps.published]
    exact fun t ht => hknown t (ho.known t ht)
  started := by
    rw [hkeeps.published]
    exact fun t ht => hallocated _ (ho.started t ht)
  stored := by
    rw [hkeeps.published, hkeeps.inputs]
    exact ho.stored
  increasing := by
    rw [hkeeps.published]
    exact ho.increasing

theorem Ordered.of_sameTasks (ho : o.Ordered) (hledger : o'.ledger = o.ledger)
    (hsame : o.hub.SameTasks o'.hub) : o'.Ordered := by
  refine ho.of_keeps ⟨hsame.published, hsame.inputs⟩ ?_ ?_ ?_ ?_
  · rw [hsame.allocated]
    exact fun _ h => h
  · rw [hledger]
    exact ho.consistent
  · rw [hledger]
    exact ho.limit
  · rw [hledger]
    exact fun _ h => h

theorem Ordered.registerResult (ho : o.Ordered) {w : Worker}
    (hledger : o'.ledger = o.ledger.registerResult t w) (hhub : o'.hub = o.hub) : o'.Ordered := by
  refine ho.of_keeps (.of_eq hhub) ?_ ?_ ?_ fun u hu => ?_
  · rw [hhub]
    exact fun _ h => h
  · rw [hledger]
    exact ho.consistent.registerResult t w
  · rw [hledger, Ledger.limit_registerResult]
    exact ho.limit
  · rw [hledger, Ledger.isKnown_registerResult]
    exact Ledger.isKnown_touch_of_limit_none ho.limit hu

/-! ## Submissions -/

/-- The task for a submission is beyond all published ones of its problem. -/
theorem Allocates.beyond (halloc : o.Allocates s t hub) (hvalid : s.fault? = none)
    (ho : o.Ordered)
    (hnew : s.startsProblem = true → o.hub.allocated.contains (.first o.hub.nextProblem) = false) :
    ∀ u ∈ o.hub.published, u.problem = t.problem → u.iteration < t.iteration := by
  intro u hu hproblem
  cases halloc with
  | fresh hp =>
      -- nothing of a problem is published before the problem is started
      have hstarted := ho.started u hu
      rw [hproblem] at hstarted
      change o.hub.allocated.contains (.first o.hub.nextProblem) = true at hstarted
      rw [hnew (Submission.startsProblem_iff.mpr ⟨hvalid, hp⟩)] at hstarted
      cases hstarted
  | next _ hnext =>
      have hunknown := ho.consistent.isKnown_eq_false_of_next?_base hnext
      exact Ledger.lt_of_isKnown (ho.known u hu) hunknown hproblem

theorem Allocates.contains_first (halloc : o.Allocates s t hub) (hl : o.ledger.Consistent)
    (hstarted : ∀ candidate, s.predecessor? = some candidate →
      o.hub.allocated.contains (.first candidate.problem) = true) :
    hub.allocated.contains (.first t.problem) = true := by
  cases halloc with
  | fresh => exact (Table.contains_insert _ _ _ _).mpr (.inl rfl)
  | @next candidate _ hp hnext =>
      have hproblem := (TaskId.lt_iff.mp (TaskId.lt_of_next? hnext)).1
      rw [hl.problem_base] at hproblem
      rw [← hproblem]
      exact (Table.contains_insert _ _ _ _).mpr (.inr (hstarted candidate hp))

/-- A submission whose problem was started is published in order. -/
theorem Ordered.submit (ho : o.Ordered)
    (hnew : s.startsProblem = true → o.hub.allocated.contains (.first o.hub.nextProblem) = false)
    (hstarted : ∀ candidate, s.predecessor? = some candidate →
      o.hub.allocated.contains (.first candidate.problem) = true) : (o.submit s).2.Ordered := by
  have hsubmits := o.submits s
  generalize o.submit s = submitted at hsubmits ⊢
  obtain ⟨outcome, o'⟩ := submitted
  cases hsubmits with
  | refused haside hhub =>
      exact ho.of_sameTasks haside.ledger (Hub.Calm.of_eq hhub).toSameTasks
  | @rejected t _ hvalid halloc _ hledger =>
      refine ho.of_keeps halloc.keeps (fun u hu => (halloc.contains_iff u).mpr (.inr hu)) ?_ ?_
        fun u hu => ?_
      · rw [hledger]
        exact (ho.consistent.reserve t).release t
      · rw [hledger, Ledger.limit_release]
        exact ho.limit
      · rw [hledger, Ledger.isKnown_release, Ledger.isKnown_reserve]
        exact hu
  | @accepted t hub _ hvalid halloc _ hledger hhub =>
      have hbeyond := halloc.beyond hvalid ho hnew
      have hreserved := ho.consistent.reserve t
      have hpublished : o'.hub.published = o.hub.published ++ [t] := by
        rw [hhub]
        exact congrArg (· ++ [t]) halloc.keeps.published
      have hmem (u : TaskId) : u ∈ o'.hub.published ↔ u ∈ o.hub.published ∨ u = t := by
        rw [hpublished, List.mem_append, List.mem_singleton]
      exact {
        consistent := by
          rw [hledger]
          exact hreserved.touch t
        limit := by
          rw [hledger]
          exact ho.limit
        known := by
          intro u hu
          rw [hledger]
          rcases (hmem u).mp hu with hold | rfl
          · exact Ledger.isKnown_touch_of_limit_none ho.limit (ho.known u hold)
          · exact hreserved.isKnown_touch_self u
        started := by
          intro u hu
          rw [hhub]
          rcases (hmem u).mp hu with hold | rfl
          · exact (halloc.contains_iff _).mpr (.inr (ho.started u hold))
          · exact halloc.contains_first ho.consistent hstarted
        stored := by
          intro u hu
          rw [hmem]
          rw [hhub, Hub.withInput, Table.get?_insert] at hu
          split at hu
          · rename_i ht
            exact .inr ht.symm
          · rw [halloc.keeps.inputs] at hu
            exact .inl (ho.stored u hu)
        increasing := by
          rw [hpublished, List.pairwise_append]
          refine ⟨ho.increasing, List.pairwise_singleton _ _, fun u hu v hv => ?_⟩
          rw [List.mem_singleton.mp hv]
          exact hbeyond u hu }

/-- The chain goes on from published tasks only. -/
theorem Proceed.ordered (hproceed : o.Proceed o') (ho : o.Ordered) : o'.Ordered := by
  cases hproceed with
  | register hledger hhub => exact ho.registerResult hledger hhub
  | calm hledger hcalm => exact ho.of_sameTasks hledger hcalm.toSameTasks
  | @follow s candidate hp hstored ho' =>
      have hstarts : s.startsProblem = false := by simp [Submission.startsProblem, hp]
      rw [ho']
      refine ho.submit (fun h => ?_) fun candidate' hp' => ?_
      · rw [hstarts] at h
        cases h
      · rw [hp] at hp'
        cases hp'
        exact ho.started candidate (ho.stored candidate hstored)

end Orchestrator

namespace Session

open Orchestrator

/-! ## Runs -/

/-- The callers continue only problems that the hub's counter has started. -/
def ContinuesStarted (s : Session) : List Command → Prop
  | [] => True
  | c :: commands =>
    (∀ t ∈ c.continued?, s.orchestrator.hub.allocated.contains (.first t.problem) = true) ∧
      (s.apply c).2.ContinuesStarted commands

instance decidableContinuesStarted (s : Session) :
    (commands : List Command) → Decidable (s.ContinuesStarted commands)
  | [] => inferInstanceAs (Decidable True)
  | c :: commands =>
    have := decidableContinuesStarted (s.apply c).2 commands
    inferInstanceAs (Decidable (_ ∧ _))

theorem ordered_apply {s : Session} {c : Command} (ho : s.orchestrator.Ordered)
    (hdirect : ∀ t u, c ≠ .publish t u)
    (hnew : c.startsProblem = true →
      s.orchestrator.hub.allocated.contains (.first s.orchestrator.hub.nextProblem) = false)
    (hstarted : ∀ t ∈ c.continued?,
      s.orchestrator.hub.allocated.contains (.first t.problem) = true) :
    (s.apply c).2.orchestrator.Ordered := by
  have hallocate (hub : Hub) (hkeeps : s.orchestrator.hub.Keeps hub) (t : TaskId)
      (hinsert : hub.allocated = s.orchestrator.hub.allocated.insert t ()) :
      (s.withHub hub).orchestrator.Ordered := by
    refine ho.of_keeps hkeeps (fun u hu => ?_) ho.consistent ho.limit fun _ h => h
    show hub.allocated.contains u = true
    rw [hinsert]
    exact (Table.contains_insert _ _ _ _).mpr (.inr hu)
  cases c with
  | submit input => exact ho.submit hnew hstarted
  | publish t u => exact absurd rfl (hdirect t u)
  | deliver w output => exact ho.of_sameTasks rfl (Hub.sameTasks_deliver _ w output)
  | deliverStatus w status =>
      obtain ⟨hub, happly, hannounces⟩ := s.apply_deliverStatus w status
      rw [happly]
      exact ho.of_sameTasks rfl hannounces.toSameTasks
  | allocateTask => exact hallocate _ ⟨rfl, rfl⟩ _ rfl
  | allocateIteration base =>
      rcases s.apply_allocateIteration base with happly | ⟨t, -, happly⟩
      · rw [happly]
        exact ho
      · rw [happly]
        exact hallocate _ ⟨rfl, rfl⟩ t rfl
  | _ => exact (proceeds_apply s rfl).preserves Proceed.ordered ho

theorem ordered_run {s : Session} {commands : List Command} {start n : Nat}
    (ho : s.orchestrator.Ordered) (hissued : s.orchestrator.hub.Issued start n)
    (hdirect : ∀ t u, .publish t u ∉ commands)
    (hroom : start + n + commands.countP Command.startsProblem ≤ UInt32.size)
    (hstarted : s.ContinuesStarted commands) : (s.run commands).orchestrator.Ordered := by
  induction commands generalizing s n with
  | nil => exact ho
  | cons c commands ih =>
      rw [countP_startsProblem_cons] at hroom
      have hnow : ∀ t u, c ≠ .publish t u := fun t u heq => hdirect t u (heq ▸ List.mem_cons_self)
      have hlater : ∀ t u, .publish t u ∉ commands :=
        fun t u hmem => hdirect t u (List.mem_cons_of_mem _ hmem)
      have hnumber : c.startsProblem = true → start + n < UInt32.size := by
        intro hstarts
        rw [hstarts, Bool.toNat_true] at hroom
        omega
      have hordered :=
        ordered_apply ho hnow (fun h => hissued.contains_first (hnumber h)) hstarted.1
      exact ih hordered (issued_apply hissued hnow hnumber) hlater (by omega) hstarted.2

theorem ordered_new {settings : Settings} (hretention : settings.retention = none) {hub : Hub}
    (hhub : hub.Untouched) : (new settings hub).orchestrator.Ordered where
  consistent := Ledger.consistent_new _
  limit := hretention
  known t ht := by
    rw [hub_new, hhub.published] at ht
    cases ht
  started t ht := by
    rw [hub_new, hhub.published] at ht
    cases ht
  stored t ht := by
    rw [hub_new, hhub.inputs] at ht
    cases ht
  increasing := by
    rw [hub_new, hhub.published]
    exact .nil

/-- **Published tasks are unique and move forward.** In a run without publications past the
orchestrator, and as long as the numbers for problems last, no task is published twice, and the
submissions are answered with different tasks, under any limit. If there is no limit and the
callers continue only problems that were started, the iterations of every problem are published in
increasing order. -/
theorem publication_order (settings : Settings) {hub : Hub} (hhub : hub.Untouched)
    {commands : List Command} (hdirect : ∀ t u, .publish t u ∉ commands)
    (hroom : hub.nextProblem.toNat + commands.countP Command.startsProblem ≤ UInt32.size) :
    let published := ((new settings hub).run commands).orchestrator.hub.published
    published.Nodup ∧ ((new settings hub).submitted commands).Nodup ∧
    (settings.retention = none → (new settings hub).ContinuesStarted commands →
      ∀ p, ((published.filter fun t => t.problem = p).map TaskId.iteration).Pairwise (· < ·)) := by
  intro published
  have hissued : (new settings hub).orchestrator.hub.Issued hub.nextProblem.toNat 0 := hhub.issued
  have hnodup : published.Nodup := (issued_run hissued hdirect hroom).nodup
  refine ⟨hnodup, ?_, fun hretention hstarted p => ?_⟩
  · obtain ⟨added, hadded, hanswers⟩ := (new settings hub).published_run commands
    have hall : published = added := by
      show ((new settings hub).run commands).orchestrator.hub.published = added
      rw [hadded, hub_new, hhub.published, List.nil_append]
    rw [hall] at hnodup
    exact hanswers.nodup hnodup
  · have hordered := ordered_run (ordered_new hretention hhub) hissued hdirect hroom hstarted
    rw [List.pairwise_map]
    refine List.Pairwise.imp_of_mem ?_ (hordered.increasing.filter _)
    intro t u ht hu hlt
    have htp : t.problem = p := of_decide_eq_true (List.mem_filter.mp ht).2
    have hup : u.problem = p := of_decide_eq_true (List.mem_filter.mp hu).2
    exact hlt (htp.trans hup.symm)

/-- A caller continues a problem twice from its first task, once after the chain and a stray result
have moved it on, and starts another one in between. -/
def continuedTwice : List Command :=
  let input : Submission := { brief := { shortDescription := "count the cells" } }
  let continuation : Submission :=
    { input with previousIteration := some 0, extra := { previousProblem := some 7 } }
  let footprint : Output :=
    .carbonFootprint
      { task := some ⟨7, 0⟩, extraData := Extra.encode { numOutputs := some 3 } }
  [.submit input, .submit continuation, .deliver .carbonFootprint footprint, .pump,
    .allocateTask, .submit input, .register ⟨7, 4⟩ .hwProvider, .submit continuation]

/-- The numbers start at seven, and one of them goes to a caller who publishes nothing. -/
theorem publication_order_continuedTwice :
    let hub : Hub := { nextProblem := 7 }
    let published := ((new {} hub).run continuedTwice).orchestrator.hub.published
    hub.Untouched ∧ published = [⟨7, 0⟩, ⟨7, 1⟩, ⟨7, 2⟩, ⟨9, 0⟩, ⟨7, 5⟩] ∧
    ((new {} hub).submitted continuedTwice).Nodup ∧
    ((published.filter fun t => t.problem = 7).map TaskId.iteration).Pairwise (· < ·) := by
  intro hub published
  have hhub : hub.Untouched := ⟨rfl, rfl, rfl, rfl, rfl⟩
  have hdirect : ∀ t u, .publish t u ∉ continuedTwice := by
    intro t u h
    simp [continuedTwice] at h
  have hroom : hub.nextProblem.toNat + continuedTwice.countP Command.startsProblem ≤
      UInt32.size := by decide +kernel
  have hstarted : (new {} hub).ContinuesStarted continuedTwice := by decide +kernel
  obtain ⟨-, hsubmitted, hincreasing⟩ := publication_order {} hhub hdirect hroom
  exact ⟨hhub, by decide +kernel, hsubmitted, hincreasing rfl hstarted 7⟩

end Session

end WorkerPipeline
