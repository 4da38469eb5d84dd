import WorkerPipeline.Proofs.Ledger.Unlimited
import WorkerPipeline.Proofs.Session.Acceptance

set_option autoImplicit false

/-! # Which task a continuation gets

The base of a continuation comes from the ledger, and whether the task after it is free is up to
the hub. Without a limit the ledger knows of every task that the hub has given out, so the base is
the newest task of the problem and the one after it is free (`continuation_follows_newest`). A limit
makes the ledger forget a problem of which the hub remembers all tasks. Then the candidate is its
own base, and the next task may well be taken, or free but behind others
(`continuation_after_eviction`).
-/

namespace WorkerPipeline

/-! ## The newest iteration -/

instance lawfulOrderMax_uint32 : Std.LawfulOrderMax UInt32 where
  max_eq_or i j := by
    show (if i ≤ j then j else i) = i ∨ (if i ≤ j then j else i) = j
    split
    · exact .inr rfl
    · exact .inl rfl
  max_le_iff i j k := by
    show (if i ≤ j then j else i) ≤ k ↔ i ≤ k ∧ j ≤ k
    split <;> grind

namespace TaskId

variable {t u : TaskId} {tasks : List TaskId}

theorem next?_eq_some_iff : t.next? = some u ↔
    t.iteration.toNat + 1 < UInt32.size ∧ u = ⟨t.problem, t.iteration + 1⟩ := by
  unfold next?
  split
  · rename_i hroom
    simp [hroom, eq_comm]
  · rename_i hroom
    simp [hroom]

theorem next?_eq_none_iff : t.next? = none ↔ t.iteration.toNat + 1 = UInt32.size := by
  have hsize : t.iteration.toNat < UInt32.size := t.iteration.toNat_lt
  unfold next?
  split
  · simp only [reduceCtorEq, false_iff]
    omega
  · simp only [true_iff]
    omega

/-- There is no iteration between a task and the next one. -/
theorem le_of_lt_next? (h : t.next? = some u) {i : UInt32} (hi : i < u.iteration) :
    i ≤ t.iteration := by
  obtain ⟨hroom, rfl⟩ := next?_eq_some_iff.mp h
  rw [UInt32.lt_iff_toNat_lt, UInt32.toNat_add, UInt32.toNat_one, Nat.mod_eq_of_lt hroom] at hi
  exact UInt32.le_iff_toNat_le.mpr (Nat.le_of_lt_succ hi)

/-- The newest iteration of a task's problem among some tasks, the task included. -/
def newestIteration (t : TaskId) (tasks : List TaskId) : UInt32 :=
  ((t :: Ledger.ofProblem t.problem tasks).map iteration).max (by simp)

theorem problem_eq_of_mem_cons_ofProblem (h : u ∈ t :: Ledger.ofProblem t.problem tasks) :
    u.problem = t.problem := by
  rcases List.mem_cons.mp h with rfl | hu
  · rfl
  · exact (Ledger.mem_ofProblem.mp hu).2

theorem isLastOf_newestIteration (t : TaskId) (tasks : List TaskId) :
    IsLastOf ⟨t.problem, t.newestIteration tasks⟩ (t :: Ledger.ofProblem t.problem tasks) := by
  obtain ⟨hmem, hle⟩ := (List.max_eq_iff _).mp (rfl : t.newestIteration tasks = _)
  obtain ⟨u, hu, hiteration⟩ := List.mem_map.mp hmem
  have hnewest : (⟨t.problem, t.newestIteration tasks⟩ : TaskId) = u := by
    rw [← hiteration, ← problem_eq_of_mem_cons_ofProblem hu]
  refine ⟨hnewest ▸ hu, fun v hv => ?_⟩
  have hproblem : v.problem = t.problem := problem_eq_of_mem_cons_ofProblem hv
  exact .inr ⟨hproblem, hle _ (List.mem_map_of_mem hv)⟩

/-- Only which tasks there are counts. -/
theorem newestIteration_congr (t : TaskId) {tasks tasks' : List TaskId}
    (h : ∀ u, u ∈ tasks ↔ u ∈ tasks') : t.newestIteration tasks = t.newestIteration tasks' := by
  obtain ⟨hmem, hlast⟩ := t.isLastOf_newestIteration tasks
  have hsame (u : TaskId) : u ∈ t :: Ledger.ofProblem t.problem tasks ↔
      u ∈ t :: Ledger.ofProblem t.problem tasks' := by
    rw [List.mem_cons, List.mem_cons, Ledger.mem_ofProblem, Ledger.mem_ofProblem, h]
  -- the last of a list is the last of any other with the same members
  have hlast' : IsLastOf ⟨t.problem, t.newestIteration tasks⟩
      (t :: Ledger.ofProblem t.problem tasks') :=
    ⟨(hsame _).mp hmem, fun u hu => hlast u ((hsame u).mpr hu)⟩
  exact congrArg iteration (hlast'.unique (t.isLastOf_newestIteration tasks'))

theorem le_newestIteration (h : u ∈ tasks) (hproblem : u.problem = t.problem) :
    u.iteration ≤ t.newestIteration tasks := by
  have hmem : u ∈ t :: Ledger.ofProblem t.problem tasks :=
    List.mem_cons_of_mem _ (Ledger.mem_ofProblem.mpr ⟨h, hproblem⟩)
  exact ((t.isLastOf_newestIteration tasks).2 u hmem).iteration_le hproblem

end TaskId

namespace Ledger

open TaskId

/-- The base is the last one of the candidate and the tasks that the mark of its problem stands
for. -/
theorem isLastOf_base {l : Ledger} {candidate : TaskId} {tasks : List TaskId}
    (h : IsNewest (ofProblem candidate.problem tasks) (l.latest.get? candidate.problem)) :
    (l.base candidate).IsLastOf (candidate :: ofProblem candidate.problem tasks) := by
  unfold base
  cases hlatest : l.latest.get? candidate.problem with
  | none =>
      rw [h.eq_none_iff.mp hlatest]
      refine ⟨List.mem_cons_self, fun u hu => ?_⟩
      rw [List.mem_singleton.mp hu]
      exact .refl _
  | some v =>
      obtain ⟨hmem, hle⟩ := (h.eq_some_iff v).mp hlatest
      have hproblem : v.problem = candidate.problem := (mem_ofProblem.mp hmem).2
      -- `v` is the last one of the others, so only the candidate can be beyond it
      dsimp only
      split
      · rename_i hbehind
        refine ⟨List.mem_cons_of_mem _ hmem, fun u hu => ?_⟩
        rcases List.mem_cons.mp hu with rfl | hu
        · exact .inr ⟨hproblem.symm, UInt32.le_of_lt hbehind⟩
        · exact hle u hu
      · rename_i hbeyond
        refine ⟨List.mem_cons_self, fun u hu => ?_⟩
        rcases List.mem_cons.mp hu with rfl | hu
        · exact .refl _
        · exact (hle u hu).trans (.inr ⟨hproblem, UInt32.not_lt.mp hbeyond⟩)

/-- Without a limit the base is the newest task of its problem. -/
theorem base_run_none (steps : List Step) (candidate : TaskId) :
    ((new none).run steps).base candidate =
      ⟨candidate.problem, candidate.newestIteration (touched steps)⟩ :=
  (isLastOf_base (isNewest_latest_run steps candidate.problem)).unique
    (candidate.isLastOf_newestIteration (touched steps))

end Ledger

namespace Orchestrator

variable {o : Orchestrator} {s : Submission} {candidate t : TaskId}

/-- A continuation gets the task after its base if that is free. -/
theorem submit_free (hvalid : s.fault? = none) (hp : s.predecessor? = some candidate)
    (hnext : (o.ledger.base candidate).next? = some t)
    (hfree : o.hub.allocated.contains t = false) (haccepting : o.hub.rejecting = false) :
    (o.submit s).1 = .ok t ∧ (o.submit s).2.hub.published = o.hub.published ++ [t] := by
  obtain ⟨o', hsubmit, -⟩ := o.submit_continuation hvalid hp hnext hfree haccepting
  have hpublished := o.published_submit s
  rw [hsubmit] at hpublished ⊢
  exact ⟨rfl, hpublished⟩

theorem submit_eq_ok_iff (hvalid : s.fault? = none) (hp : s.predecessor? = some candidate)
    (haccepting : o.hub.rejecting = false) :
    (o.submit s).1 = .ok t ↔
      (o.ledger.base candidate).next? = some t ∧ o.hub.allocated.contains t = false := by
  constructor
  · intro h
    have hsubmits := o.submits s
    rw [h] at hsubmits
    cases hsubmits with
    | accepted _ halloc => exact halloc.of_predecessor hp
  · rintro ⟨hnext, hfree⟩
    exact (submit_free hvalid hp hnext hfree haccepting).1

end Orchestrator

namespace Session

open Orchestrator

/-! ## Without a limit -/

section

variable {settings : Settings} {hub : Hub} (hhub : hub.Untouched) {commands : List Command}
  (hdirect : ∀ c ∈ commands, c.isDirect = false)
  (hrefuses : (new settings hub).refuses commands = false)

include hhub hdirect hrefuses

theorem base_run_of_retention_none (hlimit : settings.retention = none) (candidate : TaskId) :
    ((new settings hub).run commands).orchestrator.ledger.base candidate =
      ⟨candidate.problem, candidate.newestIteration ((new settings hub).known commands)⟩ := by
  obtain ⟨steps, hledger, htouched⟩ := touched_run_iff hhub hdirect hrefuses
  rw [hledger, hlimit, Ledger.base_run_none, candidate.newestIteration_congr htouched]

/-- A task that was not published is free. -/
theorem free_run {t : TaskId} (h : t ∉ ((new settings hub).run commands).orchestrator.hub.published) :
    ((new settings hub).run commands).orchestrator.hub.allocated.contains t = false := by
  rw [← Bool.not_eq_true, allocated_run_iff hhub hdirect hrefuses]
  exact h

end

/-- **A continuation follows the newest task** that is known of its problem, if the publications so
far were accepted. It succeeds if its own is accepted. If no iteration is left, it fails and leaves
the ledger and the published tasks as they are. -/
theorem continuation_follows_newest {settings : Settings} (hlimit : settings.retention = none)
    {hub : Hub} (hhub : hub.Untouched) {commands : List Command}
    (hdirect : ∀ c ∈ commands, c.isDirect = false)
    (hrefuses : (new settings hub).refuses commands = false) {input : Submission}
    {candidate : TaskId} (hvalid : input.fault? = none)
    (hp : input.predecessor? = some candidate) :
    let before := ((new settings hub).run commands).orchestrator
    let submitted := ((new settings hub).run commands).submit input
    let after := submitted.2.orchestrator
    let m := candidate.newestIteration ((new settings hub).known commands)
    (m.toNat + 1 < UInt32.size →
      (before.hub.rejecting = false → submitted.1 = .ok ⟨candidate.problem, m + 1⟩ ∧
        after.hub.published = before.hub.published ++ [⟨candidate.problem, m + 1⟩]) ∧
      (before.hub.rejecting = true →
        submitted.1 = .error (.transportFailure (.publishRejected ⟨candidate.problem, m + 1⟩)))) ∧
    (m.toNat + 1 = UInt32.size →
      submitted.1 = .error (.transportFailure (.iterationsUsedUp candidate.problem)) ∧
      after.ledger = before.ledger ∧ after.hub.published = before.hub.published) := by
  intro before submitted after m
  have hbase : before.ledger.base candidate = ⟨candidate.problem, m⟩ :=
    base_run_of_retention_none hhub hdirect hrefuses hlimit candidate
  constructor
  · intro hroom
    have hsucc : TaskId.next? ⟨candidate.problem, m⟩ = some ⟨candidate.problem, m + 1⟩ :=
      TaskId.next?_eq_some_iff.mpr ⟨hroom, rfl⟩
    have hnext : (before.ledger.base candidate).next? = some ⟨candidate.problem, m + 1⟩ := by
      rw [hbase]
      exact hsucc
    have hlt : m < m + 1 := (TaskId.lt_iff.mp (TaskId.lt_of_next? hsucc)).2
    -- every published task of the problem is known, and `m` is not behind it
    have hfree : before.hub.allocated.contains ⟨candidate.problem, m + 1⟩ = false := by
      refine free_run hhub hdirect hrefuses fun hpublished => ?_
      have hknown : ⟨candidate.problem, m + 1⟩ ∈ (new settings hub).known commands :=
        List.mem_append_left _ hpublished
      have hle := TaskId.le_newestIteration hknown (t := candidate) rfl
      exact UInt32.lt_irrefl _ (UInt32.lt_of_lt_of_le hlt hle)
    constructor
    · exact submit_free hvalid hp hnext hfree
    · exact submit_of_rejecting hvalid (.next hp hnext hfree)
  · intro hfull
    have hnone : (before.ledger.base candidate).next? = none := by
      rw [hbase, TaskId.next?_eq_none_iff]
      exact hfull
    obtain ⟨hanswer, hledger, hsame⟩ := before.submit_usedUp hvalid hp hnone
    rw [hbase] at hanswer
    exact ⟨hanswer, hledger, congrArg Hub.published hsame⟩

/-- A problem, and its continuation from the first task. -/
def cells : Submission := { brief := { shortDescription := "count the cells" } }

def cellsAgain : Submission :=
  { cells with previousIteration := some 0, extra := { previousProblem := some 1 } }

theorem fault?_cellsAgain : cellsAgain.fault? = none := by decide +kernel

theorem predecessor?_cellsAgain : cellsAgain.predecessor? = some ⟨1, 0⟩ := rfl

/-- The chain of a problem goes on to the second task, and a stray result comes for the fourth. -/
def chainAndStray : List Command :=
  [.submit cells,
    .deliver .carbonFootprint (.carbonFootprint
      { task := some ⟨1, 0⟩, extraData := Extra.encode { numOutputs := some 2 } }),
    .pump, .register ⟨1, 3⟩ .hwProvider]

/-- Whoever continues the first task after that gets the fifth one. -/
theorem continuation_follows_newest_outdated :
    TaskId.newestIteration ⟨1, 0⟩ ((new {} {}).known chainAndStray) = 3 ∧
    (((new {} {}).run chainAndStray).submit cellsAgain).1 = .ok ⟨1, 4⟩ ∧
    (((new {} {}).run chainAndStray).submit cellsAgain).2.orchestrator.hub.published =
      [⟨1, 0⟩, ⟨1, 1⟩, ⟨1, 4⟩] := by
  have hdirect : ∀ c ∈ chainAndStray, c.isDirect = false := by decide +kernel
  have hrefuses : (new {} {}).refuses chainAndStray = false := by decide +kernel
  obtain ⟨hnewest, hpublished, haccepting⟩ :
      TaskId.newestIteration ⟨1, 0⟩ ((new {} {}).known chainAndStray) = 3 ∧
      ((new {} {}).run chainAndStray).orchestrator.hub.published = [⟨1, 0⟩, ⟨1, 1⟩] ∧
      ((new {} {}).run chainAndStray).orchestrator.hub.rejecting = false := by
    decide +kernel
  have hhub : Hub.Untouched {} := ⟨rfl, rfl, rfl, rfl, rfl⟩
  obtain ⟨hroom, -⟩ :=
    continuation_follows_newest rfl hhub hdirect hrefuses fault?_cellsAgain predecessor?_cellsAgain
  rw [hnewest] at hroom
  obtain ⟨hanswer, hafter⟩ := (hroom (by decide)).1 haccepting
  rw [hpublished] at hafter
  exact ⟨hnewest, hanswer, hafter⟩

/-- No publication was rejected before, but that of the continuation is. -/
theorem continuation_while_rejecting :
    let commands : List Command := [.submit cells, .reject true]
    let before := ((new {} {}).run commands).orchestrator
    let submitted := ((new {} {}).run commands).submit cellsAgain
    (∀ c ∈ commands, c.isDirect = false) ∧ (new {} {}).refuses commands = false ∧
    cellsAgain.fault? = none ∧ cellsAgain.predecessor? = some ⟨1, 0⟩ ∧
    TaskId.newestIteration ⟨1, 0⟩ ((new {} {}).known commands) = 0 ∧
    submitted.1 = .error (.transportFailure (.publishRejected ⟨1, 1⟩)) ∧
    submitted.2.orchestrator.hub.published = before.hub.published := by
  decide +kernel

/-! ## Under a limit -/

/-- **A continuation under a limit** starts from the base that the ledger still knows of, which for
a problem that is not tracked is the candidate. It fails if the task after the base was published
before, and is behind others unless the base is the newest published task of its problem. -/
theorem continuation_after_eviction (settings : Settings) {hub : Hub} (hhub : hub.Untouched)
    {commands : List Command} (hdirect : ∀ c ∈ commands, c.isDirect = false)
    (hrefuses : (new settings hub).refuses commands = false) {input : Submission}
    {candidate : TaskId} (hvalid : input.fault? = none)
    (hp : input.predecessor? = some candidate)
    (haccepting : ((new settings hub).run commands).orchestrator.hub.rejecting = false) :
    let before := ((new settings hub).run commands).orchestrator
    let submitted := ((new settings hub).run commands).submit input
    let after := submitted.2.orchestrator
    let base := before.ledger.base candidate
    (before.ledger.latest.get? candidate.problem = none → base = candidate) ∧
    (∀ t, base.next? = some t → t ∉ before.hub.published →
      submitted.1 = .ok t ∧ after.hub.published = before.hub.published ++ [t]) ∧
    (∀ t, base.next? = some t → t ∈ before.hub.published →
      submitted.1 = .error (.transportFailure (.alreadyAllocated t)) ∧
      after.ledger = before.ledger ∧ after.hub.published = before.hub.published) ∧
    (base.next? = none →
      submitted.1 = .error (.transportFailure (.iterationsUsedUp candidate.problem)) ∧
      after.ledger = before.ledger ∧ after.hub.published = before.hub.published) ∧
    ((∃ t, submitted.1 = .ok t ∧
        ∀ u ∈ before.hub.published, u.problem = candidate.problem → u.iteration < t.iteration) ↔
      base.next?.isSome ∧
        ∀ u ∈ before.hub.published, u.problem = candidate.problem →
          u.iteration ≤ base.iteration) := by
  intro before submitted after base
  have hproblem : base.problem = candidate.problem :=
    (tidy_run settings hub commands).consistent.problem_base candidate
  have hok {t : TaskId} : submitted.1 = .ok t ↔
      base.next? = some t ∧ t ∉ before.hub.published := by
    rw [← allocated_run_iff hhub hdirect hrefuses, Bool.not_eq_true]
    exact submit_eq_ok_iff hvalid hp haccepting
  refine ⟨fun hevicted => ?_, fun t hnext ht => ?_, fun t hnext ht => ?_, fun hnext => ?_, ?_, ?_⟩
  · show Ledger.base _ _ = _
    rw [Ledger.base, hevicted]
  · exact submit_free hvalid hp hnext (free_run hhub hdirect hrefuses ht) haccepting
  · have htaken := (allocated_run_iff hhub hdirect hrefuses t).mpr ht
    obtain ⟨hanswer, hledger, hsame⟩ := before.submit_taken hvalid hp hnext htaken
    exact ⟨hanswer, hledger, congrArg Hub.published hsame⟩
  · obtain ⟨hanswer, hledger, hsame⟩ := before.submit_usedUp hvalid hp hnext
    exact ⟨hproblem ▸ hanswer, hledger, congrArg Hub.published hsame⟩
  · rintro ⟨t, hanswer, hbeyond⟩
    have hnext := (hok.mp hanswer).1
    rw [hnext]
    exact ⟨rfl, fun u hu hsame => TaskId.le_of_lt_next? hnext (hbeyond u hu hsame)⟩
  · rintro ⟨hsome, hnewest⟩
    obtain ⟨t, hnext⟩ := Option.isSome_iff_exists.mp hsome
    obtain ⟨hsame, hlt⟩ := TaskId.lt_iff.mp (TaskId.lt_of_next? hnext)
    have hbeyond : ∀ u ∈ before.hub.published, u.problem = candidate.problem →
        u.iteration < t.iteration :=
      fun u hu hu' => UInt32.lt_of_le_of_lt (hnewest u hu hu') hlt
    -- it was not published before, or it would be beyond itself
    have hnew : t ∉ before.hub.published := by
      intro ht
      exact UInt32.lt_irrefl _ (hbeyond t ht (hsame.symm.trans hproblem))
    exact ⟨t, hok.mpr ⟨hnext, hnew⟩, hbeyond⟩

/-- A stray result has made a problem skip iterations, and then another problem drives it out. -/
def strayAndEviction : List Command :=
  [.register ⟨1, 5⟩ .hwProvider, .submit cells, .submit cellsAgain,
    .submit { brief := { shortDescription := "name the cells" } }]

/-- The next continuation of the first task gets the second one, behind one that was published. -/
theorem continuation_after_eviction_behind :
    ((new { retention := some 1 } {}).run strayAndEviction).orchestrator.hub.published =
      [⟨1, 0⟩, ⟨1, 6⟩, ⟨2, 0⟩] ∧
    (((new { retention := some 1 } {}).run strayAndEviction).submit cellsAgain).1 = .ok ⟨1, 1⟩ ∧
    ¬ ∃ t, (((new { retention := some 1 } {}).run strayAndEviction).submit cellsAgain).1 = .ok t ∧
      ∀ u ∈ ((new { retention := some 1 } {}).run strayAndEviction).orchestrator.hub.published,
        u.problem = 1 → u.iteration < t.iteration := by
  have hdirect : ∀ c ∈ strayAndEviction, c.isDirect = false := by decide +kernel
  have hrefuses : (new { retention := some 1 } {}).refuses strayAndEviction = false := by
    decide +kernel
  obtain ⟨hpublished, haccepting, hevicted⟩ :
      ((new { retention := some 1 } {}).run strayAndEviction).orchestrator.hub.published =
        [⟨1, 0⟩, ⟨1, 6⟩, ⟨2, 0⟩] ∧
      ((new { retention := some 1 } {}).run strayAndEviction).orchestrator.hub.rejecting = false ∧
      ((new { retention := some 1 } {}).run strayAndEviction).orchestrator.ledger.latest.get? 1 =
        none := by
    decide +kernel
  have hhub : Hub.Untouched {} := ⟨rfl, rfl, rfl, rfl, rfl⟩
  obtain ⟨hbase, hfree, -, -, hbeyond⟩ := continuation_after_eviction { retention := some 1 } hhub
    hdirect hrefuses fault?_cellsAgain predecessor?_cellsAgain haccepting
  rw [hbase hevicted, hpublished] at hfree
  rw [hbase hevicted] at hbeyond
  obtain ⟨hanswer, -⟩ := hfree ⟨1, 1⟩ (by decide) (by decide)
  refine ⟨hpublished, hanswer, fun h => ?_⟩
  have hnewest := (hbeyond.mp h).2 ⟨1, 6⟩
  rw [hpublished] at hnewest
  exact absurd (hnewest (by decide) rfl) (by decide)

/-- The task after the continued one may have been published before its problem was evicted. -/
theorem continuation_collides_after_eviction :
    let commands : List Command :=
      [.submit cells, .submit cellsAgain,
        .submit { brief := { shortDescription := "name the cells" } }]
    let before := ((new { retention := some 1 } {}).run commands).orchestrator
    let submitted := ((new { retention := some 1 } {}).run commands).submit cellsAgain
    (∀ c ∈ commands, c.isDirect = false) ∧
    (new { retention := some 1 } {}).refuses commands = false ∧ before.hub.rejecting = false ∧
    before.hub.published = [⟨1, 0⟩, ⟨1, 1⟩, ⟨2, 0⟩] ∧ before.ledger.latest.get? 1 = none ∧
    cellsAgain.fault? = none ∧ cellsAgain.predecessor? = some ⟨1, 0⟩ ∧
    submitted.1 = .error (.transportFailure (.alreadyAllocated ⟨1, 1⟩)) := by
  decide +kernel

end Session

end WorkerPipeline
