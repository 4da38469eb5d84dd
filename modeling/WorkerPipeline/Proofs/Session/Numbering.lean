import WorkerPipeline.Proofs.Session.Proceeding

set_option autoImplicit false

/-! # How tasks are numbered

Task ids come from two sources: a counter gives out the first task of each problem, and a
continuation takes the task after its base if that is free. Both enter their tasks into one table,
and only what has just been entered is published, so no task is published twice (`issued_run`).
What the submissions of a run are answered with is part of what it publishes (`published_run`).
-/

namespace WorkerPipeline

/-- Whether the hub's counter is asked for a problem. -/
def Submission.startsProblem (s : Submission) : Bool := s.fault?.isNone && s.predecessor?.isNone

def Command.startsProblem : Command → Bool
  | .submit s => s.startsProblem
  | .allocateTask => true
  | _ => false

theorem Submission.startsProblem_iff {s : Submission} :
    s.startsProblem = true ↔ s.fault? = none ∧ s.predecessor? = none := by
  simp [startsProblem]

theorem TaskId.iteration_ne_zero_of_next? {t u : TaskId} (h : t.next? = some u) :
    u.iteration ≠ 0 := by
  have hlt := (TaskId.lt_iff.mp (TaskId.lt_of_next? h)).2
  rintro hzero
  rw [hzero, UInt32.lt_iff_toNat_lt] at hlt
  exact absurd hlt (Nat.not_lt_zero _)

namespace Hub

/-! ## Ids that were given out -/

/-- A hub that has started `n` problems from `start` on: it has no first task beyond them, and what
it has published was allocated before and only once. -/
structure Issued (h : Hub) (start n : Nat) : Prop where
  nextProblem : h.nextProblem.toNat = (start + n) % UInt32.size
  problem_lt : ∀ t, h.allocated.contains t = true → t.iteration = 0 → t.problem.toNat < start + n
  allocated : ∀ t ∈ h.published, h.allocated.contains t = true
  nodup : h.published.Nodup

variable {h h' : Hub} {start n : Nat} {t : TaskId}

theorem Issued.of_sameTasks (hissued : h.Issued start n) (hsame : h.SameTasks h') :
    h'.Issued start n where
  nextProblem := by rw [hsame.nextProblem]; exact hissued.nextProblem
  problem_lt := by rw [hsame.allocated]; exact hissued.problem_lt
  allocated := by rw [hsame.published, hsame.allocated]; exact hissued.allocated
  nodup := by rw [hsame.published]; exact hissued.nodup

theorem Untouched.issued (hhub : h.Untouched) : h.Issued h.nextProblem.toNat 0 where
  nextProblem := (Nat.mod_eq_of_lt h.nextProblem.toNat_lt).symm
  problem_lt t ht := by
    rw [hhub.allocated] at ht
    cases ht
  allocated t ht := by
    rw [hhub.published] at ht
    cases ht
  nodup := by
    rw [hhub.published]
    exact .nil

/-- As long as the numbers last, the next problem is new. -/
theorem Issued.contains_first (hissued : h.Issued start n) (hroom : start + n < UInt32.size) :
    h.allocated.contains (.first h.nextProblem) = false := by
  rw [← Bool.not_eq_true]
  intro hcontains
  have hlt := hissued.problem_lt _ hcontains rfl
  have hnext := hissued.nextProblem
  rw [Nat.mod_eq_of_lt hroom] at hnext
  change h.nextProblem.toNat < start + n at hlt
  omega

theorem Issued.allocateTask (hissued : h.Issued start n) (hroom : start + n < UInt32.size) :
    h.allocateTask.2.2.Issued start (n + 1) where
  nextProblem := by
    show (h.nextProblem + 1).toNat = _
    rw [UInt32.toNat_add, hissued.nextProblem, UInt32.toNat_one, Nat.mod_add_mod, Nat.add_assoc]
  problem_lt u hu hzero := by
    have hnext := hissued.nextProblem
    rw [Nat.mod_eq_of_lt hroom] at hnext
    rcases (Table.contains_insert _ _ _ _).mp hu with rfl | hold
    · show h.nextProblem.toNat < _
      omega
    · have hlt := hissued.problem_lt u hold hzero
      omega
  allocated u hu := (Table.contains_insert _ _ _ _).mpr (.inr (hissued.allocated u hu))
  nodup := hissued.nodup

/-- A task that is not the first of its problem does not concern the counter. -/
theorem Issued.insert (hissued : h.Issued start n) (ht : t.iteration ≠ 0) :
    Issued { h with allocated := h.allocated.insert t () } start n where
  nextProblem := hissued.nextProblem
  problem_lt u hu hzero := by
    rcases (Table.contains_insert _ _ _ _).mp hu with rfl | hold
    · exact absurd hzero ht
    · exact hissued.problem_lt u hold hzero
  allocated u hu := (Table.contains_insert _ _ _ _).mpr (.inr (hissued.allocated u hu))
  nodup := hissued.nodup

theorem Issued.withInput (hissued : h.Issued start n) (hallocated : h.allocated.contains t = true)
    (hnew : t ∉ h.published) (u : UserInput) : (h.withInput t u).Issued start n where
  nextProblem := hissued.nextProblem
  problem_lt := hissued.problem_lt
  allocated v hv := by
    rcases List.mem_append.mp hv with hold | hnow
    · exact hissued.allocated v hold
    · rw [List.mem_singleton.mp hnow]
      exact hallocated
  nodup := by
    refine List.nodup_append.mpr ⟨hissued.nodup, List.pairwise_singleton _ t, fun v hv w hw => ?_⟩
    rw [List.mem_singleton.mp hw]
    rintro rfl
    exact hnew hv

end Hub

namespace Orchestrator

variable {o o' : Orchestrator} {s : Submission} {t : TaskId} {hub : Hub} {start n : Nat}

/-- The number of problems that have been started when the hub has a task for a submission. -/
theorem Allocates.issued (halloc : o.Allocates s t hub) (hvalid : s.fault? = none)
    (hissued : o.hub.Issued start n) (hroom : s.startsProblem = true → start + n < UInt32.size) :
    hub.Issued start (n + s.startsProblem.toNat) ∧ o.hub.allocated.contains t = false := by
  cases halloc with
  | fresh hp =>
      have hstarts : s.startsProblem = true := Submission.startsProblem_iff.mpr ⟨hvalid, hp⟩
      rw [hstarts]
      exact ⟨hissued.allocateTask (hroom hstarts), hissued.contains_first (hroom hstarts)⟩
  | next hp hnext hnew =>
      have hstarts : s.startsProblem = false := by simp [Submission.startsProblem, hp]
      rw [hstarts]
      exact ⟨hissued.insert (TaskId.iteration_ne_zero_of_next? hnext), hnew⟩

/-- A submission publishes a task that was not allocated before, or none. -/
theorem issued_submit (hissued : o.hub.Issued start n)
    (hroom : s.startsProblem = true → start + n < UInt32.size) :
    (o.submit s).2.hub.Issued start (n + s.startsProblem.toNat) := by
  have hsubmits := o.submits s
  generalize o.submit s = submitted at hsubmits ⊢
  obtain ⟨outcome, o'⟩ := submitted
  cases hsubmits with
  | refused _ hhub hnone =>
      have hstarts : s.startsProblem = false := by
        rw [← Bool.not_eq_true, Submission.startsProblem_iff]
        rintro ⟨hvalid, hp⟩
        exact hnone hvalid _ _ (.fresh hp)
      rw [hhub, hstarts]
      exact hissued
  | rejected hvalid halloc => exact (halloc.issued hvalid hissued hroom).1
  | accepted hvalid halloc _ _ hhub =>
      obtain ⟨hnow, hnew⟩ := halloc.issued hvalid hissued hroom
      rw [hhub]
      refine hnow.withInput ((halloc.contains_iff _).mpr (.inl rfl)) (fun hmem => ?_) _
      rw [halloc.keeps.published] at hmem
      rw [hissued.allocated _ hmem] at hnew
      cases hnew

theorem Proceed.issued (hproceed : o.Proceed o') (hissued : o.hub.Issued start n) :
    o'.hub.Issued start n := by
  cases hproceed with
  | register _ hhub => rw [hhub]; exact hissued
  | calm _ hcalm => exact hissued.of_sameTasks hcalm.toSameTasks
  | @follow s _ hp _ ho' =>
      -- a chain that goes on starts no problem
      have hstarts : s.startsProblem = false := by simp [Submission.startsProblem, hp]
      have hsubmit := issued_submit (s := s) hissued (by rw [hstarts]; exact nofun)
      rw [hstarts] at hsubmit
      rw [ho']
      exact hsubmit

theorem Proceeds.isPrefix_published {o o' : Orchestrator} (h : o.Proceeds o') :
    o.hub.published <+: o'.hub.published := by
  refine h.preserves (P := fun o' => o.hub.published <+: o'.hub.published) ?_ (List.prefix_refl _)
  intro o₁ o₂ hproceed hprefix
  cases hproceed with
  | register _ hhub => rw [hhub]; exact hprefix
  | calm _ hcalm => rw [hcalm.published]; exact hprefix
  | follow _ _ ho' =>
      rw [ho', published_submit]
      exact hprefix.trans (List.prefix_append _ _)

end Orchestrator

namespace Session

open Orchestrator

theorem issued_apply {s : Session} {c : Command} {start n : Nat}
    (hissued : s.orchestrator.hub.Issued start n) (hdirect : ∀ t u, c ≠ .publish t u)
    (hroom : c.startsProblem = true → start + n < UInt32.size) :
    (s.apply c).2.orchestrator.hub.Issued start (n + c.startsProblem.toNat) := by
  cases c with
  | submit input => exact issued_submit hissued hroom
  | allocateTask => exact hissued.allocateTask (hroom rfl)
  | publish t u => exact absurd rfl (hdirect t u)
  | deliver w output => exact hissued.of_sameTasks (Hub.sameTasks_deliver _ w output)
  | deliverStatus w status =>
      obtain ⟨hub, happly, hannounces⟩ := s.apply_deliverStatus w status
      rw [happly]
      exact hissued.of_sameTasks hannounces.toSameTasks
  | allocateIteration base =>
      rcases s.apply_allocateIteration base with happly | ⟨t, hnext, happly⟩
      · rw [happly]
        exact hissued
      · rw [happly]
        exact hissued.insert (TaskId.iteration_ne_zero_of_next? hnext)
  | _ => exact (proceeds_apply s rfl).preserves Proceed.issued hissued

theorem countP_startsProblem_cons (c : Command) (commands : List Command) :
    (c :: commands).countP Command.startsProblem =
      c.startsProblem.toNat + commands.countP Command.startsProblem := by
  rw [List.countP_cons, Nat.add_comm]
  cases c.startsProblem <;> rfl

/-- A run starts as many problems as its commands ask for. -/
theorem issued_run {s : Session} {commands : List Command} {start n : Nat}
    (hissued : s.orchestrator.hub.Issued start n) (hdirect : ∀ t u, .publish t u ∉ commands)
    (hroom : start + n + commands.countP Command.startsProblem ≤ UInt32.size) :
    (s.run commands).orchestrator.hub.Issued start
      (n + commands.countP Command.startsProblem) := by
  induction commands generalizing s n with
  | nil => exact hissued
  | cons c commands ih =>
      rw [countP_startsProblem_cons, ← Nat.add_assoc] at hroom ⊢
      have hstep := issued_apply hissued
        (fun t u heq => hdirect t u (heq ▸ List.mem_cons_self))
        (fun hstarts => by rw [hstarts, Bool.toNat_true] at hroom; omega)
      exact ih hstep (fun t u hmem => hdirect t u (List.mem_cons_of_mem _ hmem)) (by omega)

/-! ## Answers to submissions -/

/-- The task whose publication a command answers with. -/
def submittedBy (s : Session) : Command → List TaskId
  | .submit input => (s.submit input).1.toOption.toList
  | _ => []

/-- The ids that the successful submissions of a run are answered with, oldest first. -/
def submitted (s : Session) : List Command → List TaskId
  | [] => []
  | c :: commands => s.submittedBy c ++ (s.apply c).2.submitted commands

theorem submittedBy_eq_nil (s : Session) {c : Command} (h : c.brings = false) :
    s.submittedBy c = [] := by
  cases c <;> first | rfl | cases h

/-- What a submission is answered with has been published by it. -/
theorem published_apply (s : Session) (c : Command) :
    ∃ added, (s.apply c).2.orchestrator.hub.published =
      s.orchestrator.hub.published ++ added ∧ (s.submittedBy c).Sublist added := by
  cases hbrings : c.brings with
  | false =>
      obtain ⟨added, hadded⟩ := (s.proceeds_apply hbrings).isPrefix_published
      rw [submittedBy_eq_nil s hbrings]
      exact ⟨added, hadded.symm, List.nil_sublist _⟩
  | true =>
      cases c with
      | submit input => exact ⟨_, published_submit s.orchestrator input, List.Sublist.refl _⟩
      | deliver w output =>
          refine ⟨[], ?_, List.Sublist.refl _⟩
          rw [List.append_nil]
          exact (Hub.sameTasks_deliver _ w output).published
      | deliverStatus w status =>
          obtain ⟨hub, happly, hannounces⟩ := s.apply_deliverStatus w status
          refine ⟨[], ?_, List.Sublist.refl _⟩
          rw [happly, List.append_nil]
          exact hannounces.published
      | allocateTask => exact ⟨[], (List.append_nil _).symm, List.Sublist.refl _⟩
      | allocateIteration base =>
          refine ⟨[], ?_, List.Sublist.refl _⟩
          rw [List.append_nil]
          rcases s.apply_allocateIteration base with happly | ⟨t, -, happly⟩
          · rw [happly]
          · rw [happly]
            rfl
      | publish t u =>
          unfold apply Hub.publish
          dsimp only
          cases s.orchestrator.hub.rejecting with
          | true => exact ⟨[], (List.append_nil _).symm, List.Sublist.refl _⟩
          | false => exact ⟨[t], rfl, List.nil_sublist _⟩
      | _ => cases hbrings

theorem published_run (s : Session) (commands : List Command) :
    ∃ added, (s.run commands).orchestrator.hub.published =
      s.orchestrator.hub.published ++ added ∧ (s.submitted commands).Sublist added := by
  induction commands generalizing s with
  | nil => exact ⟨[], (List.append_nil _).symm, List.Sublist.refl _⟩
  | cons c commands ih =>
      obtain ⟨now, hnow, hanswer⟩ := s.published_apply c
      obtain ⟨later, hlater, hanswers⟩ := ih (s.apply c).2
      refine ⟨now ++ later, ?_, hanswer.append hanswers⟩
      rw [← List.append_assoc, ← hnow]
      exact hlater

end Session

end WorkerPipeline
