import WorkerPipeline.Proofs.Ledger.Eviction
import WorkerPipeline.Proofs.Session.Waiting

set_option autoImplicit false

/-! # Waiters and evicted problems

A registration wakes a waiter, but the waiter looks at the ledger only when it is polled, and what
is evicted in between is gone for it. So of the results that were registered while it waited, the
next poll finds those that the ledger has retained (`poll_after_registration`). Under a limit a
waiter can be woken by its own result and not find it (`poll_after_eviction`).
-/

namespace WorkerPipeline

namespace Session

/-! ## One poll -/

section

variable {s : Session} {u v : Waiter}

/-- A waiter that goes on waiting has seen all registrations. -/
theorem eq_of_pollWaiter_eq_pending (h : (s.pollWaiter u).1 = .pending v) :
    v = { u with seen := some s.orchestrator.registrations } := by
  have hunanswered {w w' : Waiter} (h : s.unanswered w = .pending w') : w' = w := by
    unfold unanswered at h
    split at h
    · cases h
    · exact (WaitState.pending.inj h).symm
  unfold pollWaiter at h
  by_cases hnews : s.hasNews u = true
  · rw [if_pos hnews] at h
    split at h
    · cases h
    · exact hunanswered h
  · have hseen : u.seen = some s.orchestrator.registrations := by simpa [hasNews] using hnews
    rw [if_neg hnews] at h
    rw [← hseen]
    exact hunanswered h

theorem pollWaiter_eq_arrived_iff (hnews : s.hasNews u = true) :
    (s.pollWaiter u).1 = .arrived ↔ s.orchestrator.ledger.available u.task u.worker = true := by
  cases h : s.orchestrator.ledger.available u.task u.worker with
  | true => simp [pollWaiter_of_available hnews h]
  | false =>
      rw [pollWaiter_of_missing h, unanswered]
      split <;> simp

/-- A waiter that has news is told according to the ledger and to the clock. -/
theorem answers_advanceWaiter_of_hasNews (hnews : s.hasNews u = true) (name : String) :
    s.Answers u.task u.worker (s.orchestrator.ledger.available u.task u.worker = true)
      (s.isExpired u = true) (s.advanceWaiter name u).1 := by
  unfold advanceWaiter
  cases harrived : s.orchestrator.ledger.available u.task u.worker with
  | true =>
      rw [pollWaiter_of_available hnews harrived]
      exact s.answers_fetchResult rfl
  | false =>
      have hstate := pollWaiter_of_missing harrived
      generalize s.pollWaiter u = polled at hstate
      obtain ⟨state, s'⟩ := polled
      dsimp only at hstate
      cases hexpired : s.isExpired u with
      | true =>
          have htimedOut : state = .timedOut := hstate.trans (if_pos hexpired)
          subst htimedOut
          exact s.answers_waitTimedOut Bool.false_ne_true rfl
      | false =>
          have hpending : state = .pending { u with seen := some s.orchestrator.registrations } :=
            hstate.trans (if_neg (by rw [← Bool.not_eq_true] at hexpired; exact hexpired))
          subst hpending
          exact s.answers_none Bool.false_ne_true Bool.false_ne_true

end

/-! ## From one poll to the next -/

/-- A waiter was polled in one session and goes on waiting; in the other session it is kept. -/
structure LeavesWaiting (s : Session) (u v : Waiter) (waiting : Session) : Prop where
  pending : (s.pollWaiter u).1 = .pending v
  orchestrator : waiting.orchestrator = (s.pollWaiter u).2.orchestrator

section

variable {s waiting : Session} {u v : Waiter} {between : List Command}

theorem LeavesWaiting.ledger (h : s.LeavesWaiting u v waiting) :
    waiting.orchestrator.ledger = s.orchestrator.ledger := by
  rw [h.orchestrator]
  exact (s.aside_pollWaiter u).ledger

/-- A registration is news to those who waited when it happened. -/
theorem LeavesWaiting.hasNews (h : s.LeavesWaiting u v waiting)
    (hregistered : waiting.registered between ≠ []) : (waiting.run between).hasNews v = true := by
  have hbefore : waiting.orchestrator.registrations = s.orchestrator.registrations := by
    rw [h.orchestrator]
    exact (s.aside_pollWaiter u).registrations
  have hafter := (waiting.moves_run between).registrations
  have hlength := List.length_pos_iff.mpr hregistered
  refine decide_eq_true fun hseen => ?_
  rw [eq_of_pollWaiter_eq_pending h.pending] at hseen
  have hsame := Option.some.inj hseen
  omega

/-- A waiter that is polled and goes on waiting is kept under its name. -/
theorem leavesWaiting_advanceWaiter (hpending : (s.pollWaiter u).1 = .pending v) (name : String) :
    s.LeavesWaiting u v (s.advanceWaiter name u).2 where
  pending := hpending
  orchestrator := by
    unfold advanceWaiter
    generalize s.pollWaiter u = polled at hpending
    obtain ⟨state, s'⟩ := polled
    cases state <;> rfl

end

/-- **The poll after a registration.** A waiter, whether for the latest task or for a given one, is
left waiting in a session with any limit, and its result is registered while it waits. At its next
poll the result has arrived if and only if the ledger has retained it since one of its
registrations; otherwise the time is up or the wait goes on. The result has arrived in any case if
there is no limit, or if its problem is that of the latest task at the time of the poll. -/
theorem poll_after_registration (settings : Settings) (hub : Hub) {before between : List Command}
    {u v : Waiter} {waiting : Session} (htracked : u.worker.isTracked = true)
    (hwaiting : ((new settings hub).run before).LeavesWaiting u v waiting)
    (hregistered : (u.task, u.worker) ∈ waiting.registered between) :
    let s := waiting.run between
    (∃ steps, Ledger.results steps = waiting.registered between ∧
      s.orchestrator.ledger = waiting.orchestrator.ledger.run steps ∧
      ((s.pollWaiter v).1 = .arrived ↔
        waiting.orchestrator.ledger.Retains steps u.task u.worker)) ∧
    (∀ name, s.Answers u.task u.worker ((s.pollWaiter v).1 = .arrived) (s.isExpired v = true)
      (s.advanceWaiter name v).1) ∧
    (settings.retention = none ∨
        (∃ t, s.orchestrator.ledger.last = some t ∧ u.task.problem = t.problem) →
      (s.pollWaiter v).1 = .arrived) := by
  intro s
  have hnews : s.hasNews v = true := hwaiting.hasNews (List.ne_nil_of_mem hregistered)
  have hv := eq_of_pollWaiter_eq_pending hwaiting.pending
  have harrived := pollWaiter_eq_arrived_iff hnews
  have hanswers := answers_advanceWaiter_of_hasNews hnews
  rw [show v.task = u.task by rw [hv], show v.worker = u.worker by rw [hv]] at harrived hanswers
  obtain ⟨steps, hresults, hsteps⟩ := (waiting.moves_run between).ledger
  have hstep : .registerResult u.task u.worker ∈ steps := by
    rw [← Ledger.mem_results, hresults]
    exact hregistered
  have hconsistent : waiting.orchestrator.ledger.Consistent :=
    hwaiting.ledger ▸ (tidy_run settings hub before).consistent
  have hretained : s.orchestrator.ledger.available u.task u.worker = true ↔
      waiting.orchestrator.ledger.Retains steps u.task u.worker := by
    rw [hsteps]
    exact hconsistent.available_run_iff_of_registered htracked hstep
  refine ⟨⟨steps, hresults, hsteps, harrived.trans hretained⟩, fun name => ?_, ?_⟩
  · rw [harrived]
    exact hanswers name
  · rw [harrived]
    rintro (hnone | ⟨t, hlast, hproblem⟩)
    · -- without a limit nothing is evicted
      have hlimit : waiting.orchestrator.ledger.limit = none := by
        rw [hwaiting.ledger, limit_run, hnone]
      exact hretained.mpr (Ledger.retains_of_limit_none hlimit hstep)
    · -- the run so far and the steps since are one history of the ledger
      obtain ⟨earlier, -, hearlier⟩ := ledger_run settings hub before
      have hrun : s.orchestrator.ledger =
          (Ledger.new settings.retention).run (earlier ++ steps) := by
        rw [hsteps, hwaiting.ledger, hearlier, Ledger.run_append]
      rw [hrun] at hlast ⊢
      exact Ledger.available_of_arrived hlast hproblem htracked (List.mem_append_right _ hstep)

/-- While a caller waits for the first problem, its result comes and a second problem is started. -/
def resultBeforeProblem : List Command :=
  [.deliver .hwProvider (.hwResource { task := some ⟨1, 0⟩ }), .pump,
    .submit { brief := { shortDescription := "name the cells" } }]

/-- With room for both problems the ledger retains the result, and the caller is told of it and
shown the output. -/
theorem poll_after_registration_within_limit :
    let settings : Settings := { retention := some 2 }
    let s := (new settings {}).run [.submit { brief := { shortDescription := "count the cells" } }]
    let u := s.newWaiter .hwProvider ⟨1, 0⟩
    let later := (s.advanceWaiter "caller" u).2.run resultBeforeProblem
    let output : Output := .hwResource { task := some ⟨1, 0⟩ }
    (s.pollWaiter u).1 = .pending { u with seen := some 0 } ∧
    later.orchestrator.ledger.last = some ⟨2, 0⟩ ∧
    (later.advanceWaiter "caller" { u with seen := some 0 }).1 =
      some (later.fetchResult ⟨1, 0⟩ .hwProvider) ∧
    ∃ m, (later.advanceWaiter "caller" { u with seen := some 0 }).1 =
      some (.ok ⟨.hwProvider, ⟨1, 0⟩, .obj m⟩) ∧ output.Shows {} m := by
  intro settings s u later output
  have hpending : (s.pollWaiter u).1 = .pending { u with seen := some 0 } := by decide +kernel
  have hregistered : (u.task, u.worker) ∈
      (s.advanceWaiter "caller" u).2.registered resultBeforeProblem := by decide +kernel
  obtain ⟨-, hanswers, -⟩ := poll_after_registration settings {} (u := u) rfl
    (leavesWaiting_advanceWaiter hpending "caller") hregistered
  have hextra : output.extra = .ok {} := Output.extra_of_isEmptyBlock (by decide +kernel)
  have hanswer := hanswers "caller"
  obtain ⟨m, hm, hshows⟩ := hanswer.shown (by decide +kernel) (by decide +kernel) hextra
  exact ⟨hpending, by decide +kernel, hanswer.fetched.mpr (by decide +kernel), m, hm, hshows⟩

/-- With room for one problem only, the second one evicts the first between the registration and
the poll. The caller is woken by the registration and goes on waiting. -/
theorem poll_after_eviction :
    let s := (new { retention := some 1 } {}).run
      [.submit { brief := { shortDescription := "count the cells" } },
        .spawn "caller" .hwProvider]
    let later := s.run resultBeforeProblem
    s.waiters.get? "caller" = some ⟨.hwProvider, ⟨1, 0⟩, 0, some 0⟩ ∧
    (⟨1, 0⟩, .hwProvider) ∈ s.registered resultBeforeProblem ∧
    (later.poll "caller").1 = some (true, none) := by
  intro s later
  have hwaiter : later.waiters.get? "caller" = some ⟨.hwProvider, ⟨1, 0⟩, 0, some 0⟩ := by
    decide +kernel
  have hnews : later.hasNews ⟨.hwProvider, ⟨1, 0⟩, 0, some 0⟩ = true := by decide +kernel
  have hmissing : later.orchestrator.ledger.available ⟨1, 0⟩ .hwProvider = false := by
    decide +kernel
  have hanswer : (later.advanceWaiter "caller" ⟨.hwProvider, ⟨1, 0⟩, 0, some 0⟩).1 = none :=
    (answers_advanceWaiter_of_hasNews hnews "caller").pending.mpr
      ⟨by simp [hmissing], by decide +kernel⟩
  have hwoken : later.isWoken ⟨.hwProvider, ⟨1, 0⟩, 0, some 0⟩ = true := by
    rw [isWoken, hnews, Bool.true_or]
  refine ⟨by decide +kernel, by decide +kernel, ?_⟩
  unfold poll
  simp only [hwaiter, hwoken, hanswer]

end Session

end WorkerPipeline
