import WorkerPipeline.Proofs.Session.Proceeding

set_option autoImplicit false

/-! # Runs in which no publication is refused

A task is allocated before it is published, so a publication that the hub refuses leaves behind an
id that is taken and belongs to no task. Where none was refused, and nobody has turned to the hub
directly, the allocated tasks are the published ones, and the ledger has heard of these and of the
tasks with a registered result, under any limit (`balanced_run`). Whether one was refused can be
told from the answers to the submissions and from the journal (`refuses`).
-/

namespace WorkerPipeline

/-! ## Refusals -/

/-- The hub has refused to publish a task. -/
def Error.isRefusal : Error → Bool
  | .transportFailure (.publishRejected _) => true
  | _ => false

/-- A chain has come to its end because the hub has refused to publish the next task. -/
def Notice.isRefusal : Notice → Bool
  | .chainFailed _ e => e.isRefusal
  | _ => false

def Reply.isRefusal : Reply → Bool
  | .failed e => e.isRefusal
  | _ => false

/-- Whether a caller has the hub allocate or publish a task without the orchestrator. -/
def Command.isDirect : Command → Bool
  | .allocateTask | .allocateIteration _ | .publish _ _ => true
  | _ => false

namespace Orchestrator

/-- The journal tells of no refusal. -/
def IsUnrefused (o : Orchestrator) : Prop := ∀ n ∈ o.journal, n.isRefusal = false

instance (o : Orchestrator) : Decidable o.IsUnrefused :=
  inferInstanceAs (Decidable (∀ n ∈ o.journal, n.isRefusal = false))

/-- The allocated tasks are the published ones, and the ledger has a history in which these and the
tasks of the results were made known, and no other. -/
structure Balanced (o : Orchestrator) (limit : Option Nat) (results : List (TaskId × Worker)) :
    Prop where
  allocated : ∀ t, o.hub.allocated.contains t = true ↔ t ∈ o.hub.published
  history : ∃ steps, o.ledger = (Ledger.new limit).run steps ∧
    ∀ t, t ∈ Ledger.touched steps ↔ t ∈ o.hub.published ∨ t ∈ results.map Prod.fst

variable {o o' : Orchestrator} {limit : Option Nat} {rs rs' : List (TaskId × Worker)}

/-- Nothing is taken out of the journal. -/
theorem IsUnrefused.of_moves (h : o'.IsUnrefused) (hmoves : o.Moves rs o') : o.IsUnrefused :=
  fun n hn => h n (hmoves.isSuffix_journal.subset hn)

/-! ## Results and submissions -/

theorem Balanced.of_sameTasks (h : o.Balanced limit rs) (hledger : o'.ledger = o.ledger)
    (hsame : o.hub.SameTasks o'.hub) : o'.Balanced limit rs where
  allocated := by
    rw [hsame.allocated, hsame.published]
    exact h.allocated
  history := by
    rw [hledger, hsame.published]
    exact h.history

theorem Balanced.aside (h : o.Balanced limit rs) (haside : o.Aside o') (hhub : o'.hub = o.hub) :
    o'.Balanced limit rs :=
  h.of_sameTasks haside.ledger (Hub.Calm.of_eq hhub).toSameTasks

theorem Balanced.note (h : o.Balanced limit rs) (n : Notice) : (o.note n).Balanced limit rs :=
  ⟨h.allocated, h.history⟩

theorem Balanced.registerResult (h : o.Balanced limit rs) (t : TaskId) (w : Worker) :
    (o.registerResult t w).Balanced limit (rs ++ [(t, w)]) where
  allocated := by
    rw [hub_registerResult]
    exact h.allocated
  history := by
    obtain ⟨steps, hledger, htouched⟩ := h.history
    refine ⟨steps ++ [.registerResult t w], ?_, fun u => ?_⟩
    · rw [Ledger.run_concat, ← hledger]
      exact ledger_registerResult t w
    · rw [Ledger.mem_touched_concat, htouched, hub_registerResult, List.map_append,
        List.mem_append, or_assoc]
      simp [Ledger.Step.touched?, eq_comm]

/-- A submission that is not refused allocates the task that it publishes. -/
theorem Balanced.submit (h : o.Balanced limit rs) {s : Submission}
    (hunrefused : ∀ e, (o.submit s).1 = .error e → e.isRefusal = false) :
    (o.submit s).2.Balanced limit rs := by
  have hsubmits := o.submits s
  generalize o.submit s = submitted at hsubmits hunrefused ⊢
  obtain ⟨outcome, o'⟩ := submitted
  cases hsubmits with
  | refused haside hhub => exact h.aside haside hhub
  | rejected =>
      -- the task would be allocated and not published
      cases hunrefused _ rfl
  | @accepted t hub _ _ halloc _ hledger hhub =>
      have hpublished : o'.hub.published = o.hub.published ++ [t] := by
        rw [hhub]
        exact congrArg (· ++ [t]) halloc.keeps.published
      obtain ⟨steps, hsteps, htouched⟩ := h.history
      -- a reservation makes nothing known, the registration after it does
      refine ⟨fun u => ?_, steps ++ [.reserve t] ++ [.registerTask t], ?_, fun u => ?_⟩
      · rw [hpublished, List.mem_append, List.mem_singleton, ← h.allocated, hhub]
        show hub.allocated.contains u = true ↔ _
        rw [halloc.contains_iff, or_comm, eq_comm (a := u)]
      · rw [Ledger.run_concat, Ledger.run_concat, ← hsteps]
        exact hledger
      · rw [Ledger.mem_touched_concat, Ledger.mem_touched_concat, htouched, hpublished,
          List.mem_append, List.mem_singleton]
        simp only [Ledger.Step.touched?, reduceCtorEq, Option.some_inj, or_false]
        tauto

/-! ## Events -/

/-- A chain that was refused would have been noted. -/
theorem Balanced.continueChain (h : o.Balanced limit rs) {t : TaskId} {output : Output}
    (hunrefused : (o.continueChain t output).IsUnrefused) :
    (o.continueChain t output).Balanced limit rs := by
  unfold Orchestrator.continueChain at hunrefused ⊢
  split
  · exact h.note _
  · exact h
  · rename_i s hs
    simp only [hs] at hunrefused
    split
    · rename_i e o' heq
      simp only [heq] at hunrefused
      -- the notice of the failed chain is the newest one and names the error
      have hsubmit : (o.submit s).2.Balanced limit rs := by
        refine h.submit fun e' he' => ?_
        rw [heq] at he'
        cases he'
        exact hunrefused _ List.mem_cons_self
      rw [heq] at hsubmit
      exact hsubmit.note _
    · rename_i next o' heq
      have hsubmit : (o.submit s).2.Balanced limit rs := by
        refine h.submit fun e' he' => ?_
        rw [heq] at he'
        cases he'
      rw [heq] at hsubmit
      exact hsubmit.note _

theorem Balanced.handle (h : o.Balanced limit rs) {e : Event}
    (hunrefused : (o.handle e).IsUnrefused) :
    (o.handle e).Balanced limit (rs ++ e.result?.toList) := by
  cases e with
  | statusChanged c =>
      have hlabel : (Event.statusChanged c).result?.toList = [] := rfl
      rw [hlabel, List.append_nil]
      exact ⟨h.allocated, h.history⟩
  | newOutput a =>
      have hlabel : (Event.newOutput a).result? = a.task.map fun t => (t, a.worker) := rfl
      change (o.onOutput a).IsUnrefused at hunrefused
      show (o.onOutput a).Balanced limit _
      rw [hlabel]
      unfold onOutput at hunrefused ⊢
      cases htask : a.task with
      | none =>
          rw [Option.map_none, Option.toList_none, List.append_nil]
          exact h.note _
      | some t =>
          simp only [htask] at hunrefused ⊢
          have hregistered : ((o.registerResult t a.worker).note
              (.outputReceived a.worker t)).Balanced limit (rs ++ [(t, a.worker)]) :=
            (h.registerResult t a.worker).note _
          split at hunrefused
          · rename_i hcloses
            rw [if_pos hcloses]
            exact hregistered.continueChain hunrefused
          · rename_i hcloses
            rw [if_neg hcloses]
            exact hregistered

theorem Balanced.handleAll (h : o.Balanced limit rs) {events : List Event}
    (hunrefused : (o.handleAll events).IsUnrefused) :
    (o.handleAll events).Balanced limit (rs ++ events.filterMap Event.result?) := by
  induction events generalizing o rs with
  | nil =>
      rw [List.filterMap_nil, List.append_nil]
      exact h
  | cons e events ih =>
      -- what the first event has written is still there at the end
      have hfirst : (o.handle e).IsUnrefused := hunrefused.of_moves (moves_handleAll _ events)
      have hlabel : rs ++ (e :: events).filterMap Event.result? =
          rs ++ e.result?.toList ++ events.filterMap Event.result? := by
        cases he : e.result? <;> simp [he]
      rw [hlabel]
      exact ih (h.handle hfirst) hunrefused

theorem Balanced.drain (h : o.Balanced limit rs) (hunrefused : o.drain.IsUnrefused) :
    o.drain.Balanced limit (rs ++ o.hub.channel.events.filterMap Event.result?) := by
  have htaken : Balanced
      { o with hub := { o.hub with channel := { o.hub.channel with events := [] } } } limit rs :=
    ⟨h.allocated, h.history⟩
  exact htaken.handleAll hunrefused

end Orchestrator

namespace Session

open Orchestrator

/-! ## Commands -/

variable {s : Session} {limit : Option Nat} {rs : List (TaskId × Worker)}

theorem balanced_start (h : s.orchestrator.Balanced limit rs) :
    s.start.orchestrator.Balanced limit rs := by
  unfold start
  split
  · exact h.note _
  · exact h

theorem hub_start (s : Session) : s.start.orchestrator.hub = s.orchestrator.hub := by
  unfold start
  split <;> rfl

theorem balanced_pump (h : s.orchestrator.Balanced limit rs)
    (hunrefused : s.pump.orchestrator.IsUnrefused) :
    s.pump.orchestrator.Balanced limit (rs ++ s.registeredBy .pump) := by
  unfold pump at hunrefused ⊢
  unfold registeredBy isFinished
  cases hloop : s.loop with
  | finished =>
      rw [decide_eq_true rfl, if_pos rfl, List.append_nil]
      exact h
  | idle | running =>
      simp only [hloop] at hunrefused ⊢
      rw [if_neg (by decide), ← hub_start]
      exact (balanced_start h).drain hunrefused

theorem balanced_stop (h : s.orchestrator.Balanced limit rs)
    (hunrefused : s.stop.orchestrator.IsUnrefused) :
    s.stop.orchestrator.Balanced limit (rs ++ s.registeredBy .stop) := by
  unfold stop at hunrefused ⊢
  unfold registeredBy
  cases hloop : s.loop with
  | finished =>
      rw [isFinished, hloop, decide_eq_true rfl, if_pos rfl, List.append_nil]
      exact h
  | idle | running =>
      simp only [hloop] at hunrefused ⊢
      have hpump : s.pump.orchestrator.IsUnrefused :=
        hunrefused.of_moves (s.pump.aside_finish).moves
      have hbalanced := balanced_pump h hpump
      exact hbalanced.of_sameTasks rfl ⟨rfl, rfl, rfl, rfl⟩

theorem balanced_runEvents (h : s.orchestrator.Balanced limit rs) {events : List Event}
    (hunrefused : (s.runEvents events).orchestrator.IsUnrefused) :
    (s.runEvents events).orchestrator.Balanced limit (rs ++ events.filterMap Event.result?) := by
  have hhandled : ((s.orchestrator.note .loopStarted).handleAll events).IsUnrefused :=
    fun n hn => hunrefused n (List.mem_cons_of_mem _ hn)
  exact ((h.note .loopStarted).handleAll hhandled).note _

theorem registeredBy_eq_nil (s : Session) {c : Command} (h : c.registers = false) :
    s.registeredBy c = [] := by
  cases c <;> first | rfl | cases h

/-- **A command that is not refused** keeps the balance. -/
theorem balanced_apply (h : s.orchestrator.Balanced limit rs) {c : Command}
    (hdirect : c.isDirect = false) (hanswer : (s.apply c).1.isRefusal = false)
    (hunrefused : (s.apply c).2.orchestrator.IsUnrefused) :
    (s.apply c).2.orchestrator.Balanced limit (rs ++ s.registeredBy c) := by
  -- what a command does to the ledger goes by results or by a submission, if not by both
  cases hregisters : c.registers with
  | true =>
      cases c with
      | pump => exact balanced_pump h hunrefused
      | stop => exact balanced_stop h hunrefused
      | runEvents events => exact balanced_runEvents h hunrefused
      | handle e => exact h.handle hunrefused
      | register t w => exact h.registerResult t w
      | _ => cases hregisters
  | false =>
      rw [registeredBy_eq_nil s hregisters, List.append_nil]
      cases hbrings : c.brings with
      | false =>
          obtain ⟨hledger, hcalm⟩ := s.calm_apply hbrings hregisters
          exact h.of_sameTasks hledger hcalm.toSameTasks
      | true =>
          cases c with
          | submit input =>
              refine h.submit fun e he => ?_
              have hreply : (s.apply (.submit input)).1 = .failed e := by
                show Reply.ofExcept .task (s.orchestrator.submit input).1 = _
                rw [he]
                rfl
              rw [hreply] at hanswer
              exact hanswer
          | deliver w output => exact h.of_sameTasks rfl (Hub.sameTasks_deliver _ w output)
          | deliverStatus w status =>
              obtain ⟨hub, happly, hannounces⟩ := s.apply_deliverStatus w status
              rw [happly]
              exact h.of_sameTasks rfl hannounces.toSameTasks
          | allocateTask | allocateIteration | publish => cases hdirect
          | _ => cases hbrings

/-! ## Runs -/

/-- Whether the hub refuses a publication in a run: a submission is answered so, or the journal
tells of a chain that was refused. -/
def refuses (s : Session) : List Command → Bool
  | [] => s.orchestrator.journal.any Notice.isRefusal
  | c :: commands => (s.apply c).1.isRefusal || (s.apply c).2.refuses commands

/-- The tasks that a run has made known: the published ones and those with a registered result. -/
def known (s : Session) (commands : List Command) : List TaskId :=
  (s.run commands).orchestrator.hub.published ++ (s.registered commands).map Prod.fst

theorem isUnrefused_of_refuses {commands : List Command} (h : s.refuses commands = false) :
    s.orchestrator.IsUnrefused := by
  induction commands generalizing s with
  | nil =>
      intro n hn
      rw [← Bool.not_eq_true]
      exact fun hrefusal => List.any_eq_false.mp h n hn hrefusal
  | cons c commands ih =>
      obtain ⟨-, hlater⟩ := Bool.or_eq_false_iff.mp h
      exact (ih hlater).of_moves (s.moves_apply c)

theorem balanced_run (h : s.orchestrator.Balanced limit rs) {commands : List Command}
    (hdirect : ∀ c ∈ commands, c.isDirect = false) (hrefuses : s.refuses commands = false) :
    (s.run commands).orchestrator.Balanced limit (rs ++ s.registered commands) := by
  induction commands generalizing s rs with
  | nil =>
      show s.orchestrator.Balanced limit (rs ++ [])
      rw [List.append_nil]
      exact h
  | cons c commands ih =>
      obtain ⟨hanswer, hlater⟩ := Bool.or_eq_false_iff.mp hrefuses
      have hstep := balanced_apply h (hdirect c List.mem_cons_self) hanswer
        (isUnrefused_of_refuses hlater)
      have hrun := ih hstep (fun c hc => hdirect c (List.mem_cons_of_mem _ hc)) hlater
      rw [List.append_assoc] at hrun
      exact hrun

theorem balanced_new (settings : Settings) {hub : Hub} (hhub : hub.Untouched) :
    (new settings hub).orchestrator.Balanced settings.retention [] where
  allocated t := by
    rw [hub_new, hhub.allocated, hhub.published]
    exact ⟨nofun, nofun⟩
  history := by
    refine ⟨[], rfl, fun t => ?_⟩
    rw [hub_new, hhub.published]
    simp [Ledger.touched]

section

variable {settings : Settings} {hub : Hub} (hhub : hub.Untouched) {commands : List Command}
  (hdirect : ∀ c ∈ commands, c.isDirect = false)
  (hrefuses : (new settings hub).refuses commands = false)

include hhub hdirect hrefuses

/-- **Where nothing is refused** the allocated tasks are the published ones. -/
theorem allocated_run_iff (t : TaskId) :
    ((new settings hub).run commands).orchestrator.hub.allocated.contains t = true ↔
      t ∈ ((new settings hub).run commands).orchestrator.hub.published :=
  (balanced_run (balanced_new settings hhub) hdirect hrefuses).allocated t

/-- The ledger of such a run has heard of the tasks that the run has made known. -/
theorem touched_run_iff :
    ∃ steps, ((new settings hub).run commands).orchestrator.ledger =
        (Ledger.new settings.retention).run steps ∧
      ∀ t, t ∈ Ledger.touched steps ↔ t ∈ (new settings hub).known commands := by
  obtain ⟨steps, hledger, htouched⟩ :=
    (balanced_run (balanced_new settings hhub) hdirect hrefuses).history
  refine ⟨steps, hledger, fun t => ?_⟩
  rw [htouched, known, List.mem_append, List.nil_append]

end

end Session

end WorkerPipeline
