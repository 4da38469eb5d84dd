import Mathlib.Logic.Relation
import WorkerPipeline.Proofs.Orchestrator.Continuation
import WorkerPipeline.Proofs.Session.History

set_option autoImplicit false

/-! # What goes on in the hub

Only six commands bring something new to the hub: submissions, allocations and publications by a
caller, and what is delivered to it. Whatever else is done, handling events included, is a sequence
of three kinds of step (`Proceed`): a result is registered, the chain of a published task goes on,
or nothing happens that concerns the tasks and payloads of the hub (`proceeds_apply`).
-/

namespace WorkerPipeline

/-- From one state of a hub to another no task is allocated or published. -/
structure Hub.SameTasks (h h' : Hub) : Prop where
  nextProblem : h'.nextProblem = h.nextProblem
  allocated : h'.allocated = h.allocated
  inputs : h'.inputs = h.inputs
  published : h'.published = h.published

/-- Besides, no output is stored and no event announced. Events may have been taken from the
channel. -/
structure Hub.Calm (h h' : Hub) : Prop extends h.SameTasks h' where
  outputs : h'.outputs = h.outputs
  events : h'.channel.events ⊆ h.channel.events

/-- Nothing has been done with the hub yet. -/
structure Hub.Untouched (h : Hub) : Prop where
  allocated : h.allocated = ∅
  inputs : h.inputs = ∅
  published : h.published = []
  outputs : h.outputs = ∅
  events : h.channel.events = []

theorem Hub.Calm.of_eq {h h' : Hub} (heq : h' = h) : h.Calm h' := by
  subst heq
  exact ⟨⟨rfl, rfl, rfl, rfl⟩, rfl, List.Subset.refl _⟩

/-! ## Announcements -/

/-- From one state of a hub to another one event is announced at most. -/
structure Hub.Announces (h h' : Hub) (e : Event) : Prop extends h.SameTasks h' where
  outputs : h'.outputs = h.outputs
  events : ∀ e' ∈ h'.channel.events, e' ∈ h.channel.events ∨ e' = e

theorem Hub.Announces.refl (h : Hub) (e : Event) : h.Announces h e :=
  ⟨⟨rfl, rfl, rfl, rfl⟩, rfl, fun _ => .inl⟩

theorem Hub.announces_of_announce {h h' : Hub} {e : Event} (hok : h.announce e = .ok h') :
    h.Announces h' e := by
  unfold Hub.announce at hok
  split at hok
  · cases hok
  · cases hok
    refine ⟨⟨rfl, rfl, rfl, rfl⟩, rfl, fun e' he' => ?_⟩
    exact (List.mem_append.mp he').imp_right List.mem_singleton.mp

/-- An output is stored and announced, if the channel is open. -/
theorem Hub.announces_deliver (h : Hub) (w : Worker) (output : Output) :
    (h.store w output).Announces (h.deliver w output).2 (arrival w output) := by
  unfold Hub.deliver
  split
  · exact .refl _ _
  · rename_i hok
    exact announces_of_announce hok

theorem Hub.sameTasks_store (h : Hub) (w : Worker) (output : Output) :
    h.SameTasks (h.store w output) := by
  unfold Hub.store
  split <;> exact ⟨rfl, rfl, rfl, rfl⟩

/-- To deliver an output has nothing to do with the tasks. -/
theorem Hub.sameTasks_deliver (h : Hub) (w : Worker) (output : Output) :
    h.SameTasks (h.deliver w output).2 := by
  have hstore := h.sameTasks_store w output
  have hannounce := h.announces_deliver w output
  exact ⟨hannounce.nextProblem.trans hstore.nextProblem,
    hannounce.allocated.trans hstore.allocated, hannounce.inputs.trans hstore.inputs,
    hannounce.published.trans hstore.published⟩

/-- A status is announced, if the channel is open. -/
theorem Session.apply_deliverStatus (s : Session) (w : Worker) (status : WorkerStatus) :
    ∃ hub, (s.apply (.deliverStatus w status)).2 = s.withHub hub ∧
      s.orchestrator.hub.Announces hub (.statusChanged ⟨w, status⟩) := by
  unfold Session.apply Session.reportStatus
  dsimp only
  split
  · exact ⟨s.orchestrator.hub, rfl, .refl _ _⟩
  · rename_i hub hok
    exact ⟨hub, rfl, Hub.announces_of_announce hok⟩

namespace Orchestrator

/-- One step of an orchestrator to which nothing new is brought. -/
inductive Proceed (o o' : Orchestrator) : Prop
  | register {t : TaskId} {w : Worker} (hledger : o'.ledger = o.ledger.registerResult t w)
      (hhub : o'.hub = o.hub)
  | follow {s : Submission} {candidate : TaskId} (hp : s.predecessor? = some candidate)
      (hstored : (o.hub.inputs.get? candidate).isSome) (ho' : o' = (o.submit s).2)
  | calm (hledger : o'.ledger = o.ledger) (hhub : o.hub.Calm o'.hub)

/-- Any number of steps. -/
abbrev Proceeds : Orchestrator → Orchestrator → Prop := Relation.ReflTransGen Proceed

variable {o o' o'' : Orchestrator}

theorem proceeds_of_calm (hledger : o'.ledger = o.ledger) (hhub : o.hub.Calm o'.hub) :
    o.Proceeds o' := .single (.calm hledger hhub)

theorem proceeds_note (o : Orchestrator) (n : Notice) : o.Proceeds (o.note n) :=
  proceeds_of_calm rfl (.of_eq rfl)

/-- What no step destroys holds after all of them if it held before. -/
theorem Proceeds.preserves {P : Orchestrator → Prop}
    (hstep : ∀ {o o'}, Proceed o o' → P o → P o') (h : o.Proceeds o') (ho : P o) : P o' := by
  induction h with
  | refl => exact ho
  | tail _ hlast ih => exact hstep hlast ih

/-! ## Handling events -/

theorem proceeds_continueChain (o : Orchestrator) (t : TaskId) (output : Output) :
    o.Proceeds (o.continueChain t output) := by
  unfold continueChain
  split
  · exact o.proceeds_note _
  · exact .refl
  · rename_i s hs
    -- the chain goes on from the input that was published for the task
    obtain ⟨e, n, u, s₀, -, -, -, hu, -, rfl⟩ := nextSubmission?_eq_some_iff.mp hs
    have hfollow : o.Proceeds (o.submit (s₀.continuing t (n - 1) e.modelRestrains)).2 :=
      .single (.follow (s₀.predecessor?_continuing t _ _) (by rw [hu]; rfl) rfl)
    split
    · rename_i heq
      rw [heq] at hfollow
      exact hfollow.trans (proceeds_note _ _)
    · rename_i heq
      rw [heq] at hfollow
      exact hfollow.trans (proceeds_note _ _)

theorem proceeds_registerResult (o : Orchestrator) (t : TaskId) (w : Worker) :
    o.Proceeds (o.registerResult t w) :=
  .single (.register (ledger_registerResult t w) (hub_registerResult t w))

theorem proceeds_handle (o : Orchestrator) (e : Event) : o.Proceeds (o.handle e) := by
  cases e with
  | statusChanged c => exact proceeds_of_calm rfl (.of_eq rfl)
  | newOutput a =>
      show o.Proceeds (o.onOutput a)
      unfold onOutput
      cases a.task with
      | none => exact o.proceeds_note _
      | some t =>
          have hreceive : o.Proceeds
              ((o.registerResult t a.worker).note (.outputReceived a.worker t)) :=
            (o.proceeds_registerResult t a.worker).trans (proceeds_note _ _)
          dsimp only
          split
          · exact hreceive.trans (proceeds_continueChain _ t a.output)
          · exact hreceive

theorem proceeds_handleAll (o : Orchestrator) (events : List Event) :
    o.Proceeds (o.handleAll events) := by
  induction events generalizing o with
  | nil => exact .refl
  | cons e events ih => exact (o.proceeds_handle e).trans (ih (o.handle e))

/-- The events are taken from the channel before they are handled. -/
theorem proceeds_drain (o : Orchestrator) : o.Proceeds o.drain := by
  have htaken : o.Proceeds
      { o with hub := { o.hub with channel := { o.hub.channel with events := [] } } } :=
    proceeds_of_calm rfl ⟨⟨rfl, rfl, rfl, rfl⟩, rfl, List.nil_subset _⟩
  exact htaken.trans (proceeds_handleAll _ _)

end Orchestrator

namespace Session

open Orchestrator

/-! ## Waiting and asking -/

@[simp] theorem hub_new (settings : Settings) (hub : Hub) :
    (new settings hub).orchestrator.hub = hub := rfl

theorem hub_pollWaiter (s : Session) (w : Waiter) :
    (s.pollWaiter w).2.orchestrator.hub = s.orchestrator.hub := by
  unfold pollWaiter
  split
  · split <;> rfl
  · rfl

theorem hub_advanceWaiter (s : Session) (name : String) (w : Waiter) :
    (s.advanceWaiter name w).2.orchestrator.hub = s.orchestrator.hub := by
  have h := s.hub_pollWaiter w
  unfold advanceWaiter
  generalize s.pollWaiter w = polled at h
  obtain ⟨state, s'⟩ := polled
  cases state <;> exact h

theorem hub_spawn (s : Session) (name : String) (worker : Worker) :
    (s.spawn name worker).2.orchestrator.hub = s.orchestrator.hub := by
  unfold spawn
  dsimp only
  split
  · rfl
  · exact hub_advanceWaiter { s with waiters := s.waiters.erase name } name _

theorem hub_poll (s : Session) (name : String) :
    (s.poll name).2.orchestrator.hub = s.orchestrator.hub := by
  unfold poll
  split
  · rfl
  · exact s.hub_advanceWaiter name _

theorem hub_wait (s : Session) (worker : Worker) (task : TaskId) :
    (s.wait worker task).2.orchestrator.hub = s.orchestrator.hub := by
  have h := s.hub_pollWaiter (s.newWaiter worker task)
  unfold wait
  generalize s.pollWaiter (s.newWaiter worker task) = polled at h
  obtain ⟨state, s'⟩ := polled
  cases state with
  | arrived => exact h
  | timedOut => exact h
  | pending w =>
      dsimp only
      split <;> exact h

theorem hub_result (s : Session) (task : Option TaskId) (worker : Worker) :
    (s.result task worker).2.orchestrator.hub = s.orchestrator.hub := by
  unfold result
  split
  · rfl
  · split
    · rfl
    · rename_i t _
      have h := s.hub_wait worker t
      split <;> rename_i heq <;> rw [heq] at h <;> exact h

/-- A request is kept by the hub and changes nothing else there. -/
theorem calm_sendRequest (o : Orchestrator) (text : String) :
    o.hub.Calm (o.sendRequest text).2.hub := by
  unfold sendRequest
  dsimp only
  split
  · exact .of_eq rfl
  · exact ⟨⟨rfl, rfl, rfl, rfl⟩, rfl, List.Subset.refl _⟩

theorem calm_configRequest (o : Orchestrator) (text : String) :
    o.hub.Calm (o.configRequest text).2.hub := by
  have h := calm_sendRequest o text
  unfold configRequest
  split <;> rename_i heq <;> rw [heq] at h <;> exact h

/-! ## The event loop -/

theorem proceeds_start (s : Session) : s.orchestrator.Proceeds s.start.orchestrator := by
  unfold start
  split
  · exact s.orchestrator.proceeds_note _
  · exact .refl

theorem proceeds_pump (s : Session) : s.orchestrator.Proceeds s.pump.orchestrator := by
  unfold pump
  split
  · exact .refl
  · exact s.proceeds_start.trans (proceeds_drain _)

/-- To end the loop closes the channel and takes nothing from it. -/
theorem proceeds_finish (s : Session) : s.orchestrator.Proceeds s.finish.orchestrator :=
  proceeds_of_calm rfl ⟨⟨rfl, rfl, rfl, rfl⟩, rfl, List.Subset.refl _⟩

theorem proceeds_stop (s : Session) : s.orchestrator.Proceeds s.stop.orchestrator := by
  unfold stop
  split
  · exact .refl
  · exact s.proceeds_pump.trans s.pump.proceeds_finish

theorem proceeds_runEvents (s : Session) (events : List Event) :
    s.orchestrator.Proceeds (s.runEvents events).orchestrator :=
  ((s.orchestrator.proceeds_note .loopStarted).trans (proceeds_handleAll _ events)).trans
    (proceeds_note _ _)

end Session

/-! ## Commands -/

/-- Whether a command brings something new to the hub. -/
def Command.brings : Command → Bool
  | .submit _ | .deliver _ _ | .deliverStatus _ _ => true
  | .allocateTask | .allocateIteration _ | .publish _ _ => true
  | _ => false

/-- Whether a command can register results. -/
def Command.registers : Command → Bool
  | .pump | .stop | .runEvents _ | .handle _ | .register _ _ => true
  | _ => false

namespace Session

open Orchestrator

theorem aside_apply_poll (s : Session) (name : String) :
    s.orchestrator.Aside (s.apply (.poll name)).2.orchestrator ∧
      (s.apply (.poll name)).2.orchestrator.hub = s.orchestrator.hub := by
  have haside := s.aside_poll name
  have hhub := s.hub_poll name
  unfold apply
  dsimp only
  split <;> rename_i heq <;> rw [heq] at haside hhub <;> exact ⟨haside, hhub⟩

/-- A command that neither brings nor registers anything concerns no task. -/
theorem calm_apply (s : Session) {c : Command} (hbrings : c.brings = false)
    (hregisters : c.registers = false) :
    (s.apply c).2.orchestrator.ledger = s.orchestrator.ledger ∧
      s.orchestrator.hub.Calm (s.apply c).2.orchestrator.hub := by
  cases c with
  | submit | deliver | deliverStatus | allocateTask | allocateIteration | publish => cases hbrings
  | pump | stop | runEvents | handle | register => cases hregisters
  | result t w => exact ⟨(s.aside_result t w).ledger, .of_eq (s.hub_result t w)⟩
  | wait t w => exact ⟨(s.aside_wait w t).ledger, .of_eq (s.hub_wait w t)⟩
  | spawn name w => exact ⟨(s.aside_spawn name w).ledger, .of_eq (s.hub_spawn name w)⟩
  | poll name =>
      obtain ⟨haside, hhub⟩ := s.aside_apply_poll name
      exact ⟨haside.ledger, .of_eq hhub⟩
  | request text => exact ⟨(aside_sendRequest _ text).ledger, calm_sendRequest _ text⟩
  | configRequest text => exact ⟨(aside_configRequest _ text).ledger, calm_configRequest _ text⟩
  | reject on => exact ⟨rfl, ⟨rfl, rfl, rfl, rfl⟩, rfl, List.Subset.refl _⟩
  | _ => exact ⟨rfl, .of_eq rfl⟩

/-- **A command that brings nothing new** lets the orchestrator proceed at most. -/
theorem proceeds_apply (s : Session) {c : Command} (h : c.brings = false) :
    s.orchestrator.Proceeds (s.apply c).2.orchestrator := by
  cases hregisters : c.registers with
  | false =>
      obtain ⟨hledger, hcalm⟩ := s.calm_apply h hregisters
      exact proceeds_of_calm hledger hcalm
  | true =>
      cases c with
      | pump => exact s.proceeds_pump
      | stop => exact s.proceeds_stop
      | runEvents events => exact s.proceeds_runEvents events
      | handle e => exact s.orchestrator.proceeds_handle e
      | register t w => exact s.orchestrator.proceeds_registerResult t w
      | _ => cases hregisters

/-- An iteration that a caller allocates is entered into the table, if it is free. -/
theorem apply_allocateIteration (s : Session) (base : TaskId) :
    (s.apply (.allocateIteration base)).2 = s ∨
      ∃ t, base.next? = some t ∧ (s.apply (.allocateIteration base)).2 = s.withHub
        { s.orchestrator.hub with allocated := s.orchestrator.hub.allocated.insert t () } := by
  rcases allocateIteration_cases s.orchestrator.hub base with
    ⟨fault, heq, -⟩ | ⟨t, template, hnext, -, heq⟩
  · refine .inl ?_
    unfold apply
    simp only [heq]
  · refine .inr ⟨t, hnext, ?_⟩
    unfold apply
    simp only [heq]

end Session

end WorkerPipeline
