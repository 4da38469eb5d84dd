import WorkerPipeline.Proofs.Ledger.Unlimited
import WorkerPipeline.Proofs.Orchestrator.Moves
import WorkerPipeline.Session.Command

set_option autoImplicit false

/-! # Histories of a session

Results are registered on four ways: a caller registers one, an event is handled at once, events
are run through a loop of their own, and the session's loop takes them from the channel.
`registered` lists what a run registers on any of them. Every command is a number of moves of the
orchestrator that register just that (`moves_run`), so what a run has left in the ledger can be read
off the list.
-/

namespace WorkerPipeline

namespace Session

/-! ## What a run registers -/

/-- The results that a command registers, oldest first. -/
def registeredBy (s : Session) : Command → List (TaskId × Worker)
  | .register t w => [(t, w)]
  | .handle e => e.result?.toList
  | .runEvents events => events.filterMap Event.result?
  | .pump | .stop =>
    if s.isFinished then [] else s.orchestrator.hub.channel.events.filterMap Event.result?
  | _ => []

def registered (s : Session) : List Command → List (TaskId × Worker)
  | [] => []
  | c :: commands => s.registeredBy c ++ (s.apply c).2.registered commands

theorem run_append (s : Session) (a b : List Command) : s.run (a ++ b) = (s.run a).run b :=
  List.foldl_append

theorem registered_append (s : Session) (a b : List Command) :
    s.registered (a ++ b) = s.registered a ++ (s.run a).registered b := by
  induction a generalizing s with
  | nil => rfl
  | cons c a ih =>
      show s.registeredBy c ++ (s.apply c).2.registered (a ++ b) = _
      rw [ih, ← List.append_assoc]
      rfl

theorem registered_singleton (s : Session) (c : Command) :
    s.registered [c] = s.registeredBy c :=
  List.append_nil _

/-! ## Changes aside -/

open Orchestrator

/-- To wait writes into the journal at most. -/
theorem aside_pollWaiter (s : Session) (w : Waiter) :
    s.orchestrator.Aside (s.pollWaiter w).2.orchestrator := by
  unfold pollWaiter
  split
  · split
    · exact .refl _
    · exact aside_note _ nofun
  · exact .refl _

theorem aside_advanceWaiter (s : Session) (name : String) (w : Waiter) :
    s.orchestrator.Aside (s.advanceWaiter name w).2.orchestrator := by
  have h := s.aside_pollWaiter w
  unfold advanceWaiter
  generalize s.pollWaiter w = polled at h
  obtain ⟨state, s'⟩ := polled
  cases state <;> exact h

theorem aside_spawn (s : Session) (name : String) (worker : Worker) :
    s.orchestrator.Aside (s.spawn name worker).2.orchestrator := by
  unfold spawn
  dsimp only
  split
  · exact .refl _
  · exact aside_advanceWaiter { s with waiters := s.waiters.erase name } name _

theorem aside_poll (s : Session) (name : String) :
    s.orchestrator.Aside (s.poll name).2.orchestrator := by
  unfold poll
  split
  · exact .refl _
  · exact s.aside_advanceWaiter name _

theorem aside_wait (s : Session) (worker : Worker) (task : TaskId) :
    s.orchestrator.Aside (s.wait worker task).2.orchestrator := by
  have h := s.aside_pollWaiter (s.newWaiter worker task)
  unfold wait
  generalize s.pollWaiter (s.newWaiter worker task) = polled at h
  obtain ⟨state, s'⟩ := polled
  cases state with
  | arrived => exact h
  | timedOut => exact h
  | pending w =>
      dsimp only
      split <;> exact h

theorem aside_result (s : Session) (task : Option TaskId) (worker : Worker) :
    s.orchestrator.Aside (s.result task worker).2.orchestrator := by
  unfold result
  split
  · exact .refl _
  · split
    · exact .refl _
    · rename_i t _
      have h := s.aside_wait worker t
      split <;> rename_i heq <;> rw [heq] at h <;> exact h

theorem aside_sendRequest (o : Orchestrator) (text : String) :
    o.Aside (o.sendRequest text).2 := by
  unfold sendRequest
  dsimp only
  split
  · exact ⟨rfl, rfl, rfl, writes_note _ nofun⟩
  · exact ⟨rfl, rfl, rfl, writes_note _ nofun⟩

theorem aside_configRequest (o : Orchestrator) (text : String) :
    o.Aside (o.configRequest text).2 := by
  have h := aside_sendRequest o text
  unfold configRequest
  split <;> rename_i heq <;> rw [heq] at h <;> exact h

/-! ## Commands are moves -/

theorem moves_pump (s : Session) :
    s.orchestrator.Moves (s.registeredBy .pump) s.pump.orchestrator := by
  unfold pump registeredBy isFinished
  cases hloop : s.loop with
  | finished => exact .refl
  | running =>
      have hstart : s.start = s := by
        unfold start
        rw [hloop]
      rw [hstart]
      exact s.orchestrator.moves_drain
  | idle =>
      have hstart : s.start = { s.note .loopStarted with loop := .running } := by
        unfold start
        rw [hloop]
      rw [hstart]
      have haside : s.orchestrator.Aside (s.orchestrator.note .loopStarted) := aside_note _ nofun
      exact haside.moves.trans (moves_drain (s.orchestrator.note .loopStarted))

theorem aside_finish (s : Session) : s.orchestrator.Aside s.finish.orchestrator :=
  (s.orchestrator.aside_note (n := .loopStopped .shutdownRequested) nofun).trans (aside_hub _ _)

theorem moves_stop (s : Session) :
    s.orchestrator.Moves (s.registeredBy .stop) s.stop.orchestrator := by
  have hpump := s.moves_pump
  unfold stop
  cases hloop : s.loop with
  | finished =>
      rw [pump, hloop] at hpump
      exact hpump
  | running => exact hpump.aside s.pump.aside_finish
  | idle => exact hpump.aside s.pump.aside_finish

theorem moves_runEvents (s : Session) (events : List Event) :
    s.orchestrator.Moves (s.registeredBy (.runEvents events))
      (s.runEvents events).orchestrator := by
  have haside : s.orchestrator.Aside (s.orchestrator.note .loopStarted) := aside_note _ nofun
  have hmoves : s.orchestrator.Moves (events.filterMap Event.result?)
      ((s.orchestrator.note .loopStarted).handleAll events) :=
    haside.moves.trans (moves_handleAll _ _)
  exact hmoves.aside (aside_note _ nofun)

/-- **A command is a number of moves**, which register what the command registers. -/
theorem moves_apply (s : Session) (c : Command) :
    s.orchestrator.Moves (s.registeredBy c) (s.apply c).2.orchestrator := by
  cases c with
  | pump => exact s.moves_pump
  | stop => exact s.moves_stop
  | runEvents events => exact s.moves_runEvents events
  | handle e => exact s.orchestrator.moves_handle e
  | register t w => exact (Move.register s.orchestrator t w).moves
  | submit input => exact (Move.submit s.orchestrator input).moves
  | deliver w output => exact (aside_hub _ _).moves
  | deliverStatus w status =>
      unfold apply reportStatus
      dsimp only
      split
      · exact .refl
      · exact (aside_hub _ _).moves
  | result t w => exact (s.aside_result t w).moves
  | wait t w => exact (s.aside_wait w t).moves
  | spawn name w => exact (s.aside_spawn name w).moves
  | poll name =>
      have h := (s.aside_poll name).moves
      unfold apply
      dsimp only
      split <;> rename_i heq <;> rw [heq] at h <;> exact h
  | request text => exact (aside_sendRequest _ text).moves
  | configRequest text => exact (aside_configRequest _ text).moves
  | reject on => exact (aside_hub _ _).moves
  | allocateTask => exact (aside_hub _ _).moves
  | allocateIteration base =>
      unfold apply
      dsimp only
      split
      · exact .refl
      · exact (aside_hub _ _).moves
  | publish t u =>
      unfold apply
      dsimp only
      split
      · exact .refl
      · exact (aside_hub _ _).moves
  | elapse ms => exact .refl
  | available t w => exact .refl
  | record t => exact .refl
  | status w => exact .refl
  | requests => exact .refl
  | published => exact .refl
  | publishedInput t => exact .refl
  | fetch w t => exact .refl

theorem moves_run (s : Session) (commands : List Command) :
    s.orchestrator.Moves (s.registered commands) (s.run commands).orchestrator := by
  induction commands generalizing s with
  | nil => exact .refl
  | cons c commands ih => exact (s.moves_apply c).trans (ih (s.apply c).2)

/-! ## Sessions from the beginning -/

section

variable (settings : Settings) (hub : Hub) (commands : List Command)

theorem settings_run :
    ((new settings hub).run commands).orchestrator.settings = settings :=
  ((new settings hub).moves_run commands).settings

/-- The counter of registrations is the number of the results that were registered. -/
theorem registrations_run :
    ((new settings hub).run commands).orchestrator.registrations =
      ((new settings hub).registered commands).length :=
  ((new settings hub).moves_run commands).registrations.trans (Nat.zero_add _)

theorem ledger_run :
    ∃ steps, Ledger.results steps = (new settings hub).registered commands ∧
      ((new settings hub).run commands).orchestrator.ledger =
        (Ledger.new settings.retention).run steps :=
  ((new settings hub).moves_run commands).ledger

theorem limit_run :
    ((new settings hub).run commands).orchestrator.ledger.limit = settings.retention := by
  obtain ⟨steps, -, hledger⟩ := ledger_run settings hub commands
  rw [hledger, Ledger.limit_run]
  rfl

theorem tidy_run : ((new settings hub).run commands).orchestrator.ledger.Tidy :=
  ((new settings hub).moves_run commands).tidy (Ledger.tidy_new settings.retention)

/-- Without a limit, the results available are those of tracked workers that were registered. -/
theorem available_run_iff {settings : Settings} (h : settings.retention = none) (t : TaskId)
    (w : Worker) :
    ((new settings hub).run commands).orchestrator.ledger.available t w = true ↔
      w.isTracked = true ∧ (t, w) ∈ (new settings hub).registered commands := by
  obtain ⟨steps, hresults, hledger⟩ := ledger_run settings hub commands
  rw [hledger, h, Ledger.available_run_iff, ← Ledger.mem_results, hresults]

end

end Session

end WorkerPipeline
