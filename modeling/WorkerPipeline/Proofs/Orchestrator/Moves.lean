import WorkerPipeline.Orchestrator.Event
import WorkerPipeline.Proofs.Ledger.Reservation
import WorkerPipeline.Proofs.Orchestrator.Submission

set_option autoImplicit false

/-! # Moves of the orchestrator

Whatever is done with an orchestrator is a sequence of moves of four kinds: a result is registered,
with or without a notice that an output was received, something is submitted, or something happens
that has nothing to do with the ledger. The moves bear the results that they register, so a run is
labelled with the list of all registrations. What holds of every orchestrator that comes of a run
is proved move by move, and for the run by induction on its moves.
-/

namespace WorkerPipeline

/-- The result that an event reports. -/
def Event.result? : Event → Option (TaskId × Worker)
  | .statusChanged _ => none
  | .newOutput a => a.task.map fun t => (t, a.worker)

namespace Orchestrator

inductive Move : Orchestrator → List (TaskId × Worker) → Orchestrator → Prop
  | register (o : Orchestrator) (t : TaskId) (w : Worker) : Move o [(t, w)] (o.registerResult t w)
  | receive (o : Orchestrator) (t : TaskId) (w : Worker) :
      Move o [(t, w)] ((o.registerResult t w).note (.outputReceived w t))
  | submit (o : Orchestrator) (s : Submission) : Move o [] (o.submit s).2
  | aside {o o' : Orchestrator} (h : o.Aside o') : Move o [] o'

/-- Any number of moves, with the results that they register, oldest first. -/
inductive Moves (o : Orchestrator) : List (TaskId × Worker) → Orchestrator → Prop
  | refl : Moves o [] o
  | tail {rs rs' : List (TaskId × Worker)} {o' o'' : Orchestrator} (h : Moves o rs o')
      (hlast : o'.Move rs' o'') : Moves o (rs ++ rs') o''

variable {o o' o'' : Orchestrator} {rs rs' : List (TaskId × Worker)}

theorem Move.moves (h : o.Move rs o') : o.Moves rs o' := .tail .refl h

theorem Moves.trans (h : o.Moves rs o') (h' : o'.Moves rs' o'') : o.Moves (rs ++ rs') o'' := by
  induction h' with
  | refl => rw [List.append_nil]; exact h
  | tail _ hlast ih => rw [← List.append_assoc]; exact ih.tail hlast

/-- What no move destroys holds after a run if it held before. -/
theorem Moves.preserves {P : Orchestrator → Prop}
    (hmove : ∀ {o rs o'}, Move o rs o' → P o → P o') (h : o.Moves rs o') (ho : P o) : P o' := by
  induction h with
  | refl => exact ho
  | tail _ hlast ih => exact hmove hlast ih

/-! ## Events are handled by moves -/

theorem Aside.moves (h : o.Aside o') : o.Moves [] o' := (Move.aside h).moves

/-- What has nothing to do with the ledger can follow unseen. -/
theorem Moves.aside (h : o.Moves rs o') (h' : o'.Aside o'') : o.Moves rs o'' := by
  rw [← List.append_nil rs]
  exact h.tail (.aside h')

theorem moves_continueChain (o : Orchestrator) (t : TaskId) (output : Output) :
    o.Moves [] (o.continueChain t output) := by
  unfold continueChain
  split
  · exact Aside.moves (o.aside_note nofun)
  · exact .refl
  · rename_i s _
    have hsubmit : o.Moves [] (o.submit s).2 := (Move.submit o s).moves
    split
    · rename_i heq
      rw [heq] at hsubmit
      exact hsubmit.aside (aside_note _ nofun)
    · rename_i heq
      rw [heq] at hsubmit
      exact hsubmit.aside (aside_note _ nofun)

theorem moves_handle (o : Orchestrator) (e : Event) : o.Moves e.result?.toList (o.handle e) := by
  cases e with
  | statusChanged c => exact Aside.moves ⟨rfl, rfl, rfl, o.writes_note nofun⟩
  | newOutput a =>
      show o.Moves (a.task.map fun t => (t, a.worker)).toList (o.onOutput a)
      unfold onOutput
      cases a.task with
      | none => exact Aside.moves (o.aside_note nofun)
      | some t =>
          have hreceive := (Move.receive o t a.worker).moves
          dsimp only
          split
          · exact hreceive.trans (moves_continueChain _ t a.output)
          · exact hreceive

theorem moves_handleAll (o : Orchestrator) (events : List Event) :
    o.Moves (events.filterMap Event.result?) (o.handleAll events) := by
  induction events generalizing o with
  | nil => exact .refl
  | cons e events ih =>
      have hlabel : (e :: events).filterMap Event.result? =
          e.result?.toList ++ events.filterMap Event.result? := by
        cases h : e.result? <;> simp [h]
      rw [hlabel]
      exact (o.moves_handle e).trans (ih (o.handle e))

theorem moves_drain (o : Orchestrator) :
    o.Moves (o.hub.channel.events.filterMap Event.result?) o.drain :=
  (o.aside_hub _).moves.trans (moves_handleAll _ _)

/-! ## What a run does to the ledger -/

theorem Submits.settings {s : Submission} {outcome : Except Error TaskId}
    (h : o.Submits s outcome o') : o'.settings = o.settings := by
  cases h with
  | refused haside => exact haside.settings
  | rejected _ _ _ _ hrest => exact hrest.settings
  | accepted _ _ _ _ _ hsettings => exact hsettings

theorem Submits.registrations {s : Submission} {outcome : Except Error TaskId}
    (h : o.Submits s outcome o') : o'.registrations = o.registrations := by
  cases h with
  | refused haside => exact haside.registrations
  | rejected _ _ _ _ hrest => exact hrest.registrations
  | accepted _ _ _ _ _ _ hregistrations => exact hregistrations

theorem Move.settings (h : o.Move rs o') : o'.settings = o.settings := by
  cases h with
  | register t w => exact settings_registerResult t w
  | receive t w => exact settings_registerResult t w
  | submit s => exact (submits o s).settings
  | aside h => exact h.settings

theorem registrations_registerResult (o : Orchestrator) (t : TaskId) (w : Worker) :
    (o.registerResult t w).registrations = o.registrations + 1 := by
  unfold registerResult
  split <;> rfl

/-- The registrations are counted. -/
theorem Move.registrations (h : o.Move rs o') :
    o'.registrations = o.registrations + rs.length := by
  cases h with
  | register t w => exact registrations_registerResult o t w
  | receive t w => exact registrations_registerResult o t w
  | submit s => exact (submits o s).registrations
  | aside h => exact h.registrations

theorem Submits.isSuffix_journal {s : Submission} {outcome : Except Error TaskId}
    (h : o.Submits s outcome o') : o.journal <:+ o'.journal := by
  cases h with
  | refused haside => exact haside.writes.isSuffix
  | rejected _ _ _ _ hrest => exact hrest.writes.isSuffix
  | accepted _ _ _ _ _ _ _ hwrites => exact hwrites.isSuffix

/-- A move adds to the journal. -/
theorem Move.isSuffix_journal (h : o.Move rs o') : o.journal <:+ o'.journal := by
  cases h with
  | register t w => exact (writes_registerResult o t w).isSuffix
  | receive t w =>
      exact ((writes_registerResult o t w).isSuffix).trans (List.suffix_cons _ _)
  | submit s => exact (submits o s).isSuffix_journal
  | aside h => exact h.writes.isSuffix

/-- A move is a piece of the ledger's history. -/
theorem Move.ledger (h : o.Move rs o') :
    ∃ steps, Ledger.results steps = rs ∧ o'.ledger = o.ledger.run steps := by
  cases h with
  | register t w => exact ⟨[.registerResult t w], rfl, ledger_registerResult t w⟩
  | receive t w => exact ⟨[.registerResult t w], rfl, ledger_registerResult t w⟩
  | aside h => exact ⟨[], rfl, h.ledger⟩
  | submit s =>
      have hsubmits := submits o s
      generalize (o.submit s).1 = outcome at hsubmits
      cases hsubmits with
      | refused haside => exact ⟨[], rfl, haside.ledger⟩
      | @rejected t _ _ _ _ hledger => exact ⟨[.reserve t, .release t], rfl, hledger⟩
      | @accepted t _ _ _ _ _ hledger => exact ⟨[.reserve t, .registerTask t], rfl, hledger⟩

theorem Move.tidy (h : o.Move rs o') (ho : o.ledger.Tidy) : o'.ledger.Tidy := by
  cases h with
  | register t w =>
      rw [ledger_registerResult]
      exact ho.registerResult t w
  | receive t w =>
      show (o.registerResult t w).ledger.Tidy
      rw [ledger_registerResult]
      exact ho.registerResult t w
  | aside h => rw [h.ledger]; exact ho
  | submit s =>
      have hsubmits := submits o s
      generalize (o.submit s).1 = outcome at hsubmits
      cases hsubmits with
      | refused haside => rw [haside.ledger]; exact ho
      | rejected _ _ _ hledger => rw [hledger]; exact ho.release_reserve_tidy _
      | accepted _ _ _ hledger => rw [hledger]; exact ho.registerTask_reserve _

theorem Moves.settings (h : o.Moves rs o') : o'.settings = o.settings :=
  h.preserves (fun hmove heq => hmove.settings.trans heq) rfl

theorem Moves.registrations (h : o.Moves rs o') :
    o'.registrations = o.registrations + rs.length := by
  induction h with
  | refl => rfl
  | tail _ hlast ih => rw [hlast.registrations, ih, List.length_append, Nat.add_assoc]

theorem Moves.isSuffix_journal (h : o.Moves rs o') : o.journal <:+ o'.journal :=
  h.preserves (P := fun o' => o.journal <:+ o'.journal)
    (fun hmove hbefore => hbefore.trans hmove.isSuffix_journal) (List.suffix_refl _)

/-- **The ledger of a run** has a history in which the registered results are those of the run. -/
theorem Moves.ledger (h : o.Moves rs o') :
    ∃ steps, Ledger.results steps = rs ∧ o'.ledger = o.ledger.run steps := by
  induction h with
  | refl => exact ⟨[], rfl, rfl⟩
  | tail _ hlast ih =>
      obtain ⟨steps, hresults, hledger⟩ := ih
      obtain ⟨steps', hresults', hledger'⟩ := hlast.ledger
      refine ⟨steps ++ steps', ?_, ?_⟩
      · rw [Ledger.results_append, hresults, hresults']
      · rw [hledger', hledger, Ledger.run_append]

theorem Moves.tidy (h : o.Moves rs o') (ho : o.ledger.Tidy) : o'.ledger.Tidy :=
  h.preserves Move.tidy ho

end Orchestrator

end WorkerPipeline
