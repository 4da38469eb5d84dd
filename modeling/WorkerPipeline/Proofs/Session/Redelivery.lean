import WorkerPipeline.Proofs.Orchestrator.Continuation
import WorkerPipeline.Proofs.Session.History

set_option autoImplicit false

/-! # Outputs that are delivered again

The journal tells which outputs were received and which problems were evicted. A result whose
output was received is available as long as its problem has not been evicted since
(`Remembers`), so a carbon footprint that is delivered again publishes nothing
(`redelivery_publishes_nothing`). With a limit this is all there is: once its problem is evicted, a
carbon footprint counts as the first of its task again (`redelivery_after_eviction`).
-/

namespace WorkerPipeline

namespace Orchestrator

/-- Every output that the journal tells of is in the ledger, unless its problem has been evicted
since. Without a limit no problem is evicted. -/
def Remembers (o : Orchestrator) : Prop :=
  ∀ later earlier t w, o.journal = later ++ .outputReceived w t :: earlier →
    w.isTracked = true → o.ledger.available t w = true ∨
      o.ledger.limit ≠ none ∧ .problemEvicted t.problem ∈ later

variable {o o' : Orchestrator} {t : TaskId} {w : Worker}

/-- A change of the ledger drops results only of problems that are noted as evicted. -/
theorem Remembers.of_writes {problems : List UInt32} (h : o.Remembers)
    (hwrites : o.Writes o' problems) (hlimit : o'.ledger.limit = o.ledger.limit)
    (hkept : ∀ t w, o.ledger.available t w = true → o'.ledger.available t w = true ∨
      o.ledger.limit ≠ none ∧ t.problem ∈ problems) : o'.Remembers := by
  obtain ⟨notices, hjournal, hreceived, hevicted⟩ := hwrites
  intro later earlier t w hsplit hw
  rw [hjournal] at hsplit
  -- the output is not told of by the new notices, so it was told of before
  obtain ⟨middle, rfl, hold⟩ : ∃ middle, later = notices ++ middle ∧
      o.journal = middle ++ .outputReceived w t :: earlier := by
    rcases List.append_eq_append_iff.mp hsplit with
      ⟨middle, hlater, hold⟩ | ⟨middle, hnotices, hold⟩
    · exact ⟨middle, hlater, hold⟩
    · cases middle with
      | nil =>
          rw [List.append_nil] at hnotices
          exact ⟨[], by rw [hnotices, List.append_nil], hold.symm⟩
      | cons n middle =>
          cases hold
          exact absurd (hnotices ▸ List.mem_append_right _ List.mem_cons_self) (hreceived w t)
  rw [hlimit]
  rcases h middle earlier t w hold hw with havailable | ⟨hlimited, hgone⟩
  · rcases hkept t w havailable with hstill | ⟨hlimited, hdropped⟩
    · exact .inl hstill
    · exact .inr ⟨hlimited, List.mem_append_left _ (hevicted _ hdropped)⟩
  · exact .inr ⟨hlimited, List.mem_append_right _ hgone⟩

theorem limit_ne_none_of_mem_evicted {l : Ledger} {p : UInt32} (h : p ∈ l.evicted t) :
    l.limit ≠ none := by
  intro hlimit
  rw [Ledger.evicted_of_limit_none t hlimit] at h
  cases h

/-- A touch keeps a result or evicts its problem. -/
theorem available_touch_or {l : Ledger} (u : TaskId) (h : l.available t w = true) :
    (l.touch u).available t w = true ∨ l.limit ≠ none ∧ t.problem ∈ l.evicted u := by
  rw [Ledger.available_touch, h]
  by_cases hmem : t.problem ∈ l.evicted u
  · exact .inr ⟨limit_ne_none_of_mem_evicted hmem, hmem⟩
  · exact .inl (by simp [hmem])

theorem Remembers.registerResult (h : o.Remembers) (u : TaskId) (v : Worker) :
    (o.registerResult u v).Remembers := by
  refine h.of_writes (writes_registerResult o u v) ?_ fun t w havailable => ?_
  · rw [ledger_registerResult, Ledger.limit_registerResult]
  · rw [ledger_registerResult, Ledger.available_registerResult, ← Ledger.available_touch]
    rcases available_touch_or u havailable with hkept | hevicted
    · exact .inl (by rw [hkept, Bool.or_true])
    · exact .inr hevicted

/-- An output that is received is remembered itself. -/
theorem Remembers.receive (h : o.Remembers) (ho : o.ledger.Tidy) (u : TaskId) (v : Worker) :
    ((o.registerResult u v).note (.outputReceived v u)).Remembers := by
  intro later earlier t w hsplit hw
  cases later with
  | nil =>
      cases hsplit
      refine .inl ?_
      show (o.registerResult u v).ledger.available u v = true
      rw [ledger_registerResult]
      exact ho.consistent.available_registerResult_self u hw
  | cons n later =>
      have htail : (o.registerResult u v).journal = later ++ .outputReceived w t :: earlier :=
        (List.cons.inj hsplit).2
      rcases h.registerResult u v later earlier t w htail hw with havailable | ⟨hlimited, hgone⟩
      · exact .inl havailable
      · exact .inr ⟨hlimited, List.mem_cons_of_mem _ hgone⟩

theorem Remembers.aside (h : o.Remembers) (haside : o.Aside o') : o'.Remembers :=
  h.of_writes haside.writes (congrArg Ledger.limit haside.ledger)
    fun _ _ havailable => .inl (haside.ledger ▸ havailable)

theorem Remembers.submit (h : o.Remembers) (ho : o.ledger.Tidy) (s : Submission) :
    (o.submit s).2.Remembers := by
  have hsubmits := o.submits s
  generalize o.submit s = submitted at hsubmits ⊢
  obtain ⟨outcome, o'⟩ := submitted
  cases hsubmits with
  | refused haside => exact h.aside haside
  | @rejected u _ _ _ _ hledger hrest =>
      have hwrites : o.Writes o' [] := hrest.writes
      refine h.of_writes hwrites ?_ fun t w havailable => .inl ?_
      · rw [hledger, Ledger.limit_release]
        rfl
      · rw [hledger, (ho.consistent.reserve u).available_release, Ledger.available_reserve]
        exact havailable
  | @accepted u _ _ _ _ _ hledger _ _ _ hwrites =>
      have hwrites' : o.Writes o' _ := hwrites
      refine h.of_writes hwrites' ?_ fun t w havailable => ?_
      · rw [hledger]
        rfl
      · rw [hledger]
        exact available_touch_or u ((Ledger.available_reserve _ u t w).trans havailable)

theorem Move.remembers {rs : List (TaskId × Worker)} (hmove : o.Move rs o') (ho : o.ledger.Tidy)
    (h : o.Remembers) : o'.Remembers := by
  cases hmove with
  | register u v => exact h.registerResult u v
  | receive u v => exact h.receive ho u v
  | submit s => exact h.submit ho s
  | aside haside => exact h.aside haside

theorem Moves.remembers {rs : List (TaskId × Worker)} (hmoves : o.Moves rs o')
    (ho : o.ledger.Tidy) (h : o.Remembers) : o'.Remembers := by
  have hboth : o'.ledger.Tidy ∧ o'.Remembers := hmoves.preserves
    (P := fun o => o.ledger.Tidy ∧ o.Remembers)
    (fun hmove hbefore => ⟨hmove.tidy hbefore.1, hmove.remembers hbefore.1 hbefore.2⟩) ⟨ho, h⟩
  exact hboth.2

end Orchestrator

namespace Session

theorem remembers_run (settings : Settings) (hub : Hub) (commands : List Command) :
    ((new settings hub).run commands).orchestrator.Remembers := by
  refine ((new settings hub).moves_run commands).remembers (Ledger.tidy_new _) ?_
  -- the journal is empty at the beginning
  intro later earlier t w hsplit
  exact absurd hsplit.symm (by simp [new, Orchestrator.new])

/-- **A carbon footprint that is delivered again** publishes nothing and stores no input, whatever
the limit and whatever has happened since it was received, as long as its problem has not been
evicted in the meantime. Without a limit it never is. -/
theorem redelivery_publishes_nothing (settings : Settings) (hub : Hub) (commands : List Command)
    {later earlier : List Notice} {a : Arrival} {t : TaskId} (htask : a.task = some t)
    (hreceived : ((new settings hub).run commands).orchestrator.journal =
      later ++ .outputReceived .carbonFootprint t :: earlier)
    (hkept : settings.retention = none ∨ .problemEvicted t.problem ∉ later) :
    let before := ((new settings hub).run commands).orchestrator
    let after := before.handle (.newOutput a)
    after.hub.published = before.hub.published ∧ after.hub.inputs = before.hub.inputs := by
  intro before after
  have htidy : before.ledger.Tidy := tidy_run settings hub commands
  have havailable : before.ledger.available t .carbonFootprint = true := by
    rcases remembers_run settings hub commands later earlier t .carbonFootprint hreceived rfl with
      havailable | ⟨hlimited, hevicted⟩
    · exact havailable
    · rcases hkept with hnone | hnot
      · exact absurd ((limit_run settings hub commands).trans hnone) hlimited
      · exact absurd hevicted hnot
  rcases Orchestrator.hub_onOutput htidy.consistent a with ⟨u, next, h, -⟩ | ⟨-, hkeeps⟩
  · have hu := htask.symm.trans h.task
    cases hu
    have hfirst := h.first
    rw [havailable] at hfirst
    cases hfirst
  · exact ⟨hkeeps.published, hkeeps.inputs⟩

/-- A carbon footprint of the first task, which asks for two outputs. -/
def footprint : Output :=
  .carbonFootprint { task := some ⟨1, 0⟩, extraData := Extra.encode { numOutputs := some 2 } }

/-- A problem goes through its carbon footprint, and another one is started. -/
def twoProblems : List Command :=
  [.submit { brief := { shortDescription := "count the cells" } },
    .deliver .carbonFootprint footprint, .pump,
    .submit { brief := { shortDescription := "name the cells" } }]

/-- Where the ledger has room for both problems, the footprint changes nothing when it is delivered
again. -/
theorem redelivery_publishes_nothing_within_limit :
    ((new { retention := some 2 } {}).run twoProblems).orchestrator.journal =
      [.taskPublished ⟨2, 0⟩, .chainContinued ⟨1, 0⟩ ⟨1, 1⟩, .taskPublished ⟨1, 1⟩] ++
        .outputReceived .carbonFootprint ⟨1, 0⟩ :: [.loopStarted, .taskPublished ⟨1, 0⟩] ∧
    (((new { retention := some 2 } {}).run twoProblems).orchestrator.handle
      (.newOutput ⟨.carbonFootprint, some ⟨1, 0⟩, footprint⟩)).hub.published =
        ((new { retention := some 2 } {}).run twoProblems).orchestrator.hub.published := by
  have hreceived : ((new { retention := some 2 } {}).run twoProblems).orchestrator.journal =
      [.taskPublished ⟨2, 0⟩, .chainContinued ⟨1, 0⟩ ⟨1, 1⟩, .taskPublished ⟨1, 1⟩] ++
        .outputReceived .carbonFootprint ⟨1, 0⟩ :: [.loopStarted, .taskPublished ⟨1, 0⟩] := by
    decide +kernel
  have hsame := redelivery_publishes_nothing { retention := some 2 } {} twoProblems
    (a := ⟨.carbonFootprint, some ⟨1, 0⟩, footprint⟩) rfl hreceived (.inr (by decide))
  exact ⟨hreceived, hsame.1⟩

/-- With room for one problem only, the second one drives the first out, and a late result brings
it back without its carbon footprint. The footprint publishes another task then. -/
theorem redelivery_after_eviction :
    let s := (new { retention := some 1 } {}).run
      (twoProblems ++ [.deliver .hwProvider (.hwResource { task := some ⟨1, 1⟩ }), .pump])
    let again := s.run [.deliver .carbonFootprint footprint, .pump]
    .outputReceived .carbonFootprint ⟨1, 0⟩ ∈ s.orchestrator.journal ∧
    s.orchestrator.hub.published = [⟨1, 0⟩, ⟨1, 1⟩, ⟨2, 0⟩] ∧
    again.orchestrator.hub.published = [⟨1, 0⟩, ⟨1, 1⟩, ⟨2, 0⟩, ⟨1, 2⟩] := by
  decide +kernel

end Session

end WorkerPipeline
