import WorkerPipeline.Orchestrator.Event
import WorkerPipeline.Proofs.Ledger.Reservation
import WorkerPipeline.Proofs.Orchestrator.Submission

set_option autoImplicit false

/-! # When an output publishes a task

Handling an output publishes one task or none. `Hub.Continues` says what the hub has to offer for a
continuation, `Prolongs` when an arrival makes use of it, and `hub_onOutput` that nothing else is
published. The base of the continuation is the frontier of the ledger: the newest iteration that is
known of the task's problem, or the task itself if it is beyond that.
-/

namespace WorkerPipeline

/-! ## The frontier -/

namespace Ledger

/-- The newest iteration of a task's problem, the task included. -/
def frontier (l : Ledger) (t : TaskId) : TaskId :=
  match l.latest.get? t.problem with
  | none => t
  | some u => ⟨t.problem, max t.iteration u.iteration⟩

/-- Where the chain goes on after a result of a task was registered. -/
theorem Consistent.base_registerResult {l : Ledger} (hl : l.Consistent) (t : TaskId) (w : Worker) :
    (l.registerResult t w).base t = l.frontier t := by
  unfold base frontier
  rw [latest_registerResult, latest_touch_self]
  cases hlatest : l.latest.get? t.problem with
  | none => exact if_neg (UInt32.lt_irrefl _)
  | some u =>
      have hproblem : u.problem = t.problem := hl.latest_problem hlatest
      obtain ⟨p, i⟩ := t
      obtain ⟨q, j⟩ := u
      obtain rfl : q = p := hproblem
      simp only [later_some, TaskId.lt_iff, true_and]
      rcases UInt32.lt_or_le i j with hlt | hle
      · have hmax : max i j = j := if_pos (UInt32.le_of_lt hlt)
        rw [if_neg (UInt32.not_lt.mpr (UInt32.le_of_lt hlt)), if_pos hlt, hmax]
      · have hmax : max i j = i := by
          rcases UInt32.le_iff_lt_or_eq.mp hle with hlt | rfl
          · exact if_neg (UInt32.not_le.mpr hlt)
          · exact ite_self _
        split
        · rw [if_neg (UInt32.lt_irrefl _), hmax]
        · rw [if_neg (UInt32.not_lt.mpr hle), hmax]

end Ledger

/-! ## Continuations -/

/-- An output of a task asks for more, and the hub has what it takes to let another task follow a
base: the input of the task, an id that is free, and no objection to it. -/
structure Hub.Continues (h : Hub) (t base : TaskId) (output : Output) (next : TaskId) : Prop where
  more : ∃ e n, output.extra = .ok e ∧ e.numOutputs = some n ∧ 1 < n
  input : ∃ u, h.inputs.get? t = some u ∧ (∃ e, Extra.decode u.extraData = .ok e) ∧
    Text.isBlankText u.brief.shortDescription = false
  follows : base.next? = some next
  free : h.allocated.contains next = false
  accepting : h.rejecting = false

namespace Submission

theorem fault?_continuing (s : Submission) (t : TaskId) (remaining : UInt32)
    (excluded : List String) :
    (s.continuing t remaining excluded).fault? = none ↔
      Text.isBlankText s.brief.shortDescription = false := by
  unfold fault?
  cases h : Text.isBlankText s.brief.shortDescription with
  | true => simp [continuing, h]
  | false => simp [continuing, h]

theorem ofUserInput_eq_ok_iff {u : UserInput} {s : Submission} :
    ofUserInput u = .ok s ↔ ∃ e, Extra.decode u.extraData = .ok e ∧
      s = { brief := u.brief
            previousIteration := e.previousProblem.map fun _ => u.previousIteration
            extra := e } := by
  unfold ofUserInput
  cases Extra.decode u.extraData with
  | error e => exact ⟨nofun, fun ⟨_, h, _⟩ => nomatch h⟩
  | ok e =>
      constructor
      · intro h
        cases h
        exact ⟨e, rfl, rfl⟩
      · rintro ⟨e', he, rfl⟩
        cases he
        rfl

theorem followUp?_eq_some_iff {t : TaskId} {carbon : Extra} {u : UserInput} {s : Submission} :
    followUp? t carbon u = .ok (some s) ↔ ∃ n s₀, carbon.numOutputs = some n ∧ 1 < n ∧
      ofUserInput u = .ok s₀ ∧ s = s₀.continuing t (n - 1) carbon.modelRestrains := by
  unfold followUp? Extra.remainingOutputs?
  cases carbon.numOutputs with
  | none => exact ⟨nofun, fun ⟨_, _, h, _⟩ => nomatch h⟩
  | some n =>
      by_cases hn : 1 < n
      · simp only [if_pos hn]
        cases ofUserInput u with
        | error e => exact ⟨nofun, fun ⟨_, _, _, _, h, _⟩ => nomatch h⟩
        | ok s₀ =>
            constructor
            · intro h
              cases h
              exact ⟨n, s₀, rfl, hn, rfl, rfl⟩
            · rintro ⟨_, _, hsome, -, hok, rfl⟩
              cases hsome
              cases hok
              rfl
      · simp only [if_neg hn]
        constructor
        · intro h
          cases h
        · rintro ⟨_, _, hsome, hlt, -⟩
          cases hsome
          exact absurd hlt hn

end Submission

namespace Orchestrator

variable {o : Orchestrator} {t : TaskId} {output : Output}

theorem mapError_eq_ok_iff {ε ε' α : Type} {f : ε → ε'} {x : Except ε α} {a : α} :
    x.mapError f = .ok a ↔ x = .ok a := by
  cases x <;> simp [Except.mapError]

/-- What follows a task is built from its input and from the extra data of the output. -/
theorem nextSubmission?_eq_some_iff {s : Submission} :
    o.nextSubmission? t output = .ok (some s) ↔
      ∃ e n u s₀, output.extra = .ok e ∧ e.numOutputs = some n ∧ 1 < n ∧
        o.hub.inputs.get? t = some u ∧ Submission.ofUserInput u = .ok s₀ ∧
        s = s₀.continuing t (n - 1) e.modelRestrains := by
  have hfetch : o.hub.fetch .orchestrator t = (o.hub.inputs.get? t).map .userInput := rfl
  unfold nextSubmission?
  rw [hfetch]
  cases output.extra with
  | error e =>
      constructor
      · intro h
        cases h
      · rintro ⟨_, _, _, _, hok, -⟩
        cases hok
  | ok e =>
      dsimp only
      cases hmore : e.requestsMore with
      | false =>
          -- nothing is asked for, so there is no number above one either
          constructor
          · intro h
            cases h
          · rintro ⟨_, n, _, _, hok, hn, hlt, -⟩
            cases hok
            rw [Extra.requestsMore, hn, decide_eq_false_iff_not] at hmore
            exact absurd hlt hmore
      | true =>
          rw [if_pos rfl]
          cases o.hub.inputs.get? t with
          | none =>
              constructor
              · intro h
                cases h
              · rintro ⟨_, _, _, _, -, -, -, hu, -⟩
                cases hu
          | some u =>
              rw [Option.map_some]
              dsimp only
              rw [mapError_eq_ok_iff, Submission.followUp?_eq_some_iff]
              constructor
              · rintro ⟨n, s₀, hn, hlt, hs₀, rfl⟩
                exact ⟨e, n, u, s₀, rfl, hn, hlt, rfl, hs₀, rfl⟩
              · rintro ⟨_, n, _, s₀, hok, hn, hlt, hu, hs₀, rfl⟩
                cases hok
                cases hu
                exact ⟨n, s₀, hn, hlt, hs₀, rfl⟩

/-- What the hub has to offer is what the submission that follows needs in order to be accepted. -/
theorem continues_iff {s : Submission} {next : TaskId}
    (hs : o.nextSubmission? t output = .ok (some s)) :
    o.hub.Continues t (o.ledger.base t) output next ↔
      s.fault? = none ∧ (∃ hub, o.Allocates s next hub) ∧ o.hub.rejecting = false := by
  obtain ⟨e, n, u, s₀, he, hn, hlt, hu, hs₀, rfl⟩ := nextSubmission?_eq_some_iff.mp hs
  have hp := s₀.predecessor?_continuing t (n - 1) e.modelRestrains
  obtain ⟨d, hd, rfl⟩ := Submission.ofUserInput_eq_ok_iff.mp hs₀
  rw [Submission.fault?_continuing]
  constructor
  · rintro ⟨-, ⟨v, hv, -, hblank⟩, hfollows, hfree, haccepting⟩
    rw [hu] at hv
    cases hv
    exact ⟨hblank, ⟨_, .next hp hfollows hfree⟩, haccepting⟩
  · rintro ⟨hblank, ⟨hub, halloc⟩, haccepting⟩
    obtain ⟨hfollows, hfree⟩ := halloc.of_predecessor hp
    exact ⟨⟨e, n, he, hn, hlt⟩, ⟨u, hu, ⟨d, hd⟩, hblank⟩, hfollows, hfree, haccepting⟩

theorem exists_nextSubmission? {base next : TaskId} (h : o.hub.Continues t base output next) :
    ∃ s, o.nextSubmission? t output = .ok (some s) := by
  obtain ⟨e, n, he, hn, hlt⟩ := h.more
  obtain ⟨u, hu, ⟨d, hd⟩, -⟩ := h.input
  exact ⟨_, nextSubmission?_eq_some_iff.mpr ⟨e, n, u, _, he, hn, hlt, hu,
    Submission.ofUserInput_eq_ok_iff.mpr ⟨d, hd, rfl⟩, rfl⟩⟩

theorem hub_continueChain_of_submission {s : Submission}
    (hs : o.nextSubmission? t output = .ok (some s)) :
    (o.continueChain t output).hub = (o.submit s).2.hub := by
  unfold continueChain
  rw [hs]
  dsimp only
  split <;> rename_i heq <;> rw [heq] <;> rfl

theorem hub_continueChain_of_none (hnone : ∀ s, o.nextSubmission? t output ≠ .ok (some s)) :
    (o.continueChain t output).hub = o.hub := by
  unfold continueChain
  split
  · rfl
  · rfl
  · rename_i s hs
    exact absurd hs (hnone s)

/-- The chain goes on with one task, or nothing is published. -/
theorem hub_continueChain (o : Orchestrator) (t : TaskId) (output : Output) :
    (∃ next, o.hub.Continues t (o.ledger.base t) output next ∧
      o.hub.Appends (o.continueChain t output).hub next) ∨
    ((∀ next, ¬ o.hub.Continues t (o.ledger.base t) output next) ∧
      o.hub.Keeps (o.continueChain t output).hub) := by
  by_cases hsome : ∃ s, o.nextSubmission? t output = .ok (some s)
  · obtain ⟨s, hs⟩ := hsome
    rw [hub_continueChain_of_submission hs]
    have hsubmits := o.submits s
    generalize o.submit s = submitted at hsubmits ⊢
    obtain ⟨outcome, o'⟩ := submitted
    cases hsubmits with
    | refused _ hhub hnone =>
        refine .inr ⟨fun next h => ?_, .of_eq hhub⟩
        obtain ⟨hvalid, ⟨hub, halloc⟩, -⟩ := (continues_iff hs).mp h
        exact hnone hvalid next hub halloc
    | rejected _ halloc hrejecting =>
        refine .inr ⟨fun next h => ?_, halloc.keeps⟩
        have haccepting := h.accepting
        rw [hrejecting] at haccepting
        cases haccepting
    | @accepted next hub _ hvalid halloc haccepting _ hhub =>
        have happends : o.hub.Appends o'.hub next := by
          rw [hhub]
          exact halloc.keeps.appends_withInput next _
        exact .inl ⟨next, (continues_iff hs).mpr ⟨hvalid, ⟨hub, halloc⟩, haccepting⟩, happends⟩
  · have hhub : (o.continueChain t output).hub = o.hub :=
      hub_continueChain_of_none fun s hs => hsome ⟨s, hs⟩
    exact .inr ⟨fun next h => hsome (exists_nextSubmission? h), .of_eq hhub⟩

/-! ## Arrivals -/

/-- An arrival has its task `t` continued by `next`. -/
structure Prolongs (o : Orchestrator) (a : Arrival) (t next : TaskId) : Prop where
  task : a.task = some t
  worker : a.worker = .carbonFootprint
  first : o.ledger.available t .carbonFootprint = false
  continues : o.hub.Continues t (o.ledger.frontier t) a.output next

theorem Prolongs.unique {a : Arrival} {t t' next next' : TaskId} (h : o.Prolongs a t next)
    (h' : o.Prolongs a t' next') : next = next' := by
  have ht := h.task.symm.trans h'.task
  cases ht
  exact Option.some.inj (h.continues.follows.symm.trans h'.continues.follows)

theorem closesIteration_iff (hl : o.ledger.Consistent) (w : Worker) (t : TaskId) :
    o.closesIteration w t = true ↔
      w = .carbonFootprint ∧ o.ledger.available t .carbonFootprint = false := by
  unfold closesIteration
  rw [Bool.and_eq_true, decide_eq_true_eq, hl.isNew_iff]
  constructor
  · rintro ⟨rfl, -, hnew⟩
    exact ⟨rfl, hnew⟩
  · rintro ⟨rfl, hnew⟩
    exact ⟨rfl, rfl, hnew⟩

/-- **Handling an output** publishes the task that the arrival prolongs its own by, or nothing. -/
theorem hub_onOutput (hl : o.ledger.Consistent) (a : Arrival) :
    (∃ t next, o.Prolongs a t next ∧ o.hub.Appends (o.onOutput a).hub next) ∨
    ((∀ t next, ¬ o.Prolongs a t next) ∧ o.hub.Keeps (o.onOutput a).hub) := by
  unfold onOutput
  cases htask : a.task with
  | none =>
      refine .inr ⟨fun t next h => ?_, .of_eq rfl⟩
      have ht := htask.symm.trans h.task
      cases ht
  | some t =>
      dsimp only
      -- the chain goes on from the hub as it was and from the frontier of the ledger as it was
      have hhub : ((o.registerResult t a.worker).note (.outputReceived a.worker t)).hub = o.hub :=
        hub_registerResult t a.worker
      have hbase : ((o.registerResult t a.worker).note (.outputReceived a.worker t)).ledger.base t =
          o.ledger.frontier t := by
        show (o.registerResult t a.worker).ledger.base t = _
        rw [ledger_registerResult, hl.base_registerResult]
      generalize (o.registerResult t a.worker).note (.outputReceived a.worker t) = registered
        at hhub hbase
      by_cases hcloses : o.closesIteration a.worker t = true
      · obtain ⟨hworker, hfirst⟩ := (closesIteration_iff hl a.worker t).mp hcloses
        rw [if_pos hcloses]
        have hcontinue := registered.hub_continueChain t a.output
        rw [hhub, hbase] at hcontinue
        rcases hcontinue with ⟨next, h, happends⟩ | ⟨hnone, hkeeps⟩
        · exact .inl ⟨t, next, ⟨htask, hworker, hfirst, h⟩, happends⟩
        · refine .inr ⟨fun t' next h => ?_, hkeeps⟩
          have ht := htask.symm.trans h.task
          cases ht
          exact hnone next h.continues
      · rw [if_neg hcloses]
        refine .inr ⟨fun t' next h => ?_, .of_eq hhub⟩
        have ht := htask.symm.trans h.task
        cases ht
        exact hcloses ((closesIteration_iff hl a.worker t).mpr ⟨h.worker, h.first⟩)

end Orchestrator

end WorkerPipeline
