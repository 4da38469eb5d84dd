import WorkerPipeline.Orchestrator.Event
import WorkerPipeline.Proofs.Orchestrator.Submission

set_option autoImplicit false

/-! # What submissions and events do not look at

To submit a task and to handle an event, the orchestrator looks neither at the statuses of the
workers nor at the transaction numbers, and of the hub neither at the outputs nor at the requests
and the channel. Another content of these parts is carried along (`submit_amid`, `handle_amid`), and
what was written into the journal before stays behind what is written then. Only a report of a
status changes such a part, namely the registry.

So it matters in which order outputs are handled, and in which order the statuses of one worker are,
but not how these orders are interleaved (`unlogged_handleAll`).
-/

namespace WorkerPipeline

/-- The parts of an orchestrator and its hub that submissions do not look at. -/
structure Surroundings where
  registry : Registry
  transactions : Transactions
  outputs : Table (Worker × TaskId) Output
  requests : List ConfigurationRequest
  responder : ConfigurationRequest → ConfigurationResponse
  channel : Channel
deriving Inhabited

/-- An event changes the registry at most. -/
def Surroundings.handle (x : Surroundings) : Event → Surroundings
  | .statusChanged c => { x with registry := x.registry.report c.worker c.status }
  | .newOutput _ => x

def Surroundings.handleAll (x : Surroundings) (events : List Event) : Surroundings :=
  events.foldl handle x

namespace Orchestrator

def surroundings (o : Orchestrator) : Surroundings where
  registry := o.registry
  transactions := o.transactions
  outputs := o.hub.outputs
  requests := o.hub.requests
  responder := o.hub.responder
  channel := o.hub.channel

/-- The orchestrator amid other surroundings, with earlier notices in its journal. -/
def amid (o : Orchestrator) (x : Surroundings) (earlier : List Notice) : Orchestrator :=
  { o with
    registry := x.registry
    transactions := x.transactions
    hub := { o.hub with
      outputs := x.outputs
      requests := x.requests
      responder := x.responder
      channel := x.channel }
    journal := o.journal ++ earlier }

variable (o : Orchestrator) (x : Surroundings) (earlier : List Notice)

theorem surroundings_amid : (o.amid x earlier).surroundings = x := rfl

theorem amid_surroundings : o.amid o.surroundings [] = o := by
  simp [amid, surroundings]

/-! ## Registering -/

theorem note_amid (n : Notice) : (o.amid x earlier).note n = (o.note n).amid x earlier := rfl

theorem noteEvicted_amid (problems : List UInt32) :
    (o.amid x earlier).noteEvicted problems = (o.noteEvicted problems).amid x earlier := by
  simp [noteEvicted, amid, List.append_assoc]

theorem registerTask_amid (t : TaskId) :
    (o.amid x earlier).registerTask t = (o.registerTask t).amid x earlier := by
  show { (o.amid x earlier).noteEvicted (o.ledger.evicted t) with
    ledger := o.ledger.registerTask t } = _
  rw [noteEvicted_amid]
  rfl

theorem registerResult_amid (t : TaskId) (w : Worker) :
    (o.amid x earlier).registerResult t w = (o.registerResult t w).amid x earlier := by
  have hledger : (o.amid x earlier).ledger = o.ledger := rfl
  unfold registerResult
  rw [hledger, noteEvicted_amid]
  dsimp only
  split <;> rfl

/-! ## Submissions -/

theorem noteBase_amid (base candidate : TaskId) :
    (o.amid x earlier).noteBase base candidate = (o.noteBase base candidate).amid x earlier := by
  unfold noteBase
  split <;> rfl

theorem allocate_amid (s : Submission) :
    (o.amid x earlier).allocate s = ((o.allocate s).1, (o.allocate s).2.amid x earlier) := by
  unfold allocate
  cases s.predecessor? with
  | none => rfl
  | some candidate =>
      dsimp only
      unfold Hub.allocateIteration
      simp only [noteBase_amid]
      have hledger : (o.amid x earlier).ledger = o.ledger := rfl
      have hallocated : (o.amid x earlier).hub.allocated = o.hub.allocated := rfl
      rw [hledger]
      cases (o.ledger.base candidate).next? with
      | none => rfl
      | some t =>
          dsimp only
          rw [hallocated]
          cases o.hub.allocated.contains t <;> rfl

theorem publish_amid (t : TaskId) (u : UserInput) :
    (o.amid x earlier).publish t u = ((o.publish t u).1, (o.publish t u).2.amid x earlier) := by
  have hrejecting : (o.amid x earlier).hub.rejecting = o.hub.rejecting := rfl
  cases h : o.hub.rejecting with
  | true =>
      rw [publish_of_rejecting t u (hrejecting.trans h), publish_of_rejecting t u h]
      rfl
  | false =>
      rw [publish_eq_of_accepting t u (hrejecting.trans h), publish_eq_of_accepting t u h]
      refine Prod.ext rfl ?_
      show (registerTask (amid { o with ledger := o.ledger.reserve t, hub := o.hub.withInput t u }
        x earlier) t).note (.taskPublished t) = _
      rw [registerTask_amid, note_amid]

/-- **A submission** comes to the same amid other surroundings. -/
theorem submit_amid (s : Submission) :
    (o.amid x earlier).submit s = ((o.submit s).1, (o.submit s).2.amid x earlier) := by
  unfold submit
  cases s.fault? with
  | some fault => rfl
  | none =>
      dsimp only
      rw [allocate_amid]
      generalize o.allocate s = allocated
      obtain ⟨outcome, o⟩ := allocated
      cases outcome with
      | error fault => rfl
      | ok p =>
          dsimp only
          have hfill : (o.amid x earlier).fill s p.2 p.1 = o.fill s p.2 p.1 := rfl
          rw [hfill, publish_amid]
          generalize o.publish p.1 (o.fill s p.2 p.1) = published
          obtain ⟨outcome, o⟩ := published
          cases outcome <;> rfl

/-! ## Events -/

theorem nextSubmission?_amid (t : TaskId) (output : Output) :
    (o.amid x earlier).nextSubmission? t output = o.nextSubmission? t output := rfl

theorem continueChain_amid (t : TaskId) (output : Output) :
    (o.amid x earlier).continueChain t output = (o.continueChain t output).amid x earlier := by
  unfold continueChain
  rw [nextSubmission?_amid]
  cases o.nextSubmission? t output with
  | error e => rfl
  | ok s? =>
      cases s? with
      | none => rfl
      | some s =>
          dsimp only
          rw [submit_amid]
          generalize o.submit s = submitted
          obtain ⟨outcome, o⟩ := submitted
          cases outcome <;> rfl

theorem onOutput_amid (a : Arrival) :
    (o.amid x earlier).onOutput a = (o.onOutput a).amid x earlier := by
  unfold onOutput
  cases a.task with
  | none => rfl
  | some t =>
      dsimp only
      have hcloses : (o.amid x earlier).closesIteration a.worker t =
          o.closesIteration a.worker t := rfl
      rw [hcloses, registerResult_amid, note_amid]
      cases o.closesIteration a.worker t with
      | false => rfl
      | true => exact continueChain_amid _ x earlier t a.output

/-- **An event** is handled the same way amid other surroundings. -/
theorem handle_amid (e : Event) :
    (o.amid x earlier).handle e = (o.handle e).amid (x.handle e) earlier := by
  cases e with
  | statusChanged c => rfl
  | newOutput a => exact o.onOutput_amid x earlier a

theorem handleAll_amid (events : List Event) :
    (o.amid x earlier).handleAll events =
      (o.handleAll events).amid (x.handleAll events) earlier := by
  induction events generalizing o x with
  | nil => rfl
  | cons e events ih =>
      show ((o.amid x earlier).handle e).handleAll events = _
      rw [handle_amid, ih]
      rfl

/-! ## What becomes of the surroundings -/

theorem surroundings_submit (s : Submission) :
    (o.submit s).2.surroundings = o.surroundings := by
  have h := congrArg Prod.snd (o.submit_amid o.surroundings [] s)
  rw [amid_surroundings] at h
  rw [h, surroundings_amid]

theorem surroundings_handle (e : Event) :
    (o.handle e).surroundings = o.surroundings.handle e := by
  have h := o.handle_amid o.surroundings [] e
  rw [amid_surroundings] at h
  rw [h, surroundings_amid]

theorem surroundings_handleAll (events : List Event) :
    (o.handleAll events).surroundings = o.surroundings.handleAll events := by
  have h := o.handleAll_amid o.surroundings [] events
  rw [amid_surroundings] at h
  rw [h, surroundings_amid]

end Orchestrator

/-! ## Events in another order -/

/-- Where an event comes from: every worker is a source of statuses, and all outputs come from one
source. -/
def Event.source : Event → Option Worker
  | .newOutput _ => none
  | .statusChanged c => some c.worker

namespace Surroundings

variable {x y : Surroundings}

theorem handleAll_eq (x : Surroundings) (events : List Event) :
    x.handleAll events = { x with registry := (x.handleAll events).registry } := by
  induction events generalizing x with
  | nil => rfl
  | cons e events ih =>
      have hrest := ih (x.handle e)
      cases e <;> exact hrest

/-- The status of a worker depends on its own reports only. -/
theorem get?_statuses_handleAll {w : Worker} (events : List Event)
    (h : x.registry.statuses.get? w = y.registry.statuses.get? w) :
    (x.handleAll events).registry.statuses.get? w =
      (y.handleAll (events.filter (·.source = some w))).registry.statuses.get? w := by
  induction events generalizing x y with
  | nil => exact h
  | cons e events ih =>
      cases e with
      | newOutput a => exact ih h
      | statusChanged c =>
          by_cases hw : c.worker = w
          · have hkept : (Event.statusChanged c).source = some w := congrArg some hw
            rw [List.filter_cons_of_pos (by simpa using hkept)]
            refine ih ?_
            show (x.registry.statuses.insert c.worker c.status).get? w =
              (y.registry.statuses.insert c.worker c.status).get? w
            rw [hw, Table.get?_insert_self, Table.get?_insert_self]
          · have hdropped : (Event.statusChanged c).source ≠ some w := fun h => hw (Option.some.inj h)
            rw [List.filter_cons_of_neg (by simpa using hdropped)]
            refine ih ?_
            show (x.registry.statuses.insert c.worker c.status).get? w = _
            rw [Table.get?_insert_of_ne hw, h]

end Surroundings

namespace Orchestrator

variable {o p : Orchestrator}

/-- The orchestrator without its journal. -/
def unlogged (o : Orchestrator) : Orchestrator := { o with journal := [] }

/-- The orchestrator without its surroundings and its journal. -/
def core (o : Orchestrator) : Orchestrator := { o.amid default [] with journal := [] }

theorem amid_core (o : Orchestrator) : o.core.amid o.surroundings o.journal = o := rfl

theorem core_amid (o : Orchestrator) (x : Surroundings) (earlier : List Notice) :
    (o.amid x earlier).core = o.core := rfl

theorem unlogged_eq_iff :
    o.unlogged = p.unlogged ↔ o.core = p.core ∧ o.surroundings = p.surroundings := by
  have hparts (o : Orchestrator) : o.unlogged = o.core.amid o.surroundings [] := rfl
  constructor
  · intro h
    have hcore : o.unlogged.core = p.unlogged.core := congrArg core h
    have hsurroundings : o.unlogged.surroundings = p.unlogged.surroundings :=
      congrArg surroundings h
    exact ⟨hcore, hsurroundings⟩
  · rintro ⟨hcore, hsurroundings⟩
    rw [hparts, hparts p, hcore, hsurroundings]

theorem core_handle_congr (h : o.core = p.core) (e : Event) :
    (o.handle e).core = (p.handle e).core := by
  rw [← o.amid_core, ← p.amid_core, h, handle_amid, handle_amid, core_amid, core_amid]

/-- Statuses have to do with the surroundings only. -/
theorem core_handleAll (h : o.core = p.core) (events : List Event) :
    (o.handleAll events).core = (p.handleAll (events.filter (·.source = none))).core := by
  induction events generalizing o p with
  | nil => exact h
  | cons e events ih =>
      cases e with
      | newOutput a => exact ih (core_handle_congr h (.newOutput a))
      | statusChanged c => exact ih (o := o.handle (.statusChanged c)) h

/-- **Events may be handled in another order** if what comes from one source keeps its order. -/
theorem unlogged_handleAll {a b : List Event} (ho : o.unlogged = p.unlogged)
    (h : ∀ v, a.filter (·.source = v) = b.filter (·.source = v)) :
    (o.handleAll a).unlogged = (p.handleAll b).unlogged := by
  obtain ⟨hcore, hsurroundings⟩ := unlogged_eq_iff.mp ho
  refine unlogged_eq_iff.mpr ⟨?_, ?_⟩
  · rw [core_handleAll hcore a, core_handleAll rfl b, h none]
  · have hregistry : (p.surroundings.handleAll a).registry =
        (p.surroundings.handleAll b).registry := by
      refine congrArg Registry.mk (Table.ext fun w => ?_)
      rw [Surroundings.get?_statuses_handleAll a rfl, Surroundings.get?_statuses_handleAll b rfl,
        h (some w)]
    rw [surroundings_handleAll, surroundings_handleAll, hsurroundings, Surroundings.handleAll_eq _ a,
      Surroundings.handleAll_eq _ b, hregistry]

end Orchestrator

end WorkerPipeline
