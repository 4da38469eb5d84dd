import WorkerPipeline.Proofs.Orchestrator.Surroundings
import WorkerPipeline.Proofs.Session.History

set_option autoImplicit false

/-! # Requests and their answers

Requests are numbered in the order in which they are made, whatever else goes on between them and
whether they succeed or not, and a request is answered under its number (`request_correlation`).
What has to do with requests, the correspondence of a session, is changed and looked at by requests
only: every other command does the same beside another correspondence (`apply_beside`). So a run can
be compared with the run without its requests, and the numbers and the requests of a run follow from
what a single request does (`correlates`).
-/

namespace WorkerPipeline

/-! ## What has to do with requests only -/

/-- The parts of a session that only requests change or look at, and what its journal holds. -/
structure Correspondence where
  transactions : Transactions
  requests : List ConfigurationRequest
  responder : ConfigurationRequest → ConfigurationResponse
  journal : List Notice

namespace Hub

variable (h : Hub) (x : Correspondence)

def beside : Hub := { h with requests := x.requests, responder := x.responder }

theorem store_beside (w : Worker) (output : Output) :
    (h.beside x).store w output = (h.store w output).beside x := by
  unfold store
  cases output.task <;> rfl

theorem announce_beside (e : Event) :
    (h.beside x).announce e = (h.announce e).map (·.beside x) := by
  have hclosed : (h.beside x).channel.closed = h.channel.closed := rfl
  unfold announce
  rw [hclosed]
  cases h.channel.closed <;> rfl

theorem deliver_beside (w : Worker) (output : Output) :
    (h.beside x).deliver w output = ((h.deliver w output).1, (h.deliver w output).2.beside x) := by
  unfold deliver
  rw [store_beside, announce_beside]
  cases (h.store w output).announce (arrival w output) <;> rfl

theorem allocateIteration_beside (base : TaskId) :
    (h.beside x).allocateIteration base =
      (h.allocateIteration base).map fun r => (r.1, r.2.1, r.2.2.beside x) := by
  have hallocated : (h.beside x).allocated = h.allocated := rfl
  unfold allocateIteration
  cases base.next? with
  | none => rfl
  | some t =>
      dsimp only
      rw [hallocated]
      cases h.allocated.contains t <;> rfl

theorem publish_beside (t : TaskId) (u : UserInput) :
    (h.beside x).publish t u = (h.publish t u).map (·.beside x) := by
  have hrejecting : (h.beside x).rejecting = h.rejecting := rfl
  unfold publish
  rw [hrejecting]
  cases h.rejecting <;> rfl

end Hub

namespace Orchestrator

variable (o : Orchestrator) (x : Correspondence)

def correspondence : Correspondence where
  transactions := o.transactions
  requests := o.hub.requests
  responder := o.hub.responder
  journal := o.journal

/-- The orchestrator with another correspondence, and with the notices of that one behind its
own. -/
def beside : Orchestrator :=
  { o with
    transactions := x.transactions
    hub := o.hub.beside x
    journal := o.journal ++ x.journal }

theorem beside_eq_amid : o.beside x = o.amid { o.surroundings with
    transactions := x.transactions
    requests := x.requests
    responder := x.responder } x.journal := rfl

theorem registerResult_beside (t : TaskId) (w : Worker) :
    (o.beside x).registerResult t w = (o.registerResult t w).beside x := by
  have hsurroundings : (o.registerResult t w).surroundings = o.surroundings := by
    unfold registerResult
    dsimp only
    split <;> rfl
  rw [beside_eq_amid, beside_eq_amid, registerResult_amid, hsurroundings]

theorem submit_beside (s : Submission) :
    (o.beside x).submit s = ((o.submit s).1, (o.submit s).2.beside x) := by
  rw [beside_eq_amid, beside_eq_amid, submit_amid, surroundings_submit]

theorem handle_beside (e : Event) : (o.beside x).handle e = (o.handle e).beside x := by
  rw [beside_eq_amid, beside_eq_amid, handle_amid, surroundings_handle]
  cases e <;> rfl

theorem handleAll_beside (events : List Event) :
    (o.beside x).handleAll events = (o.handleAll events).beside x := by
  induction events generalizing o with
  | nil => rfl
  | cons e events ih =>
      show ((o.beside x).handle e).handleAll events = _
      rw [handle_beside, ih]
      rfl

theorem drain_beside : (o.beside x).drain = o.drain.beside x :=
  handleAll_beside { o with hub := { o.hub with channel := { o.hub.channel with events := [] } } }
    x o.hub.channel.events

end Orchestrator

namespace Session

open Orchestrator

variable (s : Session) (x : Correspondence)

def beside : Session := s.withOrchestrator (s.orchestrator.beside x)

/-! ### Waiting -/

theorem pollWaiter_beside (w : Waiter) :
    (s.beside x).pollWaiter w = ((s.pollWaiter w).1, (s.pollWaiter w).2.beside x) := by
  have hnews : (s.beside x).hasNews w = s.hasNews w := rfl
  have havailable : (s.beside x).orchestrator.ledger.available w.task w.worker =
      s.orchestrator.ledger.available w.task w.worker := rfl
  unfold pollWaiter
  rw [hnews, havailable]
  cases s.hasNews w with
  | false => rfl
  | true => cases s.orchestrator.ledger.available w.task w.worker <;> rfl

theorem advanceWaiter_beside (name : String) (w : Waiter) :
    (s.beside x).advanceWaiter name w =
      ((s.advanceWaiter name w).1, (s.advanceWaiter name w).2.beside x) := by
  unfold advanceWaiter
  rw [pollWaiter_beside]
  generalize s.pollWaiter w = polled
  obtain ⟨state, s⟩ := polled
  cases state <;> rfl

theorem spawn_beside (name : String) (worker : Worker) :
    (s.beside x).spawn name worker =
      ((s.spawn name worker).1, (s.spawn name worker).2.beside x) := by
  let cleared : Session := { s with waiters := s.waiters.erase name }
  have hlatest :
      ({ s.beside x with waiters := (s.beside x).waiters.erase name } : Session).latestTask worker =
        cleared.latestTask worker := rfl
  unfold spawn
  dsimp only
  rw [hlatest]
  cases cleared.latestTask worker with
  | error e => rfl
  | ok t => exact cleared.advanceWaiter_beside x name (cleared.newWaiter worker t)

theorem poll_beside (name : String) :
    (s.beside x).poll name = ((s.poll name).1, (s.poll name).2.beside x) := by
  have hwaiters : (s.beside x).waiters = s.waiters := rfl
  unfold poll
  rw [hwaiters]
  cases s.waiters.get? name with
  | none => rfl
  | some w =>
      dsimp only
      rw [advanceWaiter_beside]
      rfl

theorem wait_beside (worker : Worker) (t : TaskId) :
    (s.beside x).wait worker t = ((s.wait worker t).1, (s.wait worker t).2.beside x) := by
  have hwaiter : (s.beside x).newWaiter worker t = s.newWaiter worker t := rfl
  unfold wait
  rw [hwaiter, pollWaiter_beside]
  generalize s.pollWaiter (s.newWaiter worker t) = polled
  obtain ⟨state, s⟩ := polled
  cases state with
  | arrived => rfl
  | timedOut => rfl
  | pending w =>
      have hdeadline : (s.beside x).deadline? w = s.deadline? w := rfl
      dsimp only
      rw [hdeadline]
      cases s.deadline? w <;> rfl

theorem result_beside (t? : Option TaskId) (worker : Worker) :
    (s.beside x).result t? worker = ((s.result t? worker).1, (s.result t? worker).2.beside x) := by
  cases t? with
  | some t => rfl
  | none =>
      have hlatest : (s.beside x).latestTask worker = s.latestTask worker := rfl
      unfold result
      dsimp only
      rw [hlatest]
      cases s.latestTask worker with
      | error e => rfl
      | ok t =>
          dsimp only
          rw [wait_beside]
          generalize s.wait worker t = waited
          obtain ⟨answer, s⟩ := waited
          cases answer with
          | none => rfl
          | some r => cases r <;> rfl

/-! ### The event loop and the hub -/

theorem start_beside : (s.beside x).start = s.start.beside x := by
  have hloop : (s.beside x).loop = s.loop := rfl
  unfold start
  rw [hloop]
  cases s.loop <;> rfl

theorem pump_beside : (s.beside x).pump = s.pump.beside x := by
  have hloop : (s.beside x).loop = s.loop := rfl
  unfold pump
  rw [hloop, start_beside]
  have hdrain := drain_beside s.start.orchestrator x
  cases s.loop with
  | finished => rfl
  | _ => exact congrArg (s.start.beside x).withOrchestrator hdrain

theorem stop_beside : (s.beside x).stop = s.stop.beside x := by
  have hloop : (s.beside x).loop = s.loop := rfl
  unfold stop
  rw [hloop, pump_beside]
  cases s.loop <;> rfl

theorem runEvents_beside (events : List Event) :
    (s.beside x).runEvents events = (s.runEvents events).beside x := by
  have hhandle := handleAll_beside (s.orchestrator.note .loopStarted) x events
  exact congrArg (fun o => (s.withOrchestrator o).note (.loopStopped .eventsClosed)) hhandle

theorem submit_beside (input : Submission) :
    (s.beside x).submit input = ((s.submit input).1, (s.submit input).2.beside x) := by
  have hsubmit : (s.beside x).orchestrator.submit input =
      ((s.orchestrator.submit input).1, (s.orchestrator.submit input).2.beside x) :=
    s.orchestrator.submit_beside x input
  unfold submit
  rw [hsubmit]
  rfl

theorem deliver_beside (w : Worker) (output : Output) :
    (s.beside x).deliver w output = ((s.deliver w output).1, (s.deliver w output).2.beside x) := by
  have hhub : (s.beside x).orchestrator.hub.deliver w output =
      ((s.orchestrator.hub.deliver w output).1, (s.orchestrator.hub.deliver w output).2.beside x) :=
    s.orchestrator.hub.deliver_beside x w output
  unfold deliver
  rw [hhub]
  rfl

theorem reportStatus_beside (w : Worker) (status : WorkerStatus) :
    (s.beside x).reportStatus w status =
      ((s.reportStatus w status).1, (s.reportStatus w status).2.beside x) := by
  have hhub : (s.beside x).orchestrator.hub.reportStatus w status =
      (s.orchestrator.hub.reportStatus w status).map (·.beside x) :=
    s.orchestrator.hub.announce_beside x (.statusChanged ⟨w, status⟩)
  unfold reportStatus
  rw [hhub]
  cases s.orchestrator.hub.reportStatus w status <;> rfl

end Session

/-! ## Commands that ask nothing -/

namespace Command

/-- The text that a command asks a worker about, if it is a request. -/
def asked? : Command → Option String
  | .request text | .configRequest text => some text
  | _ => none

/-- How a request hands on what has come back: the response, or only its configuration. -/
def relay (c : Command) (outcome : Except Error ConfigurationResponse) : Reply :=
  match c with
  | .configRequest _ =>
    .ofExcept (fun r => .json (Orchestrator.replyJson r.configuration)) outcome
  | _ => .ofExcept .response outcome

theorem relay_error (c : Command) (e : Error) : c.relay (.error e) = .failed e := by
  cases c <;> rfl

theorem relay_ok_ne_failed (c : Command) (r : ConfigurationResponse) (e : Error) :
    c.relay (.ok r) ≠ .failed e := by
  cases c <;> nofun

end Command

namespace Session

variable (s : Session) (x : Correspondence)

/-- **A command that is no request** does the same beside another correspondence, and is answered the
same way unless it lists the requests. -/
theorem apply_beside {c : Command} (h : c.asked? = none) (hlist : c ≠ .requests) :
    (s.beside x).apply c = ((s.apply c).1, (s.apply c).2.beside x) := by
  cases c with
  | request | configRequest => cases h
  | requests => exact absurd rfl hlist
  | submit input =>
      unfold apply
      dsimp only
      rw [submit_beside]
  | deliver w output =>
      unfold apply
      dsimp only
      rw [deliver_beside]
  | deliverStatus w status =>
      unfold apply
      dsimp only
      rw [reportStatus_beside]
  | pump => exact Prod.ext rfl (s.pump_beside x)
  | stop => exact Prod.ext rfl (s.stop_beside x)
  | runEvents events => exact Prod.ext rfl (s.runEvents_beside x events)
  | handle e => exact Prod.ext rfl (congrArg s.withOrchestrator (s.orchestrator.handle_beside x e))
  | register t w =>
      exact Prod.ext rfl (congrArg s.withOrchestrator (s.orchestrator.registerResult_beside x t w))
  | result t? w =>
      unfold apply
      dsimp only
      rw [result_beside]
  | wait t w =>
      unfold apply
      dsimp only
      rw [wait_beside]
  | spawn name w =>
      unfold apply
      dsimp only
      rw [spawn_beside]
  | poll name =>
      unfold apply
      dsimp only
      rw [poll_beside]
      generalize s.poll name = polled
      obtain ⟨answer, s⟩ := polled
      cases answer <;> rfl
  | allocateIteration base =>
      have hhub : (s.beside x).orchestrator.hub.allocateIteration base =
          (s.orchestrator.hub.allocateIteration base).map
            fun r => (r.1, r.2.1, r.2.2.beside x) :=
        s.orchestrator.hub.allocateIteration_beside x base
      unfold apply
      dsimp only
      rw [hhub]
      cases s.orchestrator.hub.allocateIteration base <;> rfl
  | publish t u =>
      have hhub : (s.beside x).orchestrator.hub.publish t u =
          (s.orchestrator.hub.publish t u).map (·.beside x) :=
        s.orchestrator.hub.publish_beside x t u
      unfold apply
      dsimp only
      rw [hhub]
      cases s.orchestrator.hub.publish t u <;> rfl
  | available | record | status | elapse | reject | published | publishedInput | allocateTask
  | fetch => rfl

/-- The session without transaction numbers, requests and notices. -/
def unasked : Session :=
  s.withOrchestrator { s.orchestrator with
    transactions := {}
    hub := { s.orchestrator.hub with requests := [] }
    journal := [] }

theorem beside_correspondence : s.unasked.beside s.orchestrator.correspondence = s := rfl

/-- Only the responder is seen. -/
theorem unasked_beside {x y : Correspondence} (h : x.responder = y.responder) :
    (s.beside x).unasked = (s.beside y).unasked := by
  cases x
  cases y
  cases h
  rfl

theorem apply_beside_snd {c : Command} (h : c.asked? = none) :
    ((s.beside x).apply c).2 = (s.apply c).2.beside x := by
  by_cases hlist : c = .requests
  · subst hlist
    rfl
  · rw [s.apply_beside x h hlist]

/-- **What is no request** does not depend on the requests before it. -/
theorem apply_of_unasked_eq {s t : Session} (hst : s.unasked = t.unasked) {c : Command}
    (h : c.asked? = none) :
    (s.apply c).2.unasked = (t.apply c).2.unasked ∧
      (c ≠ .requests → (s.apply c).1 = (t.apply c).1) := by
  -- both are what they have in common, each beside its own correspondence
  have ht : t = s.unasked.beside t.orchestrator.correspondence := by
    rw [hst, beside_correspondence]
  have hresponder : s.orchestrator.hub.responder = t.orchestrator.hub.responder :=
    congrArg (fun s => s.orchestrator.hub.responder) hst
  rw [← s.beside_correspondence, ht]
  constructor
  · rw [apply_beside_snd _ _ h, apply_beside_snd _ _ h]
    exact unasked_beside _ hresponder
  · intro hlist
    rw [apply_beside _ _ h hlist, apply_beside _ _ h hlist]

/-! ## One request -/

open Orchestrator

/-- The request that a text makes under a number. -/
def requestFor (transaction : UInt32) (text : String) : ConfigurationRequest :=
  { worker := Routing.route text, transaction, configuration := text }

/-- The requests that texts make one after the other. They are numbered from one, and those that no
worker is asked about are left out. -/
def dispatched (texts : List String) : List ConfigurationRequest :=
  ((texts.zipIdx 1).filter fun q => Routing.route q.1 ≠ .unknown).map
    fun q => requestFor (.ofNat q.2) q.1

theorem dispatched_concat (texts : List String) (text : String) :
    dispatched (texts ++ [text]) = dispatched texts ++
      if Routing.route text = .unknown then [] else [requestFor (.ofNat (texts.length + 1)) text] := by
  unfold dispatched
  rw [List.zipIdx_append, List.filter_append, List.map_append, Nat.add_comm]
  by_cases h : Routing.route text = .unknown <;> simp [h]

theorem sendRequest_fst (o : Orchestrator) (text : String) :
    let request := requestFor o.transactions.next.last text
    (o.sendRequest text).1 =
      if Routing.route text = .unknown then .error (.routingFailure text)
      else (accept request (o.hub.responder request)).mapError .transportFailure := by
  unfold sendRequest
  dsimp only
  split
  · rename_i h
    rw [if_pos h]
  · rename_i h
    rw [if_neg h]
    rfl

theorem sendRequest_snd (o : Orchestrator) (text : String) :
    (o.sendRequest text).2 = { o with
      transactions := o.transactions.next
      hub := { o.hub with
        requests := o.hub.requests ++
          if Routing.route text = .unknown then []
          else [requestFor o.transactions.next.last text] }
      journal :=
        (if Routing.route text = .unknown then
          .requestUnroutable o.transactions.next.last text
        else .requestSent o.transactions.next.last (Routing.route text)) :: o.journal } := by
  unfold sendRequest
  dsimp only
  split
  · rename_i h
    rw [if_pos h, if_pos h, List.append_nil]
    rfl
  · rename_i h
    rw [if_neg h, if_neg h]
    rfl

/-- What a request for a text is answered with, given what the worker says. There are three ways to
fail. -/
inductive RepliesTo (c : Command) (text : String) (number : UInt32) (r : ConfigurationResponse) :
    Reply → Prop
  | unroutable (hroute : Routing.route text = .unknown) :
      RepliesTo c text number r (.failed (.routingFailure text))
  | mismatched (hroute : Routing.route text ≠ .unknown) (hnumber : r.transaction ≠ number) :
      RepliesTo c text number r (.failed (.transportFailure (.wrongReply r.transaction number)))
  | rejected (hroute : Routing.route text ≠ .unknown) (hnumber : r.transaction = number)
      (hsuccess : r.success = false) :
      RepliesTo c text number r
        (.failed (.transportFailure (.requestRejected (Routing.route text) number r.code)))
  | accepted (hroute : Routing.route text ≠ .unknown) (hnumber : r.transaction = number)
      (hsuccess : r.success = true) : RepliesTo c text number r (c.relay (.ok r))

/-- A request succeeds on one way only. -/
theorem RepliesTo.succeeds_iff {c : Command} {text : String} {number : UInt32}
    {r : ConfigurationResponse} {reply : Reply} (h : RepliesTo c text number r reply) :
    ((∀ e, reply ≠ .failed e) ↔
      Routing.route text ≠ .unknown ∧ r.success = true ∧ r.transaction = number) ∧
      ((∀ e, reply ≠ .failed e) → reply = c.relay (.ok r)) := by
  cases h with
  | unroutable hroute =>
      exact ⟨iff_of_false (fun hall => hall _ rfl) fun hall => hall.1 hroute,
        fun hall => absurd rfl (hall _)⟩
  | mismatched _ hnumber =>
      exact ⟨iff_of_false (fun hall => hall _ rfl) fun hall => hnumber hall.2.2,
        fun hall => absurd rfl (hall _)⟩
  | rejected _ _ hsuccess =>
      exact ⟨iff_of_false (fun hall => hall _ rfl) fun hall => by simp [hsuccess] at hall,
        fun hall => absurd rfl (hall _)⟩
  | accepted hroute hnumber hsuccess =>
      exact ⟨iff_of_true (c.relay_ok_ne_failed r) ⟨hroute, hsuccess, hnumber⟩, fun _ => rfl⟩

/-- A request is one call, whichever of the two commands it is. -/
theorem apply_of_asked {c : Command} {text : String} (h : c.asked? = some text) :
    s.apply c = (c.relay (s.orchestrator.sendRequest text).1,
      s.withOrchestrator (s.orchestrator.sendRequest text).2) := by
  cases c with
  | request => cases h; rfl
  | configRequest =>
      cases h
      unfold apply configRequest
      dsimp only
      generalize s.orchestrator.sendRequest text = sent
      obtain ⟨outcome, o⟩ := sent
      cases outcome <;> rfl
  | _ => cases h

/-- The `k`-th request, for a text, bears the number `k`, and a worker is asked if there is one for
the text. What the worker says counts if it bears the same number and is positive, and it is handed
on as it is. The number is used up in any case, and nothing else has changed. -/
structure Correlates (s : Session) (c : Command) (text : String) (k : Nat)
    (response : ConfigurationResponse) : Prop where
  number : (s.apply c).2.orchestrator.transactions.last.toNat = k
  notice : (s.apply c).2.orchestrator.journal =
    (if Routing.route text = .unknown then .requestUnroutable (.ofNat k) text
      else .requestSent (.ofNat k) (Routing.route text)) :: s.orchestrator.journal
  requests : (s.apply c).2.orchestrator.hub.requests = s.orchestrator.hub.requests ++
    if Routing.route text = .unknown then [] else [requestFor (.ofNat k) text]
  succeeds_iff : (∀ e, (s.apply c).1 ≠ .failed e) ↔
    Routing.route text ≠ .unknown ∧ response.success = true ∧ response.transaction.toNat = k
  relayed : (∀ e, (s.apply c).1 ≠ .failed e) → (s.apply c).1 = c.relay (.ok response)
  replies : RepliesTo c text (.ofNat k) response (s.apply c).1
  rest : (s.apply c).2.unasked = s.unasked
  ledger : (s.apply c).2.orchestrator.ledger = s.orchestrator.ledger
  registry : (s.apply c).2.orchestrator.registry = s.orchestrator.registry
  published : (s.apply c).2.orchestrator.hub.published = s.orchestrator.hub.published
  waiters : (s.apply c).2.waiters = s.waiters

/-- What the worker says is checked before it is handed on. -/
theorem repliesTo_accept (c : Command) {text : String} (hroute : Routing.route text ≠ .unknown)
    (number : UInt32) (r : ConfigurationResponse) :
    RepliesTo c text number r
      (c.relay ((accept (requestFor number text) r).mapError .transportFailure)) := by
  by_cases hnumber : r.transaction = number
  · have hmatch : ¬ r.transaction ≠ (requestFor number text).transaction := not_not.mpr hnumber
    cases hsuccess : r.success with
    | true =>
        have haccept : accept (requestFor number text) r = .ok r := by
          rw [accept, if_neg hmatch, if_pos hsuccess]
        rw [haccept]
        exact .accepted hroute hnumber hsuccess
    | false =>
        have haccept : accept (requestFor number text) r =
            .error (.requestRejected (Routing.route text) number r.code) := by
          rw [accept, if_neg hmatch, if_neg (by rw [hsuccess]; decide)]
          rfl
        rw [haccept, Except.mapError, c.relay_error]
        exact .rejected hroute hnumber hsuccess
  · have haccept : accept (requestFor number text) r =
        .error (.wrongReply r.transaction number) := if_pos hnumber
    rw [haccept, Except.mapError, c.relay_error]
    exact .mismatched hroute hnumber

/-- What a request is answered with. -/
theorem repliesTo_apply {c : Command} {text : String} (h : c.asked? = some text) :
    let number := s.orchestrator.transactions.next.last
    RepliesTo c text number (s.orchestrator.hub.responder (requestFor number text)) (s.apply c).1 := by
  intro number
  rw [s.apply_of_asked h, sendRequest_fst]
  by_cases hroute : Routing.route text = .unknown
  · rw [if_pos hroute, c.relay_error]
    exact .unroutable hroute
  · rw [if_neg hroute]
    exact repliesTo_accept c hroute number _

/-- A request leaves everything else as it is. -/
theorem unasked_apply_of_asked {c : Command} {text : String} (h : c.asked? = some text) :
    (s.apply c).2.unasked = s.unasked := by
  rw [s.apply_of_asked h, sendRequest_snd]
  rfl

/-- **A request** is correlated with its answer by the next number. -/
theorem correlates {s : Session} {c : Command} {text : String} (h : c.asked? = some text)
    {k : Nat} (hlast : s.orchestrator.transactions.last.toNat + 1 = k) (hk : k < UInt32.size) :
    s.Correlates c text k (s.orchestrator.hub.responder (requestFor (.ofNat k) text)) := by
  have htoNat : s.orchestrator.transactions.next.last.toNat = k := by
    rw [Transactions.next_of_lt (by rw [hlast]; exact hk), hlast]
  have hnext : s.orchestrator.transactions.next.last = .ofNat k := by
    rw [← htoNat, UInt32.ofNat_toNat]
  have hstate : (s.apply c).2 = s.withOrchestrator (s.orchestrator.sendRequest text).2 := by
    rw [s.apply_of_asked h]
  rw [sendRequest_snd] at hstate
  have hreplies := s.repliesTo_apply h
  rw [hnext] at hstate hreplies
  have hsame (n : UInt32) : n = .ofNat k ↔ n.toNat = k := by
    rw [← hnext, ← UInt32.toNat_inj, htoNat]
  constructor
  case number => rw [hstate]; exact htoNat
  case succeeds_iff => rw [hreplies.succeeds_iff.1, hsame]
  case relayed => exact hreplies.succeeds_iff.2
  case replies => exact hreplies
  all_goals
    rw [hstate]
    rfl

/-! ## Runs -/

/-- The texts of the requests in a list of commands. -/
def asked (commands : List Command) : List String := commands.filterMap Command.asked?

theorem asked_cons (c : Command) (commands : List Command) :
    asked (c :: commands) = c.asked?.toList ++ asked commands := by
  unfold asked
  cases h : c.asked? <;> simp [h]

/-- The requests for some texts, and no others, have been made in a session with a hub. -/
structure HasAsked (s : Session) (hub : Hub) (texts : List String) : Prop where
  number : s.orchestrator.transactions.last.toNat = texts.length
  requests : s.orchestrator.hub.requests = hub.requests ++ dispatched texts
  responder : s.orchestrator.hub.responder = hub.responder

variable {s : Session} {hub : Hub} {texts : List String}

theorem HasAsked.correlates (h : s.HasAsked hub texts) {c : Command} {text : String}
    (hc : c.asked? = some text) (hfew : texts.length + 1 < UInt32.size) :
    s.Correlates c text (texts.length + 1)
      (hub.responder (requestFor (.ofNat (texts.length + 1)) text)) := by
  rw [← h.responder]
  exact Session.correlates hc (congrArg (· + 1) h.number) hfew

theorem HasAsked.apply (h : s.HasAsked hub texts) (c : Command)
    (hfew : (texts ++ c.asked?.toList).length < UInt32.size) :
    (s.apply c).2.HasAsked hub (texts ++ c.asked?.toList) := by
  cases hc : c.asked? with
  | none =>
      rw [Option.toList_none, List.append_nil, ← s.beside_correspondence, apply_beside_snd _ _ hc]
      exact ⟨h.number, h.requests, h.responder⟩
  | some text =>
      rw [hc, Option.toList_some, List.length_append, List.length_singleton] at hfew
      have hnext := h.correlates hc hfew
      constructor
      · rw [hnext.number, Option.toList_some, List.length_append, List.length_singleton]
      · rw [hnext.requests, h.requests, Option.toList_some, dispatched_concat, List.append_assoc]
      · exact (congrArg (fun s => s.orchestrator.hub.responder) hnext.rest).trans h.responder

theorem HasAsked.run (h : s.HasAsked hub texts) (commands : List Command)
    (hfew : (texts ++ asked commands).length < UInt32.size) :
    (s.run commands).HasAsked hub (texts ++ asked commands) := by
  induction commands generalizing s texts with
  | nil =>
      rw [asked, List.filterMap_nil, List.append_nil]
      exact h
  | cons c commands ih =>
      rw [asked_cons, ← List.append_assoc] at hfew ⊢
      refine ih (h.apply c ?_) hfew
      rw [List.length_append] at hfew
      omega

theorem hasAsked_run (settings : Settings) (hub : Hub) {commands : List Command}
    (hfew : (asked commands).length < UInt32.size) :
    ((new settings hub).run commands).HasAsked hub (asked commands) := by
  have hnew : (new settings hub).HasAsked hub [] := ⟨rfl, (List.append_nil _).symm, rfl⟩
  exact hnew.run commands hfew

/-- A run and the run without its requests differ in what concerns requests only. -/
theorem unasked_run {s t : Session} (hst : s.unasked = t.unasked) (commands : List Command) :
    (s.run commands).unasked =
      (t.run (commands.filter fun c => c.asked?.isNone)).unasked := by
  induction commands generalizing s t with
  | nil => exact hst
  | cons c commands ih =>
      cases hc : c.asked? with
      | none =>
          rw [List.filter_cons_of_pos (by rw [hc]; rfl)]
          exact ih (apply_of_unasked_eq hst hc).1
      | some text =>
          rw [List.filter_cons_of_neg (by rw [hc]; exact Bool.false_ne_true)]
          exact ih ((s.unasked_apply_of_asked hc).trans hst)

/-- **Requests and answers.** In a run with fewer than `2 ^ 32` requests the hub receives those that
a worker is asked about, in order, each with its place among all requests as its number. Each
request is correlated with its answer by that number, and every other command is answered as if
there had been no requests at all. -/
theorem request_correlation (settings : Settings) (hub : Hub) (commands : List Command)
    (hfew : (asked commands).length < UInt32.size) :
    ((new settings hub).run commands).orchestrator.hub.requests =
        hub.requests ++ dispatched (asked commands) ∧
      (∀ before c after text, commands = before ++ c :: after → c.asked? = some text →
        let k := (asked before).length + 1
        ((new settings hub).run before).Correlates c text k
          (hub.responder (requestFor (.ofNat k) text))) ∧
      ∀ before c after, commands = before ++ c :: after → c.asked? = none → c ≠ .requests →
        (((new settings hub).run before).apply c).1 =
          (((new settings hub).run (before.filter fun c => c.asked?.isNone)).apply c).1 := by
  refine ⟨(hasAsked_run settings hub hfew).requests, ?_, ?_⟩
  · rintro before c after text rfl hc
    have hlength : (asked before).length + 1 < UInt32.size := by
      rw [asked, List.filterMap_append, List.filterMap_cons_some hc, List.length_append,
        List.length_cons] at hfew
      unfold asked
      omega
    exact (hasAsked_run settings hub (Nat.lt_of_succ_lt hlength)).correlates hc hlength
  · rintro before c after - hc hlist
    exact (apply_of_unasked_eq (unasked_run rfl before) hc).2 hlist

/-- A request without a worker, one that is answered under a wrong number, and one that is answered
under its own. -/
def threeRequests : List Command :=
  [.request "weather", .configRequest "hardwares", .submit {}, .request "goal"]

/-- Every answer bears the number three. -/
def alwaysThree : Hub where
  responder r := { r.accept "small" with transaction := 3 }

/-- The hub receives the second and the third request, and the third succeeds. -/
theorem request_correlation_threeRequests :
    (asked threeRequests).length < UInt32.size ∧
      ((new {} alwaysThree).run threeRequests).orchestrator.hub.requests =
        [⟨.hwProvider, 2, "hardwares"⟩, ⟨.mlModelProvider, 3, "goal"⟩] ∧
      ∀ e, (((new {} alwaysThree).run (threeRequests.take 3)).apply (.request "goal")).1 ≠
        .failed e := by
  have hfew : (asked threeRequests).length < UInt32.size := by decide
  obtain ⟨hrequests, hcorrelates, -⟩ := request_correlation {} alwaysThree threeRequests hfew
  have hthird := hcorrelates (threeRequests.take 3) (.request "goal") [] "goal" rfl rfl
  refine ⟨hfew, ?_, hthird.succeeds_iff.mpr ⟨by decide +kernel, rfl, rfl⟩⟩
  rw [hrequests]
  decide +kernel

end Session

end WorkerPipeline
