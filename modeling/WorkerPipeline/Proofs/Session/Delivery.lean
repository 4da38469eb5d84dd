import WorkerPipeline.Proofs.Ledger.Newest
import WorkerPipeline.Proofs.Orchestrator.Fetching
import WorkerPipeline.Proofs.Session.Proceeding

set_option autoImplicit false

/-! # Delivered outputs can be fetched

An output is stored by the hub when it is delivered, and its result is registered in the ledger when
the event loop has taken its event from the channel. The two agree: what the ledger has was
delivered before, and what was delivered stays stored. So whoever is told that a result has arrived
can fetch it, under any limit. What is fetched is the output delivered last (`arrivals_fetchable`).
-/

namespace WorkerPipeline

/-! ## What commands deliver -/

namespace Command

/-- The output of a worker for a task that a command delivers. -/
def delivered? (w : Worker) (t : TaskId) : Command → Option Output
  | .deliver v o => if v = w ∧ o.task = some t then some o else none
  | _ => none

/-- The event that a command announces, if the channel is open. -/
def announced? : Command → Option Event
  | .deliver w o => some (Hub.arrival w o)
  | .deliverStatus w report => some (.statusChanged ⟨w, report⟩)
  | _ => none

/-- Whether a command registers results that do not come from the channel. -/
def bypasses : Command → Bool
  | .register _ _ | .handle _ | .runEvents _ => true
  | _ => false

/-- The output of a worker for a task that was delivered last. -/
def lastDelivered (w : Worker) (t : TaskId) (commands : List Command) : Option Output :=
  (commands.filterMap (delivered? w t)).getLast?

variable {w : Worker} {t : TaskId} {o : Output} {c : Command} {commands : List Command}

theorem delivered?_eq_some_iff :
    c.delivered? w t = some o ↔ c = .deliver w o ∧ o.task = some t := by
  cases c with
  | deliver v output =>
      simp only [delivered?, Option.ite_none_right_eq_some, deliver.injEq]
      constructor
      · rintro ⟨⟨rfl, ht⟩, ho⟩
        cases ho
        exact ⟨⟨rfl, rfl⟩, ht⟩
      · rintro ⟨⟨rfl, rfl⟩, ht⟩
        exact ⟨⟨rfl, ht⟩, rfl⟩
  | _ => exact ⟨nofun, fun h => nomatch h.1⟩

theorem lastDelivered_concat (commands : List Command) (c : Command) :
    lastDelivered w t (commands ++ [c]) =
      (c.delivered? w t).or (lastDelivered w t commands) := by
  unfold lastDelivered
  cases h : c.delivered? w t with
  | none => simp [List.filterMap_append, h]
  | some o => simp [List.filterMap_append, h]

theorem lastDelivered_spec (h : lastDelivered w t commands = some o) :
    .deliver w o ∈ commands ∧ o.task = some t := by
  obtain ⟨c, hc, hdelivered⟩ := List.mem_filterMap.mp (List.mem_of_getLast? h)
  obtain ⟨rfl, ht⟩ := delivered?_eq_some_iff.mp hdelivered
  exact ⟨hc, ht⟩

/-- What was delivered at all was delivered last at some time. -/
theorem lastDelivered_isSome (h : .deliver w o ∈ commands) (ht : o.task = some t) :
    (lastDelivered w t commands).isSome = true := by
  have hmem : o ∈ commands.filterMap (delivered? w t) :=
    List.mem_filterMap.mpr ⟨_, h, delivered?_eq_some_iff.mpr ⟨rfl, ht⟩⟩
  rw [lastDelivered, List.getLast?_isSome]
  exact List.ne_nil_of_mem hmem

/-- An event that reports a result was announced by a delivery. -/
theorem eq_deliver_of_announced? {e : Event} (h : c.announced? = some e)
    (hresult : e.result? = some (t, w)) : ∃ o, c = .deliver w o ∧ o.task = some t := by
  cases c with
  | deliver v o =>
      cases h
      obtain ⟨u, hu, heq⟩ := Option.map_eq_some_iff.mp hresult
      cases heq
      exact ⟨o, rfl, hu⟩
  | deliverStatus v report =>
      cases h
      cases hresult
  | _ => cases h

end Command

/-! ## The payloads of the hub -/

namespace Hub

theorem get?_outputs_store (h : Hub) (w v : Worker) (o : Output) (t : TaskId) :
    (h.store w o).outputs.get? (v, t) =
      if w = v ∧ o.task = some t then some o else h.outputs.get? (v, t) := by
  unfold store
  cases o.task with
  | none => simp
  | some u =>
      simp only [Table.get?_insert, Prod.mk.injEq, Option.some.injEq]

theorem channel_store (h : Hub) (w : Worker) (o : Output) : (h.store w o).channel = h.channel := by
  unfold store
  split <;> rfl

end Hub

namespace Orchestrator

variable {o o' : Orchestrator}

/-- A submission leaves the outputs and the channel alone. -/
theorem outputs_submit (o : Orchestrator) (s : Submission) :
    (o.submit s).2.hub.outputs = o.hub.outputs ∧ (o.submit s).2.hub.channel = o.hub.channel := by
  have hallocates {t : TaskId} {hub : Hub} (h : o.Allocates s t hub) :
      hub.outputs = o.hub.outputs ∧ hub.channel = o.hub.channel := by
    cases h <;> exact ⟨rfl, rfl⟩
  have hsubmits := o.submits s
  generalize o.submit s = submitted at hsubmits ⊢
  obtain ⟨outcome, o'⟩ := submitted
  cases hsubmits with
  | refused _ hhub => rw [hhub]; exact ⟨rfl, rfl⟩
  | rejected _ halloc => exact hallocates halloc
  | accepted _ halloc _ _ hhub =>
      have hsame := hallocates halloc
      rw [hhub]
      exact hsame

theorem Proceed.outputs (h : o.Proceed o') :
    o'.hub.outputs = o.hub.outputs ∧ o'.hub.channel.events ⊆ o.hub.channel.events := by
  cases h with
  | register _ hhub => rw [hhub]; exact ⟨rfl, List.Subset.refl _⟩
  | calm _ hcalm => exact ⟨hcalm.outputs, hcalm.events⟩
  | @follow s _ _ _ ho' =>
      obtain ⟨houtputs, hchannel⟩ := o.outputs_submit s
      rw [ho', houtputs, hchannel]
      exact ⟨rfl, List.Subset.refl _⟩

theorem Proceeds.outputs (h : o.Proceeds o') :
    o'.hub.outputs = o.hub.outputs ∧ o'.hub.channel.events ⊆ o.hub.channel.events := by
  refine h.preserves (P := fun o' => o'.hub.outputs = o.hub.outputs ∧
    o'.hub.channel.events ⊆ o.hub.channel.events) ?_ ⟨rfl, List.Subset.refl _⟩
  rintro o₁ o₂ hproceed ⟨houtputs, hevents⟩
  exact ⟨hproceed.outputs.1.trans houtputs, List.Subset.trans hproceed.outputs.2 hevents⟩

end Orchestrator

namespace Session

theorem delivered?_eq_none {c : Command} (h : c.brings = false) (w : Worker) (t : TaskId) :
    c.delivered? w t = none := by
  cases c <;> first | rfl | cases h

/-- A command stores what it delivers, and announces what it announces at most. -/
theorem outputs_apply (s : Session) (c : Command) :
    (∀ w t, (s.apply c).2.orchestrator.hub.outputs.get? (w, t) =
      (c.delivered? w t).or (s.orchestrator.hub.outputs.get? (w, t))) ∧
    ∀ e ∈ (s.apply c).2.orchestrator.hub.channel.events,
      e ∈ s.orchestrator.hub.channel.events ∨ c.announced? = some e := by
  cases hbrings : c.brings with
  | false =>
      obtain ⟨houtputs, hevents⟩ := (s.proceeds_apply hbrings).outputs
      refine ⟨fun w t => ?_, fun e he => .inl (hevents he)⟩
      rw [delivered?_eq_none hbrings, houtputs]
      rfl
  | true =>
      cases c with
      | submit input =>
          obtain ⟨houtputs, hchannel⟩ := s.orchestrator.outputs_submit input
          refine ⟨fun w t => congrArg (Table.get? · (w, t)) houtputs, fun e he => .inl ?_⟩
          rw [← hchannel]
          exact he
      | deliver v o =>
          have hannounces := s.orchestrator.hub.announces_deliver v o
          refine ⟨fun w t => ?_, fun e he => ?_⟩
          · show (s.orchestrator.hub.deliver v o).2.outputs.get? (w, t) = _
            rw [hannounces.outputs, Hub.get?_outputs_store, Command.delivered?]
            split <;> rfl
          · have hevents := hannounces.events e he
            rw [Hub.channel_store] at hevents
            exact hevents.imp_right fun heq => by rw [heq]; rfl
      | deliverStatus v report =>
          obtain ⟨hub, happly, hannounces⟩ := s.apply_deliverStatus v report
          rw [happly]
          refine ⟨fun w t => congrArg (Table.get? · (w, t)) hannounces.outputs, fun e he => ?_⟩
          exact (hannounces.events e he).imp_right fun heq => by rw [heq]; rfl
      | allocateTask => exact ⟨fun _ _ => rfl, fun _ => .inl⟩
      | allocateIteration base =>
          rcases s.apply_allocateIteration base with happly | ⟨t, -, happly⟩
          · rw [happly]
            exact ⟨fun _ _ => rfl, fun _ => .inl⟩
          · rw [happly]
            exact ⟨fun _ _ => rfl, fun _ => .inl⟩
      | publish t u =>
          unfold apply Hub.publish
          dsimp only
          cases s.orchestrator.hub.rejecting <;> exact ⟨fun _ _ => rfl, fun _ => .inl⟩
      | _ => cases hbrings

/-! ## Runs -/

section

variable (settings : Settings) {hub : Hub} (hhub : hub.Untouched) {commands : List Command}

include hhub

/-- The hub has the output that was delivered last. -/
theorem get?_outputs_run (w : Worker) (t : TaskId) :
    ((new settings hub).run commands).orchestrator.hub.outputs.get? (w, t) =
      Command.lastDelivered w t commands := by
  induction commands using List.reverseRecOn with
  | nil =>
      show hub.outputs.get? (w, t) = none
      rw [hhub.outputs]
      rfl
  | append_singleton commands c ih =>
      rw [run_append, Command.lastDelivered_concat, ← ih]
      exact (outputs_apply _ c).1 w t

/-- What is on the channel was announced by a command. -/
theorem announced_of_mem_events {e : Event}
    (he : e ∈ ((new settings hub).run commands).orchestrator.hub.channel.events) :
    ∃ c ∈ commands, c.announced? = some e := by
  induction commands using List.reverseRecOn with
  | nil =>
      have hnone : ((new settings hub).run []).orchestrator.hub.channel.events = [] := hhub.events
      rw [hnone] at he
      cases he
  | append_singleton commands c ih =>
      rw [run_append] at he
      rcases (outputs_apply _ c).2 e he with hold | hnow
      · obtain ⟨c', hc', hannounced⟩ := ih hold
        exact ⟨c', List.mem_append_left _ hc', hannounced⟩
      · exact ⟨c, List.mem_append_right _ List.mem_cons_self, hnow⟩

/-- What is registered was delivered, unless results come from elsewhere. -/
theorem delivered_of_registered (hdirect : ∀ c ∈ commands, c.bypasses = false) {w : Worker}
    {t : TaskId} (h : (t, w) ∈ (new settings hub).registered commands) :
    ∃ o, .deliver w o ∈ commands ∧ o.task = some t := by
  induction commands using List.reverseRecOn with
  | nil => cases h
  | append_singleton commands c ih =>
      rw [registered_append, List.mem_append, registered_singleton] at h
      rcases h with hold | hnow
      · obtain ⟨o, ho, ht⟩ := ih (fun c hc => hdirect c (List.mem_append_left _ hc)) hold
        exact ⟨o, List.mem_append_left _ ho, ht⟩
      · -- only the event loop is left, and it takes what is on the channel
        have hevent : ∃ e ∈ ((new settings hub).run commands).orchestrator.hub.channel.events,
            e.result? = some (t, w) := by
          have hc := hdirect c (List.mem_append_right _ List.mem_cons_self)
          cases c with
          | register | handle | runEvents => cases hc
          | pump | stop =>
              simp only [registeredBy] at hnow
              split at hnow
              · cases hnow
              · exact List.mem_filterMap.mp hnow
          | _ => cases hnow
        obtain ⟨e, he, hresult⟩ := hevent
        obtain ⟨c', hc', hannounced⟩ := announced_of_mem_events settings hhub he
        obtain ⟨o, rfl, ht⟩ := Command.eq_deliver_of_announced? hannounced hresult
        exact ⟨o, List.mem_append_left _ hc', ht⟩

/-- What has arrived is stored. -/
theorem exists_output_of_available (hdirect : ∀ c ∈ commands, c.bypasses = false) {w : Worker}
    {t : TaskId}
    (h : ((new settings hub).run commands).orchestrator.ledger.available t w = true) :
    ∃ o, .deliver w o ∈ commands ∧ o.task = some t ∧
      ((new settings hub).run commands).orchestrator.hub.outputs.get? (w, t) = some o := by
  obtain ⟨steps, hresults, hledger⟩ := ledger_run settings hub commands
  rw [hledger] at h
  have hregistered : (t, w) ∈ (new settings hub).registered commands := by
    rw [← hresults]
    exact Ledger.mem_results.mpr (Ledger.arrived_of_available h)
  obtain ⟨o, ho, ht⟩ := delivered_of_registered settings hhub hdirect hregistered
  obtain ⟨last, hlast⟩ := Option.isSome_iff_exists.mp (Command.lastDelivered_isSome ho ht)
  obtain ⟨hmem, htask⟩ := Command.lastDelivered_spec hlast
  exact ⟨last, hmem, htask, (get?_outputs_run settings hhub w t).trans hlast⟩

end

/-! ## Waiting for what can be fetched -/

/-- Whatever has arrived is found by whoever fetches it. -/
def Fetchable (s : Session) : Prop :=
  ∀ t w, s.orchestrator.ledger.available t w = true → s.orchestrator.hub.fetch w t ≠ none

section

variable {s : Session}

theorem fetchResult_ne_notFound {t : TaskId} {w : Worker}
    (h : s.orchestrator.hub.fetch w t ≠ none) (v : Worker) (u : TaskId) :
    s.fetchResult t w ≠ .error (.notFound v u) := by
  unfold fetchResult Orchestrator.fetchResult
  split
  · rename_i hnone
    exact absurd hnone h
  · split <;> exact nofun

theorem latestTask_ne_notFound (s : Session) (w v : Worker) (u : TaskId) :
    s.latestTask w ≠ .error (.notFound v u) := by
  unfold latestTask
  split
  · split <;> exact nofun
  · exact nofun

/-- A waiter arrives where its result is available, and changes nothing by that. -/
theorem pollWaiter_of_arrived {w : Waiter} (h : (s.pollWaiter w).1 = .arrived) :
    s.orchestrator.ledger.available w.task w.worker = true ∧ (s.pollWaiter w).2 = s := by
  have hunanswered (w : Waiter) : s.unanswered w ≠ .arrived := by
    unfold unanswered
    split <;> exact nofun
  unfold pollWaiter at h ⊢
  split
  · rename_i hnews
    rw [if_pos hnews] at h
    split
    · rename_i havailable
      exact ⟨havailable, rfl⟩
    · rename_i hmissing
      rw [if_neg hmissing] at h
      exact absurd h (hunanswered _)
  · rename_i hold
    rw [if_neg hold] at h
    exact absurd h (hunanswered _)

theorem Fetchable.advanceWaiter (hs : s.Fetchable) (name : String) (w : Waiter) (v : Worker)
    (u : TaskId) : (s.advanceWaiter name w).1 ≠ some (.error (.notFound v u)) := by
  have harrived := pollWaiter_of_arrived (s := s) (w := w)
  unfold Session.advanceWaiter
  generalize s.pollWaiter w = polled at harrived
  obtain ⟨state, s'⟩ := polled
  cases state with
  | arrived =>
      obtain ⟨havailable, rfl⟩ := harrived rfl
      intro h
      exact fetchResult_ne_notFound (hs _ _ havailable) v u (Option.some.inj h)
  | timedOut => exact nofun
  | pending w => exact nofun

theorem Fetchable.spawn (hs : s.Fetchable) (name : String) (w v : Worker) (u : TaskId) :
    (s.spawn name w).1 ≠ some (.error (.notFound v u)) := by
  unfold Session.spawn
  dsimp only
  split
  · rename_i e he
    rintro ⟨⟩
    exact latestTask_ne_notFound _ w v u he
  · exact Fetchable.advanceWaiter (s := { s with waiters := s.waiters.erase name }) hs name _ v u

theorem Fetchable.poll (hs : s.Fetchable) (name : String) (woken : Bool) (v : Worker)
    (u : TaskId) : (s.poll name).1 ≠ some (woken, some (.error (.notFound v u))) := by
  unfold Session.poll
  split
  · exact nofun
  · rename_i w _
    intro h
    exact hs.advanceWaiter name w v u (congrArg Prod.snd (Option.some.inj h))

/-- A wait succeeds where the result is available, or its time runs out, or it does not end. -/
theorem wait_cases (s : Session) (w : Worker) (t : TaskId) :
    s.orchestrator.ledger.available t w = true ∧ s.wait w t = (some (.ok ()), s) ∨
      ∃ s', s.wait w t = (some (.error (.waitTimedOut w t)), s') ∨ s.wait w t = (none, s') := by
  have harrived := pollWaiter_of_arrived (s := s) (w := s.newWaiter w t)
  unfold wait
  generalize s.pollWaiter (s.newWaiter w t) = polled at harrived ⊢
  obtain ⟨state, s'⟩ := polled
  cases state with
  | arrived =>
      obtain ⟨havailable, rfl⟩ := harrived rfl
      exact .inl ⟨havailable, rfl⟩
  | timedOut => exact .inr ⟨s', .inl rfl⟩
  | pending v =>
      dsimp only
      split
      · exact .inr ⟨s', .inr rfl⟩
      · exact .inr ⟨_, .inl rfl⟩

/-- Who waits for the latest task until the end finds its result, or is told why not. -/
theorem Fetchable.result (hs : s.Fetchable) (w v : Worker) (u : TaskId) :
    (s.result none w).1 ≠ some (.error (.notFound v u)) := by
  unfold Session.result
  dsimp only
  split
  · rename_i e he
    rintro ⟨⟩
    exact s.latestTask_ne_notFound w v u he
  · rename_i t _
    rcases s.wait_cases w t with ⟨havailable, heq⟩ | ⟨s', heq | heq⟩
    · rw [heq]
      exact fun h => fetchResult_ne_notFound (hs t w havailable) v u (Option.some.inj h)
    · rw [heq]
      exact nofun
    · rw [heq]
      exact nofun

end

/-! ## Results of a given task -/

/-- Who asks for the result of a given task is told what the hub has. -/
theorem fetches_result (s : Session) (t : TaskId) {w : Worker} (hw : w.isTracked = true) :
    ∃ outcome, (s.result (some t) w).1 = some outcome ∧
      Fetches (s.orchestrator.hub.fetch w t) w t outcome :=
  ⟨_, congrArg some (if_pos hw), s.orchestrator.fetches_fetchResult t w⟩

/-- **What has arrived can be fetched.** In a run in which results come through the event loop only,
under any limit: a result that has arrived is stored by the hub as an output that its worker has
delivered for its task, so nobody who waits for a result is told that it is not found. The result
of a given task is that of the output delivered last, whether or not it could be announced: not
found if there is none, an error if its extra data do not decode, and otherwise an object of the
fields that the output declares, with their values, and its extra data decoded. -/
theorem arrivals_fetchable (settings : Settings) {hub : Hub} (hhub : hub.Untouched)
    {commands : List Command} (hdirect : ∀ c ∈ commands, c.bypasses = false) :
    let s := (new settings hub).run commands
    (∀ t w, s.orchestrator.ledger.available t w = true →
      ∃ o, .deliver w o ∈ commands ∧ o.task = some t ∧ s.orchestrator.hub.fetch w t = some o) ∧
    (∀ w v u, (s.result none w).1 ≠ some (.error (.notFound v u))) ∧
    (∀ name w v u, (s.spawn name w).1 ≠ some (.error (.notFound v u))) ∧
    (∀ name woken v u, (s.poll name).1 ≠ some (woken, some (.error (.notFound v u)))) ∧
    ∀ t w, w.isTracked = true → ∃ outcome, (s.result (some t) w).1 = some outcome ∧
      Fetches (Command.lastDelivered w t commands) w t outcome := by
  intro s
  have hfetch {w : Worker} (hw : w.isTracked = true) (t : TaskId) :
      s.orchestrator.hub.fetch w t = Command.lastDelivered w t commands := by
    rw [Hub.fetch_of_isTracked _ hw]
    exact get?_outputs_run settings hhub w t
  have hstored (t : TaskId) (w : Worker) (h : s.orchestrator.ledger.available t w = true) :
      ∃ o, .deliver w o ∈ commands ∧ o.task = some t ∧
        s.orchestrator.hub.fetch w t = some o := by
    obtain ⟨o, hmem, ht, ho⟩ := exists_output_of_available settings hhub hdirect h
    have hw : w.isTracked = true :=
      (tidy_run settings hub commands).consistent.isTracked_of_available h
    exact ⟨o, hmem, ht, (Hub.fetch_of_isTracked _ hw t).trans ho⟩
  have hfetchable : s.Fetchable := by
    intro t w h
    obtain ⟨o, -, -, ho⟩ := hstored t w h
    rw [ho]
    exact Option.some_ne_none o
  refine ⟨hstored, hfetchable.result, hfetchable.spawn, hfetchable.poll, fun t w hw => ?_⟩
  rw [← hfetch hw t]
  exact s.fetches_result t hw

/-- An output that comes after the event loop has ended replaces the one that was announced. -/
def deliveredTwice : List Command :=
  [.submit { brief := { shortDescription := "count the cells" } },
    .deliver .hwProvider (.hwResource { task := some ⟨1, 0⟩, description := "a fast one" }), .stop,
    .deliver .hwProvider (.hwResource { task := some ⟨1, 0⟩, description := "a slow one" })]

/-- The members of the result of the output that was delivered last. -/
def slowMembers : List (String × Json) := [
  ("extra_data", .obj []),
  ("hw_description", .str "a slow one"),
  ("latency", .num (.float .zero)),
  ("max_hw_memory_footprint", .num (.float .zero)),
  ("memory_footprint_of_ml_model", .num (.float .zero)),
  ("power_consumption", .num (.float .zero)),
  ("task_id", .obj [("iteration_id", .num (.int 0)), ("problem_id", .num (.int 1))])]

theorem shows_slowMembers :
    (Output.hwResource { task := some ⟨1, 0⟩, description := "a slow one" }).Shows {}
      slowMembers := by
  refine ⟨⟨[], ⟨.nil, fun _ => Iff.rfl⟩, by decide, fun f => ?_⟩, by decide⟩
  have hzero : Json.ofDouble .zero = .num (.float .zero) := rfl
  simp only [slowMembers, Output.declared, Json.ofTask, hzero, List.cons_append, List.nil_append,
    List.mem_cons, List.not_mem_nil, or_false]
  constructor
  · rintro (rfl | rfl | rfl | rfl | rfl | rfl | rfl) <;> simp
  · rintro (rfl | rfl | rfl | rfl | rfl | rfl | rfl) <;> simp

/-- The result has arrived with the first output, and is that of the second. -/
theorem arrivals_fetchable_deliveredTwice :
    let hub : Hub := {}
    let slow : Output := .hwResource { task := some ⟨1, 0⟩, description := "a slow one" }
    hub.Untouched ∧
    ((new { retention := some 1 } hub).run deliveredTwice).orchestrator.ledger.available ⟨1, 0⟩
      .hwProvider = true ∧
    (((new { retention := some 1 } hub).run deliveredTwice).result (some ⟨1, 0⟩) .hwProvider).1 =
      some (.ok ⟨.hwProvider, ⟨1, 0⟩, .obj slowMembers⟩) ∧ slow.Shows {} slowMembers := by
  intro hub slow
  have hhub : hub.Untouched := ⟨rfl, rfl, rfl, rfl, rfl⟩
  have hdirect : ∀ c ∈ deliveredTwice, c.bypasses = false := by decide
  have hlast : Command.lastDelivered .hwProvider ⟨1, 0⟩ deliveredTwice = some slow := by
    decide +kernel
  have hextra : slow.extra = .ok {} := Output.extra_of_isEmptyBlock (by decide +kernel)
  obtain ⟨-, -, -, -, hfetches⟩ := arrivals_fetchable { retention := some 1 } hhub hdirect
  obtain ⟨outcome, houtcome, hfetched⟩ := hfetches ⟨1, 0⟩ .hwProvider rfl
  obtain ⟨m, hm, -, hshows⟩ := hfetched.shown slow {} hlast hextra
  refine ⟨hhub, by decide +kernel, ?_, shows_slowMembers⟩
  rw [← hshows.unique shows_slowMembers, ← hm]
  exact houtcome

end Session

end WorkerPipeline
