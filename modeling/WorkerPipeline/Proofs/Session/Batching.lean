import WorkerPipeline.Proofs.Session.Correlation
import WorkerPipeline.Proofs.Session.Proceeding

set_option autoImplicit false

/-! # Deliveries in batches

It does not matter when the loop is pumped, as long as it is pumped behind the deliveries, nor how
the statuses of the workers are interleaved with the outputs (`batching`). A delivery changes the
outputs and the channel of the hub, and neither is looked at when an event is handled, so that what
is on the channel may as well be handled behind the deliveries (`drain_receiveAll_drain`). From the
statuses of a worker only the last one remains, and outputs keep their order.
-/

namespace WorkerPipeline

/-! ## Deliveries -/

/-- What a worker sends of its own accord. -/
inductive Delivery where
  | output (worker : Worker) (output : Output)
  | status (worker : Worker) (status : WorkerStatus)

namespace Delivery

def command : Delivery → Command
  | output w o => .deliver w o
  | status w v => .deliverStatus w v

/-- The event that announces a delivery. -/
def event : Delivery → Event
  | output w o => Hub.arrival w o
  | status w v => .statusChanged ⟨w, v⟩

/-- All outputs come from one source, and every worker is a source of statuses. -/
def source (d : Delivery) : Option Worker := d.event.source

/-- The outputs that the hub holds afterwards. -/
def put (t : Table (Worker × TaskId) Output) : Delivery → Table (Worker × TaskId) Output
  | output w o =>
    match o.task with
    | some task => t.insert (w, task) o
    | none => t
  | status _ _ => t

/-- Statuses are not kept. -/
theorem foldl_put_filter (t : Table (Worker × TaskId) Output) (ds : List Delivery) :
    (ds.filter (·.source = none)).foldl put t = ds.foldl put t := by
  induction ds generalizing t with
  | nil => rfl
  | cons d ds ih => cases d <;> exact ih _

/-- Two lists of deliveries agree on what comes from each source: the outputs have the same order,
and so have the statuses of each worker. -/
def SameOrder (ds es : List Delivery) : Prop :=
  ∀ v, ds.filter (·.source = v) = es.filter (·.source = v)

theorem SameOrder.foldl_put {ds es : List Delivery} (h : SameOrder ds es)
    (t : Table (Worker × TaskId) Output) : ds.foldl put t = es.foldl put t := by
  rw [← foldl_put_filter t ds, ← foldl_put_filter t es, h none]

/-- The events of deliveries are in the same order as these, whatever has been announced before. -/
theorem SameOrder.filter_event {ds es : List Delivery} (h : SameOrder ds es) (pending : List Event)
    (v : Option Worker) :
    (pending ++ ds.map event).filter (·.source = v) =
      (pending ++ es.map event).filter (·.source = v) := by
  have hmap (ds : List Delivery) : (ds.map event).filter (·.source = v) =
      (ds.filter (·.source = v)).map event := List.filter_map
  rw [List.filter_append, List.filter_append, hmap, hmap, h v]

theorem SameOrder.eq_nil_iff {ds es : List Delivery} (h : SameOrder ds es) : ds = [] ↔ es = [] := by
  have hnil {ds es : List Delivery} (h : SameOrder ds es) (hds : ds = []) : es = [] := by
    subst hds
    refine List.eq_nil_iff_forall_not_mem.mpr fun d hd => ?_
    have hmem : d ∈ es.filter (·.source = d.source) := List.mem_filter.mpr ⟨hd, by simp⟩
    rw [← h d.source] at hmem
    exact List.not_mem_nil hmem
  exact ⟨hnil h, hnil fun v => (h v).symm⟩

end Delivery

namespace Hub

/-- What becomes of a hub whose channel is open. -/
def receive (h : Hub) (d : Delivery) : Hub :=
  { h with
    outputs := d.put h.outputs
    channel := { h.channel with events := h.channel.events ++ [d.event] } }

theorem foldl_receive (h : Hub) (ds : List Delivery) :
    ds.foldl receive h = { h with
      outputs := ds.foldl Delivery.put h.outputs
      channel := { h.channel with events := h.channel.events ++ ds.map Delivery.event } } := by
  induction ds generalizing h with
  | nil => simp
  | cons d ds ih => simp [ih, receive, List.append_assoc]

theorem announce_of_open {h : Hub} (hopen : h.channel.closed = false) (e : Event) :
    h.announce e =
      .ok { h with channel := { h.channel with events := h.channel.events ++ [e] } } := by
  unfold announce
  rw [if_neg (by rw [hopen]; exact Bool.false_ne_true)]

theorem deliver_of_open {h : Hub} (hopen : h.channel.closed = false) (w : Worker)
    (output : Output) : h.deliver w output = (.ok (), h.receive (.output w output)) := by
  have hstore : h.store w output =
      { h with outputs := (Delivery.output w output).put h.outputs } := by
    unfold store
    cases htask : output.task <;> simp only [Delivery.put, htask]
  have hannounce := announce_of_open (h := { h with
    outputs := (Delivery.output w output).put h.outputs }) hopen (arrival w output)
  unfold deliver
  rw [hstore, hannounce]
  rfl

theorem reportStatus_of_open {h : Hub} (hopen : h.channel.closed = false) (w : Worker)
    (v : WorkerStatus) : h.reportStatus w v = .ok (h.receive (.status w v)) :=
  announce_of_open hopen _

end Hub

namespace Orchestrator

variable (o : Orchestrator)

def receiveAll (ds : List Delivery) : Orchestrator := { o with hub := ds.foldl Hub.receive o.hub }

def withOutputs (t : Table (Worker × TaskId) Output) : Orchestrator :=
  { o with hub := { o.hub with outputs := t } }

/-- Takes the events from the channel. -/
def taken : Orchestrator :=
  { o with hub := { o.hub with channel := { o.hub.channel with events := [] } } }

/-- Events are handled the same way whatever outputs the hub holds. -/
theorem handleAll_withOutputs (t : Table (Worker × TaskId) Output) (events : List Event) :
    (o.withOutputs t).handleAll events = (o.handleAll events).withOutputs t := by
  have hwith (o : Orchestrator) :
      o.withOutputs t = o.amid { o.surroundings with outputs := t } [] := by
    simp [withOutputs, amid, surroundings]
  have hrest : ({ o.surroundings with outputs := t } : Surroundings).handleAll events =
      { o.surroundings.handleAll events with outputs := t } := by
    generalize o.surroundings = x
    induction events generalizing x with
    | nil => rfl
    | cons e events ih =>
        have hrest := ih (x.handle e)
        cases e <;> exact hrest
  rw [hwith, hwith, handleAll_amid, surroundings_handleAll, hrest]

theorem handleAll_append (a b : List Event) : o.handleAll (a ++ b) = (o.handleAll a).handleAll b :=
  List.foldl_append

theorem hub_parts_drain : o.drain.hub.outputs = o.hub.outputs ∧ o.drain.hub.channel =
    { o.hub.channel with events := [] } := by
  have h := o.taken.surroundings_handleAll o.hub.channel.events
  rw [Surroundings.handleAll_eq] at h
  exact ⟨congrArg Surroundings.outputs h, congrArg Surroundings.channel h⟩

theorem taken_of_empty {o : Orchestrator} (h : o.hub.channel.events = []) : o.taken = o := by
  unfold taken
  rw [← h]

theorem drain_receiveAll (ds : List Delivery) :
    (o.receiveAll ds).drain = (o.taken.withOutputs (ds.foldl Delivery.put o.hub.outputs)).handleAll
      (o.hub.channel.events ++ ds.map Delivery.event) := by
  unfold drain receiveAll
  rw [Hub.foldl_receive]
  rfl

/-- **What is handled before** deliveries need not be handled before them. -/
theorem drain_receiveAll_drain (ds : List Delivery) :
    (o.drain.receiveAll ds).drain = (o.receiveAll ds).drain := by
  obtain ⟨houtputs, hchannel⟩ := o.hub_parts_drain
  have hevents : o.drain.hub.channel.events = [] := congrArg Channel.events hchannel
  rw [drain_receiveAll, drain_receiveAll, taken_of_empty hevents, houtputs, hevents, List.nil_append,
    handleAll_append, o.taken.handleAll_withOutputs]
  rfl

end Orchestrator

namespace Session

variable {s : Session} {ds es : List Delivery}

/-! ## Sessions that go on -/

/-- The event loop is not finished, and the channel is open. -/
structure Live (s : Session) : Prop where
  loop : s.loop ≠ .finished
  channel : s.orchestrator.hub.channel.closed = false

theorem Live.of_eq (h : s.Live) {t : Session} (hloop : t.loop = s.loop)
    (hchannel : t.orchestrator.hub.channel.closed = s.orchestrator.hub.channel.closed) : t.Live :=
  ⟨by rw [hloop]; exact h.loop, by rw [hchannel]; exact h.channel⟩

theorem loop_pollWaiter (s : Session) (w : Waiter) : (s.pollWaiter w).2.loop = s.loop := by
  unfold pollWaiter
  split
  · split <;> rfl
  · rfl

theorem loop_advanceWaiter (s : Session) (name : String) (w : Waiter) :
    (s.advanceWaiter name w).2.loop = s.loop := by
  have h := s.loop_pollWaiter w
  unfold advanceWaiter
  generalize s.pollWaiter w = polled at h
  obtain ⟨state, t⟩ := polled
  cases state <;> exact h

theorem loop_spawn (s : Session) (name : String) (worker : Worker) :
    (s.spawn name worker).2.loop = s.loop := by
  unfold spawn
  dsimp only
  split
  · rfl
  · exact loop_advanceWaiter { s with waiters := s.waiters.erase name } name _

theorem loop_poll (s : Session) (name : String) : (s.poll name).2.loop = s.loop := by
  unfold poll
  split
  · rfl
  · exact s.loop_advanceWaiter name _

theorem loop_wait (s : Session) (worker : Worker) (t : TaskId) :
    (s.wait worker t).2.loop = s.loop := by
  have h := s.loop_pollWaiter (s.newWaiter worker t)
  unfold wait
  generalize s.pollWaiter (s.newWaiter worker t) = polled at h
  obtain ⟨state, s'⟩ := polled
  cases state with
  | arrived => exact h
  | timedOut => exact h
  | pending w =>
      dsimp only
      split <;> exact h

theorem loop_result (s : Session) (t? : Option TaskId) (worker : Worker) :
    (s.result t? worker).2.loop = s.loop := by
  unfold result
  split
  · rfl
  · split
    · rfl
    · rename_i t _
      have h := s.loop_wait worker t
      split <;> rename_i heq <;> rw [heq] at h <;> exact h

/-! ### Deliveries -/

def receiveAll (s : Session) (ds : List Delivery) : Session :=
  s.withOrchestrator (s.orchestrator.receiveAll ds)

theorem Live.receiveAll (h : s.Live) (ds : List Delivery) : (s.receiveAll ds).Live := by
  refine h.of_eq rfl ?_
  show (ds.foldl Hub.receive s.orchestrator.hub).channel.closed = _
  rw [Hub.foldl_receive]

/-- On an open channel every delivery succeeds. -/
theorem Live.apply_delivery (h : s.Live) (d : Delivery) :
    s.apply d.command = (.done, s.receiveAll [d]) := by
  cases d with
  | output w o =>
      unfold apply Delivery.command deliver
      dsimp only
      rw [Hub.deliver_of_open h.channel]
      rfl
  | status w v =>
      unfold apply Delivery.command reportStatus
      dsimp only
      rw [Hub.reportStatus_of_open h.channel]
      rfl

theorem Live.run_deliveries (h : s.Live) (ds : List Delivery) :
    s.run (ds.map Delivery.command) = s.receiveAll ds := by
  induction ds generalizing s with
  | nil => rfl
  | cons d ds ih =>
      show (s.apply d.command).2.run (ds.map Delivery.command) = _
      rw [h.apply_delivery d]
      exact ih (h.receiveAll [d])

/-! ### Pumping -/

/-- The orchestrator when the loop has been started. -/
theorem start_receiveAll (s : Session) (ds : List Delivery) :
    (s.receiveAll ds).start = s.start.receiveAll ds := by
  have hloop : (s.receiveAll ds).loop = s.loop := rfl
  unfold start
  rw [hloop]
  cases s.loop <;> rfl

theorem Live.loop_start (h : s.Live) : s.start.loop = .running := by
  unfold start
  cases hloop : s.loop with
  | idle => rfl
  | running => exact hloop
  | finished => exact absurd hloop h.loop

theorem start_of_running (h : s.loop = .running) : s.start = s := by
  unfold start
  rw [h]

theorem Live.pump_eq (h : s.Live) :
    s.pump = s.start.withOrchestrator s.start.orchestrator.drain := by
  unfold pump
  cases hloop : s.loop with
  | finished => exact absurd hloop h.loop
  | _ => rfl

theorem Live.loop_pump (h : s.Live) : s.pump.loop = .running := by
  rw [h.pump_eq]
  exact h.loop_start

theorem Live.pump (h : s.Live) : s.pump.Live := by
  refine ⟨by rw [h.loop_pump]; exact nofun, ?_⟩
  rw [h.pump_eq]
  show s.start.orchestrator.drain.hub.channel.closed = false
  rw [(s.start.orchestrator.hub_parts_drain).2]
  have hchannel := h.channel
  unfold start
  cases s.loop <;> exact hchannel

/-- **A pump before deliveries** makes no difference if there is one behind them. -/
theorem Live.pump_receiveAll_pump (h : s.Live) (ds : List Delivery) :
    (s.pump.receiveAll ds).pump = (s.receiveAll ds).pump := by
  have hrunning : (s.pump.receiveAll ds).loop = .running := h.loop_pump
  rw [(h.pump.receiveAll ds).pump_eq, start_of_running hrunning, (h.receiveAll ds).pump_eq,
    start_receiveAll, h.pump_eq]
  show s.start.withOrchestrator (s.start.orchestrator.drain.receiveAll ds).drain = _
  rw [Orchestrator.drain_receiveAll_drain]
  rfl

/-! ### Every other command -/

/-- **A live session** stays so until it is stopped. -/
theorem Live.apply (h : s.Live) {c : Command} (hc : c ≠ .stop) : (s.apply c).2.Live := by
  have hhandled (o : Orchestrator) (events : List Event) :
      (o.handleAll events).hub.channel = o.hub.channel := by
    have hsurroundings := o.surroundings_handleAll events
    rw [Surroundings.handleAll_eq] at hsurroundings
    exact congrArg Surroundings.channel hsurroundings
  have hwaited {t : Session} (hloop : t.loop = s.loop)
      (hhub : t.orchestrator.hub = s.orchestrator.hub) : t.Live :=
    h.of_eq hloop (by rw [hhub])
  have hasked {text : String} (hc : c.asked? = some text) : (s.apply c).2.Live := by
    have hrest := s.unasked_apply_of_asked hc
    have hloop : (s.apply c).2.unasked.loop = s.unasked.loop := by rw [hrest]
    have hchannel : (s.apply c).2.unasked.orchestrator.hub.channel =
        s.unasked.orchestrator.hub.channel := by rw [hrest]
    exact h.of_eq hloop (congrArg Channel.closed hchannel)
  cases c with
  | stop => exact absurd rfl hc
  | request text => exact hasked rfl
  | configRequest text => exact hasked rfl
  | deliver w o =>
      show (s.apply (Delivery.output w o).command).2.Live
      rw [h.apply_delivery]
      exact h.receiveAll _
  | deliverStatus w v =>
      show (s.apply (Delivery.status w v).command).2.Live
      rw [h.apply_delivery]
      exact h.receiveAll _
  | pump => exact h.pump
  | submit input =>
      have hsurroundings := s.orchestrator.surroundings_submit input
      exact h.of_eq rfl (congrArg (fun x => x.channel.closed) hsurroundings)
  | runEvents events =>
      exact h.of_eq rfl (congrArg Channel.closed
        (hhandled (s.orchestrator.note .loopStarted) events))
  | handle e => exact h.of_eq rfl (congrArg Channel.closed (hhandled s.orchestrator [e]))
  | register t w =>
      exact h.of_eq rfl (congrArg (fun h => h.channel.closed)
        (Orchestrator.hub_registerResult t w))
  | result t? w => exact hwaited (s.loop_result t? w) (s.hub_result t? w)
  | wait t w => exact hwaited (s.loop_wait w t) (s.hub_wait w t)
  | spawn name w => exact hwaited (s.loop_spawn name w) (s.hub_spawn name w)
  | poll name =>
      have hpolled := hwaited (s.loop_poll name) (s.hub_poll name)
      unfold Session.apply
      dsimp only
      split <;> rename_i heq <;> rw [heq] at hpolled <;> exact hpolled
  | allocateIteration base =>
      rcases s.apply_allocateIteration base with heq | ⟨t, -, heq⟩
      · rw [heq]
        exact h
      · rw [heq]
        exact h.of_eq rfl rfl
  | publish t u =>
      unfold Session.apply Hub.publish
      dsimp only
      cases s.orchestrator.hub.rejecting with
      | true => exact h
      | false => exact h.of_eq rfl rfl
  | allocateTask | elapse | reject => exact h.of_eq rfl rfl
  | available | record | status | requests | published | publishedInput | fetch => exact h

theorem Live.run (h : s.Live) {commands : List Command} (hstop : .stop ∉ commands) :
    (s.run commands).Live := by
  induction commands generalizing s with
  | nil => exact h
  | cons c commands ih =>
      obtain ⟨hc, hstop⟩ := not_or.mp (fun hmem => hstop (List.mem_cons.mpr hmem))
      exact ih (h.apply (Ne.symm hc)) hstop

/-! ## Schedules -/

/-- All deliveries, and the loop is pumped once. -/
def batch (ds : List Delivery) : List Command := ds.map Delivery.command ++ [.pump]

/-- The loop is pumped after every delivery. -/
def oneByOne (ds : List Delivery) : List Command := ds.flatMap fun d => [d.command, .pump]

theorem Live.run_batch (h : s.Live) (ds : List Delivery) :
    s.run (batch ds) = (s.receiveAll ds).pump := by
  rw [batch, run_append, h.run_deliveries]
  rfl

/-- It makes no difference when the loop is pumped, if it is pumped at the end. -/
theorem Live.run_oneByOne (h : s.Live) (hds : ds ≠ []) :
    s.run (oneByOne ds) = s.run (batch ds) := by
  induction ds generalizing s with
  | nil => exact absurd rfl hds
  | cons d ds ih =>
      have hfirst : s.run (oneByOne (d :: ds)) = (s.receiveAll [d]).pump.run (oneByOne ds) := by
        show (s.apply d.command).2.pump.run (oneByOne ds) = _
        rw [h.apply_delivery]
      have hlive := h.receiveAll [d]
      rw [hfirst, h.run_batch]
      cases ds with
      | nil => rfl
      | cons d' ds =>
          rw [ih hlive.pump (List.cons_ne_nil _ _), hlive.pump.run_batch,
            hlive.pump_receiveAll_pump]
          rfl

/-- Without a delivery the loop handles what is on the channel, if anything. -/
theorem Live.run_batch_nil (h : s.Live) (hempty : s.orchestrator.hub.channel.events = []) :
    (s.run (batch [])).orchestrator.unlogged = s.orchestrator.unlogged := by
  have hpump : s.run (batch []) = s.start.withOrchestrator s.start.orchestrator.drain := h.pump_eq
  have hstart : s.start.orchestrator.unlogged = s.orchestrator.unlogged := by
    unfold start
    cases s.loop <;> rfl
  have hevents : s.start.orchestrator.hub.channel.events = [] :=
    (congrArg (fun o => o.hub.channel.events) hstart).trans hempty
  have hdrain : s.start.orchestrator.drain = s.start.orchestrator := by
    show s.start.orchestrator.taken.handleAll s.start.orchestrator.hub.channel.events = _
    rw [hevents, Orchestrator.taken_of_empty hevents]
    rfl
  rw [hpump, hdrain]
  exact hstart

/-- **The order of deliveries** matters within each source only. -/
theorem Live.run_batch_of_sameOrder (h : s.Live) (horder : Delivery.SameOrder ds es) :
    (s.run (batch ds)).orchestrator.unlogged = (s.run (batch es)).orchestrator.unlogged := by
  have hrun (ds : List Delivery) : (s.run (batch ds)).orchestrator =
      (s.start.orchestrator.receiveAll ds).drain := by
    rw [h.run_batch, (h.receiveAll ds).pump_eq, start_receiveAll]
    rfl
  rw [hrun, hrun, Orchestrator.drain_receiveAll, Orchestrator.drain_receiveAll, horder.foldl_put]
  exact Orchestrator.unlogged_handleAll rfl (horder.filter_event _)

theorem Live.run_oneByOne_of_sameOrder (h : s.Live) (horder : Delivery.SameOrder ds es) :
    (s.run (oneByOne ds)).orchestrator.unlogged =
      (s.run (oneByOne es)).orchestrator.unlogged := by
  by_cases hds : ds = []
  · rw [hds, horder.eq_nil_iff.mp hds]
  · rw [h.run_oneByOne hds, h.run_oneByOne (mt horder.eq_nil_iff.mpr hds)]
    exact h.run_batch_of_sameOrder horder

/-! ## Events that are run separately -/

theorem run_handle (s : Session) (events : List Event) :
    s.run (events.map .handle) = s.withOrchestrator (s.orchestrator.handleAll events) := by
  induction events generalizing s with
  | nil => rfl
  | cons e events ih => exact ih (s.withOrchestrator (s.orchestrator.handle e))

/-- A separate run does what handling the events one by one does, whatever becomes of the chains. -/
theorem unlogged_runEvents (s : Session) (events : List Event) :
    (s.runEvents events).orchestrator.unlogged =
      (s.run (events.map .handle)).orchestrator.unlogged := by
  rw [run_handle]
  exact Orchestrator.unlogged_handleAll (o := s.orchestrator.note .loopStarted) rfl fun _ => rfl

/-! ## Runs -/

/-- **Batching does not matter.** In a session that was not stopped, deliveries come to the same
whether the loop is pumped after each of them or once behind them; without any delivery they do if
nothing is left to handle. In another order that keeps the order of the outputs and the order of the
statuses of each worker they come to the same apart from the journal. Events that are run separately
come to an end, and to the same as handling them one by one, again apart from the journal. -/
theorem batching (settings : Settings) (hub : Hub) (hopen : hub.channel.closed = false)
    (commands : List Command) (hstop : .stop ∉ commands) :
    let s := (new settings hub).run commands
    (∀ ds, ds ≠ [] → s.run (oneByOne ds) = s.run (batch ds)) ∧
      (s.orchestrator.hub.channel.events = [] →
        (s.run (oneByOne [])).orchestrator.unlogged = (s.run (batch [])).orchestrator.unlogged) ∧
      (∀ ds es, Delivery.SameOrder ds es →
        (s.run (batch ds)).orchestrator.unlogged = (s.run (batch es)).orchestrator.unlogged ∧
          (s.run (oneByOne ds)).orchestrator.unlogged =
            (s.run (oneByOne es)).orchestrator.unlogged) ∧
      ∀ events, (s.apply (.runEvents events)).1 = .closed ∧
        (s.apply (.runEvents events)).2.orchestrator.unlogged =
          (s.run (events.map .handle)).orchestrator.unlogged := by
  intro s
  have hnew : (new settings hub).Live := ⟨nofun, hopen⟩
  have hlive : s.Live := hnew.run hstop
  refine ⟨fun ds hds => hlive.run_oneByOne hds, fun hempty => (hlive.run_batch_nil hempty).symm,
    fun ds es horder => ?_, fun events => ⟨rfl, s.unlogged_runEvents events⟩⟩
  exact ⟨hlive.run_batch_of_sameOrder horder, hlive.run_oneByOne_of_sameOrder horder⟩

/-- A carbon footprint that continues the chain of the first task, between two statuses. -/
def interleaved : List Delivery :=
  [.status .carbonFootprint .running,
    .output .carbonFootprint (.carbonFootprint {
      task := some ⟨1, 0⟩
      extraData := Extra.encode { numOutputs := some 2 } }),
    .status .carbonFootprint .idle]

/-- The next task is published whether the loop is pumped three times or once. -/
theorem batching_interleaved :
    let s := (new {} {}).run [.submit { brief := { shortDescription := "count the cells" } }]
    s.run (oneByOne interleaved) = s.run (batch interleaved) ∧
      (s.run (batch interleaved)).orchestrator.hub.published = [⟨1, 0⟩, ⟨1, 1⟩] := by
  intro s
  have hsame := (batching {} {} rfl
    [.submit { brief := { shortDescription := "count the cells" } }] (by simp)).1
  exact ⟨hsame interleaved (List.cons_ne_nil _ _), by decide +kernel⟩

/-- Where something is left to handle, to deliver nothing and to pump once is not the same as to
deliver nothing and not to pump at all. -/
theorem batching_of_nothing :
    let s := (new {} {}).run [.deliver .hwProvider (.hwResource { task := some ⟨1, 0⟩ })]
    (s.run (oneByOne [])).orchestrator.ledger ≠ (s.run (batch [])).orchestrator.ledger := by
  intro s h
  have havailable : (s.run (oneByOne [])).orchestrator.ledger.available ⟨1, 0⟩ .hwProvider =
      (s.run (batch [])).orchestrator.ledger.available ⟨1, 0⟩ .hwProvider := by rw [h]
  revert havailable
  decide +kernel

end Session

end WorkerPipeline
