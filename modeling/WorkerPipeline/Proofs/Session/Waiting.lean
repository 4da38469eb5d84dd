import WorkerPipeline.Proofs.Orchestrator.Fetching
import WorkerPipeline.Proofs.Session.History

set_option autoImplicit false

/-! # Waiters miss nothing

A waiter looks at the ledger only if something was registered since it looked last. It misses
nothing by that: what was registered up to its last look did not contain its result
(`HasMissedNothing`). So every poll is answered according to the list of all registrations and to
the clock (`poll_answers`), however much was registered, submitted and waited for meanwhile.
-/

namespace WorkerPipeline

/-- The result was not among the registrations that the waiter has seen. -/
def Waiter.HasMissedNothing (w : Waiter) (history : List (TaskId × Worker)) : Prop :=
  ∀ n, w.seen = some n → n ≤ history.length ∧ (w.task, w.worker) ∉ history.take n

/-- More registrations do not change what was seen. -/
theorem Waiter.HasMissedNothing.append {w : Waiter} {history : List (TaskId × Worker)}
    (h : w.HasMissedNothing history) (more : List (TaskId × Worker)) :
    w.HasMissedNothing (history ++ more) := by
  intro n hn
  obtain ⟨hle, hnot⟩ := h n hn
  rw [List.length_append, List.take_append_of_le_length hle]
  exact ⟨Nat.le_add_right_of_le hle, hnot⟩

namespace Session

/-- The registrations of a history are counted and none of them is forgotten. -/
structure KeepsAll (s : Session) (history : List (TaskId × Worker)) : Prop where
  count : s.orchestrator.registrations = history.length
  available_iff : ∀ t w, s.orchestrator.ledger.available t w = true ↔
    w.isTracked = true ∧ (t, w) ∈ history

theorem keepsAll_run {settings : Settings} (h : settings.retention = none) (hub : Hub)
    (commands : List Command) :
    ((new settings hub).run commands).KeepsAll ((new settings hub).registered commands) where
  count := registrations_run settings hub commands
  available_iff := available_run_iff hub commands h

/-! ## Answers -/

/-- What a waiter is told: the outcome of fetching the result if the result has arrived, otherwise
that the time is up if it is, otherwise nothing. What is fetched is told by the output that the hub
has. -/
structure Answers (s : Session) (t : TaskId) (w : Worker) (arrived expired : Prop)
    (answer : Answer) : Prop where
  fetched : answer = some (s.fetchResult t w) ↔ arrived
  stored : arrived → ∃ outcome, answer = some outcome ∧
    Fetches (s.orchestrator.hub.fetch w t) w t outcome
  timedOut : answer = some (.error (.waitTimedOut w t)) ↔ ¬ arrived ∧ expired
  pending : answer = none ↔ ¬ arrived ∧ ¬ expired

/-- Fetching a result never ends as a wait may end. -/
theorem fetchResult_ne_waitTimedOut (s : Session) (t : TaskId) (w : Worker) :
    s.fetchResult t w ≠ .error (.waitTimedOut w t) := by
  unfold fetchResult Orchestrator.fetchResult
  split
  · exact nofun
  · split <;> exact nofun

section

variable {s : Session} {t : TaskId} {w : Worker} {arrived expired : Prop} {answer : Answer}

/-- Who waits for a result that has arrived is shown the output that the hub has. -/
theorem Answers.shown (h : s.Answers t w arrived expired answer) (harrived : arrived)
    {o : Output} (ho : s.orchestrator.hub.fetch w t = some o) {e : Extra} (he : o.extra = .ok e) :
    ∃ m, answer = some (.ok ⟨w, t, .obj m⟩) ∧ o.Shows e m := by
  obtain ⟨outcome, hanswer, hfetches⟩ := h.stored harrived
  obtain ⟨m, houtcome, -, hshows⟩ := hfetches.shown o e ho he
  exact ⟨m, hanswer.trans (congrArg some houtcome), hshows⟩

theorem answers_fetchResult (s : Session) (h : arrived) :
    s.Answers t w arrived expired (some (s.fetchResult t w)) where
  fetched := iff_of_true rfl h
  stored _ := ⟨_, rfl, s.orchestrator.fetches_fetchResult t w⟩
  timedOut :=
    iff_of_false (fun heq => s.fetchResult_ne_waitTimedOut t w (Option.some.inj heq))
      fun hmissing => hmissing.1 h
  pending := iff_of_false nofun fun hmissing => hmissing.1 h

theorem answers_waitTimedOut (s : Session) (h : ¬ arrived) (hexpired : expired) :
    s.Answers t w arrived expired (some (.error (.waitTimedOut w t))) where
  fetched :=
    iff_of_false (fun heq => s.fetchResult_ne_waitTimedOut t w (Option.some.inj heq).symm) h
  stored harrived := absurd harrived h
  timedOut := iff_of_true rfl ⟨h, hexpired⟩
  pending := iff_of_false nofun fun hwaits => hwaits.2 hexpired

theorem answers_none (s : Session) (h : ¬ arrived) (hexpired : ¬ expired) :
    s.Answers t w arrived expired none where
  fetched := iff_of_false nofun h
  stored harrived := absurd harrived h
  timedOut := iff_of_false nofun fun hends => hexpired hends.2
  pending := iff_of_true rfl ⟨h, hexpired⟩

end

/-- The time of a waiter is up when the bound on a wait has passed since its start. -/
theorem isExpired_iff (s : Session) (w : Waiter) :
    s.isExpired w = true ↔ ∃ limit, s.orchestrator.settings.timeout = some limit ∧
      w.start + limit ≤ s.clock := by
  unfold isExpired deadline?
  cases s.orchestrator.settings.timeout with
  | none => exact ⟨nofun, fun ⟨_, h, _⟩ => nomatch h⟩
  | some limit => simp

/-! ## One look at the ledger -/

theorem waiters_pollWaiter (s : Session) (w : Waiter) : (s.pollWaiter w).2.waiters = s.waiters := by
  unfold pollWaiter
  split
  · split <;> rfl
  · rfl

section

variable {s : Session} {w : Waiter} {history : List (TaskId × Worker)}

theorem pollWaiter_of_available (hnews : s.hasNews w = true)
    (h : s.orchestrator.ledger.available w.task w.worker = true) :
    s.pollWaiter w = (.arrived, s) := by
  unfold pollWaiter
  rw [if_pos hnews, if_pos h]

/-- A waiter that does not find its result has seen all registrations afterwards. -/
theorem pollWaiter_of_missing (h : s.orchestrator.ledger.available w.task w.worker = false) :
    (s.pollWaiter w).1 =
      s.unanswered { w with seen := some s.orchestrator.registrations } := by
  unfold pollWaiter
  by_cases hnews : s.hasNews w = true
  · rw [if_pos hnews, if_neg (by rw [h]; exact Bool.false_ne_true)]
  · have hseen : w.seen = some s.orchestrator.registrations := by
      simpa [hasNews] using hnews
    rw [if_neg hnews, ← hseen]

variable (hs : s.KeepsAll history) (hw : w.HasMissedNothing history)
  (htracked : w.worker.isTracked = true)

include hs hw

/-- A waiter whose result was registered has news. -/
theorem hasNews_of_mem (h : (w.task, w.worker) ∈ history) : s.hasNews w = true := by
  refine decide_eq_true fun hseen => ?_
  have hnot := (hw _ hseen).2
  rw [hs.count, List.take_length] at hnot
  exact hnot h

include htracked

/-- What becomes of a waiter that is polled. -/
theorem advanceWaiter_cases (name : String) :
    ((w.task, w.worker) ∈ history ∧
      (s.advanceWaiter name w).1 = some (s.fetchResult w.task w.worker) ∧
      (s.advanceWaiter name w).2.waiters = s.waiters.erase name) ∨
    ((w.task, w.worker) ∉ history ∧ s.isExpired w = true ∧
      (s.advanceWaiter name w).1 = some (.error (.waitTimedOut w.worker w.task)) ∧
      (s.advanceWaiter name w).2.waiters = s.waiters.erase name) ∨
    ((w.task, w.worker) ∉ history ∧ s.isExpired w = false ∧ (s.advanceWaiter name w).1 = none ∧
      (s.advanceWaiter name w).2.waiters =
        s.waiters.insert name { w with seen := some s.orchestrator.registrations }) := by
  have hwaiters := s.waiters_pollWaiter w
  have hledger := hs.available_iff w.task w.worker
  unfold advanceWaiter
  -- the result counts first, the time only where there is none
  by_cases harrived : (w.task, w.worker) ∈ history
  · have hnews := hasNews_of_mem hs hw harrived
    rw [pollWaiter_of_available hnews (hledger.mpr ⟨htracked, harrived⟩)]
    exact .inl ⟨harrived, rfl, rfl⟩
  · have hmissing : s.orchestrator.ledger.available w.task w.worker = false := by
      rw [← Bool.not_eq_true, hledger]
      exact fun h => harrived h.2
    have hstate := pollWaiter_of_missing hmissing
    generalize s.pollWaiter w = polled at hwaiters hstate ⊢
    obtain ⟨state, s'⟩ := polled
    dsimp only at hwaiters hstate
    cases hexpired : s.isExpired w with
    | true =>
        have htimedOut : state = .timedOut := hstate.trans (if_pos hexpired)
        subst htimedOut
        exact .inr (.inl ⟨harrived, rfl, rfl, congrArg (Table.erase · name) hwaiters⟩)
    | false =>
        have hpending : state = .pending { w with seen := some s.orchestrator.registrations } :=
          hstate.trans (if_neg (by rw [← Bool.not_eq_true] at hexpired; exact hexpired))
        subst hpending
        exact .inr (.inr ⟨harrived, rfl, rfl, congrArg (Table.insert · name _) hwaiters⟩)

theorem answers_advanceWaiter (name : String) :
    s.Answers w.task w.worker ((w.task, w.worker) ∈ history) (s.isExpired w = true)
      (s.advanceWaiter name w).1 := by
  rcases advanceWaiter_cases hs hw htracked name with
    ⟨harrived, hanswer, -⟩ | ⟨hmissing, hexpired, hanswer, -⟩ | ⟨hmissing, hexpired, hanswer, -⟩
  · rw [hanswer]
    exact s.answers_fetchResult harrived
  · rw [hanswer]
    exact s.answers_waitTimedOut hmissing hexpired
  · rw [hanswer]
    exact s.answers_none hmissing (by rw [hexpired]; exact Bool.false_ne_true)

/-- Nobody is told anything without having been woken. -/
theorem isWoken_of_answer (name : String) (h : (s.advanceWaiter name w).1 ≠ none) :
    s.isWoken w = true := by
  unfold isWoken
  rw [Bool.or_eq_true]
  rcases advanceWaiter_cases hs hw htracked name with
    ⟨harrived, -⟩ | ⟨-, hexpired, -⟩ | ⟨-, -, hanswer, -⟩
  · exact .inl (hasNews_of_mem hs hw harrived)
  · exact .inr hexpired
  · exact absurd hanswer h

/-- A waiter that is told something is gone. -/
theorem get?_waiters_of_answer (name : String) :
    ((s.advanceWaiter name w).2.waiters.get? name).isSome ↔ (s.advanceWaiter name w).1 = none := by
  rcases advanceWaiter_cases hs hw htracked name with
    ⟨-, hanswer, hwaiters⟩ | ⟨-, -, hanswer, hwaiters⟩ | ⟨-, -, hanswer, hwaiters⟩
  · simp [hanswer, hwaiters]
  · simp [hanswer, hwaiters]
  · simp [hanswer, hwaiters]

end

/-! ## The waiter of a name -/

/-- If there is a waiter of the name, it waits for that result from that time on, and it has missed
nothing. -/
def Awaits (s : Session) (name : String) (t : TaskId) (w : Worker) (start : Nat)
    (history : List (TaskId × Worker)) : Prop :=
  ∀ v, s.waiters.get? name = some v →
    v.task = t ∧ v.worker = w ∧ v.start = start ∧ v.HasMissedNothing history

section

variable {s : Session} {name : String} {t : TaskId} {w : Worker} {start : Nat}
  {history : List (TaskId × Worker)}

theorem Awaits.of_get? {s' : Session} (h : s.Awaits name t w start history)
    (heq : s'.waiters.get? name = s.waiters.get? name) (more : List (TaskId × Worker)) :
    s'.Awaits name t w start (history ++ more) := by
  intro v hv
  obtain ⟨ht, hw, hstart, hmissed⟩ := h v (heq ▸ hv)
  exact ⟨ht, hw, hstart, hmissed.append more⟩

/-- A poll leaves the waiter behind that it has polled. -/
theorem awaits_advanceWaiter (hs : s.KeepsAll history) {v : Waiter}
    (hv : v.HasMissedNothing history) (htracked : v.worker.isTracked = true) :
    (s.advanceWaiter name v).2.Awaits name v.task v.worker v.start history := by
  intro u hu
  rcases advanceWaiter_cases hs hv htracked name with
    ⟨-, -, hwaiters⟩ | ⟨-, -, -, hwaiters⟩ | ⟨hmissing, -, -, hwaiters⟩
  · rw [hwaiters, Table.get?_erase_self] at hu
    cases hu
  · rw [hwaiters, Table.get?_erase_self] at hu
    cases hu
  · rw [hwaiters, Table.get?_insert_self] at hu
    cases hu
    refine ⟨rfl, rfl, rfl, fun n hn => ?_⟩
    cases hn
    rw [hs.count, List.take_length]
    exact ⟨Nat.le_refl _, hmissing⟩

theorem get?_waiters_advanceWaiter_of_ne {other : String} (h : other ≠ name) (s : Session)
    (v : Waiter) : (s.advanceWaiter other v).2.waiters.get? name = s.waiters.get? name := by
  have hwaiters := s.waiters_pollWaiter v
  unfold advanceWaiter
  generalize s.pollWaiter v = polled at hwaiters
  obtain ⟨state, s'⟩ := polled
  dsimp only at hwaiters
  cases state with
  | arrived => exact (Table.get?_erase_of_ne (Ne.symm h)).trans (by rw [hwaiters])
  | timedOut => exact (Table.get?_erase_of_ne (Ne.symm h)).trans (by rw [hwaiters])
  | pending u => exact (Table.get?_insert_of_ne h).trans (by rw [hwaiters])

theorem get?_waiters_spawn_of_ne {other : String} (h : other ≠ name) (s : Session) (v : Worker) :
    (s.spawn other v).2.waiters.get? name = s.waiters.get? name := by
  unfold spawn
  dsimp only
  split
  · exact Table.get?_erase_of_ne (Ne.symm h)
  · rw [get?_waiters_advanceWaiter_of_ne h]
    exact Table.get?_erase_of_ne (Ne.symm h)

theorem get?_waiters_poll_of_ne {other : String} (h : other ≠ name) (s : Session) :
    (s.poll other).2.waiters.get? name = s.waiters.get? name := by
  unfold poll
  split
  · rfl
  · exact get?_waiters_advanceWaiter_of_ne h s _

theorem waiters_wait (s : Session) (v : Worker) (u : TaskId) :
    (s.wait v u).2.waiters = s.waiters := by
  have hwaiters := s.waiters_pollWaiter (s.newWaiter v u)
  unfold wait
  generalize s.pollWaiter (s.newWaiter v u) = polled at hwaiters
  obtain ⟨state, s'⟩ := polled
  cases state with
  | arrived => exact hwaiters
  | timedOut => exact hwaiters
  | pending w =>
      dsimp only
      split <;> exact hwaiters

theorem waiters_result (s : Session) (u : Option TaskId) (v : Worker) :
    (s.result u v).2.waiters = s.waiters := by
  unfold result
  split
  · rfl
  · split
    · rfl
    · rename_i u _
      have hwaiters := s.waiters_wait v u
      split <;> rename_i heq <;> rw [heq] at hwaiters <;> exact hwaiters

theorem waiters_pump (s : Session) : s.pump.waiters = s.waiters := by
  unfold pump start
  cases s.loop <;> rfl

theorem waiters_stop (s : Session) : s.stop.waiters = s.waiters := by
  have hpump := s.waiters_pump
  unfold stop
  split
  · rfl
  · exact hpump

/-- Only to start a waiter under a name and to poll it concerns the waiter of the name. -/
theorem get?_waiters_apply (s : Session) {c : Command} (hspawn : ∀ v, c ≠ .spawn name v)
    (hpoll : c ≠ .poll name) : (s.apply c).2.waiters.get? name = s.waiters.get? name := by
  cases c with
  | spawn other v =>
      have hne : other ≠ name := fun heq => hspawn v (by rw [heq])
      exact get?_waiters_spawn_of_ne hne s v
  | poll other =>
      have hne : other ≠ name := fun heq => hpoll (by rw [heq])
      have h := get?_waiters_poll_of_ne hne s
      unfold apply
      dsimp only
      split <;> rename_i heq <;> rw [heq] at h <;> exact h
  | result u v => exact congrArg (Table.get? · name) (s.waiters_result u v)
  | wait u v => exact congrArg (Table.get? · name) (s.waiters_wait v u)
  | pump => exact congrArg (Table.get? · name) s.waiters_pump
  | stop => exact congrArg (Table.get? · name) s.waiters_stop
  | deliverStatus v status =>
      unfold apply reportStatus
      dsimp only
      split <;> rfl
  | allocateIteration base =>
      unfold apply
      dsimp only
      split <;> rfl
  | publish u input =>
      unfold apply
      dsimp only
      split <;> rfl
  | _ => rfl

/-- No command but another start under its name takes the waiter away from its task. -/
theorem Awaits.apply (h : s.Awaits name t w start history) (hs : s.KeepsAll history)
    (htracked : w.isTracked = true) {c : Command} (hspawn : ∀ v, c ≠ .spawn name v) :
    (s.apply c).2.Awaits name t w start (history ++ s.registeredBy c) := by
  by_cases hpoll : c = .poll name
  · subst hpoll
    unfold Session.apply poll
    dsimp only
    cases hv : s.waiters.get? name with
    | none => exact h.of_get? rfl _
    | some v =>
        obtain ⟨rfl, rfl, rfl, hmissed⟩ := h v hv
        exact (awaits_advanceWaiter hs hmissed htracked).of_get? rfl _
  · exact h.of_get? (get?_waiters_apply s hspawn hpoll) _

/-- To start a waiter is to poll a new one that waits for the latest task. -/
theorem spawn_eq (htracked : w.isTracked = true) (hlast : s.orchestrator.ledger.last = some t)
    (name : String) :
    s.spawn name w =
      { s with waiters := s.waiters.erase name }.advanceWaiter name (s.newWaiter w t) := by
  have htask : { s with waiters := s.waiters.erase name }.latestTask w = .ok t := by
    unfold latestTask
    rw [if_pos htracked, hlast]
  unfold spawn
  simp only [htask]
  rfl

/-- A waiter that has not looked yet has missed nothing. -/
theorem hasMissedNothing_newWaiter (s : Session) (w : Worker) (t : TaskId)
    (history : List (TaskId × Worker)) : (s.newWaiter w t).HasMissedNothing history := nofun

theorem awaits_spawn (hs : s.KeepsAll history) (htracked : w.isTracked = true)
    (hlast : s.orchestrator.ledger.last = some t) (name : String) :
    (s.spawn name w).2.Awaits name t w s.clock history := by
  have herased : { s with waiters := s.waiters.erase name }.KeepsAll history :=
    ⟨hs.count, hs.available_iff⟩
  rw [spawn_eq htracked hlast]
  exact awaits_advanceWaiter herased (s.hasMissedNothing_newWaiter w t history) htracked

end

/-! ## Polls in a run -/

/-- The waiter that was started is the one that is there, as long as no other is started under its
name. -/
theorem awaits_run {settings : Settings} (hretention : settings.retention = none) (hub : Hub)
    {before between : List Command} {name : String} {w : Worker} {t : TaskId}
    (htracked : w.isTracked = true)
    (hlast : ((new settings hub).run before).orchestrator.ledger.last = some t)
    (hspawn : ∀ v, .spawn name v ∉ between) :
    ((new settings hub).run (before ++ .spawn name w :: between)).Awaits name t w
      ((new settings hub).run before).clock
      ((new settings hub).registered (before ++ .spawn name w :: between)) := by
  induction between using List.reverseRecOn with
  | nil =>
      have hs := keepsAll_run hretention hub before
      rw [run_append, registered_append]
      exact (awaits_spawn hs htracked hlast name).of_get? rfl _
  | append_singleton between c ih =>
      have hs := keepsAll_run hretention hub (before ++ .spawn name w :: between)
      have hawaits := ih fun v hv => hspawn v (List.mem_append_left _ hv)
      have hc : ∀ v, c ≠ .spawn name v := by
        rintro v rfl
        exact hspawn v (List.mem_append_right _ List.mem_cons_self)
      rw [← List.cons_append, ← List.append_assoc, run_append, registered_append,
        registered_singleton]
      exact hawaits.apply hs htracked hc

/-- **Waiters miss nothing.** A waiter is started while `t` is the latest task, in a session that
remembers all problems. Every poll of it, as long as it is there, is answered with the outcome of
fetching the result of `t` if that result was registered by then in any way, otherwise with a time
out if the time is up, and otherwise the wait goes on. Where the poll is answered, the waiter was
woken for it; where it is not, the waiter stays. -/
theorem poll_answers {settings : Settings} (hretention : settings.retention = none) (hub : Hub)
    {before between : List Command} {name : String} {w : Worker} {t : TaskId}
    (htracked : w.isTracked = true)
    (hlast : ((new settings hub).run before).orchestrator.ledger.last = some t)
    (hspawn : ∀ v, .spawn name v ∉ between)
    (hthere : (((new settings hub).run (before ++ .spawn name w :: between)).waiters.get?
      name).isSome) :
    let commands := before ++ .spawn name w :: between
    let start := ((new settings hub).run before).clock
    let s := (new settings hub).run commands
    ∃ woken answer, (s.poll name).1 = some (woken, answer) ∧
      s.Answers t w ((t, w) ∈ (new settings hub).registered commands)
        (∃ limit, settings.timeout = some limit ∧ start + limit ≤ s.clock) answer ∧
      (answer ≠ none → woken = true) ∧
      (((s.poll name).2.waiters.get? name).isSome ↔ answer = none) := by
  intro commands start s
  have hs : s.KeepsAll ((new settings hub).registered commands) :=
    keepsAll_run hretention hub commands
  obtain ⟨v, hv⟩ := Option.isSome_iff_exists.mp hthere
  obtain ⟨rfl, rfl, hstart, hmissed⟩ := awaits_run hretention hub htracked hlast hspawn v hv
  have hpoll : s.poll name =
      (some (s.isWoken v, (s.advanceWaiter name v).1), (s.advanceWaiter name v).2) := by
    unfold poll
    rw [show s.waiters.get? name = some v from hv]
  have hexpired : s.isExpired v = true ↔
      ∃ limit, settings.timeout = some limit ∧ start + limit ≤ s.clock := by
    rw [isExpired_iff, settings_run, hstart]
  rw [hpoll]
  refine ⟨_, _, rfl, ?_, isWoken_of_answer hs hmissed htracked name,
    get?_waiters_of_answer hs hmissed htracked name⟩
  rw [← hexpired]
  exact answers_advanceWaiter hs hmissed htracked name

/-- While a caller waits for the first problem, the time is up, and a second problem is started and
answered. The result comes at last. -/
def lateResult : List Command :=
  [.elapse 50, .submit { brief := { shortDescription := "name the cells" } },
    .register ⟨2, 0⟩ .hwProvider, .deliver .hwProvider (.hwResource { task := some ⟨1, 0⟩ }), .pump]

/-- The late result counts, although the time is up and another task is the latest: the caller is
handed the output that was delivered. -/
theorem poll_answers_late :
    let before : List Command := [.submit { brief := { shortDescription := "count the cells" } }]
    let s :=
      (new { timeout := some 50 } {}).run (before ++ .spawn "caller" .hwProvider :: lateResult)
    let late : Output := .hwResource { task := some ⟨1, 0⟩ }
    ((new { timeout := some 50 } {}).run before).orchestrator.ledger.last = some ⟨1, 0⟩ ∧
    s.orchestrator.ledger.last = some ⟨2, 0⟩ ∧ s.clock = 50 ∧
    (s.poll "caller").1 = some (true, some (s.fetchResult ⟨1, 0⟩ .hwProvider)) ∧
    ∃ m, (s.poll "caller").1 = some (true, some (.ok ⟨.hwProvider, ⟨1, 0⟩, .obj m⟩)) ∧
      late.Shows {} m ∧
      ("task_id", .obj [("iteration_id", .num (.int 0)), ("problem_id", .num (.int 1))]) ∈ m := by
  intro before s late
  have hlast : ((new { timeout := some 50 } {}).run before).orchestrator.ledger.last =
      some ⟨1, 0⟩ := by decide +kernel
  have hretention : ({ timeout := some 50 } : Settings).retention = none := rfl
  have hthere : (s.waiters.get? "caller").isSome := by decide +kernel
  have hspawn : ∀ v, .spawn "caller" v ∉ lateResult := by
    intro v h
    simp [lateResult] at h
  have hregistered : (⟨1, 0⟩, .hwProvider) ∈ (new { timeout := some 50 } {}).registered
      (before ++ .spawn "caller" .hwProvider :: lateResult) := by decide +kernel
  obtain ⟨woken, answer, hpoll, hanswers, hwoken, -⟩ :=
    poll_answers (w := .hwProvider) hretention {} rfl hlast hspawn hthere
  have hanswer : answer = some (s.fetchResult ⟨1, 0⟩ .hwProvider) :=
    hanswers.fetched.mpr hregistered
  have htrue : woken = true := hwoken (by rw [hanswer]; exact Option.some_ne_none _)
  have hstored : s.orchestrator.hub.fetch .hwProvider ⟨1, 0⟩ = some late := by decide +kernel
  have hextra : late.extra = .ok {} := Output.extra_of_isEmptyBlock (by decide +kernel)
  obtain ⟨m, hm, hshows⟩ := hanswers.shown hregistered hstored hextra
  refine ⟨hlast, by decide +kernel, by decide +kernel, ?_, m, ?_, hshows,
    hshows.mem_of_declared List.mem_cons_self⟩
  · rw [← hanswer, ← htrue]
    exact hpoll
  · rw [← hm, ← htrue]
    exact hpoll

end Session

end WorkerPipeline
