import WorkerPipeline.Proofs.Orchestrator.Effects

set_option autoImplicit false

/-! # What comes of a submission

A submission is turned down before it has a task, or the hub gives it a task and then refuses or
accepts its input. `submits` says for each of the three what the ledger, the hub and the journal
hold afterwards; what follows from a submission is proved from these cases.
-/

namespace WorkerPipeline

namespace Orchestrator

/-! ## What is written into the journal -/

/-- The journal has grown. The new notices name some problems as evicted, and none of them says
that an output was received. -/
def Writes (o o' : Orchestrator) (evicted : List UInt32) : Prop :=
  ∃ notices, o'.journal = notices ++ o.journal ∧ (∀ w t, .outputReceived w t ∉ notices) ∧
    ∀ p ∈ evicted, .problemEvicted p ∈ notices

theorem Writes.of_eq {o o' : Orchestrator} (h : o'.journal = o.journal) : o.Writes o' [] :=
  ⟨[], h, fun _ _ => List.not_mem_nil, fun _ hp => absurd hp List.not_mem_nil⟩

theorem Writes.trans {o o' o'' : Orchestrator} {ps qs : List UInt32} (h : o.Writes o' ps)
    (h' : o'.Writes o'' qs) : o.Writes o'' (ps ++ qs) := by
  obtain ⟨notices, hjournal, hreceived, hevicted⟩ := h
  obtain ⟨notices', hjournal', hreceived', hevicted'⟩ := h'
  refine ⟨notices' ++ notices, ?_, fun w t hmem => ?_, fun p hp => ?_⟩
  · rw [hjournal', hjournal, List.append_assoc]
  · rcases List.mem_append.mp hmem with hmem | hmem
    · exact hreceived' w t hmem
    · exact hreceived w t hmem
  · rw [List.mem_append]
    rcases List.mem_append.mp hp with hp | hp
    · exact .inr (hevicted p hp)
    · exact .inl (hevicted' p hp)

theorem writes_note (o : Orchestrator) {n : Notice} (h : ∀ w t, n ≠ .outputReceived w t) :
    o.Writes (o.note n) [] :=
  ⟨[n], rfl, fun w t hmem => h w t (List.mem_singleton.mp hmem).symm,
    fun _ hp => absurd hp List.not_mem_nil⟩

/-- One more notice evicts nothing. -/
theorem Writes.note {o o' : Orchestrator} {ps : List UInt32} (h : o.Writes o' ps) {n : Notice}
    (hn : ∀ w t, n ≠ .outputReceived w t) : o.Writes (o'.note n) ps := by
  rw [← List.append_nil ps]
  exact h.trans (o'.writes_note hn)

theorem writes_noteEvicted (o : Orchestrator) (problems : List UInt32) :
    o.Writes (o.noteEvicted problems) problems := by
  refine ⟨(problems.map .problemEvicted).reverse, rfl, fun w t hmem => ?_, fun p hp => ?_⟩
  · obtain ⟨p, -, heq⟩ := List.mem_map.mp (List.mem_reverse.mp hmem)
    cases heq
  · exact List.mem_reverse.mpr (List.mem_map_of_mem hp)

theorem writes_noteBase (o : Orchestrator) (base candidate : TaskId) :
    o.Writes (o.noteBase base candidate) [] := by
  unfold noteBase
  split
  · exact .of_eq rfl
  · exact o.writes_note nofun

theorem writes_registerResult (o : Orchestrator) (t : TaskId) (w : Worker) :
    o.Writes (o.registerResult t w) (o.ledger.evicted t) := by
  have hregistered : o.Writes
      { o.noteEvicted (o.ledger.evicted t) with
        ledger := o.ledger.registerResult t w
        registrations := o.registrations + 1 } (o.ledger.evicted t) :=
    writes_noteEvicted o (o.ledger.evicted t)
  unfold registerResult
  dsimp only
  split
  · exact hregistered
  · exact hregistered.note nofun

/-- Nothing is taken out of the journal. -/
theorem Writes.isSuffix {o o' : Orchestrator} {ps : List UInt32} (h : o.Writes o' ps) :
    o.journal <:+ o'.journal := by
  obtain ⟨notices, hjournal, -⟩ := h
  exact ⟨notices, hjournal.symm⟩

/-- The change from `o` to `o'` has nothing to do with the ledger. -/
structure Aside (o o' : Orchestrator) : Prop where
  settings : o'.settings = o.settings
  ledger : o'.ledger = o.ledger
  registrations : o'.registrations = o.registrations
  writes : o.Writes o' []

theorem Aside.refl (o : Orchestrator) : o.Aside o := ⟨rfl, rfl, rfl, .of_eq rfl⟩

theorem Aside.trans {o o' o'' : Orchestrator} (h : o.Aside o') (h' : o'.Aside o'') :
    o.Aside o'' where
  settings := h'.settings.trans h.settings
  ledger := h'.ledger.trans h.ledger
  registrations := h'.registrations.trans h.registrations
  writes := h.writes.trans h'.writes

/-- Notices other than those of outputs that were received count as nothing. -/
theorem aside_note (o : Orchestrator) {n : Notice} (h : ∀ w t, n ≠ .outputReceived w t) :
    o.Aside (o.note n) := ⟨rfl, rfl, rfl, o.writes_note h⟩

theorem aside_noteBase (o : Orchestrator) (base candidate : TaskId) :
    o.Aside (o.noteBase base candidate) where
  settings := settings_noteBase base candidate
  ledger := ledger_noteBase base candidate
  registrations := by
    unfold noteBase
    split <;> rfl
  writes := o.writes_noteBase base candidate

theorem aside_hub (o : Orchestrator) (hub : Hub) : o.Aside { o with hub } :=
  ⟨rfl, rfl, rfl, .of_eq rfl⟩

/-! ## Allocation -/

/-- The task that the hub has for a submission, and the hub that knows of it. -/
inductive Allocates (o : Orchestrator) (s : Submission) : TaskId → Hub → Prop
  | fresh (hp : s.predecessor? = none) :
      Allocates o s (.first o.hub.nextProblem) o.hub.allocateTask.2.2
  | next {candidate t : TaskId} (hp : s.predecessor? = some candidate)
      (hnext : (o.ledger.base candidate).next? = some t)
      (hnew : o.hub.allocated.contains t = false) :
      Allocates o s t { o.hub with allocated := o.hub.allocated.insert t () }

/-- There is one task at most for a submission. -/
theorem Allocates.unique {o : Orchestrator} {s : Submission} {t u : TaskId} {hub hub' : Hub}
    (h : o.Allocates s t hub) (h' : o.Allocates s u hub') : t = u ∧ hub = hub' := by
  cases h with
  | fresh hp =>
      cases h' with
      | fresh => exact ⟨rfl, rfl⟩
      | next hp' => rw [hp] at hp'; cases hp'
  | next hp hnext =>
      cases h' with
      | fresh hp' => rw [hp] at hp'; cases hp'
      | next hp' hnext' =>
          rw [hp] at hp'
          cases hp'
          rw [hnext] at hnext'
          cases hnext'
          exact ⟨rfl, rfl⟩

/-- To allocate a task publishes nothing. -/
theorem Allocates.keeps {o : Orchestrator} {s : Submission} {t : TaskId} {hub : Hub}
    (h : o.Allocates s t hub) : o.hub.Keeps hub := by
  cases h <;> exact ⟨rfl, rfl⟩

/-- The hub that has a task for a submission has allocated that task and no other. -/
theorem Allocates.contains_iff {o : Orchestrator} {s : Submission} {t : TaskId} {hub : Hub}
    (h : o.Allocates s t hub) (u : TaskId) :
    hub.allocated.contains u = true ↔ t = u ∨ o.hub.allocated.contains u = true := by
  cases h with
  | fresh => exact Table.contains_insert _ _ _ _
  | next => exact Table.contains_insert _ _ _ _

theorem Allocates.rejecting {o : Orchestrator} {s : Submission} {t : TaskId} {hub : Hub}
    (h : o.Allocates s t hub) : hub.rejecting = o.hub.rejecting := by
  cases h <;> rfl

/-- A continuation has no other task than the one after its base. -/
theorem Allocates.of_predecessor {o : Orchestrator} {s : Submission} {candidate t : TaskId}
    {hub : Hub} (h : o.Allocates s t hub) (hp : s.predecessor? = some candidate) :
    (o.ledger.base candidate).next? = some t ∧ o.hub.allocated.contains t = false := by
  cases h with
  | fresh hp' => rw [hp] at hp'; cases hp'
  | next hp' hnext hnew =>
      rw [hp] at hp'
      cases hp'
      exact ⟨hnext, hnew⟩

theorem allocateIteration_cases (h : Hub) (base : TaskId) :
    (∃ fault, h.allocateIteration base = .error fault ∧
      ∀ t, base.next? = some t → h.allocated.contains t = true) ∨
    ∃ t template, base.next? = some t ∧ h.allocated.contains t = false ∧
      h.allocateIteration base =
        .ok (t, template, { h with allocated := h.allocated.insert t () }) := by
  unfold Hub.allocateIteration
  cases base.next? with
  | none => exact .inl ⟨_, rfl, nofun⟩
  | some t =>
      dsimp only
      cases hnew : h.allocated.contains t with
      | true => exact .inl ⟨_, rfl, fun u hu => Option.some.inj hu ▸ hnew⟩
      | false => exact .inr ⟨t, _, rfl, hnew, rfl⟩

theorem allocate_cases (o : Orchestrator) (s : Submission) :
    (∃ fault o', o.allocate s = (.error fault, o') ∧ o.Aside o' ∧ o'.hub = o.hub ∧
      ∀ t hub, ¬ o.Allocates s t hub) ∨
    ∃ t template o', o.allocate s = (.ok (t, template), o') ∧ o.Aside o' ∧
      o.Allocates s t o'.hub := by
  unfold allocate
  cases hp : s.predecessor? with
  | none => exact .inr ⟨_, _, _, rfl, o.aside_hub _, .fresh hp⟩
  | some candidate =>
      rcases allocateIteration_cases o.hub (o.ledger.base candidate) with
        ⟨fault, heq, hused⟩ | ⟨t, template, hnext, hnew, heq⟩
      · simp only [heq]
        refine .inl ⟨_, _, rfl, o.aside_noteBase _ _, hub_noteBase _ _, fun t hub h => ?_⟩
        obtain ⟨hnext, hnew⟩ := h.of_predecessor hp
        rw [hused t hnext] at hnew
        cases hnew
      · simp only [heq]
        exact .inr ⟨t, template, _, rfl, (o.aside_noteBase _ _).trans (aside_hub _ _),
          .next hp hnext hnew⟩

/-! ## Publication -/

theorem publish_of_rejecting {o : Orchestrator} (t : TaskId) (u : UserInput)
    (h : o.hub.rejecting = true) :
    o.publish t u = (.error (.publishRejected t),
      { o with ledger := (o.ledger.reserve t).release t }) := by
  unfold publish Hub.publish
  rw [if_pos h]

/-- What comes of a submission: its outcome and the orchestrator afterwards. -/
inductive Submits (o : Orchestrator) (s : Submission) : Except Error TaskId → Orchestrator → Prop
  | refused {e : Error} {o' : Orchestrator} (haside : o.Aside o') (hhub : o'.hub = o.hub)
      (hnone : s.fault? = none → ∀ t hub, ¬ o.Allocates s t hub) : Submits o s (.error e) o'
  | rejected {t : TaskId} {o' : Orchestrator} (hvalid : s.fault? = none)
      (halloc : o.Allocates s t o'.hub) (hrejecting : o.hub.rejecting = true)
      (hledger : o'.ledger = (o.ledger.reserve t).release t)
      (hrest : o.Aside { o' with ledger := o.ledger }) :
      Submits o s (.error (.transportFailure (.publishRejected t))) o'
  | accepted {t : TaskId} {hub : Hub} {o' : Orchestrator} (hvalid : s.fault? = none)
      (halloc : o.Allocates s t hub) (haccepting : o.hub.rejecting = false)
      (hledger : o'.ledger = (o.ledger.reserve t).registerTask t)
      (hhub : o'.hub = hub.withInput t (o.fill s {} t)) (hsettings : o'.settings = o.settings)
      (hregistrations : o'.registrations = o.registrations)
      (hwrites : o.Writes o' ((o.ledger.reserve t).evicted t)) : Submits o s (.ok t) o'

/-- **Every submission** is refused before it has a task, or rejected by the hub, or accepted. -/
theorem submits (o : Orchestrator) (s : Submission) :
    o.Submits s (o.submit s).1 (o.submit s).2 := by
  unfold submit
  cases hvalid : s.fault? with
  | some fault => exact .refused (.refl o) rfl fun h => by rw [hvalid] at h; cases h
  | none =>
      rcases allocate_cases o s with
        ⟨fault, o₁, heq, haside, hhub, hnone⟩ | ⟨t, template, o₁, heq, haside, halloc⟩
      · simp only [heq]
        exact .refused haside hhub fun _ => hnone
      · simp only [heq]
        have hsettings : o₁.fill s template t = o.fill s {} t := by
          unfold fill
          rw [haside.settings]
          rfl
        cases hrejecting : o.hub.rejecting with
        | true =>
            rw [publish_of_rejecting t _ (halloc.rejecting.trans hrejecting)]
            refine .rejected hvalid halloc hrejecting ?_ ?_
            · show (o₁.ledger.reserve t).release t = _
              rw [haside.ledger]
            · exact ⟨haside.settings, rfl, haside.registrations, haside.writes⟩
        | false =>
            have haccepting : o₁.hub.rejecting = false := halloc.rejecting.trans hrejecting
            rw [hsettings, publish_eq_of_accepting t _ haccepting]
            refine .accepted hvalid halloc hrejecting ?_ rfl haside.settings haside.registrations ?_
            · show (o₁.ledger.reserve t).registerTask t = _
              rw [haside.ledger]
            · -- first the base, then what is evicted, and the task itself last
              have hevicted := writes_noteEvicted
                { o₁ with ledger := o₁.ledger.reserve t, hub := o₁.hub.withInput t (o.fill s {} t) }
                ((o₁.ledger.reserve t).evicted t)
              have hwrites : o.Writes _ ((o₁.ledger.reserve t).evicted t) :=
                haside.writes.trans hevicted
              rw [← haside.ledger]
              exact hwrites.note (n := .taskPublished t) nofun

/-- A submission that has a task fails where the hub rejects publications. -/
theorem submit_of_rejecting {o : Orchestrator} {s : Submission} {t : TaskId} {hub : Hub}
    (hvalid : s.fault? = none) (halloc : o.Allocates s t hub) (hrejecting : o.hub.rejecting = true) :
    (o.submit s).1 = .error (.transportFailure (.publishRejected t)) := by
  have hsubmits := o.submits s
  generalize o.submit s = submitted at hsubmits ⊢
  obtain ⟨outcome, o'⟩ := submitted
  cases hsubmits with
  | refused _ _ hnone => exact absurd halloc (hnone hvalid t hub)
  | rejected _ halloc' => rw [(halloc.unique halloc').1]
  | accepted _ _ haccepting =>
      rw [hrejecting] at haccepting
      cases haccepting

/-- A submission publishes what it is answered with. -/
theorem published_submit (o : Orchestrator) (s : Submission) :
    (o.submit s).2.hub.published = o.hub.published ++ (o.submit s).1.toOption.toList := by
  have hsubmits := o.submits s
  generalize o.submit s = submitted at hsubmits ⊢
  obtain ⟨outcome, o'⟩ := submitted
  cases hsubmits with
  | refused _ hhub => rw [hhub]; exact (List.append_nil _).symm
  | rejected _ halloc => rw [halloc.keeps.published]; exact (List.append_nil _).symm
  | accepted _ halloc _ _ hhub =>
      rw [hhub]
      exact congrArg (· ++ [_]) halloc.keeps.published

end Orchestrator

end WorkerPipeline
