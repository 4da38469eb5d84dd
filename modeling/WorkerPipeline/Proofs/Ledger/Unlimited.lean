import WorkerPipeline.Proofs.Ledger.Newest

set_option autoImplicit false

/-! # Ledgers without a limit

Without a limit a ledger forgets nothing, so what it answers is a function of the set of tasks and
results that were registered: `unlimited_history` says which one. The order and the repetitions of
the registrations leave no trace, up to equality of the ledgers (`run_eq_of_same_steps`).
-/

namespace WorkerPipeline

namespace Ledger

open TaskId

/-! ## Nothing is dropped -/

theorem limit_run_none (steps : List Step) : ((new none).run steps).limit = none :=
  limit_run (new none) steps

/-! ## Results -/

theorem Consistent.available_apply_of_limit_none {l : Ledger} (hl : l.Consistent)
    (hlimit : l.limit = none) {t : TaskId} {w : Worker} (s : Step)
    (h : l.available t w = true) : (l.apply s).available t w = true := by
  cases s with
  | reserve u => exact (available_reserve l u t w).trans h
  | release u => exact (hl.available_release u t w).trans h
  | registerTask u =>
      exact (available_touch_of_evicted_nil (evicted_of_limit_none u hlimit) t w).trans h
  | registerResult u v =>
      show (l.registerResult u v).available t w = true
      rw [available_registerResult_of_evicted_nil (evicted_of_limit_none u hlimit), h, Bool.or_true]

/-- The results available are those of tracked workers that were registered. -/
theorem available_run_iff (steps : List Step) (t : TaskId) (w : Worker) :
    ((new none).run steps).available t w = true ↔
      w.isTracked = true ∧ .registerResult t w ∈ steps := by
  constructor
  · intro h
    exact ⟨(consistent_run none steps).isTracked_of_available h, arrived_of_available h⟩
  · rintro ⟨hw, h⟩
    induction steps using List.reverseRecOn with
    | nil => cases h
    | append_singleton steps s ih =>
        have hl := consistent_run none steps
        rw [run_concat]
        rcases List.mem_append.mp h with hold | hnow
        · exact hl.available_apply_of_limit_none (limit_run_none steps) s (ih hold)
        · rw [← List.mem_singleton.mp hnow]
          exact hl.available_registerResult_self t hw

/-- A registration is answered with `true` if it is the first of its result. -/
theorem isNew_run_iff (steps : List Step) (t : TaskId) (w : Worker) :
    ((new none).run steps).isNew t w = true ↔
      w.isTracked = true ∧ .registerResult t w ∉ steps := by
  rw [(consistent_run none steps).isNew_iff, ← Bool.not_eq_true, available_run_iff]
  constructor
  · rintro ⟨hw, h⟩
    exact ⟨hw, fun hmem => h ⟨hw, hmem⟩⟩
  · rintro ⟨hw, h⟩
    exact ⟨hw, fun hmem => h hmem.2⟩

/-! ## The latest task of a problem -/

/-- The tasks of a problem. -/
def ofProblem (p : UInt32) (tasks : List TaskId) : List TaskId :=
  tasks.filter fun t => decide (t.problem = p)

theorem mem_ofProblem {p : UInt32} {tasks : List TaskId} {t : TaskId} :
    t ∈ ofProblem p tasks ↔ t ∈ tasks ∧ t.problem = p := by
  simp [ofProblem]

/-- One more task of the same problem: the newest is the later one of it and the newest so far. -/
theorem IsNewest.concat {tasks : List TaskId} {o : Option TaskId} {t : TaskId}
    (h : IsNewest tasks o) (hproblem : ∀ {u}, o = some u → u.problem = t.problem) :
    IsNewest (tasks ++ [t]) (some (later t o)) := by
  have hmem : later t o ∈ tasks ++ [t] := by
    rcases later_eq_or t o with heq | hold
    · rw [heq]; simp
    · exact List.mem_append_left _ ((h.eq_some_iff _).mp hold).1
  have hlater : (later t o).problem = t.problem := by
    rcases later_eq_or t o with heq | hold
    · rw [heq]
    · exact hproblem hold
  refine ⟨hmem, fun v hv => ?_⟩
  rcases List.mem_append.mp hv with hv | hv
  · cases o with
    | none =>
        rw [show tasks = [] from h] at hv
        exact absurd hv List.not_mem_nil
    | some u =>
        have huv : u.Precedes (later t (some u)) :=
          .inr ⟨(hproblem rfl).trans hlater.symm, le_later_right t u⟩
        exact (h.2 v hv).trans huv
  · rw [List.mem_singleton.mp hv]
    exact .inr ⟨hlater.symm, le_later_left t hproblem⟩

theorem isNewest_latest_run (steps : List Step) (p : UInt32) :
    IsNewest (ofProblem p (touched steps)) (((new none).run steps).latest.get? p) := by
  induction steps using List.reverseRecOn with
  | nil => exact rfl
  | append_singleton steps s ih =>
      rw [run_concat, latest_apply, touched_concat, ofProblem, List.filter_append]
      cases s.touched? with
      | none => simpa [ofProblem] using ih
      | some t =>
          have hl := consistent_run none steps
          show IsNewest _ ((((new none).run steps).touch t).latest.get? p)
          rw [latest_touch_of_evicted_nil (evicted_of_limit_none t (limit_run_none steps))]
          by_cases hp : t.problem = p
          · subst hp
            simpa [ofProblem] using ih.concat fun h => hl.latest_problem h
          · simpa [hp, ofProblem] using ih

/-- A touched task is known. -/
theorem isKnown_of_mem_touched {steps : List Step} {t : TaskId} (h : t ∈ touched steps) :
    ((new none).run steps).isKnown t = true := by
  have hmem : t ∈ ofProblem t.problem (touched steps) := mem_ofProblem.mpr ⟨h, rfl⟩
  have hlatest := isNewest_latest_run steps t.problem
  cases hu : ((new none).run steps).latest.get? t.problem with
  | none =>
      rw [hlatest.eq_none_iff.mp hu] at hmem
      exact absurd hmem List.not_mem_nil
  | some u =>
      have hproblem := (consistent_run none steps).latest_problem hu
      have hprecedes := ((hlatest.eq_some_iff u).mp hu).2 t hmem
      exact isKnown_iff.mpr ⟨u, hu, hprecedes.iteration_le hproblem.symm⟩

/-! ## Records -/

/-- A touched task has a record. -/
theorem isSome_record?_run {steps : List Step} {t : TaskId} (h : t ∈ touched steps) :
    (((new none).run steps).record? t).isSome := by
  induction steps using List.reverseRecOn with
  | nil => cases h
  | append_singleton steps s ih =>
      have hlimit := limit_run_none steps
      rw [run_concat]
      cases s with
      | reserve u =>
          show ((((new none).run steps).reserve u).record? t).isSome
          rw [record?_reserve]
          split
          · rfl
          · exact ih ((mem_touched_concat.mp h).resolve_right nofun)
      | release u =>
          have hold : t ∈ touched steps := (mem_touched_concat.mp h).resolve_right nofun
          show ((((new none).run steps).release u).record? t).isSome
          rw [record?_release_of_isKnown (isKnown_of_mem_touched hold)]
          exact ih hold
      | registerTask u =>
          refine (isSome_record?_touch_of_evicted_nil (evicted_of_limit_none u hlimit) t).mpr ?_
          rcases mem_touched_concat.mp h with hold | hnow
          · exact .inr (ih hold)
          · exact .inl (Option.some.inj hnow)
      | registerResult u w =>
          refine (isSome_record?_registerResult_of_evicted_nil
            (evicted_of_limit_none u hlimit) t w).mpr ?_
          rcases mem_touched_concat.mp h with hold | hnow
          · exact .inr (ih hold)
          · exact .inl (Option.some.inj hnow)

/-- A step makes a record only for the task that it touches or reserves. -/
theorem record?_apply_cases {l : Ledger} {s : Step} {t : TaskId} {r : TaskRecord}
    (h : (l.apply s).record? t = some r) :
    (l.record? t).isSome ∨ s.touched? = some t ∨ s = .reserve t := by
  have htouch {u : TaskId} {q : TaskRecord} (h : (l.touch u).record? t = some q) :
      (l.record? t).isSome ∨ t = u := by
    rcases record?_reserve_cases (record?_of_touch h) with hold | ⟨heq, -⟩
    · exact .inl (by rw [hold]; rfl)
    · exact .inr heq
  cases s with
  | reserve u =>
      rcases record?_reserve_cases h with hold | ⟨rfl, -⟩
      · exact .inl (by rw [hold]; rfl)
      · exact .inr (.inr rfl)
  | release u => exact .inl (by rw [record?_of_release h]; rfl)
  | registerTask u =>
      rcases htouch h with hold | rfl
      · exact .inl hold
      · exact .inr (.inl rfl)
  | registerResult u w =>
      have h' : (l.registerResult u w).record? t = some r := h
      rw [record?_registerResult] at h'
      split at h'
      · rename_i hu
        exact .inr (.inl (hu.1 ▸ rfl))
      · rcases htouch h' with hold | rfl
        · exact .inl hold
        · exact .inr (.inl rfl)

/-- A task has a record only if it was touched or reserved. -/
theorem touched_or_reserved_of_record? {limit : Option Nat} {steps : List Step} {t : TaskId}
    {r : TaskRecord} (h : ((new limit).run steps).record? t = some r) :
    t ∈ touched steps ∨ .reserve t ∈ steps := by
  induction steps using List.reverseRecOn generalizing r with
  | nil => cases h
  | append_singleton steps s ih =>
      rw [run_concat] at h
      rcases record?_apply_cases h with hold | hnow | rfl
      · obtain ⟨q, hq⟩ := Option.isSome_iff_exists.mp hold
        rcases ih hq with htouched | hreserved
        · exact .inl (mem_touched_concat.mpr (.inl htouched))
        · exact .inr (List.mem_append_left _ hreserved)
      · exact .inl (mem_touched_concat.mpr (.inr hnow))
      · exact .inr (List.mem_append_right _ List.mem_cons_self)

/-! ## Histories of registrations -/

/-- Whether a step registers a task or a result. -/
def Step.registers (s : Step) : Prop := s.touched?.isSome

theorem record?_eq_none_of_registers {limit : Option Nat} {steps : List Step} {t : TaskId}
    (hs : ∀ s ∈ steps, s.registers) (h : t ∉ touched steps) :
    ((new limit).run steps).record? t = none := by
  cases hr : ((new limit).run steps).record? t with
  | none => rfl
  | some r =>
      rcases touched_or_reserved_of_record? hr with hmem | hmem
      · exact absurd hmem h
      · exact absurd (hs _ hmem) nofun

theorem touched_congr {a b : List Step} (hsame : ∀ s, s ∈ a ↔ s ∈ b) (t : TaskId) :
    t ∈ touched a ↔ t ∈ touched b := by
  simp only [mem_touched, hsame]

theorem latest_run_congr {a b : List Step} (hsame : ∀ s, s ∈ a ↔ s ∈ b) (p : UInt32) :
    ((new none).run a).latest.get? p = ((new none).run b).latest.get? p := by
  apply Option.ext
  intro t
  rw [(isNewest_latest_run a p).eq_some_iff, (isNewest_latest_run b p).eq_some_iff]
  simp only [IsLastOf, mem_ofProblem, touched_congr hsame]

theorem record?_run_congr {a b : List Step} (ha : ∀ s ∈ a, s.registers)
    (hsame : ∀ s, s ∈ a ↔ s ∈ b) (t : TaskId) :
    ((new none).run a).record? t = ((new none).run b).record? t := by
  have hb : ∀ s ∈ b, s.registers := fun s hs => ha s ((hsame s).mpr hs)
  by_cases ht : t ∈ touched a
  · obtain ⟨r, hr⟩ := Option.isSome_iff_exists.mp (isSome_record?_run ht)
    obtain ⟨q, hq⟩ := Option.isSome_iff_exists.mp
      (isSome_record?_run ((touched_congr hsame t).mp ht))
    have hla := consistent_run none a
    have hlb := consistent_run none b
    -- both records say of a worker whether its result is among the registrations
    have hhas (w : Worker) : r.has w = q.has w := by
      have hra : ((new none).run a).available t w = r.has w := by rw [available, hr]
      have hqb : ((new none).run b).available t w = q.has w := by rw [available, hq]
      rw [Bool.eq_iff_iff, ← hra, ← hqb, available_run_iff, available_run_iff, hsame]
    have htask : r.task = q.task := (hla.record_task hr).trans (hlb.record_task hq).symm
    rw [hr, hq, (hla.record_slots hr).ext (hlb.record_slots hq) htask hhas]
  · rw [record?_eq_none_of_registers ha ht,
      record?_eq_none_of_registers hb fun h => ht ((touched_congr hsame t).mpr h)]

/-- Registrations leave the same ledger in any order and however often each is made. -/
theorem run_eq_of_same_steps {a b : List Step} (ha : ∀ s ∈ a, s.registers)
    (hsame : ∀ s, s ∈ a ↔ s ∈ b) : (new none).run a = (new none).run b := by
  have hrecords := record?_run_congr ha hsame
  have hlast := last_run_congr none none (touched_congr hsame)
  have hlatest := latest_run_congr hsame
  have hlimit : ((new none).run a).limit = ((new none).run b).limit := by
    rw [limit_run, limit_run]
  generalize (new none).run a = l at *
  generalize (new none).run b = m at *
  cases l
  cases m
  simp only [mk.injEq]
  exact ⟨Table.ext hrecords, hlast, Table.ext hlatest, hlimit⟩

/-- **A ledger without a limit** answers for the set of all registrations: which results are
available, which registrations were new, which records there are and what they say, and the
latest task of each problem. -/
theorem unlimited_history (steps : List Step) :
    (∀ t w, ((new none).run steps).available t w = true ↔
      w.isTracked = true ∧ .registerResult t w ∈ steps) ∧
    (∀ before after t w, steps = before ++ .registerResult t w :: after →
      (((new none).run before).isNew t w = true ↔
        w.isTracked = true ∧ .registerResult t w ∉ before)) ∧
    (∀ t, (.registerTask t ∈ steps ∨ ∃ w, .registerResult t w ∈ steps) →
      ∃ r, ((new none).run steps).record? t = some r ∧
        (r.isComplete = true ↔ ∀ w, w.isTracked = true → .registerResult t w ∈ steps) ∧
        r.pending = Worker.tracked.filter fun w => decide (.registerResult t w ∉ steps)) ∧
    (∀ p t, ((new none).run steps).latest.get? p = some t ↔
      t.IsLastOf (ofProblem p (touched steps))) ∧
    ∀ others, (∀ s ∈ steps, s.registers) → (∀ s, s ∈ others ↔ s ∈ steps) →
      (new none).run others = (new none).run steps := by
  refine ⟨available_run_iff steps, fun before after t w _ => isNew_run_iff before t w,
    fun t ht => ?_, fun p => (isNewest_latest_run steps p).eq_some_iff,
    fun others hs hsame => (run_eq_of_same_steps hs fun s => (hsame s).symm).symm⟩
  obtain ⟨r, hr⟩ := Option.isSome_iff_exists.mp (isSome_record?_run (mem_touched.mpr ht))
  have hslots : r.HasSlots := (consistent_run none steps).record_slots hr
  have hhas (w : Worker) :
      r.has w = true ↔ w.isTracked = true ∧ .registerResult t w ∈ steps := by
    rw [← available_run_iff, available, hr]
  refine ⟨r, hr, ?_, ?_⟩
  · rw [hslots.isComplete_iff]
    constructor
    · intro h w hw
      exact ((hhas w).mp (h w hw)).2
    · intro h w hw
      exact (hhas w).mpr ⟨hw, h w hw⟩
  · rw [hslots.pending_eq]
    apply List.filter_congr
    intro w hw
    rw [Bool.eq_iff_iff, Bool.not_eq_true', ← Bool.not_eq_true, hhas, decide_eq_true_eq]
    constructor
    · intro h hmem
      exact h ⟨Worker.mem_tracked.mp hw, hmem⟩
    · intro h hmem
      exact h hmem.2

end Ledger

end WorkerPipeline
