import WorkerPipeline.Proofs.Ledger.Consistency

set_option autoImplicit false

/-! # The newest problem keeps everything

Whatever a limit drops, two things are never lost: the latest task, which is the greatest of all
tasks that were ever touched (`last_run`), and the results that arrived for the tasks of its
problem (`available_run_newest`).
-/

namespace WorkerPipeline

namespace TaskId

/-- Tasks in the order of their problems, and within a problem in the order of its iterations. -/
def Precedes (t u : TaskId) : Prop :=
  t.problem < u.problem ∨ (t.problem = u.problem ∧ t.iteration ≤ u.iteration)

theorem Precedes.refl (t : TaskId) : t.Precedes t := .inr ⟨rfl, UInt32.le_refl _⟩

theorem Precedes.trans {t u v : TaskId} (h : t.Precedes u) (h' : u.Precedes v) : t.Precedes v := by
  unfold Precedes at *
  grind

theorem Precedes.antisymm {t u : TaskId} (h : t.Precedes u) (h' : u.Precedes t) : t = u := by
  have hproblem : t.problem = u.problem := by
    unfold Precedes at h h'
    grind
  have hiteration : t.iteration = u.iteration := by
    unfold Precedes at h h'
    grind
  cases t
  cases u
  simp only [mk.injEq]
  exact ⟨hproblem, hiteration⟩

theorem Precedes.iteration_le {t u : TaskId} (h : t.Precedes u) (hproblem : t.problem = u.problem) :
    t.iteration ≤ u.iteration := by
  rcases h with hlt | ⟨-, hle⟩
  · rw [hproblem] at hlt
    exact absurd hlt (UInt32.lt_irrefl _)
  · exact hle

theorem precedes_of_before {t u : TaskId} (h : Key.before t u) : t.Precedes u := by
  rcases before_iff.mp h with hlt | ⟨heq, hlt⟩
  · exact .inl (UInt32.lt_iff_toNat_lt.mpr hlt)
  · exact .inr ⟨heq, UInt32.le_of_lt (UInt32.lt_iff_toNat_lt.mpr hlt)⟩

theorem precedes_of_not_before {t u : TaskId} (h : ¬ Key.before t u) : u.Precedes t := by
  rw [before_iff, not_or] at h
  unfold Precedes
  simp only [← UInt32.lt_iff_toNat_lt] at h
  grind

/-- The last of all tasks of a list. -/
def IsLastOf (t : TaskId) (tasks : List TaskId) : Prop := t ∈ tasks ∧ ∀ u ∈ tasks, u.Precedes t

theorem IsLastOf.unique {t u : TaskId} {tasks : List TaskId} (ht : t.IsLastOf tasks)
    (hu : u.IsLastOf tasks) : t = u :=
  (hu.2 t ht.1).antisymm (ht.2 u hu.1)

end TaskId

namespace Ledger

open TaskId

/-! ## The latest task of all -/

/-- What the latest task should be, given the tasks that were touched. -/
def IsNewest (tasks : List TaskId) : Option TaskId → Prop
  | none => tasks = []
  | some t => t.IsLastOf tasks

theorem IsNewest.eq_some_iff {tasks : List TaskId} {o : Option TaskId} (h : IsNewest tasks o)
    (t : TaskId) : o = some t ↔ t.IsLastOf tasks := by
  cases o with
  | none =>
      rw [show tasks = [] from h]
      constructor
      · intro ht
        cases ht
      · intro ht
        exact absurd ht.1 List.not_mem_nil
  | some u =>
      constructor
      · intro ht
        cases ht
        exact h
      · intro ht
        rw [IsLastOf.unique h ht]

theorem IsNewest.eq_none_iff {tasks : List TaskId} {o : Option TaskId} (h : IsNewest tasks o) :
    o = none ↔ tasks = [] := by
  cases o with
  | none => exact ⟨fun _ => h, fun _ => rfl⟩
  | some u =>
      constructor
      · intro ht
        cases ht
      · intro ht
        exact absurd (ht ▸ h.1) List.not_mem_nil

/-- Of a touched task and the latest so far, the later one is the latest now. -/
theorem isNewest_touch {l : Ledger} {tasks : List TaskId} (h : IsNewest tasks l.last) (t : TaskId) :
    IsNewest (tasks ++ [t]) (l.touch t).last := by
  cases hnow : (l.touch t).last with
  | none => exact absurd hnow (last_touch_ne_none l t)
  | some u =>
      rcases last_touch_cases hnow with ⟨rfl, hbeyond⟩ | ⟨hlast, hnot⟩
      · -- the touched task is beyond the latest so far, and so beyond all others
        refine ⟨List.mem_append_right _ List.mem_cons_self, fun v hv => ?_⟩
        rcases List.mem_append.mp hv with hv | hv
        · cases hlast : l.last with
          | none =>
              rw [h.eq_none_iff.mp hlast] at hv
              exact absurd hv List.not_mem_nil
          | some w =>
              have hw := (h.eq_some_iff w).mp hlast
              exact (hw.2 v hv).trans (precedes_of_before (hbeyond w hlast))
        · rw [List.mem_singleton.mp hv]
          exact .refl _
      · obtain ⟨hmem, hle⟩ := (h.eq_some_iff u).mp hlast
        refine ⟨List.mem_append_left _ hmem, fun v hv => ?_⟩
        rcases List.mem_append.mp hv with hv | hv
        · exact hle v hv
        · rw [List.mem_singleton.mp hv]
          exact precedes_of_not_before hnot

theorem isNewest_run (limit : Option Nat) (steps : List Step) :
    IsNewest (touched steps) ((new limit).run steps).last := by
  induction steps using List.reverseRecOn with
  | nil => exact rfl
  | append_singleton steps s ih =>
      rw [run_concat, last_apply, touched_concat]
      cases s.touched? with
      | none => simpa using ih
      | some t => exact isNewest_touch ih t

/-- The latest task depends only on which tasks were touched. -/
theorem last_run_congr (limit limit' : Option Nat) {a b : List Step}
    (h : ∀ t, t ∈ touched a ↔ t ∈ touched b) :
    ((new limit).run a).last = ((new limit').run b).last := by
  have hsame (t : TaskId) : t.IsLastOf (touched a) ↔ t.IsLastOf (touched b) := by
    unfold IsLastOf
    simp only [h]
  apply Option.ext
  intro t
  rw [(isNewest_run limit a).eq_some_iff, (isNewest_run limit' b).eq_some_iff, hsame]

/-! ## Results of the newest problem -/

/-- A result that is available has arrived. -/
theorem arrived_of_available {limit : Option Nat} {steps : List Step} {t : TaskId} {w : Worker}
    (h : ((new limit).run steps).available t w = true) : .registerResult t w ∈ steps := by
  induction steps using List.reverseRecOn with
  | nil => cases h
  | append_singleton steps s ih =>
      rw [run_concat] at h
      rw [List.mem_append]
      have hl := consistent_run limit steps
      cases s with
      | reserve u => exact .inl (ih (available_reserve _ u t w ▸ h))
      | release u => exact .inl (ih (hl.available_release u t w ▸ h))
      | registerTask u =>
          rw [apply, registerTask, available_touch, Bool.and_eq_true] at h
          exact .inl (ih h.2)
      | registerResult u v =>
          rw [apply, available_registerResult] at h
          simp only [Bool.or_eq_true, Bool.and_eq_true, decide_eq_true_eq] at h
          rcases h with ⟨⟨rfl, rfl⟩, -⟩ | ⟨-, h⟩
          · exact .inr List.mem_cons_self
          · exact .inl (ih h)

/-- A step keeps the results of the tasks of the problem that is the newest afterwards. -/
theorem Consistent.available_apply {l : Ledger} (hl : l.Consistent) {s : Step} {t u : TaskId}
    {w : Worker} (hlast : (l.apply s).last = some u) (hproblem : t.problem = u.problem)
    (h : l.available t w = true) : (l.apply s).available t w = true := by
  cases s with
  | reserve v => exact (available_reserve l v t w).trans h
  | release v => exact (hl.available_release v t w).trans h
  | registerTask v =>
      have hkept : t.problem ∉ l.evicted v := hproblem ▸ not_mem_evicted_of_last_touch hlast
      show (l.touch v).available t w = true
      rw [available_touch, h]
      simp [hkept]
  | registerResult v w' =>
      have hkept : t.problem ∉ l.evicted v :=
        hproblem ▸ not_mem_evicted_of_last_touch (last_registerResult l v w' ▸ hlast)
      show (l.registerResult v w').available t w = true
      rw [available_registerResult, h]
      simp [hkept]

/-- Registering a result of a tracked worker makes it available. -/
theorem Consistent.available_registerResult_self {l : Ledger} (hl : l.Consistent) (t : TaskId)
    {w : Worker} (hw : w.isTracked = true) : (l.registerResult t w).available t w = true := by
  rw [available_registerResult]
  cases ha : l.available t w with
  | true => simp [not_mem_evicted l t]
  | false => simp [(hl.isNew_iff t w).mpr ⟨hw, ha⟩]

/-- What arrived for a task of the newest problem is available. -/
theorem available_of_arrived {limit : Option Nat} {steps : List Step} {t u : TaskId} {w : Worker}
    (hlast : ((new limit).run steps).last = some u) (hproblem : t.problem = u.problem)
    (hw : w.isTracked = true) (h : .registerResult t w ∈ steps) :
    ((new limit).run steps).available t w = true := by
  induction steps using List.reverseRecOn generalizing u with
  | nil => cases h
  | append_singleton steps s ih =>
      have hl := consistent_run limit steps
      rw [run_concat] at hlast ⊢
      rcases List.mem_append.mp h with hold | hnow
      · -- the task was touched before, so there was a latest one, and of the same problem
        have htouched : t ∈ touched steps := mem_touched.mpr (.inr ⟨w, hold⟩)
        cases hbefore : ((new limit).run steps).last with
        | none =>
            rw [(isNewest_run limit steps).eq_none_iff.mp hbefore] at htouched
            exact absurd htouched List.not_mem_nil
        | some v =>
            have hv := ((isNewest_run limit steps).eq_some_iff v).mp hbefore
            have hu := ((isNewest_run limit (steps ++ [s])).eq_some_iff u).mp
              (run_concat _ steps s ▸ hlast)
            have htv : t.Precedes v := hv.2 t htouched
            have hvu : v.Precedes u := hu.2 v (mem_touched_concat.mpr (.inl hv.1))
            -- the latest task before lies between `t` and `u`, which belong to one problem
            have hsame : t.problem = v.problem := by
              unfold Precedes at hvu htv
              grind
            exact hl.available_apply hlast hproblem (ih hbefore hsame hold)
      · rw [← List.mem_singleton.mp hnow]
        exact hl.available_registerResult_self t hw

/-- **Nothing of the newest problem is lost.** Under any limit, the latest task is the last of all
tasks touched so far, in whatever order that was, and it never moves back, although tasks of
different problems are not comparable. The results available for the tasks of its problem are
those that have arrived. -/
theorem newest_problem_complete (limit : Option Nat) (steps : List Step) :
    (∀ t u : TaskId, t.problem ≠ u.problem → t.compare? u = none) ∧
    (((new limit).run steps).last = none ↔ touched steps = []) ∧
    (∀ t, ((new limit).run steps).last = some t ↔ t.IsLastOf (touched steps)) ∧
    (∀ later t, ((new limit).run steps).last = some t →
      ∃ u, ((new limit).run (steps ++ later)).last = some u ∧ t.Precedes u) ∧
    (∀ others, (∀ t, t ∈ touched others ↔ t ∈ touched steps) →
      ((new limit).run others).last = ((new limit).run steps).last) ∧
    ∀ t u w, ((new limit).run steps).last = some u → t.problem = u.problem → w.isTracked = true →
      (((new limit).run steps).available t w = true ↔ .registerResult t w ∈ steps) := by
  have hnewest := isNewest_run limit steps
  refine ⟨fun t u h => if_neg h, hnewest.eq_none_iff, hnewest.eq_some_iff, fun later t ht => ?_,
    fun others h => last_run_congr limit limit h,
    fun t u w hu hproblem hw => ⟨arrived_of_available, available_of_arrived hu hproblem hw⟩⟩
  have hmem : t ∈ touched (steps ++ later) := by
    rw [touched, List.filterMap_append]
    exact List.mem_append_left _ ((hnewest.eq_some_iff t).mp ht).1
  have hall := isNewest_run limit (steps ++ later)
  cases hlast : ((new limit).run (steps ++ later)).last with
  | none =>
      rw [hall.eq_none_iff.mp hlast] at hmem
      exact absurd hmem List.not_mem_nil
  | some u => exact ⟨u, rfl, ((hall.eq_some_iff u).mp hlast).2 t hmem⟩

end Ledger

end WorkerPipeline
