import WorkerPipeline.Proofs.Ledger.Newest

set_option autoImplicit false

/-! # Results that a limit takes away

A result that was registered is available until its problem is evicted, and available again when it
is registered anew. So after a run the results available are those that were registered at some
step from which on their problem stayed (`Retains`), apart from what was available before the run
(`available_run_iff_retains`).
-/

namespace WorkerPipeline

namespace Ledger

/-! ## What is evicted -/

/-- The problems that a step evicts. -/
def evictedBy (l : Ledger) (s : Step) : List UInt32 :=
  match s.touched? with
  | some t => l.evicted t
  | none => []

/-- The problems that a run evicts, in order. -/
def evictedIn (l : Ledger) : List Step → List UInt32
  | [] => []
  | s :: steps => l.evictedBy s ++ (l.apply s).evictedIn steps

theorem evictedIn_append (l : Ledger) (a b : List Step) :
    l.evictedIn (a ++ b) = l.evictedIn a ++ (l.run a).evictedIn b := by
  induction a generalizing l with
  | nil => rfl
  | cons s a ih =>
      show l.evictedBy s ++ (l.apply s).evictedIn (a ++ b) = _
      rw [ih, ← List.append_assoc]
      rfl

/-- Without a limit a run evicts nothing. -/
theorem evictedIn_of_limit_none {l : Ledger} (h : l.limit = none) (steps : List Step) :
    l.evictedIn steps = [] := by
  induction steps generalizing l with
  | nil => rfl
  | cons s steps ih =>
      have hstep : l.evictedBy s = [] := by
        unfold evictedBy
        split
        · exact evicted_of_limit_none _ h
        · rfl
      rw [evictedIn, hstep, ih ((limit_apply l s).trans h)]
      rfl

/-! ## What is retained -/

/-- The result is registered at some step, and its problem is not evicted from there on. -/
def Retains (l : Ledger) (steps : List Step) (t : TaskId) (w : Worker) : Prop :=
  ∃ before after, steps = before ++ .registerResult t w :: after ∧
    t.problem ∉ ((l.run before).registerResult t w).evictedIn after

variable {l : Ledger} {s : Step} {t : TaskId} {w : Worker}

/-- Without a limit every result is retained. -/
theorem retains_of_limit_none (hlimit : l.limit = none) {steps : List Step}
    (h : .registerResult t w ∈ steps) : l.Retains steps t w := by
  obtain ⟨before, after, rfl⟩ := List.append_of_mem h
  refine ⟨before, after, rfl, ?_⟩
  have hafter : ((l.run before).registerResult t w).limit = none := by
    rw [limit_registerResult, limit_run, hlimit]
  rw [evictedIn_of_limit_none hafter]
  exact List.not_mem_nil

theorem retains_cons {steps : List Step} :
    l.Retains (s :: steps) t w ↔
      (s = .registerResult t w ∧ t.problem ∉ (l.apply s).evictedIn steps) ∨
        (l.apply s).Retains steps t w := by
  constructor
  · rintro ⟨before, after, hsteps, hkept⟩
    cases before with
    | nil =>
        cases hsteps
        exact .inl ⟨rfl, hkept⟩
    | cons r before =>
        cases hsteps
        exact .inr ⟨before, after, rfl, hkept⟩
  · rintro (⟨rfl, hkept⟩ | ⟨before, after, rfl, hkept⟩)
    · exact ⟨[], steps, rfl, hkept⟩
    · exact ⟨s :: before, after, rfl, hkept⟩

/-- After a step a result is available if the step registers it, or if it was available and the
step does not evict its problem. -/
theorem Consistent.available_apply_iff (hl : l.Consistent) (hw : w.isTracked = true) :
    (l.apply s).available t w = true ↔
      s = .registerResult t w ∨ l.available t w = true ∧ t.problem ∉ l.evictedBy s := by
  cases s with
  | reserve u =>
      show (l.reserve u).available t w = true ↔ _
      rw [available_reserve]
      simp [evictedBy, Step.touched?]
  | release u =>
      show (l.release u).available t w = true ↔ _
      rw [hl.available_release]
      simp [evictedBy, Step.touched?]
  | registerTask u =>
      show (l.touch u).available t w = true ↔ _
      rw [available_touch]
      simp [evictedBy, Step.touched?, and_comm]
  | registerResult u v =>
      show (l.registerResult u v).available t w = true ↔ _
      by_cases heq : u = t ∧ v = w
      · obtain ⟨rfl, rfl⟩ := heq
        simp [hl.available_registerResult_self u hw]
      · rw [available_registerResult, decide_eq_false heq]
        have hne : Step.registerResult u v ≠ .registerResult t w := by
          rintro ⟨⟩
          exact heq ⟨rfl, rfl⟩
        simp [evictedBy, Step.touched?, hne, and_comm]

/-- **The results available after a run** are those that it retains, and of those available before
the ones whose problem it does not evict. -/
theorem Consistent.available_run_iff_retains (hl : l.Consistent) (hw : w.isTracked = true)
    (steps : List Step) :
    (l.run steps).available t w = true ↔
      l.Retains steps t w ∨ l.available t w = true ∧ t.problem ∉ l.evictedIn steps := by
  induction steps generalizing l with
  | nil =>
      have hnone : ¬ l.Retains [] t w := fun ⟨before, after, h, _⟩ => by simp at h
      simp [hnone, evictedIn, run]
  | cons s steps ih =>
      show ((l.apply s).run steps).available t w = true ↔ _
      rw [ih (hl.apply s), hl.available_apply_iff hw, retains_cons, evictedIn, List.mem_append]
      -- either the first step registers the result, or a later one, or it was there before
      tauto

/-- A result that is registered in the run is available afterwards if and only if the run retains
it. -/
theorem Consistent.available_run_iff_of_registered (hl : l.Consistent) (hw : w.isTracked = true)
    {steps : List Step} (h : .registerResult t w ∈ steps) :
    (l.run steps).available t w = true ↔ l.Retains steps t w := by
  rw [hl.available_run_iff_retains hw]
  refine ⟨?_, .inl⟩
  rintro (hretains | ⟨-, hkept⟩)
  · exact hretains
  · -- nothing is evicted at all, so nothing is after the registration
    obtain ⟨before, after, rfl⟩ := List.append_of_mem h
    refine ⟨before, after, rfl, fun hevicted => hkept ?_⟩
    rw [evictedIn_append]
    exact List.mem_append_right _ (List.mem_append_right _ hevicted)

end Ledger

end WorkerPipeline
