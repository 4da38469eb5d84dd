import WorkerPipeline.Proofs.Ledger.Consistency

set_option autoImplicit false

/-! # Reservations that are taken back

In a tidy ledger only known tasks have records. A reservation that is released leaves such a ledger
as it was, unless the task is known (`Tidy.release_reserve`); a known task keeps its record, even
if that was made by the reservation (`release_reserve_of_isKnown`). The task after a base is never
known (`Consistent.isKnown_eq_false_of_next?_base`).
-/

namespace WorkerPipeline

namespace Ledger

/-- The parts agree, and there are no records of tasks that are not known. -/
structure Tidy (l : Ledger) : Prop where
  consistent : l.Consistent
  isKnown : ∀ {t}, (l.record? t).isSome → l.isKnown t = true

theorem tidy_new (limit : Option Nat) : (new limit).Tidy where
  consistent := consistent_new limit
  isKnown h := by cases h

/-! ## Known tasks -/

variable {l : Ledger} {t u : TaskId}

theorem isKnown_reserve (l : Ledger) (t u : TaskId) : (l.reserve t).isKnown u = l.isKnown u := rfl

theorem isKnown_registerResult (l : Ledger) (t u : TaskId) (w : Worker) :
    (l.registerResult t w).isKnown u = (l.touch t).isKnown u := by
  rw [Ledger.isKnown, latest_registerResult]
  rfl

theorem Consistent.isKnown_touch_self (hl : l.Consistent) (t : TaskId) :
    (l.touch t).isKnown t = true := by
  refine isKnown_iff.mpr ⟨_, latest_touch_self l t, le_later_left t fun h => ?_⟩
  exact hl.latest_problem h

/-- A known task stays known as long as its problem is tracked. -/
theorem isKnown_touch (h : l.isKnown u = true) (hkept : u.problem ∉ l.evicted t) :
    (l.touch t).isKnown u = true := by
  obtain ⟨v, hv, hle⟩ := isKnown_iff.mp h
  rw [isKnown_iff, latest_touch, if_neg hkept, hv]
  split
  · exact ⟨_, rfl, UInt32.le_trans hle (le_later_right t v)⟩
  · exact ⟨v, rfl, hle⟩

/-! ## Tidy ledgers -/

/-- Touching a task makes it known, so the record that it may have had before does no harm. -/
theorem tidy_touch (hl : l.Consistent)
    (h : ∀ u, u ≠ t → (l.record? u).isSome → l.isKnown u = true) : (l.touch t).Tidy where
  consistent := hl.touch t
  isKnown {u} hu := by
    by_cases ht : u = t
    · rw [ht]
      exact hl.isKnown_touch_self t
    · rw [record?_touch, if_neg (Ne.symm ht)] at hu
      by_cases hkept : u.problem ∈ l.evicted t
      · rw [if_pos hkept] at hu
        cases hu
      · rw [if_neg hkept] at hu
        exact isKnown_touch (h u ht hu) hkept

theorem Tidy.registerTask_reserve (hl : l.Tidy) (t : TaskId) :
    ((l.reserve t).registerTask t).Tidy := by
  refine tidy_touch (hl.consistent.reserve t) fun u hu hrecord => ?_
  rw [record?_reserve, if_neg (Ne.symm hu)] at hrecord
  exact hl.isKnown hrecord

theorem Tidy.registerResult (hl : l.Tidy) (t : TaskId) (w : Worker) :
    (l.registerResult t w).Tidy where
  consistent := hl.consistent.registerResult t w
  isKnown {u} hu := by
    have htouch : (l.touch t).Tidy := tidy_touch hl.consistent fun u _ => hl.isKnown
    rw [isKnown_registerResult]
    rw [record?_registerResult] at hu
    split at hu
    · rename_i ht
      rw [← ht.1]
      exact hl.consistent.isKnown_touch_self t
    · exact htouch.isKnown hu

/-! ## A reservation and its release -/

theorem reserve_of_unrecorded (h : l.record? t = none) :
    l.reserve t = { l with records := l.records.insert t (.new t) } := by
  have hcontains : l.records.contains t = false := by
    rw [Table.contains, show l.records.get? t = none from h]
    rfl
  rw [reserve, Table.insertIfNew, hcontains, if_neg Bool.false_ne_true]

theorem reserve_of_recorded (h : (l.record? t).isSome) : l.reserve t = l := by
  have hcontains : l.records.contains t = true := h
  rw [reserve, Table.insertIfNew, hcontains, if_pos rfl]

/-- A known task keeps the record that the reservation has given it. -/
theorem release_reserve_of_isKnown (h : l.isKnown t = true) :
    (l.reserve t).release t = l.reserve t :=
  if_pos h

/-- **A reservation that is released** leaves no trace if the task is not known. -/
theorem Tidy.release_reserve (hl : l.Tidy) (h : l.isKnown t = false) :
    (l.reserve t).release t = l := by
  have hnone : l.record? t = none := by
    rw [← Option.not_isSome_iff_eq_none]
    intro hsome
    rw [hl.isKnown hsome] at h
    cases h
  rw [release, isKnown_reserve, h, if_neg Bool.false_ne_true, reserve_of_unrecorded hnone]
  show { l with records := (l.records.insert t (.new t)).erase t } = l
  rw [Table.erase_insert _ hnone]

theorem Tidy.release_reserve_tidy (hl : l.Tidy) (t : TaskId) :
    ((l.reserve t).release t).Tidy := by
  cases h : l.isKnown t with
  | false =>
      rw [hl.release_reserve h]
      exact hl
  | true =>
      rw [release_reserve_of_isKnown h]
      refine ⟨hl.consistent.reserve t, fun {u} hu => ?_⟩
      rw [isKnown_reserve]
      rw [record?_reserve] at hu
      split at hu
      · rename_i ht
        rw [← ht]
        exact h
      · exact hl.isKnown hu

/-! ## The task after a base -/

theorem Consistent.problem_base (hl : l.Consistent) (t : TaskId) :
    (l.base t).problem = t.problem := by
  unfold base
  cases h : l.latest.get? t.problem with
  | none => rfl
  | some u =>
      dsimp only
      split
      · exact hl.latest_problem h
      · rfl

/-- The task after a base is beyond all that is known of its problem. -/
theorem Consistent.isKnown_eq_false_of_next?_base (hl : l.Consistent) {candidate : TaskId}
    (h : (l.base candidate).next? = some t) : l.isKnown t = false := by
  obtain ⟨hproblem, hlt⟩ := TaskId.lt_iff.mp (TaskId.lt_of_next? h)
  unfold base at hproblem hlt
  cases hlatest : l.latest.get? candidate.problem with
  | none =>
      simp only [hlatest] at hproblem
      rw [Ledger.isKnown, ← hproblem, hlatest]
  | some v =>
      have hv : v.problem = candidate.problem := hl.latest_problem hlatest
      simp only [hlatest] at hproblem hlt
      -- either way the base is at the iteration of `v` or beyond it
      have hbeyond : candidate.problem = t.problem ∧ v.iteration < t.iteration := by
        split at hproblem
        · rename_i hmoved
          rw [if_pos hmoved] at hlt
          exact ⟨hv.symm.trans hproblem, hlt⟩
        · rename_i hmoved
          rw [if_neg hmoved] at hlt
          exact ⟨hproblem, UInt32.lt_of_le_of_lt (UInt32.not_lt.mp hmoved) hlt⟩
      rw [Ledger.isKnown, ← hbeyond.1, hlatest]
      exact decide_eq_false (UInt32.not_le.mpr hbeyond.2)

end Ledger

end WorkerPipeline
