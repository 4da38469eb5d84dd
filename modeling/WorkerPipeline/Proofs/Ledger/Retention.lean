import WorkerPipeline.Proofs.Ledger.Consistency

set_option autoImplicit false

/-! # Which problems are dropped

As long as problems are started one after the other, the ledger tracks the newest of them, as many
as the limit allows and at least one (`keys_latest_touch_newest`). A task of a problem that is
tracked already drops nothing (`evicted_of_tracked`).
-/

namespace WorkerPipeline

namespace Ledger

/-- The number of tracked problems is within the limit, where a limit of zero still admits one. -/
def IsWithinLimit (l : Ledger) : Prop :=
  ∀ limit, l.limit = some limit → l.latest.keys.length ≤ max 1 limit

/-- The newest problems of a list, as many as a limit allows. -/
def newestWithin (limit : Option Nat) (problems : List UInt32) : List UInt32 :=
  match limit with
  | none => problems
  | some limit => problems.drop (problems.length - max 1 limit)

theorem mem_of_mem_newestWithin {limit : Option Nat} {problems : List UInt32} {p : UInt32}
    (h : p ∈ newestWithin limit problems) : p ∈ problems := by
  cases limit with
  | none => exact h
  | some limit => exact List.mem_of_mem_drop h

theorem length_newestWithin_le (limit : Nat) (problems : List UInt32) :
    (newestWithin (some limit) problems).length ≤ max 1 limit := by
  rw [newestWithin, List.length_drop]
  omega

/-- The newest problems and one more determine the newest ones afterwards. -/
theorem newestWithin_append (limit : Option Nat) (problems : List UInt32) (p : UInt32) :
    newestWithin limit (newestWithin limit problems ++ [p]) =
      newestWithin limit (problems ++ [p]) := by
  cases limit with
  | none => rfl
  | some limit =>
      simp only [newestWithin, List.length_append, List.length_drop, List.length_singleton]
      by_cases h : problems.length ≤ max 1 limit
      · rw [Nat.sub_eq_zero_of_le h, List.drop_zero, Nat.sub_zero]
      · have hlength := List.length_drop (i := problems.length - max 1 limit) (l := problems)
        rw [List.drop_append_of_le_length (by omega), List.drop_drop,
          List.drop_append_of_le_length (by omega)]
        congr 2
        omega

theorem keys_latest_touch (l : Ledger) (t : TaskId) :
    (l.touch t).latest.keys =
      (l.enroll t).latest.keys.filter fun p => !decide (p ∈ l.evicted t) :=
  Table.keys_filterKeys _ _

/-! ## Problems that are tracked already -/

theorem keys_latest_enroll_of_tracked {l : Ledger} {t u : TaskId}
    (h : l.latest.get? t.problem = some u) : (l.enroll t).latest.keys = l.latest.keys := by
  show (l.advance t).latest.keys = l.latest.keys
  unfold advance
  simp only [h]
  split
  · exact Table.keys_insert_of_get? h
  · rfl

/-- **A task of a tracked problem** drops nothing. -/
theorem evicted_of_tracked {l : Ledger} (hl : l.IsWithinLimit) {t u : TaskId}
    (h : l.latest.get? t.problem = some u) : l.evicted t = [] := by
  have hkeys := keys_latest_enroll_of_tracked h
  unfold evicted surplus
  cases hlimit : (l.enroll t).limit with
  | none => rfl
  | some limit =>
      have hsize := hl limit hlimit
      simp only [Table.size_eq_length_keys, hkeys]
      by_cases hzero : limit = 0
      · -- the one problem that is tracked is the task's own
        have hmem : t.problem ∈ l.latest.keys := Table.mem_keys.mpr (by rw [h]; rfl)
        have hone : l.latest.keys = [t.problem] := by
          match hk : l.latest.keys with
          | [] => rw [hk] at hmem; cases hmem
          | [p] => rw [hk, List.mem_singleton] at hmem; rw [hmem]
          | p :: q :: ps =>
              rw [hk, hzero] at hsize
              simp at hsize
        simp [hone, isProtected]
      · rw [Nat.sub_eq_zero_of_le (by omega), List.take_zero]

theorem keys_latest_touch_of_tracked {l : Ledger} (hl : l.IsWithinLimit) {t u : TaskId}
    (h : l.latest.get? t.problem = some u) : (l.touch t).latest.keys = l.latest.keys := by
  rw [keys_latest_touch, keys_latest_enroll_of_tracked h, evicted_of_tracked hl h]
  simp

/-! ## A problem that is newer than all others -/

section

variable {l : Ledger} {t : TaskId}

theorem keys_latest_enroll_of_newest (h : ∀ p ∈ l.latest.keys, p < t.problem) :
    (l.enroll t).latest.keys = l.latest.keys ++ [t.problem] := by
  have hnone : l.latest.get? t.problem = none := by
    cases hu : l.latest.get? t.problem with
    | none => rfl
    | some u =>
        have hmem : t.problem ∈ l.latest.keys := Table.mem_keys.mpr (by rw [hu]; rfl)
        exact absurd (h _ hmem) (UInt32.lt_irrefl _)
  show (l.advance t).latest.keys = _
  unfold advance
  simp only [hnone]
  exact Table.keys_insert_of_forall_before fun p hp => UInt32.lt_iff_toNat_lt.mp (h p hp)

theorem last_enroll_of_newest (hl : l.Consistent) (h : ∀ p ∈ l.latest.keys, p < t.problem) :
    (l.enroll t).last = some t := by
  show (l.advance t).last = some t
  unfold advance
  refine if_pos ?_
  cases hlast : l.last with
  | none => rfl
  | some u =>
      have hmem : u.problem ∈ l.latest.keys :=
        Table.mem_keys.mpr (by rw [hl.latest_last hlast]; rfl)
      simp [supersedes, h _ hmem]

/-- The problems that a newer one drives out are the oldest. -/
theorem evicted_of_newest (hl : l.Consistent) (h : ∀ p ∈ l.latest.keys, p < t.problem) :
    l.evicted t = match l.limit with
      | none => []
      | some limit => l.latest.keys.take (l.latest.keys.length + 1 - limit) := by
  -- the newer problem is also that of the latest task, so no other is protected
  have hprotected :
      (fun p => !(l.enroll t).isProtected t.problem p) = fun p => decide (p ≠ t.problem) := by
    funext p
    rw [isProtected, last_enroll_of_newest hl h]
    by_cases hp : p = t.problem
    · simp [hp]
    · simp [hp, Ne.symm hp]
  have hfilter : (l.latest.keys ++ [t.problem]).filter (fun p => decide (p ≠ t.problem)) =
      l.latest.keys := by
    have hall : l.latest.keys.filter (fun p => decide (p ≠ t.problem)) = l.latest.keys := by
      rw [List.filter_eq_self]
      intro p hp
      exact decide_eq_true (UInt32.ne_of_lt (h p hp))
    rw [List.filter_append, hall]
    simp
  show (l.enroll t).surplus t.problem = _
  unfold surplus
  rw [hprotected, keys_latest_enroll_of_newest h, hfilter, Table.size_eq_length_keys,
    keys_latest_enroll_of_newest h, List.length_append, List.length_singleton]
  rfl

theorem filter_not_mem_take {problems : List UInt32} (h : problems.Nodup) (n : Nat) :
    problems.filter (fun p => !decide (p ∈ problems.take n)) = problems.drop n := by
  rw [← List.take_append_drop n problems, List.nodup_append] at h
  have htake : (problems.take n).filter (fun p => !decide (p ∈ problems.take n)) = [] := by
    rw [List.filter_eq_nil_iff]
    intro p hp
    simp [hp]
  have hdrop : (problems.drop n).filter (fun p => !decide (p ∈ problems.take n)) =
      problems.drop n := by
    rw [List.filter_eq_self]
    intro p hp
    have hnot : p ∉ problems.take n := fun hmem => h.2.2 p hmem p hp rfl
    simp [hnot]
  calc problems.filter (fun p => !decide (p ∈ problems.take n))
      = (problems.take n ++ problems.drop n).filter (fun p => !decide (p ∈ problems.take n)) := by
        rw [List.take_append_drop]
    _ = problems.drop n := by rw [List.filter_append, htake, hdrop, List.nil_append]

/-- **A problem that is newer than all others** is tracked, with the newest of the others. -/
theorem keys_latest_touch_of_newest (hl : l.Consistent) (h : ∀ p ∈ l.latest.keys, p < t.problem) :
    (l.touch t).latest.keys = newestWithin l.limit (l.latest.keys ++ [t.problem]) := by
  rw [keys_latest_touch, keys_latest_enroll_of_newest h, List.filter_append]
  have hself : [t.problem].filter (fun p => !decide (p ∈ l.evicted t)) = [t.problem] := by
    simp [not_mem_evicted l t]
  rw [hself, evicted_of_newest hl h]
  cases l.limit with
  | none => simp [newestWithin]
  | some limit =>
      simp only [filter_not_mem_take l.latest.keys_nodup, newestWithin, List.length_append,
        List.length_singleton]
      by_cases hzero : limit = 0
      · -- the newer problem is protected, so one is left even then
        subst hzero
        rw [List.drop_of_length_le (by omega), List.nil_append]
        show [t.problem] = (l.latest.keys ++ [t.problem]).drop (l.latest.keys.length + 1 - 1)
        rw [Nat.add_sub_cancel, List.drop_left]
      · rw [show max 1 limit = limit by omega, List.drop_append_of_le_length (by omega)]

/-- What is tracked no more has been dropped. -/
theorem mem_evicted_of_newest (h : ∀ p ∈ l.latest.keys, p < t.problem) {p : UInt32}
    (hp : p ∈ l.latest.keys) : p ∈ l.evicted t ↔ p ∉ (l.touch t).latest.keys := by
  rw [keys_latest_touch, keys_latest_enroll_of_newest h, List.mem_filter]
  have hmem : p ∈ l.latest.keys ++ [t.problem] := List.mem_append_left _ hp
  simp only [hmem, true_and, Bool.not_eq_true', decide_eq_false_iff_not, not_not]

/-- What a newer problem leaves of the others: the records of those that are still tracked. -/
theorem record?_touch_of_newest (h : ∀ p ∈ l.latest.keys, p < t.problem)
    (hrecord : ∀ u, (l.record? u).isSome → u.problem = t.problem ∨ u.problem ∈ l.latest.keys)
    {u : TaskId} (hu : u.problem ≠ t.problem) :
    (l.touch t).record? u =
      if u.problem ∈ (l.touch t).latest.keys then l.record? u else none := by
  have hne : t ≠ u := fun heq => hu (heq ▸ rfl)
  rw [record?_touch, if_neg hne]
  by_cases hp : u.problem ∈ l.latest.keys
  · have hevicted := mem_evicted_of_newest h hp
    by_cases hkept : u.problem ∈ (l.touch t).latest.keys
    · rw [if_pos hkept, if_neg fun hmem => hevicted.mp hmem hkept]
    · rw [if_neg hkept, if_pos (hevicted.mpr hkept)]
  · have hnone : l.record? u = none := by
      rw [← Option.not_isSome_iff_eq_none]
      exact fun hsome => (hrecord u hsome).elim hu hp
    rw [hnone]
    split <;> split <;> rfl

theorem latest_touch_of_newest {p : UInt32} (hp : p ≠ t.problem)
    (hkept : p ∈ (l.touch t).latest.keys) :
    (l.touch t).latest.get? p = l.latest.get? p := by
  rw [Table.mem_keys, latest_touch] at hkept
  rw [latest_touch]
  split
  · rename_i hevicted
    rw [if_pos hevicted] at hkept
    cases hkept
  · rw [if_neg (Ne.symm hp)]

end

end Ledger

end WorkerPipeline
