import WorkerPipeline.Proofs.Ledger.History

set_option autoImplicit false

/-! # The parts of a ledger agree

A ledger keeps three things that have to fit together: the records, the latest task of each
problem and the latest task of all. `Consistent` says how they fit, and every ledger that comes of
a history is consistent (`consistent_run`), whatever its limit.

The bound on the number of problems needs the two protected problems: dropping stops either at the
limit or where only protected problems are left, and there are at most two of them.
-/

namespace WorkerPipeline

namespace Ledger

structure Consistent (l : Ledger) : Prop where
  record_task : ∀ {t r}, l.record? t = some r → r.task = t
  record_slots : ∀ {t r}, l.record? t = some r → r.HasSlots
  last_eq_none : l.last = none ↔ l.latest = ∅
  latest_last : ∀ {t}, l.last = some t → l.latest.get? t.problem = some t
  problem_le_last : ∀ {t p u}, l.last = some t → l.latest.get? p = some u → p ≤ t.problem
  latest_problem : ∀ {p u}, l.latest.get? p = some u → u.problem = p
  latest_record : ∀ {p u}, l.latest.get? p = some u → (l.record? u).isSome
  /-- A result has arrived only for tasks of tracked problems, and for none after the latest. -/
  le_latest : ∀ {t w}, l.available t w = true →
    ∃ u, l.latest.get? t.problem = some u ∧ t.iteration ≤ u.iteration
  size_latest : ∀ {limit}, l.limit = some limit → l.latest.size ≤ max limit 2

/-! ## Known tasks -/

theorem isKnown_iff {l : Ledger} {t : TaskId} :
    l.isKnown t = true ↔ ∃ u, l.latest.get? t.problem = some u ∧ t.iteration ≤ u.iteration := by
  unfold isKnown
  cases l.latest.get? t.problem <;> simp

/-- The latest task of a problem is itself known. -/
theorem Consistent.isKnown_latest {l : Ledger} (hl : l.Consistent) {p : UInt32} {u : TaskId}
    (h : l.latest.get? p = some u) : l.isKnown u = true := by
  rw [isKnown_iff]
  exact ⟨u, by rw [hl.latest_problem h]; exact h, UInt32.le_refl _⟩

theorem Consistent.isKnown_of_available {l : Ledger} (hl : l.Consistent) {t : TaskId} {w : Worker}
    (h : l.available t w = true) : l.isKnown t = true :=
  isKnown_iff.mpr (hl.le_latest h)

/-! ## Results under consistency -/

theorem Consistent.isNew_iff {l : Ledger} (hl : l.Consistent) (t : TaskId) (w : Worker) :
    l.isNew t w = true ↔ w.isTracked = true ∧ l.available t w = false := by
  rw [isNew_eq, available]
  cases hr : l.record? t with
  | none => rw [Option.getD_none, (TaskRecord.hasSlots_new t).awaits_iff, TaskRecord.has_new]
  | some r => rw [Option.getD_some, (hl.record_slots hr).awaits_iff]

theorem Consistent.isTracked_of_available {l : Ledger} (hl : l.Consistent) {t : TaskId} {w : Worker}
    (h : l.available t w = true) : w.isTracked = true := by
  obtain ⟨r, hr, hw⟩ := available_eq_true_iff.mp h
  exact (hl.record_slots hr).isTracked_of_has hw

/-! ## Reserving and releasing -/

theorem consistent_new (limit : Option Nat) : (new limit).Consistent where
  record_task h := by cases h
  record_slots h := by cases h
  last_eq_none := ⟨fun _ => rfl, fun _ => rfl⟩
  latest_last h := by cases h
  problem_le_last h := by cases h
  latest_problem h := by cases h
  latest_record h := by cases h
  le_latest h := by cases h
  size_latest _ := Nat.zero_le _

/-- A record is an old one or the blank one of the reserved task. -/
theorem record?_reserve_cases {l : Ledger} {t u : TaskId} {r : TaskRecord}
    (h : (l.reserve t).record? u = some r) : l.record? u = some r ∨ (u = t ∧ r = .new t) := by
  rw [record?_reserve] at h
  split at h
  · subst u
    cases hr : l.record? t with
    | none =>
        rw [hr] at h
        cases h
        exact .inr ⟨rfl, rfl⟩
    | some q =>
        rw [hr] at h
        exact .inl h
  · exact .inl h

theorem Consistent.reserve {l : Ledger} (hl : l.Consistent) (t : TaskId) :
    (l.reserve t).Consistent where
  record_task h := by
    rcases record?_reserve_cases h with hold | ⟨rfl, rfl⟩
    · exact hl.record_task hold
    · rfl
  record_slots h := by
    rcases record?_reserve_cases h with hold | ⟨rfl, rfl⟩
    · exact hl.record_slots hold
    · exact TaskRecord.hasSlots_new _
  last_eq_none := hl.last_eq_none
  latest_last := hl.latest_last
  problem_le_last := hl.problem_le_last
  latest_problem := hl.latest_problem
  latest_record {p u} h := by
    rw [record?_reserve]
    split
    · rfl
    · exact hl.latest_record h
  le_latest {u w} h := hl.le_latest (available_reserve l t u w ▸ h)
  size_latest := hl.size_latest

theorem record?_of_release {l : Ledger} {t u : TaskId} {r : TaskRecord}
    (h : (l.release t).record? u = some r) : l.record? u = some r := by
  rw [record?_release] at h
  split at h
  · cases h
  · exact h

/-- Releasing a task takes no record away that somebody could miss. -/
theorem record?_release_of_isKnown {l : Ledger} {t u : TaskId}
    (h : l.isKnown u = true) : (l.release t).record? u = l.record? u := by
  rw [record?_release, if_neg]
  rintro ⟨rfl, hk⟩
  rw [h] at hk
  cases hk

theorem Consistent.available_release {l : Ledger} (hl : l.Consistent) (t u : TaskId) (w : Worker) :
    (l.release t).available u w = l.available u w := by
  cases ha : l.available u w with
  | true =>
      rw [available, record?_release_of_isKnown (hl.isKnown_of_available ha)]
      exact ha
  | false =>
      rw [← Bool.not_eq_true, available_eq_true_iff] at ha ⊢
      rintro ⟨r, hr, hw⟩
      exact ha ⟨r, record?_of_release hr, hw⟩

theorem Consistent.release {l : Ledger} (hl : l.Consistent) (t : TaskId) :
    (l.release t).Consistent where
  record_task h := hl.record_task (record?_of_release h)
  record_slots h := hl.record_slots (record?_of_release h)
  last_eq_none := by rw [last_release, latest_release]; exact hl.last_eq_none
  latest_last h := by rw [latest_release]; exact hl.latest_last (last_release l t ▸ h)
  problem_le_last h hp :=
    hl.problem_le_last (last_release l t ▸ h) (latest_release l t ▸ hp)
  latest_problem h := hl.latest_problem (latest_release l t ▸ h)
  latest_record {p u} h := by
    rw [latest_release] at h
    rw [record?_release_of_isKnown (hl.isKnown_latest h)]
    exact hl.latest_record h
  le_latest h := by
    rw [latest_release]
    exact hl.le_latest (hl.available_release t _ _ ▸ h)
  size_latest h := by
    rw [latest_release]
    exact hl.size_latest (limit_release l t ▸ h)

/-! ## The number of tracked problems -/

/-- At most two problems are protected. -/
theorem length_protected_le (l : Ledger) (touched : UInt32) :
    (l.latest.keys.filter (l.isProtected touched)).length ≤ 2 := by
  have hnodup : (l.latest.keys.filter (l.isProtected touched)).Nodup :=
    l.latest.keys_nodup.filter _
  have hsub : (l.latest.keys.filter (l.isProtected touched)) ⊆
      [touched, (l.last.map TaskId.problem).getD 0] := by
    intro p hp
    have hprotected := (List.mem_filter.mp hp).2
    simp only [isProtected, Bool.or_eq_true, decide_eq_true_eq] at hprotected
    rcases hprotected with rfl | hlast
    · simp
    · simp [hlast]
  exact hnodup.length_le_of_subset hsub

/-- The problems that are dropped are tracked before, and none of them twice. -/
theorem length_surplus_add (l : Ledger) (touched : UInt32) :
    (l.latest.keys.filter fun p => !decide (p ∈ l.surplus touched)).length +
      (l.surplus touched).length = l.latest.size := by
  have hsublist : (l.surplus touched).Sublist l.latest.keys := by
    unfold surplus
    cases l.limit with
    | none => exact List.nil_sublist _
    | some limit => exact (List.take_sublist _ _).trans List.filter_sublist
  have hmem : (l.latest.keys.filter fun p => decide (p ∈ l.surplus touched)).length =
      (l.surplus touched).length := by
    apply Nat.le_antisymm
    · refine List.Nodup.length_le_of_subset (l.latest.keys_nodup.filter _) fun p hp => ?_
      simpa using (List.mem_filter.mp hp).2
    · refine List.Nodup.length_le_of_subset (hsublist.nodup l.latest.keys_nodup) fun p hp => ?_
      exact List.mem_filter.mpr ⟨hsublist.subset hp, by simpa using hp⟩
  have hsplit := (List.filter_append_perm (fun p => decide (p ∈ l.surplus touched))
    l.latest.keys).length_eq
  rw [List.length_append] at hsplit
  rw [Table.size_eq_length_keys]
  omega

theorem size_latest_drop_le {l : Ledger} {touched : UInt32} {limit : Nat}
    (h : l.limit = some limit) : (l.drop (l.surplus touched)).latest.size ≤ max limit 2 := by
  have hsize : (l.drop (l.surplus touched)).latest.size =
      (l.latest.keys.filter fun p => !decide (p ∈ l.surplus touched)).length := by
    rw [Table.size_eq_length_keys]
    exact congrArg List.length (Table.keys_filterKeys _ _)
  have hadd := length_surplus_add l touched
  have hprotected := length_protected_le l touched
  -- the tracked problems are the protected ones and the others
  have hsplit := (List.filter_append_perm (l.isProtected touched) l.latest.keys).length_eq
  rw [List.length_append] at hsplit
  have hsurplus : (l.surplus touched).length =
      min (l.latest.size - limit) (l.latest.keys.filter fun p => !l.isProtected touched p).length := by
    simp [surplus, h]
  rw [Table.size_eq_length_keys] at hadd hsurplus
  -- either the limit is reached, or all problems that are left are protected
  rcases Nat.le_total (l.latest.keys.length - limit)
    (l.latest.keys.filter fun p => !l.isProtected touched p).length with hlimit | hleft
  · rw [Nat.min_eq_left hlimit] at hsurplus
    omega
  · rw [Nat.min_eq_right hleft] at hsurplus
    omega

theorem size_latest_touch_le {l : Ledger} (t : TaskId) {limit : Nat} (h : l.limit = some limit) :
    (l.touch t).latest.size ≤ max limit 2 :=
  size_latest_drop_le (l := l.enroll t) h

/-! ## Touching a task -/

theorem last_touch_ne_none (l : Ledger) (t : TaskId) : (l.touch t).last ≠ none := by
  rw [last_touch]
  split
  · exact Option.some_ne_none t
  · rename_i h
    intro hnone
    rw [hnone] at h
    exact h rfl

theorem latest_touch_self (l : Ledger) (t : TaskId) :
    (l.touch t).latest.get? t.problem = some (later t (l.latest.get? t.problem)) := by
  rw [latest_touch, if_neg (not_mem_evicted l t), if_pos rfl]

/-- The problem of the task that is the latest afterwards stays. -/
theorem not_mem_evicted_of_last_touch {l : Ledger} {t u : TaskId} (h : (l.touch t).last = some u) :
    u.problem ∉ l.evicted t :=
  not_mem_evicted_of_last h

/-- Either the touched task is the latest afterwards, or the latest task is what it was and the
touched one is not beyond it. -/
theorem last_touch_cases {l : Ledger} {t u : TaskId} (h : (l.touch t).last = some u) :
    (u = t ∧ ∀ v, l.last = some v → Key.before v t) ∨
      (l.last = some u ∧ ¬ Key.before u t) := by
  rw [last_touch] at h
  split at h
  · rename_i hs
    cases h
    refine .inl ⟨rfl, fun v hv => ?_⟩
    rw [hv] at hs
    exact supersedes_some.mp hs
  · rename_i hs
    rw [h] at hs
    exact .inr ⟨h, fun hb => hs (supersedes_some.mpr hb)⟩

theorem later_some (t u : TaskId) : later t (some u) = if u < t then t else u := rfl

theorem le_later_left (t : TaskId) {o : Option TaskId}
    (ho : ∀ {u}, o = some u → u.problem = t.problem) :
    t.iteration ≤ (later t o).iteration := by
  cases o with
  | none => exact UInt32.le_refl _
  | some u =>
      rw [later_some]
      split
      · exact UInt32.le_refl _
      · rename_i h
        rw [TaskId.lt_iff] at h
        have hproblem := ho rfl
        grind

theorem le_later_right (t u : TaskId) : u.iteration ≤ (later t (some u)).iteration := by
  rw [later_some]
  split
  · rename_i h
    exact UInt32.le_of_lt (TaskId.lt_iff.mp h).2
  · exact UInt32.le_refl _

theorem later_eq_or (t : TaskId) (o : Option TaskId) : later t o = t ∨ o = some (later t o) := by
  cases o with
  | none => exact .inl rfl
  | some u =>
      rw [later_some]
      split
      · exact .inl rfl
      · exact .inr rfl

/-- A task beyond the latest of all is the latest of its problem. -/
theorem Consistent.later_of_beyond {l : Ledger} (hl : l.Consistent) {t : TaskId}
    (h : ∀ v, l.last = some v → Key.before v t) : later t (l.latest.get? t.problem) = t := by
  cases hp : l.latest.get? t.problem with
  | none => rfl
  | some u =>
      have hlatest : l.latest ≠ ∅ := by
        intro hempty
        rw [hempty] at hp
        cases hp
      cases hlast : l.last with
      | none => exact absurd (hl.last_eq_none.mp hlast) hlatest
      | some v =>
          have hle : t.problem ≤ v.problem := hl.problem_le_last hlast hp
          rcases TaskId.before_iff.mp (h v hlast) with hlt | ⟨heq, hlt⟩
          · -- a tracked problem is not newer than that of the latest task
            exact absurd (UInt32.le_iff_toNat_le.mp hle) (Nat.not_le.mpr hlt)
          · have hv := hl.latest_last hlast
            rw [heq, hp] at hv
            cases hv
            rw [later_some, if_pos (TaskId.lt_iff.mpr ⟨heq, UInt32.lt_iff_toNat_lt.mpr hlt⟩)]

/-- What is tracked after touching a task was tracked before or is that task. -/
theorem latest_touch_cases {l : Ledger} {t u : TaskId} {p : UInt32}
    (h : (l.touch t).latest.get? p = some u) :
    p ∉ l.evicted t ∧ (l.latest.get? p = some u ∨ (t.problem = p ∧ u = t)) := by
  rw [latest_touch] at h
  split at h
  · cases h
  · rename_i hp
    refine ⟨hp, ?_⟩
    split at h
    · rename_i hproblem
      cases h
      rcases later_eq_or t (l.latest.get? p) with heq | hold
      · exact .inr ⟨hproblem, heq⟩
      · exact .inl hold
    · exact .inl h

/-- Touching a task reserves a record for it; others are only dropped. -/
theorem record?_of_touch {l : Ledger} {t u : TaskId} {r : TaskRecord}
    (h : (l.touch t).record? u = some r) : (l.reserve t).record? u = some r := by
  rw [record?_touch] at h
  split at h
  · cases h
  · rw [record?_reserve]
    split at h
    · subst u
      rwa [if_pos rfl]
    · rename_i hne
      rwa [if_neg hne]

theorem Consistent.latest_touch_last {l : Ledger} (hl : l.Consistent) {t u : TaskId}
    (h : (l.touch t).last = some u) : (l.touch t).latest.get? u.problem = some u := by
  rcases last_touch_cases h with ⟨rfl, hbeyond⟩ | ⟨hlast, hnot⟩
  · rw [latest_touch_self, hl.later_of_beyond hbeyond]
  · rw [latest_touch, if_neg (not_mem_evicted_of_last_touch h), hl.latest_last hlast]
    split
    · rename_i hp
      rw [later_some, if_neg]
      intro hlt
      exact hnot (TaskId.before_iff.mpr (.inr ⟨hlt.1, UInt32.lt_iff_toNat_lt.mp hlt.2⟩))
    · rfl

theorem Consistent.touch_problem_le_last {l : Ledger} (hl : l.Consistent) {t u v : TaskId}
    {p : UInt32} (h : (l.touch t).last = some u) (hp : (l.touch t).latest.get? p = some v) :
    p ≤ u.problem := by
  obtain ⟨-, hold | ⟨rfl, -⟩⟩ := latest_touch_cases hp
  · rcases last_touch_cases h with ⟨rfl, hbeyond⟩ | ⟨hlast, -⟩
    · -- the latest task so far has a problem from `p` on, and `u` is beyond it
      cases hlast : l.last with
      | none =>
          rw [hl.last_eq_none.mp hlast] at hold
          cases hold
      | some w =>
          have hw := hl.problem_le_last hlast hold
          have hbefore := TaskId.before_iff.mp (hbeyond w hlast)
          rw [UInt32.le_iff_toNat_le] at hw ⊢
          rcases hbefore with hlt | ⟨heq, -⟩
          · omega
          · rw [← heq]
            exact hw
    · exact hl.problem_le_last hlast hold
  · rcases last_touch_cases h with ⟨rfl, -⟩ | ⟨-, hnot⟩
    · exact UInt32.le_refl _
    · rw [TaskId.before_iff, not_or, Nat.not_lt] at hnot
      rw [UInt32.le_iff_toNat_le]
      exact hnot.1

theorem Consistent.touch {l : Ledger} (hl : l.Consistent) (t : TaskId) :
    (l.touch t).Consistent where
  record_task h := (hl.reserve t).record_task (record?_of_touch h)
  record_slots h := (hl.reserve t).record_slots (record?_of_touch h)
  last_eq_none := by
    constructor
    · intro h
      exact absurd h (last_touch_ne_none l t)
    · intro h
      have hself := latest_touch_self l t
      rw [h] at hself
      cases hself
  latest_last h := hl.latest_touch_last h
  problem_le_last h hp := hl.touch_problem_le_last h hp
  latest_problem h := by
    obtain ⟨-, hold | ⟨hproblem, rfl⟩⟩ := latest_touch_cases h
    · exact hl.latest_problem hold
    · exact hproblem
  latest_record h := by
    obtain ⟨hp, hold | ⟨-, rfl⟩⟩ := latest_touch_cases h
    · -- the record was there, and its problem stays
      rw [record?_touch, hl.latest_problem hold, if_neg hp]
      split
      · rfl
      · exact hl.latest_record hold
    · rw [record?_touch_self]
      rfl
  le_latest {u w} h := by
    rw [available_touch, Bool.and_eq_true, Bool.not_eq_true', decide_eq_false_iff_not] at h
    obtain ⟨v, hv, hle⟩ := hl.le_latest h.2
    rw [latest_touch, if_neg h.1]
    split
    · refine ⟨_, rfl, ?_⟩
      rw [hv]
      exact UInt32.le_trans hle (le_later_right t v)
    · exact ⟨v, hv, hle⟩
  size_latest h := size_latest_touch_le t h

/-! ## Registering a result -/

/-- The record of a task is well-formed, also if it has to be made first. -/
theorem Consistent.record_getD {l : Ledger} (hl : l.Consistent) (t : TaskId) :
    ((l.record? t).getD (.new t)).HasSlots ∧ ((l.record? t).getD (.new t)).task = t := by
  cases hr : l.record? t with
  | none => exact ⟨TaskRecord.hasSlots_new t, rfl⟩
  | some r => exact ⟨hl.record_slots hr, hl.record_task hr⟩

theorem Consistent.registerResult {l : Ledger} (hl : l.Consistent) (t : TaskId) (w : Worker) :
    (l.registerResult t w).Consistent := by
  have htouch : (l.touch t).Consistent := hl.touch t
  have hold := hl.record_getD t
  constructor
  case record_task =>
    intro u r h
    rw [record?_registerResult] at h
    split at h
    · rename_i hu
      obtain ⟨rfl, -⟩ := hu
      cases h
      exact hold.2
    · exact htouch.record_task h
  case record_slots =>
    intro u r h
    rw [record?_registerResult] at h
    split at h
    · rename_i hu
      obtain ⟨rfl, hnew⟩ := hu
      cases h
      exact hold.1.mark (isNew_eq l t w ▸ hnew)
    · exact htouch.record_slots h
  case last_eq_none =>
    rw [last_registerResult, latest_registerResult]
    exact htouch.last_eq_none
  case latest_last =>
    intro u h
    rw [latest_registerResult]
    exact htouch.latest_last (last_registerResult l t w ▸ h)
  case problem_le_last =>
    intro u p v h hp
    exact htouch.problem_le_last (last_registerResult l t w ▸ h) (latest_registerResult l t w ▸ hp)
  case latest_problem =>
    intro p u h
    exact htouch.latest_problem (latest_registerResult l t w ▸ h)
  case latest_record =>
    intro p u h
    rw [latest_registerResult] at h
    rw [record?_registerResult]
    split
    · rfl
    · exact htouch.latest_record h
  case le_latest =>
    intro u v h
    rw [latest_registerResult]
    rw [available_registerResult, ← available_touch, Bool.or_eq_true] at h
    rcases h with h | h
    · -- the result that is registered: its task has just been touched
      have hu : t = u := by
        simp only [Bool.and_eq_true, decide_eq_true_eq] at h
        exact h.1.1
      subst u
      refine ⟨_, latest_touch_self l t, le_later_left t fun hlatest => ?_⟩
      exact hl.latest_problem hlatest
    · exact htouch.le_latest h
  case size_latest =>
    intro limit h
    rw [latest_registerResult]
    exact htouch.size_latest (limit_registerResult l t w ▸ h)

/-! ## Histories -/

theorem Consistent.apply {l : Ledger} (hl : l.Consistent) (s : Step) : (l.apply s).Consistent := by
  cases s with
  | reserve t => exact hl.reserve t
  | release t => exact hl.release t
  | registerTask t => exact hl.touch t
  | registerResult t w => exact hl.registerResult t w

/-- Every ledger that comes of a history is consistent. -/
theorem consistent_run (limit : Option Nat) (steps : List Step) :
    ((new limit).run steps).Consistent := by
  induction steps using List.reverseRecOn with
  | nil => exact consistent_new limit
  | append_singleton steps s ih =>
      rw [run_concat]
      exact ih.apply s

/-- **The parts of a ledger agree** after every history, and no release takes away the record of
a result that has arrived. -/
theorem history_consistent (limit : Option Nat) (steps : List Step) :
    ((new limit).run steps).Consistent ∧
      (∀ t, ((new limit).run steps).last = some t →
        (((new limit).run steps).record? t).isSome) ∧
      ∀ t u r w, ((new limit).run steps).record? u = some r → r.has w = true →
        (((new limit).run steps).release t).record? u = some r := by
  have hl := consistent_run limit steps
  refine ⟨hl, fun t ht => hl.latest_record (hl.latest_last ht), fun t u r w hr hw => ?_⟩
  have hknown : ((new limit).run steps).isKnown u = true :=
    hl.isKnown_of_available (available_eq_true_iff.mpr ⟨r, hr, hw⟩)
  rw [record?_release_of_isKnown hknown, hr]

end Ledger

end WorkerPipeline
