import WorkerPipeline.Proofs.Ledger.Retention
import WorkerPipeline.Proofs.Simulation.Chain

set_option autoImplicit false

/-! # The ledger while a chain runs

While the iterations of one problem are worked on, the ledger knows the tasks of this problem up to
the current one, and the carbon footprints of all but the current one have arrived. Results of
these tasks and the next task keep it so (`KnownTo.registerResult`, `KnownTo.registerTask`), and
nothing that belongs to other problems changes.
-/

namespace WorkerPipeline

namespace Chain

variable {c : Chain} {k : Nat} {l : Ledger}

/-- The ledger knows the tasks of the chain up to an iteration, which is the newest of all. -/
structure KnownTo (c : Chain) (k : Nat) (l : Ledger) : Prop where
  lt_length : k < c.length
  consistent : l.Consistent
  within : l.IsWithinLimit
  last : l.last = some (c.task k)
  latest : l.latest.get? c.problem = some (c.task k)
  recorded : ∀ t, t.problem = c.problem → ((l.record? t).isSome ↔ ∃ i ≤ k, t = c.task i)
  /-- The chain went on because the carbon footprints arrived. -/
  continued : ∀ i < k, l.available (c.task i) .carbonFootprint = true

/-- Nothing that belongs to another problem has changed. -/
structure LedgerFrame (c : Chain) (l l' : Ledger) : Prop where
  limit : l'.limit = l.limit
  keys : l'.latest.keys = l.latest.keys
  latest : ∀ p, p ≠ c.problem → l'.latest.get? p = l.latest.get? p
  records : ∀ t, t.problem ≠ c.problem → l'.record? t = l.record? t

theorem LedgerFrame.refl (c : Chain) (l : Ledger) : c.LedgerFrame l l :=
  ⟨rfl, rfl, fun _ _ => rfl, fun _ _ => rfl⟩

theorem LedgerFrame.trans {l' l'' : Ledger} (h : c.LedgerFrame l l') (h' : c.LedgerFrame l' l'') :
    c.LedgerFrame l l'' where
  limit := h'.limit.trans h.limit
  keys := h'.keys.trans h.keys
  latest p hp := (h'.latest p hp).trans (h.latest p hp)
  records t ht := (h'.records t ht).trans (h.records t ht)

namespace KnownTo

theorem evicted_nil (h : c.KnownTo k l) (i : Nat) : l.evicted (c.task i) = [] :=
  Ledger.evicted_of_tracked h.within h.latest

theorem lt_size {i : Nat} (h : c.KnownTo k l) (hi : i ≤ k) : i < UInt32.size := by
  have hk := h.lt_length
  have hlength := c.length_lt
  omega

/-! ## The first task -/

theorem keys_first (hl : l.Consistent) (hnewest : ∀ p ∈ l.latest.keys, p < c.problem) :
    ((l.reserve (c.task 0)).registerTask (c.task 0)).latest.keys =
      Ledger.newestWithin l.limit (l.latest.keys ++ [c.problem]) :=
  Ledger.keys_latest_touch_of_newest (t := c.task 0) (hl.reserve _) hnewest

/-- **The first task** of a problem that is newer than all others. -/
theorem first (hl : l.Consistent) (hnewest : ∀ p ∈ l.latest.keys, p < c.problem)
    (hrecord : ∀ t, (l.record? t).isSome → t.problem ∈ l.latest.keys) :
    c.KnownTo 0 ((l.reserve (c.task 0)).registerTask (c.task 0)) := by
  have hreserved : (l.reserve (c.task 0)).Consistent := hl.reserve _
  have hnot : c.problem ∉ l.latest.keys := fun hmem => UInt32.lt_irrefl _ (hnewest _ hmem)
  exact {
    lt_length := c.length_pos
    consistent := hreserved.touch _
    within := by
      intro limit hlimit
      have hlimit' : l.limit = some limit := hlimit
      rw [keys_first hl hnewest, hlimit']
      exact Ledger.length_newestWithin_le limit _
    last := Ledger.last_enroll_of_newest hreserved hnewest
    latest := by
      have hnone : l.latest.get? c.problem = none := by
        rw [← Option.not_isSome_iff_eq_none, ← Table.mem_keys]
        exact hnot
      show ((l.reserve (c.task 0)).touch (c.task 0)).latest.get? (c.task 0).problem = _
      rw [Ledger.latest_touch_self, problem_task, Ledger.latest_reserve, hnone]
      rfl
    recorded := by
      intro t ht
      have hnone : l.record? t = none := by
        rw [← Option.not_isSome_iff_eq_none]
        exact fun hsome => hnot (ht ▸ hrecord t hsome)
      show (((l.reserve (c.task 0)).touch (c.task 0)).record? t).isSome ↔ _
      rw [Ledger.record?_touch, if_neg (ht ▸ Ledger.not_mem_evicted _ (c.task 0)),
        Ledger.record?_reserve, hnone]
      -- of the problem there was no record, so the task's own is the only one
      by_cases heq : c.task 0 = t
      · simp only [heq, if_true, Option.isSome_some, true_iff]
        exact ⟨0, Nat.le_refl 0, heq.symm⟩
      · simp only [heq, if_false, Option.isSome_none, Bool.false_eq_true, false_iff]
        rintro ⟨i, hi, rfl⟩
        exact heq (by rw [Nat.le_zero.mp hi])
    continued := fun i hi => absurd hi (Nat.not_lt_zero i) }

theorem available_first (hnewest : ∀ p ∈ l.latest.keys, p < c.problem)
    (hrecord : ∀ t, (l.record? t).isSome → t.problem ∈ l.latest.keys) (w : Worker) :
    ((l.reserve (c.task 0)).registerTask (c.task 0)).available (c.task 0) w = false := by
  have hnone : l.record? (c.task 0) = none := by
    rw [← Option.not_isSome_iff_eq_none]
    exact fun hsome => UInt32.lt_irrefl _ (hnewest _ (hrecord _ hsome))
  have hold : l.available (c.task 0) w = false := by rw [Ledger.available, hnone]
  show ((l.reserve (c.task 0)).touch (c.task 0)).available (c.task 0) w = false
  rw [Ledger.available_touch, Ledger.available_reserve, hold, Bool.and_false]

/-- Of the other problems, the first task leaves those that are among the newest. -/
theorem record?_first (hnewest : ∀ p ∈ l.latest.keys, p < c.problem)
    (hrecord : ∀ t, (l.record? t).isSome → t.problem ∈ l.latest.keys) {t : TaskId}
    (ht : t.problem ≠ c.problem) :
    ((l.reserve (c.task 0)).registerTask (c.task 0)).record? t =
      if t.problem ∈ ((l.reserve (c.task 0)).registerTask (c.task 0)).latest.keys
        then l.record? t else none := by
  have hne : c.task 0 ≠ t := c.task_ne ht
  have hreserved : (l.reserve (c.task 0)).record? t = l.record? t := by
    rw [Ledger.record?_reserve, if_neg hne]
  rw [← hreserved]
  refine Ledger.record?_touch_of_newest (l := l.reserve (c.task 0)) (t := c.task 0) hnewest
    (fun u hu => ?_) ht
  rw [Ledger.record?_reserve] at hu
  split at hu
  · rename_i heq
    exact .inl (heq ▸ rfl)
  · exact .inr (hrecord u hu)

theorem latest_first {p : UInt32} (hp : p ≠ c.problem)
    (hkept : p ∈ ((l.reserve (c.task 0)).registerTask (c.task 0)).latest.keys) :
    ((l.reserve (c.task 0)).registerTask (c.task 0)).latest.get? p = l.latest.get? p :=
  Ledger.latest_touch_of_newest (l := l.reserve (c.task 0)) (t := c.task 0) hp hkept

/-! ## A result of a known task -/

theorem not_before_task (h : c.KnownTo k l) {i : Nat} (hi : i ≤ k) :
    ¬ Key.before (c.task k) (c.task i) := by
  rw [c.before_task_iff (h.lt_size (Nat.le_refl k)) (h.lt_size hi)]
  omega

/-- A known task does not take the place of the current one. -/
theorem later_task (h : c.KnownTo k l) {i : Nat} (hi : i ≤ k) :
    Ledger.later (c.task i) (some (c.task k)) = c.task k := by
  rw [Ledger.later_some]
  refine if_neg fun hlt => h.not_before_task hi ?_
  exact .inr ⟨rfl, UInt32.lt_iff_toNat_lt.mp hlt.2⟩

theorem available_registerResult (h : c.KnownTo k l) {i : Nat} (w : Worker) (u : TaskId)
    (v : Worker) (hw : w.isTracked = true) :
    (l.registerResult (c.task i) w).available u v =
      (decide (c.task i = u ∧ w = v) || l.available u v) := by
  rw [Ledger.available_registerResult_of_evicted_nil (h.evicted_nil i)]
  by_cases huv : c.task i = u ∧ w = v
  · obtain ⟨rfl, rfl⟩ := huv
    cases ha : l.available (c.task i) w with
    | true => simp
    | false => simp [(h.consistent.isNew_iff (c.task i) w).mpr ⟨hw, ha⟩]
  · simp [huv]

theorem registerResult (h : c.KnownTo k l) {i : Nat} (hi : i ≤ k) {w : Worker}
    (hw : w.isTracked = true) : c.KnownTo k (l.registerResult (c.task i) w) where
  lt_length := h.lt_length
  consistent := h.consistent.registerResult (c.task i) w
  within := by
    intro limit hlimit
    rw [Ledger.latest_registerResult, Ledger.keys_latest_touch_of_tracked h.within h.latest]
    exact h.within limit (Ledger.limit_registerResult l (c.task i) w ▸ hlimit)
  last := by
    rw [Ledger.last_registerResult, Ledger.last_touch, h.last]
    refine if_neg ?_
    rw [Ledger.supersedes_some]
    exact h.not_before_task hi
  latest := by
    rw [Ledger.latest_registerResult, Ledger.latest_touch_of_evicted_nil (h.evicted_nil i),
      problem_task, if_pos rfl, h.latest, h.later_task hi]
  recorded t ht := by
    rw [Ledger.isSome_record?_registerResult_of_evicted_nil (h.evicted_nil i), h.recorded t ht]
    constructor
    · rintro (rfl | hold)
      · exact ⟨i, hi, rfl⟩
      · exact hold
    · exact .inr
  continued j hj := by
    rw [h.available_registerResult w _ _ hw, h.continued j hj, Bool.or_true]

theorem frame_registerResult (h : c.KnownTo k l) (i : Nat) (w : Worker) :
    c.LedgerFrame l (l.registerResult (c.task i) w) where
  limit := Ledger.limit_registerResult l (c.task i) w
  keys := by
    rw [Ledger.latest_registerResult, Ledger.keys_latest_touch_of_tracked h.within h.latest]
  latest p hp := by
    rw [Ledger.latest_registerResult, Ledger.latest_touch_of_evicted_nil (h.evicted_nil i),
      problem_task, if_neg (Ne.symm hp)]
  records t ht := by
    have hne : c.task i ≠ t := c.task_ne ht
    rw [Ledger.record?_registerResult, if_neg fun hnew => hne hnew.1,
      Ledger.record?_touch_of_evicted_nil (h.evicted_nil i), if_neg hne]

/-! ## The next task -/

theorem task_ne_next (h : c.KnownTo k l) {i : Nat} (hi : i ≤ k) (hk : k + 1 < c.length) :
    c.task (k + 1) ≠ c.task i := by
  intro heq
  have hlength := c.length_lt
  have := c.task_inj (by omega) (h.lt_size hi) heq
  omega

/-- No result of the next task has arrived. -/
theorem available_next (h : c.KnownTo k l) (hk : k + 1 < c.length) (w : Worker) :
    l.available (c.task (k + 1)) w = false := by
  have hrecord : l.record? (c.task (k + 1)) = none := by
    rw [← Option.not_isSome_iff_eq_none, h.recorded _ rfl]
    rintro ⟨i, hi, heq⟩
    exact h.task_ne_next hi hk heq
  rw [Ledger.available, hrecord]

theorem evicted_reserve (h : c.KnownTo k l) (i : Nat) :
    (l.reserve (c.task i)).evicted (c.task i) = [] :=
  Ledger.evicted_of_tracked (l := l.reserve (c.task i)) h.within h.latest

/-- A task that is published has a record without results; the others keep theirs. -/
theorem record?_registerTask (h : c.KnownTo k l) (i : Nat) (u : TaskId) :
    ((l.reserve (c.task i)).registerTask (c.task i)).record? u =
      if c.task i = u then some ((l.record? u).getD (.new u)) else l.record? u := by
  show ((l.reserve (c.task i)).touch (c.task i)).record? u = _
  rw [Ledger.record?_touch_of_evicted_nil (h.evicted_reserve i), Ledger.record?_reserve]
  by_cases hu : c.task i = u
  · subst hu
    simp
  · simp [hu]

theorem available_registerTask (h : c.KnownTo k l) (i : Nat) (u : TaskId) (w : Worker) :
    ((l.reserve (c.task i)).registerTask (c.task i)).available u w = l.available u w := by
  show ((l.reserve (c.task i)).touch (c.task i)).available u w = _
  rw [Ledger.available_touch_of_evicted_nil (h.evicted_reserve i), Ledger.available_reserve]

theorem keys_registerTask (h : c.KnownTo k l) (i : Nat) :
    ((l.reserve (c.task i)).registerTask (c.task i)).latest.keys = l.latest.keys :=
  Ledger.keys_latest_touch_of_tracked (t := c.task i) (l := l.reserve (c.task i)) h.within h.latest

/-- **The next task** is known once it is published. -/
theorem registerTask (h : c.KnownTo k l) (hk : k + 1 < c.length)
    (hcarbon : l.available (c.task k) .carbonFootprint = true) :
    c.KnownTo (k + 1) ((l.reserve (c.task (k + 1))).registerTask (c.task (k + 1))) := by
  have hlength := c.length_lt
  have hbefore : Key.before (c.task k) (c.task (k + 1)) := by
    rw [c.before_task_iff (by omega) (by omega)]
    exact Nat.lt_succ_self k
  exact {
    lt_length := hk
    consistent := (h.consistent.reserve _).touch _
    within := by
      intro limit hlimit
      rw [h.keys_registerTask]
      exact h.within limit hlimit
    last := by
      show (if Ledger.supersedes (c.task (k + 1)) l.last then some (c.task (k + 1)) else l.last) = _
      rw [h.last, if_pos (Ledger.supersedes_some.mpr hbefore)]
    latest := by
      show ((l.reserve (c.task (k + 1))).touch (c.task (k + 1))).latest.get? c.problem = _
      rw [Ledger.latest_touch_of_evicted_nil (h.evicted_reserve (k + 1)), problem_task, if_pos rfl,
        Ledger.latest_reserve, h.latest, Ledger.later_some]
      exact congrArg some (if_pos ⟨rfl, UInt32.lt_iff_toNat_lt.mpr (hbefore.resolve_left
        (Nat.lt_irrefl _)).2⟩)
    recorded := by
      intro t ht
      rw [h.record?_registerTask]
      by_cases hnext : c.task (k + 1) = t
      · rw [if_pos hnext]
        exact ⟨fun _ => ⟨k + 1, Nat.le_refl _, hnext.symm⟩, fun _ => rfl⟩
      · rw [if_neg hnext, h.recorded t ht]
        constructor
        · rintro ⟨i, hi, rfl⟩
          exact ⟨i, by omega, rfl⟩
        · rintro ⟨i, hi, rfl⟩
          rcases Nat.lt_or_ge k i with hgt | hle
          · exact absurd (congrArg c.task (by omega)) hnext
          · exact ⟨i, hle, rfl⟩
    continued := by
      intro i hi
      rw [h.available_registerTask]
      rcases Nat.lt_or_ge i k with hlt | hge
      · exact h.continued i hlt
      · rw [show i = k by omega]
        exact hcarbon }

theorem frame_registerTask (h : c.KnownTo k l) (i : Nat) :
    c.LedgerFrame l ((l.reserve (c.task i)).registerTask (c.task i)) where
  limit := rfl
  keys := h.keys_registerTask i
  latest p hp := by
    show ((l.reserve (c.task i)).touch (c.task i)).latest.get? p = _
    rw [Ledger.latest_touch_of_evicted_nil (h.evicted_reserve i), problem_task, if_neg (Ne.symm hp),
      Ledger.latest_reserve]
  records t ht := by
    rw [h.record?_registerTask, if_neg (c.task_ne ht)]

end KnownTo

end Chain

end WorkerPipeline
