import Mathlib.Data.Finset.Card
import Mathlib.Data.Finset.Option
import WorkerPipeline.Proofs.Ledger.Consistency

set_option autoImplicit false

/-! # The problems that a limit keeps

When a task is touched, its problem is tracked with those that were tracked before. If these are
too many, the problem of the task and that of the latest task are kept, and of the others the
highest for which there is room. The other problems lose all their records, and everything else
stays as it was apart from the record of the task itself (`eviction_exact`). It comes to the same if
the problems are dropped one after the other, each time the lowest that may go, as long as there are
too many (`touch_eq_trimmed`).
-/

namespace WorkerPipeline

namespace Ledger

/-- The problems that a ledger tracks. -/
def tracked (l : Ledger) : Finset UInt32 := l.latest.keys.toFinset

/-- The highest problems of a set: those with fewer than so many above them. -/
def highest (n : Nat) (problems : Finset UInt32) : Finset UInt32 :=
  problems.filter fun p => (problems.filter (p < ·)).card < n

/-- What is kept of a set of problems. The limit counts the guarded ones too, but does not reach
them. -/
def keptUnder (limit : Nat) (guarded problems : Finset UInt32) : Finset UInt32 :=
  if problems.card ≤ limit then problems
  else guarded ∪ highest (limit - guarded.card) (problems \ guarded)

/-- The problem of a task and that of the latest task. -/
def guarded (l : Ledger) (t : TaskId) : Finset UInt32 :=
  insert t.problem (l.last.map TaskId.problem).toFinset

/-! ## Lists in ascending order -/

/-- The first entries of an ascending list are those with the most entries above them. -/
theorem mem_take_iff {problems : List UInt32} (h : problems.Pairwise (· < ·)) (n : Nat)
    (p : UInt32) :
    p ∈ problems.take n ↔
      p ∈ problems ∧ problems.length - n ≤ (problems.filter (p < ·)).length := by
  induction problems generalizing n with
  | nil => simp
  | cons q problems ih =>
      obtain ⟨hq, htail⟩ := List.pairwise_cons.mp h
      cases n with
      | zero =>
          -- an entry is not above itself
          have hfewer : p ∈ q :: problems →
              ((q :: problems).filter (p < ·)).length < (q :: problems).length := by
            intro hp
            refine List.length_filter_lt_length_iff_exists.mpr ⟨p, hp, ?_⟩
            simp
          simp only [List.take_zero, List.not_mem_nil, false_iff, not_and, Nat.sub_zero]
          exact fun hp => Nat.not_le.mpr (hfewer hp)
      | succ n =>
          rw [List.take_succ_cons, List.mem_cons, List.mem_cons, ih htail]
          by_cases hp : p = q
          · subst hp
            have habove : problems.filter (p < ·) = problems :=
              List.filter_eq_self.mpr fun r hr => decide_eq_true (hq r hr)
            simp [habove]
          · have hnot : p ∈ problems → ¬ p < q := fun hmem hlt =>
              UInt32.lt_irrefl _ (UInt32.lt_trans hlt (hq p hmem))
            constructor
            · rintro (heq | ⟨hmem, hle⟩)
              · exact absurd heq hp
              · refine ⟨.inr hmem, ?_⟩
                simpa [hnot hmem] using hle
            · rintro ⟨heq | hmem, hle⟩
              · exact absurd heq hp
              · refine .inr ⟨hmem, ?_⟩
                simpa [hnot hmem] using hle

theorem card_filter_toFinset {problems : List UInt32} (h : problems.Nodup) (p : UInt32) :
    (problems.toFinset.filter (p < ·)).card = (problems.filter (p < ·)).length := by
  rw [← List.toFinset_card_of_nodup (h.filter _), List.toFinset_filter]
  simp only [decide_eq_true_eq]

/-- Without its first entries an ascending list has its highest ones. -/
theorem mem_highest_iff {problems : List UInt32} (h : problems.Pairwise (· < ·)) (n : Nat)
    (p : UInt32) :
    p ∈ highest (problems.length - n) problems.toFinset ↔
      p ∈ problems ∧ p ∉ problems.take n := by
  have hnodup : problems.Nodup := h.imp UInt32.ne_of_lt
  rw [highest, Finset.mem_filter, List.mem_toFinset, card_filter_toFinset hnodup,
    mem_take_iff h, not_and, Nat.not_le]
  constructor
  · rintro ⟨hp, hlt⟩
    exact ⟨hp, fun _ => hlt⟩
  · rintro ⟨hp, hlt⟩
    exact ⟨hp, hlt hp⟩

/-! ## One problem after the other -/

/-- The lowest problem that may go, if there are too many. -/
def excess? (l : Ledger) (touched : UInt32) : Option UInt32 :=
  match l.limit with
  | none => none
  | some limit =>
    if limit < l.latest.size then l.latest.keys.find? fun p => !l.isProtected touched p else none

variable {l : Ledger} {touched p : UInt32} {ps : List UInt32}

theorem excess?_eq_head? (l : Ledger) (touched : UInt32) :
    l.excess? touched = (l.surplus touched).head? := by
  unfold excess? surplus
  cases l.limit with
  | none => rfl
  | some limit =>
      dsimp only
      rw [List.head?_take, List.head?_filter]
      by_cases h : limit < l.latest.size
      · rw [if_pos h, if_neg (by omega)]
      · rw [if_neg h, if_pos (by omega)]

theorem exists_surplus_of_excess? (h : l.excess? touched = some p) :
    ∃ ps, l.surplus touched = p :: ps := by
  rw [excess?_eq_head?, List.head?_eq_some_iff] at h
  exact h

theorem mem_keys_of_excess? (h : l.excess? touched = some p) : p ∈ l.latest.keys := by
  unfold excess? at h
  split at h
  · cases h
  · split at h
    · exact List.mem_of_find?_eq_some h
    · cases h

theorem keys_drop_singleton (l : Ledger) (p : UInt32) :
    (l.drop [p]).latest.keys = l.latest.keys.filter (· != p) := by
  have hkeys : (l.drop [p]).latest.keys =
      l.latest.keys.filter fun q => !decide (q ∈ [p]) := Table.keys_filterKeys _ _
  rw [hkeys]
  congr 1
  funext q
  rw [bne, Bool.beq_eq_decide_eq, decide_eq_decide.mpr List.mem_singleton]

theorem size_drop_singleton (h : p ∈ l.latest.keys) :
    (l.drop [p]).latest.size = l.latest.size - 1 := by
  rw [Table.size_eq_length_keys, Table.size_eq_length_keys, keys_drop_singleton,
    ← (Table.keys_nodup l.latest).erase_eq_filter, List.length_erase_of_mem h]

/-- Problems are dropped until there is room or only protected ones are left, each time the
lowest. -/
def trimmed (l : Ledger) (touched : UInt32) : Ledger :=
  match _h : l.excess? touched with
  | none => l
  | some p => (l.drop [p]).trimmed touched
termination_by l.latest.size
decreasing_by
  have hp := mem_keys_of_excess? _h
  have hpos : 0 < l.latest.size := by
    rw [Table.size_eq_length_keys]
    exact List.length_pos_of_mem hp
  rw [size_drop_singleton hp]
  omega

/-- Without its first entry a list of different entries has one fewer to be taken. -/
theorem take_filter_ne {problems : List UInt32} (hnodup : problems.Nodup) {n : Nat}
    (h : problems.take n = p :: ps) : (problems.filter (· != p)).take (n - 1) = ps := by
  cases n with
  | zero => cases h
  | succ n =>
      cases problems with
      | nil => cases h
      | cons q problems =>
          obtain ⟨rfl, rfl⟩ := List.cons.inj h
          rw [← hnodup.erase_eq_filter, List.erase_cons_head, Nat.add_sub_cancel]

/-- Without the first surplus problem the others are surplus. -/
theorem surplus_drop_singleton (h : l.surplus touched = p :: ps) :
    (l.drop [p]).surplus touched = ps := by
  have hexcess : l.excess? touched = some p := by rw [excess?_eq_head?, h, List.head?_cons]
  have hsize := size_drop_singleton (mem_keys_of_excess? hexcess)
  have hlimit : (l.drop [p]).limit = l.limit := rfl
  have hprotected (q : UInt32) : (l.drop [p]).isProtected touched q = l.isProtected touched q := rfl
  unfold surplus at h ⊢
  rw [hlimit]
  cases hl : l.limit with
  | none =>
      rw [hl] at h
      cases h
  | some limit =>
      rw [hl] at h
      simp only [hprotected]
      rw [hsize, keys_drop_singleton, List.filter_comm, Nat.sub_right_comm]
      exact take_filter_ne ((Table.keys_nodup l.latest).filter _) h

theorem drop_nil (l : Ledger) : l.drop [] = l := by
  have hrecords : l.records.filterKeys (fun t => !decide (t.problem ∈ [])) = l.records :=
    Table.ext fun t => by simp [Table.get?_filterKeys]
  have hlatest : l.latest.filterKeys (fun p => !decide (p ∈ [])) = l.latest :=
    Table.ext fun p => by simp [Table.get?_filterKeys]
  rw [drop, hrecords, hlatest]

theorem drop_cons (l : Ledger) (p : UInt32) (ps : List UInt32) :
    l.drop (p :: ps) = (l.drop [p]).drop ps := by
  have hrecords : (l.drop (p :: ps)).records = ((l.drop [p]).drop ps).records :=
    Table.ext fun t => by
      by_cases hp : t.problem = p <;> simp [drop, Table.get?_filterKeys, hp]
  have hlatest : (l.drop (p :: ps)).latest = ((l.drop [p]).drop ps).latest :=
    Table.ext fun q => by
      by_cases hp : q = p <;> simp [drop, Table.get?_filterKeys, hp]
  rw [Ledger.mk.injEq]
  exact ⟨hrecords, rfl, hlatest, rfl⟩

/-- **The surplus problems** are those that are dropped one after the other. -/
theorem drop_surplus (l : Ledger) (touched : UInt32) :
    l.drop (l.surplus touched) = l.trimmed touched := by
  fun_induction trimmed l touched with
  | case1 l hnone =>
      have hnil : l.surplus touched = [] := by
        rw [← List.head?_eq_none_iff, ← excess?_eq_head?, hnone]
      rw [hnil, drop_nil]
  | case2 l p hsome ih =>
      obtain ⟨ps, hps⟩ := exists_surplus_of_excess? hsome
      rw [surplus_drop_singleton hps] at ih
      rw [hps, drop_cons, ih]

/-- **Touching a task** drops problems one after the other. -/
theorem touch_eq_trimmed (l : Ledger) (t : TaskId) :
    l.touch t = (l.enroll t).trimmed t.problem :=
  (l.enroll t).drop_surplus t.problem

/-! ## What is tracked -/

variable {t : TaskId}

theorem mem_tracked {p : UInt32} : p ∈ l.tracked ↔ (l.latest.get? p).isSome := by
  rw [tracked, List.mem_toFinset, Table.mem_keys]

theorem tracked_enroll (l : Ledger) (t : TaskId) :
    (l.enroll t).tracked = insert t.problem l.tracked := by
  ext p
  have hlatest : (l.enroll t).latest.get? p =
      if t.problem = p then some (later t (l.latest.get? p)) else l.latest.get? p :=
    latest_advance l t p
  rw [mem_tracked, hlatest, Finset.mem_insert, mem_tracked]
  split
  · rename_i hp
    simp [hp]
  · rename_i hp
    simp [Ne.symm hp]

theorem mem_tracked_touch {p : UInt32} :
    p ∈ (l.touch t).tracked ↔ p ∈ (l.enroll t).tracked ∧ p ∉ l.evicted t := by
  have hkeys : (l.touch t).latest.keys =
      (l.enroll t).latest.keys.filter fun p => !decide (p ∈ l.evicted t) :=
    Table.keys_filterKeys _ _
  rw [tracked, hkeys, List.mem_toFinset, List.mem_filter, tracked, List.mem_toFinset]
  simp

theorem keys_pairwise_lt (l : Ledger) : l.latest.keys.Pairwise (· < ·) :=
  l.latest.keys_pairwise.imp UInt32.lt_iff_toNat_lt.mpr

theorem isProtected_iff {p : UInt32} :
    (l.enroll t).isProtected t.problem p = true ↔ p ∈ (l.touch t).guarded t := by
  have hlast : (l.enroll t).last = (l.touch t).last := rfl
  rw [isProtected, guarded, hlast, Bool.or_eq_true, decide_eq_true_eq, decide_eq_true_eq,
    Finset.mem_insert, Option.mem_toFinset, Option.mem_def]

/-- The guarded problems are tracked. -/
theorem Consistent.guarded_subset (hl : l.Consistent) :
    (l.touch t).guarded t ⊆ (l.enroll t).tracked := by
  have hkept {p : UInt32} (h : p ∈ (l.touch t).tracked) : p ∈ (l.enroll t).tracked :=
    (mem_tracked_touch.mp h).1
  intro p hp
  rw [guarded, Finset.mem_insert, Option.mem_toFinset, Option.mem_def,
    Option.map_eq_some_iff] at hp
  rcases hp with rfl | ⟨u, hu, rfl⟩
  · exact hkept (mem_tracked.mpr (by rw [latest_touch_self]; rfl))
  · exact hkept (mem_tracked.mpr (by rw [hl.latest_touch_last hu]; rfl))

/-- **The problems tracked** after a task was touched. -/
theorem Consistent.tracked_touch (hl : l.Consistent) {limit : Nat} (hlimit : l.limit = some limit) :
    (l.touch t).tracked =
      keptUnder limit ((l.touch t).guarded t) (insert t.problem l.tracked) := by
  rw [← tracked_enroll]
  have hsub := hl.guarded_subset (t := t)
  generalize hguarded : (l.touch t).guarded t = guarded at hsub ⊢
  -- those that are not guarded, in ascending order
  let others := (l.enroll t).latest.keys.filter fun p => !(l.enroll t).isProtected t.problem p
  have hothers : others.toFinset = (l.enroll t).tracked \ guarded := by
    ext p
    rw [List.mem_toFinset, List.mem_filter, Finset.mem_sdiff, ← hguarded, ← isProtected_iff,
      tracked, List.mem_toFinset]
    simp
  have hsorted : others.Pairwise (· < ·) := (keys_pairwise_lt (l.enroll t)).filter _
  have hcard : (l.enroll t).tracked.card = (l.enroll t).latest.size := by
    rw [tracked, List.toFinset_card_of_nodup (Table.keys_nodup _), Table.size_eq_length_keys]
  have hlength : others.length = (l.enroll t).tracked.card - guarded.card := by
    rw [← Finset.card_sdiff_of_subset hsub, ← hothers,
      List.toFinset_card_of_nodup (hsorted.imp UInt32.ne_of_lt)]
  have hevicted : l.evicted t = others.take ((l.enroll t).tracked.card - limit) := by
    have henroll : (l.enroll t).limit = some limit := hlimit
    rw [evicted, surplus, henroll, hcard]
  ext p
  rw [mem_tracked_touch, hevicted, keptUnder]
  split
  · rename_i hroom
    rw [Nat.sub_eq_zero_of_le hroom, List.take_zero]
    simp
  · rename_i hfull
    -- as many are dropped as there are too many, so as many stay as there is room for
    have hroom : limit - guarded.card =
        others.length - ((l.enroll t).tracked.card - limit) := by omega
    rw [Finset.mem_union, hroom, ← hothers, mem_highest_iff hsorted]
    have hmem : p ∈ others ↔ p ∈ (l.enroll t).tracked ∧ p ∉ guarded := by
      rw [← List.mem_toFinset, hothers, Finset.mem_sdiff]
    constructor
    · rintro ⟨htracked, hkept⟩
      by_cases hp : p ∈ guarded
      · exact .inl hp
      · exact .inr ⟨hmem.mpr ⟨htracked, hp⟩, hkept⟩
    · rintro (hp | ⟨hp, hkept⟩)
      · exact ⟨hsub hp, fun htake => (hmem.mp (List.mem_of_mem_take htake)).2 hp⟩
      · exact ⟨(hmem.mp hp).1, hkept⟩

/-- A problem is evicted if it was tracked before and is not afterwards. -/
theorem mem_evicted_iff {p : UInt32} :
    p ∈ l.evicted t ↔ p ∈ l.tracked \ (l.touch t).tracked := by
  have hsub : p ∈ l.evicted t → p ∈ (l.enroll t).tracked := by
    intro hp
    rw [evicted, surplus] at hp
    split at hp
    · cases hp
    · exact List.mem_toFinset.mpr (List.mem_of_mem_filter (List.mem_of_mem_take hp))
  rw [Finset.mem_sdiff, mem_tracked_touch, not_and, not_not]
  constructor
  · intro hp
    have hne : p ≠ t.problem := fun heq => not_mem_evicted l t (heq ▸ hp)
    have henroll := hsub hp
    rw [tracked_enroll, Finset.mem_insert] at henroll
    exact ⟨henroll.resolve_left hne, fun _ => hp⟩
  · rintro ⟨hp, hgone⟩
    refine hgone ?_
    rw [tracked_enroll]
    exact Finset.mem_insert_of_mem hp

/-! ## What is left -/

/-- What a touch of a task makes of a ledger: which problems are tracked, which records and latest
tasks are gone, and which results have arrived for the task. -/
structure Trims (l l' : Ledger) (limit : Nat) (t : TaskId) (arrives : Worker → Prop) : Prop where
  tracked : l'.tracked = keptUnder limit (l'.guarded t) (insert t.problem l.tracked)
  record : ∀ u, u ≠ t →
    l'.record? u = if u.problem ∈ l.tracked \ l'.tracked then none else l.record? u
  latest : ∀ p, p ≠ t.problem →
    l'.latest.get? p = if p ∈ l.tracked \ l'.tracked then none else l.latest.get? p
  own : ∃ r, l'.record? t = some r ∧ r.task = t ∧ r.HasSlots ∧
    ∀ w, r.has w = true ↔ l.available t w = true ∨ arrives w

theorem has_getD_record? (l : Ledger) (t : TaskId) (w : Worker) :
    ((l.record? t).getD (.new t)).has w = l.available t w := by
  rw [available]
  cases l.record? t with
  | none => exact TaskRecord.has_new t w
  | some r => rfl

theorem Consistent.trims_registerTask (hl : l.Consistent) {limit : Nat}
    (hlimit : l.limit = some limit) (t : TaskId) :
    l.Trims (l.registerTask t) limit t fun _ => False where
  tracked := hl.tracked_touch hlimit
  record u hu := by
    show (l.touch t).record? u = _
    rw [record?_touch, if_neg (Ne.symm hu)]
    exact if_congr mem_evicted_iff rfl rfl
  latest p hp := by
    show (l.touch t).latest.get? p = _
    rw [latest_touch, if_neg (Ne.symm hp)]
    exact if_congr mem_evicted_iff rfl rfl
  own := by
    obtain ⟨hslots, htask⟩ := hl.record_getD t
    refine ⟨_, record?_touch_self l t, htask, hslots, fun w => ?_⟩
    rw [has_getD_record?]
    simp

theorem Consistent.trims_registerResult (hl : l.Consistent) {limit : Nat}
    (hlimit : l.limit = some limit) (t : TaskId) (w : Worker) :
    l.Trims (l.registerResult t w) limit t fun v => v = w ∧ w.isTracked = true := by
  have htouch := hl.trims_registerTask hlimit t
  have hlatest : (l.registerResult t w).latest = (l.touch t).latest := latest_registerResult l t w
  have htracked : (l.registerResult t w).tracked = (l.touch t).tracked := by
    rw [Ledger.tracked, hlatest]
    rfl
  have hguarded : (l.registerResult t w).guarded t = (l.touch t).guarded t := by
    rw [guarded, last_registerResult]
    rfl
  constructor
  case tracked =>
    rw [htracked, hguarded]
    exact htouch.tracked
  case record =>
    intro u hu
    rw [record?_registerResult, if_neg fun h => hu h.1.symm, htracked]
    exact htouch.record u hu
  case latest =>
    intro p hp
    rw [hlatest, htracked]
    exact htouch.latest p hp
  case own =>
    have hl' := hl.registerResult t w
    have hsome : ((l.registerResult t w).record? t).isSome := by
      rw [record?_registerResult]
      split
      · rfl
      · rw [record?_touch_self]
        rfl
    obtain ⟨r, hr⟩ := Option.isSome_iff_exists.mp hsome
    refine ⟨r, hr, hl'.record_task hr, hl'.record_slots hr, fun v => ?_⟩
    have hhas : r.has v = (l.registerResult t w).available t v := by rw [available, hr]
    rw [hhas, available_registerResult, Bool.or_eq_true, Bool.and_eq_true, hl.isNew_iff]
    simp only [not_mem_evicted l t, decide_false, Bool.not_false, Bool.true_and, true_and,
      decide_eq_true_eq]
    constructor
    · rintro (⟨rfl, hw, -⟩ | hold)
      · exact .inr ⟨rfl, hw⟩
      · exact .inl hold
    · rintro (hold | ⟨rfl, hw⟩)
      · exact .inr hold
      · cases hv : l.available t v with
        | true => exact .inr rfl
        | false => exact .inl ⟨rfl, hw, rfl⟩

/-- **Eviction is exact.** After any history under a limit, registering a task or a result tracks
the problem of the task with those tracked before. If that is within the limit, all of them are
kept, otherwise the problem of the task and that of the latest task, with the highest of the
others that fill the limit. Whatever belongs to a problem that is dropped is gone. Nothing else
changes but the record of the task, which keeps its results and gains the one that is registered
if its worker has a slot. -/
theorem eviction_exact (limit : Nat) (steps : List Step) (t : TaskId) :
    let l := (new (some limit)).run steps
    l.Trims (l.registerTask t) limit t (fun _ => False) ∧
      ∀ w, l.Trims (l.registerResult t w) limit t fun v => v = w ∧ w.isTracked = true := by
  intro l
  have hl : l.Consistent := consistent_run (some limit) steps
  have hlimit : l.limit = some limit := limit_run (new (some limit)) steps
  exact ⟨hl.trims_registerTask hlimit t, hl.trims_registerResult hlimit t⟩

end Ledger

end WorkerPipeline
