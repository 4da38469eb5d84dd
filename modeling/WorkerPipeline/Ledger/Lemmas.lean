import WorkerPipeline.Ledger.Basic

set_option autoImplicit false

/-! # What touching a task does to the ledger

Touching a task changes three look-ups: the task has a record afterwards, its problem is at least
at its iteration, and the problems that are dropped have neither. The problem of the task itself
is never among those. Main statements: `record?_touch`, `latest_touch` and
`available_registerResult`.
-/

namespace WorkerPipeline

namespace Ledger

/-! ## The problems that are dropped -/

theorem not_mem_surplus {l : Ledger} {touched p : UInt32} (h : l.isProtected touched p = true) :
    p ∉ l.surplus touched := by
  unfold surplus
  cases l.limit with
  | none => simp
  | some limit =>
      intro hp
      -- every surplus problem has passed the filter
      have hfilter := (List.mem_filter.mp (List.mem_of_mem_take hp)).2
      rw [h] at hfilter
      cases hfilter

/-- The problem that is touched stays. -/
theorem not_mem_evicted (l : Ledger) (t : TaskId) : t.problem ∉ l.evicted t := by
  apply not_mem_surplus
  simp [isProtected]

/-- So does the problem of the latest task. -/
theorem not_mem_evicted_of_last {l : Ledger} {t u : TaskId} (h : (l.enroll t).last = some u) :
    u.problem ∉ l.evicted t := by
  apply not_mem_surplus
  simp [isProtected, h]

/-- Without a limit nothing is dropped. -/
theorem evicted_of_limit_none {l : Ledger} (t : TaskId) (h : l.limit = none) :
    l.evicted t = [] := by
  have hlimit : (l.enroll t).limit = none := h
  rw [evicted, surplus, hlimit]

/-! ## The latest task -/

theorem last_touch (l : Ledger) (t : TaskId) :
    (l.touch t).last = if supersedes t l.last then some t else l.last := rfl

theorem limit_touch (l : Ledger) (t : TaskId) : (l.touch t).limit = l.limit := rfl

theorem last_registerResult (l : Ledger) (t : TaskId) (w : Worker) :
    (l.registerResult t w).last = (l.touch t).last := by
  unfold registerResult mark
  cases (l.touch t).record? t with
  | none => rfl
  | some r => by_cases h : r.awaits w <;> simp [h]

theorem latest_registerResult (l : Ledger) (t : TaskId) (w : Worker) :
    (l.registerResult t w).latest = (l.touch t).latest := by
  unfold registerResult mark
  cases (l.touch t).record? t with
  | none => rfl
  | some r => by_cases h : r.awaits w <;> simp [h]

theorem limit_registerResult (l : Ledger) (t : TaskId) (w : Worker) :
    (l.registerResult t w).limit = l.limit := by
  unfold registerResult mark
  cases (l.touch t).record? t with
  | none => rfl
  | some r =>
      by_cases h : r.awaits w
      · simp only [h, if_true]; exact limit_touch l t
      · simp only [h]; exact limit_touch l t

/-! ## The iteration of a problem -/

/-- The later of a task and the one known so far, if any. -/
def later (t : TaskId) : Option TaskId → TaskId
  | none => t
  | some u => if u < t then t else u

theorem latest_advance (l : Ledger) (t : TaskId) (p : UInt32) :
    (l.advance t).latest.get? p =
      if t.problem = p then some (later t (l.latest.get? p)) else l.latest.get? p := by
  unfold advance later
  by_cases hp : t.problem = p
  · subst hp
    cases hl : l.latest.get? t.problem with
    | none => simp
    | some u => by_cases h : u < t <;> simp [h, hl]
  · cases hl : l.latest.get? t.problem with
    | none => simp [hp, Table.get?_insert]
    | some u => by_cases h : u < t <;> simp [h, hp, Table.get?_insert]

theorem latest_touch (l : Ledger) (t : TaskId) (p : UInt32) :
    (l.touch t).latest.get? p =
      if p ∈ l.evicted t then none
      else if t.problem = p then some (later t (l.latest.get? p))
      else l.latest.get? p := by
  have hdrop : (l.touch t).latest.get? p =
      if p ∈ l.evicted t then none else (l.advance t).latest.get? p := by
    simp only [touch, drop, Table.get?_filterKeys]
    by_cases hp : p ∈ l.evicted t <;> simp [hp, enroll, reserve]
  rw [hdrop, latest_advance]

/-! ## Records -/

/-- A touched task has a record: the old one, or a new one. -/
theorem record?_touch (l : Ledger) (t u : TaskId) :
    (l.touch t).record? u =
      if u.problem ∈ l.evicted t then none
      else if t = u then some ((l.record? u).getD (.new u))
      else l.record? u := by
  simp only [touch, drop, record?, Table.get?_filterKeys, enroll, reserve, Table.get?_insertIfNew]
  have hrecords : (l.advance t).records = l.records := rfl
  rw [hrecords]
  by_cases hu : u.problem ∈ l.evicted t
  · simp [hu]
  · by_cases h : t = u
    · subst h; simp [hu]
    · simp [hu, h]

theorem record?_touch_self (l : Ledger) (t : TaskId) :
    (l.touch t).record? t = some ((l.record? t).getD (.new t)) := by
  rw [record?_touch, if_neg (not_mem_evicted l t), if_pos rfl]

/-- Touching a task lets no result arrive. -/
theorem available_touch (l : Ledger) (t u : TaskId) (w : Worker) :
    (l.touch t).available u w = (!decide (u.problem ∈ l.evicted t) && l.available u w) := by
  unfold available
  rw [record?_touch]
  by_cases hu : u.problem ∈ l.evicted t
  · simp [hu]
  · by_cases h : t = u
    · subst h
      cases hr : l.record? t <;> simp [hu]
    · simp [hu, h]

/-! ## Results -/

theorem isNew_eq (l : Ledger) (t : TaskId) (w : Worker) :
    l.isNew t w = ((l.record? t).getD (.new t)).awaits w := by
  unfold isNew
  rw [record?_touch_self]

theorem record?_mark (l : Ledger) (t u : TaskId) (w : Worker) (r : TaskRecord) :
    record? { l with records := l.records.insert t (r.mark w) } u =
      if t = u then some (r.mark w) else l.record? u :=
  Table.get?_insert l.records t u (r.mark w)

theorem record?_registerResult (l : Ledger) (t u : TaskId) (w : Worker) :
    (l.registerResult t w).record? u =
      if t = u ∧ l.isNew t w then some (((l.record? u).getD (.new u)).mark w)
      else (l.touch t).record? u := by
  unfold registerResult mark
  rw [record?_touch_self, isNew_eq]
  by_cases hw : ((l.record? t).getD (.new t)).awaits w = true
  · simp only [hw, if_true, and_true]
    rw [record?_mark]
    by_cases h : t = u
    · subst h; rfl
    · simp [h]
  · simp [hw]

/-- **Registering a result** makes it available if its worker has a slot. Apart from what is
dropped it changes nothing else. -/
theorem available_registerResult (l : Ledger) (t u : TaskId) (w v : Worker) :
    (l.registerResult t w).available u v =
      ((decide (t = u ∧ w = v) && l.isNew t w) ||
        (!decide (u.problem ∈ l.evicted t) && l.available u v)) := by
  rw [← available_touch]
  unfold available
  rw [record?_registerResult]
  by_cases h : t = u
  · subst h
    rw [record?_touch_self]
    by_cases hn : l.isNew t w = true
    · simp [hn, TaskRecord.has_mark]
    · simp [hn]
  · simp [h]

/-! ## Where nothing is dropped -/

section

variable {l : Ledger} {t : TaskId} (h : l.evicted t = [])

include h

theorem latest_touch_of_evicted_nil (p : UInt32) :
    (l.touch t).latest.get? p =
      if t.problem = p then some (later t (l.latest.get? p)) else l.latest.get? p := by
  rw [latest_touch, h, if_neg List.not_mem_nil]

theorem record?_touch_of_evicted_nil (u : TaskId) :
    (l.touch t).record? u =
      if t = u then some ((l.record? u).getD (.new u)) else l.record? u := by
  rw [record?_touch, h, if_neg List.not_mem_nil]

theorem isSome_record?_touch_of_evicted_nil (u : TaskId) :
    ((l.touch t).record? u).isSome ↔ t = u ∨ (l.record? u).isSome := by
  rw [record?_touch_of_evicted_nil h]
  by_cases hu : t = u <;> simp [hu]

theorem isSome_record?_registerResult_of_evicted_nil (u : TaskId) (w : Worker) :
    ((l.registerResult t w).record? u).isSome ↔ t = u ∨ (l.record? u).isSome := by
  rw [record?_registerResult, ← isSome_record?_touch_of_evicted_nil h]
  split
  · rename_i hu
    obtain ⟨rfl, -⟩ := hu
    rw [record?_touch_self]
    simp
  · exact Iff.rfl

theorem available_touch_of_evicted_nil (u : TaskId) (w : Worker) :
    (l.touch t).available u w = l.available u w := by
  rw [available_touch, h]
  simp

theorem available_registerResult_of_evicted_nil (u : TaskId) (w v : Worker) :
    (l.registerResult t w).available u v =
      ((decide (t = u ∧ w = v) && l.isNew t w) || l.available u v) := by
  rw [available_registerResult, h]
  simp

end

end Ledger

end WorkerPipeline
