import WorkerPipeline.Proofs.Json.Legible

set_option autoImplicit false

/-! # What a document can hold

Whatever is read from a text is nested no deeper than the reader can look, and its numbers are in
range (`fits_of_read?`). So the value that a part of a document means can be written and read back
(`within_of_free?`).
-/

namespace WorkerPipeline

namespace Json

/-- Containers are nested at most so many levels deep, and the numbers have a property. What cannot
be read may stand anywhere. -/
inductive Fits (p : Number → Prop) : Nat → Json → Prop
  | null {levels : Nat} : Fits p levels .null
  | bool {levels : Nat} (b : Bool) : Fits p levels (.bool b)
  | num {levels : Nat} {n : Number} (h : p n) : Fits p levels (.num n)
  | str {levels : Nat} (s : String) : Fits p levels (.str s)
  | arr {levels : Nat} {l : List Json} (h : ∀ j ∈ l, Fits p levels j) : Fits p (levels + 1) (.arr l)
  | obj {levels : Nat} {m : List (String × Json)} (h : ∀ e ∈ m, Fits p levels e.2) :
      Fits p (levels + 1) (.obj m)
  | unreadable {levels : Nat} : Fits p levels .unreadable

variable {p : Number → Prop} {levels : Nat}

/-! ## Reading -/

theorem fits_contain_arr {l : List Json} (h : ∀ j ∈ l, Fits p (levels - 1) j) :
    Fits p levels (contain levels (.arr l)) := by
  cases levels with
  | zero => exact .unreadable
  | succ levels => exact .arr h

theorem fits_contain_obj {m : List (String × Json)} (h : ∀ e ∈ m, Fits p (levels - 1) e.2) :
    Fits p levels (contain levels (.obj m)) := by
  cases levels with
  | zero => exact .unreadable
  | succ levels => exact .obj h

/-- What the reader returns with so much fuel fits. -/
structure Fitting (fuel : Nat) : Prop where
  value {levels : Nat} {cs rest : List Char} {j : Json} :
    value? levels fuel cs = some (j, rest) → Fits Number.InRange levels j
  elements {levels : Nat} {cs rest : List Char} {l : List Json} :
    elements? levels fuel cs = some (l, rest) → ∀ j ∈ l, Fits Number.InRange levels j
  members {levels : Nat} {cs rest : List Char} {m : List (String × Json)} :
    members? levels fuel cs = some (some m, rest) → ∀ e ∈ m, Fits Number.InRange levels e.2

namespace Fitting

variable {fuel : Nat} {cs rest : List Char}

theorem value_succ (hf : Fitting fuel) {j : Json}
    (h : value? levels (fuel + 1) cs = some (j, rest)) : Fits Number.InRange levels j := by
  rw [value?] at h
  split at h
  · cases h
    exact .null
  · cases h
    exact .bool true
  · cases h
    exact .bool false
  · -- a string, whose surrogates may not be paired
    simp only [Option.bind_eq_bind, Option.bind_eq_some_iff, Option.pure_def] at h
    obtain ⟨r, -, h⟩ := h
    cases h
    cases join? r.1 with
    | none => exact .unreadable
    | some s => exact .str _
  · -- an array
    split at h
    · cases h
      exact fits_contain_arr fun j hj => absurd hj List.not_mem_nil
    · simp only [Option.bind_eq_bind, Option.bind_eq_some_iff, Option.pure_def] at h
      obtain ⟨r, hr, h⟩ := h
      cases h
      exact fits_contain_arr (hf.elements hr)
  · -- an object, which cannot be read if a name cannot
    split at h
    · cases h
      exact fits_contain_obj fun e he => absurd he List.not_mem_nil
    · simp only [Option.bind_eq_bind, Option.bind_eq_some_iff, Option.pure_def] at h
      obtain ⟨⟨m?, rest⟩, hr, h⟩ := h
      cases h
      cases m? with
      | none => exact .unreadable
      | some m => exact fits_contain_obj (hf.members hr)
  · -- a number, which may be beyond the largest double
    simp only [Option.bind_eq_bind, Option.bind_eq_some_iff, Option.pure_def] at h
    obtain ⟨r, -, h⟩ := h
    cases h
    cases hn : r.1.number? with
    | none => exact .unreadable
    | some n => exact .num (Number.inRange_of_number? hn)

theorem elements_succ (hf : Fitting fuel) {l : List Json}
    (h : elements? levels (fuel + 1) cs = some (l, rest)) :
    ∀ j ∈ l, Fits Number.InRange levels j := by
  rw [elements?] at h
  simp only [Option.bind_eq_bind, Option.bind_eq_some_iff] at h
  obtain ⟨⟨j, left⟩, hj, h⟩ := h
  split at h
  · -- the last element
    cases h
    exact List.forall_mem_singleton.mpr (hf.value hj)
  · -- a comma, and more elements
    simp only [Option.bind_eq_some_iff, Option.pure_def] at h
    obtain ⟨⟨l, left⟩, hl, h⟩ := h
    cases h
    exact List.forall_mem_cons.mpr ⟨hf.value hj, hf.elements hl⟩
  · cases h

theorem members_succ (hf : Fitting fuel) {m : List (String × Json)}
    (h : members? levels (fuel + 1) cs = some (some m, rest)) :
    ∀ e ∈ m, Fits Number.InRange levels e.2 := by
  rw [members?] at h
  split at h
  · simp only [Option.bind_eq_bind, Option.bind_eq_some_iff] at h
    obtain ⟨⟨ns, left⟩, -, h⟩ := h
    split at h
    · simp only [Option.bind_eq_some_iff] at h
      obtain ⟨⟨j, left⟩, hj, h⟩ := h
      split at h
      · -- the last member
        obtain ⟨hm, -⟩ := Prod.mk.inj (Option.some.inj h)
        obtain ⟨e, he, rfl⟩ := Option.map_eq_some_iff.mp hm
        obtain ⟨s, -, rfl⟩ := Option.map_eq_some_iff.mp he
        exact List.forall_mem_singleton.mpr (hf.value hj)
      · -- a comma, and more members
        simp only [Option.bind_eq_some_iff, Option.pure_def] at h
        obtain ⟨⟨m?, left⟩, hm?, h⟩ := h
        obtain ⟨hm, -⟩ := Prod.mk.inj (Option.some.inj h)
        cases hname : join? ns with
        | none =>
            rw [hname] at hm
            cases hm
        | some s =>
            rw [hname] at hm
            cases m? with
            | none => cases hm
            | some m =>
                cases hm
                exact List.forall_mem_cons.mpr ⟨hf.value hj, hf.members hm?⟩
      · cases h
    · cases h
  · cases h

end Fitting

theorem fitting (fuel : Nat) : Fitting fuel := by
  induction fuel with
  | zero => constructor <;> intro levels cs rest r h <;> cases h
  | succ fuel ih => exact ⟨ih.value_succ, ih.elements_succ, ih.members_succ⟩

/-- **What is read from a text** fits. -/
theorem fits_of_read? {text : String} {j : Json} (h : read? text = some j) :
    Fits Number.InRange maxLevels j := by
  unfold read? readList? at h
  split at h
  · rename_i r rest hvalue
    split at h
    · cases h
      exact (fitting _).value hvalue
    · cases h
  · cases h

/-! ## What a value means -/

theorem elementsWithin_of_freeElements? {l k : List Json}
    (hl : ∀ j ∈ l, ∀ k, free? j = some k → Within p levels k) (h : freeElements? l = some k) :
    ElementsWithin p levels k := by
  induction l generalizing k with
  | nil =>
      cases h
      trivial
  | cons j l ih =>
      simp only [freeElements?, Option.pure_def, Option.bind_eq_bind, Option.bind_eq_some_iff] at h
      obtain ⟨j', hj', l', hl', h⟩ := h
      cases h
      obtain ⟨hj, hl⟩ := List.forall_mem_cons.mp hl
      exact ⟨hj j' hj', ih hl hl'⟩

/-- A member that is meant stands in the document under the same name. -/
theorem mem_of_mem_freeMembers? {l m : List (String × Json)} (h : freeMembers? l = some m)
    {e : String × Json} (he : e ∈ m) : ∃ f ∈ l, f.1 = e.1 ∧ free? f.2 = some e.2 := by
  induction l generalizing m with
  | nil =>
      cases h
      cases he
  | cons f l ih =>
      obtain ⟨name, j⟩ := f
      simp only [freeMembers?, freeMember?, Option.pure_def, Option.bind_eq_bind,
        Option.bind_eq_some_iff] at h
      obtain ⟨_, ⟨k, hk, ⟨⟩⟩, m', hm', h⟩ := h
      cases h
      rcases List.mem_cons.mp he with rfl | he
      · exact ⟨(name, j), List.mem_cons_self, rfl, hk⟩
      · obtain ⟨f, hf, hmeant⟩ := ih hm' he
        exact ⟨f, List.mem_cons_of_mem _ hf, hmeant⟩

theorem membersWithin_of_freeMembers? {l m : List (String × Json)}
    (hl : ∀ f ∈ l, ∀ k, free? f.2 = some k → Within p levels k) (h : freeMembers? l = some m) :
    MembersWithin p levels (Entries.insertAll m) := by
  rw [membersWithin_iff]
  intro e he
  obtain ⟨f, hf, -, hfree⟩ := mem_of_mem_freeMembers? h (Entries.mem_insertAll he)
  exact hl f hf e.2 hfree

/-- **The value that is meant** can be written and read back. -/
theorem within_of_free? {j k : Json} (hj : Fits p levels j) (h : free? j = some k) :
    Within p levels k := by
  induction hj generalizing k with
  | null | bool b | str s =>
      cases h
      trivial
  | num hn =>
      cases h
      exact hn
  | arr _ ih =>
      simp only [free?, Option.map_eq_some_iff] at h
      obtain ⟨l, hl, rfl⟩ := h
      exact ⟨Nat.succ_pos _, elementsWithin_of_freeElements? (fun j hj k => ih j hj) hl⟩
  | obj _ ih =>
      simp only [free?, Option.map_eq_some_iff] at h
      obtain ⟨m, hm, rfl⟩ := h
      exact ⟨Nat.succ_pos _, membersWithin_of_freeMembers? (fun f hf k => ih f hf) hm⟩
  | unreadable => cases h

end Json

end WorkerPipeline
