import WorkerPipeline.Message.Input
import WorkerPipeline.Proofs.Json.Reading
import WorkerPipeline.Proofs.Message.ExtraData

set_option autoImplicit false

/-! # Extra data that were read

The extra data of a submission that was read from a document can be written and read back, again
and again (`Submission.isReadable_of_read?`): no member that is kept bears the name of an
interpreted one, nothing is nested too deeply, and all numbers are in range.
-/

namespace WorkerPipeline

open Json

variable {p : Number → Prop} {levels : Nat}

/-! ## Records -/

namespace Codec

variable {α : Type}

/-- A property of records that the reading of every field keeps. -/
structure Keeps (r : Record α) (q : Json → Prop) (P : α → Prop) : Prop where
  blank : P r.blank
  read : ∀ f ∈ r.fields, ∀ {j a b}, q j → P a → f.read j a = some b → P b

variable {r : Record α} {q : Json → Prop} {P : α → Prop}

theorem Keeps.ofMembers? (h : Keeps r q P) {m : List (String × Json)} (hm : ∀ e ∈ m, q e.2)
    {a : α} (ha : r.ofMembers? m = some a) : P a := by
  -- the induction is on the fields that are left, for any record read so far
  have from_fields (fs : List (Field α)) (hfs : ∀ f ∈ fs, f ∈ r.fields) (b : α) (hb : P b)
      (ha : fs.foldlM (fun b f => f.take? m b) b = some a) : P a := by
    induction fs generalizing b with
    | nil =>
        cases ha
        exact hb
    | cons f fs ih =>
        obtain ⟨hf, hfs⟩ := List.forall_mem_cons.mp hfs
        rw [List.foldlM_cons, Option.bind_eq_bind, Option.bind_eq_some_iff] at ha
        obtain ⟨d, hd, ha⟩ := ha
        refine ih hfs d ?_ ha
        unfold Field.take? at hd
        split at hd
        · -- the member is missing
          split at hd
          · cases hd
          · cases hd
            exact hb
        · rename_i j hj
          obtain ⟨e, he, rfl⟩ : ∃ e ∈ m, e.2 = j := by
            have hmem : j ∈ f.among m := by rw [hj]; exact List.mem_singleton_self j
            obtain ⟨e, he, heq⟩ := List.mem_map.mp hmem
            exact ⟨e, List.mem_of_mem_filter he, heq⟩
          exact h.read f hf (hm e he) hb hd
        · -- a member that is given twice is refused
          cases hd
  exact from_fields r.fields (fun _ hf => hf) r.blank h.blank ha

theorem Keeps.ofElements? (h : Keeps r q P) {l : List Json} (hl : ∀ j ∈ l, q j) {a : α}
    (ha : r.ofElements? l = some a) : P a := by
  have from_fields (fs : List (Field α)) (hfs : ∀ f ∈ fs, f ∈ r.fields) (l : List Json)
      (hl : ∀ j ∈ l, q j) (b : α) (hb : P b)
      (ha : Field.takeInOrder? r.defaults fs l b = some a) : P a := by
    -- both lists get shorter by one, until the fields or the elements are used up
    induction fs generalizing l b with
    | nil =>
        cases l with
        | nil =>
            cases ha
            exact hb
        | cons j l => cases ha
    | cons f fs ih =>
        obtain ⟨hf, hfs⟩ := List.forall_mem_cons.mp hfs
        cases l with
        | nil =>
            rw [Field.takeInOrder?] at ha
            split at ha
            · cases ha
              exact hb
            · cases ha
        | cons j l =>
            obtain ⟨hj, hl⟩ := List.forall_mem_cons.mp hl
            rw [Field.takeInOrder?, Option.bind_eq_bind, Option.bind_eq_some_iff] at ha
            obtain ⟨d, hd, ha⟩ := ha
            exact ih hfs l hl d (h.read f hf hj hb hd) ha
  exact from_fields r.fields (fun _ hf => hf) l hl r.blank h.blank ha

/-- **A record that is read** from a document of limited depth has what all fields keep. -/
theorem Keeps.decode? (h : Keeps r (Fits p levels) P) {j : Json} (hj : j.Fits p (levels + 1))
    {a : α} (ha : r.codec.decode? j = some a) : P a := by
  cases hj with
  | arr hl => exact h.ofElements? hl ha
  | obj hm => exact h.ofMembers? hm ha
  | _ => cases ha

end Codec

/-! ## Extra data -/

/-- The extra data are such as a document can hold. -/
def Extra.IsReadable (e : Extra) : Prop := e.Within Number.InRange

theorem FreeObject.members_of_ofMembers? {l : List (String × Json)} {o : FreeObject}
    (h : ofMembers? l = some o) :
    ∃ m, freeMembers? l = some m ∧ o.members = Entries.insertAll m := by
  unfold ofMembers? at h
  split at h
  · cases h
  · rename_i m hm
    cases h
    exact ⟨m, hm, rfl⟩

theorem Extra.within_of_decode? {j : Json} (hj : j.Fits p levels) (hlevels : levels ≤ maxLevels)
    {e : Extra} (h : codec.decode? j = some e) : e.Within p := by
  cases hj with
  | obj hm =>
      rename_i levels members
      obtain ⟨e, -, h⟩ := Option.bind_eq_some_iff.mp h
      obtain ⟨other, hother, h⟩ := Option.bind_eq_some_iff.mp h
      cases h
      obtain ⟨m, hfree, hmembers⟩ := FreeObject.members_of_ofMembers? hother
      constructor
      · -- what is kept is what no field knows
        intro n hn
        rw [hmembers] at hn
        obtain ⟨f, hf, hname, -⟩ := mem_of_mem_freeMembers? hfree (Entries.mem_insertAll hn)
        have hunknown := (List.mem_filter.mp hf).2
        rw [hname] at hunknown
        simpa using hunknown
      · have hwithin : MembersWithin p levels (Entries.insertAll m) :=
          membersWithin_of_freeMembers?
            (fun f hf k => within_of_free? (hm f (List.mem_of_mem_filter hf))) hfree
        show MembersWithin p (maxLevels - 1) other.members
        rw [hmembers]
        exact membersWithin_mono (fun _ hn => hn) _ (by omega) hwithin
  | _ => cases h

/-! ## Submissions -/

namespace Submission

/-- The fields of the brief leave the extra data alone. -/
theorem extra_of_read_field {β : Type} {name : String} {c : Codec β} {get : Brief → β}
    {set : β → Brief → Brief} {j : Json} {s t : Submission}
    (h : (Brief.field brief (fun v s => { s with brief := v }) name c get set).read j s = some t) :
    t.extra = s.extra := by
  obtain ⟨v, -, rfl⟩ := Option.map_eq_some_iff.mp h
  rfl

theorem extra_of_read_brief {f : Codec.Field Submission}
    (hf : f ∈ Brief.leadingFields brief (fun v s => { s with brief := v }) ++
      Brief.trailingFields brief fun v s => { s with brief := v })
    {j : Json} {s t : Submission} (h : f.read j s = some t) : t.extra = s.extra := by
  simp only [Brief.leadingFields, Brief.trailingFields, List.cons_append, List.nil_append,
    List.mem_cons, List.not_mem_nil, or_false] at hf
  rcases hf with rfl | rfl | rfl | rfl | rfl | rfl | rfl | rfl | rfl | rfl | rfl | rfl <;>
    exact extra_of_read_field h

theorem keeps_within (hlevels : levels ≤ maxLevels) :
    Codec.Keeps record (Fits p levels) fun s => s.extra.Within p where
  blank := ⟨fun _ h => (List.not_mem_nil h).elim, trivial⟩
  read := by
    intro f hf j s t hj hs ht
    rcases List.mem_append.mp hf with hbrief | hown
    · rw [extra_of_read_brief hbrief ht]
      exact hs
    · simp only [List.mem_cons, List.not_mem_nil, or_false] at hown
      rcases hown with rfl | rfl
      · obtain ⟨v, -, rfl⟩ := Option.map_eq_some_iff.mp ht
        exact hs
      · obtain ⟨e, he, rfl⟩ := Option.map_eq_some_iff.mp ht
        exact Extra.within_of_decode? hj hlevels he

/-- **A submission that was read** holds extra data that can be written and read back. -/
theorem isReadable_of_read? {text : String} {j : Json} {s : Submission}
    (hj : Json.read? text = some j) (h : codec.decode? j = some s) : s.extra.IsReadable :=
  (keeps_within (by decide : 126 ≤ maxLevels)).decode? (fits_of_read? hj) h

end Submission

end WorkerPipeline
