import WorkerPipeline.Message.Extra
import WorkerPipeline.Proofs.Json.Codec
import WorkerPipeline.Proofs.Json.RoundTrip

set_option autoImplicit false

/-! # Extra data come back from a block of bytes

Extra data are written as a block and decoded by whoever receives the block. The eight interpreted
members come back as they were, the others with every number reread (`decode?_encode`), provided
that no other member bears an interpreted name and that nothing is nested too deeply: what was read
from a document satisfies both.
-/

namespace WorkerPipeline

/-- The object with every number in it reread. -/
def FreeObject.reread (o : FreeObject) : FreeObject where
  members := Json.rereadMembers o.members
  sorted := Json.sorted_rereadMembers o.sorted
  free := Json.freeMembers_reread o.members o.free

namespace Extra

open Codec Codec.Field

variable {p : Number → Prop}

/-- The other members bear names of their own, are nested no deeper than a document allows inside
the object, and their numbers have a property. -/
structure Within (p : Number → Prop) (e : Extra) : Prop where
  unknown : ∀ m ∈ e.other.members, record.knows m.1 = false
  nested : Json.MembersWithin p (Json.maxLevels - 1) e.other.members

/-- The extra data with every number among the other members reread. -/
def reread (e : Extra) : Extra := { e with other := e.other.reread }

theorem unknown_rereadMembers {m : List (String × Json)}
    (h : ∀ e ∈ m, record.knows e.1 = false) :
    ∀ e ∈ Json.rereadMembers m, record.knows e.1 = false := by
  intro e he
  have hname : e.1 ∈ (Json.rereadMembers m).map Prod.fst := List.mem_map_of_mem he
  rw [Json.names_rereadMembers] at hname
  obtain ⟨f, hf, heq⟩ := List.mem_map.mp hname
  rw [← heq]
  exact h f hf

theorem Within.mono {q : Number → Prop} (hpq : ∀ n, p n → q n) {e : Extra} (h : e.Within p) :
    e.Within q where
  unknown := h.unknown
  nested := Json.membersWithin_mono hpq _ (Nat.le_refl _) h.nested

/-- Only the other members matter. -/
theorem Within.of_other_eq {e f : Extra} (h : e.Within p) (heq : f.other = e.other) :
    f.Within p where
  unknown := by rw [heq]; exact h.unknown
  nested := by rw [heq]; exact h.nested

theorem Within.reread (hp : ∀ n, p n → p n.reread) {e : Extra} (h : e.Within p) :
    e.reread.Within p where
  unknown := unknown_rereadMembers h.unknown
  nested := Json.membersWithin_reread hp _ h.nested

/-! ## The interpreted members -/

/-- The restraints are left out where there are none. -/
theorem copy?_modelRestrains {f : Codec.Field Extra}
    (hwrite : ∀ e, f.write e = if e.modelRestrains.isEmpty then none
      else some (Json.strings e.modelRestrains))
    (hread : ∀ j e, f.read j e = j.asStrings?.map fun v => { e with modelRestrains := v })
    (hrequired : f.required = false) {a b : Extra} (hblank : b.modelRestrains = []) :
    f.copy? a b = some { b with modelRestrains := a.modelRestrains } := by
  rw [copy?, hwrite]
  cases hl : a.modelRestrains with
  | nil =>
      have hcopy : b = { b with modelRestrains := [] } := by rw [← hblank]
      rw [if_pos List.isEmpty_nil, ← hcopy]
      simp [hrequired]
  | cons s l =>
      have hstrings : (Json.strings (s :: l)).asStrings? = some (s :: l) :=
        lawful_list lawful_string (s :: l) (fun _ _ => trivial)
      show f.read (Json.strings (s :: l)) b = _
      rw [hread, hstrings]
      rfl

theorem ofMembers?_record (e : Extra) {others : List (String × Json)}
    (ho : ∀ m ∈ others, record.knows m.1 = false) :
    record.ofMembers? (record.members e ++ others) = some { e with other := ∅ } := by
  rw [record.ofMembers?_members e others (by decide) ho]
  -- one field after the other, in the order of the record
  unfold record
  rw [foldlM_copy?_cons (copy?_optional lawful_string string_encode_ne_null (by simp) rfl),
    foldlM_copy?_cons (copy?_optional lawful_uint32 uint32_encode_ne_null (by simp) rfl),
    foldlM_copy?_cons (copy?_optional lawful_string string_encode_ne_null (by simp) rfl),
    foldlM_copy?_cons (copy?_optional lawful_uint32 uint32_encode_ne_null (by simp) rfl),
    foldlM_copy?_cons (copy?_modelRestrains (fun _ => rfl) (fun _ _ => rfl) rfl rfl),
    foldlM_copy?_cons (copy?_optional lawful_uint32 uint32_encode_ne_null (by simp) rfl),
    foldlM_copy?_cons (copy?_optional lawful_string string_encode_ne_null (by simp) rfl),
    foldlM_copy?_cons (copy?_optional lawful_string string_encode_ne_null (by simp) rfl)]
  rfl

theorem within_string (s : String) (levels : Nat) :
    Json.Within Number.ReadsBack levels (string.encode s) := trivial

theorem within_uint32 (n : UInt32) (levels : Nat) :
    Json.Within Number.ReadsBack levels (uint32.encode n) := by
  have hn := n.toNat_lt
  exact Number.readsBack_int (by omega) (by omega)

theorem within_strings (l : List String) {levels : Nat} (h : 0 < levels) :
    Json.Within Number.ReadsBack levels (Json.strings l) := by
  refine ⟨h, Json.elementsWithin_iff.mpr ?_⟩
  intro j hj
  obtain ⟨s, _, rfl⟩ := List.mem_map.mp hj
  trivial

/-- The interpreted members are texts, words and a list of texts. -/
theorem within_record (e : Extra) {levels : Nat} (h : 0 < levels) :
    Json.MembersWithin Number.ReadsBack levels (record.members e) := by
  rw [Json.membersWithin_iff]
  intro m hm
  obtain ⟨f, hf, hwritten⟩ := List.mem_filterMap.mp hm
  obtain ⟨j, hj, rfl⟩ := Option.map_eq_some_iff.mp hwritten
  have optional_string (get : Extra → Option String) (hj : (get e).map string.encode = some j) :
      Json.Within Number.ReadsBack levels j := by
    obtain ⟨s, _, rfl⟩ := Option.map_eq_some_iff.mp hj
    exact within_string s levels
  have optional_uint32 (get : Extra → Option UInt32) (hj : (get e).map uint32.encode = some j) :
      Json.Within Number.ReadsBack levels j := by
    obtain ⟨n, _, rfl⟩ := Option.map_eq_some_iff.mp hj
    exact within_uint32 n levels
  simp only [record, List.mem_cons, List.not_mem_nil, or_false] at hf
  rcases hf with rfl | rfl | rfl | rfl | rfl | rfl | rfl | rfl
  · exact optional_string _ hj
  · exact optional_uint32 _ hj
  · exact optional_string _ hj
  · exact optional_uint32 _ hj
  · have hstrings : (if e.modelRestrains.isEmpty then none
        else some (Json.strings e.modelRestrains)) = some j := hj
    split at hstrings
    · cases hstrings
    · cases hstrings
      exact within_strings _ h
  · exact optional_uint32 _ hj
  · exact optional_string _ hj
  · exact optional_string _ hj

/-! ## Blocks -/

theorem fromUTF8?_toUTF8 (s : String) : String.fromUTF8? s.toUTF8 = some s := by
  rw [String.fromUTF8?, String.toUTF8_eq_toByteArray, dif_pos s.isValidUTF8]
  rfl

/-- A block that was written begins with a brace. -/
theorem isEmptyBlock_encode (e : Extra) : isEmptyBlock e.encode = false := by
  obtain ⟨cs, hcs⟩ : ∃ cs, e.text = String.ofList ('\x7b' :: cs) := ⟨_, rfl⟩
  have hbrace : String.utf8EncodeChar '\x7b' = [123] := by decide
  have hdata : e.encode.data = #[123] ++ cs.utf8Encode.data := by
    rw [encode, String.toUTF8_eq_toByteArray, hcs, String.toByteArray_ofList,
      List.utf8Encode_cons, List.utf8Encode_singleton, hbrace]
    simp
  have hfirst : #[(123 : UInt8)].all isFiller = false := by simp [isFiller]
  rw [isEmptyBlock, hdata, Array.all_append, hfirst, Bool.false_and]

theorem rest_append {others : List (String × Json)} (e : Extra)
    (ho : ∀ m ∈ others, record.knows m.1 = false) : rest (record.members e ++ others) = others := by
  have hnone : (record.members e).filter (fun m => !record.knows m.1) = [] := by
    rw [List.filter_eq_nil_iff]
    intro m hm
    simp [Record.knows_of_mem_members hm]
  have hall : others.filter (fun m => !record.knows m.1) = others := by
    rw [List.filter_eq_self]
    intro m hm
    simp [ho m hm]
  rw [rest, List.filter_append, hnone, hall, List.nil_append]

/-- The text is an object with the interpreted members as they are and the others reread. -/
theorem read?_text {e : Extra} (he : e.Within Number.IsLegible) :
    Json.read? e.text = some (.obj (record.members e ++ e.reread.other.members)) := by
  have hrecord := within_record e (show 0 < Json.maxLevels - 1 by decide)
  have hwithin : Json.Within Number.IsLegible Json.maxLevels (codec.encode e) := by
    refine ⟨by decide, Json.membersWithin_iff.mpr ?_⟩
    intro m hm
    rcases List.mem_append.mp hm with hm | hm
    · exact Json.within_mono (fun _ h => h.lasts.isLegible) m.2 (Nat.le_refl _)
        (Json.membersWithin_iff.mp hrecord m hm)
    · exact Json.membersWithin_iff.mp he.nested m hm
  rw [text, Json.read?_render hwithin]
  show some (Json.obj (Json.rereadMembers (record.members e ++ e.other.members))) = _
  rw [Json.rereadMembers_append, Json.rereadMembers_of_readsBack _ hrecord]
  rfl

/-- **Decoding what was encoded** changes nothing but numbers among the other members. -/
theorem decode?_encode {e : Extra} (he : e.Within Number.IsLegible) :
    decode? e.encode = some e.reread := by
  have hunknown : ∀ m ∈ e.reread.other.members, record.knows m.1 = false :=
    unknown_rereadMembers he.unknown
  rw [decode?, if_neg (by rw [isEmptyBlock_encode]; decide), encode, fromUTF8?_toUTF8]
  show (Json.read? e.text).bind codec.decode? = _
  rw [read?_text he]
  show ofMembers? (record.members e ++ e.reread.other.members) = _
  rw [ofMembers?, ofMembers?_record e hunknown, rest_append e hunknown]
  show (FreeObject.ofMembers? e.reread.other.members).bind _ = _
  rw [FreeObject.ofMembers?_members]
  rfl

end Extra

end WorkerPipeline
