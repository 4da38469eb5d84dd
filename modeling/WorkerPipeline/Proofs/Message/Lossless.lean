import WorkerPipeline.Proofs.Message.Completion
import WorkerPipeline.Proofs.Message.Result

set_option autoImplicit false

/-! # The extra data lose and invent nothing

A block that is decoded and encoded again is the same JSON object, apart from interpreted members
that say nothing: those that are `null`, and a list of restraints without elements
(`decode_lossless`). What an interpreted field writes is what it has read, a field by itself
(`Record.write_of_ofMembers?`); the other members are written as they are kept. Two objects are
compared name by name, by the last value that bears the name.
-/

namespace WorkerPipeline

/-! ## Members by name -/

namespace Json

/-- The values of the members that bear a name, in order. -/
def valuesOf (name : String) (m : List (String × Json)) : List Json :=
  (m.filter fun e => e.1 == name).map Prod.snd

variable {name : String} {m n : List (String × Json)}

theorem valuesOf_cons (e : String × Json) :
    valuesOf name (e :: m) = if e.1 = name then e.2 :: valuesOf name m else valuesOf name m := by
  by_cases h : e.1 = name <;> simp [valuesOf, h]

theorem valuesOf_append : valuesOf name (m ++ n) = valuesOf name m ++ valuesOf name n := by
  simp [valuesOf]

theorem valuesOf_eq_nil (h : ∀ e ∈ m, e.1 ≠ name) : valuesOf name m = [] := by
  simpa [valuesOf] using fun a b hab => h (a, b) hab

theorem valuesOf_filter (p : String × Json → Bool) :
    valuesOf name (m.filter p) = (valuesOf name m).filter fun j => p (name, j) := by
  induction m with
  | nil => rfl
  | cons e m ih =>
      obtain ⟨k, j⟩ := e
      by_cases hname : k = name
      · subst hname
        cases hp : p (k, j) <;> simp [valuesOf_cons, hp, ih]
      · cases hp : p (k, j) <;> simp [valuesOf_cons, hp, ih, hname]

theorem valuesOf_canonical :
    valuesOf name (m.map fun e => (e.1, e.2.canonical)) = (valuesOf name m).map canonical := by
  simp [valuesOf, List.filter_map, Function.comp_def]

theorem valuesOf_reverse : valuesOf name m.reverse = (valuesOf name m).reverse := by
  simp [valuesOf, List.filter_reverse]

/-- What is found under a name is the first of the values that bear it. -/
theorem find_eq_head? : Entries.find name m = (valuesOf name m).head? := by
  induction m with
  | nil => rfl
  | cons e m ih =>
      rw [Entries.find, valuesOf_cons, ih]
      split <;> rfl

/-- Of several members with one name the last counts. -/
theorem find_insertAll (name : String) (m : List (String × Json)) :
    Entries.find name (Entries.insertAll m) = (valuesOf name m).getLast? := by
  rw [Entries.find_insertAll, find_eq_head?, valuesOf_reverse, List.head?_reverse]

theorem valuesOf_of_nodup (hn : (m.map Prod.fst).Nodup) :
    valuesOf name m = (Entries.find name m).toList := by
  induction m with
  | nil => rfl
  | cons e m ih =>
      obtain ⟨he, hm⟩ := List.nodup_cons.mp hn
      rw [valuesOf_cons, Entries.find]
      split
      · rename_i hname
        subst hname
        rw [ih hm, Entries.find_eq_none he]
        rfl
      · exact ih hm

/-- The values that a free object has under a name: the last one that was given. -/
theorem valuesOf_insertAll :
    valuesOf name (Entries.insertAll m) = (valuesOf name m).getLast?.toList := by
  rw [valuesOf_of_nodup (Entries.nodup_of_sorted (Entries.sorted_insertAll m)), find_insertAll]

/-! ## What an object means -/

theorem canonical_of_free {j : Json} (h : j.Free) : j.canonical = j := by
  rw [canonical, free?_of_free h]
  rfl

theorem free_canonical {j : Json} (h : j.isReadable = true) : j.canonical.Free := by
  obtain ⟨k, hk⟩ := Option.isSome_iff_exists.mp h
  rw [canonical, hk]
  exact free_of_free? hk

/-- Objects mean the same where their last values under each name mean the same. -/
theorem exists_free?_obj (hm : ∀ e ∈ m, e.2.isReadable = true)
    (hn : ∀ e ∈ n, e.2.isReadable = true)
    (h : ∀ name, ((valuesOf name m).map canonical).getLast? =
      ((valuesOf name n).map canonical).getLast?) :
    ∃ j, (obj m).free? = some j ∧ (obj n).free? = some j := by
  refine ⟨.obj (Entries.insertAll (m.map fun e => (e.1, e.2.canonical))), ?_, ?_⟩
  · rw [free?, freeMembers?_of_readable hm]
    rfl
  · rw [free?, freeMembers?_of_readable hn, Option.map_some]
    refine congrArg (fun l => some (Json.obj l)) ?_
    refine Entries.ext (Entries.sorted_insertAll _) (Entries.sorted_insertAll _) fun name => ?_
    rw [find_insertAll, find_insertAll, valuesOf_canonical, valuesOf_canonical, h]

end Json

/-! ## Fields that write what they read -/

namespace Codec

variable {α β : Type} {name : String} {c : Codec β} {r : Record α} {f : Field α}
  {m : List (String × Json)} {j : Json} {a b : α}

/-- Whatever is read is written the same way. -/
def Faithful (c : Codec β) : Prop := ∀ j v, c.decode? j = some v → c.encode v = j

theorem faithful_string : string.Faithful := by
  intro j s h
  cases j <;> cases h
  rfl

theorem faithful_uint32 : uint32.Faithful := by
  intro j n h
  obtain ⟨k, hk, rfl⟩ := Option.map_eq_some_iff.mp h
  unfold Json.asNatBelow? at hk
  split at hk
  · rename_i i
    split at hk
    · rename_i hi
      cases hk
      have hsize : i.toNat < UInt32.size := by omega
      have hback : (UInt32.ofNat i.toNat).toNat = i.toNat := UInt32.toNat_ofNat_of_lt' hsize
      show Json.num (.int ((UInt32.ofNat i.toNat).toNat : Int)) = _
      rw [hback, Int.toNat_of_nonneg hi.1]
    · cases hk
  · cases hk

theorem faithful_list (hc : c.Faithful) : (list c).Faithful := by
  intro j l h
  cases j with
  | arr elements =>
      refine congrArg Json.arr ?_
      have hl : elements.mapM c.decode? = some l := h
      induction elements generalizing l with
      | nil =>
          cases hl
          rfl
      | cons j elements ih =>
          simp only [List.mapM_cons, Option.pure_def, Option.bind_eq_bind,
            Option.bind_eq_some_iff] at hl
          obtain ⟨v, hv, l, hl, ⟨⟩⟩ := hl
          rw [List.map_cons, hc j v hv, ih l hl hl]
  | _ => cases h

/-- A field that may be left out is left out where `null` was read. -/
theorem Field.write_of_read_optional {get : α → Option β} {set : Option β → α → α}
    (hc : c.Faithful) (hget : ∀ v a, get (set v a) = v)
    (h : (Field.optional name c get set).read j a = some b) :
    (j = .null ∧ (Field.optional name c get set).write b = none) ∨
      ((∃ v, j = c.encode v) ∧ (Field.optional name c get set).write b = some j) := by
  obtain ⟨v, hv, rfl⟩ := Option.map_eq_some_iff.mp h
  have hwrite : (Field.optional name c get set).write (set v a) = v.map c.encode :=
    congrArg (Option.map c.encode) (hget v a)
  have hread : j.asOption? c.decode? = some v := hv
  unfold Json.asOption? at hread
  split at hread
  · cases hread
    exact .inl ⟨rfl, hwrite⟩
  · obtain ⟨w, hw, rfl⟩ := Option.map_eq_some_iff.mp hread
    rw [hwrite, Option.map_some, hc j w hw]
    exact .inr ⟨⟨w, (hc j w hw).symm⟩, rfl⟩

/-- **A field writes what it has read**, as far as that says something, whatever the other fields
have read. -/
theorem Record.write_of_ofMembers? {informs : String × Json → Bool} (hf : f ∈ r.fields)
    (hn : (r.fields.map Field.name).Nodup) (hblank : f.write r.blank = none)
    (hread : ∀ j b c, f.read j b = some c →
      (f.write c).toList = [j].filter fun j => informs (f.name, j))
    (hothers : ∀ g ∈ r.fields, g.name ≠ f.name → ∀ j b c, g.read j b = some c →
      f.write c = f.write b)
    (h : r.ofMembers? m = some a) :
    (f.write a).toList = (Json.valuesOf f.name m).filter fun j => informs (f.name, j) := by
  obtain ⟨before, after, hfields⟩ := List.append_of_mem hf
  simp only [Record.ofMembers?, hfields, List.foldlM_append, List.foldlM_cons,
    Option.bind_eq_bind, Option.bind_eq_some_iff] at h
  obtain ⟨b, hbefore, c, hc, hafter⟩ := h
  rw [hfields, List.map_append, List.map_cons, List.nodup_append] at hn
  -- the fields before and after leave alone what this one writes
  have hb : f.write b = none := by
    refine Keeps.ofMembers? (r := ⟨before, r.blank, r.defaults⟩) (q := fun _ => True)
      (P := fun a => f.write a = none) ⟨hblank, ?_⟩ (fun _ _ => trivial) hbefore
    intro g hg j a b _ ha hread
    rw [hothers g (by simp [hfields, hg]) ?_ j a b hread, ha]
    exact hn.2.2 g.name (List.mem_map_of_mem hg) f.name List.mem_cons_self
  have ha : f.write a = f.write c := by
    refine Keeps.ofMembers? (r := ⟨after, c, r.defaults⟩) (q := fun _ => True)
      (P := fun a => f.write a = f.write c) ⟨rfl, ?_⟩ (fun _ _ => trivial) hafter
    intro g hg j a b _ ha hread
    rw [hothers g (by simp [hfields, hg]) ?_ j a b hread, ha]
    intro hname
    exact (List.nodup_cons.mp hn.2.1).1 (hname ▸ List.mem_map_of_mem hg)
  rw [ha]
  have hamong : f.among m = Json.valuesOf f.name m := rfl
  unfold Field.take? at hc
  split at hc
  · rename_i hnil
    split at hc
    · cases hc
    · cases hc
      rw [← hamong, hnil, hb]
      rfl
  · rename_i j hone
    rw [← hamong, hone]
    exact hread j b c hc
  · cases hc

end Codec

/-! ## Blocks -/

namespace Extra

open Codec

variable {e : Extra} {m : List (String × Json)} {block : ByteArray}

/-- The members of the object in a block, as they stand there. A block of blanks, tabs, line feeds,
form feeds and carriage returns is the empty object. -/
def blockMembers? (block : ByteArray) : Option (List (String × Json)) :=
  if block.data.all [32, 9, 10, 12, 13].contains then some []
  else do
    match ← Json.read? (← String.fromUTF8? block) with
    | .obj m => some m
    | _ => none

/-- Whether a member informs about anything. An interpreted member that is `null` does not, and
neither do restraints without elements. -/
def informs : String × Json → Bool
  | (name, .null) => !record.knows name
  | (name, .arr []) => name != "model_restrains"
  | _ => true

example : record.fields.map Field.name = ["hardware_required", "max_memory_footprint", "goal",
    "num_outputs", "model_restrains", "previous_problem_id", "type", "dataset_path"] := rfl

theorem isEmptyBlock_eq : isEmptyBlock block = block.data.all [32, 9, 10, 12, 13].contains := by
  have hfiller : isFiller = [32, 9, 10, 12, 13].contains := by
    funext b
    simp only [isFiller, List.contains_cons, List.contains_nil, Bool.or_false, Bool.or_assoc]
  rw [isEmptyBlock, hfiller]

theorem exists_members_of_decode? (h : decode? block = some e) :
    ∃ m, blockMembers? block = some m ∧ ofMembers? m = some e := by
  unfold decode? at h
  unfold blockMembers?
  split at h
  · rename_i hempty
    cases h
    exact ⟨[], if_pos (isEmptyBlock_eq ▸ hempty), rfl⟩
  · rename_i hempty
    rw [isEmptyBlock_eq] at hempty
    obtain ⟨text, htext, h⟩ := Option.bind_eq_some_iff.mp h
    obtain ⟨j, hj, h⟩ := Option.bind_eq_some_iff.mp h
    cases j with
    | obj m =>
        refine ⟨m, ?_, h⟩
        rw [if_neg hempty, htext, Option.bind_eq_bind, Option.bind_some, hj]
        rfl
    | _ => cases h

theorem blockMembers?_encode (h : e.IsReadable) (hn : e.NumbersReadBack) :
    blockMembers? e.encode = some e.members := by
  have hcontent : ¬ e.encode.data.all [32, 9, 10, 12, 13].contains = true := by
    rw [← isEmptyBlock_eq, isEmptyBlock_encode]
    exact Bool.false_ne_true
  rw [blockMembers?, if_neg hcontent, encode, fromUTF8?_toUTF8, Option.bind_eq_bind,
    Option.bind_some, read?_text (h.mono fun _ hn => hn.isLegible), reread_of_readsBack hn]
  rfl

/-! ## The interpreted members -/

theorem write_of_read_optional {β : Type} {name : String} {c : Codec β} {get : Extra → Option β}
    {set : Option β → Extra → Extra} {j : Json} {a b : Extra} (hc : c.Faithful)
    (hget : ∀ v a, get (set v a) = v) (hknown : record.knows name = true)
    (hinforms : ∀ v, informs (name, c.encode v) = true)
    (h : (Field.optional name c get set).read j a = some b) :
    ((Field.optional name c get set).write b).toList = [j].filter fun j => informs (name, j) := by
  rcases Field.write_of_read_optional hc hget h with ⟨rfl, hwrite⟩ | ⟨⟨v, rfl⟩, hwrite⟩
  · have hnull : informs (name, .null) = false := by rw [informs, hknown, Bool.not_true]
    rw [hwrite, List.filter_cons_of_neg (by rw [hnull]; exact Bool.false_ne_true)]
    rfl
  · rw [hwrite, List.filter_cons_of_pos (p := fun j => informs (name, j)) (hinforms v)]
    rfl

theorem write_of_read {f : Codec.Field Extra} (hf : f ∈ record.fields) {j : Json} {a b : Extra}
    (h : f.read j a = some b) :
    (f.write b).toList = [j].filter fun j => informs (f.name, j) := by
  simp only [record, List.mem_cons, List.not_mem_nil, or_false] at hf
  rcases hf with rfl | rfl | rfl | rfl | rfl | rfl | rfl | rfl
  · exact write_of_read_optional faithful_string (fun _ _ => rfl) (by decide) (fun _ => rfl) h
  · exact write_of_read_optional faithful_uint32 (fun _ _ => rfl) (by decide) (fun _ => rfl) h
  · exact write_of_read_optional faithful_string (fun _ _ => rfl) (by decide) (fun _ => rfl) h
  · exact write_of_read_optional faithful_uint32 (fun _ _ => rfl) (by decide) (fun _ => rfl) h
  · -- the restraints: a list of texts, left out where it has no elements
    obtain ⟨l, hl, rfl⟩ := Option.map_eq_some_iff.mp h
    rw [← faithful_list faithful_string j l hl]
    cases l <;> rfl
  · exact write_of_read_optional faithful_uint32 (fun _ _ => rfl) (by decide) (fun _ => rfl) h
  · exact write_of_read_optional faithful_string (fun _ _ => rfl) (by decide) (fun _ => rfl) h
  · exact write_of_read_optional faithful_string (fun _ _ => rfl) (by decide) (fun _ => rfl) h

/-- What a field writes depends on what it has read only. -/
theorem write_of_read_other {f g : Codec.Field Extra} (hf : f ∈ record.fields)
    (hg : g ∈ record.fields) (hname : g.name ≠ f.name) {j : Json} {a b : Extra}
    (h : g.read j a = some b) : f.write b = f.write a := by
  simp only [record, List.mem_cons, List.not_mem_nil, or_false] at hf hg
  rcases hg with rfl | rfl | rfl | rfl | rfl | rfl | rfl | rfl
  all_goals
    obtain ⟨v, -, rfl⟩ := Option.map_eq_some_iff.mp h
    rcases hf with rfl | rfl | rfl | rfl | rfl | rfl | rfl | rfl <;>
      first | rfl | exact absurd rfl hname

theorem write_with_other {f : Codec.Field Extra} (hf : f ∈ record.fields) (o : FreeObject) :
    f.write { e with other := o } = f.write e := by
  simp only [record, List.mem_cons, List.not_mem_nil, or_false] at hf
  rcases hf with rfl | rfl | rfl | rfl | rfl | rfl | rfl | rfl <;> rfl

theorem write_blank {f : Codec.Field Extra} (hf : f ∈ record.fields) : f.write {} = none := by
  simp only [record, List.mem_cons, List.not_mem_nil, or_false] at hf
  rcases hf with rfl | rfl | rfl | rfl | rfl | rfl | rfl | rfl <;> rfl

/-- The values that the interpreted members are written with are those that were read and inform
about something. -/
theorem valuesOf_record (h : ofMembers? m = some e) {f : Codec.Field Extra}
    (hf : f ∈ record.fields) :
    Json.valuesOf f.name (record.members e) =
      (Json.valuesOf f.name m).filter fun j => informs (f.name, j) := by
  obtain ⟨d, hd, h⟩ := Option.bind_eq_some_iff.mp h
  obtain ⟨other, -, he⟩ := Option.bind_eq_some_iff.mp h
  cases he
  have hwritten : Json.valuesOf f.name (record.members { d with other }) =
      (f.write { d with other }).toList := Field.among_written _ _ f hf (by decide)
  rw [hwritten, write_with_other hf]
  exact Record.write_of_ofMembers? hf (by decide) (write_blank hf)
    (fun j b c hc => write_of_read hf hc)
    (fun g hg hname j b c hc => write_of_read_other hf hg hname hc) hd

/-! ## The other members -/

theorem informs_of_unknown {name : String} (h : record.knows name = false) (j : Json) :
    informs (name, j) = true := by
  have hname : name ≠ "model_restrains" := by
    rintro rfl
    exact absurd h (by decide)
  unfold informs
  split
  · rename_i heq
    cases heq
    rw [h, Bool.not_false]
  · rename_i heq
    cases heq
    exact bne_iff_ne.mpr hname
  · rfl

theorem valuesOf_rest {name : String} (h : record.knows name = false) :
    Json.valuesOf name (rest m) = Json.valuesOf name m := by
  rw [rest, Json.valuesOf_filter, List.filter_eq_self]
  intro j _
  simp [h]

/-- The other members are free and have the last values that were given to their names. -/
theorem valuesOf_other (h : ofMembers? m = some e) {name : String}
    (hname : record.knows name = false) :
    Json.valuesOf name e.other.members =
      ((Json.valuesOf name m).map Json.canonical).getLast?.toList := by
  obtain ⟨d, -, h⟩ := Option.bind_eq_some_iff.mp h
  obtain ⟨other, hother, he⟩ := Option.bind_eq_some_iff.mp h
  cases he
  obtain ⟨k, hk, hmembers⟩ := FreeObject.members_of_ofMembers? hother
  obtain ⟨-, rfl⟩ := Json.freeMembers?_eq_some_iff.mp hk
  rw [hmembers, Json.valuesOf_insertAll, Json.valuesOf_canonical, valuesOf_rest hname]

theorem valuesOf_record_of_unknown {name : String} (hname : record.knows name = false) :
    Json.valuesOf name (record.members e) = [] := by
  refine Json.valuesOf_eq_nil fun n hn heq => ?_
  have hknown := Record.knows_of_mem_members hn
  rw [heq, hname] at hknown
  cases hknown

/-! ## Blocks that are read -/

/-- The members that inform about something can be read. -/
theorem isReadable_of_informs (h : ofMembers? m = some e) {n : String × Json}
    (hn : n ∈ m.filter informs) : n.2.isReadable = true := by
  obtain ⟨hm, hinforms⟩ := List.mem_filter.mp hn
  have hvalue : n.2 ∈ Json.valuesOf n.1 m :=
    List.mem_map_of_mem (List.mem_filter.mpr ⟨hm, beq_self_eq_true n.1⟩)
  cases hknown : record.knows n.1 with
  | true =>
      obtain ⟨f, hf, hname⟩ := List.any_eq_true.mp hknown
      have hname : f.name = n.1 := by simpa using hname
      have hwritten : n.2 ∈ Json.valuesOf f.name (record.members e) := by
        rw [valuesOf_record h hf, hname]
        exact List.mem_filter.mpr ⟨hvalue, hinforms⟩
      obtain ⟨k, hk, heq⟩ := List.mem_map.mp hwritten
      rw [← heq]
      exact isReadable_of_mem_members (List.mem_append_left _ (List.mem_of_mem_filter hk))
  | false =>
      obtain ⟨d, -, h⟩ := Option.bind_eq_some_iff.mp h
      obtain ⟨other, hother, -⟩ := Option.bind_eq_some_iff.mp h
      obtain ⟨k, hk, -⟩ := FreeObject.members_of_ofMembers? hother
      refine (Json.freeMembers?_eq_some_iff.mp hk).1 n (List.mem_filter.mpr ⟨hm, ?_⟩)
      rw [hknown]
      rfl

/-- Under each name the last value that informs about something is the one that is kept. -/
theorem getLast?_valuesOf_members (h : ofMembers? m = some e)
    (hunknown : ∀ n ∈ e.other.members, record.knows n.1 = false) (name : String) :
    ((Json.valuesOf name (m.filter informs)).map Json.canonical).getLast? =
      ((Json.valuesOf name e.members).map Json.canonical).getLast? := by
  rw [Json.valuesOf_filter, members, Json.valuesOf_append]
  cases hknown : record.knows name with
  | true =>
      -- no other member bears the name, and the field writes what it has read
      obtain ⟨f, hf, hname⟩ := List.any_eq_true.mp hknown
      obtain rfl : f.name = name := by simpa using hname
      have hother : Json.valuesOf f.name e.other.members = [] := by
        refine Json.valuesOf_eq_nil fun n hn heq => ?_
        have hn := hunknown n hn
        rw [heq, hknown] at hn
        cases hn
      rw [hother, List.append_nil, valuesOf_record h hf]
  | false =>
      -- what is kept is in its free form already
      have hinforms : (Json.valuesOf name m).filter (fun j => informs (name, j)) =
          Json.valuesOf name m :=
        List.filter_eq_self.mpr fun j _ => informs_of_unknown hknown j
      rw [valuesOf_record_of_unknown hknown, List.nil_append, hinforms, valuesOf_other h hknown]
      cases hlast : ((Json.valuesOf name m).map Json.canonical).getLast? with
      | none => rfl
      | some j =>
          obtain ⟨k, hk, rfl⟩ := List.mem_map.mp (List.mem_of_getLast? hlast)
          obtain ⟨n, hn, rfl⟩ := List.mem_map.mp hk
          obtain ⟨hmem, hname⟩ := List.mem_filter.mp hn
          obtain rfl : n.1 = name := by simpa using hname
          have hreadable : n.2.isReadable = true := isReadable_of_informs h
            (List.mem_filter.mpr ⟨hmem, informs_of_unknown hknown n.2⟩)
          rw [Option.toList_some, List.map_singleton, List.getLast?_singleton,
            Json.canonical_of_free (Json.free_canonical hreadable)]

/-- **The extra data lose and invent nothing.** Where a block is decoded, what is encoded from it is
decoded to the same. It is an object whose members have different names, and it means what the block
means without the interpreted members that do not inform about anything; of several uninterpreted
members with one name the last counts. -/
theorem decode_lossless (h : decode block = .ok e) (hn : e.NumbersReadBack) :
    decode e.encode = .ok e ∧ (decode e.encode).map encode = .ok e.encode ∧
      ∃ m n j, blockMembers? block = some m ∧ blockMembers? e.encode = some n ∧
        (n.map Prod.fst).Nodup ∧
        (Json.obj (m.filter informs)).free? = some j ∧ (Json.obj n).free? = some j := by
  have hdecode := decode_eq_ok_iff.mp h
  have hreadable := isReadable_of_decode? hdecode
  have hback : decode e.encode = .ok e :=
    decode_eq_ok_iff.mpr (decode?_encode_of_readsBack hreadable hn)
  refine ⟨hback, by rw [hback]; rfl, ?_⟩
  obtain ⟨m, hm, hread⟩ := exists_members_of_decode? hdecode
  obtain ⟨j, hj⟩ := Json.exists_free?_obj (fun _ => isReadable_of_informs hread)
    (fun _ => isReadable_of_mem_members) (getLast?_valuesOf_members hread hreadable.unknown)
  exact ⟨m, e.members, j, hm, blockMembers?_encode hreadable hn,
    nodup_members hreadable.unknown, hj⟩

/-- A goal that is `null`, restraints without elements, a type, and two hints of one name. -/
def hinted : ByteArray :=
  "\x7b\"goal\":null,\"model_restrains\":[],\"type\":\"seg\",\"hint\":1,\"hint\":[0.5]\x7d".toUTF8

/-- The type and the later hint are written again. -/
theorem decode_lossless_hinted :
    ∃ e, decode hinted = .ok e ∧ e.NumbersReadBack ∧
      e.text = "\x7b\"type\":\"seg\",\"hint\":[0.5]\x7d" ∧ decode e.encode = .ok e := by
  have hany : (decode? hinted).any (fun e =>
      e.text = "\x7b\"type\":\"seg\",\"hint\":[0.5]\x7d" ∧
        Json.MembersWithin Number.ReadsBack 1 e.other.members) = true := by
    decide +kernel
  obtain ⟨e, hdecode, he⟩ := (Option.any_eq_true _ _).mp hany
  obtain ⟨htext, hwithin⟩ := of_decide_eq_true he
  have h := decode_eq_ok_iff.mpr hdecode
  exact ⟨e, h, ⟨1, hwithin⟩, htext, (decode_lossless h ⟨1, hwithin⟩).1⟩

end Extra

end WorkerPipeline
