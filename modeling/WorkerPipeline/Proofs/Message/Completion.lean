import WorkerPipeline.Proofs.Message.Reading

set_option autoImplicit false

/-! # Extra data that were completed

A published input names its hardware and its memory, whatever else the extra data hold. The two
members are written first, so they are what a reader finds, unless the block cannot be decoded at
all because of what comes behind them (`required_of_decode?_encode`). What was decoded can be
encoded and decoded once more, and nothing changes by that if its numbers read back
(`decode?_encode_of_readsBack`).
-/

namespace WorkerPipeline

namespace Json

/-! ## The first member of an object -/

variable {levels fuel : Nat}

/-- Where the members of an object are read, the first one is what was written first. -/
theorem members?_first {name : String} {j k : Json} {m l : List (String × Json)}
    {rest left : List Char}
    (hj : ∀ cs, Numeral.IsBoundary cs → value? levels fuel (renderList j ++ cs) = some (k, cs))
    (h : members? levels (fuel + 1) (renderMembers ((name, j) :: m) ++ '\x7d' :: rest) =
      some (some l, left)) :
    ∃ l', l = (name, k) :: l' ∧ (m = [] ∨
      members? levels fuel (renderMembers m ++ '\x7d' :: rest) = some (some l', left)) := by
  cases m with
  | nil =>
      -- the brace follows at once
      have htext : renderMembers [(name, j)] = renderString name ++ ':' :: renderList j := by
        simp [renderMembers, renderMember, renderMoreMembers]
      rw [htext, List.append_assoc, renderString_append, members?, skipSpace_cons rfl] at h
      simp only [units?_flatMap_escape, Option.bind_eq_bind, Option.bind_some, join?_toNat,
        List.cons_append, skipSpace_cons (show isSpace ':' = false from rfl),
        hj _ (Numeral.isBoundary_brace rest),
        skipSpace_cons (show isSpace '\x7d' = false from rfl), Option.map_some,
        String.ofList_toList] at h
      cases h
      exact ⟨[], rfl, .inl rfl⟩
  | cons e m =>
      have htext : renderMembers ((name, j) :: e :: m) =
          renderString name ++ ':' :: renderList j ++ ',' :: renderMembers (e :: m) := by
        simp [renderMembers, renderMember, renderMoreMembers]
      rw [htext, List.append_assoc, List.append_assoc, renderString_append, members?,
        skipSpace_cons rfl] at h
      simp only [units?_flatMap_escape, Option.bind_eq_bind, Option.bind_some, join?_toNat,
        List.cons_append, skipSpace_cons (show isSpace ':' = false from rfl),
        hj _ (Numeral.isBoundary_comma _), skipSpace_cons (show isSpace ',' = false from rfl),
        Option.map_some, String.ofList_toList] at h
      -- the other members are read from what is left
      obtain ⟨⟨m?, left'⟩, hmore, h⟩ := Option.bind_eq_some_iff.mp h
      obtain ⟨hm, rfl⟩ := Prod.mk.inj (Option.some.inj h)
      obtain ⟨l', rfl, hl⟩ := Option.bind_eq_some_iff.mp hm
      cases hl
      exact ⟨l', rfl, .inr hmore⟩

/-- What is read where an object with members was written. -/
theorem members?_of_read? {m : List (String × Json)} (hm : m ≠ []) {i : Json}
    (h : read? (render (.obj m)) = some i) (hi : i ≠ .unreadable) :
    ∃ l left, i = .obj l ∧
      members? (maxLevels - 1) ((renderMembers m).length + 2) (renderMembers m ++ ['\x7d']) =
        some (some l, left) := by
  obtain ⟨⟨name, j⟩, m, rfl⟩ := List.exists_cons_of_ne_nil hm
  obtain ⟨cs, hcs⟩ : ∃ cs, renderMembers ((name, j) :: m) = '"' :: cs := ⟨_, rfl⟩
  have hlist : renderList (.obj ((name, j) :: m)) = '\x7b' :: '"' :: (cs ++ ['\x7d']) := by
    rw [renderList, hcs]
    rfl
  rw [read?, render, String.toList_ofList, readList?, hlist, value?_object] at h
  rw [hcs]
  simp only [List.cons_append, List.length_cons, List.length_append, List.length_nil] at h ⊢
  cases hmembers : members? (maxLevels - 1) (cs.length + (0 + 1) + 1 + 1)
      ('"' :: (cs ++ ['\x7d'])) with
  | none =>
      rw [hmembers] at h
      cases h
  | some r =>
      obtain ⟨l?, left⟩ := r
      rw [hmembers] at h
      dsimp only [Option.map_some] at h
      split at h
      · cases l? with
        | none => exact absurd (Option.some.inj h).symm hi
        | some l =>
            rw [Option.elim_some, contain_of_pos (by decide)] at h
            cases h
            exact ⟨l, left, rfl, rfl⟩
      · cases h

end Json

/-! ## A field of a record -/

namespace Codec

variable {α : Type} {r : Record α} {f : Field α} {m : List (String × Json)} {j : Json} {a b : α}

/-- A field whose member is there is read from it. -/
theorem Field.read_of_take? (hj : (f.name, j) ∈ m) (h : f.take? m a = some b) :
    f.read j a = some b := by
  have hmem : j ∈ f.among m :=
    List.mem_map.mpr ⟨(f.name, j), List.mem_filter.mpr ⟨hj, beq_self_eq_true _⟩, rfl⟩
  unfold take? at h
  split at h
  · rename_i hnil
    rw [hnil] at hmem
    cases hmem
  · rename_i hone
    rw [hone, List.mem_singleton] at hmem
    rw [hmem]
    exact h
  · cases h

/-- What one field reads and no other field changes holds of the record that is read. -/
theorem Record.of_member (hf : f ∈ r.fields) (hn : (r.fields.map Field.name).Nodup)
    (hj : (f.name, j) ∈ m) {P : α → Prop} (hread : ∀ b c, f.read j b = some c → P c)
    (hothers : ∀ g ∈ r.fields, g.name ≠ f.name → ∀ k b c, P b → g.read k b = some c → P c)
    (h : r.ofMembers? m = some a) : P a := by
  obtain ⟨before, after, hfields⟩ := List.append_of_mem hf
  simp only [Record.ofMembers?, hfields, List.foldlM_append, List.foldlM_cons,
    Option.bind_eq_bind, Option.bind_eq_some_iff] at h
  obtain ⟨b, -, c, hc, h⟩ := h
  -- from there on the fields that follow are those of a record that starts with what was read
  have hkeeps : Keeps ⟨after, c, r.defaults⟩ (fun _ => True) P := {
    blank := hread b c (Field.read_of_take? hj hc)
    read := by
      intro g hg k b c _ hb hread
      refine hothers g (by simp [hfields, hg]) ?_ k b c hb hread
      intro hname
      rw [hfields, List.map_append, List.map_cons, List.nodup_append] at hn
      exact (List.nodup_cons.mp hn.2.1).1 (hname ▸ List.mem_map_of_mem hg) }
  exact hkeeps.ofMembers? (fun _ _ => trivial) h

end Codec

/-! ## Hardware and memory -/

namespace Extra

open Codec

variable {e e' : Extra} {m : List (String × Json)}

theorem kept_of_read {g : Codec.Field Extra} (hg : g ∈ record.fields) {j : Json}
    (h : g.read j e = some e') :
    (g.name ≠ "hardware_required" → e'.hardwareRequired = e.hardwareRequired) ∧
      (g.name ≠ "max_memory_footprint" → e'.maxMemoryFootprint = e.maxMemoryFootprint) := by
  simp only [record, List.mem_cons, List.not_mem_nil, or_false] at hg
  rcases hg with rfl | rfl | rfl | rfl | rfl | rfl | rfl | rfl
  all_goals
    obtain ⟨v, -, rfl⟩ := Option.map_eq_some_iff.mp h
    constructor <;> intro hname <;> first | rfl | exact absurd rfl hname

theorem hardwareRequired_of_member {s : String} (hs : ("hardware_required", string.encode s) ∈ m)
    (h : record.ofMembers? m = some e) : e.hardwareRequired = some s := by
  refine Record.of_member (P := fun e => e.hardwareRequired = some s) List.mem_cons_self
    (by decide) hs ?_ ?_ h
  · intro b c hc
    rw [Field.read_optional_encode lawful_string string_encode_ne_null trivial] at hc
    cases hc
    rfl
  · intro g hg hname k b c hb hc
    rw [(kept_of_read hg hc).1 hname, hb]

theorem maxMemoryFootprint_of_member {n : UInt32}
    (hn : ("max_memory_footprint", uint32.encode n) ∈ m) (h : record.ofMembers? m = some e) :
    e.maxMemoryFootprint = some n := by
  refine Record.of_member (P := fun e => e.maxMemoryFootprint = some n)
    (List.mem_cons_of_mem _ List.mem_cons_self) (by decide) hn ?_ ?_ h
  · intro b c hc
    rw [Field.read_optional_encode lawful_uint32 uint32_encode_ne_null trivial] at hc
    cases hc
    rfl
  · intro g hg hname k b c hb hc
    rw [(kept_of_read hg hc).2 hname, hb]

theorem value?_uint32 (levels fuel : Nat) (n : UInt32) {rest : List Char}
    (hfuel : (Json.renderList (uint32.encode n)).length ≤ fuel)
    (hrest : Numeral.IsBoundary rest) :
    Json.value? levels fuel (Json.renderList (uint32.encode n) ++ rest) =
      some (uint32.encode n, rest) := by
  have hreads := within_uint32 n levels
  have hlegible := Json.within_mono (fun _ h => h.lasts.isLegible) _ (Nat.le_refl _) hreads
  rw [Json.value?_renderList _ levels fuel hlegible hfuel hrest,
    Json.reread_of_readsBack _ hreads]

/-- What is decoded are the members that are read where the extra data were written. -/
theorem ofMembers?_of_decode?_encode (hm : e.members ≠ []) (h : decode? e.encode = some e') :
    ∃ l left, Json.members? (Json.maxLevels - 1) ((Json.renderMembers e.members).length + 2)
        (Json.renderMembers e.members ++ ['\x7d']) = some (some l, left) ∧
      ofMembers? l = some e' := by
  rw [decode?, if_neg (by rw [isEmptyBlock_encode]; decide), encode, fromUTF8?_toUTF8] at h
  obtain ⟨i, hread, h⟩ : ∃ i, Json.read? e.text = some i ∧ codec.decode? i = some e' :=
    Option.bind_eq_some_iff.mp h
  have hreadable : i ≠ .unreadable := by
    rintro rfl
    cases h
  obtain ⟨l, left, rfl, hl⟩ := Json.members?_of_read? hm hread hreadable
  exact ⟨l, left, hl, h⟩

/-- **The hardware and the memory** that were written are those that are read, whatever the other
members are. -/
theorem required_of_decode?_encode {hardware : String} {memory : UInt32}
    (hhardware : e.hardwareRequired = some hardware)
    (hmemory : e.maxMemoryFootprint = some memory) (h : decode? e.encode = some e') :
    e'.hardwareRequired = some hardware ∧ e'.maxMemoryFootprint = some memory := by
  obtain ⟨others, hmembers⟩ : ∃ others, e.members =
      ("hardware_required", .str hardware) ::
        ("max_memory_footprint", uint32.encode memory) :: others := by
    simp [members, record, Record.members, Field.optional, hhardware, hmemory, string]
  have hm : e.members ≠ [] := by simp [hmembers]
  obtain ⟨l, left, hl, hdecode⟩ := ofMembers?_of_decode?_encode hm h
  -- what comes behind the two members need not be looked at
  rw [hmembers] at hl
  have hfuel : (Json.renderList (uint32.encode memory)).length ≤ (Json.renderMembers
      (("hardware_required", .str hardware) ::
        ("max_memory_footprint", uint32.encode memory) :: others)).length := by
    simp [Json.renderMembers, Json.renderMoreMembers, Json.renderMember, uint32, Json.nat]
    omega
  obtain ⟨l, rfl, hnil | hl⟩ := Json.members?_first
    (fun cs _ => Json.value?_string _ _ hardware cs) hl
  · cases hnil
  · obtain ⟨l, rfl, -⟩ := Json.members?_first
      (fun cs hcs => value?_uint32 _ _ memory hfuel hcs) hl
    obtain ⟨d, hd, hother⟩ := Option.bind_eq_some_iff.mp hdecode
    obtain ⟨other, -, he⟩ := Option.bind_eq_some_iff.mp hother
    cases he
    have hsame : d.hardwareRequired = some hardware ∧ d.maxMemoryFootprint = some memory :=
      ⟨hardwareRequired_of_member List.mem_cons_self hd,
        maxMemoryFootprint_of_member (List.mem_cons_of_mem _ List.mem_cons_self) hd⟩
    exact hsame

/-! ## Extra data that were decoded -/

/-- What was decoded is such as a document can hold. -/
theorem isReadable_of_decode? {block : ByteArray} (h : decode? block = some e) : e.IsReadable := by
  unfold decode? at h
  split at h
  · cases h
    exact ⟨fun _ hm => (List.not_mem_nil hm).elim, trivial⟩
  · obtain ⟨text, -, h⟩ := Option.bind_eq_some_iff.mp h
    obtain ⟨j, hj, h⟩ := Option.bind_eq_some_iff.mp h
    exact within_of_decode? (Json.fits_of_read? hj) (by decide) h

/-- Each number among the other members is what its text is read as. -/
def NumbersReadBack (e : Extra) : Prop :=
  ∃ levels, Json.MembersWithin Number.ReadsBack levels e.other.members

theorem reread_of_readsBack (hn : e.NumbersReadBack) : e.reread = e := by
  obtain ⟨levels, hn⟩ := hn
  have hother : e.other.reread = e.other := FreeObject.ext (Json.rereadMembers_of_readsBack _ hn)
  rw [reread, hother]

/-- **Decoding what was encoded** changes nothing where the numbers read back. -/
theorem decode?_encode_of_readsBack (h : e.IsReadable) (hn : e.NumbersReadBack) :
    decode? e.encode = some e := by
  rw [decode?_encode (h.mono fun _ hn => hn.isLegible), reread_of_readsBack hn]

end Extra

end WorkerPipeline
