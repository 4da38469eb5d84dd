import WorkerPipeline.Json.Codec

set_option autoImplicit false

/-! # Laws of codecs

The codecs of simple types read back what they write, and so does the codec of a list if the codec
of its elements does. A field whose codec is lawful is copied by writing and reading it, and a
record is copied by copying its fields one after the other.
-/

namespace WorkerPipeline.Codec

/-! ## Simple types -/

theorem lawful_string : string.LawfulOn fun _ => True := fun _ _ => rfl

theorem asNatBelow?_nat {bound n : Nat} (h : n < bound) :
    (Json.nat n).asNatBelow? bound = some n := by
  have hn : (0 : Int) ≤ (n : Int) ∧ (n : Int) < (bound : Int) := by omega
  rw [Json.nat, Json.asNatBelow?, if_pos hn, Int.toNat_natCast]

theorem lawful_uint32 : uint32.LawfulOn fun _ => True := by
  intro n _
  simp only [uint32, Json.asUInt32?]
  rw [asNatBelow?_nat n.toNat_lt, Option.map_some, UInt32.ofNat_toNat]

theorem string_encode_ne_null (s : String) : string.encode s ≠ .null := fun h => by cases h

theorem uint32_encode_ne_null (n : UInt32) : uint32.encode n ≠ .null := fun h => by cases h

theorem lawful_list {α : Type} {c : Codec α} {p : α → Prop} (hc : c.LawfulOn p) :
    (list c).LawfulOn fun l => ∀ a ∈ l, p a := by
  intro l hl
  show (l.map c.encode).mapM c.decode? = some l
  induction l with
  | nil => rfl
  | cons a l ih =>
      obtain ⟨ha, hl⟩ := List.forall_mem_cons.mp hl
      rw [List.map_cons, List.mapM_cons, hc a ha, ih hl]
      rfl

/-! ## Fields -/

namespace Field

variable {α β : Type} {name : String} {c : Codec β}

/-- A value that was written is read, although it might have been left out. -/
theorem read_optional_encode {get : α → Option β} {set : Option β → α → α} {p : β → Prop}
    (hc : c.LawfulOn p) (hnull : ∀ v, c.encode v ≠ .null) {v : β} (hv : p v) (b : α) :
    (Field.optional name c get set).read (c.encode v) b = some (set (some v) b) := by
  have hread : c.option.decode? (c.encode v) = some (some v) := by
    show Json.asOption? c.decode? (c.encode v) = _
    unfold Json.asOption?
    split
    · rename_i h
      exact absurd h (hnull v)
    · rw [hc v hv]
      rfl
  show (c.option.decode? (c.encode v)).map (set · b) = _
  rw [hread]
  rfl

/-- A field that is left out where it has no value leaves the blank record as it is there. -/
theorem copy?_optional {get : α → Option β} {set : Option β → α → α} {p : β → Prop}
    (hc : c.LawfulOn p) (hnull : ∀ v, c.encode v ≠ .null) {a b : α} (ha : ∀ v ∈ get a, p v)
    (hblank : set none b = b) :
    (Field.optional name c get set).copy? a b = some (set (get a) b) := by
  have hwrite : (Field.optional name c get set).write a = (get a).map c.encode := rfl
  rw [copy?, hwrite]
  cases hv : get a with
  | none => exact congrArg some hblank.symm
  | some v => exact read_optional_encode hc hnull (ha v hv) b

/-- The first field is copied before the others. -/
theorem foldlM_copy?_cons {f : Field α} {fs : List (Field α)} {a b d : α}
    (h : f.copy? a b = some d) :
    (f :: fs).foldlM (fun b f => f.copy? a b) b = fs.foldlM (fun b f => f.copy? a b) d := by
  rw [List.foldlM_cons, h]
  rfl

end Field

end WorkerPipeline.Codec
