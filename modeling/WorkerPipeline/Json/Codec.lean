import WorkerPipeline.Json.Basic

set_option autoImplicit false

/-! # Codecs

A codec writes a type as JSON and reads it back. A record codec is a list of fields, each of which
knows how to write itself and how to put what it reads into a record, so that both directions come
from one description. Main statement (`ofMembers?_members`): reading what was written, with
members of other names behind it, comes to copying the record field by field.

A record is read from an object, whose unknown members are skipped and whose known members must
not repeat, or from an array that holds the fields in order.
-/

namespace WorkerPipeline

structure Codec (α : Type) where
  encode : α → Json
  decode? : Json → Option α

namespace Codec

/-- What is written is read back, for the values that satisfy a condition. -/
def LawfulOn {α : Type} (c : Codec α) (p : α → Prop) : Prop :=
  ∀ a, p a → c.decode? (c.encode a) = some a

/-! ## Simple types -/

def string : Codec String := ⟨.str, Json.asString?⟩

def bool : Codec Bool := ⟨.bool, Json.asBool?⟩

def uint32 : Codec UInt32 := ⟨fun n => .nat n.toNat, Json.asUInt32?⟩

/-- A double that is not finite has no JSON form but `null`. -/
def binary64 : Codec Binary64 :=
  ⟨fun x => if x.isFinite then .num (.float x) else .null, Json.asBinary64?⟩

def list {α : Type} (c : Codec α) : Codec (List α) :=
  ⟨fun l => .arr (l.map c.encode), Json.asList? c.decode?⟩

def option {α : Type} (c : Codec α) : Codec (Option α) :=
  ⟨Json.ofOption c.encode, Json.asOption? c.decode?⟩

def byte : Codec UInt8 :=
  ⟨fun b => .nat b.toNat, fun j => (j.asNatBelow? 256).map UInt8.ofNat⟩

/-- A block of bytes is an array of numbers. -/
def bytes : Codec ByteArray :=
  ⟨fun b => (list byte).encode b.data.toList,
    fun j => ((list byte).decode? j).map fun l => ⟨l.toArray⟩⟩

/-- A type with finitely many values, each of which has a name. The name may also stand alone in
an object, with the value `null`. -/
def named {α : Type} (name : α → String) (all : List α) : Codec α where
  encode a := .str (name a)
  decode?
    | .str s => all.find? fun a => name a == s
    | .obj [(s, .null)] => all.find? fun a => name a == s
    | _ => none

/-! ## Records -/

/-- A field of a record. `read` puts the value into a record; a field that is not `required` may
be missing in an object. -/
structure Field (α : Type) where
  name : String
  required : Bool
  write : α → Option Json
  read : Json → α → Option α

namespace Field

variable {α : Type}

/-- A field that is always written. -/
def of {β : Type} (name : String) (c : Codec β) (get : α → β) (set : β → α → α)
    (required : Bool) : Field α where
  name := name
  required := required
  write a := some (c.encode (get a))
  read j a := (c.decode? j).map (set · a)

/-- A field that is left out where it has no value. -/
def optional {β : Type} (name : String) (c : Codec β) (get : α → Option β)
    (set : Option β → α → α) : Field α where
  name := name
  required := false
  write a := (get a).map c.encode
  read j a := (c.option.decode? j).map (set · a)

/-- The values that an object gives to a field. -/
def among (f : Field α) (members : List (String × Json)) : List Json :=
  (members.filter fun m => m.1 == f.name).map Prod.snd

/-- Reads a field from the members of an object: at most one of them may bear its name. -/
def take? (f : Field α) (members : List (String × Json)) (a : α) : Option α :=
  match f.among members with
  | [] => if f.required then none else some a
  | [j] => f.read j a
  | _ => none

/-- Reads fields from the elements of an array. Only elements at the end may be missing, and only
if missing fields have defaults. -/
def takeInOrder? (defaults : Bool) : List (Field α) → List Json → α → Option α
  | [], [], a => some a
  | [], _ :: _, _ => none
  | _ :: _, [], a => if defaults then some a else none
  | f :: fs, j :: js, a => do takeInOrder? defaults fs js (← f.read j a)

end Field

/-- A record: its fields in the order in which they are written, and the record that reading
starts from. With `defaults` the fields that are missing keep their value in it. -/
structure Record (α : Type) where
  fields : List (Field α)
  blank : α
  defaults : Bool

namespace Record

variable {α : Type}

def members (r : Record α) (a : α) : List (String × Json) :=
  r.fields.filterMap fun f => (f.write a).map fun j => (f.name, j)

def ofMembers? (r : Record α) (members : List (String × Json)) : Option α :=
  r.fields.foldlM (fun a f => f.take? members a) r.blank

def ofElements? (r : Record α) (elements : List Json) : Option α :=
  Field.takeInOrder? r.defaults r.fields elements r.blank

def codec (r : Record α) : Codec α where
  encode a := .obj (r.members a)
  decode?
    | .obj members => r.ofMembers? members
    | .arr elements => r.ofElements? elements
    | _ => none

/-- Whether a name is the name of a field. -/
def knows (r : Record α) (name : String) : Bool := r.fields.any fun f => f.name == name

/-- Every member that is written bears the name of a field. -/
theorem knows_of_mem_members {r : Record α} {a : α} {m : String × Json} (hm : m ∈ r.members a) :
    r.knows m.1 = true := by
  obtain ⟨f, hf, hwritten⟩ := List.mem_filterMap.mp hm
  obtain ⟨j, _, rfl⟩ := Option.map_eq_some_iff.mp hwritten
  exact List.any_eq_true.mpr ⟨f, hf, beq_self_eq_true _⟩

theorem nodup_members {r : Record α} {a : α} (hn : (r.fields.map Field.name).Nodup) :
    ((r.members a).map Prod.fst).Nodup := by
  refine hn.sublist ?_
  unfold members
  induction r.fields with
  | nil => exact .slnil
  | cons f fs ih =>
      cases hf : f.write a with
      | none => simpa [hf] using ih.cons f.name
      | some j => simpa [hf] using ih

end Record

/-! ## Reading what was written -/

namespace Field

variable {α : Type}

/-- Copies a field by writing it and reading it back. -/
def copy? (f : Field α) (a b : α) : Option α :=
  match f.write a with
  | none => if f.required then none else some b
  | some j => f.read j b

theorem among_append (f : Field α) (m n : List (String × Json)) :
    f.among (m ++ n) = f.among m ++ f.among n := by
  simp [among]

theorem among_eq_nil {f : Field α} {m : List (String × Json)} (h : ∀ e ∈ m, e.1 ≠ f.name) :
    f.among m = [] := by
  rw [among, List.filter_eq_nil_iff.mpr, List.map_nil]
  intro e he
  simpa using h e he

/-- Among the members written for fields of different names, a field finds its own value. -/
theorem among_written (fs : List (Field α)) (a : α) (f : Field α)
    (hf : f ∈ fs) (hn : (fs.map Field.name).Nodup) :
    f.among (fs.filterMap fun g => (g.write a).map fun j => (g.name, j)) = (f.write a).toList := by
  induction fs with
  | nil => cases hf
  | cons g fs ih =>
      obtain ⟨hg, hfs⟩ := List.nodup_cons.mp hn
      have written_name {e : String × Json} (l : List (Field α))
          (he : e ∈ l.filterMap fun g => (g.write a).map fun j => (g.name, j)) :
          ∃ h ∈ l, e.1 = h.name := by
        obtain ⟨h, hl, he⟩ := List.mem_filterMap.mp he
        obtain ⟨j, _, rfl⟩ := Option.map_eq_some_iff.mp he
        exact ⟨h, hl, rfl⟩
      have split_first (x : Option Json) :
          f.among ((x.map fun j => (g.name, j)).toList) =
            if g.name = f.name then x.toList else [] := by
        cases x with
        | none => simp [among]
        | some j => by_cases h : g.name = f.name <;> simp [among, h]
      have hcons : (g :: fs).filterMap (fun g => (g.write a).map fun j => (g.name, j)) =
          ((g.write a).map fun j => (g.name, j)).toList ++
            fs.filterMap fun g => (g.write a).map fun j => (g.name, j) := by
        cases h : g.write a <;> simp [h]
      rw [hcons, among_append, split_first]
      rcases List.mem_cons.mp hf with rfl | hf
      · have hnil : f.among (fs.filterMap fun g => (g.write a).map fun j => (g.name, j)) = [] := by
          apply among_eq_nil
          intro e he hname
          obtain ⟨h, hl, heq⟩ := written_name fs he
          exact hg (List.mem_map.mpr ⟨h, hl, heq.symm.trans hname⟩)
        simp [hnil]
      · have hne : g.name ≠ f.name := by
          intro h
          exact hg (List.mem_map.mpr ⟨f, hf, h.symm⟩)
        simp [hne, ih hf hfs]

end Field

namespace Record

variable {α : Type}

/-- **Reading what was written** copies the record field by field into the blank one. -/
theorem ofMembers?_members (r : Record α) (a : α) (others : List (String × Json))
    (hn : (r.fields.map Field.name).Nodup) (ho : ∀ e ∈ others, r.knows e.1 = false) :
    r.ofMembers? (r.members a ++ others) =
      r.fields.foldlM (fun b f => f.copy? a b) r.blank := by
  have take_eq (f : Field α) (hf : f ∈ r.fields) (b : α) :
      f.take? (r.members a ++ others) b = f.copy? a b := by
    have hothers : f.among others = [] := by
      apply Field.among_eq_nil
      intro e he hname
      have := ho e he
      simp only [knows, List.any_eq_false, beq_iff_eq] at this
      exact this f hf hname.symm
    rw [Field.take?, Field.among_append, hothers, List.append_nil, members,
      Field.among_written r.fields a f hf hn, Field.copy?]
    cases f.write a <;> rfl
  have fold_eq (fs : List (Field α)) (hfs : ∀ f ∈ fs, f ∈ r.fields) (b : α) :
      fs.foldlM (fun b f => f.take? (r.members a ++ others) b) b =
        fs.foldlM (fun b f => f.copy? a b) b := by
    induction fs generalizing b with
    | nil => rfl
    | cons f fs ih =>
        rw [List.foldlM_cons, List.foldlM_cons, take_eq f (hfs f List.mem_cons_self)]
        congr 1
        funext b'
        exact ih (fun g hg => hfs g (List.mem_cons_of_mem _ hg)) b'
  exact fold_eq r.fields (fun _ h => h) r.blank

end Record

end Codec

end WorkerPipeline
