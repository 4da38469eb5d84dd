import WorkerPipeline.Binary64.Basic
import WorkerPipeline.Table

set_option autoImplicit false

/-! # JSON values

A value as a document writes it: the members of an object in their order, repeated names
included. `Json.free?` gives the value that a document *means* where no message type is
prescribed: members sorted by name, of several members with one name the last. Values in that
form are `Free`; the main statements are that `free?` yields free values only and keeps a free
value as it is.

A literal can be well formed and yet have no value: a string with half of a surrogate pair, a
number beyond the largest double, anything nested too deeply. Such a literal is `unreadable`. It
matters only where somebody looks at it, so a reader that skips a member need not mind.
-/

namespace WorkerPipeline

/-- A number is an integer if it is written without fraction and exponent and has 64 bits. -/
inductive Number where
  | int (i : Int)
  | float (x : Binary64)
deriving DecidableEq

inductive Json where
  | null
  | bool (b : Bool)
  | num (n : Number)
  | str (s : String)
  | arr (elements : List Json)
  | obj (members : List (String × Json))
  | unreadable
deriving Inhabited

namespace Json

def nat (n : Nat) : Json := .num (.int n)

def ofOption {α : Type} (f : α → Json) : Option α → Json
  | none => .null
  | some a => f a

def strings (l : List String) : Json := .arr (l.map .str)

def asString? : Json → Option String
  | .str s => some s
  | _ => none

def asBool? : Json → Option Bool
  | .bool b => some b
  | _ => none

/-- A natural number below the bound. -/
def asNatBelow? (bound : Nat) : Json → Option Nat
  | .num (.int i) => if 0 ≤ i ∧ i < bound then some i.toNat else none
  | _ => none

def asUInt32? (j : Json) : Option UInt32 := (j.asNatBelow? UInt32.size).map UInt32.ofNat

/-- A number of any kind, as a double. -/
def asBinary64? : Json → Option Binary64
  | .num (.int i) => some (.ofInt i)
  | .num (.float x) => some x
  | _ => none

def asList? {α : Type} (f : Json → Option α) : Json → Option (List α)
  | .arr l => l.mapM f
  | _ => none

def asStrings? : Json → Option (List String) := asList? asString?

/-- `null`, or a value that the given reader accepts. -/
def asOption? {α : Type} (f : Json → Option α) : Json → Option (Option α)
  | .null => some none
  | j => (f j).map some

/-- The value of an object's member; of several the last. -/
def member? (name : String) : Json → Option Json
  | .obj members => (members.reverse.find? (·.1 == name)).map Prod.snd
  | _ => none

/-! ## Free values -/

mutual

/-- The value that a document means, if every literal in it has a value. -/
def free? : Json → Option Json
  | .null => some .null
  | .bool b => some (.bool b)
  | .num n => some (.num n)
  | .str s => some (.str s)
  | .arr l => (freeElements? l).map .arr
  | .obj m => (freeMembers? m).map fun m => .obj (Entries.insertAll m)
  | .unreadable => none
termination_by structural j => j

def freeElements? : List Json → Option (List Json)
  | [] => some []
  | j :: l => do return (← free? j) :: (← freeElements? l)
termination_by structural l => l

def freeMembers? : List (String × Json) → Option (List (String × Json))
  | [] => some []
  | m :: l => do return (← freeMember? m) :: (← freeMembers? l)
termination_by structural l => l

def freeMember? : String × Json → Option (String × Json)
  | (name, j) => do return (name, ← free? j)
termination_by structural m => m

end

mutual

/-- Readable, and the members of every object strictly sorted by name. -/
def Free : Json → Prop
  | .arr l => FreeElements l
  | .obj m => Entries.Sorted m ∧ FreeMembers m
  | .unreadable => False
  | _ => True
termination_by structural j => j

def FreeElements : List Json → Prop
  | [] => True
  | j :: l => Free j ∧ FreeElements l
termination_by structural l => l

def FreeMembers : List (String × Json) → Prop
  | [] => True
  | m :: l => FreeMember m ∧ FreeMembers l
termination_by structural l => l

def FreeMember : String × Json → Prop
  | (_, j) => Free j
termination_by structural m => m

end

theorem freeMembers_iff {m : List (String × Json)} : FreeMembers m ↔ ∀ e ∈ m, Free e.2 := by
  induction m with
  | nil => simp [FreeMembers]
  | cons e m ih =>
      obtain ⟨name, j⟩ := e
      simp [FreeMembers, FreeMember, ih]

theorem freeMembers_insertAll {m : List (String × Json)} (hm : FreeMembers m) :
    FreeMembers (Entries.insertAll m) := by
  rw [freeMembers_iff] at hm ⊢
  exact fun e he => hm e (Entries.mem_insertAll he)

mutual

/-- `free?` yields free values only. -/
theorem free_of_free? : ∀ {j k : Json}, free? j = some k → Free k
  | .null, _, h | .bool _, _, h | .num _, _, h | .str _, _, h => by
      cases h; trivial
  | .arr l, k, h => by
      simp only [free?, Option.map_eq_some_iff] at h
      obtain ⟨m, hm, rfl⟩ := h
      exact freeElements_of_freeElements? hm
  | .obj l, k, h => by
      simp only [free?, Option.map_eq_some_iff] at h
      obtain ⟨m, hm, rfl⟩ := h
      exact ⟨Entries.sorted_insertAll m, freeMembers_insertAll (freeMembers_of_freeMembers? hm)⟩
  | .unreadable, _, h => by cases h
termination_by structural j => j

theorem freeElements_of_freeElements? :
    ∀ {l m : List Json}, freeElements? l = some m → FreeElements m
  | [], m, h => by cases h; trivial
  | j :: l, m, h => by
      simp only [freeElements?, Option.pure_def, Option.bind_eq_bind, Option.bind_eq_some_iff] at h
      obtain ⟨k, hk, n, hn, h⟩ := h
      cases h
      exact ⟨free_of_free? hk, freeElements_of_freeElements? hn⟩
termination_by structural l => l

theorem freeMembers_of_freeMembers? :
    ∀ {l m : List (String × Json)}, freeMembers? l = some m → FreeMembers m
  | [], m, h => by cases h; trivial
  | e :: l, m, h => by
      simp only [freeMembers?, Option.pure_def, Option.bind_eq_bind, Option.bind_eq_some_iff] at h
      obtain ⟨k, hk, n, hn, h⟩ := h
      cases h
      exact ⟨freeMember_of_freeMember? hk, freeMembers_of_freeMembers? hn⟩
termination_by structural l => l

theorem freeMember_of_freeMember? :
    ∀ {e f : String × Json}, freeMember? e = some f → FreeMember f
  | (name, j), f, h => by
      simp only [freeMember?, Option.pure_def, Option.bind_eq_bind, Option.bind_eq_some_iff] at h
      obtain ⟨k, hk, h⟩ := h
      cases h
      exact free_of_free? hk
termination_by structural e => e

end

mutual

/-- A free value is what it means. -/
theorem free?_of_free : ∀ {j : Json}, Free j → free? j = some j
  | .null, _ | .bool _, _ | .num _, _ | .str _, _ => rfl
  | .arr l, h => by rw [free?, freeElements?_of_free h]; rfl
  | .obj m, h => by
      rw [free?, freeMembers?_of_free h.2, Option.map_some, Entries.insertAll_of_sorted h.1]
  | .unreadable, h => h.elim
termination_by structural j => j

theorem freeElements?_of_free : ∀ {l : List Json}, FreeElements l → freeElements? l = some l
  | [], _ => rfl
  | j :: l, h => by rw [freeElements?, free?_of_free h.1, freeElements?_of_free h.2]; rfl
termination_by structural l => l

theorem freeMembers?_of_free :
    ∀ {m : List (String × Json)}, FreeMembers m → freeMembers? m = some m
  | [], _ => rfl
  | e :: m, h => by rw [freeMembers?, freeMember?_of_free h.1, freeMembers?_of_free h.2]; rfl
termination_by structural m => m

theorem freeMember?_of_free : ∀ {e : String × Json}, FreeMember e → freeMember? e = some e
  | (name, j), h => by rw [freeMember?, free?_of_free (j := j) h]; rfl
termination_by structural e => e

end

/-- Whether every literal of a value can be read. -/
def isReadable (j : Json) : Bool := j.free?.isSome

/-- The free form of a value. A value that cannot be read is left as it is. -/
def canonical (j : Json) : Json := j.free?.getD j

end Json

/-! ## Free objects -/

/-- The members of a free object. -/
structure FreeObject where
  members : List (String × Json)
  sorted : Entries.Sorted members
  free : Json.FreeMembers members

namespace FreeObject

instance : EmptyCollection FreeObject := ⟨⟨[], .nil, trivial⟩⟩

instance : Inhabited FreeObject := ⟨∅⟩

/-- The object that a list of members means. -/
def ofMembers? (l : List (String × Json)) : Option FreeObject :=
  match h : Json.freeMembers? l with
  | none => none
  | some m => some ⟨Entries.insertAll m, Entries.sorted_insertAll m,
      Json.freeMembers_insertAll (Json.freeMembers_of_freeMembers? h)⟩

theorem ext {a b : FreeObject} (h : a.members = b.members) : a = b := by
  cases a; cases b; cases h; rfl

theorem ofMembers?_members (o : FreeObject) : ofMembers? o.members = some o := by
  have h := Json.freeMembers?_of_free o.free
  unfold ofMembers?
  split
  · rename_i h'; rw [h] at h'; cases h'
  · rename_i m h'
    rw [h] at h'
    cases h'
    exact congrArg some (ext (Entries.insertAll_of_sorted o.sorted))

def names (o : FreeObject) : List String := o.members.map Prod.fst

end FreeObject

end WorkerPipeline
