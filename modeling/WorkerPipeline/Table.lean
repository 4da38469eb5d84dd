set_option autoImplicit false

/-! # Tables: finite maps with ordered keys

A table is a list of entries whose keys are strictly increasing, so a key occurs at most once
and there is one table for each finite map: `Table.ext` says that two tables with the same
look-ups are equal. The laws below state what insertion, removal and selection do to a look-up;
nothing else about the list is needed elsewhere, except that `keys` lists the keys in order.
-/

namespace WorkerPipeline

/-! ## Keys -/

/-- Types with a strict total order that can be decided. -/
class Key (κ : Type) where
  before : κ → κ → Prop
  decideBefore : ∀ a b, Decidable (before a b)
  decideEq : ∀ a b : κ, Decidable (a = b)
  irrefl : ∀ a, ¬ before a a
  trans : ∀ {a b c}, before a b → before b c → before a c
  eq_of_not_before : ∀ {a b}, ¬ before a b → ¬ before b a → a = b

namespace Key

instance {κ : Type} [Key κ] (a b : κ) : Decidable (before a b) := decideBefore a b

instance (priority := low) {κ : Type} [Key κ] : DecidableEq κ := decideEq

theorem ne_of_before {κ : Type} [Key κ] {a b : κ} (h : before a b) : a ≠ b := by
  intro hab
  exact irrefl b (hab ▸ h)

theorem not_before_of_before {κ : Type} [Key κ] {a b : κ} (h : before a b) : ¬ before b a := by
  intro h'
  exact irrefl a (trans h h')

instance : Key Nat where
  before a b := a < b
  decideBefore := inferInstance
  decideEq := inferInstance
  irrefl := Nat.lt_irrefl
  trans := Nat.lt_trans
  eq_of_not_before h h' := by omega

instance : Key String where
  before a b := a < b
  decideBefore := inferInstance
  decideEq := inferInstance
  irrefl _ := Std.lt_irrefl
  trans := Std.lt_trans
  eq_of_not_before h h' := Std.le_antisymm (Std.not_lt.mp h') (Std.not_lt.mp h)

/-- Keys that are told apart by keys of another type. -/
@[reducible] def ofInjective {α β : Type} [Key β] (f : α → β) (hf : ∀ {a b}, f a = f b → a = b) :
    Key α where
  before a b := before (f a) (f b)
  decideBefore _ _ := inferInstance
  decideEq _ _ := decidable_of_iff _ ⟨hf, congrArg f⟩
  irrefl _ := irrefl _
  trans := trans
  eq_of_not_before h h' := hf (eq_of_not_before h h')

instance : Key UInt32 := ofInjective UInt32.toNat UInt32.toNat_inj.mp

/-- Pairs are ordered by the first component, then by the second. -/
instance {α β : Type} [Key α] [Key β] : Key (α × β) where
  before a b := before a.1 b.1 ∨ (a.1 = b.1 ∧ before a.2 b.2)
  decideBefore _ _ := inferInstance
  decideEq a b := decidable_of_iff (a.1 = b.1 ∧ a.2 = b.2) Prod.ext_iff.symm
  irrefl a h := h.elim (irrefl _) fun h => irrefl _ h.2
  trans := by
    intro a b c h h'
    rcases h with h | ⟨h1, h2⟩ <;> rcases h' with h' | ⟨h1', h2'⟩
    · exact .inl (trans h h')
    · exact .inl (h1' ▸ h)
    · exact .inl (h1 ▸ h')
    · exact .inr ⟨h1.trans h1', trans h2 h2'⟩
  eq_of_not_before := by
    intro a b h h'
    have h1 : a.1 = b.1 := eq_of_not_before (fun hb => h (.inl hb)) fun hb => h' (.inl hb)
    have h2 : a.2 = b.2 :=
      eq_of_not_before (fun hb => h (.inr ⟨h1, hb⟩)) fun hb => h' (.inr ⟨h1.symm, hb⟩)
    exact Prod.ext h1 h2

end Key

/-! ## Sorted lists of entries -/

namespace Entries

variable {κ ν : Type} [Key κ]

/-- Strictly increasing in the key. -/
def Sorted (l : List (κ × ν)) : Prop := l.Pairwise fun a b => Key.before a.1 b.1

instance (l : List (κ × ν)) : Decidable (Sorted l) :=
  inferInstanceAs (Decidable (l.Pairwise fun a b => Key.before a.1 b.1))

def find (k : κ) : List (κ × ν) → Option ν
  | [] => none
  | (a, v) :: l => if a = k then some v else find k l

/-- Puts an entry in its place, over the old entry of the same key if there is one. -/
def insert (k : κ) (v : ν) : List (κ × ν) → List (κ × ν)
  | [] => [(k, v)]
  | (a, w) :: l =>
    if k = a then (k, v) :: l
    else if Key.before k a then (k, v) :: (a, w) :: l
    else (a, w) :: insert k v l

/-- Inserts entries one after the other, so that the last entry of a key counts. -/
def insertAll (l : List (κ × ν)) : List (κ × ν) := l.foldl (fun t e => insert e.1 e.2 t) []

theorem mem_insert {k : κ} {v : ν} {l : List (κ × ν)} {e : κ × ν} (h : e ∈ insert k v l) :
    e = (k, v) ∨ e ∈ l := by
  induction l with
  | nil => simpa [insert] using h
  | cons a l ih =>
      simp only [insert] at h
      split at h
      · rcases List.mem_cons.mp h with h | h
        · exact .inl h
        · exact .inr (List.mem_cons_of_mem _ h)
      · split at h
        · simpa using h
        · rcases List.mem_cons.mp h with h | h
          · exact .inr (h ▸ List.mem_cons_self)
          · exact (ih h).imp_right (List.mem_cons_of_mem _)

theorem sorted_insert (k : κ) (v : ν) {l : List (κ × ν)} (h : Sorted l) :
    Sorted (insert k v l) := by
  induction l with
  | nil => simp [insert, Sorted]
  | cons a l ih =>
      obtain ⟨ha, hl⟩ := List.pairwise_cons.mp h
      simp only [insert]
      split
      · rename_i hk
        exact List.pairwise_cons.mpr ⟨fun e he => hk ▸ ha e he, hl⟩
      · rename_i hne
        split
        · rename_i hk
          refine List.pairwise_cons.mpr ⟨fun e he => ?_, h⟩
          rcases List.mem_cons.mp he with rfl | he
          · exact hk
          · exact Key.trans hk (ha e he)
        · rename_i hk
          refine List.pairwise_cons.mpr ⟨fun e he => ?_, ih hl⟩
          rcases mem_insert he with rfl | he
          · by_cases hak : Key.before a.1 k
            · exact hak
            · exact absurd (Key.eq_of_not_before hk hak) hne
          · exact ha e he

theorem sorted_insertAll (l : List (κ × ν)) : Sorted (insertAll l) := by
  have from_sorted (l t : List (κ × ν)) (ht : Sorted t) :
      Sorted (l.foldl (fun t e => insert e.1 e.2 t) t) := by
    induction l generalizing t with
    | nil => exact ht
    | cons e l ih => exact ih _ (sorted_insert e.1 e.2 ht)
  exact from_sorted l [] .nil

theorem mem_insertAll {l : List (κ × ν)} {e : κ × ν} (h : e ∈ insertAll l) : e ∈ l := by
  have from_entries (l t : List (κ × ν)) (h : e ∈ l.foldl (fun t e => insert e.1 e.2 t) t) :
      e ∈ l ∨ e ∈ t := by
    induction l generalizing t with
    | nil => exact .inr h
    | cons a l ih =>
        rcases ih _ h with hl | ht
        · exact .inl (List.mem_cons_of_mem a hl)
        · rcases mem_insert ht with rfl | ht
          · exact .inl List.mem_cons_self
          · exact .inr ht
  exact (from_entries l [] h).resolve_right List.not_mem_nil

theorem find_insert (k q : κ) (v : ν) (l : List (κ × ν)) :
    find q (insert k v l) = if k = q then some v else find q l := by
  induction l with
  | nil => rfl
  | cons a l ih =>
      simp only [insert]
      split
      · rename_i hk
        by_cases hq : k = q
        · simp [find, hq]
        · simp [find, ← hk, hq]
      · rename_i hk
        split
        · rfl
        · by_cases hq : k = q
          · subst hq
            have hne : ¬ a.1 = k := fun h => hk h.symm
            simpa [find, hne] using ih
          · simp [find, ih, hq]

theorem mem_of_find {q : κ} {v : ν} {l : List (κ × ν)} (h : find q l = some v) :
    (q, v) ∈ l := by
  induction l with
  | nil => cases h
  | cons a l ih =>
      simp only [find] at h
      split at h
      · rename_i hq
        cases h
        exact hq ▸ List.mem_cons_self
      · exact List.mem_cons_of_mem _ (ih h)

theorem find_eq_none {q : κ} {l : List (κ × ν)} (h : q ∉ l.map Prod.fst) : find q l = none := by
  cases hf : find q l with
  | none => rfl
  | some v => exact absurd (List.mem_map_of_mem (mem_of_find hf)) h

/-- Where no key repeats, an entry is what is found under its key. -/
theorem find_of_mem_of_nodup {q : κ} {v : ν} {l : List (κ × ν)} (hn : (l.map Prod.fst).Nodup)
    (h : (q, v) ∈ l) : find q l = some v := by
  induction l with
  | nil => cases h
  | cons a l ih =>
      obtain ⟨ha, hl⟩ := List.nodup_cons.mp hn
      rcases List.mem_cons.mp h with rfl | h
      · simp [find]
      · have : ¬ a.1 = q := fun hq => ha (hq ▸ List.mem_map_of_mem h)
        simp [find, this, ih hl h]

theorem nodup_of_sorted {l : List (κ × ν)} (h : Sorted l) : (l.map Prod.fst).Nodup :=
  List.pairwise_map.mpr (h.imp Key.ne_of_before)

theorem find_of_mem {q : κ} {v : ν} {l : List (κ × ν)} (hs : Sorted l) (h : (q, v) ∈ l) :
    find q l = some v :=
  find_of_mem_of_nodup (nodup_of_sorted hs) h

/-- Of several entries with one key the last counts. -/
theorem find_insertAll (q : κ) (l : List (κ × ν)) : find q (insertAll l) = find q l.reverse := by
  rw [insertAll, List.foldl_eq_foldr_reverse]
  induction l.reverse with
  | nil => rfl
  | cons e l ih => rw [List.foldr_cons, find_insert, ih, find]

theorem find_filter (p : κ → Bool) (q : κ) (l : List (κ × ν)) :
    find q (l.filter fun e => p e.1) = if p q then find q l else none := by
  induction l with
  | nil => simp [find]
  | cons a l ih =>
      obtain ⟨k, w⟩ := a
      by_cases hq : k = q
      · subst hq
        cases hp : p k <;> simp [hp, find, ih]
      · cases hp : p k <;> simp [hp, find, ih, hq]

/-- A new value for an old key leaves the keys as they are. -/
theorem keys_insert_of_find {k : κ} {v w : ν} {l : List (κ × ν)} (hs : Sorted l)
    (h : find k l = some w) : (insert k v l).map Prod.fst = l.map Prod.fst := by
  induction l with
  | nil => cases h
  | cons a l ih =>
      obtain ⟨ha, hl⟩ := List.pairwise_cons.mp hs
      by_cases hk : k = a.1
      · simp [insert, hk]
      · have hfind : find k l = some w := by simpa [find, Ne.symm hk] using h
        have hbefore : Key.before a.1 k := ha _ (mem_of_find hfind)
        simp [insert, hk, Key.not_before_of_before hbefore, ih hl hfind]

/-- An entry whose key comes after all others is inserted at the end. -/
theorem insert_of_forall_before {k : κ} {v : ν} {l : List (κ × ν)}
    (h : ∀ e ∈ l, Key.before e.1 k) : insert k v l = l ++ [(k, v)] := by
  induction l with
  | nil => rfl
  | cons a l ih =>
      have ha := h a List.mem_cons_self
      have hl := ih fun e he => h e (List.mem_cons_of_mem _ he)
      simp [insert, Ne.symm (Key.ne_of_before ha), Key.not_before_of_before ha, hl]

/-- Entries that come in order are inserted as they are. -/
theorem insertAll_of_sorted {l : List (κ × ν)} (h : Sorted l) : insertAll l = l := by
  have from_left (l t : List (κ × ν)) (h : Sorted (t ++ l)) :
      l.foldl (fun t e => insert e.1 e.2 t) t = t ++ l := by
    induction l generalizing t with
    | nil => simp
    | cons e l ih =>
        have he : insert e.1 e.2 t = t ++ [e] := insert_of_forall_before fun a ha =>
          (List.pairwise_append.mp h).2.2 a ha e List.mem_cons_self
        rw [List.foldl_cons, he, ih _ (by simpa using h)]
        simp
  exact from_left l [] h

theorem ext {l m : List (κ × ν)} (hl : Sorted l) (hm : Sorted m)
    (h : ∀ q, find q l = find q m) : l = m := by
  induction l generalizing m with
  | nil =>
      cases m with
      | nil => rfl
      | cons b m => simpa [find] using h b.1
  | cons a l ih =>
      cases m with
      | nil => simpa [find] using h a.1
      | cons b m =>
          obtain ⟨ha, hl⟩ := List.pairwise_cons.mp hl
          obtain ⟨hb, hm'⟩ := List.pairwise_cons.mp hm
          have hab : a ∈ b :: m := mem_of_find (by simpa [find] using (h a.1).symm)
          have hba : b ∈ a :: l := mem_of_find (by simpa [find] using h b.1)
          have heq : a = b := by
            rcases List.mem_cons.mp hab with h1 | h1
            · exact h1
            · rcases List.mem_cons.mp hba with h2 | h2
              · exact h2.symm
              · exact absurd (ha _ h2) (Key.not_before_of_before (hb _ h1))
          subst heq
          refine congrArg (a :: ·) (ih hl hm' fun q => ?_)
          by_cases hq : a.1 = q
          · have none_of (n : List (κ × ν)) (hn : ∀ e ∈ n, Key.before a.1 e.1) :
                find q n = none := by
              refine find_eq_none fun hmem => ?_
              obtain ⟨e, he, heq⟩ := List.mem_map.mp hmem
              exact Key.ne_of_before (hn e he) (hq.trans heq.symm)
            rw [none_of l ha, none_of m hb]
          · simpa [find, hq] using h q

end Entries

/-! ## Tables -/

/-- A finite map: entries in strictly increasing order of their keys. -/
structure Table (κ ν : Type) [Key κ] where
  entries : List (κ × ν)
  sorted : Entries.Sorted entries

namespace Table

variable {κ ν : Type} [Key κ]

instance : EmptyCollection (Table κ ν) := ⟨⟨[], .nil⟩⟩

instance : Inhabited (Table κ ν) := ⟨∅⟩

instance [DecidableEq ν] : DecidableEq (Table κ ν) := fun t u =>
  decidable_of_iff (t.entries = u.entries) <| by cases t; cases u; simp

def get? (t : Table κ ν) (k : κ) : Option ν := Entries.find k t.entries

def contains (t : Table κ ν) (k : κ) : Bool := (t.get? k).isSome

def insert (t : Table κ ν) (k : κ) (v : ν) : Table κ ν :=
  ⟨Entries.insert k v t.entries, Entries.sorted_insert k v t.sorted⟩

/-- Inserts an entry unless the key has one already. -/
def insertIfNew (t : Table κ ν) (k : κ) (v : ν) : Table κ ν :=
  if t.contains k then t else t.insert k v

/-- Keeps the entries whose key passes the test. -/
def filterKeys (t : Table κ ν) (p : κ → Bool) : Table κ ν :=
  ⟨t.entries.filter fun e => p e.1, t.sorted.filter _⟩

def erase (t : Table κ ν) (k : κ) : Table κ ν := t.filterKeys fun a => decide (a ≠ k)

/-- The table of a list of entries; of several entries with one key the last counts. -/
def ofList (l : List (κ × ν)) : Table κ ν := ⟨Entries.insertAll l, Entries.sorted_insertAll l⟩

def keys (t : Table κ ν) : List κ := t.entries.map Prod.fst

def values (t : Table κ ν) : List ν := t.entries.map Prod.snd

def size (t : Table κ ν) : Nat := t.entries.length

def isEmpty (t : Table κ ν) : Bool := t.entries.isEmpty

/-! ## What the operations do to a look-up -/

theorem ext {t u : Table κ ν} (h : ∀ k, t.get? k = u.get? k) : t = u := by
  cases t with
  | mk l hl =>
      cases u with
      | mk m hm => simp only [mk.injEq]; exact Entries.ext hl hm h

@[simp] theorem get?_empty (k : κ) : (∅ : Table κ ν).get? k = none := rfl

theorem get?_insert (t : Table κ ν) (k q : κ) (v : ν) [Decidable (k = q)] :
    (t.insert k v).get? q = if k = q then some v else t.get? q := by
  have h := Entries.find_insert k q v t.entries
  -- the test may be decided in any way
  by_cases hq : k = q
  · rw [if_pos hq] at h ⊢; exact h
  · rw [if_neg hq] at h ⊢; exact h

@[simp] theorem get?_insert_self (t : Table κ ν) (k : κ) (v : ν) :
    (t.insert k v).get? k = some v := by
  simp [get?_insert]

theorem get?_insert_of_ne {t : Table κ ν} {k q : κ} {v : ν} (h : k ≠ q) :
    (t.insert k v).get? q = t.get? q := by
  simp [get?_insert, h]

theorem contains_insert (t : Table κ ν) (k q : κ) (v : ν) :
    (t.insert k v).contains q = true ↔ k = q ∨ t.contains q = true := by
  unfold contains
  rw [get?_insert]
  split <;> simp [*]

theorem get?_insertIfNew (t : Table κ ν) (k q : κ) (v : ν) [Decidable (k = q)] :
    (t.insertIfNew k v).get? q = if k = q then some ((t.get? k).getD v) else t.get? q := by
  unfold insertIfNew contains
  cases h : t.get? k with
  | none => simp [get?_insert]
  | some w =>
      by_cases hq : k = q
      · subst hq; simp [h]
      · simp [hq]

theorem get?_filterKeys (t : Table κ ν) (p : κ → Bool) (q : κ) :
    (t.filterKeys p).get? q = if p q then t.get? q else none :=
  Entries.find_filter p q t.entries

theorem get?_erase (t : Table κ ν) (k q : κ) [Decidable (q = k)] :
    (t.erase k).get? q = if q = k then none else t.get? q := by
  by_cases h : q = k <;> simp [erase, get?_filterKeys, h]

@[simp] theorem get?_erase_self (t : Table κ ν) (k : κ) : (t.erase k).get? k = none := by
  simp [get?_erase]

theorem get?_erase_of_ne {t : Table κ ν} {k q : κ} (h : q ≠ k) :
    (t.erase k).get? q = t.get? q := by
  simp [get?_erase, h]

/-! ## Entries and keys -/

theorem mem_entries {t : Table κ ν} {k : κ} {v : ν} : (k, v) ∈ t.entries ↔ t.get? k = some v :=
  ⟨Entries.find_of_mem t.sorted, Entries.mem_of_find⟩

theorem mem_keys {t : Table κ ν} {k : κ} : k ∈ t.keys ↔ (t.get? k).isSome := by
  simp only [keys, List.mem_map, Prod.exists, exists_and_right, exists_eq_right, mem_entries,
    Option.isSome_iff_exists]

/-- A table with a default value is the graph of its look-up. -/
theorem entries_eq_map (t : Table κ ν) (d : ν) :
    t.entries = t.keys.map fun k => (k, (t.get? k).getD d) := by
  have hgraph : ∀ e ∈ t.entries, (e.1, (t.get? e.1).getD d) = e := by
    intro e he
    rw [mem_entries.mp (show (e.1, e.2) ∈ t.entries from he), Option.getD_some]
  rw [keys, List.map_map]
  exact ((List.map_congr_left hgraph).trans (List.map_id _)).symm

theorem keys_insert_of_get? {t : Table κ ν} {k : κ} {v w : ν} (h : t.get? k = some w) :
    (t.insert k v).keys = t.keys :=
  Entries.keys_insert_of_find t.sorted h

theorem keys_insert_of_forall_before {t : Table κ ν} {k : κ} {v : ν}
    (h : ∀ q ∈ t.keys, Key.before q k) : (t.insert k v).keys = t.keys ++ [k] := by
  have hentries : ∀ e ∈ t.entries, Key.before e.1 k := fun e he =>
    h e.1 (List.mem_map_of_mem he)
  show (Entries.insert k v t.entries).map Prod.fst = _
  rw [Entries.insert_of_forall_before hentries, List.map_append]
  rfl

theorem keys_filterKeys (t : Table κ ν) (p : κ → Bool) :
    (t.filterKeys p).keys = t.keys.filter p := by
  simp [keys, filterKeys, List.filter_map, Function.comp_def]

theorem keys_pairwise (t : Table κ ν) : t.keys.Pairwise Key.before :=
  List.pairwise_map.mpr t.sorted

theorem keys_nodup (t : Table κ ν) : t.keys.Nodup :=
  Entries.nodup_of_sorted t.sorted

theorem size_eq_length_keys (t : Table κ ν) : t.size = t.keys.length := by
  simp [size, keys]

/-- Undoing the insertion of a new key gives the table back. -/
theorem erase_insert {t : Table κ ν} {k : κ} (v : ν) (h : t.get? k = none) :
    (t.insert k v).erase k = t := by
  apply ext
  intro q
  by_cases hq : q = k
  · subst hq; simp [h]
  · rw [get?_erase_of_ne hq, get?_insert_of_ne (Ne.symm hq)]

end Table

end WorkerPipeline
