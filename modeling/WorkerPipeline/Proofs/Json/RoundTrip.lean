import Mathlib.Logic.Function.Iterate
import WorkerPipeline.Proofs.Json.Literal
import WorkerPipeline.Proofs.Json.Quoted

set_option autoImplicit false

/-! # A written document is read back

Writing a value and reading the text gives the value again, with every number replaced by what its
own text is read as (`read?_render`). A number changes where reading its digits rounds twice, so a
value that is written and read over and over may change each time; it `Lasts` if it stays readable
all the same.
-/

namespace WorkerPipeline

/-! ## Numbers -/

namespace Number

/-- What the text of a number is read as. -/
def reread (n : Number) : Number := (read? n.render).getD n

/-- The text of the number is that of a number. -/
def IsLegible (n : Number) : Prop := read? n.render = some n.reread

/-- However often the number is written and read, it stays legible. -/
def Lasts (n : Number) : Prop := ∀ k, (Nat.iterate reread k n).IsLegible

theorem Lasts.isLegible {n : Number} (h : n.Lasts) : n.IsLegible := h 0

theorem Lasts.reread {n : Number} (h : n.Lasts) : n.reread.Lasts := fun k => h (k + 1)

theorem ReadsBack.reread_eq {n : Number} (h : n.ReadsBack) : n.reread = n := by
  rw [reread, show read? n.render = some n from h, Option.getD_some]

theorem ReadsBack.lasts {n : Number} (h : n.ReadsBack) : n.Lasts := by
  intro k
  have hfix : Nat.iterate Number.reread k n = n := Function.iterate_fixed h.reread_eq k
  rw [hfix, IsLegible, h.reread_eq]
  exact h

/-- A property that rereading keeps, and that numbers have only if they are legible, lasts. -/
theorem lasts_of_invariant {p : Number → Prop} (hstep : ∀ n, p n → p n.reread)
    (hlegible : ∀ n, p n → n.IsLegible) {n : Number} (hn : p n) : n.Lasts := by
  intro k
  apply hlegible
  induction k generalizing n with
  | zero => exact hn
  | succ k ih => exact ih (hstep n hn)

end Number

namespace Json

open Numeral

/-! ## Values -/

mutual

/-- What the text of a value is read as. -/
def reread : Json → Json
  | .num n => .num n.reread
  | .arr l => .arr (rereadElements l)
  | .obj m => .obj (rereadMembers m)
  | j => j
termination_by structural j => j

def rereadElements : List Json → List Json
  | [] => []
  | j :: l => reread j :: rereadElements l
termination_by structural l => l

def rereadMembers : List (String × Json) → List (String × Json)
  | [] => []
  | m :: l => rereadMember m :: rereadMembers l
termination_by structural l => l

def rereadMember : String × Json → String × Json
  | (name, j) => (name, reread j)
termination_by structural m => m

end

mutual

/-- No literal is unreadable, containers are nested at most `levels` deep, and the numbers have a
property. -/
def Within (p : Number → Prop) (levels : Nat) : Json → Prop
  | .num n => p n
  | .arr l => 0 < levels ∧ ElementsWithin p (levels - 1) l
  | .obj m => 0 < levels ∧ MembersWithin p (levels - 1) m
  | .unreadable => False
  | _ => True
termination_by structural j => j

def ElementsWithin (p : Number → Prop) (levels : Nat) : List Json → Prop
  | [] => True
  | j :: l => Within p levels j ∧ ElementsWithin p levels l
termination_by structural l => l

def MembersWithin (p : Number → Prop) (levels : Nat) : List (String × Json) → Prop
  | [] => True
  | m :: l => MemberWithin p levels m ∧ MembersWithin p levels l
termination_by structural l => l

def MemberWithin (p : Number → Prop) (levels : Nat) : String × Json → Prop
  | (_, j) => Within p levels j
termination_by structural m => m

end

section

variable {p : Number → Prop} [DecidablePred p]

mutual

def decideWithin (levels : Nat) : (j : Json) → Decidable (Within p levels j)
  | .null | .bool _ | .str _ => isTrue trivial
  | .num n => inferInstanceAs (Decidable (p n))
  | .arr l => @instDecidableAnd _ _ inferInstance (decideElementsWithin (levels - 1) l)
  | .obj m => @instDecidableAnd _ _ inferInstance (decideMembersWithin (levels - 1) m)
  | .unreadable => isFalse id
termination_by structural j => j

def decideElementsWithin (levels : Nat) : (l : List Json) → Decidable (ElementsWithin p levels l)
  | [] => isTrue trivial
  | j :: l => @instDecidableAnd _ _ (decideWithin levels j) (decideElementsWithin levels l)
termination_by structural l => l

def decideMembersWithin (levels : Nat) :
    (m : List (String × Json)) → Decidable (MembersWithin p levels m)
  | [] => isTrue trivial
  | e :: m => @instDecidableAnd _ _ (decideMemberWithin levels e) (decideMembersWithin levels m)
termination_by structural m => m

def decideMemberWithin (levels : Nat) : (e : String × Json) → Decidable (MemberWithin p levels e)
  | (_, j) => decideWithin levels j
termination_by structural e => e

end

instance (levels : Nat) (m : List (String × Json)) : Decidable (MembersWithin p levels m) :=
  decideMembersWithin levels m

end

variable {p q : Number → Prop} {levels : Nat}

theorem rereadMembers_append (m n : List (String × Json)) :
    rereadMembers (m ++ n) = rereadMembers m ++ rereadMembers n := by
  induction m with
  | nil => rfl
  | cons e m ih => rw [List.cons_append, rereadMembers, ih, rereadMembers, List.cons_append]

theorem membersWithin_iff {m : List (String × Json)} :
    MembersWithin p levels m ↔ ∀ e ∈ m, Within p levels e.2 := by
  induction m with
  | nil => simp [MembersWithin]
  | cons e m ih =>
      obtain ⟨name, j⟩ := e
      simp [MembersWithin, MemberWithin, ih]

theorem elementsWithin_iff {l : List Json} :
    ElementsWithin p levels l ↔ ∀ j ∈ l, Within p levels j := by
  induction l with
  | nil => simp [ElementsWithin]
  | cons j l ih => simp [ElementsWithin, ih]

theorem names_rereadMembers (m : List (String × Json)) :
    (rereadMembers m).map Prod.fst = m.map Prod.fst := by
  induction m with
  | nil => rfl
  | cons e m ih =>
      obtain ⟨name, j⟩ := e
      rw [rereadMembers, List.map_cons, List.map_cons, ih, rereadMember]

/-- The order of the members is that of their names. -/
theorem sorted_rereadMembers {m : List (String × Json)} (h : Entries.Sorted m) :
    Entries.Sorted (rereadMembers m) := by
  have hnames : (m.map Prod.fst).Pairwise Key.before := List.pairwise_map.mpr h
  rw [← names_rereadMembers] at hnames
  exact List.pairwise_map.mp hnames

/-! ## What rereading keeps -/

mutual

/-- A value whose numbers are read back is read back. -/
theorem reread_of_readsBack :
    ∀ (j : Json) {levels : Nat}, Within Number.ReadsBack levels j → reread j = j
  | .null, _, _ | .bool _, _, _ | .str _, _, _ => rfl
  | .num n, _, h => by rw [reread, Number.ReadsBack.reread_eq h]
  | .arr l, _, h => by rw [reread, rereadElements_of_readsBack l h.2]
  | .obj m, _, h => by rw [reread, rereadMembers_of_readsBack m h.2]
  | .unreadable, _, h => h.elim
termination_by structural j => j

theorem rereadElements_of_readsBack :
    ∀ (l : List Json) {levels : Nat}, ElementsWithin Number.ReadsBack levels l →
      rereadElements l = l
  | [], _, _ => rfl
  | j :: l, _, h => by
      rw [rereadElements, reread_of_readsBack j h.1, rereadElements_of_readsBack l h.2]
termination_by structural l => l

theorem rereadMembers_of_readsBack :
    ∀ (m : List (String × Json)) {levels : Nat}, MembersWithin Number.ReadsBack levels m →
      rereadMembers m = m
  | [], _, _ => rfl
  | e :: m, _, h => by
      rw [rereadMembers, rereadMember_of_readsBack e h.1, rereadMembers_of_readsBack m h.2]
termination_by structural m => m

theorem rereadMember_of_readsBack :
    ∀ (e : String × Json) {levels : Nat}, MemberWithin Number.ReadsBack levels e →
      rereadMember e = e
  | (name, j), _, h => by rw [rereadMember, reread_of_readsBack j h]
termination_by structural e => e

end

mutual

/-- What holds of fewer levels holds of more. -/
theorem within_mono (hpq : ∀ n, p n → q n) :
    ∀ (j : Json) {levels more : Nat}, levels ≤ more → Within p levels j → Within q more j
  | .null, _, _, _, _ | .bool _, _, _, _, _ | .str _, _, _, _, _ => trivial
  | .num n, _, _, _, h => hpq n h
  | .arr l, _, _, hle, h =>
      ⟨by have := h.1; omega, elementsWithin_mono hpq l (Nat.sub_le_sub_right hle 1) h.2⟩
  | .obj m, _, _, hle, h =>
      ⟨by have := h.1; omega, membersWithin_mono hpq m (Nat.sub_le_sub_right hle 1) h.2⟩
  | .unreadable, _, _, _, h => h.elim
termination_by structural j => j

theorem elementsWithin_mono (hpq : ∀ n, p n → q n) :
    ∀ (l : List Json) {levels more : Nat}, levels ≤ more → ElementsWithin p levels l →
      ElementsWithin q more l
  | [], _, _, _, _ => trivial
  | j :: l, _, _, hle, h => ⟨within_mono hpq j hle h.1, elementsWithin_mono hpq l hle h.2⟩
termination_by structural l => l

theorem membersWithin_mono (hpq : ∀ n, p n → q n) :
    ∀ (m : List (String × Json)) {levels more : Nat}, levels ≤ more →
      MembersWithin p levels m → MembersWithin q more m
  | [], _, _, _, _ => trivial
  | e :: m, _, _, hle, h => ⟨memberWithin_mono hpq e hle h.1, membersWithin_mono hpq m hle h.2⟩
termination_by structural m => m

theorem memberWithin_mono (hpq : ∀ n, p n → q n) :
    ∀ (e : String × Json) {levels more : Nat}, levels ≤ more → MemberWithin p levels e →
      MemberWithin q more e
  | (_, j), _, _, hle, h => within_mono hpq j hle h
termination_by structural e => e

end

mutual

theorem within_reread (hp : ∀ n, p n → p n.reread) :
    ∀ (j : Json) {levels : Nat}, Within p levels j → Within p levels (reread j)
  | .null, _, _ | .bool _, _, _ | .str _, _, _ => trivial
  | .num n, _, h => hp n h
  | .arr l, _, h => ⟨h.1, elementsWithin_reread hp l h.2⟩
  | .obj m, _, h => ⟨h.1, membersWithin_reread hp m h.2⟩
  | .unreadable, _, h => h.elim
termination_by structural j => j

theorem elementsWithin_reread (hp : ∀ n, p n → p n.reread) :
    ∀ (l : List Json) {levels : Nat}, ElementsWithin p levels l →
      ElementsWithin p levels (rereadElements l)
  | [], _, _ => trivial
  | j :: l, _, h => ⟨within_reread hp j h.1, elementsWithin_reread hp l h.2⟩
termination_by structural l => l

theorem membersWithin_reread (hp : ∀ n, p n → p n.reread) :
    ∀ (m : List (String × Json)) {levels : Nat}, MembersWithin p levels m →
      MembersWithin p levels (rereadMembers m)
  | [], _, _ => trivial
  | e :: m, _, h => ⟨memberWithin_reread hp e h.1, membersWithin_reread hp m h.2⟩
termination_by structural m => m

theorem memberWithin_reread (hp : ∀ n, p n → p n.reread) :
    ∀ (e : String × Json) {levels : Nat}, MemberWithin p levels e →
      MemberWithin p levels (rereadMember e)
  | (_, j), _, h => within_reread hp j h
termination_by structural e => e

end

mutual

theorem free_reread : ∀ (j : Json), Free j → Free (reread j)
  | .null, _ | .bool _, _ | .str _, _ | .num _, _ => trivial
  | .arr l, h => freeElements_reread l h
  | .obj m, h => ⟨sorted_rereadMembers h.1, freeMembers_reread m h.2⟩
  | .unreadable, h => h.elim
termination_by structural j => j

theorem freeElements_reread : ∀ (l : List Json), FreeElements l → FreeElements (rereadElements l)
  | [], _ => trivial
  | j :: l, h => ⟨free_reread j h.1, freeElements_reread l h.2⟩
termination_by structural l => l

theorem freeMembers_reread :
    ∀ (m : List (String × Json)), FreeMembers m → FreeMembers (rereadMembers m)
  | [], _ => trivial
  | e :: m, h => ⟨freeMember_reread e h.1, freeMembers_reread m h.2⟩
termination_by structural m => m

theorem freeMember_reread : ∀ (e : String × Json), FreeMember e → FreeMember (rereadMember e)
  | (_, j), h => free_reread j h
termination_by structural e => e

end

/-! ## The first character -/

theorem skipSpace_cons {c : Char} (h : isSpace c = false) (cs : List Char) :
    skipSpace (c :: cs) = c :: cs := by
  simp [skipSpace, h]

theorem isSpace_of_digit {c : Char} (h : c = '-' ∨ c.isDigit = true) : isSpace c = false := by
  rcases h with rfl | h
  · rfl
  · simp only [isSpace, Bool.or_eq_false_iff, beq_eq_false_iff_ne]
    refine ⟨⟨⟨?_, ?_⟩, ?_⟩, ?_⟩ <;> rintro rfl <;> exact absurd h (by decide)

theorem scan?_of_isLegible {n : Number} (h : n.IsLegible) :
    ∃ l, scan? n.render = some (l, []) ∧ l.number? = some n.reread := by
  unfold Number.IsLegible Number.read? at h
  split at h
  · rename_i l hl
    exact ⟨l, hl, h⟩
  · cases h

/-- The text of a value begins with a character that opens it: no blank, and no closing bracket. -/
theorem head_renderList {j : Json} (hj : Within Number.IsLegible levels j) :
    ∃ c cs, renderList j = c :: cs ∧ isSpace c = false ∧ c ≠ ']' := by
  cases j with
  | null => exact ⟨'n', _, rfl, rfl, by decide⟩
  | bool b => cases b <;> exact ⟨_, _, rfl, rfl, by decide⟩
  | num n =>
      obtain ⟨l, hl, _⟩ := scan?_of_isLegible hj
      obtain ⟨c, cs, hcs, hc⟩ := head_of_scan? hl
      refine ⟨c, cs, hcs, isSpace_of_digit hc, ?_⟩
      rintro rfl
      exact absurd hc (by decide)
  | str s => exact ⟨'"', _, rfl, rfl, by decide⟩
  | arr l => exact ⟨'[', _, rfl, rfl, by decide⟩
  | obj m => exact ⟨'\x7b', _, rfl, rfl, by decide⟩
  | unreadable => exact hj.elim

/-! ## Reading one value -/

theorem value?_literal (levels fuel : Nat) {c : Char} (cs : List Char)
    (h : c = '-' ∨ c.isDigit = true) :
    value? levels (fuel + 1) (c :: cs) =
      (scan? (c :: cs)).map fun n => (n.1.number?.elim .unreadable .num, n.2) := by
  rw [value?, skipSpace_cons (isSpace_of_digit h)]
  split
  all_goals try (rename_i heq; cases heq; rcases h with h | h <;> exact absurd h (by decide))
  cases scan? (c :: cs) <;> rfl

theorem value?_string (levels fuel : Nat) (s : String) (rest : List Char) :
    value? levels (fuel + 1) (renderString s ++ rest) = some (.str s, rest) := by
  rw [renderString_append, value?, skipSpace_cons rfl]
  simp only [units?_flatMap_escape, Option.bind_eq_bind, Option.bind_some, join?_toNat,
    Option.elim_some, String.ofList_toList]
  rfl

theorem value?_array (levels fuel : Nat) {c : Char} (cs : List Char) (hs : isSpace c = false)
    (hc : c ≠ ']') :
    value? levels (fuel + 1) ('[' :: c :: cs) =
      (elements? (levels - 1) fuel (c :: cs)).map fun l => (contain levels (.arr l.1), l.2) := by
  rw [value?, skipSpace_cons rfl]
  simp only [skipSpace_cons hs]
  split
  · simp_all
  · cases elements? (levels - 1) fuel (c :: cs) <;> rfl

theorem value?_object (levels fuel : Nat) (cs : List Char) :
    value? levels (fuel + 1) ('\x7b' :: '"' :: cs) =
      (members? (levels - 1) fuel ('"' :: cs)).map fun m =>
        (m.1.elim .unreadable fun m => contain levels (.obj m), m.2) := by
  rw [value?, skipSpace_cons rfl]
  simp only [skipSpace_cons (show isSpace '"' = false from rfl)]
  split
  · simp_all
  · cases members? (levels - 1) fuel ('"' :: cs) <;> rfl

theorem contain_of_pos (h : 0 < levels) (j : Json) : contain levels j = j :=
  if_neg (Nat.ne_of_gt h)

/-! ## Reading what was written

The induction is on the value. The fuel has to cover the text that is written, and the text behind
it must not go on with a number. -/

theorem value?_num {n : Number} (levels fuel : Nat) {rest : List Char} (hn : n.IsLegible)
    (hfuel : (renderList (.num n)).length ≤ fuel) (hrest : IsBoundary rest) :
    value? levels fuel (renderList (.num n) ++ rest) = some (reread (.num n), rest) := by
  obtain ⟨l, hl, hnumber⟩ := scan?_of_isLegible hn
  obtain ⟨c, cs, hcs, hc⟩ := head_of_scan? hl
  rw [renderList, hcs] at hfuel ⊢
  rw [hcs] at hl
  cases fuel with
  | zero => cases hfuel
  | succ fuel =>
      have happend : scan? (c :: cs ++ rest) = some (l, rest) := by
        rw [scan?_append hrest (List.cons_ne_nil c cs), hl]
        rfl
      rw [List.cons_append] at happend ⊢
      rw [value?_literal levels fuel (cs ++ rest) hc, happend]
      simp [hnumber, reread]

mutual

theorem value?_renderList :
    ∀ (j : Json) (levels fuel : Nat) {rest : List Char}, Within Number.IsLegible levels j →
      (renderList j).length ≤ fuel → IsBoundary rest →
      value? levels fuel (renderList j ++ rest) = some (reread j, rest)
  | .null, _, 0, _, _, hfuel, _ => by cases hfuel
  | .null, _, fuel + 1, _, _, _, _ => by rw [value?]; rfl
  | .bool true, _, 0, _, _, hfuel, _ => by cases hfuel
  | .bool true, _, fuel + 1, _, _, _, _ => by rw [value?]; rfl
  | .bool false, _, 0, _, _, hfuel, _ => by cases hfuel
  | .bool false, _, fuel + 1, _, _, _, _ => by rw [value?]; rfl
  | .num n, levels, fuel, _, hj, hfuel, hrest => value?_num levels fuel hj hfuel hrest
  | .str s, levels, 0, _, _, hfuel, _ => by simp [renderList, renderString] at hfuel
  | .str s, levels, fuel + 1, rest, _, _, _ => value?_string levels fuel s rest
  | .arr l, levels, 0, _, _, hfuel, _ => by simp [renderList] at hfuel
  | .arr [], levels, fuel + 1, _, hj, _, _ => by
      rw [value?]
      show some (contain levels (.arr []), _) = _
      rw [contain_of_pos hj.1]
      rfl
  | .arr (j :: l), levels, fuel + 1, rest, hj, hfuel, _ => by
      obtain ⟨c, cs, hcs, hspace, hc⟩ := head_renderList hj.2.1
      -- the brackets pay for the step from the array to its elements
      have helements : elements? (levels - 1) fuel (renderElements (j :: l) ++ ']' :: rest) =
          some (rereadElements (j :: l), rest) := by
        refine elements?_renderElements l j (levels - 1) fuel ?_ hj.2.2 ?_
        · exact fun hfuel hrest => value?_renderList j (levels - 1) _ hj.2.1 hfuel hrest
        · rw [renderList, List.length_append, List.length_cons, List.length_singleton] at hfuel
          omega
      have htext : renderElements (j :: l) ++ ']' :: rest =
          c :: (cs ++ renderMoreElements l ++ ']' :: rest) := by
        simp [renderElements, hcs]
      rw [show renderList (.arr (j :: l)) ++ rest = '[' :: (renderElements (j :: l) ++ ']' :: rest)
        by simp [renderList], htext, value?_array levels fuel _ hspace hc, ← htext, helements]
      simp [contain_of_pos hj.1, reread]
  | .obj m, levels, 0, _, _, hfuel, _ => by simp [renderList] at hfuel
  | .obj [], levels, fuel + 1, _, hj, _, _ => by
      rw [value?]
      show some (contain levels (.obj []), _) = _
      rw [contain_of_pos hj.1]
      rfl
  | .obj ((name, j) :: m), levels, fuel + 1, rest, hj, hfuel, _ => by
      have hmembers :
          members? (levels - 1) fuel (renderMembers ((name, j) :: m) ++ '\x7d' :: rest) =
            some (some (rereadMembers ((name, j) :: m)), rest) := by
        refine members?_renderMembers m name j (levels - 1) fuel ?_ hj.2.2 ?_
        · exact fun hfuel hrest => value?_renderList j (levels - 1) _ hj.2.1 hfuel hrest
        · rw [renderList, List.length_append, List.length_cons, List.length_singleton] at hfuel
          omega
      have htext : renderMembers ((name, j) :: m) ++ '\x7d' :: rest =
          '"' :: (name.toList.flatMap escape ++ '"' :: ':' :: renderList j ++ renderMoreMembers m ++
            '\x7d' :: rest) := by
        simp [renderMembers, renderMember, renderString]
      rw [show renderList (.obj ((name, j) :: m)) ++ rest =
        '\x7b' :: (renderMembers ((name, j) :: m) ++ '\x7d' :: rest) by simp [renderList], htext,
        value?_object, ← htext, hmembers]
      simp [contain_of_pos hj.1, reread]
  | .unreadable, _, _, _, hj, _, _ => hj.elim
termination_by structural j => j

/-- One element or more. -/
theorem elements?_renderElements :
    ∀ (l : List Json) (j : Json) (levels fuel : Nat) {rest : List Char},
      (∀ {fuel : Nat} {rest : List Char}, (renderList j).length ≤ fuel → IsBoundary rest →
        value? levels fuel (renderList j ++ rest) = some (reread j, rest)) →
      ElementsWithin Number.IsLegible levels l →
      (renderElements (j :: l)).length < fuel →
      elements? levels fuel (renderElements (j :: l) ++ ']' :: rest) =
        some (rereadElements (j :: l), rest)
  | [], j, levels, fuel, rest, hj, _, hfuel => by
      cases fuel with
      | zero => cases hfuel
      | succ fuel =>
          simp only [renderElements, renderMoreElements, List.append_nil] at hfuel ⊢
          rw [elements?, hj (by omega) (isBoundary_bracket rest)]
          rfl
  | k :: l, j, levels, fuel, rest, hj, hl, hfuel => by
      cases fuel with
      | zero => cases hfuel
      | succ fuel =>
          have htext : renderElements (j :: k :: l) =
              renderList j ++ ',' :: renderElements (k :: l) := by
            simp [renderElements, renderMoreElements]
          rw [htext] at hfuel ⊢
          rw [List.length_append, List.length_cons] at hfuel
          have hmore : elements? levels fuel (renderElements (k :: l) ++ ']' :: rest) =
              some (rereadElements (k :: l), rest) :=
            elements?_renderElements l k levels fuel
              (fun hfuel hrest => value?_renderList k levels _ hl.1 hfuel hrest) hl.2 (by omega)
          rw [List.append_assoc, List.cons_append, elements?, hj (by omega) (isBoundary_comma _)]
          simp only [Option.bind_eq_bind, Option.bind_some,
            skipSpace_cons (show isSpace ',' = false from rfl), hmore]
          rfl
termination_by structural l => l

/-- One member or more. -/
theorem members?_renderMembers :
    ∀ (m : List (String × Json)) (name : String) (j : Json) (levels fuel : Nat)
      {rest : List Char},
      (∀ {fuel : Nat} {rest : List Char}, (renderList j).length ≤ fuel → IsBoundary rest →
        value? levels fuel (renderList j ++ rest) = some (reread j, rest)) →
      MembersWithin Number.IsLegible levels m →
      (renderMembers ((name, j) :: m)).length < fuel →
      members? levels fuel (renderMembers ((name, j) :: m) ++ '\x7d' :: rest) =
        some (some (rereadMembers ((name, j) :: m)), rest)
  | [], name, j, levels, fuel, rest, hj, _, hfuel => by
      cases fuel with
      | zero => cases hfuel
      | succ fuel =>
          have htext : renderMembers [(name, j)] = renderString name ++ ':' :: renderList j := by
            simp [renderMembers, renderMember, renderMoreMembers]
          rw [htext] at hfuel ⊢
          rw [List.length_append, List.length_cons] at hfuel
          have hvalue : value? levels fuel (renderList j ++ '\x7d' :: rest) =
              some (reread j, '\x7d' :: rest) := hj (by omega) (isBoundary_brace rest)
          rw [List.append_assoc, renderString_append, members?, skipSpace_cons rfl]
          simp only [units?_flatMap_escape, Option.bind_eq_bind, Option.bind_some, join?_toNat,
            List.cons_append, skipSpace_cons (show isSpace ':' = false from rfl), hvalue,
            skipSpace_cons (show isSpace '\x7d' = false from rfl), Option.map_some,
            String.ofList_toList, rereadMembers, rereadMember]
  | (next, k) :: m, name, j, levels, fuel, rest, hj, hm, hfuel => by
      cases fuel with
      | zero => cases hfuel
      | succ fuel =>
          have htext : renderMembers ((name, j) :: (next, k) :: m) =
              renderString name ++ ':' :: renderList j ++ ',' :: renderMembers ((next, k) :: m) := by
            simp [renderMembers, renderMember, renderMoreMembers]
          rw [htext] at hfuel ⊢
          simp only [List.length_append, List.length_cons] at hfuel
          have hmore : members? levels fuel (renderMembers ((next, k) :: m) ++ '\x7d' :: rest) =
              some (some (rereadMembers ((next, k) :: m)), rest) :=
            members?_renderMembers m next k levels fuel
              (fun hfuel hrest => value?_renderList k levels _ hm.1 hfuel hrest) hm.2 (by omega)
          have hvalue (cs : List Char) : value? levels fuel (renderList j ++ ',' :: cs) =
              some (reread j, ',' :: cs) := hj (by omega) (isBoundary_comma cs)
          rw [List.append_assoc, List.append_assoc, renderString_append, members?,
            skipSpace_cons rfl]
          simp only [units?_flatMap_escape, Option.bind_eq_bind, Option.bind_some, join?_toNat,
            List.cons_append, skipSpace_cons (show isSpace ':' = false from rfl), hvalue,
            skipSpace_cons (show isSpace ',' = false from rfl), hmore, Option.map_some,
            String.ofList_toList, rereadMembers, rereadMember, Option.pure_def]
termination_by structural m => m

end

/-- **Reading what was written**: every number comes back as its text is read. -/
theorem read?_render {j : Json} (hj : Within Number.IsLegible maxLevels j) :
    read? j.render = some (reread j) := by
  have hvalue := value?_renderList j maxLevels ((renderList j).length + 1) hj (by omega)
    isBoundary_nil
  rw [List.append_nil] at hvalue
  rw [read?, render, String.toList_ofList, readList?, hvalue]
  rfl

end Json

end WorkerPipeline
