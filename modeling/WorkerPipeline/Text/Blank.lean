set_option autoImplicit false

/-! # Blanks: trimming and splitting text

A character is blank if it has the Unicode property `White_Space`. Text is trimmed of blanks at
both ends before a name or a number is read from it, and a description is split at blanks into
its words.
-/

namespace WorkerPipeline.Text

/-- The property `White_Space`: 25 characters, six of them in ASCII. -/
def isBlank (c : Char) : Bool :=
  let n := c.toNat
  (9 ≤ n && n ≤ 13) || n == 0x20 || n == 0x85 || n == 0xA0 || n == 0x1680 ||
    (0x2000 ≤ n && n ≤ 0x200A) || n == 0x2028 || n == 0x2029 || n == 0x202F || n == 0x205F ||
    n == 0x3000

/-! ## Trimming -/

def trimList (cs : List Char) : List Char :=
  ((cs.dropWhile isBlank).reverse.dropWhile isBlank).reverse

def trim (s : String) : String := String.ofList (trimList s.toList)

/-- Text without a character other than blanks. -/
def isBlankText (s : String) : Bool := s.toList.all isBlank

theorem dropBlanks_eq_nil_iff {cs : List Char} :
    cs.dropWhile isBlank = [] ↔ cs.all isBlank = true := by
  induction cs with
  | nil => simp
  | cons c cs ih => cases h : isBlank c <;> simp [h, ih]

theorem trimList_eq_nil_iff {cs : List Char} : trimList cs = [] ↔ cs.all isBlank = true := by
  rw [trimList, List.reverse_eq_nil_iff, dropBlanks_eq_nil_iff, List.all_reverse]
  induction cs with
  | nil => simp
  | cons c cs ih => cases h : isBlank c <;> simp [h, ih]

theorem trim_eq_empty_iff {s : String} : trim s = "" ↔ isBlankText s = true := by
  rw [isBlankText, ← trimList_eq_nil_iff, trim, ← String.toList_inj]
  simp

/-! ## Words -/

/-- Puts a character in front of the first word. -/
def consWord (c : Char) : List (List Char) → List (List Char)
  | [] => [[c]]
  | w :: ws => (c :: w) :: ws

/-- The maximal runs of characters that are not blank. -/
def wordsList : List Char → List (List Char)
  | [] => []
  | [c] => if isBlank c then [] else [[c]]
  | c :: d :: cs =>
    if isBlank c then wordsList (d :: cs)
    else if isBlank d then [c] :: wordsList (d :: cs)
    else consWord c (wordsList (d :: cs))

def words (s : String) : List String := (wordsList s.toList).map String.ofList

end WorkerPipeline.Text
