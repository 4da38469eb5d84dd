import WorkerPipeline.Text.CaseTable

set_option autoImplicit false

/-! # Lower and upper case

`lower` is the full Unicode lower-case mapping: a character at a time from the tables, `İ` to
two characters, and a capital sigma to the final form `ς` at the end of a word. `capitals` is the
part of the upper-case mapping that stays in ASCII; it is enough to recognise a name that is
written in ASCII capitals.
-/

namespace WorkerPipeline.Text

/-! ## Lower case -/

/-- The lower-case form of one character, outside any context. -/
def lowerChar (c : Char) : List Char :=
  if c.toNat < 128 then [c.toLower]
  else if c.toNat = 0x130 then ['i', Char.ofNat 0x307]
  else match lowerRuns.findSome? (·.image c.toNat) with
    | some n => [Char.ofNat n]
    | none => [c]

/-- Whether the first character that is not ignorable is cased. -/
def startsCased (cs : List Char) : Bool :=
  match cs.dropWhile fun c => inRanges ignorableRanges c.toNat with
  | [] => false
  | c :: _ => inRanges casedRanges c.toNat

/-- **The final sigma.** A sigma is final if a cased letter comes before it and none after it;
ignorable characters (apostrophes, accents) between do not count. -/
def isFinalSigma (before after : List Char) : Bool := startsCased before && !startsCased after

/-- The lower-case form of a text that stands after `before`, which is given in reverse. -/
def lowerAfter (before : List Char) : List Char → List Char
  | [] => []
  | c :: cs =>
    (if c = 'Σ' then [if isFinalSigma before cs then 'ς' else 'σ'] else lowerChar c) ++
      lowerAfter (c :: before) cs

def lower (s : String) : String := String.ofList (lowerAfter [] s.toList)

theorem lowerChar_ascii {c : Char} (h : c.toNat < 128) : lowerChar c = [c.toLower] := by
  simp [lowerChar, h]

/-- In ASCII, lower case is a matter of single characters. -/
theorem lowerAfter_ascii {before cs : List Char} (h : ∀ c ∈ cs, c.toNat < 128) :
    lowerAfter before cs = cs.map Char.toLower := by
  induction cs generalizing before with
  | nil => rfl
  | cons c cs ih =>
      have hc : c.toNat < 128 := h c List.mem_cons_self
      have hs : c ≠ 'Σ' := by rintro rfl; exact absurd hc (by decide)
      rw [lowerAfter, if_neg hs, lowerChar_ascii hc, ih fun d hd => h d (List.mem_cons_of_mem _ hd)]
      rfl

/-! ## ASCII capitals -/

/-- The characters outside ASCII whose upper-case form is in ASCII: the dotless `ı`, the long
`ſ`, the sharp `ß` and the Latin ligatures. -/
def asciiCapitals : List (Char × List Char) :=
  [('ß', ['S', 'S']), ('ı', ['I']), ('ſ', ['S']), ('ﬀ', ['F', 'F']), ('ﬁ', ['F', 'I']),
    ('ﬂ', ['F', 'L']), ('ﬃ', ['F', 'F', 'I']), ('ﬄ', ['F', 'F', 'L']), ('ﬅ', ['S', 'T']),
    ('ﬆ', ['S', 'T'])]

/-- The upper-case form of a character where it is in ASCII; any other character is kept. -/
def capitalsOf (c : Char) : List Char := (asciiCapitals.lookup c).getD [c.toUpper]

def capitals (s : String) : String := String.ofList (s.toList.flatMap capitalsOf)

end WorkerPipeline.Text
