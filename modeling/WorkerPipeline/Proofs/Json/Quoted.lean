import WorkerPipeline.Json.Printer
import WorkerPipeline.Json.Reader

set_option autoImplicit false

/-! # Strings are read as they were written

Writing a string escapes some characters; reading turns the escapes into code units and joins the
units to characters again. A character is never half of a surrogate pair, so the units of a string
that was written always join (`join?_toNat`), and reading stops at the closing quote whatever
follows it (`units?_flatMap_escape`).
-/

namespace WorkerPipeline.Json

/-! ## Escapes -/

theorem hexDigit?_digitChar : ∀ n < 16, hexDigit? (Nat.digitChar n) = some n := by decide

theorem hexCode?_of_lt {n : Nat} (h : n < 0x20) :
    hexCode? '0' '0' (Nat.digitChar (n / 16)) (Nat.digitChar (n % 16)) = some n := by
  have hzero : hexDigit? '0' = some 0 := by decide
  have hhigh := hexDigit?_digitChar (n / 16) (by omega)
  have hlow := hexDigit?_digitChar (n % 16) (by omega)
  simp only [hexCode?, hzero, hhigh, hlow, Option.pure_def, Option.bind_eq_bind, Option.bind_some,
    Option.some.injEq]
  omega

/-- A character that stands for itself. -/
theorem units?_cons_of_plain {c : Char} (hquote : c ≠ '"') (hback : c ≠ '\\')
    (hcontrol : ¬ c.toNat < 0x20) (rest : List Char) :
    units? (c :: rest) = (units? rest).map fun u => (c.toNat :: u.1, u.2) := by
  rw [units?.eq_def]
  split
  · simp_all
  · simp_all
  · simp_all
  · simp_all
  · rename_i c' cs _ _ _ heq
    cases heq
    simp only [hback, hcontrol, or_self, if_false, Option.bind_eq_bind]
    cases units? rest <;> rfl

theorem units?_escaped {e c : Char} (he : escaped? e = some c) (hu : e ≠ 'u') (rest : List Char) :
    units? ('\\' :: e :: rest) = (units? rest).map fun u => (c.toNat :: u.1, u.2) := by
  rw [units?.eq_def]
  split
  · simp_all
  · simp_all
  · simp_all
  · rename_i e' cs _ heq
    cases heq
    rw [he]
    simp only [Option.bind_eq_bind, Option.bind_some]
    cases units? rest <;> rfl
  · rename_i hother heq
    cases heq
    exact absurd rfl (hother e rest rfl)

/-- The escape of a character is read as its code. -/
theorem units?_escape (c : Char) (rest : List Char) :
    units? (escape c ++ rest) = (units? rest).map fun u => (c.toNat :: u.1, u.2) := by
  unfold escape
  -- seven escapes of one letter, then those of the other control characters
  split
  · exact units?_escaped rfl (by decide) rest
  · exact units?_escaped rfl (by decide) rest
  · exact units?_escaped rfl (by decide) rest
  · exact units?_escaped rfl (by decide) rest
  · exact units?_escaped rfl (by decide) rest
  · exact units?_escaped rfl (by decide) rest
  · exact units?_escaped rfl (by decide) rest
  · rename_i hquote hback _ _ _ _ _
    split
    · rename_i hcontrol
      simp only [List.cons_append, List.nil_append]
      rw [units?, hexCode?_of_lt hcontrol]
      simp only [Option.bind_eq_bind, Option.bind_some]
      cases units? rest <;> rfl
    · rename_i hcontrol
      exact units?_cons_of_plain hquote hback hcontrol rest

theorem units?_flatMap_escape (cs rest : List Char) :
    units? (cs.flatMap escape ++ '"' :: rest) = some (cs.map Char.toNat, rest) := by
  induction cs with
  | nil => simp [units?]
  | cons c cs ih => rw [List.flatMap_cons, List.append_assoc, units?_escape, ih]; rfl

/-! ## Code units -/

/-- A character is no half of a surrogate pair. -/
theorem not_surrogate_toNat (c : Char) :
    isHighSurrogate c.toNat = false ∧ isLowSurrogate c.toNat = false := by
  have hvalid : c.toNat < 0xD800 ∨ (0xDFFF < c.toNat ∧ c.toNat < 0x110000) := c.valid
  simp only [isHighSurrogate, isLowSurrogate, Bool.and_eq_false_iff, decide_eq_false_iff_not]
  omega

theorem join?_toNat (cs : List Char) : join? (cs.map Char.toNat) = some cs := by
  induction cs with
  | nil => rfl
  | cons c cs ih =>
      obtain ⟨hhigh, hlow⟩ := not_surrogate_toNat c
      rw [List.map_cons, join?.eq_def]
      simp [hhigh, hlow, ih]

theorem renderString_append (s : String) (rest : List Char) :
    renderString s ++ rest = '"' :: (s.toList.flatMap escape ++ '"' :: rest) := by
  simp [renderString]

end WorkerPipeline.Json
