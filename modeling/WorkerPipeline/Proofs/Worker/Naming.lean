import WorkerPipeline.Worker.Name

set_option autoImplicit false

/-! # What names a worker

A text names a worker if its normal form is one of the worker's names, or the worker's number in
decimal digits, with or without a sign and zeros in front (`parse_grammar`). The unknown node has
neither, so nothing names it. In ASCII the normal form is found a character at a time.
-/

namespace WorkerPipeline

/-! ## Counts -/

namespace Text

variable {cs : List Char} {n : Nat}

theorem digits?_eq_some_iff :
    digits? cs = some n ↔
      cs ≠ [] ∧ (∀ c ∈ cs, c.isDigit = true) ∧ Nat.ofDigitChars 10 cs 0 = n := by
  unfold digits?
  split
  · rename_i h
    rw [List.all_eq_true] at h
    rw [Option.some.injEq]
    exact ⟨fun hn => ⟨h.1, h.2, hn⟩, fun hn => hn.2.2⟩
  · rename_i h
    rw [List.all_eq_true] at h
    exact ⟨nofun, fun hn => absurd ⟨hn.1, hn.2.1⟩ h⟩

theorem digits?_plus (cs : List Char) : digits? ('+' :: cs) = none := by
  rw [digits?, if_neg]
  simp

/-- A count is a row of digits behind a sign or behind nothing. -/
theorem count?_eq_some_iff :
    count? cs = some n ↔ ∃ sign digits, (sign = [] ∨ sign = ['+']) ∧ cs = sign ++ digits ∧
      digits? digits = some n := by
  constructor
  · intro h
    unfold count? at h
    split at h
    · exact ⟨['+'], _, .inr rfl, rfl, h⟩
    · exact ⟨[], _, .inl rfl, rfl, h⟩
  · rintro ⟨sign, digits, rfl | rfl, rfl, h⟩
    · unfold count?
      split
      · rw [digits?_plus] at h
        cases h
      · exact h
    · exact h

end Text

namespace Worker

variable {s : String} {w : Worker} {cs : List Char}

/-! ## The grammar -/

/-- The names of a worker. -/
def spellings : Worker → List String
  | appRequirements => ["app_requirements"]
  | carbonFootprint => ["carbon_footprint", "carbontracker"]
  | hwConstraints => ["hw_constraints"]
  | hwProvider => ["hw_provider", "hw_resources"]
  | mlModelMetadata => ["ml_model_metadata"]
  | mlModelProvider => ["ml_model_provider", "ml_model"]
  | orchestrator => ["orchestrator"]
  | unknown => []

/-- The number by which a worker can be named. -/
def number? : Worker → Option Nat
  | appRequirements => some 0
  | carbonFootprint => some 1
  | hwConstraints => some 2
  | hwProvider => some 3
  | mlModelMetadata => some 4
  | mlModelProvider => some 5
  | orchestrator => some 7
  | unknown => none

/-- The normal forms that name a worker. -/
inductive Spells (w : Worker) : List Char → Prop
  | name {name : String} (h : name ∈ w.spellings) : Spells w name.toList
  | number {sign digits : List Char} (hsign : sign = [] ∨ sign = ['+']) (hne : digits ≠ [])
      (hdigits : ∀ c ∈ digits, c.isDigit = true)
      (hvalue : w.number? = some (Nat.ofDigitChars 10 digits 0)) : Spells w (sign ++ digits)

/-- The normal form of a text in ASCII: without blanks at its ends, in small letters, and with
underscores in the place of hyphens and spaces. -/
def normalForm (cs : List Char) : List Char :=
  (Text.trimList cs).map fun c => joint c.toLower

theorem not_spells_unknown : ¬ Spells unknown cs := by
  rintro (h | ⟨-, -, -, h⟩)
  · cases h
  · cases h

/-! ## Names and numbers as they are looked up -/

theorem lookup_accepted : accepted.lookup s = some w ↔ s ∈ w.spellings := by
  constructor
  · intro h
    have hmem : (s, w) ∈ accepted := by
      obtain ⟨l, k, hl, -⟩ := List.lookup_eq_some_iff.mp h
      rw [hl]
      exact List.mem_append_right l List.mem_cons_self
    simp only [accepted, List.mem_cons, Prod.mk.injEq, List.not_mem_nil, or_false] at hmem
    rcases hmem with ⟨rfl, rfl⟩ | ⟨rfl, rfl⟩ | ⟨rfl, rfl⟩ | ⟨rfl, rfl⟩ | ⟨rfl, rfl⟩ | ⟨rfl, rfl⟩ |
      ⟨rfl, rfl⟩ | ⟨rfl, rfl⟩ | ⟨rfl, rfl⟩ | ⟨rfl, rfl⟩ <;> decide
  · have hall : ∀ w ∈ all, ∀ s ∈ w.spellings, accepted.lookup s = some w := by decide
    exact hall w (mem_all w) s

theorem id_of_ofId {n : UInt32} (h : ofId n = w) (hw : w ≠ unknown) : w.id = n := by
  unfold ofId at h
  cases hfind : all.find? fun w : Worker => w.id == n with
  | none =>
      rw [hfind] at h
      exact absurd h.symm hw
  | some v =>
      rw [hfind, Option.getD_some] at h
      rw [← h]
      exact beq_iff_eq.mp (List.find?_some (p := fun v : Worker => v.id == n) hfind)

theorem number?_eq_some_iff {n : Nat} : w.number? = some n ↔ w ≠ unknown ∧ w.id.toNat = n := by
  cases w <;> simp [number?, id]

/-- A number names a worker if it is the worker's own. -/
theorem ofNumeral?_eq_some_iff :
    ofNumeral? s = some w ↔ ∃ n, Text.count? s.toList = some n ∧ w.number? = some n := by
  simp only [number?_eq_some_iff]
  unfold ofNumeral? Text.countBelow?
  cases hcount : Text.count? s.toList with
  | none => simp
  | some n =>
      rw [Option.filter_some]
      constructor
      · intro h
        split at h
        · cases h
        · rename_i m hm
          split at hm
          · rename_i hsize
            cases hm
            split at h
            · cases h
            · rename_i hunknown
              cases h
              refine ⟨n, rfl, hunknown, ?_⟩
              rw [id_of_ofId rfl hunknown, UInt32.toNat_ofNat_of_lt' (of_decide_eq_true hsize)]
          · cases hm
      · rintro ⟨_, ⟨⟩, hw, rfl⟩
        have hsize : w.id.toNat < UInt32.size := w.id.toNat_lt
        simp [hsize, hw]

/-- No name is a number. -/
theorem ofNumeral?_of_accepted (h : s ∈ w.spellings) : ofNumeral? s = none := by
  have hall : ∀ w ∈ all, ∀ s ∈ w.spellings, ofNumeral? s = none := by decide
  exact hall w (mem_all w) s h

/-! ## Parsing -/

theorem spells_iff :
    Spells w s.toList ↔ s ∈ w.spellings ∨
      ∃ n, Text.count? s.toList = some n ∧ w.number? = some n := by
  constructor
  · intro h
    generalize hcs : s.toList = cs at h
    cases h with
    | name h =>
        rw [String.toList_inj.mp hcs]
        exact .inl h
    | number hsign hne hdigits hvalue =>
        exact .inr ⟨_, Text.count?_eq_some_iff.mpr
          ⟨_, _, hsign, rfl, Text.digits?_eq_some_iff.mpr ⟨hne, hdigits, rfl⟩⟩, hvalue⟩
  · rintro (h | ⟨n, hcount, hn⟩)
    · exact .name h
    · obtain ⟨sign, digits, hsign, hcs, hdigits⟩ := Text.count?_eq_some_iff.mp hcount
      obtain ⟨hne, hdigit, rfl⟩ := Text.digits?_eq_some_iff.mp hdigits
      rw [hcs]
      exact .number hsign hne hdigit hn

/-- **A worker is named** exactly by what its normal form spells. -/
theorem parse_eq_ok_iff : parse s = .ok w ↔ Spells w (normalName s).toList := by
  rw [spells_iff, ← ofNumeral?_eq_some_iff]
  unfold parse
  cases hname : accepted.lookup (normalName s) with
  | some v =>
      have hnumeral := ofNumeral?_of_accepted (lookup_accepted.mp hname)
      rw [← lookup_accepted, hname, hnumeral]
      simp
  | none =>
      rw [← lookup_accepted, hname]
      cases ofNumeral? (normalName s) <;> simp

theorem parse_of_not_ok (h : ∀ w, parse s ≠ .ok w) : parse s = .error (.unknownWorker s) := by
  unfold parse at h ⊢
  cases hname : accepted.lookup (normalName s) with
  | some v =>
      rw [hname] at h
      exact absurd rfl (h v)
  | none =>
      rw [hname] at h
      cases hnumeral : ofNumeral? (normalName s) with
      | some v =>
          rw [hnumeral] at h
          exact absurd rfl (h v)
      | none => rfl

theorem mem_of_mem_trimList {c : Char} (h : c ∈ Text.trimList cs) : c ∈ cs := by
  rw [Text.trimList, List.mem_reverse] at h
  have hc := (List.dropWhile_sublist _).subset h
  rw [List.mem_reverse] at hc
  exact (List.dropWhile_sublist _).subset hc

theorem toList_normalName (h : ∀ c ∈ s.toList, c.toNat < 128) :
    (normalName s).toList = normalForm s.toList := by
  have hascii : ∀ c ∈ Text.trimList s.toList, c.toNat < 128 := fun c hc =>
    h c (mem_of_mem_trimList hc)
  rw [normalName, String.toList_ofList, Text.lower, String.toList_ofList, Text.trim,
    String.toList_ofList, Text.lowerAfter_ascii hascii, List.map_map]
  rfl

/-- **What names a worker.** A text in ASCII is accepted exactly if its normal form is a name or
the number of a worker, which is then the result and never the unknown node; texts with one normal
form have one result; each other worker is named by its name and its number; and a text that is not
accepted is kept in the error. -/
theorem parse_grammar (hs : ∀ c ∈ s.toList, c.toNat < 128) :
    (∀ w, parse s = .ok w ↔ Spells w (normalForm s.toList)) ∧
    parse s ≠ .ok unknown ∧
    (∀ s' : String, (∀ c ∈ s'.toList, c.toNat < 128) →
      normalForm s'.toList = normalForm s.toList → (parse s').toOption = (parse s).toOption) ∧
    (∀ w, w ≠ unknown → parse w.name = .ok w ∧ parse (toString w.id.toNat) = .ok w) ∧
    ((∀ w, ¬ Spells w (normalForm s.toList)) → parse s = .error (.unknownWorker s)) := by
  have hparse (w : Worker) : parse s = .ok w ↔ Spells w (normalForm s.toList) := by
    rw [parse_eq_ok_iff, toList_normalName hs]
  refine ⟨hparse, fun h => not_spells_unknown ((hparse unknown).mp h), ?_, ?_, ?_⟩
  · intro s' hs' hform
    have hname : normalName s' = normalName s := by
      rw [← String.toList_inj, toList_normalName hs, toList_normalName hs', hform]
    unfold parse
    rw [hname]
    cases accepted.lookup (normalName s) with
    | some w => rfl
    | none => cases ofNumeral? (normalName s) <;> rfl
  · intro w hw
    cases w <;> first | exact absurd rfl hw | exact ⟨rfl, rfl⟩
  · exact fun h => parse_of_not_ok fun w hw => h w ((hparse w).mp hw)

/-- A second name in mixed case, a number with a sign and zeros, and a negative number, whose sign
becomes an underscore. -/
theorem parse_grammar_mixed :
    parse " Ml-Model\n" = .ok mlModelProvider ∧ parse "+007" = .ok orchestrator ∧
      parse "-1" = .error (.unknownWorker "-1") := by
  obtain ⟨hname, -⟩ := parse_grammar (s := " Ml-Model\n") (by simp)
  obtain ⟨hnumber, -⟩ := parse_grammar (s := "+007") (by simp)
  obtain ⟨-, -, -, -, hrefused⟩ := parse_grammar (s := "-1") (by simp)
  have hspells : Spells orchestrator (['+'] ++ ['0', '0', '7']) :=
    .number (.inr rfl) (by simp) (by simp) rfl
  have hsign : ∀ w, ¬ Spells w "_1".toList := by
    intro w h
    have hcount : Text.count? "_1".toList = none := by decide
    rcases spells_iff.mp h with h | ⟨n, hn, -⟩
    · revert h
      cases w <;> decide
    · rw [hcount] at hn
      cases hn
  have hmember : "ml_model" ∈ mlModelProvider.spellings := by decide
  exact ⟨(hname _).mpr (.name hmember), (hnumber _).mpr hspells, hrefused hsign⟩

end Worker

end WorkerPipeline
