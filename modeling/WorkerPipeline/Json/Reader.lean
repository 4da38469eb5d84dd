import WorkerPipeline.Json.Number

set_option autoImplicit false

/-! # Reading JSON

A document is read in one pass over its characters. Every function takes the characters that are
left and returns what it has read with the characters behind it. `fuel` bounds the nesting of
calls; a call consumes a character, so the length of the text is enough. `levels` is the number
of containers that may still be opened; a deeper one is read and left `unreadable`.
-/

namespace WorkerPipeline.Json

/-- The four blanks of the format. -/
def isSpace (c : Char) : Bool := c == ' ' || c == '\n' || c == '\t' || c == '\r'

def skipSpace (cs : List Char) : List Char := cs.dropWhile isSpace

/-! ## Strings -/

def hexDigit? (c : Char) : Option Nat :=
  if c.isDigit then some (c.toNat - '0'.toNat)
  else if 'a' ≤ c ∧ c ≤ 'f' then some (c.toNat - 'a'.toNat + 10)
  else if 'A' ≤ c ∧ c ≤ 'F' then some (c.toNat - 'A'.toNat + 10)
  else none

def hexCode? (a b c d : Char) : Option Nat := do
  return (((← hexDigit? a) * 16 + (← hexDigit? b)) * 16 + (← hexDigit? c)) * 16 + (← hexDigit? d)

def isHighSurrogate (n : Nat) : Bool := decide (0xD800 ≤ n) && decide (n < 0xDC00)

def isLowSurrogate (n : Nat) : Bool := decide (0xDC00 ≤ n) && decide (n < 0xE000)

/-- The character of an escape with one letter. -/
def escaped? : Char → Option Char
  | '"' => some '"'
  | '\\' => some '\\'
  | '/' => some '/'
  | 'b' => some '\x08'
  | 'f' => some '\x0c'
  | 'n' => some '\n'
  | 'r' => some '\r'
  | 't' => some '\t'
  | _ => none

/-- The code units of a string up to its closing quote; the opening one is read already. Only an
escape `\uXXXX` can yield half of a surrogate pair. -/
def units? : List Char → Option (List Nat × List Char)
  | [] => none
  | '"' :: cs => some ([], cs)
  | '\\' :: 'u' :: a :: b :: c :: d :: cs => do
    let n ← hexCode? a b c d
    let (ns, rest) ← units? cs
    return (n :: ns, rest)
  | '\\' :: e :: cs => do
    let c ← escaped? e
    let (ns, rest) ← units? cs
    return (c.toNat :: ns, rest)
  | c :: cs => do
    if c = '\\' ∨ c.toNat < 0x20 then none
    let (ns, rest) ← units? cs
    return (c.toNat :: ns, rest)

/-- The characters that code units stand for, unless a surrogate lacks its partner. -/
def join? : List Nat → Option (List Char)
  | [] => some []
  | n :: ns =>
    if isHighSurrogate n then
      match ns with
      | [] => none
      | m :: ms =>
        if isLowSurrogate m then
          return Char.ofNat (0x10000 + (n - 0xD800) * 0x400 + (m - 0xDC00)) :: (← join? ms)
        else none
    else if isLowSurrogate n then none
    else return Char.ofNat n :: (← join? ns)

/-! ## Values -/

/-- A container with its elements, unless it lies too deep. -/
def contain (levels : Nat) (j : Json) : Json := if levels = 0 then .unreadable else j

mutual

def value? (levels : Nat) : Nat → List Char → Option (Json × List Char)
  | 0, _ => none
  | fuel + 1, cs =>
    match skipSpace cs with
    | 'n' :: 'u' :: 'l' :: 'l' :: cs => some (.null, cs)
    | 't' :: 'r' :: 'u' :: 'e' :: cs => some (.bool true, cs)
    | 'f' :: 'a' :: 'l' :: 's' :: 'e' :: cs => some (.bool false, cs)
    | '"' :: cs => do
      let (ns, cs) ← units? cs
      return ((join? ns).elim .unreadable fun s => .str (String.ofList s), cs)
    | '[' :: cs =>
      match skipSpace cs with
      | ']' :: cs => some (contain levels (.arr []), cs)
      | cs => do
        let (l, cs) ← elements? (levels - 1) fuel cs
        return (contain levels (.arr l), cs)
    | '{' :: cs =>
      match skipSpace cs with
      | '}' :: cs => some (contain levels (.obj []), cs)
      | cs => do
        let (m?, cs) ← members? (levels - 1) fuel cs
        return (m?.elim .unreadable fun m => contain levels (.obj m), cs)
    | cs => do
      let (n, cs) ← Numeral.scan? cs
      return (n.number?.elim .unreadable .num, cs)

/-- One element or more, up to the closing bracket. -/
def elements? (levels : Nat) : Nat → List Char → Option (List Json × List Char)
  | 0, _ => none
  | fuel + 1, cs => do
    let (j, cs) ← value? levels fuel cs
    match skipSpace cs with
    | ']' :: cs => some ([j], cs)
    | ',' :: cs =>
      let (l, cs) ← elements? levels fuel cs
      return (j :: l, cs)
    | _ => none

/-- One member or more, up to the closing brace: `none` if a name is unreadable. -/
def members? (levels : Nat) :
    Nat → List Char → Option (Option (List (String × Json)) × List Char)
  | 0, _ => none
  | fuel + 1, cs =>
    match skipSpace cs with
    | '"' :: cs => do
      let (ns, cs) ← units? cs
      match skipSpace cs with
      | ':' :: cs =>
        let (j, cs) ← value? levels fuel cs
        let member? := (join? ns).map fun s => (String.ofList s, j)
        match skipSpace cs with
        | '}' :: cs => some (member?.map ([·]), cs)
        | ',' :: cs =>
          let (m?, cs) ← members? levels fuel cs
          return (do return (← member?) :: (← m?), cs)
        | _ => none
      | _ => none
    | _ => none

end

/-- The number of containers inside one another that can be looked at. -/
def maxLevels : Nat := 127

/-- Reads a document: one value, and nothing but blanks behind it. -/
def readList? (cs : List Char) : Option Json :=
  match value? maxLevels (cs.length + 1) cs with
  | some (j, rest) => if skipSpace rest = [] then some j else none
  | none => none

def read? (s : String) : Option Json := readList? s.toList

end WorkerPipeline.Json
