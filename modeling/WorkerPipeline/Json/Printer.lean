import WorkerPipeline.Json.Number

set_option autoImplicit false

/-! # Writing JSON

`Json.render` writes a value without blanks, `Json.renderPretty` with one member or element per
line. In a string only the quote, the backslash and the control characters below `U+0020` are
escaped; every other character stands for itself.
-/

namespace WorkerPipeline.Json

/-! ## Strings -/

/-- The character itself, or the escape that stands for it. -/
def escape (c : Char) : List Char :=
  match c with
  | '"' => ['\\', '"']
  | '\\' => ['\\', '\\']
  | '\x08' => ['\\', 'b']
  | '\x0c' => ['\\', 'f']
  | '\n' => ['\\', 'n']
  | '\r' => ['\\', 'r']
  | '\t' => ['\\', 't']
  | c =>
    if c.toNat < 0x20 then
      ['\\', 'u', '0', '0', Nat.digitChar (c.toNat / 16), Nat.digitChar (c.toNat % 16)]
    else [c]

def renderString (s : String) : List Char := '"' :: s.toList.flatMap escape ++ ['"']

/-! ## Values on one line -/

mutual

def renderList : Json → List Char
  | .null | .unreadable => ['n', 'u', 'l', 'l']
  | .bool true => ['t', 'r', 'u', 'e']
  | .bool false => ['f', 'a', 'l', 's', 'e']
  | .num n => n.render
  | .str s => renderString s
  | .arr l => '[' :: renderElements l ++ [']']
  | .obj m => '{' :: renderMembers m ++ ['}']
termination_by structural j => j

def renderElements : List Json → List Char
  | [] => []
  | j :: l => renderList j ++ renderMoreElements l
termination_by structural l => l

/-- Elements after the first one. -/
def renderMoreElements : List Json → List Char
  | [] => []
  | j :: l => ',' :: renderList j ++ renderMoreElements l
termination_by structural l => l

def renderMembers : List (String × Json) → List Char
  | [] => []
  | m :: l => renderMember m ++ renderMoreMembers l
termination_by structural l => l

/-- Members after the first one. -/
def renderMoreMembers : List (String × Json) → List Char
  | [] => []
  | m :: l => ',' :: renderMember m ++ renderMoreMembers l
termination_by structural l => l

def renderMember : String × Json → List Char
  | (name, j) => renderString name ++ ':' :: renderList j
termination_by structural m => m

end

def render (j : Json) : String := String.ofList (renderList j)

/-! ## Values on several lines -/

/-- A new line, indented by two blanks for each level. -/
def newLine (level : Nat) : List Char := '\n' :: List.replicate (2 * level) ' '

mutual

def prettyList (level : Nat) : Json → List Char
  | .arr [] => ['[', ']']
  | .arr l => '[' :: prettyElements (level + 1) l ++ newLine level ++ [']']
  | .obj [] => ['{', '}']
  | .obj m => '{' :: prettyMembers (level + 1) m ++ newLine level ++ ['}']
  | .null | .unreadable => ['n', 'u', 'l', 'l']
  | .bool true => ['t', 'r', 'u', 'e']
  | .bool false => ['f', 'a', 'l', 's', 'e']
  | .num n => n.render
  | .str s => renderString s
termination_by structural j => j

def prettyElements (level : Nat) : List Json → List Char
  | [] => []
  | j :: l =>
    newLine level ++ prettyList level j ++ (if l.isEmpty then [] else [',']) ++
      prettyElements level l
termination_by structural l => l

def prettyMembers (level : Nat) : List (String × Json) → List Char
  | [] => []
  | m :: l =>
    newLine level ++ prettyMember level m ++ (if l.isEmpty then [] else [',']) ++
      prettyMembers level l
termination_by structural l => l

def prettyMember (level : Nat) : String × Json → List Char
  | (name, j) => renderString name ++ ':' :: ' ' :: prettyList level j
termination_by structural m => m

end

def renderPretty (j : Json) : String := String.ofList (prettyList 0 j)

end WorkerPipeline.Json
