import IndirectBranch.Json.Basic

/-! JSON text of values, without blanks or on indented lines. -/
namespace IndirectBranch.Json

/-- Only the characters that must be escaped are. -/
def escapedChar (c : Char) : String :=
  match c with
  | '"' => "\\\""
  | '\\' => "\\\\"
  | '\x08' => "\\b"
  | '\t' => "\\t"
  | '\n' => "\\n"
  | '\x0c' => "\\f"
  | '\r' => "\\r"
  | c => if c.toNat < 0x20 then "\\u" ++ Text.hexPadded 4 c.toNat else c.toString

def quote (s : String) : String := "\"" ++ String.join (s.toList.map escapedChar) ++ "\""

def openBrace : String := "\x7b"

def closeBrace : String := "\x7d"

mutual

def compact : Json → String
  | .null => "null"
  | .bool b => if b then "true" else "false"
  | .nat n => Nat.repr n
  | .neg n => "-" ++ Nat.repr n
  | .float x => floatText x
  | .str s => quote s
  | .arr items => "[" ++ compactItems items ++ "]"
  | .obj members => openBrace ++ compactMembers members ++ closeBrace

def compactItems : List Json → String
  | [] => ""
  | [v] => compact v
  | v :: w :: rest => compact v ++ "," ++ compactItems (w :: rest)

def compactMembers : List (String × Json) → String
  | [] => ""
  | [(k, v)] => quote k ++ ":" ++ compact v
  | (k, v) :: m :: rest => quote k ++ ":" ++ compact v ++ "," ++ compactMembers (m :: rest)

end

def newLine (level : Nat) : String := "\n" ++ String.ofList (List.replicate (2 * level) ' ')

mutual

/-- The value on indented lines; empty lists and objects stay on one line. -/
def pretty (level : Nat) : Json → String
  | .null => "null"
  | .bool b => if b then "true" else "false"
  | .nat n => Nat.repr n
  | .neg n => "-" ++ Nat.repr n
  | .float x => floatText x
  | .str s => quote s
  | .arr [] => "[]"
  | .arr (v :: rest) => "[" ++ prettyItems (level + 1) (v :: rest) ++ newLine level ++ "]"
  | .obj [] => openBrace ++ closeBrace
  | .obj (m :: rest) =>
    openBrace ++ prettyMembers (level + 1) (m :: rest) ++ newLine level ++ closeBrace

def prettyItems (level : Nat) : List Json → String
  | [] => ""
  | [v] => newLine level ++ pretty level v
  | v :: w :: rest => newLine level ++ pretty level v ++ "," ++ prettyItems level (w :: rest)

def prettyMembers (level : Nat) : List (String × Json) → String
  | [] => ""
  | [(k, v)] => newLine level ++ quote k ++ ": " ++ pretty level v
  | (k, v) :: m :: rest =>
    newLine level ++ quote k ++ ": " ++ pretty level v ++ "," ++ prettyMembers level (m :: rest)

end
end IndirectBranch.Json
