import IndirectBranch.Yaml.Fault

/-! Moving through YAML text, a character or a line break at a time. -/
namespace IndirectBranch.Yaml

def isBlank (c : Char) : Bool := c == ' ' || c == '\t'

/-- The two separators of Unicode that are kept as they are. -/
def isUnicodeBreak (c : Char) : Bool := c.toNat == 0x2028 || c.toNat == 0x2029

def isBreak (c : Char) : Bool :=
  c == '\n' || c == '\r' || c.toNat == 0x85 || isUnicodeBreak c

/-- Letters, digits, `_` and `-` of ASCII, which make up names. -/
def isNameChar (c : Char) : Bool := c.isAlphanum || c == '_' || c == '-'

structure Cursor where
  rest : List Char
  mark : Mark

namespace Cursor

def ofText (s : String) : Cursor := ⟨s.toList, .start⟩

def peek? (c : Cursor) (n : Nat) : Option Char := c.rest[n]?

def has (c : Cursor) (n : Nat) (ch : Char) : Bool := c.peek? n == some ch

def any (c : Cursor) (n : Nat) (p : Char → Bool) : Bool := (c.peek? n).any p

def endsWord (c : Cursor) (n : Nat) : Bool := (c.peek? n).all fun ch => isBlank ch || isBreak ch

def endsLine (c : Cursor) : Bool := (c.peek? 0).all isBreak

def next (c : Cursor) : Cursor := ⟨c.rest.tail, c.mark.next⟩

def skip (c : Cursor) : Nat → Cursor
  | 0 => c
  | n + 1 => c.next.skip n

/-- The longest run of characters that satisfy `p`, and the place after it. -/
def span (p : Char → Bool) (c : Cursor) : List Char × Cursor :=
  let run := c.rest.takeWhile p
  (run, ⟨c.rest.drop run.length,
    ⟨c.mark.index + run.length, c.mark.line, c.mark.column + run.length⟩⟩)

def skipWhile (p : Char → Bool) (c : Cursor) : Cursor := (c.span p).2

/-- A line break, if one comes here: the character it stands for, and the next line. -/
def lineBreak? (c : Cursor) : Option (Char × Cursor) :=
  match c.rest with
  | [] => none
  | '\r' :: '\n' :: rest => some ('\n', ⟨rest, c.mark.nextLine 2⟩)
  | a :: rest =>
    if isUnicodeBreak a then some (a, ⟨rest, c.mark.nextLine 1⟩)
    else if isBreak a then some ('\n', ⟨rest, c.mark.nextLine 1⟩)
    else none

def skipComment (c : Cursor) : Cursor :=
  let c := c.skipWhile isBlank
  if c.has 0 '#' then c.skipWhile (!isBreak ·) else c

/-- Whether a line starts here with one of the two document indicators. -/
def atIndicator (c : Cursor) (ch : Char) : Bool :=
  c.mark.column == 0 && c.has 0 ch && c.has 1 ch && c.has 2 ch && c.endsWord 3

def atDocumentIndicator (c : Cursor) : Bool := c.atIndicator '-' || c.atIndicator '.'

def fail {α : Type} (c : Cursor) (problem : Problem) (context : Context) (start : Mark) :
    Except SyntaxError α :=
  .error ⟨problem, c.mark, some (context, start)⟩

end Cursor
end IndirectBranch.Yaml
