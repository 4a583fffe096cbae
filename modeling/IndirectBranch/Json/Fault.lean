import IndirectBranch.Mismatch

/-! What is wrong with a JSON text, and where. -/
namespace IndirectBranch.Json

inductive Flaw
  | endInValue
  | endInObject
  | endInList
  | endInString
  | expectedColon
  | expectedListEnd
  | expectedObjectEnd
  | expectedLiteral
  | expectedValue
  | badEscape
  | badNumber
  | numberRange
  | controlCharacter
  | keyNotString
  | loneSurrogate
  | endOfHexEscape
  | trailingComma
  | trailingText
  | tooDeep
  deriving DecidableEq, Repr

def Flaw.message : Flaw → String
  | .endInValue => "EOF while parsing a value"
  | .endInObject => "EOF while parsing an object"
  | .endInList => "EOF while parsing a list"
  | .endInString => "EOF while parsing a string"
  | .expectedColon => "expected `:`"
  | .expectedListEnd => "expected `,` or `]`"
  | .expectedObjectEnd => "expected `,` or `\x7d`"
  | .expectedLiteral => "expected ident"
  | .expectedValue => "expected value"
  | .badEscape => "invalid escape"
  | .badNumber => "invalid number"
  | .numberRange => "number out of range"
  | .controlCharacter => "control character (\\u0000-\\u001F) found while parsing a string"
  | .keyNotString => "key must be a string"
  | .loneSurrogate => "lone leading surrogate in hex escape"
  | .endOfHexEscape => "unexpected end of hex escape"
  | .trailingComma => "trailing comma"
  | .trailingText => "trailing characters"
  | .tooDeep => "recursion limit exceeded"

inductive Problem
  | flaw (f : Flaw)
  | mismatch (m : Mismatch)
  deriving DecidableEq, Repr

def Problem.message : Problem → String
  | .flaw f => f.message
  | .mismatch m => m.message

/-- A problem with the number of bytes that were left, or one that gets its place when the list
or object around it is left. -/
inductive Fault
  | placed (problem : Problem) (left : Nat)
  | loose (m : Mismatch) (rest : List Char)
  deriving DecidableEq, Repr

def byteCount (cs : List Char) : Nat := cs.foldr (fun c n => c.utf8Size + n) 0

namespace Fault

def here (f : Flaw) (rest : List Char) : Fault := .placed (.flaw f) (byteCount rest)

/-- After one more byte, if there is one. -/
def next (f : Flaw) (rest : List Char) : Fault := .placed (.flaw f) (byteCount rest - 1)

end Fault

/-- Line, and bytes since its start, once `count` bytes have been read. -/
def positionFrom (line column : Nat) : (count : Nat) → List Char → Nat × Nat
  | _, [] => (line, column)
  | count, c :: cs =>
    if c.utf8Size ≤ count then
      if c = '\n' then positionFrom (line + 1) 0 (count - 1) cs
      else positionFrom line (column + c.utf8Size) (count - c.utf8Size) cs
    else (line, column + count)

structure Error where
  problem : Problem
  line : Nat
  column : Nat
  deriving DecidableEq, Repr

def Error.message (e : Error) : String :=
  s!"{e.problem.message} at line {e.line} column {e.column}"

def Fault.locate (text : List Char) (fault : Fault) : Error :=
  let at_ (problem : Problem) (left : Nat) : Error :=
    let (line, column) := positionFrom 1 0 (byteCount text - left) text
    ⟨problem, line, column⟩
  match fault with
  | .placed problem left => at_ problem left
  | .loose m rest => at_ (.mismatch m) (byteCount rest)

end IndirectBranch.Json
