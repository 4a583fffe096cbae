import IndirectBranch.Opcode
import IndirectBranch.Policy.Numeral
import IndirectBranch.Text.Quoted

/-! Data that does not have the shape it should have. -/
namespace IndirectBranch

inductive Found
  | null
  | unit
  | flag (b : Bool)
  | integer (n : Int)
  /-- An integer beyond 64 bits, with the type that holds it. -/
  | wide (n : Int)
  /-- Floating-point numbers are shown as their format writes them. -/
  | float (shown : String)
  | text (s : String)
  | list
  | map
  deriving DecidableEq, Repr

def Found.describe : Found → String
  | .null => "null"
  | .unit => "unit value"
  | .flag b => s!"boolean `{b}`"
  | .integer n => s!"integer `{n}`"
  | .wide n => s!"integer `{n}` as " ++ if n < 0 then "i128" else "u128"
  | .float shown => s!"floating point `{shown}`"
  | .text s => s!"string {Text.quoted s}"
  | .list => "sequence"
  | .map => "map"

inductive Expected
  | text
  | flag
  | number
  | size
  | byte
  | list
  | arrayOf (length : Nat)
  | record (what : String)
  | elements (what : String) (count : Nat)
  | fewerElements
  | elementsInSequence (count : Nat)
  | fieldName
  | variantName
  | anything
  | integer
  | float
  | boolean
  | null
  deriving DecidableEq, Repr

def Expected.describe : Expected → String
  | .text => "a string"
  | .flag => "a boolean"
  | .number => "u64"
  | .size => "usize"
  | .byte => "u8"
  | .list => "a sequence"
  | .arrayOf length => s!"an array of length {length}"
  | .record what => what
  | .elements what count => s!"{what} with {count} elements"
  | .fewerElements => "fewer elements in array"
  | .elementsInSequence 1 => "1 element in sequence"
  | .elementsInSequence count => s!"{count} elements in sequence"
  | .fieldName => "field identifier"
  | .variantName => "variant identifier"
  | .anything => "any value"
  | .integer => "an integer"
  | .float => "a float"
  | .boolean => "a boolean"
  | .null => "null"

inductive Mismatch
  | wrongType (found : Found) (expected : Expected)
  | wrongValue (found : Found) (expected : Expected)
  | wrongLength (length : Nat) (expected : Expected)
  | missingField (name : String)
  | duplicateField (name : String)
  | unknownVariant (name : String) (known : List String)
  /-- A number field that holds neither an integer nor text. -/
  | notNumber
  /-- A number field that carries a tag of its own. -/
  | taggedNumber
  | badNumeral (text : String) (reason : NumeralError)
  | wordTooLarge (n : UInt64)
  | badOpcode (reason : OpcodeError)
  deriving DecidableEq, Repr

def Mismatch.message : Mismatch → String
  | .wrongType found expected => s!"invalid type: {found.describe}, expected {expected.describe}"
  | .wrongValue found expected => s!"invalid value: {found.describe}, expected {expected.describe}"
  | .wrongLength length expected => s!"invalid length {length}, expected {expected.describe}"
  | .missingField name => s!"missing field `{name}`"
  | .duplicateField name => s!"duplicate field `{name}`"
  | .unknownVariant name known =>
    s!"unknown variant `{name}`, expected " ++ " or ".intercalate (known.map fun k => s!"`{k}`")
  | .notNumber => "data did not match any variant of untagged enum Number"
  | .taggedNumber => "untagged and internally tagged enums do not support enum input"
  | .badNumeral text reason => s!"invalid number {Text.quoted text}: {reason.message}"
  | .wordTooLarge n => s!"word {Text.hex n.toNat} does not fit in 32 bits"
  | .badOpcode reason => reason.message

end IndirectBranch
