import IndirectBranch.Text.Blank
import IndirectBranch.Text.Hex

/-! Numbers in policies: written as integers, or as text in decimal or hexadecimal. -/
namespace IndirectBranch

inductive NumeralError
  | empty
  | invalidDigit
  | tooLarge
  deriving DecidableEq, Repr

def NumeralError.message : NumeralError → String
  | .empty => "cannot parse integer from empty string"
  | .invalidDigit => "invalid digit found in string"
  | .tooLarge => "number too large to fit in target type"

namespace Numeral

def digitValue? (radix : Nat) (c : Char) : Option Nat :=
  match Text.hexValue? c with
  | some d => if d < radix then some d else none
  | none => none

/-- Reads digits onto `value`, left to right; the first fault is reported. -/
def digitsFrom (radix : Nat) (value : Nat) : List Char → Except NumeralError Nat
  | [] => .ok value
  | c :: cs =>
    match digitValue? radix c with
    | none => .error .invalidDigit
    | some d =>
      let value := value * radix + d
      if value < UInt64.size then digitsFrom radix value cs else .error .tooLarge

def unsigned (radix : Nat) : List Char → Except NumeralError Nat
  | [] => .error .empty
  | ['+'] => .error .invalidDigit
  | '+' :: cs => digitsFrom radix 0 cs
  | cs => digitsFrom radix 0 cs

def clean (text : String) : List Char := (Text.trim text.toList).filter (· ≠ '_')

/-- `0x` or `0X` starts a hexadecimal numeral. -/
def parse (text : String) : Except NumeralError UInt64 :=
  let value :=
    match clean text with
    | '0' :: 'x' :: cs => unsigned 16 cs
    | '0' :: 'X' :: cs => unsigned 16 cs
    | cs => unsigned 10 cs
  value.map UInt64.ofNat

end Numeral
end IndirectBranch
