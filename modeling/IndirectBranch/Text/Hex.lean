import IndirectBranch.Bytes

/-! Lowercase hexadecimal text. -/
namespace IndirectBranch.Text

def hexDigits (n : Nat) : String := String.ofList (Nat.toDigits 16 n)

def hex (n : Nat) : String := "0x" ++ hexDigits n

/-- At least `width` digits, zeros in front. -/
def hexPadded (width n : Nat) : String :=
  let digits := Nat.toDigits 16 n
  String.ofList (List.replicate (width - digits.length) '0' ++ digits)

def hexByte (b : UInt8) : String := hexPadded 2 b.toNat

def hexWord (w : UInt32) : String := "0x" ++ hexPadded 8 w.toNat

def hexBytes (separator : String) (bytes : Bytes) : String :=
  separator.intercalate (bytes.map hexByte)

def hexValue? (c : Char) : Option Nat :=
  if '0' ≤ c ∧ c ≤ '9' then some (c.toNat - '0'.toNat)
  else if 'a' ≤ c ∧ c ≤ 'f' then some (c.toNat - 'a'.toNat + 10)
  else if 'A' ≤ c ∧ c ≤ 'F' then some (c.toNat - 'A'.toNat + 10)
  else none

end IndirectBranch.Text
