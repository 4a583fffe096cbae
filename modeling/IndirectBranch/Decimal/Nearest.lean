import IndirectBranch.Decimal.Shortest

/-! The binary floating-point number nearest to a decimal one. -/
namespace IndirectBranch.Decimal

/-- `n / d` rounded to an integer; a half goes to the even neighbour. -/
def roundHalfEven (n d : Nat) : Nat :=
  let q := n / d
  let twice := 2 * (n % d)
  if twice > d ∨ (twice = d ∧ q % 2 = 1) then q + 1 else q

/-- The least exponent with which the significand of `n / d` takes at most 53 bits, but not less
than the one of the smallest number. -/
def binaryExponent (n d : Nat) : Int :=
  let e : Int := (n.log2 : Int) - d.log2 - 53
  let fits := n <<< (-e).toNat < d <<< e.toNat <<< 53
  max (if fits then e else e + 1) (-1074)

/-- The number nearest to `n / d`, unless it lies beyond all finite ones. -/
def nearestQuotient? (n d : Nat) : Option Float :=
  if n = 0 then some 0
  else
    let e := binaryExponent n d
    let significand := roundHalfEven (n <<< (-e).toNat) (d <<< e.toNat)
    let bits := (e + 1074).toNat * hiddenBit + significand
    if bits < 2047 * hiddenBit then some (Float.ofBits (UInt64.ofNat bits)) else none

/-- The number nearest to `digits * 10 ^ exponent`. Exponents far out of range are settled by the
number of digits. -/
def nearest? (digits : Nat) (exponent : Int) : Option Float :=
  let first := exponent + (Nat.toDigits 10 digits).length
  if digits = 0 ∨ first < -400 then some 0
  else if first > 400 then none
  else nearestQuotient? (digits * Nat.pow 10 exponent.toNat) (Nat.pow 10 (-exponent).toNat)

end IndirectBranch.Decimal
