/-! The shortest decimal text of a binary floating-point number. -/
namespace IndirectBranch.Decimal

structure Binary where
  significand : Nat
  exponent : Int
  deriving DecidableEq, Repr

def hiddenBit : Nat := 0x10000000000000

def signWeight : Nat := 0x8000000000000000

def decode (x : Float) : Option (Bool × Binary) :=
  let bits := x.toBits.toNat
  let negative := bits / signWeight == 1
  let biased := bits / hiddenBit % 2048
  let fraction := bits % hiddenBit
  if biased = 2047 then none
  else if biased = 0 then some (negative, ⟨fraction, -1074⟩)
  else some (negative, ⟨hiddenBit + fraction, Int.ofNat biased - 1075⟩)

/-- The reals that round to a number, as multiples of `1 / denominator`. -/
structure Interval where
  low : Nat
  value : Nat
  high : Nat
  denominator : Nat
  closed : Bool

/-- Below a power of two the neighbour is only half as far away. -/
def Binary.interval (b : Binary) : Interval :=
  let gap := if b.significand = hiddenBit ∧ b.exponent > -1074 then 1 else 2
  let up := 1 <<< (b.exponent - 2).toNat
  ⟨(4 * b.significand - gap) * up, 4 * b.significand * up, (4 * b.significand + 2) * up,
    1 <<< (2 - b.exponent).toNat, b.significand % 2 == 0⟩

/-- Whether `n / d`, over the same denominator, lies in the interval. -/
def Interval.contains (i : Interval) (n d : Nat) : Bool :=
  if i.closed then i.low * d ≤ n * i.denominator && n * i.denominator ≤ i.high * d
  else i.low * d < n * i.denominator && n * i.denominator < i.high * d

structure Scaled where
  digits : Nat
  exponent : Int
  deriving DecidableEq, Repr

/-- Number of decimal places to move the point right until `n / d` reaches one. -/
def leadingPlaces (n d : Nat) : Nat → Nat
  | 0 => 0
  | fuel + 1 => if n < d then leadingPlaces (10 * n) d fuel + 1 else 0

def firstPlace (n d : Nat) : Int :=
  if n < d then -Int.ofNat (leadingPlaces n d 400)
  else Int.ofNat (Nat.toDigits 10 (n / d)).length - 1

/-- The nearest number with decimals down to `10 ^ place` that lies in the interval. -/
def Interval.onGrid (i : Interval) (place : Int) : Option Scaled :=
  let scaleUp := Nat.pow 10 (-place).toNat
  let scaleDown := Nat.pow 10 place.toNat
  let below := i.value * scaleUp / (i.denominator * scaleDown)
  let inside (c : Nat) : Bool := i.contains (c * scaleDown) scaleUp
  let twice := 2 * (i.value * scaleUp)
  let middle := (2 * below + 1) * (i.denominator * scaleDown)
  let nearer := if twice < middle ∨ (twice = middle ∧ below % 2 = 0) then below else below + 1
  let farther := if nearer = below then below + 1 else below
  if inside nearer then some ⟨nearer, place⟩
  else if inside farther then some ⟨farther, place⟩
  else none

/-- Fewest digits that read back as the same number; seventeen always do. -/
def Interval.shortest (i : Interval) : Scaled :=
  let first := firstPlace i.value i.denominator
  let grids := (List.range 18).map fun (n : Nat) => i.onGrid (first - n)
  (grids.findSome? id).getD ⟨i.value / i.denominator, 0⟩

def Scaled.strip (d : Scaled) : Nat → Scaled
  | 0 => d
  | fuel + 1 =>
    if d.digits ≠ 0 ∧ d.digits % 10 = 0 then strip ⟨d.digits / 10, d.exponent + 1⟩ fuel else d

/-- Plain digits with a point, and always a digit after it. -/
def Scaled.positional (d : Scaled) : String :=
  let ds := Nat.toDigits 10 d.digits
  if d.exponent ≥ 0 then String.ofList (ds ++ List.replicate d.exponent.toNat '0') ++ ".0"
  else
    let places := (-d.exponent).toNat
    let ds := List.replicate (places + 1 - ds.length) '0' ++ ds
    String.ofList (ds.take (ds.length - places)) ++ "." ++
      String.ofList (ds.drop (ds.length - places))

/-- One digit before the point, and an exponent with sign and two digits or more. -/
def Scaled.scientific (d : Scaled) : String :=
  let ds := Nat.toDigits 10 d.digits
  let place := d.exponent + ds.length - 1
  let mark := Nat.toDigits 10 place.natAbs
  let mark := List.replicate (2 - mark.length) '0' ++ mark
  String.ofList (ds.take 1 ++ (if ds.length > 1 then '.' :: ds.drop 1 else [])) ++
    (if place < 0 then "e-" else "e+") ++ String.ofList mark

/-- `fixed` tells for which exponents of the first digit no exponent is written. -/
def text (fixed : Int → Bool) (x : Float) : String :=
  match decode x with
  | none => if x.isNaN then "NaN" else if x < 0 then "-inf" else "inf"
  | some (negative, b) =>
    let body :=
      if b.significand = 0 then "0.0"
      else
        let d := (b.interval.shortest).strip 20
        if fixed (d.exponent + (Nat.toDigits 10 d.digits).length - 1) then d.positional
        else d.scientific
    if negative then "-" ++ body else body

end IndirectBranch.Decimal
