import IndirectBranch.Decimal.Nearest
import IndirectBranch.Yaml.Event

/-! What scalars stand for: their tag tells, or the way they are written. -/
namespace IndirectBranch.Yaml

structure Scalar where
  tag : Option Bytes
  text : String
  style : Style
  deriving DecidableEq, Repr

inductive ScalarValue
  | null
  | flag (b : Bool)
  /-- Integers that fit in 64 bits. -/
  | integer (n : Int)
  /-- Integers that fit in 128 bits only. -/
  | wide (n : Int)
  | float (x : Float)
  | text (s : String)

/-- Floating-point numbers are never written with an exponent. -/
def ScalarValue.found : ScalarValue → Found
  | .null => .unit
  | .flag b => .flag b
  | .integer n => .integer n
  | .wide n => .wide n
  | .float x => .float (Decimal.text (fun _ => true) x)
  | .text s => .text s

namespace Resolution

def isNull (s : String) : Bool := ["null", "Null", "NULL", "~"].contains s

def flag? (s : String) : Option Bool :=
  if ["true", "True", "TRUE"].contains s then some true
  else if ["false", "False", "FALSE"].contains s then some false
  else none

def isSign (c : Char) : Bool := c == '+' || c == '-'

def digits? (radix : Nat) (cs : List Char) : Option Nat :=
  if cs.isEmpty then none
  else cs.foldlM (fun n c => do
    let d ← Text.hexValue? c
    if d < radix then some (n * radix + d) else none) 0

/-- Digits after a zero are text, not a number. -/
def hasLeadingZero (cs : List Char) : Bool :=
  match if cs.head?.any isSign then cs.tail else cs with
  | '0' :: c :: rest => (c :: rest).all Char.isDigit
  | _ => false

/-- Digits, after the mark of a base other than ten. -/
def magnitude? : List Char → Option Nat
  | '0' :: 'x' :: cs => digits? 16 cs
  | '0' :: 'o' :: cs => digits? 8 cs
  | '0' :: 'b' :: cs => digits? 2 cs
  | cs => if hasLeadingZero cs then none else digits? 10 cs

def signBit : Nat := UInt64.size / 2

def integer? (cs : List Char) : Option ScalarValue :=
  match cs with
  | '-' :: cs => (magnitude? cs).bind fun n =>
    if n ≤ signBit then some (.integer (-n))
    else if n ≤ signBit * UInt64.size then some (.wide (-n)) else none
  | cs => (magnitude? (if cs.head? == some '+' then cs.tail else cs)).bind fun n =>
    if n < UInt64.size then some (.integer n)
    else if n < UInt64.size * UInt64.size then some (.wide n) else none

def exponent? : List Char → Option Int
  | [] => some 0
  | c :: cs =>
    if c == 'e' || c == 'E' then
      match cs with
      | '-' :: cs => (digits? 10 cs).map fun n => -Int.ofNat n
      | '+' :: cs => (digits? 10 cs).map Int.ofNat
      | cs => (digits? 10 cs).map Int.ofNat
    else none

/-- Digits with perhaps a point among them and an exponent after them; finite numbers only. -/
def unsignedFloat? (cs : List Char) : Option Float := do
  let whole := cs.takeWhile Char.isDigit
  let rest := cs.dropWhile Char.isDigit
  let (fraction, rest) := match rest with
    | '.' :: rest => (rest.takeWhile Char.isDigit, rest.dropWhile Char.isDigit)
    | rest => ([], rest)
  let digits ← digits? 10 (whole ++ fraction)
  let exponent ← exponent? rest
  Decimal.nearest? digits (exponent - fraction.length)

def infinity : Float := Float.ofBits 0x7FF0000000000000

def notANumber : Float := Float.ofBits 0x7FF8000000000000

def float? (cs : List Char) : Option Float :=
  let unsigned := if cs.head? == some '+' then cs.tail else cs
  if [".inf", ".Inf", ".INF"].contains (String.ofList unsigned) then some infinity
  else if ["-.inf", "-.Inf", "-.INF"].contains (String.ofList cs) then some (-infinity)
  else if [".nan", ".NaN", ".NAN"].contains (String.ofList cs) then some notANumber
  else
    match cs with
    | '-' :: cs => (unsignedFloat? cs).map (-·)
    | _ => unsignedFloat? unsigned

/-- A plain scalar without a tag of the core kinds. -/
def plain (s : String) : ScalarValue :=
  if s.isEmpty || isNull s then .null
  else
    match flag? s with
    | some b => .flag b
    | none =>
      match integer? s.toList with
      | some v => v
      | none =>
        if hasLeadingZero s.toList then .text s
        else
          match float? s.toList with
          | some x => .float x
          | none => .text s

def coreTag (name : String) : Bytes := asciiBytes ("tag:yaml.org,2002:" ++ name).toList

end Resolution

namespace Scalar
open Resolution

/-- The value, if the text suits the tag. -/
def resolve (s : Scalar) : Except Mismatch ScalarValue :=
  let orElse (v : Option ScalarValue) (expected : Expected) : Except Mismatch ScalarValue :=
    match v with
    | some v => .ok v
    | none => .error (.wrongValue (.text s.text) expected)
  match s.tag with
  | none => if s.style == .plain then .ok (plain s.text) else .ok (.text s.text)
  | some tag =>
    if tag == coreTag "bool" then orElse ((flag? s.text).map .flag) .boolean
    else if tag == coreTag "int" then orElse (integer? s.text.toList) .integer
    else if tag == coreTag "float" then orElse ((float? s.text.toList).map .float) .float
    else if tag == coreTag "null" then orElse (if isNull s.text then some .null else none) .null
    else if tag.head? == some 0x21 && s.style == .plain then .ok (plain s.text)
    else .ok (.text s.text)

def mismatch (s : Scalar) (expected : Expected) : Mismatch :=
  match s.resolve with
  | .ok v => .wrongType v.found expected
  | .error m => m

/-- Truth values are read from plain scalars whatever their tag. -/
def flag? (s : Scalar) : Option Bool :=
  if s.style == .plain || (s.style == .literal && s.tag == some (coreTag "bool")) then
    Resolution.flag? s.text
  else none

/-- A node that is left out: it stands for an empty collection too. -/
def isOmitted (s : Scalar) : Bool := s.text.isEmpty && s.style == .plain

end Scalar
end IndirectBranch.Yaml
