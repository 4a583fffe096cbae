import IndirectBranch.Decimal.Shortest
import IndirectBranch.Mismatch

/-! JSON values. -/
namespace IndirectBranch

/-- Numbers are kept apart by how they were written: without sign or fraction, negative without
fraction, or anything else. -/
inductive Json
  | null
  | bool (b : Bool)
  | nat (n : Nat)
  | neg (n : Nat)
  | float (x : Float)
  | str (s : String)
  | arr (items : List Json)
  | obj (members : List (String × Json))
  deriving Inhabited

namespace Json

/-- Exponents from -5 to 15 are not written. -/
def floatText : Float → String := Decimal.text fun place => -5 ≤ place && place ≤ 15

def found : Json → Found
  | .null => .null
  | .bool b => .flag b
  | .nat n => .integer n
  | .neg n => .integer (-n)
  | .float x => .float (floatText x)
  | .str s => .text s
  | .arr _ => .list
  | .obj _ => .map

end Json
end IndirectBranch
