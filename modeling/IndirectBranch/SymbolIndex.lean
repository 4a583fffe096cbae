import IndirectBranch.Image
import IndirectBranch.Text.Hex

/-! Attribution of addresses to symbols: the nearest symbol at or below an address. -/
namespace IndirectBranch

/-- Bisects `lo ..< hi` for the place where `p` stops holding. If `p` holds up to some index and
never after it, that index is the answer. -/
def bisect (p : Nat → Bool) (lo hi : Nat) : Nat :=
  if lo < hi then
    let mid := lo + (hi - lo) / 2
    if p mid then bisect p (mid + 1) hi else bisect p lo mid
  else lo
termination_by hi - lo

structure Unresolved where
  address : UInt64
  deriving DecidableEq, Repr

def Unresolved.message (u : Unresolved) : String :=
  s!"no symbol at or below {Text.hex u.address.toNat}"

/-- A symbol table in ascending order of address. -/
structure SymbolIndex where
  sorted : Array Symbol

namespace SymbolIndex

/-- The sort is stable: symbols at one address keep the order of the table. -/
def ofTable (table : List Symbol) : SymbolIndex :=
  ⟨(table.mergeSort fun a b => a.address ≤ b.address).toArray⟩

/-- Number of symbols among the first `count` whose address satisfies `p`, if those come first. -/
def countWhere (ix : SymbolIndex) (p : UInt64 → Bool) (count : Nat) : Nat :=
  bisect (fun i => (ix.sorted[i]?).any fun s => p s.address) 0 count

/-- The first symbol, in table order, at the greatest address that is not above `address`. -/
def nearest? (ix : SymbolIndex) (address : UInt64) : Option Symbol :=
  let above := ix.countWhere (· ≤ address) ix.sorted.size
  if above = 0 then none
  else do
    let last ← ix.sorted[above - 1]?
    ix.sorted[ix.countWhere (· < last.address) above]?

def resolve (ix : SymbolIndex) (address : UInt64) : Except Unresolved (String × UInt64) :=
  match ix.nearest? address with
  | some s => .ok (s.name, address - s.address)
  | none => .error ⟨address⟩

def unknownName : String := "<unknown>"

def resolveOrUnknown (ix : SymbolIndex) (address : UInt64) : String × UInt64 :=
  match ix.resolve address with
  | .ok place => place
  | .error _ => (unknownName, address)

end SymbolIndex
end IndirectBranch
