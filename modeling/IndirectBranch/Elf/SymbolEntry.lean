import IndirectBranch.Elf.StringTable

/-! Entries of symbol tables. -/
namespace IndirectBranch.Elf

structure SymbolEntry where
  name : Nat
  info : Nat
  /-- Index of the section that defines the symbol. -/
  sectionIndex : Nat
  value : UInt64
  deriving DecidableEq, Repr

namespace SymbolEntry

def widths (e : Encoding) : List Nat :=
  if e.wide then [4, 1, 1, 2, 8, 8] else [4, 4, 4, 1, 1, 2]

def ofFields (e : Encoding) : List Nat → SymbolEntry
  | [name, b, c, d, f, g] =>
    if e.wide then ⟨name, b, d, UInt64.ofNat f⟩
    else
      let _ := c
      ⟨name, d, g, UInt64.ofNat b⟩
  | _ => ⟨0, 0, 0, 0⟩

def size (e : Encoding) : Nat := totalWidth (widths e)

/-- `count` entries from `offset` on; all of them must lie in the file. -/
def parseTable (e : Encoding) (file : Bytes) (offset count : Nat) :
    Except Malformed (List SymbolEntry) := do
  if count * size e ≥ UInt64.size then throw (.tooManySymbols offset count)
  let bytes ← slice file offset (count * size e)
  let table ← records e (widths e) count bytes
  return table.map (ofFields e)

def kind (s : SymbolEntry) : Nat := s.info % 16

def sectionKind : Nat := 3

def fileKind : Nat := 4

def undefinedSection : Nat := 0

end SymbolEntry
end IndirectBranch.Elf
