import IndirectBranch.Elf.Fault

/-! Records of fixed-width numbers, as they follow one another in a file. -/
namespace IndirectBranch.Elf

/-- Width of addresses and order of bytes. -/
structure Encoding where
  wide : Bool
  little : Bool
  deriving DecidableEq, Repr

namespace Encoding

def number (e : Encoding) (bytes : Bytes) : Nat :=
  if e.little then littleEndian bytes else bigEndian bytes

/-- Bytes of an address, an offset or a size. -/
def wordWidth (e : Encoding) : Nat := if e.wide then 8 else 4

end Encoding

def openAt (file : Bytes) (offset : Nat) : Except Malformed Bytes :=
  if offset ≤ file.length then .ok (file.drop offset) else .error (.badOffset offset)

def takeBytes (size : Nat) (rest : Bytes) : Except Malformed (Bytes × Bytes) :=
  let taken := rest.take size
  if taken.length = size then .ok (taken, rest.drop size) else .error (.tooBig size rest.length)

def slice (file : Bytes) (offset size : Nat) : Except Malformed Bytes := do
  let rest ← openAt file offset
  let (taken, _) ← takeBytes size rest
  return taken

def field (e : Encoding) (width : Nat) (rest : Bytes) : Except Malformed (Nat × Bytes) := do
  let (taken, rest) ← takeBytes width rest
  return (e.number taken, rest)

/-- One record, given the widths of its fields. -/
def fields (e : Encoding) : List Nat → Bytes → Except Malformed (List Nat × Bytes)
  | [], rest => .ok ([], rest)
  | width :: widths, rest => do
    let (n, rest) ← field e width rest
    let (ns, rest) ← fields e widths rest
    return (n :: ns, rest)

def totalWidth (widths : List Nat) : Nat := widths.foldr (· + ·) 0

def records (e : Encoding) (widths : List Nat) : Nat → Bytes → Except Malformed (List (List Nat))
  | 0, _ => .ok []
  | count + 1, rest => do
    let (first, rest) ← fields e widths rest
    let others ← records e widths count rest
    return first :: others

def number32 (e : Encoding) (file : Bytes) (offset : Nat) : Except Malformed Nat := do
  let rest ← openAt file offset
  let (n, _) ← field e 4 rest
  return n

end IndirectBranch.Elf
