import IndirectBranch.Elf.Layout

/-! The file header and the tables of program and section headers. -/
namespace IndirectBranch.Elf

structure Header where
  encoding : Encoding
  type : Nat
  machine : Nat
  programOffset : Nat
  sectionOffset : Nat
  programCount : Nat
  sectionCount : Nat
  /-- Index of the section that holds the section names. -/
  namesIndex : Nat
  deriving DecidableEq, Repr

namespace Header

def relocatable : Nat := 1

def aarch64 : Nat := 183

def widths (e : Encoding) : List Nat :=
  [2, 2, 4, e.wordWidth, e.wordWidth, e.wordWidth, 4, 2, 2, 2, 2, 2, 2]

def ofFields (e : Encoding) : List Nat → Header
  | [type, machine, _, _, programOffset, sectionOffset, _, _, _, programCount, _, sectionCount,
      namesIndex] =>
    ⟨e, type, machine, programOffset, sectionOffset, programCount, sectionCount, namesIndex⟩
  | _ => ⟨e, 0, 0, 0, 0, 0, 0, 0⟩

def identify : Bytes → Except Malformed Encoding
  | [0x7F, 0x45, 0x4C, 0x46, cls, data, _, _, _, _, _, _, _, _, _, _] =>
    if cls ≠ 1 ∧ cls ≠ 2 then .error (.unknownClass cls)
    else if data ≠ 1 ∧ data ≠ 2 then .error (.unknownByteOrder data)
    else .ok ⟨cls == 2, data == 1⟩
  | ident => .error (.magic (littleEndian (ident.take 8)))

def parse (file : Bytes) : Except Malformed Header := do
  let ident := file.take 16
  if ident.length < 16 then throw .tooSmall
  let e ← identify ident
  let (values, _) ← fields e (widths e) (file.drop 16)
  return ofFields e values

end Header

structure ProgramHeader where
  type : Nat
  flags : Nat
  offset : UInt64
  address : UInt64
  fileSize : UInt64
  memorySize : UInt64
  deriving DecidableEq, Repr

namespace ProgramHeader

def load : Nat := 1

def dynamic : Nat := 2

def widths (e : Encoding) : List Nat :=
  if e.wide then [4, 4, 8, 8, 8, 8, 8, 8] else List.replicate 8 4

/-- The flags stand second in a 64-bit file and last but one in a 32-bit file. -/
def ofFields (e : Encoding) : List Nat → ProgramHeader
  | [a, b, c, d, f, g, h, i] =>
    if e.wide then
      ⟨a, b, UInt64.ofNat c, UInt64.ofNat d, UInt64.ofNat g, UInt64.ofNat h⟩
    else
      let _ := (f, i)
      ⟨a, h, UInt64.ofNat b, UInt64.ofNat c, UInt64.ofNat f, UInt64.ofNat g⟩
  | _ => ⟨0, 0, 0, 0, 0, 0⟩

def size (e : Encoding) : Nat := totalWidth (widths e)

def parseTable (file : Bytes) (h : Header) : Except Malformed (List ProgramHeader) := do
  if h.programCount > file.length / size h.encoding then
    throw (.tableTooLong h.programCount "program headers")
  if h.programCount = 0 then return []
  let rest ← openAt file h.programOffset
  let table ← records h.encoding (widths h.encoding) h.programCount rest
  return table.map (ofFields h.encoding)

/-- File offset of an address, through the first loadable segment that holds it. -/
def fileOffset? (programs : List ProgramHeader) (address : Nat) : Option Nat := do
  let p ← programs.find? fun p => p.type == load && p.address.toNat ≤ address &&
    address < p.address.toNat + p.memorySize.toNat
  let offset := p.offset.toNat + (address - p.address.toNat)
  if offset < UInt64.size then some offset else none

end ProgramHeader

structure SectionHeader where
  name : Nat
  type : Nat
  flags : UInt64
  address : UInt64
  offset : UInt64
  size : UInt64
  link : Nat
  alignment : UInt64
  entrySize : UInt64
  deriving DecidableEq, Repr

namespace SectionHeader

def symbolTable : Nat := 2

def relaTable : Nat := 4

def noBits : Nat := 8

def relTable : Nat := 9

def versionDefinitions : Nat := 0x6FFFFFFD

def versionNeeds : Nat := 0x6FFFFFFE

def versionIndices : Nat := 0x6FFFFFFF

def allocated : UInt64 := 2

def instructionFlag : UInt64 := 4

def widths (e : Encoding) : List Nat :=
  [4, 4, e.wordWidth, e.wordWidth, e.wordWidth, e.wordWidth, 4, 4, e.wordWidth, e.wordWidth]

def ofFields : List Nat → SectionHeader
  | [name, type, flags, address, offset, size, link, _, alignment, entrySize] =>
    ⟨name, type, UInt64.ofNat flags, UInt64.ofNat address, UInt64.ofNat offset, UInt64.ofNat size,
      link, UInt64.ofNat alignment, UInt64.ofNat entrySize⟩
  | _ => ⟨0, 0, 0, 0, 0, 0, 0, 0, 0⟩

def recordSize (e : Encoding) : Nat := totalWidth (widths e)

/-- The first header is read even if the table is said to be empty: it then holds the true
count. -/
def parseTable (file : Bytes) (h : Header) : Except Malformed (List SectionHeader) := do
  if h.sectionOffset = 0 then return []
  let rest ← openAt file h.sectionOffset
  let (values, rest) ← fields h.encoding (widths h.encoding) rest
  let first := ofFields values
  let count := if h.sectionCount = 0 then first.size.toNat else h.sectionCount
  if count > file.length / recordSize h.encoding then
    throw (.tableTooLong count "section headers")
  let others ← records h.encoding (widths h.encoding) (count - 1) rest
  return first :: others.map ofFields

/-- The bytes of the section must lie in the file, and its addresses in the address space. -/
def checkRange (s : SectionHeader) (fileLength : Nat) : Except Malformed Unit :=
  let fileEnd := s.offset.toNat + s.size.toNat
  if s.type = noBits ∨ s.size = 0 then .ok ()
  else if fileEnd ≥ UInt64.size ∨ fileEnd > fileLength then
    .error (.sectionRange s.name s.offset.toNat s.size.toNat (fileEnd ≥ UInt64.size))
  else if s.address.toNat + s.size.toNat ≥ UInt64.size then
    .error (.sectionAddress s.name s.address.toNat s.size.toNat)
  else .ok ()

end SectionHeader
end IndirectBranch.Elf
