import IndirectBranch.Elf.Object
import IndirectBranch.Image

/-! The image of an ELF file. A linked file maps its loadable segments; a relocatable object has
none, so its executable sections are laid out one after another. -/
namespace IndirectBranch.Elf

/-- Names such as `$x` or `$d.12` mark runs of code or data, not functions. -/
def isMappingName (name : String) : Bool :=
  match name.toList with
  | '$' :: kind :: rest =>
    (kind == 'x' || kind == 'd' || kind == 'a' || kind == 't') &&
      (rest.isEmpty || rest.head? == some '.')
  | _ => false

/-- Bytes of the file that a segment or section refers to. -/
def fileSlice (file : Bytes) (part : Part) (offset size : UInt64) : Except Error Bytes :=
  let length := file.length
  if offset.toNat + size.toNat ≤ length then .ok ((file.drop offset.toNat).take size.toNat)
  else .error (.outOfBounds part offset.toNat size.toNat length)

namespace SymbolEntry

/-- Name and address of a symbol worth keeping: defined here, not a file or section, and with a
proper name. `place` gives the address for a section index and a value. -/
def toSymbol? (names : StringTable) (place : Nat → UInt64 → Option UInt64) (s : SymbolEntry) :
    Option Symbol :=
  let name := names.nameAt s.name
  if s.sectionIndex = undefinedSection ∨ s.kind = fileKind ∨ s.kind = sectionKind ∨ name = "" ∨
      isMappingName name then none
  else (place s.sectionIndex s.value).map fun address => ⟨name, address⟩

end SymbolEntry

namespace Object

/-- Static symbols, then dynamic ones, in table order. -/
def placedSymbols (o : Object) (place : Nat → UInt64 → Option UInt64) : List Symbol :=
  o.symbols.filterMap (SymbolEntry.toSymbol? o.symbolNames place) ++
    o.dynamicSymbols.filterMap (SymbolEntry.toSymbol? o.dynamicNames place)

def permissions (flags : Nat) : Permissions :=
  { read := flags / 4 % 2 == 1, write := flags / 2 % 2 == 1, execute := flags % 2 == 1 }

/-- The segment of a loadable header. Only executable segments keep their bytes. -/
def loadSegment (file : Bytes) (p : ProgramHeader) (index : Nat) : Except Error Segment := do
  let size := max p.memorySize.toNat p.fileSize.toNat
  if p.address.toNat + size > lastAddress then
    throw (.addressOverflow (.segment index) p.address.toNat size)
  let permissions := permissions p.flags
  let bytes ←
    if permissions.execute then fileSlice file (.segment index) p.offset p.fileSize else pure []
  return (Segment.new p.address bytes permissions).withMemorySize size

def loadSegments (file : Bytes) : List (ProgramHeader × Nat) → Except Error (List Segment)
  | [] => .ok []
  | (p, index) :: rest => do
    if p.type = ProgramHeader.load then
      let s ← loadSegment file p index
      let others ← loadSegments file rest
      return s :: others
    else loadSegments file rest

/-- Named sections that occupy memory at a known address. -/
def linkedSections (o : Object) : List Section :=
  o.sections.filterMap fun s =>
    let name := o.sectionNames.nameAt s.name
    if s.address ≠ 0 ∧ s.flags &&& SectionHeader.allocated ≠ 0 ∧ name ≠ "" then
      some ⟨name, s.address, s.size⟩
    else none

def linkedImage (o : Object) (file : Bytes) : Except Error Image := do
  let segments ← loadSegments file o.programs.zipIdx
  return ⟨segments, o.linkedSections, o.placedSymbols fun _ value => some value⟩

/-- The least multiple of `alignment` that is not below `n`. -/
def roundUp (n alignment : Nat) : Nat := (n + alignment - 1) / alignment * alignment

/-- An alignment of zero is none. Alignment stops at the last address. -/
def alignUp (n alignment : Nat) : Nat := saturate (roundUp n (max alignment 1))

/-- An executable section laid out at `base`. -/
structure Placement where
  index : Nat
  base : UInt64
  name : String
  size : UInt64
  bytes : Bytes
  deriving DecidableEq, Repr

def isLaidOut (s : SectionHeader) : Bool :=
  let wanted := SectionHeader.allocated ||| SectionHeader.instructionFlag
  s.flags &&& wanted == wanted && s.type != SectionHeader.noBits

/-- Lays sections out from `cursor` on, each at its own alignment and at least at four. -/
def layOut (names : StringTable) (file : Bytes) (cursor : Nat) :
    List (SectionHeader × Nat) → Except Error (List Placement)
  | [] => .ok []
  | (s, index) :: rest => do
    if isLaidOut s then
      let name := names.nameAt s.name
      let bytes ← fileSlice file (.named name) s.offset s.size
      let base := alignUp cursor (max s.alignment.toNat 4)
      let others ← layOut names file (saturate (base + s.size.toNat)) rest
      return ⟨index, UInt64.ofNat base, name, s.size, bytes⟩ :: others
    else layOut names file cursor rest

/-- A symbol moves with the section that defines it. -/
def placeIn (placements : List Placement) (sectionIndex : Nat) (value : UInt64) :
    Option UInt64 := do
  let p ← placements.find? (·.index == sectionIndex)
  let address := p.base.toNat + value.toNat
  if address ≤ lastAddress then some (UInt64.ofNat address) else none

def relocatableImage (o : Object) (file : Bytes) : Except Error Image := do
  let placements ← layOut o.sectionNames file 0 o.sections.zipIdx
  return ⟨placements.map fun p => Segment.executable p.base p.bytes,
    placements.map fun p => ⟨p.name, p.base, p.size⟩,
    o.placedSymbols (placeIn placements)⟩

def isRelocatable (o : Object) : Bool :=
  o.header.type == Header.relocatable && o.programs.isEmpty

def toImage (o : Object) (file : Bytes) : Except Error Image :=
  if !o.header.encoding.wide then .error .wrongClass
  else if !o.header.encoding.little then .error .wrongByteOrder
  else if o.header.machine ≠ Header.aarch64 then .error (.wrongMachine o.header.machine)
  else if o.isRelocatable then o.relocatableImage file
  else o.linkedImage file

end Object

def parseImage (file : Bytes) : Except Error Image :=
  match Object.parse file with
  | .error cause => .error (.malformed cause)
  | .ok o => o.toImage file

end IndirectBranch.Elf
