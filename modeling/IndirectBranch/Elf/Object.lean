import IndirectBranch.Elf.Dynamic

/-! An ELF file with all its tables decoded. -/
namespace IndirectBranch.Elf

structure Object where
  header : Header
  programs : List ProgramHeader
  sections : List SectionHeader
  sectionNames : StringTable
  symbols : List SymbolEntry
  symbolNames : StringTable
  dynamicSymbols : List SymbolEntry
  dynamicNames : StringTable
  deriving DecidableEq, Repr

namespace Object

/-- The last symbol table among the sections, with its names. -/
def staticSymbols (e : Encoding) (file : Bytes) (sections : List SectionHeader) :
    Except Malformed (List SymbolEntry × StringTable) :=
  match sections.reverse.find? (·.type == SectionHeader.symbolTable) with
  | none => .ok ([], .empty)
  | some s => do
    let count := if s.entrySize = 0 then 0 else s.size.toNat / s.entrySize.toNat
    let entries ← SymbolEntry.parseTable e file s.offset.toNat count
    let names ← StringTable.ofSection file sections s.link
    return (entries, names)

def checkRelocations (file : Bytes) : List SectionHeader → Except Malformed Unit
  | [] => .ok ()
  | s :: rest => do
    if s.type = SectionHeader.relaTable ∨ s.type = SectionHeader.relTable then
      s.checkRange file.length
      if s.size ≠ 0 then
        let _ ← slice file s.offset.toNat s.size.toNat
    checkRelocations file rest

/-- Of each kind of section about symbol versions, the first must lie in the file. -/
def checkVersions (file : Bytes) (sections : List SectionHeader) : Except Malformed Unit :=
  let kinds := [SectionHeader.versionIndices, SectionHeader.versionDefinitions,
    SectionHeader.versionNeeds]
  kinds.forM fun kind => do
    if let some s := sections.find? (·.type == kind) then
      let _ ← slice file s.offset.toNat s.size.toNat

/-- Parts are read in this order; the first that is malformed is reported. -/
def parse (file : Bytes) : Except Malformed Object := do
  let header ← Header.parse file
  let e := header.encoding
  let programs ← ProgramHeader.parseTable file header
  let sections ← SectionHeader.parseTable file header
  let sectionNames ← StringTable.ofSection file sections header.namesIndex
  let (symbols, symbolNames) ← staticSymbols e file sections
  let dynamic ← Dynamic.parse e file programs
  let (dynamicSymbols, dynamicNames) ←
    match dynamic with
    | none => pure ([], StringTable.empty)
    | some d => d.symbols e file programs
  checkRelocations file sections
  checkVersions file sections
  return ⟨header, programs, sections, sectionNames, symbols, symbolNames, dynamicSymbols,
    dynamicNames⟩

end Object
end IndirectBranch.Elf
