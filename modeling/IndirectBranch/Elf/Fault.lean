import IndirectBranch.Text.Hex

/-! Why a file is not an object the auditor can read. -/
namespace IndirectBranch.Elf

inductive Malformed
  | tooSmall
  | magic (found : Nat)
  | unknownClass (found : UInt8)
  | unknownByteOrder (found : UInt8)
  | badOffset (offset : Nat)
  | tooBig (size remaining : Nat)
  | tableTooLong (count : Nat) (table : String)
  | sectionRange (name offset size : Nat) (wraps : Bool)
  | sectionAddress (name address size : Nat)
  | stringRange (size offset length : Nat) (wraps : Bool)
  | notUtf8 (remaining : Nat)
  | tooManySymbols (offset count : Nat)
  | dynamicRange (offset size : Nat)
  | hashTable (buckets firstSymbol bloom : Nat)
  deriving DecidableEq, Repr

open Text in
/-- Two texts give the offset where they speak of the size, and the size where they speak of the
offset or address; readers depend on it. -/
def Malformed.message : Malformed → String
  | .tooSmall => "Malformed entity: Too small"
  | .magic found => s!"Invalid magic number: {hex found}"
  | .unknownClass found => s!"Malformed entity: invalid ELF class {hexDigits found.toNat}"
  | .unknownByteOrder found =>
    s!"Malformed entity: invalid ELF endianness DATA type {hexDigits found.toNat}"
  | .badOffset offset => s!"bad offset {offset}"
  | .tooBig size remaining => s!"type is too big ({size}) for {remaining}"
  | .tableTooLong count table => s!"Buffer is too short for {count} {table}"
  | .sectionRange name offset size wraps =>
    s!"Malformed entity: Section {name} size ({offset}) + offset ({size}) is out of bounds. " ++
      s!"Overflowed: {wraps}"
  | .sectionAddress name address size =>
    s!"Malformed entity: Section {name} size ({address}) + addr ({size}) is out of bounds. " ++
      "Overflowed: true"
  | .stringRange size offset length wraps =>
    s!"Malformed entity: Strtable size ({size}) + offset ({offset}) is out of bounds for " ++
      s!"{length} #bytes. Overflowed: {wraps}"
  | .notUtf8 remaining => s!"bad input invalid utf8 ({remaining})"
  | .tooManySymbols offset count =>
    s!"Malformed entity: Too many ELF symbols (offset {hex offset}, count {count})"
  | .dynamicRange offset size =>
    s!"Malformed entity: Invalid PT_DYNAMIC size (offset {hex offset}, filesz {hex size})"
  | .hashTable buckets firstSymbol bloom =>
    s!"Malformed entity: Invalid DT_GNU_HASH: buckets_num={buckets} min_chain={firstSymbol} " ++
      s!"bloom_size={bloom}"

inductive Part
  | segment (index : Nat)
  | named (sectionName : String)
  deriving DecidableEq, Repr

def Part.text : Part → String
  | .segment index => s!"segment {index}"
  | .named name => s!"section {name}"

inductive Error
  | malformed (cause : Malformed)
  | wrongClass
  | wrongByteOrder
  | wrongMachine (machine : Nat)
  | outOfBounds (part : Part) (offset size fileLength : Nat)
  | addressOverflow (part : Part) (address size : Nat)
  deriving DecidableEq, Repr

open Text in
def Error.message : Error → String
  | .malformed cause => s!"not a valid ELF object: {cause.message}"
  | .wrongClass => "expected a 64-bit ELF object"
  | .wrongByteOrder => "expected a little-endian ELF object"
  | .wrongMachine machine => s!"expected an AArch64 object, found e_machine {hex machine}"
  | .outOfBounds part offset size fileLength =>
    s!"{part.text} data [{hex offset}, +{hex size}) lies outside the {fileLength}-byte file"
  | .addressOverflow part address size =>
    s!"{part.text} at {hex address} (+{hex size}) runs past the end of the address space"

end IndirectBranch.Elf
