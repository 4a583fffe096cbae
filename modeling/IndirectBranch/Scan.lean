import IndirectBranch.Disassembly
import IndirectBranch.Finding
import IndirectBranch.Opcode

/-! Scanning the executable segments of an image for words of the given opcode classes. -/
namespace IndirectBranch.Scan

/-- Instructions that belong to some class, with their index in the segment. -/
def sightings (classes : OpcodeClasses) (s : Segment) : List (Instruction × Nat) :=
  (instructions s.bytes).zipIdx.filter fun (i, _) => classes.hasMatch i.word

/-- Address of the instruction at `index`, unless it lies past the last address. -/
def address? (base : UInt64) (index : Nat) : Option UInt64 :=
  let n := base.toNat + instructionWidth * index
  if n ≤ lastAddress then some (UInt64.ofNat n) else none

/-- Findings are critical until an exemption says otherwise. -/
def finding (classes : OpcodeClasses) (d : Disassembler) (symbols : SymbolIndex)
    (address : UInt64) (i : Instruction) : Finding :=
  let place := symbols.resolveOrUnknown address
  { address, instruction := i
    text := d.textOrRaw i.bytes address
    symbol := place.1
    offset := place.2
    critical := true
    classes := classes.namesFor i.word }

/-- The scan stops at the first sighting whose address wraps around. -/
def findings (classes : OpcodeClasses) (d : Disassembler) (symbols : SymbolIndex) (s : Segment) :
    List Finding :=
  let inRange := (sightings classes s).takeWhile fun (_, index) => (address? s.base index).isSome
  inRange.filterMap fun (i, index) =>
    (address? s.base index).map fun address => finding classes d symbols address i

def stopsEarly (classes : OpcodeClasses) (s : Segment) : Bool :=
  (sightings classes s).any fun (_, index) => (address? s.base index).isNone

def segment (classes : OpcodeClasses) (d : Disassembler) (symbols : SymbolIndex) (image : Image)
    (s : Segment) : SegmentScan :=
  { base := s.base
    length := UInt64.ofNat s.bytes.length
    permissions := s.permissions
    sections := image.sectionsIn s
    findings := findings classes d symbols s }

def segments (classes : OpcodeClasses) (d : Disassembler) (image : Image) : List SegmentScan :=
  let symbols := SymbolIndex.ofTable image.symbols
  image.executableSegments.map (segment classes d symbols image)

/-- All findings of an image, in order. -/
def flat (classes : OpcodeClasses) (d : Disassembler) (image : Image) : List Finding :=
  (segments classes d image).flatMap (·.findings)

end IndirectBranch.Scan
