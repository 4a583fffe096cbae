import IndirectBranch.SymbolIndex

/-! Indirect branches found in a binary. -/
namespace IndirectBranch

structure Finding where
  address : UInt64
  instruction : Instruction
  text : String
  symbol : String
  /-- Distance from the start of the symbol. -/
  offset : UInt64
  critical : Bool
  /-- Names of all opcode classes the word belongs to. -/
  classes : List String
  deriving DecidableEq, Repr

namespace Finding

def word (f : Finding) : UInt32 := f.instruction.word

/-- No symbol lies at or below the branch. -/
def unresolved (f : Finding) : Bool := f.symbol == SymbolIndex.unknownName

def location (f : Finding) : String := s!"{f.symbol} +{Text.hex f.offset.toNat}"

end Finding

structure SegmentScan where
  base : UInt64
  length : UInt64
  permissions : Permissions
  /-- Names of the sections that start inside the segment. -/
  sections : List String
  findings : List Finding
  deriving DecidableEq, Repr

structure FileScan where
  path : String
  segments : List SegmentScan
  deriving DecidableEq, Repr

namespace FileScan

/-- Findings in order of segment, then of address. -/
def findings (s : FileScan) : List Finding := s.segments.flatMap (·.findings)

def criticalCount (s : FileScan) : Nat := s.findings.countP (·.critical)

def hasCritical (s : FileScan) : Bool := s.findings.any (·.critical)

/-- Visits the findings in their order and puts back what comes of each. -/
def updateFindings {m : Type → Type} [Monad m] (update : Finding → m Finding) (s : FileScan) :
    m FileScan := do
  let segments ← s.segments.mapM fun segment => do
    return { segment with findings := ← segment.findings.mapM update }
  return { s with segments }

end FileScan
end IndirectBranch
