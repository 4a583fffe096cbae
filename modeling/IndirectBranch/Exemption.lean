import IndirectBranch.Finding

/-! Exemptions: start-up code whose branches are allowed. -/
namespace IndirectBranch

/-- Allows branches in the first `maxOffset` bytes of `symbol`. -/
structure Exemption where
  symbol : String
  maxOffset : UInt64
  deriving DecidableEq, Repr

namespace Exemption

def covers (e : Exemption) (f : Finding) : Bool :=
  f.symbol == e.symbol && f.offset ≤ e.maxOffset

/-- The routines that run before the program proper. -/
def standard : List Exemption := [⟨"libc_start_init", 0x100⟩, ⟨"libc_exit_fini", 0x100⟩]

/-- An unresolved finding is critical whatever is exempt: nothing shows where it lies. -/
def isCritical (exemptions : List Exemption) (f : Finding) : Bool :=
  f.unresolved || !exemptions.any (·.covers f)

def classify (exemptions : List Exemption) (f : Finding) : Finding :=
  { f with critical := isCritical exemptions f }

def classifySegment (exemptions : List Exemption) (s : SegmentScan) : SegmentScan :=
  { s with findings := s.findings.map (classify exemptions) }

def classifyFile (exemptions : List Exemption) (s : FileScan) : FileScan :=
  { s with segments := s.segments.map (classifySegment exemptions) }

/-- Stores the verdict on a finding, and counts it if it is critical. -/
def tally (exemptions : List Exemption) (f : Finding) : StateM Nat Finding := do
  let g := classify exemptions f
  modify fun count => if g.critical then count + 1 else count
  return g

/-- Reclassifies every finding in one pass, which also counts the critical ones. -/
def classifyAll (exemptions : List Exemption) (s : FileScan) : FileScan × Nat :=
  (s.updateFindings (tally exemptions)).run 0

end Exemption
end IndirectBranch
