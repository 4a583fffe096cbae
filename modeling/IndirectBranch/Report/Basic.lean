import IndirectBranch.Finding

/-! Outcomes of auditing files, and the verdict on a batch of them. -/
namespace IndirectBranch

/-- What became of one file: a scan, with the digest of the file if it was read from disk, or the
reason why it could not be verified. -/
inductive Outcome
  | scanned (scan : FileScan) (sha256 : Option String)
  | unverified (path error : String)
  deriving DecidableEq, Repr

namespace Outcome

def path : Outcome → String
  | .scanned scan _ => scan.path
  | .unverified path _ => path

def isScanned : Outcome → Bool
  | .scanned .. => true
  | .unverified .. => false

/-- A file fails if a critical branch remains, or if it could not be verified. -/
def failing : Outcome → Bool
  | .scanned scan _ => scan.hasCritical
  | .unverified .. => true

end Outcome

structure Summary where
  failingFiles : Nat
  totalFiles : Nat
  deriving DecidableEq, Repr

namespace Summary

def ofOutcomes (outcomes : List Outcome) : Summary :=
  ⟨outcomes.countP (·.failing), outcomes.length⟩

def passed (s : Summary) : Bool := s.failingFiles == 0

def exitCode (s : Summary) : Nat := if s.passed then 0 else 1

def line (s : Summary) : String :=
  s!"{s.failingFiles} / {s.totalFiles} files have indirect branches remaining"

end Summary
end IndirectBranch
