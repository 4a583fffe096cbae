import IndirectBranch.Report.Basic

/-! The report for people to read. -/
namespace IndirectBranch

def padRight (width : Nat) (s : String) : String :=
  s ++ String.ofList (List.replicate (width - s.length) ' ')

namespace Finding

def listing (f : Finding) : String :=
  Text.hex f.address.toNat ++ ": " ++ Text.hexBytes " " f.instruction.bytes ++ "  " ++ f.text

def line (f : Finding) : String :=
  padRight 48 f.listing ++ " |  location: " ++ f.location ++
    if f.critical then "" else "  (allowed)"

end Finding

namespace SegmentScan

def lines (s : SegmentScan) : List String :=
  let last := saturate (s.base.toNat + s.length.toNat)
  [s!"Executable segment: {Text.hex s.base.toNat}..{Text.hex last} ({s.permissions.triplet})"] ++
    s.sections.map (fun name => s!"  - contains section {name}") ++
    [s!"  - length: {s.length.toNat} bytes",
      s!"Found {s.findings.length} indirect branches:"] ++
    s.findings.map (·.line)

end SegmentScan

namespace Outcome

/-- The lines about one file; the last one is blank. -/
def lines : Outcome → List String
  | .scanned scan _ =>
    [scan.path] ++ (if scan.segments.isEmpty then ["No executable segments"] else []) ++
      scan.segments.flatMap (·.lines) ++ [""]
  | .unverified path error =>
    [path, s!"  error: {error}", "  (file could not be verified; counted as failing)", ""]

end Outcome

namespace Report

def unlines (lines : List String) : String := String.join (lines.map (· ++ "\n"))

def file (o : Outcome) : String := unlines o.lines

def batch (outcomes : List Outcome) : String :=
  unlines (outcomes.flatMap (·.lines) ++ [(Summary.ofOutcomes outcomes).line])

end Report
end IndirectBranch
