import IndirectBranch.Json.Decoder
import IndirectBranch.Json.Printer
import IndirectBranch.Report.Basic

/-! The report for programs to read: scans and outcomes as JSON, and back. -/
namespace IndirectBranch

def Permissions.toJson (p : Permissions) : Json :=
  .obj [("read", .bool p.read), ("write", .bool p.write), ("execute", .bool p.execute)]

def Finding.toJson (f : Finding) : Json :=
  .obj [("address", .nat f.address.toNat),
    ("raw_bytes", .arr (f.instruction.bytes.map fun b => .nat b.toNat)),
    ("disassembly_text", .str f.text),
    ("symbol_name", .str f.symbol),
    ("symbol_offset", .nat f.offset.toNat),
    ("is_critical", .bool f.critical),
    ("classes", .arr (f.classes.map .str))]

def SegmentScan.toJson (s : SegmentScan) : Json :=
  .obj [("base_address", .nat s.base.toNat),
    ("length", .nat s.length.toNat),
    ("flags", s.permissions.toJson),
    ("sections", .arr (s.sections.map .str)),
    ("findings", .arr (s.findings.map (·.toJson)))]

def FileScan.toJson (s : FileScan) : Json :=
  .obj [("file_path", .str s.path), ("segments", .arr (s.segments.map (·.toJson)))]

/-- The digest is left out if there is none. -/
def Outcome.toJson : Outcome → Json
  | .scanned scan sha256 =>
    .obj ([("status", .str "scanned"), ("result", scan.toJson)] ++
      match sha256 with
      | some digest => [("sha256", .str digest)]
      | none => [])
  | .unverified path error =>
    .obj [("status", .str "unverified"), ("file_path", .str path), ("error", .str error)]

def Summary.toJson (s : Summary) : Json :=
  .obj [("failing_files", .nat s.failingFiles), ("total_files", .nat s.totalFiles)]

namespace Report

def toolVersion : String := "0.1.0"

def toJson (generatedAt : String) (outcomes : List Outcome) : Json :=
  .obj [("generated_at", .str generatedAt), ("tool_version", .str toolVersion),
    ("files", .arr (outcomes.map (·.toJson))),
    ("summary", (Summary.ofOutcomes outcomes).toJson)]

end Report

open Json.Decoder

structure Permissions.Draft where
  read : Option Bool := Option.none
  write : Option Bool := Option.none
  execute : Option Bool := Option.none

def Permissions.Draft.finish (d : Permissions.Draft) : Except Mismatch Permissions := do
  let read ← requiredField "read" d.read
  let write ← requiredField "write" d.write
  let execute ← requiredField "execute" d.execute
  return ⟨read, write, execute⟩

def Permissions.ofJson (surplus : Surplus) : Json.Decoder Permissions :=
  record surplus
    { what := "struct SegmentFlags"
      fields := [
        field "read" true flag fun v d => { d with read := some v },
        field "write" true flag fun v d => { d with write := some v },
        field "execute" true flag fun v d => { d with execute := some v }]
      start := ({} : Permissions.Draft)
      finish := Permissions.Draft.finish }

structure Finding.Draft where
  address : Option UInt64 := none
  instruction : Option Instruction := none
  text : Option String := none
  symbol : Option String := none
  offset : Option UInt64 := none
  critical : Option Bool := none
  classes : Option (List String) := none

def Finding.Draft.finish (d : Finding.Draft) : Except Mismatch Finding := do
  let address ← requiredField "address" d.address
  let instruction ← requiredField "raw_bytes" d.instruction
  let text ← requiredField "disassembly_text" d.text
  let symbol ← requiredField "symbol_name" d.symbol
  let offset ← requiredField "symbol_offset" d.offset
  let critical ← requiredField "is_critical" d.critical
  let classes ← requiredField "classes" d.classes
  return ⟨address, instruction, text, symbol, offset, critical, classes⟩

def Finding.ofJson (surplus : Surplus) : Json.Decoder Finding :=
  record surplus
    { what := "struct Finding"
      fields := [
        field "address" true number fun v d => { d with address := some v },
        field "raw_bytes" true (Json.Decoder.instruction surplus)
          fun v d => { d with instruction := some v },
        field "disassembly_text" true Json.Decoder.text fun v d => { d with text := some v },
        field "symbol_name" true Json.Decoder.text fun v d => { d with symbol := some v },
        field "symbol_offset" true number fun v d => { d with offset := some v },
        field "is_critical" true flag fun v d => { d with critical := some v },
        field "classes" true (list Json.Decoder.text) fun v d => { d with classes := some v }]
      start := ({} : Finding.Draft)
      finish := Finding.Draft.finish }

structure SegmentScan.Draft where
  base : Option UInt64 := none
  length : Option UInt64 := none
  permissions : Option Permissions := none
  sections : Option (List String) := none
  findings : Option (List Finding) := none

def SegmentScan.Draft.finish (d : SegmentScan.Draft) : Except Mismatch SegmentScan := do
  let base ← requiredField "base_address" d.base
  let length ← requiredField "length" d.length
  let permissions ← requiredField "flags" d.permissions
  let sections ← requiredField "sections" d.sections
  let findings ← requiredField "findings" d.findings
  return ⟨base, length, permissions, sections, findings⟩

def SegmentScan.ofJson (surplus : Surplus) : Json.Decoder SegmentScan :=
  record surplus
    { what := "struct SegmentScan"
      fields := [
        field "base_address" true number fun v d => { d with base := some v },
        field "length" true number fun v d => { d with length := some v },
        field "flags" true (Permissions.ofJson surplus) fun v d => { d with permissions := some v },
        field "sections" true (list Json.Decoder.text) fun v d => { d with sections := some v },
        field "findings" true (list (Finding.ofJson surplus))
          fun v d => { d with findings := some v }]
      start := ({} : SegmentScan.Draft)
      finish := SegmentScan.Draft.finish }

structure FileScan.Draft where
  path : Option String := none
  segments : Option (List SegmentScan) := none

def FileScan.Draft.finish (d : FileScan.Draft) : Except Mismatch FileScan := do
  let path ← requiredField "file_path" d.path
  let segments ← requiredField "segments" d.segments
  return ⟨path, segments⟩

def FileScan.ofJson (surplus : Surplus) : Json.Decoder FileScan :=
  record surplus
    { what := "struct ScanResult"
      fields := [
        field "file_path" true Json.Decoder.text fun v d => { d with path := some v },
        field "segments" true (list (SegmentScan.ofJson surplus))
          fun v d => { d with segments := some v }]
      start := ({} : FileScan.Draft)
      finish := FileScan.Draft.finish }

structure Summary.Draft where
  failingFiles : Option Nat := none
  totalFiles : Option Nat := none

def Summary.Draft.finish (d : Summary.Draft) : Except Mismatch Summary := do
  let failingFiles ← requiredField "failing_files" d.failingFiles
  let totalFiles ← requiredField "total_files" d.totalFiles
  return ⟨failingFiles, totalFiles⟩

def Summary.ofJson (surplus : Surplus) : Json.Decoder Summary :=
  record surplus
    { what := "struct BatchSummary"
      fields := [
        field "failing_files" true size fun v d => { d with failingFiles := some v },
        field "total_files" true size fun v d => { d with totalFiles := some v }]
      start := ({} : Summary.Draft)
      finish := Summary.Draft.finish }

namespace Outcome

structure ScannedDraft where
  scan : Option FileScan := none
  sha256 : Option String := none

def scannedOfJson : Json.Decoder Outcome :=
  record .counted
    { what := "struct variant FileOutcome::Scanned"
      fields := [
        field "result" true (FileScan.ofJson .counted) fun v d => { d with scan := some v },
        field "sha256" false optionalText fun v d => { d with sha256 := v }]
      start := ({} : ScannedDraft)
      finish := fun d => (requiredField "result" d.scan).map (.scanned · d.sha256) }

structure UnverifiedDraft where
  path : Option String := none
  error : Option String := none

def UnverifiedDraft.finish (d : UnverifiedDraft) : Except Mismatch Outcome := do
  let path ← requiredField "file_path" d.path
  let error ← requiredField "error" d.error
  return .unverified path error

def unverifiedOfJson : Json.Decoder Outcome :=
  record .counted
    { what := "struct variant FileOutcome::Unverified"
      fields := [
        field "file_path" true Json.Decoder.text fun v d => { d with path := some v },
        field "error" true Json.Decoder.text fun v d => { d with error := some v }]
      start := ({} : UnverifiedDraft)
      finish := UnverifiedDraft.finish }

/-- The status tells which kind of outcome the other values describe. -/
def ofStatus (status : Json) (rest : Json) : Except Mismatch Outcome :=
  match status with
  | .str "scanned" => scannedOfJson rest
  | .str "unverified" => unverifiedOfJson rest
  | .str other => .error (.unknownVariant other ["scanned", "unverified"])
  | v => mismatch .variantName v

/-- The status is a member of the object, or the first of a list of values. -/
def ofJson : Json.Decoder Outcome
  | .obj members =>
    match (members.filter (·.1 == "status")).getLast? with
    | none => .error (.missingField "status")
    | some (_, status) => ofStatus status (.obj (members.filter (·.1 != "status")))
  | .arr [] => .error (.missingField "status")
  | .arr (status :: rest) => ofStatus status (.arr rest)
  | v => mismatch (.record "internally tagged enum FileOutcome") v

def listOfJson : Json.Decoder (List Outcome) := list ofJson

end Outcome
end IndirectBranch
