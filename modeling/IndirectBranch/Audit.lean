import IndirectBranch.Digest.Sha256
import IndirectBranch.Disassembly.Branch
import IndirectBranch.Elf.Image
import IndirectBranch.Files
import IndirectBranch.Log
import IndirectBranch.Policy.Basic
import IndirectBranch.Report.Basic
import IndirectBranch.Scan

/-! Auditing files: read, parse, scan, classify. -/
namespace IndirectBranch

inductive AuditError
  | unreadable (path : String) (cause : FileError)
  | unparsable (path : String) (cause : Elf.Error)
  deriving DecidableEq, Repr

def AuditError.message : AuditError → String
  | .unreadable path cause => s!"Failed to read {path}: {cause.message}"
  | .unparsable path cause => s!"Failed to parse {path}: {cause.message}"

structure Auditor where
  classes : OpcodeClasses
  exemptions : List Exemption
  disassembler : Disassembler

namespace Auditor

def forPolicy (p : Policy) (d : Disassembler) : Auditor := ⟨p.classes, p.exemptions, d⟩

/-- The disassembler asked for wins over the one of the policy. -/
def ofPolicy (p : Policy) (disassembler : Option String) : Except DisassemblyError Auditor := do
  let name := (disassembler.or p.disassembler).getD DisassemblerRegistry.defaultName
  let d ← DisassemblerRegistry.standard.create name
  return forPolicy p d

/-- Scans an image and classifies what is found, with the number of critical findings. -/
def classifyImage (a : Auditor) (path : String) (image : Image) : FileScan × Nat :=
  Exemption.classifyAll a.exemptions ⟨path, Scan.segments a.classes a.disassembler image⟩

def auditImage (a : Auditor) (path : String) (image : Image) : FileScan :=
  (a.classifyImage path image).1

def auditBytes (a : Auditor) (path : String) (bytes : Bytes) : Except AuditError FileScan :=
  match Elf.parseImage bytes with
  | .ok image => .ok (a.auditImage path image)
  | .error e => .error (.unparsable path e)

/-- Whatever goes wrong with a file is part of its outcome. -/
def auditFile (a : Auditor) (read : FileReader) (path : String) : Outcome :=
  match read path with
  | .error e => .unverified path (AuditError.unreadable path e).message
  | .ok bytes =>
    match a.auditBytes path bytes with
    | .ok scan => .scanned scan (some (Digest.sha256 bytes))
    | .error e => .unverified path e.message

def auditFiles (a : Auditor) (read : FileReader) (paths : List String) : List Outcome :=
  paths.map (a.auditFile read)

/-! The log of the same work. -/

def sightingEvents (a : Auditor) (symbols : SymbolIndex) (address : UInt64) (i : Instruction) :
    List Log.Event :=
  (match a.disassembler.render i.bytes address with
    | .ok _ => []
    | .error e => [.shownRaw e.message]) ++
  (if (Scan.finding a.classes a.disassembler symbols address i).unresolved
    then [.unresolved address] else [])

def segmentEvents (a : Auditor) (symbols : SymbolIndex) (s : Segment) : List Log.Event :=
  let tail := s.bytes.length % instructionWidth
  (if tail = 0 then [] else [.tailIgnored s.base tail]) ++
  (Scan.findings a.classes a.disassembler symbols s).flatMap
    (fun f => a.sightingEvents symbols f.address f.instruction) ++
  if Scan.stopsEarly a.classes s then [.segmentWraps s.base] else []

def imageEvents (a : Auditor) (path : String) (image : Image) : List Log.Event :=
  let (scan, critical) := a.classifyImage path image
  let symbols := SymbolIndex.ofTable image.symbols
  (if a.disassembler.name == Disassembler.mnemonic.name then [.disassemblerReady] else []) ++
  image.executableSegments.flatMap (a.segmentEvents symbols) ++
  [.classified scan.findings.length critical]

def fileEvents (a : Auditor) (read : FileReader) (path : String) : List Log.Event :=
  match read path with
  | .error e => [.skipped (AuditError.unreadable path e).message]
  | .ok bytes =>
    match Elf.parseImage bytes with
    | .error e => [.skipped (AuditError.unparsable path e).message]
    | .ok image =>
      [.imageParsed image.segments.length image.sections.length image.symbols.length] ++
      a.imageEvents path image ++ [.scanned (a.auditImage path image).criticalCount]

/-- The start of the audit, then one file after another. -/
def log (a : Auditor) (read : FileReader) (parallel : Bool) (paths : List String) :
    List Log.Entry :=
  ⟨none, .auditStarted paths.length a.classes.length a.disassembler.name parallel⟩ ::
    paths.flatMap fun path => (a.fileEvents read path).map fun e => ⟨some path, e⟩

end Auditor
end IndirectBranch
