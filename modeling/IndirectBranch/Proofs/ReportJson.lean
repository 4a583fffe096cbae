import IndirectBranch.Command
import IndirectBranch.Proofs.JsonText

/-! The report for programs loses nothing. Every value of the report is decoded from what it is
encoded as; the text of the report, compact or indented, is read back as the value it was written
from; so the outcomes, the summary and with it the exit code can be had from the text alone. -/
namespace IndirectBranch

namespace Json.Decoder

@[simp] theorem requiredField_some {α : Type} (name : String) (a : α) :
    requiredField name (some a) = .ok a := rfl

@[simp] theorem text_str (s : String) : text (.str s) = .ok s := rfl

@[simp] theorem flag_bool (b : Bool) : flag (.bool b) = .ok b := rfl

@[simp] theorem number_toNat (n : UInt64) : number (.nat n.toNat) = .ok n := by
  simp [number, natural, n.toNat_lt_size, Except.map]

@[simp] theorem byte_toNat (b : UInt8) : byte (.nat b.toNat) = .ok b := by
  simp [byte, natural, b.toNat_lt_size, Except.map]

theorem size_nat {n : Nat} (h : n < UInt64.size) : size (.nat n) = .ok n := by
  simp [size, natural, h]

theorem list_map {α : Type} {item : Json.Decoder α} {encode : α → Json} {as : List α}
    (h : ∀ a ∈ as, item (encode a) = .ok a) : list item (.arr (as.map encode)) = .ok as := by
  simp only [list]
  induction as with
  | nil => rfl
  | cons a as ih =>
    obtain ⟨ha, has⟩ := List.forall_mem_cons.mp h
    simp [ha, ih has, bind, Except.bind, pure, Except.pure]

@[simp] theorem list_text (ss : List String) : list text (.arr (ss.map .str)) = .ok ss :=
  list_map fun _ _ => rfl

@[simp] theorem optionalText_str (s : String) : optionalText (.str s) = .ok (some s) := rfl

@[simp] theorem instruction_bytes (surplus : Surplus) (i : Instruction) :
    instruction surplus (.arr (i.bytes.map fun b => .nat b.toNat)) = .ok i := by
  simp [instruction, Instruction.bytes, bind, Except.bind, pure, Except.pure]

end Json.Decoder

open Json (Writable)
open Json.Decoder

theorem Permissions.ofJson_toJson (surplus : Surplus) (p : Permissions) :
    Permissions.ofJson surplus p.toJson = .ok p := by
  have hsorted (r w x : Json) : sortedMembers [("read", r), ("write", w), ("execute", x)] =
      [("execute", x), ("read", r), ("write", w)] := by
    simp [sortedMembers, List.mergeSort]
  simp [Permissions.ofJson, Permissions.toJson, record, hsorted, named, field,
    Permissions.Draft.finish, bind, Except.bind, pure, Except.pure, Except.map]

theorem Finding.ofJson_toJson (surplus : Surplus) (f : Finding) :
    Finding.ofJson surplus f.toJson = .ok f := by
  have hsorted (address bytes text symbol offset critical classes : Json) :
      sortedMembers [("address", address), ("raw_bytes", bytes), ("disassembly_text", text),
        ("symbol_name", symbol), ("symbol_offset", offset), ("is_critical", critical),
        ("classes", classes)] =
      [("address", address), ("classes", classes), ("disassembly_text", text),
        ("is_critical", critical), ("raw_bytes", bytes), ("symbol_name", symbol),
        ("symbol_offset", offset)] := by
    simp [sortedMembers, List.mergeSort]
  simp [Finding.ofJson, Finding.toJson, record, hsorted, named, field, Finding.Draft.finish,
    bind, Except.bind, pure, Except.pure, Except.map]

theorem SegmentScan.ofJson_toJson (surplus : Surplus) (s : SegmentScan) :
    SegmentScan.ofJson surplus s.toJson = .ok s := by
  have hsorted (base length flags sections findings : Json) :
      sortedMembers [("base_address", base), ("length", length), ("flags", flags),
        ("sections", sections), ("findings", findings)] =
      [("base_address", base), ("findings", findings), ("flags", flags), ("length", length),
        ("sections", sections)] := by
    simp [sortedMembers, List.mergeSort]
  have hfindings := list_map fun f (_ : f ∈ s.findings) => Finding.ofJson_toJson surplus f
  simp [SegmentScan.ofJson, SegmentScan.toJson, record, hsorted, named, field, hfindings,
    Permissions.ofJson_toJson, SegmentScan.Draft.finish, bind, Except.bind, pure, Except.pure,
    Except.map]

theorem FileScan.ofJson_toJson (surplus : Surplus) (s : FileScan) :
    FileScan.ofJson surplus s.toJson = .ok s := by
  have hsorted (path segments : Json) :
      sortedMembers [("file_path", path), ("segments", segments)] =
        [("file_path", path), ("segments", segments)] := by
    simp [sortedMembers, List.mergeSort]
  have hsegments := list_map fun t (_ : t ∈ s.segments) => SegmentScan.ofJson_toJson surplus t
  simp [FileScan.ofJson, FileScan.toJson, record, hsorted, named, field, hsegments,
    FileScan.Draft.finish, bind, Except.bind, pure, Except.pure, Except.map]

/-- The status is taken out of the object before the rest of it is read. -/
theorem Outcome.ofJson_toJson (o : Outcome) : Outcome.ofJson o.toJson = .ok o := by
  cases o with
  | scanned scan sha256 =>
    have hscan := FileScan.ofJson_toJson .counted scan
    cases sha256 with
    | none =>
      have hsorted (result : Json) : sortedMembers [("result", result)] = [("result", result)] := by
        simp [sortedMembers]
      simp [Outcome.ofJson, Outcome.toJson, Outcome.ofStatus, Outcome.scannedOfJson, record,
        hsorted, named, field, hscan, bind, Except.bind, Except.map]
    | some digest =>
      have hsorted (result sha256 : Json) :
          sortedMembers [("result", result), ("sha256", sha256)] =
            [("result", result), ("sha256", sha256)] := by
        simp [sortedMembers, List.mergeSort]
      simp [Outcome.ofJson, Outcome.toJson, Outcome.ofStatus, Outcome.scannedOfJson, record,
        hsorted, named, field, hscan, bind, Except.bind, Except.map]
  | unverified path error =>
    have hsorted (path error : Json) : sortedMembers [("file_path", path), ("error", error)] =
        [("error", error), ("file_path", path)] := by
      simp [sortedMembers, List.mergeSort]
    simp [Outcome.ofJson, Outcome.toJson, Outcome.ofStatus, Outcome.unverifiedOfJson, record,
      hsorted, named, field, Outcome.UnverifiedDraft.finish, bind, Except.bind, pure, Except.pure,
      Except.map]

theorem Outcome.listOfJson_map_toJson (os : List Outcome) :
    Outcome.listOfJson (.arr (os.map (·.toJson))) = .ok os :=
  list_map fun o _ => o.ofJson_toJson

theorem Summary.ofJson_toJson (surplus : Surplus) {s : Summary}
    (hfailing : s.failingFiles < UInt64.size) (htotal : s.totalFiles < UInt64.size) :
    Summary.ofJson surplus s.toJson = .ok s := by
  have hsorted (failing total : Json) :
      sortedMembers [("failing_files", failing), ("total_files", total)] =
        [("failing_files", failing), ("total_files", total)] := by
    simp [sortedMembers, List.mergeSort]
  simp [Summary.ofJson, Summary.toJson, record, hsorted, named, field, size_nat hfailing,
    size_nat htotal, Summary.Draft.finish, bind, Except.bind, pure, Except.pure, Except.map]

/-! What the report holds can be written: its numbers fit 64 bits, and it is less deep than the
reader goes. Each record adds the levels of the lists and records in it. -/

theorem Permissions.writable_toJson (depth : Nat) (p : Permissions) :
    Writable (depth + 2) p.toJson := by
  simp [Permissions.toJson, Writable]

theorem Finding.writable_toJson (depth : Nat) (f : Finding) : Writable (depth + 3) f.toJson := by
  have hbyte (b : UInt8) : b.toNat < UInt64.size := Nat.lt_trans b.toNat_lt_size (by decide)
  simp [Finding.toJson, Writable, hbyte, UInt64.toNat_lt_size]

theorem SegmentScan.writable_toJson (depth : Nat) (s : SegmentScan) :
    Writable (depth + 5) s.toJson := by
  have hpermissions := Permissions.writable_toJson (depth + 2) s.permissions
  have hfindings (f : Finding) := f.writable_toJson depth
  simp [SegmentScan.toJson, Writable, hpermissions, hfindings, UInt64.toNat_lt_size]

theorem FileScan.writable_toJson (depth : Nat) (s : FileScan) : Writable (depth + 7) s.toJson := by
  have hsegments (t : SegmentScan) := t.writable_toJson depth
  simp [FileScan.toJson, Writable, hsegments]

theorem Outcome.writable_toJson (depth : Nat) (o : Outcome) : Writable (depth + 8) o.toJson := by
  cases o with
  | scanned scan sha256 =>
    have hscan := scan.writable_toJson depth
    cases sha256 <;> simp [Outcome.toJson, Writable, hscan]
  | unverified path error => simp [Outcome.toJson, Writable]

theorem Outcome.writable_list (depth : Nat) (os : List Outcome) :
    Writable (depth + 9) (.arr (os.map (·.toJson))) := by
  have houtcomes (o : Outcome) := o.writable_toJson depth
  simp [Writable, houtcomes]

theorem Summary.ofOutcomes_lt {os : List Outcome} (h : os.length < UInt64.size) :
    (Summary.ofOutcomes os).failingFiles < UInt64.size ∧
      (Summary.ofOutcomes os).totalFiles < UInt64.size :=
  ⟨Nat.lt_of_le_of_lt List.countP_le_length h, h⟩

theorem Report.writable_toJson (depth : Nat) (generatedAt : String) {os : List Outcome}
    (h : os.length < UInt64.size) : Writable (depth + 10) (Report.toJson generatedAt os) := by
  have houtcomes (o : Outcome) := o.writable_toJson depth
  have hcounts := Summary.ofOutcomes_lt h
  simp [Report.toJson, Summary.toJson, Writable, houtcomes, hcounts]

def Json.member? (key : String) : Json → Option Json
  | .obj members => (members.find? (·.1 == key)).map (·.2)
  | _ => none

/-- The outcomes in a list that stands by itself. -/
def Outcome.readList? (text : String) : Option (List Outcome) :=
  (Json.parse text).toOption.bind fun v => (Outcome.listOfJson v).toOption

namespace Report

def readFiles? (text : String) : Option (List Outcome) := do
  let report ← (Json.parse text).toOption
  let files ← report.member? "files"
  (Outcome.listOfJson files).toOption

def readSummary? (text : String) : Option Summary := do
  let report ← (Json.parse text).toOption
  let summary ← report.member? "summary"
  (Summary.ofJson .fewer summary).toOption

theorem parse_jsonReport (generatedAt : String) {os : List Outcome} (h : os.length < UInt64.size) :
    Json.parse (Command.jsonReport generatedAt os) = .ok (toJson generatedAt os) :=
  Json.parse_pretty (writable_toJson 118 generatedAt h)

theorem readFiles?_jsonReport (generatedAt : String) {os : List Outcome}
    (h : os.length < UInt64.size) : readFiles? (Command.jsonReport generatedAt os) = some os := by
  have hfiles : (toJson generatedAt os).member? "files" = some (.arr (os.map (·.toJson))) := by
    simp [toJson, Json.member?]
  rw [readFiles?, parse_jsonReport generatedAt h]
  simp [Except.toOption, hfiles, Outcome.listOfJson_map_toJson]

theorem readSummary?_jsonReport (generatedAt : String) {os : List Outcome}
    (h : os.length < UInt64.size) :
    readSummary? (Command.jsonReport generatedAt os) = some (Summary.ofOutcomes os) := by
  obtain ⟨hfailing, htotal⟩ := Summary.ofOutcomes_lt h
  have hsummary : (toJson generatedAt os).member? "summary" =
      some (Summary.ofOutcomes os).toJson := by
    simp [toJson, Json.member?]
  rw [readSummary?, parse_jsonReport generatedAt h]
  simp [Except.toOption, hsummary, Summary.ofJson_toJson .fewer hfailing htotal]

/-- Outcomes are read back from their text, in a list by themselves and as the files of a report.
The summary of a report is that of the files read back from it, and it gives the exit code. A
report counts its files in 64 bits. -/
theorem json_lossless (os : List Outcome) :
    Outcome.readList? (Json.arr (os.map (·.toJson))).compact = some os ∧
      (os.length < UInt64.size → ∀ generatedAt : String,
        let report := Command.jsonReport generatedAt os
        readFiles? report = some os ∧
          readSummary? report = (readFiles? report).map Summary.ofOutcomes ∧
          (readSummary? report).map Summary.exitCode =
            some (Command.scanOutput generatedAt true os).code) := by
  constructor
  · rw [Outcome.readList?, Json.parse_compact (Outcome.writable_list 119 os)]
    simp [Except.toOption, Outcome.listOfJson_map_toJson]
  · intro h generatedAt report
    have hfiles : readFiles? report = some os := readFiles?_jsonReport generatedAt h
    have hsummary : readSummary? report = some (Summary.ofOutcomes os) :=
      readSummary?_jsonReport generatedAt h
    refine ⟨hfiles, ?_, ?_⟩
    · rw [hsummary, hfiles, Option.map_some]
    · rw [hsummary, Option.map_some]
      rfl

/-- Every kind of escape, the largest numbers, and outcomes with and without a digest. -/
def escapedOutcomes : List Outcome :=
  [.scanned
      ⟨"\"\\/\x00\x08\t\n\x0b\x0c\r\x1f\x7f\u2028😀",
        [⟨0xfffffffffffffffc, 0xffffffffffffffff, ⟨true, false, true⟩, ["", ",]"],
          [⟨0xfffffffffffffffc, ⟨0x00, 0x00, 0x3f, 0xd6⟩, "blr\tx0", "<unknown>", 0, true,
            ["blr", "\"status\":"]⟩]⟩]⟩
      none,
    .scanned ⟨"", []⟩ (some ""),
    .unverified "status" "scanned"]

theorem json_lossless_escaped :
    escapedOutcomes.length < UInt64.size ∧
      Outcome.readList? (Json.arr (escapedOutcomes.map (·.toJson))).compact =
        some escapedOutcomes ∧
      readFiles? (Command.jsonReport "" escapedOutcomes) = some escapedOutcomes ∧
      (readSummary? (Command.jsonReport "" escapedOutcomes)).map Summary.exitCode = some 1 := by
  have hlength : escapedOutcomes.length < UInt64.size := by decide
  obtain ⟨hlist, hreport⟩ := json_lossless escapedOutcomes
  obtain ⟨hfiles, -, hcode⟩ := hreport hlength ""
  exact ⟨hlength, hlist, hfiles, hcode⟩

end Report
end IndirectBranch
