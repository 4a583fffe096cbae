import IndirectBranch.Proofs.ObjectFile
import IndirectBranch.Proofs.Verdict

/-! Presentation data does not reach the verdict. Two audits for the same classes and exemptions, of
images that hold the same code, agree on everything but the text of the instructions and the names
of the sections: what the disassembler says, where it fails, how sections are named and what lies in
memory besides the code makes no difference to what is found and what is critical. -/
namespace IndirectBranch

/-- What a scan looks at in a segment. -/
def Segment.code (s : Segment) : UInt64 × Bytes × Permissions := (s.base, s.bytes, s.permissions)

/-- The same symbols and the same executable segments, up to their size in memory. Sections and
other segments are free. -/
structure Image.SameCode (i j : Image) : Prop where
  symbols : i.symbols = j.symbols
  segments : i.executableSegments.map Segment.code = j.executableSegments.map Segment.code

def Finding.SameBranch (f g : Finding) : Prop := f = { g with text := f.text }

structure SegmentScan.SameBranches (s t : SegmentScan) : Prop where
  base : s.base = t.base
  length : s.length = t.length
  permissions : s.permissions = t.permissions
  findings : List.Forall₂ Finding.SameBranch s.findings t.findings

theorem Finding.SameBranch.critical {f g : Finding} (h : f.SameBranch g) :
    f.critical = g.critical := by
  rw [h]

theorem Finding.SameBranch.classify {f g : Finding} (h : f.SameBranch g)
    (exemptions : List Exemption) :
    (Exemption.classify exemptions f).SameBranch (Exemption.classify exemptions g) := by
  have hcritical : Exemption.isCritical exemptions f = Exemption.isCritical exemptions g := by
    rw [h]
    rfl
  unfold Finding.SameBranch Exemption.classify at *
  rw [hcritical]
  exact congrArg (fun f : Finding => { f with critical := Exemption.isCritical exemptions g }) h

theorem Scan.sameBranch_finding (classes : OpcodeClasses) (d d' : Disassembler)
    (symbols : SymbolIndex) (address : UInt64) (i : Instruction) :
    (finding classes d symbols address i).SameBranch (finding classes d' symbols address i) :=
  rfl

/-- A disassembler shows the branches that are found, but has no part in finding them. -/
theorem Scan.sameBranch_findings (classes : OpcodeClasses) (d d' : Disassembler)
    (symbols : SymbolIndex) {s t : Segment} (h : s.code = t.code) :
    List.Forall₂ Finding.SameBranch (findings classes d symbols s)
      (findings classes d' symbols t) := by
  obtain ⟨hbase, hbytes, -⟩ :
      s.base = t.base ∧ s.bytes = t.bytes ∧ s.permissions = t.permissions := by
    simpa [Segment.code] using h
  have hsightings : sightings classes s = sightings classes t := by
    rw [sightings, sightings, hbytes]
  let places := (sightings classes t).filterMap fun sighting =>
    (address? t.base sighting.2).map fun address => (address, sighting.1)
  have hplaces (e : Disassembler) : findings classes e symbols t =
      places.map fun place => finding classes e symbols place.1 place.2 := by
    simp only [findings_eq, places, List.map_filterMap, Option.map_map]
    rfl
  have hsame : findings classes d symbols s = findings classes d symbols t := by
    rw [findings_eq, findings_eq, hsightings, hbase]
  rw [hsame, hplaces d, hplaces d', List.forall₂_map_left_iff, List.forall₂_map_right_iff,
    List.forall₂_same]
  exact fun place _ => sameBranch_finding classes d d' symbols place.1 place.2

namespace Auditor

theorem sameBranches_auditSegment (classes : OpcodeClasses) (exemptions : List Exemption)
    (d d' : Disassembler) {i j : Image} (hsymbols : i.symbols = j.symbols) {s t : Segment}
    (hcode : s.code = t.code) :
    (auditSegment ⟨classes, exemptions, d⟩ i s).SameBranches
      (auditSegment ⟨classes, exemptions, d'⟩ j t) := by
  obtain ⟨hbase, hbytes, hpermissions⟩ :
      s.base = t.base ∧ s.bytes = t.bytes ∧ s.permissions = t.permissions := by
    simpa [Segment.code] using hcode
  refine ⟨hbase, congrArg (fun b : Bytes => UInt64.ofNat b.length) hbytes, hpermissions, ?_⟩
  simp only [auditSegment, Exemption.classifySegment, Scan.segment, hsymbols,
    List.forall₂_map_left_iff, List.forall₂_map_right_iff]
  exact (Scan.sameBranch_findings classes d d' _ hcode).imp fun f g h => h.classify exemptions

/-- The scans of images with the same code agree segment by segment. -/
theorem sameBranches_auditImage (classes : OpcodeClasses) (exemptions : List Exemption)
    (d d' : Disassembler) (path path' : String) {i j : Image} (h : i.SameCode j) :
    List.Forall₂ SegmentScan.SameBranches (auditImage ⟨classes, exemptions, d⟩ path i).segments
      (auditImage ⟨classes, exemptions, d'⟩ path' j).segments := by
  have hcode : List.Forall₂ (fun s t => Segment.code s = Segment.code t) i.executableSegments
      j.executableSegments := by
    rw [← List.forall₂_map_right_iff, ← List.forall₂_map_left_iff, List.forall₂_eq_eq_eq]
    exact h.segments
  rw [segments_auditImage, segments_auditImage, List.forall₂_map_left_iff,
    List.forall₂_map_right_iff]
  exact hcode.imp fun s t hst => sameBranches_auditSegment classes exemptions d d' h.symbols hst

end Auditor

theorem FileScan.hasCritical_eq_of_sameBranches {s t : FileScan}
    (h : List.Forall₂ SegmentScan.SameBranches s.segments t.segments) :
    s.hasCritical = t.hasCritical :=
  hasCritical_congr (h.imp fun _ _ hst => hst.findings.imp fun _ _ hfg => hfg.critical)

/-- The file can be read, and `image` is what it holds. -/
def FileReader.Holds (read : FileReader) (path : String) (image : Image) : Prop :=
  ∃ bytes, read path = .ok bytes ∧ Elf.parseImage bytes = .ok image

/-- Two files with the same code, or two of which neither can be read and parsed. -/
inductive FileReader.SameCode (read read' : FileReader) (path path' : String) : Prop
  | held {i j : Image} (hi : read.Holds path i) (hj : read'.Holds path' j) (h : i.SameCode j)
  | unverified (hi : ∀ i, ¬ read.Holds path i) (hj : ∀ j, ¬ read'.Holds path' j)

namespace Auditor

theorem failing_of_holds {a : Auditor} {read : FileReader} {path : String} {image : Image}
    (h : read.Holds path image) :
    (a.auditFile read path).failing = (a.auditImage path image).hasCritical := by
  obtain ⟨bytes, hread, hparse⟩ := h
  simp only [auditFile, hread, auditBytes, hparse, Outcome.failing]

theorem failing_of_not_holds {a : Auditor} {read : FileReader} {path : String}
    (h : ∀ image, ¬ read.Holds path image) : (a.auditFile read path).failing = true := by
  rw [failing_auditFile_iff]
  rintro ⟨bytes, image, hread, hparse, -⟩
  exact h image ⟨bytes, hread, hparse⟩

theorem failing_congr (classes : OpcodeClasses) (exemptions : List Exemption)
    (d d' : Disassembler) {read read' : FileReader} {path path' : String}
    (h : FileReader.SameCode read read' path path') :
    (auditFile ⟨classes, exemptions, d⟩ read path).failing =
      (auditFile ⟨classes, exemptions, d'⟩ read' path').failing := by
  cases h with
  | held hi hj hcode =>
    rw [failing_of_holds hi, failing_of_holds hj]
    exact FileScan.hasCritical_eq_of_sameBranches
      (sameBranches_auditImage classes exemptions d d' path path' hcode)
  | unverified hi hj => rw [failing_of_not_holds hi, failing_of_not_holds hj]

theorem summary_congr (classes : OpcodeClasses) (exemptions : List Exemption)
    (d d' : Disassembler) {read read' : FileReader} {paths paths' : List String}
    (h : List.Forall₂ (FileReader.SameCode read read') paths paths') :
    Summary.ofOutcomes (auditFiles ⟨classes, exemptions, d⟩ read paths) =
      Summary.ofOutcomes (auditFiles ⟨classes, exemptions, d'⟩ read' paths') := by
  have hfailing : paths.map (fun path => (auditFile ⟨classes, exemptions, d⟩ read path).failing) =
      paths'.map (fun path => (auditFile ⟨classes, exemptions, d'⟩ read' path).failing) :=
    map_eq_map_of_forall₂ h fun path path' => failing_congr classes exemptions d d'
  have hsummary (a : Auditor) (r : FileReader) (ps : List String) :
      Summary.ofOutcomes (a.auditFiles r ps) =
        ⟨(ps.map fun path => (a.auditFile r path).failing).countP id, ps.length⟩ := by
    simp [Summary.ofOutcomes, auditFiles, List.countP_map, Function.comp_def]
  rw [hsummary, hsummary, hfailing, h.length_eq]

end Auditor

/-- For given classes and exemptions, let two audits use any two disassemblers, on images with the
same symbols and the same executable segments. They scan the same segments, their findings agree one
by one in all but the text, and so the verdict is the same. Batches of such files, where files that
cannot be verified stand opposite one another, have the same exit code. -/
theorem verdict_ignores_presentation (classes : OpcodeClasses) (exemptions : List Exemption)
    (d d' : Disassembler) :
    (∀ (path path' : String) (i j : Image), i.SameCode j →
      let scan := Auditor.auditImage ⟨classes, exemptions, d⟩ path i
      let scan' := Auditor.auditImage ⟨classes, exemptions, d'⟩ path' j
      scan.segments.length = scan'.segments.length ∧
        List.Forall₂ SegmentScan.SameBranches scan.segments scan'.segments ∧
        scan.hasCritical = scan'.hasCritical) ∧
    ∀ (read read' : FileReader) (paths paths' : List String),
      List.Forall₂ (FileReader.SameCode read read') paths paths' →
      (Summary.ofOutcomes (Auditor.auditFiles ⟨classes, exemptions, d⟩ read paths)).exitCode =
        (Summary.ofOutcomes
          (Auditor.auditFiles ⟨classes, exemptions, d'⟩ read' paths')).exitCode := by
  constructor
  · intro path path' i j h
    have hscan := Auditor.sameBranches_auditImage classes exemptions d d' path path' h
    exact ⟨hscan.length_eq, hscan, FileScan.hasCritical_eq_of_sameBranches hscan⟩
  · intro read read' paths paths' h
    rw [Auditor.summary_congr classes exemptions d d' h]

/-- One `blr`, shown by a disassembler that knows it and by one that always fails: in an image with
a section and a data segment and in one without, and in files with and without a string table, next
to a file that is not there. -/
theorem verdict_ignores_presentation_blr :
    let broken : Disassembler :=
      ⟨"broken", fun bytes address => .error (.undecodable address bytes "")⟩
    let blr : Segment := .executable 0x1000 [0, 0, 0x3F, 0xD6]
    let i : Image := ⟨[.new 0x2000 [1, 2] ⟨true, true, false⟩, blr], [⟨".text", 0x1000, 4⟩],
      [⟨"main", 0x1000⟩]⟩
    let j : Image := ⟨[blr.withMemorySize 64], [], [⟨"main", 0x1000⟩]⟩
    let read (parts : List Elf.SectionPart) : FileReader := fun path =>
      if path = "a.o" then .ok (Elf.relocatableFile parts) else .error .notFound
    let auditor (d : Disassembler) : Auditor := ⟨.indirectBranches, Exemption.standard, d⟩
    i ≠ j ∧
      List.Forall₂ SegmentScan.SameBranches ((auditor .mnemonic).auditImage "i" i).segments
        ((auditor broken).auditImage "j" j).segments ∧
      ((auditor .mnemonic).auditImage "i" i).hasCritical =
        ((auditor broken).auditImage "j" j).hasCritical ∧
      (Summary.ofOutcomes ((auditor .mnemonic).auditFiles (read [.code 4 [0xD63F0000]])
        ["a.o", "b.o"])).exitCode =
        (Summary.ofOutcomes ((auditor broken).auditFiles
          (read [.code 4 [0xD63F0000], .strings ["main"]]) ["a.o", "c.o"])).exitCode := by
  intro broken blr i j read auditor
  obtain ⟨himage, hbatch⟩ := verdict_ignores_presentation .indirectBranches Exemption.standard
    .mnemonic broken
  obtain ⟨-, hsame, hcritical⟩ := himage "i" "j" i j ⟨rfl, by decide⟩
  have hfirst : (read [.code 4 [0xD63F0000]]).Holds "a.o"
      ⟨[.executable 0 [0, 0, 0x3F, 0xD6]], [⟨"", 0, 4⟩], []⟩ :=
    ⟨_, rfl, by decide +kernel⟩
  have hsecond : (read [.code 4 [0xD63F0000], .strings ["main"]]).Holds "a.o"
      ⟨[.executable 0 [0, 0, 0x3F, 0xD6]], [⟨"", 0, 4⟩], []⟩ :=
    ⟨_, rfl, by decide +kernel⟩
  have hmissing (parts : List Elf.SectionPart) (path : String) (hpath : path ≠ "a.o")
      (image : Image) : ¬ (read parts).Holds path image := by
    rintro ⟨bytes, hbytes, -⟩
    simp [read, hpath] at hbytes
  refine ⟨by decide, hsame, hcritical, hbatch _ _ _ _ ?_⟩
  exact .cons (.held hfirst hsecond ⟨rfl, rfl⟩)
    (.cons (.unverified (hmissing _ _ (by decide)) (hmissing _ _ (by decide))) .nil)

end IndirectBranch
