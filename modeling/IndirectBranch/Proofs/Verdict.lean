import Mathlib.Data.List.Forall2
import IndirectBranch.Audit
import IndirectBranch.Proofs.Classification
import IndirectBranch.Proofs.NearestSymbol
import IndirectBranch.Proofs.Scan

/-! The verdict on an image and on a batch of files. A branch remains if its word belongs to a class
that is looked for, it has an address, and no exemption lets it pass; a file passes exactly if it
can be read and parsed and no branch remains in it. -/
namespace IndirectBranch

/-- An exemption lets a branch at `address` pass: the nearest symbol is a proper one, and the
branch lies in its first bytes. -/
def Exempt (exemptions : List Exemption) (table : List Symbol) (address : Nat) : Prop :=
  ∃ s, Nearest table address s ∧ s.name ≠ SymbolIndex.unknownName ∧
    ∃ e ∈ exemptions, s.name = e.symbol ∧ address - s.address.toNat ≤ e.maxOffset.toNat

/-- Word `i` of the segment belongs to a class that is looked for. It is complete, and it lies at
an address. -/
structure Branches (classes : OpcodeClasses) (s : Segment) (i : Nat) : Prop where
  complete : instructionWidth * i + instructionWidth ≤ s.bytes.length
  addressed : s.base.toNat + instructionWidth * i ≤ lastAddress
  matched : ∃ c ∈ classes, wordAt s.bytes (instructionWidth * i) &&& c.mask = c.bits

/-- Some branch of the image is not exempt. -/
def Image.Unprotected (image : Image) (classes : OpcodeClasses) (exemptions : List Exemption) :
    Prop :=
  ∃ s ∈ image.segments, s.permissions.execute = true ∧ ∃ i, Branches classes s i ∧
    ¬ Exempt exemptions image.symbols (s.base.toNat + instructionWidth * i)

theorem OpcodeClasses.hasMatch_iff {classes : OpcodeClasses} {word : UInt32} :
    classes.hasMatch word = true ↔ ∃ c ∈ classes, word &&& c.mask = c.bits := by
  simp [OpcodeClasses.hasMatch, OpcodeClass.contains]

/-- What is critical does not depend on the classes and the text of the finding. -/
theorem isCritical_finding_iff {exemptions : List Exemption} {classes : OpcodeClasses}
    {d : Disassembler} {table : List Symbol} {address : UInt64} {ins : Instruction} :
    Exemption.isCritical exemptions (Scan.finding classes d (.ofTable table) address ins) = true ↔
      ¬ Exempt exemptions table address.toNat := by
  simp only [Exemption.isCritical, Finding.unresolved, Scan.finding,
    SymbolIndex.resolveOrUnknown_eq]
  cases h : (SymbolIndex.ofTable table).nearest? address with
  | none =>
    have hnone : ¬ Exempt exemptions table address.toNat := by
      rintro ⟨s, hs, -⟩
      rw [SymbolIndex.nearest?_eq_some_iff.mpr hs] at h
      cases h
    simp [hnone]
  | some s =>
    have hs := SymbolIndex.nearest?_eq_some_iff.mp h
    have hoffset : (address - s.address).toNat = address.toNat - s.address.toNat :=
      UInt64.toNat_sub_of_le _ _ (UInt64.le_iff_toNat_le.mpr hs.below)
    have hexempt : Exempt exemptions table address.toNat ↔ s.name ≠ SymbolIndex.unknownName ∧
        ∃ e ∈ exemptions, s.name = e.symbol ∧
          address.toNat - s.address.toNat ≤ e.maxOffset.toNat := by
      constructor
      · rintro ⟨t, ht, hrest⟩
        exact hs.unique ht ▸ hrest
      · exact fun hrest => ⟨s, hs, hrest⟩
    rw [hexempt, ← hoffset]
    simp [Exemption.covers, UInt64.le_iff_toNat_le, Classical.or_iff_not_imp_left]

namespace Auditor

def auditSegment (a : Auditor) (image : Image) (s : Segment) : SegmentScan :=
  Exemption.classifySegment a.exemptions
    (Scan.segment a.classes a.disassembler (.ofTable image.symbols) image s)

theorem auditImage_eq (a : Auditor) (path : String) (image : Image) :
    a.auditImage path image = Exemption.classifyFile a.exemptions
      ⟨path, Scan.segments a.classes a.disassembler image⟩ := by
  rw [auditImage, classifyImage, Exemption.classifyAll_eq]

theorem segments_auditImage (a : Auditor) (path : String) (image : Image) :
    (a.auditImage path image).segments = image.executableSegments.map (a.auditSegment image) := by
  simp [auditImage_eq, Exemption.classifyFile, Scan.segments, auditSegment, Function.comp_def]

theorem getElem?_segments_auditImage {a : Auditor} {path : String} {image : Image} {k : Nat}
    {t : SegmentScan} :
    (a.auditImage path image).segments[k]? = some t ↔
      ∃ s, image.executableSegments[k]? = some s ∧ a.auditSegment image s = t := by
  rw [segments_auditImage, List.getElem?_map, Option.map_eq_some_iff]

theorem mem_auditSegment_iff {a : Auditor} {image : Image} {s : Segment} {f : Finding} :
    f ∈ (a.auditSegment image s).findings ↔
      ∃ ins index address, (instructions s.bytes)[index]? = some ins ∧
        a.classes.hasMatch ins.word = true ∧
        address.toNat = s.base.toNat + instructionWidth * index ∧
        f = Exemption.classify a.exemptions
          (Scan.finding a.classes a.disassembler (.ofTable image.symbols) address ins) := by
  simp only [auditSegment, Exemption.classifySegment, Scan.segment, List.mem_map,
    Scan.mem_findings_iff]
  constructor
  · rintro ⟨g, ⟨ins, index, address, hins, hmatch, haddress, rfl⟩, rfl⟩
    exact ⟨ins, index, address, hins, hmatch, haddress, rfl⟩
  · rintro ⟨ins, index, address, hins, hmatch, haddress, rfl⟩
    exact ⟨_, ⟨ins, index, address, hins, hmatch, haddress, rfl⟩, rfl⟩

/-- A segment has a finding at each branch, and it is critical unless the branch is exempt. -/
theorem exists_finding_iff {a : Auditor} {image : Image} {s : Segment} {address : UInt64}
    {critical : Bool} :
    (∃ f ∈ (a.auditSegment image s).findings, f.address = address ∧ f.critical = critical) ↔
      ∃ i, address.toNat = s.base.toNat + instructionWidth * i ∧ Branches a.classes s i ∧
        (critical = true ↔ ¬ Exempt a.exemptions image.symbols address.toNat) := by
  constructor
  · rintro ⟨f, hf, rfl, rfl⟩
    obtain ⟨ins, i, address, hins, hmatch, haddress, rfl⟩ := mem_auditSegment_iff.mp hf
    refine ⟨i, haddress, ⟨exists_instruction_iff.mp ⟨ins, hins⟩, ?_, ?_⟩, ?_⟩
    · exact haddress ▸ toNat_le_lastAddress address
    · exact word_of_getElem? hins ▸ OpcodeClasses.hasMatch_iff.mp hmatch
    · exact isCritical_finding_iff
  · rintro ⟨i, haddress, hbranch, hcritical⟩
    obtain ⟨ins, hins⟩ := exists_instruction_iff.mpr hbranch.complete
    refine ⟨_, mem_auditSegment_iff.mpr ⟨ins, i, address, hins, ?_, haddress, rfl⟩, rfl, ?_⟩
    · exact OpcodeClasses.hasMatch_iff.mpr (word_of_getElem? hins ▸ hbranch.matched)
    · rw [Bool.eq_iff_iff, hcritical]
      exact isCritical_finding_iff

theorem hasCritical_auditImage_iff {a : Auditor} {path : String} {image : Image} :
    (a.auditImage path image).hasCritical = true ↔
      image.Unprotected a.classes a.exemptions := by
  have hsegments : (a.auditImage path image).hasCritical = true ↔
      ∃ s ∈ image.segments, s.permissions.execute = true ∧
        ∃ f ∈ (a.auditSegment image s).findings, f.critical = true := by
    simp [FileScan.hasCritical, FileScan.findings, segments_auditImage,
      Image.executableSegments]
  rw [hsegments]
  unfold Image.Unprotected
  refine exists_congr fun s => and_congr_right fun _ => and_congr_right fun _ => ?_
  constructor
  · rintro ⟨f, hf, hcritical⟩
    obtain ⟨i, haddress, hbranch, hexempt⟩ :=
      exists_finding_iff.mp ⟨f, hf, rfl, hcritical⟩
    exact ⟨i, hbranch, haddress ▸ hexempt.mp rfl⟩
  · rintro ⟨i, hbranch, hexempt⟩
    have haddress := toNat_ofNat_of_le hbranch.addressed
    obtain ⟨f, hf, -, hcritical⟩ : ∃ f ∈ (a.auditSegment image s).findings,
        f.address = UInt64.ofNat (s.base.toNat + instructionWidth * i) ∧ f.critical = true :=
      exists_finding_iff.mpr ⟨i, haddress, hbranch, fun _ => haddress.symm ▸ hexempt, fun _ => rfl⟩
    exact ⟨f, hf, hcritical⟩

theorem auditBytes_eq_ok {a : Auditor} {path : String} {file : Bytes} {scan : FileScan}
    (h : a.auditBytes path file = .ok scan) :
    ∃ image, Elf.parseImage file = .ok image ∧ a.auditImage path image = scan := by
  unfold auditBytes at h
  split at h
  · exact ⟨_, ‹_›, Except.ok.inj h⟩
  · cases h

/-- The file can be read and parsed, and no branch remains in it. -/
def Passes (a : Auditor) (read : FileReader) (path : String) : Prop :=
  ∃ bytes image, read path = .ok bytes ∧ Elf.parseImage bytes = .ok image ∧
    ¬ image.Unprotected a.classes a.exemptions

theorem failing_auditFile_iff {a : Auditor} {read : FileReader} {path : String} :
    (a.auditFile read path).failing = true ↔ ¬ a.Passes read path := by
  unfold Passes auditFile auditBytes
  cases hread : read path with
  | error e => simp [Outcome.failing]
  | ok bytes =>
    cases hparse : Elf.parseImage bytes with
    | error e => simp [hparse, Outcome.failing]
    | ok image => simp [hparse, Outcome.failing, hasCritical_auditImage_iff]

theorem exitCode_auditFiles_eq_zero_iff {a : Auditor} {read : FileReader} {paths : List String} :
    (Summary.ofOutcomes (a.auditFiles read paths)).exitCode = 0 ↔
      ∀ path ∈ paths, a.Passes read path := by
  have hcount : (Summary.ofOutcomes (a.auditFiles read paths)).passed = true ↔
      ∀ path ∈ paths, ¬ (a.auditFile read path).failing = true := by
    simp [Summary.passed, Summary.ofOutcomes, auditFiles, List.countP_eq_zero]
  have hcode : (Summary.ofOutcomes (a.auditFiles read paths)).exitCode = 0 ↔
      (Summary.ofOutcomes (a.auditFiles read paths)).passed = true := by
    unfold Summary.exitCode
    split <;> simp_all
  rw [hcode, hcount]
  simp only [failing_auditFile_iff, Classical.not_not]

end Auditor

theorem Summary.exitCode_eq_zero_or_one (s : Summary) : s.exitCode = 0 ∨ s.exitCode = 1 := by
  unfold Summary.exitCode
  split
  · exact .inl rfl
  · exact .inr rfl

/-- Lists whose items correspond have the same images under functions that agree on them. -/
theorem map_eq_map_of_forall₂ {α β γ : Type} {R : α → β → Prop} {f : α → γ} {g : β → γ}
    {xs : List α} {ys : List β} (h : List.Forall₂ R xs ys) (hR : ∀ x y, R x y → f x = g y) :
    xs.map f = ys.map g := by
  rw [← List.forall₂_eq_eq_eq, List.forall₂_map_left_iff, List.forall₂_map_right_iff]
  exact h.imp hR

/-- The verdict on a file follows from those on its findings, one by one. -/
theorem FileScan.hasCritical_congr {s t : FileScan}
    (h : List.Forall₂ (fun x y => List.Forall₂ (fun f g => f.critical = g.critical)
      x.findings y.findings) s.segments t.segments) : s.hasCritical = t.hasCritical := by
  have hcritical : s.segments.map (fun x => x.findings.map (·.critical)) =
      t.segments.map (fun y => y.findings.map (·.critical)) :=
    map_eq_map_of_forall₂ h fun x y hxy => map_eq_map_of_forall₂ hxy fun f g hfg => hfg
  have hany (u : FileScan) : u.hasCritical =
      (u.segments.map fun x => x.findings.map (·.critical)).flatten.any id := by
    simp [hasCritical, findings, List.any_flatMap, Function.comp_def]
  rw [hany, hany, hcritical]

/-- The verdict is exact: an image has critical findings just when some branch of it is neither
overlooked by the classes of the policy nor exempt, and a batch exits with 0 just when every file
was read and parsed and holds no such branch, and with 1 otherwise. -/
theorem verdict_exact (p : Policy) (d : Disassembler) :
    (∀ path image, ((Auditor.forPolicy p d).auditImage path image).hasCritical = true ↔
      image.Unprotected p.classes p.exemptions) ∧
    ∀ (read : FileReader) (paths : List String),
      ((Summary.ofOutcomes ((Auditor.forPolicy p d).auditFiles read paths)).exitCode = 0 ↔
        ∀ path ∈ paths, ∃ bytes image, read path = .ok bytes ∧
          Elf.parseImage bytes = .ok image ∧ ¬ image.Unprotected p.classes p.exemptions) ∧
      ((Summary.ofOutcomes ((Auditor.forPolicy p d).auditFiles read paths)).exitCode = 1 ↔
        ¬ ∀ path ∈ paths, ∃ bytes image, read path = .ok bytes ∧
          Elf.parseImage bytes = .ok image ∧ ¬ image.Unprotected p.classes p.exemptions) := by
  refine ⟨fun path image => Auditor.hasCritical_auditImage_iff, fun read paths => ?_⟩
  have hzero : (Summary.ofOutcomes ((Auditor.forPolicy p d).auditFiles read paths)).exitCode = 0 ↔
      ∀ path ∈ paths, (Auditor.forPolicy p d).Passes read path :=
    Auditor.exitCode_auditFiles_eq_zero_iff
  refine ⟨hzero, ?_⟩
  change _ ↔ ¬ ∀ path ∈ paths, (Auditor.forPolicy p d).Passes read path
  rw [← hzero]
  rcases Summary.exitCode_eq_zero_or_one
    (Summary.ofOutcomes ((Auditor.forPolicy p d).auditFiles read paths)) with h | h <;> simp [h]

end IndirectBranch
