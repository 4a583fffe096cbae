import Mathlib.Data.List.Sort
import IndirectBranch.Proofs.Verdict

/-! What a scan of an image returns, with nothing left open: one result for each executable segment,
and in it one finding for each word that branches, in the order of the words. Bytes after the last
complete word change nothing. -/
namespace IndirectBranch

/-- The segment without the bytes after its last complete word. -/
def Segment.withoutTail (s : Segment) : Segment :=
  { s with bytes := s.bytes.take (instructionWidth * (s.bytes.length / instructionWidth)) }

namespace Scan

variable (classes : OpcodeClasses) (d : Disassembler) (symbols : SymbolIndex) (s : Segment)

instance (i : Nat) : Decidable (Branches classes s i) :=
  decidable_of_iff (instructionWidth * i + instructionWidth ≤ s.bytes.length ∧
      s.base.toNat + instructionWidth * i ≤ lastAddress ∧
      ∃ c ∈ classes, wordAt s.bytes (instructionWidth * i) &&& c.mask = c.bits)
    ⟨fun h => ⟨h.1, h.2.1, h.2.2⟩, fun h => ⟨h.complete, h.addressed, h.matched⟩⟩

def branchIndices : List Nat := (List.range s.bytes.length).filter (Branches classes s)

variable {classes s} in
theorem mem_branchIndices_iff {i : Nat} : i ∈ branchIndices classes s ↔ Branches classes s i := by
  simp only [branchIndices, List.mem_filter, List.mem_range, decide_eq_true_eq,
    and_iff_right_iff_imp]
  intro h
  have hcomplete := h.complete
  simp only [instructionWidth] at hcomplete
  omega

theorem branchIndices_pairwise : (branchIndices classes s).Pairwise (· < ·) :=
  List.pairwise_lt_range.filter _

def addressed : List (Instruction × Nat) :=
  (sightings classes s).filter fun sighting => (address? s.base sighting.2).isSome

theorem map_snd_addressed : (addressed classes s).map (·.2) = branchIndices classes s := by
  have hpairwise : ((addressed classes s).map (·.2)).Pairwise (· < ·) :=
    List.pairwise_map.mpr ((sightings_pairwise classes s).filter _)
  apply hpairwise.eq_of_mem_iff (branchIndices_pairwise classes s)
  intro i
  rw [mem_branchIndices_iff, List.mem_map]
  constructor
  · rintro ⟨⟨ins, i⟩, hmem, rfl⟩
    obtain ⟨hsighting, haddress⟩ := List.mem_filter.mp hmem
    obtain ⟨hins, hmatch⟩ := mem_sightings_iff.mp hsighting
    exact ⟨exists_instruction_iff.mp ⟨ins, hins⟩, address?_isSome_iff.mp haddress,
      word_of_getElem? hins ▸ OpcodeClasses.hasMatch_iff.mp hmatch⟩
  · intro h
    obtain ⟨ins, hins⟩ := exists_instruction_iff.mpr h.complete
    refine ⟨(ins, i), List.mem_filter.mpr ⟨mem_sightings_iff.mpr ⟨hins, ?_⟩, ?_⟩, rfl⟩
    · exact OpcodeClasses.hasMatch_iff.mpr (word_of_getElem? hins ▸ h.matched)
    · exact address?_isSome_iff.mpr h.addressed

theorem findings_eq_map_addressed :
    findings classes d symbols s = (addressed classes s).map fun sighting => finding classes d
      symbols (UInt64.ofNat (s.base.toNat + instructionWidth * sighting.2)) sighting.1 := by
  rw [findings_eq, addressed, ← List.filterMap_eq_map, List.filterMap_filter]
  congr 1
  funext sighting
  obtain ⟨ins, index⟩ := sighting
  by_cases h : s.base.toNat + instructionWidth * index ≤ lastAddress <;> simp [address?, h]

/-- `f` is the finding for word `i` of the segment. -/
structure Reports (i : Nat) (f : Finding) : Prop where
  address : f.address.toNat = s.base.toNat + instructionWidth * i
  bytes : f.instruction.bytes = (s.bytes.drop (instructionWidth * i)).take instructionWidth
  text : f.text = match d.render f.instruction.bytes f.address with
    | .ok text => text
    | .error _ => rawText f.instruction.bytes
  place : (f.symbol, f.offset) = symbols.resolveOrUnknown f.address
  critical : f.critical = true
  names : f.classes = (classes.filter fun c =>
    wordAt s.bytes (instructionWidth * i) &&& c.mask = c.bits).map (·.name)
  names_ne : f.classes ≠ []

variable {classes s} in
theorem reports_finding {i : Nat} {ins : Instruction} (h : (ins, i) ∈ addressed classes s) :
    Reports classes d symbols s i (finding classes d symbols
      (UInt64.ofNat (s.base.toNat + instructionWidth * i)) ins) := by
  obtain ⟨hsighting, haddress⟩ := List.mem_filter.mp h
  obtain ⟨hins, hmatch⟩ := mem_sightings_iff.mp hsighting
  have hword := word_of_getElem? hins
  have hnames : classes.namesFor ins.word = (classes.filter fun c =>
      wordAt s.bytes (instructionWidth * i) &&& c.mask = c.bits).map (·.name) := by
    simp only [OpcodeClasses.namesFor, OpcodeClasses.containing, OpcodeClass.contains, hword,
      beq_eq_decide]
  refine ⟨?_, (getElem?_instructions_eq_some_iff.mp hins).symm, rfl, rfl, rfl, hnames, ?_⟩
  · exact toNat_ofNat_of_le (address?_isSome_iff.mp haddress)
  · obtain ⟨c, hc, hbits⟩ := OpcodeClasses.hasMatch_iff.mp hmatch
    have hmem : c ∈ OpcodeClasses.containing classes ins.word :=
      List.mem_filter.mpr ⟨hc, beq_iff_eq.mpr hbits⟩
    exact List.ne_nil_of_mem (List.mem_map_of_mem hmem)

theorem forall₂_reports :
    List.Forall₂ (Reports classes d symbols s) (branchIndices classes s)
      (findings classes d symbols s) := by
  rw [← map_snd_addressed, findings_eq_map_addressed, List.forall₂_map_left_iff,
    List.forall₂_map_right_iff, List.forall₂_same]
  rintro ⟨ins, i⟩ h
  exact reports_finding d symbols h

theorem findings_pairwise :
    (findings classes d symbols s).Pairwise fun f g => f.address < g.address := by
  rw [findings_eq_map_addressed, List.pairwise_map]
  apply ((sightings_pairwise classes s).filter _).imp_of_mem
  rintro ⟨ins, i⟩ ⟨ins', j⟩ hi hj hlt
  have hfirst := (reports_finding d symbols hi).address
  have hsecond := (reports_finding d symbols hj).address
  rw [UInt64.lt_iff_toNat_lt, hfirst, hsecond]
  simp only [instructionWidth] at hlt ⊢
  omega

theorem findings_withoutTail :
    findings classes d symbols s.withoutTail = findings classes d symbols s := by
  have hsightings : sightings classes s.withoutTail = sightings classes s := by
    rw [sightings, sightings, Segment.withoutTail, instructions_take]
  rw [findings, findings, hsightings]
  rfl

/-- `scan` is the scan of the segment `s` of the image. -/
structure ScanOf (image : Image) (scan : SegmentScan) : Prop where
  base : scan.base = s.base
  length : scan.length = UInt64.ofNat s.bytes.length
  permissions : scan.permissions = s.permissions
  sections : scan.sections = image.sectionsIn s
  findings : List.Forall₂ (Reports classes d (.ofTable image.symbols) s) (branchIndices classes s)
    scan.findings
  ascending : scan.findings.Pairwise fun f g => f.address < g.address
  tail : scan.findings = Scan.findings classes d (.ofTable image.symbols) s.withoutTail

/-- A scan gives one result for each executable segment, in their order, and each result has one
finding for each word that is complete, has an address and belongs to some class, in the order of
the words. -/
theorem segments_exact (image : Image) :
    List.Forall₂ (fun s scan => ScanOf classes d s image scan)
      (image.segments.filter (·.permissions.execute)) (segments classes d image) := by
  have hscan (s : Segment) :
      ScanOf classes d s image (segment classes d (.ofTable image.symbols) image s) :=
    ⟨rfl, rfl, rfl, rfl, forall₂_reports classes d _ s, findings_pairwise classes d _ s,
      (findings_withoutTail classes d _ s).symm⟩
  rw [segments, Image.executableSegments, List.forall₂_map_right_iff, List.forall₂_same]
  exact fun s _ => hscan s

end Scan
end IndirectBranch
