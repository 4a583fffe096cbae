import IndirectBranch.Proofs.Layout
import IndirectBranch.Proofs.ObjectFile
import IndirectBranch.Proofs.Scan

/-! The image of a linked file. Each loadable program header gives one segment, with its bytes if it
is to be executed. The file is refused exactly if such a header leads out of the address space or
its bytes out of the file; the first header that does is reported, and of the two faults the
addresses come first. What is loaded lies where the header says, without any sum being cut. -/
namespace IndirectBranch

/-- The four bytes of a finding are bytes of the segment, each at its address. -/
def Segment.Holds (s : Segment) (f : Finding) : Prop :=
  ∀ i, i < instructionWidth → ∃ a : UInt64, a.toNat = f.address.toNat + i ∧
    s.contains a = true ∧ s.bytes[a.toNat - s.base.toNat]? = f.instruction.bytes[i]?

/-- No finding reaches past the end of a segment that fits into the address space. -/
theorem Segment.Fits.holds {s : Segment} (h : s.Fits) {classes : OpcodeClasses} {d : Disassembler}
    {symbols : SymbolIndex} {f : Finding} (hf : f ∈ Scan.findings classes d symbols s) :
    s.Holds f := by
  obtain ⟨ins, index, address, hins, -, haddress, rfl⟩ := Scan.mem_findings_iff.mp hf
  intro i hi
  have hcomplete := exists_instruction_iff.mp ⟨ins, hins⟩
  have hend : s.base.toNat + s.bytes.length ≤ lastAddress := h
  have hplace : s.base.toNat + (instructionWidth * index + i) ≤ lastAddress := by omega
  refine ⟨UInt64.ofNat (s.base.toNat + (instructionWidth * index + i)), ?_, ?_, ?_⟩
  · rw [toNat_ofNat_of_le hplace]
    simp only [Scan.finding, haddress]
    omega
  · simp only [contains, endAddress, saturate, toNat_ofNat_of_le hplace, Bool.and_eq_true,
      decide_eq_true_eq]
    omega
  · rw [toNat_ofNat_of_le hplace, Nat.add_sub_cancel_left]
    simp only [Scan.finding]
    rw [← getElem?_instructions_eq_some_iff.mp hins, List.getElem?_take_of_lt hi,
      List.getElem?_drop]

namespace Elf

namespace ProgramHeader

/-- Bytes in memory. -/
def extent (p : ProgramHeader) : Nat := max p.memorySize.toNat p.fileSize.toNat

/-- The segment ends inside the address space, and bytes to be executed lie in the file. -/
structure Loadable (file : Bytes) (p : ProgramHeader) : Prop where
  addressed : p.address.toNat + p.extent ≤ lastAddress
  present : p.flags.testBit 0 = true → p.offset.toNat + p.fileSize.toNat ≤ file.length

instance (file : Bytes) : DecidablePred (Loadable file) := fun p =>
  decidable_of_iff (p.address.toNat + p.extent ≤ lastAddress ∧
      (p.flags.testBit 0 = true → p.offset.toNat + p.fileSize.toNat ≤ file.length))
    ⟨fun h => ⟨h.1, h.2⟩, fun h => ⟨h.addressed, h.present⟩⟩

/-- The error for a header that cannot be loaded. Addresses are checked before bytes. -/
def fault (file : Bytes) (p : ProgramHeader) (index : Nat) : Error :=
  if lastAddress < p.address.toNat + p.extent then
    .addressOverflow (.segment index) p.address.toNat p.extent
  else .outOfBounds (.segment index) p.offset.toNat p.fileSize.toNat file.length

def segment (file : Bytes) (p : ProgramHeader) : Segment :=
  { base := p.address
    bytes := if p.flags.testBit 0 then (file.drop p.offset.toNat).take p.fileSize.toNat else []
    permissions := ⟨p.flags.testBit 2, p.flags.testBit 1, p.flags.testBit 0⟩
    memorySize := p.extent }

end ProgramHeader

namespace Object
open ProgramHeader

theorem permissions_eq (flags : Nat) :
    permissions flags = ⟨flags.testBit 2, flags.testBit 1, flags.testBit 0⟩ := by
  simp [permissions, Nat.testBit_eq_decide_div_mod_eq, beq_eq_decide]

/-- The segment in memory is never smaller than its bytes, so the size of the header stands. -/
theorem segment_eq (file : Bytes) (p : ProgramHeader) :
    p.segment file = (Segment.new p.address (p.segment file).bytes
      (p.segment file).permissions).withMemorySize p.extent := by
  have hlength : (p.segment file).bytes.length ≤ p.fileSize.toNat := by
    unfold ProgramHeader.segment
    split
    · exact List.length_take_le _ _
    · exact Nat.zero_le _
  have hmemory : max p.extent (p.segment file).bytes.length = p.extent := by
    unfold extent
    omega
  unfold Segment.withMemorySize Segment.new
  rw [hmemory]
  rfl

theorem loadSegment_eq (file : Bytes) (p : ProgramHeader) (index : Nat) :
    loadSegment file p index =
      if p.Loadable file then .ok (p.segment file) else .error (p.fault file index) := by
  unfold loadSegment
  have hextent : max p.memorySize.toNat p.fileSize.toNat = p.extent := rfl
  simp only [permissions_eq, fileSlice, hextent, gt_iff_lt]
  by_cases haddressed : p.address.toNat + p.extent ≤ lastAddress
  · rw [if_neg (Nat.not_lt.mpr haddressed)]
    by_cases hexecutes : p.flags.testBit 0 = true
    · have hbytes : (p.segment file).bytes = (file.drop p.offset.toNat).take p.fileSize.toNat :=
        if_pos hexecutes
      rw [if_pos hexecutes]
      by_cases hpresent : p.offset.toNat + p.fileSize.toNat ≤ file.length
      · have hloadable : p.Loadable file := ⟨haddressed, fun _ => hpresent⟩
        rw [if_pos hpresent, if_pos hloadable, segment_eq, hbytes]
        rfl
      · have hrefused : ¬ p.Loadable file := fun h => hpresent (h.present hexecutes)
        rw [if_neg hpresent, if_neg hrefused, fault, if_neg (Nat.not_lt.mpr haddressed)]
        rfl
    · have hbytes : (p.segment file).bytes = [] := if_neg hexecutes
      have hloadable : p.Loadable file := ⟨haddressed, fun h => absurd h hexecutes⟩
      rw [if_neg hexecutes, if_pos hloadable, segment_eq, hbytes]
      rfl
  · have hrefused : ¬ p.Loadable file := fun h => haddressed h.addressed
    rw [if_pos (Nat.lt_of_not_le haddressed), if_neg hrefused, fault,
      if_pos (Nat.lt_of_not_le haddressed)]
    rfl

/-- One header of the table: it is passed over, refused, or loaded in front of the others. -/
theorem loadSegments_cons (file : Bytes) (p : ProgramHeader) (index : Nat)
    (rest : List (ProgramHeader × Nat)) :
    loadSegments file ((p, index) :: rest) =
      if p.type = load then
        if p.Loadable file then (loadSegments file rest).map (p.segment file :: ·)
        else .error (p.fault file index)
      else loadSegments file rest := by
  rw [loadSegments, loadSegment_eq]
  by_cases hload : p.type = load
  · rw [if_pos hload, if_pos hload]
    by_cases hloadable : p.Loadable file
    · rw [if_pos hloadable, if_pos hloadable]
      cases loadSegments file rest <;> rfl
    · rw [if_neg hloadable, if_neg hloadable]
      rfl
  · rw [if_neg hload, if_neg hload]

theorem loadSegments_eq_error {file : Bytes} {before after : List (ProgramHeader × Nat)}
    {p : ProgramHeader} {index : Nat}
    (hbefore : ∀ x ∈ before, x.1.type = load → x.1.Loadable file) (hload : p.type = load)
    (hrefused : ¬ p.Loadable file) :
    loadSegments file (before ++ (p, index) :: after) = .error (p.fault file index) := by
  induction before with
  | nil => rw [List.nil_append, loadSegments_cons, if_pos hload, if_neg hrefused]
  | cons x before ih =>
    obtain ⟨q, i⟩ := x
    obtain ⟨hq, hbefore⟩ := List.forall_mem_cons.mp hbefore
    rw [List.cons_append, loadSegments_cons, ih hbefore]
    split
    next htype =>
      rw [if_pos (hq htype)]
      rfl
    next => rfl

theorem loadSegments_eq_ok {file : Bytes} {headers : List (ProgramHeader × Nat)}
    (h : ∀ x ∈ headers, x.1.type = load → x.1.Loadable file) :
    loadSegments file headers =
      .ok (((headers.map (·.1)).filter (·.type = load)).map (segment file)) := by
  induction headers with
  | nil => rfl
  | cons x rest ih =>
    obtain ⟨p, index⟩ := x
    obtain ⟨hp, hrest⟩ := List.forall_mem_cons.mp h
    rw [loadSegments_cons, ih hrest, List.map_cons, List.filter_cons]
    split
    next htype =>
      rw [if_pos (hp htype)]
      simp only [htype, decide_true, ↓reduceIte, List.map_cons]
      rfl
    next htype => simp only [htype, decide_false, Bool.false_eq_true, ↓reduceIte]

/-- Headers of the segments, in the order of the table. -/
def loads (o : Object) : List ProgramHeader := o.programs.filter (·.type = load)

theorem linkedImage_eq_error {o : Object} {file : Bytes} {before after : List ProgramHeader}
    {p : ProgramHeader} (hprograms : o.programs = before ++ p :: after)
    (hbefore : ∀ q ∈ before, q.type = load → q.Loadable file) (hload : p.type = load)
    (hrefused : ¬ p.Loadable file) :
    o.linkedImage file = .error (p.fault file before.length) := by
  have hindexed : o.programs.zipIdx =
      before.zipIdx ++ (p, before.length) :: after.zipIdx (before.length + 1) := by
    rw [hprograms, List.zipIdx_append, List.zipIdx_cons, Nat.zero_add]
  have hbefore' : ∀ x ∈ before.zipIdx, x.1.type = load → x.1.Loadable file :=
    fun x hx => hbefore x.1 (List.fst_mem_of_mem_zipIdx hx)
  rw [linkedImage, hindexed, loadSegments_eq_error hbefore' hload hrefused]
  rfl

theorem exists_first_refused {o : Object} {file : Bytes} (h : ¬ ∀ p ∈ o.loads, p.Loadable file) :
    ∃ before p after, o.programs = before ++ p :: after ∧
      (∀ q ∈ before, q.type = load → q.Loadable file) ∧ p.type = load ∧ ¬ p.Loadable file := by
  cases hfind : o.programs.find? fun p => p.type = load ∧ ¬ p.Loadable file with
  | none =>
    refine absurd (fun p hp => ?_) h
    obtain ⟨hmem, htype⟩ := List.mem_filter.mp hp
    have hnot := List.find?_eq_none.mp hfind p hmem
    simp only [of_decide_eq_true htype, true_and, decide_not, Bool.not_eq_true',
      decide_eq_false_iff_not, not_not] at hnot
    exact hnot
  | some p =>
    obtain ⟨hp, before, after, hprograms, hbefore⟩ := List.find?_eq_some_iff_append.mp hfind
    obtain ⟨hload, hrefused⟩ := of_decide_eq_true hp
    refine ⟨before, p, after, hprograms, fun q hq htype => ?_, hload, hrefused⟩
    have hq := hbefore q hq
    simp only [htype, true_and, decide_not, Bool.not_not, decide_eq_true_eq] at hq
    exact hq

theorem linkedImage_eq_ok {o : Object} {file : Bytes} (h : ∀ p ∈ o.loads, p.Loadable file) :
    o.linkedImage file = .ok ⟨o.loads.map (segment file), o.linkedSections,
      o.placedSymbols fun _ value => some value⟩ := by
  have hindexed : ∀ x ∈ o.programs.zipIdx, x.1.type = load → x.1.Loadable file := by
    intro x hx htype
    exact h x.1 (List.mem_filter.mpr ⟨List.fst_mem_of_mem_zipIdx hx, decide_eq_true htype⟩)
  rw [linkedImage, loadSegments_eq_ok hindexed, List.zipIdx_map_fst]
  rfl

/-- The range of a segment is the one in its header: its end is an address, so nothing is cut. -/
theorem maps_segment_iff {file : Bytes} {p : ProgramHeader} (h : p.Loadable file) {a : UInt64} :
    (p.segment file).maps a = true ↔
      p.address.toNat ≤ a.toNat ∧ a.toNat < p.address.toNat + p.extent := by
  have hend : saturate (p.address.toNat + p.extent) = p.address.toNat + p.extent :=
    Nat.min_eq_left h.addressed
  rw [← hend, Segment.maps, Bool.and_eq_true, decide_eq_true_iff, decide_eq_true_iff]
  rfl

/-- The section has a name and occupies memory at a known address. -/
def Occupies (o : Object) (s : SectionHeader) : Prop :=
  s.address ≠ 0 ∧ s.flags &&& SectionHeader.allocated ≠ 0 ∧ o.sectionNames.nameAt s.name ≠ ""

instance (o : Object) : DecidablePred o.Occupies := fun _ => inferInstanceAs (Decidable (_ ∧ _ ∧ _))

theorem linkedSections_eq (o : Object) :
    o.linkedSections = (o.sections.filter o.Occupies).map fun s =>
      ⟨o.sectionNames.nameAt s.name, s.address, s.size⟩ := by
  have hfilter : o.linkedSections = o.sections.filterMap fun s =>
      if o.Occupies s then some ⟨o.sectionNames.nameAt s.name, s.address, s.size⟩ else none :=
    rfl
  rw [hfilter, ← List.filterMap_eq_map, List.filterMap_filter]
  simp only [decide_eq_true_eq, Function.comp_apply]

/-- Names of the sections that start in the range of a header, in the order of their headers. -/
def namesIn (o : Object) (p : ProgramHeader) : List String :=
  (o.sections.filter fun s => o.Occupies s ∧
    p.address.toNat ≤ s.address.toNat ∧ s.address.toNat < p.address.toNat + p.extent).map
    fun s => o.sectionNames.nameAt s.name

theorem sectionsIn_segment {o : Object} {file : Bytes} {p : ProgramHeader} {image : Image}
    (h : p.Loadable file) (hsections : image.sections = o.linkedSections) :
    image.sectionsIn (p.segment file) = o.namesIn p := by
  rw [Image.sectionsIn, hsections, linkedSections_eq, List.filter_map, List.filter_filter,
    List.map_map, namesIn]
  congr 1
  apply List.filter_congr
  intro s _
  rw [Bool.eq_iff_iff]
  simp only [Function.comp_apply, Bool.and_eq_true, bne_iff_ne, maps_segment_iff h,
    decide_eq_true_eq]
  constructor
  · rintro ⟨⟨-, hrange⟩, hs⟩
    exact ⟨hs, hrange⟩
  · rintro ⟨hs, hrange⟩
    exact ⟨⟨hs.2.2, hrange⟩, hs⟩

/-- A linked file gives an image exactly if all its segments can be loaded. Otherwise the error
speaks of the first that cannot, by its place in the table of headers. The segments of the image are
those of the loadable headers, in their order; each has the range of its header and the names of the
sections that start there, and every finding of a scan lies in its segment with all its bytes. -/
theorem linkedImage_exact (o : Object) (file : Bytes) :
    ((∃ image, o.linkedImage file = .ok image) ↔ ∀ p ∈ o.loads, p.Loadable file) ∧
    (∀ e, o.linkedImage file = .error e → ∃ before p after, o.programs = before ++ p :: after ∧
      (∀ q ∈ before, q.type = load → q.Loadable file) ∧ p.type = load ∧ ¬ p.Loadable file ∧
      e = p.fault file before.length) ∧
    ∀ image, o.linkedImage file = .ok image →
      image.segments = o.loads.map (segment file) ∧
      (∀ p ∈ o.loads,
        (∀ a, (p.segment file).maps a = true ↔
          p.address.toNat ≤ a.toNat ∧ a.toNat < p.address.toNat + p.extent) ∧
        image.sectionsIn (p.segment file) = o.namesIn p) ∧
      ∀ classes d, List.Forall₂ (fun s scan => ∀ f ∈ scan.findings, s.Holds f)
        image.executableSegments (Scan.segments classes d image) := by
  by_cases hall : ∀ p ∈ o.loads, p.Loadable file
  · have hok := linkedImage_eq_ok hall
    refine ⟨iff_of_true ⟨_, hok⟩ hall, ?_, ?_⟩
    · intro e he
      rw [hok] at he
      cases he
    · intro image himage
      have hfits := linkedImage_fits himage
      obtain rfl := Except.ok.inj (hok.symm.trans himage)
      refine ⟨rfl, fun p hp => ⟨fun a => maps_segment_iff (hall p hp), ?_⟩, fun classes d => ?_⟩
      · exact sectionsIn_segment (hall p hp) rfl
      · rw [Scan.segments, List.forall₂_map_right_iff, List.forall₂_same]
        intro s hs f hf
        exact (hfits s (List.mem_filter.mp hs).1).holds hf
  · obtain ⟨before, p, after, hprograms, hbefore, hload, hrefused⟩ := exists_first_refused hall
    have herror := linkedImage_eq_error hprograms hbefore hload hrefused
    refine ⟨iff_of_false ?_ hall, fun e he => ?_, fun image himage => ?_⟩
    · rintro ⟨image, himage⟩
      rw [herror] at himage
      cases himage
    · obtain rfl := Except.error.inj (herror.symm.trans he)
      exact ⟨before, p, after, hprograms, hbefore, hload, hrefused, rfl⟩
    · rw [herror] at himage
      cases himage

def ofHeaders (programs : List ProgramHeader) (sections : List SectionHeader)
    (sectionNames : StringTable) : Object :=
  { header := ⟨encoding64, 2, Header.aarch64, 0, 0, 0, 0, 0⟩
    programs, sections, sectionNames
    symbols := [], symbolNames := .empty, dynamicSymbols := [], dynamicNames := .empty }

/-- A `blr` in a segment that ends right at the last address, with a section in the part that is not
in the file and one past the end, and data that lies outside the file; a header that is not loaded
may say anything. Then three headers of which two cannot be loaded, the first of them for both
reasons. -/
theorem linkedImage_exact_boundary :
    let file := [0x00, 0x00, 0x3F, 0xD6, 0x00]
    let note : ProgramHeader := ⟨4, 5, 9, 0xFFFFFFFFFFFFFFFF, 9, 9⟩
    let text : ProgramHeader := ⟨1, 5, 0, 0xFFFFFFFFFFFFFFF7, 4, 8⟩
    let data : ProgramHeader := ⟨1, 6, 9, 0x2000, 8, 4⟩
    let sectionAt (name : Nat) (address : UInt64) : SectionHeader :=
      ⟨name, 1, 2, address, 0, 0, 0, 4, 0⟩
    let accepted := ofHeaders [note, text, data] [sectionAt 3 0xFFFFFFFFFFFFFFFE,
      sectionAt 1 0xFFFFFFFFFFFFFFF7, sectionAt 3 0xFFFFFFFFFFFFFFFF, sectionAt 0 0x2000]
      ⟨[0, 0x74, 0, 0x62, 0]⟩
    let refused := ofHeaders [note, data, ⟨1, 1, 0, 0xFFFFFFFFFFFFFFF8, 8, 0⟩, ⟨1, 1, 2, 0, 4, 4⟩]
      [] .empty
    let error := Error.addressOverflow (.segment 2) 0xFFFFFFFFFFFFFFF8 8
    (∃ image, accepted.linkedImage file = .ok image ∧
      image.segments = [⟨0xFFFFFFFFFFFFFFF7, [0x00, 0x00, 0x3F, 0xD6], ⟨true, false, true⟩, 8⟩,
        ⟨0x2000, [], ⟨true, true, false⟩, 8⟩] ∧
      (text.segment file).maps 0xFFFFFFFFFFFFFFFE = true ∧
      ¬ (text.segment file).maps 0xFFFFFFFFFFFFFFFF = true ∧
      image.sectionsIn (text.segment file) = ["b", "t"] ∧
      List.Forall₂ (fun s scan => ∀ f ∈ scan.findings, s.Holds f) image.executableSegments
        (Scan.segments .indirectBranches .hex image)) ∧
    refused.linkedImage file = .error error ∧
    ∃ before p after, refused.programs = before ++ p :: after ∧
      (∀ q ∈ before, q.type = load → q.Loadable file) ∧ p.type = load ∧ ¬ p.Loadable file ∧
      error = p.fault file before.length := by
  intro file note text data sectionAt accepted refused error
  have hrefused : refused.linkedImage file = .error error := by decide +kernel
  obtain ⟨image, himage⟩ := (linkedImage_exact accepted file).1.mpr (by decide)
  obtain ⟨hsegments, hheaders, hfindings⟩ := (linkedImage_exact accepted file).2.2 image himage
  obtain ⟨hmaps, hnames⟩ := hheaders text (by decide)
  refine ⟨⟨image, himage, ?_, ?_, ?_, ?_, hfindings _ _⟩, hrefused,
    (linkedImage_exact refused file).2.1 error hrefused⟩
  · rw [hsegments]
    decide
  · exact (hmaps _).mpr (by decide)
  · exact fun h => absurd ((hmaps _).mp h) (by decide)
  · rw [hnames]
    decide +kernel

end Object
end Elf
end IndirectBranch
