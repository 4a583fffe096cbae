import Mathlib.Order.Bounds.Basic
import IndirectBranch.Proofs.Layout
import IndirectBranch.Proofs.ObjectFile

/-! The image of a relocatable object. It has a segment and a named section for each section of
instructions, in their order, each from the least multiple of its alignment on that lies at or past
the end of the one before; sums stop at the last address. The object is refused exactly if such a
section reaches past the end of the file, and the first one that does is named. -/
namespace IndirectBranch.Elf

namespace SectionHeader

/-- The section occupies memory, holds instructions and has its bytes in the file. -/
def HoldsCode (s : SectionHeader) : Prop :=
  s.flags &&& allocated = allocated ∧ s.flags &&& instructionFlag = instructionFlag ∧
    s.type ≠ noBits

instance : DecidablePred HoldsCode := fun _ => inferInstanceAs (Decidable (_ ∧ _ ∧ _))

def Outside (file : Bytes) (s : SectionHeader) : Prop :=
  file.length < s.offset.toNat + s.size.toNat

instance (file : Bytes) : DecidablePred (Outside file) :=
  fun _ => inferInstanceAs (Decidable (_ < _))

def outside (names : StringTable) (file : Bytes) (s : SectionHeader) : Error :=
  .outOfBounds (.named (names.nameAt s.name)) s.offset.toNat s.size.toNat file.length

end SectionHeader

namespace Object
open SectionHeader

/-- Sections that are laid out, in the order of their headers. -/
def codeSections (o : Object) : List SectionHeader := o.sections.filter HoldsCode

theorem isLaidOut_iff {s : SectionHeader} : isLaidOut s = true ↔ s.HoldsCode := by
  have hflags : s.flags &&& (allocated ||| instructionFlag) = allocated ||| instructionFlag ↔
      s.flags &&& allocated = allocated ∧ s.flags &&& instructionFlag = instructionFlag := by
    constructor
    · intro h
      have hpart (flag : UInt64) (hflag : (allocated ||| instructionFlag) &&& flag = flag) :
          s.flags &&& flag = flag := by
        rw [← hflag, ← UInt64.and_assoc, h]
      exact ⟨hpart _ (by decide), hpart _ (by decide)⟩
    · rintro ⟨hallocated, hinstruction⟩
      have hboth : s.flags &&& (allocated ||| instructionFlag) =
          (s.flags &&& allocated) ||| (s.flags &&& instructionFlag) :=
        UInt64.toBitVec_inj.mp BitVec.and_or_distrib_left
      rw [hboth, hallocated, hinstruction]
  simp only [isLaidOut, HoldsCode, Bool.and_eq_true, beq_iff_eq, bne_iff_ne, hflags, and_assoc]

theorem isLeast_roundUp (n : Nat) {alignment : Nat} (h : 0 < alignment) :
    IsLeast {m | alignment ∣ m ∧ n ≤ m} (roundUp n alignment) := by
  refine ⟨⟨Nat.dvd_mul_left _ _, le_roundUp n h⟩, ?_⟩
  rintro m ⟨⟨k, rfl⟩, hn⟩
  have hdiv : (n + alignment - 1) / alignment ≤ k := by
    rw [← Nat.lt_succ_iff, Nat.div_lt_iff_lt_mul h, Nat.succ_mul, Nat.mul_comm k]
    omega
  calc roundUp n alignment ≤ k * alignment := Nat.mul_le_mul_right _ hdiv
    _ = alignment * k := Nat.mul_comm _ _

/-- Segments and named sections for the headers, laid out from `cursor` on. -/
inductive LaidOut (names : StringTable) (file : Bytes) :
    (cursor : Nat) → List SectionHeader → List Segment → List Section → Prop
  | nil (cursor : Nat) : LaidOut names file cursor [] [] []
  | cons {cursor multiple : Nat} {base : UInt64} {s : SectionHeader} {rest : List SectionHeader}
      {segments : List Segment} {sections : List Section}
      (least : IsLeast {n | max s.alignment.toNat 4 ∣ n ∧ cursor ≤ n} multiple)
      (base_eq : base.toNat = min multiple lastAddress)
      (next : LaidOut names file (min (base.toNat + s.size.toNat) lastAddress) rest segments
        sections) :
      LaidOut names file cursor (s :: rest)
        (.executable base ((file.drop s.offset.toNat).take s.size.toNat) :: segments)
        (⟨names.nameAt s.name, base, s.size⟩ :: sections)

def codeHeaders (headers : List (SectionHeader × Nat)) : List SectionHeader :=
  (headers.map (·.1)).filter HoldsCode

section Headers

variable {names : StringTable} {file : Bytes} {headers : List (SectionHeader × Nat)}

theorem codeHeaders_cons (s : SectionHeader) (index : Nat) :
    codeHeaders ((s, index) :: headers) =
      if s.HoldsCode then s :: codeHeaders headers else codeHeaders headers := by
  simp only [codeHeaders, List.map_cons, List.filter_cons, decide_eq_true_eq]

/-- One header: it is passed over, refused, or placed in front of the others. -/
theorem layOut_cons (cursor : Nat) (s : SectionHeader) (index : Nat) :
    layOut names file cursor ((s, index) :: headers) =
      if s.HoldsCode then
        if s.Outside file then .error (s.outside names file)
        else
          let base := alignUp cursor (max s.alignment.toNat 4)
          (layOut names file (saturate (base + s.size.toNat)) headers).map
            (⟨index, UInt64.ofNat base, names.nameAt s.name, s.size,
              (file.drop s.offset.toNat).take s.size.toNat⟩ :: ·)
      else layOut names file cursor headers := by
  rw [layOut]
  simp only [isLaidOut_iff, fileSlice, Outside, outside]
  by_cases hcode : s.HoldsCode
  · by_cases hout : file.length < s.offset.toNat + s.size.toNat
    · simp only [hcode, ↓reduceIte, hout, Nat.not_le.mpr hout]
      rfl
    · simp only [hcode, ↓reduceIte, hout, Nat.not_lt.mp hout]
      rfl
  · simp only [hcode, ↓reduceIte]

theorem layOut_eq_error {s : SectionHeader}
    (h : (codeHeaders headers).find? (Outside file) = some s) (cursor : Nat) :
    layOut names file cursor headers = .error (s.outside names file) := by
  induction headers generalizing cursor with
  | nil => cases h
  | cons header rest ih =>
    obtain ⟨t, index⟩ := header
    rw [codeHeaders_cons] at h
    rw [layOut_cons]
    by_cases hcode : t.HoldsCode
    · rw [if_pos hcode] at h ⊢
      by_cases hout : t.Outside file
      · rw [List.find?_cons_of_pos (by simpa using hout)] at h
        cases h
        rw [if_pos hout]
      · rw [List.find?_cons_of_neg (by simpa using hout)] at h
        rw [if_neg hout]
        simp only [ih h]
        rfl
    · rw [if_neg hcode] at h ⊢
      exact ih h cursor

theorem layOut_eq_ok (names : StringTable) (h : ∀ s ∈ codeHeaders headers, ¬ s.Outside file)
    (cursor : Nat) :
    ∃ placements, layOut names file cursor headers = .ok placements ∧
      LaidOut names file cursor (codeHeaders headers)
        (placements.map fun p => .executable p.base p.bytes)
        (placements.map fun p => ⟨p.name, p.base, p.size⟩) := by
  induction headers generalizing cursor with
  | nil => exact ⟨[], rfl, .nil cursor⟩
  | cons header rest ih =>
    obtain ⟨s, index⟩ := header
    rw [codeHeaders_cons] at h ⊢
    rw [layOut_cons]
    by_cases hcode : s.HoldsCode
    · simp only [if_pos hcode] at h ⊢
      obtain ⟨hs, hrest⟩ := List.forall_mem_cons.mp h
      obtain ⟨others, hothers, hlayout⟩ := ih hrest
        (saturate (alignUp cursor (max s.alignment.toNat 4) + s.size.toNat))
      have hpos : 0 < max s.alignment.toNat 4 := by omega
      have hbase : (UInt64.ofNat (alignUp cursor (max s.alignment.toNat 4))).toNat =
          alignUp cursor (max s.alignment.toNat 4) :=
        toNat_ofNat_of_le (saturate_le_lastAddress _)
      simp only [if_neg hs, hothers]
      refine ⟨_, rfl, .cons (isLeast_roundUp cursor hpos)
        (hbase.trans (alignUp_of_pos cursor hpos)) ?_⟩
      simp only [hbase]
      exact hlayout
    · simp only [if_neg hcode] at h ⊢
      exact ih h cursor

end Headers

theorem codeHeaders_zipIdx (o : Object) : codeHeaders o.sections.zipIdx = o.codeSections := by
  rw [codeHeaders, codeSections, List.zipIdx_map_fst]

/-- Segments that follow one another share no address. -/
theorem not_contains_of_endAddress_le {s t : Segment} (h : s.endAddress ≤ t.base.toNat)
    (address : UInt64) : ¬ (s.contains address = true ∧ t.contains address = true) := by
  simp only [Segment.contains, Bool.and_eq_true, decide_eq_true_eq]
  omega

theorem relocatableImage_pairwise {o : Object} {file : Bytes} {image : Image}
    (h : o.relocatableImage file = .ok image) :
    image.segments.Pairwise fun s t => s.endAddress ≤ t.base.toNat := by
  obtain ⟨placements, hplacements, hsegments, -⟩ := relocatableImage_eq_ok h
  rw [hsegments, List.pairwise_map]
  exact (layOut_pairwise hplacements).imp And.right

theorem relocatableImage_eq_error {o : Object} {file : Bytes} {s : SectionHeader}
    (h : o.codeSections.find? (Outside file) = some s) :
    o.relocatableImage file = .error (s.outside o.sectionNames file) := by
  rw [← codeHeaders_zipIdx] at h
  rw [relocatableImage, layOut_eq_error h]
  rfl

theorem exists_relocatableImage {o : Object} {file : Bytes}
    (h : ∀ s ∈ o.codeSections, ¬ s.Outside file) :
    ∃ image, o.relocatableImage file = .ok image ∧
      LaidOut o.sectionNames file 0 o.codeSections image.segments image.sections := by
  rw [← codeHeaders_zipIdx] at h ⊢
  obtain ⟨placements, hplacements, hlayout⟩ := layOut_eq_ok o.sectionNames h 0
  rw [relocatableImage, hplacements]
  exact ⟨_, rfl, hlayout⟩

/-- An object is refused exactly if a section of instructions reaches past the end of the file, and
the error speaks of the first that does. Otherwise those sections are laid out from address zero on
in their order. Each ends at or below the start of all later ones, so no two share an address. -/
theorem relocatableImage_layout (o : Object) (file : Bytes) :
    ((∃ e, o.relocatableImage file = .error e) ↔ ∃ s ∈ o.codeSections, s.Outside file) ∧
    (∀ e, o.relocatableImage file = .error e →
      ∃ s, o.codeSections.find? (Outside file) = some s ∧ e = s.outside o.sectionNames file) ∧
    ∀ image, o.relocatableImage file = .ok image →
      LaidOut o.sectionNames file 0 o.codeSections image.segments image.sections ∧
      image.segments.Pairwise fun s t => s.endAddress ≤ t.base.toNat ∧
        ∀ address, ¬ (s.contains address = true ∧ t.contains address = true) := by
  cases hfind : o.codeSections.find? (Outside file) with
  | some s =>
    have herror := relocatableImage_eq_error hfind
    have hout : s.Outside file := by simpa using List.find?_some hfind
    refine ⟨⟨fun _ => ⟨s, List.mem_of_find?_eq_some hfind, hout⟩, fun _ => ⟨_, herror⟩⟩, ?_, ?_⟩
    · intro e he
      exact ⟨s, rfl, Except.error.inj (he.symm.trans herror)⟩
    · intro image himage
      rw [herror] at himage
      cases himage
  | none =>
    have hinside : ∀ s ∈ o.codeSections, ¬ s.Outside file := by
      simpa using List.find?_eq_none.mp hfind
    obtain ⟨image, himage, hlayout⟩ := exists_relocatableImage hinside
    refine ⟨⟨?_, ?_⟩, ?_, ?_⟩
    · rintro ⟨e, he⟩
      rw [himage] at he
      cases he
    · rintro ⟨s, hs, hout⟩
      exact absurd hout (hinside s hs)
    · intro e he
      rw [himage] at he
      cases he
    · intro image' himage'
      obtain rfl : image = image' := Except.ok.inj (himage.symm.trans himage')
      exact ⟨hlayout, (relocatableImage_pairwise himage).imp fun hle =>
        ⟨hle, not_contains_of_endAddress_le hle⟩⟩

/-- An object with nothing but sections of instructions, each given by alignment, offset and
size. -/
def ofCode (parts : List (UInt64 × UInt64 × UInt64)) : Object :=
  { header := ⟨encoding64, Header.relocatable, Header.aarch64, 0, 0, 0, 0, 0⟩
    programs := []
    sections := parts.map fun (alignment, offset, size) =>
      ⟨0, 1, allocated ||| instructionFlag, 0, offset, size, 0, alignment, 0⟩
    sectionNames := .empty
    symbols := []
    symbolNames := .empty
    dynamicSymbols := []
    dynamicNames := .empty }

/-- Alignments of zero, twelve and near the last address, where bases and ends are cut; and two
sections outside the file, where the offset and size of the first wrap around to zero. -/
theorem relocatableImage_layout_extreme :
    let file := List.replicate 8 0x1F
    let accepted := ofCode [(0, 0, 4), (12, 0, 8), (0xFFFFFFFFFFFFFFF4, 0, 8),
      (0xFFFFFFFFFFFFFFFC, 0, 8), (4, 0, 8)]
    let refused := ofCode [(4, 0, 8), (4, 8, 0xFFFFFFFFFFFFFFF8), (4, 0, 9)]
    let error := Error.outOfBounds (.named "") 8 0xFFFFFFFFFFFFFFF8 8
    (∃ image, accepted.relocatableImage file = .ok image ∧
      image.segments.map (·.base) =
        [0, 12, 0xFFFFFFFFFFFFFFF4, 0xFFFFFFFFFFFFFFFC, 0xFFFFFFFFFFFFFFFF] ∧
      LaidOut .empty file 0 accepted.codeSections image.segments image.sections) ∧
    refused.relocatableImage file = .error error ∧
    ∃ s, refused.codeSections.find? (Outside file) = some s ∧ error = s.outside .empty file := by
  intro file accepted refused error
  have hrefused : refused.relocatableImage file = .error error := by decide +kernel
  obtain ⟨image, himage, hbases⟩ : ∃ image, accepted.relocatableImage file = .ok image ∧
      image.segments.map (·.base) =
        [0, 12, 0xFFFFFFFFFFFFFFF4, 0xFFFFFFFFFFFFFFFC, 0xFFFFFFFFFFFFFFFF] :=
    ⟨_, rfl, by decide +kernel⟩
  have hlayout := ((relocatableImage_layout accepted file).2.2 image himage).1
  exact ⟨⟨image, himage, hbases, hlayout⟩, hrefused,
    (relocatableImage_layout refused file).2.1 error hrefused⟩

end Object
end IndirectBranch.Elf
