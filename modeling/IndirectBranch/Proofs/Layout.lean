import IndirectBranch.Elf.Image

/-! Where the segments of a parsed file lie. Those of a linked file end inside the address space.
The sections of a relocatable object are laid out one after another in unbounded arithmetic, and
each base is then cut to the last address; what lies before a section ends at or below it. -/
namespace IndirectBranch

/-- The end of the bytes is an address too, so none of them wraps around. -/
def Segment.Fits (s : Segment) : Prop := s.base.toNat + s.bytes.length ≤ lastAddress

instance (s : Segment) : Decidable s.Fits := inferInstanceAs (Decidable (_ ≤ lastAddress))

theorem saturate_le_lastAddress (n : Nat) : saturate n ≤ lastAddress := Nat.min_le_right _ _

theorem saturate_le_saturate {n m : Nat} (h : n ≤ m) : saturate n ≤ saturate m := by
  unfold saturate
  omega

theorem saturate_saturate_add (n m : Nat) : saturate (saturate n + m) = saturate (n + m) := by
  unfold saturate
  omega

namespace Elf

theorem exists_ok_of_bind {ε α β : Type} {first : Except ε α} {next : α → Except ε β} {result : β}
    (h : first >>= next = .ok result) : ∃ a, first = .ok a ∧ next a = .ok result := by
  cases first with
  | error e => cases h
  | ok a => exact ⟨a, rfl, h⟩

theorem fileSlice_eq_ok {file : Bytes} {part : Part} {offset size : UInt64} {bytes : Bytes}
    (h : fileSlice file part offset size = .ok bytes) :
    bytes = (file.drop offset.toNat).take size.toNat ∧ bytes.length = size.toNat := by
  simp only [fileSlice] at h
  split at h
  next hle =>
    cases h
    refine ⟨rfl, ?_⟩
    rw [List.length_take, List.length_drop]
    omega
  next => cases h

namespace Object

/-! Linked files. -/

theorem loadSegment_fits {file : Bytes} {p : ProgramHeader} {index : Nat} {s : Segment}
    (h : loadSegment file p index = .ok s) : s.Fits := by
  simp only [loadSegment] at h
  split at h
  · cases h
  rename_i hsize
  split at h
  · obtain ⟨bytes, hbytes, h⟩ := exists_ok_of_bind h
    cases h
    have hlength := (fileSlice_eq_ok hbytes).2
    simp only [Segment.Fits, Segment.withMemorySize, Segment.new]
    omega
  · cases h
    simp only [Segment.Fits, Segment.withMemorySize, Segment.new, List.length_nil]
    omega

theorem loadSegments_fits {file : Bytes} {headers : List (ProgramHeader × Nat)}
    {segments : List Segment} (h : loadSegments file headers = .ok segments) :
    ∀ s ∈ segments, s.Fits := by
  induction headers generalizing segments with
  | nil =>
    cases h
    simp
  | cons header rest ih =>
    obtain ⟨p, index⟩ := header
    unfold loadSegments at h
    split at h
    · obtain ⟨s, hs, h⟩ := exists_ok_of_bind h
      obtain ⟨others, hothers, h⟩ := exists_ok_of_bind h
      cases h
      exact List.forall_mem_cons.mpr ⟨loadSegment_fits hs, ih hothers⟩
    · exact ih h

theorem linkedImage_fits {o : Object} {file : Bytes} {image : Image}
    (h : o.linkedImage file = .ok image) : ∀ s ∈ image.segments, s.Fits := by
  obtain ⟨segments, hsegments, h⟩ := exists_ok_of_bind h
  cases h
  exact loadSegments_fits hsegments

/-! Relocatable objects. -/

theorem le_roundUp (n : Nat) {alignment : Nat} (h : 0 < alignment) : n ≤ roundUp n alignment := by
  have hdiv := Nat.div_add_mod (n + alignment - 1) alignment
  have hmod := Nat.mod_lt (n + alignment - 1) h
  rw [Nat.mul_comm] at hdiv
  unfold roundUp
  omega

theorem alignUp_of_pos (n : Nat) {alignment : Nat} (h : 0 < alignment) :
    alignUp n alignment = saturate (roundUp n alignment) := by
  rw [alignUp, Nat.max_eq_left h]

/-- A cursor that was cut to the last address leads to the same base as the one before the cut. -/
theorem alignUp_saturate (n : Nat) {alignment : Nat} (h : 0 < alignment) :
    alignUp (saturate n) alignment = saturate (roundUp n alignment) := by
  by_cases hn : n ≤ lastAddress
  · have hcut : saturate n = n := Nat.min_eq_left hn
    rw [hcut, alignUp_of_pos n h]
  · have hcut : saturate n = lastAddress := Nat.min_eq_right (by omega)
    have hlast := le_roundUp lastAddress h
    have hround := le_roundUp n h
    rw [hcut, alignUp_of_pos lastAddress h, saturate, saturate, Nat.min_eq_right hlast,
      Nat.min_eq_right (by omega)]

/-- The range of a section in an address space without end. -/
structure Slot where
  index : Nat
  base : Nat
  size : Nat
  deriving DecidableEq, Repr

def slots (cursor : Nat) : List (SectionHeader × Nat) → List Slot
  | [] => []
  | (s, index) :: rest =>
    if isLaidOut s then
      let base := roundUp cursor (max s.alignment.toNat 4)
      ⟨index, base, s.size.toNat⟩ :: slots (base + s.size.toNat) rest
    else slots cursor rest

theorem le_base_of_mem_slots {cursor : Nat} {headers : List (SectionHeader × Nat)} {x : Slot}
    (h : x ∈ slots cursor headers) : cursor ≤ x.base := by
  induction headers generalizing cursor with
  | nil => cases h
  | cons header rest ih =>
    obtain ⟨s, index⟩ := header
    have hround := le_roundUp cursor (show 0 < max s.alignment.toNat 4 by omega)
    simp only [slots] at h
    split at h
    · rcases List.mem_cons.mp h with rfl | h
      · exact hround
      · have := ih h
        omega
    · exact ih h

/-- Every slot ends at or below the start of all later ones. -/
theorem slots_pairwise (cursor : Nat) (headers : List (SectionHeader × Nat)) :
    (slots cursor headers).Pairwise fun x y => x.base + x.size ≤ y.base := by
  induction headers generalizing cursor with
  | nil => exact List.Pairwise.nil
  | cons header rest ih =>
    obtain ⟨s, index⟩ := header
    simp only [slots]
    split
    · exact List.pairwise_cons.mpr ⟨fun y hy => le_base_of_mem_slots hy, ih _⟩
    · exact ih _

theorem map_index_slots (cursor : Nat) (headers : List (SectionHeader × Nat)) :
    (slots cursor headers).map (·.index) =
      (headers.filter fun header => isLaidOut header.1).map (·.2) := by
  induction headers generalizing cursor with
  | nil => rfl
  | cons header rest ih =>
    obtain ⟨s, index⟩ := header
    simp only [slots, List.filter_cons]
    split
    · simp only [List.map_cons, ih]
    · exact ih _

theorem map_index_slots_sublist (cursor : Nat) (headers : List (SectionHeader × Nat)) :
    ((slots cursor headers).map (·.index)).Sublist (headers.map (·.2)) := by
  rw [map_index_slots]
  exact List.filter_sublist.map _

def Placement.slot (p : Placement) : Slot := ⟨p.index, p.base.toNat, p.bytes.length⟩

/-- A slot in the address space: its base is cut to the last address. -/
def Slot.clamp (x : Slot) : Slot := { x with base := saturate x.base }

/-- The layout follows the slots, each cut to the last address. -/
theorem layOut_slots {names : StringTable} {file : Bytes} (cursor : Nat)
    {headers : List (SectionHeader × Nat)} {placements : List Placement}
    (h : layOut names file (saturate cursor) headers = .ok placements) :
    placements.map Placement.slot = (slots cursor headers).map Slot.clamp := by
  induction headers generalizing cursor placements with
  | nil =>
    cases h
    rfl
  | cons header rest ih =>
    obtain ⟨s, index⟩ := header
    unfold layOut at h
    unfold slots
    split at h
    · rename_i hlaid
      obtain ⟨bytes, hbytes, h⟩ := exists_ok_of_bind h
      obtain ⟨others, hothers, h⟩ := exists_ok_of_bind h
      cases h
      have hbase := alignUp_saturate cursor (show 0 < max s.alignment.toNat 4 by omega)
      rw [hbase, saturate_saturate_add] at hothers
      simp only [hlaid, ↓reduceIte, List.map_cons, ih _ hothers, hbase, Placement.slot, Slot.clamp,
        toNat_ofNat_of_le (saturate_le_lastAddress _), (fileSlice_eq_ok hbytes).2]
    · rename_i hskip
      simp only [hskip, Bool.false_eq_true, ↓reduceIte]
      exact ih _ h

/-- Placements come in the order of their sections, and each ends at or below the start of all
later ones. -/
theorem layOut_pairwise {names : StringTable} {file : Bytes} {sections : List SectionHeader}
    {placements : List Placement} (h : layOut names file 0 sections.zipIdx = .ok placements) :
    placements.Pairwise fun S T =>
      S.index < T.index ∧ saturate (S.base.toNat + S.bytes.length) ≤ T.base.toNat := by
  have hindex : (slots 0 sections.zipIdx).Pairwise fun x y => x.index < y.index := by
    apply List.pairwise_map.mp
    apply List.Pairwise.sublist (map_index_slots_sublist 0 sections.zipIdx)
    rw [List.zipIdx_map_snd]
    exact List.pairwise_lt_range'
  have hclamp : ((slots 0 sections.zipIdx).map Slot.clamp).Pairwise fun x y =>
      x.index < y.index ∧ saturate (x.base + x.size) ≤ y.base := by
    apply List.pairwise_map.mpr
    apply (hindex.and (slots_pairwise 0 sections.zipIdx)).imp
    rintro x y ⟨hlt, hle⟩
    refine ⟨hlt, ?_⟩
    calc saturate (saturate x.base + x.size) = saturate (x.base + x.size) :=
          saturate_saturate_add _ _
      _ ≤ saturate y.base := saturate_le_saturate hle
  rw [← layOut_slots 0 h] at hclamp
  exact List.pairwise_map.mp hclamp

theorem relocatableImage_eq_ok {o : Object} {file : Bytes} {image : Image}
    (h : o.relocatableImage file = .ok image) :
    ∃ placements, layOut o.sectionNames file 0 o.sections.zipIdx = .ok placements ∧
      image.segments = placements.map (fun p => Segment.executable p.base p.bytes) ∧
      image.symbols = o.placedSymbols (placeIn placements) := by
  obtain ⟨placements, hplacements, h⟩ := exists_ok_of_bind h
  cases h
  exact ⟨placements, hplacements, rfl, rfl⟩

theorem relocatableImage_executableSegments {o : Object} {file : Bytes} {image : Image}
    (h : o.relocatableImage file = .ok image) : image.executableSegments = image.segments := by
  obtain ⟨placements, -, hsegments, -⟩ := relocatableImage_eq_ok h
  rw [Image.executableSegments, hsegments, List.filter_eq_self]
  simp [Segment.executable, Segment.new, Permissions.readExecute]

/-- Every section that has bytes ends inside the address space. -/
def LayoutFits (o : Object) : Prop :=
  ∀ x ∈ slots 0 o.sections.zipIdx, x.size = 0 ∨ x.base + x.size ≤ lastAddress

instance (o : Object) : Decidable o.LayoutFits :=
  inferInstanceAs (Decidable (∀ x ∈ slots 0 o.sections.zipIdx, _))

theorem relocatableImage_fits_iff {o : Object} {file : Bytes} {image : Image}
    (h : o.relocatableImage file = .ok image) : (∀ s ∈ image.segments, s.Fits) ↔ o.LayoutFits := by
  obtain ⟨placements, hplacements, hsegments, -⟩ := relocatableImage_eq_ok h
  have hslots := layOut_slots 0 hplacements
  calc (∀ s ∈ image.segments, s.Fits)
      ↔ ∀ y ∈ placements.map Placement.slot, y.base + y.size ≤ lastAddress := by
        simp [hsegments, Segment.Fits, Segment.executable, Segment.new, Placement.slot]
    _ ↔ ∀ x ∈ slots 0 o.sections.zipIdx, saturate x.base + x.size ≤ lastAddress := by
        simp [hslots, Slot.clamp]
    _ ↔ o.LayoutFits := by
        refine forall₂_congr fun x _ => ?_
        unfold saturate
        omega

theorem toImage_eq_ok {o : Object} {file : Bytes} {image : Image} (h : o.toImage file = .ok image) :
    (o.isRelocatable = true ∧ o.relocatableImage file = .ok image) ∨
      (o.isRelocatable = false ∧ o.linkedImage file = .ok image) := by
  unfold toImage at h
  split at h
  · cases h
  split at h
  · cases h
  split at h
  · cases h
  split at h
  · exact .inl ⟨‹_›, h⟩
  · exact .inr ⟨Bool.eq_false_iff.mpr ‹_›, h⟩

end Object

theorem parseImage_eq_ok {file : Bytes} {image : Image} (h : parseImage file = .ok image) :
    ∃ o, Object.parse file = .ok o ∧ o.toImage file = .ok image := by
  unfold parseImage at h
  split at h
  · cases h
  · exact ⟨_, ‹_›, h⟩

/-- The segments of a parsed file fit into the address space, unless the file is a relocatable
object whose layout does not. -/
theorem segments_fit_iff {file : Bytes} {image : Image} (h : parseImage file = .ok image) :
    ∃ o, Object.parse file = .ok o ∧
      ((∀ s ∈ image.executableSegments, s.Fits) ↔ (o.isRelocatable = true → o.LayoutFits)) := by
  obtain ⟨o, ho, himage⟩ := parseImage_eq_ok h
  refine ⟨o, ho, ?_⟩
  rcases Object.toImage_eq_ok himage with ⟨hrel, himage⟩ | ⟨hrel, himage⟩
  · rw [Object.relocatableImage_executableSegments himage,
      Object.relocatableImage_fits_iff himage]
    exact ⟨fun hfits _ => hfits, fun hfits => hfits hrel⟩
  · have hfits := Object.linkedImage_fits himage
    constructor
    · intro _ hrel'
      simp [hrel'] at hrel
    · intro _ s hs
      exact hfits s (List.mem_filter.mp hs).1

end Elf
end IndirectBranch
