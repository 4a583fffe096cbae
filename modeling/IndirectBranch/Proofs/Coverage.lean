import IndirectBranch.Proofs.Layout
import IndirectBranch.Proofs.ObjectFile
import IndirectBranch.Proofs.Scan

/-! How many findings a scan reports. Each matching chunk with an address gives one, so none is
lost in a segment that fits into the address space. Linked files have no other segments; a
relocatable object has one as soon as its layout runs past the last address. -/
namespace IndirectBranch
namespace Scan

def matchingChunks (classes : OpcodeClasses) (s : Segment) : List Nat :=
  (List.range (s.bytes.length / instructionWidth)).filter fun i =>
    classes.hasMatch (wordAt s.bytes (instructionWidth * i))

theorem length_findings (classes : OpcodeClasses) (d : Disassembler) (symbols : SymbolIndex)
    (s : Segment) :
    (findings classes d symbols s).length = (matchingChunks classes s).countP fun i =>
      s.base.toNat + instructionWidth * i ≤ lastAddress := by
  rw [findings_eq, List.length_filterMap_eq_countP, matchingChunks, ← map_snd_sightings,
    List.countP_map]
  apply List.countP_congr
  rintro ⟨ins, index⟩ _
  simp [address?_isSome_iff]

theorem stopsEarly_eq_false_iff {classes : OpcodeClasses} {s : Segment} :
    stopsEarly classes s = false ↔
      ∀ i ∈ matchingChunks classes s, s.base.toNat + instructionWidth * i ≤ lastAddress := by
  rw [matchingChunks, ← map_snd_sightings, List.forall_mem_map, stopsEarly, List.any_eq_false]
  refine forall₂_congr fun x _ => ?_
  rw [← address?_isSome_iff]
  cases h : address? s.base x.2 <;> simp [h]

theorem address_le_of_fits {s : Segment} (h : s.Fits) {classes : OpcodeClasses} {i : Nat}
    (hi : i ∈ matchingChunks classes s) :
    s.base.toNat + instructionWidth * i ≤ lastAddress := by
  have hlt := List.mem_range.mp (List.mem_filter.mp hi).1
  have hfits : s.base.toNat + s.bytes.length ≤ lastAddress := h
  simp only [instructionWidth] at hlt ⊢
  omega

theorem length_findings_of_fits {s : Segment} (h : s.Fits) (classes : OpcodeClasses)
    (d : Disassembler) (symbols : SymbolIndex) :
    (findings classes d symbols s).length = (matchingChunks classes s).length := by
  rw [length_findings, List.countP_eq_length]
  intro i hi
  exact decide_eq_true (address_le_of_fits h hi)

/-- A scan counts the matching chunks that have an address, and these are all of them exactly if
the file is linked or its layout fits. -/
theorem coverage_iff_layoutFits {file : Bytes} {image : Image}
    (h : Elf.parseImage file = .ok image) :
    (∀ classes d, (segments classes d image).map (·.findings.length) =
      image.executableSegments.map fun s => (matchingChunks classes s).countP fun i =>
        s.base.toNat + instructionWidth * i ≤ lastAddress) ∧
    ∃ o, Elf.Object.parse file = .ok o ∧
      ((o.isRelocatable = true → o.LayoutFits) ↔
        (∀ s ∈ image.executableSegments, s.Fits) ∧
        ∀ classes d,
          (segments classes d image).map (·.findings.length) =
            image.executableSegments.map (fun s => (matchingChunks classes s).length) ∧
          ∀ s ∈ image.executableSegments, stopsEarly classes s = false) := by
  constructor
  · intro classes d
    simp only [segments, List.map_map]
    exact List.map_congr_left fun s _ => length_findings classes d _ s
  obtain ⟨o, ho, hfits⟩ := Elf.segments_fit_iff h
  refine ⟨o, ho, hfits.symm.trans ⟨fun hall => ⟨hall, fun classes d => ⟨?_, ?_⟩⟩, And.left⟩⟩
  · simp only [segments, List.map_map]
    exact List.map_congr_left fun s hs => length_findings_of_fits (hall s hs) classes d _
  · intro s hs
    exact stopsEarly_eq_false_iff.mpr fun i hi => address_le_of_fits (hall s hs) hi

theorem coverage_upper_half :
    let file := Elf.relocatableFile
      [.code 4 [0xD503201F], .code (2 ^ 63) [0xD503201F, 0xD61F0200]]
    ∃ image, Elf.parseImage file = .ok image ∧
      (∀ s ∈ image.executableSegments, s.Fits) ∧
      ∀ classes d, (segments classes d image).map (·.findings.length) =
        image.executableSegments.map fun s => (matchingChunks classes s).length := by
  intro file
  have himage : Elf.parseImage file = .ok
      ⟨[.executable 0 [0x1F, 0x20, 0x03, 0xD5],
          .executable 0x8000000000000000 [0x1F, 0x20, 0x03, 0xD5, 0x00, 0x02, 0x1F, 0xD6]],
        [⟨"", 0, 4⟩, ⟨"", 0x8000000000000000, 8⟩], []⟩ := by
    decide +kernel
  obtain ⟨o, ho, hlayout⟩ : ∃ o, Elf.Object.parse file = .ok o ∧ o.LayoutFits :=
    Elf.exists_parse (by decide +kernel)
  obtain ⟨-, o', ho', hexact⟩ := coverage_iff_layoutFits himage
  obtain rfl : o = o' := Except.ok.inj (ho.symm.trans ho')
  obtain ⟨hfits, hcount⟩ := hexact.mp fun _ => hlayout
  exact ⟨_, himage, hfits, fun classes d => (hcount classes d).1⟩

/-- The third section is aligned past the last address: its base is cut, its end wraps around, and
the `br` in it is not found. -/
theorem wrapping_section_loses_branch :
    ∃ image, Elf.parseImage (Elf.relocatableFile
        [.code 4 [0xD503201F], .code (2 ^ 63) [0xD503201F],
          .code (2 ^ 63) [0xD503201F, 0xD61F0200]]) = .ok image ∧
      ¬ (∀ s ∈ image.executableSegments, s.Fits) ∧
      (segments .indirectBranches .hex image).map (·.findings.length) = [0, 0, 0] ∧
      image.executableSegments.map (fun s => (matchingChunks .indirectBranches s).length) =
        [0, 0, 1] := by
  refine ⟨⟨[.executable 0 [0x1F, 0x20, 0x03, 0xD5],
      .executable 0x8000000000000000 [0x1F, 0x20, 0x03, 0xD5],
      .executable 0xFFFFFFFFFFFFFFFF [0x1F, 0x20, 0x03, 0xD5, 0x00, 0x02, 0x1F, 0xD6]],
    [⟨"", 0, 4⟩, ⟨"", 0x8000000000000000, 4⟩, ⟨"", 0xFFFFFFFFFFFFFFFF, 8⟩], []⟩, ?_, ?_, ?_, ?_⟩
  all_goals decide +kernel

end Scan
end IndirectBranch
