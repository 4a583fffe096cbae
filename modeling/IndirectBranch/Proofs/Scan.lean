import IndirectBranch.Proofs.Instructions
import IndirectBranch.Scan

/-! What a scan of a segment finds. The scan stops at the first matching word whose address wraps
around; as addresses grow along the segment, this loses no word that has an address. -/
namespace IndirectBranch.Scan

theorem address?_eq_some_iff {base : UInt64} {index : Nat} {address : UInt64} :
    address? base index = some address ↔
      address.toNat = base.toNat + instructionWidth * index :=
  ite_lastAddress_eq_some_iff

theorem address?_isSome_iff {base : UInt64} {index : Nat} :
    (address? base index).isSome ↔ base.toNat + instructionWidth * index ≤ lastAddress := by
  by_cases hn : base.toNat + instructionWidth * index ≤ lastAddress <;> simp [address?, hn]

theorem mem_sightings_iff {classes : OpcodeClasses} {s : Segment} {ins : Instruction}
    {index : Nat} :
    (ins, index) ∈ sightings classes s ↔
      (instructions s.bytes)[index]? = some ins ∧ classes.hasMatch ins.word = true := by
  rw [sightings, List.mem_filter, List.mem_zipIdx_iff_getElem?]

/-- The offsets of the sightings: all complete chunks whose word belongs to some class. -/
theorem map_snd_sightings (classes : OpcodeClasses) (s : Segment) :
    (sightings classes s).map (·.2) =
      (List.range (s.bytes.length / instructionWidth)).filter fun i =>
        classes.hasMatch (wordAt s.bytes (instructionWidth * i)) := by
  have hrange : List.range (s.bytes.length / instructionWidth) =
      (instructions s.bytes).zipIdx.map (·.2) := by
    rw [List.zipIdx_map_snd, length_instructions, List.range_eq_range']
  rw [hrange, List.filter_map, sightings]
  congr 1
  apply List.filter_congr
  rintro ⟨ins, index⟩ hmem
  rw [List.mem_zipIdx_iff_getElem?] at hmem
  simp only [Function.comp_apply, word_of_getElem? hmem]

/-- Along a list that has `p` only before what lacks it, stopping and filtering agree. -/
theorem takeWhile_eq_filter {α : Type} {p : α → Bool} {l : List α}
    (h : l.Pairwise fun x y => p y = true → p x = true) : l.takeWhile p = l.filter p := by
  induction l with
  | nil => rfl
  | cons x rest ih =>
    obtain ⟨hx, hrest⟩ := List.pairwise_cons.mp h
    by_cases hp : p x = true
    · simp [hp, ih hrest]
    · have hnone : rest.filter p = [] := by
        simp only [List.filter_eq_nil_iff]
        exact fun y hy hpy => hp (hx y hy hpy)
      simp [hp, hnone]

theorem sightings_pairwise (classes : OpcodeClasses) (s : Segment) :
    (sightings classes s).Pairwise fun x y => x.2 < y.2 := by
  apply List.pairwise_map.mp
  rw [map_snd_sightings]
  exact List.pairwise_lt_range.filter _

/-- No sighting with an address is lost where the scan stops. -/
theorem findings_eq (classes : OpcodeClasses) (d : Disassembler) (symbols : SymbolIndex)
    (s : Segment) :
    findings classes d symbols s = (sightings classes s).filterMap fun (ins, index) =>
      (address? s.base index).map fun address => finding classes d symbols address ins := by
  have hstop : (sightings classes s).Pairwise fun x y =>
      (address? s.base y.2).isSome = true → (address? s.base x.2).isSome = true := by
    apply (sightings_pairwise classes s).imp
    intro x y hlt hy
    rw [address?_isSome_iff] at hy ⊢
    have := Nat.mul_le_mul_left instructionWidth (Nat.le_of_lt hlt)
    omega
  unfold findings
  rw [takeWhile_eq_filter hstop, List.filterMap_filter]
  congr 1
  funext ⟨ins, index⟩
  cases h : address? s.base index <;> simp [h]

theorem mem_findings_iff {classes : OpcodeClasses} {d : Disassembler} {symbols : SymbolIndex}
    {s : Segment} {f : Finding} :
    f ∈ findings classes d symbols s ↔
      ∃ ins index address, (instructions s.bytes)[index]? = some ins ∧
        classes.hasMatch ins.word = true ∧
        address.toNat = s.base.toNat + instructionWidth * index ∧
        f = finding classes d symbols address ins := by
  rw [findings_eq, List.mem_filterMap]
  constructor
  · rintro ⟨⟨ins, index⟩, hmem, hf⟩
    obtain ⟨hins, hmatch⟩ := mem_sightings_iff.mp hmem
    obtain ⟨address, haddress, rfl⟩ := Option.map_eq_some_iff.mp hf
    exact ⟨ins, index, address, hins, hmatch, address?_eq_some_iff.mp haddress, rfl⟩
  · rintro ⟨ins, index, address, hins, hmatch, haddress, rfl⟩
    refine ⟨(ins, index), mem_sightings_iff.mpr ⟨hins, hmatch⟩, ?_⟩
    simp only [address?_eq_some_iff.mpr haddress, Option.map_some]

end IndirectBranch.Scan
