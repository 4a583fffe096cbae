import Mathlib.Data.List.Pairwise
import IndirectBranch.Proofs.Layout
import IndirectBranch.Proofs.ObjectFile
import IndirectBranch.Proofs.Verdict

/-! Which symbol exempts a branch of a relocatable object. Attribution looks at the whole layout,
not at sections, so the nearest symbol may belong to another section than the branch. It belongs to
the same one if that section has a symbol at or below the branch and the symbols of all others lie
inside their own sections. -/
namespace IndirectBranch
namespace Elf

structure NamedEntry where
  name : String
  entry : SymbolEntry
  deriving DecidableEq, Repr

def SymbolEntry.named? (names : StringTable) (s : SymbolEntry) : Option NamedEntry :=
  let name := names.nameAt s.name
  if s.sectionIndex = undefinedSection ∨ s.kind = fileKind ∨ s.kind = sectionKind ∨ name = "" ∨
      isMappingName name then none
  else some ⟨name, s⟩

theorem SymbolEntry.toSymbol?_eq (names : StringTable) (place : Nat → UInt64 → Option UInt64)
    (s : SymbolEntry) :
    s.toSymbol? names place = (s.named? names).bind fun x =>
      (place x.entry.sectionIndex x.entry.value).map fun address => ⟨x.name, address⟩ := by
  unfold toSymbol? named?
  simp only
  split <;> rfl

namespace Object

def keptEntries (o : Object) : List NamedEntry :=
  o.symbols.filterMap (SymbolEntry.named? o.symbolNames) ++
    o.dynamicSymbols.filterMap (SymbolEntry.named? o.dynamicNames)

theorem placedSymbols_eq (o : Object) (place : Nat → UInt64 → Option UInt64) :
    o.placedSymbols place = o.keptEntries.filterMap fun x =>
      (place x.entry.sectionIndex x.entry.value).map fun address => ⟨x.name, address⟩ := by
  have htable (names : StringTable) : SymbolEntry.toSymbol? names place = fun s =>
      (SymbolEntry.named? names s).bind fun x =>
        (place x.entry.sectionIndex x.entry.value).map fun address => ⟨x.name, address⟩ :=
    funext (SymbolEntry.toSymbol?_eq names place)
  rw [placedSymbols, keptEntries, List.filterMap_append, List.filterMap_filterMap,
    List.filterMap_filterMap, htable, htable]

/-- Entry `x` is kept, section `T` of the layout defines it, and it comes to lie at `address`. -/
structure Placed (o : Object) (placements : List Placement) (x : NamedEntry) (T : Placement)
    (address : UInt64) : Prop where
  kept : x ∈ o.keptEntries
  laidOut : T ∈ placements
  defined : x.entry.sectionIndex = T.index
  address_eq : address.toNat = T.base.toNat + x.entry.value.toNat

/-- The placements belong to different sections, and one ends at or below the start of the
other. -/
def Placement.Apart (S T : Placement) : Prop :=
  S.index ≠ T.index ∧ (saturate (S.base.toNat + S.bytes.length) ≤ T.base.toNat ∨
    saturate (T.base.toNat + T.bytes.length) ≤ S.base.toNat)

instance : Std.Symm Placement.Apart := ⟨fun _ _ h => ⟨h.1.symm, h.2.symm⟩⟩

section Layout

variable {o : Object} {names : StringTable} {file : Bytes} {sections : List SectionHeader}
  {placements : List Placement}

theorem apart_of_ne (h : layOut names file 0 sections.zipIdx = .ok placements) {S T : Placement}
    (hS : S ∈ placements) (hT : T ∈ placements) (hne : S ≠ T) : S.Apart T := by
  have hapart : placements.Pairwise Placement.Apart :=
    (layOut_pairwise h).imp fun hST => ⟨Nat.ne_of_lt hST.1, .inl hST.2⟩
  exact hapart.forall hS hT hne

theorem eq_of_index_eq (h : layOut names file 0 sections.zipIdx = .ok placements)
    {S T : Placement} (hS : S ∈ placements) (hT : T ∈ placements) (hindex : S.index = T.index) :
    S = T := by
  by_contra hne
  exact (apart_of_ne h hS hT hne).1 hindex

/-- Sections have one placement each, so it does not matter which of them is found first. -/
theorem placeIn_eq_some_iff (h : layOut names file 0 sections.zipIdx = .ok placements)
    {index : Nat} {value address : UInt64} :
    placeIn placements index value = some address ↔
      ∃ T ∈ placements, index = T.index ∧ address.toNat = T.base.toNat + value.toNat := by
  constructor
  · intro hplace
    obtain ⟨T, hfind, hT⟩ := Option.bind_eq_some_iff.mp hplace
    have hindex : T.index = index := by simpa using List.find?_some hfind
    exact ⟨T, List.mem_of_find?_eq_some hfind, hindex.symm,
      ite_lastAddress_eq_some_iff.mp hT⟩
  · rintro ⟨T, hT, rfl, haddress⟩
    have hfind : placements.find? (·.index == T.index) = some T := by
      have hsome : (placements.find? (·.index == T.index)).isSome := by
        rw [List.find?_isSome]
        exact ⟨T, hT, beq_self_eq_true T.index⟩
      obtain ⟨T', hfind⟩ := Option.isSome_iff_exists.mp hsome
      have hindex : T'.index = T.index := by simpa using List.find?_some hfind
      rw [hfind, eq_of_index_eq h (List.mem_of_find?_eq_some hfind) hT hindex]
    exact Option.bind_eq_some_iff.mpr ⟨T, hfind,
      ite_lastAddress_eq_some_iff.mpr haddress⟩

theorem mem_placedSymbols_iff (h : layOut names file 0 sections.zipIdx = .ok placements)
    {s : Symbol} :
    s ∈ o.placedSymbols (placeIn placements) ↔
      ∃ x T, o.Placed placements x T s.address ∧ x.name = s.name := by
  rw [placedSymbols_eq, List.mem_filterMap]
  constructor
  · rintro ⟨x, hx, hs⟩
    obtain ⟨address, hplace, rfl⟩ := Option.map_eq_some_iff.mp hs
    obtain ⟨T, hT, hindex, haddress⟩ := (placeIn_eq_some_iff h).mp hplace
    exact ⟨x, T, ⟨hx, hT, hindex, haddress⟩, rfl⟩
  · rintro ⟨x, T, hplaced, hname⟩
    refine ⟨x, hplaced.kept, Option.map_eq_some_iff.mpr ⟨s.address, ?_, ?_⟩⟩
    · exact (placeIn_eq_some_iff h).mpr
        ⟨T, hplaced.laidOut, hplaced.defined, hplaced.address_eq⟩
    · rw [hname]

/-- Entry `x` of section `T` lies at `a`, nothing is placed between `a` and `address`, and an
exemption for the name of `x` reaches up to `address`. -/
structure Exempts (o : Object) (placements : List Placement) (exemptions : List Exemption)
    (address : UInt64) (x : NamedEntry) (T : Placement) (a : UInt64) : Prop where
  placed : o.Placed placements x T a
  below : a.toNat ≤ address.toNat
  greatest : ∀ y U b, o.Placed placements y U b → b.toNat ≤ address.toNat → b.toNat ≤ a.toNat
  covered : ∃ e ∈ exemptions, x.name = e.symbol ∧ address.toNat - a.toNat ≤ e.maxOffset.toNat

theorem exists_exempts (h : layOut names file 0 sections.zipIdx = .ok placements)
    {exemptions : List Exemption} {address : UInt64}
    (hexempt : Exempt exemptions (o.placedSymbols (placeIn placements)) address.toNat) :
    ∃ x T a, o.Exempts placements exemptions address x T a := by
  obtain ⟨s, hs, -, e, he, hname, hoffset⟩ := hexempt
  obtain ⟨x, T, hplaced, hx⟩ := (mem_placedSymbols_iff h).mp hs.mem
  refine ⟨x, T, s.address, hplaced, hs.below, ?_, e, he, hx.trans hname, hoffset⟩
  intro y U b hb hle
  exact hs.greatest ⟨y.name, b⟩ ((mem_placedSymbols_iff h).mpr ⟨y, U, hb, rfl⟩) hle

/-- A kept entry of section `S` itself exempts what lies at `offset` in `S`. -/
def ExemptInSection (o : Object) (exemptions : List Exemption) (S : Placement) (offset : Nat) :
    Prop :=
  ∃ x ∈ o.keptEntries, x.entry.sectionIndex = S.index ∧
    ∃ e ∈ exemptions, x.name = e.symbol ∧ x.entry.value.toNat ≤ offset ∧
      offset - x.entry.value.toNat ≤ e.maxOffset.toNat

theorem Exempts.inSection {exemptions : List Exemption} {address a : UInt64} {x : NamedEntry}
    {S : Placement} {offset : Nat} (h : o.Exempts placements exemptions address x S a)
    (haddress : address.toNat = S.base.toNat + offset) :
    o.ExemptInSection exemptions S offset := by
  obtain ⟨e, he, hname, hoffset⟩ := h.covered
  have ha := h.placed.address_eq
  have hbelow := h.below
  exact ⟨x, h.placed.kept, h.placed.defined, e, he, hname, by omega, by omega⟩

/-- An entry of `S` hides all that lies below it. -/
theorem Exempts.inSection_of_own {exemptions : List Exemption} {address a b : UInt64}
    {x y : NamedEntry} {S T : Placement} {offset : Nat}
    (h : o.Exempts placements exemptions address x T a)
    (haddress : address.toNat = S.base.toNat + offset)
    (hown : o.Placed placements y S b) (hle : b.toNat ≤ address.toNat)
    (hforeign : ∀ z U c, o.Placed placements z U c → b.toNat ≤ c.toNat →
      c.toNat ≤ address.toNat → U = S) :
    o.ExemptInSection exemptions S offset := by
  have hT : T = S := hforeign x T a h.placed (h.greatest y S b hown hle) h.below
  subst hT
  exact h.inSection haddress

/-- What lies inside another section lies outside `S`, as long as both end in the address space. -/
theorem eq_of_inside (h : layOut names file 0 sections.zipIdx = .ok placements)
    {S T : Placement} (hS : S ∈ placements) (hT : T ∈ placements) {offset value : Nat}
    (hoffset : offset < S.bytes.length) (hvalue : T ≠ S → value < T.bytes.length)
    (hlast : S.base.toNat + offset < lastAddress) (hlow : S.base.toNat ≤ T.base.toNat + value)
    (hhigh : T.base.toNat + value ≤ S.base.toNat + offset) : T = S := by
  by_contra hne
  have hinside := hvalue hne
  rcases (apart_of_ne h hT hS hne).2 with hbefore | hafter
  · unfold saturate at hbefore
    omega
  · unfold saturate at hafter
    omega

/-- The entries of `S` hide those of other sections that lie inside their own. -/
theorem Exempts.inSection_of_inside (h : layOut names file 0 sections.zipIdx = .ok placements)
    {exemptions : List Exemption} {address a : UInt64} {x : NamedEntry} {S T : Placement}
    {offset : Nat} (hx : o.Exempts placements exemptions address x T a) (hS : S ∈ placements)
    (haddress : address.toNat = S.base.toNat + offset) (hoffset : offset < S.bytes.length)
    (hlast : address.toNat < lastAddress)
    (hown : ∃ y ∈ o.keptEntries, y.entry.sectionIndex = S.index ∧ y.entry.value.toNat ≤ offset)
    (hinside : ∀ z ∈ o.keptEntries, ∀ U ∈ placements, z.entry.sectionIndex = U.index → U ≠ S →
      z.entry.value.toNat < U.bytes.length) :
    o.ExemptInSection exemptions S offset := by
  obtain ⟨y, hy, hindex, hle⟩ := hown
  have hplaced : o.Placed placements y S (UInt64.ofNat (S.base.toNat + y.entry.value.toNat)) :=
    ⟨hy, hS, hindex, toNat_ofNat_of_le (by omega)⟩
  have hb := hplaced.address_eq
  refine hx.inSection_of_own haddress hplaced (by omega) fun z U c hz hlow hhigh => ?_
  have hc := hz.address_eq
  exact eq_of_inside h hS hz.laidOut hoffset (hinside z hz.kept U hz.laidOut hz.defined)
    (by omega) (by omega) (by omega)

end Layout

theorem parseImage_relocatable {o : Object} {file : Bytes} {image : Image}
    (ho : Object.parse file = .ok o) (hrel : o.isRelocatable = true)
    (h : parseImage file = .ok image) :
    ∃ placements, layOut o.sectionNames file 0 o.sections.zipIdx = .ok placements ∧
      image.executableSegments = placements.map (fun p => Segment.executable p.base p.bytes) ∧
      image.symbols = o.placedSymbols (placeIn placements) := by
  obtain ⟨o', ho', himage⟩ := parseImage_eq_ok h
  obtain rfl : o = o' := Except.ok.inj (ho.symm.trans ho')
  rcases toImage_eq_ok himage with ⟨-, himage⟩ | ⟨hlinked, -⟩
  · rw [relocatableImage_executableSegments himage]
    exact relocatableImage_eq_ok himage
  · simp [hrel] at hlinked

end Object
end Elf

open Elf.Object in
/-- Findings of a relocatable object that pass do so through the nearest symbol of the whole layout.
It belongs to the section of the finding if that section has a symbol at or below the finding and no
other section has one from there up to the finding, so in particular if the symbols of the other
sections lie inside them. -/
theorem noncritical_attribution {file : Bytes} {o : Elf.Object} {p : Policy} {d : Disassembler}
    {path : String} {scan : FileScan} (ho : Elf.Object.parse file = .ok o)
    (hrel : o.isRelocatable = true)
    (hscan : (Auditor.forPolicy p d).auditBytes path file = .ok scan) :
    ∃ placements, layOut o.sectionNames file 0 o.sections.zipIdx = .ok placements ∧
      scan.segments.length = placements.length ∧
      ∀ (k : Nat) (S : Placement) (t : SegmentScan) (f : Finding),
        placements[k]? = some S → scan.segments[k]? = some t → f ∈ t.findings →
        f.critical = false →
        ∃ offset, f.address.toNat = S.base.toNat + offset ∧
          offset + instructionWidth ≤ S.bytes.length ∧
          (∃ x T a, o.Exempts placements p.exemptions f.address x T a) ∧
          ((∃ y b, o.Placed placements y S b ∧ b.toNat ≤ f.address.toNat ∧
              ∀ z T c, o.Placed placements z T c → b.toNat ≤ c.toNat →
                c.toNat ≤ f.address.toNat → T = S) →
            o.ExemptInSection p.exemptions S offset) ∧
          ((∃ y ∈ o.keptEntries, y.entry.sectionIndex = S.index ∧ y.entry.value.toNat ≤ offset) →
            (∀ z ∈ o.keptEntries, ∀ T ∈ placements, z.entry.sectionIndex = T.index → T ≠ S →
              z.entry.value.toNat < T.bytes.length) →
            f.address.toNat < lastAddress → o.ExemptInSection p.exemptions S offset) := by
  obtain ⟨image, himage, rfl⟩ := Auditor.auditBytes_eq_ok hscan
  obtain ⟨placements, hlayout, hsegments, hsymbols⟩ := parseImage_relocatable ho hrel himage
  refine ⟨placements, hlayout, by simp [Auditor.segments_auditImage, hsegments], ?_⟩
  intro k S t f hS ht hf hcritical
  obtain ⟨s, hs, rfl⟩ := Auditor.getElem?_segments_auditImage.mp ht
  obtain rfl : Segment.executable S.base S.bytes = s := by
    simpa [hsegments, hS] using hs
  obtain ⟨i, haddress, hbranch, hexempt⟩ :=
    Auditor.exists_finding_iff.mp ⟨f, hf, rfl, hcritical⟩
  have hcomplete : instructionWidth * i + instructionWidth ≤ S.bytes.length := hbranch.complete
  obtain ⟨x, T, a, hx⟩ : ∃ x T a, o.Exempts placements p.exemptions f.address x T a := by
    apply exists_exempts hlayout
    rw [← hsymbols]
    exact not_not.mp fun hnot => Bool.false_ne_true (hexempt.mpr hnot)
  refine ⟨instructionWidth * i, haddress, hcomplete, ⟨x, T, a, hx⟩, ?_, ?_⟩
  · rintro ⟨y, b, hown, hle, hforeign⟩
    exact hx.inSection_of_own haddress hown hle hforeign
  · intro hown hinside hlast
    have hoffset : instructionWidth * i < S.bytes.length :=
      Nat.lt_of_lt_of_le (Nat.lt_add_of_pos_right (by decide)) hcomplete
    exact hx.inSection_of_inside hlayout (List.mem_of_getElem? hS) haddress hoffset hlast hown
      hinside

open Elf.Object in
/-- Both sections start with a symbol of their own, so the `blr` passes through its own. -/
theorem noncritical_attribution_own :
    let file := Elf.relocatableFile
      [.code 4 [0xD503201F], .code 4 [0xD503201F, 0xD63F0000],
        .symbols 4 [[0, 0, 0, 0, 0, 0], [1, 0x12, 0, 1, 0, 0], [6, 0x12, 0, 2, 0, 0]],
        .strings ["main", "libc_start_init"]]
    ∃ o, Elf.Object.parse file = .ok o ∧ o.isRelocatable = true ∧
      o.ExemptInSection Policy.standard.exemptions
        ⟨2, 4, "", 8, [0x1F, 0x20, 0x03, 0xD5, 0x00, 0x00, 0x3F, 0xD6]⟩ 4 := by
  intro file
  obtain ⟨o, ho, hrel, hlayout, hkept⟩ : ∃ o, Elf.Object.parse file = .ok o ∧
      o.isRelocatable = true ∧ layOut o.sectionNames file 0 o.sections.zipIdx = .ok
        [⟨1, 0, "", 4, [0x1F, 0x20, 0x03, 0xD5]⟩,
          ⟨2, 4, "", 8, [0x1F, 0x20, 0x03, 0xD5, 0x00, 0x00, 0x3F, 0xD6]⟩] ∧
      o.keptEntries = [⟨"main", ⟨1, 0x12, 1, 0⟩⟩, ⟨"libc_start_init", ⟨6, 0x12, 2, 0⟩⟩] :=
    Elf.exists_parse (by decide +kernel)
  let s := Segment.executable 4 [0x1F, 0x20, 0x03, 0xD5, 0x00, 0x00, 0x3F, 0xD6]
  let image : Image :=
    ⟨[.executable 0 [0x1F, 0x20, 0x03, 0xD5], s], [⟨"", 0, 4⟩, ⟨"", 4, 8⟩],
      [⟨"main", 0⟩, ⟨"libc_start_init", 4⟩]⟩
  let a := Auditor.forPolicy .standard .mnemonic
  have himage : Elf.parseImage file = .ok image := by decide +kernel
  have hscan : a.auditBytes "a.o" file = .ok (a.auditImage "a.o" image) := by
    rw [Auditor.auditBytes, himage]
  have hexempt : Exempt a.exemptions image.symbols (8 : UInt64).toNat :=
    ⟨⟨"libc_start_init", 4⟩, ⟨by decide, by decide, [⟨"main", 0⟩], [], rfl, by decide⟩, by decide,
      by decide⟩
  obtain ⟨placements, hplacements, -, hfinding⟩ := noncritical_attribution ho hrel hscan
  obtain rfl := Except.ok.inj (hlayout.symm.trans hplacements)
  have hbranch : Branches a.classes s 1 := ⟨by decide, by decide, by decide⟩
  obtain ⟨f, hf, hat, hpasses⟩ : ∃ f ∈ (a.auditSegment image s).findings,
      f.address = 8 ∧ f.critical = false :=
    Auditor.exists_finding_iff.mpr
      ⟨1, rfl, hbranch, iff_of_false Bool.false_ne_true (not_not_intro hexempt)⟩
  obtain ⟨offset, haddress, -, -, -, hown⟩ := hfinding 1 _ _ f rfl rfl hf hpasses
  obtain rfl : 4 = offset := Nat.add_left_cancel (hat ▸ haddress)
  exact ⟨o, ho, hrel, hown (by simp [hkept]) (by simp [hkept]) (hat ▸ by decide)⟩

open Elf.Object in
/-- The second section has no symbol, and its `blr` passes through a symbol of the first. -/
theorem exemption_crosses_sections :
    let file := Elf.relocatableFile
      [.code 4 [0xD503201F], .code 4 [0xD63F0000],
        .symbols 4 [[0, 0, 0, 0, 0, 0], [1, 0x12, 0, 1, 0, 0]], .strings ["libc_start_init"]]
    ∃ o placements scan S t f, Elf.Object.parse file = .ok o ∧ o.isRelocatable = true ∧
      layOut o.sectionNames file 0 o.sections.zipIdx = .ok placements ∧
      (Auditor.forPolicy .standard .mnemonic).auditBytes "a.o" file = .ok scan ∧
      placements[1]? = some S ∧ scan.segments[1]? = some t ∧ f ∈ t.findings ∧
      f.critical = false ∧ ∀ x ∈ o.keptEntries, x.entry.sectionIndex ≠ S.index := by
  intro file
  obtain ⟨o, ho, hrel, hlayout, hkept⟩ : ∃ o, Elf.Object.parse file = .ok o ∧
      o.isRelocatable = true ∧ layOut o.sectionNames file 0 o.sections.zipIdx = .ok
        [⟨1, 0, "", 4, [0x1F, 0x20, 0x03, 0xD5]⟩, ⟨2, 4, "", 4, [0x00, 0x00, 0x3F, 0xD6]⟩] ∧
      ∀ x ∈ o.keptEntries, x.entry.sectionIndex ≠ 2 :=
    Elf.exists_parse (by decide +kernel)
  have hscan : (Auditor.forPolicy .standard .mnemonic).auditBytes "a.o" file = .ok
      ⟨"a.o", [⟨0, 4, .readExecute, [], []⟩,
        ⟨4, 4, .readExecute, [], [⟨4, ⟨0x00, 0x00, 0x3F, 0xD6⟩, "blr x0",
          "libc_start_init", 4, false, ["blr"]⟩]⟩]⟩ := by
    decide +kernel
  exact ⟨o, _, _, _, _, _, ho, hrel, hlayout, hscan, rfl, rfl, List.mem_singleton_self _, rfl, hkept⟩

end IndirectBranch
