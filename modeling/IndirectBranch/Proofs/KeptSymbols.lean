import IndirectBranch.Proofs.SectionAttribution
import IndirectBranch.Proofs.SectionLayout

/-! The symbols of an image. They are a part of the entries of the static symbol table and then of
the dynamic one, in the order of the tables: those that are defined, name neither a file nor a
section, and have a proper name. In a linked file they keep their values; in a relocatable object
each moves with its section, and those of sections that are not laid out are dropped. -/
namespace IndirectBranch.Elf

/-- The name marks a run of code or data: a dollar sign and a letter, and a dot before anything
more. -/
def MarksRun (name : String) : Prop :=
  ∃ kind ∈ ['x', 'd', 'a', 't'], ∃ rest, name.toList = '$' :: kind :: rest ∧
    (rest = [] ∨ ∃ more, rest = '.' :: more)

theorem isMappingName_iff {name : String} : isMappingName name = true ↔ MarksRun name := by
  unfold isMappingName
  split
  next kind rest hname =>
    have hrest : (rest.isEmpty || rest.head? == some '.') = true ↔
        rest = [] ∨ ∃ more, rest = '.' :: more := by
      rw [Bool.or_eq_true, List.isEmpty_iff, beq_iff_eq, List.head?_eq_some_iff]
    have hkind : (kind == 'x' || kind == 'd' || kind == 'a' || kind == 't') = true ↔
        kind ∈ ['x', 'd', 'a', 't'] := by
      simp [or_assoc]
    rw [Bool.and_eq_true, hkind, hrest]
    constructor
    · rintro ⟨hmem, hend⟩
      exact ⟨kind, hmem, rest, hname, hend⟩
    · rintro ⟨kind', hmem, rest', hname', hend⟩
      rw [hname] at hname'
      cases hname'
      exact ⟨hmem, hend⟩
  next hname =>
    refine iff_of_false Bool.false_ne_true ?_
    rintro ⟨kind, -, rest, hname', -⟩
    exact hname kind rest hname'

/-- The bytes from `offset` up to the next zero byte, or up to the end of the table, are the text
`name`. -/
def StringTable.Reads (t : StringTable) (offset : Nat) (name : String) : Prop :=
  Text.ofUtf8? ((t.bytes.drop offset).takeWhile (· ≠ 0)) = some name

/-- A name that is not empty has been read. -/
theorem StringTable.nameAt_eq_iff {t : StringTable} {offset : Nat} {name : String}
    (h : name ≠ "") : t.nameAt offset = name ↔ t.Reads offset name := by
  unfold nameAt Reads
  cases Text.ofUtf8? ((t.bytes.drop offset).takeWhile (· ≠ 0)) with
  | none => simpa using h.symm
  | some text => simp

structure TableEntry where
  names : StringTable
  entry : SymbolEntry
  deriving DecidableEq, Repr

namespace TableEntry

/-- The entry is worth keeping under this name. -/
structure Kept (x : TableEntry) (name : String) : Prop where
  defined : x.entry.sectionIndex ≠ SymbolEntry.undefinedSection
  notFile : x.entry.kind ≠ SymbolEntry.fileKind
  notSection : x.entry.kind ≠ SymbolEntry.sectionKind
  readable : x.names.Reads x.entry.name name
  nonempty : name ≠ ""
  proper : ¬ MarksRun name

theorem Kept.nameAt_eq {x : TableEntry} {name : String} (h : x.Kept name) :
    x.names.nameAt x.entry.name = name :=
  (StringTable.nameAt_eq_iff h.nonempty).mpr h.readable

theorem named?_eq_some_iff {x : TableEntry} {y : NamedEntry} :
    x.entry.named? x.names = some y ↔ y.entry = x.entry ∧ x.Kept y.name := by
  unfold SymbolEntry.named?
  simp only
  constructor
  · intro h
    split at h
    next => cases h
    next hkept =>
      cases h
      simp only [not_or] at hkept
      obtain ⟨hdefined, hfile, hsection, hname, hmapping⟩ := hkept
      refine ⟨rfl, hdefined, hfile, hsection, ?_, hname, ?_⟩
      · exact (StringTable.nameAt_eq_iff hname).mp rfl
      · exact fun hmarks => hmapping (isMappingName_iff.mpr hmarks)
  · rintro ⟨hentry, h⟩
    have hkept : ¬ (x.entry.sectionIndex = SymbolEntry.undefinedSection ∨
        x.entry.kind = SymbolEntry.fileKind ∨ x.entry.kind = SymbolEntry.sectionKind ∨
        y.name = "" ∨ isMappingName y.name = true) := by
      simp only [not_or, isMappingName_iff]
      exact ⟨h.defined, h.notFile, h.notSection, h.nonempty, h.proper⟩
    rw [h.nameAt_eq, if_neg hkept, ← hentry]

/-- An entry gives a symbol if it is worth keeping and has a place. -/
theorem toSymbol?_eq_some_iff {x : TableEntry} {place : Nat → UInt64 → Option UInt64}
    {s : Symbol} :
    x.entry.toSymbol? x.names place = some s ↔
      x.Kept s.name ∧ place x.entry.sectionIndex x.entry.value = some s.address := by
  rw [SymbolEntry.toSymbol?_eq, Option.bind_eq_some_iff]
  constructor
  · rintro ⟨y, hy, hs⟩
    obtain ⟨hentry, hkept⟩ := named?_eq_some_iff.mp hy
    obtain ⟨address, haddress, rfl⟩ := Option.map_eq_some_iff.mp hs
    exact ⟨hkept, hentry ▸ haddress⟩
  · rintro ⟨hkept, haddress⟩
    refine ⟨⟨s.name, x.entry⟩, named?_eq_some_iff.mpr ⟨rfl, hkept⟩, ?_⟩
    exact Option.map_eq_some_iff.mpr ⟨s.address, haddress, rfl⟩

def IsKept (x : TableEntry) : Prop := ∃ name, x.Kept name

theorem isKept_iff {x : TableEntry} : (x.entry.named? x.names).isSome = true ↔ x.IsKept := by
  rw [Option.isSome_iff_exists]
  constructor
  · rintro ⟨y, hy⟩
    exact ⟨y.name, (named?_eq_some_iff.mp hy).2⟩
  · rintro ⟨name, hkept⟩
    exact ⟨⟨name, x.entry⟩, named?_eq_some_iff.mpr ⟨rfl, hkept⟩⟩

instance : DecidablePred IsKept := fun _ => decidable_of_iff _ isKept_iff

/-- Where values are addresses, an entry worth keeping gives a symbol. -/
theorem toSymbol?_value (x : TableEntry) :
    x.entry.toSymbol? x.names (fun _ value => some value) =
      if x.IsKept then some ⟨x.names.nameAt x.entry.name, x.entry.value⟩ else none := by
  split
  next h =>
    obtain ⟨name, hkept⟩ := h
    rw [hkept.nameAt_eq, toSymbol?_eq_some_iff]
    exact ⟨hkept, rfl⟩
  next h =>
    rw [Option.eq_none_iff_forall_ne_some]
    exact fun s hs => h ⟨s.name, (toSymbol?_eq_some_iff.mp hs).1⟩

/-- The symbol of the entry has moved with a section that lies at `base`, so it is as far from any
later place of the section as the entry says. -/
structure Rebased (x : TableEntry) (base : UInt64) (s : Symbol) : Prop where
  address : s.address.toNat = base.toNat + x.entry.value.toNat
  distance : ∀ offset, x.entry.value.toNat ≤ offset →
    base.toNat + offset - s.address.toNat = offset - x.entry.value.toNat
  difference : ∀ (offset : Nat) (a : UInt64), x.entry.value.toNat ≤ offset →
    a.toNat = base.toNat + offset → (a - s.address).toNat = offset - x.entry.value.toNat

theorem rebased_of_address {x : TableEntry} {base : UInt64} {s : Symbol}
    (h : s.address.toNat = base.toNat + x.entry.value.toNat) : x.Rebased base s := by
  refine ⟨h, fun offset _ => by omega, fun offset a hoffset ha => ?_⟩
  have hle : s.address ≤ a := UInt64.le_iff_toNat_le.mpr (by omega)
  rw [UInt64.toNat_sub_of_le _ _ hle]
  omega

end TableEntry

/-- What a partial function makes of a list stands in the place of the items it is defined on. -/
theorem forall₂_filterMap {α β : Type} {f : α → Option β} {p : α → Bool} {R : α → β → Prop}
    {l : List α} (hdefined : ∀ x ∈ l, p x = (f x).isSome)
    (hR : ∀ x ∈ l, ∀ y, f x = some y → R x y) :
    List.Forall₂ R (l.filter p) (l.filterMap f) := by
  induction l with
  | nil => exact .nil
  | cons x rest ih =>
    obtain ⟨hx, hrest⟩ := List.forall_mem_cons.mp hdefined
    obtain ⟨hRx, hRrest⟩ := List.forall_mem_cons.mp hR
    have htail := ih hrest hRrest
    cases hfx : f x with
    | none =>
      rw [hfx] at hx
      rwa [List.filter_cons_of_neg (by simp [hx]), List.filterMap_cons_none hfx]
    | some y =>
      rw [hfx] at hx
      rw [List.filter_cons_of_pos (by simp [hx]), List.filterMap_cons_some hfx]
      exact .cons (hRx y hfx) htail

namespace Object

def tableEntries (o : Object) : List TableEntry :=
  o.symbols.map (⟨o.symbolNames, ·⟩) ++ o.dynamicSymbols.map (⟨o.dynamicNames, ·⟩)

theorem placedSymbols_eq_filterMap (o : Object) (place : Nat → UInt64 → Option UInt64) :
    o.placedSymbols place =
      o.tableEntries.filterMap fun x => x.entry.toSymbol? x.names place := by
  rw [placedSymbols, tableEntries, List.filterMap_append, List.filterMap_map, List.filterMap_map]
  rfl

def codeIndices (o : Object) : List Nat :=
  (o.sections.zipIdx.filter fun x => x.1.HoldsCode).map (·.2)

/-- The sections that are laid out, each with the base of its segment. -/
def sectionBases (o : Object) (image : Image) : List (Nat × UInt64) :=
  o.codeIndices.zip (image.segments.map (·.base))

theorem map_index_layOut {names : StringTable} {file : Bytes} {o : Object}
    {placements : List Placement} (h : layOut names file 0 o.sections.zipIdx = .ok placements) :
    placements.map (·.index) = o.codeIndices := by
  have hslots := congrArg (List.map Slot.index) (layOut_slots 0 h)
  simp only [List.map_map] at hslots
  have hcode : (o.sections.zipIdx.filter fun x => isLaidOut x.1) =
      o.sections.zipIdx.filter fun x => x.1.HoldsCode := by
    apply List.filter_congr
    intro x _
    rw [Bool.eq_iff_iff, isLaidOut_iff, decide_eq_true_iff]
  rw [codeIndices, ← hcode, ← map_index_slots 0]
  exact hslots

theorem sectionBases_eq {o : Object} {file : Bytes} {image : Image} {placements : List Placement}
    (h : layOut o.sectionNames file 0 o.sections.zipIdx = .ok placements)
    (hsegments : image.segments = placements.map fun p => Segment.executable p.base p.bytes) :
    o.sectionBases image = placements.map fun p => (p.index, p.base) := by
  have hbases : image.segments.map (·.base) = placements.map (·.base) := by
    rw [hsegments, List.map_map]
    rfl
  rw [sectionBases, ← map_index_layOut h, hbases, List.zip_map']

/-- A place in the layout is the base of the section and the offset in it. -/
theorem placeIn_eq_some_iff_base {o : Object} {file : Bytes} {image : Image}
    {placements : List Placement}
    (h : layOut o.sectionNames file 0 o.sections.zipIdx = .ok placements)
    (hsegments : image.segments = placements.map fun p => Segment.executable p.base p.bytes)
    {index : Nat} {value address : UInt64} :
    placeIn placements index value = some address ↔
      ∃ base, (index, base) ∈ o.sectionBases image ∧
        address.toNat = base.toNat + value.toNat := by
  rw [placeIn_eq_some_iff h, sectionBases_eq h hsegments]
  constructor
  · rintro ⟨T, hT, rfl, haddress⟩
    exact ⟨T.base, List.mem_map.mpr ⟨T, hT, rfl⟩, haddress⟩
  · rintro ⟨base, hbase, haddress⟩
    obtain ⟨T, hT, heq⟩ := List.mem_map.mp hbase
    cases heq
    exact ⟨T, hT, rfl, haddress⟩

/-- The entry is worth keeping, its section is laid out, and its place is an address. -/
def Stays (o : Object) (image : Image) (x : TableEntry) : Prop :=
  x.IsKept ∧ ∃ b ∈ o.sectionBases image, b.1 = x.entry.sectionIndex ∧
    b.2.toNat + x.entry.value.toNat ≤ lastAddress

instance (o : Object) (image : Image) : DecidablePred (o.Stays image) :=
  fun _ => inferInstanceAs (Decidable (_ ∧ _))

theorem symbols_relocatableImage {o : Object} {file : Bytes} {image : Image}
    (h : o.relocatableImage file = .ok image) :
    List.Forall₂ (fun x s => x.Kept s.name ∧
        ∃ base, (x.entry.sectionIndex, base) ∈ o.sectionBases image ∧ x.Rebased base s)
      (o.tableEntries.filter (o.Stays image)) image.symbols := by
  obtain ⟨placements, hlayout, hsegments, hsymbols⟩ := relocatableImage_eq_ok h
  have hplaced {x : TableEntry} {s : Symbol} :
      x.entry.toSymbol? x.names (placeIn placements) = some s ↔ x.Kept s.name ∧
        ∃ base, (x.entry.sectionIndex, base) ∈ o.sectionBases image ∧
          s.address.toNat = base.toNat + x.entry.value.toNat := by
    rw [TableEntry.toSymbol?_eq_some_iff, placeIn_eq_some_iff_base hlayout hsegments]
  rw [hsymbols, placedSymbols_eq_filterMap]
  apply forall₂_filterMap
  · intro x _
    rw [Bool.eq_iff_iff, decide_eq_true_iff, Option.isSome_iff_exists]
    constructor
    · rintro ⟨⟨name, hkept⟩, ⟨index, base⟩, hmem, rfl, hle⟩
      exact ⟨⟨name, UInt64.ofNat (base.toNat + x.entry.value.toNat)⟩,
        hplaced.mpr ⟨hkept, base, hmem, toNat_ofNat_of_le hle⟩⟩
    · rintro ⟨s, hs⟩
      obtain ⟨hkept, base, hmem, haddress⟩ := hplaced.mp hs
      exact ⟨⟨s.name, hkept⟩, (_, base), hmem, rfl, haddress ▸ toNat_le_lastAddress s.address⟩
  · intro x _ s hs
    obtain ⟨hkept, base, hmem, haddress⟩ := hplaced.mp hs
    exact ⟨hkept, base, hmem, TableEntry.rebased_of_address haddress⟩

theorem symbols_linkedImage {o : Object} {file : Bytes} {image : Image}
    (h : o.linkedImage file = .ok image) :
    List.Forall₂ (fun x s => x.Kept s.name ∧ s.address = x.entry.value)
      (o.tableEntries.filter TableEntry.IsKept) image.symbols := by
  obtain ⟨segments, -, h⟩ := exists_ok_of_bind h
  cases h
  rw [placedSymbols_eq_filterMap]
  apply forall₂_filterMap
  · intro x _
    rw [x.toSymbol?_value]
    split <;> simp [*]
  · intro x _ s hs
    obtain ⟨hkept, haddress⟩ := TableEntry.toSymbol?_eq_some_iff.mp hs
    exact ⟨hkept, (Option.some.inj haddress).symm⟩

theorem length_codeIndices {o : Object} {file : Bytes} {image : Image}
    (h : o.relocatableImage file = .ok image) : o.codeIndices.length = image.segments.length := by
  obtain ⟨placements, hlayout, hsegments, -⟩ := relocatableImage_eq_ok h
  rw [← map_index_layOut hlayout, hsegments, List.length_map, List.length_map]

/-- The symbols of an image, in the order of the entries they come from: static ones before dynamic
ones. Of a linked file all entries worth keeping stay where they are. Of a relocatable object those
stay whose section is laid out and whose place is an address, and they move with the section. -/
theorem symbols_exact (o : Object) (file : Bytes) :
    (∀ image, o.linkedImage file = .ok image →
      List.Forall₂ (fun x s => x.Kept s.name ∧ s.address = x.entry.value)
        (o.tableEntries.filter TableEntry.IsKept) image.symbols) ∧
    ∀ image, o.relocatableImage file = .ok image →
      o.codeIndices.length = image.segments.length ∧
      List.Forall₂ (fun x s => x.Kept s.name ∧
          ∃ base, (x.entry.sectionIndex, base) ∈ o.sectionBases image ∧ x.Rebased base s)
        (o.tableEntries.filter (o.Stays image)) image.symbols :=
  ⟨fun _ h => symbols_linkedImage h,
    fun _ h => ⟨length_codeIndices h, symbols_relocatableImage h⟩⟩

def mixedNames : StringTable :=
  ⟨[0, 0x6D, 0x61, 0x69, 0x6E, 0, 0x24, 0x64, 0x2E, 0x31, 0, 0x24, 0x64, 0x78, 0, 0xFF, 0]⟩

/-- Entries that are kept and entries that are not: a file, a section, a mark, a name that cannot be
read, an undefined one, one of a section that is not laid out, and one that would leave the address
space. The last two stay in a linked file. -/
theorem symbols_exact_mixed :
    let file := [0x1F, 0x20, 0x03, 0xD5]
    let o : Object :=
      { ofCode [(4, 0, 4), (4, 0, 4), (16, 0, 4)] with
        symbols := [⟨1, 0x12, 1, 0⟩, ⟨1, 0x04, 1, 0⟩, ⟨1, 0x03, 1, 0⟩, ⟨6, 0x12, 1, 0⟩,
          ⟨11, 0x12, 2, 3⟩, ⟨15, 0x12, 2, 0⟩, ⟨1, 0x12, 0, 0⟩, ⟨1, 0x12, 9, 8⟩,
          ⟨1, 0x12, 2, 0xFFFFFFFFFFFFFFF0⟩]
        symbolNames := mixedNames
        dynamicSymbols := [⟨3, 0x10, 1, 2⟩]
        dynamicNames := mixedNames }
    ∃ linked relocatable, o.linkedImage file = .ok linked ∧
      linked.symbols = [⟨"main", 0⟩, ⟨"$dx", 3⟩, ⟨"main", 8⟩, ⟨"main", 0xFFFFFFFFFFFFFFF0⟩,
        ⟨"in", 2⟩] ∧
      List.Forall₂ (fun x s => x.Kept s.name ∧ s.address = x.entry.value)
        (o.tableEntries.filter TableEntry.IsKept) linked.symbols ∧
      o.relocatableImage file = .ok relocatable ∧
      relocatable.symbols = [⟨"main", 4⟩, ⟨"$dx", 19⟩, ⟨"in", 6⟩] ∧
      List.Forall₂ (fun x s => x.Kept s.name ∧
          ∃ base, (x.entry.sectionIndex, base) ∈ o.sectionBases relocatable ∧ x.Rebased base s)
        (o.tableEntries.filter (o.Stays relocatable)) relocatable.symbols := by
  intro file o
  obtain ⟨linked, hlinked, hsymbols⟩ : ∃ image, o.linkedImage file = .ok image ∧ image.symbols =
      [⟨"main", 0⟩, ⟨"$dx", 3⟩, ⟨"main", 8⟩, ⟨"main", 0xFFFFFFFFFFFFFFF0⟩, ⟨"in", 2⟩] :=
    ⟨_, rfl, by decide +kernel⟩
  obtain ⟨relocatable, hrelocatable, hmoved⟩ : ∃ image, o.relocatableImage file = .ok image ∧
      image.symbols = [⟨"main", 4⟩, ⟨"$dx", 19⟩, ⟨"in", 6⟩] :=
    ⟨_, rfl, by decide +kernel⟩
  exact ⟨linked, relocatable, hlinked, hsymbols, (symbols_exact o file).1 linked hlinked,
    hrelocatable, hmoved, ((symbols_exact o file).2 relocatable hrelocatable).2⟩

end Object
end IndirectBranch.Elf
