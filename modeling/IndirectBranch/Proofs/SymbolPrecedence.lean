import IndirectBranch.Proofs.KeptSymbols
import IndirectBranch.Proofs.LinkedFile

/-! Static symbols come before dynamic ones. A finding of a linked file is named after a dynamic
symbol only if that lies closer than every static one; where both lie at one address the static name
counts. So dynamic symbols at the addresses of static ones make no difference to an audit. -/
namespace IndirectBranch

/-- Some symbol of the table lies at or below `address` and above all such symbols of the other. -/
def Closer (table other : List Symbol) (address : Nat) : Prop :=
  ∃ d ∈ table, d.address.toNat ≤ address ∧
    ∀ s ∈ other, s.address.toNat ≤ address → s.address.toNat < d.address.toNat

instance (table other : List Symbol) (address : Nat) : Decidable (Closer table other address) :=
  inferInstanceAs (Decidable (∃ d ∈ table, _))

/-- Symbols at addresses where the first table has none. -/
def unaliased (first second : List Symbol) : List Symbol :=
  second.filter fun d => ∀ s ∈ first, s.address ≠ d.address

section Tables

variable {first second : List Symbol} {address : Nat} {s : Symbol}

theorem Nearest.append_left (h : Nearest first address s)
    (hcloser : ¬ Closer second first address) : Nearest (first ++ second) address s := by
  obtain ⟨before, after, htable, hbefore⟩ := h.first
  refine ⟨h.below, fun t ht hta => ?_, before, after ++ second, by simp [htable], hbefore⟩
  rcases List.mem_append.mp ht with ht | ht
  · exact h.greatest t ht hta
  · by_contra hlt
    refine hcloser ⟨t, ht, hta, fun u hu hua => ?_⟩
    have := h.greatest u hu hua
    omega

theorem Nearest.append_right (h : Nearest second address s)
    (hcloser : Closer second first address) : Nearest (first ++ second) address s := by
  obtain ⟨d, hd, hda, habove⟩ := hcloser
  have hlower (t : Symbol) (ht : t ∈ first) (hta : t.address.toNat ≤ address) :
      t.address.toNat < s.address.toNat :=
    Nat.lt_of_lt_of_le (habove t ht hta) (h.greatest d hd hda)
  obtain ⟨before, after, htable, hbefore⟩ := h.first
  refine ⟨h.below, fun t ht hta => ?_, first ++ before, after, by simp [htable], fun t ht heq => ?_⟩
  · rcases List.mem_append.mp ht with ht | ht
    · exact Nat.le_of_lt (hlower t ht hta)
    · exact h.greatest t ht hta
  · rcases List.mem_append.mp ht with ht | ht
    · have := hlower t ht (heq ▸ h.below)
      rw [heq] at this
      omega
    · exact hbefore t ht heq

/-- The first symbol of a table at its address is the one found there. -/
theorem first_at_iff_find? {table : List Symbol} :
    (∃ before after, table = before ++ s :: after ∧ ∀ t ∈ before, t.address ≠ s.address) ↔
      table.find? (·.address == s.address) = some s := by
  simp [List.find?_eq_some_iff_append]

/-- What is found at an address does not depend on symbols that the first table hides. -/
theorem find?_unaliased (first second : List Symbol) (a : UInt64) :
    (first ++ unaliased first second).find? (·.address == a) =
      (first ++ second).find? (·.address == a) := by
  rw [List.find?_append, List.find?_append]
  cases hfirst : first.find? (·.address == a) with
  | some t => rfl
  | none =>
    have hnone : ∀ t ∈ first, t.address ≠ a := by simpa using hfirst
    rw [unaliased, List.find?_filter]
    congr 2
    funext d
    by_cases hd : d.address = a
    · subst hd
      simpa using hnone
    · simp [hd]

theorem append_unaliased_subset (first second : List Symbol) :
    first ++ unaliased first second ⊆ first ++ second :=
  ((List.Sublist.refl first).append List.filter_sublist).subset

theorem Nearest.drop_aliases (h : Nearest (first ++ second) address s) :
    Nearest (first ++ unaliased first second) address s := by
  refine ⟨h.below, fun t ht => h.greatest t (append_unaliased_subset first second ht), ?_⟩
  rw [first_at_iff_find?, find?_unaliased]
  exact first_at_iff_find?.mp h.first

end Tables

namespace SymbolIndex

/-- The index answers alike with and without the symbols that the first table hides. -/
theorem nearest?_unaliased (first second : List Symbol) (a : UInt64) :
    (ofTable (first ++ unaliased first second)).nearest? a =
      (ofTable (first ++ second)).nearest? a := by
  cases h : (ofTable (first ++ second)).nearest? a with
  | some s => exact nearest?_eq_some (nearest?_eq_some_iff.mp h).drop_aliases
  | none =>
    rw [nearest?_eq_nearestInTable?, nearestInTable?_eq_none_iff] at h ⊢
    exact fun t ht => h t (append_unaliased_subset first second ht)

theorem resolveOrUnknown_unaliased (first second : List Symbol) (a : UInt64) :
    (ofTable (first ++ unaliased first second)).resolveOrUnknown a =
      (ofTable (first ++ second)).resolveOrUnknown a := by
  rw [resolveOrUnknown_eq, resolveOrUnknown_eq, nearest?_unaliased]

end SymbolIndex

/-- The finding is named after the symbol and gives the distance from it. -/
def Finding.NamedAfter (f : Finding) (s : Symbol) : Prop :=
  f.symbol = s.name ∧ s.address.toNat + f.offset.toNat = f.address.toNat

/-- How a finding is named: after the nearest dynamic symbol if that lies closer than every static
one, else after the nearest static symbol, else not at all. -/
structure Finding.Attributed (static dynamic : List Symbol) (f : Finding) : Prop where
  byDynamic : Closer dynamic static f.address.toNat →
    ∃ d, Nearest dynamic f.address.toNat d ∧ f.NamedAfter d
  byStatic : ¬ Closer dynamic static f.address.toNat →
    (∃ s ∈ static, s.address.toNat ≤ f.address.toNat) →
    ∃ s, Nearest static f.address.toNat s ∧ f.NamedAfter s
  unknown : ¬ Closer dynamic static f.address.toNat →
    (¬ ∃ s ∈ static, s.address.toNat ≤ f.address.toNat) →
    f.symbol = SymbolIndex.unknownName ∧ f.offset = f.address

namespace Scan

theorem namedAfter_finding {classes : OpcodeClasses} {d : Disassembler} {table : List Symbol}
    {address : UInt64} {i : Instruction} {s : Symbol} (h : Nearest table address.toNat s) :
    (finding classes d (.ofTable table) address i).NamedAfter s := by
  have hplace : (SymbolIndex.ofTable table).resolveOrUnknown address =
      (s.name, address - s.address) := by
    rw [SymbolIndex.resolveOrUnknown_eq, SymbolIndex.nearest?_eq_some h]
  have hle : s.address ≤ address := UInt64.le_iff_toNat_le.mpr h.below
  refine ⟨congrArg Prod.fst hplace, ?_⟩
  simp only [finding, hplace, UInt64.toNat_sub_of_le _ _ hle]
  have := h.below
  omega

theorem attributed_finding (classes : OpcodeClasses) (d : Disassembler)
    (static dynamic : List Symbol) (address : UInt64) (i : Instruction) :
    (finding classes d (.ofTable (static ++ dynamic)) address i).Attributed static dynamic := by
  constructor
  · intro hcloser
    obtain ⟨t, ht, hta, -⟩ := id hcloser
    obtain ⟨s, hs⟩ := exists_nearest ⟨t, ht, hta⟩
    exact ⟨s, hs, namedAfter_finding (hs.append_right hcloser)⟩
  · intro hcloser hstatic
    obtain ⟨s, hs⟩ := exists_nearest hstatic
    exact ⟨s, hs, namedAfter_finding (hs.append_left hcloser)⟩
  · intro hcloser hstatic
    have hnone : (SymbolIndex.ofTable (static ++ dynamic)).nearest? address = none := by
      apply SymbolIndex.nearest?_eq_none
      intro t ht
      rcases List.mem_append.mp ht with ht | ht
      · exact Nat.lt_of_not_le fun hle => hstatic ⟨t, ht, hle⟩
      · exact Nat.lt_of_not_le fun hle => hcloser
          ⟨t, ht, hle, fun s hs hsa => absurd ⟨s, hs, hsa⟩ hstatic⟩
    have hplace : (SymbolIndex.ofTable (static ++ dynamic)).resolveOrUnknown address =
        (SymbolIndex.unknownName, address) := by
      rw [SymbolIndex.resolveOrUnknown_eq, hnone]
    exact ⟨congrArg Prod.fst hplace, congrArg Prod.snd hplace⟩

/-- A scan asks its index for nothing but the places of addresses. -/
theorem findings_congr {symbols symbols' : SymbolIndex}
    (h : ∀ a, symbols.resolveOrUnknown a = symbols'.resolveOrUnknown a) (classes : OpcodeClasses)
    (d : Disassembler) (s : Segment) :
    findings classes d symbols s = findings classes d symbols' s := by
  have hfinding : finding classes d symbols = finding classes d symbols' := by
    funext address i
    simp only [finding, h]
  rw [findings, findings, hfinding]

end Scan

namespace Auditor

/-- Every finding of an audit is named by the rule, whatever exemptions it meets. -/
theorem attributed_of_mem {a : Auditor} {path : String} {image : Image}
    {static dynamic : List Symbol} (h : image.symbols = static ++ dynamic) {f : Finding}
    (hf : f ∈ (a.auditImage path image).findings) : f.Attributed static dynamic := by
  rw [FileScan.findings, segments_auditImage] at hf
  obtain ⟨t, ht, hf⟩ := List.mem_flatMap.mp hf
  obtain ⟨s, -, rfl⟩ := List.mem_map.mp ht
  obtain ⟨ins, index, address, -, -, -, rfl⟩ := mem_auditSegment_iff.mp hf
  have hattributed := Scan.attributed_finding a.classes a.disassembler static dynamic address ins
  rw [← h] at hattributed
  exact ⟨hattributed.byDynamic, hattributed.byStatic, hattributed.unknown⟩

theorem exists_mem_findings {a : Auditor} {path : String} {image : Image} {s : Segment} {i : Nat}
    (hs : s ∈ image.executableSegments) (h : Branches a.classes s i) :
    ∃ f ∈ (a.auditImage path image).findings,
      f.address.toNat = s.base.toNat + instructionWidth * i := by
  obtain ⟨ins, hins⟩ := exists_instruction_iff.mpr h.complete
  have hmatch : a.classes.hasMatch ins.word = true :=
    OpcodeClasses.hasMatch_iff.mpr (word_of_getElem? hins ▸ h.matched)
  have haddress := toNat_ofNat_of_le h.addressed
  obtain ⟨f, hf, hat⟩ : ∃ f ∈ (a.auditSegment image s).findings,
      f.address.toNat = s.base.toNat + instructionWidth * i :=
    ⟨_, mem_auditSegment_iff.mpr ⟨ins, i, _, hins, hmatch, haddress, rfl⟩, haddress⟩
  refine ⟨f, ?_, hat⟩
  rw [FileScan.findings, segments_auditImage]
  exact List.mem_flatMap.mpr ⟨_, List.mem_map_of_mem hs, hf⟩

/-- Audits of the same segments agree if their symbols give every address the same place. -/
theorem findings_auditImage_congr {a : Auditor} {path path' : String} {image image' : Image}
    (hsegments : image.executableSegments = image'.executableSegments)
    (hplaces : ∀ address, (SymbolIndex.ofTable image.symbols).resolveOrUnknown address =
      (SymbolIndex.ofTable image'.symbols).resolveOrUnknown address) :
    (a.auditImage path image).segments.map (·.findings) =
      (a.auditImage path' image').segments.map (·.findings) := by
  rw [segments_auditImage, segments_auditImage, List.map_map, List.map_map, hsegments]
  apply List.map_congr_left
  intro s _
  simp only [Function.comp_apply, auditSegment, Exemption.classifySegment, Scan.segment,
    Scan.findings_congr hplaces]

end Auditor

theorem FileScan.hasCritical_eq_of_findings {s t : FileScan}
    (h : s.segments.map (·.findings) = t.segments.map (·.findings)) :
    s.hasCritical = t.hasCritical := by
  rw [hasCritical, hasCritical, findings, findings, List.flatMap_def, h, ← List.flatMap_def]

namespace Elf

def linkedSymbols (names : StringTable) (table : List SymbolEntry) : List Symbol :=
  (table.filter fun s => TableEntry.IsKept ⟨names, s⟩).map fun s =>
    ⟨names.nameAt s.name, s.value⟩

theorem filterMap_toSymbol?_eq (names : StringTable) (table : List SymbolEntry) :
    table.filterMap (SymbolEntry.toSymbol? names fun _ value => some value) =
      linkedSymbols names table := by
  rw [linkedSymbols, ← List.filterMap_eq_map, List.filterMap_filter]
  congr 1
  funext e
  simp only [TableEntry.toSymbol?_value ⟨names, e⟩, decide_eq_true_eq, Function.comp_apply]

/-- A linked file of instructions at `address`, with both symbol tables. The tables share their
names. A segment that is only read maps the whole file, so the dynamic table can refer to it. -/
def linkedFile (address : UInt64) (code : List UInt32) (names : List String)
    (static dynamic : List (List Nat)) : Bytes :=
  let mapped := 0x70000000
  let text := wordsBytes code
  let exported := (SectionPart.symbols 0 dynamic).contents
  let sections := [SectionPart.symbols 2 static, SectionPart.strings names]
  let exportedAt := 232 + text.length
  let sectionsAt := exportedAt + exported.length
  let namesAt := sectionsAt + (SectionPart.symbols 2 static).contents.length
  let hashAt := namesAt + (SectionPart.strings names).contents.length
  let tags := packed [(8, Dynamic.hash), (8, mapped + hashAt), (8, Dynamic.stringTable),
    (8, mapped + namesAt), (8, Dynamic.symbolTable), (8, mapped + exportedAt),
    (8, Dynamic.stringSize), (8, hashAt - namesAt), (8, 0), (8, 0)]
  let headersAt := hashAt + 8 + tags.length
  [0x7F, 0x45, 0x4C, 0x46, 2, 1, 1] ++ List.replicate 9 0 ++
    packed [(2, 3), (2, Header.aarch64), (4, 1), (8, address.toNat), (8, 64), (8, headersAt),
      (4, 0), (2, 64), (2, 56), (2, 3), (2, 64), (2, 3), (2, 0)] ++
    loadHeader 5 232 address text.length ++ loadHeader 4 0 (UInt64.ofNat mapped) headersAt ++
    packed [(4, ProgramHeader.dynamic), (4, 4), (8, hashAt + 8), (8, mapped + hashAt + 8),
      (8, mapped + hashAt + 8), (8, tags.length), (8, tags.length), (8, 8)] ++
    text ++ exported ++ sections.flatMap (·.contents) ++ packed [(4, 1), (4, dynamic.length)] ++
    tags ++ List.replicate (SectionHeader.recordSize encoding64) 0 ++
    SectionPart.headersBytes sectionsAt sections

namespace Object

def keptStatic (o : Object) : List Symbol := linkedSymbols o.symbolNames o.symbols

def keptDynamic (o : Object) : List Symbol := linkedSymbols o.dynamicNames o.dynamicSymbols

theorem symbols_eq_keptStatic_append {o : Object} {file : Bytes} {image : Image}
    (h : o.linkedImage file = .ok image) : image.symbols = o.keptStatic ++ o.keptDynamic := by
  obtain ⟨segments, -, h⟩ := exists_ok_of_bind h
  cases h
  rw [keptStatic, keptDynamic, ← filterMap_toSymbol?_eq, ← filterMap_toSymbol?_eq]
  rfl

/-- The objects keep the same static symbols, and elsewhere the same dynamic ones in the same
order. -/
structure SameBesideAliases (o o' : Object) : Prop where
  static : o.keptStatic = o'.keptStatic
  dynamic : unaliased o.keptStatic o.keptDynamic = unaliased o.keptStatic o'.keptDynamic

theorem unaliased_linkedSymbols (static : List Symbol) (names : StringTable)
    (table : List SymbolEntry) :
    unaliased static (linkedSymbols names table) =
      linkedSymbols names (table.filter fun d => ∀ s ∈ static, s.address ≠ d.value) := by
  rw [unaliased, linkedSymbols, linkedSymbols, List.filter_map, List.filter_comm]
  rfl

/-- Tables that differ only in dynamic entries at the addresses of static symbols: some are added,
removed or moved. -/
theorem SameBesideAliases.of_entries {o o' : Object} (hsymbols : o.symbols = o'.symbols)
    (hnames : o.symbolNames = o'.symbolNames) (hdynamic : o.dynamicNames = o'.dynamicNames)
    (h : (o.dynamicSymbols.filter fun d => ∀ s ∈ o.keptStatic, s.address ≠ d.value) =
      o'.dynamicSymbols.filter fun d => ∀ s ∈ o.keptStatic, s.address ≠ d.value) :
    o.SameBesideAliases o' := by
  constructor
  · rw [keptStatic, keptStatic, hsymbols, hnames]
  · rw [keptDynamic, keptDynamic, unaliased_linkedSymbols, unaliased_linkedSymbols, h, hdynamic]

theorem SameBesideAliases.resolveOrUnknown_eq {o o' : Object} (h : o.SameBesideAliases o')
    (address : UInt64) :
    (SymbolIndex.ofTable (o.keptStatic ++ o.keptDynamic)).resolveOrUnknown address =
      (SymbolIndex.ofTable (o'.keptStatic ++ o'.keptDynamic)).resolveOrUnknown address := by
  rw [← SymbolIndex.resolveOrUnknown_unaliased, h.dynamic, SymbolIndex.resolveOrUnknown_unaliased,
    h.static]

theorem linkedImage_of_parseImage {o : Object} {file : Bytes} {image : Image}
    (ho : Object.parse file = .ok o) (hlinked : o.isRelocatable = false)
    (h : parseImage file = .ok image) : o.linkedImage file = .ok image := by
  obtain ⟨o', ho', himage⟩ := parseImage_eq_ok h
  obtain rfl : o = o' := Except.ok.inj (ho.symm.trans ho')
  rcases toImage_eq_ok himage with ⟨hrelocatable, -⟩ | ⟨-, himage⟩
  · rw [hlinked] at hrelocatable
    cases hrelocatable
  · exact himage

/-- Every finding of a linked file is named after the nearest dynamic symbol if that lies closer
than all static ones, and else after the nearest static one. So files that differ only in dynamic
symbols at the addresses of static ones have the same findings and the same verdict. -/
theorem static_precedence :
    (∀ (a : Auditor) (path : String) (file : Bytes) (o : Object) (scan : FileScan),
      Object.parse file = .ok o → o.isRelocatable = false → a.auditBytes path file = .ok scan →
      ∀ f ∈ scan.findings, f.Attributed o.keptStatic o.keptDynamic) ∧
    ∀ (o o' : Object) (file file' : Bytes) (image image' : Image),
      o.linkedImage file = .ok image → o'.linkedImage file' = .ok image' →
      image.executableSegments = image'.executableSegments → o.SameBesideAliases o' →
      ∀ (a : Auditor) (path path' : String),
        (a.auditImage path image).segments.map (·.findings) =
          (a.auditImage path' image').segments.map (·.findings) ∧
        (a.auditImage path image).hasCritical = (a.auditImage path' image').hasCritical := by
  constructor
  · intro a path file o scan ho hlinked hscan f hf
    obtain ⟨image, himage, rfl⟩ := Auditor.auditBytes_eq_ok hscan
    have hsymbols := symbols_eq_keptStatic_append (linkedImage_of_parseImage ho hlinked himage)
    exact Auditor.attributed_of_mem hsymbols hf
  · intro o o' file file' image image' himage himage' hsegments hsame a path path'
    have hfindings : (a.auditImage path image).segments.map (·.findings) =
        (a.auditImage path' image').segments.map (·.findings) := by
      apply Auditor.findings_auditImage_congr hsegments
      rw [symbols_eq_keptStatic_append himage, symbols_eq_keptStatic_append himage']
      exact hsame.resolveOrUnknown_eq
    exact ⟨hfindings, FileScan.hasCritical_eq_of_findings hfindings⟩

/-- A branch after a static symbol that has a dynamic alias, and one at a dynamic symbol. Without
the alias nothing changes. -/
theorem static_precedence_alias :
    let code := List.replicate 3 0xD63F0000
    let names := ["run", "alias", "late"]
    let run := [1, 0x12, 0, 1, 0x1000, 0]
    let twin := [5, 0x12, 0, 1, 0x1000, 0]
    let late := [11, 0x12, 0, 1, 0x1008, 0]
    let file := linkedFile 0x1000 code names [run] [twin, late]
    let file' := linkedFile 0x1000 code names [run] [late]
    let a : Auditor := ⟨Policy.standard.classes, [⟨"alias", 8⟩], .mnemonic⟩
    ∃ scan scan', a.auditBytes "a.so" file = .ok scan ∧ a.auditBytes "b.so" file' = .ok scan' ∧
      (∃ f ∈ scan.findings, f.address = 0x1004 ∧ f.symbol = "run") ∧
      (∃ f ∈ scan.findings, f.address = 0x1008 ∧ f.symbol = "late") ∧
      scan.segments.map (·.findings) = scan'.segments.map (·.findings) ∧
      scan.hasCritical = scan'.hasCritical := by
  intro code names run twin late file file' a
  let s : Segment := ⟨0x1000, wordsBytes code, .readExecute, 12⟩
  let image : Image := ⟨[s, ⟨0x70000000, [], ⟨true, false, false⟩, 420⟩], [],
    [⟨"run", 0x1000⟩, ⟨"alias", 0x1000⟩, ⟨"late", 0x1008⟩]⟩
  let image' : Image := ⟨[s, ⟨0x70000000, [], ⟨true, false, false⟩, 396⟩], [],
    [⟨"run", 0x1000⟩, ⟨"late", 0x1008⟩]⟩
  let strings : StringTable := ⟨(SectionPart.strings names).contents⟩
  obtain ⟨o, ho, hlinked, hsymbols, hnames, hdynamic, hstrings⟩ : ∃ o, Object.parse file = .ok o ∧
      o.isRelocatable = false ∧ o.symbols = [⟨1, 0x12, 1, 0x1000⟩] ∧ o.symbolNames = strings ∧
      o.dynamicSymbols = [⟨5, 0x12, 1, 0x1000⟩, ⟨11, 0x12, 1, 0x1008⟩] ∧
      o.dynamicNames = strings :=
    exists_parse (by decide +kernel)
  obtain ⟨o', ho', hlinked', hsymbols', hnames', hdynamic', hstrings'⟩ : ∃ o,
      Object.parse file' = .ok o ∧ o.isRelocatable = false ∧ o.symbols = [⟨1, 0x12, 1, 0x1000⟩] ∧
      o.symbolNames = strings ∧ o.dynamicSymbols = [⟨11, 0x12, 1, 0x1008⟩] ∧
      o.dynamicNames = strings :=
    exists_parse (by decide +kernel)
  have himage : parseImage file = .ok image := by decide +kernel
  have himage' : parseImage file' = .ok image' := by decide +kernel
  have hscan : a.auditBytes "a.so" file = .ok (a.auditImage "a.so" image) := by
    rw [Auditor.auditBytes, himage]
  have hscan' : a.auditBytes "b.so" file' = .ok (a.auditImage "b.so" image') := by
    rw [Auditor.auditBytes, himage']
  have hstatic : o.keptStatic = [⟨"run", 0x1000⟩] := by
    rw [keptStatic, hsymbols, hnames]
    decide +kernel
  have hkept : o.keptDynamic = [⟨"alias", 0x1000⟩, ⟨"late", 0x1008⟩] := by
    rw [keptDynamic, hdynamic, hstrings]
    decide +kernel
  have hsame : o.SameBesideAliases o' := by
    apply SameBesideAliases.of_entries (hsymbols.trans hsymbols'.symm)
      (hnames.trans hnames'.symm) (hstrings.trans hstrings'.symm)
    rw [hstatic, hdynamic, hdynamic']
    decide
  have hs : s ∈ image.executableSegments := List.mem_cons_self
  obtain ⟨f, hf, hat⟩ : ∃ f ∈ (a.auditImage "a.so" image).findings, f.address.toNat = 0x1004 :=
    Auditor.exists_mem_findings (i := 1) hs ⟨by decide, by decide, by decide⟩
  obtain ⟨g, hg, hlate⟩ : ∃ g ∈ (a.auditImage "a.so" image).findings, g.address.toNat = 0x1008 :=
    Auditor.exists_mem_findings (i := 2) hs ⟨by decide, by decide, by decide⟩
  have hnamed := static_precedence.1 a "a.so" file o _ ho hlinked hscan
  rw [hstatic, hkept] at hnamed
  have hbyStatic := (hnamed f hf).byStatic
  have hbyDynamic := (hnamed g hg).byDynamic
  rw [hat] at hbyStatic
  rw [hlate] at hbyDynamic
  obtain ⟨t, ht, hname, -⟩ := hbyStatic (by decide) (by decide)
  obtain ⟨u, hu, hname', -⟩ := hbyDynamic (by decide)
  obtain rfl : t = ⟨"run", 0x1000⟩ := ht.unique ⟨by decide, by decide, [], [], rfl, by decide⟩
  obtain rfl : u = ⟨"late", 0x1008⟩ :=
    hu.unique ⟨by decide, by decide, [⟨"alias", 0x1000⟩], [], rfl, by decide⟩
  exact ⟨_, _, hscan, hscan', ⟨f, hf, UInt64.toNat_inj.mp hat, hname⟩,
    ⟨g, hg, UInt64.toNat_inj.mp hlate, hname'⟩,
    static_precedence.2 o o' file file' image image'
      (linkedImage_of_parseImage ho hlinked himage)
      (linkedImage_of_parseImage ho' hlinked' himage') rfl hsame a "a.so" "b.so"⟩

end Object
end Elf
end IndirectBranch
