import Mathlib.Algebra.GroupWithZero.Nat
import IndirectBranch.Proofs.KeptSymbols
import IndirectBranch.Proofs.LinkedImage
import IndirectBranch.Proofs.ReportText
import IndirectBranch.Proofs.Utf8

/-! The lines of a report. A line tells which finding it shows, whatever the names in it look like.
How many lines there are depends on the names: they are not escaped, so each line feed in the name
of a section or a symbol adds a line. Without one, each line is about one part of the scan. -/
namespace IndirectBranch

/-! What one line tells. -/

namespace Finding

/-- What stands between the beginning and the end of the line is the symbol. -/
theorem symbol_eq_of_line_eq {f g : Finding} (h : f.line = g.line) (htext : f.text = g.text) :
    f.symbol = g.symbol := by
  obtain ⟨haddress, hinstruction, hoffset, hcritical⟩ := sameLine_of_line_eq h
  have hlisting : f.listing = g.listing := by
    rw [listing, listing, haddress, hinstruction, htext]
  have hlocation (f : Finding) : f.location = f.symbol ++ " +" ++ Text.hex f.offset.toNat := rfl
  rw [line, line, hlocation, hlocation, hlisting, hoffset, hcritical] at h
  simpa using h

end Finding

theorem Auditor.text_of_mem_findings {a : Auditor} (ha : a.disassembler = .hex) {path : String}
    {image : Image} {f : Finding} (hf : f ∈ (a.auditImage path image).findings) :
    f.text = rawText f.instruction.bytes := by
  rw [FileScan.findings, segments_auditImage, List.mem_flatMap] at hf
  obtain ⟨t, ht, hf⟩ := hf
  obtain ⟨s, -, rfl⟩ := List.mem_map.mp ht
  obtain ⟨ins, index, address, -, -, -, rfl⟩ := mem_auditSegment_iff.mp hf
  rw [ha]
  rfl

/-- Address, bytes, offset and verdict can be read from a line, so a critical finding never looks
like an allowed one. With the text the symbol can be read as well. Where all texts are raw encodings
they follow from the bytes, and of two findings with one line only the classes may differ. -/
theorem Finding.line_determines (f g : Finding) :
    (f.line = g.line → f.address = g.address ∧ f.instruction = g.instruction ∧
      f.offset = g.offset ∧ f.critical = g.critical ∧ (f.text = g.text → f.symbol = g.symbol)) ∧
    (f.critical ≠ g.critical → f.line ≠ g.line) ∧
    ∀ (a b : Auditor) (path path' : String) (i j : Image),
      a.disassembler = .hex → b.disassembler = .hex →
      f ∈ (a.auditImage path i).findings → g ∈ (b.auditImage path' j).findings →
      f.line = g.line → f = { g with classes := f.classes } := by
  refine ⟨fun h => ?_, fun hne h => hne (sameLine_of_line_eq h).critical, ?_⟩
  · obtain ⟨haddress, hinstruction, hoffset, hcritical⟩ := sameLine_of_line_eq h
    exact ⟨haddress, hinstruction, hoffset, hcritical, symbol_eq_of_line_eq h⟩
  · intro a b path path' i j ha hb hf hg h
    obtain ⟨haddress, hinstruction, hoffset, hcritical⟩ := sameLine_of_line_eq h
    have htext : f.text = g.text := by
      rw [Auditor.text_of_mem_findings ha hf, Auditor.text_of_mem_findings hb hg, hinstruction]
    have hsymbol := symbol_eq_of_line_eq h htext
    cases f
    cases g
    simp_all

/-- A symbol that looks like the end of another line: its finding shares the line of one with
another text and another symbol, but not with an allowed one. Of two audits that look for one class
and for the same class twice, the findings differ in the classes only. -/
theorem Finding.line_determines_lookalike :
    let blr (text symbol : String) (critical : Bool) (classes : List String) : Finding :=
      ⟨0x1000, ⟨0, 0, 0x3F, 0xD6⟩, text, symbol, 0, critical, classes⟩
    let text := "blr x0, as a rather long text"
    let f := blr text "main |  location: f +0x0  (allowed)" true []
    let g := blr (text ++ " |  location: main") "f +0x0  (allowed)" true ["blr"]
    let allowed := blr (text ++ " |  location: main") "f" false ["blr"]
    let once := blr ".inst 0xd63f0000" "f" true ["blr"]
    let twice := blr ".inst 0xd63f0000" "f" true ["blr", "blr"]
    (f.line = g.line ∧ f.symbol ≠ g.symbol ∧ f.address = g.address ∧ f.critical = g.critical) ∧
      g.line ≠ allowed.line ∧ once.line = twice.line ∧
      once = { twice with classes := once.classes } := by
  intro blr text f g allowed once twice
  have hlook : f.line = g.line := by decide +kernel
  have hsame : once.line = twice.line := by decide +kernel
  let image : Image := ⟨[.executable 0x1000 [0, 0, 0x3F, 0xD6]], [], [⟨"f", 0x1000⟩]⟩
  have honce : once ∈ ((⟨[.blr], [], .hex⟩ : Auditor).auditImage "" image).findings := by
    decide +kernel
  have htwice : twice ∈ ((⟨[.blr, .blr], [], .hex⟩ : Auditor).auditImage "" image).findings := by
    decide +kernel
  obtain ⟨haddress, -, -, hcritical, -⟩ := (line_determines f g).1 hlook
  exact ⟨⟨hlook, by decide, haddress, hcritical⟩,
    (line_determines g allowed).2.1 (by decide), hsame,
    (line_determines once twice).2.2 _ _ "" "" image image rfl rfl honce htwice hsame⟩

/-! The lines of a text. -/

/-- How often the text goes on after the end of a line. -/
def lineFeeds (s : String) : Nat := s.toList.count '\n'

theorem lineFeeds_append (s t : String) : lineFeeds (s ++ t) = lineFeeds s + lineFeeds t := by
  rw [lineFeeds, String.toList_append, List.count_append]
  rfl

theorem lineFeeds_eq_zero_iff {s : String} : lineFeeds s = 0 ↔ OnOneLine s := List.count_eq_zero

theorem OnOneLine.lineFeeds_eq {s : String} (h : OnOneLine s) : lineFeeds s = 0 :=
  lineFeeds_eq_zero_iff.mpr h

namespace Report

/-- The lines of a text, each of which a line feed ends. -/
def linesOf (text : String) : List String :=
  (text.toList.splitOn '\n').dropLast.map String.ofList

theorem length_splitOn (cs : List Char) : (cs.splitOn '\n').length = cs.count '\n' + 1 := by
  induction cs with
  | nil => rfl
  | cons c cs ih =>
    rw [List.splitOn_cons_eq_if_modifyHead, List.count_cons]
    split
    · rw [List.length_cons, ih]
    · rw [List.length_modifyHead, ih, Nat.add_zero]

/-- Each line is read as the lines it runs over. -/
theorem linesOf_unlines (ls : List String) :
    linesOf (unlines ls) = ls.flatMap fun l => (l.toList.splitOn '\n').map String.ofList := by
  have hsplit : (unlines ls).toList.splitOn '\n' =
      (ls.flatMap fun l => l.toList.splitOn '\n') ++ [[]] := by
    induction ls with
    | nil => rfl
    | cons l ls ih =>
      rw [toList_unlines_cons, List.splitOn_append_cons_self, ih, List.flatMap_cons,
        List.append_assoc]
  rw [linesOf, hsplit, List.dropLast_concat, List.map_flatMap]

theorem length_linesOf_unlines (ls : List String) :
    (linesOf (unlines ls)).length = ls.length + (ls.map lineFeeds).sum := by
  rw [linesOf_unlines]
  induction ls with
  | nil => rfl
  | cons l ls ih =>
    rw [List.flatMap_cons, List.length_append, ih, List.length_map, length_splitOn, List.map_cons,
      List.sum_cons, List.length_cons]
    unfold lineFeeds
    omega

theorem linesOf_unlines_eq {ls : List String} (h : ∀ l ∈ ls, OnOneLine l) :
    linesOf (unlines ls) = ls := by
  rw [linesOf_unlines]
  induction ls with
  | nil => rfl
  | cons l ls ih =>
    obtain ⟨hl, hls⟩ := List.forall_mem_cons.mp h
    rw [List.flatMap_cons, ih hls, List.splitOn_eq_singleton hl, List.map_singleton,
      String.ofList_toList, List.singleton_append]

end Report

/-! What names add. -/

/-- The symbol is the only part of the line that may run over it. -/
theorem Finding.lineFeeds_line {f : Finding} (h : OnOneLine f.text) :
    lineFeeds f.line = lineFeeds f.symbol := by
  have hnone : lineFeeds { f with symbol := "" }.line = 0 :=
    (OnOneLine.line (f := { f with symbol := "" }) h (show OnOneLine "" by decide)).lineFeeds_eq
  have hlocation (f : Finding) : f.location = f.symbol ++ " +" ++ Text.hex f.offset.toNat := rfl
  have hlisting : { f with symbol := "" }.listing = f.listing := rfl
  simp only [line, hlocation, hlisting, lineFeeds_append] at hnone ⊢
  omega

theorem SegmentScan.lineFeeds_sectionLine (name : String) :
    lineFeeds (sectionLine name) = lineFeeds name := by
  have hlabel : OnOneLine "  - contains section " := by decide
  unfold sectionLine
  rw [lineFeeds_append, hlabel.lineFeeds_eq, Nat.zero_add]

def SegmentScan.shownNames (s : SegmentScan) : List String :=
  s.sections ++ s.findings.map (·.symbol)

theorem SegmentScan.sum_lineFeeds_lines {s : SegmentScan}
    (h : ∀ f ∈ s.findings, OnOneLine f.text) :
    (s.lines.map lineFeeds).sum = (s.shownNames.map lineFeeds).sum := by
  have hfindings : s.findings.map (fun f => lineFeeds f.line) =
      s.findings.map (fun f => lineFeeds f.symbol) :=
    List.map_congr_left fun f hf => f.lineFeeds_line (h f hf)
  simp only [lines_eq, shownNames, List.map_cons, List.map_append, List.map_map, List.sum_cons,
    List.sum_append, Function.comp_def, hfindings, lineFeeds_sectionLine,
    (OnOneLine.heading s).lineFeeds_eq, (OnOneLine.lengthLine _).lineFeeds_eq,
    (OnOneLine.countLine _).lineFeeds_eq, Nat.zero_add]

theorem SegmentScan.sum_lineFeeds_allLines {ss : List SegmentScan}
    (h : ∀ s ∈ ss, ∀ f ∈ s.findings, OnOneLine f.text) :
    ((allLines ss).map lineFeeds).sum = ((ss.flatMap (·.shownNames)).map lineFeeds).sum := by
  have hflat : ((ss.flatMap (·.lines)).map lineFeeds).sum =
      ((ss.flatMap (·.shownNames)).map lineFeeds).sum := by
    induction ss with
    | nil => rfl
    | cons s ss ih =>
      obtain ⟨hs, hss⟩ := List.forall_mem_cons.mp h
      rw [List.flatMap_cons, List.flatMap_cons, List.map_append, List.map_append, List.sum_append,
        List.sum_append, sum_lineFeeds_lines hs, ih hss]
  cases ss with
  | nil => decide
  | cons s ss => exact hflat

namespace FileScan

/-- Names from the file that the report shows. -/
def shownNames (scan : FileScan) : List String := scan.segments.flatMap (·.shownNames)

/-- One line for the path and a blank one at the end. In between stand three lines for each segment
and one for each of its sections and findings, or the line that says that there are no segments. -/
def lineCount (scan : FileScan) : Nat :=
  if scan.segments = [] then 3
  else 2 + (scan.segments.map fun s => 3 + s.sections.length + s.findings.length).sum

end FileScan

namespace Outcome

theorem lines_scanned (scan : FileScan) (sha256 : Option String) :
    (scanned scan sha256).lines = scan.path :: (SegmentScan.allLines scan.segments ++ [""]) := by
  rw [← lines_scanned_append, List.append_nil]

theorem length_lines_scanned (scan : FileScan) (sha256 : Option String) :
    (scanned scan sha256).lines.length = scan.lineCount := by
  have hsegment (s : SegmentScan) :
      s.lines.length = 3 + s.sections.length + s.findings.length := by
    simp only [SegmentScan.lines_eq, List.length_cons, List.length_append, List.length_map]
    omega
  rw [lines_scanned, FileScan.lineCount]
  cases hs : scan.segments with
  | nil => rfl
  | cons s ss =>
    rw [SegmentScan.allLines, ← hs, if_neg (hs ▸ List.cons_ne_nil s ss), List.length_cons,
      List.length_append, List.length_flatMap, List.length_singleton]
    simp only [hsegment]
    omega

theorem sum_lineFeeds_lines {scan : FileScan} (sha256 : Option String) (hpath : OnOneLine scan.path)
    (h : ∀ s ∈ scan.segments, ∀ f ∈ s.findings, OnOneLine f.text) :
    ((scanned scan sha256).lines.map lineFeeds).sum = (scan.shownNames.map lineFeeds).sum := by
  have hlast : [""].map lineFeeds = [0] := by decide
  rw [lines_scanned, List.map_cons, List.map_append, List.sum_cons, List.sum_append,
    SegmentScan.sum_lineFeeds_allLines h, hpath.lineFeeds_eq, hlast, Nat.zero_add]
  rfl

end Outcome

/-! Counts and what they count. -/

/-- Only lines with a count start with an `F`. -/
theorem SegmentScan.ne_countLine {line : String} (h : line.toList.head? ≠ some 'F') (m : Nat) :
    line ≠ countLine m := by
  rintro rfl
  apply h
  unfold countLine
  simp

theorem Finding.head?_line (f : Finding) : f.line.toList.head? = some '0' := by
  rw [toList_line, Text.toList_hex]
  rfl

theorem SegmentScan.head?_sectionLine (name : String) :
    (sectionLine name).toList.head? = some ' ' := by
  unfold sectionLine
  simp

theorem SegmentScan.head?_lengthLine (length : Nat) :
    (lengthLine length).toList.head? = some ' ' := by
  unfold lengthLine
  simp

/-- An item that is not among the first ones stands among the others. -/
theorem append_eq_of_notMem {α : Type} {a : α} {xs ys us vs : List α} (h : a ∉ xs)
    (heq : xs ++ us = ys ++ a :: vs) : ∃ zs, us = zs ++ a :: vs := by
  rcases List.append_eq_append_iff.mp heq with ⟨zs, -, hus⟩ | ⟨zs, rfl, hvs⟩
  · exact ⟨zs, hus⟩
  · cases zs with
    | nil => exact ⟨[], hvs.symm⟩
    | cons z zs =>
      obtain ⟨rfl, -⟩ := List.cons.inj hvs
      exact absurd (List.mem_append_right ys List.mem_cons_self) h

namespace SegmentScan

/-- A line with a count is the one of the segment, or it stands after the segment. -/
theorem lines_append_eq {s : SegmentScan} {before rest tail : List String} {m : Nat}
    (h : s.lines ++ tail = before ++ countLine m :: rest) :
    (m = s.findings.length ∧ rest = s.findings.map (·.line) ++ tail) ∨
      ∃ later, tail = later ++ countLine m :: rest := by
  have hheading : s.heading ≠ countLine m := ne_countLine (by simp [head?_heading]) m
  have hsection (name : String) : sectionLine name ≠ countLine m :=
    ne_countLine (by simp [head?_sectionLine]) m
  have hlength : lengthLine s.length.toNat ≠ countLine m :=
    ne_countLine (by simp [head?_lengthLine]) m
  have hfinding (f : Finding) : f.line ≠ countLine m := ne_countLine (by simp [f.head?_line]) m
  have hfirst : countLine m ∉ s.heading :: (s.sections.map sectionLine ++
      [lengthLine s.length.toNat]) := by
    simp [hheading.symm, hsection, hlength.symm]
  have hfindings : countLine m ∉ s.findings.map (·.line) := by
    simp [hfinding]
  have hlines : s.lines ++ tail =
      (s.heading :: (s.sections.map sectionLine ++ [lengthLine s.length.toNat])) ++
        countLine s.findings.length :: (s.findings.map (·.line) ++ tail) := by
    simp [lines_eq]
  rw [hlines] at h
  obtain ⟨zs, hzs⟩ := append_eq_of_notMem hfirst h
  rcases List.cons_eq_append_iff.mp hzs with ⟨rfl, hcount⟩ | ⟨zs, rfl, hrest⟩
  · obtain ⟨hm, hrest⟩ := List.cons.inj hcount
    exact .inl ⟨countLine_inj hm, hrest⟩
  · exact .inr (append_eq_of_notMem hfindings hrest)

theorem findings_of_mem_flatMap {ss : List SegmentScan} {before rest : List String} {m : Nat}
    (h : ss.flatMap (·.lines) ++ [""] = before ++ countLine m :: rest) :
    ∃ s ∈ ss, m = s.findings.length ∧ rest.take m = s.findings.map (·.line) := by
  induction ss generalizing before with
  | nil =>
    have hmem : countLine m ∈ [""] := (show [""] = _ from h) ▸ by simp
    exact absurd (List.mem_singleton.mp hmem).symm (ne_countLine (by decide) m)
  | cons s ss ih =>
    rw [List.flatMap_cons, List.append_assoc] at h
    rcases lines_append_eq h with ⟨rfl, rfl⟩ | ⟨later, hlater⟩
    · exact ⟨s, List.mem_cons_self, rfl, List.take_left' (List.length_map _)⟩
    · obtain ⟨t, ht, hcount⟩ := ih hlater
      exact ⟨t, List.mem_cons_of_mem _ ht, hcount⟩

/-- After a line with a count stand the findings of a segment that has as many. -/
theorem findings_of_countLine {ss : List SegmentScan} {before rest : List String} {m : Nat}
    (h : allLines ss ++ [""] = before ++ countLine m :: rest) :
    ∃ s ∈ ss, m = s.findings.length ∧ rest.take m = s.findings.map (·.line) := by
  cases ss with
  | nil =>
    have hnone : countLine m ∉ ["No executable segments"] := by
      simpa using (ne_countLine (by decide) m).symm
    obtain ⟨zs, hzs⟩ := append_eq_of_notMem hnone h
    exact findings_of_mem_flatMap hzs
  | cons s ss => exact findings_of_mem_flatMap h

end SegmentScan

namespace Report

/-- The lines are those of the scan and no others, and after each line with a count stand the
findings it has counted. The first line is left out, as it shows the path. -/
structure Itemised (scan : FileScan) (lines : List String) : Prop where
  length : lines.length = scan.lineCount
  parts : lines = scan.path :: (SegmentScan.allLines scan.segments ++ [""])
  counted : ∀ before m rest, lines.tail = before ++ SegmentScan.countLine m :: rest →
    ∃ s ∈ scan.segments, m = s.findings.length ∧ rest.take m = s.findings.map (·.line)

/-- Each line feed in a name adds a line. -/
theorem length_linesOf_file {scan : FileScan} (sha256 : Option String) (hpath : OnOneLine scan.path)
    (htexts : ∀ s ∈ scan.segments, ∀ f ∈ s.findings, OnOneLine f.text) :
    (linesOf (file (.scanned scan sha256))).length =
      scan.lineCount + (scan.shownNames.map lineFeeds).sum := by
  rw [file, length_linesOf_unlines, Outcome.length_lines_scanned,
    Outcome.sum_lineFeeds_lines sha256 hpath htexts]

theorem itemised_iff_onOneLine {scan : FileScan} (sha256 : Option String)
    (hpath : OnOneLine scan.path)
    (htexts : ∀ s ∈ scan.segments, ∀ f ∈ s.findings, OnOneLine f.text) :
    Itemised scan (linesOf (file (.scanned scan sha256))) ↔
      ∀ name ∈ scan.shownNames, OnOneLine name := by
  constructor
  · intro h
    have hlength := h.length
    rw [length_linesOf_file sha256 hpath htexts] at hlength
    have hsum : (scan.shownNames.map lineFeeds).sum = 0 := by omega
    rw [List.sum_eq_zero_iff_forall_eq_nat, List.forall_mem_map] at hsum
    exact fun name hname => lineFeeds_eq_zero_iff.mp (hsum name hname)
  · intro hnames
    have hone : (Outcome.scanned scan sha256).TextsOnOneLine := by
      rw [FileScan.shownNames, List.forall_mem_flatMap] at hnames
      refine ⟨hpath, fun s hs => ?_⟩
      obtain ⟨hsections, hsymbols⟩ := List.forall_mem_append.mp (hnames s hs)
      exact ⟨hsections, htexts s hs, List.forall_mem_map.mp hsymbols⟩
    have hlines : linesOf (file (.scanned scan sha256)) = (Outcome.scanned scan sha256).lines :=
      linesOf_unlines_eq hone.lines
    rw [hlines]
    refine ⟨Outcome.length_lines_scanned scan sha256, Outcome.lines_scanned scan sha256, ?_⟩
    intro before m rest h
    rw [Outcome.lines_scanned, List.tail_cons] at h
    exact SegmentScan.findings_of_countLine h

end Report

/-! Names from the tables of a file. -/

theorem OnOneLine.rawText (i : Instruction) : OnOneLine (rawText i.bytes) := by
  have hraw : IndirectBranch.rawText i.bytes = ".inst " ++ Text.hexWord i.word := rfl
  have hword (w : UInt32) : OnOneLine (Text.hexWord w) :=
    (show OnOneLine "0x" by decide).append
      (hexNumeral (Text.hexNumeral_hexPadded (by decide) w.toNat_lt))
  rw [hraw]
  exact (show OnOneLine ".inst " by decide).append (hword i.word)

namespace Elf

theorem StringTable.onOneLine_nameAt {t : StringTable} (h : 0x0A ∉ t.bytes) (offset : Nat) :
    OnOneLine (t.nameAt offset) := by
  unfold nameAt Text.ofUtf8?
  cases hchars : Text.decodeUtf8? ((t.bytes.drop offset).takeWhile (· ≠ 0)) with
  | none => decide
  | some cs =>
    rw [OnOneLine, Option.map_some, Option.getD_some, String.toList_ofList]
    intro hmem
    have hbyte := Text.mem_of_decodeUtf8? hchars (by decide) hmem
    exact h ((List.drop_sublist offset _).subset ((List.takeWhile_sublist _).subset hbyte))

end Elf

/-- No name of the image runs over a line. -/
structure Image.NamesOnOneLine (image : Image) : Prop where
  sections : ∀ s ∈ image.sections, OnOneLine s.name
  symbols : ∀ s ∈ image.symbols, OnOneLine s.name

namespace Elf.Object

/-- No table of names holds a line feed. -/
structure TablesOnOneLine (o : Object) : Prop where
  sections : 0x0A ∉ o.sectionNames.bytes
  symbols : 0x0A ∉ o.symbolNames.bytes
  dynamic : 0x0A ∉ o.dynamicNames.bytes

theorem onOneLine_of_mem_placedSymbols {o : Object} (h : o.TablesOnOneLine)
    {place : Nat → UInt64 → Option UInt64} {s : Symbol} (hs : s ∈ o.placedSymbols place) :
    OnOneLine s.name := by
  rw [placedSymbols_eq_filterMap] at hs
  obtain ⟨x, hx, hsymbol⟩ := List.mem_filterMap.mp hs
  rw [← (TableEntry.toSymbol?_eq_some_iff.mp hsymbol).1.nameAt_eq]
  have hnames : 0x0A ∉ x.names.bytes := by
    rcases List.mem_append.mp hx with hx | hx <;> obtain ⟨e, -, rfl⟩ := List.mem_map.mp hx
    · exact h.symbols
    · exact h.dynamic
  exact x.names.onOneLine_nameAt hnames _

theorem onOneLine_of_mem_layOut {names : StringTable} (hnames : 0x0A ∉ names.bytes) {file : Bytes}
    {headers : List (SectionHeader × Nat)} {placements : List Placement} {cursor : Nat}
    (h : layOut names file cursor headers = .ok placements) :
    ∀ p ∈ placements, OnOneLine p.name := by
  induction headers generalizing cursor placements with
  | nil =>
    cases h
    exact List.forall_mem_nil _
  | cons header rest ih =>
    obtain ⟨s, index⟩ := header
    unfold layOut at h
    split at h
    · obtain ⟨bytes, -, h⟩ := exists_ok_of_bind h
      obtain ⟨others, hothers, h⟩ := exists_ok_of_bind h
      cases h
      exact List.forall_mem_cons.mpr ⟨names.onOneLine_nameAt hnames _, ih hothers⟩
    · exact ih h

theorem namesOnOneLine_of_toImage {o : Object} (ho : o.TablesOnOneLine) {file : Bytes}
    {image : Image} (h : o.toImage file = .ok image) : image.NamesOnOneLine := by
  rcases toImage_eq_ok h with ⟨-, h⟩ | ⟨-, h⟩
  · obtain ⟨placements, hlayout, h⟩ := exists_ok_of_bind h
    cases h
    refine ⟨List.forall_mem_map.mpr (onOneLine_of_mem_layOut ho.sections hlayout), fun s hs => ?_⟩
    exact onOneLine_of_mem_placedSymbols ho hs
  · obtain ⟨segments, -, h⟩ := exists_ok_of_bind h
    cases h
    refine ⟨?_, fun s hs => onOneLine_of_mem_placedSymbols ho hs⟩
    rw [linkedSections_eq, List.forall_mem_map]
    exact fun s _ => o.sectionNames.onOneLine_nameAt ho.sections _

end Elf.Object

namespace Auditor

theorem onOneLine_shownNames {a : Auditor} {path : String} {image : Image}
    (h : image.NamesOnOneLine) : ∀ name ∈ (a.auditImage path image).shownNames, OnOneLine name := by
  have hsymbol (address : UInt64) :
      OnOneLine ((SymbolIndex.ofTable image.symbols).resolveOrUnknown address).1 := by
    rw [SymbolIndex.resolveOrUnknown_eq]
    cases hnearest : (SymbolIndex.ofTable image.symbols).nearest? address with
    | none => exact (by decide : OnOneLine SymbolIndex.unknownName)
    | some s => exact h.symbols s (SymbolIndex.nearest?_eq_some_iff.mp hnearest).mem
  rw [FileScan.shownNames, segments_auditImage, List.forall_mem_flatMap, List.forall_mem_map]
  intro s _
  rw [SegmentScan.shownNames, List.forall_mem_append, List.forall_mem_map]
  constructor
  · intro name hname
    obtain ⟨t, ht, rfl⟩ := List.mem_map.mp hname
    exact h.sections t (List.mem_filter.mp ht).1
  · intro f hf
    obtain ⟨ins, index, address, -, -, -, rfl⟩ := mem_auditSegment_iff.mp hf
    exact hsymbol address

theorem onOneLine_texts {a : Auditor} (ha : a.disassembler = .hex) (path : String) (image : Image) :
    ∀ s ∈ (a.auditImage path image).segments, ∀ f ∈ s.findings, OnOneLine f.text := by
  intro s hs f hf
  rw [text_of_mem_findings ha (List.mem_flatMap.mpr ⟨s, hs, hf⟩)]
  exact .rawText f.instruction

end Auditor

/-- The report on a file that was accepted has as many lines as the scan has parts, and one more for
each line feed in a name it shows. So the lines can be taken for what they say exactly if no section
it lists and no symbol of a finding has a line feed in its name, and in particular if the tables of
names hold none. -/
theorem Report.itemised_iff (p : Policy) {path : String} (hpath : OnOneLine path) {file : Bytes}
    {scan : FileScan} (h : (Auditor.forPolicy p .hex).auditBytes path file = .ok scan)
    (sha256 : Option String) :
    ∃ o image, Elf.Object.parse file = .ok o ∧ o.toImage file = .ok image ∧ scan.path = path ∧
      scan.segments.length = image.executableSegments.length ∧
      (linesOf (Report.file (.scanned scan sha256))).length =
        scan.lineCount + (scan.shownNames.map lineFeeds).sum ∧
      (Itemised scan (linesOf (Report.file (.scanned scan sha256))) ↔
        ∀ name ∈ scan.shownNames, OnOneLine name) ∧
      (o.TablesOnOneLine → ∀ name ∈ scan.shownNames, OnOneLine name) := by
  obtain ⟨image, himage, rfl⟩ := Auditor.auditBytes_eq_ok h
  obtain ⟨o, ho, hto⟩ := Elf.parseImage_eq_ok himage
  have hscanPath : ((Auditor.forPolicy p .hex).auditImage path image).path = path := by
    rw [Auditor.auditImage_eq]
    rfl
  have hone : OnOneLine ((Auditor.forPolicy p .hex).auditImage path image).path := by
    rwa [hscanPath]
  have htexts := Auditor.onOneLine_texts (a := .forPolicy p .hex) rfl path image
  refine ⟨o, image, ho, hto, hscanPath, ?_, length_linesOf_file sha256 hone htexts,
    itemised_iff_onOneLine sha256 hone htexts, fun hnames => ?_⟩
  · rw [Auditor.segments_auditImage, List.length_map]
  · exact Auditor.onOneLine_shownNames (Elf.Object.namesOnOneLine_of_toImage hnames hto)

/-- A relocatable file with one `blr`, in a function of this name. -/
def Elf.oneBranchFile (name : String) : Bytes :=
  relocatableFile [.code 4 [0xD63F0000], .symbols 3 [[0, 0, 0, 0, 0, 0], [1, 0x12, 0, 1, 0, 0]],
    .strings [name]]

def FileScan.oneBranch (name : String) : FileScan :=
  ⟨"a.o", [⟨0, 4, .readExecute, [],
    [⟨0, ⟨0x00, 0x00, 0x3F, 0xD6⟩, ".inst 0xd63f0000", name, 0, true, ["blr"]⟩]⟩]⟩

/-- A name that looks like a line with a count stays in its line. -/
theorem Report.itemised_iff_lookalike :
    let name := "Found 9 indirect branches:"
    let scan := FileScan.oneBranch name
    (Auditor.forPolicy .standard .hex).auditBytes "a.o" (Elf.oneBranchFile name) = .ok scan ∧
      Itemised scan (linesOf (Report.file (.scanned scan none))) := by
  intro name scan
  have hscan : (Auditor.forPolicy .standard .hex).auditBytes "a.o" (Elf.oneBranchFile name) =
      .ok scan := by
    decide +kernel
  obtain ⟨o, image, -, -, -, -, -, hitemised, -⟩ := itemised_iff .standard (by decide) hscan none
  exact ⟨hscan, hitemised.mpr (by decide)⟩

/-- With line feeds around it, the same name makes a line of its own. The report has eight lines
instead of six, and one of them counts nine branches where there is one. -/
theorem Report.symbol_forges_count :
    let name := "f\nFound 9 indirect branches:\ng"
    let scan := FileScan.oneBranch name
    let lines := linesOf (Report.file (.scanned scan none))
    (Auditor.forPolicy .standard .hex).auditBytes "a.o" (Elf.oneBranchFile name) = .ok scan ∧
      scan.lineCount = 6 ∧ lines.length = 8 ∧ SegmentScan.countLine 9 ∈ lines ∧
      scan.findings.length = 1 ∧ ¬ Itemised scan lines := by
  intro name scan lines
  have hlength : lines.length = 8 := by decide +kernel
  have hcount : scan.lineCount = 6 := by decide
  refine ⟨by decide +kernel, hcount, hlength, by decide +kernel, rfl, fun h => ?_⟩
  have hsame := h.length
  omega

end IndirectBranch
