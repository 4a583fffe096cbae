import IndirectBranch.Proofs.Hexadecimal
import IndirectBranch.Proofs.Verdict
import IndirectBranch.Report.Text
import Std.Data.String.ToNat

/-! The report for people to read can be read back. Its texts are not escaped, but every block of
lines tells where it ends: the lines of a segment, of a file and of a batch are each cancelled from
the front of whatever follows them. So two batches with the same report agree on everything the
report shows, as long as no text runs over a line. -/
namespace IndirectBranch

/-- A list is cut in one way at the first `a`. -/
theorem append_cons_cancel {α : Type} {a : α} {xs ys us vs : List α} (hx : a ∉ xs) (hy : a ∉ ys)
    (h : xs ++ a :: us = ys ++ a :: vs) : xs = ys ∧ us = vs := by
  induction xs generalizing ys with
  | nil =>
    cases ys with
    | nil => exact ⟨rfl, (List.cons.inj h).2⟩
    | cons y ys => exact absurd (List.cons.inj h).1 (List.ne_of_not_mem_cons hy)
  | cons x xs ih =>
    cases ys with
    | nil => exact absurd (List.cons.inj h).1.symm (List.ne_of_not_mem_cons hx)
    | cons y ys =>
      obtain ⟨rfl, hrest⟩ := List.cons.inj h
      obtain ⟨rfl, rfl⟩ :=
        ih (List.not_mem_of_not_mem_cons hx) (List.not_mem_of_not_mem_cons hy) hrest
      exact ⟨rfl, rfl⟩

/-- A list is cut in one way at the last `a`. -/
theorem append_cons_cancel_right {α : Type} {a : α} {xs ys us vs : List α} (hu : a ∉ us)
    (hv : a ∉ vs) (h : xs ++ a :: us = ys ++ a :: vs) : xs = ys ∧ us = vs := by
  have hreverse : us.reverse ++ a :: xs.reverse = vs.reverse ++ a :: ys.reverse := by
    simpa using congrArg List.reverse h
  have hcut := append_cons_cancel (by simpa using hu) (by simpa using hv) hreverse
  exact ⟨List.reverse_inj.mp hcut.2, List.reverse_inj.mp hcut.1⟩

/-! One finding. -/
namespace Finding

def marker (f : Finding) : String := if f.critical then "" else "  (allowed)"

/-- What a line shows beyond doubt: texts and symbols of different lengths may look alike. -/
structure SameLine (f g : Finding) : Prop where
  address : f.address = g.address
  instruction : f.instruction = g.instruction
  offset : f.offset = g.offset
  critical : f.critical = g.critical

theorem toList_line (f : Finding) :
    f.line.toList = (Text.hex f.address.toNat).toList ++ ':' :: ' ' ::
      ((Text.hexBytes " " f.instruction.bytes).toList ++
        ("  " ++ f.text ++ String.ofList (List.replicate (48 - f.listing.length) ' ') ++
          " |  location: " ++ f.symbol ++ " ").toList ++ '+' ::
        ((Text.hex f.offset.toNat).toList ++ f.marker.toList)) := by
  have hlocation : f.location = f.symbol ++ " +" ++ Text.hex f.offset.toNat := rfl
  have hmarker : (if f.critical then "" else "  (allowed)") = f.marker := rfl
  unfold line padRight
  generalize 48 - f.listing.length = blanks
  rw [hlocation, hmarker, listing]
  simp

/-- The bytes of an instruction take up eleven characters, from which they can be read. -/
theorem hexBytes_cancel {i j : Instruction} {us vs : List Char}
    (h : (Text.hexBytes " " i.bytes).toList ++ us = (Text.hexBytes " " j.bytes).toList ++ vs) :
    i = j ∧ us = vs := by
  obtain ⟨a, b, c, d⟩ := i
  obtain ⟨a', b', c', d'⟩ := j
  have hbytes (w x y z : UInt8) : (Text.hexBytes " " [w, x, y, z]).toList =
      (Text.hexByte w).toList ++ ' ' :: ((Text.hexByte x).toList ++ ' ' ::
        ((Text.hexByte y).toList ++ ' ' :: (Text.hexByte z).toList)) := by
    simp [Text.hexBytes]
  have hbyte {x y : UInt8} {us vs : List Char}
      (h : (Text.hexByte x).toList ++ us = (Text.hexByte y).toList ++ vs) : x = y ∧ us = vs := by
    obtain ⟨hx, hu⟩ := List.append_inj h (by rw [Text.length_hexByte, Text.length_hexByte])
    exact ⟨Text.hexByte_inj hx, hu⟩
  simp only [Instruction.bytes, hbytes, List.append_assoc, List.cons_append] at h
  obtain ⟨rfl, hb⟩ := hbyte h
  obtain ⟨rfl, hc⟩ := hbyte (List.cons.inj hb).2
  obtain ⟨rfl, hd⟩ := hbyte (List.cons.inj hc).2
  obtain ⟨rfl, hrest⟩ := hbyte (List.cons.inj hd).2
  exact ⟨rfl, hrest⟩

/-- The digits of the offset end before the marker, which starts with a blank. -/
theorem offset_cancel {f g : Finding}
    (h : (Text.hex f.offset.toNat).toList ++ f.marker.toList =
      (Text.hex g.offset.toNat).toList ++ g.marker.toList) :
    f.offset = g.offset ∧ f.critical = g.critical := by
  have hdigits (n : Nat) : ' ' ∉ (Text.hex n).toList := Text.notMem_hex (by decide) (by decide) n
  have hcritical {m n : Nat} {rest : List Char} :
      (Text.hex m).toList ≠ (Text.hex n).toList ++ ' ' :: rest := by
    intro heq
    apply hdigits m
    rw [heq]
    simp
  have hoffset {a b : UInt64} (hab : (Text.hex a.toNat).toList = (Text.hex b.toNat).toList) :
      a = b :=
    UInt64.toNat_inj.mp (Text.hex_inj hab)
  unfold marker at h
  cases hf : f.critical <;> cases hg : g.critical <;> simp only [hf, hg] at h
  · exact ⟨hoffset (append_cons_cancel (hdigits _) (hdigits _) h).1, rfl⟩
  · exact absurd ((List.append_nil _).symm.trans h.symm) hcritical
  · exact absurd ((List.append_nil _).symm.trans h) hcritical
  · exact ⟨hoffset (List.append_cancel_right h), rfl⟩

/-- Address and bytes are read from the front of a line, offset and verdict from its end. -/
theorem sameLine_of_line_eq {f g : Finding} (h : f.line = g.line) : f.SameLine g := by
  have hline := congrArg String.toList h
  rw [toList_line, toList_line] at hline
  have hcolon (n : Nat) : ':' ∉ (Text.hex n).toList := Text.notMem_hex (by decide) (by decide) n
  obtain ⟨haddress, hrest⟩ := append_cons_cancel (hcolon _) (hcolon _) hline
  rw [List.append_assoc, List.append_assoc] at hrest
  obtain ⟨hinstruction, hrest⟩ := hexBytes_cancel (List.cons.inj hrest).2
  have hplus (f : Finding) : '+' ∉ (Text.hex f.offset.toNat).toList ++ f.marker.toList := by
    rw [List.mem_append, not_or]
    refine ⟨Text.notMem_hex (by decide) (by decide) _, ?_⟩
    unfold marker
    split <;> decide
  obtain ⟨hoffset, hcritical⟩ :=
    offset_cancel (append_cons_cancel_right (hplus f) (hplus g) hrest).2
  exact ⟨UInt64.toNat_inj.mp (Text.hex_inj haddress), hinstruction, hoffset, hcritical⟩

end Finding

/-! The lines of a segment. -/
namespace SegmentScan

/-- What the report shows of a segment. -/
structure SameLines (s t : SegmentScan) : Prop where
  base : s.base = t.base
  length : s.length = t.length
  permissions : s.permissions = t.permissions
  sections : s.sections = t.sections
  findings : List.Forall₂ Finding.SameLine s.findings t.findings

def heading (s : SegmentScan) : String :=
  "Executable segment: " ++ Text.hex s.base.toNat ++ ".." ++
    Text.hex (saturate (s.base.toNat + s.length.toNat)) ++ " (" ++ s.permissions.triplet ++ ")"

def sectionLine (name : String) : String := "  - contains section " ++ name

def lengthLine (length : Nat) : String := "  - length: " ++ Nat.repr length ++ " bytes"

def countLine (count : Nat) : String := "Found " ++ Nat.repr count ++ " indirect branches:"

theorem lines_eq (s : SegmentScan) :
    s.lines = s.heading :: (s.sections.map sectionLine ++ lengthLine s.length.toNat ::
      countLine s.findings.length :: s.findings.map (·.line)) := by
  simp only [lines, List.append_assoc, List.cons_append, List.nil_append]
  rfl

theorem triplet_inj {p q : Permissions} (h : p.triplet.toList = q.triplet.toList) : p = q := by
  obtain ⟨r, w, x⟩ := p
  obtain ⟨r', w', x'⟩ := q
  revert h
  revert r w x r' w' x'
  decide

theorem heading_inj {s t : SegmentScan} (h : s.heading = t.heading) :
    s.base = t.base ∧ s.permissions = t.permissions := by
  have hheading (s : SegmentScan) : s.heading.toList = "Executable segment: ".toList ++
      ((Text.hex s.base.toNat).toList ++ '.' :: '.' ::
        ((Text.hex (saturate (s.base.toNat + s.length.toNat))).toList ++ ' ' :: '(' ::
          (s.permissions.triplet.toList ++ [')']))) := by
    unfold heading
    simp
  have hchars := congrArg String.toList h
  rw [hheading, hheading] at hchars
  have hdot (n : Nat) : '.' ∉ (Text.hex n).toList := Text.notMem_hex (by decide) (by decide) n
  have hblank (n : Nat) : ' ' ∉ (Text.hex n).toList := Text.notMem_hex (by decide) (by decide) n
  obtain ⟨hbase, hrest⟩ := append_cons_cancel (hdot _) (hdot _) (List.append_cancel_left hchars)
  obtain ⟨-, hrest⟩ := append_cons_cancel (hblank _) (hblank _) (List.cons.inj hrest).2
  exact ⟨UInt64.toNat_inj.mp (Text.hex_inj hbase),
    triplet_inj (List.append_cancel_right (List.cons.inj hrest).2)⟩

theorem lengthLine_inj {m n : Nat} (h : lengthLine m = lengthLine n) : m = n := by
  unfold lengthLine at h
  simpa [Nat.repr_inj] using h

theorem countLine_inj {m n : Nat} (h : countLine m = countLine n) : m = n := by
  unfold countLine at h
  simpa [Nat.repr_inj] using h

theorem sectionLine_ne_lengthLine (name : String) (length : Nat) :
    sectionLine name ≠ lengthLine length := by
  unfold sectionLine lengthLine
  intro h
  simpa using congrArg String.toList h

/-- The names of the sections end where the line with the length stands. -/
theorem sections_cancel {names names' : List String} {m n : Nat} {rest rest' : List String}
    (h : names.map sectionLine ++ lengthLine m :: rest =
      names'.map sectionLine ++ lengthLine n :: rest') : names = names' ∧ m = n ∧ rest = rest' := by
  induction names generalizing names' with
  | nil =>
    cases names' with
    | nil =>
      obtain ⟨hlength, hrest⟩ := List.cons.inj h
      exact ⟨rfl, lengthLine_inj hlength, hrest⟩
    | cons name' names' => exact absurd (List.cons.inj h).1.symm (sectionLine_ne_lengthLine _ _)
  | cons name names ih =>
    cases names' with
    | nil => exact absurd (List.cons.inj h).1 (sectionLine_ne_lengthLine _ _)
    | cons name' names' =>
      obtain ⟨hname, hrest⟩ := List.cons.inj h
      obtain ⟨rfl, hlength⟩ := ih hrest
      unfold sectionLine at hname
      have hname : name = name' := by simpa using hname
      exact ⟨by rw [hname], hlength⟩

theorem sameLine_of_map_line_eq {fs gs : List Finding}
    (h : fs.map (·.line) = gs.map (·.line)) : List.Forall₂ Finding.SameLine fs gs := by
  rw [← List.forall₂_eq_eq_eq, List.forall₂_map_left_iff, List.forall₂_map_right_iff] at h
  exact h.imp fun f g => Finding.sameLine_of_line_eq

/-- The lines of a segment tell how many findings follow, so they are told from what comes next. -/
theorem lines_cancel {s t : SegmentScan} {rest rest' : List String}
    (h : s.lines ++ rest = t.lines ++ rest') : s.SameLines t ∧ rest = rest' := by
  simp only [lines_eq, List.cons_append, List.append_assoc] at h
  obtain ⟨hheading, htail⟩ := List.cons.inj h
  obtain ⟨hbase, hpermissions⟩ := heading_inj hheading
  obtain ⟨hsections, hlength, htail⟩ := sections_cancel htail
  obtain ⟨hcount, htail⟩ := List.cons.inj htail
  have hfindings : (s.findings.map (·.line)).length = (t.findings.map (·.line)).length := by
    rw [List.length_map, List.length_map, countLine_inj hcount]
  obtain ⟨hlines, hrest⟩ := List.append_inj htail hfindings
  exact ⟨⟨hbase, UInt64.toNat_inj.mp hlength, hpermissions, hsections,
    sameLine_of_map_line_eq hlines⟩, hrest⟩

theorem head?_heading (s : SegmentScan) : s.heading.toList.head? = some 'E' := by
  unfold heading
  simp

/-- A line with another first letter does not open a segment. -/
theorem lines_append_ne {t : SegmentScan} {line : String} {rest rest' : List String}
    (h : line.toList.head? ≠ some 'E') : line :: rest ≠ t.lines ++ rest' := by
  rw [lines_eq, List.cons_append]
  intro hcons
  rw [(List.cons.inj hcons).1] at h
  exact h (head?_heading t)

/-- No segment starts with the blank line that ends a file. -/
theorem flatMap_lines_cancel {ss ts : List SegmentScan} {rest rest' : List String}
    (h : ss.flatMap (·.lines) ++ "" :: rest = ts.flatMap (·.lines) ++ "" :: rest') :
    List.Forall₂ SameLines ss ts ∧ rest = rest' := by
  induction ss generalizing ts with
  | nil =>
    cases ts with
    | nil => exact ⟨.nil, (List.cons.inj h).2⟩
    | cons t ts =>
      rw [List.flatMap_cons, List.append_assoc] at h
      exact absurd h (lines_append_ne (by decide))
  | cons s ss ih =>
    cases ts with
    | nil =>
      rw [List.flatMap_cons, List.append_assoc] at h
      exact absurd h.symm (lines_append_ne (by decide))
    | cons t ts =>
      rw [List.flatMap_cons, List.flatMap_cons, List.append_assoc, List.append_assoc] at h
      obtain ⟨hfirst, hothers⟩ := lines_cancel h
      obtain ⟨hall, hrest⟩ := ih hothers
      exact ⟨.cons hfirst hall, hrest⟩

def allLines : List SegmentScan → List String
  | [] => ["No executable segments"]
  | s :: ss => (s :: ss).flatMap (·.lines)

theorem allLines_cancel {ss ts : List SegmentScan} {rest rest' : List String}
    (h : allLines ss ++ "" :: rest = allLines ts ++ "" :: rest') :
    List.Forall₂ SameLines ss ts ∧ rest = rest' := by
  match ss, ts with
  | [], [] => exact ⟨.nil, (List.cons.inj (List.cons.inj h).2).2⟩
  | s :: ss, t :: ts => exact flatMap_lines_cancel h
  | [], t :: ts =>
    rw [allLines, allLines, List.flatMap_cons, List.append_assoc] at h
    exact absurd h (lines_append_ne (by decide))
  | s :: ss, [] =>
    rw [allLines, allLines, List.flatMap_cons, List.append_assoc] at h
    exact absurd h.symm (lines_append_ne (by decide))

theorem exists_allLines_eq (ss : List SegmentScan) :
    ∃ line tail, allLines ss = line :: tail ∧ line.toList.head? ≠ some ' ' := by
  cases ss with
  | nil => exact ⟨_, _, rfl, by decide⟩
  | cons s ss =>
    rw [allLines, List.flatMap_cons, lines_eq]
    exact ⟨_, _, rfl, by rw [head?_heading]; decide⟩

end SegmentScan

/-! The lines of a file. -/
namespace Outcome

/-- What the report shows of a file. -/
inductive SameLines : Outcome → Outcome → Prop
  | scanned {scan scan' : FileScan} {sha256 sha256' : Option String} (path : scan.path = scan'.path)
      (segments : List.Forall₂ SegmentScan.SameLines scan.segments scan'.segments) :
      SameLines (.scanned scan sha256) (.scanned scan' sha256')
  | unverified (path error : String) : SameLines (.unverified path error) (.unverified path error)

theorem SameLines.failing {o p : Outcome} (h : o.SameLines p) : o.failing = p.failing := by
  cases h with
  | scanned _ segments =>
    exact FileScan.hasCritical_congr
      (segments.imp fun _ _ hst => hst.findings.imp fun _ _ hfg => hfg.critical)
  | unverified => rfl

theorem lines_scanned_append (scan : FileScan) (sha256 : Option String) (rest : List String) :
    (scanned scan sha256).lines ++ rest =
      scan.path :: (SegmentScan.allLines scan.segments ++ "" :: rest) := by
  cases h : scan.segments <;> simp [lines, SegmentScan.allLines, h]

theorem lines_unverified_append (path error : String) (rest : List String) :
    (unverified path error).lines ++ rest = path :: ("  error: " ++ error) ::
      "  (file could not be verified; counted as failing)" :: "" :: rest :=
  rfl

/-- Whether a file was scanned shows in the first character of its second line. -/
theorem allLines_append_ne {ss : List SegmentScan} {error : String} {rest rest' : List String} :
    SegmentScan.allLines ss ++ rest ≠ ("  error: " ++ error) :: rest' := by
  obtain ⟨line, tail, hlines, hblank⟩ := SegmentScan.exists_allLines_eq ss
  rw [hlines, List.cons_append]
  intro h
  apply hblank
  rw [(List.cons.inj h).1]
  simp

/-- The lines of a file are told from what comes after them. -/
theorem lines_cancel {o p : Outcome} {rest rest' : List String}
    (h : o.lines ++ rest = p.lines ++ rest') : o.SameLines p ∧ rest = rest' := by
  cases o with
  | scanned scan sha256 =>
    cases p with
    | scanned scan' sha256' =>
      rw [lines_scanned_append, lines_scanned_append] at h
      obtain ⟨hpath, hbody⟩ := List.cons.inj h
      obtain ⟨hsegments, hrest⟩ := SegmentScan.allLines_cancel hbody
      exact ⟨.scanned hpath hsegments, hrest⟩
    | unverified path' error' =>
      rw [lines_scanned_append, lines_unverified_append] at h
      exact absurd (List.cons.inj h).2 allLines_append_ne
  | unverified path error =>
    cases p with
    | scanned scan' sha256' =>
      rw [lines_scanned_append, lines_unverified_append] at h
      exact absurd (List.cons.inj h).2.symm allLines_append_ne
    | unverified path' error' =>
      rw [lines_unverified_append, lines_unverified_append] at h
      obtain ⟨rfl, hbody⟩ := List.cons.inj h
      obtain ⟨herror, hrest⟩ := List.cons.inj hbody
      obtain rfl : error = error' := by simpa using herror
      exact ⟨.unverified path error, (List.cons.inj (List.cons.inj hrest).2).2⟩

/-- The lines of the files end where a single line is left. -/
theorem flatMap_lines_cancel {os ps : List Outcome} {line line' : String}
    (h : os.flatMap (·.lines) ++ [line] = ps.flatMap (·.lines) ++ [line']) :
    List.Forall₂ SameLines os ps := by
  have hlong {o : Outcome} {tail : List String} {l l' : String} :
      o.lines ++ (tail ++ [l]) ≠ [l'] := by
    intro heq
    have hlength := congrArg List.length heq
    cases o with
    | scanned scan sha256 => simp [lines_scanned_append] at hlength
    | unverified path error => simp [lines_unverified_append] at hlength
  induction os generalizing ps with
  | nil =>
    cases ps with
    | nil => exact .nil
    | cons p ps =>
      rw [List.flatMap_cons, List.append_assoc] at h
      exact absurd h.symm hlong
  | cons o os ih =>
    cases ps with
    | nil =>
      rw [List.flatMap_cons, List.append_assoc] at h
      exact absurd h hlong
    | cons p ps =>
      rw [List.flatMap_cons, List.flatMap_cons, List.append_assoc, List.append_assoc] at h
      obtain ⟨hfirst, hothers⟩ := lines_cancel h
      exact .cons hfirst (ih hothers)

end Outcome

/-! Texts and lines. -/

/-- The text does not go on after the end of a line. -/
def OnOneLine (s : String) : Prop := '\n' ∉ s.toList

instance (s : String) : Decidable (OnOneLine s) := inferInstanceAs (Decidable (_ ∉ _))

namespace OnOneLine

theorem append {s t : String} (hs : OnOneLine s) (ht : OnOneLine t) : OnOneLine (s ++ t) := by
  unfold OnOneLine at *
  rw [String.toList_append, List.mem_append, not_or]
  exact ⟨hs, ht⟩

theorem hex (n : Nat) : OnOneLine (Text.hex n) := Text.notMem_hex (by decide) (by decide) n

theorem repr (n : Nat) : OnOneLine (Nat.repr n) := by
  unfold OnOneLine
  rw [Nat.repr_eq_ofList_toDigits, String.toList_ofList]
  intro h
  have hdigit := Nat.isDigit_of_mem_toDigits (by decide) (by decide) h
  revert hdigit
  decide

theorem triplet (p : Permissions) : OnOneLine p.triplet := by
  obtain ⟨r, w, x⟩ := p
  revert r w x
  decide

theorem hexNumeral {width n : Nat} {s : String} (h : Text.HexNumeral width s n) : OnOneLine s :=
  h.notMem (by decide)

theorem hexBytes (i : Instruction) : OnOneLine (Text.hexBytes " " i.bytes) := by
  have hbyte (b : UInt8) : '\n' ∉ (Text.hexByte b).toList := hexNumeral (Text.hexNumeral_hexByte b)
  simp [OnOneLine, Text.hexBytes, Instruction.bytes, hbyte]

theorem line {f : Finding} (htext : OnOneLine f.text) (hsymbol : OnOneLine f.symbol) :
    OnOneLine f.line := by
  have hlocation : f.location = f.symbol ++ " +" ++ Text.hex f.offset.toNat := rfl
  have hblanks (n : Nat) : OnOneLine (String.ofList (List.replicate n ' ')) := by
    simp [OnOneLine]
  have hmarker : OnOneLine (if f.critical then "" else "  (allowed)") := by
    split <;> decide
  have hlisting : OnOneLine f.listing :=
    ((((hex _).append (by decide)).append (hexBytes _)).append (by decide)).append htext
  unfold Finding.line padRight
  rw [hlocation]
  exact (((hlisting.append (hblanks _)).append (by decide)).append
    ((hsymbol.append (by decide)).append (hex _))).append hmarker

theorem heading (s : SegmentScan) : OnOneLine s.heading := by
  have hdots : OnOneLine ".." := by decide
  unfold SegmentScan.heading
  exact ((((((by decide : OnOneLine "Executable segment: ").append (hex _)).append hdots).append
    (hex _)).append (by decide)).append (triplet _)).append (by decide)

theorem lengthLine (n : Nat) : OnOneLine (SegmentScan.lengthLine n) := by
  unfold SegmentScan.lengthLine
  exact ((by decide : OnOneLine "  - length: ").append (repr n)).append (by decide)

theorem countLine (n : Nat) : OnOneLine (SegmentScan.countLine n) := by
  unfold SegmentScan.countLine
  exact ((by decide : OnOneLine "Found ").append (repr n)).append (by decide)

end OnOneLine

structure SegmentScan.TextsOnOneLine (s : SegmentScan) : Prop where
  sections : ∀ name ∈ s.sections, OnOneLine name
  texts : ∀ f ∈ s.findings, OnOneLine f.text
  symbols : ∀ f ∈ s.findings, OnOneLine f.symbol

def Outcome.TextsOnOneLine : Outcome → Prop
  | .scanned scan _ => OnOneLine scan.path ∧ ∀ s ∈ scan.segments, s.TextsOnOneLine
  | .unverified path error => OnOneLine path ∧ OnOneLine error

instance (s : SegmentScan) : Decidable s.TextsOnOneLine :=
  decidable_of_iff ((∀ name ∈ s.sections, OnOneLine name) ∧ (∀ f ∈ s.findings, OnOneLine f.text) ∧
    ∀ f ∈ s.findings, OnOneLine f.symbol)
    ⟨fun ⟨hsections, htexts, hsymbols⟩ => ⟨hsections, htexts, hsymbols⟩,
      fun ⟨hsections, htexts, hsymbols⟩ => ⟨hsections, htexts, hsymbols⟩⟩

instance : (o : Outcome) → Decidable o.TextsOnOneLine
  | .scanned scan _ =>
    inferInstanceAs (Decidable (OnOneLine scan.path ∧ ∀ s ∈ scan.segments, s.TextsOnOneLine))
  | .unverified path error => inferInstanceAs (Decidable (OnOneLine path ∧ OnOneLine error))

theorem SegmentScan.TextsOnOneLine.lines {s : SegmentScan} (h : s.TextsOnOneLine) :
    ∀ line ∈ s.lines, OnOneLine line := by
  have hsections : ∀ line ∈ s.sections.map sectionLine, OnOneLine line := by
    rw [List.forall_mem_map]
    intro name hname
    unfold sectionLine
    exact (by decide : OnOneLine "  - contains section ").append (h.sections name hname)
  have hfindings : ∀ line ∈ s.findings.map (·.line), OnOneLine line := by
    rw [List.forall_mem_map]
    exact fun f hf => .line (h.texts f hf) (h.symbols f hf)
  rw [lines_eq, List.forall_mem_cons, List.forall_mem_append, List.forall_mem_cons,
    List.forall_mem_cons]
  exact ⟨.heading s, hsections, .lengthLine _, .countLine _, hfindings⟩

theorem Outcome.TextsOnOneLine.lines {o : Outcome} (h : o.TextsOnOneLine) :
    ∀ line ∈ o.lines, OnOneLine line := by
  cases o with
  | scanned scan sha256 =>
    obtain ⟨hpath, hsegments⟩ := h
    have hall : ∀ line ∈ SegmentScan.allLines scan.segments, OnOneLine line := by
      cases hs : scan.segments with
      | nil => decide
      | cons s ss =>
        rw [SegmentScan.allLines, ← hs, List.forall_mem_flatMap]
        exact fun s hs => (hsegments s hs).lines
    rw [← List.append_nil (Outcome.lines _), lines_scanned_append, List.forall_mem_cons,
      List.forall_mem_append]
    exact ⟨hpath, hall, by decide⟩
  | unverified path error =>
    obtain ⟨hpath, herror⟩ := h
    rw [← List.append_nil (Outcome.lines _), lines_unverified_append, List.forall_mem_cons,
      List.forall_mem_cons]
    exact ⟨hpath, (by decide : OnOneLine "  error: ").append herror, by decide⟩

theorem Summary.onOneLine_line (s : Summary) : OnOneLine s.line := by
  have hline : s.line = Nat.repr s.failingFiles ++ " / " ++ Nat.repr s.totalFiles ++
    " files have indirect branches remaining" := rfl
  rw [hline]
  exact (((OnOneLine.repr _).append (by decide)).append (.repr _)).append (by decide)

theorem Report.toList_unlines_cons (l : String) (rest : List String) :
    (unlines (l :: rest)).toList = l.toList ++ '\n' :: (unlines rest).toList := by
  simp [unlines]

/-- Lines are told apart by the line feeds between them. -/
theorem Report.unlines_inj {ls ms : List String} (hl : ∀ l ∈ ls, OnOneLine l)
    (hm : ∀ m ∈ ms, OnOneLine m) (h : unlines ls = unlines ms) : ls = ms := by
  induction ls generalizing ms with
  | nil =>
    cases ms with
    | nil => rfl
    | cons m ms =>
      have hchars := congrArg String.toList h
      rw [toList_unlines_cons] at hchars
      simp [unlines] at hchars
  | cons l ls ih =>
    cases ms with
    | nil =>
      have hchars := congrArg String.toList h
      rw [toList_unlines_cons] at hchars
      simp [unlines] at hchars
    | cons m ms =>
      obtain ⟨hl, hls⟩ := List.forall_mem_cons.mp hl
      obtain ⟨hm, hms⟩ := List.forall_mem_cons.mp hm
      have hchars := congrArg String.toList h
      rw [toList_unlines_cons, toList_unlines_cons] at hchars
      obtain ⟨hline, hrest⟩ := append_cons_cancel hl hm hchars
      rw [String.toList_inj.mp hline, ih hls hms (String.toList_inj.mp hrest)]

theorem Report.onOneLine_of_mem_batch {os : List Outcome} (h : ∀ o ∈ os, o.TextsOnOneLine) :
    ∀ line ∈ os.flatMap (·.lines) ++ [(Summary.ofOutcomes os).line], OnOneLine line := by
  rw [List.forall_mem_append, List.forall_mem_singleton, List.forall_mem_flatMap]
  exact ⟨fun o ho => (h o ho).lines, Summary.onOneLine_line _⟩

/-- The report on a batch tells how many files there are and, of each, its path, whether it was
scanned, the error if it was not, and otherwise its segments with address, length, permissions,
sections and findings, each with address, bytes, offset and verdict. -/
theorem Report.batch_unambiguous {os ps : List Outcome} (hos : ∀ o ∈ os, o.TextsOnOneLine)
    (hps : ∀ p ∈ ps, p.TextsOnOneLine) (h : batch os = batch ps) :
    os.length = ps.length ∧ List.Forall₂ Outcome.SameLines os ps ∧
      os.map (·.failing) = ps.map (·.failing) := by
  have hlines := unlines_inj (onOneLine_of_mem_batch hos) (onOneLine_of_mem_batch hps) h
  have hsame := Outcome.flatMap_lines_cancel hlines
  exact ⟨hsame.length_eq, hsame, map_eq_map_of_forall₂ hsame fun o p => Outcome.SameLines.failing⟩

/-- Two batches with one report: the text of the instruction in the one goes on into the symbol of
the other, and the digests differ. A path looks like a summary, a symbol like an allowed one. -/
theorem Report.batch_unambiguous_shifted :
    let outcome (text symbol : String) (sha256 : Option String) : List Outcome :=
      [.scanned ⟨"0 / 0 files have indirect branches remaining",
          [⟨0x1000, 4, .readExecute, [".text"],
            [⟨0x1000, ⟨0, 0, 0x3F, 0xD6⟩, text, symbol, 0, true, ["blr"]⟩]⟩]⟩ sha256,
        .unverified "" "No executable segments"]
    let os := outcome "blr x0, as a rather long text" "main |  location: f +0x0  (allowed)" none
    let ps :=
      outcome "blr x0, as a rather long text |  location: main" "f +0x0  (allowed)" (some "00")
    os ≠ ps ∧ batch os = batch ps ∧ os.length = ps.length ∧
      List.Forall₂ Outcome.SameLines os ps ∧ os.map (·.failing) = ps.map (·.failing) := by
  intro outcome os ps
  have hsame : batch os = batch ps := by decide +kernel
  exact ⟨by decide, hsame, batch_unambiguous (by decide) (by decide) hsame⟩

end IndirectBranch
