import Mathlib.Algebra.GroupWithZero.Nat
import Mathlib.Data.List.Forall2
import IndirectBranch.Exemption

/-! Classification is one pass over the findings of a scan. It stores a verdict in each finding and
leaves everything else as it is; the count it keeps on the way is what a recount of the stored
verdicts gives. Since the verdicts from before are never looked at, a second pass changes
nothing. -/
namespace IndirectBranch

structure Finding.SameButVerdict (f g : Finding) : Prop where
  address : f.address = g.address
  instruction : f.instruction = g.instruction
  text : f.text = g.text
  symbol : f.symbol = g.symbol
  offset : f.offset = g.offset
  classes : f.classes = g.classes

/-- The segments agree, and so do their findings, one by one, in all but the verdicts. -/
structure SegmentScan.SameButVerdicts (s t : SegmentScan) : Prop where
  base : s.base = t.base
  length : s.length = t.length
  permissions : s.permissions = t.permissions
  sections : s.sections = t.sections
  findings : List.Forall₂ Finding.SameButVerdict s.findings t.findings

structure FileScan.SameButVerdicts (s t : FileScan) : Prop where
  path : s.path = t.path
  segments : List.Forall₂ SegmentScan.SameButVerdicts s.segments t.segments

theorem FileScan.hasCritical_iff_criticalCount (s : FileScan) :
    s.hasCritical = true ↔ s.criticalCount ≠ 0 := by
  rw [hasCritical, criticalCount, ← Nat.pos_iff_ne_zero, List.countP_pos_iff, List.any_eq_true]

namespace Exemption

variable {es : List Exemption}

/-! What a verdict depends on. -/

theorem isCritical_classify (f : Finding) : isCritical es (classify es f) = isCritical es f := rfl

theorem sameButVerdict_classify (f : Finding) : f.SameButVerdict (classify es f) :=
  ⟨rfl, rfl, rfl, rfl, rfl, rfl⟩

theorem isCritical_eq_of_same {f g : Finding} (h : f.SameButVerdict g) :
    isCritical es f = isCritical es g := by
  simp only [isCritical, Finding.unresolved, covers, h.symbol, h.offset]

theorem classify_eq_of_same {f g : Finding} (h : f.SameButVerdict g) :
    classify es f = classify es g := by
  simp only [classify, isCritical_eq_of_same h, h.address, h.instruction, h.text, h.symbol,
    h.offset, h.classes]

theorem sameButVerdicts_classifySegment (s : SegmentScan) :
    s.SameButVerdicts (classifySegment es s) := by
  refine ⟨rfl, rfl, rfl, rfl, ?_⟩
  rw [classifySegment, List.forall₂_map_right_iff]
  exact List.forall₂_same.mpr fun f _ => sameButVerdict_classify f

theorem classifySegment_eq_of_same {s t : SegmentScan} (h : s.SameButVerdicts t) :
    classifySegment es s = classifySegment es t := by
  have hfindings : s.findings.map (classify es) = t.findings.map (classify es) := by
    rw [← List.forall₂_eq_eq_eq, List.forall₂_map_left_iff, List.forall₂_map_right_iff]
    exact h.findings.imp fun _ _ => classify_eq_of_same
  simp only [classifySegment, hfindings, h.base, h.length, h.permissions, h.sections]

theorem sameButVerdicts_classifyFile (s : FileScan) : s.SameButVerdicts (classifyFile es s) := by
  refine ⟨rfl, ?_⟩
  rw [classifyFile, List.forall₂_map_right_iff]
  exact List.forall₂_same.mpr fun s _ => sameButVerdicts_classifySegment s

theorem classifyFile_eq_of_same {s t : FileScan} (h : s.SameButVerdicts t) :
    classifyFile es s = classifyFile es t := by
  have hsegments : s.segments.map (classifySegment es) = t.segments.map (classifySegment es) := by
    rw [← List.forall₂_eq_eq_eq, List.forall₂_map_left_iff, List.forall₂_map_right_iff]
    exact h.segments.imp fun _ _ => classifySegment_eq_of_same
  simp only [classifyFile, hsegments, h.path]

theorem findings_classifyFile (s : FileScan) :
    (classifyFile es s).findings = s.findings.map (classify es) := by
  simp only [FileScan.findings, classifyFile, classifySegment, List.flatMap_map, List.map_flatMap]

/-! The pass itself. -/

/-- A pass over a list in which every step replaces an item and adds its weight to the count. -/
theorem run_mapM_counting {α : Type} {step : α → StateM Nat α} {replace : α → α}
    (weight : α → Nat) (hstep : ∀ a n, (step a).run n = (replace a, n + weight (replace a)))
    (as : List α) (n : Nat) :
    (as.mapM step).run n = (as.map replace, n + ((as.map replace).map weight).sum) := by
  induction as generalizing n with
  | nil => rfl
  | cons a as ih =>
    have hcons : ((a :: as).mapM step).run n =
        (((step a).run n).1 :: ((as.mapM step).run ((step a).run n).2).1,
          ((as.mapM step).run ((step a).run n).2).2) := by
      rw [List.mapM_cons]
      rfl
    rw [hcons, hstep, ih]
    simp only [List.map_cons, List.sum_cons, Nat.add_assoc]

theorem run_tally (f : Finding) (n : Nat) :
    (tally es f).run n = (classify es f, n + (classify es f).critical.toNat) := by
  change (classify es f, if (classify es f).critical then n + 1 else n) = _
  cases (classify es f).critical <;> rfl

theorem countP_critical (fs : List Finding) :
    fs.countP (·.critical) = (fs.map (·.critical.toNat)).sum := by
  induction fs with
  | nil => rfl
  | cons f fs ih =>
    rw [List.countP_cons, ih, List.map_cons, List.sum_cons, Nat.add_comm]
    cases f.critical <;> rfl

def tallySegment (es : List Exemption) (s : SegmentScan) : StateM Nat SegmentScan := do
  return { s with findings := ← s.findings.mapM (tally es) }

theorem run_tallySegment (s : SegmentScan) (n : Nat) :
    (tallySegment es s).run n =
      (classifySegment es s, n + (classifySegment es s).findings.countP (·.critical)) := by
  have hfindings := run_mapM_counting (·.critical.toNat) (@run_tally es) s.findings n
  change ({ s with findings := ((s.findings.mapM (tally es)).run n).1 },
    ((s.findings.mapM (tally es)).run n).2) = _
  rw [hfindings, ← countP_critical]
  rfl

/-- The pass stores in every finding its verdict, and its count is a recount of the verdicts. -/
theorem classifyAll_eq (s : FileScan) :
    classifyAll es s = (classifyFile es s, (classifyFile es s).criticalCount) := by
  have hsegments :=
    run_mapM_counting (·.findings.countP (·.critical)) (@run_tallySegment es) s.segments 0
  change ({ s with segments := ((s.segments.mapM (tallySegment es)).run 0).1 },
    ((s.segments.mapM (tallySegment es)).run 0).2) = _
  rw [hsegments, Nat.zero_add]
  simp only [classifyFile, FileScan.criticalCount, FileScan.findings, List.countP_flatMap]
  rfl

/-- Classifying a scan stores in each finding whether it is critical and changes nothing else. The
number it returns is the number of critical findings there are then, so it is not zero exactly if
there is one. What the findings said before makes no difference, and classifying once more returns
the same number and changes nothing. -/
theorem classifyAll_exact (es : List Exemption) (s : FileScan) :
    (classifyAll es s).2 = (classifyAll es s).1.criticalCount ∧
    ((classifyAll es s).1.hasCritical = true ↔ (classifyAll es s).2 ≠ 0) ∧
    s.SameButVerdicts (classifyAll es s).1 ∧
    (∀ f ∈ (classifyAll es s).1.findings, f.critical = isCritical es f) ∧
    (∀ t, s.SameButVerdicts t → classifyAll es t = classifyAll es s) ∧
    classifyAll es (classifyAll es s).1 = classifyAll es s := by
  have hsame (t : FileScan) (h : s.SameButVerdicts t) : classifyAll es t = classifyAll es s := by
    rw [classifyAll_eq, classifyAll_eq, classifyFile_eq_of_same h]
  have hframe : s.SameButVerdicts (classifyAll es s).1 := by
    rw [classifyAll_eq]
    exact sameButVerdicts_classifyFile s
  refine ⟨?_, ?_, hframe, ?_, hsame, hsame _ hframe⟩
  · rw [classifyAll_eq]
  · rw [classifyAll_eq]
    exact FileScan.hasCritical_iff_criticalCount _
  · rw [classifyAll_eq, findings_classifyFile]
    intro f hf
    obtain ⟨g, -, rfl⟩ := List.mem_map.mp hf
    exact (isCritical_classify g).symm

/-- Three findings, of which an exemption covers the first only, after a segment without any. -/
def threeFindings (verdicts : Bool × Bool × Bool) : FileScan :=
  let at_ (address : UInt64) (symbol : String) (critical : Bool) : Finding :=
    ⟨address, ⟨0x00, 0x00, 0x3F, 0xD6⟩, "blr x0", symbol, 8, critical, ["blr"]⟩
  ⟨"a", [⟨0, 0, .readExecute, [], []⟩,
    ⟨0x1000, 4, .readExecute, [".init"], [at_ 0x1000 "start" verdicts.1]⟩,
    ⟨0x2000, 8, .readExecute, [".text"], [at_ 0x2000 "main" verdicts.2.1,
      at_ 0x2004 SymbolIndex.unknownName verdicts.2.2]⟩]⟩

theorem classifyAll_exact_three :
    let es : List Exemption := [⟨"start", 8⟩, ⟨SymbolIndex.unknownName, 8⟩]
    let scan := threeFindings (true, false, false)
    classifyAll es scan = (threeFindings (false, true, true), 2) ∧
      scan.SameButVerdicts (threeFindings (true, true, false)) ∧
      classifyAll es (threeFindings (true, true, false)) = classifyAll es scan := by
  intro es scan
  have hsame : scan.SameButVerdicts (threeFindings (true, true, false)) := by
    refine ⟨rfl, ?_⟩
    repeat' constructor
  obtain ⟨-, -, -, -, hother, -⟩ := classifyAll_exact es scan
  exact ⟨by decide, hsame, hother _ hsame⟩

end Exemption
end IndirectBranch
