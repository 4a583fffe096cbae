import IndirectBranch.Proofs.Verdict

/-! Policies ordered by strictness. Looking for more classes and exempting less keeps every critical
finding, segment by segment and address by address, so a batch that fails goes on failing. No
policy switches the built-in classes off. -/
namespace IndirectBranch

theorem Branches.mono {classes more : OpcodeClasses} {s : Segment} {i : Nat}
    (hmore : ∀ c ∈ classes, c ∈ more) (h : Branches classes s i) : Branches more s i := by
  obtain ⟨c, hc, hword⟩ := h.matched
  exact ⟨h.complete, h.addressed, c, hmore c hc, hword⟩

theorem Exempt.mono {fewer exemptions : List Exemption} {table : List Symbol} {address : Nat}
    (hfewer : ∀ e ∈ fewer, e ∈ exemptions) (h : Exempt fewer table address) :
    Exempt exemptions table address := by
  obtain ⟨s, hs, hname, e, he, hcovers⟩ := h
  exact ⟨s, hs, hname, e, hfewer e he, hcovers⟩

theorem Image.Unprotected.mono {image : Image} {classes more : OpcodeClasses}
    {exemptions fewer : List Exemption} (hmore : ∀ c ∈ classes, c ∈ more)
    (hfewer : ∀ e ∈ fewer, e ∈ exemptions) (h : image.Unprotected classes exemptions) :
    image.Unprotected more fewer := by
  obtain ⟨s, hs, hexecute, i, hbranch, hexempt⟩ := h
  exact ⟨s, hs, hexecute, i, hbranch.mono hmore, fun hfew => hexempt (hfew.mono hfewer)⟩

theorem OpcodeClasses.namesFor_append (xs ys : OpcodeClasses) (word : UInt32) :
    OpcodeClasses.namesFor (xs ++ ys) word =
      OpcodeClasses.namesFor xs word ++ OpcodeClasses.namesFor ys word := by
  simp [OpcodeClasses.namesFor, OpcodeClasses.containing]

/-- Every policy looks for the built-in classes, before all others. -/
theorem Policy.exists_classes_eq (p : Policy) :
    ∃ others, p.classes = OpcodeClasses.indirectBranches ++ others :=
  ⟨_, List.append_assoc _ _ _⟩

/-- Segment `k` of the scan has a critical finding at `address`. -/
def FileScan.CriticalAt (scan : FileScan) (k : Nat) (address : UInt64) : Prop :=
  ∃ t, scan.segments[k]? = some t ∧ ∃ f ∈ t.findings, f.address = address ∧ f.critical = true

instance (scan : FileScan) (k : Nat) (address : UInt64) : Decidable (scan.CriticalAt k address) :=
  decidable_of_iff (∃ t ∈ scan.segments[k]?, ∃ f ∈ t.findings,
    f.address = address ∧ f.critical = true) Iff.rfl

namespace Auditor

/-- A critical finding stays one, at its segment and address, for an auditor that is stricter. -/
theorem criticalAt_mono {a b : Auditor} (hclasses : ∀ c ∈ a.classes, c ∈ b.classes)
    (hexemptions : ∀ e ∈ b.exemptions, e ∈ a.exemptions) {path : String} {image : Image}
    {k : Nat} {address : UInt64} (h : (a.auditImage path image).CriticalAt k address) :
    (b.auditImage path image).CriticalAt k address := by
  obtain ⟨t, ht, f, hf, rfl, hcritical⟩ := h
  obtain ⟨s, hs, rfl⟩ := getElem?_segments_auditImage.mp ht
  obtain ⟨i, haddress, hbranch, hexempt⟩ := exists_finding_iff.mp ⟨f, hf, rfl, hcritical⟩
  have hexempt' : ¬ Exempt b.exemptions image.symbols f.address.toNat :=
    fun hb => hexempt.mp rfl (hb.mono hexemptions)
  exact ⟨_, getElem?_segments_auditImage.mpr ⟨s, hs, rfl⟩, exists_finding_iff.mpr
    ⟨i, haddress, hbranch.mono hclasses, fun _ => hexempt', fun _ => rfl⟩⟩

theorem exitCode_mono {a b : Auditor} (hclasses : ∀ c ∈ a.classes, c ∈ b.classes)
    (hexemptions : ∀ e ∈ b.exemptions, e ∈ a.exemptions) (read : FileReader) (paths : List String)
    (h : (Summary.ofOutcomes (a.auditFiles read paths)).exitCode = 1) :
    (Summary.ofOutcomes (b.auditFiles read paths)).exitCode = 1 := by
  rcases Summary.exitCode_eq_zero_or_one (Summary.ofOutcomes (b.auditFiles read paths)) with hb | hb
  · have ha : (Summary.ofOutcomes (a.auditFiles read paths)).exitCode = 0 := by
      rw [exitCode_auditFiles_eq_zero_iff] at hb ⊢
      intro path hpath
      obtain ⟨bytes, image, hread, hparse, hclean⟩ := hb path hpath
      exact ⟨bytes, image, hread, hparse, fun ha => hclean (ha.mono hclasses hexemptions)⟩
    omega
  · exact hb

/-- What a scan for some classes finds, an auditor that looks for others after them finds too, and
the names of its classes go on from those of the scan. -/
theorem finding_of_scan {a : Auditor} {classes others : OpcodeClasses}
    (hclasses : a.classes = classes ++ others) {d : Disassembler} {path : String} {image : Image}
    {k : Nat} {t : SegmentScan} {f : Finding} (ht : (Scan.segments classes d image)[k]? = some t)
    (hf : f ∈ t.findings) :
    ∃ t' f', (a.auditImage path image).segments[k]? = some t' ∧ f' ∈ t'.findings ∧
      f'.address = f.address ∧ f'.instruction = f.instruction ∧ f'.symbol = f.symbol ∧
      f'.offset = f.offset ∧ f.classes <+: f'.classes := by
  rw [Scan.segments, List.getElem?_map, Option.map_eq_some_iff] at ht
  obtain ⟨s, hs, rfl⟩ := ht
  obtain ⟨ins, index, address, hins, hmatch, haddress, rfl⟩ := Scan.mem_findings_iff.mp hf
  have hmatch' : a.classes.hasMatch ins.word = true := by
    obtain ⟨c, hc, hword⟩ := OpcodeClasses.hasMatch_iff.mp hmatch
    exact OpcodeClasses.hasMatch_iff.mpr ⟨c, hclasses ▸ List.mem_append_left others hc, hword⟩
  refine ⟨_, _, getElem?_segments_auditImage.mpr ⟨s, hs, rfl⟩,
    mem_auditSegment_iff.mpr ⟨ins, index, address, hins, hmatch', haddress, rfl⟩, rfl, rfl, rfl, rfl,
    ?_⟩
  change classes.namesFor ins.word <+: a.classes.namesFor ins.word
  rw [hclasses, OpcodeClasses.namesFor_append]
  exact List.prefix_append _ _

end Auditor

/-- Of two policies, let the second look for every class of the first and exempt nothing that the
first does not. Then every critical finding of the first is one of the second, at the same segment
and address, and a batch that fails under the first fails under the second. Whatever a policy says,
and whether pointer authentication is added to it or not, each finding of the scan for the built-in
classes is a finding under the policy, and its classes start with those it had. -/
theorem policy_monotone :
    (∀ (p q : Policy) (d d' : Disassembler), (∀ c ∈ p.classes, c ∈ q.classes) →
      (∀ e ∈ q.exemptions, e ∈ p.exemptions) →
      (∀ (path : String) (image : Image) (k : Nat) (address : UInt64),
        ((Auditor.forPolicy p d).auditImage path image).CriticalAt k address →
        ((Auditor.forPolicy q d').auditImage path image).CriticalAt k address) ∧
      ∀ (read : FileReader) (paths : List String),
        (Summary.ofOutcomes ((Auditor.forPolicy p d).auditFiles read paths)).exitCode = 1 →
        (Summary.ofOutcomes ((Auditor.forPolicy q d').auditFiles read paths)).exitCode = 1) ∧
    ∀ (p : Policy) (pointerAuth : Bool) (d d' : Disassembler) (path : String) (image : Image)
      (k : Nat) (t : SegmentScan) (f : Finding),
      (Scan.segments OpcodeClasses.indirectBranches d image)[k]? = some t → f ∈ t.findings →
      ∃ t' f', ((Auditor.forPolicy (p.addPointerAuth pointerAuth) d').auditImage path
          image).segments[k]? = some t' ∧ f' ∈ t'.findings ∧ f'.address = f.address ∧
        f'.instruction = f.instruction ∧ f'.symbol = f.symbol ∧ f'.offset = f.offset ∧
        f.classes <+: f'.classes := by
  refine ⟨fun p q d d' hclasses hexemptions => ⟨?_, ?_⟩, ?_⟩
  · intro path image k address
    exact Auditor.criticalAt_mono hclasses hexemptions
  · exact Auditor.exitCode_mono hclasses hexemptions
  · intro p pointerAuth d d' path image k t f
    obtain ⟨others, hothers⟩ := (p.addPointerAuth pointerAuth).exists_classes_eq
    exact Auditor.finding_of_scan hothers

/-- One `blr` at the start of `main`, for the standard policy and for one without exemptions. -/
theorem policy_monotone_blr :
    let image : Image := ⟨[Segment.executable 0x1000 [0, 0, 0x3F, 0xD6]], [], [⟨"main", 0x1000⟩]⟩
    let strict : Policy := { Policy.standard with pointerAuth := true, exemptions := [] }
    let unreadable : FileReader := fun _ => .error .notFound
    ((Auditor.forPolicy strict .hex).auditImage "a" image).CriticalAt 0 0x1000 ∧
      (Summary.ofOutcomes ((Auditor.forPolicy strict .hex).auditFiles unreadable ["a"])).exitCode
        = 1 ∧
      ∃ t' f', ((Auditor.forPolicy (strict.addPointerAuth true) .hex).auditImage "a"
          image).segments[0]? = some t' ∧ f' ∈ t'.findings ∧ f'.address = 0x1000 ∧
        ["blr"] <+: f'.classes := by
  intro image strict unreadable
  have hclasses : ∀ c ∈ Policy.standard.classes, c ∈ strict.classes := by decide
  have hexemptions : ∀ e ∈ strict.exemptions, e ∈ Policy.standard.exemptions := by decide
  have hstrict := policy_monotone.1 Policy.standard strict .mnemonic .hex hclasses hexemptions
  have hscan : (Scan.segments OpcodeClasses.indirectBranches .mnemonic image)[0]? = some
      ⟨0x1000, 4, .readExecute, [],
        [⟨0x1000, ⟨0, 0, 0x3F, 0xD6⟩, "blr x0", "main", 0, true, ["blr"]⟩]⟩ := by
    decide +kernel
  obtain ⟨t', f', ht', hf', haddress, -, -, -, hprefix⟩ :=
    policy_monotone.2 strict true .mnemonic .hex "a" image 0 _ _ hscan (List.mem_singleton_self _)
  exact ⟨hstrict.1 "a" image 0 0x1000 (by decide +kernel), hstrict.2 unreadable ["a"] (by decide),
    t', f', ht', hf', haddress, hprefix⟩

end IndirectBranch
