import IndirectBranch.Proofs.Verdict

/-! What a list of exemptions means. Of the entries for a symbol only the largest offset counts, and
entries for the name that stands for no symbol do not count at all. Lists that agree in this
classify every finding alike; any other difference shows in the verdict on some image. -/
namespace IndirectBranch
namespace Exemption

/-- The largest exempt offset after the symbol `name`, if the list mentions it. -/
def limit? (es : List Exemption) (name : String) : Option Nat :=
  ((es.filter (·.symbol = name)).map (·.maxOffset.toNat)).max?

/-- Every symbol is mentioned by both lists or by neither, and with the same limit. -/
def SameLimits (xs ys : List Exemption) : Prop :=
  ∀ name, name ≠ SymbolIndex.unknownName → limit? xs name = limit? ys name

/-- Some entry for the symbol `name` goes as far as `offset`. -/
def Reaches (es : List Exemption) (name : String) (offset : Nat) : Prop :=
  ∃ e ∈ es, name = e.symbol ∧ offset ≤ e.maxOffset.toNat

/-- The entry adds nothing to the list: it stands for no symbol, or another goes as far. -/
def Idle (e : Exemption) (es : List Exemption) : Prop :=
  e.symbol = SymbolIndex.unknownName ∨ Reaches es e.symbol e.maxOffset.toNat

section Limits

variable {xs ys es : List Exemption} {e : Exemption} {name : String} {limit offset : Nat}

theorem Reaches.mono (hsub : ∀ e ∈ xs, e ∈ ys) (h : Reaches xs name offset) :
    Reaches ys name offset := by
  obtain ⟨e, he, hcovers⟩ := h
  exact ⟨e, hsub e he, hcovers⟩

theorem limit?_eq_some_iff :
    limit? es name = some limit ↔
      (∃ e ∈ es, e.symbol = name ∧ e.maxOffset.toNat = limit) ∧
        ∀ e ∈ es, e.symbol = name → e.maxOffset.toNat ≤ limit := by
  simp only [limit?, List.max?_eq_some_iff, List.mem_map, List.mem_filter, decide_eq_true_eq,
    and_assoc, forall_exists_index, and_imp]
  exact and_congr_right fun _ =>
    ⟨fun h e he hname => h _ e he hname rfl, fun h _ e he hname heq => heq ▸ h e he hname⟩

theorem limit?_eq_none_iff : limit? es name = none ↔ ∀ e ∈ es, e.symbol ≠ name := by
  simp [limit?]

theorem reaches_iff :
    Reaches es name offset ↔ ∃ limit, limit? es name = some limit ∧ offset ≤ limit := by
  constructor
  · rintro ⟨e, he, rfl, hle⟩
    cases hlimit : limit? es e.symbol with
    | none => exact absurd rfl (limit?_eq_none_iff.mp hlimit e he)
    | some limit =>
      exact ⟨limit, rfl, Nat.le_trans hle ((limit?_eq_some_iff.mp hlimit).2 e he rfl)⟩
  · rintro ⟨limit, hlimit, hle⟩
    obtain ⟨e, he, rfl, rfl⟩ := (limit?_eq_some_iff.mp hlimit).1
    exact ⟨e, he, rfl, hle⟩

/-- A limit is itself an offset, so a list that reaches every offset the other does has a limit at
least as large. -/
theorem exists_limit?_of_reaches
    (h : ∀ offset : UInt64, Reaches xs name offset.toNat → Reaches ys name offset.toNat)
    (hlimit : limit? xs name = some limit) : ∃ m, limit? ys name = some m ∧ limit ≤ m := by
  obtain ⟨e, he, rfl, rfl⟩ := (limit?_eq_some_iff.mp hlimit).1
  exact reaches_iff.mp (h e.maxOffset ⟨e, he, rfl, Nat.le_refl _⟩)

/-- Two lists have the same limit after a symbol if they reach the same offsets. -/
theorem limit?_eq_iff :
    limit? xs name = limit? ys name ↔
      ∀ offset : UInt64, Reaches xs name offset.toNat ↔ Reaches ys name offset.toNat := by
  constructor
  · intro h offset
    rw [reaches_iff, reaches_iff, h]
  · intro h
    cases hx : limit? xs name with
    | none =>
      cases hy : limit? ys name with
      | none => rfl
      | some n =>
        obtain ⟨m, hm, -⟩ := exists_limit?_of_reaches (fun offset => (h offset).mpr) hy
        rw [hx] at hm
        cases hm
    | some m =>
      obtain ⟨n, hn, hle⟩ := exists_limit?_of_reaches (fun offset => (h offset).mp) hx
      obtain ⟨m', hm', hge⟩ := exists_limit?_of_reaches (fun offset => (h offset).mpr) hn
      rw [hx] at hm'
      cases hm'
      rw [hn, Nat.le_antisymm hle hge]

/-- Only the symbols that are mentioned have to be compared. -/
instance (xs ys : List Exemption) : Decidable (SameLimits xs ys) :=
  decidable_of_iff (∀ e ∈ xs ++ ys, e.symbol ≠ SymbolIndex.unknownName →
      limit? xs e.symbol = limit? ys e.symbol) <| by
    constructor
    · intro h name hname
      by_cases hmentioned : ∃ e ∈ xs ++ ys, e.symbol = name
      · obtain ⟨e, he, rfl⟩ := hmentioned
        exact h e he hname
      · have hx : limit? xs name = none := limit?_eq_none_iff.mpr fun e he heq =>
          hmentioned ⟨e, List.mem_append_left ys he, heq⟩
        have hy : limit? ys name = none := limit?_eq_none_iff.mpr fun e he heq =>
          hmentioned ⟨e, List.mem_append_right xs he, heq⟩
        rw [hx, hy]
    · exact fun h e _ => h e.symbol

theorem sameLimits_of_mem_iff (h : ∀ e, e ∈ xs ↔ e ∈ ys) : SameLimits xs ys := by
  intro name _
  rw [limit?_eq_iff]
  exact fun offset => ⟨.mono fun e => (h e).mp, .mono fun e => (h e).mpr⟩

theorem sameLimits_cons_iff : SameLimits (e :: es) es ↔ e.Idle es := by
  constructor
  · intro h
    by_cases hname : e.symbol = SymbolIndex.unknownName
    · exact .inl hname
    · exact .inr ((limit?_eq_iff.mp (h e.symbol hname) e.maxOffset).mp
        ⟨e, List.mem_cons_self, rfl, Nat.le_refl _⟩)
  · intro hidle name hname
    rw [limit?_eq_iff]
    refine fun offset => ⟨?_, .mono fun x => List.mem_cons_of_mem e⟩
    rintro ⟨x, hx, rfl, hle⟩
    rcases List.mem_cons.mp hx with rfl | hx
    · obtain ⟨y, hy, hsymbol, hfar⟩ := hidle.resolve_left hname
      exact ⟨y, hy, hsymbol, Nat.le_trans hle hfar⟩
    · exact ⟨x, hx, rfl, hle⟩

theorem isCritical_eq_false_iff {f : Finding} :
    isCritical es f = false ↔
      f.symbol ≠ SymbolIndex.unknownName ∧ Reaches es f.symbol f.offset.toNat := by
  simp [isCritical, Finding.unresolved, covers, Reaches, UInt64.le_iff_toNat_le]

theorem SameLimits.isCritical_eq (h : SameLimits xs ys) (f : Finding) :
    isCritical xs f = isCritical ys f := by
  have hfalse : isCritical xs f = false ↔ isCritical ys f = false := by
    rw [isCritical_eq_false_iff, isCritical_eq_false_iff]
    exact and_congr_right fun hname => limit?_eq_iff.mp (h f.symbol hname) f.offset
  rwa [Bool.eq_iff_iff, ← not_iff_not, Bool.not_eq_true, Bool.not_eq_true]

end Limits

theorem auditImage_congr {xs ys : List Exemption} (h : ∀ f, isCritical xs f = isCritical ys f)
    (classes : OpcodeClasses) (d : Disassembler) (path : String) (image : Image) :
    Auditor.auditImage ⟨classes, xs, d⟩ path image =
      Auditor.auditImage ⟨classes, ys, d⟩ path image := by
  have hclassify : classify xs = classify ys := by
    funext f
    rw [classify, classify, h]
  have hsegment : classifySegment xs = classifySegment ys := by
    funext s
    rw [classifySegment, classifySegment, hclassify]
  rw [Auditor.auditImage_eq, Auditor.auditImage_eq, classifyFile, classifyFile, hsegment]

def loneBranch (name : String) (offset : UInt64) : Image :=
  ⟨[.executable offset [0x00, 0x00, 0x3F, 0xD6]], [], [⟨name, 0⟩]⟩

theorem hasCritical_loneBranch_iff {es : List Exemption} {d : Disassembler} {path name : String}
    {offset : UInt64} :
    (Auditor.auditImage ⟨[.blr], es, d⟩ path (loneBranch name offset)).hasCritical = true ↔
      ¬ (name ≠ SymbolIndex.unknownName ∧ Reaches es name offset.toNat) := by
  have hnearest : Nearest (loneBranch name offset).symbols offset.toNat ⟨name, 0⟩ :=
    ⟨Nat.zero_le _, by simp [loneBranch], [], [], rfl, by simp⟩
  have hexempt : Exempt es (loneBranch name offset).symbols offset.toNat ↔
      name ≠ SymbolIndex.unknownName ∧ Reaches es name offset.toNat := by
    constructor
    · rintro ⟨s, hs, hrest⟩
      obtain rfl := hs.unique hnearest
      exact hrest
    · exact fun hrest => ⟨_, hnearest, hrest⟩
  rw [Auditor.hasCritical_auditImage_iff, ← hexempt]
  constructor
  · rintro ⟨s, hs, -, i, hbranch, hunexempt⟩
    obtain rfl := List.mem_singleton.mp hs
    have hcomplete : 4 * i + 4 ≤ 4 := hbranch.complete
    obtain rfl : i = 0 := by omega
    exact hunexempt
  · intro hunexempt
    have hword : wordAt [0x00, 0x00, 0x3F, 0xD6] 0 &&& OpcodeClass.blr.mask =
        OpcodeClass.blr.bits := by decide
    refine ⟨_, List.mem_singleton_self _, rfl, 0, ⟨Nat.le_refl _, ?_, ?_⟩, hunexempt⟩
    · exact toNat_le_lastAddress offset
    · exact ⟨.blr, List.mem_singleton_self _, hword⟩

theorem sameLimits_of_hasCritical_eq {xs ys : List Exemption}
    (h : ∀ classes d path image, (Auditor.auditImage ⟨classes, xs, d⟩ path image).hasCritical =
      (Auditor.auditImage ⟨classes, ys, d⟩ path image).hasCritical) : SameLimits xs ys := by
  intro name hname
  rw [limit?_eq_iff]
  intro offset
  have hverdict := Bool.eq_iff_iff.mp (h [.blr] .mnemonic "" (loneBranch name offset))
  rw [hasCritical_loneBranch_iff, hasCritical_loneBranch_iff, not_iff_not] at hverdict
  simpa only [hname, ne_eq, not_false_eq_true, true_and] using hverdict

/-- Two lists of exemptions classify all findings alike, and lead to the same verdict on all images,
exactly if they have the same limits. So the order of the entries and how often they occur does not
matter, and a further entry changes something exactly if it is not idle. -/
theorem limits_exact (xs ys : List Exemption) :
    ((∀ f, isCritical xs f = isCritical ys f) ↔ SameLimits xs ys) ∧
    ((∀ classes d path image, (Auditor.auditImage ⟨classes, xs, d⟩ path image).hasCritical =
      (Auditor.auditImage ⟨classes, ys, d⟩ path image).hasCritical) ↔ SameLimits xs ys) ∧
    ((∀ e, e ∈ xs ↔ e ∈ ys) → SameLimits xs ys) ∧
    ∀ e : Exemption, SameLimits (e :: xs) xs ↔ e.Idle xs := by
  have hverdict (h : ∀ f, isCritical xs f = isCritical ys f) :
      ∀ classes d path image, (Auditor.auditImage ⟨classes, xs, d⟩ path image).hasCritical =
        (Auditor.auditImage ⟨classes, ys, d⟩ path image).hasCritical :=
    fun classes d path image => by rw [auditImage_congr h]
  refine ⟨⟨fun h => sameLimits_of_hasCritical_eq (hverdict h), SameLimits.isCritical_eq⟩,
    ⟨sameLimits_of_hasCritical_eq, fun h => hverdict h.isCritical_eq⟩, sameLimits_of_mem_iff, ?_⟩
  exact fun e => sameLimits_cons_iff

/-- The largest offset of all in place of the one below it makes a difference; a smaller one beside
it, the same one once more or an entry for no symbol make none. -/
theorem limits_exact_largest :
    let xs : List Exemption :=
      [⟨"run", 0xFFFFFFFFFFFFFFFF⟩, ⟨"run", 4⟩, ⟨SymbolIndex.unknownName, 9⟩]
    let ys : List Exemption := [⟨"run", 0xFFFFFFFFFFFFFFFF⟩]
    let zs : List Exemption := [⟨"run", 0xFFFFFFFFFFFFFFFE⟩]
    (∀ f, isCritical xs f = isCritical ys f) ∧ (¬ ∀ f, isCritical ys f = isCritical zs f) ∧
      SameLimits ys (ys ++ ys) ∧ SameLimits (⟨"run", 4⟩ :: ys) ys := by
  intro xs ys zs
  obtain ⟨hxs, -⟩ := limits_exact xs ys
  obtain ⟨hzs, -⟩ := limits_exact ys zs
  obtain ⟨-, -, hmem, hidle⟩ := limits_exact ys (ys ++ ys)
  refine ⟨hxs.mpr (by decide), hzs.not.mpr (by decide), hmem (by simp), (hidle _).mpr (.inr ?_)⟩
  exact ⟨⟨"run", 0xFFFFFFFFFFFFFFFF⟩, List.mem_singleton_self _, rfl, by decide⟩

end Exemption
end IndirectBranch
