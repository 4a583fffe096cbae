import IndirectBranch.Proofs.PolicyFields

/-! Neither the order of members nor members of other names matter, in a policy and in the classes
and exemptions that it lists. A policy is read if each field occurs once at most and has a value
that the field accepts, and one faulty class makes all of it unreadable. -/
namespace IndirectBranch

open Json

/-- The members of these names are the same, in whatever order; others do not count. -/
def SameMembers (names : List String) (ms ms' : List (String × Tree)) : Prop :=
  (ms.filter (·.1 ∈ names)).Perm (ms'.filter (·.1 ∈ names))

section SameMembers

variable {α : Type} {meaning : Meaning α} {standard a : α} {names : List String} {name : String}
  {ms ms' : List (String × Tree)}

theorem SameMembers.given_perm (h : SameMembers names ms ms') (hname : name ∈ names) :
    (given ms name).Perm (given ms' name) := by
  have hfilter (ms : List (String × Tree)) :
      (ms.filter (·.1 ∈ names)).filter (·.1 == name) = ms.filter (·.1 == name) := by
    rw [List.filter_filter]
    refine List.filter_congr fun m _ => ?_
    by_cases hm : m.1 = name <;> simp [hm, hname]
  rw [given, given, ← hfilter ms, ← hfilter ms']
  exact (List.Perm.filter _ h).map _

theorem SameMembers.has_iff (h : SameMembers names ms ms') (hname : name ∈ names) :
    Has meaning ms name a ↔ Has meaning ms' name a := by
  have hperm := h.given_perm hname
  have hone (t : Tree) : given ms name = [t] ↔ given ms' name = [t] := by
    rw [← List.perm_singleton, ← List.perm_singleton]
    exact ⟨hperm.symm.trans, hperm.trans⟩
  simp only [Has, hone]

theorem SameMembers.hasOr_iff (h : SameMembers names ms ms') (hname : name ∈ names) :
    HasOr standard meaning ms name a ↔ HasOr standard meaning ms' name a := by
  have hnone : given ms name = [] ↔ given ms' name = [] := by
    rw [← List.perm_nil, ← List.perm_nil]
    exact ⟨(h.given_perm hname).symm.trans, (h.given_perm hname).trans⟩
  rw [HasOr, HasOr, hnone, h.has_iff hname]

end SameMembers

/-! Records with their members in another order. -/

def OpcodeClass.fieldNames : List String := ["name", "mask", "pattern"]

def Exemption.fieldNames : List String := ["symbol", "max_offset"]

def Policy.fieldNames : List String :=
  ["config_version", "pointer_auth", "patterns", "exemptions", "default_disassembler"]

/-- The same tree, or an object with the same members of these names. -/
inductive Rearranged (names : List String) : Tree → Tree → Prop
  | same (t : Tree) : Rearranged names t t
  | object {raw raw' : List (List Char × Tree)} {ms ms' : List (String × Tree)}
      (hkeys : Keyed raw ms) (hkeys' : Keyed raw' ms') (h : SameMembers names ms ms') :
      Rearranged names (.object raw) (.object raw')

theorem OpcodeClass.fields_object_iff {raw : List (List Char × Tree)} {ms : List (String × Tree)}
    (hkeys : Keyed raw ms) {name : String} {mask bits : Nat} :
    OpcodeClass.Fields (.object raw) name mask bits ↔ Has Meaning.text ms "name" name ∧
      Has Tree.IsNumber ms "mask" mask ∧ Has Tree.IsNumber ms "pattern" bits := by
  constructor
  · rintro (⟨hkeys', hname, hmask, hbits⟩ | _)
    obtain rfl := hkeys'.unique hkeys
    exact ⟨hname, hmask, hbits⟩
  · rintro ⟨hname, hmask, hbits⟩
    exact .object hkeys hname hmask hbits

theorem Exemption.describes_object_iff {raw : List (List Char × Tree)}
    {ms : List (String × Tree)} (hkeys : Keyed raw ms) {e : Exemption} :
    Exemption.Describes (.object raw) e ↔ Has Meaning.text ms "symbol" e.symbol ∧
      Has Tree.IsNumber ms "max_offset" e.maxOffset.toNat := by
  constructor
  · rintro (⟨hkeys', hsymbol, hoffset⟩ | _)
    obtain rfl := hkeys'.unique hkeys
    exact ⟨hsymbol, hoffset⟩
  · rintro ⟨hsymbol, hoffset⟩
    exact .object hkeys hsymbol hoffset

theorem OpcodeClass.describes_congr {t t' : Tree} (h : Rearranged OpcodeClass.fieldNames t t')
    (c : OpcodeClass) : OpcodeClass.Describes t c ↔ OpcodeClass.Describes t' c := by
  cases h with
  | same t => exact Iff.rfl
  | object hkeys hkeys' h =>
    rw [OpcodeClass.Describes, OpcodeClass.Describes, OpcodeClass.fields_object_iff hkeys,
      OpcodeClass.fields_object_iff hkeys', h.has_iff (by decide), h.has_iff (by decide),
      h.has_iff (by decide)]

theorem Exemption.describes_congr {t t' : Tree} (h : Rearranged Exemption.fieldNames t t')
    (e : Exemption) : Exemption.Describes t e ↔ Exemption.Describes t' e := by
  cases h with
  | same t => exact Iff.rfl
  | object hkeys hkeys' h =>
    rw [Exemption.describes_object_iff hkeys, Exemption.describes_object_iff hkeys',
      h.has_iff (by decide), h.has_iff (by decide)]

/-- The same member of a policy, but for the members of the objects that it lists. -/
inductive Policy.RearrangedMember : String × Tree → String × Tree → Prop
  | same (m : String × Tree) : RearrangedMember m m
  | patterns {name : String} {ts ts' : List Tree} (hname : name = "patterns")
      (h : List.Forall₂ (Rearranged OpcodeClass.fieldNames) ts ts') :
      RearrangedMember (name, .list ts) (name, .list ts')
  | exemptions {name : String} {ts ts' : List Tree} (hname : name = "exemptions")
      (h : List.Forall₂ (Rearranged Exemption.fieldNames) ts ts') :
      RearrangedMember (name, .list ts) (name, .list ts')

/-- The same policy with the members of its objects in another order, on all levels, and beside
other members. -/
def Policy.RearrangedMembers (ms ms' : List (String × Tree)) : Prop :=
  ∃ mid, List.Forall₂ Policy.RearrangedMember ms mid ∧ SameMembers Policy.fieldNames mid ms'

theorem Policy.forall₂_given {ms ms' : List (String × Tree)}
    (h : List.Forall₂ Policy.RearrangedMember ms ms') (name : String) :
    List.Forall₂ (fun t t' => Policy.RearrangedMember (name, t) (name, t')) (given ms name)
      (given ms' name) := by
  induction h with
  | nil => exact .nil
  | @cons m m' ms ms' hm _ ih =>
    obtain ⟨key, t⟩ := m
    obtain ⟨key', t'⟩ := m'
    obtain rfl : key = key' := by cases hm <;> rfl
    by_cases hkey : key = name
    · subst hkey
      rw [given_cons_self, given_cons_self]
      exact .cons hm ih
    · rw [given_cons_ne hkey, given_cons_ne hkey]
      exact ih

/-- A field has the same value if whatever a member of its name says is kept. -/
theorem Policy.hasOr_congr {α : Type} {meaning : Meaning α} {name : String}
    {ms ms' : List (String × Tree)} (h : List.Forall₂ Policy.RearrangedMember ms ms')
    (hsame : ∀ t t', Policy.RearrangedMember (name, t) (name, t') → ∀ a, meaning t a ↔ meaning t' a)
    {standard a : α} : HasOr standard meaning ms name a ↔ HasOr standard meaning ms' name a := by
  have hgiven := Policy.forall₂_given h name
  rw [HasOr, HasOr, Has, Has]
  generalize given ms name = ts at hgiven
  generalize given ms' name = ts' at hgiven
  cases hgiven with
  | nil => simp
  | cons ht hrest =>
    cases hrest with
    | nil => simp [hsame _ _ ht]
    | cons _ _ => simp

/-- Only the lists of classes and exemptions hold objects. -/
theorem Policy.RearrangedMember.eq_of_ne {name : String} {t t' : Tree}
    (h : Policy.RearrangedMember (name, t) (name, t')) (hpatterns : name ≠ "patterns")
    (hexemptions : name ≠ "exemptions") : t = t' := by
  cases h with
  | same => rfl
  | patterns hname _ => exact absurd hname hpatterns
  | exemptions hname _ => exact absurd hname hexemptions

theorem Meaning.list_congr {α : Type} {item : Meaning α} {ts ts' : List Tree}
    (h : List.Forall₂ (fun t t' => ∀ a, item t a ↔ item t' a) ts ts') (as : List α) :
    Meaning.list item (.list ts) as ↔ Meaning.list item (.list ts') as := by
  simp only [Meaning.list, Tree.list.injEq, exists_eq_left']
  induction h generalizing as with
  | nil => exact Iff.rfl
  | cons ht _ ih => cases as <;> simp [ht, ih]

theorem Policy.describes_congr {ms ms' : List (String × Tree)}
    (h : Policy.RearrangedMembers ms ms') {p : Policy} :
    Policy.Describes ms p ↔ Policy.Describes ms' p := by
  obtain ⟨mid, hmembers, hsame⟩ := h
  rw [Policy.describes_iff, Policy.describes_iff, ← hsame.hasOr_iff (by decide),
    ← hsame.hasOr_iff (by decide), ← hsame.hasOr_iff (by decide), ← hsame.hasOr_iff (by decide),
    ← hsame.hasOr_iff (by decide)]
  refine and_congr ?_ (and_congr ?_ (and_congr ?_ (and_congr ?_ ?_))) <;>
    refine Policy.hasOr_congr hmembers fun t t' hm a => ?_
  · rw [hm.eq_of_ne (by decide) (by decide)]
  · rw [hm.eq_of_ne (by decide) (by decide)]
  · cases hm with
    | same => rfl
    | patterns _ h => exact Meaning.list_congr (h.imp fun _ _ => OpcodeClass.describes_congr) a
    | exemptions hname _ => exact absurd hname (by decide)
  · cases hm with
    | same => rfl
    | patterns hname _ => exact absurd hname (by decide)
    | exemptions _ h => exact Meaning.list_congr (h.imp fun _ _ => Exemption.describes_congr) a
  · rw [hm.eq_of_ne (by decide) (by decide)]

/-! When a policy is read. -/

theorem exists_hasOr_iff {α : Type} {standard : α} {meaning : Meaning α}
    {ms : List (String × Tree)} {name : String} :
    (∃ a, HasOr standard meaning ms name a) ↔
      (given ms name).length ≤ 1 ∧ ∀ t ∈ given ms name, ∃ a, meaning t a := by
  simp only [HasOr, Has]
  cases given ms name with
  | nil => simp
  | cons t ts => cases ts <;> simp

/-- No field occurs twice, and each value is one that its field accepts. -/
structure Policy.Acceptable (ms : List (String × Tree)) : Prop where
  once : ∀ name ∈ Policy.fieldNames, (given ms name).length ≤ 1
  version : ∀ t ∈ given ms "config_version", ∃ s, Meaning.text t s
  pointerAuth : ∀ t ∈ given ms "pointer_auth", ∃ b, Meaning.flag t b
  extraClasses : ∀ t ∈ given ms "patterns", ∃ cs, Meaning.list OpcodeClass.Describes t cs
  exemptions : ∀ t ∈ given ms "exemptions", ∃ es, Meaning.list Exemption.Describes t es
  disassembler : ∀ t ∈ given ms "default_disassembler", ∃ s, Meaning.optionalText t s

theorem Policy.exists_describes_iff {ms : List (String × Tree)} :
    (∃ p, Policy.Describes ms p) ↔ Policy.Acceptable ms := by
  constructor
  · rintro ⟨p, h⟩
    have hversion := exists_hasOr_iff.mp ⟨_, h.version⟩
    have hauth := exists_hasOr_iff.mp ⟨_, h.pointerAuth⟩
    have hclasses := exists_hasOr_iff.mp ⟨_, h.extraClasses⟩
    have hexemptions := exists_hasOr_iff.mp ⟨_, h.exemptions⟩
    have hdisassembler := exists_hasOr_iff.mp ⟨_, h.disassembler⟩
    refine ⟨?_, hversion.2, hauth.2, hclasses.2, hexemptions.2, hdisassembler.2⟩
    simp [Policy.fieldNames, hversion.1, hauth.1, hclasses.1, hexemptions.1, hdisassembler.1]
  · intro h
    have honce (name : String) (hname : name ∈ Policy.fieldNames) := h.once name hname
    obtain ⟨version, hversion⟩ := exists_hasOr_iff.mpr ⟨honce _ (by decide), h.version⟩
    obtain ⟨auth, hauth⟩ := exists_hasOr_iff.mpr ⟨honce _ (by decide), h.pointerAuth⟩
    obtain ⟨classes, hclasses⟩ := exists_hasOr_iff.mpr ⟨honce _ (by decide), h.extraClasses⟩
    obtain ⟨exemptions, hexemptions⟩ := exists_hasOr_iff.mpr ⟨honce _ (by decide), h.exemptions⟩
    obtain ⟨disassembler, hdisassembler⟩ :=
      exists_hasOr_iff.mpr ⟨honce _ (by decide), h.disassembler⟩
    exact ⟨⟨version, auth, classes, exemptions, disassembler⟩, hversion, hauth, hclasses,
      hexemptions, hdisassembler⟩

/-- Without the field the standard exemptions hold; an empty list takes them away. -/
theorem Policy.Describes.exemptions_eq {ms : List (String × Tree)} {p : Policy}
    (h : Policy.Describes ms p) :
    (given ms "exemptions" = [] → p.exemptions = Exemption.standard) ∧
      (given ms "exemptions" = [.list []] → p.exemptions = []) := by
  constructor
  · intro hnone
    rcases h.exemptions with ⟨-, heq⟩ | ⟨t, hone, -⟩
    · exact heq
    · cases hnone.symm.trans hone
  · intro hempty
    rcases h.exemptions with ⟨hnone, -⟩ | ⟨t, hone, ts, rfl, hts⟩
    · cases hempty.symm.trans hnone
    · cases hempty.symm.trans hone
      exact List.forall₂_nil_left_iff.mp hts

/-! Faulty classes. -/

/-- The value that a record has for a field, by its name in an object or by its place in a list. -/
def Gives (names : List String) : Tree → String → Tree → Prop
  | .object raw, name, t => ∃ ms, Keyed raw ms ∧ (name, t) ∈ ms
  | .list ts, name, t => (name, t) ∈ names.zip ts
  | _, _, _ => False

/-- A class without a name, with a word of more than 32 bits, or with bits outside its mask. -/
inductive OpcodeClass.Faulty (item : Tree) : Prop
  | emptyName {t : Tree} (h : Gives OpcodeClass.fieldNames item "name" t)
      (hempty : Meaning.text t "") : Faulty item
  | wideWord {name : String} {t : Tree} {n : Nat} (hname : name = "mask" ∨ name = "pattern")
      (h : Gives OpcodeClass.fieldNames item name t) (hn : t.IsNumber n)
      (hwide : UInt32.size ≤ n) : Faulty item
  | bitsOutside {tmask tbits : Tree} {mask bits : Nat}
      (hmask : Gives OpcodeClass.fieldNames item "mask" tmask) (hmaskValue : tmask.IsNumber mask)
      (hbits : Gives OpcodeClass.fieldNames item "pattern" tbits) (hbitsValue : tbits.IsNumber bits)
      (houtside : bits &&& mask ≠ bits) : Faulty item

theorem mem_given_iff {ms : List (String × Tree)} {name : String} {t : Tree} :
    t ∈ given ms name ↔ (name, t) ∈ ms := by
  simp [given]

theorem Has.of_mem {α : Type} {meaning : Meaning α} {ms : List (String × Tree)} {name : String}
    {a : α} (h : Has meaning ms name a) {t : Tree} (ht : (name, t) ∈ ms) : meaning t a := by
  obtain ⟨t', hone, ha⟩ := h
  rw [← mem_given_iff, hone, List.mem_singleton] at ht
  exact ht ▸ ha

/-- What a class is given for its fields is what it has there. -/
theorem OpcodeClass.Fields.of_gives {item : Tree} {name : String} {mask bits : Nat}
    (h : OpcodeClass.Fields item name mask bits) :
    (∀ t, Gives OpcodeClass.fieldNames item "name" t → Meaning.text t name) ∧
      (∀ t, Gives OpcodeClass.fieldNames item "mask" t → t.IsNumber mask) ∧
      ∀ t, Gives OpcodeClass.fieldNames item "pattern" t → t.IsNumber bits := by
  cases h with
  | object hkeys hname hmask hbits =>
    refine ⟨?_, ?_, ?_⟩ <;> rintro t ⟨ms, hkeys', ht⟩ <;> obtain rfl := hkeys'.unique hkeys
    · exact hname.of_mem ht
    · exact hmask.of_mem ht
    · exact hbits.of_mem ht
  | list hname hmask hbits =>
    refine ⟨?_, ?_, ?_⟩ <;> intro t ht <;> simp [Gives, OpcodeClass.fieldNames] at ht <;> subst ht
    · exact hname
    · exact hmask
    · exact hbits

theorem OpcodeClass.Faulty.not_describes {item : Tree} (h : OpcodeClass.Faulty item)
    (c : OpcodeClass) : ¬ OpcodeClass.Describes item c := by
  intro hfields
  obtain ⟨hname, hmask, hbits⟩ := hfields.of_gives
  cases h with
  | emptyName ht hempty => exact c.name_ne (Meaning.text_unique (hname _ ht) hempty)
  | wideWord hword ht hn hwide =>
    rcases hword with rfl | rfl
    · rw [hn.unique (hmask _ ht)] at hwide
      exact absurd c.mask.toNat_lt_size (Nat.not_lt.mpr hwide)
    · rw [hn.unique (hbits _ ht)] at hwide
      exact absurd c.bits.toNat_lt_size (Nat.not_lt.mpr hwide)
  | bitsOutside htmask hm htbits hb houtside =>
    rw [hm.unique (hmask _ htmask), hb.unique (hbits _ htbits), ← UInt32.toNat_and,
      c.bits_inside] at houtside
    exact houtside rfl

theorem Policy.not_describes_of_faulty {ms : List (String × Tree)} {ts : List Tree} {item : Tree}
    (hms : ("patterns", .list ts) ∈ ms) (hitem : item ∈ ts) (hfaulty : OpcodeClass.Faulty item)
    (p : Policy) : ¬ Policy.Describes ms p := by
  intro h
  rcases h.extraClasses with ⟨hnone, -⟩ | hone
  · rw [← mem_given_iff, hnone] at hms
    cases hms
  · obtain ⟨_, heq, hclasses⟩ := hone.of_mem hms
    cases heq
    obtain ⟨i, hi, rfl⟩ := List.getElem_of_mem hitem
    exact hfaulty.not_describes _ (hclasses.get hi (hclasses.length_eq ▸ hi))

/-- Policies are read field by field from every text of an object. Its keys have to be strings: an
escape that stands for no character makes none. Then the object is read just if no field occurs
twice and each value is one that its field accepts. Each field has the value of its member, or
without one the standard value; the order of members, blanks, and members of other names change
nothing, in the object and in the classes and exemptions that it lists. One faulty class makes the
whole policy unreadable. -/
theorem policy_fields (raw : List (List Char × Tree)) (text : String)
    (htext : Document (.object raw) text) :
    (∀ p, Policy.ofJson text = .ok p ↔ ∃ ms, Keyed raw ms ∧ Policy.Describes ms p) ∧
    ∀ ms, Keyed raw ms →
      ((∃ p, Policy.ofJson text = .ok p) ↔ Policy.Acceptable ms) ∧
      (∀ p, Policy.ofJson text = .ok p → Policy.Describes ms p ∧
        (given ms "exemptions" = [] → p.exemptions = Exemption.standard) ∧
        (given ms "exemptions" = [.list []] → p.exemptions = [])) ∧
      (∀ raw' ms' text', Document (.object raw') text' → Keyed raw' ms' →
        Policy.RearrangedMembers ms ms' →
        ∀ p, Policy.ofJson text = .ok p ↔ Policy.ofJson text' = .ok p) ∧
      ∀ ts item, ("patterns", .list ts) ∈ ms → item ∈ ts → OpcodeClass.Faulty item →
        ∃ e, Policy.ofJson text = .error e := by
  refine ⟨fun p => Policy.ofJson_eq_ok_iff htext, fun ms hkeys => ?_⟩
  have hread (p : Policy) := Policy.ofJson_eq_ok_iff_of_keyed htext hkeys (p := p)
  refine ⟨?_, ?_, ?_, ?_⟩
  · simp only [hread, Policy.exists_describes_iff]
  · intro p hp
    have hdescribes := (hread p).mp hp
    exact ⟨hdescribes, hdescribes.exemptions_eq⟩
  · intro raw' ms' text' htext' hkeys' hsame p
    rw [hread, Policy.ofJson_eq_ok_iff_of_keyed htext' hkeys', Policy.describes_congr hsame]
  · intro ts item hms hitem hfaulty
    cases hresult : Policy.ofJson text with
    | error e => exact ⟨e, rfl⟩
    | ok p =>
      have hrefused := Policy.not_describes_of_faulty hms hitem hfaulty p
      exact absurd ((hread p).mp hresult) hrefused

def verbatim (ms : List (String × Tree)) : List (List Char × Tree) :=
  ms.map fun m => (m.1.toList, m.2)

theorem keyed_verbatim {ms : List (String × Tree)}
    (h : ms.all (·.1.toList.all (IsPlain ·)) = true) : Keyed (verbatim ms) ms := by
  induction ms with
  | nil => exact .nil
  | cons m ms ih =>
    rw [List.all_cons, Bool.and_eq_true] at h
    exact .cons ⟨spells_plain h.1, rfl⟩ (ih h.2)

theorem parts_cons {α : Type} {Text : α → List Char → Prop} {a : α} {as : List α} {first : Bool}
    {text rest : List Char} (h : Text a text) (hrest : Parts Text false as rest) :
    Parts Text first (a :: as) (comma first ++ (text ++ rest)) :=
  .cons blank_nil blank_nil h hrest

theorem members_cons (key : String) (hkey : key.toList.all (IsPlain ·) = true) {t : Tree}
    {first : Bool} {raw : List (List Char × Tree)} {text rest : List Char} (h : Written t text)
    (hrest : Parts (MemberText Written) false raw rest) :
    Parts (MemberText Written) first ((key.toList, t) :: raw)
      (comma first ++ ('"' :: (key.toList ++ '"' :: ':' :: text) ++ rest)) :=
  parts_cons (.mk (spells_plain hkey).body blank_nil blank_nil h) hrest

theorem written_integer {whole : List Char} (hdigits : whole.all isDigit = true)
    (hfirst : whole.head?.any (· ≠ '0') = true) : Written (.number false whole [] []) whole := by
  have hwhole : Whole whole := by
    refine ⟨⟨?_, List.all_eq_true.mp hdigits⟩, fun hzero => ?_⟩
    · rintro rfl
      cases hfirst
    · rw [hzero] at hfirst
      cases hfirst
  simpa [minus] using Written.number false hwhole .none .none

theorem written_list {ts : List Tree} {body : List Char} (h : Parts Written true ts body) :
    Written (.list ts) ('[' :: (body ++ [']'])) := .list h blank_nil

/-! A policy with one class, in two orders, and one whose second class is faulty. -/

namespace Policy

def digits (whole : List Char) : Tree := .number false whole [] []

def sampleItem : List (String × Tree) :=
  [("mask", digits ['1', '5']), ("name", .str ['b']), ("pattern", digits ['1'])]

def sampleItem' : List (String × Tree) :=
  [("pattern", digits ['1']), ("x", .null), ("name", .str ['b']), ("mask", digits ['1', '5'])]

def sample : List (String × Tree) :=
  [("patterns", .list [.object (verbatim sampleItem)]), ("exemptions", .list [])]

def sample' : List (String × Tree) :=
  [("exemptions", .list []), ("patterns", .list [.object (verbatim sampleItem')])]

def faultyItem : List Tree := [.str ['b'], digits ['1', '5'], digits ['1', '6']]

def faultySample : List (String × Tree) :=
  [("patterns", .list [.list [.str ['b'], digits ['1', '5'], digits ['1']], .list faultyItem])]

def samplePolicy : Policy := ⟨"0.1.0", false, [⟨"b", 15, 1, by decide, by decide⟩], [], none⟩

theorem written_name : Written (.str ['b']) "\"b\"".toList := .str (spells_plain (by decide)).body

theorem document_sample : Document (.object (verbatim sample))
    ("\x7b\"patterns\":[\x7b\"mask\":15,\"name\":\"b\",\"pattern\":1\x7d]," ++
      "\"exemptions\":[]\x7d") := by
  have hitem : Written (.object (verbatim sampleItem)) _ :=
    .object (members_cons "mask" (by decide) (written_integer (by decide) (by decide)) <|
      members_cons "name" (by decide) written_name <|
      members_cons "pattern" (by decide) (written_integer (by decide) (by decide))
        (.nil false)) blank_nil
  have hsample : Written (.object (verbatim sample)) _ :=
    .object (members_cons "patterns" (by decide) (written_list (parts_cons hitem (.nil false))) <|
      members_cons "exemptions" (by decide) (written_list (.nil true)) (.nil false)) blank_nil
  exact ⟨[], _, [], blank_nil, hsample, blank_nil, by decide⟩

theorem document_sample' : Document (.object (verbatim sample'))
    (" \x7b\"exemptions\":[],\"patterns\":[\x7b\"pattern\":1,\"x\":null," ++
      "\"name\":\"b\",\"mask\":15\x7d]\x7d\n") := by
  have hitem : Written (.object (verbatim sampleItem')) _ :=
    .object (members_cons "pattern" (by decide) (written_integer (by decide) (by decide)) <|
      members_cons "x" (by decide) .null <| members_cons "name" (by decide) written_name <|
      members_cons "mask" (by decide) (written_integer (by decide) (by decide))
        (.nil false)) blank_nil
  have hsample : Written (.object (verbatim sample')) _ :=
    .object (members_cons "exemptions" (by decide) (written_list (.nil true)) <|
      members_cons "patterns" (by decide) (written_list (parts_cons hitem (.nil false)))
        (.nil false)) blank_nil
  exact ⟨[' '], _, ['\n'], by simp [Blank, Json.isBlank], hsample, by simp [Blank, Json.isBlank],
    by decide⟩

theorem document_faultySample : Document (.object (verbatim faultySample))
    "\x7b\"patterns\":[[\"b\",15,1],[\"b\",15,16]]\x7d" := by
  have hitem (whole : List Char) (hdigits : whole.all isDigit = true)
      (hfirst : whole.head?.any (· ≠ '0') = true) :
      Written (.list [.str ['b'], digits ['1', '5'], digits whole]) _ :=
    written_list <| parts_cons written_name <|
      parts_cons (written_integer (by decide) (by decide)) <|
      parts_cons (written_integer hdigits hfirst) (.nil false)
  have hsample : Written (.object (verbatim faultySample)) _ :=
    .object (members_cons "patterns" (by decide) (written_list <|
      parts_cons (hitem ['1'] (by decide) (by decide)) <|
      parts_cons (hitem ['1', '6'] (by decide) (by decide)) (.nil false)) (.nil false)) blank_nil
  exact ⟨[], _, [], blank_nil, hsample, blank_nil, by decide⟩

theorem describes_sample : Policy.Describes sample samplePolicy where
  version := .inl ⟨rfl, rfl⟩
  pointerAuth := .inl ⟨rfl, rfl⟩
  extraClasses := .inr ⟨_, rfl, _, rfl, .cons (.object (keyed_verbatim (by decide))
    ⟨_, rfl, ['b'], rfl, spells_plain (by decide)⟩ ⟨_, rfl, .inl ⟨_, rfl, rfl⟩⟩
    ⟨_, rfl, .inl ⟨_, rfl, rfl⟩⟩) .nil⟩
  exemptions := .inr ⟨_, rfl, _, rfl, .nil⟩
  disassembler := .inl ⟨rfl, rfl⟩

theorem rearranged_sample : Policy.RearrangedMembers sample sample' := by
  have hitem : Rearranged OpcodeClass.fieldNames (.object (verbatim sampleItem))
      (.object (verbatim sampleItem')) :=
    .object (keyed_verbatim (by decide)) (keyed_verbatim (by decide))
      (List.reverse_perm sampleItem).symm
  exact ⟨sample'.reverse, .cons (.patterns rfl (.cons hitem .nil)) (.cons (.same _) .nil), .swap ..⟩

theorem faulty_faultyItem : OpcodeClass.Faulty (.list faultyItem) :=
  @OpcodeClass.Faulty.bitsOutside _ (digits ['1', '5']) (digits ['1', '6']) 15 16
    (.tail _ (.head _)) (.inl ⟨_, rfl, rfl⟩) (.tail _ (.tail _ (.head _))) (.inl ⟨_, rfl, rfl⟩)
    (by decide)

end Policy

theorem policy_fields_reordered :
    Policy.ofJson ("\x7b\"patterns\":[\x7b\"mask\":15,\"name\":\"b\",\"pattern\":1\x7d]," ++
      "\"exemptions\":[]\x7d") = .ok Policy.samplePolicy ∧
    Policy.ofJson (" \x7b\"exemptions\":[],\"patterns\":[\x7b\"pattern\":1,\"x\":null," ++
      "\"name\":\"b\",\"mask\":15\x7d]\x7d\n") = .ok Policy.samplePolicy ∧
    ∃ e, Policy.ofJson "\x7b\"patterns\":[[\"b\",15,1],[\"b\",15,16]]\x7d" = .error e := by
  obtain ⟨hread, hkeyed⟩ := policy_fields _ _ Policy.document_sample
  obtain ⟨-, hkeyed'⟩ := policy_fields _ _ Policy.document_faultySample
  have hsample := (hread Policy.samplePolicy).mpr
    ⟨Policy.sample, keyed_verbatim (by decide), Policy.describes_sample⟩
  obtain ⟨-, -, hsame, -⟩ := hkeyed Policy.sample (keyed_verbatim (by decide))
  obtain ⟨-, -, -, hrefused⟩ := hkeyed' Policy.faultySample (keyed_verbatim (by decide))
  have hsame' := hsame _ _ _ Policy.document_sample' (keyed_verbatim (by decide))
    Policy.rearranged_sample
  exact ⟨hsample, (hsame' Policy.samplePolicy).mp hsample,
    hrefused _ _ (.head _) (.tail _ (.head _)) Policy.faulty_faultyItem⟩

/-- Half of a surrogate pair is no character. A text with such a key is a text of an object all the
same, and none of its members is a field, but the policy is refused. -/
theorem surrogate_key_refused :
    let key := ['\\', 'u', 'd', '8', '0', '0']
    Document (.object [(key, .null)]) "\x7b\"\\ud800\":null\x7d" ∧
      (∀ name ∈ Policy.fieldNames, ¬ Spells key name.toList) ∧
      Policy.ofJson "\x7b\x7d" = .ok Policy.standard ∧
      ∃ e, Policy.ofJson "\x7b\"\\ud800\":null\x7d" = .error e := by
  intro key
  have hquad := @Quad.mk 'd' '8' '0' '0' 13 8 0 0 ⟨by decide, .inl rfl⟩ ⟨by decide, .inl rfl⟩
    ⟨by decide, .inl rfl⟩ ⟨by decide, .inl rfl⟩
  have hkey : Body key := .cons (.code hquad) .nil
  have hnone (s : String) : ¬ Spells key s.toList := by
    intro h
    have hread := stringBody_of_spells h []
    have hrefused : (stringBody (key ++ ['"'])).toOption = none := by decide +kernel
    rw [hread] at hrefused
    cases hrefused
  have hobject : Written (.object [(key, .null)]) _ :=
    .object (parts_cons (.mk hkey blank_nil blank_nil .null) (.nil false)) blank_nil
  have htext : Document (.object [(key, .null)]) "\x7b\"\\ud800\":null\x7d" :=
    ⟨[], _, [], blank_nil, hobject, blank_nil, by decide⟩
  have hempty : Document (.object []) "\x7b\x7d" :=
    ⟨[], _, [], blank_nil, .object (.nil true) blank_nil, blank_nil, by decide⟩
  refine ⟨htext, fun name _ => hnone name, ?_, ?_⟩
  · refine (Policy.ofJson_eq_ok_iff_of_keyed hempty .nil).mpr ⟨?_, ?_, ?_, ?_, ?_⟩ <;>
      exact .inl ⟨rfl, rfl⟩
  · cases hresult : Policy.ofJson "\x7b\"\\ud800\":null\x7d" with
    | error e => exact ⟨e, rfl⟩
    | ok p =>
      obtain ⟨ms, hkeys, -⟩ := (Policy.ofJson_eq_ok_iff htext).mp hresult
      obtain ⟨s, -, hs, -⟩ := Source.keyed_cons_iff.mp hkeys
      exact absurd hs (hnone s)

end IndirectBranch
