import Mathlib.Data.List.Nodup
import IndirectBranch.Proofs.Numerals
import IndirectBranch.Proofs.OpcodeAlgebra

/-! Records as the members of an object. The fields of a record are slots that do not overlap, so
what members make of a draft can be said of each slot apart: it takes the value of the one member of
its name. For opcode classes, exemptions and policies this gives, in plain terms, which trees stand
for which values, and a policy is read from every text of an object just if its members say so. -/
namespace IndirectBranch

open Json
open Json.Source (Follows FieldFollows)

/-! The readers follow their schemas. -/

theorem OpcodeClass.follows_value (depth : Nat) :
    Follows (depth + 2) (OpcodeClass.value : Source OpcodeClass)
      (OpcodeClass.value : Meaning OpcodeClass) := by
  have hrecord : Follows (depth + 2) (Format.record OpcodeClass.record : Source _)
      (Format.record OpcodeClass.record : Meaning _) :=
    Follows.record (.cons ((Source.follows_text _).field ..) <|
      .cons ((Source.follows_wordValue _).field ..) <|
      .cons ((Source.follows_wordValue _).field ..) .nil) rfl rfl
  exact hrecord.refine _

theorem Exemption.follows_record (depth : Nat) :
    Follows (depth + 2) (Format.record Exemption.record : Source Exemption)
      (Format.record Exemption.record : Meaning Exemption) :=
  Follows.record (.cons ((Source.follows_text _).field ..) <|
    .cons ((Source.follows_numberValue _).field ..) .nil) rfl rfl

theorem Policy.follows_value (depth : Nat) :
    Follows (depth + 4) (Policy.value : Source Policy) (Policy.value : Meaning Policy) :=
  Follows.record (.cons ((Source.follows_text _).field ..) <|
    .cons ((Source.follows_flag _).field ..) <|
    .cons ((OpcodeClass.follows_value _).list.field ..) <|
    .cons ((Exemption.follows_record _).list.field ..) <|
    .cons ((Source.follows_optionalText _).field ..) .nil) rfl rfl

/-! Members of a name. -/

/-- The values of the members of a name. -/
def given (ms : List (String × Tree)) (name : String) : List Tree :=
  (ms.filter (·.1 == name)).map (·.2)

theorem given_cons_self (ms : List (String × Tree)) (name : String) (t : Tree) :
    given ((name, t) :: ms) name = t :: given ms name := by
  simp [given]

theorem given_cons_ne {key name : String} (h : key ≠ name) (ms : List (String × Tree)) (t : Tree) :
    given ((key, t) :: ms) name = given ms name := by
  simp [given, h]

/-- A place for a value takes what is given for it, once at most. -/
def Takes {α : Type} (meaning : Meaning α) : Option α → List Tree → Option α → Prop
  | old, [], new => new = old
  | none, t :: ts, new => ∃ a, meaning t a ∧ Takes meaning (some a) ts new
  | some _, _ :: _, _ => False

theorem takes_cons_iff {α : Type} {meaning : Meaning α} {old new : Option α} {t : Tree}
    {ts : List Tree} : Takes meaning old (t :: ts) new ↔
      old.isSome = false ∧ ∃ a, meaning t a ∧ Takes meaning (some a) ts new := by
  cases old <;> simp [Takes]

/-- One field of a record, with its place in the draft. -/
structure Slot (σ : Type) where
  α : Type
  name : String
  required : Bool
  meaning : Meaning α
  get : σ → Option α
  put : α → σ → σ

namespace Slot

variable {σ : Type}

def field (s : Slot σ) : Field Meaning σ :=
  .of s.name s.required s.meaning (fun d => (s.get d).isSome) s.put

@[simp] theorem name_field (s : Slot σ) : s.field.name = s.name := rfl

@[simp] theorem required_field (s : Slot σ) : s.field.required = s.required := rfl

theorem read_field_iff {s : Slot σ} {t : Tree} {put : σ → σ} :
    s.field.read t put ↔ ∃ a, s.meaning t a ∧ s.put a = put := by
  change (∃ a, s.meaning t a ∧ Except.ok (s.put a) = Except.ok put) ↔ _
  simp only [Except.ok.injEq]

/-- The places of a draft do not overlap, and the draft has no others. -/
structure Lawful (slots : List (Slot σ)) : Prop where
  names : (slots.map (·.name)).Nodup
  get_put : ∀ s ∈ slots, ∀ a d, s.get (s.put a d) = some a
  get_put_ne : ∀ s ∈ slots, ∀ s' ∈ slots, s.name ≠ s'.name → ∀ a d, s.get (s'.put a d) = s.get d
  ext : ∀ d d' : σ, (∀ s ∈ slots, s.get d = s.get d') → d = d'

theorem Lawful.eq_of_name_eq {slots : List (Slot σ)} (h : Lawful slots) {s s' : Slot σ}
    (hs : s ∈ slots) (hs' : s' ∈ slots) (hname : s.name = s'.name) : s = s' :=
  List.inj_on_of_nodup_map h.names hs hs' hname

/-- Members fill a draft by filling each place apart, so their order does not matter. -/
theorem fills_iff {slots : List (Slot σ)} (h : Lawful slots) {ms : List (String × Tree)}
    {d d' : σ} : Meaning.Fills (slots.map field) d ms d' ↔
      ∀ s ∈ slots, Takes s.meaning (s.get d) (given ms s.name) (s.get d') := by
  induction ms generalizing d with
  | nil =>
    simp only [Meaning.Fills, given, List.filter_nil, List.map_nil, Takes]
    constructor
    · rintro rfl s _
      rfl
    · intro hsame
      exact h.ext d' d hsame
  | cons m ms ih =>
    obtain ⟨key, t⟩ := m
    rw [Meaning.Fills, List.find?_map]
    cases hfind : slots.find? ((·.name == key) ∘ field) with
    | none =>
      simp only [Option.map_none, ih]
      refine forall₂_congr fun s hs => ?_
      have hne : s.name ≠ key := by simpa using List.find?_eq_none.mp hfind s hs
      rw [given_cons_ne hne.symm]
    | some s =>
      have hs := List.mem_of_find?_eq_some hfind
      obtain rfl : s.name = key := by simpa using List.find?_some hfind
      have hother (s' : Slot σ) (hs' : s' ∈ slots) (hne : s.name ≠ s'.name) (a : s.α) :
          Takes s'.meaning (s'.get d) (given ((s.name, t) :: ms) s'.name) (s'.get d') ↔
            Takes s'.meaning (s'.get (s.put a d)) (given ms s'.name) (s'.get d') := by
        rw [given_cons_ne hne, h.get_put_ne s' hs' s hs hne.symm]
      have hown : Takes s.meaning (s.get d) (given ((s.name, t) :: ms) s.name) (s.get d') ↔
          (s.get d).isSome = false ∧ ∃ a, s.meaning t a ∧
            Takes s.meaning (s.get (s.put a d)) (given ms s.name) (s.get d') := by
        simp only [given_cons_self, takes_cons_iff, h.get_put s hs]
      simp only [Option.map_some, read_field_iff, ih]
      constructor
      · rintro ⟨hunset, put, ⟨a, ha, rfl⟩, htakes⟩ s' hs'
        by_cases hname : s.name = s'.name
        · obtain rfl := h.eq_of_name_eq hs hs' hname
          exact hown.mpr ⟨hunset, a, ha, htakes s hs⟩
        · exact (hother s' hs' hname a).mpr (htakes s' hs')
      · intro htakes
        obtain ⟨hunset, a, ha, htake⟩ := hown.mp (htakes s hs)
        refine ⟨hunset, s.put a, ⟨a, ha, rfl⟩, fun s' hs' => ?_⟩
        by_cases hname : s.name = s'.name
        · obtain rfl := h.eq_of_name_eq hs hs' hname
          exact htake
        · exact (hother s' hs' hname a).mp (htakes s' hs')

end Slot

/-- The one member of the name has a value with this meaning. -/
def Has {α : Type} (meaning : Meaning α) (ms : List (String × Tree)) (name : String) (a : α) :
    Prop :=
  ∃ t, given ms name = [t] ∧ meaning t a

/-- As before, but without such a member there is the standard value. -/
def HasOr {α : Type} (standard : α) (meaning : Meaning α) (ms : List (String × Tree))
    (name : String) (a : α) : Prop :=
  (given ms name = [] ∧ a = standard) ∨ Has meaning ms name a

theorem takes_none_iff {α : Type} {meaning : Meaning α} {ts : List Tree} {new : Option α} :
    Takes meaning none ts new ↔
      (ts = [] ∧ new = none) ∨ ∃ t, ts = [t] ∧ ∃ a, meaning t a ∧ new = some a := by
  match ts with
  | [] => simp [Takes]
  | [t] => simp [Takes]
  | t :: t' :: ts => simp [Takes]

theorem takes_some_iff {α : Type} {meaning : Meaning α} {ms : List (String × Tree)} {name : String}
    {a : α} : Takes meaning none (given ms name) (some a) ↔ Has meaning ms name a := by
  simp [takes_none_iff, Has]

theorem takes_getD_iff {α : Type} {meaning : Meaning α} {ms : List (String × Tree)}
    {name : String} {standard a : α} :
    (∃ new, Takes meaning none (given ms name) new ∧ new.getD standard = a) ↔
      HasOr standard meaning ms name a := by
  simp only [takes_none_iff, HasOr, Has]
  constructor
  · rintro ⟨new, ⟨hts, rfl⟩ | ⟨t, hts, b, hb, rfl⟩, rfl⟩
    · exact .inl ⟨hts, rfl⟩
    · exact .inr ⟨t, hts, hb⟩
  · rintro (⟨hts, rfl⟩ | ⟨t, hts, ha⟩)
    · exact ⟨none, .inl ⟨hts, rfl⟩, rfl⟩
    · exact ⟨some a, .inr ⟨t, hts, a, ha, rfl⟩, rfl⟩

theorem has_wordValue_iff {ms : List (String × Tree)} {name : String} {w : UInt32} :
    Has wordValue ms name w ↔ Has Tree.IsNumber ms name w.toNat := by
  simp only [Has, Meaning.wordValue_iff]

theorem has_numberValue_iff {ms : List (String × Tree)} {name : String} {n : UInt64} :
    Has numberValue ms name n ↔ Has Tree.IsNumber ms name n.toNat := by
  simp only [Has, Meaning.numberValue_iff]

def OpcodeClass.slots : List (Slot OpcodeClass.Draft) := [
  ⟨String, "name", true, Meaning.text, (·.name), fun v d => { d with name := some v }⟩,
  ⟨UInt32, "mask", true, wordValue, (·.mask), fun v d => { d with mask := some v }⟩,
  ⟨UInt32, "pattern", true, wordValue, (·.bits), fun v d => { d with bits := some v }⟩]

theorem OpcodeClass.lawful_slots : Slot.Lawful OpcodeClass.slots := by
  refine ⟨by decide, ?_, ?_, ?_⟩
  · simp [OpcodeClass.slots]
  · simp [OpcodeClass.slots]
  · rintro ⟨⟩ ⟨⟩
    simp [OpcodeClass.slots]

theorem OpcodeClass.fills_iff {ms : List (String × Tree)} {d d' : OpcodeClass.Draft} :
    Meaning.Fills (OpcodeClass.record (m := Meaning)).fields d ms d' ↔
      Takes Meaning.text d.name (given ms "name") d'.name ∧
      Takes wordValue d.mask (given ms "mask") d'.mask ∧
      Takes wordValue d.bits (given ms "pattern") d'.bits := by
  refine (Slot.fills_iff OpcodeClass.lawful_slots).trans ?_
  simp [OpcodeClass.slots]

/-- The fields of a class, as an object or as a list of their values. -/
inductive OpcodeClass.Fields : Tree → (name : String) → (mask bits : Nat) → Prop
  | object {raw : List (List Char × Tree)} {ms : List (String × Tree)} {name : String}
      {mask bits : Nat} (hkeys : Keyed raw ms) (hname : Has Meaning.text ms "name" name)
      (hmask : Has Tree.IsNumber ms "mask" mask) (hbits : Has Tree.IsNumber ms "pattern" bits) :
      Fields (.object raw) name mask bits
  | list {tname tmask tbits : Tree} {name : String} {mask bits : Nat}
      (hname : Meaning.text tname name) (hmask : tmask.IsNumber mask)
      (hbits : tbits.IsNumber bits) : Fields (.list [tname, tmask, tbits]) name mask bits

theorem OpcodeClass.finish_eq_ok_iff {d : OpcodeClass.Draft} {name : String} {mask bits : UInt32} :
    d.finish = .ok (name, mask, bits) ↔ d = ⟨some name, some mask, some bits⟩ := by
  obtain ⟨_ | _, _ | _, _ | _⟩ := d <;>
    simp [OpcodeClass.Draft.finish, requiredField, bind, Except.bind, pure, Except.pure]

theorem OpcodeClass.fillsInOrder_iff {ts : List Tree} {name : String} {mask bits : UInt32} :
    Meaning.FillsInOrder (OpcodeClass.record (m := Meaning)).fields {} ts
        ⟨some name, some mask, some bits⟩ ↔
      ∃ tname tmask tbits, ts = [tname, tmask, tbits] ∧ Meaning.text tname name ∧
        tmask.IsNumber mask.toNat ∧ tbits.IsNumber bits.toNat := by
  change Meaning.FillsInOrder (OpcodeClass.slots.map Slot.field) _ _ _ ↔ _
  match ts with
  | [] => simp [OpcodeClass.slots, Meaning.FillsInOrder]
  | [_] => simp [OpcodeClass.slots, Meaning.FillsInOrder]
  | [_, _] => simp [OpcodeClass.slots, Meaning.FillsInOrder]
  | [_, _, _] =>
    simp [OpcodeClass.slots, Meaning.FillsInOrder, Slot.read_field_iff, Meaning.wordValue_iff]
  | _ :: _ :: _ :: _ :: _ => simp [OpcodeClass.slots, Meaning.FillsInOrder]

theorem OpcodeClass.record_iff {t : Tree} {name : String} {mask bits : UInt32} :
    Meaning.record OpcodeClass.record t (name, mask, bits) ↔
      OpcodeClass.Fields t name mask.toNat bits.toNat := by
  constructor
  · intro h
    cases t with
    | object raw =>
      obtain ⟨ms, hkeys, d, hfills, hfinish⟩ := h
      obtain rfl := OpcodeClass.finish_eq_ok_iff.mp hfinish
      obtain ⟨hname, hmask, hbits⟩ := OpcodeClass.fills_iff.mp hfills
      exact .object hkeys (takes_some_iff.mp hname) (has_wordValue_iff.mp (takes_some_iff.mp hmask))
        (has_wordValue_iff.mp (takes_some_iff.mp hbits))
    | list ts =>
      obtain ⟨d, hfills, hfinish⟩ := h
      obtain rfl := OpcodeClass.finish_eq_ok_iff.mp hfinish
      obtain ⟨tname, tmask, tbits, rfl, hname, hmask, hbits⟩ :=
        OpcodeClass.fillsInOrder_iff.mp hfills
      exact .list hname hmask hbits
    | _ => exact h.elim
  · intro h
    cases h with
    | object hkeys hname hmask hbits =>
      refine ⟨_, hkeys, ⟨some name, some mask, some bits⟩, OpcodeClass.fills_iff.mpr ?_, rfl⟩
      exact ⟨takes_some_iff.mpr hname, takes_some_iff.mpr (has_wordValue_iff.mpr hmask),
        takes_some_iff.mpr (has_wordValue_iff.mpr hbits)⟩
    | list hname hmask hbits =>
      exact ⟨⟨some name, some mask, some bits⟩,
        OpcodeClass.fillsInOrder_iff.mpr ⟨_, _, _, rfl, hname, hmask, hbits⟩, rfl⟩

/-- A tree gives a class if it has the fields of one: the name is not empty then, and the bits lie
inside the mask. -/
def OpcodeClass.Describes (t : Tree) (c : OpcodeClass) : Prop :=
  OpcodeClass.Fields t c.name c.mask.toNat c.bits.toNat

theorem OpcodeClass.value_eq :
    (OpcodeClass.value : Meaning OpcodeClass) = OpcodeClass.Describes := by
  funext t c
  refine propext ?_
  constructor
  · rintro ⟨⟨name, mask, bits⟩, hrecord, hok⟩
    cases hmade : OpcodeClass.make name mask bits with
    | error reason => simp [hmade] at hok
    | ok made =>
      simp only [hmade] at hok
      cases hok
      obtain ⟨rfl, rfl, rfl⟩ := OpcodeClass.make_eq_ok_iff.mp hmade
      exact OpcodeClass.record_iff.mp hrecord
  · intro h
    have hmade : OpcodeClass.make c.name c.mask c.bits = .ok c :=
      OpcodeClass.make_eq_ok_iff.mpr ⟨rfl, rfl, rfl⟩
    exact ⟨(c.name, c.mask, c.bits), OpcodeClass.record_iff.mpr h, by simp only [hmade]⟩

/-! Exemptions. -/

def Exemption.slots : List (Slot Exemption.Draft) := [
  ⟨String, "symbol", true, Meaning.text, (·.symbol), fun v d => { d with symbol := some v }⟩,
  ⟨UInt64, "max_offset", true, numberValue, (·.maxOffset),
    fun v d => { d with maxOffset := some v }⟩]

theorem Exemption.lawful_slots : Slot.Lawful Exemption.slots := by
  refine ⟨by decide, ?_, ?_, ?_⟩
  · simp [Exemption.slots]
  · simp [Exemption.slots]
  · rintro ⟨⟩ ⟨⟩
    simp [Exemption.slots]

theorem Exemption.fills_iff {ms : List (String × Tree)} {d d' : Exemption.Draft} :
    Meaning.Fills (Exemption.record (m := Meaning)).fields d ms d' ↔
      Takes Meaning.text d.symbol (given ms "symbol") d'.symbol ∧
      Takes numberValue d.maxOffset (given ms "max_offset") d'.maxOffset := by
  refine (Slot.fills_iff Exemption.lawful_slots).trans ?_
  simp [Exemption.slots]

/-- An exemption as an object of its fields, or as a list of their values. -/
inductive Exemption.Describes : Tree → Exemption → Prop
  | object {raw : List (List Char × Tree)} {ms : List (String × Tree)} {e : Exemption}
      (hkeys : Keyed raw ms) (hsymbol : Has Meaning.text ms "symbol" e.symbol)
      (hoffset : Has Tree.IsNumber ms "max_offset" e.maxOffset.toNat) : Describes (.object raw) e
  | list {symbol offset : Tree} {e : Exemption} (hsymbol : Meaning.text symbol e.symbol)
      (hoffset : offset.IsNumber e.maxOffset.toNat) : Describes (.list [symbol, offset]) e

theorem Exemption.finish_eq_ok_iff {d : Exemption.Draft} {e : Exemption} :
    d.finish = .ok e ↔ d = ⟨some e.symbol, some e.maxOffset⟩ := by
  obtain ⟨_ | _, _ | _⟩ := d <;> cases e <;>
    simp [Exemption.Draft.finish, requiredField, bind, Except.bind, pure, Except.pure]

theorem Exemption.fillsInOrder_iff {ts : List Tree} {symbol : String} {offset : UInt64} :
    Meaning.FillsInOrder (Exemption.record (m := Meaning)).fields {} ts
        ⟨some symbol, some offset⟩ ↔
      ∃ tsymbol toffset, ts = [tsymbol, toffset] ∧ Meaning.text tsymbol symbol ∧
        toffset.IsNumber offset.toNat := by
  change Meaning.FillsInOrder (Exemption.slots.map Slot.field) _ _ _ ↔ _
  match ts with
  | [] => simp [Exemption.slots, Meaning.FillsInOrder]
  | [_] => simp [Exemption.slots, Meaning.FillsInOrder]
  | [_, _] =>
    simp [Exemption.slots, Meaning.FillsInOrder, Slot.read_field_iff, Meaning.numberValue_iff]
  | _ :: _ :: _ :: _ => simp [Exemption.slots, Meaning.FillsInOrder]

theorem Exemption.record_eq : Meaning.record Exemption.record = Exemption.Describes := by
  funext t e
  refine propext ?_
  constructor
  · intro h
    cases t with
    | object raw =>
      obtain ⟨ms, hkeys, d, hfills, hfinish⟩ := h
      obtain rfl := Exemption.finish_eq_ok_iff.mp hfinish
      obtain ⟨hsymbol, hoffset⟩ := Exemption.fills_iff.mp hfills
      exact .object hkeys (takes_some_iff.mp hsymbol)
        (has_numberValue_iff.mp (takes_some_iff.mp hoffset))
    | list ts =>
      obtain ⟨d, hfills, hfinish⟩ := h
      obtain rfl := Exemption.finish_eq_ok_iff.mp hfinish
      obtain ⟨tsymbol, toffset, rfl, hsymbol, hoffset⟩ := Exemption.fillsInOrder_iff.mp hfills
      exact .list hsymbol hoffset
    | _ => exact h.elim
  · intro h
    cases h with
    | object hkeys hsymbol hoffset =>
      refine ⟨_, hkeys, ⟨some e.symbol, some e.maxOffset⟩, Exemption.fills_iff.mpr ?_, rfl⟩
      exact ⟨takes_some_iff.mpr hsymbol, takes_some_iff.mpr (has_numberValue_iff.mpr hoffset)⟩
    | list hsymbol hoffset =>
      exact ⟨⟨some e.symbol, some e.maxOffset⟩,
        Exemption.fillsInOrder_iff.mpr ⟨_, _, rfl, hsymbol, hoffset⟩, rfl⟩

/-! Policies. -/

def Policy.slots : List (Slot Policy.Draft) := [
  ⟨String, "config_version", false, Meaning.text, (·.version),
    fun v d => { d with version := some v }⟩,
  ⟨Bool, "pointer_auth", false, Meaning.flag, (·.pointerAuth),
    fun v d => { d with pointerAuth := some v }⟩,
  ⟨OpcodeClasses, "patterns", false, Meaning.list OpcodeClass.value, (·.extraClasses),
    fun v d => { d with extraClasses := some v }⟩,
  ⟨List Exemption, "exemptions", false, Meaning.list (Meaning.record Exemption.record),
    (·.exemptions), fun v d => { d with exemptions := some v }⟩,
  ⟨Option String, "default_disassembler", false, Meaning.optionalText, (·.disassembler),
    fun v d => { d with disassembler := some v }⟩]

theorem Policy.lawful_slots : Slot.Lawful Policy.slots := by
  refine ⟨by decide, ?_, ?_, ?_⟩
  · simp [Policy.slots]
  · simp [Policy.slots]
  · rintro ⟨⟩ ⟨⟩
    simp [Policy.slots]

theorem Policy.fills_iff {ms : List (String × Tree)} {d d' : Policy.Draft} :
    Meaning.Fills (Policy.record (m := Meaning)).fields d ms d' ↔
      Takes Meaning.text d.version (given ms "config_version") d'.version ∧
      Takes Meaning.flag d.pointerAuth (given ms "pointer_auth") d'.pointerAuth ∧
      Takes (Meaning.list OpcodeClass.Describes) d.extraClasses (given ms "patterns")
        d'.extraClasses ∧
      Takes (Meaning.list Exemption.Describes) d.exemptions (given ms "exemptions") d'.exemptions ∧
      Takes Meaning.optionalText d.disassembler (given ms "default_disassembler")
        d'.disassembler := by
  rw [← OpcodeClass.value_eq, ← Exemption.record_eq]
  refine (Slot.fills_iff Policy.lawful_slots).trans ?_
  simp [Policy.slots]

/-- What the members of an object say of a policy: each field has the value of its one member, or
without one the standard value. -/
@[mk_iff]
structure Policy.Describes (ms : List (String × Tree)) (p : Policy) : Prop where
  version : HasOr standard.version Meaning.text ms "config_version" p.version
  pointerAuth : HasOr standard.pointerAuth Meaning.flag ms "pointer_auth" p.pointerAuth
  extraClasses : HasOr standard.extraClasses (Meaning.list OpcodeClass.Describes) ms "patterns"
    p.extraClasses
  exemptions : HasOr standard.exemptions (Meaning.list Exemption.Describes) ms "exemptions"
    p.exemptions
  disassembler : HasOr standard.disassembler Meaning.optionalText ms "default_disassembler"
    p.disassembler

theorem Policy.value_object_iff {raw : List (List Char × Tree)} {p : Policy} :
    (Policy.value : Meaning Policy) (.object raw) p ↔
      ∃ ms, Keyed raw ms ∧ Policy.Describes ms p := by
  constructor
  · rintro ⟨ms, hkeys, d, hfills, hfinish⟩
    obtain rfl := Except.ok.inj hfinish
    obtain ⟨hversion, hauth, hclasses, hexemptions, hdisassembler⟩ := Policy.fills_iff.mp hfills
    exact ⟨ms, hkeys, takes_getD_iff.mp ⟨_, hversion, rfl⟩, takes_getD_iff.mp ⟨_, hauth, rfl⟩,
      takes_getD_iff.mp ⟨_, hclasses, rfl⟩, takes_getD_iff.mp ⟨_, hexemptions, rfl⟩,
      takes_getD_iff.mp ⟨_, hdisassembler, rfl⟩⟩
  · rintro ⟨ms, hkeys, h⟩
    obtain ⟨version, hversion, hversion'⟩ := takes_getD_iff.mpr h.version
    obtain ⟨auth, hauth, hauth'⟩ := takes_getD_iff.mpr h.pointerAuth
    obtain ⟨classes, hclasses, hclasses'⟩ := takes_getD_iff.mpr h.extraClasses
    obtain ⟨exemptions, hexemptions, hexemptions'⟩ := takes_getD_iff.mpr h.exemptions
    obtain ⟨disassembler, hdisassembler, hdisassembler'⟩ := takes_getD_iff.mpr h.disassembler
    refine ⟨ms, hkeys, ⟨version, auth, classes, exemptions, disassembler⟩,
      Policy.fills_iff.mpr ⟨hversion, hauth, hclasses, hexemptions, hdisassembler⟩, ?_⟩
    change Except.ok (Policy.mk _ _ _ _ _) = _
    rw [hversion', hauth', hclasses', hexemptions', hdisassembler']

/-- A policy is read from an object just if its keys are strings and its members say so. -/
theorem Policy.ofJson_eq_ok_iff {raw : List (List Char × Tree)} {text : String}
    (htext : Document (.object raw) text) {p : Policy} :
    Policy.ofJson text = .ok p ↔ ∃ ms, Keyed raw ms ∧ Policy.Describes ms p := by
  rw [← Policy.value_object_iff,
    ← (Policy.follows_value (Json.maxDepth - 4)).run_eq_ok_iff htext, Policy.ofJson]
  cases Source.run (Policy.value : Source Policy) text <;> simp

/-- If the keys are strings, what they spell is all that counts of them. -/
theorem Policy.ofJson_eq_ok_iff_of_keyed {raw : List (List Char × Tree)}
    {ms : List (String × Tree)} {text : String} (htext : Document (.object raw) text)
    (hkeys : Keyed raw ms) {p : Policy} :
    Policy.ofJson text = .ok p ↔ Policy.Describes ms p := by
  rw [Policy.ofJson_eq_ok_iff htext]
  constructor
  · rintro ⟨ms', hkeys', h⟩
    exact hkeys'.unique hkeys ▸ h
  · exact fun h => ⟨ms, hkeys, h⟩

end IndirectBranch
