import Mathlib.Data.List.Forall2
import IndirectBranch.Json.Source
import IndirectBranch.Policy.Schema
import IndirectBranch.Proofs.JsonTree

/-! What a schema makes of a tree. `Meaning` is a format like the others: a schema taken in it says,
without any text, which trees stand for which values. A source follows a meaning if it reads from
every text of a tree just the values that the tree means and stops where the text ends. Text, flags,
numbers, lists and records follow theirs, whatever blanks stand between their parts. -/
namespace IndirectBranch.Json

/-- Which values a tree stands for. -/
abbrev Meaning (α : Type) := Tree → α → Prop

/-- The keys of members as what they spell. A key that spells nothing is none. -/
def Keyed : List (List Char × Tree) → List (String × Tree) → Prop :=
  List.Forall₂ fun raw m => Spells raw.1 m.1.toList ∧ raw.2 = m.2

theorem Keyed.unique {raw : List (List Char × Tree)} {ms ms' : List (String × Tree)}
    (h : Keyed raw ms) (h' : Keyed raw ms') : ms = ms' := by
  refine Relator.RightUnique.forall₂ ?_ h h'
  rintro ⟨key, t⟩ ⟨name, _⟩ ⟨name', _⟩ ⟨hname, rfl⟩ ⟨hname', rfl⟩
  obtain rfl : name = name' := String.toList_inj.mp (hname.unique hname')
  rfl

/-- A text that is a value with blanks around it. -/
def Document (t : Tree) (text : String) : Prop :=
  ∃ front body back, Blank front ∧ Written t body ∧ Blank back ∧
    text.toList = front ++ (body ++ back)

namespace Meaning

variable {σ α β : Type}

def text : Meaning String := fun t s => ∃ body, t = .str body ∧ Spells body s.toList

def flag : Meaning Bool := fun t b => t = .bool b

def optionalText : Meaning (Option String)
  | t, none => t = .null
  | t, some s => text t s

/-- Only digits without sign, fraction and exponent are an integer. What is neither that nor text is
no number. -/
def number : Meaning RawNumber
  | t, .integer n => ∃ whole, t = .number false whole [] [] ∧ Nat.ofDigitChars 10 whole 0 = n.toNat
  | t, .text s => text t s
  | _, .other => False

def list (item : Meaning α) : Meaning (List α) := fun t as =>
  ∃ ts, t = .list ts ∧ List.Forall₂ item ts as

/-- Members fill a draft one after another. No field is filled twice, and members of other names do
nothing. -/
def Fills (fields : List (Field Meaning σ)) : σ → List (String × Tree) → σ → Prop
  | draft, [], result => result = draft
  | draft, (key, t) :: ms, result =>
    match fields.find? (·.name == key) with
    | none => Fills fields draft ms result
    | some f => f.isSet draft = false ∧ ∃ put, f.read t put ∧ Fills fields (put draft) ms result

/-- Values fill a draft in the order of the fields; the last fields may be left out. -/
def FillsInOrder : List (Field Meaning σ) → σ → List Tree → σ → Prop
  | [], draft, ts, result => ts = [] ∧ result = draft
  | f :: fs, draft, [], result => f.required = false ∧ FillsInOrder fs draft [] result
  | f :: fs, draft, t :: ts, result => ∃ put, f.read t put ∧ FillsInOrder fs (put draft) ts result

/-- A record is an object, or a list of its values. -/
def record (r : Record Meaning σ α) : Meaning α
  | .object raw, a => ∃ ms, Keyed raw ms ∧ ∃ draft, Fills r.fields r.start ms draft ∧
      r.finish draft = .ok a
  | .list ts, a => ∃ draft, FillsInOrder r.fields r.start ts draft ∧ r.finish draft = .ok a
  | _, _ => False

instance : Format Meaning where
  text := text
  flag := flag
  optionalText := optionalText
  number := number
  list := list
  record := record
  refine meaning check := fun t b => ∃ a, meaning t a ∧ check a = .ok b

end Meaning

/-! The first character tells the kind of a value. -/

def Tree.Opens : Tree → Char → Prop
  | .null, c => c = 'n'
  | .bool true, c => c = 't'
  | .bool false, c => c = 'f'
  | .number .., c => c = '-' ∨ isDigit c = true
  | .str _, c => c = '"'
  | .list _, c => c = '['
  | .object _, c => c = '{'

theorem Written.opens {t : Tree} {text : List Char} (h : Written t text) :
    ∃ c s, text = c :: s ∧ t.Opens c ∧ isBlank c = false := by
  obtain ⟨c, s, rfl, hblank, -⟩ := h.starts
  refine ⟨c, s, rfl, ?_, hblank⟩
  generalize htext : c :: s = text at h
  cases h with
  | null => exact (List.cons.inj htext).1
  | bool b => cases b <;> exact (List.cons.inj htext).1
  | number negative hwhole _ _ =>
    cases negative with
    | true => exact .inl (List.cons.inj htext).1
    | false =>
      obtain ⟨d, u, rfl, hd, -⟩ := hwhole.digits.exists_cons
      exact .inr ((List.cons.inj htext).1 ▸ hd)
  | str _ => exact (List.cons.inj htext).1
  | list _ _ => exact (List.cons.inj htext).1
  | object _ _ => exact (List.cons.inj htext).1

namespace Tree

def isNested : Tree → Bool
  | .list _ => true
  | .object _ => true
  | _ => false

variable {t : Tree}

theorem eq_null_of_opens (h : t.Opens 'n') : t = .null := by
  unfold Opens at h
  split at h <;> simp_all [isDigit]

theorem eq_str_of_opens (h : t.Opens '"') : ∃ body, t = .str body := by
  unfold Opens at h
  split at h <;> simp_all [isDigit]

theorem eq_bool_of_opens {c : Char} (hc : c = 't' ∨ c = 'f') (h : t.Opens c) :
    ∃ b, t = .bool b := by
  unfold Opens at h
  rcases hc with rfl | rfl <;> split at h <;> simp_all [isDigit]

theorem eq_list_of_opens (h : t.Opens '[') : ∃ ts, t = .list ts := by
  unfold Opens at h
  split at h <;> simp_all [isDigit]

theorem eq_object_of_opens (h : t.Opens '{') : ∃ ms, t = .object ms := by
  unfold Opens at h
  split at h <;> simp_all [isDigit]

end Tree

/-- What is read are the values with a property, up to `rest`. -/
def Yields {α : Type} (r : Read α) (P : α → Prop) (rest : List Char) : Prop :=
  ∀ a s, r = .ok (a, s) ↔ P a ∧ s = rest

section Yields

variable {α β : Type} {r : Read α} {P : α → Prop} {rest : List Char}

theorem yields_error {f : Fault} (h : ∀ a, ¬ P a) : Yields (.error f : Read α) P rest := by
  intro a s
  simp [h a]

theorem yields_ok {a : α} (h : ∀ a', P a' ↔ a' = a) : Yields (.ok (a, rest)) P rest := by
  intro a' s
  simp [h a', eq_comm]

/-- Nothing has the property and the reading fails, or one value has it and is read. -/
theorem Yields.cases (h : Yields r P rest) :
    (∃ f, r = .error f ∧ ∀ a, ¬ P a) ∨ ∃ a, r = .ok (a, rest) ∧ ∀ a', P a' ↔ a' = a := by
  cases r with
  | error f =>
    refine .inl ⟨f, rfl, fun a ha => ?_⟩
    cases (h a rest).mpr ⟨ha, rfl⟩
  | ok p =>
    obtain ⟨a, s⟩ := p
    obtain ⟨ha, rfl⟩ := (h a s).mp rfl
    refine .inr ⟨a, rfl, fun a' => ⟨fun ha' => ?_, fun heq => heq ▸ ha⟩⟩
    have hread := (h a' s).mpr ⟨ha', rfl⟩
    cases hread
    rfl

theorem Yields.congr {Q : α → Prop} (h : Yields r P rest) (hiff : ∀ a, P a ↔ Q a) :
    Yields r Q rest := fun a s => by rw [h a s, hiff a]

theorem Yields.map {f : α → β} (h : Yields r P rest) :
    Yields (r.map fun read => (f read.1, read.2)) (fun b => ∃ a, P a ∧ f a = b) rest := by
  rcases h.cases with ⟨e, rfl, hnone⟩ | ⟨a, rfl, hone⟩
  · exact yields_error (by simp [hnone])
  · exact yields_ok (by simp [hone, eq_comm])

end Yields

section Value

variable {t : Tree} {txt gap rest : List Char} (h : Written t txt) (hgap : Blank gap)
include h hgap

theorem value_of_scalar (hflat : t.isNested = false) (depth : Nat) :
    value (depth + 1) (gap ++ (txt ++ rest)) = scalar (txt ++ rest) := by
  obtain ⟨c, s, rfl, hopens, hblank⟩ := h.opens
  have hc : c ≠ '[' := by
    rintro rfl
    obtain ⟨ts, rfl⟩ := Tree.eq_list_of_opens hopens
    cases hflat
  have hc' : c ≠ '{' := by
    rintro rfl
    obtain ⟨ms, rfl⟩ := Tree.eq_object_of_opens hopens
    cases hflat
  rw [value, List.cons_append, skipBlank_blank_cons hgap hblank]
  simp only [if_neg hc, if_neg hc']

theorem value_of_nested (hnested : t.isNested = true) {depth : Nat} {v : Json} {r : List Char}
    (hread : value (depth + 1) (gap ++ (txt ++ rest)) = .ok (v, r)) :
    (∃ vs, v = .arr vs) ∨ ∃ ms, v = .obj ms := by
  obtain ⟨c, s, rfl, hopens, hblank⟩ := h.opens
  rw [value, List.cons_append, skipBlank_blank_cons hgap hblank] at hread
  have hc : c = '[' ∨ c = '{' := by
    cases t with
    | list ts => exact .inl hopens
    | object ms => exact .inr hopens
    | _ => cases hnested
  dsimp only at hread
  rcases hc with rfl | rfl
  · rw [if_pos rfl] at hread
    split at hread
    · cases hread
    · split at hread
      · cases hread
      next vs s' _ =>
        cases hclose : closeList s' <;> rw [hclose] at hread <;> cases hread
        exact .inl ⟨vs, rfl⟩
  · rw [if_neg (by decide), if_pos rfl] at hread
    split at hread
    · cases hread
    · split at hread
      · cases hread
      next ms s' _ =>
        cases hclose : closeObject s' <;> rw [hclose] at hread <;> cases hread
        exact .inr ⟨ms, rfl⟩

end Value

theorem scalar_number {whole : List Char} (hwhole : Whole whole) (negative : Bool)
    (s : List Char) : scalar (minus negative ++ (whole ++ s)) = number negative (whole ++ s) := by
  cases negative with
  | true => rfl
  | false =>
    obtain ⟨c, t, rfl, hc, -⟩ := hwhole.digits.exists_cons
    have hne (d : Char) (hd : isDigit d = false) : c ≠ d := ne_of_isDigit hc hd
    simp only [minus, Bool.false_eq_true, ↓reduceIte, List.nil_append, List.cons_append, scalar,
      if_neg (hne 'n' (by decide)), if_neg (hne 't' (by decide)), if_neg (hne 'f' (by decide)),
      if_neg (hne '-' (by decide)), hc]

theorem scalar_string (s : List Char) :
    scalar ('"' :: s) = (string s).map fun read => (.str read.1, read.2) := rfl

section Value

variable {t : Tree} {txt gap rest : List Char} (h : Written t txt) (hgap : Blank gap)
  (hrest : EndsNumber rest)
include h hgap hrest

theorem value_eq_nat_iff {depth n : Nat} {r : List Char} :
    value (depth + 1) (gap ++ (txt ++ rest)) = .ok (.nat n, r) ↔
      (∃ whole, t = .number false whole [] [] ∧ Nat.ofDigitChars 10 whole 0 = n ∧
        n < UInt64.size) ∧ r = rest := by
  by_cases hnested : t.isNested = true
  · constructor
    · intro hread
      rcases value_of_nested h hgap hnested hread with ⟨vs, hv⟩ | ⟨ms, hv⟩ <;> cases hv
    · rintro ⟨⟨whole, rfl, -⟩, -⟩
      cases hnested
  · rw [value_of_scalar h hgap (Bool.eq_false_iff.mpr hnested)]
    cases h with
    | null => simp [scalar, literal, Except.map]
    | bool b => cases b <;> simp [scalar, literal, Except.map]
    | str _ =>
      rw [List.cons_append, scalar_string]
      cases string _ <;> simp [Except.map]
    | @number whole _ _ _ hwhole hfraction hexponent =>
      simp only [List.append_assoc, scalar_number hwhole,
        number_eq_nat_iff hwhole hfraction hexponent hrest]
      constructor
      · rintro ⟨⟨rfl, rfl, rfl, hvalue⟩, hr⟩
        exact ⟨⟨whole, rfl, hvalue⟩, hr⟩
      · rintro ⟨⟨whole, heq, hvalue⟩, hr⟩
        cases heq
        exact ⟨⟨rfl, rfl, rfl, hvalue⟩, hr⟩
    | list _ _ => exact absurd rfl hnested
    | object _ _ => exact absurd rfl hnested

theorem value_eq_str_iff {depth : Nat} {s : String} {r : List Char} :
    value (depth + 1) (gap ++ (txt ++ rest)) = .ok (.str s, r) ↔ Meaning.text t s ∧ r = rest := by
  by_cases hnested : t.isNested = true
  · constructor
    · intro hread
      rcases value_of_nested h hgap hnested hread with ⟨vs, hv⟩ | ⟨ms, hv⟩ <;> cases hv
    · rintro ⟨⟨body, rfl, -⟩, -⟩
      cases hnested
  · rw [value_of_scalar h hgap (Bool.eq_false_iff.mpr hnested)]
    cases h with
    | null => simp [scalar, literal, Except.map, Meaning.text]
    | bool b => cases b <;> simp [scalar, literal, Except.map, Meaning.text]
    | str hbody =>
      have hstring := @string_eq_ok_iff _ hbody rest r s
      simp only [Meaning.text, Tree.str.injEq, exists_eq_left', ← hstring, List.cons_append,
        List.append_assoc, List.nil_append, scalar_string]
      cases string _ <;> simp [Except.map, Prod.ext_iff]
    | number _ hwhole hfraction hexponent =>
      simp only [List.append_assoc, scalar_number hwhole,
        number_ne_str hwhole hfraction hexponent hrest, Meaning.text, reduceCtorEq, false_and,
        exists_const]
    | list _ _ => exact absurd rfl hnested
    | object _ _ => exact absurd rfl hnested

end Value

namespace Source

/-- The source reads from each text of a tree what the tree means, no more and no less. -/
def Follows {α : Type} (depth : Nat) (source : Source α) (meaning : Meaning α) : Prop :=
  ∀ ⦃t text⦄, Written t text → ∀ ⦃gap⦄, Blank gap → ∀ ⦃rest⦄, EndsNumber rest →
    Yields (source depth (gap ++ (text ++ rest))) (meaning t) rest

theorem follows_text (depth : Nat) : Follows depth text Meaning.text := by
  intro t txt h gap hgap rest _
  obtain ⟨c, s, rfl, hopens, hblank⟩ := h.opens
  rw [text, List.cons_append, skipBlank_blank_cons hgap hblank]
  by_cases hc : c = '"'
  · subst hc
    obtain ⟨body, rfl⟩ := Tree.eq_str_of_opens hopens
    cases h with
    | str hbody =>
      intro a r
      simp only [↓reduceIte, List.append_assoc, List.singleton_append, string_eq_ok_iff hbody]
      simp [Meaning.text]
  · simp only [if_neg hc]
    refine yields_error ?_
    rintro a ⟨body, rfl, -⟩
    exact hc hopens

theorem follows_flag (depth : Nat) : Follows depth flag Meaning.flag := by
  intro t txt h gap hgap rest _
  obtain ⟨c, s, rfl, hopens, hblank⟩ := h.opens
  rw [flag, List.cons_append, skipBlank_blank_cons hgap hblank]
  by_cases hc : c = 't' ∨ c = 'f'
  · obtain ⟨b, rfl⟩ := Tree.eq_bool_of_opens hc hopens
    generalize htext : c :: s = txt at h
    cases h with
    | bool b =>
      cases b <;>
      · obtain ⟨rfl, rfl⟩ := List.cons.inj htext
        exact yields_ok (by simp [Meaning.flag])
  · obtain ⟨ht, hf⟩ := not_or.mp hc
    simp only [if_neg ht, if_neg hf]
    refine yields_error ?_
    rintro (_ | _) rfl
    · exact hf hopens
    · exact ht hopens

theorem follows_optionalText (depth : Nat) : Follows depth optionalText Meaning.optionalText := by
  intro t txt h gap hgap rest hrest
  have htext := follows_text depth h blank_nil hrest
  obtain ⟨c, s, rfl, hopens, hblank⟩ := h.opens
  rw [optionalText, List.cons_append, skipBlank_blank_cons hgap hblank]
  by_cases hc : c = 'n'
  · subst hc
    obtain rfl := Tree.eq_null_of_opens hopens
    cases h with
    | null =>
      refine yields_ok ?_
      rintro (_ | a) <;> simp [Meaning.optionalText, Meaning.text]
  · split
    next heq => exact absurd (List.cons.inj heq).1 hc
    next =>
      refine (htext.map (f := some)).congr ?_
      rintro (_ | a)
      · simp only [reduceCtorEq, and_false, exists_false, Meaning.optionalText, false_iff]
        rintro rfl
        exact hc hopens
      · simp [Meaning.optionalText]

section Parts

variable {α β σ : Type} {depth : Nat}

theorem yields_judge {r : Read α} {P : α → Prop} {rest : List Char} (h : Yields r P rest)
    (check : α → Except Mismatch β) :
    Yields (judge .loose check r) (fun b => ∃ a, P a ∧ check a = .ok b) rest := by
  intro b s
  rw [judge_eq_ok_iff]
  constructor
  · rintro ⟨a, hread, hcheck⟩
    obtain ⟨ha, rfl⟩ := (h a s).mp hread
    exact ⟨⟨a, ha, hcheck⟩, rfl⟩
  · rintro ⟨⟨a, ha, hcheck⟩, rfl⟩
    exact ⟨a, (h a s).mpr ⟨ha, rfl⟩, hcheck⟩

theorem Follows.refine {source : Source α} {meaning : Meaning α} (h : Follows depth source meaning)
    (check : α → Except Mismatch β) :
    Follows depth (Format.refine source check) (Format.refine meaning check) :=
  fun _ _ htext _ hgap _ hrest => yields_judge (h htext hgap hrest) check

theorem number_eq_integer_iff {s r : List Char} {n : UInt64} :
    number depth s = .ok (.integer n, r) ↔ ∃ m, value depth s = .ok (.nat m, r) ∧ .ofNat m = n := by
  unfold number
  split <;> simp_all [and_comm]

theorem number_eq_text_iff {s r : List Char} {t : String} :
    number depth s = .ok (.text t, r) ↔ value depth s = .ok (.str t, r) := by
  unfold number
  split <;> simp_all

/-- Integers and texts are read as what they mean. Whatever else is read, if it can be read at all,
is no number. -/
theorem number_eq_ok_iff {t : Tree} {txt gap rest : List Char} (h : Written t txt)
    (hgap : Blank gap) (hrest : EndsNumber rest) {raw : RawNumber} (hraw : raw ≠ .other)
    {r : List Char} :
    number (depth + 1) (gap ++ (txt ++ rest)) = .ok (raw, r) ↔ Meaning.number t raw ∧ r = rest := by
  cases raw with
  | other => exact absurd rfl hraw
  | text s => rw [number_eq_text_iff, value_eq_str_iff h hgap hrest, Meaning.number]
  | integer n =>
    simp only [number_eq_integer_iff, value_eq_nat_iff h hgap hrest, Meaning.number]
    constructor
    · rintro ⟨m, ⟨⟨whole, ht, hvalue, hm⟩, hr⟩, rfl⟩
      exact ⟨⟨whole, ht, by rw [hvalue, UInt64.toNat_ofNat_of_lt' hm]⟩, hr⟩
    · rintro ⟨⟨whole, ht, hvalue⟩, hr⟩
      exact ⟨n.toNat, ⟨⟨whole, ht, hvalue, n.toNat_lt_size⟩, hr⟩, UInt64.ofNat_toNat⟩

theorem follows_numberValue (depth : Nat) :
    Follows (depth + 1) (numberValue : Source UInt64) (numberValue : Meaning UInt64) := by
  intro t txt h gap hgap rest hrest n r
  have hnumber {raw : RawNumber} (hvalue : raw.value = .ok n) :=
    @number_eq_ok_iff depth t txt gap rest h hgap hrest raw (by rintro rfl; cases hvalue) r
  change judge .loose RawNumber.value (number (depth + 1) _) = _ ↔
    (∃ raw, Meaning.number t raw ∧ raw.value = .ok n) ∧ r = rest
  rw [judge_eq_ok_iff]
  constructor
  · rintro ⟨raw, hread, hvalue⟩
    obtain ⟨hmeans, hr⟩ := (hnumber hvalue).mp hread
    exact ⟨⟨raw, hmeans, hvalue⟩, hr⟩
  · rintro ⟨⟨raw, hmeans, hvalue⟩, hr⟩
    exact ⟨raw, (hnumber hvalue).mpr ⟨hmeans, hr⟩, hvalue⟩

theorem follows_wordValue (depth : Nat) :
    Follows (depth + 1) (wordValue : Source UInt32) (wordValue : Meaning UInt32) :=
  (follows_numberValue depth).refine RawNumber.word

theorem yields_finishList {r : Read α} {P : α → Prop} {close rest : List Char}
    (h : Yields r P (close ++ ']' :: rest)) (hclose : Blank close) :
    Yields (finishList r) P rest := by
  rcases h.cases with ⟨f, rfl, hnone⟩ | ⟨a, rfl, hone⟩
  · cases f <;> exact yields_error hnone
  · simp only [Source.finishList, closeList_blank hclose]
    exact yields_ok hone

theorem yields_finishObject {r : Read α} {P : α → Prop} {close rest : List Char}
    (h : Yields r P (close ++ '}' :: rest)) (hclose : Blank close) :
    Yields (finishObject r) P rest := by
  rcases h.cases with ⟨f, rfl, hnone⟩ | ⟨a, rfl, hone⟩
  · cases f <;> exact yields_error hnone
  · simp only [Source.finishObject, closeObject_blank hclose]
    exact yields_ok hone

theorem nextItem?_blank {lead : List Char} (hlead : Blank lead) (first : Bool) (s : List Char) :
    nextItem? first (lead ++ s) = nextItem? first s := by
  simp only [nextItem?, skipBlank_append hlead]

theorem nextItem?_parts {lead gap txt : List Char} (hlead : Blank lead) (hgap : Blank gap)
    (hstarts : Starts txt) (first : Bool) (s : List Char) :
    nextItem? first (lead ++ (comma first ++ (gap ++ (txt ++ s)))) = .ok (some (txt ++ s)) := by
  obtain ⟨c, t, rfl, hc, hend⟩ := hstarts
  rw [nextItem?_blank hlead, List.cons_append, nextItem?_comma hgap hc hend]

theorem yields_items {item : List Char → Read α} {meaning : Meaning α}
    (hitem : ∀ {t txt}, Written t txt → ∀ {rest}, EndsNumber rest →
      Yields (item (txt ++ rest)) (meaning t) rest)
    {first : Bool} {ts : List Tree} {body close clock : List Char} (h : Parts Written first ts body)
    (hclose : Blank close) (hclock : ts.length < clock.length) (rest : List Char) :
    Yields (items item clock first (body ++ (close ++ ']' :: rest))) (List.Forall₂ meaning ts)
      (close ++ ']' :: rest) := by
  induction h generalizing clock with
  | nil first =>
    cases clock with
    | nil => cases hclock
    | cons _ clock =>
      simp only [List.nil_append, items, nextItem?_close hclose]
      exact yields_ok (by simp)
  | @cons first t ts lead gap txt body hlead hgap htext hrest ih =>
    cases clock with
    | nil => cases hclock
    | cons _ clock =>
      have hends := hrest.endsNumber hclose (s := ']' :: rest) (by rintro c ⟨⟩; decide)
      simp only [List.append_assoc, items, nextItem?_parts hlead hgap htext.starts]
      rcases (hitem htext hends).cases with ⟨f, hread, hnone⟩ | ⟨a, hread, hone⟩
      · simp only [hread]
        exact yields_error (by simp [List.forall₂_cons_left_iff, hnone])
      · have hyields := ih (Nat.lt_of_succ_lt_succ hclock)
        rcases hyields.cases with ⟨f, hnext, hnone⟩ | ⟨as, hnext, hones⟩
        · simp only [hread, hnext]
          exact yields_error (by simp [List.forall₂_cons_left_iff, hnone])
        · simp only [hread, hnext]
          exact yields_ok (by simp [List.forall₂_cons_left_iff, hone, hones])

theorem Follows.list {item : Source α} {meaning : Meaning α}
    (h : Follows (depth + 1) item meaning) :
    Follows (depth + 2) (list item) (Meaning.list meaning) := by
  intro t txt htext gap hgap rest hrest
  obtain ⟨c, s, rfl, hopens, hblank⟩ := htext.opens
  rw [Source.list, List.cons_append, skipBlank_blank_cons hgap hblank]
  by_cases hc : c = '['
  · subst hc
    obtain ⟨ts, rfl⟩ := Tree.eq_list_of_opens hopens
    cases htext with
    | @list _ body close hitems hclose =>
      have hcount := hitems.length_le fun h => h.starts.length_pos
      have hclock : ts.length < ('[' :: (body ++ (close ++ ']' :: rest))).length := by
        simp only [List.length_cons, List.length_append]
        omega
      have hyields := yields_items (fun hw _ hr => h hw blank_nil hr) hitems hclose hclock rest
      simp only [List.append_assoc, List.singleton_append, ↓reduceIte,
        if_neg (show ¬ depth + 2 ≤ 1 by omega), Nat.add_one_sub_one]
      exact (yields_finishList hyields hclose).congr (by simp [Meaning.list])
  · simp only [if_neg hc]
    refine yields_error ?_
    rintro as ⟨ts, rfl, -⟩
    exact hc hopens

structure FieldFollows (depth : Nat) (f : Field Source σ) (g : Field Meaning σ) : Prop where
  name : f.name = g.name
  required : f.required = g.required
  isSet : f.isSet = g.isSet
  read : Follows depth f.read g.read

theorem Follows.field {source : Source α} {meaning : Meaning α} (h : Follows depth source meaning)
    (name : String) (required : Bool) (isSet : σ → Bool) (put : α → σ → σ) :
    FieldFollows depth (Field.of name required source isSet put)
      (Field.of name required meaning isSet put) :=
  ⟨rfl, rfl, rfl, h.refine _⟩

section Record

variable {fields : List (Field Source σ)} {meanings : List (Field Meaning σ)}

theorem find?_fieldFollows (h : List.Forall₂ (FieldFollows depth) fields meanings) (key : String) :
    (fields.find? (·.name == key) = none ∧ meanings.find? (·.name == key) = none) ∨
      ∃ f g, fields.find? (·.name == key) = some f ∧ meanings.find? (·.name == key) = some g ∧
        FieldFollows depth f g := by
  induction h with
  | nil => exact .inl ⟨rfl, rfl⟩
  | @cons f g fs gs hfield _ ih =>
    simp only [List.find?_cons, hfield.name]
    cases g.name == key with
    | true => exact .inr ⟨f, g, rfl, rfl, hfield⟩
    | false => exact ih

theorem yields_string {body : List Char} (hbody : Body body) (rest : List Char) :
    Yields (string (body ++ '"' :: rest)) (fun s => Spells body s.toList) rest :=
  fun _ _ => string_eq_ok_iff hbody

theorem nextKey?_parts {lead gap : List Char} (hlead : Blank lead) (hgap : Blank gap)
    (first : Bool) (s : List Char) :
    nextKey? first (lead ++ (comma first ++ (gap ++ '"' :: s))) = (string s).map some := by
  have hskip := skipBlank_blank_cons hgap (show isBlank '"' = false by decide) s
  cases first with
  | true =>
    simp only [nextKey?, skipBlank_append hlead, comma, ↓reduceIte, List.nil_append, hskip,
      Char.reduceEq]
    cases string s <;> rfl
  | false =>
    have hcomma := skipBlank_cons (show isBlank ',' = false by decide) (gap ++ '"' :: s)
    simp only [nextKey?, skipBlank_append hlead, comma, Bool.false_eq_true, ↓reduceIte,
      List.singleton_append, hcomma, hskip, Char.reduceEq]
    cases string s <;> rfl

theorem keyed_cons_iff {key : List Char} {t : Tree} {raw : List (List Char × Tree)}
    {ms : List (String × Tree)} : Keyed ((key, t) :: raw) ms ↔
      ∃ s ms', Spells key s.toList ∧ Keyed raw ms' ∧ ms = (s, t) :: ms' := by
  rw [Keyed, List.forall₂_cons_left_iff]
  constructor
  · rintro ⟨⟨s, t'⟩, ms', ⟨hspells, rfl⟩, hraw, rfl⟩
    exact ⟨s, ms', hspells, hraw, rfl⟩
  · rintro ⟨s, ms', hspells, hraw, rfl⟩
    exact ⟨(s, t), ms', ⟨hspells, rfl⟩, hraw, rfl⟩

/-- One member is read into the draft that the members after it start from. -/
theorem yields_named_cons (hfields : List.Forall₂ (FieldFollows depth) fields meanings)
    {first : Bool} {c : Char} {clock start before after txt s rest : List Char} {key : String}
    {t : Tree}
    (hkey : nextKey? first start = .ok (some (key, before ++ ':' :: (after ++ (txt ++ s)))))
    (hbefore : Blank before) (hafter : Blank after) (htext : Written t txt) (hs : EndsNumber s)
    {P : σ → σ → Prop}
    (hnext : ∀ draft, Yields (named fields depth clock false draft s) (P draft) rest) (draft : σ) :
    Yields (named fields depth (c :: clock) first draft start)
      (fun d => match meanings.find? (·.name == key) with
        | none => P draft d
        | some g => g.isSet draft = false ∧ ∃ put, g.read t put ∧ P (put draft) d) rest := by
  simp only [named, hkey, colon_blank hbefore]
  rcases find?_fieldFollows hfields key with ⟨hf, hg⟩ | ⟨f, g, hf, hg, hfollows⟩
  · have hclock : txt.length ≤ (after ++ (txt ++ s)).length := by
      simp only [List.length_append]
      omega
    simp only [hf, hg, skip_of_written htext hclock hafter hs]
    exact hnext draft
  · simp only [hf, hg, ← hfollows.isSet]
    cases f.isSet draft with
    | true => exact yields_error (by simp)
    | false =>
      simp only [Bool.false_eq_true, ↓reduceIte]
      rcases (hfollows.read htext hafter hs).cases with ⟨e, hread, hnone⟩ | ⟨put, hread, hone⟩
      · simp only [hread]
        exact yields_error (by simp [hnone])
      · simp only [hread]
        exact (hnext (put draft)).congr (by simp [hone])

theorem exists_fills_cons {key : List Char} {k : String}
    (hone : ∀ s : String, Spells key s.toList ↔ s = k) {t : Tree} {raw : List (List Char × Tree)}
    {draft d : σ} :
    (∃ ms, Keyed ((key, t) :: raw) ms ∧ Meaning.Fills meanings draft ms d) ↔
      match meanings.find? (·.name == k) with
      | none => ∃ ms, Keyed raw ms ∧ Meaning.Fills meanings draft ms d
      | some g => g.isSet draft = false ∧ ∃ put, g.read t put ∧
          ∃ ms, Keyed raw ms ∧ Meaning.Fills meanings (put draft) ms d := by
  simp only [keyed_cons_iff, hone]
  cases hfind : meanings.find? (·.name == k) with
  | none => simp [Meaning.Fills, hfind]
  | some g =>
    constructor
    · rintro ⟨_, ⟨s, ms, rfl, hkeys, rfl⟩, hfills⟩
      simp only [Meaning.Fills, hfind] at hfills
      obtain ⟨hset, put, hread, hfills⟩ := hfills
      exact ⟨hset, put, hread, ms, hkeys, hfills⟩
    · rintro ⟨hset, put, hread, ms, hkeys, hfills⟩
      refine ⟨(k, t) :: ms, ⟨k, ms, rfl, hkeys, rfl⟩, ?_⟩
      simp only [Meaning.Fills, hfind]
      exact ⟨hset, put, hread, hfills⟩

theorem yields_named (hfields : List.Forall₂ (FieldFollows depth) fields meanings) {first : Bool}
    {raw : List (List Char × Tree)} {body close clock : List Char}
    (h : Parts (MemberText Written) first raw body) (hclose : Blank close)
    (hclock : raw.length < clock.length) (draft : σ) (rest : List Char) :
    Yields (named fields depth clock first draft (body ++ (close ++ '}' :: rest)))
      (fun d => ∃ ms, Keyed raw ms ∧ Meaning.Fills meanings draft ms d) (close ++ '}' :: rest) := by
  induction h generalizing clock draft with
  | nil first =>
    cases clock with
    | nil => cases hclock
    | cons _ clock =>
      simp only [List.nil_append, named, nextKey?_close hclose]
      exact yields_ok (by simp [Keyed, Meaning.Fills])
  | @cons first m raw lead gap txt body hlead hgap htext hrest ih =>
    cases clock with
    | nil => cases hclock
    | cons _ clock =>
      obtain @⟨key, before, after, txt, t, hkey, hbefore, hafter, htext⟩ := htext
      have hends := hrest.endsNumber hclose (s := '}' :: rest) (by rintro c ⟨⟩; decide)
      have hnext := nextKey?_parts hlead hgap first (key ++ '"' :: (before ++ ':' :: (after ++
        (txt ++ (body ++ (close ++ '}' :: rest))))))
      simp only [List.append_assoc, List.cons_append]
      rcases (yields_string hkey _).cases with ⟨f, hread, hnone⟩ | ⟨k, hread, hone⟩
      · rw [hread] at hnext
        simp only [named, hnext, Except.map]
        refine yields_error ?_
        rintro d ⟨ms, hkeys, -⟩
        obtain ⟨s, -, hspells, -⟩ := keyed_cons_iff.mp hkeys
        exact hnone s hspells
      · rw [hread] at hnext
        refine (yields_named_cons hfields hnext hbefore hafter htext hends
          (ih (Nat.lt_of_succ_lt_succ hclock)) draft).congr fun d => ?_
        exact (exists_fills_cons hone).symm

theorem finishList_eq_ok_iff {r : Read α} {a : α} {s : List Char} :
    finishList r = .ok (a, s) ↔ ∃ s', r = .ok (a, s') ∧ closeList s' = .ok s := by
  cases r with
  | error f => cases f <;> simp [finishList]
  | ok p =>
    obtain ⟨v, s'⟩ := p
    simp only [finishList, Except.ok.injEq, Prod.mk.injEq, and_assoc, exists_and_left,
      exists_eq_left']
    cases closeList s' <;> simp [Except.map]

theorem closeList_parts {lead gap txt : List Char} (hlead : Blank lead) (hgap : Blank gap)
    (hstarts : Starts txt) (first : Bool) (s r : List Char) :
    closeList (lead ++ (comma first ++ (gap ++ (txt ++ s)))) ≠ .ok r := by
  obtain ⟨c, t, rfl, hc, hend⟩ := hstarts
  cases first with
  | true =>
    simp only [closeList, skipBlank_append hlead, comma, ↓reduceIte, List.nil_append,
      List.cons_append, skipBlank_blank_cons hgap hc, if_neg hend]
    split
    · split <;> simp
    · simp
  | false =>
    simp only [closeList, skipBlank_append hlead, comma, Bool.false_eq_true, ↓reduceIte,
      List.cons_append, List.nil_append, skipBlank_cons (show isBlank ',' = false by decide),
      Char.reduceEq, skipBlank_blank_cons hgap hc]
    split <;> simp

/-- Values that are left over keep the list from being closed. -/
theorem positional_close_iff (missing : Nat → Mismatch) (index : Nat)
    (hfields : List.Forall₂ (FieldFollows depth) fields meanings) {ts : List Tree}
    {body close : List Char} (h : Parts Written (index == 0) ts body) (hclose : Blank close)
    {draft d : σ} {rest r : List Char} :
    (∃ s, positional missing depth fields index draft (body ++ (close ++ ']' :: rest)) =
      .ok (d, s) ∧ closeList s = .ok r) ↔ Meaning.FillsInOrder meanings draft ts d ∧ r = rest := by
  induction hfields generalizing index ts body draft with
  | nil =>
    simp only [positional, Except.ok.injEq, Prod.mk.injEq]
    cases h with
    | nil =>
      simp [closeList_blank hclose, Meaning.FillsInOrder, eq_comm]
    | cons hlead hgap htext _ =>
      simp only [List.append_assoc, Meaning.FillsInOrder, reduceCtorEq, false_and, iff_false]
      rintro ⟨s, ⟨-, rfl⟩, hok⟩
      exact closeList_parts hlead hgap htext.starts _ _ _ hok
  | @cons f g fs gs hfield _ ih =>
    cases h with
    | nil =>
      have hnext := @ih (index + 1) [] [] (.nil false) draft
      rw [List.nil_append] at hnext ⊢
      simp only [positional, nextItem?_close hclose, Meaning.FillsInOrder, ← hfield.required]
      cases f.required with
      | true => simp
      | false => simpa using hnext
    | @cons _ t ts lead gap txt body hlead hgap htext hrest =>
      have hends := hrest.endsNumber hclose (s := ']' :: rest) (by rintro c ⟨⟩; decide)
      have hnext (draft : σ) := @ih (index + 1) ts body hrest draft
      simp only [List.append_assoc, positional, nextItem?_parts hlead hgap htext.starts,
        Meaning.FillsInOrder]
      have hread := hfield.read htext blank_nil hends
      rw [List.nil_append] at hread
      rcases hread.cases with ⟨e, hput, hnone⟩ | ⟨put, hput, hone⟩
      · simp [hput, hnone]
      · simp only [hput, hnext, hone, exists_eq_left]

end Record

section Record

variable {r : Record Source σ α} {g : Record Meaning σ α}
  (hfields : List.Forall₂ (FieldFollows depth) r.fields g.fields)
  (hstart : r.start = g.start) (hfinish : r.finish = g.finish)
include hfields hstart hfinish

theorem yields_recordList (missing : Nat → Mismatch) {ts : List Tree} {body close : List Char}
    (hitems : Parts Written true ts body) (hclose : Blank close) (rest : List Char) :
    Yields (finishList (judge .loose r.finish
      (positional missing depth r.fields 0 r.start (body ++ (close ++ ']' :: rest)))))
      (Meaning.record g (.list ts)) rest := by
  intro a s
  have hiff (d : σ) : _ ↔ Meaning.FillsInOrder g.fields r.start ts d ∧ s = rest :=
    positional_close_iff missing 0 hfields hitems hclose
  simp only [finishList_eq_ok_iff, judge_eq_ok_iff, Meaning.record, ← hstart, ← hfinish]
  constructor
  · rintro ⟨s', ⟨d, hread, hd⟩, hok⟩
    obtain ⟨hfills, hs⟩ := (hiff d).mp ⟨s', hread, hok⟩
    exact ⟨⟨d, hfills, hd⟩, hs⟩
  · rintro ⟨⟨d, hfills, hd⟩, hs⟩
    obtain ⟨s', hread, hok⟩ := (hiff d).mpr ⟨hfills, hs⟩
    exact ⟨s', ⟨d, hread, hd⟩, hok⟩

theorem yields_recordObject {raw : List (List Char × Tree)} {body close clock : List Char}
    (hmembers : Parts (MemberText Written) true raw body) (hclose : Blank close)
    (hclock : raw.length < clock.length) (rest : List Char) :
    Yields (finishObject (judge .loose r.finish
      (named r.fields depth clock true r.start (body ++ (close ++ '}' :: rest)))))
      (Meaning.record g (.object raw)) rest := by
  have hyields := yields_named hfields hmembers hclose hclock r.start rest
  refine (yields_finishObject (yields_judge hyields r.finish) hclose).congr fun a => ?_
  simp only [Meaning.record, hstart, hfinish]
  constructor
  · rintro ⟨d, ⟨ms, hkeys, hfills⟩, hd⟩
    exact ⟨ms, hkeys, d, hfills, hd⟩
  · rintro ⟨ms, hkeys, d, hfills, hd⟩
    exact ⟨d, ⟨ms, hkeys, hfills⟩, hd⟩

end Record

theorem Follows.record {r : Record Source σ α} {g : Record Meaning σ α}
    (hfields : List.Forall₂ (FieldFollows (depth + 1)) r.fields g.fields)
    (hstart : r.start = g.start) (hfinish : r.finish = g.finish) :
    Follows (depth + 2) (record r) (Meaning.record g) := by
  intro t txt htext gap hgap rest hrest
  obtain ⟨c, s, rfl, hopens, hblank⟩ := htext.opens
  rw [Source.record, List.cons_append, skipBlank_blank_cons hgap hblank]
  by_cases hlist : c = '['
  · subst hlist
    obtain ⟨ts, rfl⟩ := Tree.eq_list_of_opens hopens
    cases htext with
    | list hitems hclose =>
      simp only [List.append_assoc, List.singleton_append, ↓reduceIte,
        if_neg (show ¬ depth + 2 ≤ 1 by omega), Nat.add_one_sub_one]
      exact yields_recordList hfields hstart hfinish _ hitems hclose rest
  · by_cases hobject : c = '{'
    · subst hobject
      obtain ⟨raw, rfl⟩ := Tree.eq_object_of_opens hopens
      cases htext with
      | object hmembers hclose =>
        have hcount := hmembers.length_le fun h => h.length_pos
        simp only [List.append_assoc, List.singleton_append, Char.reduceEq, ↓reduceIte,
          if_neg (show ¬ depth + 2 ≤ 1 by omega), Nat.add_one_sub_one]
        refine yields_recordObject hfields hstart hfinish hmembers hclose ?_ rest
        simp only [List.length_cons, List.length_append]
        omega
    · simp only [if_neg hlist, if_neg hobject]
      refine yields_error ?_
      intro a ha
      cases t <;> simp_all [Meaning.record, Tree.Opens]

end Parts

theorem Follows.run_eq_ok_iff {α : Type} {source : Source α} {meaning : Meaning α}
    (h : Follows maxDepth source meaning) {t : Tree} {text : String} (htext : Document t text)
    {a : α} : run source text = .ok a ↔ meaning t a := by
  obtain ⟨front, body, back, hfront, hbody, hback, htext⟩ := htext
  have hends : EndsNumber back := by
    simpa using endsNumber_blank_append hback (s := []) (by rintro c ⟨⟩)
  have hskip : skipBlank back = [] := by
    have hblank := skipBlank_append hback []
    rwa [List.append_nil] at hblank
  rcases (h hbody hfront hends).cases with ⟨f, hread, hnone⟩ | ⟨b, hread, hone⟩
  · simp [run, htext, hread, finish, hnone]
  · simp [run, htext, hread, finish, hskip, hone, eq_comm]

end Source

end IndirectBranch.Json
