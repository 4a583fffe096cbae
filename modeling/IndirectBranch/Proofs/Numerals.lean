import Mathlib.Data.List.TakeWhile
import Mathlib.Data.Nat.Digits.Defs
import IndirectBranch.Proofs.JsonMeaning
import IndirectBranch.Proofs.PolicyJson

/-! The grammar of numbers that policies give as text. Blanks around the text and separators in it
do not count; what is left are decimal digits, or hexadecimal ones after their mark, with at most
one plus sign in front. Reading accepts just that, up to 64 bits, and up to 32 where an instruction
word is wanted, in either format. -/
namespace IndirectBranch

namespace Text

/-- The core of a text has no blank at either end, and there are only blanks around it. -/
def Trimmed (cs core : List Char) : Prop :=
  ∃ before after, cs = before ++ (core ++ after) ∧ (∀ c ∈ before, isBlank c = true) ∧
    (∀ c ∈ after, isBlank c = true) ∧ (∀ c ∈ core.head?, isBlank c = false) ∧
    ∀ c ∈ core.getLast?, isBlank c = false

theorem trimLeft_append {before : List Char} (h : ∀ c ∈ before, isBlank c = true)
    (cs : List Char) : trimLeft (before ++ cs) = trimLeft cs :=
  List.dropWhile_append_of_pos h

theorem trimLeft_of_head? {cs : List Char} (h : ∀ c ∈ cs.head?, isBlank c = false) :
    trimLeft cs = cs := by
  cases cs with
  | nil => rfl
  | cons c cs =>
    have hc := h c rfl
    simp [trimLeft, hc]

theorem head?_trimLeft (cs : List Char) : ∀ c ∈ (trimLeft cs).head?, isBlank c = false := by
  intro c hc
  have hnot := List.head?_dropWhile_not isBlank cs
  rw [trimLeft] at hc
  rw [Option.mem_def.mp hc] at hnot
  simpa using hnot

theorem exists_trimLeft (cs : List Char) :
    ∃ before, cs = before ++ trimLeft cs ∧ ∀ c ∈ before, isBlank c = true :=
  ⟨cs.takeWhile isBlank, (List.takeWhile_append_dropWhile ..).symm,
    fun _ hc => List.mem_takeWhile_imp hc⟩

theorem trimmed_iff {cs core : List Char} : Trimmed cs core ↔ trim cs = core := by
  constructor
  · rintro ⟨before, after, rfl, hbefore, hafter, hhead, hlast⟩
    have hreverse : ∀ c ∈ after.reverse, isBlank c = true := by simpa using hafter
    rw [trim, trimLeft_append hbefore]
    cases core with
    | nil =>
      have hempty : trimLeft after = [] := by
        simpa [trimLeft] using trimLeft_append hafter []
      rw [List.nil_append, hempty]
      rfl
    | cons c core =>
      have hleft : trimLeft (c :: core ++ after) = c :: core ++ after := trimLeft_of_head? hhead
      have hright : trimLeft (c :: core).reverse = (c :: core).reverse :=
        trimLeft_of_head? (by rwa [List.head?_reverse])
      rw [hleft, List.reverse_append, trimLeft_append hreverse, hright, List.reverse_reverse]
  · rintro rfl
    obtain ⟨before, hbefore, hblank⟩ := exists_trimLeft cs
    obtain ⟨after, hafter, hblank'⟩ := exists_trimLeft (trimLeft cs).reverse
    have hleft : trimLeft cs = trim cs ++ after.reverse := by
      rw [trim, ← List.reverse_append, ← hafter, List.reverse_reverse]
    refine ⟨before, after.reverse, ?_, hblank, by simpa using hblank', ?_, ?_⟩
    · rw [← hleft]
      exact hbefore
    · intro c hc
      refine head?_trimLeft cs c ?_
      rw [hleft]
      exact List.mem_head?_append_of_mem_head? hc
    · intro c hc
      rw [trim, List.getLast?_reverse] at hc
      exact head?_trimLeft _ c hc

end Text

namespace Numeral

/-- Digits of the radix, one or more, and the number that they stand for. -/
def Positional (radix : Nat) (digits : List Char) (n : Nat) : Prop :=
  digits ≠ [] ∧ ∃ ds, List.Forall₂ (Text.IsDigit radix) digits ds ∧
    Nat.ofDigits radix ds.reverse = n

def IsSign (sign : List Char) : Prop := sign = [] ∨ sign = ['+']

/-- What a number may look like without blanks and separators. -/
inductive Denotes : List Char → Nat → Prop
  | decimal {sign digits : List Char} {n : Nat} (hsign : IsSign sign)
      (hdigits : Positional 10 digits n) : Denotes (sign ++ digits) n
  | hexadecimal {x : Char} {sign digits : List Char} {n : Nat} (hx : x = 'x' ∨ x = 'X')
      (hsign : IsSign sign) (hdigits : Positional 16 digits n) :
      Denotes ('0' :: x :: (sign ++ digits)) n

/-- The text gives the number: the blanks around it go first, and then the separators. -/
def Names (text : String) (n : Nat) : Prop :=
  ∃ core, Text.Trimmed text.toList core ∧ Denotes (core.filter (· ≠ '_')) n

theorem names_iff {text : String} {n : Nat} : Names text n ↔ Denotes (clean text) n := by
  simp only [Names, Text.trimmed_iff, exists_eq_left', clean]

theorem digitValue?_eq_some_iff {radix d : Nat} (hradix : radix ≤ 16) {c : Char} :
    digitValue? radix c = some d ↔ Text.IsDigit radix c d := by
  unfold digitValue?
  constructor
  · intro h
    split at h
    next hvalue =>
      split at h
      next hd =>
        cases h
        exact ⟨hd, (Text.hexValue?_eq_some_iff.mp hvalue).2⟩
      next => cases h
    next => cases h
  · rintro ⟨hd, hc⟩
    rw [Text.hexValue?_eq_some_iff.mpr ⟨Nat.lt_of_lt_of_le hd hradix, hc⟩]
    exact if_pos hd

/-- The number that digits give when they are read onto `start`. -/
def reading (radix start : Nat) (ds : List Nat) : Nat :=
  ds.foldl (fun value d => value * radix + d) start

theorem reading_zero (radix : Nat) (ds : List Nat) :
    reading radix 0 ds = Nat.ofDigits radix ds.reverse := by
  rw [Nat.ofDigits_eq_foldr, List.foldr_reverse, reading]
  congr 1
  funext value d
  simp [Nat.mul_comm, Nat.add_comm]

theorem le_reading {radix : Nat} (hradix : 0 < radix) (start : Nat) (ds : List Nat) :
    start ≤ reading radix start ds := by
  induction ds generalizing start with
  | nil => exact Nat.le_refl start
  | cons d ds ih =>
    have hstep : start ≤ start * radix + d :=
      Nat.le_add_right_of_le (Nat.le_mul_of_pos_right _ hradix)
    exact Nat.le_trans hstep (ih (start * radix + d))

/-- Reading stops at the first digit that takes the number beyond 64 bits, so it succeeds if the
whole number fits. -/
theorem digitsFrom_eq_ok_iff {radix : Nat} (hpos : 0 < radix) (hradix : radix ≤ 16)
    {start n : Nat} (hstart : start < UInt64.size) {cs : List Char} :
    digitsFrom radix start cs = .ok n ↔
      (∃ ds, List.Forall₂ (Text.IsDigit radix) cs ds ∧ reading radix start ds = n) ∧
        n < UInt64.size := by
  induction cs generalizing start with
  | nil =>
    simp only [digitsFrom, List.forall₂_nil_left_iff, exists_eq_left, reading, List.foldl_nil,
      Except.ok.injEq]
    constructor
    · rintro rfl
      exact ⟨rfl, hstart⟩
    · exact And.left
  | cons c cs ih =>
    rw [digitsFrom]
    cases hdigit : digitValue? radix c with
    | none =>
      simp only [reduceCtorEq, false_iff]
      rintro ⟨⟨ds, hds, -⟩, -⟩
      obtain ⟨d, ds', hd, -⟩ := List.forall₂_cons_left_iff.mp hds
      rw [(digitValue?_eq_some_iff hradix).mpr hd] at hdigit
      cases hdigit
    | some d =>
      have hcons (ds : List Nat) : List.Forall₂ (Text.IsDigit radix) (c :: cs) ds ↔
          ∃ ds', List.Forall₂ (Text.IsDigit radix) cs ds' ∧ ds = d :: ds' := by
        simp only [List.forall₂_cons_left_iff, ← digitValue?_eq_some_iff hradix, hdigit,
          Option.some.injEq, exists_and_left, exists_eq_left']
      have hreading : (∃ ds, List.Forall₂ (Text.IsDigit radix) (c :: cs) ds ∧
          reading radix start ds = n) ↔ ∃ ds, List.Forall₂ (Text.IsDigit radix) cs ds ∧
          reading radix (start * radix + d) ds = n := by
        constructor
        · rintro ⟨ds, hds, rfl⟩
          obtain ⟨ds', hds', rfl⟩ := (hcons ds).mp hds
          exact ⟨ds', hds', rfl⟩
        · rintro ⟨ds, hds, rfl⟩
          exact ⟨d :: ds, (hcons _).mpr ⟨ds, hds, rfl⟩, rfl⟩
      rw [hreading]
      dsimp only
      split
      next hfits => exact ih hfits
      next hlarge =>
        simp only [reduceCtorEq, false_iff]
        rintro ⟨⟨ds, -, rfl⟩, hn⟩
        exact hlarge (Nat.lt_of_le_of_lt (le_reading hpos _ ds) hn)

theorem digitsFrom_zero_eq_ok_iff {radix : Nat} (hpos : 0 < radix) (hradix : radix ≤ 16) {n : Nat}
    {cs : List Char} (hcs : cs ≠ []) :
    digitsFrom radix 0 cs = .ok n ↔ Positional radix cs n ∧ n < UInt64.size := by
  simp only [digitsFrom_eq_ok_iff hpos hradix (show 0 < UInt64.size by decide), reading_zero,
    Positional, hcs, ne_eq, not_false_eq_true, true_and]

theorem Positional.hexValue?_head {radix n : Nat} (hradix : radix ≤ 16) {c : Char} {cs : List Char}
    (h : Positional radix (c :: cs) n) : ∃ d, d < radix ∧ Text.hexValue? c = some d := by
  obtain ⟨-, ds, hds, -⟩ := h
  obtain ⟨d, -, hd, -⟩ := List.forall₂_cons_left_iff.mp hds
  exact ⟨d, hd.1, Text.hexValue?_eq_some_iff.mpr ⟨Nat.lt_of_lt_of_le hd.1 hradix, hd.2⟩⟩

theorem not_positional_plus {radix n : Nat} (hradix : radix ≤ 16) (cs : List Char) :
    ¬ Positional radix ('+' :: cs) n := by
  intro h
  obtain ⟨d, -, hd⟩ := h.hexValue?_head hradix
  cases hd

theorem unsigned_eq_ok_iff {radix : Nat} (hpos : 0 < radix) (hradix : radix ≤ 16) {n : Nat}
    {cs : List Char} : unsigned radix cs = .ok n ↔
      (∃ sign digits, cs = sign ++ digits ∧ IsSign sign ∧ Positional radix digits n) ∧
        n < UInt64.size := by
  unfold unsigned
  split
  · simp [Positional, IsSign]
  · simp only [reduceCtorEq, false_iff]
    rintro ⟨⟨sign, digits, heq, rfl | rfl, hdigits⟩, -⟩
    · rw [List.nil_append] at heq
      exact not_positional_plus hradix [] (heq ▸ hdigits)
    · exact hdigits.1 (List.cons.inj heq).2.symm
  next cs hcs =>
    rw [digitsFrom_zero_eq_ok_iff hpos hradix (by rintro rfl; exact hcs rfl)]
    constructor
    · rintro ⟨hdigits, hn⟩
      exact ⟨⟨['+'], cs, rfl, .inr rfl, hdigits⟩, hn⟩
    · rintro ⟨⟨sign, digits, heq, rfl | rfl, hdigits⟩, hn⟩
      · rw [List.nil_append] at heq
        exact absurd (heq ▸ hdigits) (not_positional_plus hradix cs)
      · exact ⟨(List.cons.inj heq).2 ▸ hdigits, hn⟩
  next hempty _ hplus =>
    rw [digitsFrom_zero_eq_ok_iff hpos hradix hempty]
    constructor
    · rintro ⟨hdigits, hn⟩
      exact ⟨⟨[], _, rfl, .inl rfl, hdigits⟩, hn⟩
    · rintro ⟨⟨sign, digits, rfl, rfl | rfl, hdigits⟩, hn⟩
      · exact ⟨hdigits, hn⟩
      · exact absurd rfl (hplus digits)

/-- The mark of hexadecimal numbers tells them from decimal ones. -/
theorem not_decimal {x : Char} (hx : x = 'x' ∨ x = 'X') {sign digits rest : List Char} {n : Nat}
    (hsign : IsSign sign) (hdigits : Positional 10 digits n) :
    '0' :: x :: rest ≠ sign ++ digits := by
  intro heq
  rcases hsign with rfl | rfl
  · rw [List.nil_append] at heq
    obtain ⟨-, ds, hds, -⟩ := heq ▸ hdigits
    obtain ⟨_, ds, -, hds, -⟩ := List.forall₂_cons_left_iff.mp hds
    obtain ⟨d, _, hd, -⟩ := List.forall₂_cons_left_iff.mp hds
    have hvalue := (digitValue?_eq_some_iff (by decide)).mpr hd
    rcases hx with rfl | rfl <;> cases hvalue
  · cases (List.cons.inj heq).1

/-- The sign is no digit, so digits with a sign in front stand for one number at most. -/
theorem Positional.unique {radix n m : Nat} (hradix : radix ≤ 16)
    {sign sign' digits digits' : List Char} (hsign : IsSign sign) (hsign' : IsSign sign')
    (heq : sign ++ digits = sign' ++ digits') (h : Positional radix digits n)
    (h' : Positional radix digits' m) : n = m := by
  obtain rfl : digits = digits' := by
    rcases hsign with rfl | rfl <;> rcases hsign' with rfl | rfl
    · exact heq
    · rw [List.nil_append] at heq
      exact absurd (heq ▸ h) (not_positional_plus hradix digits')
    · rw [List.nil_append] at heq
      exact absurd (heq ▸ h') (not_positional_plus hradix digits)
    · exact (List.cons.inj heq).2
  obtain ⟨-, ds, hds, rfl⟩ := h
  obtain ⟨-, ds', hds', rfl⟩ := h'
  rw [(Text.isDigit_rightUnique hradix).forall₂ hds hds']

/-- A text names one number at most, of whatever size. -/
theorem Names.unique {text : String} {n m : Nat} (h : Names text n) (h' : Names text m) :
    n = m := by
  rw [names_iff] at h h'
  generalize clean text = cs at h h'
  cases h with
  | @decimal sign digits _ hsign hdigits =>
    generalize htext : sign ++ digits = cs at h'
    cases h' with
    | decimal hsign' hdigits' => exact hdigits.unique (by decide) hsign hsign' htext hdigits'
    | hexadecimal hx _ _ => exact absurd htext.symm (not_decimal hx hsign hdigits)
  | @hexadecimal x sign digits _ hx hsign hdigits =>
    generalize htext : '0' :: x :: (sign ++ digits) = cs at h'
    cases h' with
    | decimal hsign' hdigits' => exact absurd htext (not_decimal hx hsign' hdigits')
    | hexadecimal _ hsign' hdigits' =>
      have hrest := (List.cons.inj (List.cons.inj htext).2).2
      exact hdigits.unique (by decide) hsign hsign' hrest hdigits'

theorem hexadecimal_eq_ok_iff {x : Char} (hx : x = 'x' ∨ x = 'X') {cs : List Char} {n : Nat} :
    unsigned 16 cs = .ok n ↔ Denotes ('0' :: x :: cs) n ∧ n < UInt64.size := by
  rw [unsigned_eq_ok_iff (by decide) (by decide)]
  constructor
  · rintro ⟨⟨sign, digits, rfl, hsign, hdigits⟩, hn⟩
    exact ⟨.hexadecimal hx hsign hdigits, hn⟩
  · rintro ⟨h, hn⟩
    generalize htext : '0' :: x :: cs = text at h
    cases h with
    | decimal hsign hdigits => exact absurd htext (not_decimal hx hsign hdigits)
    | hexadecimal _ hsign hdigits =>
      exact ⟨⟨_, _, (List.cons.inj (List.cons.inj htext).2).2, hsign, hdigits⟩, hn⟩

theorem decimal_eq_ok_iff {cs : List Char} (hx : ∀ rest, cs ≠ '0' :: 'x' :: rest)
    (hX : ∀ rest, cs ≠ '0' :: 'X' :: rest) {n : Nat} :
    unsigned 10 cs = .ok n ↔ Denotes cs n ∧ n < UInt64.size := by
  rw [unsigned_eq_ok_iff (by decide) (by decide)]
  constructor
  · rintro ⟨⟨sign, digits, rfl, hsign, hdigits⟩, hn⟩
    exact ⟨.decimal hsign hdigits, hn⟩
  · rintro ⟨h, hn⟩
    cases h with
    | decimal hsign hdigits => exact ⟨⟨_, _, rfl, hsign, hdigits⟩, hn⟩
    | hexadecimal hmark _ _ =>
      rcases hmark with rfl | rfl
      · exact absurd rfl (hx _)
      · exact absurd rfl (hX _)

theorem map_ofNat_eq_ok_iff {r : Except NumeralError Nat} {P : Nat → Prop}
    (h : ∀ m, r = .ok m ↔ P m ∧ m < UInt64.size) {n : UInt64} :
    r.map UInt64.ofNat = .ok n ↔ P n.toNat := by
  constructor
  · intro hmap
    cases r with
    | error e => cases hmap
    | ok m =>
      obtain ⟨hm, hsize⟩ := (h m).mp rfl
      cases hmap
      rwa [UInt64.toNat_ofNat_of_lt' hsize]
  · intro hn
    rw [(h n.toNat).mpr ⟨hn, n.toNat_lt_size⟩]
    exact congrArg Except.ok UInt64.ofNat_toNat

/-- A number is read from a text just if the text names it. -/
theorem parse_eq_ok_iff {text : String} {n : UInt64} : parse text = .ok n ↔ Names text n.toNat := by
  rw [names_iff]
  refine map_ofNat_eq_ok_iff fun m => ?_
  split
  next heq =>
    rw [heq]
    exact hexadecimal_eq_ok_iff (.inl rfl)
  next heq =>
    rw [heq]
    exact hexadecimal_eq_ok_iff (.inr rfl)
  next hx hX => exact decimal_eq_ok_iff hx hX

/-! Numbers as they are written. -/

def EitherCase (c lower : Char) : Prop := c = lower ∨ c = lower.toUpper

instance (c lower : Char) : Decidable (EitherCase c lower) :=
  inferInstanceAs (Decidable (_ ∨ _))

/-- A number in decimal, or in hexadecimal with each digit in either case, and with any number of
zeros in front. -/
inductive Plain (n : Nat) : List Char → Prop
  | decimal (zeros : Nat) : Plain n (List.replicate zeros '0' ++ Nat.toDigits 10 n)
  | hexadecimal (zeros : Nat) {x : Char} {digits : List Char} (hx : x = 'x' ∨ x = 'X')
      (hdigits : List.Forall₂ EitherCase digits (Nat.toDigits 16 n)) :
      Plain n ('0' :: x :: (List.replicate zeros '0' ++ digits))

/-- A number with separators anywhere in it and blanks around it. -/
def Writes (n : Nat) (text : String) : Prop :=
  ∃ before core after, text.toList = before ++ (core ++ after) ∧
    (∀ c ∈ before, Text.isBlank c = true) ∧ (∀ c ∈ after, Text.isBlank c = true) ∧
    Plain n (core.filter (· ≠ '_'))

theorem forall₂_isDigit {radix : Nat} {digits lower : List Char} {ds : List Nat}
    (hdigits : List.Forall₂ EitherCase digits lower)
    (hlower : List.Forall₂ (Text.IsLowerDigit radix) lower ds) :
    List.Forall₂ (Text.IsDigit radix) digits ds := by
  induction hdigits generalizing ds with
  | nil =>
    rw [List.forall₂_nil_left_iff.mp hlower]
    exact .nil
  | cons hc _ ih =>
    cases hlower with
    | cons hd hds =>
      obtain ⟨hlt, rfl⟩ := hd
      exact .cons ⟨hlt, hc⟩ (ih hds)

theorem positional_toDigits {radix : Nat} (hradix : 1 < radix) {n : Nat} {digits : List Char}
    (hdigits : List.Forall₂ EitherCase digits (Nat.toDigits radix n)) :
    Positional radix digits n := by
  obtain ⟨ds, hds, hvalue⟩ := Text.forall₂_toDigits hradix n
  refine ⟨?_, ds, forall₂_isDigit hdigits hds, hvalue⟩
  rintro rfl
  rw [List.forall₂_nil_left_iff, Nat.toDigits_eq_if hradix] at hdigits
  split at hdigits <;> simp at hdigits

theorem Positional.zeros {radix n : Nat} (hradix : 0 < radix) {digits : List Char}
    (h : Positional radix digits n) (zeros : Nat) :
    Positional radix (List.replicate zeros '0' ++ digits) n := by
  induction zeros with
  | zero => exact h
  | succ zeros ih =>
    obtain ⟨-, ds, hds, hvalue⟩ := ih
    refine ⟨by simp [List.replicate_succ], 0 :: ds, .cons ⟨hradix, .inl rfl⟩ hds, ?_⟩
    rw [List.reverse_cons, Nat.ofDigits_append_zero, hvalue]

theorem Plain.denotes {n : Nat} {text : List Char} (h : Plain n text) : Denotes text n := by
  cases h with
  | decimal zeros =>
    have hsame : List.Forall₂ EitherCase (Nat.toDigits 10 n) (Nat.toDigits 10 n) :=
      List.forall₂_same.mpr fun _ _ => .inl rfl
    exact @Denotes.decimal [] _ n (.inl rfl)
      ((positional_toDigits (by decide) hsame).zeros (by decide) zeros)
  | hexadecimal zeros hx hdigits =>
    exact @Denotes.hexadecimal _ [] _ n hx (.inl rfl)
      ((positional_toDigits (by decide) hdigits).zeros (by decide) zeros)

theorem isBlank_of_isDigit {radix d : Nat} (hradix : radix ≤ 16) {c : Char}
    (h : Text.IsDigit radix c d) : Text.isBlank c = false := by
  have hall : ∀ d : Fin 16, Text.isBlank (d : Nat).digitChar = false ∧
      Text.isBlank (d : Nat).digitChar.toUpper = false := by decide
  obtain ⟨hd, hc⟩ := h
  have hblank := hall ⟨d, Nat.lt_of_lt_of_le hd hradix⟩
  rcases hc with rfl | rfl
  · exact hblank.1
  · exact hblank.2

theorem Positional.isBlank_eq_false {radix n : Nat} (hradix : radix ≤ 16) {digits : List Char}
    (h : Positional radix digits n) : ∀ c ∈ digits, Text.isBlank c = false := by
  obtain ⟨-, ds, hds, -⟩ := h
  induction hds with
  | nil => exact List.forall_mem_nil _
  | cons hd _ ih => exact List.forall_mem_cons.mpr ⟨isBlank_of_isDigit hradix hd, ih⟩

theorem Denotes.isBlank_eq_false {text : List Char} {n : Nat} (h : Denotes text n) :
    ∀ c ∈ text, Text.isBlank c = false := by
  have hplus {sign : List Char} (hsign : IsSign sign) : ∀ c ∈ sign, Text.isBlank c = false := by
    rcases hsign with rfl | rfl
    · exact List.forall_mem_nil _
    · exact List.forall_mem_singleton.mpr (by decide)
  cases h with
  | decimal hsign hdigits =>
    exact List.forall_mem_append.mpr ⟨hplus hsign, hdigits.isBlank_eq_false (by decide)⟩
  | @hexadecimal x _ _ _ hx hsign hdigits =>
    have hmark : Text.isBlank x = false := by rcases hx with rfl | rfl <;> decide
    exact List.forall_mem_cons.mpr ⟨by decide, List.forall_mem_cons.mpr ⟨hmark,
      List.forall_mem_append.mpr ⟨hplus hsign, hdigits.isBlank_eq_false (by decide)⟩⟩⟩

/-- A number is named by each text that it is written as. -/
theorem Writes.names {n : Nat} {text : String} (h : Writes n text) : Names text n := by
  obtain ⟨before, core, after, htext, hbefore, hafter, hplain⟩ := h
  have hdenotes := hplain.denotes
  have hcore : ∀ c ∈ core, Text.isBlank c = false := by
    intro c hc
    by_cases hmark : c = '_'
    · subst hmark
      decide
    · exact hdenotes.isBlank_eq_false c (List.mem_filter.mpr ⟨hc, by simpa using hmark⟩)
  refine ⟨core, ⟨before, after, htext, hbefore, hafter, ?_, ?_⟩, hdenotes⟩
  · exact fun c hc => hcore c (List.mem_of_mem_head? hc)
  · exact fun c hc => hcore c (List.mem_of_mem_getLast? hc)

end Numeral

open Numeral

theorem RawNumber.value_text_eq_ok_iff {t : String} {n : UInt64} :
    RawNumber.value (.text t) = .ok n ↔ Names t n.toNat := by
  rw [← parse_eq_ok_iff, RawNumber.value]
  cases parse t <;> simp

theorem RawNumber.word_eq_ok_iff {n : UInt64} {w : UInt32} :
    RawNumber.word n = .ok w ↔ w.toNat = n.toNat := by
  unfold RawNumber.word
  split
  next hfits =>
    rw [Except.ok.injEq, ← UInt32.toNat_inj]
    simp [Nat.mod_eq_of_lt hfits, eq_comm]
  next hlarge =>
    simp only [reduceCtorEq, false_iff]
    have := w.toNat_lt_size
    omega

/-- How a reader takes the text `t` that it is given for a number, and for a word: for the number it
names and for nothing else. What is too large for a word is refused. -/
structure TakesText {ε σ : Type} (t : String) (number : Except ε (UInt64 × σ))
    (word : Except ε (UInt32 × σ)) (tooLarge : UInt64 → ε) (after : σ) : Prop where
  number_iff : ∀ n s, number = .ok (n, s) ↔ Names t n.toNat ∧ s = after
  word_iff : ∀ w s, word = .ok (w, s) ↔ Names t w.toNat ∧ s = after
  word_large : ∀ n : UInt64, Names t n.toNat → UInt32.size ≤ n.toNat → word = .error (tooLarge n)

theorem RawNumber.word_of_large {n : UInt64} (h : UInt32.size ≤ n.toNat) :
    RawNumber.word n = .error (.wordTooLarge n) := if_neg (Nat.not_lt.mpr h)

/-- A word is a number that is judged, so it is enough to know how numbers are taken. -/
theorem takesText_of_number {ε σ : Type} {t : String} {number : Except ε (UInt64 × σ)}
    {word : Except ε (UInt32 × σ)} {tooLarge : UInt64 → ε} {after : σ}
    (hnumber : ∀ n s, number = .ok (n, s) ↔ Names t n.toNat ∧ s = after)
    (hword : ∀ w s, word = .ok (w, s) ↔ ∃ n, number = .ok (n, s) ∧ RawNumber.word n = .ok w)
    (hlarge : ∀ n s, number = .ok (n, s) → RawNumber.word n = .error (.wordTooLarge n) →
      word = .error (tooLarge n)) : TakesText t number word tooLarge after := by
  refine ⟨hnumber, fun w s => ?_, fun n hn hsize => ?_⟩
  · simp only [hword, hnumber, RawNumber.word_eq_ok_iff]
    constructor
    · rintro ⟨n, ⟨hn, hs⟩, heq⟩
      exact ⟨heq ▸ hn, hs⟩
    · rintro ⟨hw, hs⟩
      exact ⟨w.toUInt64, ⟨by simpa using hw, hs⟩, by simp⟩
  · exact hlarge n after ((hnumber n after).mpr ⟨hn, rfl⟩) (RawNumber.word_of_large hsize)

namespace Json

theorem Meaning.text_unique {t : Tree} {s s' : String} (h : Meaning.text t s)
    (h' : Meaning.text t s') : s = s' := by
  obtain ⟨body, rfl, hspells⟩ := h
  obtain ⟨_, heq, hspells'⟩ := h'
  cases heq
  exact String.toList_inj.mp (hspells.unique hspells')

def Tree.IsNumber (t : Tree) (n : Nat) : Prop :=
  (∃ whole, t = .number false whole [] [] ∧ Nat.ofDigitChars 10 whole 0 = n) ∨
    ∃ s, Meaning.text t s ∧ Names s n

theorem Tree.IsNumber.unique {t : Tree} {n m : Nat} (h : t.IsNumber n) (h' : t.IsNumber m) :
    n = m := by
  rcases h with ⟨whole, rfl, rfl⟩ | ⟨s, hs, hn⟩
  · rcases h' with ⟨whole', heq, rfl⟩ | ⟨s, ⟨body, heq, -⟩, -⟩
    · cases heq
      rfl
    · cases heq
  · rcases h' with ⟨whole, rfl, -⟩ | ⟨s', hs', hm⟩
    · obtain ⟨body, heq, -⟩ := hs
      cases heq
    · exact hn.unique (Meaning.text_unique hs' hs ▸ hm)

theorem Meaning.numberValue_iff {t : Tree} {n : UInt64} :
    (numberValue : Meaning UInt64) t n ↔ t.IsNumber n.toNat := by
  change (∃ raw, Meaning.number t raw ∧ raw.value = .ok n) ↔ _
  constructor
  · rintro ⟨raw, hraw, hvalue⟩
    cases raw with
    | integer m =>
      cases hvalue
      exact .inl hraw
    | text s => exact .inr ⟨s, hraw, RawNumber.value_text_eq_ok_iff.mp hvalue⟩
    | other => exact hraw.elim
  · rintro (hinteger | ⟨s, htext, hnames⟩)
    · exact ⟨.integer n, hinteger, rfl⟩
    · exact ⟨.text s, htext, RawNumber.value_text_eq_ok_iff.mpr hnames⟩

theorem Meaning.wordValue_iff {t : Tree} {w : UInt32} :
    (wordValue : Meaning UInt32) t w ↔ t.IsNumber w.toNat := by
  change (∃ n, (numberValue : Meaning UInt64) t n ∧ RawNumber.word n = .ok w) ↔ _
  simp only [Meaning.numberValue_iff, RawNumber.word_eq_ok_iff]
  constructor
  · rintro ⟨n, hn, heq⟩
    exact heq ▸ hn
  · intro h
    exact ⟨w.toUInt64, by simpa using h, by simp⟩

theorem Tree.isNumber_of_text {t : Tree} {s : String} (h : Meaning.text t s) {n : Nat} :
    t.IsNumber n ↔ Names s n := by
  constructor
  · rintro (⟨whole, rfl, -⟩ | ⟨s', h', hnames⟩)
    · obtain ⟨body, heq, -⟩ := h
      cases heq
    · exact Meaning.text_unique h' h ▸ hnames
  · exact fun hnames => .inr ⟨s, h, hnames⟩

theorem Source.takesText {tree : Tree} {t : String} {txt gap rest : List Char}
    (htext : Written tree txt) (h : Meaning.text tree t) (hgap : Blank gap)
    (hrest : EndsNumber rest) (depth : Nat) :
    TakesText t ((numberValue : Source UInt64) (depth + 1) (gap ++ (txt ++ rest)))
      ((wordValue : Source UInt32) (depth + 1) (gap ++ (txt ++ rest)))
      (fun n => .loose (.wordTooLarge n) rest) rest := by
  have hnumber := follows_numberValue depth htext hgap hrest
  simp only [Yields, Meaning.numberValue_iff, Tree.isNumber_of_text h] at hnumber
  refine takesText_of_number hnumber (fun w s => judge_eq_ok_iff) fun n s hread hlarge => ?_
  obtain rfl := ((hnumber n s).mp hread).2
  change judge .loose RawNumber.word ((numberValue : Source UInt64) (depth + 1) _) = _
  rw [hread, judge, hlarge]

end Json

namespace Yaml.Source

/-- Text in YAML is a scalar that is written as such; a tag of the document's own makes it something
else. -/
theorem takesText {s : Scalar} {t : String} (h : s.resolve = .ok (.text t))
    (htag : isLocalTag s.tag = false) (sc : Scope) (mark : Mark) (jumps : Nat) :
    TakesText t ((numberValue : Source UInt64) sc (.scalar mark s) jumps)
      ((wordValue : Source UInt32) sc (.scalar mark s) jumps)
      (fun n => .loose (.wordTooLarge n)) jumps := by
  have hscalar : scalarNumber s = .ok (.text t) := by
    rw [scalarNumber, h]
    rfl
  have hraw : number sc (.scalar mark s) jumps = .ok (.text t, jumps) := by
    simp only [number, anyNumber, Scope.follow, bind, Except.bind, htag, Bool.false_eq_true,
      ↓reduceIte, hscalar]
  have hnumber (n : UInt64) (j : Nat) : (numberValue : Source UInt64) sc (.scalar mark s) jumps =
      .ok (n, j) ↔ Names t n.toNat ∧ j = jumps := by
    change judge .ofMismatch RawNumber.value (number sc (.scalar mark s) jumps) = .ok (n, j) ↔ _
    rw [judge_eq_ok_iff, hraw, ← RawNumber.value_text_eq_ok_iff]
    constructor
    · rintro ⟨raw, hok, hvalue⟩
      cases hok
      exact ⟨hvalue, rfl⟩
    · rintro ⟨hvalue, rfl⟩
      exact ⟨.text t, rfl, hvalue⟩
  refine takesText_of_number hnumber (fun w s => judge_eq_ok_iff) fun n j hread hlarge => ?_
  change judge .ofMismatch RawNumber.word ((numberValue : Source UInt64) sc (.scalar mark s) jumps) = _
  rw [hread, judge, hlarge]
  rfl

end Yaml.Source

/-- A text is taken for a number just if it names that number, in either format: blanks around it
and separators in it do not count, and what is left is one plus sign at most and decimal digits, or
hexadecimal digits after their mark, for a number of 64 bits. The same holds of words, and a number
that is too large for a word is refused. So each number is read back from every way to write it, and
from its integer alike. -/
theorem number_grammar :
    (∀ (t : String) (n : UInt64), RawNumber.value (.text t) = .ok n ↔ Names t n.toNat) ∧
    (∀ (t : String) (tree : Json.Tree) (txt gap rest : List Char) (depth : Nat),
      Json.Written tree txt → Json.Meaning.text tree t → Json.Blank gap → Json.EndsNumber rest →
      TakesText t ((numberValue : Json.Source UInt64) (depth + 1) (gap ++ (txt ++ rest)))
        ((wordValue : Json.Source UInt32) (depth + 1) (gap ++ (txt ++ rest)))
        (fun n => .loose (.wordTooLarge n) rest) rest) ∧
    (∀ (t : String) (s : Yaml.Scalar) (sc : Yaml.Scope) (mark : Yaml.Mark) (jumps : Nat),
      s.resolve = .ok (.text t) → Yaml.Source.isLocalTag s.tag = false →
      TakesText t ((numberValue : Yaml.Source UInt64) sc (.scalar mark s) jumps)
        ((wordValue : Yaml.Source UInt32) sc (.scalar mark s) jumps)
        (fun n => .loose (.wordTooLarge n)) jumps) ∧
    ∀ (n : UInt64) (t : String), Writes n.toNat t → RawNumber.value (.text t) = .ok n ∧
      ∀ (tree : Json.Tree) (txt gap rest : List Char) (depth : Nat), Json.Written tree txt →
        Json.Meaning.text tree t → Json.Blank gap → Json.EndsNumber rest →
        (numberValue : Json.Source UInt64) (depth + 1) (gap ++ (txt ++ rest)) = .ok (n, rest) ∧
        (numberValue : Json.Source UInt64) (depth + 1)
          (gap ++ ((Nat.repr n.toNat).toList ++ rest)) = .ok (n, rest) := by
  refine ⟨fun t n => RawNumber.value_text_eq_ok_iff, ?_, ?_, ?_⟩
  · intro t tree txt gap rest depth htext h hgap hrest
    exact Json.Source.takesText htext h hgap hrest depth
  · intro t s sc mark jumps h htag
    exact Yaml.Source.takesText h htag sc mark jumps
  · intro n t hwrites
    refine ⟨RawNumber.value_text_eq_ok_iff.mpr hwrites.names, ?_⟩
    intro tree txt gap rest depth htext h hgap hrest
    have htaken := Json.Source.takesText htext h hgap hrest depth
    have hinteger : Json.Source.Reads numberValue (depth + 1) (Nat.repr n.toNat).toList n :=
      (Json.Source.reads_number depth n).refine rfl
    exact ⟨(htaken.number_iff n rest).mpr ⟨hwrites.names, rfl⟩,
      hinteger.reads gap hgap rest hrest⟩

/-- The largest word, in hexadecimal of both cases with zeros, separators and blanks, and the next
number, in YAML and with a sign. -/
theorem number_grammar_largest :
    let body := "\\t0X00_fFff_FFFF_ ".toList
    let text := ' ' :: '"' :: (body ++ ['"', '}'])
    let scalar : Yaml.Scalar := ⟨none, " +4_294_967_296", .singleQuoted⟩
    let scope : Yaml.Scope := ⟨Yaml.Tree.ofText "", [], 2⟩
    (numberValue : Json.Source UInt64) 1 text = .ok (0xFFFFFFFF, ['}']) ∧
      (wordValue : Json.Source UInt32) 1 text = .ok (0xFFFFFFFF, ['}']) ∧
      (numberValue : Json.Source UInt64) 1 " 4294967295\x7d".toList = .ok (0xFFFFFFFF, ['}']) ∧
      (wordValue : Yaml.Source UInt32) scope (.scalar .start scalar) 0 =
        .error (.loose (.wordTooLarge 0x100000000)) := by
  intro body text scalar scope
  have hspells : Json.Spells body "\t0X00_fFff_FFFF_ ".toList :=
    .cons (.short (by decide)) (Json.spells_plain (by decide))
  have hplain : Plain 0xFFFFFFFF "0X00fFffFFFF".toList :=
    .hexadecimal 2 (.inr rfl) (by decide)
  have hwrites : Writes 0xFFFFFFFF "\t0X00_fFff_FFFF_ " :=
    ⟨['\t'], "0X00_fFff_FFFF_".toList, [' '], by decide, List.forall_mem_singleton.mpr (by decide),
      List.forall_mem_singleton.mpr (by decide), hplain⟩
  obtain ⟨hvalue, hjson, hyaml, hwritten⟩ := number_grammar
  have htext : Json.Written (.str body) ('"' :: (body ++ ['"'])) := .str hspells.body
  have hgap : Json.Blank [' '] := by simp [Json.Blank, Json.isBlank]
  have hrest : Json.EndsNumber ['}'] := by rintro c ⟨⟩; decide
  have hread := (hwritten 0xFFFFFFFF _ hwrites).2 _ _ _ _ 0 htext ⟨body, rfl, hspells⟩ hgap hrest
  have hword := (hjson _ _ _ _ _ 0 htext ⟨body, rfl, hspells⟩ hgap hrest).word_iff 0xFFFFFFFF ['}']
  have hnext : RawNumber.value (.text " +4_294_967_296") = .ok 0x100000000 := by decide +kernel
  exact ⟨hread.1, hword.mpr ⟨hwrites.names, rfl⟩, hread.2,
    (hyaml _ scalar scope .start 0 rfl rfl).word_large _ ((hvalue _ _).mp hnext) (by decide)⟩

end IndirectBranch
