import IndirectBranch.Proofs.JsonText

/-! The grammar of JSON text, apart from the reader. A tree is a value as it is written, less the
blanks; `Written` says which texts are texts of a tree. A string is kept as it stands between its
quotes, and `Spells` says which characters that stands for, if any: half of a surrogate pair stands
for none. The reader passes over every text of the grammar, and reads from strings and whole numbers
what they stand for and nothing else. -/
namespace IndirectBranch.Json

/-! Strings. -/

inductive Quad : List Char → Nat → Prop
  | mk {a b c d : Char} {i j k l : Nat} (ha : Text.IsDigit 16 a i) (hb : Text.IsDigit 16 b j)
      (hc : Text.IsDigit 16 c k) (hd : Text.IsDigit 16 d l) :
      Quad [a, b, c, d] (((i * 16 + j) * 16 + k) * 16 + l)

def shortEscapes : List (Char × Char) :=
  [('"', '"'), ('\\', '\\'), ('/', '/'), ('b', '\x08'), ('f', '\x0c'), ('n', '\n'), ('r', '\r'),
    ('t', '\t')]

def IsPlain (c : Char) : Prop := c ≠ '"' ∧ c ≠ '\\' ∧ 0x20 ≤ c.toNat

instance (c : Char) : Decidable (IsPlain c) := inferInstanceAs (Decidable (_ ∧ _ ∧ _))

/-- What stands for one character of a string. -/
inductive CharText : List Char → Char → Prop
  | plain {c : Char} (hc : IsPlain c) : CharText [c] c
  | short {e c : Char} (he : (e, c) ∈ shortEscapes) : CharText ['\\', e] c
  | code {quad : List Char} {n : Nat} (hquad : Quad quad n) (hn : n < 0xD800 ∨ 0xDFFF < n) :
      CharText ('\\' :: 'u' :: quad) (Char.ofNat n)
  | pair {first second : List Char} {high low : Nat} (hfirst : Quad first high)
      (hsecond : Quad second low) (hhigh : 0xD800 ≤ high ∧ high ≤ 0xDBFF)
      (hlow : 0xDC00 ≤ low ∧ low ≤ 0xDFFF) :
      CharText ('\\' :: 'u' :: (first ++ '\\' :: 'u' :: second))
        (Char.ofNat ((high - 0xD800) * 1024 + (low - 0xDC00) + 0x10000))

/-- The characters that the text between two quotes stands for. -/
inductive Spells : List Char → List Char → Prop
  | nil : Spells [] []
  | cons {text body cs : List Char} {c : Char} (hc : CharText text c) (hcs : Spells body cs) :
      Spells (text ++ body) (c :: cs)

theorem spells_plain {cs : List Char} (h : cs.all (IsPlain ·) = true) : Spells cs cs := by
  induction cs with
  | nil => exact .nil
  | cons c cs ih =>
    rw [List.all_cons, Bool.and_eq_true, decide_eq_true_eq] at h
    exact .cons (.plain h.1) (ih h.2)

/-- The parts that the text between two quotes is made of, whether they stand for characters or
not. -/
inductive Piece : List Char → Prop
  | plain {c : Char} (hc : IsPlain c) : Piece [c]
  | short {e c : Char} (he : (e, c) ∈ shortEscapes) : Piece ['\\', e]
  | code {quad : List Char} {n : Nat} (hquad : Quad quad n) : Piece ('\\' :: 'u' :: quad)

inductive Body : List Char → Prop
  | nil : Body []
  | cons {text body : List Char} (htext : Piece text) (hbody : Body body) : Body (text ++ body)

theorem Body.append {s t : List Char} (hs : Body s) (ht : Body t) : Body (s ++ t) := by
  induction hs with
  | nil => exact ht
  | cons hpiece _ ih =>
    rw [List.append_assoc]
    exact .cons hpiece ih

theorem CharText.body {text : List Char} {c : Char} (h : CharText text c) : Body text := by
  have hsingle {s : List Char} (hs : Piece s) : Body s := List.append_nil s ▸ .cons hs .nil
  cases h with
  | plain hc => exact hsingle (.plain hc)
  | short he => exact hsingle (.short he)
  | code hquad _ => exact hsingle (.code hquad)
  | pair hfirst hsecond _ _ => exact (hsingle (.code hfirst)).append (hsingle (.code hsecond))

theorem Spells.body {body cs : List Char} (h : Spells body cs) : Body body := by
  induction h with
  | nil => exact .nil
  | cons hc _ ih => exact hc.body.append ih

theorem hexQuad?_eq_some_iff {s rest : List Char} {n : Nat} :
    hexQuad? s = some (n, rest) ↔ ∃ quad, Quad quad n ∧ s = quad ++ rest := by
  constructor
  · intro h
    unfold hexQuad? at h
    split at h
    · simp only [Option.bind_eq_bind, Option.bind_eq_some_iff, Option.pure_def, Option.some.injEq,
        Prod.mk.injEq, Text.hexValue?_eq_some_iff] at h
      obtain ⟨i, ha, j, hb, k, hc, l, hd, rfl, rfl⟩ := h
      exact ⟨_, .mk ha hb hc hd, rfl⟩
    · cases h
  · rintro ⟨quad, hquad, rfl⟩
    cases hquad with
    | mk ha hb hc hd =>
      simp [hexQuad?, Text.hexValue?_eq_some_iff.mpr ha, Text.hexValue?_eq_some_iff.mpr hb,
        Text.hexValue?_eq_some_iff.mpr hc, Text.hexValue?_eq_some_iff.mpr hd]

theorem hexQuad_eq_ok_iff {s rest : List Char} {n : Nat} :
    hexQuad s = .ok (n, rest) ↔ ∃ quad, Quad quad n ∧ s = quad ++ rest := by
  rw [← hexQuad?_eq_some_iff, hexQuad]
  cases h : hexQuad? s with
  | some r => simp
  | none =>
    constructor
    · intro herror
      dsimp only at herror
      split at herror <;> cases herror
    · intro hsome
      cases hsome

theorem Quad.hexQuad_append {quad : List Char} {n : Nat} (h : Quad quad n) (rest : List Char) :
    hexQuad (quad ++ rest) = .ok (n, rest) :=
  hexQuad_eq_ok_iff.mpr ⟨quad, h, rfl⟩

/-- An escape is read as the character it stands for. -/
theorem escape_of_charText {text rest : List Char} {c : Char} (h : CharText ('\\' :: text) c) :
    escape (text ++ rest) = .ok (c, rest) := by
  generalize hs : '\\' :: text = s at h
  cases h with
  | plain hc =>
    cases hs
    exact absurd rfl hc.2.1
  | short he =>
    cases hs
    simp only [shortEscapes, List.mem_cons, List.not_mem_nil, or_false, Prod.mk.injEq] at he
    rcases he with ⟨rfl, rfl⟩ | ⟨rfl, rfl⟩ | ⟨rfl, rfl⟩ | ⟨rfl, rfl⟩ | ⟨rfl, rfl⟩ | ⟨rfl, rfl⟩ |
      ⟨rfl, rfl⟩ | ⟨rfl, rfl⟩ <;> rfl
  | @code quad n hquad hn =>
    cases hs
    have htrailing : isTrailing n = false := by simp [isTrailing]; omega
    have hleading : isLeading n = false := by simp [isLeading]; omega
    simp [escape, hquad.hexQuad_append, htrailing, hleading]
  | @pair first second high low hfirst hsecond hhigh hlow =>
    cases hs
    have htrailing : isTrailing high = false := by simp [isTrailing]; omega
    have hleading : isLeading high = true := by simp [isLeading]; omega
    have hlow : isTrailing low = true := by simp [isTrailing]; omega
    simp [escape, hfirst.hexQuad_append, htrailing, hleading, trailingSurrogate,
      hsecond.hexQuad_append, hlow]

theorem charText_of_trailingSurrogate {first s rest : List Char} {high : Nat} {c : Char}
    (hfirst : Quad first high) (hhigh : isLeading high = true)
    (h : trailingSurrogate high s = .ok (c, rest)) :
    ∃ text, CharText ('\\' :: 'u' :: (first ++ text)) c ∧ s = text ++ rest := by
  unfold trailingSurrogate at h
  split at h
  case h_3 s =>
    split at h
    · cases h
    next low _ hquad =>
      obtain ⟨second, hsecond, rfl⟩ := hexQuad_eq_ok_iff.mp hquad
      split at h
      next hlow =>
        simp only [Except.ok.injEq, Prod.mk.injEq] at h
        obtain ⟨rfl, rfl⟩ := h
        simp only [isLeading, isTrailing, Bool.and_eq_true, decide_eq_true_eq] at hhigh hlow
        exact ⟨'\\' :: 'u' :: second, .pair hfirst hsecond hhigh hlow, rfl⟩
      next => cases h
  all_goals cases h

theorem charText_of_escape {s rest : List Char} {c : Char} (h : escape s = .ok (c, rest)) :
    ∃ text, CharText ('\\' :: text) c ∧ s = text ++ rest := by
  have hshort {e c : Char} {s : List Char} (he : (e, c) ∈ shortEscapes) :
      ∃ text, CharText ('\\' :: text) c ∧ e :: s = text ++ s := ⟨[e], .short he, rfl⟩
  unfold escape at h
  split at h
  · cases h
  split at h
  case h_9 s =>
    split at h
    · cases h
    next n rest' hread =>
      obtain ⟨quad, hquad, rfl⟩ := hexQuad_eq_ok_iff.mp hread
      split at h
      · cases h
      next htrailing =>
        split at h
        next hleading =>
          obtain ⟨text, htext, rfl⟩ := charText_of_trailingSurrogate hquad hleading h
          exact ⟨'u' :: (quad ++ text), htext, by simp⟩
        next hleading =>
          simp only [Except.ok.injEq, Prod.mk.injEq] at h
          obtain ⟨rfl, rfl⟩ := h
          refine ⟨'u' :: quad, .code hquad ?_, rfl⟩
          simp only [isLeading, isTrailing, Bool.and_eq_true, decide_eq_true_eq]
            at hleading htrailing
          omega
  case h_10 => cases h
  all_goals
    cases h
    exact hshort (by decide)

theorem stringBody_of_charText {text rest : List Char} {c : Char} (h : CharText text c) :
    stringBody (text ++ rest) = prepend c (stringBody rest) := by
  have hescape {t : List Char} (ht : CharText ('\\' :: t) c) :
      stringBody ('\\' :: t ++ rest) = prepend c (stringBody rest) :=
    stringBody_escape (escape_of_charText ht)
  cases h with
  | plain hc => exact stringBody_plain hc.1 hc.2.1 (Nat.not_lt.mpr hc.2.2)
  | short he => exact hescape (.short he)
  | code hquad hn => exact hescape (.code hquad hn)
  | pair hfirst hsecond hhigh hlow => exact hescape (.pair hfirst hsecond hhigh hlow)

theorem stringBody_of_spells {body cs : List Char} (h : Spells body cs) (rest : List Char) :
    stringBody (body ++ '"' :: rest) = .ok (cs, rest) := by
  induction h with
  | nil =>
    rw [List.nil_append, stringBody]
    rfl
  | cons hc _ ih =>
    rw [List.append_assoc, stringBody_of_charText hc, ih]
    rfl

/-- A text between quotes stands for one string at most. -/
theorem Spells.unique {body cs cs' : List Char} (h : Spells body cs) (h' : Spells body cs') :
    cs = cs' := by
  have hread := stringBody_of_spells h []
  rw [stringBody_of_spells h' []] at hread
  cases hread
  rfl

theorem spells_of_stringBody {s cs rest : List Char} (h : stringBody s = .ok (cs, rest)) :
    ∃ body, Spells body cs ∧ s = body ++ '"' :: rest := by
  fun_induction stringBody s generalizing cs rest with
  | case1 => cases h
  | case2 s =>
    cases h
    exact ⟨[], .nil, rfl⟩
  | case3 => cases h
  | case4 => cases h
  | case5 s e rest' hescape cs' _ hbody _ ih =>
    cases h
    obtain ⟨body, hspells, rfl⟩ := ih hbody
    obtain ⟨text, htext, rfl⟩ := charText_of_escape hescape
    exact ⟨'\\' :: text ++ body, .cons htext hspells, by simp⟩
  | case6 => cases h
  | case7 => cases h
  | case8 c s hquote hslash hcontrol cs' _ hbody ih =>
    cases h
    obtain ⟨body, hspells, rfl⟩ := ih hbody
    exact ⟨c :: body, .cons (.plain ⟨hquote, hslash, Nat.not_lt.mp hcontrol⟩) hspells, rfl⟩

/-- Passing over a string looks at its parts only. -/
theorem skipString_of_piece {text : List Char} (h : Piece text) (rest : List Char) :
    skipString (text ++ rest) = skipString rest := by
  cases h with
  | @plain c hc =>
    rw [List.singleton_append, skipString.eq_def]
    simp only [if_neg hc.1, if_neg hc.2.1, if_neg (Nat.not_lt.mpr hc.2.2)]
  | @short e c he =>
    have hletter : e ≠ 'u' ∧ e ∈ ['"', '\\', '/', 'b', 'f', 'n', 'r', 't'] := by
      have hall : ∀ p ∈ shortEscapes,
          p.1 ≠ 'u' ∧ p.1 ∈ ['"', '\\', '/', 'b', 'f', 'n', 'r', 't'] := by
        decide
      exact hall (e, c) he
    rw [List.cons_append, List.singleton_append, skipString.eq_def]
    simp only [Char.reduceEq, ↓reduceIte, if_neg hletter.1, if_pos hletter.2]
  | @code quad n hquad =>
    rw [List.cons_append, List.cons_append, skipString.eq_def]
    simp only [Char.reduceEq, ↓reduceIte]
    split
    next herror =>
      rw [hquad.hexQuad_append] at herror
      cases herror
    next hok =>
      rw [hquad.hexQuad_append] at hok
      cases hok
      rfl

theorem skipString_of_body {body : List Char} (h : Body body) (rest : List Char) :
    skipString (body ++ '"' :: rest) = .ok rest := by
  induction h with
  | nil =>
    rw [List.nil_append, skipString.eq_def]
    rfl
  | cons hpiece _ ih => rw [List.append_assoc, skipString_of_piece hpiece, ih]

/-- A string ends at one place only, so it is read as what it spells or refused. -/
theorem string_eq_ok_iff {body : List Char} (hbody : Body body) {rest r : List Char} {s : String} :
    string (body ++ '"' :: rest) = .ok (s, r) ↔ Spells body s.toList ∧ r = rest := by
  constructor
  · intro h
    unfold string at h
    split at h
    · cases h
    next cs _ hread =>
      cases h
      obtain ⟨body', hspells, htext⟩ := spells_of_stringBody hread
      have hskip := skipString_of_body hspells.body r
      rw [← htext, skipString_of_body hbody] at hskip
      obtain rfl := Except.ok.inj hskip
      obtain rfl := List.append_cancel_right htext
      exact ⟨by rwa [String.toList_ofList], rfl⟩
  · rintro ⟨hspells, rfl⟩
    rw [string, stringBody_of_spells hspells]
    simp only [String.ofList_toList]

/-! Numbers. -/

def Digits (s : List Char) : Prop := s ≠ [] ∧ ∀ c ∈ s, isDigit c = true

/-- Digits without a zero in front of others. -/
structure Whole (s : List Char) : Prop where
  digits : Digits s
  zero : s.head? = some '0' → s = ['0']

inductive Fraction : List Char → Prop
  | none : Fraction []
  | some {s : List Char} (hs : Digits s) : Fraction ('.' :: s)

inductive Exponent : List Char → Prop
  | none : Exponent []
  | some {mark : Char} {sign s : List Char} (hmark : mark = 'e' ∨ mark = 'E')
      (hsign : sign = [] ∨ sign = ['+'] ∨ sign = ['-']) (hs : Digits s) :
      Exponent (mark :: (sign ++ s))

def minus (negative : Bool) : List Char := if negative then ['-'] else []

theorem Digits.exists_cons {s : List Char} (h : Digits s) :
    ∃ c t, s = c :: t ∧ isDigit c = true ∧ ∀ d ∈ t, isDigit d = true := by
  cases s with
  | nil => exact absurd rfl h.1
  | cons c t => exact ⟨c, t, rfl, List.forall_mem_cons.mp h.2⟩

/-- What follows does not go on with the digits of a number, but perhaps with a fraction or an
exponent. -/
def EndsDigits (rest : List Char) : Prop := ∀ c ∈ rest.head?, isDigit c = false

theorem EndsNumber.endsDigits {rest : List Char} (h : EndsNumber rest) : EndsDigits rest :=
  fun c hc => (h c hc).1

theorem Exponent.endsDigits {exponent rest : List Char} (h : Exponent exponent)
    (hrest : EndsNumber rest) : EndsDigits (exponent ++ rest) := by
  cases h with
  | none => exact hrest.endsDigits
  | some hmark _ _ =>
    rintro c ⟨⟩
    rcases hmark with rfl | rfl <;> decide

theorem Fraction.endsDigits {fraction rest : List Char} (h : Fraction fraction)
    (hrest : EndsDigits rest) : EndsDigits (fraction ++ rest) := by
  cases h with
  | none => exact hrest
  | some _ =>
    rintro c ⟨⟩
    decide

theorem dropWhile_digits {s rest : List Char} (hs : ∀ c ∈ s, isDigit c = true)
    (hrest : EndsDigits rest) : (s ++ rest).dropWhile isDigit = rest := by
  rw [List.dropWhile_append_of_pos hs]
  cases rest with
  | nil => rfl
  | cons c rest =>
    have hc := hrest c rfl
    simp [hc]

theorem takeWhile_digits {s rest : List Char} (hs : ∀ c ∈ s, isDigit c = true)
    (hrest : EndsDigits rest) : (s ++ rest).takeWhile isDigit = s := by
  rw [List.takeWhile_append_of_pos hs]
  cases rest with
  | nil => simp
  | cons c rest =>
    have hc := hrest c rfl
    simp [hc]

theorem skipAfterDigits_exponent {exponent rest : List Char} (h : Exponent exponent)
    (hrest : EndsNumber rest) : skipAfterDigits (exponent ++ rest) = .ok rest := by
  cases h with
  | none =>
    rw [List.nil_append]
    unfold skipAfterDigits
    split
    · exact absurd rfl (hrest _ rfl).2.2.1
    · exact absurd rfl (hrest _ rfl).2.2.2
    · rfl
  | @some mark sign s hmark hsign hs =>
    obtain ⟨c, t, rfl, hc, ht⟩ := hs.exists_cons
    have hskip : skipExponent (sign ++ c :: t ++ rest) = .ok rest := by
      have hdrop := dropWhile_digits ht hrest.endsDigits
      have hplus : c ≠ '+' := by rintro rfl; cases hc
      have hminus : c ≠ '-' := by rintro rfl; cases hc
      rcases hsign with rfl | rfl | rfl <;> simp [skipExponent, hc, hdrop, hplus, hminus]
    rcases hmark with rfl | rfl <;> exact hskip

/-- A zero is not followed by a digit, so the test for zeros in front does not fail. -/
theorem Whole.front {c : Char} {t rest : List Char} (h : Whole (c :: t)) (hrest : EndsDigits rest) :
    ¬ (c = '0' ∧ ((t ++ rest).head?.map isDigit).getD false = true) := by
  rintro ⟨rfl, hnext⟩
  obtain rfl : t = [] := (List.cons.inj (h.zero rfl)).2
  cases rest with
  | nil => cases hnext
  | cons d rest =>
    have hd := hrest d rfl
    simp [hd] at hnext

theorem skipNumber_unsigned {whole fraction exponent rest : List Char} (hwhole : Whole whole)
    (hfraction : Fraction fraction) (hexponent : Exponent exponent) (hrest : EndsNumber rest) :
    skipNumber (whole ++ (fraction ++ (exponent ++ rest))) = .ok rest := by
  obtain ⟨c, t, rfl, hc, ht⟩ := hwhole.digits.exists_cons
  have hends := hfraction.endsDigits (hexponent.endsDigits hrest)
  have hfront := hwhole.front hends
  have hdrop := dropWhile_digits hwhole.digits.2 hends
  have hafter := skipAfterDigits_exponent hexponent hrest
  rw [List.cons_append] at hdrop ⊢
  rw [skipNumber, if_neg (by simp [hc]), if_neg hfront, hdrop]
  cases hfraction with
  | none =>
    rw [List.nil_append]
    split
    next heq =>
      cases hexponent with
      | none => exact absurd rfl (hrest _ (by rw [List.nil_append] at heq; rw [heq]; rfl)).2.1
      | some hmark _ _ =>
        cases heq
        rcases hmark with h | h <;> cases h
    next => exact hafter
  | @some s hs =>
    obtain ⟨d, u, rfl, hd, hu⟩ := hs.exists_cons
    have hdecimals := dropWhile_digits hs.2 (hexponent.endsDigits hrest)
    rw [List.cons_append] at hdecimals
    simp only [List.cons_append, List.head?_cons, Option.map_some, Option.getD_some, hd, ↓reduceIte,
      hdecimals, hafter]

def GivesFloat (r : Read Json) : Prop := ∀ v rest, r = .ok (v, rest) → ∃ x, v = .float x

theorem Scaled.givesFloat_finish (n : Scaled) (negative : Bool) (rest : List Char) :
    GivesFloat (n.finish negative rest) := by
  intro v r h
  unfold Scaled.finish at h
  split at h
  · cases h
    exact ⟨_, rfl⟩
  · cases h

theorem givesFloat_exponentDigits (n : Scaled) (negative down : Bool) (start : Nat)
    (s : List Char) : GivesFloat (exponentDigits n negative down start s) := by
  induction s generalizing start with
  | nil => exact Scaled.givesFloat_finish _ _ _
  | cons c s ih =>
    intro v r h
    rw [exponentDigits] at h
    split at h
    · dsimp only at h
      split at h
      · exact ih _ v r h
      · split at h
        · cases h
        · cases h
          exact ⟨_, rfl⟩
    · exact Scaled.givesFloat_finish _ _ _ v r h

theorem givesFloat_exponentPart (n : Scaled) (negative : Bool) (s : List Char) :
    GivesFloat (exponentPart n negative s) := by
  intro v r h
  unfold exponentPart at h
  dsimp only at h
  split at h
  · cases h
  · split at h
    · exact givesFloat_exponentDigits _ _ _ _ _ v r h
    · cases h

theorem givesFloat_afterDigits (n : Scaled) (negative : Bool) (s : List Char) :
    GivesFloat (afterDigits n negative s) := by
  unfold afterDigits
  split
  · exact givesFloat_exponentPart _ _ _
  · exact givesFloat_exponentPart _ _ _
  · exact Scaled.givesFloat_finish _ _ _

theorem givesFloat_fractionPart (n : Scaled) (negative : Bool) (s : List Char) :
    GivesFloat (fractionPart n negative s) := by
  intro v r h
  unfold fractionPart at h
  split at h
  · cases h
  · split at h
    · exact givesFloat_afterDigits _ _ _ v r h
    · cases h

/-- Digits whose number takes more than 64 bits leave an exponent. -/
theorem Scaled.exponent_whole_ne_zero {digits : List Char} {start : Nat}
    (hstart : start < UInt64.size) (h : UInt64.size ≤ Nat.ofDigitChars 10 digits start) :
    (Scaled.whole start digits).exponent ≠ 0 := by
  induction digits generalizing start with
  | nil => exact absurd h (Nat.not_le.mpr hstart)
  | cons d ds ih =>
    rw [Scaled.whole]
    split
    next hnext =>
      refine ih hnext ?_
      rwa [Nat.ofDigitChars_cons, Nat.mul_comm] at h
    next =>
      simp only [List.length_cons, Int.natCast_add, Int.cast_ofNat_Int]
      omega

section Number

variable {negative : Bool} {whole fraction exponent rest : List Char}

def afterWhole (n : Scaled) (negative : Bool) : List Char → Read Json
  | '.' :: s => fractionPart n negative s
  | 'e' :: s => exponentPart n negative s
  | 'E' :: s => exponentPart n negative s
  | s => if n.exponent = 0 then integer n.significand negative s else n.finish negative s

theorem number_of_whole (hwhole : Whole whole) (hrest : EndsDigits rest) :
    number negative (whole ++ rest) = afterWhole (Scaled.whole 0 whole) negative rest := by
  obtain ⟨c, t, rfl, hc, -⟩ := hwhole.digits.exists_cons
  have htake := takeWhile_digits hwhole.digits.2 hrest
  have hdrop := dropWhile_digits hwhole.digits.2 hrest
  rw [List.cons_append] at htake hdrop ⊢
  rw [number, if_neg (by simp [hc]), if_neg (hwhole.front hrest), htake, hdrop]
  rfl

/-- A number with a fraction or an exponent is in floating point, even if it is whole. -/
theorem givesFloat_number (hwhole : Whole whole) (hfraction : Fraction fraction)
    (hexponent : Exponent exponent) (hrest : EndsNumber rest)
    (h : ¬ (fraction = [] ∧ exponent = [])) :
    GivesFloat (number negative (whole ++ (fraction ++ (exponent ++ rest)))) := by
  rw [number_of_whole hwhole (hfraction.endsDigits (hexponent.endsDigits hrest))]
  cases hfraction with
  | some hs => exact givesFloat_fractionPart _ _ _
  | none =>
    cases hexponent with
    | none => exact absurd ⟨rfl, rfl⟩ h
    | some hmark _ _ => rcases hmark with rfl | rfl <;> exact givesFloat_exponentPart _ _ _

theorem number_of_whole_alone (hwhole : Whole whole) (hrest : EndsNumber rest) :
    number negative (whole ++ rest) =
      if (Scaled.whole 0 whole).exponent = 0 then
        integer (Scaled.whole 0 whole).significand negative rest
      else (Scaled.whole 0 whole).finish negative rest := by
  rw [number_of_whole hwhole hrest.endsDigits]
  unfold afterWhole
  split
  · exact absurd rfl (hrest _ rfl).2.1
  · exact absurd rfl (hrest _ rfl).2.2.1
  · exact absurd rfl (hrest _ rfl).2.2.2
  · rfl

theorem integer_eq_nat_iff {n m : Nat} {r : List Char} :
    integer n negative rest = .ok (.nat m, r) ↔ negative = false ∧ n = m ∧ r = rest := by
  cases negative with
  | false => simp [integer, eq_comm]
  | true =>
    unfold integer
    split
    · contradiction
    · split <;> simp

/-- Of all numbers just the digits of a number of 64 bits, without sign, are read as such. -/
theorem number_eq_nat_iff (hwhole : Whole whole) (hfraction : Fraction fraction)
    (hexponent : Exponent exponent) (hrest : EndsNumber rest) {n : Nat} {r : List Char} :
    number negative (whole ++ (fraction ++ (exponent ++ rest))) = .ok (.nat n, r) ↔
      (negative = false ∧ fraction = [] ∧ exponent = [] ∧ Nat.ofDigitChars 10 whole 0 = n ∧
        n < UInt64.size) ∧ r = rest := by
  by_cases halone : fraction = [] ∧ exponent = []
  · obtain ⟨rfl, rfl⟩ := halone
    rw [List.nil_append, List.nil_append, number_of_whole_alone hwhole hrest]
    by_cases hsize : Nat.ofDigitChars 10 whole 0 < UInt64.size
    · rw [Scaled.whole_eq hsize, if_pos rfl, integer_eq_nat_iff]
      constructor
      · rintro ⟨hsign, rfl, hr⟩
        exact ⟨⟨hsign, rfl, rfl, rfl, hsize⟩, hr⟩
      · rintro ⟨⟨hsign, -, -, hvalue, -⟩, hr⟩
        exact ⟨hsign, hvalue, hr⟩
    · rw [if_neg (Scaled.exponent_whole_ne_zero (by decide) (Nat.not_lt.mp hsize))]
      constructor
      · intro h
        obtain ⟨x, hx⟩ := Scaled.givesFloat_finish _ _ _ _ _ h
        cases hx
      · rintro ⟨⟨-, -, -, rfl, hlt⟩, -⟩
        exact absurd hlt hsize
  · constructor
    · intro h
      obtain ⟨x, hx⟩ := givesFloat_number hwhole hfraction hexponent hrest halone _ _ h
      cases hx
    · rintro ⟨⟨-, hf, he, -⟩, -⟩
      exact absurd ⟨hf, he⟩ halone

theorem number_ne_str (hwhole : Whole whole) (hfraction : Fraction fraction)
    (hexponent : Exponent exponent) (hrest : EndsNumber rest) (t : String) (r : List Char) :
    number negative (whole ++ (fraction ++ (exponent ++ rest))) ≠ .ok (.str t, r) := by
  intro h
  by_cases halone : fraction = [] ∧ exponent = []
  · obtain ⟨rfl, rfl⟩ := halone
    rw [List.nil_append, List.nil_append, number_of_whole_alone hwhole hrest] at h
    split at h
    · unfold integer at h
      split at h
      · cases h
      · split at h <;> cases h
    · obtain ⟨x, hx⟩ := Scaled.givesFloat_finish _ _ _ _ _ h
      cases hx
  · obtain ⟨x, hx⟩ := givesFloat_number hwhole hfraction hexponent hrest halone _ _ h
    cases hx

end Number

/-! Trees. -/

/-- A value as it is written, less the blanks. Strings and keys stand as between their quotes. -/
inductive Tree
  | null
  | bool (b : Bool)
  | number (negative : Bool) (whole fraction exponent : List Char)
  | str (body : List Char)
  | list (items : List Tree)
  | object (members : List (List Char × Tree))

/-- The parts of a list or an object, with blanks around the commas. -/
inductive Parts {α : Type} (Text : α → List Char → Prop) :
    (first : Bool) → List α → List Char → Prop
  | nil (first : Bool) : Parts Text first [] []
  | cons {first : Bool} {a : α} {as : List α} {lead gap text rest : List Char} (hlead : Blank lead)
      (hgap : Blank gap) (htext : Text a text) (hrest : Parts Text false as rest) :
      Parts Text first (a :: as) (lead ++ (comma first ++ (gap ++ (text ++ rest))))

/-- A member of an object, with blanks around the colon. -/
inductive MemberText (Text : Tree → List Char → Prop) : List Char × Tree → List Char → Prop
  | mk {key before after text : List Char} {t : Tree} (hkey : Body key) (hbefore : Blank before)
      (hafter : Blank after) (htext : Text t text) :
      MemberText Text (key, t) ('"' :: (key ++ '"' :: (before ++ ':' :: (after ++ text))))

/-- The texts of a tree. They start with the value; blanks around it are not part of them. -/
inductive Written : Tree → List Char → Prop
  | null : Written .null "null".toList
  | bool (b : Bool) : Written (.bool b) (if b then "true" else "false").toList
  | number {whole fraction exponent : List Char} (negative : Bool) (hwhole : Whole whole)
      (hfraction : Fraction fraction) (hexponent : Exponent exponent) :
      Written (.number negative whole fraction exponent)
        (minus negative ++ (whole ++ (fraction ++ exponent)))
  | str {body : List Char} (hbody : Body body) : Written (.str body) ('"' :: (body ++ ['"']))
  | list {items : List Tree} {body close : List Char} (hitems : Parts Written true items body)
      (hclose : Blank close) : Written (.list items) ('[' :: (body ++ (close ++ [']'])))
  | object {members : List (List Char × Tree)} {body close : List Char}
      (hmembers : Parts (MemberText Written) true members body) (hclose : Blank close) :
      Written (.object members) ('{' :: (body ++ (close ++ ['}'])))

theorem blank_nil : Blank [] := List.forall_mem_nil _

/-- Neither a blank nor the end of a list comes first. -/
def Starts (text : List Char) : Prop := ∃ c rest, text = c :: rest ∧ isBlank c = false ∧ c ≠ ']'

theorem ne_of_isDigit {c d : Char} (hc : isDigit c = true) (hd : isDigit d = false) : c ≠ d := by
  rintro rfl
  rw [hc] at hd
  cases hd

theorem isBlank_of_isDigit {c : Char} (hc : isDigit c = true) : isBlank c = false := by
  have hne (d : Char) (hd : isDigit d = false) : (c == d) = false :=
    beq_false_of_ne (ne_of_isDigit hc hd)
  simp [isBlank, hne ' ' (by decide), hne '\n' (by decide), hne '\t' (by decide),
    hne '\r' (by decide)]

theorem Written.starts {t : Tree} {text : List Char} (h : Written t text) : Starts text := by
  cases h with
  | null => exact ⟨'n', _, rfl, by decide, by decide⟩
  | bool b => cases b <;> exact ⟨_, _, rfl, by decide, by decide⟩
  | number negative hwhole _ _ =>
    cases negative with
    | true => exact ⟨'-', _, rfl, by decide, by decide⟩
    | false =>
      obtain ⟨c, t, rfl, hc, -⟩ := hwhole.digits.exists_cons
      exact ⟨c, _, rfl, isBlank_of_isDigit hc, ne_of_isDigit hc (by decide)⟩
  | str _ => exact ⟨'"', _, rfl, by decide, by decide⟩
  | list _ _ => exact ⟨'[', _, rfl, by decide, by decide⟩
  | object _ _ => exact ⟨'{', _, rfl, by decide, by decide⟩

section Parts

variable {α : Type} {Text : α → List Char → Prop} {first : Bool} {as : List α}
  {body close s : List Char}

theorem Parts.endsNumber (h : Parts Text false as body) (hclose : Blank close) (hs : EndsNumber s) :
    EndsNumber (body ++ (close ++ s)) := by
  cases h with
  | nil =>
    rw [List.nil_append]
    exact endsNumber_blank_append hclose hs
  | cons hlead _ _ _ =>
    simp only [List.append_assoc]
    exact endsNumber_blank_append hlead (by rintro c ⟨⟩; decide)

/-- No part is empty, so there are no more parts than characters. -/
theorem Parts.length_le (h : Parts Text first as body)
    (hpos : ∀ {a text}, Text a text → 0 < text.length) : as.length ≤ body.length := by
  induction h with
  | nil => exact Nat.le_refl 0
  | cons _ _ htext _ ih =>
    have := hpos htext
    simp only [List.length_cons, List.length_append]
    omega

theorem skipItems_of_parts {skip : List Char → Except Fault (List Char)} {bound : Nat}
    (hstarts : ∀ {a text}, Text a text → Starts text)
    (hskip : ∀ {a text}, Text a text → text.length ≤ bound → ∀ {gap rest}, Blank gap →
      EndsNumber rest → skip (gap ++ (text ++ rest)) = .ok rest)
    (h : Parts Text first as body) (hbound : body.length ≤ bound) (hclose : Blank close)
    {clock : List Char} (hclock : as.length < clock.length) (rest : List Char) :
    skipItems skip clock first (body ++ (close ++ ']' :: rest)) = .ok rest := by
  induction h generalizing clock with
  | nil =>
    cases clock with
    | nil => cases hclock
    | cons _ clock =>
      simp [skipItems, skipBlank_blank_cons hclose (show isBlank ']' = false by decide)]
  | @cons first a as lead gap text body hlead hgap htext hrest ih =>
    cases clock with
    | nil => cases hclock
    | cons _ clock =>
      have hends := hrest.endsNumber hclose (s := ']' :: rest) (by rintro c ⟨⟩; decide)
      simp only [List.length_append] at hbound
      have hnext := ih (by omega) (Nat.lt_of_succ_lt_succ hclock)
      simp only [List.append_assoc, skipItems, skipBlank_append hlead]
      cases first with
      | true =>
        obtain ⟨c, t, rfl, hc, hend⟩ := hstarts htext
        have hread := hskip htext (by omega) blank_nil hends
        simp only [List.nil_append, List.cons_append] at hread
        simp only [comma, ↓reduceIte, List.nil_append, List.cons_append,
          skipBlank_blank_cons hgap hc, if_neg hend, hread, hnext]
      | false =>
        have hread := hskip htext (by omega) hgap hends
        simp only [comma, Bool.false_eq_true, ↓reduceIte, List.cons_append, List.nil_append,
          skipBlank_cons (show isBlank ',' = false by decide), Char.reduceEq, hread, hnext]

end Parts

section Skip

variable {Text : Tree → List Char → Prop} {first : Bool} {ms : List (List Char × Tree)}
  {key before after body close : List Char}

theorem colon_blank (hbefore : Blank before) (s : List Char) :
    colon (before ++ ':' :: s) = .ok s := by
  simp [colon, skipBlank_blank_cons hbefore (show isBlank ':' = false by decide)]

theorem skipKey_of_body {gap : List Char} (hgap : Blank gap) (hkey : Body key)
    (hbefore : Blank before) (s : List Char) :
    skipKey (gap ++ '"' :: (key ++ '"' :: (before ++ ':' :: s))) = .ok s := by
  simp only [skipKey, skipBlank_blank_cons hgap (show isBlank '"' = false by decide), ↓reduceIte,
    skipString_of_body hkey, colon_blank hbefore]

theorem skipMembers_of_parts {skip : List Char → Except Fault (List Char)} {bound : Nat}
    (hskip : ∀ {t text}, Text t text → text.length ≤ bound → ∀ {gap rest}, Blank gap →
      EndsNumber rest → skip (gap ++ (text ++ rest)) = .ok rest)
    (h : Parts (MemberText Text) first ms body) (hbound : body.length ≤ bound)
    (hclose : Blank close) {clock : List Char} (hclock : ms.length < clock.length)
    (rest : List Char) :
    skipMembers skip clock first (body ++ (close ++ '}' :: rest)) = .ok rest := by
  induction h generalizing clock with
  | nil =>
    cases clock with
    | nil => cases hclock
    | cons _ clock =>
      simp [skipMembers, skipBlank_blank_cons hclose (show isBlank '}' = false by decide)]
  | @cons first m ms lead gap text body hlead hgap htext hrest ih =>
    cases clock with
    | nil => cases hclock
    | cons _ clock =>
      cases htext with
      | @mk key before after text t hkey hbefore hafter htext =>
        have hends := hrest.endsNumber hclose (s := '}' :: rest) (by rintro c ⟨⟩; decide)
        simp only [List.length_append, List.length_cons] at hbound
        have hnext := ih (by omega) (Nat.lt_of_succ_lt_succ hclock)
        have hread := hskip htext (by omega) hafter hends
        simp only [List.append_assoc, List.cons_append, skipMembers, skipBlank_append hlead]
        cases first with
        | true =>
          have hpass := skipKey_of_body blank_nil hkey hbefore
            (after ++ (text ++ (body ++ (close ++ '}' :: rest))))
          rw [List.nil_append] at hpass
          simp only [comma, ↓reduceIte, List.nil_append, Char.reduceEq,
            skipBlank_blank_cons hgap (show isBlank '"' = false by decide), hpass, hread, hnext]
        | false =>
          simp only [comma, Bool.false_eq_true, ↓reduceIte, List.cons_append, List.nil_append,
            skipBlank_cons (show isBlank ',' = false by decide), Char.reduceEq,
            skipKey_of_body hgap hkey hbefore, hread, hnext]

theorem MemberText.length_pos {m : List Char × Tree} {text : List Char}
    (h : MemberText Text m text) : 0 < text.length := by
  cases h with
  | mk _ _ _ _ => exact Nat.succ_pos _

theorem Starts.length_pos {text : List Char} (h : Starts text) : 0 < text.length := by
  obtain ⟨c, rest, rfl, -⟩ := h
  exact Nat.succ_pos _

/-- Every text of the grammar can be passed over, however deep it is nested. -/
theorem skip_of_written {t : Tree} {text gap rest clock : List Char} (h : Written t text)
    (hclock : text.length ≤ clock.length) (hgap : Blank gap) (hrest : EndsNumber rest) :
    skip clock (gap ++ (text ++ rest)) = .ok rest := by
  induction clock generalizing t text gap rest with
  | nil =>
    have := h.starts.length_pos
    exact absurd hclock (by rw [List.length_nil]; omega)
  | cons _ clock ih =>
    rw [skip, skipBlank_append hgap]
    cases h with
    | null => rfl
    | bool b => cases b <;> rfl
    | number negative hwhole hfraction hexponent =>
      have hskip := skipNumber_unsigned hwhole hfraction hexponent hrest
      cases negative with
      | true =>
        simp only [minus, ↓reduceIte, List.append_assoc, List.cons_append, List.nil_append,
          skipBlank_cons (show isBlank '-' = false by decide), Char.reduceEq, hskip]
      | false =>
        obtain ⟨c, t, rfl, hc, -⟩ := hwhole.digits.exists_cons
        have hne (d : Char) (hd : isDigit d = false) : c ≠ d := ne_of_isDigit hc hd
        rw [List.cons_append] at hskip
        simp only [minus, Bool.false_eq_true, ↓reduceIte, List.append_assoc, List.cons_append,
          List.nil_append, skipBlank_cons (isBlank_of_isDigit hc), if_neg (hne '[' (by decide)),
          if_neg (hne '{' (by decide)), if_neg (hne 'n' (by decide)), if_neg (hne 't' (by decide)),
          if_neg (hne 'f' (by decide)), if_neg (hne '-' (by decide)), hc, hskip]
    | str hbody =>
      simp only [List.cons_append, List.append_assoc, List.nil_append, Char.reduceEq, ↓reduceIte,
        skipBlank_cons (show isBlank '"' = false by decide), show isDigit '"' = false by decide,
        Bool.false_eq_true, skipString_of_body hbody]
    | @list items body close hitems hclose =>
      have hcount := hitems.length_le fun h => h.starts.length_pos
      simp only [List.length_cons, List.length_append] at hclock
      simp only [List.cons_append, List.append_assoc, List.nil_append, ↓reduceIte,
        skipBlank_cons (show isBlank '[' = false by decide)]
      refine skipItems_of_parts Written.starts
        (fun h hlength _ _ hgap hrest => ih h hlength hgap hrest) hitems (by omega) hclose ?_ rest
      simp only [List.length_cons, List.length_append]
      omega
    | @object members body close hmembers hclose =>
      have hcount := hmembers.length_le fun h => h.length_pos
      simp only [List.length_cons, List.length_append] at hclock
      simp only [List.cons_append, List.append_assoc, List.nil_append, Char.reduceEq, ↓reduceIte,
        skipBlank_cons (show isBlank '{' = false by decide)]
      refine skipMembers_of_parts
        (fun h hlength _ _ hgap hrest => ih h hlength hgap hrest) hmembers (by omega) hclose ?_ rest
      simp only [List.length_cons, List.length_append]
      omega

end Skip

end IndirectBranch.Json
