import Mathlib.Data.Nat.Digits.Lemmas
import IndirectBranch.Text.Hex

/-! Hexadecimal text names one number, with or without zeros in front, so numbers that are written
alike are equal. At a fixed width each number has one numeral. -/
namespace IndirectBranch.Text

/-- The character is a digit of the radix, in either case, and stands for `d`. -/
def IsDigit (radix : Nat) (c : Char) (d : Nat) : Prop :=
  d < radix ∧ (c = d.digitChar ∨ c = d.digitChar.toUpper)

theorem hexValue?_eq_some_iff {c : Char} {d : Nat} :
    hexValue? c = some d ↔ IsDigit 16 c d := by
  constructor
  · intro h
    have hall : ∀ n : Fin 128, ∀ d ∈ hexValue? (Char.ofNat n), IsDigit 16 (Char.ofNat n) d := by
      unfold IsDigit
      decide
    have hsmall : c.toNat < 128 := by
      unfold hexValue? at h
      simp only [Char.le_def, UInt32.le_iff_toNat_le] at h
      split at h
      next hc => exact Nat.lt_of_le_of_lt hc.2 (by decide)
      split at h
      next hc => exact Nat.lt_of_le_of_lt hc.2 (by decide)
      split at h
      next hc => exact Nat.lt_of_le_of_lt hc.2 (by decide)
      cases h
    have hc := hall ⟨c.toNat, hsmall⟩ d
    rw [Char.ofNat_toNat] at hc
    exact hc h
  · rintro ⟨hd, hc⟩
    have hall : ∀ d : Fin 16, hexValue? (d : Nat).digitChar = some (d : Nat) ∧
        hexValue? (d : Nat).digitChar.toUpper = some (d : Nat) := by decide
    rcases hc with rfl | rfl
    · exact (hall ⟨d, hd⟩).1
    · exact (hall ⟨d, hd⟩).2

theorem isDigit_rightUnique {radix : Nat} (hradix : radix ≤ 16) :
    Relator.RightUnique (IsDigit radix) := by
  rintro c d d' ⟨hd, hc⟩ ⟨hd', hc'⟩
  have h := hexValue?_eq_some_iff.mpr ⟨Nat.lt_of_lt_of_le hd hradix, hc⟩
  have h' := hexValue?_eq_some_iff.mpr ⟨Nat.lt_of_lt_of_le hd' hradix, hc'⟩
  exact Option.some.inj (h.symm.trans h')

/-- The character is the lowercase digit of the radix that stands for `d`. -/
def IsLowerDigit (radix : Nat) (c : Char) (d : Nat) : Prop := d < radix ∧ c = d.digitChar

theorem isLowerDigit_leftUnique (radix : Nat) : Relator.LeftUnique (IsLowerDigit radix) := by
  rintro c c' d ⟨-, rfl⟩ ⟨-, rfl⟩
  rfl

theorem isLowerDigit_rightUnique : Relator.RightUnique (IsLowerDigit 16) := by
  rintro c d d' ⟨hd, hc⟩ ⟨hd', hc'⟩
  exact isDigit_rightUnique le_rfl ⟨hd, .inl hc⟩ ⟨hd', .inl hc'⟩

/-! Digits without zeros in front. -/

theorem forall₂_toDigits {radix : Nat} (hradix : 1 < radix) (n : Nat) :
    ∃ ds, List.Forall₂ (IsLowerDigit radix) (Nat.toDigits radix n) ds ∧
      Nat.ofDigits radix ds.reverse = n := by
  induction n using Nat.strongRecOn with
  | ind n ih =>
    rw [Nat.toDigits_eq_if hradix]
    split
    next hn => exact ⟨[n], .cons ⟨hn, rfl⟩ .nil, by simp⟩
    next hn =>
      have hpos : 0 < radix := Nat.lt_trans Nat.zero_lt_one hradix
      obtain ⟨ds, hds, hvalue⟩ := ih (n / radix) (Nat.div_lt_self (by omega) hradix)
      refine ⟨ds ++ [n % radix], ?_, ?_⟩
      · exact List.rel_append hds (.cons ⟨Nat.mod_lt _ hpos, rfl⟩ .nil)
      · rw [List.reverse_append, List.reverse_singleton, List.singleton_append, Nat.ofDigits_cons,
          hvalue]
        exact Nat.mod_add_div n radix

theorem exists_digitChar_of_forall₂ {radix : Nat} {cs : List Char} {ds : List Nat}
    (h : List.Forall₂ (IsLowerDigit radix) cs ds) {c : Char} (hc : c ∈ cs) :
    ∃ d < radix, c = d.digitChar := by
  induction h with
  | nil => cases hc
  | cons hd _ ih =>
    rcases List.mem_cons.mp hc with rfl | hc
    · exact ⟨_, hd.1, hd.2⟩
    · exact ih hc

theorem toDigits_inj {m n : Nat} (h : Nat.toDigits 16 m = Nat.toDigits 16 n) : m = n := by
  obtain ⟨ds, hds, hm⟩ := forall₂_toDigits (show 1 < 16 by decide) m
  obtain ⟨es, hes, hn⟩ := forall₂_toDigits (show 1 < 16 by decide) n
  rw [← h] at hes
  rw [← hm, ← hn, List.right_unique_forall₂' isLowerDigit_rightUnique hds hes]

theorem toList_hex (n : Nat) : (hex n).toList = '0' :: 'x' :: Nat.toDigits 16 n := by
  simp [hex, hexDigits]

theorem hex_inj {m n : Nat} (h : (hex m).toList = (hex n).toList) : m = n := by
  rw [toList_hex, toList_hex] at h
  exact toDigits_inj (List.cons.inj (List.cons.inj h).2).2

theorem notMem_hex {c : Char} (hdigit : ∀ d < 16, c ≠ d.digitChar) (hx : c ≠ 'x') (n : Nat) :
    c ∉ (hex n).toList := by
  rw [toList_hex, List.mem_cons, List.mem_cons]
  rintro (rfl | h | h)
  · exact hdigit 0 (by decide) rfl
  · exact hx h
  · obtain ⟨ds, hds, -⟩ := forall₂_toDigits (show 1 < 16 by decide) n
    obtain ⟨d, hd, hc⟩ := exists_digitChar_of_forall₂ hds h
    exact hdigit d hd hc

/-! Numerals of a fixed width. -/

/-- The text consists of `width` lowercase digits that stand for `n`, the highest first. -/
def HexNumeral (width : Nat) (text : String) (n : Nat) : Prop :=
  ∃ ds, List.Forall₂ (IsLowerDigit 16) text.toList ds ∧ ds.length = width ∧
    Nat.ofDigits 16 ds.reverse = n

namespace HexNumeral

variable {width m n : Nat} {s t : String}

theorem length_toList (h : HexNumeral width s n) : s.toList.length = width := by
  obtain ⟨ds, hds, hlength, -⟩ := h
  exact hds.length_eq.trans hlength

theorem notMem (h : HexNumeral width s n) {c : Char} (hdigit : ∀ d < 16, c ≠ d.digitChar) :
    c ∉ s.toList := by
  obtain ⟨ds, hds, -⟩ := h
  intro hc
  obtain ⟨d, hd, rfl⟩ := exists_digitChar_of_forall₂ hds hc
  exact hdigit d hd rfl

theorem value_unique (hm : HexNumeral width s m) (hn : HexNumeral width s n) : m = n := by
  obtain ⟨ds, hds, -, rfl⟩ := hm
  obtain ⟨es, hes, -, rfl⟩ := hn
  rw [List.right_unique_forall₂' isLowerDigit_rightUnique hds hes]

/-- At a fixed width no number has two numerals. -/
theorem unique (hs : HexNumeral width s n) (ht : HexNumeral width t n) : s = t := by
  obtain ⟨ds, hds, hdlength, hdvalue⟩ := hs
  obtain ⟨es, hes, helength, hevalue⟩ := ht
  have hbound {cs : List Char} {ds : List Nat} (h : List.Forall₂ (IsLowerDigit 16) cs ds) :
      ∀ d ∈ ds.reverse, d < 16 := by
    intro d hd
    exact ((List.forall₂_and_left ds cs).mp h.flip).1 d (List.mem_reverse.mp hd)
  have hdigits : ds.reverse = es.reverse := by
    apply Nat.ofDigits_inj_of_len_eq (by decide) _ (hbound hds) (hbound hes)
    · rw [hdvalue, hevalue]
    · rw [List.length_reverse, List.length_reverse, hdlength, helength]
  rw [← List.reverse_inj.mp hdigits] at hes
  apply String.toList_inj.mp
  exact List.left_unique_forall₂' (isLowerDigit_leftUnique 16) hds hes

end HexNumeral

theorem forall₂_replicate_zero (count : Nat) :
    List.Forall₂ (IsLowerDigit 16) (List.replicate count '0') (List.replicate count 0) := by
  induction count with
  | zero => exact .nil
  | succ count ih => exact .cons ⟨by decide, rfl⟩ ih

theorem hexNumeral_hexPadded {width n : Nat} (hwidth : 0 < width) (h : n < 16 ^ width) :
    HexNumeral width (hexPadded width n) n := by
  obtain ⟨ds, hds, hvalue⟩ := forall₂_toDigits (show 1 < 16 by decide) n
  have hlength : ds.length ≤ width := by
    rw [← hds.length_eq]
    exact (Nat.length_toDigits_le_iff (by decide) hwidth).mpr h
  refine ⟨List.replicate (width - ds.length) 0 ++ ds, ?_, ?_, ?_⟩
  · rw [hexPadded, String.toList_ofList, ← hds.length_eq]
    exact List.rel_append (forall₂_replicate_zero _) hds
  · rw [List.length_append, List.length_replicate]
    omega
  · rw [List.reverse_append, List.reverse_replicate, Nat.ofDigits_append_replicate_zero, hvalue]

theorem hexNumeral_iff {width n : Nat} (hwidth : 0 < width) (h : n < 16 ^ width)
    {text : String} : HexNumeral width text n ↔ text = hexPadded width n := by
  constructor
  · exact fun htext => htext.unique (hexNumeral_hexPadded hwidth h)
  · rintro rfl
    exact hexNumeral_hexPadded hwidth h

theorem hexNumeral_hexByte (b : UInt8) : HexNumeral 2 (hexByte b) b.toNat :=
  hexNumeral_hexPadded (by decide) b.toNat_lt

@[simp] theorem length_hexByte (b : UInt8) : (hexByte b).toList.length = 2 :=
  (hexNumeral_hexByte b).length_toList

theorem hexByte_inj {a b : UInt8} (h : (hexByte a).toList = (hexByte b).toList) : a = b := by
  have hb := hexNumeral_hexByte b
  rw [← String.toList_inj.mp h] at hb
  exact UInt8.toNat_inj.mp ((hexNumeral_hexByte a).value_unique hb)

end IndirectBranch.Text
