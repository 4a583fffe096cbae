import IndirectBranch.Text.Utf8
import Mathlib.Tactic.Common

/-! UTF-8 keeps the order of texts: characters are compared by the first byte in which they differ,
and none is the beginning of another. A character of seven bits is one byte, and no other character
has that byte in it. -/
namespace IndirectBranch.Text

def utf8 (s : String) : Bytes := s.toUTF8.data.toList

theorem utf8_eq_flatMap (s : String) : utf8 s = s.toList.flatMap String.utf8EncodeChar := by
  rw [utf8, String.toUTF8_eq_toByteArray, ← String.utf8Encode_toList, List.utf8Encode,
    List.toList_data_toByteArray]

/-- The bytes of a lower character come first, whatever follows the two. -/
theorem utf8EncodeChar_append_lt {c d : Char} (h : c < d) (us vs : Bytes) :
    String.utf8EncodeChar c ++ us < String.utf8EncodeChar d ++ vs := by
  have hlt : c.val.toNat < d.val.toNat := h
  have hlast : d.val.toNat < 0x110000 := by
    rcases d.valid with hd | hd <;> omega
  unfold String.utf8EncodeChar
  generalize c.val.toNat = m at *
  generalize d.val.toNat = n at *
  dsimp only
  split_ifs <;> simp only [List.cons_append, List.nil_append, List.cons_lt_cons_iff,
    UInt8.lt_iff_toNat_lt, ← UInt8.toNat_inj, UInt8.toNat_ofNat'] <;> try omega
  rcases Nat.lt_or_ge (m / 4096) (n / 4096) with hhigh | hlow <;> omega

theorem utf8_lt_utf8 {s t : String} (h : s < t) : utf8 s < utf8 t := by
  have hchars : s.toList < t.toList := String.lt_iff.mp h
  rw [utf8_eq_flatMap, utf8_eq_flatMap]
  generalize s.toList = cs at hchars
  generalize t.toList = ds at hchars
  induction cs generalizing ds with
  | nil =>
    cases ds with
    | nil => cases hchars
    | cons d ds =>
      obtain ⟨b, bs, hd⟩ := List.exists_cons_of_ne_nil (String.utf8EncodeChar_ne_nil (c := d))
      rw [List.flatMap_cons, hd]
      exact List.nil_lt_cons _ _
  | cons c cs ih =>
    cases ds with
    | nil => cases hchars
    | cons d ds =>
      rw [List.flatMap_cons, List.flatMap_cons]
      rcases List.cons_lt_cons_iff.mp hchars with hlt | ⟨rfl, hrest⟩
      · exact utf8EncodeChar_append_lt hlt _ _
      · exact List.append_left_lt (ih ds hrest)

theorem toNat_ofNat_of_valid {n : Nat} (h : n.isValidChar) : (Char.ofNat n).toNat = n := by
  have hchar : Char.ofNat n = Char.ofNatAux n h := dif_pos h
  rw [hchar]
  rfl

/-- Characters of seven bits are not among those of more. -/
theorem mem_of_mem_ofNat_cons {n : Nat} {c : Char} {cs : List Char} (hlarge : 0x80 ≤ n)
    (hvalid : n.isValidChar) (hascii : c.toNat < 0x80) (h : c ∈ Char.ofNat n :: cs) : c ∈ cs := by
  rcases List.mem_cons.mp h with rfl | h
  · rw [toNat_ofNat_of_valid hvalid] at hascii
    omega
  · exact h

/-- A character of seven bits stands in the bytes of a text as one of them. -/
theorem mem_of_decodeUtf8? {bytes : Bytes} {cs : List Char} (h : decodeUtf8? bytes = some cs)
    {c : Char} (hascii : c.toNat < 0x80) (hc : c ∈ cs) : UInt8.ofNat c.toNat ∈ bytes := by
  fun_induction decodeUtf8? bytes generalizing cs with
  | case1 =>
    cases h
    cases hc
  | case2 b0 rest0 hb0 ih =>
    obtain ⟨cs, hrest, rfl⟩ := Option.map_eq_some_iff.mp h
    rcases List.mem_cons.mp hc with rfl | hc
    · have hb0 : b0.toNat < 0x80 := UInt8.lt_iff_toNat_lt.mp hb0
      rw [toNat_ofNat_of_valid (.inl (by omega)), UInt8.ofNat_toNat]
      exact List.mem_cons_self
    · exact List.mem_cons_of_mem _ (ih hrest hc)
  | case5 b0 hb0 b1 rest1 hb1 hlead ih =>
    obtain ⟨cs, hrest, rfl⟩ := Option.map_eq_some_iff.mp h
    rw [Bool.and_eq_true, decide_eq_true_iff, decide_eq_true_iff] at hlead
    have hlead : 0xC2 ≤ b0.toNat ∧ b0.toNat < 0xE0 := hlead
    have hlow : low6 b1 < 64 := Nat.mod_lt _ (by decide)
    have hc := mem_of_mem_ofNat_cons (by omega) (.inl (by omega)) hascii hc
    exact List.mem_append_right [b0, b1] (ih hrest hc)
  | case9 b0 hb0 b1 hb1 htwo b2 rest2 hb2 hlead n hn =>
    rename_i ih
    obtain ⟨cs, hrest, rfl⟩ := Option.map_eq_some_iff.mp h
    simp only [Bool.or_eq_true, Bool.and_eq_true, decide_eq_true_eq] at hn
    have hlow : low6 b1 < 64 ∧ low6 b2 < 64 := ⟨Nat.mod_lt _ (by decide), Nat.mod_lt _ (by decide)⟩
    have hc := mem_of_mem_ofNat_cons (by omega) (by simp only [Nat.isValidChar]; omega) hascii hc
    exact List.mem_append_right [b0, b1, b2] (ih hrest hc)
  | case11 b0 hb0 b1 hb1 htwo b2 hb2 hthree b3 rest3 n hn =>
    rename_i ih
    obtain ⟨cs, hrest, rfl⟩ := Option.map_eq_some_iff.mp h
    simp only [Bool.and_eq_true, decide_eq_true_eq] at hn
    have hc := mem_of_mem_ofNat_cons (by omega) (.inr (by omega)) hascii hc
    exact List.mem_append_right [b0, b1, b2, b3] (ih hrest hc)
  | _ => cases h

end IndirectBranch.Text
