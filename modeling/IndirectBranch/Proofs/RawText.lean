import Mathlib.Data.List.Forall2
import IndirectBranch.Disassembly
import IndirectBranch.Proofs.Hexadecimal
import IndirectBranch.Proofs.Instructions

/-! The text of raw bytes loses nothing. A whole word is shown as one numeral, its last byte first;
any other byte string is shown as a row of numerals, its first byte first. Each form is read back by
itself, and the two cannot be taken for each other. -/
namespace IndirectBranch

/-! Little-endian numbers. -/

/-- The number that bytes stand for if the first is the lowest digit. -/
theorem littleEndian_eq_ofDigits (bytes : Bytes) :
    littleEndian bytes = Nat.ofDigits 256 (bytes.map UInt8.toNat) := by
  induction bytes with
  | nil => rfl
  | cons b bytes ih => rw [littleEndian, ih, List.map_cons, Nat.ofDigits_cons]

theorem lt_of_mem_map_toNat {bytes : Bytes} {d : Nat} (h : d ∈ bytes.map UInt8.toNat) :
    d < 256 := by
  obtain ⟨b, -, rfl⟩ := List.mem_map.mp h
  exact b.toNat_lt

theorem littleEndian_lt {bytes : Bytes} (h : bytes.length = instructionWidth) :
    littleEndian bytes < 2 ^ 32 := by
  have hlt := Nat.ofDigits_lt_base_pow_length (by decide) fun _ => @lt_of_mem_map_toNat bytes _
  rw [← littleEndian_eq_ofDigits, List.length_map, h] at hlt
  exact hlt

theorem littleEndian_inj {a b : Bytes} (hlength : a.length = b.length)
    (h : littleEndian a = littleEndian b) : a = b := by
  rw [littleEndian_eq_ofDigits, littleEndian_eq_ofDigits] at h
  apply List.map_injective_iff.mpr fun _ _ => UInt8.toNat_inj.mp
  apply Nat.ofDigits_inj_of_len_eq (by decide) _ (fun _ => lt_of_mem_map_toNat)
    (fun _ => lt_of_mem_map_toNat) h
  rw [List.length_map, List.length_map, hlength]

theorem Instruction.toNat_word (i : Instruction) : i.word.toNat = littleEndian i.bytes :=
  UInt32.toNat_ofNat_of_lt' (littleEndian_lt rfl)

/-! Rows of bytes. -/

namespace Text

theorem forall₂_hexNumeral_iff {groups : List String} {bytes : Bytes} :
    List.Forall₂ (fun group b => HexNumeral 2 group b.toNat) groups bytes ↔
      groups = bytes.map hexByte := by
  have hbyte (group : String) (b : UInt8) : HexNumeral 2 group b.toNat ↔ group = hexByte b :=
    hexNumeral_iff (by decide) b.toNat_lt
  simp only [hbyte]
  rw [← List.forall₂_eq_eq_eq, List.forall₂_map_right_iff]

/-- Split at its blanks, a row falls into the numerals of its bytes. -/
theorem splitOn_hexBytes {bytes : Bytes} (h : bytes ≠ []) :
    (hexBytes " " bytes).toList.splitOn ' ' = bytes.map fun b => (hexByte b).toList := by
  rw [hexBytes, String.toList_intercalate, List.map_map]
  apply List.splitOn_intercalate ' '
  · intro digits hdigits hblank
    obtain ⟨b, -, rfl⟩ := List.mem_map.mp hdigits
    exact (hexNumeral_hexByte b).notMem (by decide) hblank
  · exact mt List.map_eq_nil_iff.mp h

theorem hexBytes_eq_empty_iff {bytes : Bytes} : hexBytes " " bytes = "" ↔ bytes = [] := by
  constructor
  · intro h
    by_contra hne
    have hsplit := splitOn_hexBytes hne
    rw [h, String.toList_empty, List.splitOn_nil] at hsplit
    obtain ⟨b, -, hb⟩ := List.mem_map.mp (hsplit ▸ List.mem_singleton_self [])
    have hlength := length_hexByte b
    rw [hb] at hlength
    cases hlength
  · rintro rfl
    rfl

theorem hexBytes_inj {a b : Bytes} (h : hexBytes " " a = hexBytes " " b) : a = b := by
  have hempty : a = [] ↔ b = [] := by
    rw [← hexBytes_eq_empty_iff, h, hexBytes_eq_empty_iff]
  by_cases ha : a = []
  · rw [ha, hempty.mp ha]
  · have hnumeral : Function.Injective fun b => (hexByte b).toList := fun _ _ => hexByte_inj
    apply List.map_injective_iff.mpr hnumeral
    rw [← splitOn_hexBytes ha, h, splitOn_hexBytes (mt hempty.mpr ha)]

end Text

/-! The two forms of raw text. -/

section Forms

variable {bytes : Bytes}

theorem rawText_word (h : bytes.length = instructionWidth) :
    rawText bytes = ".inst 0x" ++ Text.hexPadded 8 (littleEndian bytes) := by
  obtain ⟨i, hi⟩ := Option.isSome_iff_exists.mp (Instruction.ofBytes?_isSome_iff.mpr h)
  obtain rfl := Instruction.ofBytes?_eq_some_iff.mp hi
  rw [← i.toNat_word]
  exact String.append_assoc.symm

theorem rawText_row (h : bytes.length ≠ instructionWidth) :
    rawText bytes = ".byte " ++ Text.hexBytes " " bytes := by
  have hnone : Instruction.ofBytes? bytes = none := by
    rw [← Option.not_isSome_iff_eq_none, Instruction.ofBytes?_isSome_iff]
    exact h
  rw [rawText, hnone]

/-- The letter after the dot tells the forms apart. -/
theorem getElem?_rawText_eq_iff :
    (rawText bytes).toList[1]? = some 'i' ↔ bytes.length = instructionWidth := by
  by_cases h : bytes.length = instructionWidth
  · rw [rawText_word h]
    simp [h]
  · rw [rawText_row h]
    simp [h]

theorem rawText_eq_word_iff (h : bytes.length = instructionWidth) {text : String} :
    rawText bytes = text ↔ ∃ digits, text = ".inst 0x" ++ digits ∧
      Text.HexNumeral 8 digits (littleEndian bytes) := by
  have hword : littleEndian bytes < 16 ^ 8 := littleEndian_lt h
  simp only [Text.hexNumeral_iff (by decide) hword, exists_eq_right, rawText_word h, eq_comm]

theorem rawText_eq_row_iff (h : bytes.length ≠ instructionWidth) {text : String} :
    rawText bytes = text ↔ ∃ groups, text = ".byte " ++ " ".intercalate groups ∧
      List.Forall₂ (fun group b => Text.HexNumeral 2 group b.toNat) groups bytes := by
  simp only [Text.forall₂_hexNumeral_iff, exists_eq_right, rawText_row h, eq_comm]
  rfl

end Forms

theorem rawText_inj {a b : Bytes} (h : rawText a = rawText b) : a = b := by
  have hform : a.length = instructionWidth ↔ b.length = instructionWidth := by
    rw [← getElem?_rawText_eq_iff, h, getElem?_rawText_eq_iff]
  by_cases ha : a.length = instructionWidth
  · have hb := hform.mp ha
    obtain ⟨ds, hds, hnumeral⟩ := (rawText_eq_word_iff ha).mp rfl
    obtain ⟨es, hes, hnumeral'⟩ := (rawText_eq_word_iff hb).mp h.symm
    obtain rfl : ds = es := (String.append_right_inj _).mp (hds.symm.trans hes)
    exact littleEndian_inj (ha.trans hb.symm) (hnumeral.value_unique hnumeral')
  · rw [rawText_row ha, rawText_row (mt hform.mpr ha), String.append_right_inj] at h
    exact Text.hexBytes_inj h

/-- Byte strings with the same raw text are the same, whatever their lengths. The text of four bytes
is `.inst 0x` and eight digits for the number whose lowest byte comes first; the text of any other
byte string is `.byte ` and two digits for each byte, in order, with blanks between them. Conversely,
a text that shows the bytes in this way is their raw text. -/
theorem rawText_lossless :
    (∀ a b : Bytes, rawText a = rawText b → a = b) ∧
    (∀ (bytes : Bytes) (text : String), bytes.length = 4 →
      (rawText bytes = text ↔ ∃ digits, text = ".inst 0x" ++ digits ∧
        Text.HexNumeral 8 digits (Nat.ofDigits 256 (bytes.map UInt8.toNat)))) ∧
    ∀ (bytes : Bytes) (text : String), bytes.length ≠ 4 →
      (rawText bytes = text ↔ ∃ groups, text = ".byte " ++ " ".intercalate groups ∧
        List.Forall₂ (fun group b => Text.HexNumeral 2 group b.toNat) groups bytes) := by
  refine ⟨fun a b h => rawText_inj h, fun bytes text h => ?_, fun bytes text h => ?_⟩
  · rw [← littleEndian_eq_ofDigits]
    exact rawText_eq_word_iff h
  · exact rawText_eq_row_iff h

/-- Four bytes are shown from the last to the first, five from the first to the last, and none as
nothing after the keyword. The word is that of no other bytes. -/
theorem rawText_lossless_blr :
    rawText [0x00, 0x00, 0x3f, 0xd6] = ".inst 0xd63f0000" ∧
    rawText [0x00, 0x00, 0x3f, 0xd6, 0x0a] = ".byte 00 00 3f d6 0a" ∧
    rawText [] = ".byte " ∧
    ∀ bytes, rawText bytes = ".inst 0xd63f0000" → bytes = [0x00, 0x00, 0x3f, 0xd6] := by
  obtain ⟨hinj, hword, hrow⟩ := rawText_lossless
  have hblr : rawText [0x00, 0x00, 0x3f, 0xd6] = ".inst 0xd63f0000" := by
    apply (hword _ _ rfl).mpr
    refine ⟨"d63f0000", rfl, [13, 6, 3, 15, 0, 0, 0, 0], ?_, rfl, by decide⟩
    simp [Text.IsLowerDigit]
  have hbyte (x y : Nat) (hx : x < 16) (hy : y < 16) :
      Text.HexNumeral 2 (String.ofList [x.digitChar, y.digitChar]) (16 * x + y) := by
    refine ⟨[x, y], by simp [Text.IsLowerDigit, hx, hy], rfl, ?_⟩
    have hreverse : [x, y].reverse = [y, x] := rfl
    rw [hreverse, Nat.ofDigits_cons, Nat.ofDigits_singleton]
    omega
  refine ⟨hblr, (hrow _ _ (by decide)).mpr ⟨["00", "00", "3f", "d6", "0a"], rfl, ?_⟩,
    (hrow _ _ (by decide)).mpr ⟨[], rfl, .nil⟩, fun bytes h => hinj _ _ (h.trans hblr.symm)⟩
  exact .cons (hbyte 0 0 (by decide) (by decide)) (.cons (hbyte 0 0 (by decide) (by decide))
    (.cons (hbyte 3 15 (by decide) (by decide)) (.cons (hbyte 13 6 (by decide) (by decide))
      (.cons (hbyte 0 10 (by decide) (by decide)) .nil))))

end IndirectBranch
