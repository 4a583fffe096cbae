import IndirectBranch.Image

/-! The instructions of a byte string are its complete four-byte chunks, in order: instruction `i`
is read from offset `4 * i`, and a shorter tail gives none. -/
namespace IndirectBranch

def wordAt (bytes : Bytes) (offset : Nat) : UInt32 :=
  UInt32.ofNat (littleEndian ((bytes.drop offset).take instructionWidth))

theorem instructions_of_short {bytes : Bytes} (h : bytes.length < instructionWidth) :
    instructions bytes = [] := by
  unfold instructions
  rw [instructionsOnto.eq_2]
  · rfl
  · rintro b0 b1 b2 b3 rest rfl
    simp [instructionWidth] at h
    omega

/-- Instruction `i` consists of the four bytes at offset `4 * i`. -/
theorem getElem?_instructions (bytes : Bytes) (i : Nat) :
    (instructions bytes)[i]? =
      Instruction.ofBytes? ((bytes.drop (instructionWidth * i)).take instructionWidth) := by
  induction i generalizing bytes with
  | zero =>
    match bytes with
    | b0 :: b1 :: b2 :: b3 :: rest => simp [instructionWidth, Instruction.ofBytes?]
    | [] | [_] | [_, _] | [_, _, _] =>
      rw [instructions_of_short (by simp [instructionWidth])]
      rfl
  | succ i ih =>
    match bytes with
    | b0 :: b1 :: b2 :: b3 :: rest =>
      have hoffset : instructionWidth * (i + 1) = instructionWidth * i + 4 := rfl
      simp only [instructions_cons, List.getElem?_cons_succ, ih, hoffset, List.drop_succ_cons]
    | [] | [_] | [_, _] | [_, _, _] =>
      rw [instructions_of_short (by simp [instructionWidth]), List.drop_eq_nil_of_le]
      · rfl
      · simp only [List.length_cons, List.length_nil, instructionWidth]
        omega

theorem Instruction.ofBytes?_eq_some_iff {bytes : Bytes} {ins : Instruction} :
    Instruction.ofBytes? bytes = some ins ↔ bytes = ins.bytes := by
  constructor
  · intro h
    unfold Instruction.ofBytes? at h
    split at h
    · cases h
      rfl
    · cases h
  · rintro rfl
    rfl

theorem Instruction.ofBytes?_isSome_iff {bytes : Bytes} :
    (Instruction.ofBytes? bytes).isSome ↔ bytes.length = instructionWidth := by
  constructor
  · intro h
    obtain ⟨ins, hins⟩ := Option.isSome_iff_exists.mp h
    rw [Instruction.ofBytes?_eq_some_iff.mp hins]
    rfl
  · intro h
    match bytes, h with
    | [_, _, _, _], _ => rfl

/-- An instruction stands at index `i` exactly if all four bytes at offset `4 * i` are there. -/
theorem getElem?_instructions_eq_some_iff {bytes : Bytes} {i : Nat} {ins : Instruction} :
    (instructions bytes)[i]? = some ins ↔
      (bytes.drop (instructionWidth * i)).take instructionWidth = ins.bytes := by
  rw [getElem?_instructions, Instruction.ofBytes?_eq_some_iff]

theorem exists_instruction_iff {bytes : Bytes} {i : Nat} :
    (∃ ins, (instructions bytes)[i]? = some ins) ↔
      instructionWidth * i + instructionWidth ≤ bytes.length := by
  rw [← Option.isSome_iff_exists, getElem?_instructions, Instruction.ofBytes?_isSome_iff,
    List.length_take, List.length_drop]
  simp only [instructionWidth]
  omega

theorem word_of_getElem? {bytes : Bytes} {i : Nat} {ins : Instruction}
    (h : (instructions bytes)[i]? = some ins) : ins.word = wordAt bytes (instructionWidth * i) := by
  rw [Instruction.word, wordAt, getElem?_instructions_eq_some_iff.mp h]

theorem length_instructions (bytes : Bytes) :
    (instructions bytes).length = bytes.length / instructionWidth := by
  have h (i : Nat) : i < (instructions bytes).length ↔ i < bytes.length / instructionWidth := by
    have hsome : (∃ ins, (instructions bytes)[i]? = some ins) ↔ i < (instructions bytes).length := by
      rw [← Option.isSome_iff_exists, isSome_getElem?]
    rw [← hsome, exists_instruction_iff]
    simp only [instructionWidth]
    omega

  have hlow := h (instructions bytes).length
  have hhigh := h (bytes.length / instructionWidth)
  omega

theorem instructions_take (bytes : Bytes) :
    instructions (bytes.take (instructionWidth * (bytes.length / instructionWidth))) =
      instructions bytes := by
  apply List.ext_getElem?
  intro i
  by_cases hi : i < bytes.length / instructionWidth
  · have hwhole : min instructionWidth
        (instructionWidth * (bytes.length / instructionWidth) - instructionWidth * i) =
          instructionWidth := by
      simp only [instructionWidth] at hi ⊢
      omega
    rw [getElem?_instructions, getElem?_instructions, List.drop_take, List.take_take, hwhole]
  · have hlength : (bytes.take (instructionWidth * (bytes.length / instructionWidth))).length ≤
        bytes.length := (List.take_sublist _ _).length_le
    have hdiv := Nat.div_le_div_right (c := instructionWidth) hlength
    rw [List.getElem?_eq_none, List.getElem?_eq_none]
    all_goals
      rw [length_instructions]
      omega

end IndirectBranch
