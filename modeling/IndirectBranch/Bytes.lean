/-! Byte strings, little-endian numbers and four-byte instructions. -/
namespace IndirectBranch

abbrev Bytes := List UInt8

/-- The number whose base-256 digits are `bytes`, least significant first. -/
def littleEndian : Bytes → Nat
  | [] => 0
  | b :: bs => b.toNat + 256 * littleEndian bs

def bigEndian (bytes : Bytes) : Nat := littleEndian bytes.reverse

/-- One instruction as it lies in memory, lowest address first. -/
structure Instruction where
  b0 : UInt8
  b1 : UInt8
  b2 : UInt8
  b3 : UInt8
  deriving DecidableEq, Repr

def Instruction.bytes (i : Instruction) : Bytes := [i.b0, i.b1, i.b2, i.b3]

def instructionWidth : Nat := 4

/-- Instructions are stored little-endian. -/
def Instruction.word (i : Instruction) : UInt32 := UInt32.ofNat (littleEndian i.bytes)

def Instruction.ofBytes? : Bytes → Option Instruction
  | [b0, b1, b2, b3] => some ⟨b0, b1, b2, b3⟩
  | _ => none

/-- Complete instructions from the start of `bytes`; a shorter tail is ignored. -/
def instructionsOnto (found : List Instruction) : Bytes → List Instruction
  | b0 :: b1 :: b2 :: b3 :: rest => instructionsOnto (⟨b0, b1, b2, b3⟩ :: found) rest
  | _ => found.reverse

def instructions (bytes : Bytes) : List Instruction := instructionsOnto [] bytes

theorem instructionsOnto_append (found more : List Instruction) (bytes : Bytes) :
    instructionsOnto (found ++ more) bytes = more.reverse ++ instructionsOnto found bytes := by
  fun_induction instructionsOnto found bytes with
  | case1 found b0 b1 b2 b3 rest ih => rw [instructionsOnto, ← ih]; rfl
  | case2 found rest h => rw [instructionsOnto.eq_2 _ _ h]; simp

@[simp] theorem instructions_cons (b0 b1 b2 b3 : UInt8) (rest : Bytes) :
    instructions (b0 :: b1 :: b2 :: b3 :: rest) = ⟨b0, b1, b2, b3⟩ :: instructions rest :=
  instructionsOnto_append [] [⟨b0, b1, b2, b3⟩] rest

end IndirectBranch
