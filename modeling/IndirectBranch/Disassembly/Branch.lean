import IndirectBranch.Disassembly

/-! Assembly text of the register branches and returns. -/
namespace IndirectBranch.Disassembly

/-- General register `n`; number 31 is the zero register. -/
def register (n : Nat) : String := if n = 31 then "xzr" else s!"x{n}"

/-- As a modifier, register 31 is the stack pointer. -/
def modifier (n : Nat) : String := if n = 31 then "sp" else s!"x{n}"

structure Form where
  mask : UInt32
  bits : UInt32
  text : (n m : Nat) → String

def plain (mnemonic : String) (bits : UInt32) : Form := ⟨0xFFFFFFFF, bits, fun _ _ => mnemonic⟩

def oneRegister (mnemonic : String) (mask bits : UInt32) : Form :=
  ⟨mask, bits, fun n _ => s!"{mnemonic} {register n}"⟩

def twoRegisters (mnemonic : String) (bits : UInt32) : Form :=
  ⟨0xFFFFFC00, bits, fun n m => s!"{mnemonic} {register n}, {modifier m}"⟩

/-- The forms are tried in order; `ret` alone stands for the link register. -/
def forms : List Form := [
  plain "ret" 0xD65F03C0,
  plain "retaa" 0xD65F0BFF,
  plain "retab" 0xD65F0FFF,
  plain "eret" 0xD69F03E0,
  plain "drps" 0xD6BF03E0,
  plain "nop" 0xD503201F,
  oneRegister "br" 0xFFFFFC1F 0xD61F0000,
  oneRegister "blr" 0xFFFFFC1F 0xD63F0000,
  oneRegister "ret" 0xFFFFFC1F 0xD65F0000,
  oneRegister "braaz" 0xFFFFFC1F 0xD61F081F,
  oneRegister "brabz" 0xFFFFFC1F 0xD61F0C1F,
  oneRegister "blraaz" 0xFFFFFC1F 0xD63F081F,
  oneRegister "blrabz" 0xFFFFFC1F 0xD63F0C1F,
  twoRegisters "braa" 0xD71F0800,
  twoRegisters "brab" 0xD71F0C00,
  twoRegisters "blraa" 0xD73F0800,
  twoRegisters "blrab" 0xD73F0C00]

def branchText? (word : UInt32) : Option String :=
  (forms.find? fun f => word &&& f.mask == f.bits).map fun f =>
    f.text (word.toNat / 32 % 32) (word.toNat % 32)

/-- Only the first instruction of the bytes is read. -/
def branchRender (bytes : Bytes) (address : UInt64) : Except DisassemblyError String :=
  match (Instruction.ofBytes? (bytes.take instructionWidth)).bind (branchText? ·.word) with
  | some text => .ok text
  | none => .error (.undecodable address bytes "no instruction decoded")

end Disassembly

namespace Disassembler

def mnemonic : Disassembler := ⟨"capstone", Disassembly.branchRender⟩

end Disassembler

namespace DisassemblerRegistry

def defaultName : String := Disassembler.mnemonic.name

def standard : DisassemblerRegistry :=
  (empty.register Disassembler.hex.name (.ok .hex)).register defaultName (.ok .mnemonic)

end DisassemblerRegistry
end IndirectBranch
