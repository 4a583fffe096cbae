import IndirectBranch.Text.Quoted
import Std.Data.TreeMap

/-! Disassemblers, the text of raw encodings, and the registry of disassemblers by name. -/
namespace IndirectBranch

inductive DisassemblyError
  | startup (reason : String)
  | undecodable (address : UInt64) (bytes : Bytes) (reason : String)
  | unknownName (name : String) (available : List String)
  deriving DecidableEq, Repr

def DisassemblyError.message : DisassemblyError → String
  | .startup reason => s!"disassembler init failed: {reason}"
  | .undecodable address bytes reason =>
    "cannot decode [" ++ Text.hexBytes ", " bytes ++ s!"] at {Text.hex address.toNat}: {reason}"
  | .unknownName name available =>
    s!"unknown disassembler {Text.quoted name} (available: " ++ ", ".intercalate available ++ ")"

structure Disassembler where
  name : String
  render : Bytes → UInt64 → Except DisassemblyError String

/-- Text of bytes that are not disassembled: a whole word, or byte by byte. -/
def rawText (bytes : Bytes) : String :=
  match Instruction.ofBytes? bytes with
  | some i => ".inst " ++ Text.hexWord i.word
  | none => ".byte " ++ Text.hexBytes " " bytes

namespace Disassembler

def hex : Disassembler := ⟨"hex", fun bytes _ => .ok (rawText bytes)⟩

/-- The text of an instruction, raw if the disassembler cannot decode it. -/
def textOrRaw (d : Disassembler) (bytes : Bytes) (address : UInt64) : String :=
  match d.render bytes address with
  | .ok text => text
  | .error _ => rawText bytes

end Disassembler

/-- Starting a disassembler may fail. -/
abbrev DisassemblerFactory := Except DisassemblyError Disassembler

/-- Disassemblers by name, in ascending order of name. -/
structure DisassemblerRegistry where
  factories : Std.TreeMap String DisassemblerFactory

namespace DisassemblerRegistry

def empty : DisassemblerRegistry := ⟨∅⟩

/-- A later registration under the same name replaces the earlier one. -/
def register (r : DisassemblerRegistry) (name : String) (factory : DisassemblerFactory) :
    DisassemblerRegistry :=
  ⟨r.factories.insert name factory⟩

def contains (r : DisassemblerRegistry) (name : String) : Bool := r.factories.contains name

def names (r : DisassemblerRegistry) : List String := r.factories.keys

def create (r : DisassemblerRegistry) (name : String) : Except DisassemblyError Disassembler :=
  match r.factories.get? name with
  | some factory => factory
  | none => .error (.unknownName name r.names)

end DisassemblerRegistry
end IndirectBranch
