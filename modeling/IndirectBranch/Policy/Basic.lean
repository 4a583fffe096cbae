import IndirectBranch.Exemption
import IndirectBranch.Json.Printer
import IndirectBranch.Opcode

/-! Audit policies: which opcode classes are looked for, and which findings are allowed. -/
namespace IndirectBranch

structure Policy where
  /-- Version of the policy format. -/
  version : String
  /-- Whether pointer-authenticated branches are looked for too. -/
  pointerAuth : Bool
  /-- Classes looked for besides the built-in ones. -/
  extraClasses : OpcodeClasses
  exemptions : List Exemption
  /-- Disassembler used unless another one is asked for. -/
  disassembler : Option String
  deriving DecidableEq

namespace Policy

def defaultVersion : String := "0.1.0"

def standard : Policy := ⟨defaultVersion, false, [], Exemption.standard, none⟩

/-- Built-in classes, then pointer-authenticated ones if asked for, then the extra ones. -/
def classes (p : Policy) : OpcodeClasses :=
  OpcodeClasses.indirectBranches ++
    (if p.pointerAuth then OpcodeClasses.pointerAuth else []) ++ p.extraClasses

/-- The policy with pointer authentication added, if that is asked for. -/
def addPointerAuth (p : Policy) (wanted : Bool) : Policy :=
  { p with pointerAuth := p.pointerAuth || wanted }

end Policy

def OpcodeClass.toJson (c : OpcodeClass) : Json :=
  .obj [("name", .str c.name), ("mask", .nat c.mask.toNat), ("pattern", .nat c.bits.toNat)]

def Exemption.toJson (e : Exemption) : Json :=
  .obj [("symbol", .str e.symbol), ("max_offset", .nat e.maxOffset.toNat)]

/-- The disassembler is left out if none is set. -/
def Policy.toJson (p : Policy) : Json :=
  .obj ([("config_version", .str p.version), ("pointer_auth", .bool p.pointerAuth),
    ("patterns", .arr (p.extraClasses.map (·.toJson))),
    ("exemptions", .arr (p.exemptions.map (·.toJson)))] ++
    match p.disassembler with
    | some name => [("default_disassembler", .str name)]
    | none => [])

end IndirectBranch
