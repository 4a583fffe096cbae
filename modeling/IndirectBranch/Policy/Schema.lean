import IndirectBranch.Policy.Basic
import IndirectBranch.Schema

/-! The shape of policy files, whatever their format. -/
namespace IndirectBranch

variable {m : Type → Type} [Format m]

/-- A number of 64 bits, written as an integer or as text. -/
def numberValue : m UInt64 := Format.refine Format.number RawNumber.value

def wordValue : m UInt32 := Format.refine numberValue RawNumber.word

structure OpcodeClass.Draft where
  name : Option String := none
  mask : Option UInt32 := none
  bits : Option UInt32 := none

def OpcodeClass.Draft.finish (d : OpcodeClass.Draft) :
    Except Mismatch (String × UInt32 × UInt32) := do
  let name ← requiredField "name" d.name
  let mask ← requiredField "mask" d.mask
  let bits ← requiredField "pattern" d.bits
  return (name, mask, bits)

def OpcodeClass.record : Record m OpcodeClass.Draft (String × UInt32 × UInt32) where
  what := "struct Raw"
  fields := [
    .of "name" true Format.text (·.name.isSome) fun v d => { d with name := some v },
    .of "mask" true wordValue (·.mask.isSome) fun v d => { d with mask := some v },
    .of "pattern" true wordValue (·.bits.isSome) fun v d => { d with bits := some v }]
  start := {}
  finish := OpcodeClass.Draft.finish

/-- The class is checked once its record has been left. -/
def OpcodeClass.value : m OpcodeClass :=
  Format.refine (Format.record OpcodeClass.record) fun (name, mask, bits) =>
    match OpcodeClass.make name mask bits with
    | .ok c => .ok c
    | .error reason => .error (.badOpcode reason)

structure Exemption.Draft where
  symbol : Option String := none
  maxOffset : Option UInt64 := none

def Exemption.Draft.finish (d : Exemption.Draft) : Except Mismatch Exemption := do
  let symbol ← requiredField "symbol" d.symbol
  let maxOffset ← requiredField "max_offset" d.maxOffset
  return ⟨symbol, maxOffset⟩

def Exemption.record : Record m Exemption.Draft Exemption where
  what := "struct Exemption"
  fields := [
    .of "symbol" true Format.text (·.symbol.isSome) fun v d => { d with symbol := some v },
    .of "max_offset" true numberValue (·.maxOffset.isSome)
      fun v d => { d with maxOffset := some v }]
  start := {}
  finish := Exemption.Draft.finish

structure Policy.Draft where
  version : Option String := none
  pointerAuth : Option Bool := none
  extraClasses : Option OpcodeClasses := none
  exemptions : Option (List Exemption) := none
  disassembler : Option (Option String) := none

/-- A field that is not given keeps its standard value. -/
def Policy.Draft.finish (d : Policy.Draft) : Policy where
  version := d.version.getD Policy.standard.version
  pointerAuth := d.pointerAuth.getD Policy.standard.pointerAuth
  extraClasses := d.extraClasses.getD Policy.standard.extraClasses
  exemptions := d.exemptions.getD Policy.standard.exemptions
  disassembler := d.disassembler.getD Policy.standard.disassembler

def Policy.record : Record m Policy.Draft Policy where
  what := "struct AuditConfig"
  fields := [
    .of "config_version" false Format.text (·.version.isSome)
      fun v d => { d with version := some v },
    .of "pointer_auth" false Format.flag (·.pointerAuth.isSome)
      fun v d => { d with pointerAuth := some v },
    .of "patterns" false (Format.list OpcodeClass.value) (·.extraClasses.isSome)
      fun v d => { d with extraClasses := some v },
    .of "exemptions" false (Format.list (Format.record Exemption.record)) (·.exemptions.isSome)
      fun v d => { d with exemptions := some v },
    .of "default_disassembler" false Format.optionalText (·.disassembler.isSome)
      fun v d => { d with disassembler := some v }]
  start := {}
  finish d := .ok d.finish

def Policy.value : m Policy := Format.record Policy.record

end IndirectBranch
