import IndirectBranch.Text.Hex

/-! Opcode classes: a class fixes some bits of an instruction word. -/
namespace IndirectBranch

inductive OpcodeError
  | emptyName
  | outsideMask (name : String) (mask bits : UInt32)
  deriving DecidableEq, Repr

def OpcodeError.message : OpcodeError → String
  | .emptyName => "pattern name must not be empty"
  | .outsideMask name mask bits =>
    s!"pattern {name}: bits {Text.hexWord bits} fall outside mask {Text.hexWord mask}"

/-- The words that agree with `bits` on `mask`. Bits outside the mask would leave no such word,
so they are ruled out. -/
structure OpcodeClass where
  name : String
  mask : UInt32
  bits : UInt32
  name_ne : name ≠ ""
  bits_inside : bits &&& mask = bits
  deriving DecidableEq

namespace OpcodeClass

/-- An empty name is reported before misplaced bits. -/
def make (name : String) (mask bits : UInt32) : Except OpcodeError OpcodeClass :=
  if hn : name = "" then .error .emptyName
  else if hb : bits &&& mask = bits then .ok ⟨name, mask, bits, hn, hb⟩
  else .error (.outsideMask name mask bits)

def contains (c : OpcodeClass) (word : UInt32) : Bool := word &&& c.mask == c.bits

def br : OpcodeClass := ⟨"br", 0xFFFFFC1F, 0xD61F0000, by decide, by decide⟩

def blr : OpcodeClass := ⟨"blr", 0xFFFFFC1F, 0xD63F0000, by decide, by decide⟩

/-- Authenticated branch to register, either key. -/
def bra : OpcodeClass := ⟨"braa/brab", 0xFFFFF800, 0xD71F0800, by decide, by decide⟩

/-- Authenticated branch to register with zero modifier. -/
def braz : OpcodeClass := ⟨"braaz/brabz", 0xFFFFF81F, 0xD61F081F, by decide, by decide⟩

/-- Authenticated branch with link, either key. -/
def blra : OpcodeClass := ⟨"blraa/blrab", 0xFFFFF800, 0xD73F0800, by decide, by decide⟩

/-- Authenticated branch with link and zero modifier. -/
def blraz : OpcodeClass := ⟨"blraaz/blrabz", 0xFFFFF81F, 0xD63F081F, by decide, by decide⟩

end OpcodeClass

/-- Opcode classes in the order they are configured; they may overlap. -/
abbrev OpcodeClasses := List OpcodeClass

namespace OpcodeClasses

def indirectBranches : OpcodeClasses := [.br, .blr]

def pointerAuth : OpcodeClasses := [.bra, .braz, .blra, .blraz]

def containing (classes : OpcodeClasses) (word : UInt32) : OpcodeClasses :=
  classes.filter (·.contains word)

def namesFor (classes : OpcodeClasses) (word : UInt32) : List String :=
  (containing classes word).map (·.name)

def hasMatch (classes : OpcodeClasses) (word : UInt32) : Bool :=
  classes.any (·.contains word)

end OpcodeClasses
end IndirectBranch
