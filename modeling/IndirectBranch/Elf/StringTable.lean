import IndirectBranch.Elf.Header
import IndirectBranch.Text.Utf8

/-! Tables of names: strings closed by a zero byte, found by offset. -/
namespace IndirectBranch.Elf

structure StringTable where
  bytes : Bytes
  deriving DecidableEq, Repr

namespace StringTable

def empty : StringTable := ⟨[]⟩

/-- Every string of the table must be UTF-8. The string being read is kept in reverse; an error
tells how much of the table was left at its start. -/
def checkStrings (current : Bytes) (start : Bytes) : Bytes → Except Malformed Unit
  | [] =>
    if (Text.decodeUtf8? current.reverse).isSome then .ok () else .error (.notUtf8 start.length)
  | b :: rest =>
    if b = 0 then
      if (Text.decodeUtf8? current.reverse).isSome then checkStrings [] rest rest
      else .error (.notUtf8 start.length)
    else checkStrings (b :: current) start rest

def parse (file : Bytes) (offset size : Nat) : Except Malformed StringTable := do
  let length := file.length
  if offset + size ≥ UInt64.size ∨ offset + size > length then
    throw (.stringRange size offset length (offset + size ≥ UInt64.size))
  let bytes := (file.drop offset).take size
  checkStrings [] bytes bytes
  return ⟨bytes⟩

/-- The text from `offset` up to the next zero byte. An offset outside the table, or inside a
character, gives no name. -/
def nameAt (t : StringTable) (offset : Nat) : String :=
  (Text.ofUtf8? ((t.bytes.drop offset).takeWhile (· ≠ 0))).getD ""

/-- An index that stands for the one kept in the first section header. -/
def extendedIndex : Nat := 0xFFFF

def ofSection (file : Bytes) (sections : List SectionHeader) (index : Nat) :
    Except Malformed StringTable :=
  let index :=
    if index = extendedIndex then (sections.head?.map (·.link)).getD index else index
  match sections[index]? with
  | none => .ok empty
  | some s => do
    s.checkRange file.length
    parse file s.offset.toNat s.size.toNat

end StringTable
end IndirectBranch.Elf
