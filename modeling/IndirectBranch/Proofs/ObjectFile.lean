import Mathlib.Algebra.Group.Nat.Defs
import Mathlib.Data.List.Forall2
import IndirectBranch.Elf.Object

/-! Writing 64-bit little-endian files. A record that is written field by field is read back, and
`relocatableFile` assembles an object from the contents of its sections. -/
namespace IndirectBranch

def numberBytes : Nat → Nat → Bytes
  | 0, _ => []
  | width + 1, n => UInt8.ofNat n :: numberBytes width (n / 256)

@[simp] theorem length_numberBytes (width n : Nat) : (numberBytes width n).length = width := by
  induction width generalizing n with
  | zero => rfl
  | succ width ih => simp [numberBytes, ih]

theorem littleEndian_numberBytes {width n : Nat} (h : n < 256 ^ width) :
    littleEndian (numberBytes width n) = n := by
  induction width generalizing n with
  | zero =>
    rw [Nat.pow_zero, Nat.lt_one_iff] at h
    rw [h]
    rfl
  | succ width ih =>
    have hrest : n / 256 < 256 ^ width := by
      rw [Nat.pow_succ] at h
      exact Nat.div_lt_of_lt_mul (by omega)
    have hdigit : (UInt8.ofNat n).toNat = n % 256 := UInt8.toNat_ofNat'
    rw [numberBytes, littleEndian, ih hrest, hdigit]
    omega

namespace Elf

def encoding64 : Encoding := ⟨true, true⟩

def recordBytes (widths values : List Nat) : Bytes :=
  (widths.zip values).flatMap fun (width, n) => numberBytes width n

/-- A field is read back as it was written, whatever follows it. -/
theorem field_numberBytes {width n : Nat} (h : n < 256 ^ width) (rest : Bytes) :
    field encoding64 width (numberBytes width n ++ rest) = .ok (n, rest) := by
  have htaken : takeBytes width (numberBytes width n ++ rest) =
      .ok (numberBytes width n, rest) := by
    simp [takeBytes]
  rw [field, htaken]
  exact congrArg (fun m => Except.ok (m, rest)) (littleEndian_numberBytes h)

theorem fields_recordBytes {widths values : List Nat} (rest : Bytes)
    (h : List.Forall₂ (fun width n => n < 256 ^ width) widths values) :
    fields encoding64 widths (recordBytes widths values ++ rest) = .ok (values, rest) := by
  induction h with
  | nil => rfl
  | @cons width n widths values hn _ ih =>
    have hsplit : recordBytes (width :: widths) (n :: values) ++ rest =
        numberBytes width n ++ (recordBytes widths values ++ rest) := by
      simp [recordBytes]
    rw [hsplit, fields, field_numberBytes hn]
    simp only [bind, Except.bind, ih]
    rfl

/-- The contents of a section, and the fields of its header that do not follow from them. -/
structure SectionPart where
  type : Nat
  flags : Nat
  contents : Bytes
  link : Nat
  alignment : Nat
  entrySize : Nat

namespace SectionPart

def code (alignment : Nat) (words : List Nat) : SectionPart :=
  ⟨1, 6, words.flatMap (numberBytes 4), 0, alignment, 0⟩

/-- A table of symbols, each given by its fields. Their names stand in section `link`. -/
def symbols (link : Nat) (entries : List (List Nat)) : SectionPart :=
  ⟨SectionHeader.symbolTable, 0,
    entries.flatMap (recordBytes (SymbolEntry.widths encoding64)), link, 8,
    SymbolEntry.size encoding64⟩

/-- ASCII names, the first of them at offset 1. -/
def strings (names : List String) : SectionPart :=
  ⟨3, 0, 0 :: names.flatMap (fun name => name.toList.map (fun c => UInt8.ofNat c.toNat) ++ [0]),
    0, 1, 0⟩

def headerBytes (p : SectionPart) (offset : Nat) : Bytes :=
  recordBytes (SectionHeader.widths encoding64)
    [0, p.type, p.flags, 0, offset, p.contents.length, p.link, 0, p.alignment, p.entrySize]

/-- Headers of sections whose contents follow one another from `offset` on. -/
def headersBytes : Nat → List SectionPart → Bytes
  | _, [] => []
  | offset, p :: parts => p.headerBytes offset ++ headersBytes (offset + p.contents.length) parts

end SectionPart

def headerSize : Nat := 16 + totalWidth (Header.widths encoding64)

/-- A relocatable object: header, contents of the sections, then their headers after an empty
one. -/
def relocatableFile (parts : List SectionPart) : Bytes :=
  let contents := parts.flatMap (·.contents)
  let ident := [0x7F, 0x45, 0x4C, 0x46, 2, 1, 1] ++ List.replicate 9 0
  let values := [Header.relocatable, Header.aarch64, 1, 0, 0, headerSize + contents.length, 0,
    headerSize, 0, 0, SectionHeader.recordSize encoding64, parts.length + 1, 0]
  ident ++ recordBytes (Header.widths encoding64) values ++ contents ++
    List.replicate (SectionHeader.recordSize encoding64) 0 ++
    SectionPart.headersBytes headerSize parts

theorem exists_parse {file : Bytes} {P : Object → Prop} [DecidablePred P]
    (h : (Object.parse file).toOption.any (fun o => decide (P o)) = true) :
    ∃ o, Object.parse file = .ok o ∧ P o := by
  cases ho : Object.parse file with
  | error e =>
    rw [ho] at h
    cases h
  | ok o =>
    rw [ho] at h
    exact ⟨o, rfl, of_decide_eq_true h⟩

end Elf
end IndirectBranch
