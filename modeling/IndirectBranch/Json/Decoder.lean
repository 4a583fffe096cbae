import IndirectBranch.Json.Basic
import IndirectBranch.Schema

/-! Records read from JSON values. -/
namespace IndirectBranch.Json

abbrev Decoder (α : Type) := Json → Except Mismatch α

namespace Decoder

def mismatch {α : Type} (expected : Expected) (v : Json) : Except Mismatch α :=
  .error (.wrongType v.found expected)

def text : Decoder String
  | .str s => .ok s
  | v => mismatch .text v

def flag : Decoder Bool
  | .bool b => .ok b
  | v => mismatch .flag v

def natural (expected : Expected) (bound : Nat) : Decoder Nat
  | .nat n => if n < bound then .ok n else .error (.wrongValue (.integer n) expected)
  | .neg n => .error (.wrongValue (.integer (-n)) expected)
  | v => mismatch expected v

def number : Decoder UInt64 := fun v => (natural .number UInt64.size v).map UInt64.ofNat

/-- How many there are of something: at most as many as there are addresses. -/
def size : Decoder Nat := natural .size UInt64.size

def byte : Decoder UInt8 := fun v => (natural .byte UInt8.size v).map UInt8.ofNat

def optionalText : Decoder (Option String)
  | .null => .ok none
  | v => (text v).map some

def list {α : Type} (item : Decoder α) : Decoder (List α)
  | .arr items => items.mapM item
  | v => mismatch .list v

/-- How a list that goes on too long is described: by what is wanted, or by what was taken. -/
inductive Surplus
  | fewer
  | counted
  deriving DecidableEq, Repr

def Surplus.expected : Surplus → (taken : Nat) → Expected
  | .fewer, _ => .fewerElements
  | .counted, taken => .elementsInSequence taken

def instruction (surplus : Surplus) : Decoder Instruction
  | .arr items => do
    let bytes ← (items.take 4).mapM byte
    match bytes with
    | [b0, b1, b2, b3] =>
      if items.length > 4 then throw (.wrongLength items.length (surplus.expected 4))
      return ⟨b0, b1, b2, b3⟩
    | bytes => throw (.wrongLength bytes.length (.arrayOf 4))
  | v => mismatch (.arrayOf 4) v

/-- The members in ascending order of key; of two with one key the later counts. -/
def sortedMembers (members : List (String × Json)) : List (String × Json) :=
  let lastOnly := members.foldr (fun m kept =>
    if kept.any (·.1 == m.1) then kept else m :: kept) []
  lastOnly.mergeSort fun a b => a.1 ≤ b.1

def named {σ : Type} (fields : List (Field Decoder σ)) (draft : σ) :
    List (String × Json) → Except Mismatch σ
  | [] => .ok draft
  | (key, v) :: rest =>
    match fields.find? (·.name == key) with
    | none => named fields draft rest
    | some f => do
      let put ← f.read v
      named fields (put draft) rest

def positional {σ : Type} (missing : Nat → Mismatch) (index : Nat) (draft : σ) :
    List (Field Decoder σ) → List Json → Except Mismatch σ
  | [], _ => .ok draft
  | f :: fs, [] =>
    if f.required then .error (missing index) else positional missing (index + 1) draft fs []
  | f :: fs, v :: vs => do
    let put ← f.read v
    positional missing (index + 1) (put draft) fs vs

def record {σ α : Type} (surplus : Surplus) (r : Record Decoder σ α) : Decoder α
  | .obj members => do
    let draft ← named r.fields r.start (sortedMembers members)
    r.finish draft
  | .arr items => do
    let missing (index : Nat) : Mismatch := .wrongLength index (.elements r.what r.fields.length)
    let draft ← positional missing 0 r.start r.fields items
    let value ← r.finish draft
    if items.length > r.fields.length then
      throw (.wrongLength items.length (surplus.expected r.fields.length))
    return value
  | v => mismatch (.record r.what) v

def field {σ α : Type} (name : String) (required : Bool) (value : Decoder α)
    (put : α → σ → σ) : Field Decoder σ :=
  ⟨name, required, fun _ => false, fun v => (value v).map put⟩

end Decoder
end IndirectBranch.Json
