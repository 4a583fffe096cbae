import IndirectBranch.Mismatch

/-! How records are described, apart from the format they are written in. -/
namespace IndirectBranch

/-- A number before it is judged: an integer of 64 bits, text, or something else. -/
inductive RawNumber
  | integer (n : UInt64)
  | text (s : String)
  | other
  deriving DecidableEq, Repr

def RawNumber.value : RawNumber → Except Mismatch UInt64
  | .integer n => .ok n
  | .text s =>
    match Numeral.parse s with
    | .ok n => .ok n
    | .error reason => .error (.badNumeral s reason)
  | .other => .error .notNumber

/-- A number that is to fill an instruction word. It is refused, not cut, if it is too large. -/
def RawNumber.word (n : UInt64) : Except Mismatch UInt32 :=
  if n.toNat < UInt32.size then .ok n.toUInt32 else .error (.wordTooLarge n)

/-- Judges what was read in front of `s`; `loose` is the fault of a mismatch there. -/
def judge {α β σ φ : Type} (loose : Mismatch → σ → φ) (check : α → Except Mismatch β) :
    Except φ (α × σ) → Except φ (β × σ)
  | .error f => .error f
  | .ok (a, s) =>
    match check a with
    | .ok b => .ok (b, s)
    | .error m => .error (loose m s)

theorem judge_eq_ok_iff {α β σ φ : Type} {loose : Mismatch → σ → φ}
    {check : α → Except Mismatch β} {r : Except φ (α × σ)} {b : β} {s : σ} :
    judge loose check r = .ok (b, s) ↔ ∃ a, r = .ok (a, s) ∧ check a = .ok b := by
  cases r with
  | error f => simp [judge]
  | ok v =>
    obtain ⟨a, s'⟩ := v
    simp only [judge, Except.ok.injEq, Prod.mk.injEq, and_assoc, exists_eq_left']
    cases check a <;> simp [and_comm]

/-- One field of a record that is put together in `σ`. -/
structure Field (m : Type → Type) (σ : Type) where
  name : String
  /-- Whether a list of values may not stop before this field. -/
  required : Bool
  isSet : σ → Bool
  read : m (σ → σ)

/-- A record: its fields may come in any order, and fields of other names are ignored. -/
structure Record (m : Type → Type) (σ α : Type) where
  /-- What messages call the record. -/
  what : String
  fields : List (Field m σ)
  start : σ
  finish : σ → Except Mismatch α

class Format (m : Type → Type) where
  text : m String
  flag : m Bool
  /-- Text, or nothing where the format says so. -/
  optionalText : m (Option String)
  number : m RawNumber
  list {α : Type} : m α → m (List α)
  record {σ α : Type} : Record m σ α → m α
  /-- Reads a value and then judges it. -/
  refine {α β : Type} : m α → (α → Except Mismatch β) → m β

def Field.of {m : Type → Type} [Format m] {σ α : Type} (name : String) (required : Bool)
    (value : m α) (isSet : σ → Bool) (put : α → σ → σ) : Field m σ :=
  ⟨name, required, isSet, Format.refine value fun a => .ok (put a)⟩

def requiredField {α : Type} (name : String) : Option α → Except Mismatch α
  | some a => .ok a
  | none => .error (.missingField name)

end IndirectBranch
