import IndirectBranch.Json.Reader
import IndirectBranch.Schema

/-! Records read straight from JSON text: the first problem in the order of the text counts. -/
namespace IndirectBranch.Json

/-- Reads a value, given how deep it may nest and the rest of the text. -/
def Source (α : Type) := (depth : Nat) → List Char → Read α

namespace Source

/-- The fault of a value of the wrong kind, placed after a scalar, but before a list or object. -/
def wrongType (expected : Expected) (s : List Char) : Fault :=
  let fault (found : Found) (rest : List Char) : Fault :=
    .placed (.mismatch (.wrongType found expected)) (byteCount rest)
  match s with
  | '[' :: rest => fault .list ('[' :: rest)
  | '{' :: rest => fault .map ('{' :: rest)
  | s =>
    match scalar s with
    | .error f => f
    | .ok (v, rest) => fault v.found rest

def text : Source String := fun _ s =>
  match skipBlank s with
  | [] => .error (.next .endInValue [])
  | c :: rest => if c = '"' then string rest else .error (wrongType .text (c :: rest))

def flag : Source Bool := fun _ s =>
  match skipBlank s with
  | [] => .error (.next .endInValue [])
  | c :: rest =>
    if c = 't' then (literal ['r', 'u', 'e'] rest).map (true, ·)
    else if c = 'f' then (literal ['a', 'l', 's', 'e'] rest).map (false, ·)
    else .error (wrongType .flag (c :: rest))

def optionalText : Source (Option String) := fun depth s =>
  match skipBlank s with
  | 'n' :: rest => (literal ['u', 'l', 'l'] rest).map (none, ·)
  | s => (text depth s).map fun (t, rest) => (some t, rest)

/-- The value is read whole before it is judged. -/
def number : Source RawNumber := fun depth s =>
  match value depth s with
  | .error f => .error f
  | .ok (.nat n, rest) => .ok (.integer (UInt64.ofNat n), rest)
  | .ok (.str t, rest) => .ok (.text t, rest)
  | .ok (_, rest) => .ok (.other, rest)

/-- Leaves a list: closes it, or gives a loose fault its place. -/
def finishList {α : Type} (r : Read α) : Read α :=
  match r with
  | .ok (v, s) => (closeList s).map (v, ·)
  | .error (.loose m rest) => .error (.placed (.mismatch m) (byteCount (leaveList rest)))
  | .error f => .error f

def finishObject {α : Type} (r : Read α) : Read α :=
  match r with
  | .ok (v, s) => (closeObject s).map (v, ·)
  | .error (.loose m rest) => .error (.placed (.mismatch m) (byteCount (leaveObject rest)))
  | .error f => .error f

def list {α : Type} (item : Source α) : Source (List α) := fun depth s =>
  match skipBlank s with
  | [] => .error (.next .endInValue [])
  | c :: rest =>
    if c = '[' then
      if depth ≤ 1 then .error (.next .tooDeep (c :: rest))
      else finishList (items (item (depth - 1)) (c :: rest) true rest)
    else .error (wrongType .list (c :: rest))

def positional {σ : Type} (missing : Nat → Mismatch) (depth : Nat) :
    List (Field Source σ) → (index : Nat) → σ → List Char → Read σ
  | [], _, draft, s => .ok (draft, s)
  | f :: fs, index, draft, s =>
    match nextItem? (index == 0) s with
    | .error fault => .error fault
    | .ok none =>
      if f.required then .error (.loose (missing index) s)
      else positional missing depth fs (index + 1) draft s
    | .ok (some s) =>
      match f.read depth s with
      | .error fault => .error fault
      | .ok (put, s) => positional missing depth fs (index + 1) (put draft) s

/-- Members in any order; a repeated field is refused before its value is read. -/
def named {σ : Type} (fields : List (Field Source σ)) (depth : Nat) :
    (clock : List Char) → (first : Bool) → σ → List Char → Read σ
  | [], _, _, s => .error (.next .endInObject s)
  | _ :: clock, first, draft, s =>
    match nextKey? first s with
    | .error fault => .error fault
    | .ok none => .ok (draft, s)
    | .ok (some (key, s)) =>
      match fields.find? (·.name == key) with
      | some f =>
        if f.isSet draft then .error (.loose (.duplicateField key) s)
        else
          match colon s with
          | .error fault => .error fault
          | .ok s =>
            match f.read depth s with
            | .error fault => .error fault
            | .ok (put, s) => named fields depth clock false (put draft) s
      | none =>
        match colon s with
        | .error fault => .error fault
        | .ok s =>
          match skip s s with
          | .error fault => .error fault
          | .ok s => named fields depth clock false draft s

/-- A record is an object, or a list of its values. -/
def record {σ α : Type} (r : Record Source σ α) : Source α := fun depth s =>
  match skipBlank s with
  | [] => .error (.next .endInValue [])
  | c :: rest =>
    if c = '[' then
      if depth ≤ 1 then .error (.next .tooDeep (c :: rest))
      else
        let missing (index : Nat) : Mismatch :=
          .wrongLength index (.elements r.what r.fields.length)
        finishList (judge .loose r.finish (positional missing (depth - 1) r.fields 0 r.start rest))
    else if c = '{' then
      if depth ≤ 1 then .error (.next .tooDeep (c :: rest))
      else
        finishObject
          (judge .loose r.finish (named r.fields (depth - 1) (c :: rest) true r.start rest))
    else .error (wrongType (.record r.what) (c :: rest))

instance : Format Source where
  text := text
  flag := flag
  optionalText := optionalText
  number := number
  list := list
  record := record
  refine item check := fun depth s => judge .loose check (item depth s)

def run {α : Type} (source : Source α) (text : String) : Except Error α :=
  match finish (source maxDepth text.toList) with
  | .ok v => .ok v
  | .error f => .error (f.locate text.toList)

end Source
end IndirectBranch.Json
