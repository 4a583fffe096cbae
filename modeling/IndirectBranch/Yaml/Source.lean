import IndirectBranch.Schema
import IndirectBranch.Text.Utf8
import IndirectBranch.Yaml.Node

/-! Records read from YAML documents: the first problem in the order of the text counts. -/
namespace IndirectBranch.Yaml

inductive Step
  | key (name : String)
  | index (n : Nat)
  /-- The value of a key that is no scalar. -/
  | unnamed
  deriving DecidableEq, Repr

/-- The steps from the root to a node, the last one first. -/
abbrev Path := List Step

def Path.text : Path → String
  | [] => ""
  | .key name :: path => (if path.isEmpty then "" else Path.text path ++ ".") ++ name
  | .index n :: path => Path.text path ++ s!"[{n}]"
  | .unnamed :: path => (if path.isEmpty then "" else Path.text path ++ ".") ++ "?"

/-- A mismatch stays loose until the node it belongs to is known. -/
inductive Fault
  | loose (m : Mismatch)
  | final (e : Error)

def Fault.ofMismatch (m : Mismatch) (_jumps : Nat) : Fault := .loose m

structure Scope where
  tree : Tree
  path : Path
  depth : Nat

/-- Reads a node, given the number of aliases followed before it. -/
def Source (α : Type) := Scope → Node → (jumps : Nat) → Except Fault (α × Nat)

namespace Scope

def inside (sc : Scope) (step : Step) : Scope :=
  { sc with path := step :: sc.path, depth := sc.depth - 1 }

def mismatch (sc : Scope) (m : Mismatch) (mark : Mark) : Fault :=
  .final (.mismatch m (Path.text sc.path) mark)

/-- Gives a loose mismatch the place of the node that is being read. -/
def place {α : Type} (sc : Scope) (mark : Mark) (r : Except Fault α) : Except Fault α :=
  match r with
  | .error (.loose m) => .error (sc.mismatch m mark)
  | r => r

def brokenOff {α : Type} (sc : Scope) : Except Fault α :=
  .error (.final (sc.tree.fault.getD .endOfStream))

/-- The node itself, or the one an alias stands for. Aliases may be followed a hundred times for
each node. -/
def follow (sc : Scope) (jumps : Nat) : Node → Except Fault (Node × Nat)
  | .alias target =>
    if jumps + 1 > 100 * sc.tree.size then .error (.final .tooManyAliases)
    else
      match sc.tree.anchored.find? (·.1 == target) with
      | some (_, n) => .ok (n, jumps + 1)
      | none => sc.brokenOff
  | n => .ok (n, jumps)

def wrongType {α : Type} (sc : Scope) (expected : Expected) : Node → Except Fault α
  | .scalar mark s => .error (sc.mismatch (s.mismatch expected) mark)
  | .sequence mark _ _ => .error (sc.mismatch (.wrongType .list expected) mark)
  | .mapping mark _ _ => .error (sc.mismatch (.wrongType .map expected) mark)
  | .alias _ => sc.brokenOff
  | .cut => sc.brokenOff

def enter {α : Type} (sc : Scope) (mark : Mark) (r : Except Fault α) : Except Fault α :=
  if sc.depth = 0 then .error (.final (.tooDeep mark)) else sc.place mark r

def stepTo : Node → Step
  | .scalar _ s => .key s.text
  | _ => .unnamed

end Scope

namespace Source

/-- Any scalar is text. -/
def textOr (expected : Expected) : Source String := fun sc node jumps => do
  let (node, jumps) ← sc.follow jumps node
  match node with
  | .scalar _ s => .ok (s.text, jumps)
  | node => sc.wrongType expected node

def text : Source String := textOr .text

def flag : Source Bool := fun sc node jumps => do
  let (node, jumps) ← sc.follow jumps node
  match node with
  | .scalar mark s =>
    match s.flag? with
    | some b => .ok (b, jumps)
    | none => sc.wrongType .flag (.scalar mark s)
  | node => sc.wrongType .flag node

def isNothing (s : Scalar) : Except Mismatch Bool :=
  if s.style != .plain then .ok false
  else
    match s.tag with
    | none => .ok (s.text.isEmpty || Resolution.isNull s.text)
    | some tag =>
      if tag != Resolution.coreTag "null" then .ok false
      else if Resolution.isNull s.text then .ok true
      else .error (.wrongValue (.text s.text) .null)

def optionalText : Source (Option String) := fun sc node jumps => do
  let (node, jumps) ← sc.follow jumps node
  match node with
  | .scalar _ s =>
    match isNothing s with
    | .error m => .error (.loose m)
    | .ok true => .ok (none, jumps)
    | .ok false => .ok (some s.text, jumps)
  | node => sc.wrongType .text node

/-- Tags of the document's own, which mark variants of data. -/
def isLocalTag : Option Bytes → Bool
  | some (b :: rest) => b == 0x21 && (Text.ofUtf8? rest).isSome
  | _ => false

def scalarNumber (s : Scalar) : Except Mismatch RawNumber := do
  match ← s.resolve with
  | .integer n => return if n < 0 then .other else .integer (UInt64.ofNat n.toNat)
  | .wide n => throw (.wrongType (.wide n) .anything)
  | .text t => return .text t
  | _ => return .other

def each {α : Type} (item : Source α) (sc : Scope) (index : Nat) :
    List Node → (jumps : Nat) → Except Fault (List α × Nat)
  | [], jumps => .ok ([], jumps)
  | n :: ns, jumps => do
    let (a, jumps) ← item (sc.inside (.index index)) n jumps
    let (as, jumps) ← each item sc (index + 1) ns jumps
    return (a :: as, jumps)

/-- Reads keys and values in turn. A key has the path of its mapping. -/
def eachEntry (item : Source RawNumber) (sc : Scope) :
    List (Node × Node) → (jumps : Nat) → Except Fault Nat
  | [], jumps => .ok jumps
  | (k, v) :: rest, jumps => do
    let (_, jumps) ← item { sc with depth := sc.depth - 1 } k jumps
    let (_, jumps) ← item (sc.inside (Scope.stepTo k)) v jumps
    eachEntry item sc rest jumps

/-- The value is read whole, to any depth, before it is judged. -/
def anyNumber : (fuel : Nat) → Source RawNumber
  | 0, sc, _, _ => sc.brokenOff
  | fuel + 1, sc, node, jumps => do
    let (node, jumps) ← sc.follow jumps node
    match node with
    | .scalar mark s =>
      if isLocalTag s.tag then .error (sc.mismatch .taggedNumber mark)
      else
        match scalarNumber s with
        | .ok n => .ok (n, jumps)
        | .error m => .error (sc.mismatch m mark)
    | .sequence mark tag items =>
      if isLocalTag tag then .error (sc.mismatch .taggedNumber mark)
      else do
        let (_, jumps) ← sc.enter mark (each (anyNumber fuel) sc 0 items jumps)
        return (.other, jumps)
    | .mapping mark tag entries =>
      if isLocalTag tag then .error (sc.mismatch .taggedNumber mark)
      else do
        let jumps ← sc.enter mark (eachEntry (anyNumber fuel) sc entries jumps)
        return (.other, jumps)
    | _ => sc.brokenOff

/-- Nesting ends where the depth does, so that is fuel enough. -/
def number : Source RawNumber := fun sc => anyNumber (sc.depth + 1) sc

def list {α : Type} (item : Source α) : Source (List α) := fun sc node jumps => do
  let (node, jumps) ← sc.follow jumps node
  match node with
  | .sequence mark _ items => sc.enter mark (each item sc 0 items jumps)
  | .scalar mark s => if s.isOmitted then .ok ([], jumps) else sc.wrongType .list (.scalar mark s)
  | node => sc.wrongType .list node

/-- Entries in any order; a repeated field is refused before its value is read. -/
def fields {σ : Type} (known : List (Field Source σ)) (sc : Scope) :
    List (Node × Node) → σ → (jumps : Nat) → Except Fault (σ × Nat)
  | [], draft, jumps => .ok (draft, jumps)
  | (k, v) :: rest, draft, jumps => do
    let (name, jumps) ← textOr .fieldName sc k jumps
    match known.find? (·.name == name) with
    | some f =>
      if f.isSet draft then .error (.loose (.duplicateField name))
      else do
        let (put, jumps) ← f.read (sc.inside (Scope.stepTo k)) v jumps
        fields known sc rest (put draft) jumps
    | none => if v.complete then fields known sc rest draft jumps else sc.brokenOff

/-- A record is a mapping; a node that is left out is an empty one. -/
def record {σ α : Type} (r : Record Source σ α) : Source α := fun sc node jumps => do
  let (node, jumps) ← sc.follow jumps node
  match node with
  | .mapping mark _ entries =>
    sc.enter mark (judge .ofMismatch r.finish (fields r.fields sc entries r.start jumps))
  | .scalar mark s =>
    if s.isOmitted then sc.place mark (judge .ofMismatch r.finish (.ok (r.start, jumps)))
    else sc.wrongType (.record r.what) (.scalar mark s)
  | node => sc.wrongType (.record r.what) node

instance : Format Source where
  text := text
  flag := flag
  optionalText := optionalText
  number := number
  list := list
  record := record
  refine item check := fun sc node jumps => judge .ofMismatch check (item sc node jumps)

def maxDepth : Nat := 128

/-- Reads the only document of a text. What is wrong with the rest of the text comes last. -/
def run {α : Type} (source : Source α) (text : String) : Except Error α :=
  let tree := Tree.ofText text
  match source ⟨tree, [], maxDepth⟩ tree.root 0 with
  | .error (.final e) => .error e
  | .error (.loose m) => .error (.mismatch m "" .start)
  | .ok (v, _) =>
    match tree.fault with
    | some e => .error e
    | none => if tree.more then .error .moreDocuments else .ok v

end Source
end IndirectBranch.Yaml
