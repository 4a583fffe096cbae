import IndirectBranch.Yaml.Resolution

/-! YAML documents as trees of nodes. -/
namespace IndirectBranch.Yaml

/-- A node refers to a node elsewhere by the number of an anchor. Where the text breaks off, the
tree is cut. -/
inductive Node
  | scalar (mark : Mark) (s : Scalar)
  | alias (target : Nat)
  | sequence (mark : Mark) (tag : Option Bytes) (items : List Node)
  | mapping (mark : Mark) (tag : Option Bytes) (entries : List (Node × Node))
  | cut
  deriving Inhabited

namespace Node

mutual

def complete : Node → Bool
  | .scalar .. => true
  | .alias _ => true
  | .sequence _ _ items => completeItems items
  | .mapping _ _ entries => completeEntries entries
  | .cut => false

def completeItems : List Node → Bool
  | [] => true
  | n :: ns => n.complete && completeItems ns

def completeEntries : List (Node × Node) → Bool
  | [] => true
  | (k, v) :: rest => k.complete && v.complete && completeEntries rest

end

/-- Keys and values in turn; a last key has lost its value. -/
def pairs : List Node → List (Node × Node)
  | [] => []
  | [k] => [(k, .cut)]
  | k :: v :: rest => (k, v) :: pairs rest

/-- A collection that is still open, its last child first. -/
structure Frame where
  mark : Mark
  tag : Option Bytes
  isMapping : Bool
  children : List Node := []

def Frame.add (f : Frame) (n : Node) : Frame := { f with children := n :: f.children }

def Frame.close (f : Frame) : Node :=
  if f.isMapping then .mapping f.mark f.tag (pairs f.children.reverse)
  else .sequence f.mark f.tag f.children.reverse

/-- An event whose alias is resolved to the number of an anchor. -/
inductive Part
  | leaf (n : Node)
  | opening (f : Frame)
  | closing

def ofParts : List Frame → List Part → Node
  | [], [] => .cut
  | f :: fs, [] => fs.foldl (fun n g => (g.add n).close) (f.add .cut).close
  | fs, .opening f :: rest => ofParts (f :: fs) rest
  | [], .leaf n :: _ => n
  | f :: fs, .leaf n :: rest => ofParts (f.add n :: fs) rest
  | [], .closing :: _ => .cut
  | [f], .closing :: _ => f.close
  | f :: g :: fs, .closing :: rest => ofParts (g.add f.close :: fs) rest

end Node

structure Tree where
  root : Node
  /-- The nodes at the anchors, by number; the first one in the list counts. -/
  anchored : List (Nat × Node)
  /-- Number of nodes and ends of collections. -/
  size : Nat
  /-- Why the text breaks off. -/
  fault : Option Error
  more : Bool

/-- Numbers given to the names of anchors, and the positions they stand for, the last one first. -/
structure Anchors where
  numbers : List (String × Nat) := []
  positions : List (Nat × Nat) := []

/-- A name gets as its number the count of different names before it. -/
def Anchors.add (a : Anchors) (name : Option String) (position : Nat) : Anchors :=
  match name with
  | none => a
  | some name =>
    let number := a.numbers.length
    ⟨(name, number) :: a.numbers.filter (·.1 != name), (number, position) :: a.positions⟩

/-- Resolves aliases, up to the first one without an anchor. -/
def resolveAliases (a : Anchors) (position : Nat) :
    List Event → Anchors × List Node.Part × Option Error
  | [] => (a, [], none)
  | e :: es =>
    let goOn (a : Anchors) (part : Node.Part) : Anchors × List Node.Part × Option Error :=
      let (a, parts, fault) := resolveAliases a (position + 1) es
      (a, part :: parts, fault)
    match e.kind with
    | .scalar anchor tag text style =>
      goOn (a.add anchor position) (.leaf (.scalar e.mark ⟨tag, text, style⟩))
    | .alias name =>
      match a.numbers.find? (·.1 == name) with
      | some (_, number) => goOn a (.leaf (.alias number))
      | none => (a, [], some (.unknownAnchor e.mark))
    | .sequenceStart anchor tag =>
      goOn (a.add anchor position) (.opening { mark := e.mark, tag, isMapping := false })
    | .mappingStart anchor tag =>
      goOn (a.add anchor position) (.opening { mark := e.mark, tag, isMapping := true })
    | .sequenceEnd => goOn a .closing
    | .mappingEnd => goOn a .closing

/-- An empty document is a node that is left out. -/
def Tree.ofDocument (d : Document) : Tree :=
  let (anchors, parts, unknown) := resolveAliases {} 0 d.events
  let fault := unknown.orElse fun _ => d.fault.map .syntactic
  let root := if parts.isEmpty && fault.isNone then .scalar .start ⟨none, "", .plain⟩
    else Node.ofParts [] parts
  { root, fault
    anchored := anchors.positions.map fun (number, position) =>
      (number, Node.ofParts [] (parts.drop position))
    size := parts.length
    more := d.more }

def isControl (c : Char) : Bool :=
  let n := c.toNat
  !(n == 0x09 || n == 0x0A || n == 0x0D || (0x20 ≤ n && n ≤ 0x7E) || n == 0x85 ||
    (0xA0 ≤ n && n ≤ 0xD7FF) || (0xE000 ≤ n && n ≤ 0xFFFD) || 0x10000 ≤ n)

/-- Control characters are looked for in the whole text, before anything else. -/
def Tree.ofText (text : String) : Tree :=
  let plain := text.toList.takeWhile (!isControl ·)
  if plain.length < text.length then
    let offset := plain.foldl (fun n c => n + c.utf8Size) 0
    { root := .cut, anchored := [], size := 0, fault := some (.controlCharacter offset)
      more := false }
  else Tree.ofDocument (document text)

end IndirectBranch.Yaml
