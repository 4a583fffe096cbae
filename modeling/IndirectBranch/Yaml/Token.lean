import IndirectBranch.Yaml.Scalar
import IndirectBranch.Yaml.Tag

/-! The tokens of YAML text. -/
namespace IndirectBranch.Yaml

inductive TokenKind
  | directive (d : Directive)
  | documentStart
  | documentEnd
  | streamEnd
  | blockSequenceStart
  | blockMappingStart
  | blockEnd
  | flowSequenceStart
  | flowSequenceEnd
  | flowMappingStart
  | flowMappingEnd
  | blockEntry
  | flowEntry
  | key
  | value
  | alias (name : String)
  | anchor (name : String)
  | tag (t : TagText)
  | scalar (text : String) (style : Style)
  deriving DecidableEq, Repr

structure Token where
  kind : TokenKind
  start : Mark
  stop : Mark
  deriving DecidableEq, Repr

/-- A place where a key may start without an indicator of its own. -/
structure SimpleKey where
  mark : Mark
  /-- How many tokens come before the key. -/
  number : Nat
  /-- In block style, text at the indentation of a mapping must be a key. -/
  required : Bool
  deriving DecidableEq, Repr

structure Lexer where
  cursor : Cursor
  /-- The tokens so far, the last one first. -/
  tokens : List Token := []
  /-- Column of the innermost block collection, or -1. -/
  indent : Int := -1
  outerIndents : List Int := []
  /-- Possible keys, one for the current flow level and one for each level around it. -/
  simpleKey : Option SimpleKey := none
  outerKeys : List (Option SimpleKey) := []
  keyAllowed : Bool := true

namespace Lexer

def inFlow (lx : Lexer) : Bool := !lx.outerKeys.isEmpty

def push (lx : Lexer) (kind : TokenKind) (start stop : Mark) : Lexer :=
  { lx with tokens := ⟨kind, start, stop⟩ :: lx.tokens }

def insert (lx : Lexer) (number : Nat) (kind : TokenKind) (mark : Mark) : Lexer :=
  { lx with tokens := lx.tokens.insertIdx (lx.tokens.length - number) ⟨kind, mark, mark⟩ }

/-- A token that ends at `after`, where the text goes on. -/
def pushTo (lx : Lexer) (kind : TokenKind) (after : Cursor) : Lexer :=
  { lx.push kind lx.cursor.mark after.mark with cursor := after }

def fail {α : Type} (lx : Lexer) (problem : Problem) : Except SyntaxError α :=
  .error ⟨problem, lx.cursor.mark, none⟩

def missingColon {α : Type} (lx : Lexer) (k : SimpleKey) : Except SyntaxError α :=
  lx.cursor.fail .noColonAfterKey .simpleKey k.mark

/-- A simple key lies on one line and takes at most 1024 characters. -/
def isStale (lx : Lexer) (k : SimpleKey) : Bool :=
  k.mark.line < lx.cursor.mark.line || k.mark.index + 1024 < lx.cursor.mark.index

def staleKey (lx : Lexer) : Option SimpleKey → Except SyntaxError (Option SimpleKey)
  | none => .ok none
  | some k =>
    if lx.isStale k then if k.required then lx.missingColon k else .ok none
    else .ok (some k)

/-- Forgets keys that are no longer possible; the outermost is looked at first. -/
def dropStaleKeys (lx : Lexer) : Except SyntaxError Lexer := do
  let outer ← lx.outerKeys.reverse.mapM lx.staleKey
  let key ← lx.staleKey lx.simpleKey
  return { lx with simpleKey := key, outerKeys := outer.reverse }

def removeKey (lx : Lexer) : Except SyntaxError Lexer :=
  match lx.simpleKey with
  | some k => if k.required then lx.missingColon k else .ok { lx with simpleKey := none }
  | none => .ok lx

def saveKey (lx : Lexer) : Except SyntaxError Lexer :=
  if lx.keyAllowed then do
    let required := !lx.inFlow && lx.indent == lx.cursor.mark.column
    let lx ← lx.removeKey
    return { lx with simpleKey := some ⟨lx.cursor.mark, lx.tokens.length, required⟩ }
  else .ok lx

/-- Opens a block collection, unless the column is not indented further. -/
def rollIndent (lx : Lexer) (column : Nat) (number : Nat) (kind : TokenKind) (mark : Mark) :
    Lexer :=
  if !lx.inFlow && lx.indent < column then
    { lx.insert number kind mark with
      indent := column
      outerIndents := lx.indent :: lx.outerIndents }
  else lx

/-- Closes the block collections that are indented further than `column`. -/
def unrollIndents (column : Int) : List Int → Lexer → Lexer
  | [], lx => lx
  | outer :: rest, lx =>
    if lx.indent > column then
      let closed := lx.push .blockEnd lx.cursor.mark lx.cursor.mark
      unrollIndents column rest { closed with indent := outer, outerIndents := rest }
    else lx

def unrollIndent (lx : Lexer) (column : Int) : Lexer :=
  if lx.inFlow then lx else unrollIndents column lx.outerIndents lx

/-- White space, comments and line breaks. In block style a new line may start a key, and a tab
may not stand where a key could. -/
def skipToToken : (clock : List Char) → Lexer → Lexer
  | [], lx => lx
  | _ :: clock, lx =>
    let c := lx.cursor
    let c := if c.mark.index == 0 && c.any 0 (·.toNat == 0xFEFF) then c.next else c
    let tabs := lx.inFlow || !lx.keyAllowed
    let c := c.skipWhile fun ch => ch == ' ' || (tabs && ch == '\t')
    let c := if c.has 0 '#' then c.skipWhile (!isBreak ·) else c
    match c.lineBreak? with
    | none => { lx with cursor := c }
    | some (_, c) =>
      skipToToken clock { lx with cursor := c, keyAllowed := lx.keyAllowed || !lx.inFlow }

/-- An end of the stream inside a line counts as the start of a new one. -/
def streamEnd (lx : Lexer) : Except SyntaxError Lexer := do
  let m := lx.cursor.mark
  let lx := if m.column == 0 then lx
    else { lx with cursor := { lx.cursor with mark := ⟨m.index, m.line + 1, 0⟩ } }
  let lx ← (lx.unrollIndent (-1)).removeKey
  return { lx with keyAllowed := false }.pushTo .streamEnd lx.cursor

/-- Leaves all block collections before a directive or a document indicator. -/
def leaveBlocks (lx : Lexer) : Except SyntaxError Lexer := do
  let lx ← (lx.unrollIndent (-1)).removeKey
  return { lx with keyAllowed := false }

def directive (lx : Lexer) : Except SyntaxError Lexer := do
  let lx ← lx.leaveBlocks
  let (d, after) ← Yaml.directive lx.cursor
  return lx.pushTo (.directive d) after

def documentIndicator (lx : Lexer) (kind : TokenKind) : Except SyntaxError Lexer := do
  let lx ← lx.leaveBlocks
  return lx.pushTo kind (lx.cursor.skip 3)

def flowStart (lx : Lexer) (kind : TokenKind) : Except SyntaxError Lexer := do
  let lx ← lx.saveKey
  let inner := { lx with
    outerKeys := lx.simpleKey :: lx.outerKeys
    simpleKey := none
    keyAllowed := true }
  return inner.pushTo kind lx.cursor.next

def flowEnd (lx : Lexer) (kind : TokenKind) : Except SyntaxError Lexer := do
  let lx ← lx.removeKey
  let outer := match lx.outerKeys with
    | [] => lx
    | k :: ks => { lx with simpleKey := k, outerKeys := ks }
  return { outer with keyAllowed := false }.pushTo kind lx.cursor.next

def flowEntry (lx : Lexer) : Except SyntaxError Lexer := do
  let lx ← lx.removeKey
  return { lx with keyAllowed := true }.pushTo .flowEntry lx.cursor.next

/-- In block style an indicator opens its collection, where one may start. -/
def openBlock (lx : Lexer) (kind : TokenKind) (problem : Problem) : Except SyntaxError Lexer :=
  if lx.inFlow then .ok lx
  else if !lx.keyAllowed then lx.fail problem
  else .ok (lx.rollIndent lx.cursor.mark.column lx.tokens.length kind lx.cursor.mark)

def blockEntry (lx : Lexer) : Except SyntaxError Lexer := do
  let lx ← lx.openBlock .blockSequenceStart .misplacedEntry
  let lx ← lx.removeKey
  return { lx with keyAllowed := true }.pushTo .blockEntry lx.cursor.next

def key (lx : Lexer) : Except SyntaxError Lexer := do
  let lx ← lx.openBlock .blockMappingStart .misplacedKey
  let lx ← lx.removeKey
  return { lx with keyAllowed := !lx.inFlow }.pushTo .key lx.cursor.next

/-- A colon turns the possible key before it into a key. -/
def value (lx : Lexer) : Except SyntaxError Lexer := do
  let lx ← match lx.simpleKey with
    | some k =>
      let lx := lx.insert k.number .key k.mark
      let lx := lx.rollIndent k.mark.column k.number .blockMappingStart k.mark
      pure { lx with simpleKey := none, keyAllowed := false }
    | none => do
      let lx ← lx.openBlock .blockMappingStart .misplacedValue
      pure { lx with keyAllowed := !lx.inFlow }
  return lx.pushTo .value lx.cursor.next

def reference (lx : Lexer) : Except SyntaxError Lexer := do
  let lx ← lx.saveKey
  let (name, after) ← anchorName .alias lx.cursor
  return { lx with keyAllowed := false }.pushTo (.alias name) after

def anchor (lx : Lexer) : Except SyntaxError Lexer := do
  let lx ← lx.saveKey
  let (name, after) ← anchorName .anchor lx.cursor
  return { lx with keyAllowed := false }.pushTo (.anchor name) after

def tag (lx : Lexer) : Except SyntaxError Lexer := do
  let lx ← lx.saveKey
  let (t, after) ← tagText lx.inFlow lx.cursor
  return { lx with keyAllowed := false }.pushTo (.tag t) after

def block (lx : Lexer) (style : Style) : Except SyntaxError Lexer := do
  let lx ← lx.removeKey
  let (text, after) ← blockScalar (style == .folded) lx.indent lx.cursor
  return { lx with keyAllowed := true }.pushTo (.scalar (String.ofList text) style) after

def quoted (lx : Lexer) (quote : Char) (style : Style) : Except SyntaxError Lexer := do
  let lx ← lx.saveKey
  let (text, after) ← quotedScalar quote lx.cursor
  return { lx with keyAllowed := false }.pushTo (.scalar (String.ofList text) style) after

/-- After a plain scalar that ended with its line, a key may start. -/
def plain (lx : Lexer) : Except SyntaxError Lexer := do
  let lx ← lx.saveKey
  let s ← plainScalar lx.inFlow (lx.indent + 1).toNat lx.cursor
  return { lx with keyAllowed := s.lineEnded }.pushTo
    (.scalar (String.ofList s.text) .plain) s.after

def singleQuote : Char := Char.ofNat 39

def isIndicator (c : Char) : Bool := "-?:,[]\x7b\x7d#&*!|>'\"%@`".contains c

def startsPlain (lx : Lexer) (ch : Char) : Bool :=
  (!lx.cursor.endsWord 0 && !isIndicator ch) ||
    (ch == '-' && !lx.cursor.any 1 isBlank) ||
    (!lx.inFlow && (ch == '?' || ch == ':') && !lx.cursor.endsWord 1)

def tokenAt (lx : Lexer) (ch : Char) : Except SyntaxError Lexer :=
  let c := lx.cursor
  if c.mark.column == 0 && ch == '%' then lx.directive
  else if c.atIndicator '-' then lx.documentIndicator .documentStart
  else if c.atIndicator '.' then lx.documentIndicator .documentEnd
  else if ch == '[' then lx.flowStart .flowSequenceStart
  else if ch == '{' then lx.flowStart .flowMappingStart
  else if ch == ']' then lx.flowEnd .flowSequenceEnd
  else if ch == '}' then lx.flowEnd .flowMappingEnd
  else if ch == ',' then lx.flowEntry
  else if ch == '-' && c.endsWord 1 then lx.blockEntry
  else if ch == '?' && (lx.inFlow || c.endsWord 1) then lx.key
  else if ch == ':' && (lx.inFlow || c.endsWord 1) then lx.value
  else if ch == '*' then lx.reference
  else if ch == '&' then lx.anchor
  else if ch == '!' then lx.tag
  else if ch == '|' && !lx.inFlow then lx.block .literal
  else if ch == '>' && !lx.inFlow then lx.block .folded
  else if ch == singleQuote then lx.quoted ch .singleQuoted
  else if ch == '"' then lx.quoted ch .doubleQuoted
  else if lx.startsPlain ch then lx.plain
  else c.fail .noToken .token c.mark

def nextToken (lx : Lexer) : Except SyntaxError Lexer := do
  let lx ← (skipToToken (' ' :: lx.cursor.rest) lx).dropStaleKeys
  let lx := lx.unrollIndent lx.cursor.mark.column
  let lx ← match lx.cursor.rest with
    | [] => lx.streamEnd
    | ch :: _ => lx.tokenAt ch
  lx.dropStaleKeys

def finished (lx : Lexer) : Bool := (lx.tokens.head?).any (·.kind == .streamEnd)

/-- Number of tokens that no later colon can put a key in front of. -/
def settled (lx : Lexer) : Nat :=
  (lx.simpleKey :: lx.outerKeys).foldl (fun n k => k.elim n fun k => min n k.number)
    lx.tokens.length

/-- All tokens, or those that were settled before the first fault. -/
def run : (clock : List Char) → Lexer → List Token × Option SyntaxError
  | [], lx => (lx.tokens.reverse, none)
  | _ :: clock, lx =>
    match lx.nextToken with
    | .error e => (lx.tokens.reverse.take lx.settled, some e)
    | .ok next => if next.finished then (next.tokens.reverse, none) else run clock next

end Lexer

/-- The tokens of a text. They end with the end of the stream unless a fault comes first. -/
def tokens (text : String) : List Token × Option SyntaxError :=
  Lexer.run (' ' :: ' ' :: text.toList) { cursor := .ofText text }

end IndirectBranch.Yaml
