import IndirectBranch.Text.Hex
import IndirectBranch.Yaml.Cursor

/-! Scalars as they are written: plain, quoted and block ones. -/
namespace IndirectBranch.Yaml

inductive Style
  | plain
  | singleQuoted
  | doubleQuoted
  | literal
  | folded
  deriving DecidableEq, Repr

/-- White space between two words of a scalar. -/
structure Gap where
  /-- Whether the line ended; the blanks around line breaks do not count then. -/
  broken : Bool := false
  blanks : List Char := []
  first : List Char := []
  more : List Char := []

/-- A single line break stands for a blank, and of several the first one is dropped. -/
def Gap.text (g : Gap) : List Char :=
  if g.broken then
    if g.first == ['\n'] then if g.more.isEmpty then [' '] else g.more
    else g.first ++ g.more
  else g.blanks

/-- Reads on in a gap. After a line break no tab may stand left of column `indent`. -/
def readGap (indent : Nat) (start : Mark) :
    (clock : List Char) → Gap → Cursor → Except SyntaxError (Gap × Cursor)
  | [], g, c => .ok (g, c)
  | _ :: clock, g, c =>
    if c.any 0 isBlank then
      if !g.broken then
        readGap indent start clock { g with blanks := g.blanks ++ c.rest.take 1 } c.next
      else if c.has 0 '\t' && c.mark.column < indent then c.fail .tabInPlain .plainScalar start
      else readGap indent start clock g c.next
    else
      match c.lineBreak? with
      | none => .ok (g, c)
      | some (b, c) =>
        let g := if g.broken then { g with more := g.more ++ [b] }
          else { broken := true, first := [b] }
        readGap indent start clock g c

/-! Plain scalars. -/

def isFlowIndicator (c : Char) : Bool := ",[]\x7b\x7d".contains c

/-- Characters up to a blank, a colon before a blank, or an indicator of the flow style. -/
def plainWord (flow : Bool) (start : Mark) :
    (clock : List Char) → Cursor → Except SyntaxError (List Char × Cursor)
  | [], c => .ok ([], c)
  | _ :: clock, c =>
    if c.endsWord 0 then .ok ([], c)
    else if flow && c.has 0 ':' && c.any 1 (fun d => isFlowIndicator d || d == '?') then
      c.fail .colonInFlow .plainScalar start
    else if (c.has 0 ':' && c.endsWord 1) || (flow && c.any 0 isFlowIndicator) then .ok ([], c)
    else do
      let (word, after) ← plainWord flow start clock c.next
      return (c.rest.take 1 ++ word, after)

/-- The text of a plain scalar, whether a line ended after it, and what follows. -/
structure PlainScalar where
  text : List Char
  lineEnded : Bool
  after : Cursor

def plainWords (flow : Bool) (indent : Nat) (start : Mark) :
    (clock : List Char) → (text : List Char) → Gap → Cursor → Except SyntaxError PlainScalar
  | [], text, gap, c => .ok ⟨text, gap.broken, c⟩
  | _ :: clock, text, gap, c =>
    if c.atDocumentIndicator || c.has 0 '#' then .ok ⟨text, gap.broken, c⟩
    else do
      let (word, c) ← plainWord flow start c.rest c
      let (text, gap) := if word.isEmpty then (text, gap) else (text ++ gap.text ++ word, {})
      if !(c.any 0 fun ch => isBlank ch || isBreak ch) then return ⟨text, gap.broken, c⟩
      let (gap, c) ← readGap indent start c.rest gap c
      if !flow && c.mark.column < indent then return ⟨text, gap.broken, c⟩
      plainWords flow indent start clock text gap c

/-- A plain scalar goes on over lines that are indented at least by `indent`. -/
def plainScalar (flow : Bool) (indent : Nat) (c : Cursor) : Except SyntaxError PlainScalar :=
  plainWords flow indent c.mark c.rest [] {} c

/-! Quoted scalars. -/

def escapeCode? (c : Char) : Option Nat :=
  match c with
  | '0' => some 0
  | 'a' => some 0x07
  | 'b' => some 0x08
  | 't' => some 0x09
  | '\t' => some 0x09
  | 'n' => some 0x0A
  | 'v' => some 0x0B
  | 'f' => some 0x0C
  | 'r' => some 0x0D
  | 'e' => some 0x1B
  | ' ' => some 0x20
  | '"' => some 0x22
  | '/' => some 0x2F
  | '\\' => some 0x5C
  | 'N' => some 0x85
  | '_' => some 0xA0
  | 'L' => some 0x2028
  | 'P' => some 0x2029
  | _ => none

def codeLength? (c : Char) : Option Nat :=
  match c with
  | 'x' => some 2
  | 'u' => some 4
  | 'U' => some 8
  | _ => none

def escape (start : Mark) (c : Cursor) : Except SyntaxError (Char × Cursor) :=
  match c.peek? 1 with
  | none => c.fail .unknownEscape .escape start
  | some letter =>
    match escapeCode? letter, codeLength? letter with
    | some code, _ => .ok (Char.ofNat code, c.skip 2)
    | none, none => c.fail .unknownEscape .escape start
    | none, some length =>
      let c := c.skip 2
      let digits := c.rest.take length
      match digits.mapM Text.hexValue? with
      | none => c.fail .noHexDigit .escape start
      | some values =>
        let code := values.foldl (fun n d => 16 * n + d) 0
        if values.length < length then c.fail .noHexDigit .escape start
        else if (0xD800 ≤ code && code ≤ 0xDFFF) || code > 0x10FFFF then
          c.fail .badCharacterCode .escape start
        else .ok (Char.ofNat code, c.skip length)

/-- Characters up to a blank or the closing quote, and whether an escaped line break ended them. -/
def quotedWord (quote : Char) (start : Mark) :
    (clock : List Char) → Cursor → Except SyntaxError (List Char × Bool × Cursor)
  | [], c => .ok ([], false, c)
  | _ :: clock, c =>
    if c.endsWord 0 then .ok ([], false, c)
    else if quote != '"' && c.has 0 quote && c.has 1 quote then do
      let (word, broken, after) ← quotedWord quote start clock (c.skip 2)
      return (quote :: word, broken, after)
    else if c.has 0 quote then .ok ([], false, c)
    else if quote == '"' && c.has 0 '\\' then
      match c.next.lineBreak? with
      | some (_, after) => .ok ([], true, after)
      | none => do
        let (decoded, after) ← escape start c
        let (word, broken, after) ← quotedWord quote start clock after
        return (decoded :: word, broken, after)
    else do
      let (word, broken, after) ← quotedWord quote start clock c.next
      return (c.rest.take 1 ++ word, broken, after)

def quotedWords (quote : Char) (start : Mark) :
    (clock : List Char) → (text : List Char) → Cursor → Except SyntaxError (List Char × Cursor)
  | [], _, c => c.fail .endOfStream .quotedScalar start
  | _ :: clock, text, c =>
    if c.atDocumentIndicator then c.fail .documentIndicator .quotedScalar start
    else if c.rest.isEmpty then c.fail .endOfStream .quotedScalar start
    else do
      let (word, broken, c) ← quotedWord quote start c.rest c
      let text := text ++ word
      if c.has 0 quote then return (text, c.next)
      let (gap, c) ← readGap 0 start c.rest { broken } c
      quotedWords quote start clock (text ++ gap.text) c

def quotedScalar (quote : Char) (c : Cursor) : Except SyntaxError (List Char × Cursor) :=
  quotedWords quote c.mark c.rest [] c.next

/-! Block scalars. -/

inductive Chomping
  | strip
  | clip
  | keep
  deriving DecidableEq, Repr

def chomping? (c : Cursor) : Option Chomping :=
  if c.has 0 '+' then some .keep else if c.has 0 '-' then some .strip else none

def indentation? (start : Mark) (c : Cursor) : Except SyntaxError (Option Nat) :=
  if c.has 0 '0' then c.fail .zeroIndentation .blockScalar start
  else .ok ((c.peek? 0).bind fun ch => if ch.isDigit then some (ch.toNat - '0'.toNat) else none)

/-- The two indicators may come in either order. -/
def blockHeader (start : Mark) (c : Cursor) :
    Except SyntaxError (Chomping × Option Nat × Cursor) := do
  match chomping? c with
  | some chomping =>
    match ← indentation? start c.next with
    | some n => return (chomping, some n, c.skip 2)
    | none => return (chomping, none, c.next)
  | none =>
    match ← indentation? start c with
    | none => return (.clip, none, c)
    | some n =>
      match chomping? c.next with
      | some chomping => return (chomping, some n, c.skip 2)
      | none => return (.clip, some n, c.next)

/-- Line breaks before a line with content, the deepest column reached in front of them, and the
start of that content. Indentation ends at column `indent`, if that is known. -/
def blankLines (indent : Option Nat) (start : Mark) :
    (clock : List Char) → (breaks : List Char) → (deepest : Nat) → Cursor →
      Except SyntaxError (List Char × Nat × Cursor)
  | [], breaks, deepest, c => .ok (breaks, deepest, c)
  | _ :: clock, breaks, deepest, c =>
    let spaces := (c.rest.takeWhile (· == ' ')).length
    let c := c.skip (match indent with
      | some n => min spaces (n - c.mark.column)
      | none => spaces)
    let deepest := max deepest c.mark.column
    if indent.all (c.mark.column < ·) && c.has 0 '\t' then
      c.fail .tabInIndentation .blockScalar start
    else
      match c.lineBreak? with
      | none => .ok (breaks, deepest, c)
      | some (b, c) => blankLines indent start clock (breaks ++ [b]) deepest c

/-- A line of a block scalar as far as it is known: the text so far, the break of the last line and
those of the empty lines after it. -/
structure BlockText where
  text : List Char := []
  lineBreak : List Char := []
  emptyLines : List Char := []
  /-- Whether the last line started with a blank. -/
  indented : Bool := false

/-- Adds a line. In the folded style a single break between two lines that start with no blank
becomes a space, and of several one is dropped. -/
def BlockText.add (folded : Bool) (t : BlockText) (line : List Char) : BlockText :=
  let indented := (line.head?).any isBlank
  let between :=
    if folded && t.lineBreak == ['\n'] && !t.indented && !indented then
      if t.emptyLines.isEmpty then [' '] else t.emptyLines
    else t.lineBreak ++ t.emptyLines
  { text := t.text ++ between ++ line, indented }

def BlockText.finish (t : BlockText) : Chomping → List Char
  | .strip => t.text
  | .clip => t.text ++ t.lineBreak
  | .keep => t.text ++ t.lineBreak ++ t.emptyLines

def blockLines (folded : Bool) (indent : Nat) (start : Mark) :
    (clock : List Char) → BlockText → Cursor → Except SyntaxError (BlockText × Cursor)
  | [], t, c => .ok (t, c)
  | _ :: clock, t, c =>
    if c.mark.column != indent || c.rest.isEmpty then .ok (t, c)
    else do
      let (line, c) := c.span (!isBreak ·)
      let t := t.add folded line
      let (lineBreak, c) := match c.lineBreak? with
        | some (b, c) => ([b], c)
        | none => ([], c)
      let (emptyLines, _, c) ← blankLines (some indent) start c.rest [] 0 c
      blockLines folded indent start clock { t with lineBreak, emptyLines } c

/-- A block scalar, from its indicator, inside a collection that is indented by `outer`; outside
any collection that is -1. -/
def blockScalar (folded : Bool) (outer : Int) (c : Cursor) :
    Except SyntaxError (List Char × Cursor) := do
  let start := c.mark
  let (chomping, increment, c) ← blockHeader start c.next
  let c := c.skipComment
  if !c.endsLine then c.fail .noLineEnd .blockScalar start
  let c := match c.lineBreak? with
    | some (_, c) => c
    | none => c
  let known := increment.map fun n => (max outer 0).toNat + n
  let (emptyLines, deepest, c) ← blankLines known start c.rest [] 0 c
  let indent := known.getD (max (max deepest (outer + 1).toNat) 1)
  let (t, c) ← blockLines folded indent start c.rest { emptyLines } c
  return (t.finish chomping, c)

end IndirectBranch.Yaml
