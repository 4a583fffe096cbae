import IndirectBranch.Text.Hex
import IndirectBranch.Yaml.Cursor

/-! Tags, anchors and directives as they are written. -/
namespace IndirectBranch.Yaml

def asciiBytes (cs : List Char) : Bytes := cs.map fun c => UInt8.ofNat c.toNat

/-- Characters of a tag; verbatim tags and directives allow three more. -/
def isUriChar (verbatim : Bool) (c : Char) : Bool :=
  isNameChar c || ";/?:@&=+$.%!~*'()".contains c || (verbatim && ",[]".contains c)

def octet? (c : Cursor) : Option (UInt8 × Cursor) := do
  guard (c.has 0 '%')
  let high ← (c.peek? 1).bind Text.hexValue?
  let low ← (c.peek? 2).bind Text.hexValue?
  return (UInt8.ofNat (16 * high + low), c.skip 3)

/-- Number of bytes in the UTF-8 sequence that starts with `b`. -/
def sequenceLength? (b : UInt8) : Option Nat :=
  if b < 0x80 then some 1
  else if b &&& 0xE0 == 0xC0 then some 2
  else if b &&& 0xF0 == 0xE0 then some 3
  else if b &&& 0xF8 == 0xF0 then some 4
  else none

def trailingOctets (context : Context) (start : Mark) :
    Nat → Cursor → Except SyntaxError (Bytes × Cursor)
  | 0, c => .ok ([], c)
  | n + 1, c =>
    match octet? c with
    | none => c.fail .noEscapedOctet context start
    | some (b, after) =>
      if b &&& 0xC0 != 0x80 then c.fail .badTrailingOctet context start
      else do
        let (bytes, after) ← trailingOctets context start n after
        return (b :: bytes, after)

def escapedOctets (context : Context) (start : Mark) (c : Cursor) :
    Except SyntaxError (Bytes × Cursor) :=
  match octet? c with
  | none => c.fail .noEscapedOctet context start
  | some (b, after) =>
    match sequenceLength? b with
    | none => c.fail .badLeadingOctet context start
    | some length => do
      let (bytes, after) ← trailingOctets context start (length - 1) after
      return (b :: bytes, after)

def uriBytes (verbatim : Bool) (context : Context) (start : Mark) :
    (clock : List Char) → Cursor → Except SyntaxError (Bytes × Cursor)
  | [], c => .ok ([], c)
  | _ :: clock, c =>
    if !c.any 0 (isUriChar verbatim) then .ok ([], c)
    else do
      let (bytes, after) ←
        if c.has 0 '%' then escapedOctets context start c
        else pure (asciiBytes (c.rest.take 1), c.next)
      let (more, after) ← uriBytes verbatim context start clock after
      return (bytes ++ more, after)

/-- The text of a tag. Unless something was read before it, it may not be empty. -/
def tagUri (verbatim : Bool) (context : Context) (started : Bool) (start : Mark) (c : Cursor) :
    Except SyntaxError (Bytes × Cursor) := do
  let (bytes, after) ← uriBytes verbatim context start c.rest c
  if bytes.isEmpty && !started then after.fail .noTagUri context start
  return (bytes, after)

/-- A tag as it is written: the name of a directive, and the text after it. The handle is empty if
the text is the whole tag. -/
structure TagText where
  handle : String
  uri : Bytes
  deriving DecidableEq, Repr

/-- `!`, a name and perhaps another `!`. -/
def handleText (c : Cursor) : List Char × Cursor :=
  let (name, after) := c.next.span isNameChar
  if after.has 0 '!' then ('!' :: name ++ ['!'], after.next) else ('!' :: name, after)

def isHandle (text : List Char) : Bool := text.length > 1 && text.getLast? == some '!'

def tagText (flow : Bool) (c : Cursor) : Except SyntaxError (TagText × Cursor) := do
  let start := c.mark
  let (tag, c) ←
    if c.has 1 '<' then do
      let (uri, c) ← tagUri true .tagUri false start (c.skip 2)
      if !c.has 0 '>' then c.fail .unclosedTag .tag start
      pure (TagText.mk "" uri, c.next)
    else do
      let (text, c) := handleText c
      if isHandle text then do
        let (uri, c) ← tagUri false .tagUri false start c
        pure (TagText.mk (String.ofList text) uri, c)
      else do
        let (uri, c) ← tagUri false .tagUri true start c
        let uri := asciiBytes text.tail ++ uri
        pure (if uri.isEmpty then ⟨"", asciiBytes ['!']⟩ else ⟨"!", uri⟩, c)
  if !(flow && c.has 0 ',') && !c.endsWord 0 then c.fail .noBlankOrBreak .tag start
  return (tag, c)

def anchorName (context : Context) (c : Cursor) : Except SyntaxError (String × Cursor) :=
  let (name, after) := c.next.span isNameChar
  let ended := after.endsWord 0 || after.any 0 ("?:,]\x7d%@`".contains ·)
  if name.isEmpty || !ended then after.fail .badAnchorName context c.mark
  else .ok (String.ofList name, after)

inductive Directive
  | version (major minor : Nat)
  | tag (handle : String) (uri : Bytes)
  deriving DecidableEq, Repr

def versionNumber (start : Mark) (c : Cursor) : Except SyntaxError (Nat × Cursor) :=
  let (digits, after) := c.span Char.isDigit
  if digits.length > 9 then (c.skip 9).fail .longVersion .versionDirective start
  else if digits.isEmpty then c.fail .noVersionNumber .versionDirective start
  else .ok (digits.foldl (fun n d => 10 * n + (d.toNat - '0'.toNat)) 0, after)

def versionDirective (start : Mark) (c : Cursor) : Except SyntaxError (Directive × Cursor) := do
  let (major, c) ← versionNumber start (c.skipWhile isBlank)
  if !c.has 0 '.' then c.fail .noVersionDot .versionDirective start
  let (minor, c) ← versionNumber start c.next
  return (.version major minor, c)

def tagDirective (start : Mark) (c : Cursor) : Except SyntaxError (Directive × Cursor) := do
  let c := c.skipWhile isBlank
  if !c.has 0 '!' then c.fail .noExclamationMark .tagDirectiveStart start
  let (handle, c) := handleText c
  if handle.length > 1 && !isHandle handle then
    c.fail .noExclamationMark .tagDirectiveHandle start
  if !c.any 0 isBlank then c.fail .noBlank .tagDirective start
  let (uri, c) ← tagUri true .tagDirectiveUri false start (c.skipWhile isBlank)
  if !c.endsWord 0 then c.fail .noBlankOrBreak .tagDirective start
  return (.tag (String.ofList handle) uri, c)

def directive (c : Cursor) : Except SyntaxError (Directive × Cursor) := do
  let start := c.mark
  let (name, c) := c.next.span isNameChar
  if name.isEmpty then c.fail .noDirectiveName .directive start
  if !c.endsWord 0 then c.fail .badDirectiveName .directive start
  let (d, c) ← match String.ofList name with
    | "YAML" => versionDirective start c
    | "TAG" => tagDirective start c
    | _ => c.fail .unknownDirective .directive start
  let c := c.skipComment
  if !c.endsLine then c.fail .noLineEnd .directive start
  match c.lineBreak? with
  | some (_, after) => return (d, after)
  | none => return (d, c)

end IndirectBranch.Yaml
