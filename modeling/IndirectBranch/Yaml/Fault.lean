import IndirectBranch.Mismatch

/-! What can be wrong with a YAML document, and where. -/
namespace IndirectBranch.Yaml

/-- A place in the text. Lines and columns are counted from zero, in characters. -/
structure Mark where
  index : Nat
  line : Nat
  column : Nat
  deriving DecidableEq, Repr, Inhabited

namespace Mark

def start : Mark := ⟨0, 0, 0⟩

def next (m : Mark) : Mark := ⟨m.index + 1, m.line, m.column + 1⟩

def nextLine (m : Mark) (width : Nat) : Mark := ⟨m.index + width, m.line + 1, 0⟩

def samePlace (m n : Mark) : Bool := m.line == n.line && m.column == n.column

/-- The place as messages end in it; the very start of the text is not mentioned. -/
def suffix (m : Mark) : String :=
  if m.samePlace start then "" else s!" at line {m.line + 1} column {m.column + 1}"

end Mark

inductive Context
  | simpleKey
  | token
  | directive
  | versionDirective
  | tagDirective
  | tagDirectiveStart
  | tagDirectiveHandle
  | tagDirectiveUri
  | anchor
  | alias
  | tag
  | tagUri
  | blockScalar
  | quotedScalar
  | escape
  | plainScalar
  | node
  | blockNode
  | flowNode
  | blockSequence
  | blockMapping
  | flowSequence
  | flowMapping
  deriving DecidableEq, Repr

def Context.text : Context → String
  | .simpleKey => "while scanning a simple key"
  | .token => "while scanning for the next token"
  | .directive => "while scanning a directive"
  | .versionDirective => "while scanning a %YAML directive"
  | .tagDirective => "while scanning a %TAG directive"
  | .tagDirectiveStart => "while scanning a tag directive"
  | .tagDirectiveHandle => "while parsing a tag directive"
  | .tagDirectiveUri => "while parsing a %TAG directive"
  | .anchor => "while scanning an anchor"
  | .alias => "while scanning an alias"
  | .tag => "while scanning a tag"
  | .tagUri => "while parsing a tag"
  | .blockScalar => "while scanning a block scalar"
  | .quotedScalar => "while scanning a quoted scalar"
  | .escape => "while parsing a quoted scalar"
  | .plainScalar => "while scanning a plain scalar"
  | .node => "while parsing a node"
  | .blockNode => "while parsing a block node"
  | .flowNode => "while parsing a flow node"
  | .blockSequence => "while parsing a block collection"
  | .blockMapping => "while parsing a block mapping"
  | .flowSequence => "while parsing a flow sequence"
  | .flowMapping => "while parsing a flow mapping"

inductive Problem
  | noColonAfterKey
  | misplacedEntry
  | misplacedKey
  | misplacedValue
  | noToken
  | unknownDirective
  | noDirectiveName
  | badDirectiveName
  | noLineEnd
  | noVersionDot
  | longVersion
  | noVersionNumber
  | noBlank
  | noBlankOrBreak
  | badAnchorName
  | unclosedTag
  | noExclamationMark
  | noTagUri
  | noEscapedOctet
  | badLeadingOctet
  | badTrailingOctet
  | zeroIndentation
  | tabInIndentation
  | documentIndicator
  | endOfStream
  | unknownEscape
  | noHexDigit
  | badCharacterCode
  | colonInFlow
  | tabInPlain
  | noDocumentStart
  | undefinedHandle
  | noNodeContent
  | noSequenceEntry
  | noMappingKey
  | flowSequenceOpen
  | flowMappingOpen
  | duplicateVersion
  | unsupportedVersion
  | duplicateTagHandle
  deriving DecidableEq, Repr

def Problem.text : Problem → String
  | .noColonAfterKey => "could not find expected ':'"
  | .misplacedEntry => "block sequence entries are not allowed in this context"
  | .misplacedKey => "mapping keys are not allowed in this context"
  | .misplacedValue => "mapping values are not allowed in this context"
  | .noToken => "found character that cannot start any token"
  | .unknownDirective => "found unknown directive name"
  | .noDirectiveName => "could not find expected directive name"
  | .badDirectiveName => "found unexpected non-alphabetical character"
  | .noLineEnd => "did not find expected comment or line break"
  | .noVersionDot => "did not find expected digit or '.' character"
  | .longVersion => "found extremely long version number"
  | .noVersionNumber => "did not find expected version number"
  | .noBlank => "did not find expected whitespace"
  | .noBlankOrBreak => "did not find expected whitespace or line break"
  | .badAnchorName => "did not find expected alphabetic or numeric character"
  | .unclosedTag => "did not find the expected '>'"
  | .noExclamationMark => "did not find expected '!'"
  | .noTagUri => "did not find expected tag URI"
  | .noEscapedOctet => "did not find URI escaped octet"
  | .badLeadingOctet => "found an incorrect leading UTF-8 octet"
  | .badTrailingOctet => "found an incorrect trailing UTF-8 octet"
  | .zeroIndentation => "found an indentation indicator equal to 0"
  | .tabInIndentation => "found a tab character where an indentation space is expected"
  | .documentIndicator => "found unexpected document indicator"
  | .endOfStream => "found unexpected end of stream"
  | .unknownEscape => "found unknown escape character"
  | .noHexDigit => "did not find expected hexdecimal number"
  | .badCharacterCode => "found invalid Unicode character escape code"
  | .colonInFlow => "found unexpected ':'"
  | .tabInPlain => "found a tab character that violates indentation"
  | .noDocumentStart => "did not find expected <document start>"
  | .undefinedHandle => "found undefined tag handle"
  | .noNodeContent => "did not find expected node content"
  | .noSequenceEntry => "did not find expected '-' indicator"
  | .noMappingKey => "did not find expected key"
  | .flowSequenceOpen => "did not find expected ',' or ']'"
  | .flowMappingOpen => "did not find expected ',' or '\x7d'"
  | .duplicateVersion => "found duplicate %YAML directive"
  | .unsupportedVersion => "found incompatible YAML document"
  | .duplicateTagHandle => "found duplicate %TAG directive"

structure SyntaxError where
  problem : Problem
  mark : Mark
  context : Option (Context × Mark)
  deriving DecidableEq, Repr

namespace SyntaxError

/-- The place of the context is left out if it is the place of the problem. -/
def message (e : SyntaxError) : String :=
  e.problem.text ++ e.mark.suffix ++
    match e.context with
    | none => ""
    | some (context, mark) =>
      ", " ++ context.text ++ if mark.samePlace e.mark then "" else mark.suffix

end SyntaxError

inductive Error
  /-- A control character, after so many bytes. -/
  | controlCharacter (offset : Nat)
  | syntactic (e : SyntaxError)
  | unknownAnchor (mark : Mark)
  | tooDeep (mark : Mark)
  | tooManyAliases
  | endOfStream
  | moreDocuments
  /-- A mismatch, with the path and the place of the value it belongs to. -/
  | mismatch (m : Mismatch) (path : String) (mark : Mark)
  deriving DecidableEq, Repr

def Error.message : Error → String
  | .controlCharacter 0 => "control characters are not allowed"
  | .controlCharacter offset => s!"control characters are not allowed at position {offset}"
  | .syntactic e => e.message
  | .unknownAnchor mark => "unknown anchor" ++ mark.suffix
  | .tooDeep mark => "recursion limit exceeded" ++ mark.suffix
  | .tooManyAliases => "repetition limit exceeded"
  | .endOfStream => "EOF while parsing a value"
  | .moreDocuments =>
    "deserializing from YAML containing more than one document is not supported"
  | .mismatch m "" mark => m.message ++ mark.suffix
  | .mismatch m path mark => path ++ ": " ++ m.message ++ mark.suffix

end IndirectBranch.Yaml
