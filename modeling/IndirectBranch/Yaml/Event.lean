import IndirectBranch.Yaml.Token

/-! The grammar of YAML: what the tokens of a document spell out, one node after another. -/
namespace IndirectBranch.Yaml

inductive EventKind
  | scalar (anchor : Option String) (tag : Option Bytes) (text : String) (style : Style)
  | alias (name : String)
  | sequenceStart (anchor : Option String) (tag : Option Bytes)
  | sequenceEnd
  | mappingStart (anchor : Option String) (tag : Option Bytes)
  | mappingEnd
  deriving DecidableEq, Repr

structure Event where
  kind : EventKind
  mark : Mark
  deriving DecidableEq, Repr

def Event.empty (mark : Mark) : Event := ⟨.scalar none none "" .plain, mark⟩

/-- What is to be read next. Collections remember where they start. -/
inductive Goal
  | node (block indentless : Bool)
  | blockEntry (start : Mark)
  | indentlessEntry
  | blockKey (start : Mark)
  | blockValue (start : Mark)
  | flowEntry (start : Mark) (first : Bool)
  /-- A single pair inside a flow sequence. -/
  | pairKey
  | pairValue
  | pairEnd
  | flowKey (start : Mark) (first : Bool)
  | flowValue (start : Mark) (omitted : Bool)
  deriving DecidableEq, Repr

/-- Parsing stops at a fault, or with `none` where the tokens run out. -/
abbrev Parse (α : Type) := Except (Option SyntaxError) α

def faultAt {α : Type} (t : Token) (problem : Problem) (context : Option (Context × Mark)) :
    Parse α :=
  .error (some ⟨problem, t.start, context⟩)

def uncons : List Token → Parse (Token × List Token)
  | [] => .error none
  | t :: ts => .ok (t, ts)

/-- Texts that tag handles stand for. -/
abbrev TagHandles := List (String × Bytes)

def standardHandles : TagHandles :=
  [("!", asciiBytes ['!']), ("!!", asciiBytes "tag:yaml.org,2002:".toList)]

structure Properties where
  anchor : Option String := none
  tag : Option (TagText × Mark) := none

/-- At most one anchor and one tag, in either order; the token after them must be there. -/
def properties (ts : List Token) : Parse (Properties × Token × List Token) := do
  let (t, rest) ← uncons ts
  match t.kind with
  | .anchor name =>
    let (t, rest) ← uncons rest
    match t.kind with
    | .tag text =>
      let (next, rest) ← uncons rest
      return ({ anchor := some name, tag := some (text, t.start) }, next, rest)
    | _ => return ({ anchor := some name }, t, rest)
  | .tag text =>
    let (next, rest) ← uncons rest
    match next.kind with
    | .anchor name =>
      let (last, rest) ← uncons rest
      return ({ anchor := some name, tag := some (text, t.start) }, last, rest)
    | _ => return ({ tag := some (text, t.start) }, next, rest)
  | _ => return ({}, t, rest)

def resolveTag (handles : TagHandles) (start : Mark) :
    Option (TagText × Mark) → Parse (Option Bytes)
  | none => .ok none
  | some (⟨"", uri⟩, _) => .ok (some uri)
  | some (⟨handle, uri⟩, mark) =>
    match handles.find? (·.1 == handle) with
    | some (_, text) => .ok (some (text ++ uri))
    | none => .error (some ⟨.undefinedHandle, mark, some (.node, start)⟩)

/-- What one step brings: perhaps an event, goals before the ones that wait, and what is left. -/
structure Progress where
  event : Option Event
  goals : List Goal
  rest : List Token

def nodeStep (handles : TagHandles) (block indentless : Bool) (ts : List Token) :
    Parse Progress := do
  let (front, after) ← uncons ts
  let start := front.start
  match front.kind with
  | .alias name => return ⟨some ⟨.alias name, start⟩, [], after⟩
  | _ =>
    let (p, t, rest) ← properties ts
    let tag ← resolveTag handles start p.tag
    let opened (kind : EventKind) (goal : Goal) : Parse Progress :=
      .ok ⟨some ⟨kind, start⟩, [goal], rest⟩
    match t.kind with
    | .scalar text style =>
      let tag := if tag == some (asciiBytes ['!']) then none else tag
      return ⟨some ⟨.scalar p.anchor tag text style, start⟩, [], rest⟩
    | .flowSequenceStart => opened (.sequenceStart p.anchor tag) (.flowEntry t.start true)
    | .flowMappingStart => opened (.mappingStart p.anchor tag) (.flowKey t.start true)
    | kind =>
      if indentless && kind == .blockEntry then
        return ⟨some ⟨.sequenceStart p.anchor tag, start⟩, [.indentlessEntry], t :: rest⟩
      else if block && kind == .blockSequenceStart then
        opened (.sequenceStart p.anchor tag) (.blockEntry t.start)
      else if block && kind == .blockMappingStart then
        opened (.mappingStart p.anchor tag) (.blockKey t.start)
      else if p.anchor.isSome || tag.isSome then
        return ⟨some ⟨.scalar p.anchor tag "" .plain, start⟩, [], t :: rest⟩
      else
        faultAt t .noNodeContent (some (if block then .blockNode else .flowNode, start))

/-- A node, unless one of the tokens `ends` comes: then it is left out. -/
def nodeUnless (ends : List TokenKind) (node after : Goal) (mark : Mark) (ts : List Token) :
    Parse Progress := do
  let (t, _) ← uncons ts
  if ends.contains t.kind then return ⟨some (.empty mark), [after], ts⟩
  else return ⟨none, [node, after], ts⟩

def Goal.step (handles : TagHandles) (goal : Goal) (ts : List Token) : Parse Progress := do
  match goal with
  | .node block indentless => nodeStep handles block indentless ts
  | .blockEntry start =>
    let (t, rest) ← uncons ts
    match t.kind with
    | .blockEntry =>
      nodeUnless [.blockEntry, .blockEnd] (.node true false) (.blockEntry start) t.stop rest
    | .blockEnd => return ⟨some ⟨.sequenceEnd, t.start⟩, [], rest⟩
    | _ => faultAt t .noSequenceEntry (some (.blockSequence, start))
  | .indentlessEntry =>
    let (t, rest) ← uncons ts
    match t.kind with
    | .blockEntry =>
      nodeUnless [.blockEntry, .key, .value, .blockEnd] (.node true false) .indentlessEntry t.stop
        rest
    | _ => return ⟨some ⟨.sequenceEnd, t.start⟩, [], ts⟩
  | .blockKey start =>
    let (t, rest) ← uncons ts
    match t.kind with
    | .key =>
      nodeUnless [.key, .value, .blockEnd] (.node true true) (.blockValue start) t.stop rest
    | .blockEnd => return ⟨some ⟨.mappingEnd, t.start⟩, [], rest⟩
    | _ => faultAt t .noMappingKey (some (.blockMapping, start))
  | .blockValue start =>
    let (t, rest) ← uncons ts
    match t.kind with
    | .value =>
      nodeUnless [.key, .value, .blockEnd] (.node true true) (.blockKey start) t.stop rest
    | _ => return ⟨some (.empty t.start), [.blockKey start], ts⟩
  | .flowEntry start first =>
    let (t, rest) ← uncons ts
    if t.kind == .flowSequenceEnd then return ⟨some ⟨.sequenceEnd, t.start⟩, [], rest⟩
    if !first && t.kind != .flowEntry then
      faultAt t .flowSequenceOpen (some (.flowSequence, start))
    let (t, rest) ← if first then pure (t, rest) else uncons rest
    match t.kind with
    | .key =>
      return ⟨some ⟨.mappingStart none none, t.start⟩, [.pairKey, .flowEntry start false], rest⟩
    | .flowSequenceEnd => return ⟨some ⟨.sequenceEnd, t.start⟩, [], rest⟩
    | _ => return ⟨none, [.node false false, .flowEntry start false], t :: rest⟩
  | .pairKey =>
    let (t, rest) ← uncons ts
    if [.value, .flowEntry, .flowSequenceEnd].contains t.kind then
      return ⟨some (.empty t.stop), [.pairValue], rest⟩
    else return ⟨none, [.node false false, .pairValue], ts⟩
  | .pairValue =>
    let (t, rest) ← uncons ts
    if t.kind == .value then
      let (t, _) ← uncons rest
      nodeUnless [.flowEntry, .flowSequenceEnd] (.node false false) .pairEnd t.start rest
    else return ⟨some (.empty t.start), [.pairEnd], ts⟩
  | .pairEnd =>
    let (t, _) ← uncons ts
    return ⟨some ⟨.mappingEnd, t.start⟩, [], ts⟩
  | .flowKey start first =>
    let (t, rest) ← uncons ts
    if t.kind == .flowMappingEnd then return ⟨some ⟨.mappingEnd, t.start⟩, [], rest⟩
    if !first && t.kind != .flowEntry then
      faultAt t .flowMappingOpen (some (.flowMapping, start))
    let (t, rest) ← if first then pure (t, rest) else uncons rest
    match t.kind with
    | .key =>
      let (next, _) ← uncons rest
      nodeUnless [.value, .flowEntry, .flowMappingEnd] (.node false false)
        (.flowValue start false) next.start rest
    | .flowMappingEnd => return ⟨some ⟨.mappingEnd, t.start⟩, [], rest⟩
    | _ => return ⟨none, [.node false false, .flowValue start true], t :: rest⟩
  | .flowValue start omitted =>
    let (t, rest) ← uncons ts
    if !omitted && t.kind == .value then
      let (next, _) ← uncons rest
      nodeUnless [.flowEntry, .flowMappingEnd] (.node false false) (.flowKey start false)
        next.start rest
    else return ⟨some (.empty t.start), [.flowKey start false], ts⟩

/-- The events up to the first fault, and the tokens after them if there was none. -/
structure Parsed where
  events : List Event
  rest : Parse (List Token)

def parseGoals (handles : TagHandles) :
    (fuel : Nat) → (events : List Event) → List Goal → List Token → Parsed
  | _, events, [], ts => ⟨events.reverse, .ok ts⟩
  | 0, events, _ :: _, _ => ⟨events.reverse, .error none⟩
  | fuel + 1, events, goal :: goals, ts =>
    match goal.step handles ts with
    | .error e => ⟨events.reverse, .error e⟩
    | .ok p => parseGoals handles fuel (p.event.toList ++ events) (p.goals ++ goals) p.rest

/-- A goal is worked off by a token, or leads to goals that are, so eight steps for each token are
enough. -/
def parseNode (handles : TagHandles) (ts : List Token) : Parsed :=
  parseGoals handles (8 * ts.length + 8) [] [.node true false] ts

def directives (versionSeen : Bool) (handles : TagHandles) :
    List Token → Parse (TagHandles × List Token)
  | [] => .error none
  | t :: ts =>
    match t.kind with
    | .directive (.version major minor) =>
      if versionSeen then faultAt t .duplicateVersion none
      else if major != 1 || (minor != 1 && minor != 2) then faultAt t .unsupportedVersion none
      else directives true handles ts
    | .directive (.tag handle uri) =>
      if handles.any (·.1 == handle) then faultAt t .duplicateTagHandle none
      else directives versionSeen (handles ++ [(handle, uri)]) ts
    | _ => .ok (handles ++ standardHandles, t :: ts)

def TokenKind.startsDocument : TokenKind → Bool
  | .directive _ => true
  | .documentStart => true
  | _ => false

def documentContent (handles : TagHandles) : List Token → Parsed
  | [] => ⟨[], .error none⟩
  | t :: ts =>
    if t.kind.startsDocument || t.kind == .documentEnd || t.kind == .streamEnd then
      ⟨[.empty t.start], .ok (t :: ts)⟩
    else parseNode handles (t :: ts)

/-- The first document. Without directives its start may be left out. -/
def firstDocument : List Token → Parsed
  | [] => ⟨[], .error none⟩
  | t :: ts =>
    if t.kind == .streamEnd then ⟨[], .ok (t :: ts)⟩
    else if t.kind.startsDocument then
      match directives false [] (t :: ts) with
      | .error e => ⟨[], .error e⟩
      | .ok (_, []) => ⟨[], .error none⟩
      | .ok (handles, u :: us) =>
        if u.kind == .documentStart then documentContent handles us
        else ⟨[], faultAt u .noDocumentStart none⟩
    else parseNode standardHandles (t :: ts)

/-- Whether nothing follows a document: its end may be marked any number of times. -/
def endsStream : List Token → Bool
  | [] => false
  | t :: ts => t.kind == .streamEnd || (t.kind == .documentEnd && endsStream ts)

/-- The events of the first document, why they break off, and whether there is more. -/
structure Document where
  events : List Event
  fault : Option SyntaxError
  more : Bool

/-- After the document, the token that ends it must be there. -/
def document (text : String) : Document :=
  let (ts, lexical) := tokens text
  let parsed := firstDocument ts
  match parsed.rest with
  | .error (some e) => ⟨parsed.events, some e, false⟩
  | .error none => ⟨parsed.events, lexical, false⟩
  | .ok [] => ⟨parsed.events, lexical, false⟩
  | .ok rest => ⟨parsed.events, none, !endsStream rest⟩

end IndirectBranch.Yaml
