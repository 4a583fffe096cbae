import IndirectBranch.Json.Lexeme

/-! Lists, objects and whole values in JSON text. Loops run on a clock: a list of characters that
starts no shorter than the text and loses one character for each item read. -/
namespace IndirectBranch.Json

/-- Where the next item of a list starts; `none` before the closing bracket. -/
def nextItem? (first : Bool) (s : List Char) : Except Fault (Option (List Char)) :=
  match skipBlank s with
  | [] => .error (.next .endInList [])
  | c :: s =>
    if c = ']' then .ok none
    else if first then .ok (some (c :: s))
    else if c = ',' then
      match skipBlank s with
      | [] => .error (.next .endInValue [])
      | d :: s => if d = ']' then .error (.next .trailingComma (d :: s)) else .ok (some (d :: s))
    else .error (.next .expectedListEnd (c :: s))

def closeList (s : List Char) : Except Fault (List Char) :=
  match skipBlank s with
  | [] => .error (.next .endInList [])
  | c :: s =>
    if c = ']' then .ok s
    else if c = ',' then
      match skipBlank s with
      | ']' :: s => .error (.next .trailingComma (']' :: s))
      | s => .error (.next .trailingText s)
    else .error (.next .trailingText (c :: s))

/-- The rest after trying to leave a list. -/
def leaveList (s : List Char) : List Char :=
  match skipBlank s with
  | ']' :: s => s
  | ',' :: s => skipBlank s
  | s => s

/-- The next key of an object and the rest after it; `none` before the closing brace. -/
def nextKey? (first : Bool) (s : List Char) : Except Fault (Option (String × List Char)) :=
  let key (s : List Char) : Except Fault (Option (String × List Char)) :=
    match string s with
    | .error f => .error f
    | .ok r => .ok (some r)
  match skipBlank s with
  | [] => .error (.next .endInObject [])
  | c :: s =>
    if c = '}' then .ok none
    else if first then
      if c = '"' then key s else .error (.next .keyNotString (c :: s))
    else if c = ',' then
      match skipBlank s with
      | [] => .error (.next .endInValue [])
      | d :: s =>
        if d = '"' then key s
        else if d = '}' then .error (.next .trailingComma (d :: s))
        else .error (.next .keyNotString (d :: s))
    else .error (.next .expectedObjectEnd (c :: s))

def colon (s : List Char) : Except Fault (List Char) :=
  match skipBlank s with
  | [] => .error (.next .endInObject [])
  | c :: s => if c = ':' then .ok s else .error (.next .expectedColon (c :: s))

def closeObject (s : List Char) : Except Fault (List Char) :=
  match skipBlank s with
  | [] => .error (.next .endInObject [])
  | c :: s =>
    if c = '}' then .ok s
    else if c = ',' then .error (.next .trailingComma (c :: s))
    else .error (.next .trailingText (c :: s))

def leaveObject (s : List Char) : List Char :=
  match skipBlank s with
  | '}' :: s => s
  | s => s

def scalar (s : List Char) : Read Json :=
  match s with
  | [] => .error (.next .endInValue [])
  | c :: rest =>
    if c = 'n' then (literal ['u', 'l', 'l'] rest).map (.null, ·)
    else if c = 't' then (literal ['r', 'u', 'e'] rest).map (.bool true, ·)
    else if c = 'f' then (literal ['a', 'l', 's', 'e'] rest).map (.bool false, ·)
    else if c = '-' then number true rest
    else if isDigit c then number false s
    else if c = '"' then (string rest).map fun (t, rest) => (.str t, rest)
    else .error (.next .expectedValue s)

def items {α : Type} (item : List Char → Read α) :
    (clock : List Char) → (first : Bool) → List Char → Read (List α)
  | [], _, s => .error (.next .endInList s)
  | _ :: clock, first, s =>
    match nextItem? first s with
    | .error f => .error f
    | .ok none => .ok ([], s)
    | .ok (some s) =>
      match item s with
      | .error f => .error f
      | .ok (v, s) =>
        match items item clock false s with
        | .error f => .error f
        | .ok (vs, s) => .ok (v :: vs, s)

def members {α : Type} (value : List Char → Read α) :
    (clock : List Char) → (first : Bool) → List Char → Read (List (String × α))
  | [], _, s => .error (.next .endInObject s)
  | _ :: clock, first, s =>
    match nextKey? first s with
    | .error f => .error f
    | .ok none => .ok ([], s)
    | .ok (some (k, s)) =>
      match colon s with
      | .error f => .error f
      | .ok s =>
        match value s with
        | .error f => .error f
        | .ok (v, s) =>
          match members value clock false s with
          | .error f => .error f
          | .ok (ms, s) => .ok ((k, v) :: ms, s)

/-- Lists and objects may be nested one level less than this. -/
def maxDepth : Nat := 128

def value : (depth : Nat) → List Char → Read Json
  | 0, s => .error (.next .tooDeep s)
  | depth + 1, s =>
    match skipBlank s with
    | [] => .error (.next .endInValue [])
    | c :: rest =>
      if c = '[' then
        if depth = 0 then .error (.next .tooDeep (c :: rest))
        else
          match items (value depth) (c :: rest) true rest with
          | .error f => .error f
          | .ok (vs, s) => (closeList s).map (.arr vs, ·)
      else if c = '{' then
        if depth = 0 then .error (.next .tooDeep (c :: rest))
        else
          match members (value depth) (c :: rest) true rest with
          | .error f => .error f
          | .ok (ms, s) => (closeObject s).map (.obj ms, ·)
      else scalar (c :: rest)

def skipItems (skip : List Char → Except Fault (List Char)) :
    (clock : List Char) → (first : Bool) → List Char → Except Fault (List Char)
  | [], _, s => .error (.next .endInList s)
  | _ :: clock, first, s =>
    match skipBlank s with
    | [] => .error (.next .endInList [])
    | c :: rest =>
      if c = ']' then .ok rest
      else
        match (if first then .ok (c :: rest)
          else if c = ',' then .ok rest
          else .error (.next .expectedListEnd (c :: rest)) : Except Fault (List Char)) with
        | .error f => .error f
        | .ok s =>
          match skip s with
          | .error f => .error f
          | .ok s => skipItems skip clock false s

def skipKey (s : List Char) : Except Fault (List Char) :=
  match skipBlank s with
  | [] => .error (.next .endInObject [])
  | c :: s =>
    if c = '"' then
      match skipString s with
      | .error f => .error f
      | .ok s => colon s
    else .error (.next .keyNotString (c :: s))

def skipMembers (skip : List Char → Except Fault (List Char)) :
    (clock : List Char) → (first : Bool) → List Char → Except Fault (List Char)
  | [], _, s => .error (.next .endInObject s)
  | _ :: clock, first, s =>
    match skipBlank s with
    | [] => .error (.next .endInObject [])
    | c :: rest =>
      if c = '}' then .ok rest
      else
        match (if first then .ok (c :: rest)
          else if c = ',' then .ok rest
          else .error (.next .expectedObjectEnd (c :: rest)) : Except Fault (List Char)) with
        | .error f => .error f
        | .ok s =>
          match skipKey s with
          | .error f => .error f
          | .ok s =>
            match skip s with
            | .error f => .error f
            | .ok s => skipMembers skip clock false s

/-- Passes over any value, however deep. -/
def skip : (clock : List Char) → List Char → Except Fault (List Char)
  | [], s => .error (.next .endInValue s)
  | _ :: clock, s =>
    match skipBlank s with
    | [] => .error (.next .endInValue [])
    | c :: rest =>
      if c = '[' then skipItems (skip clock) (c :: rest) true rest
      else if c = '{' then skipMembers (skip clock) (c :: rest) true rest
      else if c = 'n' then literal ['u', 'l', 'l'] rest
      else if c = 't' then literal ['r', 'u', 'e'] rest
      else if c = 'f' then literal ['a', 'l', 's', 'e'] rest
      else if c = '-' then skipNumber rest
      else if isDigit c then skipNumber (c :: rest)
      else if c = '"' then skipString rest
      else .error (.next .expectedValue (c :: rest))

/-- Only blanks may follow a document. -/
def finish {α : Type} (r : Read α) : Except Fault α :=
  match r with
  | .error f => .error f
  | .ok (v, s) =>
    match skipBlank s with
    | [] => .ok v
    | s => .error (.next .trailingText s)

def parse (text : String) : Except Error Json :=
  match finish (value maxDepth text.toList) with
  | .ok v => .ok v
  | .error f => .error (f.locate text.toList)

end IndirectBranch.Json
