import IndirectBranch.Json.Basic
import IndirectBranch.Json.Fault

/-! The smallest parts of JSON text: blanks, literals, strings and numbers. Every reader takes the
rest of the text and gives back what it read with the rest after it. -/
namespace IndirectBranch.Json

abbrev Read (α : Type) := Except Fault (α × List Char)

def isBlank (c : Char) : Bool := c == ' ' || c == '\n' || c == '\t' || c == '\r'

def skipBlank (s : List Char) : List Char := s.dropWhile isBlank

def literal : (letters : List Char) → List Char → Except Fault (List Char)
  | [], s => .ok s
  | _ :: _, [] => .error (.here .endInValue [])
  | l :: letters, c :: s =>
    if c = l then literal letters s else .error (.next .expectedLiteral (c :: s))

def hexQuad? : List Char → Option (Nat × List Char)
  | a :: b :: c :: d :: rest => do
    let a ← Text.hexValue? a
    let b ← Text.hexValue? b
    let c ← Text.hexValue? c
    let d ← Text.hexValue? d
    return (((a * 16 + b) * 16 + c) * 16 + d, rest)
  | _ => none

/-- Four hexadecimal digits. Four bytes are taken before they are looked at. -/
def hexQuad (s : List Char) : Read Nat :=
  match hexQuad? s with
  | some r => .ok r
  | none =>
    if byteCount s < 4 then .error (.here .endInString [])
    else .error (.placed (.flaw .badEscape) (byteCount s - 4))

def isLeading (n : Nat) : Bool := 0xD800 ≤ n && n ≤ 0xDBFF

def isTrailing (n : Nat) : Bool := 0xDC00 ≤ n && n ≤ 0xDFFF

/-- The second half of a character beyond the first plane, whose first half is `high`. -/
def trailingSurrogate (high : Nat) : List Char → Read Char
  | [] => .error (.here .endInString [])
  | ['\\'] => .error (.here .endInString [])
  | '\\' :: 'u' :: s =>
    match hexQuad s with
    | .error f => .error f
    | .ok (low, rest) =>
      if isTrailing low then
        .ok (Char.ofNat ((high - 0xD800) * 1024 + (low - 0xDC00) + 0x10000), rest)
      else .error (.here .loneSurrogate rest)
  | '\\' :: s => .error (.next .endOfHexEscape s)
  | s => .error (.next .endOfHexEscape s)

def escape : List Char → Read Char
  | [] => .error (.here .endInString [])
  | c :: s =>
    match c with
    | '"' => .ok ('"', s)
    | '\\' => .ok ('\\', s)
    | '/' => .ok ('/', s)
    | 'b' => .ok ('\x08', s)
    | 'f' => .ok ('\x0c', s)
    | 'n' => .ok ('\n', s)
    | 'r' => .ok ('\r', s)
    | 't' => .ok ('\t', s)
    | 'u' =>
      match hexQuad s with
      | .error f => .error f
      | .ok (n, rest) =>
        if isTrailing n then .error (.here .loneSurrogate rest)
        else if isLeading n then trailingSurrogate n rest
        else .ok (Char.ofNat n, rest)
    | c => .error (.next .badEscape (c :: s))

theorem hexQuad_shorter {s rest : List Char} {n : Nat} (h : hexQuad s = .ok (n, rest)) :
    rest.length < s.length := by
  unfold hexQuad at h
  split at h
  next r hr =>
    unfold hexQuad? at hr
    split at hr
    · simp only [Option.pure_def, Option.bind_eq_bind, Option.bind_eq_some_iff] at hr
      obtain ⟨_, _, _, _, _, _, _, _, hr⟩ := hr
      cases hr
      cases h
      simp only [List.length_cons]
      omega
    · cases hr
  next => split at h <;> cases h

theorem trailingSurrogate_shorter {high : Nat} {s rest : List Char} {c : Char}
    (h : trailingSurrogate high s = .ok (c, rest)) : rest.length < s.length := by
  unfold trailingSurrogate at h
  split at h
  case h_3 =>
    split at h
    · cases h
    next hq =>
      split at h
      · simp only [Except.ok.injEq, Prod.mk.injEq] at h
        have := hexQuad_shorter hq
        simp only [← h.2, List.length_cons]
        omega
      · cases h
  all_goals cases h

theorem escape_shorter {s rest : List Char} {c : Char} (h : escape s = .ok (c, rest)) :
    rest.length < s.length := by
  unfold escape at h
  split at h
  · cases h
  split at h
  case h_9 =>
    split at h
    · cases h
    next hq =>
      have := hexQuad_shorter hq
      split at h
      · cases h
      split at h
      · have := trailingSurrogate_shorter h
        simp only [List.length_cons]
        omega
      · simp only [Except.ok.injEq, Prod.mk.injEq] at h
        simp only [← h.2, List.length_cons]
        omega
  all_goals cases h
  all_goals simp

def stringBody : List Char → Read (List Char)
  | [] => .error (.here .endInString [])
  | c :: s =>
    if c = '"' then .ok ([], s)
    else if c = '\\' then
      match _h : escape s with
      | .error f => .error f
      | .ok (e, rest) =>
        match stringBody rest with
        | .error f => .error f
        | .ok (cs, rest) => .ok (e :: cs, rest)
    else if c.toNat < 0x20 then .error (.next .controlCharacter (c :: s))
    else
      match stringBody s with
      | .error f => .error f
      | .ok (cs, rest) => .ok (c :: cs, rest)
termination_by s => s.length
decreasing_by
  · have := escape_shorter ‹_›
    simp only [List.length_cons]
    omega
  · simp

def string (s : List Char) : Read String :=
  match stringBody s with
  | .error f => .error f
  | .ok (cs, rest) => .ok (String.ofList cs, rest)

/-- Passes over a string after its opening quote. Escapes need not form characters. -/
def skipString : List Char → Except Fault (List Char)
  | [] => .error (.here .endInString [])
  | c :: s =>
    if c = '"' then .ok s
    else if c = '\\' then
      match s with
      | [] => .error (.here .endInString [])
      | e :: rest =>
        if e = 'u' then
          match _h : hexQuad rest with
          | .error f => .error f
          | .ok (_, rest) => skipString rest
        else if e ∈ ['"', '\\', '/', 'b', 'f', 'n', 'r', 't'] then skipString rest
        else .error (.next .badEscape (e :: rest))
    else if c.toNat < 0x20 then .error (.here .controlCharacter (c :: s))
    else skipString s
termination_by s => s.length
decreasing_by
  · have := hexQuad_shorter ‹_›
    simp only [List.length_cons]
    omega
  all_goals simp only [List.length_cons]; omega

def isDigit (c : Char) : Bool := '0' ≤ c && c ≤ '9'

def digitValue (c : Char) : Nat := c.toNat - '0'.toNat

structure Scaled where
  significand : Nat
  exponent : Int
  deriving DecidableEq, Repr

/-- Digits that no longer fit only raise the exponent. -/
def Scaled.whole (significand : Nat) : List Char → Scaled
  | [] => ⟨significand, 0⟩
  | d :: ds =>
    let next := significand * 10 + digitValue d
    if next < UInt64.size then whole next ds else ⟨significand, (d :: ds).length⟩

/-- Decimals that no longer fit are dropped. -/
def Scaled.fraction (n : Scaled) : List Char → Scaled
  | [] => n
  | d :: ds =>
    let next := n.significand * 10 + digitValue d
    if next < UInt64.size then fraction ⟨next, n.exponent - 1⟩ ds else n

def powerOfTen (n : Nat) : Float := Float.ofScientific 1 false n

/-- Division by a power of ten, in steps that stay within range. -/
def divideByPower (x : Float) (n : Nat) : Float :=
  if n ≤ 308 then x / powerOfTen n
  else if x == 0 then x
  else divideByPower (x / powerOfTen 308) (n - 308)
termination_by n

/-- The number as floating point, every step rounded; `none` if it is out of range. -/
def Scaled.float? (n : Scaled) : Option Float :=
  let x := n.significand.toUInt64.toFloat
  if n.exponent < 0 then some (divideByPower x n.exponent.natAbs)
  else if n.exponent ≤ 308 then
    let y := x * powerOfTen n.exponent.natAbs
    if y.isInf then none else some y
  else if x == 0 then some x
  else none

def signed (negative : Bool) (x : Float) : Float := if negative then -x else x

def Scaled.finish (n : Scaled) (negative : Bool) (rest : List Char) : Read Json :=
  match n.float? with
  | some x => .ok (.float (signed negative x), rest)
  | none => .error (.here .numberRange rest)

def maxExponent : Nat := 0x7FFFFFFF

/-- Reads the digits of an exponent; a huge one means zero or a number out of range. -/
def exponentDigits (n : Scaled) (negative down : Bool) (value : Nat) : List Char → Read Json
  | [] => Scaled.finish ⟨n.significand, if down then n.exponent - value else n.exponent + value⟩
      negative []
  | c :: s =>
    if isDigit c then
      let next := value * 10 + digitValue c
      if next ≤ maxExponent then exponentDigits n negative down next s
      else if n.significand ≠ 0 ∧ !down then .error (.here .numberRange s)
      else .ok (.float (signed negative 0), s.dropWhile isDigit)
    else Scaled.finish ⟨n.significand, if down then n.exponent - value else n.exponent + value⟩
      negative (c :: s)

def exponentPart (n : Scaled) (negative : Bool) (s : List Char) : Read Json :=
  let (down, s) :=
    match s with
    | '+' :: s => (false, s)
    | '-' :: s => (true, s)
    | s => (false, s)
  match s with
  | [] => .error (.here .endInValue [])
  | c :: rest =>
    if isDigit c then exponentDigits n negative down (digitValue c) rest
    else .error (.next .badNumber (c :: rest))

/-- What may follow the digits of a number with a fraction or of a long number. -/
def afterDigits (n : Scaled) (negative : Bool) (s : List Char) : Read Json :=
  match s with
  | 'e' :: s => exponentPart n negative s
  | 'E' :: s => exponentPart n negative s
  | s => n.finish negative s

def fractionPart (n : Scaled) (negative : Bool) (s : List Char) : Read Json :=
  match s with
  | [] => .error (.next .endInValue [])
  | c :: _ =>
    if isDigit c then
      afterDigits (n.fraction (s.takeWhile isDigit)) negative (s.dropWhile isDigit)
    else .error (.next .badNumber s)

/-- An integer that fits 64 bits stays one; negative zero does not. -/
def integer (n : Nat) (negative : Bool) (rest : List Char) : Read Json :=
  if !negative then .ok (.nat n, rest)
  else if n = 0 ∨ n > UInt64.size / 2 then .ok (.float (signed true n.toUInt64.toFloat), rest)
  else .ok (.neg n, rest)

def number (negative : Bool) (s : List Char) : Read Json :=
  match s with
  | [] => .error (.here .endInValue [])
  | c :: rest =>
    if !isDigit c then .error (.next .badNumber (c :: rest))
    else if c = '0' ∧ (rest.head?.map isDigit).getD false then .error (.next .badNumber rest)
    else
      let n := Scaled.whole 0 (s.takeWhile isDigit)
      match s.dropWhile isDigit with
      | '.' :: rest => fractionPart n negative rest
      | 'e' :: rest => exponentPart n negative rest
      | 'E' :: rest => exponentPart n negative rest
      | rest =>
        if n.exponent = 0 then integer n.significand negative rest
        else n.finish negative rest

def skipExponent (s : List Char) : Except Fault (List Char) :=
  let s :=
    match s with
    | '+' :: s => s
    | '-' :: s => s
    | s => s
  match s with
  | [] => .error (.here .badNumber [])
  | c :: rest =>
    if isDigit c then .ok (rest.dropWhile isDigit) else .error (.next .badNumber (c :: rest))

def skipAfterDigits (s : List Char) : Except Fault (List Char) :=
  match s with
  | 'e' :: s => skipExponent s
  | 'E' :: s => skipExponent s
  | s => .ok s

/-- Passes over a number, after its sign. Its size does not matter. -/
def skipNumber (s : List Char) : Except Fault (List Char) :=
  match s with
  | [] => .error (.here .badNumber [])
  | c :: rest =>
    if !isDigit c then .error (.next .badNumber (c :: rest))
    else if c = '0' ∧ (rest.head?.map isDigit).getD false then .error (.next .badNumber rest)
    else
      match s.dropWhile isDigit with
      | '.' :: rest =>
        if (rest.head?.map isDigit).getD false then skipAfterDigits (rest.dropWhile isDigit)
        else .error (.next .badNumber rest)
      | rest => skipAfterDigits rest

end IndirectBranch.Json
