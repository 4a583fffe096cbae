import IndirectBranch.CommandLine.Similarity

/-! Arguments of the command line, and what can be wrong with them. -/
namespace IndirectBranch.CommandLine

inductive Switch
  | policy
  | pointerAuth
  | disassembler
  | json
  | parallel
  | verbose
  | help
  | version
  deriving DecidableEq, Repr

namespace Switch

def all : List Switch :=
  [.policy, .pointerAuth, .disassembler, .json, .parallel, .verbose, .help, .version]

def name : Switch → String
  | .policy => "policy"
  | .pointerAuth => "pointer-auth"
  | .disassembler => "disassembler"
  | .json => "json"
  | .parallel => "parallel"
  | .verbose => "verbose"
  | .help => "help"
  | .version => "version"

def takesValue : Switch → Bool
  | .policy => true
  | .disassembler => true
  | _ => false

def ofName? (name : String) : Option Switch := all.find? (·.name == name)

def ofLetter? (c : Char) : Option Switch :=
  match c with
  | 'v' => some .verbose
  | 'h' => some .help
  | 'V' => some .version
  | _ => none

def display (s : Switch) : String :=
  "--" ++ s.name ++
    match s with
    | .policy => " <POLICY>"
    | .disassembler => " <DISASSEMBLER>"
    | .verbose => "..."
    | _ => ""

end Switch

structure Options where
  files : List String := []
  policy : Option String := none
  pointerAuth : Bool := false
  disassembler : Option String := none
  json : Bool := false
  parallel : Bool := false
  verbosity : Nat := 0
  deriving DecidableEq, Repr

inductive Given
  | switch (s : Switch)
  | files
  deriving DecidableEq, Repr

def filesDisplay : String := "[FILES]..."

/-- The usage line. It shows the switches given so far, or else the general form. -/
def usage (given : List Given) : String :=
  let switches := given.filterMap fun g =>
    match g with
    | .switch s => some s.display
    | .files => none
  let shown := if given.isEmpty then ["[OPTIONS]"] else switches.eraseDups
  " ".intercalate (["Usage: branch-audit"] ++ shown ++ [filesDisplay])

inductive UsageError
  | unknown (argument : String) (similar : Option Switch) (given : List Given)
  | valueRequired (display : String)
  | surplusValue (value : String) (s : Switch) (given : List Given)
  | repeated (s : Switch)
  deriving DecidableEq, Repr

namespace UsageError

def headline : UsageError → String
  | .unknown argument _ _ => s!"unexpected argument '{argument}' found"
  | .valueRequired display => s!"a value is required for '{display}' but none was supplied"
  | .surplusValue value s _ =>
    s!"unexpected value '{value}' for '{s.display}' found; no more were expected"
  | .repeated s => s!"the argument '{s.display}' cannot be used multiple times"

def details : UsageError → List String
  | .unknown argument none given =>
    [s!"  tip: to pass '{argument}' as a value, use '-- {argument}'", usage given]
  | .unknown _ (some s) given => [s!"  tip: a similar argument exists: '--{s.name}'", usage given]
  | .valueRequired _ => []
  | .surplusValue _ _ given => [usage given]
  | .repeated _ => [usage []]

def message (e : UsageError) : String :=
  "\n\n".intercalate
    ([s!"error: {e.headline}"] ++ e.details ++ ["For more information, try '--help'.\n"])

end UsageError

/-- Arguments whose meaning is not settled yet: a switch that waits for its value or has it, or
files one after another. -/
inductive Pending
  | value (s : Switch) (v : Option String)
  | files (paths : List String)
  deriving DecidableEq, Repr

structure State where
  options : Options := {}
  given : List Given := []
  pending : Option Pending := none

inductive Stop
  | help
  | version
  | error (e : UsageError)
  deriving DecidableEq, Repr

namespace State

/-- Stores the value of a switch. It may be given once; a policy may not be empty. -/
def store (st : State) (s : Switch) (v : String) : State × Option UsageError :=
  if st.given.contains (.switch s) then
    ({ st with given := st.given.filter (· != .switch s) }, some (.repeated s))
  else
    let st := { st with given := st.given ++ [.switch s] }
    match s with
    | .policy =>
      if v.isEmpty then (st, some (.valueRequired s.display))
      else ({ st with options := { st.options with policy := some v } }, none)
    | _ => ({ st with options := { st.options with disassembler := some v } }, none)

/-- Settles what is pending. A fault leaves its mark on the state too. -/
def settle (st : State) : State × Option UsageError :=
  let settled := { st with pending := none }
  match st.pending with
  | none => (settled, none)
  | some (.value s none) => (settled, some (.valueRequired s.display))
  | some (.value s (some v)) => settled.store s v
  | some (.files paths) =>
    let settled := if st.given.contains .files then settled
      else { settled with given := settled.given ++ [.files] }
    if paths.contains "" then (settled, some (.valueRequired filesDisplay))
    else
      let options := { settled.options with files := settled.options.files ++ paths }
      ({ settled with options }, none)

def orStop (r : State × Option UsageError) : Except Stop State :=
  match r with
  | (st, none) => .ok st
  | (_, some e) => .error (.error e)

/-- A switch without a value. All but `verbose` may be given once. -/
def turnOn (st : State) (s : Switch) : Except Stop State := do
  let st ← orStop st.settle
  let once (options : Options) : Except Stop State :=
    if st.given.contains (.switch s) then .error (.error (.repeated s))
    else .ok { st with options, given := st.given ++ [.switch s] }
  match s with
  | .help => throw .help
  | .version => throw .version
  | .verbose =>
    let options := { st.options with verbosity := min (st.options.verbosity + 1) 255 }
    return { st with options, given := st.given.filter (· != .switch s) ++ [.switch s] }
  | .pointerAuth => once { st.options with pointerAuth := true }
  | .json => once { st.options with json := true }
  | .parallel => once { st.options with parallel := true }
  | .policy => return st
  | .disassembler => return st

/-- An argument of the form `--name` or `--name=value`. -/
def long (st : State) (name : String) (value : Option String) : Except Stop State := do
  match Switch.ofName? name with
  | none =>
    let given := st.settle.1.given
    match (mostSimilar? name (Switch.all.map (·.name))).bind Switch.ofName? with
    | some s =>
      let given := if given.contains (.switch s) then given else given ++ [.switch s]
      throw (.error (.unknown ("--" ++ name) (some s) given))
    | none => throw (.error (.unknown ("--" ++ name) none given))
  | some s =>
    match s.takesValue, value with
    | true, some v =>
      let st ← orStop st.settle
      orStop (st.store s v)
    | true, none =>
      let st ← orStop st.settle
      return { st with pending := some (.value s none) }
    | false, some v => throw (.error (.surplusValue v s (st.given ++ [.switch s])))
    | false, none => st.turnOn s

def letters (st : State) : List Char → Except Stop State
  | [] => .ok st
  | c :: cs =>
    match Switch.ofLetter? c with
    | none => .error (.error (.unknown ("-" ++ c.toString) none []))
    | some s => do
      let st ← st.turnOn s
      st.letters cs

def file (st : State) (path : String) : Except Stop State :=
  match st.pending with
  | some (.files paths) => .ok { st with pending := some (.files (paths ++ [path])) }
  | _ => do
    let st ← orStop st.settle
    return { st with pending := some (.files [path]) }

/-- Name and value of a long argument; an equals sign divides them. -/
def splitLong (s : List Char) : String × Option String :=
  match s.dropWhile (· != '=') with
  | [] => (String.ofList s, none)
  | _ :: value => (String.ofList (s.takeWhile (· != '=')), some (String.ofList value))

def argument (st : State) (arg : String) : Except Stop State :=
  match arg.toList with
  | '-' :: '-' :: c :: cs =>
    let (name, value) := splitLong (c :: cs)
    st.long name value
  | '-' :: c :: cs => st.letters (c :: cs)
  | _ =>
    match st.pending with
    | some (.value s none) => .ok { st with pending := some (.value s (some arg)) }
    | _ => st.file arg

def arguments (st : State) : List String → Except Stop State
  | [] => orStop st.settle
  | "--" :: args => do orStop (← args.foldlM file st).settle
  | arg :: args => do
    let st ← st.argument arg
    st.arguments args

end State

def parse (args : List String) : Except Stop Options :=
  (State.arguments {} args).map (·.options)

end IndirectBranch.CommandLine
