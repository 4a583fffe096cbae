import IndirectBranch.Audit
import IndirectBranch.CommandLine.Arguments
import IndirectBranch.Policy.File
import IndirectBranch.Report.Json
import IndirectBranch.Report.Text

/-! Carrying out what the command line asks for. -/
namespace IndirectBranch

inductive CommandError
  | policy (path : String) (cause : PolicyError)
  | start (cause : DisassemblyError)

namespace CommandError

def chain : CommandError → List String
  | .policy path cause => [s!"Failed to load policy from {path}", cause.message] ++ cause.cause?.toList
  | .start cause => ["Failed to start audit", cause.message]

def message (e : CommandError) : String := ": ".intercalate e.chain

/-- A cause, with further lines as far to the right as the first. -/
def causeLines (marker indent : String) (text : String) : String :=
  marker ++ ("\n" ++ indent).intercalate (text.splitOn "\n")

/-- Several causes are numbered. -/
def causes : List String → List String
  | [text] => [causeLines "    " "    " text]
  | texts => texts.zipIdx.map fun (text, n) => causeLines s!"    {n}: " "       " text

def report (e : CommandError) : String :=
  match e.chain with
  | [] => ""
  | context :: rest =>
    s!"Error: {context}\n\nCaused by:\n" ++ Report.unlines (causes rest)

end CommandError

namespace Command

structure Output where
  code : Nat
  stdout : String
  stderr : String := ""
  deriving DecidableEq, Repr

structure Run where
  log : List Log.Entry
  result : Except CommandError Output

/-- The policy file, if there is one. The command line can only add pointer authentication. -/
def loadPolicy (read : FileReader) (path : Option String) (pointerAuth : Bool) :
    Except CommandError Policy := do
  let p ← match path with
    | none => pure Policy.standard
    | some path =>
      match Policy.load read path with
      | .ok p => pure p
      | .error e => throw (.policy path e)
  return p.addPointerAuth pointerAuth

def samplePath : String := "../temp/sample1-aarch64"

def usageLine : String := "USAGE: branch-audit <files>...\n"

def jsonReport (generatedAt : String) (outcomes : List Outcome) : String :=
  (Report.toJson generatedAt outcomes).pretty 0 ++ "\n"

/-- The verdict on the files decides the exit code. -/
def scanOutput (generatedAt : String) (json : Bool) (outcomes : List Outcome) : Output :=
  { code := (Summary.ofOutcomes outcomes).exitCode
    stdout := if json then jsonReport generatedAt outcomes else Report.batch outcomes }

/-- A demonstration succeeds whatever the verdict, and shows the usage. -/
def demoOutput (generatedAt : String) (json : Bool) (outcomes : List Outcome) : Output :=
  if json then { code := 0, stdout := jsonReport generatedAt outcomes, stderr := usageLine }
  else { code := 0, stdout := String.join (outcomes.map Report.file) ++ usageLine }

def run (read : FileReader) (generatedAt : String) (demo : Bool) (o : CommandLine.Options) :
    Run :=
  match loadPolicy read o.policy o.pointerAuth with
  | .error e => ⟨[], .error e⟩
  | .ok policy =>
    let loaded : Log.Entry :=
      ⟨none, .policyLoaded o.policy policy.pointerAuth policy.exemptions.length⟩
    match Auditor.ofPolicy policy o.disassembler with
    | .error e => ⟨[loaded], .error (.start e)⟩
    | .ok auditor =>
      let paths := if demo then [samplePath] else o.files
      let outcomes := auditor.auditFiles read paths
      let output := if demo then demoOutput generatedAt o.json outcomes
        else scanOutput generatedAt o.json outcomes
      ⟨loaded :: auditor.log read o.parallel paths, .ok output⟩

end Command

namespace CommandLine

def helpText : String := String.join [
  "Audit AArch64 binaries for remaining indirect branches\n\n",
  usage [],
  "\n\nArguments:\n",
  "  [FILES]...  ELF files to audit. Without any, a demo sample is scanned and usage is printed\n",
  "\nOptions:\n",
  "      --policy <POLICY>              Policy file (.json, .yaml or .yml) with extra patterns ",
  "and exemptions\n",
  "      --pointer-auth                 Also flag pointer-authenticated branches ",
  "(braa, blraa, ...)\n",
  "      --disassembler <DISASSEMBLER>  Disassembler used to render findings (capstone, hex)\n",
  "      --json                         Emit JSON instead of human-readable text\n",
  "      --parallel                     Audit files concurrently; the report keeps input order\n",
  "  -v, --verbose...                   Increase log verbosity on stderr ",
  "(-v info, -vv debug, -vvv trace)\n",
  "  -h, --help                         Print help\n",
  "  -V, --version                      Print version\n"]

def versionText : String := s!"branch-audit {Report.toolVersion}\n"

structure Result where
  code : Nat
  stdout : String
  stderr : String
  log : List String
  deriving DecidableEq, Repr

/-- Runs the program on its arguments. Without files it gives a demonstration. -/
def run (read : FileReader) (generatedAt : String) (args : List String) : Result :=
  match parse args with
  | .error .help => ⟨0, helpText, "", []⟩
  | .error .version => ⟨0, versionText, "", []⟩
  | .error (.error e) => ⟨2, "", e.message, []⟩
  | .ok options =>
    let run := Command.run read generatedAt options.files.isEmpty options
    let log := Log.lines (.ofVerbosity options.verbosity) run.log
    match run.result with
    | .ok output => ⟨output.code, output.stdout, output.stderr, log⟩
    | .error e => ⟨1, "", e.report, log⟩

end CommandLine
end IndirectBranch
