import IndirectBranch.Command
import Std.Time

/-! The command line program: reads the files, runs the audit, prints what it gives. -/
open IndirectBranch

def fileErrorOf : IO.Error → FileError
  | .noFileOrDirectory .. => .notFound
  | .inappropriateType _ 21 _ => .isDirectory
  | .inappropriateType .. => .notDirectory
  | e => .other (toString e)

def readFile (path : String) : IO (String × Except FileError Bytes) := do
  try
    let bytes ← IO.FS.readBinFile path
    return (path, .ok bytes.toList)
  catch e => return (path, .error (fileErrorOf e))

def namedFiles (args : List String) : List String :=
  match CommandLine.parse args with
  | .ok o => o.policy.toList ++ if o.files.isEmpty then [Command.samplePath] else o.files
  | .error _ => []

def timeNow (zone : String) : IO String := do
  let now := Std.Time.DateTime.ofTimestamp (← Std.Time.Timestamp.now) .UTC
  return now.format "uuuu-MM-dd'T'HH:mm:ss.SSSSSS" ++ zone

def main (args : List String) : IO UInt32 := do
  let files ← (namedFiles args).eraseDups.mapM readFile
  let read : FileReader := fun path =>
    match files.find? (·.1 == path) with
    | some (_, content) => content
    | none => .error .notFound
  let result := CommandLine.run read (← timeNow "+00:00") args
  let stamp ← timeNow "Z"
  for line in result.log do
    IO.eprintln s!"{stamp} {line}"
  IO.print result.stdout
  IO.eprint result.stderr
  return UInt32.ofNat result.code
