import IndirectBranch.Files
import IndirectBranch.Json.Source
import IndirectBranch.Policy.Schema
import IndirectBranch.Yaml.Source

/-! Policies from text and from files. -/
namespace IndirectBranch

inductive PolicyError
  | unreadable (path : String) (cause : FileError)
  | json (cause : Json.Error)
  | yaml (cause : Yaml.Error)
  | unsupported (path : String)

namespace PolicyError

def message : PolicyError → String
  | .unreadable path cause => s!"Failed to read policy file {path}: {cause.message}"
  | .json cause => s!"Failed to parse policy JSON: {cause.message}"
  | .yaml cause => s!"Failed to parse policy YAML: {cause.message}"
  | .unsupported path =>
    s!"Unsupported policy format for {path} (expected .json, .yaml or .yml)"

def cause? : PolicyError → Option String
  | .unreadable _ cause => some cause.message
  | .json cause => some cause.message
  | .yaml cause => some cause.message
  | .unsupported _ => none

end PolicyError

namespace Policy

def ofJson (text : String) : Except PolicyError Policy :=
  match Json.Source.run value text with
  | .ok p => .ok p
  | .error e => .error (.json e)

def ofYaml (text : String) : Except PolicyError Policy :=
  match Yaml.Source.run value text with
  | .ok p => .ok p
  | .error e => .error (.yaml e)

/-- The format is told by the extension, but only once the file has been read. -/
def load (read : FileReader) (path : String) : Except PolicyError Policy :=
  match read path with
  | .error e => .error (.unreadable path e)
  | .ok bytes =>
    match Text.ofUtf8? bytes with
    | none => .error (.unreadable path .notUtf8)
    | some text =>
      match (fileExtension? path).map String.toLower with
      | some "json" => ofJson text
      | some "yaml" => ofYaml text
      | some "yml" => ofYaml text
      | _ => .error (.unsupported path)

end Policy
end IndirectBranch
