import IndirectBranch.Bytes

/-! Files by path: why they cannot be read, and a tree of them in memory. -/
namespace IndirectBranch

inductive FileError
  | notFound
  | notDirectory
  | isDirectory
  | notUtf8
  /-- Any other reason, in the words of the system. -/
  | other (reason : String)
  deriving DecidableEq, Repr

def FileError.message : FileError → String
  | .notFound => "No such file or directory (os error 2)"
  | .notDirectory => "Not a directory (os error 20)"
  | .isDirectory => "Is a directory (os error 21)"
  | .notUtf8 => "stream did not contain valid UTF-8"
  | .other reason => reason

abbrev FileReader := (path : String) → Except FileError Bytes

inductive FileEntry
  | file (bytes : Bytes)
  | directory
  deriving DecidableEq, Repr

/-- A tree of files, each under the names that lead to it from the root. -/
structure FileTree where
  entries : List (List String × FileEntry)
  /-- The directory that relative paths start from. -/
  base : List String
  deriving DecidableEq, Repr

namespace FileTree

def empty (base : List String) : FileTree :=
  ⟨(List.range base.length).map fun n => (base.take (n + 1), .directory), base⟩

def entry? (t : FileTree) (names : List String) : Option FileEntry :=
  if names.isEmpty then some .directory else (t.entries.find? (·.1 == names)).map (·.2)

/-- Goes from a place through the parts of a path, one directory after another. -/
def walk (t : FileTree) (place : List String) : List String → Except FileError (List String)
  | [] => .ok place
  | part :: parts =>
    match t.entry? place with
    | none => .error .notFound
    | some (.file _) => .error .notDirectory
    | some .directory =>
      if part == "" || part == "." then walk t place parts
      else if part == ".." then walk t place.dropLast parts
      else
        let next := place ++ [part]
        if (t.entry? next).isSome then walk t next parts else .error .notFound

def startOf (t : FileTree) (path : String) : List String :=
  if path.startsWith "/" then [] else t.base

/-- The place of an existing file or directory. The empty path leads nowhere. -/
def locate (t : FileTree) (path : String) : Except FileError (List String) :=
  if path.isEmpty then .error .notFound else t.walk (t.startOf path) (path.splitOn "/")

def read (t : FileTree) : FileReader := fun path => do
  match t.entry? (← t.locate path) with
  | some (.file bytes) => return bytes
  | some .directory => throw .isDirectory
  | none => throw .notFound

def put (t : FileTree) (names : List String) (e : FileEntry) : FileTree :=
  { t with entries := (names, e) :: t.entries.filter (·.1 != names) }

def create (t : FileTree) (place : List String) (e : FileEntry) : List String → FileTree
  | [] => t
  | part :: parts =>
    if part == "" || part == "." then create t place e parts
    else if part == ".." then create t place.dropLast e parts
    else
      let next := place ++ [part]
      if parts.isEmpty then t.put next e
      else
        let t := if (t.entry? next).isSome then t else t.put next .directory
        create t next e parts

def write (t : FileTree) (path : String) (bytes : Bytes) : FileTree :=
  t.create (t.startOf path) (.file bytes) (path.splitOn "/")

def makeDirectory (t : FileTree) (path : String) : FileTree :=
  t.create (t.startOf path) .directory (path.splitOn "/")

def remove? (t : FileTree) (path : String) : Option FileTree :=
  match t.locate path with
  | .error _ => none
  | .ok names =>
    match t.entry? names with
    | some (.file _) => some { t with entries := t.entries.filter (·.1 != names) }
    | _ => none

end FileTree

/-- The last name of a path; blank parts and single dots do not count. -/
def fileName? (path : String) : Option String :=
  match ((path.splitOn "/").filter fun part => part != "" && part != ".").getLast? with
  | some ".." => none
  | last => last

/-- What follows the last dot of the file name, unless nothing comes before that dot. -/
def fileExtension? (path : String) : Option String := do
  let name ← fileName? path
  let parts := name.splitOn "."
  if (".".intercalate parts.dropLast).isEmpty then none else parts.getLast?

end IndirectBranch
