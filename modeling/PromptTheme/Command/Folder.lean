/-
The files that commands read and write. `Folder` is all that a command may ask about files, and
`Files` is a folder whose whole content is known. A path is followed name by name, so that what is
wrong with its first names comes before what is wrong with the last one.
-/
import PromptTheme.Keyed

namespace PromptTheme.Command

/-- Why a file cannot be read or written. -/
inductive FileError where
  | notFound
  | notAFolder
  | isFolder
  | nameTooLong
  /-- There is a NUL in the path. -/
  | badName
deriving DecidableEq

def FileError.message : FileError → String
  | notFound => "No such file or directory (os error 2)"
  | notAFolder => "Not a directory (os error 20)"
  | isFolder => "Is a directory (os error 21)"
  | nameTooLong => "File name too long (os error 36)"
  | badName => "file name contained an unexpected NUL byte"

structure Folder where
  read : String → Except FileError String
  /-- Why a file cannot be written, if it cannot. -/
  refuses : String → Option FileError

/-- Texts by path; folders are there when a file is in them. -/
abbrev Files := Dict String

/-! ## Paths -/

/-- The names on a path. -/
def pathNames (path : String) : List String :=
  (path.splitOn "/").filter fun name => name ≠ ""

/-- The largest number of bytes in a name. -/
def maxNameSize : Nat := 255

/-- The largest number of bytes in a path. -/
def maxPathSize : Nat := 4095

/-- A folder: somewhere outside of the known one, or reached from it by the given names. -/
inductive Location where
  | outside
  | inside (names : List String)
deriving DecidableEq

def Location.up : Location → Location
  | inside (name :: rest) => inside (name :: rest).dropLast
  | _ => outside

/-- What a path leads to, as far as the path itself tells. -/
structure Target where
  /-- The last folder on the path. -/
  folder : Location
  /-- The name of a file or folder in there; without one the path is that of the folder. -/
  name : Option String
  /-- A slash stands behind the name. -/
  slash : Bool

/-- What has a name. -/
inductive Entry where
  | file (text : String)
  | folder
  | nothing

namespace Files

def path (names : List String) : String := String.intercalate "/" names

def isFolder (files : Files) (names : List String) : Bool :=
  files.keys.any fun key => names.isPrefixOf (pathNames key) && names ≠ pathNames key

def entry (files : Files) (names : List String) : Entry :=
  match files.find? (path names) with
  | some text => .file text
  | none => if files.isFolder names then .folder else .nothing

/-- Follows names that have to be those of folders. Nothing is known of what lies outside. -/
def enter (files : Files) : Location → List String → Except FileError Location
  | here, [] => .ok here
  | here, name :: rest =>
    if name = "." then enter files here rest
    else if name = ".." then enter files here.up rest
    else if maxNameSize < name.utf8ByteSize then .error .nameTooLong
    else
      match here with
      | .outside => .error .notFound
      | .inside names =>
        match files.entry (names ++ [name]) with
        | .folder => enter files (.inside (names ++ [name])) rest
        | .file _ => .error .notAFolder
        | .nothing => .error .notFound

/-- Follows a path up to its last name. -/
def target (files : Files) (path : String) : Except FileError Target :=
  let names := pathNames path
  let start := if path.toList.head? = some '/' then Location.outside else .inside []
  if path.toList.contains '\x00' then .error .badName
  else if path = "" then .error .notFound
  else if maxPathSize < path.utf8ByteSize then .error .nameTooLong
  else
    match names.getLast? with
    | none => .ok ⟨start, none, true⟩
    | some last =>
      if last = "." ∨ last = ".." then
        (files.enter start names).map fun folder => ⟨folder, none, true⟩
      else
        (files.enter start names.dropLast).bind fun folder =>
          if maxNameSize < last.utf8ByteSize then .error .nameTooLong
          else .ok ⟨folder, some last, path.toList.getLast? = some '/'⟩

/-! ## Reading and writing -/

def read (files : Files) (path : String) : Except FileError String :=
  match files.target path with
  | .error e => .error e
  | .ok ⟨_, none, _⟩ => .error .isFolder
  | .ok ⟨.outside, some _, _⟩ => .error .notFound
  | .ok ⟨.inside names, some name, slash⟩ =>
    match files.entry (names ++ [name]) with
    | .file text => if slash then .error .notAFolder else .ok text
    | .folder => .error .isFolder
    | .nothing => .error .notFound

/-- Only a name without a slash behind it can be that of a new file. -/
def refuses (files : Files) (path : String) : Option FileError :=
  match files.target path with
  | .error e => some e
  | .ok ⟨_, none, _⟩ => some .isFolder
  | .ok ⟨_, some _, true⟩ => some .isFolder
  | .ok ⟨.outside, some _, false⟩ => none
  | .ok ⟨.inside names, some name, false⟩ =>
    match files.entry (names ++ [name]) with
    | .folder => some .isFolder
    | _ => none

def folder (files : Files) : Folder := ⟨files.read, files.refuses⟩

/-- The files after a text is written. What is written outside is not seen. -/
def write (files : Files) (path text : String) : Files :=
  match files.target path with
  | .ok ⟨.inside names, some name, _⟩ => files.insert (Files.path (names ++ [name])) text
  | _ => files

/-- The files that are new or have another text than before. -/
def changes (before after : Files) : Keyed String :=
  after.entries.filter fun (path, text) => before.find? path ≠ some text

end Files

end PromptTheme.Command
