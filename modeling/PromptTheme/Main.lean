/-
The program: reads the command line and the files that a task needs, carries the task out, and
prints or writes what comes of it.
-/
import PromptTheme.Command.Run

namespace PromptTheme.Command

def programVersion : String := "0.1.0"

def helpText : String := lines [
  "Preview, merge and check Starship prompt themes",
  "",
  "Usage: shipwright [OPTIONS] <COMMAND>",
  "",
  "Commands: " ++ String.intercalate ", " (topGrammar.commands)]

/-- Why the system refuses to read or write a file. -/
def fileError : IO.Error → FileError
  | .inappropriateType .. => .notAFolder
  | .resourceBusy .. => .isFolder
  | _ => .notFound

def readPath (path : String) : IO (String × Except FileError String) := do
  try
    return (path, .ok (← IO.FS.readFile path))
  catch e =>
    return (path, .error (fileError e))

/-- The folder that shows the given files. -/
def folderOf (texts : List (String × Except FileError String)) : Folder where
  read := fun path => (texts.lookup path).getD (.error .notFound)
  refuses := fun _ => none

def fail (message : String) (code : UInt32) : IO UInt32 := do
  IO.eprintln ("error: " ++ message)
  return code

def perform (i : Invocation) : IO UInt32 := do
  let texts ← i.task.paths.mapM readPath
  match i.run (folderOf texts) with
  | .error e => fail (e.message ConfigError.message) 1
  | .ok out =>
    IO.print out.text
    match out.file with
    | none => return if out.success then 0 else 1
    | some (path, text) =>
      try
        IO.FS.writeFile path text
        return 0
      catch e =>
        fail ((CommandError.unwritable path (fileError e)).message ConfigError.message) 1

/-- Follows a command line, and returns the exit code. -/
def program (words : List String) : IO UInt32 := do
  match Invocation.ofWords words with
  | .ok i => perform i
  | .error .helpWanted =>
    IO.print helpText
    return 0
  | .error .versionWanted =>
    IO.println ("shipwright " ++ programVersion)
    return 0
  | .error .nothingGiven =>
    IO.eprint helpText
    return 2
  | .error e => fail e.message 2

end PromptTheme.Command

def main (words : List String) : IO UInt32 := PromptTheme.Command.program words
