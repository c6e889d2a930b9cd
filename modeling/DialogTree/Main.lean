import DialogTree.CommandLine.Run
import DialogTree.Pattern.Reader
/-!
# The program

The program looks at the paths of its command line and at what lies directly in the directories among them,
runs the command on what it saw, and writes the result.
-/

namespace DialogTree

namespace CommandLine

/-- An error in the words of the system. -/
def reasonOf : IO.Error → String
  | .permissionDenied _ code details | .resourceExhausted _ code details
  | .invalidArgument _ code details | .inappropriateType _ code details =>
    details ++ " (os error " ++ toString code ++ ")"
  | error => toString error

def fileErrorOf : IO.Error → FileError
  | .noFileOrDirectory .. => .missing
  | .inappropriateType .. => .notDirectory
  | error => .unopened (reasonOf error)

def readNow (path : Path) : IO FileContent := do
  try return .ok (← IO.FS.readBinFile path.text)
  catch error => return .error (.unopened (reasonOf error))

/-- What a path leads to. A file is there even when it cannot be read. -/
def lookNow (path : Path) : IO (Except FileError FileEntry) := do
  try
    let real ← IO.FS.realPath path.text
    match (← real.metadata).type with
    | .dir => return .ok (.directory ((← real.readDir).toList.map fun entry => entry.fileName))
    | .file => return .ok (.file (← readNow path))
    | _ => return .ok (.special (← readNow path))
  catch error => return .error (fileErrorOf error)

def lookAll (paths : List Path) : IO (List (Path × Except FileError FileEntry)) :=
  paths.mapM fun path => do return (path, ← lookNow path)

/-- What may be documents in the directories among some paths. -/
def candidates (seen : List (Path × Except FileError FileEntry)) : List Path :=
  seen.flatMap fun entry =>
    match entry.2 with
    | .ok (.directory names) => (names.map entry.1.join).filter hasDocumentExtension
    | _ => []

/-- The file system as far as it was seen. -/
def filesSeen (seen : List (Path × Except FileError FileEntry)) : FileSystem where
  look path := (seen.lookup path).getD (.error .missing)

/-- The part of the file system that a command needs. -/
def observe (command : Command) : IO FileSystem := do
  let seen ← lookAll command.paths
  return filesSeen (seen ++ (← lookAll (candidates seen)))

end CommandLine

end DialogTree

open DialogTree DialogTree.CommandLine in
def main (arguments : List String) : IO UInt32 := do
  let files ← match Command.ofArguments arguments with
    | .ok command => observe command
    | .error _ => pure (filesSeen [])
  let result := @run Pattern.engine files arguments
  (← IO.getStdout).putStr result.output.out
  (← IO.getStderr).putStr result.output.err
  return result.exitCode.toUInt32
