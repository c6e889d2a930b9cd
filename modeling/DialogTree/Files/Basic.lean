import DialogTree.Files.Path
/-!
# File systems

A file system tells what each path leads to. That a file is there does not mean that it can be read. Documents
are files in UTF-8.
-/

namespace DialogTree

inductive FileError where
  | missing
  /-- A part of the path leads through a file. -/
  | notDirectory
  | isDirectory
  | notText
  /-- The system does not open the file, for a reason in its own words. -/
  | unopened (reason : String)
  /-- The system fails behind the opening. -/
  | interrupted (reason : String)
deriving DecidableEq, Repr

def FileError.message : FileError → String
  | missing => "No such file or directory (os error 2)"
  | notDirectory => "Not a directory (os error 20)"
  | isDirectory => "Is a directory (os error 21)"
  | notText => "stream did not contain valid UTF-8"
  | unopened reason => reason
  | interrupted reason => reason

/-- The error comes up when the file is opened, before any of it is read. -/
def FileError.atOpening : FileError → Bool
  | missing | notDirectory | unopened _ => true
  | isDirectory | notText | interrupted _ => false

abbrev FileContent := Except FileError ByteArray

def FileContent.text (content : FileContent) : Except FileError String :=
  match content with
  | .error error => .error error
  | .ok bytes =>
    match String.fromUTF8? bytes with
    | some text => .ok text
    | none => .error .notText

inductive FileEntry where
  /-- A regular file. -/
  | file (content : FileContent)
  /-- A device, a pipe or whatever else is no directory. -/
  | special (content : FileContent)
  | directory (names : List String)

structure FileSystem where
  look : Path → Except FileError FileEntry

namespace FileSystem

def isFile (files : FileSystem) (path : Path) : Bool :=
  match files.look path with
  | .ok (.file _) => true
  | _ => false

/-- The names in a directory; `none` for anything else. -/
def names? (files : FileSystem) (path : Path) : Option (List String) :=
  match files.look path with
  | .ok (.directory names) => some names
  | _ => none

def readText (files : FileSystem) (path : Path) : Except FileError String :=
  match files.look path with
  | .error error => .error error
  | .ok (.directory _) => .error .isDirectory
  | .ok (.file content) => content.text
  | .ok (.special content) => content.text

end FileSystem

end DialogTree
