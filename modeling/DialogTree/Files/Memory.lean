import DialogTree.Files.Basic
/-!
# File systems in memory

A file system is given by a list of files and directories below its working directory. The directories on
the way to them exist as well.
-/

namespace DialogTree

/-- The names that lead to a file, from the working directory on. -/
abbrev Location := List String

structure MemoryFile where
  location : Location
  /-- The content of a file; nothing for a directory. -/
  content : Option ByteArray

namespace MemoryFile

def ofPath (path : Path) (content : Option ByteArray) : MemoryFile where
  location := path.segments.filter fun name => name != "" && name != "."
  content := content

end MemoryFile

/-- What the location of a file names within a directory, when it lies there. -/
def Location.nameBelow? (directory location : Location) : Option String :=
  if directory.isPrefixOf location then (location.drop directory.length).head? else none

def lookAt (files : List MemoryFile) (location : Location) : Except FileError FileEntry :=
  let names := (files.filterMap fun file => Location.nameBelow? location file.location).eraseDups
  match files.find? fun file => file.location == location with
  | some ⟨_, some content⟩ => .ok (.file (.ok content))
  | some ⟨_, none⟩ => .ok (.directory names)
  | none =>
    if location.isEmpty || !names.isEmpty then .ok (.directory names) else .error .missing

/-- What the segments of a path lead to from a location on. Each of them needs a directory to start from. -/
def walk (files : List MemoryFile) (location : Location) : List String → Except FileError FileEntry
  | [] => lookAt files location
  | segment :: rest =>
    match lookAt files location with
    | .error error => .error error
    | .ok (.directory _) =>
      if segment = "" || segment = "." then walk files location rest
      else if segment = ".." then walk files location.dropLast rest
      else walk files (location ++ [segment]) rest
    | .ok _ => .error .notDirectory

/-- The file system of a list of files. Nothing lies outside the working directory. -/
def FileSystem.ofFiles (files : List MemoryFile) : FileSystem where
  look path := if path.text.startsWith "/" then .error .missing else walk files [] path.segments

end DialogTree
