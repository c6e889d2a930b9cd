/-!
# Paths

A path keeps the text that it was given with. Paths are compared by their parts: repeated slashes and dots
between slashes make no difference, but a dot at the beginning does.
-/

namespace DialogTree

inductive PathPart where
  | root
  /-- A dot at the beginning. -/
  | here
  | up
  | name (text : String)
deriving DecidableEq, Repr

namespace PathPart

def rank : PathPart → Nat
  | root => 0
  | here => 1
  | up => 2
  | name _ => 3

/-- Names come last, in the order of their characters. -/
def lt : PathPart → PathPart → Bool
  | name a, name b => a < b
  | a, b => a.rank < b.rank

/-- The part that stands between two slashes, if anything does. -/
def ofText? (text : String) : Option PathPart :=
  if text = "" || text = "." then none
  else if text = ".." then some up
  else some (name text)

end PathPart

structure Path where
  text : String
deriving DecidableEq, Repr

namespace Path

def segments (path : Path) : List String :=
  (path.text.toList.splitOn '/').map String.ofList

def parts (path : Path) : List PathPart :=
  let names := path.segments.filterMap PathPart.ofText?
  match path.segments with
  | "" :: _ :: _ => .root :: names
  | "." :: _ => .here :: names
  | _ => names

def partsLt : List PathPart → List PathPart → Bool
  | _, [] => false
  | [], _ :: _ => true
  | a :: s, b :: t => a.lt b || (a == b && partsLt s t)

def lt (a b : Path) : Bool :=
  partsLt a.parts b.parts

def fileName? (path : Path) : Option String :=
  match path.parts.getLast? with
  | some (.name text) => some text
  | _ => none

/-- What follows the last dot of a name. A dot at the beginning of the name does not count. -/
def extension? (path : Path) : Option String :=
  path.fileName?.bind fun name =>
    match (name.toList.splitOn '.').reverse with
    | [] => none
    | [_] => none
    | [_, []] => none
    | extension :: _ => some (String.ofList extension)

def join (path : Path) (name : String) : Path :=
  ⟨if path.text.endsWith "/" then path.text ++ name else path.text ++ "/" ++ name⟩

/-- A path in its place among ascending paths. Of equal paths the first one stays. -/
def insertSorted (path : Path) : List Path → List Path
  | [] => [path]
  | other :: rest =>
    if path.lt other then path :: other :: rest
    else if path.parts == other.parts then other :: rest
    else other :: insertSorted path rest

/-- The paths in ascending order, each one once. -/
def sorted (paths : List Path) : List Path :=
  paths.foldl (fun sorted path => insertSorted path sorted) []

end Path

end DialogTree
