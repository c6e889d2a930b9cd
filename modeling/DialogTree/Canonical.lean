import DialogTree.Declaration
import DialogTree.Tree.Keys
/-!
# From declarations to a tree

The first declaration of a name and the first use of a key count. Everything that is dropped is reported in the
order of the document, also inside a declaration whose name is taken. A declaration without a name is reported and
not looked into.
-/

namespace DialogTree

/-- A problem of names or keys, with the path of the command that has it. -/
inductive StructureError where
  | duplicateCommand (path : String) (position : Option Position)
  | duplicateAttribute (path : String) (key : String) (position : Option Position)
  | reservedAttribute (path : String) (key : String) (position : Option Position)
  | invalidType (path : String) (found : String) (position : Option Position)
  | emptyName (position : Option Position)
  | emptyKeyword (path : String) (position : Option Position)
deriving DecidableEq, Repr

namespace StructureError

def position : StructureError → Option Position
  | duplicateCommand _ position => position
  | duplicateAttribute _ _ position => position
  | reservedAttribute _ _ position => position
  | invalidType _ _ position => position
  | emptyName position => position
  | emptyKeyword _ position => position

def message : StructureError → String
  | duplicateCommand path _ => "duplicate command name '" ++ path ++ "'"
  | duplicateAttribute path key _ =>
    "duplicate attribute '" ++ key ++ "' in command '" ++ path ++ "'"
  | reservedAttribute path key _ =>
    "attribute '" ++ key ++ "' in command '" ++ path ++ "' collides with a reserved key"
  | invalidType path found _ =>
    "attribute 'type' of command '" ++ path ++ "' must be a string, found " ++ found
  | emptyName _ => "command name must not be empty"
  | emptyKeyword path _ => "command '" ++ path ++ "' has an empty keyword"

end StructureError

/-- The type and the attributes gathered from a declaration. -/
structure Header where
  kind : Option String
  attributes : AttributeMap

namespace Header

def empty : Header := ⟨none, .empty⟩

def has (header : Header) (key : String) : Bool :=
  if key = typeKey then header.kind.isSome else header.attributes.contains key

/-- One more attribute, or the reason why it is dropped. -/
def add (path : String) (header : Header) (item : DeclaredAttribute) :
    Header × Option StructureError :=
  if reservedKeys.contains item.key then
    (header, some (.reservedAttribute path item.key item.position))
  else if header.has item.key then
    (header, some (.duplicateAttribute path item.key item.position))
  else if item.key = typeKey then
    match item.value with
    | .string kind => (⟨some kind, header.attributes⟩, none)
    | other => (header, some (.invalidType path other.kindName item.position))
  else
    (⟨header.kind, header.attributes.insert item.key item.value⟩, none)

def addAll (path : String) (header : Header) :
    List DeclaredAttribute → Header × List StructureError
  | [] => (header, [])
  | item :: rest =>
    let (next, error?) := header.add path item
    let (last, errors) := addAll path next rest
    (last, error?.toList ++ errors)

end Header

mutual

/-- The command of one declaration. -/
def Declaration.toNode (path : String) : Declaration → Node × List StructureError
  | ⟨_, keyword, position, attributes, body⟩ =>
    let keywordErrors := if keyword = "" then [.emptyKeyword path position] else []
    let (header, headerErrors) := Header.empty.addAll path attributes
    match body with
    | none =>
      (⟨keyword, header.kind, header.attributes, none, position⟩, keywordErrors ++ headerErrors)
    | some declarations =>
      let (children, errors) := addDeclarations (some path) .empty declarations
      (⟨keyword, header.kind, header.attributes, some children, position⟩,
        keywordErrors ++ headerErrors ++ errors)

/-- The declarations of one scope, behind the commands that the scope already holds. -/
def addDeclarations (parent : Option String) (tree : Tree) :
    List Declaration → Tree × List StructureError
  | [] => (tree, [])
  | declaration :: rest =>
    if declaration.name = "" then
      let (last, errors) := addDeclarations parent tree rest
      (last, .emptyName declaration.position :: errors)
    else
      let path := childPath parent declaration.name
      let (node, nodeErrors) := declaration.toNode path
      if tree.contains declaration.name then
        let (last, errors) := addDeclarations parent tree rest
        (last, .duplicateCommand path declaration.position :: nodeErrors ++ errors)
      else
        let (last, errors) :=
          addDeclarations parent ⟨tree.nodes ++ [(declaration.name, node)]⟩ rest
        (last, nodeErrors ++ errors)

end

/-- The tree of a document with every structural problem. -/
def canonicalize (declarations : List Declaration) : Tree × List StructureError :=
  addDeclarations none .empty declarations

end DialogTree
