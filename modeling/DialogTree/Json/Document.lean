import DialogTree.Diagnostic
import DialogTree.Json.Location
import DialogTree.Json.Reader
import DialogTree.Json.Relaxed
/-!
# JSON documents

The top-level object maps names to commands. A command is an object with a keyword, attributes and
optionally an object of children. Names, keywords and keys must be ones that the document grammar can
write; empty and repeated ones are left to the tree.
-/

namespace DialogTree

namespace Json

def versionKey : String := "version"

mutual

/-- The attribute value that a JSON value writes, or the reason why it writes none. -/
def literalValue : Value → Except (String → String → ShapeError) DialogTree.Value
  | .string text => .ok (.string text)
  | .bool value => .ok (.bool value)
  | .integer number =>
    .ok (if Value.isInt64 number then .integer (Int64.ofInt number)
      else .float (Binary64.ofInt number))
  | .float number => .ok (.float number)
  | .array items => (literalValues items).map .list
  | .null => .error .attributeNull
  | .object _ => .error .attributeObject

def literalValues : List Value → Except (String → String → ShapeError) (List DialogTree.Value)
  | [] => .ok []
  | item :: rest => do
    let value ← literalValue item
    let values ← literalValues rest
    return value :: values

end

/-- What the entries of a command have given so far. -/
structure Fields where
  keyword : Option String
  attributes : List DeclaredAttribute
  body : Option (List Declaration)

namespace Fields

def empty : Fields := ⟨none, [], none⟩

def addKeyword (path : String) (fields : Fields) : Value → Fields × List ShapeError
  | .string text =>
    if fields.keyword.isSome then (fields, [.duplicateKey path keywordKey])
    else ({ fields with keyword := some text }, [])
  | other => (fields, [.keywordKind path other.kindName])

/-- An entry under any other key. -/
def addAttribute (path : String) (fields : Fields) (key : String) (value : Value) :
    Fields × List ShapeError :=
  if isIdentifier key then
    match literalValue value with
    | .ok value => ({ fields with attributes := fields.attributes ++ [⟨key, value, none⟩] }, [])
    | .error problem => (fields, [problem path key])
  else (fields, [.attributeKey path key])

end Fields

def declare (path name : String) (fields : Fields) : Option Declaration × List ShapeError :=
  match fields.keyword with
  | none => (none, [.noKeyword path])
  | some keyword =>
    if keyword ≠ "" ∧ !isIdentifier keyword then (none, [.keywordText path keyword])
    else if !name.toList.all isNameChar then (none, [])
    else (some ⟨name, keyword, none, fields.attributes, fields.body⟩, [])

/-- The problem with a name that the document grammar cannot write. -/
def nameErrors (path name : String) : List ShapeError :=
  if name.toList.all isNameChar then [] else [.commandName path]

mutual

def readCommand (parent : Option String) (name : String) :
    Value → Option Declaration × List ShapeError
  | .object entries =>
    let path := childPath parent name
    let (fields, errors) := readFields path .empty entries
    let (declaration?, lastErrors) := declare path name fields
    (declaration?, nameErrors path name ++ errors ++ lastErrors)
  | other => (none, [.commandKind (childPath parent name) other.kindName])

def readFields (path : String) (fields : Fields) :
    List (String × Value) → Fields × List ShapeError
  | [] => (fields, [])
  | (key, value) :: rest =>
    let (next, errors) :=
      if key = keywordKey then fields.addKeyword path value
      else if key = childrenKey then readBody path fields value
      else fields.addAttribute path key value
    let (last, lastErrors) := readFields path next rest
    (last, errors ++ lastErrors)

def readBody (path : String) (fields : Fields) : Value → Fields × List ShapeError
  | .object entries =>
    if fields.body.isSome then (fields, [.duplicateKey path childrenKey])
    else
      let (body, errors) := readCommands (some path) entries
      ({ fields with body := some body },
        if entries.isEmpty then .noChildren path :: errors else errors)
  | other => (fields, [.childrenKind path other.kindName])

def readCommands (parent : Option String) :
    List (String × Value) → List Declaration × List ShapeError
  | [] => ([], [])
  | (name, value) :: rest =>
    let (declaration?, errors) := readCommand parent name value
    let (declarations, lastErrors) := readCommands parent rest
    (declaration?.toList ++ declarations, errors ++ lastErrors)

end

/-- A diagnostic of the shape of a document, which has no position. -/
def shapeDiagnostic (error : ShapeError) : Diagnostic :=
  .json (.shape error) none

def versionErrors : Value → List Diagnostic
  | .integer number =>
    if number = supportedVersion then []
    else if 0 ≤ number ∧ Value.isInt64 number then [.unsupportedVersion number.toNat none]
    else [shapeDiagnostic (.versionKind (Value.integer number).kindName)]
  | other => [shapeDiagnostic (.versionKind other.kindName)]

/-- Whether an entry gives the version; a command may have that name too. -/
def isVersionEntry (name : String) : Value → Bool
  | .object _ => false
  | _ => name == versionKey

def readEntriesOfDocument : List (String × Value) → List Declaration × List Diagnostic
  | [] => ([], [])
  | (name, value) :: rest =>
    let (declarations, lastErrors) := readEntriesOfDocument rest
    if isVersionEntry name value then (declarations, versionErrors value ++ lastErrors)
    else
      let (declaration?, errors) := readCommand none name value
      (declaration?.toList ++ declarations, errors.map shapeDiagnostic ++ lastErrors)

def declarations : Value → List Declaration × List Diagnostic
  | .object entries =>
    match readEntriesOfDocument entries with
    | ([], []) => ([], [shapeDiagnostic .noCommands])
    | result => result
  | other => ([], [shapeDiagnostic (.notAnObject other.kindName)])

/-- The position in the source of a refusal of its strict text. -/
def refusalPosition (source strict : List Char) (refusal : Refusal) : Position :=
  let (line, column) := lineColumn strict refusal.index
  positionAt source line column

/-- The declarations of a relaxed JSON text, with everything that is wrong with it. -/
def document (source : String) : List Declaration × List Diagnostic :=
  let strict := relax source.toList
  match read strict with
  | .ok value => declarations value
  | .error refusal =>
    ([], [.json (.fault refusal.fault) (some (refusalPosition source.toList strict refusal))])

end Json

end DialogTree
