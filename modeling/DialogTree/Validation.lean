import DialogTree.Schema.Registry
import DialogTree.Diagnostic
/-!
# Validation

Every command is checked against the schema of its keyword and type, parents before children and siblings
in order. Declared attributes come first in declaration order, then undeclared ones as they are written,
then the number of children. Undeclared attributes are errors in strict mode and warnings otherwise.
-/

namespace DialogTree

inductive ValidationMode where
  | strict
  | lenient
deriving DecidableEq, Repr

/-- A violation of the schema of one command, with the command's path. -/
inductive ValidationError where
  | unknownSchema (path : String) (schema : SchemaKey) (position : Option Position)
  | missingAttribute (path name : String) (position : Option Position)
  | invalidAttribute (path name : String) (reason : CheckError) (position : Option Position)
  | extraAttribute (path name : String) (position : Option Position)
  | childCount (path : String) (bounds : ChildBounds) (count : Nat) (position : Option Position)
deriving DecidableEq

namespace ValidationError

def path : ValidationError → String
  | unknownSchema path _ _ => path
  | missingAttribute path _ _ => path
  | invalidAttribute path _ _ _ => path
  | extraAttribute path _ _ => path
  | childCount path _ _ _ => path

def attribute? : ValidationError → Option String
  | missingAttribute _ name _ => some name
  | invalidAttribute _ name _ _ => some name
  | extraAttribute _ name _ => some name
  | _ => none

def position : ValidationError → Option Position
  | unknownSchema _ _ position => position
  | missingAttribute _ _ position => position
  | invalidAttribute _ _ _ position => position
  | extraAttribute _ _ position => position
  | childCount _ _ _ position => position

def message : ValidationError → String
  | unknownSchema path schema _ =>
    "command '" ++ path ++ "': unknown schema '" ++ schema.text ++ "'"
  | missingAttribute path name _ =>
    "command '" ++ path ++ "': missing required attribute '" ++ name ++ "'"
  | invalidAttribute path name reason _ =>
    "command '" ++ path ++ "': attribute '" ++ name ++ "' " ++ reason.message
  | extraAttribute path name _ =>
    "command '" ++ path ++ "': unexpected attribute '" ++ name ++ "'"
  | childCount path bounds count _ =>
    "command '" ++ path ++ "': expected " ++ bounds.text ++ " children, found " ++ toString count

end ValidationError

/-- An undeclared attribute in lenient mode. -/
structure ValidationWarning where
  path : String
  name : String
  position : Option Position
deriving DecidableEq, Repr

def ValidationWarning.message (warning : ValidationWarning) : String :=
  "command '" ++ warning.path ++ "': undeclared attribute '" ++ warning.name ++ "'"

structure Report where
  errors : List ValidationError
  warnings : List ValidationWarning

namespace Report

def empty : Report := ⟨[], []⟩

def append (a b : Report) : Report :=
  ⟨a.errors ++ b.errors, a.warnings ++ b.warnings⟩

instance : Append Report := ⟨append⟩

def ofErrors (errors : List ValidationError) : Report := ⟨errors, []⟩

def isOk (report : Report) : Bool := report.errors.isEmpty

/-- One line per error. -/
def text (report : Report) : String :=
  "\n".intercalate (report.errors.map ValidationError.message)

end Report

/-! ## The findings of one command -/

/-- What a declared attribute finds in a command. -/
def AttributeSpec.findings (spec : AttributeSpec) (path : String) (node : Node) :
    List ValidationError :=
  match node.attributes.get? spec.name with
  | some value =>
    match spec.checker.check value with
    | .ok _ => []
    | .error reason => [.invalidAttribute path spec.name reason node.position]
  | none => if spec.required then [.missingAttribute path spec.name node.position] else []

namespace Schema

def undeclared (schema : Schema) (node : Node) : List String :=
  node.attributes.keys.filter fun key =>
    !structuralKeys.contains key && (schema.attribute? key).isNone

def undeclaredReport (schema : Schema) (mode : ValidationMode) (path : String) (node : Node) :
    Report :=
  match mode with
  | .strict => .ofErrors ((schema.undeclared node).map (.extraAttribute path · node.position))
  | .lenient => ⟨[], (schema.undeclared node).map (⟨path, ·, node.position⟩)⟩

def childErrors (schema : Schema) (path : String) (node : Node) : List ValidationError :=
  match schema.children with
  | none => []
  | some bounds =>
    if bounds.contains node.childCount then []
    else [.childCount path bounds node.childCount node.position]

def report (schema : Schema) (mode : ValidationMode) (path : String) (node : Node) : Report :=
  .ofErrors (schema.attributes.flatMap fun spec => spec.findings path node) ++
    schema.undeclaredReport mode path node ++ .ofErrors (schema.childErrors path node)

end Schema

namespace Registry

def schemaOf? (registry : Registry) (node : Node) : Option Schema :=
  registry.lookup? node.keyword node.schemaType

/-- The findings of one command alone. -/
def nodeReport (registry : Registry) (mode : ValidationMode) (path : String) (node : Node) :
    Report :=
  match registry.schemaOf? node with
  | none => .ofErrors [.unknownSchema path ⟨node.keyword, node.schemaType⟩ node.position]
  | some schema => schema.report mode path node

/-! ## The walk -/

mutual

def walkNode (registry : Registry) (mode : ValidationMode) (path : String) : Node → Report
  | ⟨keyword, kind, attributes, none, position⟩ =>
    registry.nodeReport mode path ⟨keyword, kind, attributes, none, position⟩
  | ⟨keyword, kind, attributes, some children, position⟩ =>
    registry.nodeReport mode path ⟨keyword, kind, attributes, some children, position⟩ ++
      registry.walkTree mode (some path) children

def walkTree (registry : Registry) (mode : ValidationMode) (parent : Option String) : Tree → Report
  | ⟨nodes⟩ => registry.walkNodes mode parent nodes

def walkNodes (registry : Registry) (mode : ValidationMode) (parent : Option String) :
    List (String × Node) → Report
  | [] => .empty
  | (name, node) :: rest =>
    registry.walkNode mode (childPath parent name) node ++ registry.walkNodes mode parent rest

end

def validate (registry : Registry) (mode : ValidationMode) (tree : Tree) : Report :=
  registry.walkTree mode none tree

/-! ## Coercion -/

/-- A value in the form that its checker accepts. -/
def coerceValue (schema : Schema) (key : String) (value : Value) : Value :=
  match schema.attribute? key with
  | none => value
  | some spec =>
    match spec.checker.check value with
    | .ok accepted => accepted
    | .error _ => value

def coerceAttributes (registry : Registry) (node : Node) : AttributeMap :=
  match registry.schemaOf? node with
  | none => node.attributes
  | some schema => node.attributes.mapValues (coerceValue schema)

mutual

def coerceNode (registry : Registry) : Node → Node
  | ⟨keyword, kind, attributes, none, position⟩ =>
    ⟨keyword, kind, registry.coerceAttributes ⟨keyword, kind, attributes, none, position⟩, none,
      position⟩
  | ⟨keyword, kind, attributes, some children, position⟩ =>
    ⟨keyword, kind, registry.coerceAttributes ⟨keyword, kind, attributes, none, position⟩,
      some (registry.coerceTree children), position⟩

def coerceTree (registry : Registry) : Tree → Tree
  | ⟨nodes⟩ => ⟨registry.coerceNodes nodes⟩

def coerceNodes (registry : Registry) : List (String × Node) → List (String × Node)
  | [] => []
  | (name, node) :: rest => (name, registry.coerceNode node) :: registry.coerceNodes rest

end

/-- The tree in accepted form with its warnings, when it is valid. -/
def accept (registry : Registry) (mode : ValidationMode) (tree : Tree) :
    Except (List ValidationError) (Tree × List ValidationWarning) :=
  let report := registry.validate mode tree
  match report.errors with
  | [] => .ok (registry.coerceTree tree, report.warnings)
  | errors => .error errors

end Registry

end DialogTree
