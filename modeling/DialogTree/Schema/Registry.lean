import DialogTree.Schema.Basic
/-!
# The schema registry

A registry maps pairs of a keyword and a type to schemas, in ascending order. Schemas are added until the
registry is frozen, and none is ever replaced.
-/

namespace DialogTree

structure SchemaKey where
  keyword : String
  /-- The type; a command without one has the empty type. -/
  kind : String
deriving DecidableEq, Repr

namespace SchemaKey

/-- By keyword, then by type. -/
def lt (a b : SchemaKey) : Bool :=
  a.keyword < b.keyword || (a.keyword == b.keyword && a.kind < b.kind)

def text (key : SchemaKey) : String :=
  if key.kind = "" then key.keyword else key.keyword ++ "/" ++ key.kind

end SchemaKey

inductive RegistryError where
  | duplicate (key : SchemaKey)
  | frozen (key : SchemaKey)
  | emptyKeyword
deriving DecidableEq, Repr

def RegistryError.message : RegistryError → String
  | duplicate key => "schema '" ++ key.text ++ "' is already registered"
  | frozen key => "cannot register '" ++ key.text ++ "': registry is frozen"
  | emptyKeyword => "schema keyword must not be empty"

structure Registry where
  entries : List (SchemaKey × Schema)
  frozen : Bool

namespace Registry

def empty : Registry := ⟨[], false⟩

instance : Inhabited Registry := ⟨empty⟩

def size (registry : Registry) : Nat :=
  registry.entries.length

def keys (registry : Registry) : List SchemaKey :=
  registry.entries.map Prod.fst

def lookup? (registry : Registry) (keyword kind : String) : Option Schema :=
  (registry.entries.find? fun entry => entry.1 == ⟨keyword, kind⟩).map Prod.snd

/-- An entry in its place among entries in ascending order. -/
def insertSorted (key : SchemaKey) (schema : Schema) :
    List (SchemaKey × Schema) → List (SchemaKey × Schema)
  | [] => [(key, schema)]
  | entry :: rest =>
    if key.lt entry.1 then (key, schema) :: entry :: rest
    else entry :: insertSorted key schema rest

/-- The registry behind the call, and the reason if the call is refused. -/
def register (registry : Registry) (keyword kind : String) (schema : Schema) :
    Registry × Except RegistryError Unit :=
  let key : SchemaKey := ⟨keyword, kind⟩
  if registry.frozen then (registry, .error (.frozen key))
  else if keyword = "" then (registry, .error .emptyKeyword)
  else if registry.keys.contains key then (registry, .error (.duplicate key))
  else ({ registry with entries := insertSorted key schema registry.entries }, .ok ())

/-- The end of registration. -/
def freeze (registry : Registry) : Registry :=
  { registry with frozen := true }

theorem lookup?_freeze (registry : Registry) (keyword kind : String) :
    registry.freeze.lookup? keyword kind = registry.lookup? keyword kind := rfl

end Registry

end DialogTree
