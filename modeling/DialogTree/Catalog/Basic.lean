import DialogTree.Schema.Registry
/-!
# Schema catalogs

A catalog declares schemas. Its declarations are kept as they are written; they are checked one after
another when the catalog is registered, and what came before a failure stays.
-/

namespace DialogTree

inductive CatalogError where
  | malformed
  | unsupportedVersion (version : String)
  | schema (key : SchemaKey) (error : SchemaError)
  | registry (error : RegistryError)
deriving DecidableEq, Repr

def CatalogError.message : CatalogError → String
  | malformed => "YAML error: "
  | unsupportedVersion version => "unsupported catalog version '" ++ version ++ "'"
  | schema key error => "schema '" ++ key.text ++ "': " ++ error.message
  | registry error => error.message

structure CatalogAttribute where
  name : String
  required : Bool
  rule : Rule

structure CatalogEntry where
  keyword : String
  /-- The type; empty for the schema of the keyword alone. -/
  kind : String
  attributes : List CatalogAttribute
  children : Option ChildBounds

structure Catalog where
  version : String
  entries : List CatalogEntry

/-! ## Registration -/

namespace CatalogEntry

def key (entry : CatalogEntry) : SchemaKey := ⟨entry.keyword, entry.kind⟩

/-- The declarations as a schema that is still to be checked. -/
def draft (entry : CatalogEntry) : SchemaDraft where
  entries := entry.attributes.map fun spec => ⟨spec.name, spec.required, .rule spec.rule⟩
  children := entry.children

/-- The registry behind an entry. A fault of the schema comes before one of the registry. -/
def registerInto [PatternEngine] (entry : CatalogEntry) (registry : Registry) :
    Registry × Except CatalogError Unit :=
  match entry.draft.build with
  | .error error => (registry, .error (.schema entry.key error))
  | .ok schema =>
    match registry.register entry.keyword entry.kind schema with
    | (next, .error error) => (next, .error (.registry error))
    | (next, .ok ()) => (next, .ok ())

end CatalogEntry

namespace Catalog

def supportedVersions : List String := ["1", "1.0"]

/-- The registry with the entries in front of the first failure, and that failure. -/
def registerEntries [PatternEngine] (registry : Registry) :
    List CatalogEntry → Registry × Except CatalogError Unit
  | [] => (registry, .ok ())
  | entry :: rest =>
    match entry.registerInto registry with
    | (next, .error error) => (next, .error error)
    | (next, .ok ()) => registerEntries next rest

def registerInto [PatternEngine] (catalog : Catalog) (registry : Registry) :
    Registry × Except CatalogError Nat :=
  if supportedVersions.contains catalog.version then
    let (next, result) := registerEntries registry catalog.entries
    (next, result.map fun _ => catalog.entries.length)
  else (registry, .error (.unsupportedVersion catalog.version))

end Catalog

/-! ## Written form -/

def ChildBounds.toJson (bounds : ChildBounds) : Json.Value :=
  .object [("min", .integer bounds.min), ("max", Rule.optional Rule.natural bounds.max)]

def CatalogAttribute.toJson (spec : CatalogAttribute) : Json.Value :=
  .object [("name", .string spec.name), ("required", .bool spec.required),
    ("rule", spec.rule.toJson)]

def CatalogEntry.toJson (entry : CatalogEntry) : Json.Value :=
  .object [("keyword", .string entry.keyword), ("type", .string entry.kind),
    ("attributes", .array (entry.attributes.map CatalogAttribute.toJson)),
    ("children", Rule.optional ChildBounds.toJson entry.children)]

def Catalog.toJson (catalog : Catalog) : Json.Value :=
  .object [("version", .string catalog.version),
    ("schemas", .array (catalog.entries.map CatalogEntry.toJson))]

end DialogTree
