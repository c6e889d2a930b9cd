import DialogTree.Catalog.Basic
import DialogTree.Yaml.Record
/-!
# Reading catalogs

A catalog is written in YAML. Unknown keys are ignored, and known keys occur at most once. Without a rule an
attribute takes any value.
-/

namespace DialogTree

namespace Catalog

def field? (entries : List (String × Yaml.Node)) (key : String) : Option Yaml.Node :=
  (entries.find? fun entry => entry.1 == key).map Prod.snd

def fieldD {α : Type} (entries : List (String × Yaml.Node)) (key : String) (read : Yaml.Node → Option α)
    (default : α) : Option α :=
  match field? entries key with
  | none => some default
  | some node => read node

def maxDepth : Nat := 128

/-- The number of collections around a rule. -/
def ruleDepth : Nat := 5

def readRule (node : Yaml.Node) : Option Rule :=
  if maxDepth < ruleDepth + node.depth then none else node.value?.bind Rule.ofJson?

def readAttribute (node : Yaml.Node) : Option CatalogAttribute := do
  let entries ← node.record? ["name", "required", "rule"]
  return {
    name := ← (← field? entries "name").text?
    required := ← fieldD entries "required" Yaml.Node.truth? false
    rule := ← fieldD entries "rule" readRule .any }

def readBounds (node : Yaml.Node) : Option ChildBounds := do
  let entries ← node.record? ["min", "max"]
  return ⟨← fieldD entries "min" Yaml.Node.count? 0,
    ← fieldD entries "max" (Yaml.Node.optional? Yaml.Node.count?) none⟩

def readEntry (node : Yaml.Node) : Option CatalogEntry := do
  let entries ← node.record? ["keyword", "type", "attributes", "children"]
  return {
    keyword := ← (← field? entries "keyword").text?
    kind := ← fieldD entries "type" Yaml.Node.text? ""
    attributes := ← fieldD entries "attributes" (fun node => node.items?.bind (·.mapM readAttribute)) []
    children := ← fieldD entries "children" (Yaml.Node.optional? readBounds) none }

def ofNode? (node : Yaml.Node) : Option Catalog := do
  let entries ← node.record? ["version", "schemas"]
  return {
    version := ← (← field? entries "version").text?
    entries := ← fieldD entries "schemas" (fun node => node.items?.bind (·.mapM readEntry)) [] }

def read (text : String) : Except CatalogError Catalog :=
  match (Yaml.document text).bind ofNode? with
  | none => .error .malformed
  | some catalog => .ok catalog

end Catalog

end DialogTree
