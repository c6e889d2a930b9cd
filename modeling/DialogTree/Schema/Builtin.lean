import DialogTree.Schema.Registry
/-!
# Built-in schemas

The dialogs, windows, actions and links that every registry may start with. A family is registered one
schema after another; what came before a failure stays.
-/

namespace DialogTree

namespace Builtin

def maxDimension : Int64 := 16384

/-- A schema with the pair that it is registered under. -/
structure Entry where
  keyword : String
  kind : String
  draft : SchemaDraft

def anyString : Rule := .string .any

def messageDialog : SchemaDraft :=
  SchemaDraft.empty.require "message" .nonEmpty |>.allow "title" anyString

def dialogs : List Entry := [
  ⟨"dialog", "info", messageDialog⟩,
  ⟨"dialog", "warning", messageDialog⟩,
  ⟨"dialog", "error", messageDialog⟩,
  ⟨"dialog", "confirmation", messageDialog.withChildren (.exactly 2)⟩,
  ⟨"dialog", "entry",
    messageDialog.allow "default" anyString |>.allow "placeholder" anyString
      |>.allow "hidden" .bool⟩,
  ⟨"dialog", "choice",
    messageDialog.require "options" (.list .nonEmpty (some 1) none) |>.allow "multiple" .bool
      |>.withChildren (.atMost 2)⟩]

def dimension : Rule := .integer ⟨some 1, some maxDimension⟩

def windows : List Entry := [
  ⟨"window", "",
    SchemaDraft.empty.require "title" anyString |>.allow "width" dimension
      |>.allow "height" dimension |>.allow "resizable" .bool |>.withChildren (.atLeast 1)⟩]

def matching (pattern : String) : Rule :=
  .string { StringRule.any with pattern := some pattern }

def actions : List Entry := [
  ⟨"action", "exit",
    SchemaDraft.empty.allow "label" anyString
      |>.allow "code" (.integer ⟨some 0, some 255⟩)⟩,
  ⟨"action", "open",
    SchemaDraft.empty.allow "label" anyString
      |>.require "url" (matching "^(https?|file)://")⟩,
  ⟨"action", "submit", SchemaDraft.empty.allow "label" anyString⟩]

def links : List Entry := [
  ⟨"link", "",
    SchemaDraft.empty.require "target" (matching "^[A-Za-z_][A-Za-z0-9_.\\-]*$")
      |>.allow "label" anyString⟩]

def all : List Entry := dialogs ++ windows ++ actions ++ links

end Builtin

inductive BuiltinError where
  | schema (keyword kind : String) (error : SchemaError)
  | registry (error : RegistryError)
deriving DecidableEq, Repr

def BuiltinError.message : BuiltinError → String
  | schema keyword kind error =>
    "built-in schema '" ++ keyword ++ "/" ++ kind ++ "' is invalid: " ++ error.message
  | registry error => error.message

/-- Entries registered up to the first failure. -/
def Registry.addBuiltin [PatternEngine] (registry : Registry) :
    List Builtin.Entry → Registry × Except BuiltinError Unit
  | [] => (registry, .ok ())
  | entry :: rest =>
    match entry.draft.build with
    | .error error => (registry, .error (.schema entry.keyword entry.kind error))
    | .ok schema =>
      match registry.register entry.keyword entry.kind schema with
      | (next, .error error) => (next, .error (.registry error))
      | (next, .ok ()) => next.addBuiltin rest

end DialogTree
