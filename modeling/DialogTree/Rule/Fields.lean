import DialogTree.Json.Value
/-!
# Fields of objects

A record is written as an object, or as an array of its fields in their order. Unknown keys mean nothing, a
known key occurs at most once, and a field that may be left out has a value of its own then.
-/

namespace DialogTree

namespace Json

/-- The values of a record's fields, by name. -/
structure FieldSource where
  value? : String → Option Value

/-- The fields of an object. A known key that is repeated refuses the object. -/
def fieldsOfObject (names : List String) (entries : List (String × Value)) : Option FieldSource :=
  if names.all fun name => (entries.filter fun entry => entry.1 == name).length ≤ 1 then
    some ⟨Value.field? entries⟩
  else none

/-- The fields of an array, which may end early but holds nothing else. -/
def fieldsOfArray (names : List String) (items : List Value) : Option FieldSource :=
  if items.length ≤ names.length then some ⟨Value.field? (names.zip items)⟩ else none

def fieldsOf (names : List String) : Value → Option FieldSource
  | .object entries => fieldsOfObject names entries
  | .array items => fieldsOfArray names items
  | _ => none

/-- The largest unsigned 64-bit number bounds lengths and counts. -/
def Value.natural? : Value → Option Nat
  | .integer number => if 0 ≤ number ∧ number < 2 ^ 64 then some number.toNat else none
  | _ => none

def Value.int64? : Value → Option Int64
  | .integer number => if isInt64 number then some (Int64.ofInt number) else none
  | _ => none

def Value.number? : Value → Option Binary64
  | .integer number => some (Binary64.ofInt number)
  | .float number => some number
  | _ => none

def Value.text? : Value → Option String
  | .string text => some text
  | _ => none

def Value.texts? : Value → Option (List String)
  | .array items => items.mapM Value.text?
  | _ => none

namespace FieldSource

/-- A field with a value of its own when it is left out. -/
def getD {α : Type} (source : FieldSource) (name : String) (read : Value → Option α) (default : α) :
    Option α :=
  match source.value? name with
  | none => some default
  | some value => read value

/-- A field that is left out or null when there is no limit. -/
def limit? {α : Type} (source : FieldSource) (name : String) (read : Value → Option α) :
    Option (Option α) :=
  source.getD name (fun value =>
    match value with
    | .null => some none
    | other => (read other).map some) none

end FieldSource

end Json

end DialogTree
