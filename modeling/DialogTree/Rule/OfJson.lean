import DialogTree.Rule.Basic
import DialogTree.Rule.Fields
/-!
# Reading rules

A rule is an object with its kind under `type`, or an array of its kind and its fields in their order. A
rule for the items of a list may give its kind as a number.
-/

namespace DialogTree

namespace Rule

open Json

def stringFields : List String := ["min_len", "max_len", "pattern", "one_of"]

def numberFields : List String := ["min", "max"]

def listFields : List String := ["item", "min_len", "max_len"]

def stringOf (fields : Value) : Option Rule := do
  let source ← fieldsOf stringFields fields
  return string {
    minLength := ← source.limit? "min_len" Value.natural?
    maxLength := ← source.limit? "max_len" Value.natural?
    pattern := ← source.limit? "pattern" Value.text?
    oneOf := ← source.getD "one_of" Value.texts? [] }

def integerOf (fields : Value) : Option Rule := do
  let source ← fieldsOf numberFields fields
  return integer ⟨← source.limit? "min" Value.int64?, ← source.limit? "max" Value.int64?⟩

def floatOf (fields : Value) : Option Rule := do
  let source ← fieldsOf numberFields fields
  return float ⟨← source.limit? "min" Value.number?, ← source.limit? "max" Value.number?⟩

/-- A rule without fields; an object may hold keys that mean nothing. -/
def plainOf (rule : Rule) : Value → Option Rule
  | .array (_ :: _) => none
  | _ => some rule

def listOf (item : Rule) (fields : Value) : Option Rule := do
  let source ← fieldsOf listFields fields
  return list item (← source.limit? "min_len" Value.natural?)
    (← source.limit? "max_len" Value.natural?)

/-- A rule of a given kind, whose items are ruled by `item?`. -/
def ofKind (kind : String) (item? : Option Rule) (fields : Value) : Option Rule :=
  match kind with
  | "string" => stringOf fields
  | "integer" => integerOf fields
  | "float" => floatOf fields
  | "bool" => plainOf bool fields
  | "list" => item?.bind fun item => listOf item fields
  | "any" => plainOf any fields
  | _ => none

/-- The kinds in the order of their numbers. -/
def kinds : List String := ["string", "integer", "float", "bool", "list", "any"]

def fieldsOfKind (kind : String) : List String :=
  match kind with
  | "string" => stringFields
  | "integer" => numberFields
  | "float" => numberFields
  | "list" => listFields
  | _ => []

/-- Where a rule stands: on its own, or for the items of a list. -/
inductive Place where
  | whole
  | items

def Place.kind? : Place → Value → Option String
  | _, .string kind => some kind
  | .items, .integer number => if 0 ≤ number then kinds[number.toNat]? else none
  | _, _ => none

/-- The kind, when the object names it exactly once. -/
def kindOf (place : Place) (entries : List (String × Value)) : Option String :=
  match entries.filter fun entry => entry.1 == "type" with
  | [(_, value)] => place.kind? value
  | _ => none

mutual

def readAt (place : Place) : Value → Option Rule
  | .object entries => do
    ofKind (← kindOf place entries) (itemOfEntries entries) (.object entries)
  | .array [] => none
  | .array (kind :: fields) => do
    ofKind (← place.kind? kind) (itemOfFields fields) (.array fields)
  | _ => none

def itemOfEntries : List (String × Value) → Option Rule
  | [] => none
  | (key, value) :: rest => if key = "item" then readAt .items value else itemOfEntries rest

/-- The rule in the place of the item rule. -/
def itemOfFields : List Value → Option Rule
  | [] => none
  | value :: _ => readAt .items value

end

def ofJson? (value : Value) : Option Rule :=
  readAt .whole value

end Rule

end DialogTree
