import DialogTree.Json.Value
import DialogTree.Number.FloatStyle
/-!
# Value rules

A rule describes the values that an attribute accepts. It is written as an object with its kind under
`type`; limits that are not given do not restrict. Patterns are those of a library, which decides what is one
and where it has a match.
-/

namespace DialogTree

/-- What is asked of a library of patterns. -/
class PatternEngine where
  /-- The text is a pattern. -/
  isValid (pattern : String) : Bool
  /-- Some part of the text matches the pattern. -/
  finds (pattern text : String) : Bool

structure StringRule where
  minLength : Option Nat
  maxLength : Option Nat
  /-- A pattern of which the value must hold a match. -/
  pattern : Option String
  /-- The accepted values; none at all means every value. -/
  oneOf : List String

def StringRule.any : StringRule := ⟨none, none, none, []⟩

structure IntegerRule where
  min : Option Int64
  max : Option Int64

def IntegerRule.any : IntegerRule := ⟨none, none⟩

structure FloatRule where
  min : Option Binary64
  max : Option Binary64

def FloatRule.any : FloatRule := ⟨none, none⟩

inductive Rule where
  | string (rule : StringRule)
  | integer (rule : IntegerRule)
  | float (rule : FloatRule)
  | bool
  | list (item : Rule) (minLength maxLength : Option Nat)
  | any

namespace Rule

instance : Inhabited Rule := ⟨any⟩

def nonEmpty : Rule := string { StringRule.any with minLength := some 1 }

/-! ## Descriptions -/

/-- A limit in a description, when it is given. -/
def limit {α : Type} (name : String) (text : α → String) (value? : Option α) : List String :=
  (value?.map fun value => name ++ "=" ++ text value).toList

def described (name : String) (parameters : List String) : String :=
  if parameters.isEmpty then name else name ++ "(" ++ ", ".intercalate parameters ++ ")"

def label : Rule → String
  | string rule => described "string"
      (limit "min_len" toString rule.minLength ++ limit "max_len" toString rule.maxLength ++
        limit "pattern" id rule.pattern ++
        if rule.oneOf.isEmpty then [] else ["one_of=" ++ "|".intercalate rule.oneOf])
  | integer rule => described "integer"
      (limit "min" (toString ·.toInt) rule.min ++ limit "max" (toString ·.toInt) rule.max)
  | float rule => described "float"
      (limit "min" FloatStyle.plain.text rule.min ++ limit "max" FloatStyle.plain.text rule.max)
  | bool => "bool"
  | list item minLength maxLength => described "list"
      (["item=" ++ item.label] ++ limit "min_len" toString minLength ++
        limit "max_len" toString maxLength)
  | any => "any"

/-! ## Written form -/

def optional {α : Type} (toJson : α → Json.Value) : Option α → Json.Value
  | none => .null
  | some value => toJson value

def natural (n : Nat) : Json.Value := .integer n

/-- A rule as an object: its kind, then every limit, given or not. -/
def toJson : Rule → Json.Value
  | string rule => .object [
      ("type", .string "string"),
      ("min_len", optional natural rule.minLength),
      ("max_len", optional natural rule.maxLength),
      ("pattern", optional .string rule.pattern),
      ("one_of", .array (rule.oneOf.map .string))]
  | integer rule => .object [
      ("type", .string "integer"),
      ("min", optional (.integer ·.toInt) rule.min),
      ("max", optional (.integer ·.toInt) rule.max)]
  | float rule => .object [
      ("type", .string "float"),
      ("min", optional .float rule.min),
      ("max", optional .float rule.max)]
  | bool => .object [("type", .string "bool")]
  | list item minLength maxLength => .object [
      ("type", .string "list"),
      ("item", item.toJson),
      ("min_len", optional natural minLength),
      ("max_len", optional natural maxLength)]
  | any => .object [("type", .string "any")]

end Rule

end DialogTree
