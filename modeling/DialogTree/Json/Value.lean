import DialogTree.Number.Binary64
/-!
# JSON values

Objects keep their entries in source order, repeated keys included. A whole number keeps its exact value
and is told apart from a float.
-/

namespace DialogTree

namespace Json

inductive Value where
  | null
  | bool (value : Bool)
  | integer (number : Int)
  | float (number : Binary64)
  | string (text : String)
  | array (items : List Value)
  | object (entries : List (String × Value))

namespace Value

instance : Inhabited Value := ⟨null⟩

def isInt64 (number : Int) : Bool :=
  -2 ^ 63 ≤ number && number < 2 ^ 63

/-- The kind of a value, as diagnostics name it. Whole numbers beyond the signed range count as floats. -/
def kindName : Value → String
  | null => "null"
  | bool _ => "bool"
  | integer number => if isInt64 number then "integer" else "float"
  | float _ => "float"
  | string _ => "string"
  | array _ => "array"
  | object _ => "object"

/-- The first entry of a key. -/
def field? (entries : List (String × Value)) (key : String) : Option Value :=
  (entries.find? fun entry => entry.1 == key).map Prod.snd

end Value

end Json

end DialogTree
