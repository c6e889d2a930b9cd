import DialogTree.Number.FloatStyle
import DialogTree.Text.Quoted
/-!
# Attribute values

A value is a string, a truth value, a signed 64-bit integer, a floating-point number or a list of values.
Integers and floating-point numbers stand for each other where the number is exactly the same.
-/

namespace DialogTree

inductive Value where
  | string (text : String)
  | bool (value : Bool)
  | integer (number : Int64)
  | float (number : Binary64)
  | list (items : List Value)

namespace Value

instance : Inhabited Value := ⟨bool false⟩

def kindName : Value → String
  | string _ => "string"
  | bool _ => "bool"
  | integer _ => "integer"
  | float _ => "float"
  | list _ => "list"

def asString? : Value → Option String
  | string text => some text
  | _ => none

def asBool? : Value → Option Bool
  | bool value => some value
  | _ => none

/-- The value as an integer; a float counts when it is exactly one of the signed 64-bit range. -/
def asInteger? : Value → Option Int64
  | integer number => some number
  | float number => number.toInt64?
  | _ => none

/-- The value as a float; an integer is rounded. -/
def asFloat? : Value → Option Binary64
  | float number => some number
  | integer number => some (Binary64.ofInt number.toInt)
  | _ => none

def asList? : Value → Option (List Value)
  | list items => some items
  | _ => none

mutual

/-- Equality of content. Floats are compared as numbers, so `nan` differs from itself. -/
def equals : Value → Value → Bool
  | string a, string b => a == b
  | bool a, bool b => a == b
  | integer a, integer b => a == b
  | float a, float b => a.equals b
  | list a, list b => allEqual a b
  | _, _ => false

def allEqual : List Value → List Value → Bool
  | [], [] => true
  | a :: as, b :: bs => equals a b && allEqual as bs
  | _, _ => false

end

mutual

def shown : Value → String
  | string text => quoted text
  | bool value => toString value
  | integer number => toString number.toInt
  | float number => FloatStyle.shown.text number
  | list items => "[" ++ ", ".intercalate (allShown items) ++ "]"

def allShown : List Value → List String
  | [] => []
  | item :: rest => shown item :: allShown rest

end

end Value

end DialogTree
